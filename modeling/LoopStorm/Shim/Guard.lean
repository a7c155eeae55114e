import LoopStorm.Shim.ArgsHash

/-!
# The guard of the language shims

`Guard.check` of `_guard.py` and `guard.ts`, with the connection under it, for
one call at a time and an engine that is up: it accepts every connection and
answers every line it is sent, in chunks of any size.

* `Language`, `Ts.language`, `Py.language` — what the two implementations differ
  in.
* `recvLine` — the loop that reads a reply.
* `Link`, `Link.Synced` — the connection an earlier call has left.
* `request`, `send` — one attempt, and the retry on a new connection after any
  exception; a second exception is an allowance when the guard fails open.
* `handleDecision`, `check` — what the caller gets.
-/

namespace LoopStorm.Shim

open LoopStorm.Engine

/-- A shim, as its language makes it. -/
structure Language (σ ν : Type) where
  lit : String → σ
  argsHash : Json σ ν → Option σ
  toNdjson : DecisionRequest σ ν → Option (List UInt8)
  fromJson : List UInt8 → Option DecisionResponse
  /-- A field of a reply, or a default: `??` or `or`. -/
  orElse : Option ReplyValue → ReplyValue → ReplyValue
  /-- It reads the engine's line. -/
  reads : ∀ {F : Type} [Float64 F] (r : Engine.DecisionResponse F),
    fromJson (responseBytes r) = some (readBack r)

/-- `a ?? b`. -/
def Ts.orElse (v : Option ReplyValue) (default : ReplyValue) : ReplyValue :=
  match v with
  | none => default
  | some .null => default
  | some v => v

/-- Python's truth of a value. -/
def Py.truthy : ReplyValue → Bool
  | .null => false
  | .bool b => b
  | .num n => (n.takeWhile (fun c => c ≠ 'e' ∧ c ≠ 'E')).any fun c => '1' ≤ c && c ≤ '9'
  | .str s => s ≠ ""
  | .arr xs => !xs.isEmpty
  | .obj ms => !ms.isEmpty

/-- `a or b`. -/
def Py.orElse (v : Option ReplyValue) (default : ReplyValue) : ReplyValue :=
  match v with
  | none => default
  | some v => if Py.truthy v then v else default

/-- The TypeScript shim. -/
def Ts.language {ν : Type} [NumberText ν] [Sha256] : Language Ts.Str ν where
  lit := Ts.lit
  argsHash := Ts.argsHash
  toNdjson r := some (Ts.toNdjson r)
  fromJson := Ts.fromJson
  orElse := Ts.orElse
  reads r := (fromJson_responseBytes r).1

/-- The Python shim. -/
def Py.language {ν : Type} [NumberText ν] [Sha256] : Language Py.Str ν where
  lit := Py.lit
  argsHash := Py.argsHash
  toNdjson := Py.toNdjson
  fromJson := Py.fromJson
  orElse := Py.orElse
  reads r := (fromJson_responseBytes r).2

/-! ## One attempt -/

/-- Why an attempt raised. -/
inductive Failure where
  | unencodable
  | messageTooLarge (size : Nat)
  | connectionLost
  | unreadable
  deriving DecidableEq, Repr

/-- Bytes cut into chunks: each number is one less than the length of a chunk,
and what is left over is one chunk more. -/
def cut : List Nat → List UInt8 → List (List UInt8)
  | _, [] => []
  | [], bytes => [bytes]
  | n :: ns, b :: bytes => (b :: bytes.take n) :: cut ns (bytes.drop n)

/-- `recv_response`: read chunks until the buffer holds a line, and not too
much. -/
def recvLine (buffer : List UInt8) : List (List UInt8) → Except Failure (List UInt8)
  | [] =>
    match splitLine buffer with
    | some (line, _) => .ok line
    | none => .error .connectionLost
  | chunk :: chunks =>
    match splitLine buffer with
    | some (line, _) => .ok line
    | none =>
      let buffer := buffer ++ chunk
      if buffer.length > maxMessageSize then .error (.messageTooLarge buffer.length)
      else recvLine buffer chunks

/-- An answer of the engine, and how its bytes arrive. -/
structure Answer (F : Type) [Float64 F] where
  response : Engine.DecisionResponse F
  cuts : List Nat

/-- The connection before a call. -/
inductive Link where
  | absent
  /-- Connected, with bytes in the buffer and bytes of the socket still to be
  read. -/
  | connected (buffer unread : List UInt8)
  /-- Connected as far as the shim knows, but the engine has closed it. -/
  | stale
  deriving DecidableEq, Repr

/-- What the calls up to number `seq` can leave: every reply has been read, or
the last one was too long and part of it is in the buffer. -/
def Link.Synced (F : Type) [Float64 F] (seq : Nat) : Link → Prop
  | .absent => True
  | .stale => True
  | .connected buffer unread =>
    (buffer = [] ∧ unread = []) ∨
      buffer.length > maxMessageSize ∧ ∃ old : Engine.DecisionResponse F,
        old.seq.toNat ≤ seq ∧ buffer <+: writeResponse old

/-- What comes of sending a request: the reply or an exception, and the answers
the engine has given. -/
structure Sent (F α : Type) [Float64 F] where
  reply : Except Failure α
  answers : List (Engine.DecisionResponse F)

section Send

variable {σ ν F : Type} [Float64 F] (shim : Language σ ν)

/-- `request`: connect if need be, send the line, read the reply. -/
def request (link : Link) (r : DecisionRequest σ ν) (answer : Answer F) :
    Sent F DecisionResponse :=
  match shim.toNdjson r with
  | none => ⟨.error .unencodable, []⟩
  | some line =>
    if line.length > maxMessageSize then ⟨.error (.messageTooLarge line.length), []⟩
    else
      let receive buffer unread :=
        match recvLine buffer (cut answer.cuts (unread ++ writeResponse answer.response)) with
        | .error e => .error e
        | .ok line =>
          match shim.fromJson line with
          | some reply => .ok reply
          | none => .error .unreadable
      match link with
      | .stale => ⟨.error .connectionLost, []⟩
      | .absent => ⟨receive [] [], [answer.response]⟩
      | .connected buffer unread => ⟨receive buffer unread, [answer.response]⟩

/-- `send`: after any exception reconnect and try once more; after a second one
give no reply, if the guard fails open. -/
def send (failOpen : Bool) (link : Link) (r : DecisionRequest σ ν) (first second : Answer F) :
    Sent F (Option DecisionResponse) :=
  let attempt := request shim link r first
  match attempt.reply with
  | .ok reply => ⟨.ok (some reply), attempt.answers⟩
  | .error _ =>
    let retry := request shim (.connected [] []) r second
    let answers := attempt.answers ++ retry.answers
    match retry.reply with
    | .ok reply => ⟨.ok (some reply), answers⟩
    | .error e => if failOpen then ⟨.ok none, answers⟩ else ⟨.error e, answers⟩

end Send

/-! ## The guard -/

/-- What `check` raises. -/
inductive GuardError where
  | policyDenied (ruleId reason : Option ReplyValue)
  | cooldown (ms : ReplyValue) (message : Option ReplyValue)
  | runTerminated (ruleId reason : Option ReplyValue)
  | approvalRequired (approvalId timeoutMs timeoutAction : ReplyValue)
  /-- `runTerminated` for a decision that is none of the known ones. -/
  | unknownDecision (decision : Option ReplyValue)
  | engineUnavailable (e : Failure)
  /-- The arguments have no hash. -/
  | unhashable

/-- Remaining budget as reported by the engine. -/
structure BudgetRemaining where
  costUsd : Option ReplyValue
  inputTokens : Option ReplyValue
  outputTokens : Option ReplyValue
  callCount : Option ReplyValue

/-- What `check` returns. -/
structure DecisionResult where
  decision : ReplyValue
  ruleId : Option ReplyValue := none
  reason : Option ReplyValue := none
  cooldownMs : Option ReplyValue := none
  cooldownMessage : Option ReplyValue := none
  budgetRemaining : Option BudgetRemaining := none

/-- The remaining budget of a reply, which is an object if it is there. -/
def DecisionResponse.budget (response : DecisionResponse) : Option BudgetRemaining :=
  (response.budgetRemaining.bind Json.asObj).map fun ms =>
    { costUsd := Json.lookup "cost_usd" ms
      inputTokens := Json.lookup "input_tokens" ms
      outputTokens := Json.lookup "output_tokens" ms
      callCount := Json.lookup "call_count" ms }

/-- A guard. -/
structure Guard (σ F : Type) [Float64 F] where
  failOpen : Bool
  runId : σ
  agentRole : Option σ
  agentName : Option σ
  environment : Option σ
  model : Option σ
  seq : Nat
  link : Link
  synced : link.Synced F seq

/-- The arguments of `check`, and the time of the call. -/
structure CheckArgs (σ ν : Type) where
  toolName : σ
  args : Option (List (σ × Json σ ν))
  inputTokens : Option ν
  outputTokens : Option ν
  estimatedCostUsd : Option ν
  ts : σ

section Check

variable {σ ν F : Type} [DecidableEq σ] [Float64 F] (shim : Language σ ν)

/-- The arguments as a value, `null` when there are none. -/
def CheckArgs.value (call : CheckArgs σ ν) : Json σ ν :=
  match call.args with
  | none => .null
  | some ms => .obj ms

/-- The request of a call; `none` when its arguments have no hash. -/
def Guard.request (g : Guard σ F) (call : CheckArgs σ ν) : Option (DecisionRequest σ ν) :=
  (shim.argsHash call.value).map fun hash =>
    { schemaVersion := 1
      runId := g.runId
      seq := g.seq + 1
      tool := call.toolName
      argsHash := hash
      ts := call.ts
      argsRedacted := call.args.map .obj
      agentRole := g.agentRole
      agentName := g.agentName
      model := g.model
      inputTokens := call.inputTokens
      outputTokens := call.outputTokens
      estimatedCostUsd := call.estimatedCostUsd
      environment := g.environment }

/-- The reply carries the number and the run id of the request. -/
def echoes (r : DecisionRequest σ ν) (response : DecisionResponse) : Bool :=
  match response.seq, response.runId with
  | some (.num n), some (.str runId) => n = Json.natText r.seq && shim.lit runId = r.runId
  | _, _ => false

/-- Enforce the engine's decision. -/
def handleDecision (response : DecisionResponse) : Except GuardError DecisionResult :=
  match response.decision with
  | some (.str decision) =>
    if decision = "allow" then
      .ok {
        decision := .str decision
        ruleId := response.ruleId
        reason := response.reason
        cooldownMs := response.cooldownMs
        cooldownMessage := response.cooldownMessage
        budgetRemaining := response.budget }
    else if decision = "deny" then .error (.policyDenied response.ruleId response.reason)
    else if decision = "cooldown" then
      .error (.cooldown (shim.orElse response.cooldownMs (.num ['0'])) response.cooldownMessage)
    else if decision = "kill" then .error (.runTerminated response.ruleId response.reason)
    else if decision = "require_approval" then
      .error (.approvalRequired (shim.orElse response.approvalId (.str ""))
        (shim.orElse response.approvalTimeoutMs (.num ['0']))
        (shim.orElse response.approvalTimeoutAction (.str "deny")))
    else .error (.unknownDecision response.decision)
  | _ => .error (.unknownDecision response.decision)

/-- What becomes of a call: what `check` returns or raises, and the answers the
engine has given to its request. -/
structure Outcome (F : Type) [Float64 F] where
  result : Except GuardError DecisionResult
  answers : List (Engine.DecisionResponse F)

/-- Send a decision request to the engine and enforce the result. -/
def Guard.check (g : Guard σ F) (call : CheckArgs σ ν) (first second : Answer F) : Outcome F :=
  match g.request shim call with
  | none => ⟨.error .unhashable, []⟩
  | some r =>
    let sent := send shim g.failOpen g.link r first second
    let result :=
      match sent.reply with
      | .error e => .error (.engineUnavailable e)
      | .ok none => .ok { decision := .str "allow" }
      | .ok (some response) =>
        if echoes shim r response then handleDecision shim response
        else
          .error (.runTerminated none
            (some (.str "protocol error: seq/run_id mismatch in engine response")))
    ⟨result, sent.answers⟩

end Check

end LoopStorm.Shim
