import LoopStorm.Engine.Enforce
import LoopStorm.Lib.Frames
import LoopStorm.Shim.Protocol

/-!
# The engine's socket server

`handle_connection`, `read_line_limited` and `kill_response` of
`apps/engine/src/server.rs`: any number of connections, each with a handler of
its own, around the one context they share.

* `readLineLimited` — what a reader makes of the bytes it has.
* `receive` — what a handler makes of a line: skips it, hands it to `enforce`,
  or refuses it and closes.
* `Conn`, `Conn.step` — a connection and its handler, one step between two
  points where the handler may have to wait.
* `Server`, `Server.step` — the connections, and the context behind its lock.
-/

namespace LoopStorm.Engine

open LoopStorm.Shim (newline splitLine writeResponse)

/-- Maximum message size, including the trailing newline. -/
def maxMessageBytes : Nat := 65536

variable {F : Type} [Float64 F]

/-- Build a kill response for error cases. -/
def killResponse (runId : String) (seq : UInt64) (ruleId reason ts : String) :
    DecisionResponse F where
  schemaVersion := 1
  runId := runId
  seq := seq
  decision := .kill
  ruleId := some ruleId
  reason := some reason
  cooldownMs := none
  cooldownMessage := none
  approvalId := none
  approvalTimeoutMs := none
  approvalTimeoutAction := none
  budgetRemaining := none
  ts := ts

/-! ## Lines -/

/-- Outcome of reading one line. -/
inductive ReadOutcome where
  | line (bytes : List UInt8)
  | tooLarge
  deriving DecidableEq

/-- One turn of the line reader over the bytes `available`: the outcome and the
bytes it leaves, or what it has accumulated when there is no newline yet. -/
def readLineLimited (accumulated available : List UInt8) :
    (ReadOutcome × List UInt8) ⊕ List UInt8 :=
  match splitLine available with
  | some (line, rest) =>
    let accumulated := accumulated ++ (line ++ [newline])
    if maxMessageBytes < accumulated.length then .inl (.tooLarge, rest)
    else .inl (.line accumulated, rest)
  | none =>
    let accumulated := accumulated ++ available
    if maxMessageBytes < accumulated.length then .inl (.tooLarge, [])
    else .inr accumulated

/-- `serde_json::from_str::<DecisionRequest>`: the request, or the text of the
error. -/
class RequestReader (F : Type) [Float64 F] where
  fromStr : List Char → Except String (DecisionRequest F)

/-- Why a handler closes a connection: the fields of the answer it leaves. -/
structure Refusal where
  runId : String
  seq : UInt64
  ruleId : String
  reason : String

/-- The answer to what was refused. -/
def Refusal.response (refusal : Refusal) (ts : String) : DecisionResponse F :=
  killResponse refusal.runId refusal.seq refusal.ruleId refusal.reason ts

/-- A message that exceeds the limit. -/
def Refusal.tooLarge : Refusal :=
  ⟨"unknown", 0, "__builtin_ipc_message_too_large", "message exceeds 64 KiB limit"⟩

/-- A line that is to be answered. -/
inductive Message (F : Type) [Float64 F] where
  | request (request : DecisionRequest F)
  | refused (refusal : Refusal)

/-- The text of a line without its line ending. -/
def trimEnd (s : String) : List Char :=
  (s.toList.rdropWhile (· = '\n')).rdropWhile (· = '\r')

/-- What a handler makes of a line; a blank one is skipped. -/
def receive [RequestReader F] (lineBytes : List UInt8) : Option (Message F) :=
  match Text.ofUtf8 lineBytes with
  | none =>
    some (.refused ⟨"unknown", 0, "__builtin_ipc_encoding_error", "non-UTF-8 bytes in message"⟩)
  | some line =>
    if trimEnd line = [] then none
    else
      match RequestReader.fromStr (F := F) (trimEnd line) with
      | .error e =>
        some (.refused ⟨"unknown", 0, "__builtin_ipc_parse_error", "JSON parse error: " ++ e⟩)
      | .ok request =>
        if request.schemaVersion ≠ 1 then
          some (.refused ⟨request.runId, request.seq, "__builtin_schema_version_unsupported",
            "unsupported schema_version: " ++ toString request.schemaVersion.toNat ++
              " (only 1 is supported)"⟩)
        else some (.request request)

/-! ## A connection -/

/-- Where a handler is. -/
inductive Phase (F : Type) [Float64 F] where
  /-- reading a line, with the bytes of it read so far -/
  | reading (accumulated : List UInt8)
  /-- waiting for the lock, to pass a request to `enforce` -/
  | requesting (request : DecisionRequest F)
  /-- writing an answer, the last one or not -/
  | responding (response : DecisionResponse F) (last : Bool)
  /-- returned -/
  | closed

/-- A connection, seen from the engine. -/
structure Conn (F : Type) [Float64 F] where
  /-- All the peer has written. -/
  sent : List UInt8
  /-- The part of it still in the socket. -/
  unread : List UInt8
  /-- The peer has closed its end. -/
  hungUp : Bool
  /-- The buffer of the reader. -/
  buffered : List UInt8
  phase : Phase F
  /-- All the handler has written. -/
  output : List UInt8

/-- A connection just accepted. -/
def Conn.accepted : Conn F := ⟨[], [], false, [], .reading [], []⟩

/-- What may happen on a connection. -/
inductive ConnEvent where
  /-- the peer writes -/
  | send (bytes : List UInt8)
  /-- the peer closes its end -/
  | hangUp
  /-- the reader fills its empty buffer, with at most `n` bytes -/
  | fill (n : Nat)
  /-- the reader searches its buffer and the handler acts on the outcome; `ts`
  is the time an error would be answered with -/
  | scan (ts : String)
  /-- the handler writes its answer -/
  | respond

/-- What the handler does next with a message. -/
def Message.phase (ts : String) : Option (Message F) → Phase F
  | none => .reading []
  | some (.request r) => .requesting r
  | some (.refused r) => .responding (r.response ts) true

/-- A connection after a turn of its reader. -/
def Conn.scanned [RequestReader F] (c : Conn F) (ts : String) :
    (ReadOutcome × List UInt8) ⊕ List UInt8 → Conn F
  | .inr accumulated => { c with phase := .reading accumulated, buffered := [] }
  | .inl (.tooLarge, rest) =>
    { c with phase := .responding (Refusal.tooLarge.response ts) true, buffered := rest }
  | .inl (.line bytes, rest) =>
    { c with phase := Message.phase ts (receive bytes), buffered := rest }

/-- A step of a connection; `none` when it cannot be taken. -/
def Conn.step [RequestReader F] (c : Conn F) : ConnEvent → Option (Conn F)
  | .send bytes =>
    if c.hungUp then none
    else some { c with sent := c.sent ++ bytes, unread := c.unread ++ bytes }
  | .hangUp => some { c with hungUp := true }
  | .fill n =>
    match c.phase with
    | .reading _ =>
      if c.buffered ≠ [] then none
      else if c.unread ≠ [] then
        if n = 0 then none
        else some { c with buffered := c.unread.take n, unread := c.unread.drop n }
      else if c.hungUp then some { c with phase := .closed }
      else none
    | _ => none
  | .scan ts =>
    match c.phase with
    | .reading accumulated =>
      if c.buffered = [] then none
      else some (c.scanned ts (readLineLimited accumulated c.buffered))
    | _ => none
  | .respond =>
    match c.phase with
    | .responding response last =>
      some { c with
        phase := if last then .closed else .reading []
        output := c.output ++ writeResponse response }
    | _ => none

/-! ## The server -/

/-- The shared context and the connections. -/
structure Server (F : Type) [Float64 F] where
  ctx : EnforcementContext F
  /-- The calls of `enforce` so far and the connections they were made for. -/
  calls : List (Nat × Call F)
  conns : Nat → Conn F

/-- A server nobody has written to. -/
def Server.start (ctx : EnforcementContext F) : Server F := ⟨ctx, [], fun _ => .accepted⟩

/-- What may happen to a server. -/
inductive ServerEvent (F : Type) [Float64 F] where
  | conn (i : Nat) (event : ConnEvent)
  /-- the handler of a connection takes the lock and calls `enforce` -/
  | enforce (i : Nat) (env : CallEnv F)

variable [Globset] [TextTools] [Sha256] [RequestReader F]

/-- The server after a handler has had its request enforced. -/
def Server.afterEnforce (s : Server F) (i : Nat) (request : DecisionRequest F) (env : CallEnv F) :
    Server F where
  ctx := (enforce request env s.ctx).2
  calls := s.calls ++ [(i, ⟨request, env⟩)]
  conns := Function.update s.conns i
    { s.conns i with phase := .responding (enforce request env s.ctx).1 false }

omit [RequestReader F] in
@[simp] theorem Server.conns_afterEnforce_self (s : Server F) (i : Nat)
    (request : DecisionRequest F) (env : CallEnv F) :
    (s.afterEnforce i request env).conns i =
      { s.conns i with phase := .responding (Engine.enforce request env s.ctx).1 false } :=
  Function.update_self ..

omit [RequestReader F] in
theorem Server.conns_afterEnforce_of_ne (s : Server F) {i j : Nat} (h : j ≠ i)
    (request : DecisionRequest F) (env : CallEnv F) :
    (s.afterEnforce i request env).conns j = s.conns j :=
  Function.update_of_ne h ..

/-- A step of the server. -/
def Server.step (s : Server F) : ServerEvent F → Option (Server F)
  | .conn i event =>
    ((s.conns i).step event).map fun c => { s with conns := Function.update s.conns i c }
  | .enforce i env =>
    match (s.conns i).phase with
    | .requesting request => some (s.afterEnforce i request env)
    | _ => none

end LoopStorm.Engine
