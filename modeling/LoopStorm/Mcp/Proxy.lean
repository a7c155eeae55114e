import LoopStorm.Shim.ArgsHash
import LoopStorm.Shim.Exclusive

/-!
# The MCP proxy

`LoopStormProxy` of `proxy.ts` with the translations of `mapping.ts`: every
`tools/call` is put to the engine over one shared connection, and forwarded to
an upstream server if the reply says so.

* `mcpToolCallToDecisionRequest`, `decisionResponseToMcpError` — the two
  translations.
* `Proxy.toolsCall`, `step` — a call arrives, or something happens on the
  connection.
* `Proxy.result` — what the handler of a call returns.
* `Proxy.Allowed` — the engine has allowed the request of a call.
-/

namespace LoopStorm.Mcp

open LoopStorm.Engine LoopStorm.Shim

/-! ## Errors -/

/-- Policy denied the tool call. -/
def loopstormDenied : Int := -32001

/-- Loop detected; call paused. -/
def loopstormCooldown : Int := -32002

/-- Run terminated by policy or budget. -/
def loopstormKilled : Int := -32003

/-- Call held for human approval. -/
def loopstormApprovalRequired : Int := -32004

/-- Engine connection failed. -/
def loopstormEngineUnavailable : Int := -32005

/-- The data of an error; every one also says `loopstorm: true`. -/
structure LoopStormErrorData where
  ruleId : Option ReplyValue := none
  reason : Option ReplyValue := none
  cooldownMs : Option ReplyValue := none
  cooldownMessage : Option ReplyValue := none
  approvalId : Option ReplyValue := none
  approvalTimeoutMs : Option ReplyValue := none

/-- An error for the agent. -/
structure McpErrorResult where
  code : Int
  message : String
  data : LoopStormErrorData

mutual
/-- A value inside a template string. -/
def display : ReplyValue → List Char
  | .null => "null".toList
  | .bool true => "true".toList
  | .bool false => "false".toList
  | .num n => n
  | .str s => s.toList
  | .arr xs => Json.joinComma (displayElems xs)
  | .obj _ => "[object Object]".toList

/-- The elements of an array inside a template string. -/
def displayElems : List ReplyValue → List (List Char)
  | [] => []
  | .null :: xs => [] :: displayElems xs
  | x :: xs => display x :: displayElems xs
end

/-- The error for a decision that is none of the known ones. -/
def unknownDecision (decision : Option ReplyValue) : McpErrorResult :=
  let text := String.ofList ((decision.map display).getD "undefined".toList)
  { code := loopstormKilled
    message := "Unknown decision: " ++ text
    data := { reason := some (.str ("Unknown decision type: " ++ text)) } }

/-- Translate a reply into an error; `none` if the call is to be forwarded. -/
def decisionResponseToMcpError (response : DecisionResponse) : Option McpErrorResult :=
  match response.decision with
  | some (.str decision) =>
    if decision = "allow" then none
    else if decision = "deny" then
      some {
        code := loopstormDenied
        message := "Tool call denied by policy"
        data := { ruleId := response.ruleId, reason := response.reason } }
    else if decision = "cooldown" then
      some {
        code := loopstormCooldown
        message := "Tool call paused: loop detected"
        data := {
          cooldownMs := response.cooldownMs
          cooldownMessage := response.cooldownMessage } }
    else if decision = "kill" then
      some {
        code := loopstormKilled
        message := "Run terminated"
        data := { ruleId := response.ruleId, reason := response.reason } }
    else if decision = "require_approval" then
      some {
        code := loopstormApprovalRequired
        message := "Tool call held for human approval"
        data := {
          approvalId := response.approvalId
          approvalTimeoutMs := response.approvalTimeoutMs } }
    else some (unknownDecision response.decision)
  | _ => some (unknownDecision response.decision)

/-- Of the engine's replies, exactly those that allow are no error. -/
theorem decisionResponseToMcpError_readBack {F : Type} [Float64 F]
    (r : Engine.DecisionResponse F) :
    decisionResponseToMcpError (readBack r) = none ↔ r.decision = .allow := by
  unfold decisionResponseToMcpError
  rw [decision_readBack]
  cases r.decision <;> simp [Decision.wire]

/-! ## Calls -/

section Calls

variable (ν : Type)

/-- The parameters of a `tools/call`; `metadata` is `_meta`. -/
structure McpToolCallParams where
  name : Ts.Str
  arguments : Option (List (Ts.Str × Json Ts.Str ν))
  metadata : Option (List (Ts.Str × Json Ts.Str ν))

/-- What the proxy adds to a call. -/
structure RunContext where
  runId : Ts.Str
  seq : Nat
  agentName : Option Ts.Str
  agentRole : Option Ts.Str
  environment : Option Ts.Str

/-- A call the proxy has taken. -/
structure Call where
  params : McpToolCallParams ν
  ctx : RunContext
  ts : Ts.Str

/-- An upstream server and the names its own list of tools has. -/
structure Upstream where
  id : Ts.Str
  /-- Its tools are shown with its id in front. -/
  prefixed : Bool
  tools : List Ts.Str

/-- The configuration, with the upstream servers that have been connected. -/
structure ProxyConfig where
  agentName : Option Ts.Str
  agentRole : Option Ts.Str
  environment : Option Ts.Str
  upstreams : List Upstream

variable {ν}

/-- The arguments of a call, `null` when it has none. -/
def McpToolCallParams.args (params : McpToolCallParams ν) : Json Ts.Str ν :=
  match params.arguments with
  | none => .null
  | some ms => .obj ms

/-- The run id a call asks for, if it asks for one. -/
def McpToolCallParams.runIdOverride (params : McpToolCallParams ν) : Option Ts.Str :=
  match params.metadata.bind (Json.lookup (Ts.lit "loopstorm_run_id")) with
  | some (.str override) => if override = [] then none else some override
  | _ => none

/-- Translate a call into a request; `none` when its arguments have no hash. -/
def mcpToolCallToDecisionRequest [NumberText ν] [Sha256] (params : McpToolCallParams ν)
    (ctx : RunContext) (ts : Ts.Str) : Option (DecisionRequest Ts.Str ν) :=
  (Ts.argsHash params.args).map fun hash =>
    { schemaVersion := 1
      runId := ctx.runId
      seq := ctx.seq
      tool := params.name
      argsHash := hash
      ts := ts
      argsRedacted := some params.args
      agentRole := ctx.agentRole
      agentName := ctx.agentName
      model := none
      inputTokens := none
      outputTokens := none
      estimatedCostUsd := none
      environment := ctx.environment }

/-- The request of a call. -/
def Call.request [NumberText ν] [Sha256] (call : Call ν) : Option (DecisionRequest Ts.Str ν) :=
  mcpToolCallToDecisionRequest call.params call.ctx call.ts

/-- The name a tool of a server is shown under. -/
def Upstream.displayName (u : Upstream) (tool : Ts.Str) : Ts.Str :=
  if u.prefixed then u.id ++ Ts.lit "." ++ tool else tool

/-- The first server with a tool of that name. -/
def ProxyConfig.findUpstreamForTool (config : ProxyConfig) (toolName : Ts.Str) :
    Option Upstream :=
  config.upstreams.find? fun u => (u.tools.map u.displayName).contains toolName

/-- The name to call a tool of a server by. -/
def Upstream.originalToolName (u : Upstream) (toolName : Ts.Str) : Ts.Str :=
  if u.prefixed then toolName.drop (u.id.length + 1) else toolName

end Calls

/-! ## The proxy -/

/-- What the handler of a call returns. -/
inductive CallResult (ν : Type) where
  | error (e : McpErrorResult)
  | noUpstream (toolName : Ts.Str)
  | forwarded (upstream : Upstream) (name : Ts.Str)
      (arguments : Option (List (Ts.Str × Json Ts.Str ν)))
  | thrown

/-- The state of a proxy. -/
structure Proxy (ν F : Type) [Float64 F] where
  engine : EngineConnection F
  runId : Ts.Str
  runIdLocked : Bool
  seq : Nat
  /-- The calls taken so far, by their number. -/
  calls : Nat → Option (Call ν)

/-- An event. -/
inductive Event (ν F : Type) [Float64 F] where
  | toolsCall (params : McpToolCallParams ν) (ts : Ts.Str)
  | engine (e : EngineConnection.Event F)

namespace Proxy

variable {ν F : Type} [NumberText ν] [Float64 F] [Sha256]

omit [NumberText ν] [Sha256] in
/-- A proxy that has just started, with a random run id. -/
def new (runId : Ts.Str) : Proxy ν F := ⟨.new, runId, false, 0, fun _ => none⟩

omit [NumberText ν] [Sha256] in
/-- The next call: the first one may set the run id. -/
def nextCall (config : ProxyConfig) (p : Proxy ν F) (params : McpToolCallParams ν)
    (ts : Ts.Str) : Call ν where
  params := params
  ctx :=
    { runId := if p.runIdLocked then p.runId else params.runIdOverride.getD p.runId
      seq := p.seq + 1
      agentName := config.agentName
      agentRole := config.agentRole
      environment := config.environment }
  ts := ts

/-- A call arrives: number it, and put it to the engine. -/
def toolsCall (config : ProxyConfig) (p : Proxy ν F) (params : McpToolCallParams ν)
    (ts : Ts.Str) : Proxy ν F :=
  let call := p.nextCall config params ts
  { engine :=
      match call.request with
      | some request => p.engine.request (p.seq + 1) (Ts.toNdjson request)
      | none => p.engine
    runId := call.ctx.runId
    runIdLocked := true
    seq := p.seq + 1
    calls := Function.update p.calls (p.seq + 1) (some call) }

/-- The proxy after an event; `none` when the event cannot happen. -/
def step (config : ProxyConfig) (p : Proxy ν F) : Event ν F → Option (Proxy ν F)
  | .toolsCall params ts => if p.engine.crashed then none else some (p.toolsCall config params ts)
  | .engine e => (p.engine.step e).map fun engine => { p with engine := engine }

/-- What the handler of a call returns, once it does. -/
def result (config : ProxyConfig) (p : Proxy ν F) (i : Nat) : Option (CallResult ν) :=
  (p.calls i).bind fun call =>
    if call.request.isNone then some .thrown
    else
      match p.engine.phase i with
      | .resolved response =>
        match decisionResponseToMcpError response with
        | some e => some (.error e)
        | none =>
          match config.findUpstreamForTool call.params.name with
          | none => some (.noUpstream call.params.name)
          | some u =>
            some (.forwarded u (u.originalToolName call.params.name) call.params.arguments)
      | .rejected (.engineUnavailable message) =>
        some (.error
          { code := loopstormEngineUnavailable
            message := "LoopStorm engine unavailable"
            data := { reason := some (.str message) } })
      | .rejected _ => some .thrown
      | _ => none

/-- The engine has read the request of a call, and allowed it. -/
def Allowed (p : Proxy ν F) (i : Nat) (call : Call ν) : Prop :=
  ∃ request r, call.request = some request ∧ p.engine.line i = Ts.toNdjson request ∧
    (i, r) ∈ p.engine.answers ∧ r.decision = .allow

end Proxy

end LoopStorm.Mcp
