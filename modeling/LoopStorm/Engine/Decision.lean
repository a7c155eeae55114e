import LoopStorm.Lib.Float64

/-!
# Decisions, requests and responses

The types of `apps/engine/src/decision.rs`: what a shim asks the engine and
what the engine answers, with every field of the two IPC messages.

* `Decision.wire` — the snake-case name a decision is serialized under;
  `wire_injective` says no two share one.
* `DecisionResponse.wire` — the JSON object `serde_json` writes for a response:
  struct order, absent options skipped.
-/

namespace LoopStorm.Engine

/-- A `serde_json::Value`. -/
abbrev Value (F : Type) [Float64 F] : Type := Json String (Number F)

/-- The compact text of a value, `serde_json::to_string`. -/
def Value.toText {F : Type} [Float64 F] (v : Value F) : List Char :=
  Json.render Json.quote Number.text v

/-- The enforcement decision produced by the engine for each tool call. -/
inductive Decision where
  | allow
  | deny
  | cooldown
  | kill
  | requireApproval
  deriving DecidableEq, Repr

/-- The name a decision is serialized under (`rename_all = "snake_case"`). -/
def Decision.wire : Decision → String
  | .allow => "allow"
  | .deny => "deny"
  | .cooldown => "cooldown"
  | .kill => "kill"
  | .requireApproval => "require_approval"

theorem Decision.wire_injective : Function.Injective Decision.wire := by
  intro a b h
  cases a <;> cases b <;> first | rfl | exact absurd h (by decide)

variable (F : Type) [Float64 F]

/-- Inbound request from a shim. -/
structure DecisionRequest where
  schemaVersion : UInt32
  runId : String
  seq : UInt64
  tool : String
  argsHash : String
  argsRedacted : Option (Value F)
  agentRole : Option String
  agentName : Option String
  model : Option String
  inputTokens : Option UInt64
  outputTokens : Option UInt64
  estimatedCostUsd : Option F
  environment : Option String
  ts : String

/-- Outbound response to the shim. -/
structure DecisionResponse where
  schemaVersion : UInt32
  runId : String
  seq : UInt64
  decision : Decision
  ruleId : Option String
  reason : Option String
  cooldownMs : Option UInt64
  cooldownMessage : Option String
  approvalId : Option String
  approvalTimeoutMs : Option UInt64
  approvalTimeoutAction : Option String
  budgetRemaining : Option (Value F)
  ts : String

variable {F}

/-- A member of a serialized struct, skipped when the field is absent. -/
def optMember {α : Type} (key : String) (f : α → Value F) : Option α → List (String × Value F)
  | none => []
  | some a => [(key, f a)]

theorem lookup_optMember_of_ne {α : Type} {key k : String} (h : k ≠ key) (f : α → Value F)
    (o : Option α) : Json.lookup key (optMember k f o) = none := by
  cases o with
  | none => rfl
  | some a => simp [optMember, Json.lookup, h]

/-- An unsigned integer as a JSON number. -/
def u64Value (n : UInt64) : Value F := .num (.posInt n)

/-- A double as `serde_json` writes it in a struct field: `null` unless finite. -/
def f64Value (x : F) : Value F :=
  if h : Float64.isFinite x = true then .num (.float x h) else .null

/-- The members of a serialized response, in struct order. -/
def DecisionResponse.wire (r : DecisionResponse F) : List (String × Value F) :=
  [("schema_version", u64Value r.schemaVersion.toUInt64), ("run_id", .str r.runId),
    ("seq", u64Value r.seq), ("decision", .str r.decision.wire)] ++
  optMember "rule_id" .str r.ruleId ++
  optMember "reason" .str r.reason ++
  optMember "cooldown_ms" u64Value r.cooldownMs ++
  optMember "cooldown_message" .str r.cooldownMessage ++
  optMember "approval_id" .str r.approvalId ++
  optMember "approval_timeout_ms" u64Value r.approvalTimeoutMs ++
  optMember "approval_timeout_action" .str r.approvalTimeoutAction ++
  optMember "budget_remaining" id r.budgetRemaining ++
  [("ts", .str r.ts)]

end LoopStorm.Engine
