import LoopStorm.Engine.Decision
import LoopStorm.Lib.MapM

/-!
# Policy packs

`apps/engine/src/policy.rs` from the deserialized `Policy` on: validation,
compilation of the glob patterns and the priority sort.  The YAML reader in
front of it is third-party; a `Policy` here is what it hands over.

* `Globset` — the glob compiler, a parameter.
* `validateAndCompile` — the checks of the loader, with its errors.
* `map_rule_mapM` — compiling neither drops nor invents a rule.
-/

namespace LoopStorm.Engine

/-- The `globset` crate: compile a pattern into a matcher, or fail. -/
class Globset where
  /-- `Glob::new(pattern)` followed by `compile_matcher`. -/
  compile : String → Option (String → Bool)

/-- The enforcement action for a rule. -/
inductive RuleAction where
  | allow
  | deny
  | requireApproval
  deriving DecidableEq, Repr

/-- Comparison operators for conditions. -/
inductive ConditionOperator where
  | equals
  | notEquals
  | matches
  | notMatches
  | isIn
  | notIn
  deriving DecidableEq, Repr

variable (F : Type) [Float64 F]

/-- A condition that must be true for a rule to match. -/
structure Condition where
  field : String
  operator : ConditionOperator
  value : Option (Value F)
  pattern : Option String

/-- A single policy rule. -/
structure Rule where
  name : String
  action : RuleAction
  tool : Option String
  toolPattern : Option String
  conditions : Option (List (Condition F))
  timeout : Option UInt64
  timeoutAction : Option String
  reason : Option String
  priority : Option Int64

/-- Budget dimension for floating-point values (`cost_usd`). -/
structure BudgetDimensionFloat where
  soft : Option F
  hard : F

/-- Budget dimension for integer values (tokens, `call_count`). -/
structure BudgetDimensionInt where
  soft : Option UInt64
  hard : UInt64

/-- Budget configuration with four dimensions. -/
structure BudgetConfig where
  costUsd : Option (BudgetDimensionFloat F)
  inputTokens : Option BudgetDimensionInt
  outputTokens : Option BudgetDimensionInt
  callCount : Option BudgetDimensionInt

/-- Loop detection configuration. -/
structure LoopDetectionConfig where
  enabled : Bool
  identicalCallWindowSeconds : UInt64
  identicalCallThreshold : UInt64
  identicalErrorThreshold : UInt64
  cooldownMs : UInt64

/-- `LoopDetectionConfig::default()`. -/
instance : Inhabited LoopDetectionConfig where
  default :=
    { enabled := true
      identicalCallWindowSeconds := 120
      identicalCallThreshold := 3
      identicalErrorThreshold := 3
      cooldownMs := 5000 }

/-- A custom redaction pattern. -/
structure RedactionPattern where
  name : String
  pattern : String
  replacement : String

/-- Redaction configuration. -/
structure RedactionConfig where
  enabled : Bool
  additionalPatterns : Option (List RedactionPattern)
  keyPatterns : Option (List String)

/-- A deserialized policy pack. -/
structure Policy where
  schemaVersion : UInt32
  name : Option String
  description : Option String
  agentRole : Option String
  environment : Option String
  rules : List (Rule F)
  budget : Option (BudgetConfig F)
  loopDetection : Option LoopDetectionConfig
  redaction : Option RedactionConfig

/-- A rule with a pre-compiled glob matcher for `tool_pattern`. -/
structure CompiledRule where
  rule : Rule F
  toolGlob : Option (String → Bool)

/-- A fully compiled policy pack ready for evaluation. -/
structure CompiledPolicy where
  policy : Policy F
  compiledRules : List (CompiledRule F)

/-- Errors of policy validation. -/
inductive PolicyError where
  | unsupportedVersion (version : UInt32)
  | invalidGlob (rule : String)
  | toolAndPatternBoth (rule : String)
  | emptyRules
  deriving DecidableEq, Repr

variable {F}

/-- Does the rule's `tool` or `tool_pattern` match the tool name? -/
def CompiledRule.matchesTool (r : CompiledRule F) (tool : String) : Bool :=
  match r.rule.tool with
  | some exact => exact = tool
  | none =>
    match r.toolGlob with
    | some glob => glob tool
    -- No tool or tool_pattern means the rule matches any tool.
    | none => true

/-- The order of evaluation: explicit priorities ascending, then the rules
without one.  Ties keep their order, the sort being stable. -/
def CompiledRule.before (a b : CompiledRule F) : Prop :=
  match a.rule.priority, b.rule.priority with
  | some pa, some pb => pa ≤ pb
  | some _, none => True
  | none, some _ => False
  | none, none => True

instance : DecidableRel (CompiledRule.before (F := F)) := fun a b => by
  unfold CompiledRule.before
  split <;> infer_instance

/-- Compile one rule: `tool` and `tool_pattern` exclude each other and the
pattern has to be a glob. -/
def compileRule [Globset] (rule : Rule F) : Except PolicyError (CompiledRule F) :=
  if rule.tool.isSome && rule.toolPattern.isSome then .error (.toolAndPatternBoth rule.name)
  else
    match rule.toolPattern with
    | none => .ok ⟨rule, none⟩
    | some pattern =>
      match Globset.compile pattern with
      | none => .error (.invalidGlob rule.name)
      | some glob => .ok ⟨rule, some glob⟩

/-- Validate the deserialized policy and compile its glob patterns. -/
def Policy.validateAndCompile [Globset] (p : Policy F) :
    Except PolicyError (CompiledPolicy F) :=
  if p.schemaVersion ≠ 1 then .error (.unsupportedVersion p.schemaVersion)
  else if p.rules.isEmpty then .error .emptyRules
  else
    match p.rules.mapM compileRule with
    | .error e => .error e
    | .ok compiled => .ok ⟨p, compiled.insertionSort CompiledRule.before⟩

/-- Compiling a rule keeps the rule. -/
theorem rule_compileRule [Globset] {rule : Rule F} {c : CompiledRule F}
    (h : compileRule rule = .ok c) : c.rule = rule := by
  unfold compileRule at h
  split at h
  · cases h
  · split at h
    · cases h; rfl
    · split at h
      · cases h
      · cases h; rfl

/-- An accepted policy is kept as it was, next to its compiled rules. -/
theorem policy_validateAndCompile [Globset] {p : Policy F} {c : CompiledPolicy F}
    (h : p.validateAndCompile = .ok c) : c.policy = p := by
  unfold Policy.validateAndCompile at h
  split at h
  · cases h
  · split at h
    · cases h
    · split at h
      · cases h
      · cases h; rfl

/-- The compiled rules are the rules of the policy. -/
theorem map_rule_mapM [Globset] {rules : List (Rule F)} {cs : List (CompiledRule F)}
    (h : rules.mapM compileRule = .ok cs) : cs.map CompiledRule.rule = rules := by
  have hread := MapM.forall₂_of_ok h
  clear h
  induction hread with
  | nil => rfl
  | cons hr _ ih => rw [List.map_cons, ih, rule_compileRule hr]

end LoopStorm.Engine
