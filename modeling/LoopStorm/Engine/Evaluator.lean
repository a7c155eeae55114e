import LoopStorm.Engine.Budget
import LoopStorm.Engine.LoopDetector

/-!
# Policy evaluator

`apps/engine/src/evaluator.rs`: the four stages that answer a request before
anything is recorded, and the conditions of a rule.

* `evaluate` — the stages in order, with the loop detector they leave behind.
* `firstMatch` — the rule that decides, `evaluateRules` the answer it gives;
  `firstMatch_eq_some_iff` says what being first means.
* `evaluate_escalate`, `evaluate_overCap`, `evaluate_check` — one equation per
  way out; `decision_evaluate` puts the decisions together.
-/

namespace LoopStorm.Engine

variable {F : Type} [Float64 F]

/-! ## Conditions -/

/-- Navigate a JSON value using dot-notation path. -/
def navigateJson (value : Value F) (path : String) : Option String :=
  let rec go (current : Value F) : List (List Char) → Option (Value F)
    | [] => some current
    | part :: parts =>
      match current with
      | .obj map =>
        match Json.lookup (String.ofList part) map with
        | some next => go next parts
        | none => none
      | _ => none
  match go value (path.toList.splitOn '.') with
  | some (.str s) => some s
  | some (.num n) => some (String.ofList n.text)
  | some (.bool b) => some (if b then "true" else "false")
  | some .null => none
  | some current => some (String.ofList current.toText)
  | none => none

/-- Extract a field value from a request for condition evaluation. -/
def extractFieldValue (field : String) (request : DecisionRequest F) : Option String :=
  if field = "agent_role" then request.agentRole
  else if field = "environment" then request.environment
  else if field = "tool" then some request.tool
  else if field = "agent_name" then request.agentName
  else if field = "model" then request.model
  else if field = "run_id" then some request.runId
  else if "args.".toList.isPrefixOf field.toList then
    request.argsRedacted.bind (fun args => navigateJson args (String.ofList (field.toList.drop 5)))
  else none

/-- The operand of `equals` and `not_equals`. -/
def Condition.expected (c : Condition F) : String :=
  (c.value.bind Json.asStr).getD ""

/-- The operand of `matches` and `not_matches`. -/
def Condition.patternStr (c : Condition F) : String :=
  (c.pattern.or (c.value.bind Json.asStr)).getD ""

/-- The operand of `in` and `not_in`. -/
def Condition.values (c : Condition F) : List String :=
  ((c.value.bind Json.asArr).getD []).filterMap Json.asStr

/-- Evaluate a single condition against a request.  A field that is missing
makes every condition false, and so does a pattern that is no glob. -/
def evaluateSingleCondition [Globset] (condition : Condition F) (request : DecisionRequest F) :
    Bool :=
  match extractFieldValue condition.field request with
  | none => false
  | some val =>
    match condition.operator with
    | .equals => val = condition.expected
    | .notEquals => val ≠ condition.expected
    | .matches =>
      match Globset.compile condition.patternStr with
      | some glob => glob val
      | none => false
    | .notMatches =>
      match Globset.compile condition.patternStr with
      | some glob => !glob val
      | none => false
    | .isIn => condition.values.contains val
    | .notIn => !condition.values.contains val

/-- Evaluate all conditions against a request. -/
def evaluateConditions [Globset] (conditions : List (Condition F))
    (request : DecisionRequest F) : Bool :=
  conditions.all (fun condition => evaluateSingleCondition condition request)

/-- The rule's tool selector and all its conditions match. -/
def CompiledRule.applies [Globset] (r : CompiledRule F) (request : DecisionRequest F) : Bool :=
  r.matchesTool request.tool &&
    match r.rule.conditions with
    | some conditions => evaluateConditions conditions request
    | none => true

/-- The first rule in evaluation order that applies. -/
def firstMatch [Globset] (policy : CompiledPolicy F) (request : DecisionRequest F) :
    Option (CompiledRule F) :=
  policy.compiledRules.find? (fun r => r.applies request)

/-- The rule applies and none before it does. -/
def FirstMatch [Globset] (policy : CompiledPolicy F) (request : DecisionRequest F)
    (r : CompiledRule F) : Prop :=
  ∃ pre post, policy.compiledRules = pre ++ r :: post ∧ r.applies request = true ∧
    ∀ q ∈ pre, q.applies request = false

theorem firstMatch_eq_some_iff [Globset] {policy : CompiledPolicy F}
    {request : DecisionRequest F} {r : CompiledRule F} :
    firstMatch policy request = some r ↔ FirstMatch policy request r := by
  rw [firstMatch, List.find?_eq_some_iff_append, FirstMatch]
  constructor
  · rintro ⟨happ, pre, post, heq, hpre⟩
    exact ⟨pre, post, heq, happ, fun q hq => by simpa using hpre q hq⟩
  · rintro ⟨pre, post, heq, happ, hpre⟩
    exact ⟨happ, pre, post, heq, fun q hq => by simpa using hpre q hq⟩

/-- The decision of an action. -/
def RuleAction.decision : RuleAction → Decision
  | .allow => .allow
  | .deny => .deny
  | .requireApproval => .requireApproval

/-! ## Responses -/

/-- A response without cooldown, approval or budget fields. -/
def DecisionResponse.plain (request : DecisionRequest F) (decision : Decision)
    (ruleId reason : Option String) (ts : String) : DecisionResponse F where
  schemaVersion := 1
  runId := request.runId
  seq := request.seq
  decision := decision
  ruleId := ruleId
  reason := reason
  cooldownMs := none
  cooldownMessage := none
  approvalId := none
  approvalTimeoutMs := none
  approvalTimeoutAction := none
  budgetRemaining := none
  ts := ts

/-- `escalate_to_human`, the tool that no rule may block. -/
def escalateTool : String := "escalate_to_human"

/-- The answer to `escalate_to_human`. -/
def escalateResponse (request : DecisionRequest F) (ts : String) : DecisionResponse F :=
  .plain request .allow (some "__builtin_escalate_to_human_allow")
    (some "escalate_to_human is always allowed") ts

/-- The answer over a hard cap. -/
def hardCapResponse (request : DecisionRequest F) (dimension : String) (current cap : F)
    (ts : String) : DecisionResponse F :=
  .plain request .kill (some "__builtin_budget_hard_cap")
    (some ("budget hard cap exceeded: " ++ dimension ++ " = " ++ Float64.fixed4 current ++
      " (cap: " ++ Float64.fixed4 cap ++ ")")) ts

/-- The answer to the first trigger of the loop detector. -/
def cooldownResponse (request : DecisionRequest F) (config : LoopDetectionConfig)
    (reason ts : String) : DecisionResponse F :=
  { DecisionResponse.plain request .cooldown (some "__builtin_loop_detection") (some reason) ts with
    cooldownMs := some config.cooldownMs
    cooldownMessage :=
      some ("Loop detected: " ++ reason ++ ". The agent should try a different approach.") }

/-- The answer to its second trigger. -/
def loopResponse (request : DecisionRequest F) (reason ts : String) : DecisionResponse F :=
  .plain request .kill (some "__builtin_loop_detection") (some reason) ts

/-- The first applicable rule answers; without one the answer is deny. -/
def evaluateRules [Globset] (request : DecisionRequest F) (policy : CompiledPolicy F)
    (ts : String) : DecisionResponse F :=
  match firstMatch policy request with
  | some r => .plain request r.rule.action.decision (some r.rule.name) r.rule.reason ts
  | none =>
    .plain request .deny none
      (some ("no matching policy rule for tool '" ++ request.tool ++
        "' — fail-closed deny")) ts

/-! ## The stages -/

/-- The loop detection config in force: the defaults apply when the policy has
none. -/
def CompiledPolicy.loopConfig (policy : CompiledPolicy F) : LoopDetectionConfig :=
  policy.policy.loopDetection.getD default

/-- The budget pre-check of a run under the policy. -/
def budgetPreCheck (policy : CompiledPolicy F) (budgetTracker : BudgetTracker F)
    (runId : String) : Option (BudgetStatus F) :=
  policy.policy.budget.bind (budgetTracker.checkHardCapsWithConfig runId)

/-- Evaluate a decision request against the full enforcement pipeline.  `ts` is
the time of the answer, `now` the instant the loop detector sees. -/
def evaluate [Globset] (request : DecisionRequest F) (policy : CompiledPolicy F)
    (budgetTracker : BudgetTracker F) (loopDetector : LoopDetector) (ts : String) (now : Nat) :
    DecisionResponse F × LoopDetector :=
  if request.tool = escalateTool then (escalateResponse request ts, loopDetector)
  else
    match budgetPreCheck policy budgetTracker request.runId with
    | some (.hardCapExceeded dimension current cap) =>
      (hardCapResponse request dimension current cap ts, loopDetector)
    | _ =>
      let config := policy.loopConfig
      if config.enabled then
        let (status, loopDetector) := loopDetector.check request config now
        match status with
        | .cooldownWarning reason => (cooldownResponse request config reason ts, loopDetector)
        | .loopDetected reason => (loopResponse request reason ts, loopDetector)
        | .ok => (evaluateRules request policy ts, loopDetector)
      else (evaluateRules request policy ts, loopDetector)

/-! ## Ways out -/

section WaysOut

variable [Globset] {request : DecisionRequest F} {policy : CompiledPolicy F}
  {budgetTracker : BudgetTracker F} {loopDetector : LoopDetector} {ts : String} {now : Nat}

omit [Globset] in
/-- The pre-check reports a breach exactly when the run has recorded totals over
a hard cap. -/
theorem isSome_budgetPreCheck (policy : CompiledPolicy F) (budgetTracker : BudgetTracker F)
    (runId : String) :
    (budgetPreCheck policy budgetTracker runId).isSome =
      (budgetTracker.states runId).any (fun s => s.overHardCap policy.policy.budget) := by
  unfold budgetPreCheck
  cases policy.policy.budget with
  | none => cases budgetTracker.states runId <;> rfl
  | some config => exact isSome_checkHardCapsWithConfig ..

omit [Globset] in
/-- What it reports is a breach, nothing milder. -/
theorem budgetPreCheck_eq {st : BudgetStatus F} {runId : String}
    (h : budgetPreCheck policy budgetTracker runId = some st) :
    ∃ dimension current cap, st = .hardCapExceeded dimension current cap := by
  unfold budgetPreCheck at h
  obtain ⟨config, -, h⟩ := Option.bind_eq_some_iff.1 h
  have hcap := isHardCap_of_checkHardCapsWithConfig h
  cases st with
  | hardCapExceeded dimension current cap => exact ⟨_, _, _, rfl⟩
  | ok => cases hcap
  | softCapWarning => cases hcap

/-- `escalate_to_human` is answered before any other stage. -/
theorem evaluate_escalate (h : request.tool = escalateTool) :
    evaluate request policy budgetTracker loopDetector ts now =
      (escalateResponse request ts, loopDetector) :=
  if_pos h

/-- Over a hard cap the run is killed before the loop detector sees the call. -/
theorem evaluate_overCap (h : request.tool ≠ escalateTool)
    (hcap : (budgetPreCheck policy budgetTracker request.runId).isSome = true)
    (loopDetector : LoopDetector) (ts : String) (now : Nat) :
    ∃ dimension current cap, evaluate request policy budgetTracker loopDetector ts now =
      (hardCapResponse request dimension current cap ts, loopDetector) := by
  obtain ⟨st, hst⟩ := Option.isSome_iff_exists.1 hcap
  obtain ⟨dimension, current, cap, rfl⟩ := budgetPreCheck_eq hst
  refine ⟨dimension, current, cap, ?_⟩
  rw [evaluate, if_neg h, hst]

/-- Within the caps the loop detector decides between its two triggers and the
rules. -/
theorem evaluate_check (h : request.tool ≠ escalateTool)
    (hcap : (budgetPreCheck policy budgetTracker request.runId).isSome = false) :
    evaluate request policy budgetTracker loopDetector ts now =
      (match (loopDetector.check request policy.loopConfig now).1 with
        | .cooldownWarning reason => cooldownResponse request policy.loopConfig reason ts
        | .loopDetected reason => loopResponse request reason ts
        | .ok => evaluateRules request policy ts,
       (loopDetector.check request policy.loopConfig now).2) := by
  have hnone : budgetPreCheck policy budgetTracker request.runId = none := by
    simpa using hcap
  rw [evaluate, if_neg h, hnone]
  by_cases henabled : policy.loopConfig.enabled = true
  · simp only [henabled, if_true]
    cases (loopDetector.check request policy.loopConfig now).1 <;> rfl
  · -- a disabled detector answers Ok and stays as it is
    have hcheck : loopDetector.check request policy.loopConfig now = (.ok, loopDetector) := by
      rw [LoopDetector.check, if_pos (by simpa using henabled)]
    simp only [henabled, hcheck, Bool.false_eq_true, if_false]

/-- The decision of the rules. -/
def ruleDecision (policy : CompiledPolicy F) (request : DecisionRequest F) : Decision :=
  match firstMatch policy request with
  | some r => r.rule.action.decision
  | none => .deny

theorem decision_evaluateRules :
    (evaluateRules request policy ts).decision = ruleDecision policy request := by
  unfold evaluateRules ruleDecision
  cases firstMatch policy request <;> rfl

/-- The decision of the stages up to the rules. -/
theorem decision_evaluate (h : request.tool ≠ escalateTool) :
    (evaluate request policy budgetTracker loopDetector ts now).1.decision =
      if (budgetTracker.states request.runId).any (fun s => s.overHardCap policy.policy.budget)
      then .kill
      else
        match (loopDetector.check request policy.loopConfig now).1 with
        | .cooldownWarning _ => .cooldown
        | .loopDetected _ => .kill
        | .ok => ruleDecision policy request := by
  rw [← isSome_budgetPreCheck]
  cases hcap : (budgetPreCheck policy budgetTracker request.runId).isSome with
  | true =>
    obtain ⟨dimension, current, cap, heq⟩ :=
      evaluate_overCap h hcap loopDetector ts now
    rw [heq]
    rfl
  | false =>
    rw [evaluate_check h hcap]
    cases (loopDetector.check request policy.loopConfig now).1 with
    | ok => exact decision_evaluateRules
    | cooldownWarning reason => rfl
    | loopDetected reason => rfl

/-! ## One run's state -/

/-- The stages leave the loop state of every other run alone. -/
theorem states_evaluate_of_ne {other : String} (h : other ≠ request.runId) :
    (evaluate request policy budgetTracker loopDetector ts now).2.states other =
      loopDetector.states other := by
  by_cases htool : request.tool = escalateTool
  · rw [evaluate_escalate htool]
  · cases hcap : (budgetPreCheck policy budgetTracker request.runId).isSome with
    | true =>
      obtain ⟨dimension, current, cap, heq⟩ :=
        evaluate_overCap htool hcap loopDetector ts now
      rw [heq]
    | false =>
      rw [evaluate_check htool hcap]
      exact states_check_of_ne h ..

/-- The stages read the totals and the loop state of the request's run only. -/
theorem evaluate_congr {budgetTracker' : BudgetTracker F} {loopDetector' : LoopDetector}
    (hb : budgetTracker.states request.runId = budgetTracker'.states request.runId)
    (hl : loopDetector.states request.runId = loopDetector'.states request.runId) :
    (evaluate request policy budgetTracker loopDetector ts now).1 =
        (evaluate request policy budgetTracker' loopDetector' ts now).1 ∧
      (evaluate request policy budgetTracker loopDetector ts now).2.states request.runId =
        (evaluate request policy budgetTracker' loopDetector' ts now).2.states request.runId := by
  have hpre : budgetPreCheck policy budgetTracker request.runId =
      budgetPreCheck policy budgetTracker' request.runId := by
    rw [budgetPreCheck, budgetPreCheck, checkHardCapsWithConfig_congr hb]
  by_cases htool : request.tool = escalateTool
  · rw [evaluate_escalate htool, evaluate_escalate htool]
    exact ⟨rfl, hl⟩
  · cases hcap : budgetPreCheck policy budgetTracker request.runId with
    | some st =>
      obtain ⟨dimension, current, cap, rfl⟩ := budgetPreCheck_eq hcap
      rw [evaluate, evaluate, if_neg htool, if_neg htool, ← hpre, hcap]
      exact ⟨rfl, hl⟩
    | none =>
      obtain ⟨hstatus, hstate⟩ := check_congr hl policy.loopConfig now
      rw [evaluate_check htool (by rw [hcap]; rfl),
        evaluate_check htool (by rw [← hpre, hcap]; rfl), hstatus]
      exact ⟨rfl, hstate⟩

end WaysOut

end LoopStorm.Engine
