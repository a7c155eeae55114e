import LoopStorm.Backend.Event

/-!
# Policy validation on the server

`packages/backend/src/lib/policy-validate.ts`: the structural checks of a policy
pack and the protection of `escalate_to_human`.  Content is a parsed JSON
object; a field that is not there reads as `undefined`.

* `validateAgainstSchema`, `validateBudget` — the structural checks, with the
  path, the message and the code of every error; the budget check throws on
  `null`.
* `checkEscalateToHumanInvariant` — no rule may deny the escalation tool.
* `validatePolicy` — both, the second only after the first has passed.
* `accepts_iff` — what it takes for a content to be accepted.
-/

namespace LoopStorm.Backend

open LoopStorm.Shim (NumberText)

/-- Numbers, as far as the checks compare them. -/
class JsNumber (ν : Type) extends NumberText ν where
  /-- `n === 1` -/
  isOne : ν → Bool
  /-- `!(n <= 0)` -/
  isPositive : ν → Bool

/-- The package `picomatch`: a pattern, which may be any value, against a name;
`none` when it throws. -/
class Picomatch (ν : Type) where
  isMatch : Json String ν → String → Option Bool

/-- A structured validation error. -/
structure PolicyValidationError where
  path : String
  message : String
  code : String
  deriving DecidableEq

/-- Result of a policy validation. -/
inductive PolicyValidationResult where
  | valid
  | invalid (errors : List PolicyValidationError)
  deriving DecidableEq

/-- The tool name that can never be denied. -/
def escalateToHumanTool : String := "escalate_to_human"

variable {ν : Type}

/-! ## Values in JavaScript -/

section Values

variable [NumberText ν]

/-- A property of a value that is not `null`. -/
def property (v : Json String ν) (key : String) : Option (Json String ν) :=
  match v with
  | .obj ms => Json.lookup key ms
  | _ => none

/-- `typeof v === "object" && v !== null`. -/
def isObjectValue : Json String ν → Bool
  | .obj _ | .arr _ => true
  | _ => false

/-- `JSON.stringify` in a template. -/
def stringified : Option (Json String ν) → String
  | none => "undefined"
  | some v => String.ofList (Json.render Json.quote NumberText.text v)

mutual
/-- A value in a template. -/
def display : Json String ν → String
  | .null => "null"
  | .bool b => if b then "true" else "false"
  | .num n => String.ofList (NumberText.text n)
  | .str s => s
  | .arr xs => String.intercalate "," (displayItems xs)
  | .obj _ => "[object Object]"

/-- The items of an array in a template; `null` is left out. -/
def displayItems : List (Json String ν) → List String
  | [] => []
  | .null :: xs => "" :: displayItems xs
  | x :: xs => display x :: displayItems xs
end

end Values

variable [JsNumber ν]

/-! ## The structure -/

/-- The actions a rule may have. -/
def validActions : List String := ["allow", "deny", "require_approval"]

/-- A name that is a string with something in it. -/
def isRuleName : Option (Json String ν) → Bool
  | some (.str s) => !s.toList.all isJsSpace
  | _ => false

/-- An action that is one of the valid ones. -/
def isRuleAction : Option (Json String ν) → Bool
  | some (.str s) => validActions.contains s
  | _ => false

/-- The checks of one rule. -/
def validateRule (rulePath : String) (rule : Json String ν) : List PolicyValidationError :=
  if !isObjectValue rule then [⟨rulePath, "Each rule must be an object", "INVALID_RULE"⟩]
  else
    (if isRuleName (property rule "name") then []
      else [⟨rulePath ++ ".name", "Rule name must be a non-empty string", "MISSING_RULE_NAME"⟩]) ++
    (if isRuleAction (property rule "action") then []
      else [⟨rulePath ++ ".action",
        "Rule action must be one of: " ++ String.intercalate ", " validActions,
        "INVALID_RULE_ACTION"⟩]) ++
    (if (property rule "tool").isSome && (property rule "tool_pattern").isSome then
      [⟨rulePath, "Rule cannot have both 'tool' and 'tool_pattern'", "CONFLICTING_TOOL_FIELDS"⟩]
      else [])

/-- The path of a rule. -/
def rulePath (i : Nat) : String := "rules[" ++ toString i ++ "]"

/-- The checks of the rules from number `i` on. -/
def validateRules (i : Nat) : List (Json String ν) → List PolicyValidationError
  | [] => []
  | rule :: rules => validateRule (rulePath i) rule ++ validateRules (i + 1) rules

/-- A limit that is a positive number. -/
def isLimit : Option (Json String ν) → Bool
  | some (.num n) => JsNumber.isPositive n
  | _ => false

/-- The checks of one dimension of the budget. -/
def validateDimension (dim : String) : Option (Json String ν) → List PolicyValidationError
  | none => []
  | some dimObj =>
    if !isObjectValue dimObj then
      [⟨"budget." ++ dim, "budget." ++ dim ++ " must be an object with a 'hard' field",
        "INVALID_BUDGET_DIMENSION"⟩]
    else
      (if isLimit (property dimObj "hard") then []
        else [⟨"budget." ++ dim ++ ".hard",
          "budget." ++ dim ++ ".hard must be a positive number", "INVALID_BUDGET_HARD_LIMIT"⟩]) ++
      (if (property dimObj "soft").isNone || isLimit (property dimObj "soft") then []
        else [⟨"budget." ++ dim ++ ".soft",
          "budget." ++ dim ++ ".soft must be a positive number", "INVALID_BUDGET_SOFT_LIMIT"⟩])

/-- The dimensions of a budget. -/
def budgetDimensions : List String := ["cost_usd", "input_tokens", "output_tokens", "call_count"]

/-- Validate the budget section of a policy pack; `none` when it throws. -/
def validateBudget : Json String ν → Option (List PolicyValidationError)
  | .null => none
  | budget => some (budgetDimensions.flatMap fun dim => validateDimension dim (property budget dim))

/-- `schema_version` is the number 1. -/
def isVersionOne : Option (Json String ν) → Bool
  | some (.num n) => JsNumber.isOne n
  | _ => false

/-- The check of `schema_version`. -/
def validateVersion (content : List (String × Json String ν)) : List PolicyValidationError :=
  if isVersionOne (Json.lookup "schema_version" content) then []
  else [⟨"schema_version",
    "schema_version must be 1, got: " ++ stringified (Json.lookup "schema_version" content),
    "INVALID_SCHEMA_VERSION"⟩]

/-- Perform structural validation of the policy content; `none` when it
throws. -/
def validateAgainstSchema (content : List (String × Json String ν)) :
    Option (List PolicyValidationError) :=
  match Json.lookup "rules" content with
  | some (.arr rules) => do
    let budgetErrors ← ((Json.lookup "budget" content).map validateBudget).getD (some [])
    return validateVersion content ++
      (if rules.isEmpty then
        [⟨"rules", "rules must contain at least one rule", "EMPTY_RULES"⟩] else []) ++
      validateRules 0 rules ++ budgetErrors
  | _ => some (validateVersion content ++ [⟨"rules", "rules must be an array", "MISSING_RULES"⟩])

/-! ## The escalation tool -/

variable [Picomatch ν]

/-- Test whether a glob pattern matches the escalation tool. -/
def globMatchesEscalateToHuman (pattern : Json String ν) : Bool :=
  (Picomatch.isMatch pattern escalateToHumanTool).getD false

/-- `if (v)`. -/
def isTruthy : Json String ν → Bool
  | .null => false
  | .bool b => b
  | .num n => NumberText.text n ≠ ['0']
  | .str s => s ≠ ""
  | .arr _ | .obj _ => true

/-- The error for a rule that would block the escalation tool. -/
def blockedError (path : String) (rule pattern : Option (Json String ν)) : PolicyValidationError :=
  ⟨path,
    "Policy rejected: rule '" ++ (rule.map display).getD "undefined" ++ "' (pattern '" ++
      (pattern.map display).getD "undefined" ++ "') would block '" ++ escalateToHumanTool ++
      "', which is a protected invariant. See ADR-012 (C13) and CLAUDE.md absolute rule #3.",
    "ESCALATE_TO_HUMAN_BLOCKED"⟩

/-- The check of one rule. -/
def checkRuleInvariant (rulePath : String) (rule : Json String ν) : List PolicyValidationError :=
  match property rule "action" with
  | some (.str "deny") =>
    let name := property rule "name"
    let tool := property rule "tool"
    let pattern := property rule "tool_pattern"
    (match tool with
      | some (.str s) =>
        if s = escalateToHumanTool then [blockedError (rulePath ++ ".tool") name tool] else []
      | _ => []) ++
    (match pattern with
      | some p =>
        if isTruthy p && globMatchesEscalateToHuman p then
          [blockedError (rulePath ++ ".tool_pattern") name pattern] else []
      | none => [])
  | _ => []

/-- Check that no rule from number `i` on blocks the escalation tool. -/
def checkRuleInvariants (i : Nat) : List (Json String ν) → List PolicyValidationError
  | [] => []
  | rule :: rules => checkRuleInvariant (rulePath i) rule ++ checkRuleInvariants (i + 1) rules

/-- Check that no rule blocks the escalation tool. -/
def checkEscalateToHumanInvariant (content : List (String × Json String ν)) :
    List PolicyValidationError :=
  match Json.lookup "rules" content with
  | some (.arr rules) => checkRuleInvariants 0 rules
  | _ => []

/-- Validate a policy pack content object; `none` when it throws. -/
def validatePolicy (content : List (String × Json String ν)) : Option PolicyValidationResult := do
  let errors ← validateAgainstSchema content
  if errors.isEmpty then
    let errors := checkEscalateToHumanInvariant content
    if errors.isEmpty then return .valid else return .invalid errors
  else return .invalid errors

/-! ## What it accepts -/

/-- A rule without a structural error. -/
structure RuleFormed (rule : Json String ν) : Prop where
  isObject : isObjectValue rule = true
  name : isRuleName (property rule "name") = true
  action : isRuleAction (property rule "action") = true
  notBoth : ((property rule "tool").isSome && (property rule "tool_pattern").isSome) = false

/-- A dimension of the budget without an error. -/
def DimensionFormed (dimObj : Option (Json String ν)) : Prop :=
  ∀ v, dimObj = some v → isObjectValue v = true ∧ isLimit (property v "hard") = true ∧
    ((property v "soft").isNone || isLimit (property v "soft")) = true

/-- A content without a structural error. -/
structure ContentFormed (content : List (String × Json String ν)) : Prop where
  version : isVersionOne (Json.lookup "schema_version" content) = true
  rules : ∃ rules, Json.lookup "rules" content = some (.arr rules) ∧ rules ≠ [] ∧
    ∀ rule ∈ rules, RuleFormed rule
  budget : ∀ budget, Json.lookup "budget" content = some budget → budget ≠ .null ∧
    ∀ dim ∈ budgetDimensions, DimensionFormed (property budget dim)

omit [JsNumber ν] [Picomatch ν] in
theorem if_eq_nil {b : Bool} {e : PolicyValidationError} :
    (if b then [] else [e]) = [] ↔ b = true := by
  cases b <;> simp

omit [JsNumber ν] [Picomatch ν] in
theorem validateRule_eq_nil {path : String} {rule : Json String ν} :
    validateRule path rule = [] ↔ RuleFormed rule := by
  unfold validateRule
  cases hobject : isObjectValue rule with
  | false => simpa using fun h : RuleFormed rule => absurd h.isObject (by simp [hobject])
  | true =>
    simp only [Bool.not_true, Bool.false_eq_true, if_false, List.append_eq_nil_iff, if_eq_nil]
    constructor
    · rintro ⟨⟨hname, haction⟩, hboth⟩
      refine ⟨hobject, hname, haction, ?_⟩
      cases hb : (property rule "tool").isSome && (property rule "tool_pattern").isSome with
      | false => rfl
      | true => simp [hb] at hboth
    · intro h
      refine ⟨⟨h.name, h.action⟩, ?_⟩
      rw [h.notBoth]
      rfl

omit [JsNumber ν] [Picomatch ν] in
theorem validateRules_eq_nil {i : Nat} {rules : List (Json String ν)} :
    validateRules i rules = [] ↔ ∀ rule ∈ rules, RuleFormed rule := by
  induction rules generalizing i with
  | nil => simp [validateRules]
  | cons rule rules ih =>
    rw [validateRules, List.append_eq_nil_iff, validateRule_eq_nil, ih, List.forall_mem_cons]

omit [Picomatch ν] in
theorem validateDimension_eq_nil {dim : String} {dimObj : Option (Json String ν)} :
    validateDimension dim dimObj = [] ↔ DimensionFormed dimObj := by
  unfold validateDimension DimensionFormed
  cases dimObj with
  | none => simp
  | some v =>
    cases hobject : isObjectValue v with
    | false => simp [hobject]
    | true =>
      simp only [hobject, Bool.not_true, Bool.false_eq_true, if_false, List.append_eq_nil_iff,
        if_eq_nil]
      constructor
      · rintro ⟨hhard, hsoft⟩ w hw
        cases hw
        exact ⟨hobject, hhard, hsoft⟩
      · intro h
        exact (h v rfl).2

omit [Picomatch ν] in
theorem validateBudget_eq_nil {budget : Json String ν} :
    validateBudget budget = some [] ↔
      budget ≠ .null ∧ ∀ dim ∈ budgetDimensions, DimensionFormed (property budget dim) := by
  have hdims : (budgetDimensions.flatMap fun dim => validateDimension dim (property budget dim)) =
      [] ↔ ∀ dim ∈ budgetDimensions, DimensionFormed (property budget dim) := by
    rw [List.flatMap_eq_nil_iff]
    exact forall₂_congr fun dim _ => validateDimension_eq_nil
  cases budget with
  | null => simp [validateBudget]
  | bool b => simpa [validateBudget] using hdims
  | num n => simpa [validateBudget] using hdims
  | str s => simpa [validateBudget] using hdims
  | arr xs => simpa [validateBudget] using hdims
  | obj ms => simpa [validateBudget] using hdims

omit [Picomatch ν] in
/-- The structural checks find nothing exactly in a content that is formed. -/
theorem validateAgainstSchema_eq_nil {content : List (String × Json String ν)} :
    validateAgainstSchema content = some [] ↔ ContentFormed content := by
  have hversion : validateVersion content = [] ↔
      isVersionOne (Json.lookup "schema_version" content) = true := if_eq_nil
  have hbudget : ((Json.lookup "budget" content).map validateBudget).getD (some []) = some [] ↔
      ∀ budget, Json.lookup "budget" content = some budget → budget ≠ .null ∧
        ∀ dim ∈ budgetDimensions, DimensionFormed (property budget dim) := by
    cases Json.lookup "budget" content with
    | none => simp
    | some budget => simpa using validateBudget_eq_nil
  have hempty (rules : List (Json String ν)) : (if rules.isEmpty then
      [(⟨"rules", "rules must contain at least one rule", "EMPTY_RULES"⟩ :
        PolicyValidationError)] else []) = [] ↔ rules ≠ [] := by
    cases rules <;> simp
  constructor
  · intro h
    unfold validateAgainstSchema at h
    split at h
    case h_1 rules hrules =>
      obtain ⟨budgetErrors, hb, herrors⟩ := Option.bind_eq_some_iff.1 h
      have hnil := Option.some.inj herrors
      rw [List.append_eq_nil_iff, List.append_eq_nil_iff, List.append_eq_nil_iff] at hnil
      obtain ⟨⟨⟨hv, he⟩, hr⟩, rfl⟩ := hnil
      exact ⟨hversion.1 hv, ⟨rules, hrules, (hempty rules).1 he, validateRules_eq_nil.1 hr⟩,
        hbudget.1 hb⟩
    case h_2 => simp at h
  · intro h
    obtain ⟨rules, hrules, hne, hformed⟩ := h.rules
    unfold validateAgainstSchema
    rw [hrules]
    dsimp only
    rw [hbudget.2 h.budget, hversion.2 h.version, (hempty rules).2 hne,
      validateRules_eq_nil.2 hformed]
    rfl

/-- **What the server accepts.** -/
theorem accepts_iff {content : List (String × Json String ν)} :
    validatePolicy content = some .valid ↔
      ContentFormed content ∧ checkEscalateToHumanInvariant content = [] := by
  unfold validatePolicy
  rw [← validateAgainstSchema_eq_nil]
  cases validateAgainstSchema content with
  | none => simp
  | some errors =>
    cases errors with
    | nil =>
      cases checkEscalateToHumanInvariant content with
      | nil => simp
      | cons e es => simp
    | cons e es => simp

end LoopStorm.Backend
