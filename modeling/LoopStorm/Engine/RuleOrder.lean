import LoopStorm.Engine.Evaluator
import LoopStorm.Lib.StableFirst

/-!
# First match wins

What the rules of a policy say of a request, by the file they stand in, and what
`evaluate` of `apps/engine/src/evaluator.rs` makes of the compiled and sorted
ones.

* `Reaches`, `Resolves` — the text a field of a condition stands for.
* `ConditionHolds`, `RuleMatches` — when a condition holds and a rule matches.
* `Earlier`, `FirstMatching` — explicit priorities ascending, then the rules
  without one, ties by position in the file.
* `resolves_iff`, `conditionHolds_iff`, `applies_iff` — the evaluator decides
  these.
* `first_match_wins` — **a request that passes the budget and loop stages gets
  the action of the first matching rule, or is denied.**
-/

namespace LoopStorm.Engine

variable {F : Type} [Float64 F]

/-! ## Conditions and rules -/

/-- The keys of a path lead from a value to another one. -/
inductive Reaches : Value F → List (List Char) → Value F → Prop
  | here (value : Value F) : Reaches value [] value
  | key {members : List (String × Value F)} {part : List Char} {parts : List (List Char)}
    {next leaf : Value F} (found : Json.lookup (String.ofList part) members = some next)
    (rest : Reaches next parts leaf) : Reaches (.obj members) (part :: parts) leaf

/-- The text of a value that a path has led to; `null` has none. -/
def leafText : Value F → Option String
  | .null => none
  | .str s => some s
  | .num n => some (String.ofList n.text)
  | .bool b => some (if b then "true" else "false")
  | leaf => some (String.ofList leaf.toText)

/-- The text a field stands for in a request: a field of the request, or a value
below its arguments. -/
def Resolves (field : String) (request : DecisionRequest F) (text : String) : Prop :=
  (field = "agent_role" ∧ request.agentRole = some text) ∨
    (field = "environment" ∧ request.environment = some text) ∨
    (field = "tool" ∧ request.tool = text) ∨
    (field = "agent_name" ∧ request.agentName = some text) ∨
    (field = "model" ∧ request.model = some text) ∨
    (field = "run_id" ∧ request.runId = text) ∨
    ∃ path args leaf, field.toList = "args.".toList ++ path ∧ request.argsRedacted = some args ∧
      Reaches args (path.splitOn '.') leaf ∧ leafText leaf = some text

/-- A condition compares the text of its field with its operand. -/
def ConditionHolds [Globset] (c : Condition F) (request : DecisionRequest F) : Prop :=
  ∃ text, Resolves c.field request text ∧
    match c.operator with
    | .equals => text = c.expected
    | .notEquals => text ≠ c.expected
    | .matches => ∃ glob, Globset.compile c.patternStr = some glob ∧ glob text = true
    | .notMatches => ∃ glob, Globset.compile c.patternStr = some glob ∧ glob text = false
    | .isIn => text ∈ c.values
    | .notIn => text ∉ c.values

/-- A rule matches by its tool, by its pattern, or without either, when all its
conditions hold. -/
def RuleMatches [Globset] (rule : Rule F) (request : DecisionRequest F) : Prop :=
  (match rule.tool, rule.toolPattern with
    | some exact, _ => exact = request.tool
    | none, some pattern =>
      ∃ glob, Globset.compile pattern = some glob ∧ glob request.tool = true
    | none, none => True) ∧
    ∀ conditions, rule.conditions = some conditions →
      ∀ c ∈ conditions, ConditionHolds c request

/-- The order of two positions of a file by the priorities there. -/
def Earlier (priority : Option Int64) (i : Nat) (priority' : Option Int64) (j : Nat) : Prop :=
  match priority, priority' with
  | some a, some b => a < b ∨ a = b ∧ i < j
  | some _, none => True
  | none, some _ => False
  | none, none => i < j

/-- The rule at a position matches, and comes before all others that do. -/
def FirstMatching [Globset] (rules : List (Rule F)) (request : DecisionRequest F) (i : Nat)
    (rule : Rule F) : Prop :=
  rules[i]? = some rule ∧ RuleMatches rule request ∧
    ∀ j rule', rules[j]? = some rule' → RuleMatches rule' request → j ≠ i →
      Earlier rule.priority i rule'.priority j

/-- The request passes the stages before the rules. -/
structure PassesStages (request : DecisionRequest F) (policy : CompiledPolicy F)
    (budgetTracker : BudgetTracker F) (loopDetector : LoopDetector) (now : Nat) : Prop where
  tool : request.tool ≠ escalateTool
  budget : budgetPreCheck policy budgetTracker request.runId = none
  loop : (loopDetector.check request policy.loopConfig now).1 = .ok

/-! ## The evaluator decides them -/

theorem go_eq_some_iff {value leaf : Value F} {parts : List (List Char)} :
    navigateJson.go value parts = some leaf ↔ Reaches value parts leaf := by
  induction parts generalizing value with
  | nil =>
    rw [navigateJson.go]
    constructor
    · rintro ⟨⟩
      exact .here _
    · rintro ⟨⟩
      rfl
  | cons part parts ih =>
    constructor
    · intro h
      cases value with
      | obj members =>
        rw [navigateJson.go] at h
        cases hlookup : Json.lookup (String.ofList part) members with
        | none =>
          rw [hlookup] at h
          cases h
        | some next =>
          rw [hlookup] at h
          exact .key hlookup (ih.1 h)
      | null | bool | num | str | arr => cases h
    · rintro ⟨⟩
      case key members next hlookup hrest =>
        rw [navigateJson.go, hlookup]
        exact ih.2 hrest

theorem navigateJson_eq_some_iff {value : Value F} {path : List Char} {text : String} :
    navigateJson value (String.ofList path) = some text ↔
      ∃ leaf, Reaches value (path.splitOn '.') leaf ∧ leafText leaf = some text := by
  have hleaf : navigateJson value (String.ofList path) =
      (navigateJson.go value (path.splitOn '.')).bind leafText := by
    unfold navigateJson
    rw [String.toList_ofList]
    cases navigateJson.go value (path.splitOn '.') with
    | none => rfl
    | some leaf => cases leaf <;> rfl
  rw [hleaf, Option.bind_eq_some_iff]
  simp only [go_eq_some_iff]

/-- A field resolves to what the evaluator extracts. -/
theorem resolves_iff {field : String} {request : DecisionRequest F} {text : String} :
    extractFieldValue field request = some text ↔ Resolves field request text := by
  unfold extractFieldValue Resolves
  by_cases h1 : field = "agent_role"
  · subst h1
    simp
  by_cases h2 : field = "environment"
  · subst h2
    simp
  by_cases h3 : field = "tool"
  · subst h3
    simp
  by_cases h4 : field = "agent_name"
  · subst h4
    simp
  by_cases h5 : field = "model"
  · subst h5
    simp
  by_cases h6 : field = "run_id"
  · subst h6
    simp
  simp only [h1, h2, h3, h4, h5, h6, if_false, false_and, false_or]
  split
  case isTrue hstart =>
    obtain ⟨path, hpath⟩ := List.isPrefixOf_iff_prefix.1 hstart
    have hdrop : field.toList.drop 5 = path := by
      rw [← hpath]
      rfl
    rw [hdrop, Option.bind_eq_some_iff]
    constructor
    · rintro ⟨args, hsome, hnavigate⟩
      obtain ⟨leaf, hleaf⟩ := navigateJson_eq_some_iff.1 hnavigate
      exact ⟨path, args, leaf, hpath.symm, hsome, hleaf⟩
    · rintro ⟨path', args, leaf, heq, hsome, hleaf⟩
      obtain rfl := List.append_cancel_left (hpath.trans heq)
      exact ⟨args, hsome, navigateJson_eq_some_iff.2 ⟨leaf, hleaf⟩⟩
  case isFalse hstart =>
    constructor
    · intro h
      cases h
    · rintro ⟨path, args, leaf, heq, -⟩
      rw [heq] at hstart
      exact absurd (List.isPrefixOf_iff_prefix.2 (List.prefix_append ..)) hstart

section Deciding

variable [Globset]

theorem conditionHolds_iff {c : Condition F} {request : DecisionRequest F} :
    evaluateSingleCondition c request = true ↔ ConditionHolds c request := by
  unfold evaluateSingleCondition ConditionHolds
  simp only [← resolves_iff]
  cases hfield : extractFieldValue c.field request with
  | none => simp
  | some text =>
    simp only [Option.some.injEq, exists_eq_left']
    cases c.operator with
    | equals => simp
    | notEquals => simp
    | isIn => simp
    | notIn => simp
    | «matches» =>
      cases Globset.compile c.patternStr with
      | none => simp
      | some glob => simp
    | notMatches =>
      cases Globset.compile c.patternStr with
      | none => simp
      | some glob => simp

/-- A compiled rule applies when the rule matches. -/
theorem applies_iff {rule : Rule F} {c : CompiledRule F} (h : compileRule rule = .ok c)
    {request : DecisionRequest F} : c.applies request = true ↔ RuleMatches rule request := by
  have hrule := rule_compileRule h
  have htool : c.matchesTool request.tool = true ↔
      (match rule.tool, rule.toolPattern with
        | some exact, _ => exact = request.tool
        | none, some pattern =>
          ∃ glob, Globset.compile pattern = some glob ∧ glob request.tool = true
        | none, none => True) := by
    unfold CompiledRule.matchesTool
    rw [hrule]
    cases hexact : rule.tool with
    | some exact => simp
    | none =>
      unfold compileRule at h
      simp only [hexact, Option.isSome_none, Bool.false_and, Bool.false_eq_true, if_false] at h
      cases hpattern : rule.toolPattern with
      | none =>
        simp only [hpattern] at h
        cases h
        simp
      | some pattern =>
        simp only [hpattern] at h
        cases hglob : Globset.compile pattern with
        | none =>
          rw [hglob] at h
          cases h
        | some glob =>
          rw [hglob] at h
          cases h
          simp [hglob]
  rw [CompiledRule.applies, Bool.and_eq_true, hrule]
  refine and_congr htool ?_
  cases rule.conditions with
  | none => simp
  | some conditions =>
    simp only [evaluateConditions, List.all_eq_true, conditionHolds_iff, Option.some.injEq,
      forall_eq']

/-! ## The order -/

omit [Globset] in
theorem before_trans (a b c : CompiledRule F) (hab : a.before b) (hbc : b.before c) :
    a.before c := by
  unfold CompiledRule.before at *
  cases ha : a.rule.priority <;> cases hb : b.rule.priority <;> cases hc : c.rule.priority <;>
    simp only [ha, hb, hc] at hab hbc ⊢
  exact Int64.le_trans hab hbc

omit [Globset] in
theorem before_total (a b : CompiledRule F) : a.before b ∨ b.before a := by
  unfold CompiledRule.before
  cases a.rule.priority <;> cases b.rule.priority <;> simp [Int64.le_total]

instance : IsTrans (CompiledRule F) CompiledRule.before := ⟨before_trans⟩

instance : Std.Total (CompiledRule.before (F := F)) := ⟨before_total⟩

omit [Globset] in
/-- The comparison of two rules, ties going to the earlier position. -/
theorem earlier_iff {a b : CompiledRule F} {i j : Nat} :
    (a.before b ∧ (b.before a → i < j)) ↔ Earlier a.rule.priority i b.rule.priority j := by
  unfold CompiledRule.before Earlier
  cases a.rule.priority with
  | none => cases b.rule.priority <;> simp
  | some pa =>
    cases b.rule.priority with
    | none => simp
    | some pb =>
      simp only [Int64.le_iff_toInt_le, Int64.lt_iff_toInt_lt, ← Int64.toInt_inj]
      omega

/-- The rules that are compiled, in the order of the file. -/
theorem compileRule_of_mapM {rules : List (Rule F)} {cs : List (CompiledRule F)}
    (h : rules.mapM compileRule = .ok cs) : ∀ c ∈ cs, compileRule c.rule = .ok c := by
  intro c hc
  obtain ⟨r, -, hr⟩ := (MapM.exists_of_forall₂ (MapM.forall₂_of_ok h)).2 c hc
  rw [rule_compileRule hr]
  exact hr

/-- An accepted policy is sorted from the rules compiled in the order of the
file. -/
theorem compiledRules_of_validate {p : Policy F} {policy : CompiledPolicy F}
    (h : p.validateAndCompile = .ok policy) :
    ∃ cs : List (CompiledRule F), cs.map CompiledRule.rule = p.rules ∧
      (∀ c ∈ cs, compileRule c.rule = .ok c) ∧
      policy.compiledRules = cs.insertionSort CompiledRule.before := by
  unfold Policy.validateAndCompile at h
  split at h
  · cases h
  · split at h
    · cases h
    · cases hcs : p.rules.mapM compileRule with
      | error e =>
        rw [hcs] at h
        cases h
      | ok cs =>
        rw [hcs] at h
        cases h
        exact ⟨cs, map_rule_mapM hcs, compileRule_of_mapM hcs, rfl⟩

/-- The least of the compiled rules that apply is the first matching rule. -/
theorem isLeast_iff {cs : List (CompiledRule F)} (hcs : ∀ c ∈ cs, compileRule c.rule = .ok c)
    {request : DecisionRequest F} {i : Nat} {c : CompiledRule F} (hi : cs[i]? = some c) :
    StableFirst.IsLeast CompiledRule.before (fun c => c.applies request) cs i c ↔
      FirstMatching (cs.map CompiledRule.rule) request i c.rule := by
  have happly (d : CompiledRule F) (j : Nat) (hj : cs[j]? = some d) :
      d.applies request = true ↔ RuleMatches d.rule request :=
    applies_iff (hcs d (List.mem_of_getElem? hj))
  constructor
  · rintro ⟨-, hpass, hfirst⟩
    refine ⟨by rw [List.getElem?_map, hi]; rfl, (happly c i hi).1 hpass, ?_⟩
    intro j rule' hj hmatch hne
    rw [List.getElem?_map] at hj
    obtain ⟨d, hd, rfl⟩ := Option.map_eq_some_iff.1 hj
    obtain ⟨a, b, ha, hb, hab⟩ := hfirst j d hd ((happly d j hd).2 hmatch) hne
    obtain rfl := Option.some.inj (hi.symm.trans ha)
    obtain rfl := Option.some.inj (hd.symm.trans hb)
    exact earlier_iff.1 hab
  · rintro ⟨-, hmatch, hfirst⟩
    refine ⟨hi, (happly c i hi).2 hmatch, ?_⟩
    intro j d hj hpass hne
    have hrule : (cs.map CompiledRule.rule)[j]? = some d.rule := by
      rw [List.getElem?_map, hj]
      rfl
    exact ⟨c, d, hi, hj, earlier_iff.2 (hfirst j d.rule hrule ((happly d j hj).1 hpass) hne)⟩

/-! ## First match wins -/

/-- **First match wins.**  A request that passes the stages before the rules is
answered by the first matching rule of the file, there is one as soon as some
rule matches, and it is denied if none does. -/
theorem first_match_wins {p : Policy F} {policy : CompiledPolicy F}
    (hload : p.validateAndCompile = .ok policy) {request : DecisionRequest F}
    {budgetTracker : BudgetTracker F} {loopDetector : LoopDetector} {ts : String} {now : Nat}
    (hpass : PassesStages request policy budgetTracker loopDetector now) :
    (∀ i rule, FirstMatching p.rules request i rule →
        (evaluate request policy budgetTracker loopDetector ts now).1.decision =
          rule.action.decision ∧
        (evaluate request policy budgetTracker loopDetector ts now).1.ruleId = some rule.name) ∧
      ((∃ rule ∈ p.rules, RuleMatches rule request) →
        ∃ i rule, FirstMatching p.rules request i rule) ∧
      ((∀ rule ∈ p.rules, ¬ RuleMatches rule request) →
        (evaluate request policy budgetTracker loopDetector ts now).1.decision = .deny) := by
  obtain ⟨cs, hrules, hcs, hsorted⟩ := compiledRules_of_validate hload
  have hanswer : (evaluate request policy budgetTracker loopDetector ts now).1 =
      evaluateRules request policy ts := by
    rw [evaluate_check hpass.tool (by rw [hpass.budget]; rfl), hpass.loop]
  have hfirst (i : Nat) (c : CompiledRule F) (hi : cs[i]? = some c)
      (hmatch : FirstMatching p.rules request i c.rule) : firstMatch policy request = some c := by
    rw [firstMatch, hsorted, StableFirst.find?_insertionSort_eq_some_iff]
    exact ⟨i, (isLeast_iff hcs hi).2 (hrules ▸ hmatch)⟩
  refine ⟨?_, ?_, ?_⟩
  · intro i rule hmatch
    obtain ⟨c, hi, rfl⟩ : ∃ c, cs[i]? = some c ∧ c.rule = rule := by
      have := hmatch.1
      rw [← hrules, List.getElem?_map] at this
      exact Option.map_eq_some_iff.1 this
    rw [hanswer, evaluateRules, hfirst i c hi hmatch]
    exact ⟨rfl, rfl⟩
  · rintro ⟨rule, hmem, hmatch⟩
    rw [← hrules] at hmem
    obtain ⟨c, hc, rfl⟩ := List.mem_map.1 hmem
    cases hfind : (cs.insertionSort CompiledRule.before).find? (fun c => c.applies request) with
    | none =>
      have hnot := StableFirst.find?_insertionSort_eq_none_iff.1 hfind c hc
      rw [(applies_iff (hcs c hc)).2 hmatch] at hnot
      cases hnot
    | some least =>
      obtain ⟨i, hi⟩ := StableFirst.find?_insertionSort_eq_some_iff.1 hfind
      exact ⟨i, least.rule, hrules ▸ (isLeast_iff hcs hi.1).1 hi⟩
  · intro hnone
    have hfind : firstMatch policy request = none := by
      rw [firstMatch, hsorted, StableFirst.find?_insertionSort_eq_none_iff]
      intro c hc
      rw [← Bool.not_eq_true, applies_iff (hcs c hc)]
      exact hnone c.rule (hrules ▸ List.mem_map_of_mem hc)
    rw [hanswer, evaluateRules, hfind]
    rfl

end Deciding

namespace Sample

/-- Patterns without wildcards. -/
@[reducible] def literalGlobs : Globset := ⟨fun pattern => some (fun s => s = pattern)⟩

/-- Deny whatever no other rule is for. -/
def denyAll : Rule ℚ := ⟨"deny-all", .deny, none, none, none, none, none, none, none⟩

/-- Allow one tool, before the rules without a priority. -/
def allowRead : Rule ℚ := ⟨"allow-read", .allow, some "read", none, none, none, none, none, some 1⟩

/-- A policy whose first rule is the last to be tried. -/
def readOnly : Policy ℚ := ⟨1, none, none, none, none, [denyAll, allowRead], none, none, none⟩

/-- The same, compiled. -/
def readOnlyCompiled : CompiledPolicy ℚ := ⟨readOnly, [⟨allowRead, none⟩, ⟨denyAll, none⟩]⟩

/-- A call of the tool. -/
def readRequest : DecisionRequest ℚ where
  schemaVersion := 1
  runId := "run"
  seq := 1
  tool := "read"
  argsHash := "h"
  argsRedacted := none
  agentRole := none
  agentName := none
  model := none
  inputTokens := none
  outputTokens := none
  estimatedCostUsd := none
  environment := none
  ts := ""

/-- The rule with the priority answers, though it is the second of the file. -/
theorem read_allowed :
    (@evaluate ℚ _ literalGlobs readRequest readOnlyCompiled .new .new "t" 0).1.decision =
      .allow := by
  have hpass : PassesStages readRequest readOnlyCompiled .new .new 0 :=
    ⟨by decide, rfl, by decide +kernel⟩
  refine ((@first_match_wins ℚ _ literalGlobs readOnly readOnlyCompiled rfl readRequest .new .new
    "t" 0 hpass).1 1 allowRead ⟨rfl, ⟨rfl, fun _ h => by cases h⟩, ?_⟩).1
  intro j rule' hj _ hne
  match j with
  | 0 =>
    cases hj
    trivial
  | 1 => exact absurd rfl hne
  | j + 2 => cases hj

end Sample

end LoopStorm.Engine
