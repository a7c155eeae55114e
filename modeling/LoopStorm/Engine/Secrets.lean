import LoopStorm.Engine.Log
import LoopStorm.Engine.RedactionShape
import LoopStorm.Engine.RuleOrder

/-!
# Secrets leave no trace

What stands under the sensitive keys of the arguments of a request is for the tool
alone.  The redactor keeps it out of the log; here it is kept out of everything
else too, for a policy whose conditions do not ask for it.

* `ReadsNoSecrets` — no condition of the policy leads under a sensitive key, or to a
  value that has one below it.
* `SameButSecrets` — two calls whose arguments differ under sensitive keys only.
* `extractFieldValue_withArgs` — the conditions see no difference,
  `process_withArgs` — nor does the engine.
* `secrets_leave_no_trace` — **noninterference**: two runs that differ in secrets
  are answered alike and leave the engine, its log included, in one state.
-/

namespace LoopStorm.Engine

open Json

variable {F : Type} [Float64 F]

/-- The request with other arguments. -/
def DecisionRequest.withArgs (request : DecisionRequest F) (args : Value F) : DecisionRequest F :=
  { request with argsRedacted := some args }

section Secrets

variable [TextTools]

/-- What a condition asks of the arguments is no secret: no part of its path is a
sensitive key, and where it leads there is none below. -/
def Condition.ReadsNoSecrets (c : Condition F) (r : Redactor) (args : Value F) : Prop :=
  ∀ path, c.field.toList = "args.".toList ++ path →
    (∀ part ∈ path.splitOn '.', r.isSensitiveKey (String.ofList part) = false) ∧
      ∀ leaf, Reaches args (path.splitOn '.') leaf → Seen (PlainStep r) leaf

/-- Nor is what any condition of a policy asks. -/
def ReadsNoSecrets (r : Redactor) (policy : CompiledPolicy F) (args : Value F) : Prop :=
  ∀ rule ∈ policy.compiledRules, ∀ conditions, rule.rule.conditions = some conditions →
    ∀ c ∈ conditions, c.ReadsNoSecrets r args

/-- The second call is the first, or has other arguments that differ under
sensitive keys only. -/
inductive SameButSecrets (r : Redactor) (policy : CompiledPolicy F) :
    Call F → Call F → Prop
  | same (c : Call F) : SameButSecrets r policy c c
  | secrets {c : Call F} {args args' : Value F} (hargs : c.request.argsRedacted = some args)
    (hdiffer : DifferUnderKeys r args args') (hreads : ReadsNoSecrets r policy args) :
    SameButSecrets r policy c ⟨c.request.withArgs args', c.env⟩

/-! ## What conditions see -/

/-- A path without sensitive keys leads to values that differ under sensitive keys
only. -/
theorem Reaches.differ {r : Redactor} {v w leaf : Value F} {parts : List (List Char)}
    (h : Reaches v parts leaf) (hdiffer : DifferUnderKeys r v w)
    (hparts : ∀ part ∈ parts, r.isSensitiveKey (String.ofList part) = false) :
    ∃ leaf', Reaches w parts leaf' ∧ DifferUnderKeys r leaf leaf' := by
  induction h generalizing w with
  | here v => exact ⟨w, .here w, hdiffer⟩
  | @key ms part parts next leaf found rest ih =>
    obtain ⟨ns, rfl, -⟩ := eq_obj_of_node hdiffer.node_eq.symm
    obtain ⟨hpart, hparts'⟩ := List.forall_mem_cons.1 hparts
    have hplain : ∀ i, PlainStep r (.member i (String.ofList part)) := fun _ => hpart
    rcases hdiffer.lookup hplain with ⟨hnone, -⟩ | ⟨v, w, hv, hw, hdiffer'⟩
    · rw [hnone] at found
      cases found
    · obtain rfl : v = next := Option.some.inj (hv.symm.trans found)
      obtain ⟨leaf', hrest, hleaf⟩ := ih hdiffer' hparts'
      exact ⟨leaf', .key hw hrest, hleaf⟩

/-- Where a condition leads stands the same value. -/
theorem Condition.ReadsNoSecrets.reaches_iff {c : Condition F} {r : Redactor}
    {args args' : Value F} (h : c.ReadsNoSecrets r args) (hdiffer : DifferUnderKeys r args args')
    {path : List Char} (hpath : c.field.toList = "args.".toList ++ path) (leaf : Value F) :
    Reaches args' (path.splitOn '.') leaf ↔ Reaches args (path.splitOn '.') leaf := by
  obtain ⟨hparts, hseen⟩ := h path hpath
  constructor
  · intro hreach
    obtain ⟨leaf', hreach', hleaf⟩ := hreach.differ hdiffer.symm hparts
    rwa [hleaf.symm.eq_of_seen (hseen leaf' hreach')] at hreach'
  · intro hreach
    obtain ⟨leaf', hreach', hleaf⟩ := hreach.differ hdiffer hparts
    rwa [hleaf.eq_of_seen (hseen leaf hreach)]

theorem extractFieldValue_withArgs {c : Condition F} {r : Redactor} {request : DecisionRequest F}
    {args args' : Value F} (hargs : request.argsRedacted = some args)
    (hreads : c.ReadsNoSecrets r args) (hdiffer : DifferUnderKeys r args args') :
    extractFieldValue c.field (request.withArgs args') = extractFieldValue c.field request := by
  ext text
  rw [resolves_iff, resolves_iff]
  unfold Resolves
  refine or_congr Iff.rfl (or_congr Iff.rfl (or_congr Iff.rfl (or_congr Iff.rfl
    (or_congr Iff.rfl (or_congr Iff.rfl ?_)))))
  constructor
  · rintro ⟨path, v, leaf, hpath, hv, hreach, htext⟩
    obtain rfl : args' = v := Option.some.inj hv
    exact ⟨path, args, leaf, hpath, hargs, (hreads.reaches_iff hdiffer hpath leaf).1 hreach, htext⟩
  · rintro ⟨path, v, leaf, hpath, hv, hreach, htext⟩
    obtain rfl : args = v := Option.some.inj (hargs.symm.trans hv)
    exact ⟨path, args', leaf, hpath, rfl, (hreads.reaches_iff hdiffer hpath leaf).2 hreach, htext⟩

/-! ## What the engine does -/

section Engine

variable [Globset] {request : DecisionRequest F} {args args' : Value F} {r : Redactor}
  {policy : CompiledPolicy F}

theorem firstMatch_withArgs (hargs : request.argsRedacted = some args)
    (hreads : ReadsNoSecrets r policy args) (hdiffer : DifferUnderKeys r args args') :
    firstMatch policy (request.withArgs args') = firstMatch policy request := by
  refine List.find?_congr fun rule hrule => ?_
  have hconditions : ∀ conditions, rule.rule.conditions = some conditions →
      evaluateConditions conditions (request.withArgs args') =
        evaluateConditions conditions request := by
    intro conditions hsome
    rw [Bool.eq_iff_iff, evaluateConditions, evaluateConditions, List.all_eq_true,
      List.all_eq_true]
    refine forall₂_congr fun c hc => ?_
    unfold evaluateSingleCondition
    rw [extractFieldValue_withArgs hargs (hreads rule hrule conditions hsome c hc) hdiffer]
  unfold CompiledRule.applies
  cases hsome : rule.rule.conditions with
  | none => rfl
  | some conditions => exact congrArg (_ && ·) (hconditions conditions hsome)

omit [TextTools] in
/-- The evaluator sees the arguments through the rules only. -/
theorem evaluate_withArgs (budgetTracker : BudgetTracker F) (loopDetector : LoopDetector)
    (ts : String) (now : Nat)
    (hmatch : firstMatch policy (request.withArgs args') = firstMatch policy request) :
    evaluate (request.withArgs args') policy budgetTracker loopDetector ts now =
      evaluate request policy budgetTracker loopDetector ts now := by
  have hrules : evaluateRules (request.withArgs args') policy ts =
      evaluateRules request policy ts := by
    unfold evaluateRules
    rw [hmatch]
    rfl
  unfold evaluate
  rw [hrules]
  rfl

variable [Sha256] {ctx : EnforcementContext F}

/-- The engine sees the arguments through the rules and the redactor only. -/
theorem enforce_withArgs (env : CallEnv F)
    (hmatch : firstMatch ctx.policy (request.withArgs args') = firstMatch ctx.policy request)
    (hredact : (request.withArgs args').argsRedacted.map ctx.redactor.redact =
      request.argsRedacted.map ctx.redactor.redact) :
    enforce (request.withArgs args') env ctx = enforce request env ctx := by
  unfold enforce
  rw [evaluate_withArgs _ _ _ _ hmatch, hredact]
  rfl

/-- **A step.** -/
theorem SameButSecrets.process_eq {c c' : Call F} (henabled : ctx.redactor.enabled = true)
    (h : SameButSecrets ctx.redactor ctx.policy c c') : process ctx c' = process ctx c := by
  cases h with
  | same => rfl
  | @secrets args args' hargs hdiffer hreads =>
    have hredact : ctx.redactor.redact args = ctx.redactor.redact args' :=
      (redact_shape henabled args).2.2 args' hdiffer
    have henforce := enforce_withArgs c.env (firstMatch_withArgs hargs hreads hdiffer)
      (by rw [hargs, Option.map_some, hredact, DecisionRequest.withArgs, Option.map_some])
    exact congrArg (fun p => (p.2, p.1)) henforce

/-- **Secrets leave no trace.**  Take two runs whose requests differ in what stands
under sensitive keys, for a policy that does not ask for it: every answer is the
same, and so is all that the engine keeps and has written. -/
theorem secrets_leave_no_trace {ctx : EnforcementContext F} (henabled : ctx.redactor.enabled = true)
    {calls calls' : List (Call F)}
    (h : List.Forall₂ (SameButSecrets ctx.redactor ctx.policy) calls calls') :
    Run.outputs process ctx calls' = Run.outputs process ctx calls ∧
      Run.stateAfter process ctx calls' = Run.stateAfter process ctx calls := by
  generalize hredactor : ctx.redactor = r at h henabled
  generalize hpolicy : ctx.policy = policy at h
  induction h generalizing ctx with
  | nil => exact ⟨rfl, rfl⟩
  | @cons c c' calls calls' hc hcalls ih =>
    subst hredactor hpolicy
    have hstep := hc.process_eq henabled
    have hrest : Run.outputs process (process ctx c).1 calls' =
          Run.outputs process (process ctx c).1 calls ∧
        Run.stateAfter process (process ctx c).1 calls' =
          Run.stateAfter process (process ctx c).1 calls :=
      ih redactor_enforce policy_enforce
    obtain ⟨hanswers, hstate⟩ := hrest
    constructor
    · rw [Run.outputs, Run.outputs, hstep, hanswers]
    · rw [Run.stateAfter, Run.stateAfter, hstep, hstate]

end Engine

end Secrets

namespace Sample

/-- Deny one user everything. -/
def denyMallory : Rule ℚ :=
  { denyAll with
    name := "deny-mallory"
    conditions := some [⟨"args.user", .equals, some (.str "mallory"), none⟩] }

/-- A policy with that rule alone. -/
def watchful : CompiledPolicy ℚ :=
  ⟨⟨1, none, none, none, none, [denyMallory], none, none, none⟩, [⟨denyMallory, none⟩]⟩

/-- Who logs in, with which password. -/
def credentials (password : Value ℚ) : Value ℚ :=
  .obj [("user", .str "ada"), ("password", password)]

/-- A call that logs in. -/
def signIn (password : Value ℚ) : Call ℚ where
  request := (call "run" "login" 1 none 0).request.withArgs (credentials password)
  env := (call "run" "login" 1 none 0).env

/-- The engine under the policy. -/
def watch : EnforcementContext ℚ := .new watchful "audit.jsonl" []

theorem sensitive_password : watch.redactor.isSensitiveKey "password" = true := by decide +kernel

theorem differ_credentials (p q : Value ℚ) :
    DifferUnderKeys watch.redactor (credentials p) (credentials q) := by
  intro path hpath
  cases path with
  | nil => rfl
  | cons step rest =>
    obtain ⟨hstep, -⟩ := List.forall_mem_cons.1 hpath
    cases step with
    | element i => rfl
    | member i key =>
      match i with
      | 0 => rfl
      | 1 =>
        have hkey : ¬ "password" = key := by
          rintro rfl
          rw [PlainStep, sensitive_password] at hstep
          cases hstep
        simp [credentials, descend, child, hkey]
      | i + 2 => rfl

theorem readsNoSecrets_credentials (p : Value ℚ) :
    ReadsNoSecrets watch.redactor watch.policy (credentials p) := by
  intro rule hrule conditions hsome c hc path hpath
  obtain rfl := List.mem_singleton.1 hrule
  obtain rfl : [_] = conditions := Option.some.inj hsome
  obtain rfl := List.mem_singleton.1 hc
  have hfield : "args.".toList ++ "user".toList = "args.".toList ++ path := by
    rw [← hpath]
    decide +kernel
  obtain rfl := List.append_cancel_left hfield
  constructor
  · decide +kernel
  · intro leaf hreach
    have hleaf : leaf = .str "ada" := by
      have hgo := go_eq_some_iff.2 hreach
      exact (Option.some.inj hgo).symm
    subst hleaf
    intro path u hu step hstep
    cases path with
    | nil => cases hstep
    | cons s rest => cases s <;> cases hu

/-- Another password, the same answers and the same log. -/
theorem secrets_leave_no_trace_signIn :
    Run.outputs process watch [signIn .null] = Run.outputs process watch [signIn (.str "x")] ∧
      Run.stateAfter process watch [signIn .null] =
        Run.stateAfter process watch [signIn (.str "x")] :=
  secrets_leave_no_trace (by decide +kernel) (.cons (.secrets rfl (differ_credentials _ _)
    (readsNoSecrets_credentials _)) .nil)

end Sample

end LoopStorm.Engine
