import LoopStorm.Engine.Enforce

/-!
# The pipeline as five stages

What `enforce` answers to a request other than `escalate_to_human`, from any
context, in terms of its stages.

* `Stages` — a call that passes all five of them.
* `allow_iff_stages` — fail-closed: only such a call is allowed.
* `pipeline_characterised` — and what the first stage to fail dictates for
  every other one, the record of the budget and the audit write overriding the
  rest.
-/

namespace LoopStorm.Engine

section Stages

variable {F : Type} [Float64 F] [Globset]

/-- What the loop detector says to a call. -/
def loopStatus (ctx : EnforcementContext F) (c : Call F) : LoopStatus :=
  (ctx.loopDetector.check c.request ctx.policy.loopConfig c.env.checkNow).1

/-- The call passes every stage of the pipeline. -/
structure Stages (ctx : EnforcementContext F) (c : Call F) : Prop where
  /-- (a) The totals of the run exceed no hard cap before the call. -/
  caps : overCap ctx c.request.runId = false
  /-- (b) Loop detection is disabled or says Ok. -/
  loops : ctx.policy.loopConfig.enabled = false ∨ loopStatus ctx c = .ok
  /-- (c) The first rule that applies exists and allows. -/
  rule : ∃ r, FirstMatch ctx.policy c.request r ∧ r.rule.action = .allow
  /-- (d) With this request's amounts the totals exceed no hard cap. -/
  record : ((ctx.budgetTracker.totals c.request.runId).add c.request.update).overHardCap
    ctx.policy.policy.budget = false
  /-- (e) The decision event is written. -/
  audit : c.env.decisionIo.succeeds = true

omit [Globset] in
/-- A disabled detector says Ok, so the second half of (b) is all of it. -/
theorem loops_iff {ctx : EnforcementContext F} {c : Call F} :
    (ctx.policy.loopConfig.enabled = false ∨ loopStatus ctx c = .ok) ↔
      loopStatus ctx c = .ok := by
  refine ⟨?_, .inr⟩
  rintro (h | h)
  · rw [loopStatus, LoopDetector.check, h]
    rfl
  · exact h

variable {policy : CompiledPolicy F} {request : DecisionRequest F}

theorem ruleDecision_of_firstMatch {r : CompiledRule F} (h : FirstMatch policy request r) :
    ruleDecision policy request = r.rule.action.decision := by
  rw [ruleDecision, firstMatch_eq_some_iff.2 h]

theorem ruleDecision_of_none (h : ∀ r ∈ policy.compiledRules, r.applies request = false) :
    ruleDecision policy request = .deny := by
  have hnone : firstMatch policy request = none := by
    rw [firstMatch, List.find?_eq_none]
    intro r hr
    simp [h r hr]
  rw [ruleDecision, hnone]

omit [Globset] in
theorem decision_eq_allow_iff (action : RuleAction) :
    action.decision = .allow ↔ action = .allow := by
  cases action <;> simp [RuleAction.decision]

theorem ruleDecision_eq_allow_iff :
    ruleDecision policy request = .allow ↔
      ∃ r, FirstMatch policy request r ∧ r.rule.action = .allow := by
  constructor
  · intro h
    cases hfirst : firstMatch policy request with
    | none => rw [ruleDecision, hfirst] at h; cases h
    | some r =>
      rw [ruleDecision, hfirst] at h
      exact ⟨r, firstMatch_eq_some_iff.1 hfirst, (decision_eq_allow_iff _).1 h⟩
  · rintro ⟨r, hfirst, haction⟩
    rw [ruleDecision_of_firstMatch hfirst, haction]
    rfl

end Stages

section Pipeline

variable {F : Type} [Float64 F] [Globset] [TextTools] [Sha256]
  {ctx : EnforcementContext F} {c : Call F}

/-- The decision of a call, stage by stage from the last to the first. -/
theorem decision_process (htool : c.request.tool ≠ escalateTool) :
    (process ctx c).2.decision =
      if c.env.decisionIo.succeeds then
        if (totalsAfter c.request ctx).overHardCap ctx.policy.policy.budget then .kill
        else if overCap ctx c.request.runId then .kill
        else
          match loopStatus ctx c with
          | .cooldownWarning _ => .cooldown
          | .loopDetected _ => .kill
          | .ok => ruleDecision ctx.policy c.request
      else .kill := by
  rw [process, decision_enforce, decision_evaluate htool]
  rfl

/-- **Fail-closed.**  A request other than `escalate_to_human` is allowed
exactly when its call passes all five stages. -/
theorem allow_iff_stages (htool : c.request.tool ≠ escalateTool) :
    (process ctx c).2.decision = .allow ↔ Stages ctx c := by
  rw [decision_process htool]
  constructor
  · intro h
    cases haudit : c.env.decisionIo.succeeds with
    | false => rw [haudit] at h; cases h
    | true =>
      cases hrecord : (totalsAfter c.request ctx).overHardCap ctx.policy.policy.budget with
      | true => rw [haudit, hrecord] at h; cases h
      | false =>
        cases hcaps : overCap ctx c.request.runId with
        | true => rw [haudit, hrecord, hcaps] at h; cases h
        | false =>
          rw [haudit, hrecord, hcaps] at h
          cases hloop : loopStatus ctx c with
          | cooldownWarning reason => rw [hloop] at h; cases h
          | loopDetected reason => rw [hloop] at h; cases h
          | ok =>
            rw [hloop] at h
            exact ⟨hcaps, .inr hloop, ruleDecision_eq_allow_iff.1 h, hrecord, haudit⟩
  · rintro ⟨hcaps, hloops, hrule, hrecord, haudit⟩
    rw [haudit, totalsAfter, hrecord, hcaps, loops_iff.1 hloops]
    exact ruleDecision_eq_allow_iff.2 hrule

/-- **The pipeline, stage by stage.**  A request other than `escalate_to_human`
is allowed exactly when (a) to (e) hold.  A failed audit write kills, and so do
new totals over a hard cap; otherwise the first stage to fail decides.  Where
zero totals exceed no cap, (a) may as well be read with a run's totals starting
at zero. -/
theorem pipeline_characterised (ctx : EnforcementContext F) (c : Call F)
    (htool : c.request.tool ≠ "escalate_to_human") :
    ((process ctx c).2.decision = .allow ↔ Stages ctx c) ∧
    (c.env.decisionIo.succeeds = false → (process ctx c).2.decision = .kill) ∧
    (((ctx.budgetTracker.totals c.request.runId).add c.request.update).overHardCap
        ctx.policy.policy.budget = true → (process ctx c).2.decision = .kill) ∧
    (c.env.decisionIo.succeeds = true →
      ((ctx.budgetTracker.totals c.request.runId).add c.request.update).overHardCap
        ctx.policy.policy.budget = false →
      (overCap ctx c.request.runId = true → (process ctx c).2.decision = .kill) ∧
      (overCap ctx c.request.runId = false →
        (∀ reason, loopStatus ctx c = .cooldownWarning reason →
          (process ctx c).2.decision = .cooldown) ∧
        (∀ reason, loopStatus ctx c = .loopDetected reason →
          (process ctx c).2.decision = .kill) ∧
        (loopStatus ctx c = .ok →
          (∀ r, FirstMatch ctx.policy c.request r →
            (process ctx c).2.decision = r.rule.action.decision) ∧
          ((∀ r ∈ ctx.policy.compiledRules, r.applies c.request = false) →
            (process ctx c).2.decision = .deny)))) ∧
    ((BudgetState.zero : BudgetState F).overHardCap ctx.policy.policy.budget = false →
      overCap ctx c.request.runId =
        (ctx.budgetTracker.totals c.request.runId).overHardCap ctx.policy.policy.budget) := by
  refine ⟨allow_iff_stages htool, ?audit, ?record, ?stages, ?zero⟩
  case audit =>
    intro h
    rw [decision_process htool, h]
    rfl
  case record =>
    intro h
    rw [decision_process htool, totalsAfter, h, if_pos rfl, ite_self]
  case stages =>
    intro haudit hrecord
    rw [decision_process htool, haudit, totalsAfter, hrecord, if_pos rfl,
      if_neg Bool.false_ne_true]
    refine ⟨fun h => by rw [h]; rfl, fun h => ?_⟩
    rw [h, if_neg Bool.false_ne_true]
    refine ⟨fun reason hloop => by rw [hloop], fun reason hloop => by rw [hloop], fun hloop => ?_⟩
    rw [hloop]
    exact ⟨fun r hr => ruleDecision_of_firstMatch hr, fun hnone => ruleDecision_of_none hnone⟩
  case zero =>
    intro hzero
    rw [overCap, BudgetTracker.totals]
    cases ctx.budgetTracker.states c.request.runId with
    | none => exact hzero.symm
    | some s => rfl

end Pipeline

open Sample in
/-- A first call under the pack that allows every tool passes all stages. -/
theorem pipeline_characterised_first :
    Stages (.new (compiled (some (tokenBudget 10)) none) "audit.jsonl" [])
      (call "run" "search" 1 (some 4) 0) :=
  (pipeline_characterised (.new (compiled (some (tokenBudget 10)) none) "audit.jsonl" [])
    (call "run" "search" 1 (some 4) 0) (by decide)).1.1 (by decide)

end LoopStorm.Engine
