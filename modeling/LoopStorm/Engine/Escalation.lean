import LoopStorm.Engine.Enforce

/-!
# `escalate_to_human` and the budget

The evaluator answers `escalate_to_human` before any other stage.  The record
of the budget that follows does not know about the exception: it replaces any
answer, this one included, once a hard cap is exceeded.

* `escalate_allowed_iff` — when the call for help gets through.
* `escalate_blocked` — a run in which it does not.
-/

namespace LoopStorm.Engine

section Runs

variable {F : Type} [Float64 F] [Globset] [TextTools] [Sha256]

/-- The evaluator's answer to `escalate_to_human` survives unless the totals
exceed a hard cap. -/
theorem decision_enforce_escalate {request : DecisionRequest F} {env : CallEnv F}
    {ctx : EnforcementContext F} (htool : request.tool = escalateTool)
    (hwrite : env.decisionIo.succeeds = true) :
    (enforce request env ctx).1.decision =
      if (totalsAfter request ctx).overHardCap ctx.policy.policy.budget then .kill
      else .allow := by
  rw [decision_enforce, if_pos hwrite, evaluate_escalate htool]
  rfl

/-- **When `escalate_to_human` gets through.**  After any run of calls, with the
audit write succeeding, the answer is Allow exactly when the totals of the run,
this request's amounts added, exceed no hard cap. -/
theorem escalate_allowed_iff (policy : CompiledPolicy F) (path : String) (disk : List UInt8)
    (calls : List (Call F)) (c : Call F) (htool : c.request.tool = "escalate_to_human")
    (hwrite : c.env.decisionIo.succeeds = true) :
    (Run.answer process (.new policy path disk) calls c).decision = .allow ↔
      (((Run.stateAfter process (.new policy path disk) calls).budgetTracker.totals
        c.request.runId).add c.request.update).overHardCap policy.policy.budget = false := by
  have hpolicy : (Run.stateAfter process (.new policy path disk) calls).policy = policy :=
    policy_stateAfter (.new policy path disk) calls
  have hdecision : (Run.answer process (.new policy path disk) calls c).decision = _ :=
    decision_enforce_escalate htool hwrite
  rw [totalsAfter, hpolicy] at hdecision
  rw [hdecision]
  cases BudgetState.overHardCap _ policy.policy.budget with
  | true => simp
  | false => simp

end Runs

open Sample in
/-- A call for help within its caps. -/
theorem escalate_allowed_within_cap :
    (Run.answer process (.new (compiled (some (tokenBudget 10)) none) "audit.jsonl" [])
      [call "run" "search" 1 (some 4) 0] (call "run" "escalate_to_human" 2 (some 6) 1)).decision =
      .allow :=
  (escalate_allowed_iff (compiled (some (tokenBudget 10)) none) "audit.jsonl" []
    [call "run" "search" 1 (some 4) 0] (call "run" "escalate_to_human" 2 (some 6) 1)
    rfl rfl).2 (by decide)

open Sample in
/-- A call for help whose own tokens exceed the cap: the first request of its
run, under an accepted pack that allows every tool. -/
theorem escalate_blocked :
    ¬ ∀ (p : Policy ℚ) (policy : CompiledPolicy ℚ), p.validateAndCompile = .ok policy →
      ∀ (path : String) (disk : List UInt8) (calls : List (Call ℚ)) (c : Call ℚ),
        c.request.tool = "escalate_to_human" → c.env.decisionIo.succeeds = true →
          (Run.answer process (.new policy path disk) calls c).decision = .allow := by
  intro h
  have hallow := h _ _ (validateAndCompile_pack (some (tokenBudget 10)) none) "audit.jsonl" []
    [] (call "run" "escalate_to_human" 1 (some 20) 0) rfl rfl
  exact absurd hallow (by decide)

end LoopStorm.Engine
