import LoopStorm.Engine.Enforce

/-!
# When a kill is final

The engine has no record of the runs it has killed.  A kill lasts as long as
its cause is still there at the next call: totals over a hard cap are found
again by the pre-check, while a kill of the loop detector or of a failed audit
write leaves nothing that the next call of the run would meet.

* `KillsForGood` — the condition on a step: its kills come with totals over a
  cap, and totals over a cap stay there.
* `kill_is_final` — under it a kill is final.
* `kill_not_final` — a run with a kill that is not.
-/

namespace LoopStorm.Engine

section Runs

variable {F : Type} [Float64 F]

/-- The loop detector reaches its second trigger on this call. -/
def secondTrigger (ctx : EnforcementContext F) (c : Call F) : Bool :=
  ctx.policy.loopConfig.enabled &&
    (ctx.loopDetector.state c.request.runId).secondTrigger ctx.policy.loopConfig c.request.tool
      c.request.argsHash c.env.checkNow

/-- Totals over a hard cap stay over one, and nothing else can kill: where the
new totals exceed no cap, the audit write succeeds and the loop detector does
not reach its second trigger. -/
def KillsForGood (ctx : EnforcementContext F) (c : Call F) : Prop :=
  (overCap ctx c.request.runId = true →
    (totalsAfter c.request ctx).overHardCap ctx.policy.policy.budget = true) ∧
  ((totalsAfter c.request ctx).overHardCap ctx.policy.policy.budget = false →
    c.env.decisionIo.succeeds = true ∧
      (c.request.tool ≠ escalateTool → secondTrigger ctx c = false))

instance (ctx : EnforcementContext F) (c : Call F) : Decidable (KillsForGood ctx c) :=
  inferInstanceAs (Decidable (_ ∧ _))

variable [Globset] [TextTools] [Sha256] {ctx : EnforcementContext F} {c : Call F}

omit [TextTools] [Sha256] in
theorem ruleDecision_ne_kill (policy : CompiledPolicy F) (request : DecisionRequest F) :
    ruleDecision policy request ≠ .kill := by
  unfold ruleDecision
  cases firstMatch policy request with
  | none => simp
  | some r => cases h : r.rule.action <;> simp [RuleAction.decision, h]

/-- A kill under the condition leaves the run over a cap. -/
theorem overCap_of_kill (hstep : KillsForGood ctx c) (hkill : (process ctx c).2.decision = .kill) :
    overCap (process ctx c).1 c.request.runId = true := by
  rw [overCap_process_self]
  by_contra hover
  have hover' : (totalsAfter c.request ctx).overHardCap ctx.policy.policy.budget = false := by
    simpa using hover
  obtain ⟨hwrite, hloop⟩ := hstep.2 hover'
  -- neither the audit write nor the record of the budget has killed the run
  rw [process, decision_enforce, if_pos hwrite, hover', if_neg Bool.false_ne_true] at hkill
  by_cases htool : c.request.tool = escalateTool
  · rw [evaluate_escalate htool] at hkill
    cases hkill
  · rw [decision_evaluate htool] at hkill
    have hpre : overCap ctx c.request.runId ≠ true := fun h => hover (hstep.1 h)
    rw [overCap] at hpre
    rw [if_neg hpre] at hkill
    cases hcheck : (ctx.loopDetector.check c.request ctx.policy.loopConfig c.env.checkNow).1 with
    | ok =>
      rw [hcheck] at hkill
      exact ruleDecision_ne_kill _ _ hkill
    | cooldownWarning reason =>
      rw [hcheck] at hkill
      cases hkill
    | loopDetected reason =>
      obtain ⟨henabled, htrigger⟩ := (check_loopDetected_iff _ _ _ _).1 ⟨reason, hcheck⟩
      have hsecond := hloop htool
      rw [secondTrigger, henabled, htrigger] at hsecond
      cases hsecond

/-- Over a cap, every request but `escalate_to_human` is answered Kill. -/
theorem decision_of_overCap (hover : overCap ctx c.request.runId = true)
    (htool : c.request.tool ≠ escalateTool) : (process ctx c).2.decision = .kill := by
  rw [overCap] at hover
  rw [process, decision_enforce, decision_evaluate htool, if_pos hover, ite_self, ite_self]

/-- A step under the condition keeps every run over a cap that is over one. -/
theorem overCap_process {runId : String} (hover : overCap ctx runId = true)
    (hstep : KillsForGood ctx c) : overCap (process ctx c).1 runId = true := by
  by_cases h : runId = c.request.runId
  · subst h
    rw [overCap_process_self]
    exact hstep.1 hover
  · rw [overCap_process_of_ne h, hover]

/-- **A kill is final** in every run whose steps all meet the condition: after
one, every request of the run but `escalate_to_human` is answered Kill,
whatever happens in between and in other runs. -/
theorem kill_is_final (policy : CompiledPolicy F) (path : String) (disk : List UInt8)
    (calls later : List (Call F)) (c d : Call F)
    (hsteps : Run.AllSteps process KillsForGood (.new policy path disk) (calls ++ c :: later))
    (hkill : (Run.answer process (.new policy path disk) calls c).decision = .kill)
    (hrun : d.request.runId = c.request.runId) (htool : d.request.tool ≠ "escalate_to_human") :
    (Run.answer process (.new policy path disk) (calls ++ c :: later) d).decision = .kill := by
  obtain ⟨-, hstep, hlater⟩ := (Run.allSteps_append process).1 hsteps
  have hover := overCap_of_kill hstep hkill
  have hend := @Run.invariant _ _ _ process (fun ctx => overCap ctx c.request.runId = true)
    KillsForGood (fun _ _ h => overCap_process h) _ _ hover hlater
  rw [Run.answer, Run.stateAfter_append, Run.stateAfter]
  exact decision_of_overCap (by rw [hrun]; exact hend) htool

end Runs

open Sample in
/-- A run over its token cap stays killed. -/
theorem kill_is_final_over_cap :
    (Run.answer process (.new (compiled (some (tokenBudget 10)) none) "audit.jsonl" [])
      [call "run" "search" 1 (some 20) 0, call "other" "search" 1 none 1]
      (call "run" "search" 2 none 2)).decision = .kill :=
  kill_is_final (compiled (some (tokenBudget 10)) none) "audit.jsonl" [] []
    [call "other" "search" 1 none 1] (call "run" "search" 1 (some 20) 0)
    (call "run" "search" 2 none 2) ⟨by decide, by decide, trivial⟩ (by decide) rfl (by decide)

open Sample in
/-- After the third repetition of a call the loop detector kills the run; its
next call, to another tool, is allowed. -/
theorem kill_not_final :
    ¬ ∀ (p : Policy ℚ) (policy : CompiledPolicy ℚ), p.validateAndCompile = .ok policy →
      ∀ (path : String) (disk : List UInt8) (calls later : List (Call ℚ)) (c d : Call ℚ),
        (Run.answer process (.new policy path disk) calls c).decision = .kill →
        d.request.runId = c.request.runId → d.request.tool ≠ "escalate_to_human" →
          (Run.answer process (.new policy path disk) (calls ++ c :: later) d).decision =
            .kill := by
  intro h
  have hkill := h _ _ (validateAndCompile_pack none none) "audit.jsonl" []
    [call "run" "search" 1 none 0, call "run" "search" 2 none 1, call "run" "search" 3 none 2] []
    (call "run" "search" 4 none 3) (call "run" "fetch" 5 none 4) (by decide) rfl (by decide)
  exact absurd hkill (by decide)

end LoopStorm.Engine
