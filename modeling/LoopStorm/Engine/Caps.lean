import LoopStorm.Engine.Finality

/-!
# Hard caps over a whole run

What a run has used is the sum of the amounts of its requests, a number; what
the tracker holds is a wrapping `u64` in three dimensions and a cost that a
negative estimate can bring down in the fourth.  Costs are exact rationals
here, so that a sum is a sum.

* `exactSum` — what the requests of a run add up to in a dimension.
* `Accounted` — the condition on a step: no counter wraps, no cost comes back
  under its cap.
* `total_stateAfter` — under it the tracker holds the exact sums.
* `hard_caps_hold` — under it no request at or beyond a cap is allowed.
* `hard_cap_evaded` — a run that passes its cap and is allowed.
-/

namespace LoopStorm.Engine

/-! ## Totals and caps as numbers -/

/-- The total of a dimension. -/
def BudgetState.total (s : BudgetState ℚ) : Dimension → ℚ
  | .costUsd => s.costUsd
  | .inputTokens => s.inputTokens.toNat
  | .outputTokens => s.outputTokens.toNat
  | .callCount => s.callCount.toNat

/-- The hard cap of a dimension, if it has one. -/
def BudgetConfig.hardCap (config : BudgetConfig ℚ) : Dimension → Option ℚ
  | .costUsd => config.costUsd.map (·.hard)
  | .inputTokens => config.inputTokens.map (fun dim => (dim.hard.toNat : ℚ))
  | .outputTokens => config.outputTokens.map (fun dim => (dim.hard.toNat : ℚ))
  | .callCount => config.callCount.map (fun dim => (dim.hard.toNat : ℚ))

/-- What a request adds in a dimension. -/
def DecisionRequest.amount (request : DecisionRequest ℚ) : Dimension → ℚ
  | .costUsd => request.update.costUsd
  | .inputTokens => request.update.inputTokens.toNat
  | .outputTokens => request.update.outputTokens.toNat
  | .callCount => 1

theorem gtU64_iff (a b : UInt64) : gtU64 a b = true ↔ (b.toNat : ℚ) < a.toNat := by
  rw [gtU64, decide_eq_true_eq, UInt64.lt_iff_toNat_lt, Nat.cast_lt]

/-- The comparisons of the tracker are comparisons of numbers. -/
theorem exceeds_iff {s : BudgetState ℚ} {config : BudgetConfig ℚ} {d : Dimension} :
    s.exceeds config d = true ↔ ∃ cap, config.hardCap d = some cap ∧ cap < s.total d := by
  cases d with
  | costUsd =>
    cases h : config.costUsd <;> simp [BudgetState.exceeds, BudgetConfig.hardCap,
      BudgetState.total, h]
  | inputTokens =>
    cases h : config.inputTokens <;> simp [BudgetState.exceeds, BudgetConfig.hardCap,
      BudgetState.total, h, gtU64_iff]
  | outputTokens =>
    cases h : config.outputTokens <;> simp [BudgetState.exceeds, BudgetConfig.hardCap,
      BudgetState.total, h, gtU64_iff]
  | callCount =>
    cases h : config.callCount <;> simp [BudgetState.exceeds, BudgetConfig.hardCap,
      BudgetState.total, h, gtU64_iff]

/-! ## Exact sums -/

/-- What the requests of a run add up to. -/
def exactSum (d : Dimension) (runId : String) (calls : List (Call ℚ)) : ℚ :=
  ((calls.filter (fun c => c.request.runId = runId)).map (fun c => c.request.amount d)).sum

theorem exactSum_cons (d : Dimension) (runId : String) (c : Call ℚ) (calls : List (Call ℚ)) :
    exactSum d runId (c :: calls) =
      (if c.request.runId = runId then c.request.amount d else 0) + exactSum d runId calls := by
  by_cases h : c.request.runId = runId
  · simp [exactSum, h]
  · simp [exactSum, h]

theorem exactSum_concat (d : Dimension) (calls : List (Call ℚ)) (c : Call ℚ) :
    exactSum d c.request.runId (calls ++ [c]) =
      exactSum d c.request.runId calls + c.request.amount d := by
  simp [exactSum]

/-- A step that is accounted for in a dimension: its counter does not wrap, or,
for the cost, totals over the cap stay over it. -/
def Accounted (d : Dimension) (ctx : EnforcementContext ℚ) (c : Call ℚ) : Prop :=
  let s := ctx.budgetTracker.totals c.request.runId
  let u := c.request.update
  match d with
  | .costUsd => ∀ config dim, ctx.policy.policy.budget = some config →
      config.costUsd = some dim → dim.hard < s.costUsd → dim.hard < s.costUsd + u.costUsd
  | .inputTokens => s.inputTokens.toNat + u.inputTokens.toNat < 2 ^ 64
  | .outputTokens => s.outputTokens.toNat + u.outputTokens.toNat < 2 ^ 64
  | .callCount => s.callCount.toNat + 1 < 2 ^ 64

theorem toNat_add_of_lt {a b : UInt64} (h : a.toNat + b.toNat < 2 ^ 64) :
    (a + b).toNat = a.toNat + b.toNat := by
  rw [UInt64.toNat_add, Nat.mod_eq_of_lt h]

section Runs

variable [Globset] [TextTools] [Sha256] {ctx : EnforcementContext ℚ} {c : Call ℚ}
  {d : Dimension}

omit [Globset] [TextTools] [Sha256] in
/-- An accounted step adds exactly its amount. -/
theorem total_totalsAfter (h : Accounted d ctx c) :
    (totalsAfter c.request ctx).total d =
      (ctx.budgetTracker.totals c.request.runId).total d + c.request.amount d := by
  cases d with
  | costUsd => rfl
  | inputTokens =>
    have h' := toNat_add_of_lt h
    simp only [totalsAfter, BudgetState.add, BudgetState.total, DecisionRequest.amount, h',
      Nat.cast_add]
  | outputTokens =>
    have h' := toNat_add_of_lt h
    simp only [totalsAfter, BudgetState.add, BudgetState.total, DecisionRequest.amount, h',
      Nat.cast_add]
  | callCount =>
    have h' : (_ + 1 : UInt64).toNat = _ + 1 := toNat_add_of_lt h
    simp only [totalsAfter, BudgetState.add, BudgetState.total, DecisionRequest.amount, h',
      Nat.cast_add, Nat.cast_one]

omit [Globset] [TextTools] [Sha256] in
/-- An accounted step keeps its run over a cap it is over. -/
theorem exceeds_totalsAfter {config : BudgetConfig ℚ} (h : Accounted d ctx c)
    (hb : ctx.policy.policy.budget = some config)
    (hover : (ctx.budgetTracker.totals c.request.runId).exceeds config d = true) :
    (totalsAfter c.request ctx).exceeds config d = true := by
  obtain ⟨cap, hcap, hlt⟩ := exceeds_iff.1 hover
  refine exceeds_iff.2 ⟨cap, hcap, ?_⟩
  cases d with
  | costUsd =>
    obtain ⟨dim, hdim, rfl⟩ := Option.map_eq_some_iff.1 hcap
    exact h config dim hb hdim hlt
  | inputTokens =>
    rw [total_totalsAfter h]
    exact lt_add_of_lt_of_nonneg hlt (Nat.cast_nonneg _)
  | outputTokens =>
    rw [total_totalsAfter h]
    exact lt_add_of_lt_of_nonneg hlt (Nat.cast_nonneg _)
  | callCount =>
    rw [total_totalsAfter h]
    exact lt_add_of_lt_of_nonneg hlt zero_le_one

/-- The total of a run after a call: its own call adds its amount. -/
theorem total_process (h : Accounted d ctx c) (runId : String) :
    ((process ctx c).1.budgetTracker.totals runId).total d =
      (ctx.budgetTracker.totals runId).total d +
        if c.request.runId = runId then c.request.amount d else 0 := by
  by_cases hr : c.request.runId = runId
  · subst hr
    rw [process, totals_enforce, total_totalsAfter h, if_pos rfl]
  · rw [process, BudgetTracker.totals, budgetStates_enforce_of_ne (Ne.symm hr), if_neg hr,
      add_zero]
    rfl

/-- The tracker holds the exact sums of an accounted run. -/
theorem total_stateAfter {calls : List (Call ℚ)}
    (h : Run.AllSteps process (Accounted d) ctx calls) (runId : String) :
    ((Run.stateAfter process ctx calls).budgetTracker.totals runId).total d =
      (ctx.budgetTracker.totals runId).total d + exactSum d runId calls := by
  induction calls generalizing ctx with
  | nil => simp [exactSum]
  | cons c cs ih => rw [Run.stateAfter, ih h.2, total_process h.1, exactSum_cons, add_assoc]

omit [Globset] in
theorem total_new (policy : CompiledPolicy ℚ) (path : String) (disk : List UInt8)
    (runId : String) :
    ((EnforcementContext.new policy path disk).budgetTracker.totals runId).total d = 0 := by
  cases d <;> rfl

/-- A run is over the hard cap of a dimension. -/
def Exceeds (d : Dimension) (runId : String) (config : BudgetConfig ℚ)
    (ctx : EnforcementContext ℚ) : Prop :=
  ctx.policy.policy.budget = some config ∧
    ∃ s, ctx.budgetTracker.states runId = some s ∧ s.exceeds config d = true

/-- Accounted steps keep a run over a cap it is over. -/
theorem exceeds_process {runId : String} {config : BudgetConfig ℚ}
    (hover : Exceeds d runId config ctx) (h : Accounted d ctx c) :
    Exceeds d runId config (process ctx c).1 := by
  obtain ⟨hb, s, hs, hexc⟩ := hover
  have hb' : (process ctx c).1.policy.policy.budget = some config := by
    rw [process, policy_enforce, hb]
  by_cases hr : runId = c.request.runId
  · subst hr
    refine ⟨hb', totalsAfter c.request ctx, ?_, exceeds_totalsAfter h hb ?_⟩
    · rw [process, budgetTracker_enforce, record_states, Function.update_self, totalsAfter]
    · rw [BudgetTracker.totals, hs]
      exact hexc
  · refine ⟨hb', s, ?_, hexc⟩
    rw [process, budgetStates_enforce_of_ne hr, hs]

omit [Globset] [TextTools] [Sha256] in
/-- A run over the cap of one dimension is over a cap. -/
theorem overCap_of_exceeds {runId : String} {config : BudgetConfig ℚ}
    (h : Exceeds d runId config ctx) : overCap ctx runId = true := by
  obtain ⟨hb, s, hs, hexc⟩ := h
  rw [overCap, hs, hb]
  exact overHardCap_iff.2 ⟨config, rfl, d, hexc⟩

/-- **Hard caps hold** in every run whose steps are accounted for: once the
exact sum of a capped dimension exceeds its cap, neither the request that takes
it there nor any later one of the run, `escalate_to_human` apart, is allowed. -/
theorem hard_caps_hold (policy : CompiledPolicy ℚ) {config : BudgetConfig ℚ}
    (hb : policy.policy.budget = some config) (path : String) (disk : List UInt8)
    {d : Dimension} {cap : ℚ} (hcap : config.hardCap d = some cap)
    (calls later : List (Call ℚ)) (c : Call ℚ)
    (hsteps : Run.AllSteps process (Accounted d) (.new policy path disk) (calls ++ c :: later))
    (hover : cap < exactSum d c.request.runId (calls ++ [c])) :
    (Run.answer process (.new policy path disk) calls c).decision ≠ .allow ∧
      ∀ e : Call ℚ, e.request.runId = c.request.runId → e.request.tool ≠ "escalate_to_human" →
        (Run.answer process (.new policy path disk) (calls ++ c :: later) e).decision ≠
          .allow := by
  obtain ⟨hcalls, hc, hlater⟩ := (Run.allSteps_append process).1 hsteps
  have hbudget : (Run.stateAfter process (.new policy path disk) calls).policy.policy.budget =
      some config := by
    rw [policy_stateAfter]
    exact hb
  have hexc : (totalsAfter c.request
      (Run.stateAfter process (.new policy path disk) calls)).exceeds config d = true := by
    refine exceeds_iff.2 ⟨cap, hcap, ?_⟩
    rw [total_totalsAfter hc, total_stateAfter hcalls, total_new, zero_add, ← exactSum_concat]
    exact hover
  have hkill : (Run.answer process (.new policy path disk) calls c).decision = .kill := by
    have hcapped := overHardCap_iff.2 ⟨config, hbudget, d, hexc⟩
    rw [Run.answer, process, decision_enforce, if_pos hcapped, ite_self]
  refine ⟨by rw [hkill]; simp, fun e hrun htool => ?_⟩
  have hstart : Exceeds d c.request.runId config
      (process (Run.stateAfter process (.new policy path disk) calls) c).1 := by
    refine ⟨by rw [process, policy_enforce, hbudget], _, ?_, hexc⟩
    rw [process, budgetTracker_enforce, record_states, Function.update_self, totalsAfter]
  have hend := @Run.invariant _ _ _ process (Exceeds d c.request.runId config) (Accounted d)
    (fun _ _ h => exceeds_process h) _ _ hstart hlater
  rw [Run.answer, Run.stateAfter_append, Run.stateAfter,
    decision_of_overCap (by rw [hrun]; exact overCap_of_exceeds hend) htool]
  simp

end Runs

open Sample in
/-- A run whose second request passes the cap of ten tokens. -/
theorem hard_caps_hold_tokens :
    (Run.answer process (.new (compiled (some (tokenBudget 10)) none) "audit.jsonl" [])
      [call "run" "search" 1 (some 10) 0] (call "run" "search" 2 (some 5) 1)).decision ≠
      .allow :=
  (hard_caps_hold (compiled (some (tokenBudget 10)) none) rfl "audit.jsonl" []
    (d := .inputTokens) rfl [call "run" "search" 1 (some 10) 0] []
    (call "run" "search" 2 (some 5) 1)
    ⟨by show _ < _; decide, by show _ < _; decide, trivial⟩
    (by norm_num [exactSum, call, DecisionRequest.amount, DecisionRequest.update]; decide)).1

open Sample in
/-- Ten tokens within a cap of ten, then a count that makes the counter wrap to
five: the second request passes the cap and is allowed. -/
theorem hard_cap_evaded :
    ¬ ∀ (p : Policy ℚ) (policy : CompiledPolicy ℚ), p.validateAndCompile = .ok policy →
      ∀ (config : BudgetConfig ℚ), policy.policy.budget = some config →
      ∀ (path : String) (disk : List UInt8) (d : Dimension) (cap : ℚ),
        config.hardCap d = some cap → ∀ (calls later : List (Call ℚ)) (c : Call ℚ),
        cap < exactSum d c.request.runId (calls ++ [c]) →
        (Run.answer process (.new policy path disk) calls c).decision ≠ .allow ∧
          ∀ e : Call ℚ, e.request.runId = c.request.runId →
            e.request.tool ≠ "escalate_to_human" →
            (Run.answer process (.new policy path disk) (calls ++ c :: later) e).decision ≠
              .allow := by
  intro h
  have hblocked := (h _ _ (validateAndCompile_pack (some (tokenBudget 10)) none) _ rfl
    "audit.jsonl" [] .inputTokens _ rfl [call "run" "search" 1 (some 10) 0] []
    (call "run" "search" 2 (some 18446744073709551611) 1)
    (by norm_num [exactSum, call, DecisionRequest.amount, DecisionRequest.update]; decide)).1
  exact absurd (by decide) hblocked

end LoopStorm.Engine
