import LoopStorm.Engine.Policy

/-!
# Budget tracker

`apps/engine/src/budget.rs`: the totals of each run in four dimensions, the
check after recording a call and the pre-check before the next one.  The token
and call counters are `u64` and wrap, as a release build does.

* `BudgetTracker.record`, `BudgetTracker.checkHardCapsWithConfig` — the two
  places where totals meet caps.
* `BudgetState.exceeds` — over the hard cap in one dimension, and
  `BudgetConfig.overHardCap` in any.
* `isHardCap_checkDimensions`, `isSome_checkHardCapsWithConfig` — both places
  answer exactly that question, whatever the soft caps say.
* `isSoftCap_record` — a warning is answered over a soft cap and under all hard
  ones.
-/

namespace LoopStorm.Engine

variable {F : Type} [Float64 F]

/-- Current budget state for a single run. -/
structure BudgetState (F : Type) where
  costUsd : F
  inputTokens : UInt64
  outputTokens : UInt64
  callCount : UInt64

/-- `BudgetState::default()`. -/
def BudgetState.zero : BudgetState F := ⟨Float64.zero, 0, 0, 0⟩

/-- An update to record against the budget for a run. -/
structure BudgetUpdate (F : Type) where
  costUsd : F
  inputTokens : UInt64
  outputTokens : UInt64

/-- Budget check result. -/
inductive BudgetStatus (F : Type) where
  /-- All dimensions are within limits. -/
  | ok
  /-- A soft cap has been reached. -/
  | softCapWarning (dimension : String) (current cap : F)
  /-- A hard cap has been exceeded. -/
  | hardCapExceeded (dimension : String) (current cap : F)

/-- Is the status a hard-cap breach? -/
def BudgetStatus.isHardCap : BudgetStatus F → Bool
  | .hardCapExceeded .. => true
  | _ => false

/-- Is the status a soft-cap warning? -/
def BudgetStatus.isSoftCap : BudgetStatus F → Bool
  | .softCapWarning .. => true
  | _ => false

/-- Increment the counters of a run. -/
def BudgetState.add (s : BudgetState F) (u : BudgetUpdate F) : BudgetState F where
  costUsd := Float64.add s.costUsd u.costUsd
  inputTokens := s.inputTokens + u.inputTokens
  outputTokens := s.outputTokens + u.outputTokens
  callCount := s.callCount + 1

/-! ## The checks -/

/-- `check_float_dimension` and `check_int_dimension`: the two differ in the
comparison and in the conversion for the report. -/
def checkDimension {α : Type} (gt : α → α → Bool) (toFloat : α → F) (name : String) (current : α)
    (soft : Option α) (hard : α) : BudgetStatus F :=
  if gt current hard then .hardCapExceeded name (toFloat current) (toFloat hard)
  else
    match soft with
    | some softCap =>
      if gt current softCap then .softCapWarning name (toFloat current) (toFloat softCap) else .ok
    | none => .ok

/-- The comparison of `u64` counters. -/
def gtU64 (a b : UInt64) : Bool := decide (b < a)

/-- `as f64` on a `u64`. -/
def u64ToFloat (n : UInt64) : F := Float64.ofNat n.toNat

/-- `check_float_dimension`. -/
def checkFloatDimension (name : String) (current : F) (soft : Option F) (hard : F) :
    BudgetStatus F :=
  checkDimension Float64.gt id name current soft hard

/-- `check_int_dimension`. -/
def checkIntDimension (name : String) (current : UInt64) (soft : Option UInt64) (hard : UInt64) :
    BudgetStatus F :=
  checkDimension gtU64 u64ToFloat name current soft hard

/-- Return the worse of two statuses (HardCapExceeded > SoftCapWarning > Ok). -/
def worseStatus (a b : BudgetStatus F) : BudgetStatus F :=
  match a, b with
  | .hardCapExceeded .., _ => a
  | _, .hardCapExceeded .. => b
  | .softCapWarning .., _ => a
  | _, .softCapWarning .. => b
  | _, _ => .ok

/-- Check all dimensions, returning the worst status. -/
def checkDimensions (config : BudgetConfig F) (s : BudgetState F) : BudgetStatus F :=
  let worst := .ok
  let worst := match config.costUsd with
    | some dim => worseStatus worst (checkFloatDimension "cost_usd" s.costUsd dim.soft dim.hard)
    | none => worst
  let worst := match config.inputTokens with
    | some dim =>
      worseStatus worst (checkIntDimension "input_tokens" s.inputTokens dim.soft dim.hard)
    | none => worst
  let worst := match config.outputTokens with
    | some dim =>
      worseStatus worst (checkIntDimension "output_tokens" s.outputTokens dim.soft dim.hard)
    | none => worst
  match config.callCount with
  | some dim => worseStatus worst (checkIntDimension "call_count" s.callCount dim.soft dim.hard)
  | none => worst

/-! ## The tracker -/

/-- Budget tracker for all runs. -/
structure BudgetTracker (F : Type) where
  states : String → Option (BudgetState F)

/-- A new empty budget tracker. -/
def BudgetTracker.new : BudgetTracker F := ⟨fun _ => none⟩

/-- The totals of a run, zero before its first call. -/
def BudgetTracker.totals (t : BudgetTracker F) (runId : String) : BudgetState F :=
  (t.states runId).getD .zero

/-- Record a budget update for a run and check against caps. -/
def BudgetTracker.record (t : BudgetTracker F) (runId : String) (update : BudgetUpdate F)
    (config : Option (BudgetConfig F)) : BudgetStatus F × BudgetTracker F :=
  let state := (t.totals runId).add update
  let t' : BudgetTracker F := ⟨Function.update t.states runId (some state)⟩
  match config with
  | none => (.ok, t')
  | some config => (checkDimensions config state, t')

/-- One comparison of the pre-check: the breach of a dimension's hard cap. -/
def hardCapBreach {α : Type} (gt : α → α → Bool) (toFloat : α → F) (name : String) (current : α)
    (hard : Option α) : Option (BudgetStatus F) :=
  match hard with
  | some hard =>
    if gt current hard then some (.hardCapExceeded name (toFloat current) (toFloat hard)) else none
  | none => none

/-- Check hard caps with a known budget config, without recording.  The first
dimension over its cap is reported. -/
def BudgetTracker.checkHardCapsWithConfig (t : BudgetTracker F) (runId : String)
    (config : BudgetConfig F) : Option (BudgetStatus F) :=
  match t.states runId with
  | none => none
  | some state =>
    (hardCapBreach Float64.gt id "cost_usd" state.costUsd (config.costUsd.map (·.hard))).or <|
    (hardCapBreach gtU64 u64ToFloat "input_tokens" state.inputTokens
      (config.inputTokens.map (·.hard))).or <|
    (hardCapBreach gtU64 u64ToFloat "output_tokens" state.outputTokens
      (config.outputTokens.map (·.hard))).or <|
    hardCapBreach gtU64 u64ToFloat "call_count" state.callCount (config.callCount.map (·.hard))

/-- The current budget state for a run. -/
def BudgetTracker.getState (t : BudgetTracker F) (runId : String) : Option (BudgetState F) :=
  t.states runId

/-- Reset the budget state for a run. -/
def BudgetTracker.reset (t : BudgetTracker F) (runId : String) : BudgetTracker F :=
  ⟨Function.update t.states runId none⟩

/-! ## Over a hard cap -/

/-- The four budget dimensions. -/
inductive Dimension where
  | costUsd
  | inputTokens
  | outputTokens
  | callCount
  deriving DecidableEq, Repr

/-- The totals exceed the hard cap of a dimension, if it has one. -/
def BudgetState.exceeds (s : BudgetState F) (config : BudgetConfig F) : Dimension → Bool
  | .costUsd => config.costUsd.any (fun dim => Float64.gt s.costUsd dim.hard)
  | .inputTokens => config.inputTokens.any (fun dim => gtU64 s.inputTokens dim.hard)
  | .outputTokens => config.outputTokens.any (fun dim => gtU64 s.outputTokens dim.hard)
  | .callCount => config.callCount.any (fun dim => gtU64 s.callCount dim.hard)

/-- The totals exceed the hard cap of some dimension. -/
def BudgetState.overHardCap (s : BudgetState F) (config : Option (BudgetConfig F)) : Bool :=
  match config with
  | none => false
  | some c =>
    s.exceeds c .costUsd || s.exceeds c .inputTokens || s.exceeds c .outputTokens ||
      s.exceeds c .callCount

theorem overHardCap_iff {s : BudgetState F} {config : Option (BudgetConfig F)} :
    s.overHardCap config = true ↔ ∃ c, config = some c ∧ ∃ d, s.exceeds c d = true := by
  cases config with
  | none => simp [BudgetState.overHardCap]
  | some c =>
    simp only [BudgetState.overHardCap, Bool.or_eq_true, Option.some.injEq, exists_eq_left']
    constructor
    · rintro (((h | h) | h) | h)
      · exact ⟨_, h⟩
      · exact ⟨_, h⟩
      · exact ⟨_, h⟩
      · exact ⟨_, h⟩
    · rintro ⟨d, h⟩
      cases d <;> simp [h]

omit [Float64 F] in
@[simp] theorem isHardCap_checkDimension {α : Type} (gt : α → α → Bool) (toFloat : α → F)
    (name : String) (current : α) (soft : Option α) (hard : α) :
    (checkDimension gt toFloat name current soft hard).isHardCap = gt current hard := by
  unfold checkDimension
  by_cases h : gt current hard = true
  · rw [if_pos h, h]; rfl
  · have hfalse : gt current hard = false := by simpa using h
    rw [if_neg h, hfalse]
    cases soft with
    | none => rfl
    | some softCap =>
      by_cases hs : gt current softCap = true
      · simp only [hs, if_true]; rfl
      · simp only [hs]; rfl

omit [Float64 F] in
@[simp] theorem isHardCap_ok : (BudgetStatus.ok : BudgetStatus F).isHardCap = false := rfl

omit [Float64 F] in
@[simp] theorem isHardCap_worseStatus (a b : BudgetStatus F) :
    (worseStatus a b).isHardCap = (a.isHardCap || b.isHardCap) := by
  cases a <;> cases b <;> rfl

/-- The status over all dimensions is a breach when one of them is over its
hard cap: no other status can hide it. -/
theorem isHardCap_checkDimensions (config : BudgetConfig F) (s : BudgetState F) :
    (checkDimensions config s).isHardCap = s.overHardCap (some config) := by
  obtain ⟨c, i, o, k⟩ := config
  cases c <;> cases i <;> cases o <;> cases k <;>
    simp [checkDimensions, BudgetState.overHardCap, BudgetState.exceeds, checkFloatDimension,
      checkIntDimension, Bool.or_assoc]

/-- What `record` answers and what it leaves behind. -/
theorem record_isHardCap (t : BudgetTracker F) (runId : String) (update : BudgetUpdate F)
    (config : Option (BudgetConfig F)) :
    (t.record runId update config).1.isHardCap =
      ((t.totals runId).add update).overHardCap config := by
  cases config with
  | none => rfl
  | some c => exact isHardCap_checkDimensions c _

theorem record_states (t : BudgetTracker F) (runId : String) (update : BudgetUpdate F)
    (config : Option (BudgetConfig F)) :
    (t.record runId update config).2.states =
      Function.update t.states runId (some ((t.totals runId).add update)) := by
  cases config <;> rfl

@[simp] theorem totals_record_self (t : BudgetTracker F) (runId : String)
    (update : BudgetUpdate F) (config : Option (BudgetConfig F)) :
    (t.record runId update config).2.totals runId = (t.totals runId).add update := by
  rw [BudgetTracker.totals, record_states, Function.update_self, Option.getD_some]

/-- Recording for one run leaves the totals of every other run alone. -/
theorem states_record_of_ne {t : BudgetTracker F} {runId other : String} (h : other ≠ runId)
    (update : BudgetUpdate F) (config : Option (BudgetConfig F)) :
    (t.record runId update config).2.states other = t.states other := by
  rw [record_states, Function.update_of_ne h]

omit [Float64 F] in
@[simp] theorem isSome_hardCapBreach {α : Type} (gt : α → α → Bool) (toFloat : α → F)
    (name : String) (current : α) (hard : Option α) :
    (hardCapBreach gt toFloat name current hard).isSome = hard.any (gt current) := by
  cases hard with
  | none => rfl
  | some hard =>
    by_cases h : gt current hard = true
    · simp [hardCapBreach, h]
    · simp [hardCapBreach, h]

/-- The pre-check answers a breach exactly when the run has recorded totals and
they exceed a hard cap. -/
theorem isSome_checkHardCapsWithConfig (t : BudgetTracker F) (runId : String)
    (config : BudgetConfig F) :
    (t.checkHardCapsWithConfig runId config).isSome =
      (t.states runId).any (fun s => s.overHardCap (some config)) := by
  unfold BudgetTracker.checkHardCapsWithConfig
  cases t.states runId with
  | none => rfl
  | some s =>
    simp only [Option.isSome_or, isSome_hardCapBreach, Option.any_map, Option.any_some,
      BudgetState.overHardCap, BudgetState.exceeds, Bool.or_assoc]

/-- The pre-check reads the totals of its own run only. -/
theorem checkHardCapsWithConfig_congr {t t' : BudgetTracker F} {runId : String}
    (h : t.states runId = t'.states runId) :
    t.checkHardCapsWithConfig runId = t'.checkHardCapsWithConfig runId := by
  funext config
  rw [BudgetTracker.checkHardCapsWithConfig, BudgetTracker.checkHardCapsWithConfig, h]

omit [Float64 F] in
theorem isHardCap_of_hardCapBreach {α : Type} {gt : α → α → Bool} {toFloat : α → F}
    {name : String} {current : α} {hard : Option α} {st : BudgetStatus F}
    (h : hardCapBreach gt toFloat name current hard = some st) : st.isHardCap = true := by
  unfold hardCapBreach at h
  split at h
  · split at h
    · cases h; rfl
    · cases h
  · cases h

/-- Whatever the pre-check reports is a hard-cap breach. -/
theorem isHardCap_of_checkHardCapsWithConfig {t : BudgetTracker F} {runId : String}
    {config : BudgetConfig F} {st : BudgetStatus F}
    (h : t.checkHardCapsWithConfig runId config = some st) : st.isHardCap = true := by
  unfold BudgetTracker.checkHardCapsWithConfig at h
  split at h
  · cases h
  · simp only [Option.or_eq_some_iff] at h
    rcases h with h | ⟨-, h | ⟨-, h | ⟨-, h⟩⟩⟩
    all_goals exact isHardCap_of_hardCapBreach h

/-! ## Over a soft cap -/

/-- The totals exceed the soft cap of a dimension, if it has one. -/
def BudgetState.exceedsSoft (s : BudgetState F) (config : BudgetConfig F) : Dimension → Bool
  | .costUsd => config.costUsd.any fun dim => dim.soft.any (Float64.gt s.costUsd)
  | .inputTokens => config.inputTokens.any fun dim => dim.soft.any (gtU64 s.inputTokens)
  | .outputTokens => config.outputTokens.any fun dim => dim.soft.any (gtU64 s.outputTokens)
  | .callCount => config.callCount.any fun dim => dim.soft.any (gtU64 s.callCount)

/-- The totals exceed the soft cap of some dimension. -/
def BudgetState.overSoftCap (s : BudgetState F) (config : Option (BudgetConfig F)) : Bool :=
  match config with
  | none => false
  | some c =>
    s.exceedsSoft c .costUsd || s.exceedsSoft c .inputTokens || s.exceedsSoft c .outputTokens ||
      s.exceedsSoft c .callCount

omit [Float64 F] in
@[simp] theorem isSoftCap_checkDimension {α : Type} (gt : α → α → Bool) (toFloat : α → F)
    (name : String) (current : α) (soft : Option α) (hard : α) :
    (checkDimension gt toFloat name current soft hard).isSoftCap =
      (!gt current hard && soft.any (gt current)) := by
  unfold checkDimension
  by_cases h : gt current hard = true
  · rw [if_pos h, h]
    rfl
  · have hfalse : gt current hard = false := by simpa using h
    rw [if_neg h, hfalse]
    cases soft with
    | none => rfl
    | some softCap =>
      by_cases hs : gt current softCap = true
      · simp only [hs, if_true]
        simp [BudgetStatus.isSoftCap, hs]
      · simp only [hs]
        simp [BudgetStatus.isSoftCap, hs]

omit [Float64 F] in
@[simp] theorem isSoftCap_ok : (BudgetStatus.ok : BudgetStatus F).isSoftCap = false := rfl

omit [Float64 F] in
@[simp] theorem isSoftCap_worseStatus (a b : BudgetStatus F) :
    (worseStatus a b).isSoftCap =
      (!(a.isHardCap || b.isHardCap) && (a.isSoftCap || b.isSoftCap)) := by
  cases a <;> cases b <;> rfl

/-- A warning is answered over a soft cap and under all hard ones. -/
theorem isSoftCap_checkDimensions (config : BudgetConfig F) (s : BudgetState F) :
    (checkDimensions config s).isSoftCap =
      (!s.overHardCap (some config) && s.overSoftCap (some config)) := by
  obtain ⟨c, i, o, k⟩ := config
  cases c <;> cases i <;> cases o <;> cases k <;>
    simp [checkDimensions, BudgetState.overHardCap, BudgetState.exceeds, BudgetState.overSoftCap,
      BudgetState.exceedsSoft, checkFloatDimension, checkIntDimension] <;> grind

theorem isSoftCap_record (t : BudgetTracker F) (runId : String) (update : BudgetUpdate F)
    (config : Option (BudgetConfig F)) :
    (t.record runId update config).1.isSoftCap =
      (!((t.totals runId).add update).overHardCap config &&
        ((t.totals runId).add update).overSoftCap config) := by
  cases config with
  | none => rfl
  | some c => exact isSoftCap_checkDimensions c _

end LoopStorm.Engine
