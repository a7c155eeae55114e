import LoopStorm.Engine.Policy

/-!
# Loop detector

`apps/engine/src/loop_detector.rs`: the sliding window of recent calls of each
run, the cooldown flags of its fingerprints and the error streaks.  Instants
are nanoseconds since the engine started; a difference of instants that would
be negative is zero.

* `RunLoopState.check` — one run's half of `LoopDetector::check`.
* `check_loopDetected_iff` — the detector kills exactly on a repeated
  fingerprint that has had its warning.
* `states_check_of_ne` — a check leaves every other run's state alone.
-/

namespace LoopStorm.Engine

/-- Result of a loop detection check. -/
inductive LoopStatus where
  /-- No loop detected. -/
  | ok
  /-- First trigger: cooldown. -/
  | cooldownWarning (reason : String)
  /-- Loop detected after cooldown: kill the run. -/
  | loopDetected (reason : String)
  deriving DecidableEq, Repr

/-- A recorded call entry for the sliding window. -/
structure CallEntry where
  tool : String
  argsHash : String
  timestamp : Nat

/-- State tracking for a single run. -/
structure RunLoopState where
  /-- Sliding window of recent calls, oldest first. -/
  callHistory : List CallEntry
  /-- Consecutive error responses of each fingerprint. -/
  errorStreaks : String → Option UInt64
  /-- The fingerprints a cooldown has been sent for. -/
  cooldownSent : String → Option Bool

/-- `RunLoopState::new`. -/
def RunLoopState.new : RunLoopState := ⟨[], fun _ => none, fun _ => none⟩

/-- The key of the flags and the streaks. -/
def fingerprint (tool argsHash : String) : String := tool ++ ":" ++ argsHash

/-- Has the fingerprint had its cooldown? -/
def RunLoopState.alreadyWarned (s : RunLoopState) (fp : String) : Bool :=
  (s.cooldownSent fp).getD false

/-- Drop the entries at the front that have left the window. -/
def pruneHistory (window now : Nat) (history : List CallEntry) : List CallEntry :=
  history.dropWhile (fun entry => decide (window < now - entry.timestamp))

/-- `Duration::from_secs`, in nanoseconds. -/
def windowNanos (config : LoopDetectionConfig) : Nat :=
  config.identicalCallWindowSeconds.toNat * 1000000000

/-- The history a check of this call leaves: the call recorded, then the window
pruned. -/
def RunLoopState.recorded (s : RunLoopState) (config : LoopDetectionConfig)
    (tool argsHash : String) (now : Nat) : List CallEntry :=
  pruneHistory (windowNanos config) now (s.callHistory ++ [⟨tool, argsHash, now⟩])

/-- The identical calls in a window. -/
def identicalCount (tool argsHash : String) (history : List CallEntry) : Nat :=
  (history.filter (fun entry => entry.tool == tool && entry.argsHash == argsHash)).length

/-- The answer to a trigger of one of the heuristics, and the flag it leaves. -/
def RunLoopState.trigger (s : RunLoopState) (fp killReason warnReason : String) :
    LoopStatus × RunLoopState :=
  if s.alreadyWarned fp then (.loopDetected killReason, s)
  else
    (.cooldownWarning warnReason,
      { s with cooldownSent := Function.update s.cooldownSent fp (some true) })

/-- Heuristic 1 on the state of the run. -/
def RunLoopState.check (s : RunLoopState) (config : LoopDetectionConfig) (tool argsHash : String)
    (now : Nat) : LoopStatus × RunLoopState :=
  let fp := fingerprint tool argsHash
  let s := { s with callHistory := s.recorded config tool argsHash now }
  let count := identicalCount tool argsHash s.callHistory
  if config.identicalCallThreshold.toNat ≤ count then
    s.trigger fp
      s!"identical call fingerprint ({fp}) repeated {count} times after cooldown — killing run"
      s!"identical call fingerprint ({fp}) repeated {count} times in {config.identicalCallWindowSeconds}s window"
  else (.ok, s)

/-- Heuristic 2 on the state of the run. -/
def RunLoopState.recordError (s : RunLoopState) (config : LoopDetectionConfig)
    (tool argsHash : String) : LoopStatus × RunLoopState :=
  let fp := fingerprint tool argsHash
  let count := (s.errorStreaks fp).getD 0 + 1
  let s := { s with errorStreaks := Function.update s.errorStreaks fp (some count) }
  if config.identicalErrorThreshold ≤ count then
    s.trigger fp
      s!"identical error response for ({fp}) repeated {count} times after cooldown — killing run"
      s!"identical error response for ({fp}) repeated {count} times without intervening success"
  else (.ok, s)

/-! ## The detector of all runs -/

/-- Loop detector for all runs. -/
structure LoopDetector where
  states : String → Option RunLoopState

/-- A new loop detector. -/
def LoopDetector.new : LoopDetector := ⟨fun _ => none⟩

/-- The state of a run, fresh before its first check. -/
def LoopDetector.state (d : LoopDetector) (runId : String) : RunLoopState :=
  (d.states runId).getD .new

/-- The detector with the state of one run replaced. -/
def LoopDetector.set (d : LoopDetector) (runId : String) (s : RunLoopState) : LoopDetector :=
  ⟨Function.update d.states runId (some s)⟩

/-- Check a request against loop detection heuristics, at the instant `now`. -/
def LoopDetector.check {F : Type} [Float64 F] (d : LoopDetector) (request : DecisionRequest F)
    (config : LoopDetectionConfig) (now : Nat) : LoopStatus × LoopDetector :=
  if !config.enabled then (.ok, d)
  else
    let (status, s) := (d.state request.runId).check config request.tool request.argsHash now
    (status, d.set request.runId s)

/-- Record an error response for Heuristic 2. -/
def LoopDetector.recordError (d : LoopDetector) (runId tool argsHash : String)
    (config : LoopDetectionConfig) : LoopStatus × LoopDetector :=
  if !config.enabled then (.ok, d)
  else
    let (status, s) := (d.state runId).recordError config tool argsHash
    (status, d.set runId s)

/-- Record a successful response, resetting the error streak of the
fingerprint. -/
def LoopDetector.recordSuccess (d : LoopDetector) (runId tool argsHash : String) : LoopDetector :=
  match d.states runId with
  | none => d
  | some s =>
    d.set runId
      { s with errorStreaks := Function.update s.errorStreaks (fingerprint tool argsHash) none }

/-- Reset all state for a run. -/
def LoopDetector.reset (d : LoopDetector) (runId : String) : LoopDetector :=
  ⟨Function.update d.states runId none⟩

/-! ## What a check answers -/

/-- The second trigger: the fingerprint is warned and at its threshold. -/
def RunLoopState.secondTrigger (s : RunLoopState) (config : LoopDetectionConfig)
    (tool argsHash : String) (now : Nat) : Bool :=
  s.alreadyWarned (fingerprint tool argsHash) &&
    decide (config.identicalCallThreshold.toNat ≤
      identicalCount tool argsHash (s.recorded config tool argsHash now))

/-- A check says `LoopDetected` exactly on the second trigger. -/
theorem runCheck_loopDetected_iff (s : RunLoopState) (config : LoopDetectionConfig)
    (tool argsHash : String) (now : Nat) :
    (∃ reason, (s.check config tool argsHash now).1 = .loopDetected reason) ↔
      s.secondTrigger config tool argsHash now = true := by
  unfold RunLoopState.check RunLoopState.secondTrigger RunLoopState.trigger
  by_cases hcount : config.identicalCallThreshold.toNat ≤
      identicalCount tool argsHash (s.recorded config tool argsHash now)
  · simp only [hcount, if_true, decide_true, Bool.and_true]
    by_cases hwarned : s.alreadyWarned (fingerprint tool argsHash) = true
    · have h := hwarned
      unfold RunLoopState.alreadyWarned at h ⊢
      simp only [h, if_true, LoopStatus.loopDetected.injEq, exists_eq']
    · have h := hwarned
      unfold RunLoopState.alreadyWarned at h ⊢
      simp only [h, if_false, reduceCtorEq, exists_false]
  · simp only [hcount, if_false, decide_false, Bool.and_false, reduceCtorEq, exists_false,
      Bool.false_eq_true]

/-- The detector says `LoopDetected` exactly when it is enabled and the run's
state has its second trigger. -/
theorem check_loopDetected_iff {F : Type} [Float64 F] (d : LoopDetector)
    (request : DecisionRequest F) (config : LoopDetectionConfig) (now : Nat) :
    (∃ reason, (d.check request config now).1 = .loopDetected reason) ↔
      config.enabled = true ∧
        (d.state request.runId).secondTrigger config request.tool request.argsHash now = true := by
  unfold LoopDetector.check
  cases config.enabled with
  | true => simpa using runCheck_loopDetected_iff (d.state request.runId) config _ _ now
  | false => simp

/-! ## One run's state -/

section Frame

variable {F : Type} [Float64 F] {d : LoopDetector} {runId other : String}

theorem states_set_of_ne (h : other ≠ runId) (s : RunLoopState) :
    (d.set runId s).states other = d.states other :=
  Function.update_of_ne h _ _

@[simp] theorem states_set_self (s : RunLoopState) :
    (d.set runId s).states runId = some s :=
  Function.update_self ..

/-- A check leaves the state of every other run alone. -/
theorem states_check_of_ne {request : DecisionRequest F} (h : other ≠ request.runId)
    (config : LoopDetectionConfig) (now : Nat) :
    (d.check request config now).2.states other = d.states other := by
  unfold LoopDetector.check
  split
  · rfl
  · exact states_set_of_ne h _

/-- A check reads and writes the state of its own run only. -/
theorem check_congr {d' : LoopDetector} {request : DecisionRequest F}
    (h : d.states request.runId = d'.states request.runId) (config : LoopDetectionConfig)
    (now : Nat) :
    (d.check request config now).1 = (d'.check request config now).1 ∧
      (d.check request config now).2.states request.runId =
        (d'.check request config now).2.states request.runId := by
  have hstate : d.state request.runId = d'.state request.runId := by
    rw [LoopDetector.state, LoopDetector.state, h]
  unfold LoopDetector.check
  by_cases henabled : config.enabled = true
  · simp only [henabled, hstate, Bool.not_true, Bool.false_eq_true, if_false, states_set_self,
      and_self]
  · simp only [henabled, Bool.not_false, if_true, h, and_self]

theorem states_recordError_of_ne (h : other ≠ runId) (tool argsHash : String)
    (config : LoopDetectionConfig) :
    (d.recordError runId tool argsHash config).2.states other = d.states other := by
  unfold LoopDetector.recordError
  split
  · rfl
  · exact states_set_of_ne h _

theorem states_recordSuccess_of_ne (h : other ≠ runId) (tool argsHash : String) :
    (d.recordSuccess runId tool argsHash).states other = d.states other := by
  unfold LoopDetector.recordSuccess
  split
  · rfl
  · exact states_set_of_ne h _

theorem states_reset_of_ne (h : other ≠ runId) : (d.reset runId).states other = d.states other :=
  Function.update_of_ne h _ _

end Frame

end LoopStorm.Engine
