import LoopStorm.Engine.LoopDetector
import LoopStorm.Lib.Window

/-!
# The window of the loop detector

Heuristic 1 counts identical calls in a history that is pruned at each call.
Over the calls of a run in the order of their times it counts what a reader of
the whole record would.

* `LoopDetector.checks` — the detector after a sequence of calls.
* `callHistory_checks` — the history of a run is that of its own calls.
* `callHistory_eq` — it holds the calls in the window, no more and no fewer.
* `check_triggers_iff` — **a check triggers exactly when the identical calls in
  the window reach the threshold.**
-/

namespace LoopStorm.Engine

section Window

variable {F : Type} [Float64 F]

/-- A request and the instant it is checked at. -/
abbrev TimedCall (F : Type) [Float64 F] : Type := DecisionRequest F × Nat

/-- What the detector records of a call. -/
def TimedCall.entry (call : TimedCall F) : CallEntry := ⟨call.1.tool, call.1.argsHash, call.2⟩

/-- The detector after a sequence of checks. -/
def LoopDetector.checks (d : LoopDetector) (config : LoopDetectionConfig)
    (calls : List (TimedCall F)) : LoopDetector :=
  calls.foldl (fun d call => (d.check call.1 config call.2).2) d

/-- The calls of a run. -/
def callsOf (runId : String) (calls : List (TimedCall F)) : List (TimedCall F) :=
  calls.filter fun call => call.1.runId = runId

/-- A call that is not older than the window at the instant `now`. -/
def InWindow (config : LoopDetectionConfig) (now : Nat) (call : TimedCall F) : Prop :=
  now - call.2 ≤ windowNanos config

instance (config : LoopDetectionConfig) (now : Nat) :
    DecidablePred (InWindow (F := F) config now) :=
  fun call => inferInstanceAs (Decidable (now - call.2 ≤ windowNanos config))

/-- The heuristic has triggered: a warning or the end of the run. -/
def LoopStatus.Triggered (status : LoopStatus) : Prop :=
  (∃ reason, status = .cooldownWarning reason) ∨ ∃ reason, status = .loopDetected reason

/-! ## What a check records -/

/-- A check pushes the call onto the history of its run. -/
theorem recorded_eq_push (s : RunLoopState) (config : LoopDetectionConfig) (call : TimedCall F) :
    s.recorded config call.1.tool call.1.argsHash call.2 =
      Window.push CallEntry.timestamp (windowNanos config) s.callHistory call.entry := by
  unfold RunLoopState.recorded pruneHistory Window.push
  congr 1
  funext entry
  show decide (windowNanos config < call.2 - entry.timestamp) =
    !decide (call.2 - entry.timestamp ≤ windowNanos config)
  simp only [← not_le, decide_not]

theorem callHistory_trigger (s : RunLoopState) (fp kill warn : String) :
    (s.trigger fp kill warn).2.callHistory = s.callHistory := by
  unfold RunLoopState.trigger
  split <;> rfl

theorem callHistory_runCheck (s : RunLoopState) (config : LoopDetectionConfig)
    (tool argsHash : String) (now : Nat) :
    (s.check config tool argsHash now).2.callHistory = s.recorded config tool argsHash now := by
  unfold RunLoopState.check
  dsimp only
  split
  · exact callHistory_trigger ..
  · rfl

theorem triggered_trigger (s : RunLoopState) (fp kill warn : String) :
    (s.trigger fp kill warn).1.Triggered := by
  unfold RunLoopState.trigger
  split
  · exact Or.inr ⟨kill, rfl⟩
  · exact Or.inl ⟨warn, rfl⟩

theorem not_triggered_ok : ¬ LoopStatus.ok.Triggered := by
  rintro (⟨reason, h⟩ | ⟨reason, h⟩)
  · cases h
  · cases h

/-- The check of a run triggers when the history it leaves reaches the
threshold. -/
theorem runCheck_triggered_iff (s : RunLoopState) (config : LoopDetectionConfig)
    (tool argsHash : String) (now : Nat) :
    (s.check config tool argsHash now).1.Triggered ↔
      config.identicalCallThreshold.toNat ≤
        identicalCount tool argsHash (s.recorded config tool argsHash now) := by
  unfold RunLoopState.check
  dsimp only
  split
  case isTrue hle => exact iff_of_true (triggered_trigger ..) hle
  case isFalse hlt => exact iff_of_false not_triggered_ok hlt

/-- A check of an enabled detector, as the check of its run. -/
theorem check_eq {d : LoopDetector} {config : LoopDetectionConfig} (h : config.enabled = true)
    (request : DecisionRequest F) (now : Nat) :
    d.check request config now =
      (((d.state request.runId).check config request.tool request.argsHash now).1,
        d.set request.runId
          ((d.state request.runId).check config request.tool request.argsHash now).2) := by
  unfold LoopDetector.check
  rw [h]
  rfl

theorem state_set_self (d : LoopDetector) (runId : String) (s : RunLoopState) :
    (d.set runId s).state runId = s := by
  rw [LoopDetector.state, states_set_self]
  rfl

theorem state_congr {d d' : LoopDetector} {runId : String} (h : d.states runId = d'.states runId) :
    d.state runId = d'.state runId := by
  rw [LoopDetector.state, LoopDetector.state, h]

/-! ## What a sequence of checks records -/

/-- The history of a run is pushed together from its own calls. -/
theorem callHistory_checks {config : LoopDetectionConfig} (h : config.enabled = true)
    (runId : String) (calls : List (TimedCall F)) (d : LoopDetector) :
    ((d.checks config calls).state runId).callHistory =
      ((callsOf runId calls).map TimedCall.entry).foldl
        (Window.push CallEntry.timestamp (windowNanos config)) (d.state runId).callHistory := by
  induction calls generalizing d with
  | nil => rfl
  | cons call calls ih =>
    show (((d.check call.1 config call.2).2.checks config calls).state runId).callHistory = _
    rw [ih]
    by_cases hrun : call.1.runId = runId
    · have hcalls : callsOf runId (call :: calls) = call :: callsOf runId calls := by
        rw [callsOf, List.filter_cons_of_pos (by simpa using hrun)]
        rfl
      rw [hcalls, check_eq h, ← hrun, state_set_self, callHistory_runCheck, recorded_eq_push]
      rfl
    · have hcalls : callsOf runId (call :: calls) = callsOf runId calls := by
        rw [callsOf, List.filter_cons_of_neg (by simpa using hrun)]
        rfl
      rw [hcalls, state_congr (states_check_of_ne (Ne.symm hrun) config call.2)]

/-- The times of a run's calls are in order when those of all calls are. -/
theorem pairwise_entries {runId : String} {calls : List (TimedCall F)}
    (h : calls.Pairwise fun a b => a.2 ≤ b.2) :
    ((callsOf runId calls).map TimedCall.entry).Pairwise
      fun a b => a.timestamp ≤ b.timestamp :=
  List.pairwise_map.2 (h.sublist List.filter_sublist)

/-- **The history of a run after a check**: its calls in the window, and no
others. -/
theorem callHistory_eq {config : LoopDetectionConfig} (h : config.enabled = true)
    {calls : List (TimedCall F)} {call : TimedCall F}
    (hsorted : (calls ++ [call]).Pairwise fun a b => a.2 ≤ b.2) :
    (((LoopDetector.new.checks config (calls ++ [call]))).state call.1.runId).callHistory =
      ((callsOf call.1.runId (calls ++ [call])).filter fun c => InWindow config call.2 c).map
        TimedCall.entry := by
  have hcalls : callsOf call.1.runId (calls ++ [call]) = callsOf call.1.runId calls ++ [call] := by
    rw [callsOf, List.filter_append, List.filter_cons_of_pos (by simp)]
    rfl
  have hentries : ((callsOf call.1.runId (calls ++ [call])).map TimedCall.entry).Pairwise
      fun a b => a.timestamp ≤ b.timestamp := pairwise_entries hsorted
  rw [hcalls, List.map_append] at hentries
  rw [callHistory_checks h, hcalls, List.map_append]
  show List.foldl _ [] (_ ++ [call.entry]) = _
  rw [Window.foldl_push_concat hentries, ← List.map_singleton (f := TimedCall.entry),
    ← List.map_append, List.filter_map]
  rfl

/-! ## When a check triggers -/

/-- The identical calls of a history are those of the calls it was recorded
from. -/
theorem identicalCount_entries (tool argsHash : String) (calls : List (TimedCall F)) :
    identicalCount tool argsHash (calls.map TimedCall.entry) =
      calls.countP fun c => c.1.tool = tool ∧ c.1.argsHash = argsHash := by
  rw [identicalCount, ← List.countP_eq_length_filter, List.countP_map]
  refine List.countP_congr fun c _ => ?_
  simp [TimedCall.entry]

/-- **When a check triggers.**  After any calls in the order of their times, a
check triggers exactly when the identical calls of its run in the window, itself
among them, reach the threshold; and the history it leaves holds exactly the
calls of the run in the window. -/
theorem check_triggers_iff {config : LoopDetectionConfig} (h : config.enabled = true)
    {calls : List (TimedCall F)} {call : TimedCall F}
    (hsorted : (calls ++ [call]).Pairwise fun a b => a.2 ≤ b.2) :
    (((LoopDetector.new.checks config calls).check call.1 config call.2).1.Triggered ↔
      config.identicalCallThreshold.toNat ≤ (calls ++ [call]).countP fun c =>
        c.1.runId = call.1.runId ∧ InWindow config call.2 c ∧
          c.1.tool = call.1.tool ∧ c.1.argsHash = call.1.argsHash) ∧
      (((LoopDetector.new.checks config calls).check call.1 config call.2).2.state
          call.1.runId).callHistory =
        ((calls ++ [call]).filter fun c =>
          c.1.runId = call.1.runId ∧ InWindow config call.2 c).map TimedCall.entry := by
  have hafter : LoopDetector.new.checks config (calls ++ [call]) =
      ((LoopDetector.new.checks config calls).check call.1 config call.2).2 := by
    rw [LoopDetector.checks, List.foldl_append]
    rfl
  have hhistory := callHistory_eq h hsorted
  have hboth : (callsOf call.1.runId (calls ++ [call])).filter
      (fun c => InWindow config call.2 c) =
        (calls ++ [call]).filter fun c =>
          c.1.runId = call.1.runId ∧ InWindow config call.2 c := by
    rw [callsOf, List.filter_filter]
    refine List.filter_congr fun c _ => ?_
    rw [Bool.decide_and, Bool.and_comm]
  rw [hafter, hboth] at hhistory
  refine ⟨?_, hhistory⟩
  have hrecorded : ((LoopDetector.new.checks config calls).state call.1.runId).recorded config
      call.1.tool call.1.argsHash call.2 =
        ((calls ++ [call]).filter fun c =>
          c.1.runId = call.1.runId ∧ InWindow config call.2 c).map TimedCall.entry := by
    rw [check_eq h, state_set_self, callHistory_runCheck] at hhistory
    exact hhistory
  rw [check_eq h, runCheck_triggered_iff, hrecorded, identicalCount_entries, List.countP_filter]
  simp only [← Bool.decide_and, and_assoc, and_comm, and_left_comm]

end Window

namespace Sample

/-- Two identical calls in two minutes are a loop. -/
def twoInTwoMinutes : LoopDetectionConfig := ⟨true, 120, 2, 3, 5000⟩

/-- A call that is made again. -/
def repeatedRequest : DecisionRequest ℚ where
  schemaVersion := 1
  runId := "run"
  seq := 1
  tool := "read"
  argsHash := "h"
  argsRedacted := none
  agentRole := none
  agentName := none
  model := none
  inputTokens := none
  outputTokens := none
  estimatedCostUsd := none
  environment := none
  ts := ""

/-- The second call, when the first is exactly two minutes old. -/
theorem check_triggers_repeated :
    ((LoopDetector.new.checks twoInTwoMinutes [(repeatedRequest, 0)]).check repeatedRequest
      twoInTwoMinutes 120000000000).1.Triggered := by
  have hsorted : ([(repeatedRequest, 0)] ++ [(repeatedRequest, 120000000000)] :
      List (TimedCall ℚ)).Pairwise fun a b => a.2 ≤ b.2 := by simp
  exact (@check_triggers_iff ℚ _ twoInTwoMinutes rfl _ _ hsorted).1.2 (by decide +kernel)

end Sample

end LoopStorm.Engine
