import LoopStorm.Lib.Float64
import Mathlib.Data.List.DropRight

/-!
# Loop patterns and recovery

The two functions with which the supervisor judges an intervention:
`apps/supervisor/src/lib/loop-analysis.ts` and `recovery-eval.ts`.  Both compare
the `call_seq_fingerprint` of a decision before it with one after it.

* `EventInfo` — what the analysers read of an event of a run.
* `analyzeLoopPattern` — one pattern for each `loop_detected` event.
* `evaluateRecoveryEffectiveness` — a verdict on the event at a given `seq`.
* `recovered_loopPattern_iff`, `effective_iff` — both come down to two
  fingerprints being there and not the same.
-/

namespace LoopStorm.Supervisor

/-- `budget` of an event: its `cost_usd.hard`. -/
structure BudgetInfo (F : Type) where
  costUsdHard : Option F

/-- The fields of an event the analysers read: `LoopEventInfo`,
`RecoveryEventInfo` and `EventInfo`. -/
structure EventInfo (F : Type) where
  seq : Nat
  eventType : String
  decision : Option String := none
  tool : Option String := none
  argsHash : Option String := none
  callSeqFingerprint : Option String := none
  interCallMs : Option F := none
  tokenRateDelta : Option F := none
  paramShapeHash : Option String := none
  budget : Option (BudgetInfo F) := none

variable {F : Type}

/-- `event_type === "policy_decision"` -/
def EventInfo.isDecision (e : EventInfo F) : Bool := e.eventType == "policy_decision"

/-- `event_type === "loop_detected"` -/
def EventInfo.isLoop (e : EventInfo F) : Bool := e.eventType == "loop_detected"

/-- The decisions before an event. -/
def decisionsBefore (events : List (EventInfo F)) (seq : Nat) : List (EventInfo F) :=
  events.filter (fun e => decide (e.seq < seq) && e.isDecision)

/-- The decisions after an event. -/
def decisionsAfter (events : List (EventInfo F)) (seq : Nat) : List (EventInfo F) :=
  events.filter (fun e => decide (seq < e.seq) && e.isDecision)

/-- The last fingerprint there is among some events. -/
def lastFingerprint (events : List (EventInfo F)) : Option String :=
  (events.filter (·.callSeqFingerprint.isSome)).getLast?.bind (·.callSeqFingerprint)

/-- The first fingerprint there is among some events. -/
def firstFingerprint (events : List (EventInfo F)) : Option String :=
  (events.filter (·.callSeqFingerprint.isSome)).head?.bind (·.callSeqFingerprint)

/-! ## `loop-analysis.ts` -/

structure LoopPattern where
  /-- Sequence number of the `loop_detected` event. -/
  loopSeq : Nat
  /-- The repeating tool sequence detected. -/
  repeatedTools : List String
  /-- Whether behavior changed after the cooldown. -/
  recovered : Bool
  description : String
deriving DecidableEq

structure LoopAnalysisResult where
  loopCount : Nat
  patterns : List LoopPattern
  narrative : String

/-- Did `call_seq_fingerprint` change after cooldown?  Not when either is absent. -/
def behaviorChanged (preLoopDecisions postLoopDecisions : List (EventInfo F)) : Bool :=
  match postLoopDecisions with
  | [] => false
  | first :: _ =>
    match lastFingerprint preLoopDecisions, first.callSeqFingerprint with
    | some preFp, some postFp => preFp != postFp
    | _, _ => false

/-- The pattern of one `loop_detected` event. -/
def loopPattern (events : List (EventInfo F)) (loopEvent : EventInfo F) : LoopPattern :=
  let preLoopDecisions := (decisionsBefore events loopEvent.seq).filter (·.tool.isSome)
  let recentTools := (preLoopDecisions.rtake 6).filterMap (·.tool)
  let recovered := behaviorChanged preLoopDecisions (decisionsAfter events loopEvent.seq)
  let tools := ", ".intercalate recentTools
  { loopSeq := loopEvent.seq
    repeatedTools := recentTools
    recovered
    description :=
      if recovered then
        s!"Loop at seq {loopEvent.seq}: tools [{tools}] — behavior changed after cooldown"
      else
        s!"Loop at seq {loopEvent.seq}: tools [{tools}] — behavior did NOT change after cooldown" }

/-- Analyze loop patterns in a run's events. -/
def analyzeLoopPattern (events : List (EventInfo F)) : LoopAnalysisResult :=
  match events.filter (·.isLoop) with
  | [] => ⟨0, [], "No loop detections found in this run."⟩
  | loopEvents@(_ :: _) =>
    let patterns := loopEvents.map (loopPattern events)
    let unrecoveredCount := patterns.countP (fun p => !p.recovered)
    let narrative :=
      if 0 < unrecoveredCount then
        (s!"{loopEvents.length} loop detection(s) found. {unrecoveredCount} loop(s) did not " ++
          "recover after cooldown. This indicates cooldown may be ineffective.")
      else s!"{loopEvents.length} loop detection(s) found. All loops recovered after cooldown."
    ⟨loopEvents.length, patterns, narrative⟩

theorem mem_patterns {events : List (EventInfo F)} {p : LoopPattern} :
    p ∈ (analyzeLoopPattern events).patterns ↔
      ∃ e ∈ events, e.isLoop = true ∧ loopPattern events e = p := by
  unfold analyzeLoopPattern
  split
  · rename_i hnil
    rw [List.filter_eq_nil_iff] at hnil
    constructor
    · intro h
      cases h
    · rintro ⟨e, he, hloop, -⟩
      exact absurd hloop (hnil e he)
  · rename_i hcons
    rw [← hcons]
    simp only [List.mem_map, List.mem_filter, and_assoc]

/-- A pattern depends on the `seq` of its event only. -/
theorem loopPattern_congr (events : List (EventInfo F)) {e e' : EventInfo F}
    (h : e.seq = e'.seq) : loopPattern events e = loopPattern events e' := by
  unfold loopPattern
  rw [h]

/-- A loop is reported as recovered when a fingerprint before it differs from
that of the first decision after it. -/
theorem recovered_loopPattern_iff (events : List (EventInfo F)) (loopEvent : EventInfo F) :
    (loopPattern events loopEvent).recovered = true ↔
      ∃ preFp postFp,
        lastFingerprint ((decisionsBefore events loopEvent.seq).filter (·.tool.isSome)) =
          some preFp ∧
        (decisionsAfter events loopEvent.seq).head?.bind (·.callSeqFingerprint) = some postFp ∧
        preFp ≠ postFp := by
  change behaviorChanged _ _ = true ↔ _
  generalize (decisionsBefore events loopEvent.seq).filter (·.tool.isSome) = pre
  cases decisionsAfter events loopEvent.seq with
  | nil => simp [behaviorChanged]
  | cons first rest =>
    cases hpre : lastFingerprint pre with
    | none => simp [behaviorChanged, hpre]
    | some preFp =>
      cases hfp : first.callSeqFingerprint with
      | none => simp [behaviorChanged, hpre, hfp]
      | some postFp => simp [behaviorChanged, hpre, hfp]

/-! ## `recovery-eval.ts` -/

inductive RecoveryVerdict where
  | effective
  | ineffective
  | partially
  | insufficientData
deriving DecidableEq

structure RecoveryResult where
  interventionSeq : Nat
  verdict : RecoveryVerdict
  explanation : String
  /-- Fingerprint before intervention. -/
  preFingerprint : Option String
  /-- Fingerprint after intervention. -/
  postFingerprint : Option String

/-- `new Set(events.map((e) => e.tool).filter(Boolean))` -/
def toolSet (events : List (EventInfo F)) : List String :=
  ((events.filterMap (·.tool)).filter (· != "")).eraseDups

/-- `events.map((e) => e.tool).join(",")` -/
def joinedTools (events : List (EventInfo F)) : String :=
  ",".intercalate (events.map (fun e => e.tool.getD ""))

/-- Evaluate recovery effectiveness at a specific intervention point. -/
def evaluateRecoveryEffectiveness (events : List (EventInfo F)) (interventionSeq : Nat) :
    RecoveryResult :=
  let preEvents := (decisionsBefore events interventionSeq).rtake 5
  let postEvents := (decisionsAfter events interventionSeq).take 5
  let result (verdict : RecoveryVerdict) (explanation : String) (fps : Option (String × String)) :
      RecoveryResult :=
    ⟨interventionSeq, verdict, explanation, fps.map (·.1), fps.map (·.2)⟩
  if preEvents = [] ∨ postEvents = [] then
    result .insufficientData
      (s!"Insufficient events around intervention at seq {interventionSeq} " ++
        s!"({preEvents.length} before, {postEvents.length} after).") none
  else
    match lastFingerprint preEvents, firstFingerprint postEvents with
    | some preFp, some postFp =>
      if preFp ≠ postFp then
        result .effective
          (s!"Intervention at seq {interventionSeq} changed behavior: fingerprint changed from " ++
            s!"{preFp.take 16}... to {postFp.take 16}...") (some (preFp, postFp))
      else
        let preTools := toolSet preEvents
        let postTools := toolSet postEvents
        let toolsChanged :=
          !preTools.all (postTools.contains ·) || !postTools.all (preTools.contains ·)
        if toolsChanged then
          result .partially
            (s!"Intervention at seq {interventionSeq}: fingerprint unchanged but tool set " ++
              "differs (partial behavior change).") (some (preFp, postFp))
        else
          result .ineffective
            (s!"Intervention at seq {interventionSeq} had no effect: fingerprint and tools " ++
              "unchanged.") (some (preFp, postFp))
    | _, _ =>
      if joinedTools preEvents ≠ joinedTools postEvents then
        result .partially
          (s!"Intervention at seq {interventionSeq}: tool sequence changed (BT fields absent " ++
            "for precise measurement).") none
      else
        result .ineffective
          (s!"Intervention at seq {interventionSeq}: tool sequence unchanged (BT fields absent " ++
            "for precise measurement).") none

/-- An intervention is reported as effective when the last fingerprint of the
five decisions before it differs from the first of the five after it. -/
theorem effective_iff (events : List (EventInfo F)) (interventionSeq : Nat) :
    (evaluateRecoveryEffectiveness events interventionSeq).verdict = .effective ↔
      ∃ preFp postFp,
        lastFingerprint ((decisionsBefore events interventionSeq).rtake 5) = some preFp ∧
        firstFingerprint ((decisionsAfter events interventionSeq).take 5) = some postFp ∧
        preFp ≠ postFp := by
  unfold evaluateRecoveryEffectiveness
  simp only
  split
  · rename_i hnil
    rcases hnil with hnil | hnil
    · simp [hnil, lastFingerprint]
    · simp [hnil, firstFingerprint]
  · split
    · rename_i preFp postFp hpre hpost
      by_cases heq : preFp = postFp
      · subst heq
        simp only [ne_eq, not_true_eq_false, if_false, hpre, hpost, Option.some.injEq]
        split <;> simp
      · simp [hpre, hpost, heq]
    · rename_i hnone
      constructor
      · intro h
        split at h <;> simp at h
      · rintro ⟨preFp, postFp, hpre, hpost, -⟩
        exact absurd hpost (hnone preFp postFp hpre)

end LoopStorm.Supervisor
