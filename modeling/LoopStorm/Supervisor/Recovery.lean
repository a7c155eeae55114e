import LoopStorm.Engine.TelemetryHistory
import LoopStorm.Lib.Window
import LoopStorm.Supervisor.RiskScore

/-!
# Recovery after an intervention

The analysers of the supervisor on what the engine records of a run: a
`loop_detected` event between two calls, the second a repetition of the first.

* `Interrupted` — the events of such a run.
* `Unrecovered` — none of the three analysers takes the repetition for a
  recovery.
* `unrecovered_iff` — **they see the repetition exactly when it leaves the window
  of the fingerprint as it was.**
* `windowText_again_iff` — which takes five calls before it, all of them the same.
-/

namespace LoopStorm.Supervisor

open LoopStorm.Engine (Sha256 sha256Hex windowSize windowText fingerprintOf TelemetryCall
  TelemetryState)

variable {F : Type} [Float64 F]

/-- What a decision event tells of its call. -/
def EventInfo.told (e : EventInfo F) : Option String × Option String × Option String :=
  (e.tool, e.argsHash, e.callSeqFingerprint)

/-- What the engine writes of some calls, starting from a state of the run. -/
def toldOf [Sha256] (s : TelemetryState) (calls : List (TelemetryCall F)) :
    List (Option String × Option String × Option String) :=
  List.zipWith
    (fun call fields => (some call.tool, some call.argsHash, some fields.callSeqFingerprint))
    calls (s.computeAll calls)

/-- The events of a run with a `loop_detected` event between two of its calls. -/
structure Interrupted [Sha256] (earlier : List (TelemetryCall F)) (last next : TelemetryCall F)
    (later : List (TelemetryCall F)) (events : List (EventInfo F)) (loopEvent : EventInfo F) :
    Prop where
  isLoop : loopEvent.isLoop = true
  /-- The decisions before it are those of the calls before it, the decisions
  after it those of the calls after it. -/
  split : ∃ pre post, events = pre ++ loopEvent :: post ∧
    (∀ e ∈ pre, e.isDecision = true → e.seq < loopEvent.seq) ∧
    (∀ e ∈ post, e.isDecision = true → loopEvent.seq < e.seq) ∧
    (pre.filter (·.isDecision)).map EventInfo.told =
      toldOf TelemetryState.new (earlier ++ [last]) ∧
    (post.filter (·.isDecision)).map EventInfo.told =
      toldOf (TelemetryState.new.after (earlier ++ [last])) (next :: later)
  /-- Only decisions have a fingerprint. -/
  fingerprints : ∀ e ∈ events, e.callSeqFingerprint.isSome = true → e.isDecision = true

/-- No analyser takes the behavior after the event for a recovery. -/
def Unrecovered [NumberFormat F] (run : RunInfo F) (baseline : Option (BaselineInfo F))
    (events : List (EventInfo F)) (loopSeq : Nat) : Prop :=
  (∀ p ∈ (analyzeLoopPattern events).patterns, p.loopSeq = loopSeq → p.recovered = false) ∧
    (evaluateRecoveryEffectiveness events loopSeq).verdict ≠ .effective ∧
    ∃ s ∈ (computeRiskScore run events baseline).signals, s.name = "loop_unrecovered"

/-- The digest of the window some calls leave. -/
def windowDigest [Sha256] (calls : List (TelemetryCall F)) : String :=
  sha256Hex (windowText (calls.map TelemetryCall.pair))

/-! ## What is recorded -/

theorem toldOf_concat [Sha256] (s : TelemetryState) (earlier : List (TelemetryCall F))
    (last : TelemetryCall F) :
    toldOf s (earlier ++ [last]) = toldOf s earlier ++
      [(some last.tool, some last.argsHash,
        some ((s.after earlier).computeCall last).1.callSeqFingerprint)] := by
  induction earlier generalizing s with
  | nil => rfl
  | cons call earlier ih =>
    exact congrArg (List.cons _) (ih (s.computeCall call).2)

omit [Float64 F] in
/-- A fingerprint at the end is the last one. -/
theorem lastFingerprint_concat {es : List (EventInfo F)} {e : EventInfo F} {fp : String}
    (h : e.callSeqFingerprint = some fp) : lastFingerprint (es ++ [e]) = some fp := by
  have hsome : e.callSeqFingerprint.isSome = true := by rw [h]; rfl
  rw [lastFingerprint, List.filter_append, List.filter_singleton, hsome, cond_true,
    List.getLast?_concat]
  exact h

omit [Float64 F] in
/-- A fingerprint in front is the first one. -/
theorem firstFingerprint_cons {es : List (EventInfo F)} {e : EventInfo F} {fp : String}
    (h : e.callSeqFingerprint = some fp) : firstFingerprint (e :: es) = some fp := by
  have hsome : e.callSeqFingerprint.isSome = true := by rw [h]; rfl
  rw [firstFingerprint, List.filter_cons, if_pos hsome]
  exact h

omit [Float64 F] in
theorem EventInfo.not_isDecision {e : EventInfo F} (h : e.isLoop = true) :
    e.isDecision = false := by
  rw [EventInfo.isLoop, beq_iff_eq] at h
  rw [EventInfo.isDecision, h]
  decide

/-- What the analysers find on either side of the event. -/
structure Sides (events : List (EventInfo F)) (seq : Nat) (preFp postFp : String) : Prop where
  before : ∃ es e, decisionsBefore events seq = es ++ [e] ∧ e.tool.isSome = true ∧
    e.callSeqFingerprint = some preFp
  after : ∃ e es, decisionsAfter events seq = e :: es ∧ e.callSeqFingerprint = some postFp

/-- They find the fingerprints of the two calls. -/
theorem Interrupted.sides [Sha256] {earlier later : List (TelemetryCall F)}
    {last next : TelemetryCall F} {events : List (EventInfo F)} {loopEvent : EventInfo F}
    (h : Interrupted earlier last next later events loopEvent) :
    Sides events loopEvent.seq (fingerprintOf earlier last)
      (fingerprintOf (earlier ++ [last]) next) := by
  obtain ⟨pre, post, rfl, hpre, hpost, htold, htold'⟩ := h.split
  have hnot := loopEvent.not_isDecision h.isLoop
  have hbefore : decisionsBefore (pre ++ loopEvent :: post) loopEvent.seq =
      pre.filter (·.isDecision) := by
    have hleft : pre.filter (fun e => decide (e.seq < loopEvent.seq) && e.isDecision) =
        pre.filter (·.isDecision) := by
      refine List.filter_congr fun e he => ?_
      cases hd : e.isDecision with
      | false => rw [Bool.and_false]
      | true => rw [Bool.and_true, decide_eq_true (hpre e he hd)]
    have hright : (loopEvent :: post).filter
        (fun e => decide (e.seq < loopEvent.seq) && e.isDecision) = [] := by
      rw [List.filter_eq_nil_iff]
      intro e he hboth
      obtain ⟨hlt, hd⟩ := Bool.and_eq_true_iff.1 hboth
      rcases List.mem_cons.1 he with rfl | he
      · rw [hnot] at hd
        cases hd
      · exact absurd (of_decide_eq_true hlt) (Nat.lt_asymm (hpost e he hd))
    rw [decisionsBefore, List.filter_append, hleft, hright, List.append_nil]
  have hafter : decisionsAfter (pre ++ loopEvent :: post) loopEvent.seq =
      post.filter (·.isDecision) := by
    have hleft : pre.filter (fun e => decide (loopEvent.seq < e.seq) && e.isDecision) = [] := by
      rw [List.filter_eq_nil_iff]
      intro e he hboth
      obtain ⟨hlt, hd⟩ := Bool.and_eq_true_iff.1 hboth
      exact absurd (of_decide_eq_true hlt) (Nat.lt_asymm (hpre e he hd))
    have hright : post.filter (fun e => decide (loopEvent.seq < e.seq) && e.isDecision) =
        post.filter (·.isDecision) := by
      refine List.filter_congr fun e he => ?_
      cases hd : e.isDecision with
      | false => rw [Bool.and_false]
      | true => rw [Bool.and_true, decide_eq_true (hpost e he hd)]
    rw [decisionsAfter, List.filter_append, hleft, List.nil_append, List.filter_cons, hnot,
      Bool.and_false, if_neg (by decide), hright]
  constructor
  · rw [toldOf_concat] at htold
    obtain ⟨es, ls, hsplit, -, hlast⟩ := List.map_eq_append_iff.1 htold
    obtain ⟨e, rfl, he⟩ := List.map_eq_singleton_iff.1 hlast
    simp only [EventInfo.told, Prod.mk.injEq] at he
    refine ⟨es, e, by rw [hbefore, hsplit], by rw [he.1]; rfl, ?_⟩
    rw [he.2.2]
    exact congrArg some
      (LoopStorm.Engine.callSeqFingerprint_computeCall (LoopStorm.Engine.holds_after earlier) last)
  · obtain ⟨e, es, hsplit, he, -⟩ := List.map_eq_cons_iff.1 htold'
    simp only [EventInfo.told, Prod.mk.injEq] at he
    refine ⟨e, es, by rw [hafter, hsplit], ?_⟩
    rw [he.2.2]
    exact congrArg some
      (LoopStorm.Engine.callSeqFingerprint_computeCall
        (LoopStorm.Engine.holds_after (earlier ++ [last])) next)

/-! ## What the analysers say -/

omit [Float64 F] in
/-- The loop is reported as recovered when the two fingerprints differ. -/
theorem Sides.recovered_iff {events : List (EventInfo F)} {seq : Nat} {preFp postFp : String}
    (h : Sides events seq preFp postFp) {loopEvent : EventInfo F} (hseq : loopEvent.seq = seq) :
    (loopPattern events loopEvent).recovered = true ↔ preFp ≠ postFp := by
  subst hseq
  obtain ⟨⟨es, e, hbefore, htool, hpre⟩, e', es', hafter, hpost⟩ := h
  have hlast : lastFingerprint ((decisionsBefore events loopEvent.seq).filter (·.tool.isSome)) =
      some preFp := by
    rw [hbefore, List.filter_append, List.filter_singleton, htool, cond_true]
    exact lastFingerprint_concat hpre
  rw [recovered_loopPattern_iff, hlast, hafter]
  simp [hpost]

omit [Float64 F] in
/-- The intervention is reported as effective when they do. -/
theorem Sides.effective_iff {events : List (EventInfo F)} {seq : Nat} {preFp postFp : String}
    (h : Sides events seq preFp postFp) :
    (evaluateRecoveryEffectiveness events seq).verdict = .effective ↔ preFp ≠ postFp := by
  obtain ⟨⟨es, e, hbefore, -, hpre⟩, e', es', hafter, hpost⟩ := h
  have hlast : lastFingerprint ((decisionsBefore events seq).rtake 5) = some preFp := by
    rw [hbefore, List.rtake_concat_succ]
    exact lastFingerprint_concat hpre
  have hfirst : firstFingerprint ((decisionsAfter events seq).take 5) = some postFp := by
    rw [hafter, List.take_succ_cons]
    exact firstFingerprint_cons hpost
  rw [LoopStorm.Supervisor.effective_iff, hlast, hfirst]
  simp

omit [Float64 F] in
/-- S5 looks at the events of any type, but only decisions have a fingerprint. -/
theorem lastFingerprint_before {events : List (EventInfo F)}
    (h : ∀ e ∈ events, e.callSeqFingerprint.isSome = true → e.isDecision = true) (seq : Nat) :
    lastFingerprint (events.filter (fun e => decide (e.seq < seq))) =
      lastFingerprint (decisionsBefore events seq) := by
  have hsame : (events.filter (fun e => decide (e.seq < seq))).filter
      (·.callSeqFingerprint.isSome) =
        (decisionsBefore events seq).filter (·.callSeqFingerprint.isSome) := by
    rw [decisionsBefore, List.filter_filter, List.filter_filter]
    refine List.filter_congr fun e he => ?_
    cases hfp : e.callSeqFingerprint.isSome with
    | false => rw [Bool.false_and, Bool.false_and]
    | true => rw [h e he hfp, Bool.and_true]
  rw [lastFingerprint, lastFingerprint, hsame]

omit [Float64 F] in
/-- And counts the loop when they are the same. -/
theorem Sides.loopUnrecovered {events : List (EventInfo F)} {loopEvent : EventInfo F}
    {fp : String} (h : Sides events loopEvent.seq fp fp)
    (honly : ∀ e ∈ events, e.callSeqFingerprint.isSome = true → e.isDecision = true) :
    loopUnrecovered events loopEvent = true := by
  obtain ⟨⟨es, e, hbefore, -, hpre⟩, e', es', hafter, hpost⟩ := h
  refine (loopUnrecovered_iff events loopEvent).2 ⟨fp, ?_, ?_⟩
  · rw [lastFingerprint_before honly, hbefore]
    exact lastFingerprint_concat hpre
  · rw [hafter]
    exact hpost

/-- The analysers see that nothing changed when the two fingerprints are one. -/
theorem Interrupted.unrecovered_iff_eq [Sha256] [NumberFormat F]
    {earlier later : List (TelemetryCall F)} {last next : TelemetryCall F}
    {events : List (EventInfo F)} {loopEvent : EventInfo F}
    (h : Interrupted earlier last next later events loopEvent) (run : RunInfo F)
    (baseline : Option (BaselineInfo F)) :
    Unrecovered run baseline events loopEvent.seq ↔
      fingerprintOf earlier last = fingerprintOf (earlier ++ [last]) next := by
  have hsides := h.sides
  have hmem : loopEvent ∈ events := by
    obtain ⟨pre, post, rfl, -⟩ := h.split
    exact List.mem_append_right _ (List.mem_cons_self ..)
  constructor
  · rintro ⟨hpattern, -, -⟩
    have hnot := hpattern (loopPattern events loopEvent)
      (mem_patterns.2 ⟨loopEvent, hmem, h.isLoop, rfl⟩) rfl
    by_contra hne
    rw [(hsides.recovered_iff rfl).2 hne] at hnot
    cases hnot
  · intro heq
    refine ⟨?_, ?_, ?_⟩
    · intro p hp hseq
      obtain ⟨e, -, -, rfl⟩ := mem_patterns.1 hp
      by_contra hrec
      exact (hsides.recovered_iff hseq).1 (Bool.not_eq_false _ ▸ hrec) heq
    · intro heff
      exact hsides.effective_iff.1 heff heq
    · rw [heq] at hsides
      exact (loop_unrecovered_iff run events baseline).2
        ⟨loopEvent, hmem, h.isLoop, hsides.loopUnrecovered h.fingerprints⟩

/-- **A repetition is seen as one exactly when it leaves the window's digest as
it was.** -/
theorem unrecovered_iff [Sha256] [NumberFormat F] {earlier later : List (TelemetryCall F)}
    {last next : TelemetryCall F} {events : List (EventInfo F)} {loopEvent : EventInfo F}
    (h : Interrupted earlier last next later events loopEvent) (hsame : next.pair = last.pair)
    (run : RunInfo F) (baseline : Option (BaselineInfo F)) :
    Unrecovered run baseline events loopEvent.seq ↔
      windowDigest (earlier ++ [last]) = windowDigest (earlier ++ [last, last]) := by
  have hnext : fingerprintOf (earlier ++ [last]) next = windowDigest (earlier ++ [last, last]) := by
    rw [fingerprintOf, windowDigest]
    simp only [List.map_append, List.map_cons, List.map_nil, hsame, List.append_assoc,
      List.cons_append, List.nil_append]
  rw [h.unrecovered_iff_eq run baseline, hnext]
  rfl

/-! ## When a repetition leaves the window as it was -/

/-- An entry of the window, as it is digested. -/
def entryText (call : String × String) : String := call.1 ++ ":" ++ call.2

/-- Lines without a newline are read back from their text. -/
theorem intercalate_newline_injective {ls ms : List String} (hls : ∀ l ∈ ls, '\n' ∉ l.toList)
    (hms : ∀ m ∈ ms, '\n' ∉ m.toList) (hl : ls ≠ []) (hm : ms ≠ [])
    (h : "\n".intercalate ls = "\n".intercalate ms) : ls = ms := by
  have htext : (['\n'].intercalate (ls.map String.toList)) =
      ['\n'].intercalate (ms.map String.toList) := by
    have := congrArg String.toList h
    simpa [String.toList_intercalate] using this
  have hsplit := congrArg (List.splitOn '\n') htext
  rw [List.splitOn_intercalate _ (by simpa using hls) (by simpa using hl),
    List.splitOn_intercalate _ (by simpa using hms) (by simpa using hm)] at hsplit
  exact List.map_injective_iff.2 (fun a b => String.toList_injective) hsplit

theorem windowText_eq (pairs : List (String × String)) :
    windowText pairs = "\n".intercalate ((pairs.map entryText).rtake windowSize) := by
  rw [windowText, List.rtake, List.rtake, List.map_drop, List.length_map]
  rfl

/-- **A repetition leaves the text of the window as it was when there are five
calls before it, all of them that call.**  Tools and hashes have no newline. -/
theorem windowText_again_iff {pairs : List (String × String)} {pair : String × String}
    (hlines : ∀ p ∈ pairs ++ [pair], '\n' ∉ (entryText p).toList) :
    windowText (pairs ++ [pair]) = windowText (pairs ++ [pair, pair]) ↔
      windowSize ≤ (pairs ++ [pair]).length ∧
        ∀ p ∈ (pairs ++ [pair]).rtake windowSize, entryText p = entryText pair := by
  let es := (pairs ++ [pair]).map entryText
  have hagain : (pairs ++ [pair, pair]).map entryText = es ++ [entryText pair] := by
    simp [es]
  have hends : windowText (pairs ++ [pair]) = windowText (pairs ++ [pair, pair]) ↔
      es.rtake windowSize = (es ++ [entryText pair]).rtake windowSize := by
    rw [windowText_eq, windowText_eq, hagain]
    have hes : ∀ l ∈ es ++ [entryText pair], '\n' ∉ l.toList := by
      intro l hl
      rw [← hagain] at hl
      obtain ⟨p, hp, rfl⟩ := List.mem_map.1 hl
      exact hlines p (by simpa using hp)
    refine ⟨intercalate_newline_injective ?_ ?_ ?_ ?_, fun h => congrArg _ h⟩
    · exact fun l hl => hes l (List.mem_append_left _ (List.mem_of_mem_drop hl))
    · exact fun l hl => hes l (List.mem_of_mem_drop hl)
    · simp [List.rtake, windowSize]
    · simp [List.rtake, windowSize]
  rw [hends]
  refine (Window.rtake_concat_eq_iff (n := 4)).trans (and_congr ?_ ?_)
  · rw [List.length_map]
    exact Iff.rfl
  · have hrtake : es.rtake 5 = ((pairs ++ [pair]).rtake windowSize).map entryText := by
      rw [List.rtake, List.rtake, List.map_drop, List.length_map]
      rfl
    rw [hrtake, List.forall_mem_map]

namespace Sample

/-- The digests of a call and of the same call made twice. -/
@[reducible] def digests : Sha256 where
  hex bytes :=
    if bytes = Text.utf8 "read:h" then
      "3b956f958a1878469e82434c81f1447ce3e49774ec75b57c56a53bf1377629f2"
    else "c149596e089a0e512af2db10fbab7d49a27d8d5d17b788ab9672c535e84e4578"

scoped instance : NumberFormat ℚ := ⟨fun _ _ => "0", fun _ => "0"⟩

/-- A call. -/
def readCall : TelemetryCall ℚ := { tool := "read", argsHash := "h" }

/-- Its decision, with the fingerprint of some window. -/
def readDecision (seq : Nat) (fp : String) : EventInfo ℚ :=
  { seq, eventType := "policy_decision", decision := some "allow", tool := some "read",
    argsHash := some "h", callSeqFingerprint := some fp }

/-- The loop that was detected. -/
def loopAt (seq : Nat) : EventInfo ℚ := { seq, eventType := "loop_detected" }

/-- The call, the intervention, the call again. -/
def readTwice : List (EventInfo ℚ) :=
  [readDecision 1 (digests.hex (Text.utf8 "read:h")), loopAt 2,
    readDecision 3 (digests.hex (Text.utf8 "read:h\nread:h"))]

theorem interrupted_readTwice :
    @Interrupted ℚ _ digests [] readCall readCall [] readTwice (loopAt 2) := by
  refine @Interrupted.mk ℚ _ digests _ _ _ _ _ _ rfl ?_ (by decide)
  refine ⟨[readDecision 1 _], [readDecision 3 _], rfl, by decide, by decide, ?_, ?_⟩
  · rfl
  · rfl

/-- The run all of whose calls are the same. -/
theorem unrecovered_iff_readTwice :
    Unrecovered ⟨"r", "running", 0⟩ none readTwice 2 ↔
      @windowDigest ℚ _ digests [readCall] = @windowDigest ℚ _ digests [readCall, readCall] :=
  @unrecovered_iff ℚ _ digests _ [] [] readCall readCall readTwice (loopAt 2)
    interrupted_readTwice rfl ⟨"r", "running", 0⟩ none

/-- Its second call is taken for a recovery. -/
theorem readTwice_recovered :
    ¬ ∀ (earlier later : List (TelemetryCall ℚ)) (last next : TelemetryCall ℚ)
        (events : List (EventInfo ℚ)) (loopEvent : EventInfo ℚ),
        @Interrupted ℚ _ digests earlier last next later events loopEvent →
        next.pair = last.pair →
        Unrecovered ⟨"r", "running", 0⟩ none events loopEvent.seq := by
  intro h
  obtain ⟨-, hverdict, -⟩ := h [] [] readCall readCall readTwice (loopAt 2)
    interrupted_readTwice rfl
  exact hverdict (by decide +kernel)

end Sample

end LoopStorm.Supervisor
