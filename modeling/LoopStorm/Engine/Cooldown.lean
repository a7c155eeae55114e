import LoopStorm.Engine.LoopWindow
import LoopStorm.Lib.Run

/-!
# One warning before termination

Both heuristics of the loop detector share the flags of the warnings that have
been sent, and the flags are keyed by a fingerprint: the tool and the hash of the
arguments with a colon between them.

* `LoopOp`, `LoopDetector.after` — the operations, in any order, for any runs.
* `TriggeredSince` — a pair has triggered since the last reset of a run.
* `alreadyWarned_iff` — the flag of a fingerprint is set when some pair with that
  fingerprint has triggered.
* `OneWarning` — the first trigger of a pair is a warning, every later one ends
  the run.
* `oneWarning_iff` — **so it is, exactly as long as no two pairs with one
  fingerprint trigger.**
-/

namespace LoopStorm.Engine

section Operations

variable {F : Type} [Float64 F]

/-- The operations of the loop detector. -/
inductive LoopOp (F : Type) [Float64 F] where
  | check (request : DecisionRequest F) (config : LoopDetectionConfig) (now : Nat)
  | recordError (runId tool argsHash : String) (config : LoopDetectionConfig)
  | recordSuccess (runId tool argsHash : String)
  | reset (runId : String)

/-- The detector after an operation, and the answer of the operation, if it has
one. -/
def LoopDetector.apply (d : LoopDetector) : LoopOp F → LoopDetector × Option LoopStatus
  | .check request config now =>
    let (status, d) := d.check request config now
    (d, some status)
  | .recordError runId tool argsHash config =>
    let (status, d) := d.recordError runId tool argsHash config
    (d, some status)
  | .recordSuccess runId tool argsHash => (d.recordSuccess runId tool argsHash, none)
  | .reset runId => (d.reset runId, none)

/-- The detector after a sequence of operations on a new one. -/
def LoopDetector.after (ops : List (LoopOp F)) : LoopDetector :=
  Run.stateAfter LoopDetector.apply .new ops

/-- The answer to one more operation. -/
def LoopDetector.answer (ops : List (LoopOp F)) (op : LoopOp F) : Option LoopStatus :=
  Run.answer LoopDetector.apply .new ops op

namespace LoopOp

/-- The run an operation is for. -/
def runId : LoopOp F → String
  | .check request _ _ => request.runId
  | .recordError runId _ _ _ => runId
  | .recordSuccess runId _ _ => runId
  | .reset runId => runId

/-- The tool and the hash an operation is for. -/
def pair : LoopOp F → Option (String × String)
  | .check request _ _ => some (request.tool, request.argsHash)
  | .recordError _ tool argsHash _ => some (tool, argsHash)
  | .recordSuccess _ tool argsHash => some (tool, argsHash)
  | .reset _ => none

/-- The operation reaches the threshold of its heuristic. -/
def triggers (d : LoopDetector) : LoopOp F → Bool
  | .check request config now =>
    config.enabled && decide (config.identicalCallThreshold.toNat ≤
      identicalCount request.tool request.argsHash
        ((d.state request.runId).recorded config request.tool request.argsHash now))
  | .recordError runId tool argsHash config =>
    config.enabled && decide (config.identicalErrorThreshold ≤
      ((d.state runId).errorStreaks (fingerprint tool argsHash)).getD 0 + 1)
  | .recordSuccess .. => false
  | .reset _ => false

end LoopOp

/-- The fingerprint of a pair. -/
abbrev pairFingerprint (p : String × String) : String := fingerprint p.1 p.2

/-- After the operations, the pair has triggered in the run since its last
reset. -/
inductive TriggeredSince (runId : String) (p : String × String) : List (LoopOp F) → Prop
  | now {ops : List (LoopOp F)} {op : LoopOp F} (run : op.runId = runId) (pair : op.pair = some p)
    (triggers : op.triggers (LoopDetector.after ops) = true) :
    TriggeredSince runId p (ops ++ [op])
  | earlier {ops : List (LoopOp F)} {op : LoopOp F} (before : TriggeredSince runId p ops)
    (reset : op ≠ .reset runId) : TriggeredSince runId p (ops ++ [op])

/-- Every trigger of a pair is answered by whether that pair has triggered since
the last reset of its run: with a warning the first time, and after that with the
end of the run. -/
def OneWarning (ops : List (LoopOp F)) : Prop :=
  ∀ pre op post p, ops = pre ++ op :: post → op.pair = some p →
    op.triggers (LoopDetector.after pre) = true →
      ((∃ reason, LoopDetector.answer pre op = some (.cooldownWarning reason)) ↔
        ¬ TriggeredSince op.runId p pre) ∧
      ((∃ reason, LoopDetector.answer pre op = some (.loopDetected reason)) ↔
        TriggeredSince op.runId p pre)

/-- No pair triggers after another pair with its fingerprint has, unless the run
has been reset between them. -/
def NoClash (ops : List (LoopOp F)) : Prop :=
  ∀ pre op post p q, ops = pre ++ op :: post → op.pair = some p →
    op.triggers (LoopDetector.after pre) = true → TriggeredSince op.runId q pre →
      pairFingerprint q = pairFingerprint p → q = p

/-! ## What an operation does to the flags -/

theorem alreadyWarned_trigger (s : RunLoopState) (fp kill warn fp' : String) :
    (s.trigger fp kill warn).2.alreadyWarned fp' = true ↔
      s.alreadyWarned fp' = true ∨ fp' = fp := by
  unfold RunLoopState.trigger
  by_cases hwarned : s.alreadyWarned fp = true
  · rw [if_pos hwarned]
    constructor
    · exact Or.inl
    · rintro (h | rfl)
      · exact h
      · exact hwarned
  · rw [if_neg hwarned]
    by_cases hfp : fp' = fp
    · subst hfp
      simp [RunLoopState.alreadyWarned]
    · simp [RunLoopState.alreadyWarned, hfp]

/-- The answer to a trigger is decided by the flag of the fingerprint. -/
theorem answer_trigger (s : RunLoopState) (fp kill warn : String) :
    ((∃ reason, (s.trigger fp kill warn).1 = .cooldownWarning reason) ↔
        ¬ s.alreadyWarned fp = true) ∧
      ((∃ reason, (s.trigger fp kill warn).1 = .loopDetected reason) ↔
        s.alreadyWarned fp = true) := by
  unfold RunLoopState.trigger
  by_cases hwarned : s.alreadyWarned fp = true
  · simp [hwarned]
  · simp [hwarned]

section Run

variable {s : RunLoopState} {config : LoopDetectionConfig} {tool argsHash : String}

/-- A check that reaches the threshold is a trigger. -/
theorem runCheck_of_le {now : Nat} (h : config.identicalCallThreshold.toNat ≤
    identicalCount tool argsHash (s.recorded config tool argsHash now)) :
    ∃ s' kill warn, s'.cooldownSent = s.cooldownSent ∧
      s.check config tool argsHash now =
        RunLoopState.trigger s' (fingerprint tool argsHash) kill warn := by
  unfold RunLoopState.check
  dsimp only
  rw [if_pos h]
  exact ⟨{ s with callHistory := s.recorded config tool argsHash now }, _, _, rfl, rfl⟩

theorem cooldownSent_runCheck {now : Nat} (h : ¬ config.identicalCallThreshold.toNat ≤
    identicalCount tool argsHash (s.recorded config tool argsHash now)) :
    (s.check config tool argsHash now).2.cooldownSent = s.cooldownSent := by
  unfold RunLoopState.check
  dsimp only
  rw [if_neg h]

/-- An error that reaches the threshold is a trigger. -/
theorem runRecordError_of_le (h : config.identicalErrorThreshold ≤
    (s.errorStreaks (fingerprint tool argsHash)).getD 0 + 1) :
    ∃ s' kill warn, s'.cooldownSent = s.cooldownSent ∧
      s.recordError config tool argsHash =
        RunLoopState.trigger s' (fingerprint tool argsHash) kill warn := by
  unfold RunLoopState.recordError
  dsimp only
  rw [if_pos h]
  let streaks := Function.update s.errorStreaks (fingerprint tool argsHash)
    (some ((s.errorStreaks (fingerprint tool argsHash)).getD 0 + 1))
  exact ⟨{ s with errorStreaks := streaks }, _, _, rfl, rfl⟩

theorem cooldownSent_runRecordError (h : ¬ config.identicalErrorThreshold ≤
    (s.errorStreaks (fingerprint tool argsHash)).getD 0 + 1) :
    (s.recordError config tool argsHash).2.cooldownSent = s.cooldownSent := by
  unfold RunLoopState.recordError
  dsimp only
  rw [if_neg h]

end Run

variable {d : LoopDetector} {op : LoopOp F}

/-- An operation that reaches its threshold answers by the flag of its pair. -/
theorem apply_of_triggers (h : op.triggers d = true) :
    ∃ p s kill warn, op.pair = some p ∧ s.cooldownSent = (d.state op.runId).cooldownSent ∧
      d.apply op = (d.set op.runId (RunLoopState.trigger s (pairFingerprint p) kill warn).2,
        some (RunLoopState.trigger s (pairFingerprint p) kill warn).1) := by
  cases op with
  | check request config now =>
    rw [LoopOp.triggers, Bool.and_eq_true, decide_eq_true_eq] at h
    obtain ⟨s, kill, warn, hsent, hcheck⟩ := runCheck_of_le h.2
    refine ⟨(request.tool, request.argsHash), s, kill, warn, rfl, hsent, ?_⟩
    show ((d.check request config now).2, some (d.check request config now).1) = _
    rw [check_eq h.1, hcheck]
    rfl
  | recordError runId tool argsHash config =>
    rw [LoopOp.triggers, Bool.and_eq_true, decide_eq_true_eq] at h
    obtain ⟨s, kill, warn, hsent, herror⟩ := runRecordError_of_le h.2
    refine ⟨(tool, argsHash), s, kill, warn, rfl, hsent, ?_⟩
    show ((d.recordError runId tool argsHash config).2,
      some (d.recordError runId tool argsHash config).1) = _
    unfold LoopDetector.recordError
    rw [h.1, herror]
    rfl
  | recordSuccess runId tool argsHash => cases h
  | reset runId => cases h

/-- Other operations leave the flags as they are, except a reset. -/
theorem cooldownSent_apply (h : op.triggers d = false) {runId : String}
    (hreset : op ≠ .reset runId) :
    ((d.apply op).1.state runId).cooldownSent = (d.state runId).cooldownSent := by
  have hset (s : RunLoopState) (r : String) (hs : s.cooldownSent = (d.state r).cooldownSent) :
      ((d.set r s).state runId).cooldownSent = (d.state runId).cooldownSent := by
    by_cases hr : runId = r
    · rw [hr, state_set_self, hs]
    · rw [state_congr (states_set_of_ne hr s)]
  cases op with
  | check request config now =>
    show ((d.check request config now).2.state runId).cooldownSent = _
    by_cases henabled : config.enabled = true
    · rw [LoopOp.triggers, henabled, Bool.true_and, decide_eq_false_iff_not] at h
      rw [check_eq henabled]
      exact hset _ _ (cooldownSent_runCheck h)
    · unfold LoopDetector.check
      rw [Bool.eq_false_of_not_eq_true henabled]
      rfl
  | recordError r tool argsHash config =>
    show ((d.recordError r tool argsHash config).2.state runId).cooldownSent = _
    unfold LoopDetector.recordError
    by_cases henabled : config.enabled = true
    · rw [LoopOp.triggers, henabled, Bool.true_and, decide_eq_false_iff_not] at h
      rw [henabled]
      exact hset _ _ (cooldownSent_runRecordError h)
    · rw [Bool.eq_false_of_not_eq_true henabled]
      rfl
  | recordSuccess r tool argsHash =>
    show ((d.recordSuccess r tool argsHash).state runId).cooldownSent = _
    unfold LoopDetector.recordSuccess
    split
    case h_1 => rfl
    case h_2 s hs =>
      refine hset _ _ ?_
      rw [LoopDetector.state, hs]
      rfl
  | reset r =>
    have hne : runId ≠ r := fun heq => hreset (heq ▸ rfl)
    exact congrArg _ (state_congr (states_reset_of_ne hne))

/-- **What an operation does to a flag.**  It is kept unless the run is reset, and
set by a trigger of a pair with the fingerprint. -/
theorem alreadyWarned_apply {runId fp : String} :
    ((d.apply op).1.state runId).alreadyWarned fp = true ↔
      (op ≠ .reset runId ∧ (d.state runId).alreadyWarned fp = true) ∨
        (op.runId = runId ∧ op.triggers d = true ∧
          ∃ p, op.pair = some p ∧ pairFingerprint p = fp) := by
  have hsent {s s' : RunLoopState} (h : s.cooldownSent = s'.cooldownSent) :
      s.alreadyWarned fp = s'.alreadyWarned fp := by
    rw [RunLoopState.alreadyWarned, RunLoopState.alreadyWarned, h]
  by_cases htriggers : op.triggers d = true
  · obtain ⟨p, s, kill, warn, hpair, hs, happly⟩ := apply_of_triggers htriggers
    have hreset : op ≠ .reset runId := by
      rintro rfl
      cases hpair
    rw [happly]
    by_cases hrun : runId = op.runId
    · subst hrun
      rw [state_set_self, alreadyWarned_trigger, hsent hs]
      simp only [ne_eq, hreset, not_false_eq_true, true_and, htriggers, hpair, Option.some.injEq,
        exists_eq_left', eq_comm (a := fp)]
    · rw [state_congr (states_set_of_ne hrun _)]
      simp [hreset, Ne.symm hrun]
  · rw [Bool.not_eq_true] at htriggers
    by_cases hreset : op = .reset runId
    · subst hreset
      simp [LoopDetector.apply, LoopDetector.reset, LoopDetector.state, RunLoopState.alreadyWarned,
        RunLoopState.new, htriggers]
    · rw [hsent (cooldownSent_apply htriggers hreset)]
      simp [hreset, htriggers]

/-! ## The flags of a run -/

theorem after_concat (ops : List (LoopOp F)) (op : LoopOp F) :
    LoopDetector.after (ops ++ [op]) = ((LoopDetector.after ops).apply op).1 :=
  Run.stateAfter_concat ..

theorem not_triggeredSince_nil {runId : String} {p : String × String} :
    ¬ TriggeredSince (F := F) runId p [] := by
  intro h
  generalize hops : ([] : List (LoopOp F)) = ops at h
  cases h with
  | now => exact absurd hops (by simp)
  | earlier => exact absurd hops (by simp)

theorem triggeredSince_concat_iff {runId : String} {p : String × String} {ops : List (LoopOp F)} :
    TriggeredSince runId p (ops ++ [op]) ↔
      (op ≠ .reset runId ∧ TriggeredSince runId p ops) ∨
        (op.runId = runId ∧ op.triggers (LoopDetector.after ops) = true ∧ op.pair = some p) := by
  constructor
  · intro h
    generalize hops : ops ++ [op] = ops' at h
    cases h with
    | now run pair triggers =>
      obtain ⟨rfl, hop⟩ := List.append_inj' hops rfl
      obtain rfl := List.singleton_inj.1 hop
      exact Or.inr ⟨run, triggers, pair⟩
    | earlier before reset =>
      obtain ⟨rfl, hop⟩ := List.append_inj' hops rfl
      obtain rfl := List.singleton_inj.1 hop
      exact Or.inl ⟨reset, before⟩
  · rintro (⟨reset, before⟩ | ⟨run, triggers, pair⟩)
    · exact .earlier before reset
    · exact .now run pair triggers

/-- **The flag of a fingerprint** is set when a pair with that fingerprint has
triggered since the last reset. -/
theorem alreadyWarned_iff {runId fp : String} {ops : List (LoopOp F)} :
    ((LoopDetector.after ops).state runId).alreadyWarned fp = true ↔
      ∃ p, TriggeredSince runId p ops ∧ pairFingerprint p = fp := by
  induction ops using List.reverseRecOn with
  | nil =>
    refine iff_of_false (fun h => by cases h) ?_
    rintro ⟨p, hp, -⟩
    exact not_triggeredSince_nil hp
  | append_singleton ops op ih =>
    rw [after_concat, alreadyWarned_apply, ih]
    simp only [triggeredSince_concat_iff]
    constructor
    · rintro (⟨hreset, p, hp, hfp⟩ | ⟨hrun, htriggers, p, hpair, hfp⟩)
      · exact ⟨p, Or.inl ⟨hreset, hp⟩, hfp⟩
      · exact ⟨p, Or.inr ⟨hrun, htriggers, hpair⟩, hfp⟩
    · rintro ⟨p, ⟨hreset, hp⟩ | ⟨hrun, htriggers, hpair⟩, hfp⟩
      · exact Or.inl ⟨hreset, p, hp, hfp⟩
      · exact Or.inr ⟨hrun, htriggers, p, hpair, hfp⟩

/-- The answer to a trigger, by the pairs that have triggered before. -/
theorem answer_iff {p : String × String} {ops : List (LoopOp F)} (hpair : op.pair = some p)
    (htriggers : op.triggers (LoopDetector.after ops) = true) :
    ((∃ reason, LoopDetector.answer ops op = some (.cooldownWarning reason)) ↔
        ¬ ∃ q, TriggeredSince op.runId q ops ∧ pairFingerprint q = pairFingerprint p) ∧
      ((∃ reason, LoopDetector.answer ops op = some (.loopDetected reason)) ↔
        ∃ q, TriggeredSince op.runId q ops ∧ pairFingerprint q = pairFingerprint p) := by
  obtain ⟨p', s, kill, warn, hpair', hs, happly⟩ := apply_of_triggers htriggers
  obtain rfl : p' = p := Option.some.inj (hpair'.symm.trans hpair)
  have hanswer : LoopDetector.answer ops op =
      some (RunLoopState.trigger s (pairFingerprint p') kill warn).1 :=
    congrArg Prod.snd happly
  have hwarned : s.alreadyWarned (pairFingerprint p') = true ↔
      ∃ q, TriggeredSince op.runId q ops ∧ pairFingerprint q = pairFingerprint p' := by
    rw [← alreadyWarned_iff, RunLoopState.alreadyWarned, hs]
    rfl
  rw [hanswer, ← hwarned]
  simp only [Option.some.injEq]
  exact answer_trigger ..

/-! ## One warning -/

/-- Where every pair has had its one warning, pairs that have triggered have
different fingerprints. -/
theorem injective_of_oneWarning {ops : List (LoopOp F)} (h : OneWarning ops) {runId : String}
    {pre post : List (LoopOp F)} (hops : ops = pre ++ post) {p q : String × String}
    (hp : TriggeredSince runId p pre) (hq : TriggeredSince runId q pre)
    (hfp : pairFingerprint p = pairFingerprint q) : p = q := by
  induction pre using List.reverseRecOn generalizing post p q with
  | nil => exact absurd hp not_triggeredSince_nil
  | append_singleton pre op ih =>
    have hsplit : ops = pre ++ op :: post := by
      rw [hops, List.append_assoc]
      rfl
    -- A pair that triggers now, after one with its fingerprint, has triggered before.
    have hnow {a b : String × String} (hrun : op.runId = runId)
        (htriggers : op.triggers (LoopDetector.after pre) = true) (hpair : op.pair = some a)
        (hb : TriggeredSince runId b pre) (hab : pairFingerprint b = pairFingerprint a) :
        TriggeredSince runId a pre := by
      have hdetected := (answer_iff hpair htriggers).2.2 ⟨b, hrun ▸ hb, hab⟩
      exact hrun ▸ (h pre op post a hsplit hpair htriggers).2.1 hdetected
    rcases triggeredSince_concat_iff.1 hp with ⟨-, hp⟩ | ⟨hrun, htriggers, hpair⟩
    · rcases triggeredSince_concat_iff.1 hq with ⟨-, hq⟩ | ⟨hrun, htriggers, hpair⟩
      · exact ih hsplit hp hq hfp
      · exact ih hsplit hp (hnow hrun htriggers hpair hp hfp) hfp
    · rcases triggeredSince_concat_iff.1 hq with ⟨-, hq⟩ | ⟨-, -, hpair'⟩
      · exact ih hsplit (hnow hrun htriggers hpair hq hfp.symm) hq hfp
      · exact Option.some.inj (hpair.symm.trans hpair')

theorem noClash_of_oneWarning {ops : List (LoopOp F)} (h : OneWarning ops) : NoClash ops := by
  intro pre op post p q hops hpair htriggers hq hfp
  have hp : TriggeredSince op.runId p pre :=
    (h pre op post p hops hpair htriggers).2.1 ((answer_iff hpair htriggers).2.2 ⟨q, hq, hfp⟩)
  exact injective_of_oneWarning h hops hq hp hfp

theorem oneWarning_of_noClash {ops : List (LoopOp F)} (h : NoClash ops) : OneWarning ops := by
  intro pre op post p hops hpair htriggers
  have hsame : (∃ q, TriggeredSince op.runId q pre ∧ pairFingerprint q = pairFingerprint p) ↔
      TriggeredSince op.runId p pre := by
    constructor
    · rintro ⟨q, hq, hfp⟩
      rw [← h pre op post p q hops hpair htriggers hq hfp]
      exact hq
    · intro hp
      exact ⟨p, hp, rfl⟩
  have hanswer := answer_iff hpair htriggers
  rw [hsame] at hanswer
  exact hanswer

/-- **When the ladder holds.**  Every pair gets one warning and then ends its
run, exactly if no pair triggers after another pair with its fingerprint. -/
theorem oneWarning_iff (ops : List (LoopOp F)) : OneWarning ops ↔ NoClash ops :=
  ⟨noClash_of_oneWarning, oneWarning_of_noClash⟩

/-- The fingerprint tells pairs apart whose tools have no colon. -/
theorem pair_eq_of_fingerprint {p q : String × String} (hp : ':' ∉ p.1.toList)
    (hq : ':' ∉ q.1.toList) (h : pairFingerprint p = pairFingerprint q) : p = q := by
  have hlist : p.1.toList ++ ':' :: p.2.toList = q.1.toList ++ ':' :: q.2.toList := by
    have := congrArg String.toList h
    simpa [pairFingerprint, fingerprint] using this
  have hfront (tool rest : List Char) (hcolon : ':' ∉ tool) :
      (tool ++ ':' :: rest).takeWhile (fun c => c ≠ ':') = tool := by
    have hall : ∀ c ∈ tool, decide (c ≠ ':') = true := by
      intro c hc
      rw [decide_eq_true_eq]
      rintro rfl
      exact hcolon hc
    rw [List.takeWhile_append_of_pos hall, List.takeWhile_cons_of_neg (by simp), List.append_nil]
  have htool : p.1.toList = q.1.toList := by
    rw [← hfront p.1.toList p.2.toList hp, hlist, hfront q.1.toList q.2.toList hq]
  rw [htool] at hlist
  have hhash := (List.cons.inj (List.append_cancel_left hlist)).2
  exact Prod.ext (String.toList_inj.1 htool) (String.toList_inj.1 hhash)

/-- The ladder holds while no tool has a colon in its name. -/
theorem oneWarning_of_no_colon {ops : List (LoopOp F)}
    (h : ∀ op ∈ ops, ∀ p, op.pair = some p → ':' ∉ p.1.toList) : OneWarning ops := by
  have hsince {runId : String} {q : String × String} {pre : List (LoopOp F)}
      (hq : TriggeredSince runId q pre) : ∃ op ∈ pre, op.pair = some q := by
    induction hq with
    | now run pair triggers => exact ⟨_, List.mem_append_right _ (List.mem_singleton_self _), pair⟩
    | earlier before reset ih =>
      obtain ⟨op, hop, hpair⟩ := ih
      exact ⟨op, List.mem_append_left _ hop, hpair⟩
  refine oneWarning_of_noClash ?_
  intro pre op post p q hops hpair _ hq hfp
  obtain ⟨op', hop', hpair'⟩ := hsince hq
  rw [hops] at h
  exact pair_eq_of_fingerprint (h op' (List.mem_append_left _ hop') q hpair')
    (h op (List.mem_append_right _ (List.mem_cons_self ..)) p hpair) hfp

end Operations

namespace Sample

/-- Two calls of a tool whose name ends where the other hash begins. -/
def clashing : List (LoopOp ℚ) :=
  [.check { repeatedRequest with tool := "a:b", argsHash := "c" } twoInTwoMinutes 0,
    .check { repeatedRequest with tool := "a:b", argsHash := "c" } twoInTwoMinutes 1,
    .check { repeatedRequest with tool := "a", argsHash := "b:c" } twoInTwoMinutes 2]

/-- The last of the calls. -/
def clashingLast : LoopOp ℚ :=
  .check { repeatedRequest with tool := "a", argsHash := "b:c" } twoInTwoMinutes 3

/-- The first trigger of a pair ends the run, the other pair having had its
warning. -/
theorem not_oneWarning_clashing : ¬ OneWarning (clashing ++ [clashingLast]) := by
  intro hone
  have h := noClash_of_oneWarning hone
  have hsecond : TriggeredSince "run" ("a:b", "c") (clashing.take 1 ++ (clashing.drop 1).take 1) :=
    .now rfl rfl (by decide +kernel)
  have hother : TriggeredSince "run" ("a:b", "c") (clashing.take 2 ++ clashing.drop 2) :=
    .earlier hsecond (by simp)
  have heq := h clashing clashingLast [] ("a", "b:c") ("a:b", "c") rfl rfl (by decide +kernel)
    hother (by decide)
  revert heq
  decide

end Sample

end LoopStorm.Engine
