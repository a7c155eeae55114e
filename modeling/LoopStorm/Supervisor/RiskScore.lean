import LoopStorm.Supervisor.LoopAnalysis

/-!
# The risk score of a run

`apps/supervisor/src/lib/risk-score.ts`: eight signals with fixed weights, the
score their sum, no more than a hundred.

* `s1` … `s8` — the signals, each raised or not.
* `computeRiskScore` — the assessment.
* `loop_unrecovered_iff` — S5 is raised when some loop has the fingerprint before
  it again on the first decision after it.
* `score_computeRiskScore_le` — the score is at most a hundred.
-/

namespace LoopStorm.Supervisor

/-- The texts of a JavaScript number. -/
class NumberFormat (F : Type) where
  /-- `x.toFixed(digits)` -/
  toFixed : F → Nat → String
  /-- `String(x)` -/
  str : F → String

structure RiskSignal where
  id : String
  name : String
  weight : Nat
  evidence : String
deriving DecidableEq

inductive RiskTier where
  | low
  | medium
  | high
  | critical
deriving DecidableEq

/-- The name of a tier. -/
def RiskTier.text : RiskTier → String
  | .low => "LOW"
  | .medium => "MEDIUM"
  | .high => "HIGH"
  | .critical => "CRITICAL"

structure RiskAssessment (F : Type) where
  runId : String
  score : Nat
  tier : RiskTier
  signals : List RiskSignal
  narrative : String
  confidence : F

structure RunInfo (F : Type) where
  runId : String
  status : String
  totalCostUsd : F

structure BaselineInfo (F : Type) where
  runCount : Nat
  avgDenyRate : F

variable {F : Type} [Float64 F] [NumberFormat F]

/-- A literal with some decimals. -/
def literal (digits scale : Nat) : F :=
  Float64.div (Float64.ofNat digits) (Float64.ofNat scale)

/-! ## The signals -/

/-- S1, `high_deny_rate`. -/
def s1 (events : List (EventInfo F)) (baseline : Option (BaselineInfo F)) : Option RiskSignal :=
  let denyCount := events.countP (fun e => e.decision == some "deny")
  let totalDecisions := events.countP (·.isDecision)
  if 0 < totalDecisions then
    let denyRate : F := Float64.div (Float64.ofNat denyCount) (Float64.ofNat totalDecisions)
    let threshold : F :=
      match baseline with
      | some baseline =>
        if 3 ≤ baseline.runCount then
          let twice : F := Float64.mul (Float64.ofNat 2) baseline.avgDenyRate
          if Float64.gt twice (literal 1 10) then twice else literal 1 10
        else literal 3 10
      | none => literal 3 10
    if Float64.gt denyRate threshold ∧ 3 ≤ denyCount then
      let percent (rate : F) := NumberFormat.toFixed (Float64.mul rate (Float64.ofNat 100)) 1
      let usual :=
        match baseline with
        | some baseline => percent baseline.avgDenyRate
        | none => "N/A"
      some ⟨"S1", "high_deny_rate", 25,
        (s!"{denyCount} denies out of {totalDecisions} decisions ({percent denyRate}%), " ++
          s!"baseline is {usual}%")⟩
    else none
  else none

/-- The last event with budget data. -/
def extractBudgetHardCap (events : List (EventInfo F)) : Option F :=
  events.reverse.findSome? (fun e => e.budget.bind (·.costUsdHard))

/-- S2, `budget_near_cap`. -/
def s2 (run : RunInfo F) (events : List (EventInfo F)) : Option RiskSignal :=
  (extractBudgetHardCap events).bind fun budgetHardCap =>
    if Float64.gt run.totalCostUsd (Float64.mul (literal 8 10) budgetHardCap) then
      some ⟨"S2", "budget_near_cap", 20,
        (s!"Cost ${NumberFormat.toFixed run.totalCostUsd 2} exceeds 80% of " ++
          s!"${NumberFormat.toFixed budgetHardCap 2} hard cap")⟩
    else none

/-- S3, `budget_exceeded`. -/
def s3 (run : RunInfo F) : Option RiskSignal :=
  if run.status = "terminated_budget" then
    some ⟨"S3", "budget_exceeded", 30, "Run terminated by budget breach"⟩
  else none

/-- S4, `loop_detected`. -/
def s4 (events : List (EventInfo F)) : Option RiskSignal :=
  let loopEvents := events.filter (·.isLoop)
  if 0 < loopEvents.length then
    some ⟨"S4", "loop_detected", 20, s!"{loopEvents.length} loop detection(s) fired"⟩
  else none

/-- What S5 asks of one `loop_detected` event. -/
def loopUnrecovered (events : List (EventInfo F)) (loopEvent : EventInfo F) : Bool :=
  match decisionsAfter events loopEvent.seq with
  | [] => false
  | first :: _ =>
    let preEvents := events.filter (fun e => decide (e.seq < loopEvent.seq))
    match lastFingerprint preEvents, first.callSeqFingerprint with
    | some preFp, some postFp => preFp == postFp
    | _, _ => false

/-- S5, `loop_unrecovered`: the first loop event that asks for it, only counted
once. -/
def s5 (events : List (EventInfo F)) : Option RiskSignal :=
  ((events.filter (·.isLoop)).find? (loopUnrecovered events)).map fun loopEvent =>
    ⟨"S5", "loop_unrecovered", 15,
      s!"Loop detected at seq {loopEvent.seq} but behavior did not change after cooldown"⟩

/-- The middle of the sorted values, the mean of the two there when even. -/
def median (values : List F) : F :=
  let sorted := values.insertionSort (fun a b => Float64.gt a b = false)
  let mid := sorted.length / 2
  if sorted.length % 2 = 0 then
    Float64.div (Float64.add ((sorted[mid - 1]?).getD Float64.zero)
      ((sorted[mid]?).getD Float64.zero)) (Float64.ofNat 2)
  else (sorted[mid]?).getD Float64.zero

/-- S6, `rapid_fire`. -/
def s6 (events : List (EventInfo F)) : Option RiskSignal :=
  let interCallValues :=
    (events.filterMap (·.interCallMs)).filter (fun ms => Float64.gt ms Float64.zero)
  if 3 ≤ interCallValues.length then
    let medianMs := median interCallValues
    if Float64.gt (Float64.ofNat 100) medianMs then
      some ⟨"S6", "rapid_fire", 10,
        s!"Median inter-call time {NumberFormat.str medianMs}ms (< 100ms threshold)"⟩
    else none
  else none

/-- The tool and shape of the events that have both, neither empty. -/
def toolShapes (events : List (EventInfo F)) : List (String × String) :=
  events.filterMap fun e =>
    match e.tool, e.paramShapeHash with
    | some tool, some shape => if tool ≠ "" ∧ shape ≠ "" then some (tool, shape) else none
    | _, _ => none

/-- S7, `structural_drift`: the first tool, in the order of first use, with too
many shapes. -/
def s7 (events : List (EventInfo F)) : Option RiskSignal :=
  let uses := toolShapes events
  let useCount (tool : String) := uses.countP (·.1 == tool)
  let shapes (tool : String) := ((uses.filter (·.1 == tool)).map (·.2)).eraseDups
  ((uses.map (·.1)).eraseDups.find? (fun tool =>
    decide (3 ≤ useCount tool ∧ 3 < (shapes tool).length))).map fun tool =>
      ⟨"S7", "structural_drift", 10,
        (s!"Tool {tool} used {useCount tool} times with {(shapes tool).length} distinct " ++
          "parameter structures")⟩

/-- S8, `abnormal_token_spike`. -/
def s8 (events : List (EventInfo F)) : Option RiskSignal :=
  let (maxDelta, maxDeltaSeq) := events.foldl
    (fun (best : F × Nat) e =>
      match e.tokenRateDelta with
      | some delta => if Float64.gt delta best.1 then (delta, e.seq) else best
      | none => best)
    (Float64.zero, 0)
  if Float64.gt maxDelta (Float64.ofNat 5) then
    some ⟨"S8", "abnormal_token_spike", 15,
      s!"Token spike of {NumberFormat.toFixed maxDelta 1}x detected at seq {maxDeltaSeq}"⟩
  else none

/-! ## The assessment -/

def scoreTier (score : Nat) : RiskTier :=
  if score ≤ 25 then .low
  else if score ≤ 50 then .medium
  else if score ≤ 75 then .high
  else .critical

def buildNarrative (score : Nat) (tier : RiskTier) (signals : List RiskSignal)
    (confidence : F) : String :=
  let opening :=
    s!"Risk assessment: {tier.text} ({score}/100, confidence {NumberFormat.str confidence})."
  if signals = [] then s!"{opening} No risk signals detected."
  else
    let signalNames := ", ".intercalate (signals.map (·.name))
    let signalDetails :=
      "\n".intercalate (signals.map (fun s => s!"- {s.name} ({s.weight}): {s.evidence}"))
    s!"{opening} {signals.length} risk signal(s) detected: {signalNames}.\n{signalDetails}"

/-- Compute the risk score for a run. -/
def computeRiskScore (run : RunInfo F) (events : List (EventInfo F))
    (baseline : Option (BaselineInfo F)) : RiskAssessment F :=
  let signals :=
    [s1 events baseline, s2 run events, s3 run, s4 events, s5 events, s6 events, s7 events,
      s8 events].filterMap id
  let rawScore := signals.foldl (fun sum s => sum + s.weight) 0
  let score := min rawScore 100
  let tier := scoreTier score
  let tenth : F := Float64.div (Float64.ofNat events.length) (Float64.ofNat 10)
  let eventFactor : F := if Float64.gt tenth (Float64.ofNat 1) then Float64.ofNat 1 else tenth
  let baselineFactor : F :=
    match baseline with
    | some baseline =>
      if 10 ≤ baseline.runCount then Float64.ofNat 1
      else if 3 ≤ baseline.runCount then literal 7 10
      else literal 4 10
    | none => literal 4 10
  let hundred : F := Float64.ofNat 100
  let confidence :=
    Float64.div (Float64.round (Float64.mul (Float64.mul eventFactor baselineFactor) hundred))
      hundred
  { runId := run.runId
    score
    tier
    signals
    narrative := buildNarrative score tier signals confidence
    confidence }

theorem score_computeRiskScore_le (run : RunInfo F) (events : List (EventInfo F))
    (baseline : Option (BaselineInfo F)) : (computeRiskScore run events baseline).score ≤ 100 :=
  Nat.min_le_right _ _

omit [Float64 F] [NumberFormat F] in
/-- A loop counts as unrecovered when the last fingerprint before it is that of
the first decision after it. -/
theorem loopUnrecovered_iff (events : List (EventInfo F)) (loopEvent : EventInfo F) :
    loopUnrecovered events loopEvent = true ↔
      ∃ fp, lastFingerprint (events.filter (fun e => decide (e.seq < loopEvent.seq))) = some fp ∧
        (decisionsAfter events loopEvent.seq).head?.bind (·.callSeqFingerprint) = some fp := by
  unfold loopUnrecovered
  generalize events.filter (fun e => decide (e.seq < loopEvent.seq)) = pre
  cases decisionsAfter events loopEvent.seq with
  | nil => simp
  | cons first rest =>
    cases hpre : lastFingerprint pre with
    | none => simp [hpre]
    | some preFp =>
      cases hfp : first.callSeqFingerprint with
      | none => simp [hpre, hfp]
      | some postFp =>
        simp only [hpre, hfp, List.head?_cons, Option.bind_some, beq_iff_eq, Option.some.injEq,
          exists_eq_left']
        exact eq_comm

omit [Float64 F] [NumberFormat F] in
/-- What S5 says, when it is raised. -/
theorem s5_eq_some {events : List (EventInfo F)} {s : RiskSignal} (h : s5 events = some s) :
    s.name = "loop_unrecovered" := by
  unfold s5 at h
  obtain ⟨loopEvent, -, rfl⟩ := Option.map_eq_some_iff.1 h
  rfl

/-- No other signal has the name of S5. -/
theorem s5_of_name {run : RunInfo F} {events : List (EventInfo F)}
    {baseline : Option (BaselineInfo F)} {s : RiskSignal}
    (hs : s ∈ (computeRiskScore run events baseline).signals)
    (hname : s.name = "loop_unrecovered") : s5 events = some s := by
  have hmem : some s ∈ [s1 events baseline, s2 run events, s3 run, s4 events, s5 events,
      s6 events, s7 events, s8 events] := by
    obtain ⟨o, ho, heq⟩ := List.mem_filterMap.1 hs
    exact (show o = some s from heq) ▸ ho
  simp only [List.mem_cons, List.not_mem_nil, or_false] at hmem
  rcases hmem with h | h | h | h | h | h | h | h
  · obtain ⟨-, h⟩ := Option.ite_none_right_eq_some.1 h.symm
    obtain ⟨-, ⟨⟩⟩ := Option.ite_none_right_eq_some.1 h
    simp at hname
  · obtain ⟨cap, -, h⟩ := Option.bind_eq_some_iff.1 h.symm
    obtain ⟨-, ⟨⟩⟩ := Option.ite_none_right_eq_some.1 h
    simp at hname
  · obtain ⟨-, ⟨⟩⟩ := Option.ite_none_right_eq_some.1 h.symm
    simp at hname
  · obtain ⟨-, ⟨⟩⟩ := Option.ite_none_right_eq_some.1 h.symm
    simp at hname
  · exact h.symm
  · obtain ⟨-, h⟩ := Option.ite_none_right_eq_some.1 h.symm
    obtain ⟨-, ⟨⟩⟩ := Option.ite_none_right_eq_some.1 h
    simp at hname
  · obtain ⟨tool, -, rfl⟩ := Option.map_eq_some_iff.1 h.symm
    simp at hname
  · obtain ⟨-, ⟨⟩⟩ := Option.ite_none_right_eq_some.1 h.symm
    simp at hname

/-- S5 is raised when some loop is unrecovered. -/
theorem loop_unrecovered_iff (run : RunInfo F) (events : List (EventInfo F))
    (baseline : Option (BaselineInfo F)) :
    (∃ s ∈ (computeRiskScore run events baseline).signals, s.name = "loop_unrecovered") ↔
      ∃ e ∈ events, e.isLoop = true ∧ loopUnrecovered events e = true := by
  constructor
  · rintro ⟨s, hs, hname⟩
    have h5 := s5_of_name hs hname
    unfold s5 at h5
    obtain ⟨e, hfind, -⟩ := Option.map_eq_some_iff.1 h5
    obtain ⟨he, hloop⟩ := List.mem_filter.1 (List.mem_of_find?_eq_some hfind)
    exact ⟨e, he, hloop, List.find?_some hfind⟩
  · rintro ⟨e, he, hloop, hun⟩
    have hsome : ((events.filter (·.isLoop)).find? (loopUnrecovered events)).isSome := by
      rw [List.find?_isSome]
      exact ⟨e, List.mem_filter.2 ⟨he, hloop⟩, hun⟩
    have h5 : (s5 events).isSome := by
      rw [s5, Option.isSome_map]
      exact hsome
    obtain ⟨s, hs⟩ := Option.isSome_iff_exists.1 h5
    refine ⟨s, ?_, s5_eq_some hs⟩
    exact List.mem_filterMap.2 ⟨some s, by simp [hs], rfl⟩

end LoopStorm.Supervisor
