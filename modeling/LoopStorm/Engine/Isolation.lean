import LoopStorm.Engine.Log

/-!
# Runs do not see each other

The context of an engine is shared by all runs, and every part of it but the
log is a map keyed by run.  A call reads and writes the entries of its own run
only, so that to any one run the others might as well not be there.

* `SameFor` — two contexts that look alike to a run.
* `sameFor_own`, `sameFor_other` — a call of the run keeps them alike and is
  answered alike; a call of another run goes unnoticed.
* `run_isolation` — **noninterference** between runs.
-/

namespace LoopStorm.Engine

section Isolation

variable {F : Type} [Float64 F]

/-- The contexts look alike to a run: one policy, one redactor, and the same
entries of the run in the three maps. -/
structure SameFor (runId : String) (s t : EnforcementContext F) : Prop where
  policy : s.policy = t.policy
  redactor : s.redactor = t.redactor
  budget : s.budgetTracker.states runId = t.budgetTracker.states runId
  loops : s.loopDetector.states runId = t.loopDetector.states runId
  telemetry : s.telemetryStates runId = t.telemetryStates runId

/-- The call belongs to the run. -/
def Call.ofRun (runId : String) (c : Call F) : Bool := c.request.runId == runId

variable [Globset] [TextTools] [Sha256] {s t : EnforcementContext F} {c : Call F}

/-- A call as a step that also says which events it logs. -/
def observed (ctx : EnforcementContext F) (c : Call F) :
    EnforcementContext F × (DecisionResponse F × List (AuditEvent F)) :=
  ((process ctx c).1, ((process ctx c).2, loggedEvents c.request c.env ctx))

omit [Globset] [TextTools] [Sha256] in
/-- The record of the budget reads and writes the totals of its own run only. -/
theorem record_congr {bt bt' : BudgetTracker F} {runId : String}
    (h : bt.states runId = bt'.states runId) (update : BudgetUpdate F)
    (config : Option (BudgetConfig F)) :
    (bt.record runId update config).1 = (bt'.record runId update config).1 ∧
      (bt.record runId update config).2.states runId =
        (bt'.record runId update config).2.states runId := by
  have htotals : bt.totals runId = bt'.totals runId := by
    rw [BudgetTracker.totals, BudgetTracker.totals, h]
  constructor
  · unfold BudgetTracker.record
    rw [htotals]
    cases config <;> rfl
  · rw [record_states, record_states, Function.update_self, Function.update_self, htotals]

omit [TextTools] [Sha256] in
/-- Contexts that look alike to its run answer a call alike. -/
theorem outcome_congr (h : SameFor c.request.runId s t) :
    outcome c.request c.env s = outcome c.request c.env t := by
  rw [outcome, outcome, h.policy, (record_congr h.budget _ _).1,
    (evaluate_congr h.budget h.loops).1]

omit [Globset] in
theorem telemetry_congr (h : SameFor c.request.runId s t) :
    telemetry c.request c.env s = telemetry c.request c.env t := by
  rw [telemetry, telemetry, h.telemetry, h.redactor]

theorem loggedEvents_congr (h : SameFor c.request.runId s t) :
    loggedEvents c.request c.env s = loggedEvents c.request c.env t := by
  rw [loggedEvents, loggedEvents, outcome_congr h, telemetry_congr h, h.redactor, h.policy,
    (record_congr h.budget _ _).1]

/-- A call keeps contexts alike that look alike to its run, and is answered and
logged alike in both. -/
theorem sameFor_own (hok : c.writesOk = true) (h : SameFor c.request.runId s t) :
    (observed s c).2 = (observed t c).2 ∧
      SameFor c.request.runId (observed s c).1 (observed t c).1 := by
  have hd : c.env.decisionIo.succeeds = true := by
    rw [(Call.ios_ok hok).1]
    rfl
  constructor
  · rw [observed, observed, loggedEvents_congr h]
    have hanswer : (process s c).2 = (process t c).2 := by
      rw [process, process, enforce_ok hd, enforce_ok hd, outcome_congr h]
    rw [hanswer]
  · constructor
    · rw [observed, observed, process, process, policy_enforce, policy_enforce, h.policy]
    · rw [observed, observed, process, process, redactor_enforce, redactor_enforce, h.redactor]
    · rw [observed, observed, process, process, budgetTracker_enforce, budgetTracker_enforce,
        h.policy]
      exact (record_congr h.budget _ _).2
    · rw [observed, observed, process, process, loopDetector_enforce, loopDetector_enforce,
        h.policy]
      exact (evaluate_congr h.budget h.loops).2
    · rw [observed, observed, process, process, telemetryStates_enforce,
        telemetryStates_enforce, Function.update_self, Function.update_self, telemetry_congr h]

/-- A call of another run goes unnoticed. -/
theorem sameFor_other {runId : String} (hrun : c.request.runId ≠ runId) (h : SameFor runId s t) :
    SameFor runId (observed s c).1 t := by
  constructor
  · rw [observed, process, policy_enforce, h.policy]
  · rw [observed, process, redactor_enforce, h.redactor]
  · rw [observed, process, budgetStates_enforce_of_ne hrun.symm, h.budget]
  · rw [observed, process, loopDetector_enforce, states_evaluate_of_ne hrun.symm, h.loops]
  · rw [observed, process, telemetryStates_enforce, Function.update_of_ne hrun.symm, h.telemetry]

/-! ## The log of one run -/

theorem runId_loggedEvents {e : AuditEvent F} (h : e ∈ loggedEvents c.request c.env s) :
    e.runId = c.request.runId := by
  unfold loggedEvents at h
  rcases List.mem_cons.1 h with rfl | h
  · rfl
  · split at h
    · rw [List.mem_singleton.1 h]
      rfl
    · cases h

/-- The events of one run are those its own calls log. -/
theorem filter_runEvents (runId : String) (s : EnforcementContext F) (calls : List (Call F)) :
    (runEvents s calls).filter (fun e => e.runId == runId) =
      (Run.outputsOf observed (Call.ofRun runId) s calls).flatMap (·.2) := by
  induction calls generalizing s with
  | nil => rfl
  | cons c cs ih =>
    rw [runEvents, List.filter_append, Run.outputsOf]
    by_cases hrun : c.request.runId = runId
    · have hkeep : Call.ofRun runId c = true := by simpa [Call.ofRun] using hrun
      have hall : (loggedEvents c.request c.env s).filter (fun e => e.runId == runId) =
          loggedEvents c.request c.env s :=
        List.filter_eq_self.2 (fun e he => by simpa [runId_loggedEvents he] using hrun)
      rw [if_pos hkeep, List.flatMap_cons, hall, ih]
      rfl
    · have hkeep : ¬ Call.ofRun runId c = true := by simpa [Call.ofRun] using hrun
      have hnone : (loggedEvents c.request c.env s).filter (fun e => e.runId == runId) = [] :=
        List.filter_eq_nil_iff.2 (fun e he => by simpa [runId_loggedEvents he] using hrun)
      rw [if_neg hkeep, hnone, List.nil_append, ih]
      rfl

theorem runEvents_eq (s : EnforcementContext F) (calls : List (Call F)) :
    runEvents s calls = (Run.outputs observed s calls).flatMap (·.2) := by
  induction calls generalizing s with
  | nil => rfl
  | cons c cs ih => rw [runEvents, Run.outputs, List.flatMap_cons, ih]; rfl

theorem refines_observed :
    Run.Refines (process : EnforcementContext F → Call F → _) observed (·.1) :=
  fun _ _ => ⟨rfl, rfl⟩

/-- A run in a crowd against the same run alone, from contexts that look alike
to it. -/
theorem observed_filter {runId : String} (h : SameFor runId s t) {calls : List (Call F)}
    (hok : ∀ c ∈ calls, c.writesOk = true) :
    Run.outputsOf observed (Call.ofRun runId) s calls =
        Run.outputs observed t (calls.filter (Call.ofRun runId)) ∧
      SameFor runId (Run.stateAfter observed s calls)
        (Run.stateAfter observed t (calls.filter (Call.ofRun runId))) := by
  have hfilter := @Run.outputs_filter _ _ _ observed _ id (SameFor runId) (Call.ofRun runId)
    (fun c : Call F => c.writesOk = true) ?own ?other s t h calls hok
  case own =>
    intro s t c hc hkeep hst
    have hrun : c.request.runId = runId := by simpa [Call.ofRun] using hkeep
    subst hrun
    exact sameFor_own hc hst
  case other =>
    intro s t c _ hkeep hst
    exact sameFor_other (by simpa [Call.ofRun] using hkeep) hst
  simpa only [List.map_id] using hfilter

/-- **Run isolation.**  When no write fails, whatever other runs do in between,
the calls of a run are answered as if they had been alone with the engine, its
totals end up the same, and the log holds the same events of it, up to the hash
fields that chain the whole log. -/
theorem run_isolation (policy : CompiledPolicy F) (path : String) (disk : List UInt8)
    (runId : String) (calls : List (Call F)) (hok : ∀ c ∈ calls, c.writesOk = true) :
    Run.outputsOf process (Call.ofRun runId) (.new policy path disk) calls =
        Run.outputs process (.new policy path disk) (calls.filter (Call.ofRun runId)) ∧
      (Run.stateAfter process (.new policy path disk) calls).budgetTracker.states runId =
        (Run.stateAfter process (.new policy path disk)
          (calls.filter (Call.ofRun runId))).budgetTracker.states runId ∧
      (Run.stateAfter process (.new policy path disk) calls).auditWriter.disk =
        disk ++ logBytes (runLog (.new policy path disk) calls) ∧
      (Run.stateAfter process (.new policy path disk)
          (calls.filter (Call.ofRun runId))).auditWriter.disk =
        disk ++ logBytes (runLog (.new policy path disk) (calls.filter (Call.ofRun runId))) ∧
      ((runLog (.new policy path disk) calls).filter (fun e => e.runId == runId)).map
          AuditEvent.unhashed =
        (runLog (.new policy path disk) (calls.filter (Call.ofRun runId))).map
          AuditEvent.unhashed := by
  have hsame : SameFor runId (.new policy path disk) (.new policy path disk) :=
    ⟨rfl, rfl, rfl, rfl, rfl⟩
  have hown : ∀ c ∈ calls.filter (Call.ofRun runId), c.writesOk = true :=
    fun c hc => hok c (List.mem_of_mem_filter hc)
  obtain ⟨houts, hend⟩ := observed_filter hsame hok
  refine ⟨?answers, ?totals, disk_stateAfter rfl hok, disk_stateAfter rfl hown, ?log⟩
  case answers =>
    rw [← refines_observed.map_outputsOf, houts, refines_observed.map_outputs]
  case totals =>
    rw [← refines_observed.stateAfter, ← refines_observed.stateAfter]
    exact hend.budget
  case log =>
    -- hash fields set aside, the log is the list of events the calls log
    have hfilter : ∀ l : List (AuditEvent F),
        (l.filter (fun e => e.runId == runId)).map AuditEvent.unhashed =
          (l.map AuditEvent.unhashed).filter (fun e => e.runId == runId) :=
      fun l => by rw [List.filter_map]; rfl
    rw [hfilter, runLog, runLog, map_unhashed_sealedAll, map_unhashed_sealedAll, ← hfilter,
      filter_runEvents, houts, ← runEvents_eq]

end Isolation

open Sample in
/-- A run that shares the engine with another one. -/
theorem run_isolation_two_runs :
    Run.outputsOf process (Call.ofRun "run") (.new (compiled none none) "audit.jsonl" [])
        [call "run" "search" 1 none 0, call "other" "search" 1 none 1,
          call "run" "search" 2 none 2] =
      Run.outputs process (.new (compiled none none) "audit.jsonl" [])
        [call "run" "search" 1 none 0, call "run" "search" 2 none 2] :=
  (run_isolation (compiled none none) "audit.jsonl" [] "run"
    [call "run" "search" 1 none 0, call "other" "search" 1 none 1, call "run" "search" 2 none 2]
    (by decide)).1

end LoopStorm.Engine
