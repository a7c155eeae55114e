import LoopStorm.Engine.Enforce

/-!
# The audit log of a run

What the calls of a run leave in the audit log, and how it relates to what they
were answered.

* `runEvents`, `runLog` — the events of a run, as written and as sealed;
  `disk_stateAfter` says the file holds exactly their lines.
* `Records` — an event that records an answer.
* `audit_complete` — the decision events record the answers, one by one and in
  order; a call whose event could not be written was killed.
-/

namespace LoopStorm.Engine

section Answers

variable {F : Type} [Float64 F] [Globset] {request : DecisionRequest F}
  {policy : CompiledPolicy F} {budgetTracker : BudgetTracker F} {loopDetector : LoopDetector}
  {ts : String} {now : Nat}

/-- A response echoes the run and the number of its request. -/
def Echoes (request : DecisionRequest F) (response : DecisionResponse F) : Prop :=
  response.runId = request.runId ∧ response.seq = request.seq

theorem echoes_evaluateRules : Echoes request (evaluateRules request policy ts) := by
  unfold evaluateRules
  cases firstMatch policy request with
  | none => exact ⟨rfl, rfl⟩
  | some r => exact ⟨rfl, rfl⟩

theorem echoes_evaluate :
    Echoes request (evaluate request policy budgetTracker loopDetector ts now).1 := by
  by_cases htool : request.tool = escalateTool
  · rw [evaluate_escalate htool]
    exact ⟨rfl, rfl⟩
  · cases hcap : (budgetPreCheck policy budgetTracker request.runId).isSome with
    | true =>
      obtain ⟨dimension, current, cap, heq⟩ :=
        evaluate_overCap htool hcap loopDetector ts now
      rw [heq]
      exact ⟨rfl, rfl⟩
    | false =>
      rw [evaluate_check htool hcap]
      cases (loopDetector.check request policy.loopConfig now).1 with
      | ok => exact echoes_evaluateRules
      | cooldownWarning reason => exact ⟨rfl, rfl⟩
      | loopDetected reason => exact ⟨rfl, rfl⟩

theorem echoes_outcome {env : CallEnv F} {ctx : EnforcementContext F} :
    Echoes request (outcome request env ctx) := by
  unfold outcome overrideResponse
  cases (ctx.budgetTracker.record request.runId request.update ctx.policy.policy.budget).1 with
  | hardCapExceeded dimension current cap => exact ⟨rfl, rfl⟩
  | ok => exact echoes_evaluate
  | softCapWarning dimension current cap => exact echoes_evaluate

end Answers

section Log

variable {F : Type} [Float64 F]

/-- Every write of the call succeeds. -/
def Call.writesOk (c : Call F) : Bool := c.env.decisionIo.succeeds && c.env.warningIo.succeeds

theorem WriteIo.eq_ok {io : WriteIo} (h : io.succeeds = true) : io = .ok := by
  cases io with
  | ok => rfl
  | failed => cases h

theorem Call.ios_ok {c : Call F} (h : c.writesOk = true) :
    c.env.decisionIo = .ok ∧ c.env.warningIo = .ok := by
  rw [Call.writesOk, Bool.and_eq_true] at h
  exact ⟨WriteIo.eq_ok h.1, WriteIo.eq_ok h.2⟩

/-- An event of type `policy_decision`. -/
def AuditEvent.isDecision (e : AuditEvent F) : Bool := e.eventType == "policy_decision"

/-- The event records the answer to a call, its arguments redacted. -/
structure Records (redactor : Redactor) [TextTools] (e : AuditEvent F)
    (answered : Call F × DecisionResponse F) : Prop where
  runId : e.runId = answered.2.runId
  seq : e.seq = answered.2.seq
  echoes : Echoes answered.1.request answered.2
  tool : e.tool = some answered.1.request.tool
  decision : e.decision = some answered.2.decision.wire
  ruleId : e.ruleId = answered.2.ruleId
  reason : e.reason = answered.2.reason
  cooldownMs : e.cooldownMs = answered.2.cooldownMs
  args : e.argsRedacted = answered.1.request.argsRedacted.map redactor.redact

variable [Globset] [TextTools] [Sha256] {ctx : EnforcementContext F}

/-- The events of a run in which every write succeeds. -/
def runEvents (ctx : EnforcementContext F) : List (Call F) → List (AuditEvent F)
  | [] => []
  | c :: cs => loggedEvents c.request c.env ctx ++ runEvents (process ctx c).1 cs

/-- The same as they stand in the log, with their hash fields. -/
def runLog (ctx : EnforcementContext F) (calls : List (Call F)) : List (AuditEvent F) :=
  ctx.auditWriter.sealedAll (runEvents ctx calls)

theorem auditWriter_stateAfter {calls : List (Call F)}
    (h : ∀ c ∈ calls, c.writesOk = true) :
    (Run.stateAfter process ctx calls).auditWriter =
      ctx.auditWriter.writeEvents (runEvents ctx calls) := by
  induction calls generalizing ctx with
  | nil => rfl
  | cons c cs ih =>
    obtain ⟨hd, hw⟩ := Call.ios_ok (h c (List.mem_cons_self ..))
    rw [Run.stateAfter, ih (fun b hb => h b (List.mem_cons_of_mem _ hb)), runEvents,
      writeEvents_append, ← auditWriter_enforce hd hw]
    rfl

/-- The file holds what it held before and the lines of the run. -/
theorem disk_stateAfter {calls : List (Call F)} (hbuf : ctx.auditWriter.buf = [])
    (h : ∀ c ∈ calls, c.writesOk = true) :
    (Run.stateAfter process ctx calls).auditWriter.disk =
      ctx.auditWriter.disk ++ logBytes (runLog ctx calls) := by
  rw [auditWriter_stateAfter h]
  exact (disk_writeEvents hbuf _).1

/-- A call logs one decision event, and it records the answer. -/
theorem records_loggedEvents (ctx : EnforcementContext F) {c : Call F}
    (h : c.env.decisionIo.succeeds = true) :
    ∃ e, (loggedEvents c.request c.env ctx).filter AuditEvent.isDecision = [e] ∧
      Records ctx.redactor e (c, (process ctx c).2) := by
  refine ⟨decisionEvent c.request ctx.policy (c.request.argsRedacted.map ctx.redactor.redact)
    (outcome c.request c.env ctx) (telemetry c.request c.env ctx).1 c.env, ?_, ?_⟩
  · unfold loggedEvents
    cases (ctx.budgetTracker.record c.request.runId c.request.update
      ctx.policy.policy.budget).1 <;> rfl
  · have houtcome : (process ctx c).2 = outcome c.request c.env ctx := enforce_ok h
    have hechoes : Echoes c.request (outcome c.request c.env ctx) := echoes_outcome
    rw [houtcome]
    exact ⟨hechoes.1.symm, hechoes.2.symm, hechoes, rfl, rfl, rfl, rfl, rfl, rfl⟩

theorem redactor_process (c : Call F) : (process ctx c).1.redactor = ctx.redactor :=
  redactor_enforce

/-- The decision events of a run record its answers, before they are sealed. -/
theorem records_runEvents (ctx : EnforcementContext F) {calls : List (Call F)}
    (h : ∀ c ∈ calls, c.writesOk = true) :
    List.Forall₂ (Records ctx.redactor) ((runEvents ctx calls).filter AuditEvent.isDecision)
      (calls.zip (Run.outputs process ctx calls)) := by
  induction calls generalizing ctx with
  | nil => exact .nil
  | cons c cs ih =>
    have hc : c.env.decisionIo.succeeds = true := by
      rw [(Call.ios_ok (h c (List.mem_cons_self ..))).1]
      rfl
    obtain ⟨e, he, hrec⟩ := records_loggedEvents ctx hc
    have hrest := ih (process ctx c).1 (fun b hb => h b (List.mem_cons_of_mem _ hb))
    rw [redactor_process] at hrest
    rw [runEvents, List.filter_append, he, Run.outputs, List.zip_cons_cons]
    exact .cons hrec hrest

omit [Globset] [Sha256] in
/-- Whether events record answers does not depend on their hash fields. -/
theorem forall₂_records_of_unhashed {redactor : Redactor} {es ds : List (AuditEvent F)}
    {answered : List (Call F × DecisionResponse F)}
    (h : es.map AuditEvent.unhashed = ds.map AuditEvent.unhashed)
    (hes : List.Forall₂ (Records redactor) (es.filter AuditEvent.isDecision) answered) :
    List.Forall₂ (Records redactor) (ds.filter AuditEvent.isDecision) answered := by
  have hrec : ∀ e : AuditEvent F, ∀ a, Records redactor e.unhashed a ↔ Records redactor e a :=
    fun e a => ⟨fun h => ⟨h.1, h.2, h.3, h.4, h.5, h.6, h.7, h.8, h.9⟩,
      fun h => ⟨h.1, h.2, h.3, h.4, h.5, h.6, h.7, h.8, h.9⟩⟩
  have hmap : ∀ l : List (AuditEvent F),
      List.Forall₂ (Records redactor) (l.filter AuditEvent.isDecision) answered ↔
        List.Forall₂ (Records redactor) ((l.map AuditEvent.unhashed).filter AuditEvent.isDecision)
          answered := by
    intro l
    rw [List.filter_map, List.forall₂_map_left_iff]
    simp only [hrec]
    rfl
  rw [hmap, ← h, ← hmap]
  exact hes

/-- **The log is complete.**  When no write of a run fails, the file holds the
events of the run and its decision events record the answers, one for each call
and in their order.  A call whose decision event could not be written is
answered Kill, whatever else failed in the run. -/
theorem audit_complete (policy : CompiledPolicy F) (path : String) (disk : List UInt8)
    (calls : List (Call F)) :
    ((∀ c ∈ calls, c.writesOk = true) →
      (Run.stateAfter process (.new policy path disk) calls).auditWriter.disk =
        disk ++ logBytes (runLog (.new policy path disk) calls) ∧
      List.Forall₂ (Records (.new policy.policy.redaction))
        ((runLog (.new policy path disk) calls).filter AuditEvent.isDecision)
        (calls.zip (Run.outputs process (.new policy path disk) calls))) ∧
    ∀ before c after, calls = before ++ c :: after → c.env.decisionIo.succeeds = false →
      (Run.answer process (.new policy path disk) before c).decision = .kill := by
  refine ⟨fun h => ⟨disk_stateAfter rfl h, ?_⟩, ?_⟩
  · exact forall₂_records_of_unhashed (map_unhashed_sealedAll _ _).symm
      (records_runEvents (.new policy path disk) h)
  · intro before c after _ hfail
    rw [Run.answer, process, decision_enforce, hfail, if_neg Bool.false_ne_true]

end Log

end LoopStorm.Engine
