import LoopStorm.Engine.Evaluator
import LoopStorm.Engine.Redaction
import LoopStorm.Engine.Audit
import LoopStorm.Lib.Run

/-!
# The enforcement pipeline

`enforce` of `apps/engine/src/lib.rs`: the stages of the evaluator, the record
of the budget, the redaction, the telemetry and the audit log, over the one
context an engine holds.

* `EnforcementContext`, `enforce` — the state and its step.  What a call meets
  of the outside world, clocks and file system, is its `CallEnv`.
* `outcome` — the answer that goes into the audit log; `enforce_ok` and
  `enforce_failed` say what becomes of it.
* `decision_enforce` — the decision of a call as a function of the state before.
* `budgetTracker_enforce`, `loopDetector_enforce`, `telemetryStates_enforce`,
  `auditWriter_enforce` — what a call leaves in each part of the context.
* `process` — a call as a step of a run.
-/

namespace LoopStorm.Engine

variable {F : Type} [Float64 F]

/-- Runtime context for the enforcement pipeline. -/
structure EnforcementContext (F : Type) [Float64 F] where
  policy : CompiledPolicy F
  budgetTracker : BudgetTracker F
  loopDetector : LoopDetector
  auditWriter : AuditWriter
  redactor : Redactor
  /-- Per-run behavioral telemetry state. -/
  telemetryStates : String → Option TelemetryState

/-- A new enforcement context from a compiled policy and the audit log. -/
def EnforcementContext.new [TextTools] [Sha256] (policy : CompiledPolicy F) (auditPath : String)
    (disk : List UInt8) : EnforcementContext F where
  policy := policy
  budgetTracker := .new
  loopDetector := .new
  auditWriter := .new auditPath disk
  redactor := .new policy.policy.redaction
  telemetryStates := fun _ => none

/-- What a call meets of the outside world: the clocks it reads, in nanoseconds
or as texts, and what becomes of its two writes. -/
structure CallEnv (F : Type) where
  /-- The instant the call starts. -/
  start : Nat
  /-- The instant the loop detector reads. -/
  checkNow : Nat
  latencyMs : F
  evaluateTs : String
  recordTs : String
  eventTs : String
  failureTs : String
  warningTs : String
  decisionIo : WriteIo
  warningIo : WriteIo

/-- The amounts a request adds to the budget of its run. -/
def DecisionRequest.update (request : DecisionRequest F) : BudgetUpdate F where
  costUsd := request.estimatedCostUsd.getD Float64.zero
  inputTokens := request.inputTokens.getD 0
  outputTokens := request.outputTokens.getD 0

/-- A hard cap exceeded after recording replaces the evaluator's answer. -/
def overrideResponse (request : DecisionRequest F) (status : BudgetStatus F) (ts : String)
    (response : DecisionResponse F) : DecisionResponse F :=
  match status with
  | .hardCapExceeded dimension current cap => hardCapResponse request dimension current cap ts
  | _ => response

/-- The decision event of a call. -/
def decisionEvent (request : DecisionRequest F) (policy : CompiledPolicy F)
    (redactedArgs : Option (Value F)) (response : DecisionResponse F) (bt : TelemetryFields F)
    (env : CallEnv F) : AuditEvent F where
  schemaVersion := 1
  eventType := "policy_decision"
  runId := request.runId
  seq := request.seq
  hash := none
  hashPrev := none
  ts := env.eventTs
  tool := some request.tool
  argsHash := some request.argsHash
  argsRedacted := redactedArgs
  decision := some response.decision.wire
  ruleId := response.ruleId
  reason := response.reason
  agentName := request.agentName
  agentRole := request.agentRole
  model := request.model
  inputTokens := request.inputTokens
  outputTokens := request.outputTokens
  estimatedCostUsd := request.estimatedCostUsd
  environment := request.environment
  runStatus := none
  dimension := none
  loopRule := none
  loopAction := none
  cooldownMs := response.cooldownMs
  budget := none
  latencyMs := some env.latencyMs
  policyPackId := policy.policy.name
  callSeqFingerprint := some bt.callSeqFingerprint
  interCallMs := some bt.interCallMs
  tokenRateDelta := bt.tokenRateDelta
  paramShapeHash := some bt.paramShapeHash

/-- The event that follows when a soft cap is exceeded. -/
def warningEvent (request : DecisionRequest F) (dimension : String) (current cap : F)
    (ts : String) : AuditEvent F where
  schemaVersion := 1
  eventType := "budget_soft_cap_warning"
  runId := request.runId
  seq := request.seq
  hash := none
  hashPrev := none
  ts := ts
  tool := none
  argsHash := none
  argsRedacted := none
  decision := none
  ruleId := none
  reason := some ("soft cap warning: " ++ dimension ++ " = " ++ Float64.fixed4 current ++
    " (cap: " ++ Float64.fixed4 cap ++ ")")
  agentName := none
  agentRole := none
  model := none
  inputTokens := none
  outputTokens := none
  estimatedCostUsd := none
  environment := none
  runStatus := none
  dimension := some dimension
  loopRule := none
  loopAction := none
  cooldownMs := none
  budget := none
  latencyMs := none
  policyPackId := none
  callSeqFingerprint := none
  interCallMs := none
  tokenRateDelta := none
  paramShapeHash := none

/-- The answer when the decision event cannot be written. -/
def auditFailureResponse (request : DecisionRequest F) (error : AuditError) (ts : String) :
    DecisionResponse F :=
  .plain request .kill (some "__builtin_audit_write_failure")
    (some ("audit write failed — run killed (ADR-005): " ++ error.text)) ts

section Pipeline

variable [Globset] [TextTools] [Sha256]

/-- The main enforcement pipeline function. -/
def enforce (request : DecisionRequest F) (env : CallEnv F) (ctx : EnforcementContext F) :
    DecisionResponse F × EnforcementContext F :=
  let (response, loopDetector) :=
    evaluate request ctx.policy ctx.budgetTracker ctx.loopDetector env.evaluateTs env.checkNow
  let (budgetStatus, budgetTracker) :=
    ctx.budgetTracker.record request.runId request.update ctx.policy.policy.budget
  let response := overrideResponse request budgetStatus env.recordTs response
  let redactedArgs := request.argsRedacted.map ctx.redactor.redact
  let (bt, telemetryState) :=
    ((ctx.telemetryStates request.runId).getD .new).compute request.tool request.argsHash
      redactedArgs request.inputTokens request.outputTokens env.start
  let ctx := { ctx with
    budgetTracker := budgetTracker
    loopDetector := loopDetector
    telemetryStates := Function.update ctx.telemetryStates request.runId (some telemetryState) }
  match ctx.auditWriter.writeEvent
      (decisionEvent request ctx.policy redactedArgs response bt env) env.decisionIo with
  | (.error e, auditWriter) =>
    (auditFailureResponse request e env.failureTs, { ctx with auditWriter := auditWriter })
  | (.ok _, auditWriter) =>
    match budgetStatus with
    | .softCapWarning dimension current cap =>
      (response, { ctx with
        auditWriter := (auditWriter.writeEvent
          (warningEvent request dimension current cap env.warningTs) env.warningIo).2 })
    | _ => (response, { ctx with auditWriter := auditWriter })

/-! ## The answer -/

/-- The answer that goes into the audit log. -/
def outcome (request : DecisionRequest F) (env : CallEnv F) (ctx : EnforcementContext F) :
    DecisionResponse F :=
  overrideResponse request
    (ctx.budgetTracker.record request.runId request.update ctx.policy.policy.budget).1 env.recordTs
    (evaluate request ctx.policy ctx.budgetTracker ctx.loopDetector env.evaluateTs env.checkNow).1

variable {request : DecisionRequest F} {env : CallEnv F} {ctx : EnforcementContext F}

/-- With the decision event written, the answer is the one in the log. -/
theorem enforce_ok (h : env.decisionIo.succeeds = true) :
    (enforce request env ctx).1 = outcome request env ctx := by
  cases hio : env.decisionIo with
  | ok =>
    simp only [enforce, hio, AuditWriter.writeEvent]
    unfold outcome
    cases (ctx.budgetTracker.record request.runId request.update ctx.policy.policy.budget).1 <;> rfl
  | failed stage error onDisk =>
    rw [hio] at h
    cases h

/-- Without it the run is killed. -/
theorem enforce_failed (h : env.decisionIo.succeeds = false) :
    ∃ e, (enforce request env ctx).1 = auditFailureResponse request e env.failureTs := by
  cases hio : env.decisionIo with
  | ok =>
    rw [hio] at h
    cases h
  | failed stage error onDisk =>
    refine ⟨.writeFailed (stage.reason ctx.auditWriter.path error), ?_⟩
    simp only [enforce, hio, AuditWriter.writeEvent]

/-- The totals of the request's run after recording it. -/
def totalsAfter (request : DecisionRequest F) (ctx : EnforcementContext F) : BudgetState F :=
  (ctx.budgetTracker.totals request.runId).add request.update

omit [TextTools] [Sha256] in
/-- The decision in the log: Kill over a hard cap, and otherwise what the
evaluator says. -/
theorem decision_outcome :
    (outcome request env ctx).decision =
      if (totalsAfter request ctx).overHardCap ctx.policy.policy.budget then .kill
      else (evaluate request ctx.policy ctx.budgetTracker ctx.loopDetector env.evaluateTs
        env.checkNow).1.decision := by
  rw [totalsAfter, ← record_isHardCap, outcome]
  cases (ctx.budgetTracker.record request.runId request.update ctx.policy.policy.budget).1 <;> rfl

/-- The recorded totals of a run exceed a hard cap. -/
def overCap (ctx : EnforcementContext F) (runId : String) : Bool :=
  (ctx.budgetTracker.states runId).any (fun s => s.overHardCap ctx.policy.policy.budget)

/-- The decision of a call. -/
theorem decision_enforce :
    (enforce request env ctx).1.decision =
      if env.decisionIo.succeeds then
        if (totalsAfter request ctx).overHardCap ctx.policy.policy.budget then .kill
        else (evaluate request ctx.policy ctx.budgetTracker ctx.loopDetector env.evaluateTs
          env.checkNow).1.decision
      else .kill := by
  cases hio : env.decisionIo.succeeds with
  | true => rw [enforce_ok hio, decision_outcome, if_pos rfl]
  | false =>
    obtain ⟨e, he⟩ : ∃ e, (enforce request env ctx).1 =
        auditFailureResponse request e env.failureTs := enforce_failed hio
    rw [he]
    rfl

/-! ## The state left behind -/

theorem policy_enforce : (enforce request env ctx).2.policy = ctx.policy := by
  unfold enforce
  dsimp only
  split
  · rfl
  · split <;> rfl

theorem redactor_enforce : (enforce request env ctx).2.redactor = ctx.redactor := by
  unfold enforce
  dsimp only
  split
  · rfl
  · split <;> rfl

theorem budgetTracker_enforce :
    (enforce request env ctx).2.budgetTracker =
      (ctx.budgetTracker.record request.runId request.update ctx.policy.policy.budget).2 := by
  unfold enforce
  dsimp only
  split
  · rfl
  · split <;> rfl

theorem loopDetector_enforce :
    (enforce request env ctx).2.loopDetector =
      (evaluate request ctx.policy ctx.budgetTracker ctx.loopDetector env.evaluateTs
        env.checkNow).2 := by
  unfold enforce
  dsimp only
  split
  · rfl
  · split <;> rfl

/-- The totals of a run grow by the amounts of its requests. -/
theorem totals_enforce :
    (enforce request env ctx).2.budgetTracker.totals request.runId = totalsAfter request ctx := by
  rw [budgetTracker_enforce, totals_record_self, totalsAfter]

/-- A call leaves the totals of every other run alone. -/
theorem budgetStates_enforce_of_ne {other : String} (h : other ≠ request.runId) :
    (enforce request env ctx).2.budgetTracker.states other = ctx.budgetTracker.states other := by
  rw [budgetTracker_enforce, states_record_of_ne h]

/-- The telemetry of a call, and the state of its run after it. -/
def telemetry (request : DecisionRequest F) (env : CallEnv F) (ctx : EnforcementContext F) :
    TelemetryFields F × TelemetryState :=
  ((ctx.telemetryStates request.runId).getD .new).compute request.tool request.argsHash
    (request.argsRedacted.map ctx.redactor.redact) request.inputTokens request.outputTokens
    env.start

theorem telemetryStates_enforce :
    (enforce request env ctx).2.telemetryStates =
      Function.update ctx.telemetryStates request.runId (some (telemetry request env ctx).2) := by
  unfold enforce telemetry
  dsimp only
  split
  · rfl
  · split <;> rfl

/-- The events of a call that goes through: the decision event, and a warning
when a soft cap is exceeded. -/
def loggedEvents (request : DecisionRequest F) (env : CallEnv F) (ctx : EnforcementContext F) :
    List (AuditEvent F) :=
  decisionEvent request ctx.policy (request.argsRedacted.map ctx.redactor.redact)
      (outcome request env ctx) (telemetry request env ctx).1 env ::
    match (ctx.budgetTracker.record request.runId request.update ctx.policy.policy.budget).1 with
    | .softCapWarning dimension current cap =>
      [warningEvent request dimension current cap env.warningTs]
    | _ => []

/-- When every write of a call succeeds, the log grows by the call's events. -/
theorem auditWriter_enforce (hd : env.decisionIo = .ok) (hw : env.warningIo = .ok) :
    (enforce request env ctx).2.auditWriter =
      ctx.auditWriter.writeEvents (loggedEvents request env ctx) := by
  simp only [enforce, loggedEvents, outcome, telemetry, hd, hw, AuditWriter.writeEvents,
    AuditWriter.writeEvent]
  cases (ctx.budgetTracker.record request.runId request.update ctx.policy.policy.budget).1 <;> rfl

/-- What a call hands to the writer, with what becomes of each write: the
decision event, and the warning once that has been written. -/
def submitted (request : DecisionRequest F) (env : CallEnv F) (ctx : EnforcementContext F) :
    List (AuditEvent F × WriteIo) :=
  (decisionEvent request ctx.policy (request.argsRedacted.map ctx.redactor.redact)
      (outcome request env ctx) (telemetry request env ctx).1 env, env.decisionIo) ::
    match (ctx.budgetTracker.record request.runId request.update ctx.policy.policy.budget).1 with
    | .softCapWarning dimension current cap =>
      if env.decisionIo.succeeds then
        [(warningEvent request dimension current cap env.warningTs, env.warningIo)]
      else []
    | _ => []

omit [Globset] [TextTools] in
/-- The writer after some writes, each with its outcome. -/
def AuditWriter.handOver (w : AuditWriter) (es : List (AuditEvent F × WriteIo)) : AuditWriter :=
  es.foldl (fun w e => (w.writeEvent e.1 e.2).2) w

/-- The log takes what a call hands over. -/
theorem auditWriter_submitted :
    (enforce request env ctx).2.auditWriter =
      ctx.auditWriter.handOver (submitted request env ctx) := by
  cases hio : env.decisionIo with
  | ok =>
    simp only [enforce, submitted, outcome, telemetry, hio, AuditWriter.handOver,
      AuditWriter.writeEvent]
    cases (ctx.budgetTracker.record request.runId request.update ctx.policy.policy.budget).1 <;> rfl
  | failed stage error onDisk =>
    simp only [enforce, submitted, outcome, telemetry, hio, AuditWriter.handOver,
      AuditWriter.writeEvent, WriteIo.succeeds]
    cases (ctx.budgetTracker.record request.runId request.update ctx.policy.policy.budget).1 <;> rfl

/-- A warning follows a decision event that has been written, when the totals of
the run are over a soft cap and under all hard ones. -/
def Warns (request : DecisionRequest F) (env : CallEnv F) (ctx : EnforcementContext F) : Prop :=
  env.decisionIo.succeeds = true ∧
    (totalsAfter request ctx).overHardCap ctx.policy.policy.budget = false ∧
    (totalsAfter request ctx).overSoftCap ctx.policy.policy.budget = true

/-- The run and the number of an event. -/
def AuditEvent.key (e : AuditEvent F) : String × UInt64 := (e.runId, e.seq)

/-- The run and the number of a request. -/
def DecisionRequest.key (request : DecisionRequest F) : String × UInt64 :=
  (request.runId, request.seq)

/-- A warning carries the run and the number of its decision event. -/
theorem keys_submitted_of_warns (h : Warns request env ctx) :
    (submitted request env ctx).map (fun e => e.1.key) = [request.key, request.key] := by
  obtain ⟨hio, hhard, hsoft⟩ := h
  have hsoftCap := isSoftCap_record ctx.budgetTracker request.runId request.update
    ctx.policy.policy.budget
  rw [totalsAfter] at hhard hsoft
  rw [hhard, hsoft] at hsoftCap
  unfold submitted
  cases hstatus : (ctx.budgetTracker.record request.runId request.update
    ctx.policy.policy.budget).1 with
  | softCapWarning dimension current cap =>
    simp only [hio, if_true]
    rfl
  | ok =>
    rw [hstatus] at hsoftCap
    cases hsoftCap
  | hardCapExceeded dimension current cap =>
    rw [hstatus] at hsoftCap
    cases hsoftCap

/-- Without a warning the decision event is alone. -/
theorem keys_submitted_of_not_warns (h : ¬ Warns request env ctx) :
    (submitted request env ctx).map (fun e => e.1.key) = [request.key] := by
  have hsoftCap := isSoftCap_record ctx.budgetTracker request.runId request.update
    ctx.policy.policy.budget
  unfold submitted
  cases hstatus : (ctx.budgetTracker.record request.runId request.update
    ctx.policy.policy.budget).1 with
  | softCapWarning dimension current cap =>
    rw [hstatus] at hsoftCap
    have hboth := (Bool.and_eq_true _ _).mp hsoftCap.symm
    have hio : env.decisionIo.succeeds = false := by
      rw [← Bool.not_eq_true]
      exact fun hio => h ⟨hio, (Bool.not_eq_true' _).mp hboth.1, hboth.2⟩
    simp only [hio, Bool.false_eq_true, if_false]
    rfl
  | ok => rfl
  | hardCapExceeded dimension current cap => rfl

/-! ## Runs -/

/-- A request and what its call meets. -/
structure Call (F : Type) [Float64 F] where
  request : DecisionRequest F
  env : CallEnv F

/-- A call as a step of a run: the context it leaves and the answer. -/
def process (ctx : EnforcementContext F) (c : Call F) :
    EnforcementContext F × DecisionResponse F :=
  ((enforce c.request c.env ctx).2, (enforce c.request c.env ctx).1)

variable {c : Call F}

/-- After a call, its run is over a cap exactly when the new totals are. -/
theorem overCap_process_self :
    overCap (process ctx c).1 c.request.runId =
      (totalsAfter c.request ctx).overHardCap ctx.policy.policy.budget := by
  rw [overCap, process, budgetTracker_enforce, record_states, Function.update_self,
    policy_enforce]
  rfl

theorem overCap_process_of_ne {runId : String} (h : runId ≠ c.request.runId) :
    overCap (process ctx c).1 runId = overCap ctx runId := by
  rw [overCap, process, budgetStates_enforce_of_ne h, policy_enforce]
  rfl

theorem policy_stateAfter (ctx : EnforcementContext F) (calls : List (Call F)) :
    (Run.stateAfter process ctx calls).policy = ctx.policy := by
  induction calls generalizing ctx with
  | nil => rfl
  | cons c cs ih => rw [Run.stateAfter, ih]; exact policy_enforce

end Pipeline

/-! ## A small engine

Parameters and inputs on which a run can be computed: a pack that allows every
tool, and requests without arguments. -/

namespace Sample

/-- Every glob matches. -/
scoped instance : Globset := ⟨fun _ => some (fun _ => true)⟩

/-- No text holds anything a pattern would replace. -/
scoped instance : TextTools := ⟨fun _ => some (fun input _ => input), String.toLower⟩

/-- A pack that allows every tool. -/
def pack (budget : Option (BudgetConfig ℚ)) (loopDetection : Option LoopDetectionConfig) :
    Policy ℚ where
  schemaVersion := 1
  name := none
  description := none
  agentRole := none
  environment := none
  rules := [⟨"allow-all", .allow, none, none, none, none, none, none, none⟩]
  budget := budget
  loopDetection := loopDetection
  redaction := none

/-- The pack compiled: its rule names no tool and no pattern. -/
def compiled (budget : Option (BudgetConfig ℚ)) (loopDetection : Option LoopDetectionConfig) :
    CompiledPolicy ℚ :=
  ⟨pack budget loopDetection, (pack budget loopDetection).rules.map (fun rule => ⟨rule, none⟩)⟩

theorem validateAndCompile_pack (budget : Option (BudgetConfig ℚ))
    (loopDetection : Option LoopDetectionConfig) :
    (pack budget loopDetection).validateAndCompile = .ok (compiled budget loopDetection) := rfl

/-- A budget that caps input tokens. -/
def tokenBudget (hard : UInt64) : BudgetConfig ℚ := ⟨none, some ⟨none, hard⟩, none, none⟩

/-- A call whose writes go through, `now` nanoseconds after the engine's start. -/
def call (runId tool : String) (seq : UInt64) (inputTokens : Option UInt64) (now : Nat) :
    Call ℚ where
  request :=
    { schemaVersion := 1
      runId := runId
      seq := seq
      tool := tool
      argsHash := "0"
      argsRedacted := none
      agentRole := none
      agentName := none
      model := none
      inputTokens := inputTokens
      outputTokens := none
      estimatedCostUsd := none
      environment := none
      ts := "" }
  env :=
    { start := now
      checkNow := now
      latencyMs := 0
      evaluateTs := ""
      recordTs := ""
      eventTs := ""
      failureTs := ""
      warningTs := ""
      decisionIo := .ok
      warningIo := .ok }

end Sample

end LoopStorm.Engine
