import LoopStorm.Engine.Log
import LoopStorm.Engine.Serving

/-!
# The life of an engine

`run_server_with_shutdown`, `accept_loop` and `write_system_event` of
`apps/engine/src/server.rs` around the handlers of the connections: the main
task, the accept loop and every handler take their steps in any order, and all
of them write to the one audit log.

* `Life`, `Life.step` — the server with its main task, the accept loop, and what
  has been handed to the audit log.
* `auditWriter_exec` — the log is what has been handed over, in that order.
* `stops_cleanly` — **nothing after the end**: in every run in which all handlers
  are done when `engine_stopped` is written.
* `keys_nodup_iff` — exactly when no two events carry the same run and number.
-/

namespace LoopStorm.Engine

variable {F : Type} [Float64 F]

/-! ## The machine -/

/-- Where the main task is. -/
inductive MainPhase where
  /-- the listener is being bound -/
  | binding
  /-- waiting for the shutdown signal -/
  | serving
  /-- waiting for the accept loop -/
  | draining
  /-- about to write `engine_stopped` -/
  | stopping
  | stopped
  deriving DecidableEq

/-- The server, its main task and its accept loop. -/
structure Life (F : Type) [Float64 F] where
  server : Server F
  phase : MainPhase
  /-- The accept loop is running. -/
  accepting : Bool
  /-- The connections that have a handler. -/
  accepted : List Nat
  /-- All that has been handed to the audit log, and what has become of it. -/
  log : List (AuditEvent F × WriteIo)

/-- An engine that has just been called. -/
def Life.start (ctx : EnforcementContext F) : Life F :=
  ⟨.start ctx, .binding, false, [], []⟩

/-- What may happen in the life of an engine. -/
inductive LifeEvent (F : Type) [Float64 F] where
  /-- `engine_started` is written, and the accept loop spawned -/
  | started (ts : String) (io : WriteIo)
  /-- the accept loop accepts a connection and spawns its handler -/
  | accept (i : Nat)
  | server (event : ServerEvent F)
  /-- the shutdown signal resolves -/
  | signal
  /-- the accept loop sees the signal -/
  | acceptEnded
  /-- the main task has waited for the accept loop, or five seconds -/
  | drained (timedOut : Bool)
  /-- `engine_stopped` is written -/
  | stopped (ts : String) (io : WriteIo)

/-- The event `write_system_event` writes. -/
def systemEvent (runStatus ts : String) : AuditEvent F where
  schemaVersion := 1
  eventType := "system_event"
  runId := "engine"
  seq := 0
  hash := none
  hashPrev := none
  ts := ts
  tool := none
  argsHash := none
  argsRedacted := none
  decision := none
  ruleId := none
  reason := none
  agentName := none
  agentRole := none
  model := none
  inputTokens := none
  outputTokens := none
  estimatedCostUsd := none
  environment := none
  runStatus := some runStatus
  dimension := none
  loopRule := none
  loopAction := none
  cooldownMs := none
  budget := none
  latencyMs := none
  policyPackId := none
  callSeqFingerprint := none
  interCallMs := none
  tokenRateDelta := none
  paramShapeHash := none

/-- The connection whose handler takes the step; `none` when its peer does. -/
def ServerEvent.handler : ServerEvent F → Option Nat
  | .conn _ (.send _) | .conn _ .hangUp => none
  | .conn i _ | .enforce i _ => some i

section Machine

variable [Globset] [TextTools] [Sha256] [RequestReader F]

/-- Write a `system_event` audit entry with the given `run_status`. -/
def Life.writeSystemEvent (s : Life F) (runStatus ts : String) (io : WriteIo) : Life F :=
  let event := systemEvent runStatus ts
  { s with
    server := { s.server with
      ctx := { s.server.ctx with
        auditWriter := (s.server.ctx.auditWriter.writeEvent event io).2 } }
    log := s.log ++ [(event, io)] }

/-- What a step of the server hands to the log. -/
def Life.handed (s : Life F) : ServerEvent F → List (AuditEvent F × WriteIo)
  | .enforce i env =>
    match (s.server.conns i).phase with
    | .requesting request => submitted request env s.server.ctx
    | _ => []
  | .conn .. => []

/-- A step in the life of an engine; `none` when it cannot be taken. -/
def Life.step (s : Life F) : LifeEvent F → Option (Life F)
  | .started ts io =>
    if s.phase = .binding then
      some { s.writeSystemEvent "engine_started" ts io with phase := .serving, accepting := true }
    else none
  | .accept i =>
    if s.accepting && i ∉ s.accepted then some { s with accepted := s.accepted ++ [i] } else none
  | .server event =>
    if event.handler.all (· ∈ s.accepted) then
      (s.server.step event).map fun server =>
        { s with server := server, log := s.log ++ s.handed event }
    else none
  | .signal => if s.phase = .serving then some { s with phase := .draining } else none
  | .acceptEnded =>
    if s.accepting && s.phase ∉ [.binding, .serving] then some { s with accepting := false }
    else none
  | .drained timedOut =>
    if s.phase = .draining ∧ (timedOut = true ∨ s.accepting = false) then
      some { s with phase := .stopping }
    else none
  | .stopped ts io =>
    if s.phase = .stopping then
      some { s.writeSystemEvent "engine_stopped" ts io with phase := .stopped }
    else none

variable {ctx : EnforcementContext F} {s t : Life F}

/-- What a step can do: only a handler that has a request hands its events to
the log, and otherwise only the main task writes. -/
inductive Life.Moves (s : Life F) : LifeEvent F → Life F → Prop
  | started (ts : String) (io : WriteIo) (h : s.phase = .binding) :
    Moves s (.started ts io)
      { s.writeSystemEvent "engine_started" ts io with phase := .serving, accepting := true }
  | accept (i : Nat) (h : s.accepting = true) :
    Moves s (.accept i) { s with accepted := s.accepted ++ [i] }
  | conn (i : Nat) (event : ConnEvent) {c : Conn F} (hc : (s.server.conns i).step event = some c)
    (h : (ServerEvent.conn (F := F) i event).handler.all (· ∈ s.accepted) = true) :
    Moves s (.server (.conn i event))
      { s with server := { s.server with conns := Function.update s.server.conns i c } }
  | enforce (i : Nat) (env : CallEnv F) {request : DecisionRequest F}
    (hphase : (s.server.conns i).phase = .requesting request) (h : i ∈ s.accepted) :
    Moves s (.server (.enforce i env))
      { s with
        server := s.server.afterEnforce i request env
        log := s.log ++ submitted request env s.server.ctx }
  | signal (h : s.phase = .serving) : Moves s .signal { s with phase := .draining }
  | acceptEnded (h : s.accepting = true) (hphase : s.phase ≠ .binding) :
    Moves s .acceptEnded { s with accepting := false }
  | drained (timedOut : Bool) (h : s.phase = .draining) :
    Moves s (.drained timedOut) { s with phase := .stopping }
  | stopped (ts : String) (io : WriteIo) (h : s.phase = .stopping) :
    Moves s (.stopped ts io)
      { s.writeSystemEvent "engine_stopped" ts io with phase := .stopped }

theorem Life.moves_of_step {e : LifeEvent F} (h : s.step e = some t) : s.Moves e t := by
  cases e with
  | started ts io =>
    rw [Life.step, Option.ite_none_right_eq_some] at h
    obtain ⟨hphase, h⟩ := h
    obtain rfl := Option.some.inj h
    exact .started ts io hphase
  | accept i =>
    rw [Life.step, Option.ite_none_right_eq_some, Bool.and_eq_true] at h
    obtain ⟨⟨haccepting, -⟩, h⟩ := h
    obtain rfl := Option.some.inj h
    exact .accept i haccepting
  | server event =>
    rw [Life.step, Option.ite_none_right_eq_some, Option.map_eq_some_iff] at h
    obtain ⟨hhandler, server, hserver, rfl⟩ := h
    cases event with
    | conn i event =>
      rw [Server.step, Option.map_eq_some_iff] at hserver
      obtain ⟨c, hc, rfl⟩ := hserver
      have hlog : s.log ++ s.handed (.conn i event) = s.log := List.append_nil _
      rw [hlog]
      exact .conn i event hc hhandler
    | enforce i env =>
      rw [Server.step] at hserver
      split at hserver
      case h_1 request hphase =>
        obtain rfl := Option.some.inj hserver
        have hhanded : s.handed (.enforce i env) = submitted request env s.server.ctx := by
          rw [Life.handed, hphase]
        rw [hhanded]
        exact .enforce i env hphase (by simpa [ServerEvent.handler] using hhandler)
      case h_2 => cases hserver
  | signal =>
    rw [Life.step, Option.ite_none_right_eq_some] at h
    obtain ⟨hphase, h⟩ := h
    obtain rfl := Option.some.inj h
    exact .signal hphase
  | acceptEnded =>
    rw [Life.step, Option.ite_none_right_eq_some, Bool.and_eq_true] at h
    obtain ⟨⟨haccepting, hphase⟩, h⟩ := h
    obtain rfl := Option.some.inj h
    refine .acceptEnded haccepting fun hbinding => ?_
    rw [hbinding] at hphase
    simp at hphase
  | drained timedOut =>
    rw [Life.step, Option.ite_none_right_eq_some] at h
    obtain ⟨⟨hphase, -⟩, h⟩ := h
    obtain rfl := Option.some.inj h
    exact .drained timedOut hphase
  | stopped ts io =>
    rw [Life.step, Option.ite_none_right_eq_some] at h
    obtain ⟨hphase, h⟩ := h
    obtain rfl := Option.some.inj h
    exact .stopped ts io hphase

/-! ## The log -/

omit [Globset] [TextTools] [RequestReader F] in
theorem handOver_append (w : AuditWriter) (es ds : List (AuditEvent F × WriteIo)) :
    w.handOver (es ++ ds) = (w.handOver es).handOver ds := List.foldl_append ..

/-- What a step hands over reaches the writer. -/
theorem auditWriter_step {e : LifeEvent F} (hstep : s.step e = some t) :
    ∃ handed, t.log = s.log ++ handed ∧
      t.server.ctx.auditWriter = s.server.ctx.auditWriter.handOver handed := by
  cases Life.moves_of_step hstep with
  | started ts io hphase => exact ⟨[(_, io)], rfl, rfl⟩
  | accept i haccepting => exact ⟨[], (List.append_nil _).symm, rfl⟩
  | conn i event hc hhandler => exact ⟨[], (List.append_nil _).symm, rfl⟩
  | @enforce i env request hphase haccepted =>
    exact ⟨submitted request env s.server.ctx, rfl, auditWriter_submitted⟩
  | signal hphase => exact ⟨[], (List.append_nil _).symm, rfl⟩
  | acceptEnded haccepting hphase => exact ⟨[], (List.append_nil _).symm, rfl⟩
  | drained timedOut hphase => exact ⟨[], (List.append_nil _).symm, rfl⟩
  | stopped ts io hphase => exact ⟨[(_, io)], rfl, rfl⟩

/-- The log is what has been handed over, in that order. -/
theorem auditWriter_exec {events : List (LifeEvent F)}
    (hrun : Run.exec Life.step (Life.start ctx) events = some s) :
    s.server.ctx.auditWriter = ctx.auditWriter.handOver s.log := by
  have hstep : ∀ (s : Life F) (e : LifeEvent F) (t : Life F),
      s.server.ctx.auditWriter = ctx.auditWriter.handOver s.log → True → s.step e = some t →
      t.server.ctx.auditWriter = ctx.auditWriter.handOver t.log := by
    intro s e t h _ hstep
    obtain ⟨handed, hlog, hwriter⟩ := auditWriter_step hstep
    rw [hwriter, hlog, handOver_append, h]
  exact Run.exec_invariant Life.step (C := fun _ _ => True) hstep rfl
    (Run.AllEvents.of_mem Life.step (fun _ _ _ => trivial) _) hrun

/-! ## The end of the log -/

/-- The handler of a connection has returned, or is writing its last answer. -/
def Conn.Retired (c : Conn F) : Prop :=
  c.phase = .closed ∨ ∃ response, c.phase = .responding response true

omit [Globset] [TextTools] [Sha256] in
theorem Conn.Retired.step {c d : Conn F} {e : ConnEvent} (h : c.Retired)
    (hstep : c.step e = some d) : d.Retired := by
  cases e with
  | send bytes =>
    rw [Conn.step] at hstep
    split at hstep
    · cases hstep
    · obtain rfl := Option.some.inj hstep
      exact h
  | hangUp =>
    obtain rfl := Option.some.inj hstep
    exact h
  | fill n =>
    rcases h with h | ⟨response, h⟩
    · rw [Conn.step, h] at hstep
      cases hstep
    · rw [Conn.step, h] at hstep
      cases hstep
  | scan ts =>
    rcases h with h | ⟨response, h⟩
    · rw [Conn.step, h] at hstep
      cases hstep
    · rw [Conn.step, h] at hstep
      cases hstep
  | respond =>
    rcases h with h | ⟨response, h⟩
    · rw [Conn.step, h] at hstep
      cases hstep
    · rw [Conn.step, h] at hstep
      obtain rfl := Option.some.inj hstep
      exact .inl rfl

/-- The event that ends the log. -/
def AuditEvent.IsStopped (e : AuditEvent F) : Prop :=
  e.eventType = "system_event" ∧ e.runStatus = some "engine_stopped"

/-- When `engine_stopped` is written the accept loop has ended and no handler
can take the lock again. -/
def Quiesced (s : Life F) : LifeEvent F → Prop
  | .stopped .. => s.accepting = false ∧ ∀ i ∈ s.accepted, (s.server.conns i).Retired
  | _ => True

omit [Globset] [TextTools] [Sha256] [RequestReader F] in
theorem not_isStopped_decisionEvent {request : DecisionRequest F} {policy : CompiledPolicy F}
    {redactedArgs : Option (Value F)} {response : DecisionResponse F} {bt : TelemetryFields F}
    {env : CallEnv F} :
    ¬ (decisionEvent request policy redactedArgs response bt env).IsStopped := by
  rintro ⟨htype, -⟩
  have hne : "policy_decision" ≠ "system_event" := by decide
  exact hne htype

omit [Globset] [TextTools] [Sha256] [RequestReader F] in
theorem not_isStopped_warningEvent {request : DecisionRequest F} {dimension ts : String}
    {current cap : F} : ¬ (warningEvent request dimension current cap ts).IsStopped := by
  rintro ⟨htype, -⟩
  have hne : "budget_soft_cap_warning" ≠ "system_event" := by decide
  exact hne htype

omit [RequestReader F] in
/-- A call hands over no such event, and one decision event. -/
theorem submitted_spec (request : DecisionRequest F) (env : CallEnv F)
    (ctx : EnforcementContext F) :
    (∀ e ∈ submitted request env ctx, ¬ e.1.IsStopped) ∧
      ((submitted request env ctx).filter fun e => e.1.isDecision).map (fun e => e.1.key) =
        [request.key] := by
  unfold submitted
  cases (ctx.budgetTracker.record request.runId request.update ctx.policy.policy.budget).1 with
  | ok =>
    refine ⟨fun e he => ?_, rfl⟩
    rw [List.mem_singleton.1 he]
    exact not_isStopped_decisionEvent
  | hardCapExceeded dimension current cap =>
    refine ⟨fun e he => ?_, rfl⟩
    rw [List.mem_singleton.1 he]
    exact not_isStopped_decisionEvent
  | softCapWarning dimension current cap =>
    dsimp only
    split
    · refine ⟨fun e he => ?_, rfl⟩
      rcases List.mem_cons.1 he with rfl | he
      · exact not_isStopped_decisionEvent
      · rw [List.mem_singleton.1 he]
        exact not_isStopped_warningEvent
    · refine ⟨fun e he => ?_, rfl⟩
      rw [List.mem_singleton.1 he]
      exact not_isStopped_decisionEvent

/-- What holds of every state of a run whose end is quiet. -/
structure Life.Inv (s : Life F) : Prop where
  running : s.phase ≠ .stopped → ∀ e ∈ s.log, ¬ e.1.IsStopped
  stopped : s.phase = .stopped → s.accepting = false ∧
    (∀ i ∈ s.accepted, (s.server.conns i).Retired) ∧
    ∃ before last, s.log = before ++ [last] ∧ ∀ e ∈ before, ¬ e.1.IsStopped
  decisions : (s.log.filter fun e => e.1.isDecision).map (fun e => e.1.key) =
    s.server.calls.map fun c => c.2.request.key

omit [Globset] [TextTools] [Sha256] [RequestReader F] in
theorem Life.inv_start : (Life.start ctx).Inv where
  running _ e he := absurd he List.not_mem_nil
  stopped h := by cases h
  decisions := rfl

theorem Life.Inv.step {e : LifeEvent F} (h : s.Inv) (hquiet : Quiesced s e)
    (hstep : s.step e = some t) : t.Inv := by
  cases Life.moves_of_step hstep with
  | started ts io hphase =>
    have hrunning := h.running (by rw [hphase]; decide)
    constructor
    · intro _ e he
      rcases List.mem_append.1 he with he | he
      · exact hrunning e he
      · rw [List.mem_singleton.1 he]
        exact fun hstopped => absurd hstopped.2 (by simp [systemEvent])
    · intro hstopped
      cases hstopped
    · show ((s.log ++ [_]).filter _).map _ = _
      rw [List.filter_append, List.map_append, h.decisions]
      exact List.append_nil _
  | accept i haccepting =>
    refine ⟨h.running, fun hstopped => ?_, h.decisions⟩
    obtain ⟨hnot, -⟩ := h.stopped hstopped
    rw [haccepting] at hnot
    cases hnot
  | @conn i event c hc hhandler =>
    refine ⟨h.running, fun hstopped => ?_, h.decisions⟩
    obtain ⟨hnot, hretired, hlog⟩ := h.stopped hstopped
    refine ⟨hnot, fun j hj => ?_, hlog⟩
    show (Function.update s.server.conns i c j).Retired
    by_cases hji : j = i
    · subst hji
      rw [Function.update_self]
      exact (hretired j hj).step hc
    · rw [Function.update_of_ne hji]
      exact hretired j hj
  | @enforce i env request hphase haccepted =>
    obtain ⟨hnone, hkey⟩ := submitted_spec request env s.server.ctx
    have hne : s.phase ≠ .stopped := by
      intro hstopped
      obtain ⟨-, hretired, -⟩ := h.stopped hstopped
      rcases hretired i haccepted with hclosed | ⟨response, hlast⟩
      · rw [hphase] at hclosed
        cases hclosed
      · rw [hphase] at hlast
        cases hlast
    refine ⟨fun _ e he => ?_, fun hstopped => absurd hstopped hne, ?_⟩
    · rcases List.mem_append.1 he with he | he
      · exact h.running hne e he
      · exact hnone e he
    · show ((s.log ++ submitted request env s.server.ctx).filter _).map _ =
        (s.server.calls ++ [_]).map _
      rw [List.filter_append, List.map_append, List.map_append, h.decisions, hkey]
      rfl
  | signal hphase =>
    refine ⟨fun _ => h.running (by rw [hphase]; decide), fun hstopped => ?_, h.decisions⟩
    cases hstopped
  | acceptEnded haccepting hphase =>
    refine ⟨h.running, fun hstopped => ?_, h.decisions⟩
    obtain ⟨-, hrest⟩ := h.stopped hstopped
    exact ⟨rfl, hrest⟩
  | drained timedOut hphase =>
    refine ⟨fun _ => h.running (by rw [hphase]; decide), fun hstopped => ?_, h.decisions⟩
    cases hstopped
  | stopped ts io hphase =>
    have hrunning := h.running (by rw [hphase]; decide)
    refine ⟨fun hne => absurd rfl hne, fun _ => ⟨hquiet.1, hquiet.2, s.log, _, rfl, hrunning⟩, ?_⟩
    show ((s.log ++ [_]).filter _).map _ = _
    rw [List.filter_append, List.map_append, h.decisions]
    exact List.append_nil _

/-- **Nothing after the end.**  In every run in which the accept loop has ended
and every handler is done when `engine_stopped` is written, no event follows it
in the log, and every request that is ever enforced has its decision event in
front of it. -/
theorem stops_cleanly {events : List (LifeEvent F)}
    (hrun : Run.exec Life.step (Life.start ctx) events = some s)
    (hquiet : Run.AllEvents Life.step Quiesced (Life.start ctx) events)
    {before after : List (AuditEvent F × WriteIo)} {e : AuditEvent F × WriteIo}
    (hlog : s.log = before ++ e :: after) (hstopped : e.1.IsStopped) :
    after = [] ∧ ∀ c ∈ s.server.calls,
      ∃ d ∈ before, d.1.isDecision = true ∧ d.1.key = c.2.request.key := by
  have hinv : s.Inv := Run.exec_invariant Life.step (fun _ _ _ h hq hstep => h.step hq hstep)
    Life.inv_start hquiet hrun
  have hmem : e ∈ s.log := by
    rw [hlog]
    exact List.mem_append_right _ (List.mem_cons_self ..)
  have hphase : s.phase = .stopped := by
    by_contra hne
    exact hinv.running hne e hmem hstopped
  obtain ⟨-, -, first, last, hfirst, hnone⟩ := hinv.stopped hphase
  rw [hlog] at hfirst
  have hafter : after = [] := by
    rcases List.eq_nil_or_concat after with hnil | ⟨init, x, rfl⟩
    · exact hnil
    · have hsplit : (before ++ e :: init) ++ [x] = first ++ [last] := by
        rw [← hfirst]
        simp
      have hinit := (List.append_inj' hsplit rfl).1
      refine absurd hstopped (hnone e ?_)
      rw [← hinit]
      exact List.mem_append_right _ (List.mem_cons_self ..)
  refine ⟨hafter, fun c hc => ?_⟩
  have hkey : c.2.request.key ∈ s.server.calls.map fun c => c.2.request.key :=
    List.mem_map_of_mem hc
  rw [← hinv.decisions, hlog, hafter] at hkey
  obtain ⟨d, hd, hdkey⟩ := List.mem_map.1 hkey
  obtain ⟨hd, hdecision⟩ := List.mem_filter.1 hd
  refine ⟨d, ?_, hdecision, hdkey⟩
  rcases List.mem_append.1 hd with hd | hd
  · exact hd
  · rw [List.mem_singleton.1 hd, AuditEvent.isDecision, hstopped.1] at hdecision
    exact absurd hdecision (by decide)

/-! ## Runs and numbers -/

/-- The requests of every run come with increasing numbers. -/
def SeqIncreasing (calls : List (Call F)) : Prop :=
  calls.Pairwise fun c d => c.request.runId = d.request.runId → c.request.seq < d.request.seq

/-- The runs and numbers of the events of some calls. -/
def keysOf (ctx : EnforcementContext F) : List (Call F) → List (String × UInt64)
  | [] => []
  | c :: cs =>
    (submitted c.request c.env ctx).map (fun e => e.1.key) ++ keysOf (process ctx c).1 cs

omit [RequestReader F] in
theorem keysOf_concat (ctx : EnforcementContext F) (cs : List (Call F)) (c : Call F) :
    keysOf ctx (cs ++ [c]) = keysOf ctx cs ++
      (submitted c.request c.env (Run.stateAfter process ctx cs)).map (fun e => e.1.key) := by
  induction cs generalizing ctx with
  | nil => exact List.append_nil _
  | cons d cs ih =>
    rw [List.cons_append, keysOf, ih, keysOf, List.append_assoc]
    rfl

omit [RequestReader F] in
/-- The events of a call carry its run and number. -/
theorem mem_keys_submitted {request : DecisionRequest F} {env : CallEnv F}
    {ctx : EnforcementContext F} {k : String × UInt64} :
    k ∈ (submitted request env ctx).map (fun e => e.1.key) ↔ k = request.key := by
  by_cases h : Warns request env ctx
  · rw [keys_submitted_of_warns h]
    simp
  · rw [keys_submitted_of_not_warns h]
    simp

omit [RequestReader F] in
theorem mem_keysOf {ctx : EnforcementContext F} {cs : List (Call F)} {k : String × UInt64} :
    k ∈ keysOf ctx cs ↔ ∃ c ∈ cs, c.request.key = k := by
  induction cs generalizing ctx with
  | nil => simp [keysOf]
  | cons c cs ih =>
    rw [keysOf, List.mem_append, mem_keys_submitted, ih]
    simp [eq_comm]

omit [RequestReader F] in
/-- Calls in order never share a run and a number, so that only a warning does
with its decision event. -/
theorem nodup_keysOf_iff {ctx : EnforcementContext F} {cs : List (Call F)}
    (hincreasing : SeqIncreasing cs) :
    (keysOf ctx cs).Nodup ↔ ∀ before c after, cs = before ++ c :: after →
      ¬ Warns c.request c.env (Run.stateAfter process ctx before) := by
  induction cs generalizing ctx with
  | nil => simp [keysOf]
  | cons c cs ih =>
    rw [SeqIncreasing, List.pairwise_cons] at hincreasing
    obtain ⟨hfirst, hrest⟩ := hincreasing
    have hdisjoint : ∀ k ∈ (submitted c.request c.env ctx).map (fun e => e.1.key),
        k ∉ keysOf (process ctx c).1 cs := by
      intro k hk hmem
      rw [mem_keys_submitted] at hk
      obtain ⟨d, hd, hdkey⟩ := mem_keysOf.1 hmem
      obtain ⟨hrun, hseq⟩ := Prod.mk.inj (hk.symm.trans hdkey.symm)
      have hlt := hfirst d hd hrun
      rw [hseq] at hlt
      exact absurd hlt (UInt64.lt_irrefl _)
    have hself : ((submitted c.request c.env ctx).map (fun e => e.1.key)).Nodup ↔
        ¬ Warns c.request c.env ctx := by
      by_cases h : Warns c.request c.env ctx
      · rw [keys_submitted_of_warns h]
        simp [h]
      · rw [keys_submitted_of_not_warns h]
        simp [h]
    rw [keysOf, List.nodup_append', hself, ih hrest]
    constructor
    · rintro ⟨hc, hcs, -⟩ before d after hsplit
      rcases List.cons_eq_append_iff.1 hsplit with ⟨rfl, hd⟩ | ⟨before', rfl, hcs'⟩
      · obtain ⟨rfl, rfl⟩ := List.cons.inj hd
        exact hc
      · exact hcs before' d after hcs'
    · intro h
      refine ⟨h [] c cs rfl, fun before d after hsplit => ?_, fun k hk => hdisjoint k hk⟩
      exact h (c :: before) d after (by rw [hsplit, List.cons_append])

/-- How many system events have been written. -/
def MainPhase.systemEvents : MainPhase → Nat
  | .binding => 0
  | .serving | .draining | .stopping => 1
  | .stopped => 2

/-- What holds of the budgets, and of the runs and numbers in the log. -/
structure Life.Keys (ctx : EnforcementContext F) (s : Life F) : Prop where
  policy : s.server.ctx.policy = ctx.policy
  budgets : s.server.ctx.budgetTracker =
    (Run.stateAfter process ctx (s.server.calls.map Prod.snd)).budgetTracker
  idle : s.phase = .binding → s.accepted = [] ∧ s.server.calls = [] ∧ s.accepting = false
  log : (s.log.map fun e => e.1.key).Perm
    (List.replicate s.phase.systemEvents ("engine", 0) ++
      keysOf ctx (s.server.calls.map Prod.snd))

omit [RequestReader F] in
theorem keys_submitted_congr {request : DecisionRequest F} {env : CallEnv F}
    {ctx ctx' : EnforcementContext F} (hpolicy : ctx.policy = ctx'.policy)
    (hbudgets : ctx.budgetTracker = ctx'.budgetTracker) :
    (submitted request env ctx).map (fun e => e.1.key) =
      (submitted request env ctx').map (fun e => e.1.key) := by
  have hwarns : Warns request env ctx ↔ Warns request env ctx' := by
    rw [Warns, Warns, totalsAfter, totalsAfter, hpolicy, hbudgets]
  by_cases h : Warns request env ctx
  · rw [keys_submitted_of_warns h, keys_submitted_of_warns (hwarns.1 h)]
  · rw [keys_submitted_of_not_warns h, keys_submitted_of_not_warns (mt hwarns.2 h)]

omit [RequestReader F] in
theorem Life.keys_start : (Life.start ctx).Keys ctx where
  policy := rfl
  budgets := rfl
  idle _ := ⟨rfl, rfl, rfl⟩
  log := .nil

omit [Globset] [TextTools] [Sha256] in
/-- One more system event. -/
theorem perm_concat_replicate {α : Type} {k : α} {n : Nat} {ks cs : List α}
    (h : ks.Perm (List.replicate n k ++ cs)) :
    (ks ++ [k]).Perm (List.replicate (n + 1) k ++ cs) :=
  (List.perm_append_singleton k ks).trans (h.cons k)

theorem Life.Keys.step {e : LifeEvent F} (h : s.Keys ctx) (hstep : s.step e = some t) :
    t.Keys ctx := by
  cases Life.moves_of_step hstep with
  | started ts io hphase =>
    refine ⟨h.policy, h.budgets, fun hbinding => ?_, ?_⟩
    · cases hbinding
    · have hlog := h.log
      rw [hphase] at hlog
      show ((s.log ++ [_]).map _).Perm _
      rw [List.map_append]
      exact perm_concat_replicate hlog
  | accept i haccepting =>
    refine ⟨h.policy, h.budgets, fun hbinding => ?_, h.log⟩
    have hnot := (h.idle hbinding).2.2
    rw [haccepting] at hnot
    cases hnot
  | conn i event hc hhandler => exact ⟨h.policy, h.budgets, h.idle, h.log⟩
  | @enforce i env request hphase haccepted =>
    have hpolicy : s.server.ctx.policy =
        (Run.stateAfter process ctx (s.server.calls.map Prod.snd)).policy := by
      rw [policy_stateAfter, h.policy]
    refine ⟨policy_enforce.trans h.policy, ?_, fun hbinding => ?_, ?_⟩
    · show (enforce request env s.server.ctx).2.budgetTracker =
        (Run.stateAfter process ctx ((s.server.calls ++ [_]).map Prod.snd)).budgetTracker
      rw [List.map_append, List.map_singleton, Run.stateAfter_concat, process,
        budgetTracker_enforce, budgetTracker_enforce, h.budgets, hpolicy]
    · have hnone := (h.idle hbinding).1
      rw [hnone] at haccepted
      cases haccepted
    · show ((s.log ++ submitted request env s.server.ctx).map _).Perm
        (_ ++ keysOf ctx ((s.server.calls ++ [_]).map Prod.snd))
      rw [List.map_append, List.map_append, List.map_singleton, keysOf_concat,
        ← List.append_assoc, keys_submitted_congr hpolicy h.budgets]
      exact h.log.append_right _
  | signal hphase =>
    refine ⟨h.policy, h.budgets, fun hbinding => ?_, ?_⟩
    · cases hbinding
    · have hlog := h.log
      rw [hphase] at hlog
      exact hlog
  | acceptEnded haccepting hphase =>
    exact ⟨h.policy, h.budgets, fun hbinding => absurd hbinding hphase, h.log⟩
  | drained timedOut hphase =>
    refine ⟨h.policy, h.budgets, fun hbinding => ?_, ?_⟩
    · cases hbinding
    · have hlog := h.log
      rw [hphase] at hlog
      exact hlog
  | stopped ts io hphase =>
    refine ⟨h.policy, h.budgets, fun hbinding => ?_, ?_⟩
    · cases hbinding
    · have hlog := h.log
      rw [hphase] at hlog
      show ((s.log ++ [_]).map _).Perm _
      rw [List.map_append]
      exact perm_concat_replicate hlog

omit [Globset] [TextTools] [Sha256] in
/-- A key so many times in front of others, none of them twice. -/
theorem nodup_replicate_append {α : Type} {k : α} {n : Nat} {ks : List α} :
    (List.replicate n k ++ ks).Nodup ↔ n ≤ 1 ∧ (n = 1 → k ∉ ks) ∧ ks.Nodup := by
  match n with
  | 0 => simp
  | 1 => simp [List.nodup_cons]
  | m + 2 => simp [List.replicate_succ]

/-- **Every key once.**  In every run whose requests come with increasing
numbers, no two events in the log carry the same run and number exactly as long
as `engine_stopped` has not been written, no request has taken the key of
`engine_started`, and no call has been warned of a soft cap. -/
theorem keys_nodup_iff {events : List (LifeEvent F)}
    (hrun : Run.exec Life.step (Life.start ctx) events = some s)
    (hincreasing : SeqIncreasing (s.server.calls.map Prod.snd)) :
    (s.log.map fun e => e.1.key).Nodup ↔
      s.phase ≠ .stopped ∧ (∀ c ∈ s.server.calls, c.2.request.key ≠ ("engine", 0)) ∧
        ∀ before c after, s.server.calls.map Prod.snd = before ++ c :: after →
          ¬ Warns c.request c.env (Run.stateAfter process ctx before) := by
  have hkeys : s.Keys ctx := Run.exec_invariant Life.step (C := fun _ _ => True)
    (fun _ _ _ h _ hstep => h.step hstep) Life.keys_start
    (Run.AllEvents.of_mem Life.step (fun _ _ _ => trivial) _) hrun
  rw [hkeys.log.nodup_iff, nodup_replicate_append, nodup_keysOf_iff hincreasing]
  have hnot : ("engine", 0) ∉ keysOf ctx (s.server.calls.map Prod.snd) ↔
      ∀ c ∈ s.server.calls, c.2.request.key ≠ ("engine", 0) := by
    rw [mem_keysOf]
    constructor
    · exact fun h c hc hkey => h ⟨c.2, List.mem_map_of_mem hc, hkey⟩
    · rintro h ⟨c, hc, hkey⟩
      obtain ⟨p, hp, rfl⟩ := List.mem_map.1 hc
      exact h p hp hkey
  cases hphase : s.phase with
  | binding =>
    have hcalls := (hkeys.idle hphase).2.1
    simp [MainPhase.systemEvents, hcalls]
  | serving => simp [MainPhase.systemEvents, hnot]
  | draining => simp [MainPhase.systemEvents, hnot]
  | stopping => simp [MainPhase.systemEvents, hnot]
  | stopped => simp [MainPhase.systemEvents]

end Machine

namespace Sample

/-- A budget that warns of every call. -/
def softBudget : BudgetConfig ℚ := ⟨none, none, none, some ⟨some 0, 100⟩⟩

/-- An engine under a budget, not started. -/
def engine (budget : Option (BudgetConfig ℚ)) : Life ℚ :=
  .start (.new (compiled budget none) "audit.jsonl" [])

/-- A request, sent and read. -/
def arrival : List (LifeEvent ℚ) :=
  [.started "" .ok, .accept 0, .server (.conn 0 (.send requestLine)),
    .server (.conn 0 (.fill 8192)), .server (.conn 0 (.scan ""))]

/-- It is enforced. -/
def enforcement : LifeEvent ℚ := .server (.enforce 0 (call "run" "search" 1 none 0).env)

/-- The connection ends. -/
def farewell : List (LifeEvent ℚ) :=
  [.server (.conn 0 .respond), .server (.conn 0 .hangUp), .server (.conn 0 (.fill 8192))]

/-- The engine is told to stop. -/
def shutdown : List (LifeEvent ℚ) := [.signal, .acceptEnded, .drained false]

/-- After `arrival` the handler holds the request. -/
theorem exec_arrival (budget : Option (BudgetConfig ℚ)) :
    ∃ s, Run.exec Life.step (engine budget) arrival = some s ∧
      s.phase = .serving ∧ s.accepting = true ∧ s.accepted = [0] ∧ s.server.calls = [] ∧
      (s.server.conns 0).phase = .requesting (call "run" "search" 1 none 0).request ∧
      (s.server.conns 0).buffered = [] ∧ (s.server.conns 0).unread = [] ∧
      s.server.ctx.policy = compiled budget none ∧ s.server.ctx.budgetTracker = .new ∧
      s.log = [(systemEvent "engine_started" "", .ok)] := by
  obtain ⟨hne, htake, hdrop, hread⟩ := read_requestLine
  simp [engine, arrival, Run.exec, Life.step, Server.step, Conn.step, Life.start, Server.start,
    Conn.accepted, Conn.scanned, Message.phase, hne, htake, hdrop, hread, receive_requestLine,
    Life.writeSystemEvent, ServerEvent.handler, Life.handed, EnforcementContext.new]

theorem exec_shutdown {s : Life ℚ} (hphase : s.phase = .serving) (haccepting : s.accepting = true) :
    Run.exec Life.step s shutdown = some { s with phase := .stopping, accepting := false } := by
  simp [shutdown, Run.exec, Life.step, hphase, haccepting]

/-- The engine after `enforcement`. -/
def enforced (s : Life ℚ) : Life ℚ :=
  { s with
    server := s.server.afterEnforce 0 (call "run" "search" 1 none 0).request
      (call "run" "search" 1 none 0).env
    log := s.log ++ submitted (call "run" "search" 1 none 0).request
      (call "run" "search" 1 none 0).env s.server.ctx }

theorem step_enforcement {s : Life ℚ}
    (hconn : (s.server.conns 0).phase = .requesting (call "run" "search" 1 none 0).request)
    (haccepted : s.accepted = [0]) : s.step enforcement = some (enforced s) := by
  simp [enforcement, enforced, Life.step, ServerEvent.handler, haccepted, Server.step, hconn,
    Life.handed]

/-- The handler has the answer. -/
theorem conn_enforced (s : Life ℚ) : ∃ response, (enforced s).server.conns 0 =
    { s.server.conns 0 with phase := .responding response false } :=
  ⟨_, Server.conns_afterEnforce_self ..⟩

/-- A call under no budget is not warned of one. -/
theorem not_warns {request : DecisionRequest ℚ} {env : CallEnv ℚ} {ctx : EnforcementContext ℚ}
    (hpolicy : ctx.policy = compiled none none) : ¬ Warns request env ctx := by
  rintro ⟨-, -, hsoft⟩
  rw [hpolicy] at hsoft
  cases hsoft

/-- A request that was read before the signal is enforced after the engine has
been stopped. -/
theorem stopped_too_early :
    ∃ s₁ s before e after, Run.exec Life.step (engine none) arrival = some s₁ ∧
      (s₁.server.conns 0).phase = .requesting (call "run" "search" 1 none 0).request ∧
      Run.exec Life.step s₁ (shutdown ++ [.stopped "" .ok, enforcement]) = some s ∧
      s.log = before ++ e :: after ∧ e.1.IsStopped ∧
      (after.map fun e => e.1.key) = [("run", 1)] := by
  obtain ⟨s₁, hs₁, hphase, haccepting, haccepted, -, hconn, -, -, hpolicy, -⟩ := exec_arrival none
  let s₂ : Life ℚ := { s₁ with phase := .stopping, accepting := false }
  let s₃ : Life ℚ := { s₂.writeSystemEvent "engine_stopped" "" .ok with phase := .stopped }
  have hs₂ : Run.exec Life.step s₁ shutdown = some s₂ := exec_shutdown hphase haccepting
  have hs₃ : s₂.step (.stopped "" .ok) = some s₃ := by
    simp [Life.step, s₂, s₃]
  have hrun : Run.exec Life.step s₁ (shutdown ++ [.stopped "" .ok, enforcement]) =
      some (enforced s₃) := by
    have hs₄ : s₃.step enforcement = some (enforced s₃) := step_enforcement hconn haccepted
    rw [Run.exec_append, hs₂, Option.bind_some, Run.exec, hs₃, Option.bind_some, Run.exec, hs₄]
    rfl
  have hlog : (enforced s₃).log = s₁.log ++ (systemEvent "engine_stopped" "", .ok) ::
      submitted (call "run" "search" 1 none 0).request (call "run" "search" 1 none 0).env
        s₃.server.ctx := by
    show (s₁.log ++ [_]) ++ _ = s₁.log ++ _
    rw [List.append_assoc]
    rfl
  exact ⟨s₁, _, _, _, _, hs₁, hconn, hrun, hlog, ⟨rfl, rfl⟩,
    keys_submitted_of_not_warns (not_warns hpolicy)⟩

theorem step_farewell {s : Life ℚ} {response : DecisionResponse ℚ}
    (hconn : (s.server.conns 0).phase = .responding response false) (haccepted : s.accepted = [0])
    (hbuffered : (s.server.conns 0).buffered = []) (hunread : (s.server.conns 0).unread = []) :
    ∃ t, Run.exec Life.step s farewell = some t ∧ t.phase = s.phase ∧ t.accepting = s.accepting ∧
      t.accepted = [0] ∧ (t.server.conns 0).phase = .closed ∧ t.server.calls = s.server.calls := by
  simp [farewell, Run.exec, Life.step, ServerEvent.handler, haccepted, Server.step, Conn.step,
    hconn, hbuffered, hunread]

/-- One request, served before the engine is stopped. -/
theorem stops_cleanly_served :
    ∃ s before last, Run.exec Life.step (engine none)
        ((arrival ++ enforcement :: farewell ++ shutdown) ++ [.stopped "" .ok]) = some s ∧
      s.log = before ++ [last] ∧ last.1.IsStopped ∧
      ∀ c ∈ s.server.calls, ∃ d ∈ before, d.1.isDecision = true ∧ d.1.key = c.2.request.key := by
  obtain ⟨s₁, hs₁, hphase, haccepting, haccepted, -, hconn, hbuffered, hunread, hpolicy, -⟩ :=
    exec_arrival none
  have hs₂ := step_enforcement hconn haccepted
  obtain ⟨response, hresponse⟩ := conn_enforced s₁
  obtain ⟨s₃, hs₃, hphase₃, haccepting₃, haccepted₃, hconn₃, -⟩ :=
    step_farewell (s := enforced s₁) (congrArg Conn.phase hresponse) haccepted
      ((congrArg Conn.buffered hresponse).trans hbuffered)
      ((congrArg Conn.unread hresponse).trans hunread)
  let s₄ : Life ℚ := { s₃ with phase := .stopping, accepting := false }
  let s₅ : Life ℚ := { s₄.writeSystemEvent "engine_stopped" "" .ok with phase := .stopped }
  have hs₄ : Run.exec Life.step s₃ shutdown = some s₄ :=
    exec_shutdown (hphase₃.trans hphase) (haccepting₃.trans haccepting)
  have hbefore : Run.exec Life.step (engine none) (arrival ++ enforcement :: farewell ++ shutdown) =
      some s₄ := by
    rw [Run.exec_append, Run.exec_append, hs₁, Option.bind_some, Run.exec, hs₂, Option.bind_some,
      hs₃, Option.bind_some, hs₄]
  have hs₅ : s₄.step (.stopped "" .ok) = some s₅ := by
    simp [Life.step, s₄, s₅]
  have hrun : Run.exec Life.step (engine none)
      ((arrival ++ enforcement :: farewell ++ shutdown) ++ [.stopped "" .ok]) = some s₅ := by
    rw [Run.exec_concat, hbefore, Option.bind_some, hs₅]
  have hquiet : Run.AllEvents Life.step Quiesced (engine none)
      ((arrival ++ enforcement :: farewell ++ shutdown) ++ [.stopped "" .ok]) := by
    rw [Run.allEvents_concat]
    refine ⟨Run.AllEvents.of_mem Life.step (fun e he s => ?_) _, fun t ht => ?_⟩
    · simp only [arrival, enforcement, farewell, shutdown, List.cons_append, List.nil_append,
        List.mem_cons, List.not_mem_nil, or_false] at he
      rcases he with rfl | rfl | rfl | rfl | rfl | rfl | rfl | rfl | rfl | rfl | rfl | rfl <;>
        trivial
    · obtain rfl := Option.some.inj (hbefore.symm.trans ht)
      refine ⟨rfl, fun i hi => .inl ?_⟩
      have hi : i ∈ s₃.accepted := hi
      rw [haccepted₃, List.mem_singleton] at hi
      rw [hi]
      exact hconn₃
  have hlog : s₅.log = s₃.log ++ (systemEvent "engine_stopped" "", .ok) :: [] := rfl
  exact ⟨s₅, s₃.log, _, hrun, hlog, ⟨rfl, rfl⟩,
    (stops_cleanly hrun hquiet hlog ⟨rfl, rfl⟩).2⟩

/-- One request under no budget: two events with keys of their own. -/
theorem keys_nodup_iff_served :
    ∃ s, Run.exec Life.step (engine none) (arrival ++ [enforcement]) = some s ∧
      (s.log.map fun e => e.1.key).Nodup := by
  obtain ⟨s₁, hs₁, hphase, -, haccepted, hcalls, hconn, -⟩ := exec_arrival none
  have hrun : Run.exec Life.step (engine none) (arrival ++ [enforcement]) = some (enforced s₁) := by
    rw [Run.exec_concat, hs₁, Option.bind_some, step_enforcement hconn haccepted]
  have hcalls' : (enforced s₁).server.calls = [(0, call "run" "search" 1 none 0)] := by
    show s₁.server.calls ++ [_] = _
    rw [hcalls]
    rfl
  have hincreasing : SeqIncreasing ((enforced s₁).server.calls.map Prod.snd) := by
    rw [hcalls']
    exact List.pairwise_singleton ..
  refine ⟨_, hrun, (keys_nodup_iff hrun hincreasing).2 ⟨?_, fun c hc => ?_, ?_⟩⟩
  · show s₁.phase ≠ .stopped
    rw [hphase]
    decide
  · rw [hcalls', List.mem_singleton] at hc
    rw [hc]
    decide
  · intro before c after hsplit
    exact not_warns (policy_stateAfter _ before)

/-- A warning shares its key with the decision event before it. -/
theorem warning_shares_key :
    ∃ s, Run.exec Life.step (engine (some softBudget)) (arrival ++ [enforcement]) = some s ∧
      SeqIncreasing (s.server.calls.map Prod.snd) ∧
      (s.log.map fun e => e.1.key) = [("engine", 0), ("run", 1), ("run", 1)] := by
  obtain ⟨s₁, hs₁, hphase, -, haccepted, hcalls, hconn, -, -, hpolicy, hbudget, hlog⟩ :=
    exec_arrival (some softBudget)
  have hrun : Run.exec Life.step (engine (some softBudget)) (arrival ++ [enforcement]) =
      some (enforced s₁) := by
    rw [Run.exec_concat, hs₁, Option.bind_some, step_enforcement hconn haccepted]
  have hwarns : Warns (call "run" "search" 1 none 0).request (call "run" "search" 1 none 0).env
      s₁.server.ctx := by
    rw [Warns, totalsAfter, hbudget, hpolicy]
    decide +kernel
  refine ⟨_, hrun, ?_, ?_⟩
  · show SeqIncreasing ((s₁.server.calls ++ [_]).map Prod.snd)
    rw [hcalls]
    exact List.pairwise_singleton ..
  · show ((s₁.log ++ _).map _) = _
    rw [List.map_append, keys_submitted_of_warns hwarns, hlog]
    rfl

end Sample

end LoopStorm.Engine
