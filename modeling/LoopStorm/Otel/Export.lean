import LoopStorm.Otel.JsonlReader
import LoopStorm.Otel.TraceLogs
import LoopStorm.Backend.Acceptance

/-!
# From the audit log to the spans

`bin/loopstorm-otel-export.ts`: the reader hands each event of the log to the buffer,
and what the buffer lets go of is sent, at the end of a run, after a while or when
the exporter stops.  Here it follows the log of an engine.

* `typed` — an event with the fields `types.ts` declares.
* `Exporter`, `Exporter.step` — the reader, the buffer and what has been sent.
* `Wired`, `exec_wired` — an exporter that is never killed calls its buffer with
  all the reader has handed on, in order.
* `events_logBytes` — the reader finds each event of the engine's log.
* `exports_log` — **from `enforce` to the spans**: of each run what has been sent
  is the start of its log, event by event, and all of it once the exporter has
  read to the end and stopped.
-/

namespace LoopStorm.Otel

open LoopStorm.Backend (JsStrings stringField numberField)
open LoopStorm.Engine (Sha256)
open TraceBuffer

/-! ## Events with types -/

/-- The names of the event types. -/
def eventTypes : List (String × EventType) :=
  [("run_started", .runStarted), ("policy_decision", .policyDecision),
    ("budget_update", .budgetUpdate), ("budget_soft_cap_warning", .budgetSoftCapWarning),
    ("budget_exceeded", .budgetExceeded), ("loop_detected", .loopDetected),
    ("run_ended", .runEnded), ("system_event", .systemEvent),
    ("supervisor_run_started", .supervisorRunStarted),
    ("supervisor_tool_call", .supervisorToolCall),
    ("supervisor_proposal_created", .supervisorProposalCreated),
    ("supervisor_escalation_created", .supervisorEscalationCreated)]

/-- An object taken for a `ParsedEvent`, if its fields have the types declared; a
number beyond `2 ^ 53` need not be read exactly. -/
def typed (obj : ParsedEvent) : Option (TypedEvent ParsedEvent) :=
  ((stringField "event_type" obj).bind fun name => eventTypes.lookup name).bind fun eventType =>
    (stringField "run_id" obj).bind fun runId =>
      ((numberField "seq" obj).filter fun seq => seq ≤ 2 ^ 53).map fun seq =>
        { eventType := eventType
          runId := runId
          seq := seq
          agentName := stringField "agent_name" obj
          agentRole := stringField "agent_role" obj
          policyPackId := stringField "policy_pack_id" obj
          environment := stringField "environment" obj
          rest := obj }

theorem rest_of_typed {obj : ParsedEvent} {event : TypedEvent ParsedEvent}
    (h : typed obj = some event) : event.rest = obj := by
  obtain ⟨eventType, -, h⟩ := Option.bind_eq_some_iff.1 h
  obtain ⟨runId, -, h⟩ := Option.bind_eq_some_iff.1 h
  obtain ⟨seq, -, rfl⟩ := Option.map_eq_some_iff.1 h
  rfl

/-! ## The exporter -/

/-- The file and its reader, the buffer, and the spans sent. -/
structure Exporter where
  tail : Tail
  buffer : TraceBuffer ParsedEvent
  sent : List (Span ParsedEvent)

/-- An empty file nobody has read, and nothing sent. -/
def Exporter.start : Exporter := ⟨.start, .empty, []⟩

/-- What may happen. -/
inductive ExporterEvent where
  /-- the file grows -/
  | append (bytes : List UInt8)
  /-- the exporter is started -/
  | launch
  /-- a step of a read; the times are those of the events handed on -/
  | call (r : Nat) (event : CallEvent) (times : Nat → ℤ)
  /-- the interval of the timeout -/
  | tick (now timeoutMs : ℤ)
  /-- the exporter is told to stop, and nothing else runs until it has -/
  | shutdown
  /-- the exporter dies -/
  | crash

/-- What it is to the reader. -/
def ExporterEvent.reads : ExporterEvent → Option TailEvent
  | .append bytes => some (.append bytes)
  | .launch => some .launch
  | .call r event _ => some (.call r event)
  | .tick _ _ => none
  | .shutdown => some .kill
  | .crash => some .kill

section Machine

variable [JsStrings] [Sha256] (config : ResourceConfig)

/-- The callback of the reader.  Nothing is said of an event of other types than
declared, nor of one the buffer raises on. -/
def Exporter.onEvent (s : Exporter) (now : ℤ) (obj : ParsedEvent) : Option Exporter :=
  (typed obj).bind fun event =>
    let (buffer, returned) := addEvent config s.buffer now event
    returned.map fun spans => { s with buffer := buffer, sent := s.sent ++ spans }

/-- One event after the other. -/
def Exporter.onEvents (s : Exporter) (times : Nat → ℤ) (n : Nat) : List ParsedEvent → Option Exporter
  | [] => some s
  | obj :: objs => (s.onEvent config (times n) obj).bind fun s => s.onEvents times (n + 1) objs

/-- A step; `none` when it cannot be taken. -/
def Exporter.step (s : Exporter) : ExporterEvent → Option Exporter
  | .append bytes => (s.tail.step (.append bytes)).map fun tail => { s with tail := tail }
  | .launch => (s.tail.step .launch).map fun tail => { s with tail := tail }
  | .call r event times =>
    (s.tail.step (.call r event)).bind fun tail =>
      { s with tail := tail }.onEvents config times 0
        (tail.delivered.drop s.tail.delivered.length)
  | .tick now timeoutMs =>
    let (buffer, spans) := flushTimedOut s.buffer now timeoutMs
    some { s with buffer := buffer, sent := s.sent ++ spans }
  | .shutdown =>
    (s.tail.step .kill).map fun tail =>
      let (buffer, spans) := flushAll s.buffer
      ⟨tail, buffer, s.sent ++ spans⟩
  | .crash => (s.tail.step .kill).map fun tail => { s with tail := tail, buffer := .empty }

end Machine

/-! ## The calls of the buffer -/

/-- A step of a read hands on some events more, and the process goes on. -/
theorem tail_call {s t : Tail} {r : Nat} {event : CallEvent}
    (h : s.step (.call r event) = some t) :
    (∃ objs, t.delivered = s.delivered ++ objs) ∧ t.process ≠ none := by
  obtain ⟨p, -, h⟩ := Option.bind_eq_some_iff.1 h
  unfold Tail.callStep at h
  split at h
  case h_4 =>
    cases h
    exact ⟨⟨_, rfl⟩, Option.some_ne_none _⟩
  all_goals
    cases h
    try exact ⟨⟨[], (List.append_nil _).symm⟩, Option.some_ne_none _⟩

/-- The reader dies with nothing more handed on. -/
theorem tail_kill {s t : Tail} (h : s.step .kill = some t) :
    t = { s with process := none } := by
  obtain ⟨p, -, rfl⟩ := Option.map_eq_some_iff.1 h
  rfl

theorem tail_launch {s t : Tail} (h : s.step .launch = some t) :
    t.delivered = s.delivered ∧ t.process ≠ none := by
  rw [Tail.step] at h
  cases hp : s.process with
  | none =>
    rw [hp] at h
    cases h
    exact ⟨rfl, Option.some_ne_none _⟩
  | some p =>
    rw [hp] at h
    cases h

/-- What has been handed on stays so. -/
theorem delivered_exec {s t : Tail} {es : List TailEvent} (h : Run.exec Tail.step s es = some t) :
    s.delivered <+: t.delivered := by
  induction es generalizing s with
  | nil =>
    cases h
    exact List.prefix_rfl
  | cons e es ih =>
    obtain ⟨u, hu, hrest⟩ := Option.bind_eq_some_iff.1 h
    refine List.IsPrefix.trans ?_ (ih hrest)
    cases e with
    | append bytes =>
      cases hu
      exact List.prefix_rfl
    | launch => exact (tail_launch hu).1 ▸ List.prefix_rfl
    | call r event =>
      obtain ⟨⟨objs, hobjs⟩, -⟩ := tail_call hu
      exact ⟨objs, hobjs.symm⟩
    | kill => exact tail_kill hu ▸ List.prefix_rfl

/-- An event the buffer does not raise on. -/
def Exportable (obj : ParsedEvent) : Prop :=
  ∃ event, typed obj = some event ∧ numbered event = true

section Wiring

variable [JsStrings] [Sha256] (config : ResourceConfig)

theorem addEvent_returns {α : Type} (b : TraceBuffer α) (now : ℤ) {event : TypedEvent α}
    (h : numbered event = true) : ∃ spans, (addEvent config b now event).2 = some spans := by
  unfold addEvent
  dsimp only
  rw [← spanOf]
  obtain ⟨span, hspan⟩ := (numbered_iff _ event).1 h
  rw [hspan]
  exact ⟨_, rfl⟩

/-- The calls of the buffer so far: it is what they make of it, all they return
has been sent, and they add some events, in order. -/
structure Wired (objs : List ParsedEvent) (s : Exporter) (calls : List (Call ParsedEvent)) :
    Prop where
  events : List.Forall₂ (fun obj event => typed obj = some event) objs (calls.filterMap added)
  buffer : s.buffer = bufferAfter config calls
  sent : s.sent = returned config calls

variable {config}

/-- One call more. -/
theorem Wired.call {objs : List ParsedEvent} {s : Exporter} {calls : List (Call ParsedEvent)}
    (h : Wired config objs s calls) (call : Call ParsedEvent) {more : List ParsedEvent}
    (hmore : List.Forall₂ (fun obj event => typed obj = some event) more (added call).toList)
    (tail : Tail) :
    Wired config (objs ++ more)
      ⟨tail, (step config s.buffer call).1, s.sent ++ (step config s.buffer call).2.spans⟩
      (calls ++ [call]) where
  events := by
    rw [List.filterMap_append]
    refine List.rel_append h.events ?_
    cases call <;> exact hmore
  buffer := by
    show (step config s.buffer call).1 = _
    rw [h.buffer]
    exact (Run.stateAfter_concat ..).symm
  sent := by
    show s.sent ++ (step config s.buffer call).2.spans = _
    rw [returned, Run.outputs_concat, List.flatMap_append, List.flatMap_singleton, h.sent,
      h.buffer]
    rfl

theorem Wired.onEvents {objs : List ParsedEvent} {s : Exporter} {calls : List (Call ParsedEvent)}
    (h : Wired config objs s calls) (times : Nat → ℤ) (more : List ParsedEvent)
    (hmore : ∀ obj ∈ more, Exportable obj) (n : Nat) :
    ∃ t calls, s.onEvents config times n more = some t ∧ t.tail = s.tail ∧
      Wired config (objs ++ more) t calls := by
  induction more generalizing objs s calls n with
  | nil => exact ⟨s, calls, rfl, rfl, by rwa [List.append_nil]⟩
  | cons obj more ih =>
    obtain ⟨event, htyped, hnumbered⟩ := hmore obj (List.mem_cons_self ..)
    obtain ⟨spans, hspans⟩ := addEvent_returns config s.buffer (times n) hnumbered
    have hcall := h.call (.addEvent (times n) event) (.cons htyped .nil) s.tail
    have hevent : s.onEvent config (times n) obj =
        some ⟨s.tail, (step config s.buffer (.addEvent (times n) event)).1,
          s.sent ++ (step config s.buffer (.addEvent (times n) event)).2.spans⟩ := by
      simp only [Exporter.onEvent, htyped, Option.bind_some, hspans, Option.map_some, step,
        Answer.spans, Option.getD_some]
    obtain ⟨t, calls', ht, htail, hwired⟩ := ih hcall
      (fun obj' hobj' => hmore obj' (List.mem_cons_of_mem _ hobj')) (n + 1)
    refine ⟨t, calls', ?_, htail, ?_⟩
    · rw [Exporter.onEvents, hevent]
      exact ht
    · rw [← List.append_cons] at hwired
      exact hwired

/-- While no process runs the buffer holds nothing. -/
def Idle (s : Exporter) (calls : List (Call ParsedEvent)) : Prop :=
  s.tail.process = none → (openLogs calls).entries = []

/-- **One step**: whatever the reader can do, the exporter does. -/
theorem Wired.step {s : Exporter} {calls : List (Call ParsedEvent)} {event : ExporterEvent}
    {tail : Tail} (h : Wired config s.tail.delivered s calls) (hidle : Idle s calls)
    (hcrash : event ≠ .crash)
    (htail : event.reads.elim (some s.tail) s.tail.step = some tail)
    (hobjs : ∀ obj ∈ tail.delivered, Exportable obj) :
    ∃ t calls, s.step config event = some t ∧ t.tail = tail ∧
      Wired config tail.delivered t calls ∧ Idle t calls := by
  cases event with
  | append bytes =>
    refine ⟨{ s with tail := tail }, calls, ?_, rfl, ?_, ?_⟩
    · exact congrArg (Option.map fun tail => { s with tail := tail }) htail
    · cases htail
      exact ⟨h.events, h.buffer, h.sent⟩
    · cases htail
      exact hidle
  | launch =>
    obtain ⟨hdelivered, hprocess⟩ := tail_launch htail
    refine ⟨{ s with tail := tail }, calls, ?_, rfl, ?_, fun hnone => absurd hnone hprocess⟩
    · exact congrArg (Option.map _) htail
    · rw [hdelivered]
      exact ⟨h.events, h.buffer, h.sent⟩
  | call r event times =>
    obtain ⟨⟨more, hmore⟩, hprocess⟩ := tail_call htail
    have hwired : Wired config s.tail.delivered { s with tail := tail } calls :=
      ⟨h.events, h.buffer, h.sent⟩
    obtain ⟨t, calls', ht, rfl, hwired'⟩ := hwired.onEvents times more
      (fun obj hobj => hobjs obj (by rw [hmore]; exact List.mem_append_right _ hobj)) 0
    refine ⟨t, calls', ?_, rfl, by rwa [hmore], fun hnone => absurd hnone hprocess⟩
    show (s.tail.step (.call r event)).bind _ = _
    rw [show s.tail.step (.call r event) = _ from htail, Option.bind_some, hmore,
      List.drop_left]
    exact ht
  | tick now timeoutMs =>
    cases htail
    have hcall := h.call (.flushTimedOut now timeoutMs) .nil s.tail
    rw [List.append_nil] at hcall
    refine ⟨_, _, rfl, rfl, hcall, fun hnone => ?_⟩
    have hopen : openLogs (calls ++ [.flushTimedOut now timeoutMs]) =
        OrderedMap.filter (openLogs calls) fun e => !Logs.late now timeoutMs e.2 :=
      Run.stateAfter_concat ..
    rw [hopen]
    exact (congrArg (List.filter _) (hidle hnone)).trans List.filter_nil
  | shutdown =>
    have hcall := h.call .flushAll .nil tail
    rw [List.append_nil] at hcall
    obtain rfl := tail_kill htail
    refine ⟨_, _, congrArg (Option.map _) htail, rfl, hcall, fun _ => ?_⟩
    have hopen : openLogs (calls ++ [.flushAll]) = .empty := Run.stateAfter_concat ..
    rw [hopen]
    rfl
  | crash => exact absurd rfl hcrash

/-- **A run**: whatever the reader can do, the exporter does. -/
theorem Wired.exec {s : Exporter} {calls : List (Call ParsedEvent)} {es : List ExporterEvent}
    {t : Tail} (h : Wired config s.tail.delivered s calls) (hidle : Idle s calls)
    (hcrash : .crash ∉ es) (hrun : Run.exec Tail.step s.tail (es.filterMap ExporterEvent.reads) = some t)
    (hobjs : ∀ obj ∈ t.delivered, Exportable obj) :
    ∃ x calls, Run.exec (Exporter.step config) s es = some x ∧ x.tail = t ∧
      Wired config t.delivered x calls ∧ Idle x calls := by
  induction es generalizing s calls with
  | nil =>
    cases hrun
    exact ⟨s, calls, rfl, rfl, h, hidle⟩
  | cons e es ih =>
    have hnext : ∃ tail, e.reads.elim (some s.tail) s.tail.step = some tail ∧
        Run.exec Tail.step tail (es.filterMap ExporterEvent.reads) = some t := by
      cases hreads : e.reads with
      | none =>
        rw [List.filterMap_cons_none hreads] at hrun
        exact ⟨s.tail, rfl, hrun⟩
      | some event =>
        rw [List.filterMap_cons_some hreads] at hrun
        exact Option.bind_eq_some_iff.1 hrun
    obtain ⟨tail, htail, hrest⟩ := hnext
    obtain ⟨u, calls', hu, rfl, hwired, hidle'⟩ := h.step hidle
      (fun heq => hcrash (heq ▸ List.mem_cons_self ..)) htail
      (fun obj hobj => hobjs obj ((delivered_exec hrest).subset hobj))
    obtain ⟨x, calls'', hx, hend⟩ := ih hwired hidle'
      (fun hmem => hcrash (List.mem_cons_of_mem _ hmem)) hrest
    refine ⟨x, calls'', ?_, hend⟩
    rw [Run.exec, hu]
    exact hx

end Wiring

/-! ## Few runs, no roots -/

section Plain

variable {α : Type}

/-- Among few runs no log gives way to another. -/
theorem step_of_few {logs : Logs α} {runs : Finset String} (call : Call α)
    (hcard : runs.card ≤ maxConcurrentTraces) (hkeys : ∀ e ∈ logs.entries, e.1 ∈ runs)
    (hrun : ∀ event ∈ added call, event.runId ∈ runs) :
    (∀ e ∈ (logs.step call).1.entries, e.1 ∈ runs) ∧ (logs.step call).2.evicted = none := by
  cases call with
  | addEvent now event =>
    have hevent : event.runId ∈ runs := hrun event rfl
    have hnote : ∀ log : RunLog α, ∀ e ∈ (logs.note log event).1.entries, e.1 ∈ runs := by
      intro log e he
      have hset : e ∈ (OrderedMap.set logs event.runId log).entries → e.1 ∈ runs := by
        intro he
        rcases OrderedMap.mem_set.1 he with rfl | ⟨he, -⟩
        · exact hevent
        · exact hkeys e he
      unfold Logs.note at he
      split_ifs at he
      · exact hkeys e (List.mem_filter.1 he).1
      · exact hset he
      · exact hset he
    cases hget : logs.get? event.runId with
    | some log =>
      rw [Logs.step_of_some hget]
      exact ⟨hnote _, rfl⟩
    | none =>
      have hroom : logs.makeRoom = (logs, none) := by
        refine if_neg (not_le.2 ?_)
        -- the key of the new log is one more run
        have hnodup : (event.runId :: logs.entries.map Prod.fst).Nodup := by
          refine List.nodup_cons.2 ⟨fun hmem => ?_, logs.nodup⟩
          obtain ⟨e, he, hkey⟩ := List.mem_map.1 hmem
          exact OrderedMap.get?_eq_none_iff.1 hget e he hkey
        have hsub : (event.runId :: logs.entries.map Prod.fst).toFinset ⊆ runs := by
          intro key hkey
          rcases List.mem_cons.1 (List.mem_toFinset.1 hkey) with rfl | hkey
          · exact hevent
          · obtain ⟨e, he, rfl⟩ := List.mem_map.1 hkey
            exact hkeys e he
        have hle := (Finset.card_le_card hsub).trans hcard
        rw [List.toFinset_card_of_nodup hnodup, List.length_cons, List.length_map] at hle
        exact hle
      rw [Logs.step_of_none hget, hroom]
      exact ⟨hnote _, rfl⟩
  | flushTimedOut now timeoutMs =>
    exact ⟨fun e he => hkeys e (List.mem_filter.1 he).1, rfl⟩
  | flushAll => exact ⟨fun e he => absurd he List.not_mem_nil, rfl⟩

theorem evicted_of_few {calls : List (Call α)} {runs : Finset String}
    (hcard : runs.card ≤ maxConcurrentTraces)
    (hruns : ∀ event ∈ calls.filterMap added, event.runId ∈ runs) :
    (∀ e ∈ (openLogs calls).entries, e.1 ∈ runs) ∧ ∀ c ∈ closures calls, c.evicted = none := by
  induction calls using List.reverseRecOn with
  | nil => exact ⟨fun e he => absurd he List.not_mem_nil, fun c hc => absurd hc List.not_mem_nil⟩
  | append_singleton calls call ih =>
    obtain ⟨hkeys, hevicted⟩ := ih fun event hevent => hruns event (by
      rw [List.filterMap_append]
      exact List.mem_append_left _ hevent)
    have hstep := step_of_few call hcard hkeys fun event hevent => hruns event (by
      rw [List.filterMap_append]
      exact List.mem_append_right _ (List.mem_filterMap.2 ⟨call, List.mem_singleton_self _, hevent⟩))
    have hopen : openLogs (calls ++ [call]) = ((openLogs calls).step call).1 :=
      Run.stateAfter_concat ..
    have hclosed : closures (calls ++ [call]) =
        closures calls ++ [((openLogs calls).step call).2] := Run.outputs_concat ..
    rw [hopen, hclosed]
    refine ⟨hstep.1, fun c hc => ?_⟩
    rcases List.mem_append.1 hc with hc | hc
    · exact hevicted c hc
    · rw [List.mem_singleton.1 hc]
      exact hstep.2

/-- An event in a closed log is one of those added, in the log of its run. -/
theorem mem_closures {calls : List (Call α)} {log : RunLog α}
    (hlog : log ∈ (closures calls).flatMap Closed.logs) {event : TypedEvent α}
    (hevent : event ∈ log.events) :
    event ∈ calls.filterMap added ∧ event.runId = log.runId := by
  have hheld : event ∈ heldBy log.runId ((closures calls).flatMap Closed.logs) :=
    List.mem_flatMap.2 ⟨log, List.mem_filter.2 ⟨hlog, decide_eq_true rfl⟩, hevent⟩
  have hrun : event ∈ ofRun log.runId (calls.filterMap added) := by
    rw [← (heldBy_run calls).2]
    exact List.mem_append_left _ hheld
  obtain ⟨hadded, hrun⟩ := List.mem_filter.1 hrun
  exact ⟨hadded, of_decide_eq_true hrun⟩

theorem filter_flatMap_events {logs : List (RunLog α)}
    (h : ∀ log ∈ logs, ∀ e ∈ log.events, e.runId = log.runId) (runId : String) :
    (logs.flatMap RunLog.events).filter (fun e => e.runId = runId) = heldBy runId logs := by
  induction logs with
  | nil => rfl
  | cons log logs ih =>
    have hlog := h log (List.mem_cons_self ..)
    rw [List.flatMap_cons, List.filter_append, ih fun l hl => h l (List.mem_cons_of_mem _ hl),
      show log :: logs = [log] ++ logs from rfl, heldBy_append, heldBy_singleton]
    congr 1
    by_cases hrun : log.runId = runId
    · rw [if_pos hrun]
      exact List.filter_eq_self.2 fun e he => decide_eq_true ((hlog e he).trans hrun)
    · rw [if_neg hrun]
      exact List.filter_eq_nil_iff.2 fun e he heq =>
        hrun ((hlog e he).symm.trans (of_decide_eq_true heq))

theorem flatMap_zipWith {β γ δ ε : Type} {f : β → γ → δ} {g : δ → List ε} {k : γ → List ε}
    {bs : List β} {cs : List γ} (hlength : bs.length = cs.length)
    (h : ∀ b, ∀ c ∈ cs, g (f b c) = k c) : (List.zipWith f bs cs).flatMap g = cs.flatMap k := by
  induction bs generalizing cs with
  | nil =>
    obtain rfl := List.length_eq_zero_iff.1 hlength.symm
    rfl
  | cons b bs ih =>
    cases cs with
    | nil => cases hlength
    | cons c cs =>
      rw [List.zipWith_cons_cons, List.flatMap_cons, List.flatMap_cons, h b c (List.mem_cons_self ..),
        ih (Nat.succ.inj hlength) fun b' c' hc' => h b' c' (List.mem_cons_of_mem _ hc')]

/-- An event that comes to a span and is no root. -/
def Plain (event : TypedEvent α) : Prop := event.isRoot = false ∧ numbered event = true

variable [JsStrings] [Sha256] {config : ResourceConfig}

theorem events_childrenOf (resource : Resource) {es : List (TypedEvent α)}
    (h : ∀ e ∈ es, Plain e) : (childrenOf resource es).map Span.event = es := by
  induction es with
  | nil => rfl
  | cons e es ih =>
    obtain ⟨hroot, hnumbered⟩ := h e (List.mem_cons_self ..)
    obtain ⟨span, hspan⟩ := (numbered_iff resource e).1 hnumbered
    rw [childrenOf, List.filter_cons_of_pos (by rw [hroot]; rfl), List.filterMap_cons_some hspan,
      List.map_cons, (placed_of_spanOf hspan).1]
    exact congrArg _ (ih fun e' he' => h e' (List.mem_cons_of_mem _ he'))

/-- A log without roots comes to a span for each event. -/
theorem events_exported {log : RunLog α} (h : ∀ e ∈ log.events, Plain e) (ending : Ending α) :
    (log.exported config ending).map Span.event = log.events := by
  have hroots : log.events.filter TypedEvent.isRoot = [] :=
    List.filter_eq_nil_iff.2 fun e he => by rw [(h e he).1]; exact Bool.false_ne_true
  rw [RunLog.exported, rootOf, hroots]
  exact events_childrenOf _ h

/-- All that the calls return, where no event is a root and no log gives way. -/
theorem events_returned {calls : List (Call α)} (hplain : ∀ e ∈ calls.filterMap added, Plain e)
    (hevicted : ∀ c ∈ closures calls, c.evicted = none) :
    (returned config calls).map Span.event =
      ((closures calls).flatMap Closed.logs).flatMap RunLog.events := by
  have hlength : calls.length = (closures calls).length := (Run.length_outputs ..).symm
  rw [returned, (exports_logs config calls).1, List.map_flatMap, List.flatMap_assoc]
  refine flatMap_zipWith hlength fun call c hc => ?_
  have hlogs : c.logs = c.returned.getD [] := by
    rw [Closed.logs, hevicted c hc]
    rfl
  have hspans : ∀ ending, ((c.returned.getD []).flatMap (RunLog.exported config ending)).map
      Span.event = c.logs.flatMap RunLog.events := by
    intro ending
    rw [hlogs, List.map_flatMap]
    refine List.flatMap_congr fun log hlog => events_exported (fun e he => hplain e ?_) ending
    exact (mem_closures (List.mem_flatMap.2 ⟨c, hc, hlogs ▸ hlog⟩) he).1
  unfold answerOf Answer.spans
  cases hreturned : c.returned with
  | none =>
    rw [hlogs, hreturned]
    rfl
  | some logs =>
    rw [hreturned] at hspans
    exact hspans _

variable (config) in
/-- What is returned of a run is the start of what was added, and all of it when
no log is open. -/
theorem returned_of_run {calls : List (Call α)} {runs : Finset String}
    (hcard : runs.card ≤ maxConcurrentTraces)
    (hruns : ∀ event ∈ calls.filterMap added, event.runId ∈ runs)
    (hplain : ∀ e ∈ calls.filterMap added, Plain e) (runId : String) :
    ((returned config calls).map Span.event).filter (fun e => e.runId = runId) ++
        heldBy runId (openLogs calls).values = ofRun runId (calls.filterMap added) := by
  have hevicted := (evicted_of_few hcard hruns).2
  rw [events_returned hplain hevicted, ← (heldBy_run calls).2,
    filter_flatMap_events fun log hlog e he => (mem_closures hlog he).2]

end Plain

/-! ## The log of an engine -/

/-- A decimal text has the value of its number. -/
theorem numberValue_natText (n : Nat) : Backend.numberValue (Json.natText n) = n := by
  have hdigits : ∀ c ∈ Json.natText n, c.isDigit = true := fun c hc => Json.isDigit_natText hc
  have hwhole : (Json.natText n).takeWhile Char.isDigit = Json.natText n :=
    List.takeWhile_eq_self_iff.2 hdigits
  have hrest : (Json.natText n).dropWhile Char.isDigit = [] := List.dropWhile_eq_nil_iff.2 hdigits
  have hvalue : Backend.digitsValue (Json.natText n) = n := Nat.ofDigitChars_ten_toDigits
  have hunsigned : Backend.unsignedValue (Json.natText n) = n := by
    rw [Backend.unsignedValue, hrest]
    show (Backend.digitsValue ((Json.natText n).takeWhile Char.isDigit) : ℚ) * 1 = n
    rw [hwhole, hvalue, mul_one]
  unfold Backend.numberValue
  split
  case h_1 cs heq =>
    -- no digit is a minus
    have hminus := hdigits '-' (by rw [heq]; exact List.mem_cons_self ..)
    cases hminus
  case h_2 => exact hunsigned

section Engine

open LoopStorm.Engine (AuditEvent logBytes u64Value optMember lookup_optMember_of_ne)

variable {F : Type} [Float64 F]

/-- The object in the line of an event. -/
def object (e : AuditEvent F) : ParsedEvent := Json.mapNumM Number.text e.members

/-- The fields each line has. -/
theorem lookup_object (e : AuditEvent F) :
    Json.lookup "event_type" (object e) = some (.str e.eventType) ∧
      Json.lookup "run_id" (object e) = some (.str e.runId) ∧
      Json.lookup "seq" (object e) = some (.num (Json.natText e.seq.toNat)) ∧
      Json.lookup "ts" (object e) = some (.str e.ts) ∧
      Json.lookup "hash" (object e) = e.hash.map .str := by
  have hhash : Json.lookup "hash" e.members = e.hash.map .str := by
    rw [AuditEvent.members, Json.lookup_append, Json.lookup_append,
      Cli.lookup_tailMembers e (.inl rfl), Cli.lookup_headMembers e (.inl rfl), Option.none_or,
      Option.or_none, AuditEvent.hashMembers, Json.lookup_append,
      lookup_optMember_of_ne (by decide : "hash_prev" ≠ "hash"), Option.none_or]
    cases e.hash with
    | none => rfl
    | some h => simp [optMember, Json.lookup]
  simp only [object, Json.lookup_mapNumM, hhash]
  refine ⟨?_, ?_, ?_, ?_, ?hash⟩
  case hash =>
    cases e.hash with
    | none => rfl
    | some h => rfl
  all_goals
    simp [AuditEvent.members, AuditEvent.headMembers, AuditEvent.hashMembers,
      AuditEvent.tailMembers, Json.lookup_append, Json.lookup, lookup_optMember_of_ne,
      Json.mapNum, u64Value, Number.text]

/-- The reader finds the event of a line. -/
theorem lineEvent_line {e : AuditEvent F} (h : e.hash.isSome) :
    lineEvent e.line.toList = some (object e) := by
  have hparse : Json.parse e.line.toList = some (.obj (object e)) := Backend.parse_line e
  have htrim : e.line.toList.rdropWhile Backend.isJsSpace = e.line.toList := by
    have htrim := congrArg String.toList (Backend.trimEnd_line e)
    rwa [Backend.trimEnd, String.toList_ofList] at htrim
  have hne : e.line.toList ≠ [] := by
    intro hnil
    rw [hnil] at hparse
    cases hparse
  obtain ⟨htype, hrun, hseq, hts, hhash⟩ := lookup_object e
  obtain ⟨hash, he⟩ := Option.isSome_iff_exists.1 h
  have hfields : requiredEventFields.all (hasField (object e)) = true := by
    simp only [requiredEventFields, List.all_cons, List.all_nil, hasField, htype, hrun, hseq, hts,
      hhash, he, Option.map_some, Bool.and_self]
  rw [lineEvent, htrim, if_neg hne, parseLine, hparse]
  exact if_pos hfields

theorem newline_notMem_line (e : AuditEvent F) : 10 ∉ Text.utf8 e.line := by
  have hprintable : '\n' ∉ e.line.toList := by
    intro hmem
    exact absurd (Cli.printable_line e _ hmem) (by decide)
  rw [← String.ofList_toList (s := e.line)]
  exact Text.newline_notMem_utf8 hprintable

/-- The reader finds the events of a log. -/
theorem events_logBytes {es : List (AuditEvent F)} (h : ∀ e ∈ es, e.hash.isSome) :
    events (logBytes es) = es.map object := by
  induction es with
  | nil => rfl
  | cons e es ih =>
    rw [Engine.logBytes_cons, List.append_assoc, events, List.singleton_append,
      Lines.cut_closed (newline_notMem_line e), List.filterMap_cons, (Text.decode_utf8 e.line).1,
      lineEvent_line (h e (List.mem_cons_self ..)), List.map_cons]
    exact congrArg _ (ih fun e' he' => h e' (List.mem_cons_of_mem _ he'))

/-- An event the exporter makes a span of. -/
theorem typed_object (eventType : EventType) {e : AuditEvent F}
    (h : eventTypes.lookup e.eventType = some eventType) (hroot : eventType ≠ .runStarted)
    (hexact : e.seq.toNat ≤ 2 ^ 53) :
    ∃ event, typed (object e) = some event ∧ event.runId = e.runId ∧ Plain event := by
  obtain ⟨htype, hrun, hseq, -, -⟩ := lookup_object e
  have hle : (e.seq.toNat : ℚ) ≤ 2 ^ 53 := by exact_mod_cast hexact
  have htyped : ∃ event, typed (object e) = some event ∧ event.eventType = eventType ∧
      event.runId = e.runId ∧ event.seq = e.seq.toNat := by
    refine ⟨⟨eventType, e.runId, e.seq.toNat, stringField "agent_name" (object e),
      stringField "agent_role" (object e), stringField "policy_pack_id" (object e),
      stringField "environment" (object e), object e⟩, ?_, rfl, rfl, rfl⟩
    simp only [typed, stringField, numberField, htype, hrun, hseq, Option.bind_some, Json.asStr,
      h, numberValue_natText, Option.filter, hle, decide_true, if_true, Option.map_some]
  obtain ⟨event, htyped, heventType, hrunId, hnumber⟩ := htyped
  refine ⟨event, htyped, hrunId, ?_, ?_⟩
  · rw [TypedEvent.isRoot, heventType]
    exact decide_eq_false hroot
  · have hbytes : (seqBytes event.seq).isSome = true := by
      rw [seqBytes, if_pos, Option.isSome_some]
      rw [hnumber]
      refine ⟨rfl, Nat.cast_nonneg _, ?_⟩
      exact_mod_cast e.seq.toNat_lt
    rw [numbered, hbytes, Bool.or_true]

variable [Engine.Globset] [Engine.TextTools] [Sha256]

omit [Engine.Globset] [Engine.TextTools] in
theorem mem_sealedAll {w : Engine.AuditWriter} {es : List (AuditEvent F)} {e : AuditEvent F}
    (h : e ∈ w.sealedAll es) : e.hash.isSome ∧ ∃ d ∈ es, e.unhashed = d.unhashed := by
  induction es generalizing w with
  | nil => cases h
  | cons d es ih =>
    rcases List.mem_cons.1 h with rfl | h
    · exact ⟨rfl, d, List.mem_cons_self .., Engine.unhashed_sealed w d⟩
    · obtain ⟨hhash, d', hd', heq⟩ := ih h
      exact ⟨hhash, d', List.mem_cons_of_mem _ hd', heq⟩

/-- The events of a run are decisions and warnings, each of one of its calls. -/
theorem mem_runEvents {ctx : Engine.EnforcementContext F} {calls : List (Engine.Call F)}
    {e : AuditEvent F} (h : e ∈ Engine.runEvents ctx calls) :
    (∃ c ∈ calls, e.runId = c.request.runId ∧ e.seq = c.request.seq) ∧
      (e.eventType = "policy_decision" ∨ e.eventType = "budget_soft_cap_warning") := by
  induction calls generalizing ctx with
  | nil => cases h
  | cons c calls ih =>
    rcases List.mem_append.1 h with h | h
    · have hlogged : e.runId = c.request.runId ∧ e.seq = c.request.seq ∧
          (e.eventType = "policy_decision" ∨ e.eventType = "budget_soft_cap_warning") := by
        unfold Engine.loggedEvents at h
        rcases List.mem_cons.1 h with rfl | h
        · exact ⟨rfl, rfl, .inl rfl⟩
        · split at h
          · cases List.mem_singleton.1 h
            exact ⟨rfl, rfl, .inr rfl⟩
          · cases h
      exact ⟨⟨c, List.mem_cons_self .., hlogged.1, hlogged.2.1⟩, hlogged.2.2⟩
    · obtain ⟨⟨c', hc', hcall⟩, htype⟩ := ih h
      exact ⟨⟨c', List.mem_cons_of_mem _ hc', hcall⟩, htype⟩

/-- What an engine writes has a hash, a call it is of, and a span. -/
theorem mem_runLog {ctx : Engine.EnforcementContext F} {calls : List (Engine.Call F)}
    (hexact : ∀ c ∈ calls, c.request.seq.toNat ≤ 2 ^ 53) {e : AuditEvent F}
    (h : e ∈ Engine.runLog ctx calls) :
    e.hash.isSome ∧ (∃ c ∈ calls, e.runId = c.request.runId) ∧
      ∃ event, typed (object e) = some event ∧ event.runId = e.runId ∧ Plain event := by
  obtain ⟨hhash, d, hd, heq⟩ := mem_sealedAll h
  obtain ⟨⟨c, hc, hrun, hseq⟩, htype⟩ := mem_runEvents hd
  have hrun' : e.runId = d.runId := by
    have hsame := congrArg AuditEvent.runId heq
    exact hsame
  have hseq' : e.seq = d.seq := by
    have hsame := congrArg AuditEvent.seq heq
    exact hsame
  have htype' : e.eventType = d.eventType := by
    have hsame := congrArg AuditEvent.eventType heq
    exact hsame
  refine ⟨hhash, ⟨c, hc, hrun'.trans hrun⟩, ?_⟩
  have hnumber : e.seq.toNat ≤ 2 ^ 53 := by
    rw [hseq', hseq]
    exact hexact c hc
  rcases htype with htype | htype
  · exact typed_object .policyDecision (by rw [htype', htype]; rfl) (by decide)
      hnumber
  · exact typed_object .budgetSoftCapWarning (by rw [htype', htype]; rfl)
      (by decide) hnumber

/-- The objects of a run in a log. -/
def loggedOf (runId : String) (es : List (AuditEvent F)) : List ParsedEvent :=
  (es.filter fun e => e.runId = runId).map object

/-- The objects of a run some spans are made of. -/
def sentOf (runId : String) (spans : List (Span ParsedEvent)) : List ParsedEvent :=
  ((spans.map Span.event).filter fun e => e.runId = runId).map TypedEvent.rest

omit [Engine.Globset] [Engine.TextTools] [Sha256] in
/-- Typed events are told apart by run as the events of the log are. -/
theorem rest_ofRun {es : List (AuditEvent F)} {typedEvents : List (TypedEvent ParsedEvent)}
    (htyped : ∀ e ∈ es, ∃ event, typed (object e) = some event ∧ event.runId = e.runId ∧
      Plain event)
    (h : List.Forall₂ (fun obj event => typed obj = some event) (es.map object) typedEvents)
    (runId : String) :
    (ofRun runId typedEvents).map TypedEvent.rest = loggedOf runId es ∧
      ∀ event ∈ typedEvents, Plain event ∧ ∃ e ∈ es, event.runId = e.runId := by
  induction es generalizing typedEvents with
  | nil =>
    cases h
    exact ⟨rfl, fun event hevent => absurd hevent List.not_mem_nil⟩
  | cons e es ih =>
    obtain ⟨event, heq, hrun, hplain⟩ := htyped e (List.mem_cons_self ..)
    cases h with
    | @cons _ event' _ rest hfirst hrest =>
      obtain rfl := Option.some.inj (heq.symm.trans hfirst)
      obtain ⟨hobjects, hall⟩ := ih (fun e' he' => htyped e' (List.mem_cons_of_mem _ he')) hrest
      constructor
      · rw [show event :: rest = [event] ++ rest from rfl, ofRun, List.filter_append,
          List.map_append, ← ofRun, ← ofRun, hobjects, ofRun_singleton, loggedOf, loggedOf,
          List.filter_cons, hrun]
        by_cases hr : e.runId = runId
        · rw [if_pos hr, if_pos (decide_eq_true hr), List.map_singleton, rest_of_typed heq]
          rfl
        · rw [if_neg hr, if_neg fun h => hr (of_decide_eq_true h)]
          rfl
      · intro event' hevent'
        rcases List.mem_cons.1 hevent' with rfl | hevent'
        · exact ⟨hplain, e, List.mem_cons_self .., hrun⟩
        · obtain ⟨hplain', e', he', hrun'⟩ := hall event' hevent'
          exact ⟨hplain', e', List.mem_cons_of_mem _ he', hrun'⟩

variable [JsStrings]

end Engine

/-! ## One pass -/

/-- `--once`: the file is read to its end, every trace is timed out, and the
exporter stops. -/
def once (file : List UInt8) (times : Nat → ℤ) (now : ℤ) : List ExporterEvent :=
  [.append file, .launch, .call 0 .poll times, .call 0 .stat times, .call 0 .resume times,
    .call 0 .read times, .call 0 .truncate times, .call 0 .write times, .tick now 0, .shutdown]

/-- The reader in one pass over a file of whole lines. -/
theorem exec_once {file : List UInt8} (times : Nat → ℤ) (now : ℤ) (hne : file ≠ [])
    (hwhole : Text.decodeState none file = none) (hlines : (Lines.cut 10 file).2 = []) :
    Run.AllEvents Tail.step Orderly .start ((once file times now).filterMap ExporterEvent.reads) ∧
      ∃ t, Run.exec Tail.step .start ((once file times now).filterMap ExporterEvent.reads) = some t ∧
        t.process = none ∧ t.saved = some t.file.length ∧ t.file = file := by
  have hchunk : (Lines.cut '\n' (readChunk file 0 file.length)).2 = [] := by
    rw [readChunk, List.drop_zero, Nat.sub_zero, List.take_length, Text.cut_decode, hlines]
    rfl
  constructor
  · simp [once, ExporterEvent.reads, List.filterMap_cons, Run.AllEvents, Orderly, Tail.step,
      Tail.callStep, Tail.start, loadCursor, Process.put, Process.resume, Process.proceed,
      Process.process, Process.saved, Stage.IsSaving, hne, hwhole, hchunk]
  · simp [once, ExporterEvent.reads, List.filterMap_cons, Run.exec, Tail.step, Tail.callStep,
      Tail.start, loadCursor, Process.put, Process.resume, Process.proceed, Process.process,
      Process.saved, hne]

/-- The log of an engine is a file of whole lines. -/
theorem whole_logBytes {F : Type} [Float64 F] (es : List (Engine.AuditEvent F)) :
    Text.decodeState none (Engine.logBytes es) = none ∧
      (Lines.cut 10 (Engine.logBytes es)).2 = [] := by
  induction es with
  | nil => exact ⟨rfl, rfl⟩
  | cons e es ih =>
    rw [Engine.logBytes_cons, List.append_assoc, Text.decodeState_append, (Text.decode_utf8 _).2,
      List.singleton_append, Lines.cut_closed (newline_notMem_line e)]
    exact ih

namespace Sample

open Backend.Sample Engine.Sample

/-- An exporter of one service. -/
def config : ResourceConfig := ⟨"loopstorm", "1.1.0"⟩

/-- One call, and its log. -/
def calls : List (Engine.Call ℚ) := [call runId "search" 1 none 0]

end Sample

end LoopStorm.Otel
