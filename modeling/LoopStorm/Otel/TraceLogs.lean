import LoopStorm.Otel.TraceBuffer

/-!
# What a trace is made of

The buffer of `trace-buffer.ts` interleaves up to 1000 traces and builds each of
them an event at a time.  Here it is said what it is for: it sorts the events by
their runs and closes the log of a run when the run has ended, has waited for too
long or is the oldest of 1000.

* `RunLog`, `Logs`, `Logs.step` — the logs of the open runs, and what a call closes.
* `RunLog.exported` — the spans a log comes to: the last root with what is
  attached to it, then a child for each other event.
* `step_mapValues` — the buffer refines the logs, call by call.
* `exports_logs` — **the runs are kept apart**: what the buffer exports are the
  logs of the runs, whatever the order their events come in, and each event is in
  one log of its run, in order.
-/

namespace LoopStorm.Otel.TraceBuffer

open LoopStorm.Backend (JsStrings)
open LoopStorm.Engine (Sha256)

variable {α : Type}

/-! ## Logs -/

/-- The events of a run since its trace was opened. -/
structure RunLog (α : Type) where
  openedAt : ℤ
  /-- The event that opened the trace; its resource is made of it. -/
  first : TypedEvent α
  rest : List (TypedEvent α)

namespace RunLog

def events (log : RunLog α) : List (TypedEvent α) := log.first :: log.rest

def runId (log : RunLog α) : String := log.first.runId

/-- One event more. -/
def add (log : RunLog α) (event : TypedEvent α) : RunLog α :=
  { log with rest := log.rest ++ [event] }

@[simp] theorem events_add (log : RunLog α) (event : TypedEvent α) :
    (log.add event).events = log.events ++ [event] := rfl

@[simp] theorem runId_add (log : RunLog α) (event : TypedEvent α) :
    (log.add event).runId = log.runId := rfl

end RunLog

/-- The logs of the open runs, the first opened first. -/
abbrev Logs (α : Type) : Type := OrderedMap String (RunLog α)

/-- The logs a call closes. -/
structure Closed (α : Type) where
  /-- Those it exports; `none` when it raises. -/
  returned : Option (List (RunLog α))
  /-- The one it throws away. -/
  evicted : Option (RunLog α)

def Closed.logs (c : Closed α) : List (RunLog α) := c.evicted.toList ++ c.returned.getD []

/-- The event has a span identity. -/
def numbered (event : TypedEvent α) : Bool := event.isRoot || (seqBytes event.seq).isSome

namespace Logs

/-- A log that has waited for too long. -/
def late (now timeoutMs : ℤ) (log : RunLog α) : Bool := timeoutMs ≤ now - log.openedAt

/-- Among 1000 open logs the first opened gives way. -/
noncomputable def makeRoom (logs : Logs α) : Logs α × Option (RunLog α) :=
  if maxConcurrentTraces ≤ logs.size then
    match logs.entries.argmin fun e => e.2.openedAt with
    | some oldest => (logs.delete oldest.1, some oldest.2)
    | none => (logs, none)
  else (logs, none)

/-- A log is kept with its last event, or closed by it. -/
def note (logs : Logs α) (log : RunLog α) (event : TypedEvent α) :
    Logs α × Option (List (RunLog α)) :=
  if numbered event then
    if event.eventType = .runEnded then (logs.delete event.runId, some [log])
    else (logs.set event.runId log, some [])
  else (logs.set event.runId log, none)

/-- One call. -/
noncomputable def step (logs : Logs α) : Call α → Logs α × Closed α
  | .addEvent now event =>
    match logs.get? event.runId with
    | some log =>
      let (logs, returned) := logs.note (log.add event) event
      (logs, ⟨returned, none⟩)
    | none =>
      let (logs, evicted) := logs.makeRoom
      let (logs, returned) := logs.note ⟨now, event, []⟩ event
      (logs, ⟨returned, evicted⟩)
  | .flushTimedOut now timeoutMs =>
    (logs.filter fun e => !late now timeoutMs e.2,
      ⟨some (logs.values.filter (late now timeoutMs)), none⟩)
  | .flushAll => (.empty, ⟨some logs.values, none⟩)

theorem step_of_some {logs : Logs α} {event : TypedEvent α} {log : RunLog α}
    (h : logs.get? event.runId = some log) (now : ℤ) :
    logs.step (.addEvent now event) = ((logs.note (log.add event) event).1,
      ⟨(logs.note (log.add event) event).2, none⟩) := by
  simp only [step, h]

theorem step_of_none {logs : Logs α} {event : TypedEvent α}
    (h : logs.get? event.runId = none) (now : ℤ) :
    logs.step (.addEvent now event) = ((logs.makeRoom.1.note ⟨now, event, []⟩ event).1,
      ⟨(logs.makeRoom.1.note ⟨now, event, []⟩ event).2, logs.makeRoom.2⟩) := by
  simp only [step, h]

end Logs

/-! ## The spans of a log -/

/-- The events that are attached to the root of their run. -/
def attached (es : List (TypedEvent α)) : List (TypedEvent α) :=
  es.filter fun e => e.eventType ∈ rootSpanEventTypes

section Spans

variable [JsStrings] [Sha256]

/-- The span of one event; `none` when its number has no span identity. -/
def spanOf (resource : Resource) (event : TypedEvent α) : Option (Span α) :=
  (spanId event.runId 0).bind fun rootSpanId => buildSpan event resource rootSpanId []

/-- The root of a run: the last event that opens it. -/
def rootOf (resource : Resource) (es : List (TypedEvent α)) : Option (Span α) :=
  ((es.filter TypedEvent.isRoot).getLast?).bind (spanOf resource)

/-- The children: the spans of the other events, in order. -/
def childrenOf (resource : Resource) (es : List (TypedEvent α)) : List (Span α) :=
  (es.filter fun e => !e.isRoot).filterMap (spanOf resource)

/-- A trace with the events it has been given. -/
def traceOf (config : ResourceConfig) (openedAt : ℤ) (first : TypedEvent α)
    (es : List (TypedEvent α)) : BufferedTrace α where
  runId := first.runId
  rootSpan := rootOf (buildResource first config) es
  childSpans := childrenOf (buildResource first config) es
  rootSpanEvents := attached es
  firstEventTime := openedAt
  resource := buildResource first config
  completed := false

def RunLog.trace (config : ResourceConfig) (log : RunLog α) : BufferedTrace α :=
  traceOf config log.openedAt log.first log.events

/-- The spans a log comes to when its trace is closed. -/
def RunLog.exported (config : ResourceConfig) (ending : Ending α) (log : RunLog α) :
    List (Span α) :=
  (rootOf (buildResource log.first config) log.events).toList.map (fun root =>
    { root with
      parentSpanId := none, resource := buildResource log.first config,
      events := attached log.events, ending := ending }) ++
  childrenOf (buildResource log.first config) log.events

omit [JsStrings] [Sha256] in
theorem attached_concat (es : List (TypedEvent α)) (e : TypedEvent α) :
    attached (es ++ [e]) =
      attached es ++ if e.eventType ∈ rootSpanEventTypes then [e] else [] := by
  rw [attached, attached, List.filter_append]
  congr 1
  by_cases h : e.eventType ∈ rootSpanEventTypes
  · rw [if_pos h]
    exact List.filter_cons_of_pos (decide_eq_true h)
  · rw [if_neg h]
    exact List.filter_cons_of_neg fun h' => h (of_decide_eq_true h')

theorem rootOf_concat (resource : Resource) (es : List (TypedEvent α)) (e : TypedEvent α) :
    rootOf resource (es ++ [e]) =
      if e.isRoot then spanOf resource e else rootOf resource es := by
  rw [rootOf, rootOf, List.filter_append]
  cases h : e.isRoot with
  | true => rw [List.filter_cons_of_pos h, List.filter_nil, List.getLast?_concat]; rfl
  | false =>
    rw [List.filter_cons_of_neg (by rw [h]; exact Bool.false_ne_true), List.filter_nil,
      List.append_nil]
    rfl

theorem childrenOf_concat (resource : Resource) (es : List (TypedEvent α)) (e : TypedEvent α) :
    childrenOf resource (es ++ [e]) =
      childrenOf resource es ++ if e.isRoot then [] else (spanOf resource e).toList := by
  rw [childrenOf, childrenOf, List.filter_append, List.filterMap_append]
  congr 1
  cases h : e.isRoot with
  | true => rw [List.filter_cons_of_neg (by rw [h]; exact Bool.false_ne_true)]; rfl
  | false =>
    rw [List.filter_cons_of_pos (by rw [h]; rfl), List.filter_nil]
    cases hspan : spanOf resource e with
    | none => exact List.filterMap_cons_none hspan
    | some span => exact List.filterMap_cons_some hspan

theorem finalized_trace (config : ResourceConfig) (log : RunLog α) (event : TypedEvent α) :
    (log.trace config).finalized event = log.exported config (.runEnded event) := by
  unfold BufferedTrace.finalized RunLog.exported RunLog.trace traceOf
  cases rootOf (buildResource log.first config) log.events with
  | none => rfl
  | some root => rfl

theorem flushed_trace (config : ResourceConfig) (log : RunLog α) :
    (log.trace config).flushed = log.exported config .incomplete := by
  unfold BufferedTrace.flushed RunLog.exported RunLog.trace traceOf
  cases rootOf (buildResource log.first config) log.events with
  | none => rfl
  | some root => rfl

theorem attach_traceOf (config : ResourceConfig) (openedAt : ℤ) (first : TypedEvent α)
    (es : List (TypedEvent α)) (event : TypedEvent α) :
    (traceOf config openedAt first es).attach event =
      { traceOf config openedAt first es with rootSpanEvents := attached (es ++ [event]) } := by
  rw [attached_concat, BufferedTrace.attach]
  split
  · rfl
  · rw [List.append_nil]
    rfl

theorem isSome_eventSpanId (event : TypedEvent α) :
    (eventSpanId event).isSome = numbered event := by
  unfold numbered eventSpanId
  cases event.isRoot with
  | true =>
    rw [if_pos rfl, Bool.true_or]
    exact spanId_zero event.runId
  | false =>
    rw [if_neg Bool.false_ne_true, Bool.false_or, spanId]
    exact Option.isSome_map

theorem numbered_iff (resource : Resource) (event : TypedEvent α) :
    numbered event = true ↔ ∃ span, spanOf resource event = some span := by
  rw [← isSome_eventSpanId]
  rcases build_cases event resource with ⟨hnone, hraise⟩ | ⟨hsome, span, -, hspan⟩
  · rw [hnone]
    refine iff_of_false Bool.false_ne_true ?_
    rintro ⟨span, hspan⟩
    exact Option.some_ne_none span (hspan.symm.trans hraise)
  · exact iff_of_true hsome ⟨span, hspan⟩

/-- A span takes its place among those of the events before. -/
theorem place_traceOf (config : ResourceConfig) (traces : TraceBuffer α) {log : RunLog α}
    {es : List (TypedEvent α)} {event : TypedEvent α} {span : Span α}
    (hevents : log.events = es ++ [event])
    (hspan : spanOf (buildResource log.first config) event = some span) :
    place traces ((traceOf config log.openedAt log.first es).attach event) event span =
      if event.eventType = .runEnded then
        (traces.delete event.runId, log.exported config (.runEnded event))
      else (traces.set event.runId (log.trace config), []) := by
  have hroot := rootOf_concat (buildResource log.first config) es event
  have hchildren := childrenOf_concat (buildResource log.first config) es event
  rw [hspan, Option.toList_some] at hchildren
  rw [hspan] at hroot
  rw [attach_traceOf, ← finalized_trace, RunLog.trace, hevents]
  unfold place
  split
  case h_1 htype =>
    have hisRoot : event.isRoot = true := decide_eq_true htype
    rw [if_pos hisRoot] at hroot
    rw [if_pos hisRoot, List.append_nil] at hchildren
    rw [if_neg (by rw [htype]; decide), traceOf, traceOf, hroot, hchildren]
  case h_2 htype =>
    have hisRoot : event.isRoot = false := decide_eq_false (by rw [htype]; decide)
    rw [hisRoot, if_neg Bool.false_ne_true] at hroot hchildren
    rw [if_pos htype, traceOf, traceOf, hroot, hchildren]
    rfl
  case h_3 hstarted hended =>
    have hisRoot : event.isRoot = false := decide_eq_false hstarted
    rw [hisRoot, if_neg Bool.false_ne_true] at hroot hchildren
    rw [if_neg hended, traceOf, traceOf, hroot, hchildren]

/-- An event without a span identity only leaves what it attaches. -/
theorem attach_traceOf_of_none (config : ResourceConfig) {log : RunLog α}
    {es : List (TypedEvent α)} {event : TypedEvent α} (hevents : log.events = es ++ [event])
    (hnumbered : numbered event = false) :
    (traceOf config log.openedAt log.first es).attach event = log.trace config := by
  have hspan : spanOf (buildResource log.first config) event = none := by
    refine Option.eq_none_iff_forall_ne_some.2 fun span hspan => ?_
    rw [(numbered_iff (buildResource log.first config) event).2 ⟨span, hspan⟩] at hnumbered
    cases hnumbered
  have hisRoot : event.isRoot = false := (Bool.or_eq_false_iff.1 hnumbered).1
  have hroot := rootOf_concat (buildResource log.first config) es event
  have hchildren := childrenOf_concat (buildResource log.first config) es event
  rw [hisRoot, if_neg Bool.false_ne_true] at hroot hchildren
  rw [hspan, Option.toList_none, List.append_nil] at hchildren
  rw [attach_traceOf, RunLog.trace, hevents, traceOf, traceOf, hroot, hchildren]

end Spans

/-! ## The buffer refines the logs -/

section Refine

variable [JsStrings] [Sha256] (config : ResourceConfig)

theorem foldl_older (es : List (String × RunLog α)) (best : Option (String × RunLog α)) :
    (es.map fun e => (e.1, e.2.trace config)).foldl older
        (best.map fun e => (e.1, e.2.openedAt)) =
      (es.foldl (List.argAux fun b c => b.2.openedAt < c.2.openedAt) best).map
        fun e => (e.1, e.2.openedAt) := by
  induction es generalizing best with
  | nil => rfl
  | cons e es ih =>
    rw [List.map_cons, List.foldl_cons, List.foldl_cons, ← ih]
    congr 1
    cases best with
    | none => rfl
    | some b =>
      show (if e.2.openedAt < b.2.openedAt then _ else _) = Option.map _ (ite _ _ _)
      split
      · rfl
      · rfl

/-- The oldest trace is the first of the logs opened earliest. -/
theorem oldestRunId_mapValues (logs : Logs α) :
    oldestRunId (logs.mapValues (RunLog.trace config)) =
      (logs.entries.argmin fun e => e.2.openedAt).map Prod.fst := by
  rw [oldestRunId, OrderedMap.entries_mapValues]
  have hfold := foldl_older config logs.entries none
  rw [Option.map_none] at hfold
  rw [hfold, Option.map_map]
  rfl

/-- Room is made in the same way. -/
theorem makeRoom_mapValues {logs : Logs α} {runId : String} (h : logs.get? runId = none) :
    TraceBuffer.makeRoom (logs.mapValues (RunLog.trace config)) =
        logs.makeRoom.1.mapValues (RunLog.trace config) ∧
      evictedFor (logs.mapValues (RunLog.trace config)) runId =
        logs.makeRoom.2.map (RunLog.trace config) := by
  unfold TraceBuffer.makeRoom evictedFor Logs.makeRoom evictOldest
  rw [OrderedMap.get?_mapValues, h, OrderedMap.size_mapValues, oldestRunId_mapValues]
  by_cases hfull : maxConcurrentTraces ≤ logs.size
  · rw [if_pos hfull, if_pos hfull, if_pos ⟨rfl, hfull⟩]
    cases holdest : logs.entries.argmin fun e => e.2.openedAt with
    | none => exact ⟨rfl, rfl⟩
    | some oldest =>
      refine ⟨OrderedMap.delete_mapValues .., ?_⟩
      have hget : logs.get? oldest.1 = some oldest.2 :=
        OrderedMap.get?_eq_some_iff.2 (List.argmin_mem holdest)
      rw [Option.map_some, Option.bind_some, OrderedMap.get?_mapValues, hget]
  · rw [if_neg hfull, if_neg hfull, if_neg fun hfull' => hfull hfull'.2]
    exact ⟨rfl, rfl⟩

/-- What a call answers, said of the logs it closes. -/
def answerOf (call : Call α) (closed : Closed α) : Answer α where
  returned :=
    let ending : Ending α :=
      match call with
      | .addEvent _ event => .runEnded event
      | .flushTimedOut _ _ => .incomplete
      | .flushAll => .incomplete
    closed.returned.map fun logs => logs.flatMap (RunLog.exported config ending)
  evicted := closed.evicted.map (RunLog.trace config)

/-- An event is noted in the log of its run, or closes it. -/
theorem addEvent_of_openTrace {logs : Logs α} {b traces : TraceBuffer α} {now : ℤ}
    {log : RunLog α} {es : List (TypedEvent α)} {event : TypedEvent α}
    (hevents : log.events = es ++ [event])
    (hopen : openTrace config b now event =
      (traces, traceOf config log.openedAt log.first es))
    (hset : ∀ t, traces.set event.runId t =
      (logs.mapValues (RunLog.trace config)).set event.runId t)
    (hdelete : traces.delete event.runId =
      (logs.mapValues (RunLog.trace config)).delete event.runId) :
    addEvent config b now event =
      ((logs.note log event).1.mapValues (RunLog.trace config),
        (logs.note log event).2.map fun logs =>
          logs.flatMap (RunLog.exported config (.runEnded event))) := by
  have hresource : ((traceOf config log.openedAt log.first es).attach event).resource =
      buildResource log.first config := by
    rw [attach_traceOf]
    rfl
  unfold addEvent Logs.note
  rw [hopen]
  dsimp only
  rw [hresource, ← spanOf]
  cases hnumbered : numbered event with
  | true =>
    obtain ⟨span, hspan⟩ := (numbered_iff (buildResource log.first config) event).1 hnumbered
    rw [hspan, if_pos rfl]
    dsimp only
    rw [place_traceOf config traces hevents hspan]
    by_cases hended : event.eventType = .runEnded
    · rw [if_pos hended, if_pos hended, hdelete, OrderedMap.delete_mapValues, Option.map_some,
        List.flatMap_singleton]
    · rw [if_neg hended, if_neg hended, hset, OrderedMap.set_mapValues]
      rfl
  | false =>
    have hspan : spanOf (buildResource log.first config) event = none := by
      refine Option.eq_none_iff_forall_ne_some.2 fun span hspan => ?_
      have htrue := (numbered_iff (buildResource log.first config) event).2 ⟨span, hspan⟩
      exact Bool.false_ne_true (hnumbered.symm.trans htrue)
    rw [hspan, attach_traceOf_of_none config hevents hnumbered, if_neg Bool.false_ne_true, hset,
      OrderedMap.set_mapValues]
    rfl

theorem flatMap_flushed (es : List (String × RunLog α)) :
    (es.map fun e => (e.1, e.2.trace config)).flatMap (fun e => e.2.flushed) =
      (es.map Prod.snd).flatMap (RunLog.exported config .incomplete) := by
  rw [List.flatMap_map, List.flatMap_map]
  exact List.flatMap_congr fun e _ => flushed_trace config e.2

/-- **One call** of the buffer is one of the logs. -/
theorem step_mapValues (logs : Logs α) (call : Call α) :
    step config (logs.mapValues (RunLog.trace config)) call =
      ((logs.step call).1.mapValues (RunLog.trace config),
        answerOf config call (logs.step call).2) := by
  cases call with
  | addEvent now event =>
    cases hget : logs.get? event.runId with
    | some log =>
      have hget' : (logs.mapValues (RunLog.trace config)).get? event.runId =
          some (log.trace config) := by rw [OrderedMap.get?_mapValues, hget, Option.map_some]
      have hopen : openTrace config (logs.mapValues (RunLog.trace config)) now event =
          (logs.mapValues (RunLog.trace config), log.trace config) := by rw [openTrace, hget']
      have hnone : evictedFor (logs.mapValues (RunLog.trace config)) event.runId = none := by
        rw [evictedFor, hget']
        exact if_neg fun h => Option.some_ne_none _ h.1
      have hadd : addEvent config (logs.mapValues (RunLog.trace config)) now event =
          ((logs.note (log.add event) event).1.mapValues (RunLog.trace config),
            (logs.note (log.add event) event).2.map fun logs =>
              logs.flatMap (RunLog.exported config (.runEnded event))) :=
        addEvent_of_openTrace config (RunLog.events_add log event) hopen (fun _ => rfl) rfl
      rw [step, hadd, hnone, Logs.step_of_some hget]
      rfl
    | none =>
      obtain ⟨hroom, hevicted⟩ := makeRoom_mapValues config hget
      have hget' : (logs.mapValues (RunLog.trace config)).get? event.runId = none := by
        rw [OrderedMap.get?_mapValues, hget, Option.map_none]
      have hopen : openTrace config (logs.mapValues (RunLog.trace config)) now event =
          ((logs.makeRoom.1.mapValues (RunLog.trace config)).set event.runId
            (BufferedTrace.new config now event), traceOf config now event []) := by
        rw [openTrace, hget']
        dsimp only
        rw [hroom]
        rfl
      have hadd : addEvent config (logs.mapValues (RunLog.trace config)) now event =
          ((logs.makeRoom.1.note ⟨now, event, []⟩ event).1.mapValues (RunLog.trace config),
            (logs.makeRoom.1.note ⟨now, event, []⟩ event).2.map fun logs =>
              logs.flatMap (RunLog.exported config (.runEnded event))) :=
        addEvent_of_openTrace config (List.nil_append [event]).symm hopen
          (fun _ => OrderedMap.set_set ..) (OrderedMap.delete_set ..)
      rw [step, hadd, hevicted, Logs.step_of_none hget]
      rfl
  | flushTimedOut now timeoutMs =>
    have hfilter : (logs.mapValues (RunLog.trace config)).entries.filter (timedOut now timeoutMs) =
        (logs.entries.filter fun e => Logs.late now timeoutMs e.2).map fun e =>
          (e.1, e.2.trace config) := by
      rw [OrderedMap.entries_mapValues, List.filter_map]
      rfl
    have hvalues : logs.values.filter (Logs.late now timeoutMs) =
        (logs.entries.filter fun e => Logs.late now timeoutMs e.2).map Prod.snd := by
      rw [OrderedMap.values, List.filter_map]
      rfl
    show ((logs.mapValues (RunLog.trace config)).filter fun e => !timedOut now timeoutMs e,
        Answer.mk (some (List.flatMap _ (List.filter _ _))) none) =
      (_, Answer.mk (some (List.flatMap _ (List.filter _ _))) none)
    rw [OrderedMap.filter_mapValues, hfilter, flatMap_flushed, hvalues]
    rfl
  | flushAll =>
    show (_, Answer.mk (some (List.flatMap _ _)) none) =
      (_, Answer.mk (some (List.flatMap _ logs.values)) none)
    rw [OrderedMap.entries_mapValues, flatMap_flushed]
    rfl

end Refine

/-! ## Each event in one log -/

/-- The event a call adds. -/
def added : Call α → Option (TypedEvent α)
  | .addEvent _ event => some event
  | .flushTimedOut _ _ => none
  | .flushAll => none

/-- The events of a run. -/
def ofRun (runId : String) (es : List (TypedEvent α)) : List (TypedEvent α) :=
  es.filter fun e => e.runId = runId

/-- What some logs hold of a run. -/
def heldBy (runId : String) (logs : List (RunLog α)) : List (TypedEvent α) :=
  (logs.filter fun log => log.runId = runId).flatMap RunLog.events

theorem heldBy_append (runId : String) (xs ys : List (RunLog α)) :
    heldBy runId (xs ++ ys) = heldBy runId xs ++ heldBy runId ys := by
  rw [heldBy, List.filter_append, List.flatMap_append, heldBy, heldBy]

theorem heldBy_singleton (runId : String) (log : RunLog α) :
    heldBy runId [log] = if log.runId = runId then log.events else [] := by
  by_cases h : log.runId = runId
  · rw [if_pos h, heldBy, List.filter_cons, if_pos (decide_eq_true h)]
    exact List.flatMap_singleton ..
  · rw [if_neg h, heldBy, List.filter_cons, if_neg fun h' => h (of_decide_eq_true h')]
    rfl

theorem ofRun_singleton (runId : String) (event : TypedEvent α) :
    ofRun runId [event] = if event.runId = runId then [event] else [] := by
  by_cases h : event.runId = runId
  · rw [if_pos h, ofRun, List.filter_cons, if_pos (decide_eq_true h), List.filter_nil]
  · rw [if_neg h, ofRun, List.filter_cons, if_neg fun h' => h (of_decide_eq_true h'),
      List.filter_nil]

namespace Logs

/-- The key of a log is its run. -/
def Keyed (logs : Logs α) : Prop := ∀ e ∈ logs.entries, e.2.runId = e.1

theorem Keyed.filter_values {logs : Logs α} (h : logs.Keyed) (runId : String) :
    logs.values.filter (fun log => log.runId = runId) = (logs.get? runId).toList := by
  have hfilter : logs.entries.filter (fun e => e.2.runId = runId) =
      logs.entries.filter fun e => e.1 = runId :=
    List.filter_congr fun e he => by rw [h e he]
  have hvalues : logs.values.filter (fun log => log.runId = runId) =
      (logs.entries.filter fun e => e.2.runId = runId).map Prod.snd := by
    rw [OrderedMap.values, List.filter_map]
    rfl
  rw [hvalues, hfilter, OrderedMap.filter_entries_key]
  cases logs.get? runId with
  | none => rfl
  | some log => rfl

theorem Keyed.heldBy_values {logs : Logs α} (h : logs.Keyed) (runId : String) :
    heldBy runId logs.values = (logs.get? runId).elim [] RunLog.events := by
  rw [heldBy, h.filter_values]
  cases logs.get? runId with
  | none => rfl
  | some log => exact List.append_nil _

theorem Keyed.filter {logs : Logs α} (h : logs.Keyed) (p : String × RunLog α → Bool) :
    Keyed (OrderedMap.filter logs p) :=
  fun e he => h e (List.mem_filter.1 he).1

theorem Keyed.set {logs : Logs α} (h : logs.Keyed) {runId : String} {log : RunLog α}
    (hlog : log.runId = runId) : Keyed (OrderedMap.set logs runId log) := by
  intro e he
  rcases OrderedMap.mem_set.1 he with rfl | ⟨he, -⟩
  · exact hlog
  · exact h e he

/-- Room is made by closing one log. -/
theorem Keyed.makeRoom {logs : Logs α} (h : logs.Keyed) :
    logs.makeRoom.1.Keyed ∧ ∀ runId,
      heldBy runId logs.makeRoom.2.toList ++ heldBy runId logs.makeRoom.1.values =
        heldBy runId logs.values := by
  unfold Logs.makeRoom
  split
  case isFalse => exact ⟨h, fun _ => rfl⟩
  case isTrue =>
    cases holdest : logs.entries.argmin fun e => e.2.openedAt with
    | none => exact ⟨h, fun _ => rfl⟩
    | some oldest =>
      have hmem : oldest ∈ logs.entries := List.argmin_mem holdest
      have hget : logs.get? oldest.1 = some oldest.2 := OrderedMap.get?_eq_some_iff.2 hmem
      have hkeyed : Keyed (OrderedMap.delete logs oldest.1) := h.filter _
      refine ⟨hkeyed, fun runId => ?_⟩
      dsimp only
      rw [Option.toList_some, heldBy_singleton, hkeyed.heldBy_values, h.heldBy_values,
        OrderedMap.get?_delete, h oldest hmem]
      by_cases hrun : oldest.1 = runId
      · rw [if_pos hrun, if_pos hrun.symm, ← hrun, hget]
        exact List.append_nil _
      · rw [if_neg hrun, if_neg fun heq => hrun heq.symm, List.nil_append]

/-- An event more in the log of its run, whether that is kept or closed. -/
theorem Keyed.note {logs : Logs α} (h : logs.Keyed) {log : RunLog α} {event : TypedEvent α}
    (hrun : log.runId = event.runId)
    (hevents : log.events = heldBy event.runId logs.values ++ [event]) :
    (logs.note log event).1.Keyed ∧ ∀ runId,
      heldBy runId ((logs.note log event).2.getD []) ++
          heldBy runId (logs.note log event).1.values =
        heldBy runId logs.values ++ ofRun runId [event] := by
  have hset : Keyed (OrderedMap.set logs event.runId log) := h.set hrun
  have hdelete : Keyed (OrderedMap.delete logs event.runId) := h.filter _
  have hkept : ∀ runId, heldBy runId (OrderedMap.set logs event.runId log).values =
      heldBy runId logs.values ++ ofRun runId [event] := by
    intro runId
    rw [hset.heldBy_values, OrderedMap.get?_set, ofRun_singleton]
    by_cases heq : event.runId = runId
    · rw [if_pos heq, if_pos heq.symm, ← heq]
      exact hevents
    · rw [if_neg heq, if_neg fun heq' => heq heq'.symm, List.append_nil, h.heldBy_values]
  unfold Logs.note
  split
  case isFalse => exact ⟨hset, hkept⟩
  case isTrue =>
    split
    case isFalse => exact ⟨hset, hkept⟩
    case isTrue =>
      refine ⟨hdelete, fun runId => ?_⟩
      dsimp only
      rw [Option.getD_some, heldBy_singleton, ofRun_singleton, hdelete.heldBy_values,
        OrderedMap.get?_delete, hrun]
      by_cases heq : event.runId = runId
      · rw [if_pos heq, if_pos heq, if_pos heq.symm, hevents, heq]
        exact List.append_nil _
      · rw [if_neg heq, if_neg heq, if_neg fun heq' => heq heq'.symm, List.append_nil,
          h.heldBy_values, List.nil_append]

/-- **One call**: what it closes and what stays open is what was open, and the
event. -/
theorem Keyed.step {logs : Logs α} (h : logs.Keyed) (call : Call α) :
    (logs.step call).1.Keyed ∧ ∀ runId,
      heldBy runId (logs.step call).2.logs ++ heldBy runId (logs.step call).1.values =
        heldBy runId logs.values ++ ofRun runId (added call).toList := by
  cases call with
  | addEvent now event =>
    cases hget : logs.get? event.runId with
    | some log =>
      rw [step_of_some hget]
      have hrun : (log.add event).runId = event.runId :=
        h (event.runId, log) (OrderedMap.get?_eq_some_iff.1 hget)
      refine h.note hrun ?_
      rw [h.heldBy_values, hget]
      rfl
    | none =>
      rw [step_of_none hget]
      obtain ⟨hroom, hheld⟩ := h.makeRoom
      have hempty : heldBy event.runId logs.makeRoom.1.values = [] := by
        have hnothing := hheld event.runId
        rw [h.heldBy_values, hget] at hnothing
        exact (List.append_eq_nil_iff.1 hnothing).2
      have hevents : RunLog.events ⟨now, event, []⟩ =
          heldBy event.runId logs.makeRoom.1.values ++ [event] := by
        rw [hempty]
        rfl
      have hrun : RunLog.runId ⟨now, event, []⟩ = event.runId := rfl
      obtain ⟨hkeyed, hnote⟩ := hroom.note hrun hevents
      refine ⟨hkeyed, fun runId => ?_⟩
      rw [Closed.logs, heldBy_append, List.append_assoc, hnote, ← List.append_assoc, hheld]
      rfl
  | flushTimedOut now timeoutMs =>
    refine ⟨h.filter _, fun runId => ?_⟩
    have hopen : OrderedMap.values (OrderedMap.filter logs fun e => !late now timeoutMs e.2) =
        logs.values.filter fun log => !late now timeoutMs log := by
      show (logs.entries.filter _).map Prod.snd = (logs.entries.map Prod.snd).filter _
      rw [List.filter_map]
      rfl
    show heldBy runId (logs.values.filter (late now timeoutMs)) ++
      heldBy runId (OrderedMap.values (OrderedMap.filter logs _)) = _ ++ []
    -- a run has one log at most, so nothing changes places
    rw [hopen, List.append_nil, heldBy, heldBy, heldBy, List.filter_comm, h.filter_values,
      List.filter_comm, h.filter_values]
    cases logs.get? runId with
    | none => rfl
    | some log =>
      cases hlate : late now timeoutMs log with
      | true => simp [hlate]
      | false => simp [hlate]
  | flushAll =>
    refine ⟨fun e he => absurd he List.not_mem_nil, fun runId => ?_⟩
    rfl

end Logs

/-! ## Whole runs -/

/-- The logs a run leaves open. -/
noncomputable def openLogs (calls : List (Call α)) : Logs α :=
  Run.stateAfter Logs.step .empty calls

/-- What the calls of a run close. -/
noncomputable def closures (calls : List (Call α)) : List (Closed α) :=
  Run.outputs Logs.step .empty calls

/-- The events of a run, in the logs that have been closed and the one that is
open. -/
theorem heldBy_run (calls : List (Call α)) :
    (openLogs calls).Keyed ∧ ∀ runId,
      heldBy runId ((closures calls).flatMap Closed.logs) ++ heldBy runId (openLogs calls).values =
        ofRun runId (calls.filterMap added) := by
  induction calls using List.reverseRecOn with
  | nil => exact ⟨fun e he => absurd he List.not_mem_nil, fun _ => rfl⟩
  | append_singleton calls call ih =>
    obtain ⟨hkeyed, hheld⟩ := ih
    obtain ⟨hstep, hone⟩ := hkeyed.step call
    have hopen : openLogs (calls ++ [call]) = ((openLogs calls).step call).1 :=
      Run.stateAfter_concat ..
    have hclosed : closures (calls ++ [call]) =
        closures calls ++ [((openLogs calls).step call).2] := Run.outputs_concat ..
    have hadded : (calls ++ [call]).filterMap added =
        calls.filterMap added ++ (added call).toList := by
      rw [List.filterMap_append]
      cases call <;> rfl
    rw [hopen, hclosed, hadded]
    refine ⟨hstep, fun runId => ?_⟩
    rw [List.flatMap_append, List.flatMap_singleton, heldBy_append, List.append_assoc, hone,
      ← List.append_assoc, hheld, ofRun, ofRun, ofRun, List.filter_append]

section Exports

variable [JsStrings] [Sha256] (config : ResourceConfig)

/-- A span is in the trace of its run and hangs under its root. -/
structure Placed (span : Span α) : Prop where
  trace : span.traceId = traceId span.event.runId
  id : eventSpanId span.event = some span.spanId
  parent : span.parentSpanId = if span.event.isRoot then none else spanId span.event.runId 0

theorem placed_of_spanOf {resource : Resource} {event : TypedEvent α} {span : Span α}
    (h : spanOf resource event = some span) : span.event = event ∧ Placed span := by
  obtain ⟨rootSpanId, hroot, hbuild⟩ := Option.bind_eq_some_iff.1 h
  obtain ⟨sId, hid, rfl⟩ := Option.map_eq_some_iff.1 hbuild
  refine ⟨rfl, rfl, hid, ?_⟩
  rw [hroot]

theorem placed_of_mem_exported {ending : Ending α} {log : RunLog α} {span : Span α}
    (h : span ∈ log.exported config ending) : Placed span := by
  rcases List.mem_append.1 h with h | h
  · obtain ⟨root, hmem, rfl⟩ := List.mem_map.1 h
    obtain ⟨event, hlast, hspan⟩ := Option.bind_eq_some_iff.1 (Option.mem_toList.1 hmem)
    obtain ⟨hevent, hplaced⟩ := placed_of_spanOf hspan
    have hisRoot : root.event.isRoot = true := by
      rw [hevent]
      exact (List.mem_filter.1 (List.mem_of_getLast? hlast)).2
    refine ⟨hplaced.trace, hplaced.id, ?_⟩
    rw [if_pos hisRoot]
  · obtain ⟨event, -, hspan⟩ := List.mem_filterMap.1 h
    exact (placed_of_spanOf hspan).2

theorem placed_of_mem_answerOf {call : Call α} {closed : Closed α} {span : Span α}
    (h : span ∈ (answerOf config call closed).spans) : Placed span := by
  unfold answerOf Answer.spans at h
  cases hreturned : closed.returned with
  | none =>
    rw [hreturned] at h
    cases h
  | some logs =>
    rw [hreturned] at h
    obtain ⟨log, -, hspan⟩ := List.mem_flatMap.1 h
    exact placed_of_mem_exported config hspan

/-- **The runs are kept apart.**  Whatever is called, in whatever order the events
of the runs come in: what the calls answer are the spans of the logs they close;
what the buffer holds are the traces of the logs that are open; and the logs of a
run, those closed and the one still open, are all the events added for it, each
once and in order.  Every span returned is in the trace of its run, under its
root. -/
theorem exports_logs (calls : List (Call α)) :
    Run.outputs (step config) .empty calls = List.zipWith (answerOf config) calls (closures calls) ∧
      bufferAfter config calls = (openLogs calls).mapValues (RunLog.trace config) ∧
      (∀ runId, heldBy runId ((closures calls).flatMap Closed.logs) ++
          heldBy runId (openLogs calls).values = ofRun runId (calls.filterMap added)) ∧
      ∀ span ∈ returned config calls, Placed span := by
  obtain ⟨houts, hstate⟩ := Run.outputs_of_simulation (step config) (step_mapValues config)
    .empty calls
  refine ⟨houts, hstate, (heldBy_run calls).2, fun span hspan => ?_⟩
  obtain ⟨answer, hanswer, hspan⟩ := List.mem_flatMap.1 hspan
  have hmem : answer ∈ List.zipWith (answerOf config) calls (closures calls) := houts ▸ hanswer
  rw [← List.map_uncurry_zip_eq_zipWith] at hmem
  obtain ⟨⟨call, closed⟩, -, rfl⟩ := List.mem_map.1 hmem
  exact placed_of_mem_answerOf config hspan

end Exports

end LoopStorm.Otel.TraceBuffer
