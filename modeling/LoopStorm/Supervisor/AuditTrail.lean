import LoopStorm.Backend.ChainVerify
import LoopStorm.Backend.Ingest
import LoopStorm.Supervisor.Session

/-!
# The audit trail of a supervisor session

The events of a session meet the endpoint they are sent to: `emitEvent` of
`packages/backend/src/trpc/routers/supervisor-tools.ts`.

* `emitSchema`, `EmitInput.ofFields` — what the endpoint lets through.
* `submit`, `Surroundings.world` — the endpoint and its tables as the world of a
  session, next to any model and any handlers.
* `AuditTrail` — every event accepted, the stored ones numbered from one, their
  chain verified.
* `submit_fresh` — the endpoint stores an event before it makes the run the
  event belongs to, so an event of a run there is not yet is refused.
* `audit_trail_never` — **no session has an audit trail**: its first event is one.
* `nothing_kept` — nor is any other of its events accepted.
-/

namespace LoopStorm.Supervisor

open LoopStorm.Backend
open LoopStorm.Engine (Sha256)
open LoopStorm.Shim (ReplyValue)
open ReadCommitted

/-! ## The endpoint -/

/-- The schema of the input of `emitEvent`. -/
def emitSchema : List (String × Check) :=
  [("run_id", stringWith [(isUuid, "Invalid uuid")]),
    ("schema_version", literalOne),
    ("event_type", stringWith [nonEmpty]),
    ("seq", numberWith [isInt, atLeast 1]),
    ("ts", stringWith [(isDatetime, "Invalid datetime")]),
    ("hash", stringWith [hashLength]),
    ("hash_prev", nullable (stringWith [hashLength])),
    ("agent_name", Backend.optional (stringWith [])),
    ("supervisor_run_id", Backend.optional (stringWith [])),
    ("trigger", Backend.optional (stringWith [])),
    ("trigger_run_id", Backend.optional (stringWith [])),
    ("proposal_id", Backend.optional (stringWith [])),
    ("proposal_type", Backend.optional (stringWith [])),
    ("target_agent", Backend.optional (stringWith [])),
    ("rationale", Backend.optional (stringWith [])),
    ("confidence", Backend.optional (numberWith [])),
    ("supporting_runs", Backend.optional stringArray),
    ("status", Backend.optional (stringWith [])),
    ("escalation_id", Backend.optional (stringWith [])),
    ("severity", Backend.optional (stringWith [])),
    ("recommendation", Backend.optional (stringWith [])),
    ("timeout_seconds", Backend.optional (numberWith [isInt])),
    ("timeout_action", Backend.optional (stringWith []))]

/-- A field that holds a string. -/
def stringField (fields : Fields) (key : String) : Option String :=
  (Json.lookup key fields).bind Json.asStr

/-- A field that holds a natural number. -/
def natField (fields : Fields) (key : String) : Option Nat :=
  match Json.lookup key fields with
  | some (.num n) => if (numberValue n).den = 1 then some (numberValue n).num.toNat else none
  | _ => none

/-- The input of `emitEvent`, when the schema finds nothing wrong with it. -/
def EmitInput.ofFields (fields : Fields) : Option EmitInput :=
  if emitSchema.all fun field => (field.2 (Json.lookup field.1 fields)).isNone then do
    let runId ← stringField fields "run_id"
    let eventType ← stringField fields "event_type"
    let seq ← natField fields "seq"
    let ts ← stringField fields "ts"
    let hash ← stringField fields "hash"
    if h : isUuid runId = true ∧ 1 ≤ seq ∧ (Shim.Ts.lit hash).length = 64 ∧
        ∀ h ∈ stringField fields "hash_prev", (Shim.Ts.lit h).length = 64 then
      some
        { runId := runId
          eventType := eventType
          seq := seq
          ts := ts
          hash := hash
          hashPrev := stringField fields "hash_prev"
          agentName := stringField fields "agent_name"
          optionals := (emitSchema.drop 8).filterMap fun field =>
            (Json.lookup field.1 fields).map fun v => (field.1, v)
          runId_isUuid := h.1
          one_le_seq := h.2.1
          hash_length := h.2.2.1
          hashPrev_length := h.2.2.2 }
    else none
  else none

theorem ofFields_runId {fields : Fields} {input : EmitInput}
    (h : EmitInput.ofFields fields = some input) :
    stringField fields "run_id" = some input.runId := by
  unfold EmitInput.ofFields at h
  split_ifs at h
  · simp only [Option.bind_eq_bind, Option.bind_eq_some_iff] at h
    obtain ⟨runId, hrunId, eventType, -, seq, -, ts, -, hash, -, h⟩ := h
    split_ifs at h
    cases h
    exact hrunId

variable (tenantId : String) (supervisorScope : Bool)

/-- `emitEvent` of the backend: the tables after it, if it accepts the event. -/
def submit (db : Db) (fields : Fields) : Option Db :=
  match EmitInput.ofFields fields with
  | none => none
  | some input =>
    match (Backend.emitEvent tenantId supervisorScope input).serial tenantId 0 db with
    | .ok (_, db) => some db
    | .error _ => none

/-- There is no row of a run, and no event of it. -/
structure Fresh (runId : String) (db : Db) : Prop where
  run : db.runs (toUuid runId) = .empty
  events : ∀ seq, db.events (toUuid runId, seq) = .empty

/-- An event of a run there is not yet is refused: its row refers to the row of
the run, which the endpoint would only write after it. -/
theorem submit_fresh {runId : String} {db : Db} {fields : Fields} (hfresh : Fresh runId db)
    (hrun : Json.lookup "run_id" fields = some (.str runId)) :
    submit tenantId supervisorScope db fields = none := by
  unfold submit
  cases hinput : EmitInput.ofFields fields with
  | none => rfl
  | some input =>
    have hid : input.runId = runId := by
      have hfield := ofFields_runId hinput
      rw [stringField, hrun] at hfield
      exact (Option.some.inj hfield).symm
    have hrefused : db.run tenantId 0 (.insertEvent (input.eventRow tenantId)) = .refused := by
      simp [Db.run, EmitInput.eventRow, EventRow.key, hid, hfresh.run, hfresh.events,
        Cell.lockedFor, Cell.read, Cell.own, Cell.empty]
    cases supervisorScope with
    | false => rfl
    | true =>
      have hserial : (Backend.emitEvent tenantId true input).serial tenantId 0 db =
          .error .database := by
        rw [Backend.emitEvent, if_pos rfl, Prog.serial, hrefused]
      dsimp only
      rw [hserial]

/-! ## A session over the tables -/

/-- The model, the handlers and the clock, next to the tables: they may change
them, and so may anyone else in the meantime. -/
structure Surroundings (τ : Type) where
  chat : Db × τ → List Message → (Db × τ) × Option LLMResponse
  handle : Db × τ → String → ReplyValue → (Db × τ) × Handled
  now : Db × τ → String

/-- The world of a session with a backend that can be reached. -/
def Surroundings.world {τ : Type} (around : Surroundings τ) : World (Db × τ) where
  chat := around.chat
  handle := around.handle
  now := around.now
  emitEvent := fun s event =>
    match submit tenantId supervisorScope s.1 event with
    | some db => ((db, s.2), true)
    | none => (s, false)

/-- A stored event as `verify.chain` reads it. -/
def chainEvent (row : EventRow) : ChainEvent ℤ where
  seq := row.seq
  hash := row.hash
  hashPrev := row.hashPrev
  rawLine := some row.rawLine
  others := []

/-- `verify.chain` finds a run, and its events in order have a valid chain. -/
def ChainVerified [Sha256] (runId : String) (db : Db) : Prop :=
  (∃ run, (db.runs (toUuid runId)).committed = some run ∧ run.tenantId = tenantId) ∧
    ∃ rows : List EventRow,
      rows.Pairwise (fun a b => a.seq < b.seq) ∧
      (∀ row, row ∈ rows ↔ row.tenantId = tenantId ∧ 0 < row.seq ∧
        ∃ seq, (db.events (toUuid runId, seq)).committed = some row) ∧
      (verifyChain (rows.map chainEvent)).isValid = true

/-- A complete and verifiable trail of what a session has done. -/
structure AuditTrail [Sha256] (runId : String) (record : List Effect) (db : Db) : Prop where
  accepted : ∀ event ok, .sent event ok ∈ record → ok = true
  consecutive : ∃ n, ∀ seq, ((db.events (toUuid runId, seq)).committed).isSome = true ↔
    1 ≤ seq ∧ seq ≤ n
  verified : ChainVerified tenantId runId db

section Sessions

variable [Sha256] {τ : Type} (around : Surroundings τ) (p : SessionParams)

/-- Every event names the run of its session. -/
theorem runId_eventOf {σ : Type} (w : World σ) (s : Session σ) (eventType : String)
    {extra : Fields} (hextra : Spare extra) :
    Json.lookup "run_id" (eventOf w p s eventType extra) = some (.str p.supervisorRunUuid) := by
  have hnone : Json.lookup "run_id" extra = none := by
    apply Json.lookup_eq_none
    intro m hm heq
    exact hextra m hm (heq ▸ by decide)
  simp [eventOf, payload, Json.lookup_append, Json.lookup, hnone]

/-- An event is refused as long as there is no row of the run. -/
theorem emitEvent_fresh {s : Session (Db × τ)} (hfresh : Fresh p.supervisorRunUuid s.world.1)
    (eventType : String) {extra : Fields} (hextra : Spare extra) :
    (emitEvent (around.world tenantId supervisorScope) p s eventType extra).world = s.world ∧
      ∃ event, (emitEvent (around.world tenantId supervisorScope) p s eventType extra).record =
        s.record ++ [.sent event false] := by
  have hrefused := submit_fresh tenantId supervisorScope hfresh
    (runId_eventOf p (around.world tenantId supervisorScope) s eventType hextra)
  constructor
  · simp only [emitEvent, Surroundings.world] at hrefused ⊢
    rw [hrefused]
  · refine ⟨eventOf (around.world tenantId supervisorScope) p s eventType extra, ?_⟩
    simp only [emitEvent_record, Surroundings.world] at hrefused ⊢
    rw [hrefused]

/-- The first event of a session, of a run that is its own, is refused. -/
theorem first_refused {db : Db} (hfresh : Fresh p.supervisorRunUuid db) (t : τ) :
    ∃ event, .sent event false ∈
      (execute (around.world tenantId supervisorScope) p (db, t)).1.record := by
  have hextra : Spare (triggerFields p) := by simp [Spare, triggerFields, commonFields]
  obtain ⟨-, event, hevent⟩ := emitEvent_fresh tenantId supervisorScope around p
    (s := ⟨0, 0, 0, 0, none, [.user (.text p.triggerMessage)], (db, t), []⟩) hfresh
    "supervisor_run_started" hextra
  obtain ⟨did, hdid, -⟩ := loop_trips (w := around.world tenantId supervisorScope) (p := p)
    maxToolCalls (started (around.world tenantId supervisorScope) p (db, t))
  refine ⟨event, ?_⟩
  rw [execute, hdid, started, hevent]
  simp

/-- **No session has an audit trail**, whatever the model answers and whatever
its tools do: its events belong to a run that is its own, and so the first of
them is refused. -/
theorem audit_trail_never {db : Db} (hfresh : Fresh p.supervisorRunUuid db) (t : τ) :
    ¬ AuditTrail tenantId p.supervisorRunUuid
      (execute (around.world tenantId supervisorScope) p (db, t)).1.record
      (execute (around.world tenantId supervisorScope) p (db, t)).1.world.1 := by
  intro h
  obtain ⟨event, hevent⟩ := first_refused tenantId supervisorScope around p hfresh t
  cases h.accepted event false hevent

/-- Unless someone else makes a run of that name, no event of the session is
ever accepted, and nothing of it is stored. -/
theorem nothing_kept {db : Db} (hfresh : Fresh p.supervisorRunUuid db) (t : τ)
    (hchat : ∀ s messages, Fresh p.supervisorRunUuid s.1 →
      Fresh p.supervisorRunUuid (around.chat s messages).1.1)
    (hhandle : ∀ s name input, Fresh p.supervisorRunUuid s.1 →
      Fresh p.supervisorRunUuid (around.handle s name input).1.1) :
    Fresh p.supervisorRunUuid
        (execute (around.world tenantId supervisorScope) p (db, t)).1.world.1 ∧
      ∀ event ok, .sent event ok ∈
        (execute (around.world tenantId supervisorScope) p (db, t)).1.record → ok = false := by
  have hkeeps : Keeps (around.world tenantId supervisorScope) p fun s record =>
      Fresh p.supervisorRunUuid s.1 ∧ ∀ event ok, .sent event ok ∈ record → ok = false := by
    constructor
    case emit =>
      rintro s eventType extra hextra ⟨hfresh, hrefused⟩
      obtain ⟨hworld, event, hrecord⟩ :=
        emitEvent_fresh tenantId supervisorScope around p hfresh eventType hextra
      rw [hworld, hrecord]
      refine ⟨hfresh, ?_⟩
      intro event' ok hmem
      rcases List.mem_append.1 hmem with hmem | hmem
      · exact hrefused event' ok hmem
      · cases List.mem_singleton.1 hmem
        rfl
    case handle =>
      rintro s record name input ⟨hfresh, hrefused⟩
      refine ⟨hhandle s name input hfresh, ?_⟩
      simpa using hrefused
    case fail =>
      rintro s s' record messages heq ⟨hfresh, hrefused⟩
      have hkept := hchat s messages hfresh
      rw [show around.chat s messages = (s', none) from heq] at hkept
      exact ⟨hkept, hrefused⟩
    case answer =>
      rintro s s' record messages response heq ⟨hfresh, hrefused⟩
      have hkept := hchat s messages hfresh
      rw [show around.chat s messages = (s', some response) from heq] at hkept
      refine ⟨hkept, ?_⟩
      simpa using hrefused
  have hstart : Fresh p.supervisorRunUuid (db, t).1 ∧
      ∀ event ok, Effect.sent event ok ∈ [] → ok = false :=
    ⟨hfresh, fun _ _ h => absurd h List.not_mem_nil⟩
  exact hkeeps.execute hstart

end Sessions

namespace Sample

open LoopStorm.Engine.Sample

/-- A model that is down, next to tables nobody else writes. -/
def around : Surroundings Unit where
  chat := fun s _ => (s, none)
  handle := fun s _ _ => (s, .threw "unavailable")
  now := fun _ => "2026-01-31T09:30:00.125Z"

theorem fresh_empty : Fresh params.supervisorRunUuid .empty := ⟨rfl, fun _ => rfl⟩

theorem audit_trail_never_empty :
    ¬ AuditTrail "tenant" params.supervisorRunUuid
      (execute (around.world "tenant" true) params (.empty, ())).1.record
      (execute (around.world "tenant" true) params (.empty, ())).1.world.1 :=
  audit_trail_never "tenant" true around params fresh_empty ()

/-- The backend is there, and refuses the first event. -/
theorem refused_at_once :
    ¬ ∀ event ok, .sent event ok ∈
      (execute (around.world "tenant" true) params (Db.empty, ())).1.record → ok = true := by
  intro h
  obtain ⟨event, hevent⟩ := first_refused "tenant" true around params fresh_empty ()
  cases h event false hevent

end Sample

end LoopStorm.Supervisor
