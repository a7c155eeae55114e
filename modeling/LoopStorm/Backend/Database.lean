import LoopStorm.Backend.Event
import LoopStorm.Lib.ReadCommitted

/-!
# The database

The two tables of `packages/backend/src/db/schema.ts` that hold runs and their
events, the four statements the write path sends, and programs of such
statements.

* `RunRow`, `EventRow` — the rows, and `Db`, the tables.
* `Stmt`, `Db.run` — a statement of a transaction under READ COMMITTED, with the
  keys of `0001_create_tables.sql` and the policies of `0002_enable_rls.sql`.
* `Prog` — what a procedure does between the begin and the end of its
  transaction; `Prog.serial` is its run with no other transaction in sight.
-/

namespace LoopStorm.Backend

open LoopStorm.Shim (ReplyValue)
open ReadCommitted

/-! ## Rows -/

/-- A row of `runs`. -/
structure RunRow where
  runId : String
  tenantId : String
  agentName : Option String
  agentRole : Option String
  environment : Option String
  policyPackId : Option String
  status : String
  eventCount : Nat
  lastSeq : Nat
  lastHash : Option String
  totalCostUsd : ℚ
  totalInputTokens : Int
  totalOutputTokens : Int
  totalCallCount : Nat
  startedAt : String
  endedAt : Option String
  deriving DecidableEq

/-- A row of `events`. -/
structure EventRow where
  runId : String
  tenantId : String
  seq : Nat
  eventType : String
  hash : String
  hashPrev : Option String
  ts : String
  decision : Option String
  inputTokens : Option Int
  outputTokens : Option Int
  estimatedCostUsd : Option ℚ
  /-- the columns nothing reads -/
  columns : List (String × ReplyValue)
  rawLine : String

/-- The unique key of an event. -/
def EventRow.key (row : EventRow) : String × Nat := (row.runId, row.seq)

/-- What an update of a run sets. -/
inductive RunUpdate where
  /-- constants, as `events.ingest` computes them -/
  | totals (lastSeq : Nat) (lastHash : String) (eventCount : Nat) (costUsd : ℚ)
      (inputTokens outputTokens : Int) (callCount : Nat) (status endedAt : Option String)
  /-- one more event, as `emitEvent` counts it -/
  | increment (lastSeq : Nat) (lastHash : String)
  deriving DecidableEq

/-- The row with an update applied. -/
def RunUpdate.apply (row : RunRow) : RunUpdate → RunRow
  | .totals lastSeq lastHash eventCount costUsd inputTokens outputTokens callCount status endedAt =>
    { row with
      lastSeq := lastSeq
      lastHash := some lastHash
      eventCount := eventCount
      totalCostUsd := costUsd
      totalInputTokens := inputTokens
      totalOutputTokens := outputTokens
      totalCallCount := callCount
      status := status.getD row.status
      endedAt := endedAt.or row.endedAt }
  | .increment lastSeq lastHash =>
    { row with lastSeq := lastSeq, lastHash := some lastHash, eventCount := row.eventCount + 1 }

/-- The tables: runs by their primary key, events by their unique key. -/
structure Db where
  runs : Table String RunRow
  events : Table (String × Nat) EventRow

/-- No row. -/
def Db.empty : Db := ⟨.empty, .empty⟩

/-- The tables after transaction `tx` has committed. -/
def Db.commit (db : Db) (tx : Nat) : Db := ⟨db.runs.commit tx, db.events.commit tx⟩

/-- The tables after transaction `tx` has been rolled back. -/
def Db.abort (db : Db) (tx : Nat) : Db := ⟨db.runs.abort tx, db.events.abort tx⟩

/-- The tables after transaction `tx` has written a run. -/
def Db.writeRun (db : Db) (tx : Nat) (k : String) (row : RunRow) : Db :=
  { db with runs := db.runs.write tx k row }

/-- The tables after transaction `tx` has written an event. -/
def Db.writeEvent (db : Db) (tx : Nat) (row : EventRow) : Db :=
  { db with events := db.events.write tx row.key row }

section Writing

variable (db : Db) (tx : Nat)

@[simp] theorem runs_writeRun (k : String) (row : RunRow) :
    (db.writeRun tx k row).runs = db.runs.write tx k row := rfl

@[simp] theorem events_writeRun (k : String) (row : RunRow) :
    (db.writeRun tx k row).events = db.events := rfl

@[simp] theorem runs_writeEvent (row : EventRow) : (db.writeEvent tx row).runs = db.runs := rfl

@[simp] theorem events_writeEvent (row : EventRow) :
    (db.writeEvent tx row).events = db.events.write tx row.key row := rfl

end Writing

/-! ## Statements -/

/-- The statements of the write path. -/
inductive Stmt where
  /-- `SELECT … FROM runs WHERE run_id = … AND tenant_id = …` -/
  | selectRun (runId tenantId : String)
  /-- `UPDATE runs SET … WHERE run_id = … AND tenant_id = …` -/
  | updateRun (runId tenantId : String) (update : RunUpdate)
  /-- `INSERT INTO runs … ON CONFLICT (run_id) DO NOTHING` -/
  | insertRun (row : RunRow)
  /-- `INSERT INTO events … ON CONFLICT (run_id, seq) DO NOTHING`, one row of it -/
  | insertEvent (row : EventRow)

/-- What a statement returns: the row it selects, whether it has inserted one. -/
@[reducible] def Stmt.Reply : Stmt → Type
  | .selectRun .. => Option RunRow
  | .updateRun .. => Unit
  | .insertRun _ => Unit
  | .insertEvent _ => Bool

/-- The outcome of a statement. -/
inductive Outcome (ρ : Type) where
  /-- it waits for another transaction -/
  | blocked
  /-- the database refuses it -/
  | refused
  | done (reply : ρ) (db : Db)

variable (session : String) (tx : Nat)

/-- The rows of a tenant, of those its policy lets a session see. -/
def visible (tenantId : String) (row : RunRow) : Bool :=
  row.tenantId = tenantId && row.tenantId = session

/-- The run a statement names, as transaction `tx` sees it. -/
def Db.findRun (db : Db) (runId tenantId : String) : Option RunRow :=
  ((db.runs runId).read tx).filter (visible session tenantId)

/-- A statement of transaction `tx` in a session of the given tenant.  A unique
key and a foreign key see the rows of every tenant, a policy those of one; an
insert that meets a row another transaction has not committed waits for it, and
so does an update. -/
def Db.run (db : Db) : (stmt : Stmt) → Outcome stmt.Reply
  | .selectRun runId tenantId => .done (db.findRun session tx runId tenantId) db
  | .updateRun runId tenantId update =>
    match db.findRun session tx runId tenantId with
    | none => .done () db
    | some row =>
      if (db.runs runId).lockedFor tx then .blocked
      else .done () (db.writeRun tx runId (update.apply row))
  | .insertRun row =>
    if row.tenantId ≠ session then .refused
    else if (db.runs row.runId).lockedFor tx then .blocked
    else if ((db.runs row.runId).read tx).isSome then .done () db
    else .done () (db.writeRun tx row.runId row)
  | .insertEvent row =>
    if row.tenantId ≠ session then .refused
    else if (db.events row.key).lockedFor tx then .blocked
    else if ((db.events row.key).read tx).isSome then .done false db
    else if ((db.runs row.runId).read tx).isNone then .refused
    else .done true (db.writeEvent tx row)

variable {session tx} in
/-- What a run is found by: a row the transaction sees, of the tenant of its
session. -/
theorem read_of_findRun {db : Db} {runId tenantId : String} {row : RunRow}
    (h : db.findRun session tx runId tenantId = some row) :
    (db.runs runId).read tx = some row ∧ row.tenantId = session := by
  rw [Db.findRun, Option.filter_eq_some_iff] at h
  obtain ⟨hread, hvisible⟩ := h
  refine ⟨hread, ?_⟩
  rw [visible, Bool.and_eq_true] at hvisible
  exact of_decide_eq_true hvisible.2

section Spec

variable {session : String} {tx : Nat} {db : Db}

theorem run_updateRun {runId tenantId : String} {row : RunRow} (update : RunUpdate)
    (hfound : db.findRun session tx runId tenantId = some row)
    (hlock : (db.runs runId).lockedFor tx = false) :
    db.run session tx (.updateRun runId tenantId update) =
      .done () (db.writeRun tx runId (update.apply row)) := by
  simp [Db.run, hfound, hlock]

theorem run_insertRun_taken {row : RunRow} (htenant : row.tenantId = session)
    (hlock : (db.runs row.runId).lockedFor tx = false)
    (htaken : ((db.runs row.runId).read tx).isSome = true) :
    db.run session tx (.insertRun row) = .done () db := by
  simp [Db.run, htenant, hlock, htaken]

theorem run_insertRun_new {row : RunRow} (htenant : row.tenantId = session)
    (hlock : (db.runs row.runId).lockedFor tx = false)
    (hfree : (db.runs row.runId).read tx = none) :
    db.run session tx (.insertRun row) = .done () (db.writeRun tx row.runId row) := by
  simp [Db.run, htenant, hlock, hfree]

theorem run_insertEvent_taken {row : EventRow} (htenant : row.tenantId = session)
    (hlock : (db.events row.key).lockedFor tx = false)
    (htaken : ((db.events row.key).read tx).isSome = true) :
    db.run session tx (.insertEvent row) = .done false db := by
  simp [Db.run, htenant, hlock, htaken]

theorem run_insertEvent_new {row : EventRow} (htenant : row.tenantId = session)
    (hlock : (db.events row.key).lockedFor tx = false)
    (hfree : (db.events row.key).read tx = none)
    (hrun : ((db.runs row.runId).read tx).isSome = true) :
    db.run session tx (.insertEvent row) = .done true (db.writeEvent tx row) := by
  obtain ⟨run, hrun⟩ := Option.isSome_iff_exists.1 hrun
  simp [Db.run, htenant, hlock, hfree, hrun]

/-! The other way round: what it takes to be done. -/

theorem updateRun_done {runId tenantId : String} {update : RunUpdate} {row : RunRow} {db' : Db}
    (hfound : db.findRun session tx runId tenantId = some row)
    (h : db.run session tx (.updateRun runId tenantId update) = .done () db') :
    (db.runs runId).lockedFor tx = false ∧ db' = db.writeRun tx runId (update.apply row) := by
  rw [Db.run, hfound] at h
  dsimp only at h
  split at h
  · cases h
  case isFalse hlock =>
    cases h
    exact ⟨by simpa using hlock, rfl⟩

theorem insertRun_done {row : RunRow} {db' : Db}
    (h : db.run session tx (.insertRun row) = .done () db') :
    row.tenantId = session ∧ (db.runs row.runId).lockedFor tx = false ∧
      (((db.runs row.runId).read tx).isSome = true ∧ db' = db ∨
        (db.runs row.runId).read tx = none ∧ db' = db.writeRun tx row.runId row) := by
  rw [Db.run] at h
  split at h
  · cases h
  case isFalse htenant =>
    split at h
    · cases h
    case isFalse hlock =>
      refine ⟨not_not.1 htenant, by simpa using hlock, ?_⟩
      split at h
      case isTrue htaken =>
        cases h
        exact .inl ⟨htaken, rfl⟩
      case isFalse hfree =>
        cases h
        exact .inr ⟨Option.not_isSome_iff_eq_none.1 hfree, rfl⟩

theorem insertEvent_done {row : EventRow} {isNew : Bool} {db' : Db}
    (h : db.run session tx (.insertEvent row) = .done isNew db') :
    row.tenantId = session ∧ (db.events row.key).lockedFor tx = false ∧
      (isNew = false ∧ ((db.events row.key).read tx).isSome = true ∧ db' = db ∨
        isNew = true ∧ (db.events row.key).read tx = none ∧
          ((db.runs row.runId).read tx).isSome = true ∧ db' = db.writeEvent tx row) := by
  rw [Db.run] at h
  split at h
  · cases h
  case isFalse htenant =>
    split at h
    · cases h
    case isFalse hlock =>
      refine ⟨not_not.1 htenant, by simpa using hlock, ?_⟩
      split at h
      case isTrue htaken =>
        cases h
        exact .inl ⟨rfl, htaken, rfl⟩
      case isFalse hfree =>
        split at h
        · cases h
        case isFalse hrun =>
          cases h
          refine .inr ⟨rfl, Option.not_isSome_iff_eq_none.1 hfree, ?_, rfl⟩
          rw [Option.isNone_iff_eq_none, ← ne_eq, Option.ne_none_iff_isSome] at hrun
          exact hrun

/-- What a statement can write: a run over one of the tenant's own or in a free
slot, or an event in a free slot, in each case of the tenant's. -/
inductive Db.Writes (session : String) (tx : Nat) (db : Db) : Db → Prop
  | nothing : Writes session tx db db
  | run (k : String) (row : RunRow) (hlock : (db.runs k).lockedFor tx = false)
    (htenant : row.tenantId = session)
    (hover : ∀ old, (db.runs k).read tx = some old → old.tenantId = session) :
    Writes session tx db (db.writeRun tx k row)
  | event (row : EventRow) (hlock : (db.events row.key).lockedFor tx = false)
    (htenant : row.tenantId = session) (hfree : (db.events row.key).read tx = none) :
    Writes session tx db (db.writeEvent tx row)

@[simp] theorem tenantId_apply (row : RunRow) (update : RunUpdate) :
    (update.apply row).tenantId = row.tenantId := by
  cases update <;> rfl

/-- **What a statement writes.** -/
theorem writes_of_run {stmt : Stmt} {reply : stmt.Reply} {db' : Db}
    (h : db.run session tx stmt = .done reply db') : db.Writes session tx db' := by
  cases stmt with
  | selectRun runId tenantId =>
    cases h
    exact .nothing
  | updateRun runId tenantId update =>
    cases hfound : db.findRun session tx runId tenantId with
    | none =>
      rw [Db.run, hfound] at h
      cases h
      exact .nothing
    | some row =>
      obtain ⟨hlock, rfl⟩ := updateRun_done hfound h
      obtain ⟨hread, hrow⟩ := read_of_findRun hfound
      refine .run runId _ hlock ((tenantId_apply row update).trans hrow) ?_
      intro old hold
      obtain rfl := Option.some.inj (hread.symm.trans hold)
      exact hrow
  | insertRun row =>
    obtain ⟨htenant, hlock, ⟨-, rfl⟩ | ⟨hfree, rfl⟩⟩ := insertRun_done h
    · exact .nothing
    · refine .run row.runId row hlock htenant ?_
      intro old hold
      rw [hfree] at hold
      cases hold
  | insertEvent row =>
    obtain ⟨htenant, hlock, ⟨-, -, rfl⟩ | ⟨-, hfree, -, rfl⟩⟩ := insertEvent_done h
    · exact .nothing
    · exact .event row hlock htenant hfree

/-- A statement commits nothing. -/
theorem Db.Writes.committed_runs {db' : Db} (h : db.Writes session tx db') (k : String) :
    (db'.runs k).committed = (db.runs k).committed := by
  cases h with
  | nothing => rfl
  | run j row hlock htenant hover => exact Table.committed_write k
  | event row hlock htenant hfree => rfl

theorem Db.Writes.committed_events {db' : Db} (h : db.Writes session tx db')
    (k : String × Nat) : (db'.events k).committed = (db.events k).committed := by
  cases h with
  | nothing => rfl
  | run j row hlock htenant hover => rfl
  | event row hlock htenant hfree => exact Table.committed_write k

/-- Nor does it touch what another transaction has written. -/
theorem Db.Writes.own_runs {db' : Db} {other : Nat} (h : db.Writes session tx db')
    (hne : other ≠ tx) (k : String) : (db'.runs k).own other = (db.runs k).own other := by
  cases h with
  | nothing => rfl
  | run j row hlock htenant hover => exact Table.own_write_of_ne hlock hne k
  | event row hlock htenant hfree => rfl

theorem Db.Writes.own_events {db' : Db} {other : Nat} (h : db.Writes session tx db')
    (hne : other ≠ tx) (k : String × Nat) : (db'.events k).own other = (db.events k).own other := by
  cases h with
  | nothing => rfl
  | run j row hlock htenant hover => rfl
  | event row hlock htenant hfree => exact Table.own_write_of_ne hlock hne k

end Spec

/-! ## Programs -/

/-- What is left of a procedure: it returns, and its transaction commits; it
throws, and its transaction is rolled back; or it sends a statement and goes on
with the reply. -/
inductive Prog (α : Type) where
  | done (result : α)
  | fail (error : IngestError)
  | run (stmt : Stmt) (next : stmt.Reply → Prog α)

/-- A program that ends after `n` steps, its end counted, unless it fails. -/
inductive Prog.TakesSteps {α : Type} : Prog α → Nat → Prop
  | done (result : α) : TakesSteps (.done result) 1
  | fail (error : IngestError) (n : Nat) : TakesSteps (.fail error) n
  | run (stmt : Stmt) (next : stmt.Reply → Prog α) (n : Nat)
    (h : ∀ reply, TakesSteps (next reply) n) : TakesSteps (.run stmt next) (n + 1)

/-- A whole procedure with no other transaction in sight. -/
def Prog.serial {α : Type} (db : Db) : Prog α → Except IngestError (α × Db)
  | .done result => .ok (result, db.commit tx)
  | .fail error => .error error
  | .run stmt next =>
    match db.run session tx stmt with
    | .blocked => .error .database
    | .refused => .error .database
    | .done reply db => (next reply).serial db

/-- A statement that is done, and what comes after it. -/
theorem Prog.serial_run {α : Type} {db db' : Db} {stmt : Stmt} {next : stmt.Reply → Prog α}
    {reply : stmt.Reply} (h : db.run session tx stmt = .done reply db') :
    (Prog.run stmt next).serial session tx db = (next reply).serial session tx db' := by
  rw [Prog.serial, h]

@[simp] theorem Prog.serial_selectRun {α : Type} (db : Db) (runId tenantId : String)
    (next : Option RunRow → Prog α) :
    (Prog.run (.selectRun runId tenantId) next).serial session tx db =
      (next (db.findRun session tx runId tenantId)).serial session tx db :=
  rfl

end LoopStorm.Backend
