import LoopStorm.Backend.Ingest

/-!
# A batch with no other call in sight

What `events.ingest` leaves behind on tables nobody else is writing.

* `Db.Quiet` — such tables.
* `Db.insertAll`, `serial_insertEvents` — the inserts of a batch.
* `runAfter`, `Ingested` — the run and the events after an accepted batch.
* `serial_ingest_ok`, `serial_ingest_error` — **a batch is accepted exactly if
  its chain is verified**, and then leaves behind what `Ingested` says.
* `ingested_of_serial` — and every acceptance is of this kind.
-/

namespace LoopStorm.Backend

open LoopStorm.Engine
open ReadCommitted

/-- Nobody has written anything. -/
structure Db.Quiet (db : Db) : Prop where
  runs : db.runs.Quiet
  events : db.events.Quiet

theorem quiet_empty : Db.empty.Quiet := ⟨Table.quiet_empty, Table.quiet_empty⟩

/-! ## The inserts of a batch -/

/-- The tables with the rows inserted whose keys are free. -/
def Db.insertAll (tx : Nat) : List EventRow → Db → Db
  | [], db => db
  | row :: rest, db =>
    Db.insertAll tx rest
      (if ((db.events row.key).read tx).isSome then db
      else db.writeEvent tx row)

@[simp] theorem runs_insertAll (tx : Nat) (rows : List EventRow) (db : Db) :
    (Db.insertAll tx rows db).runs = db.runs := by
  induction rows generalizing db with
  | nil => rfl
  | cons row rest ih =>
    rw [Db.insertAll, ih]
    split
    · rfl
    · rfl

theorem freeFor_insertAll {tx : Nat} (rows : List EventRow) {db : Db}
    (h : db.events.FreeFor tx) : (Db.insertAll tx rows db).events.FreeFor tx := by
  induction rows generalizing db with
  | nil => exact h
  | cons row rest ih =>
    rw [Db.insertAll]
    split
    · exact ih h
    · exact ih h.write

/-- Under a key stands what stood there, or else the first row with that key. -/
theorem read_insertAll (tx : Nat) (rows : List EventRow) (db : Db) (k : String × Nat) :
    ((Db.insertAll tx rows db).events k).read tx =
      ((db.events k).read tx).or (rows.find? fun row => row.key = k) := by
  induction rows generalizing db with
  | nil => rw [Db.insertAll, List.find?_nil, Option.or_none]
  | cons row rest ih =>
    rw [Db.insertAll, ih]
    by_cases hk : row.key = k
    · rw [List.find?_cons_of_pos (by simpa using hk), hk]
      split
      case isTrue htaken =>
        obtain ⟨old, hold⟩ := Option.isSome_iff_exists.1 htaken
        rw [hold, Option.some_or, Option.some_or]
      case isFalse hfree =>
        rw [Option.not_isSome_iff_eq_none.1 hfree]
        rw [events_writeEvent, Table.read_write, if_pos hk.symm, Option.some_or, Option.none_or]
    · rw [List.find?_cons_of_neg (by simpa using hk)]
      split
      · rfl
      · rw [events_writeEvent, Table.read_write, if_neg (Ne.symm hk)]

theorem serial_insertEvents {session : String} {tx : Nat} {finish : Nat → Result}
    {rows : List EventRow} {db : Db} (inserted : Nat) (hfree : db.events.FreeFor tx)
    (htenant : ∀ row ∈ rows, row.tenantId = session)
    (hrun : ∀ row ∈ rows, ((db.runs row.runId).read tx).isSome) :
    ∃ n, (insertEvents inserted finish rows).serial session tx db =
      .ok (finish n, (Db.insertAll tx rows db).commit tx) := by
  induction rows generalizing inserted db with
  | nil => exact ⟨inserted, rfl⟩
  | cons row rest ih =>
    have htenant' : ∀ r ∈ rest, r.tenantId = session :=
      fun r hr => htenant r (List.mem_cons_of_mem _ hr)
    have hrun' : ∀ r ∈ rest, ((db.runs r.runId).read tx).isSome :=
      fun r hr => hrun r (List.mem_cons_of_mem _ hr)
    have hrow : row.tenantId = session := htenant row (List.mem_cons_self ..)
    rw [insertEvents, Db.insertAll]
    by_cases htaken : ((db.events row.key).read tx).isSome = true
    · rw [if_pos htaken, Prog.serial_run session tx (run_insertEvent_taken hrow (hfree _) htaken)]
      exact ih inserted hfree htenant' hrun'
    · have hnew := run_insertEvent_new hrow (hfree _) (Option.not_isSome_iff_eq_none.1 htaken)
        (hrun row (List.mem_cons_self ..))
      rw [if_neg htaken, Prog.serial_run session tx hnew]
      exact ih (inserted + 1) hfree.write htenant' hrun'

/-! ## An accepted batch -/

/-- The run an accepted batch leaves behind, `before` being the run before. -/
def runAfter (tenantId runId : String) (items : List Item) (first last : ParsedEvent) :
    Option RunRow → RunRow
  | none => newRun tenantId runId items first last
  | some row =>
    if row.tenantId = tenantId then (runUpdate row items last).apply row else row

/-- The tables after a batch: its run, the rows that were there, and the events
whose keys were free. -/
structure Ingested (tenantId runId : String) (items : List Item) (db db' : Db) : Prop where
  quiet : db'.Quiet
  runs : ∀ first ∈ items.head?, ∀ last ∈ items.getLast?, ∀ k, (db'.runs k).committed =
    if k = toUuid runId then
      some (runAfter tenantId runId items first.event last.event (db.runs k).committed)
    else (db.runs k).committed
  events : ∀ k, (db'.events k).committed =
    ((db.events k).committed).or ((items.map (eventRow tenantId)).find? fun row => row.key = k)

/-- What the tables hold once the run has been written and the events inserted. -/
theorem committed_insertAll {tx : Nat} (rows : List EventRow) {db : Db}
    (hevents : db.events.Quiet) (hruns : db.runs.FreeFor tx) :
    ((Db.insertAll tx rows db).commit tx).Quiet ∧
      (∀ k, (((Db.insertAll tx rows db).commit tx).runs k).committed = (db.runs k).read tx) ∧
      ∀ k, (((Db.insertAll tx rows db).commit tx).events k).committed =
        ((db.events k).committed).or (rows.find? fun row => row.key = k) := by
  refine ⟨⟨?_, ?_⟩, ?_, ?_⟩
  · show (Table.commit (Db.insertAll tx rows db).runs tx).Quiet
    rw [runs_insertAll]
    exact hruns.quiet_commit
  · exact (freeFor_insertAll rows (hevents.freeFor tx)).quiet_commit
  · intro k
    show (Cell.commit ((Db.insertAll tx rows db).runs k) tx).committed = _
    rw [Cell.committed_commit_eq_read, runs_insertAll]
  · intro k
    show (Cell.commit ((Db.insertAll tx rows db).events k) tx).committed = _
    rw [Cell.committed_commit_eq_read, read_insertAll,
      Cell.read_of_pending_none (hevents k)]

/-- The run a tenant finds on quiet tables. -/
theorem findRun_of_quiet {db : Db} (h : db.Quiet) (tenantId : String) (tx : Nat) (k : String) :
    db.findRun tenantId tx k tenantId =
      (db.runs k).committed.filter (fun row => row.tenantId = tenantId) := by
  rw [Db.findRun, Cell.read_of_pending_none (h.runs k)]
  congr 1
  funext row
  exact Bool.and_self _

section Serial

variable [Sha256] {tenantId runId : String} {lines : List String} {items : List Item} {db : Db}

/-- **A batch whose chain is verified is accepted.** -/
theorem serial_ingest_ok (hquiet : db.Quiet) (hprepare : prepare lines = .ok (runId, items))
    (tx : Nat)
    (hchain : verifyBatchChain items
      ((db.findRun tenantId tx (toUuid runId) tenantId).bind RunRow.lastHash) = .ok ()) :
    ∃ result db', (ingest tenantId lines).serial tenantId tx db = .ok (result, db') ∧
      Ingested tenantId runId items db db' := by
  have hprepared := prepare_ok hprepare
  obtain ⟨first, last, hfirst, hlast⟩ := hprepared.exists_ends
  have hrows : ∀ row ∈ items.map (eventRow tenantId),
      row.tenantId = tenantId ∧ row.runId = toUuid runId := by
    intro row hrow
    obtain ⟨item, hitem, rfl⟩ := List.mem_map.1 hrow
    exact ⟨rfl, congrArg toUuid (hprepared.runId_eq item hitem)⟩
  -- the tables once the run has been written, in each of the three ways
  have hrest : ∀ (finish : Nat → Result) (db₁ : Db), db₁.events = db.events →
      db₁.runs.FreeFor tx →
      (∀ k, (db₁.runs k).read tx = if k = toUuid runId then
        some (runAfter tenantId runId items first.event last.event (db.runs k).committed)
        else (db.runs k).committed) →
      ∃ result db', (insertEvents 0 finish (items.map (eventRow tenantId))).serial tenantId tx db₁ =
        .ok (result, db') ∧ Ingested tenantId runId items db db' := by
    intro finish db₁ hevents hfree hread
    have hpresent : ∀ row ∈ items.map (eventRow tenantId),
        ((db₁.runs row.runId).read tx).isSome := by
      intro row hrow
      rw [hread, if_pos (hrows row hrow).2]
      rfl
    have hquiet₁ : db₁.events.Quiet := hevents ▸ hquiet.events
    have hinserted : ∃ n, (insertEvents 0 finish (items.map (eventRow tenantId))).serial tenantId
        tx db₁ = .ok (finish n, (Db.insertAll tx (items.map (eventRow tenantId)) db₁).commit tx) :=
      serial_insertEvents 0 (hquiet₁.freeFor tx) (fun row hrow => (hrows row hrow).1) hpresent
    obtain ⟨n, hn⟩ := hinserted
    have hcommitted := committed_insertAll (items.map (eventRow tenantId)) hquiet₁ hfree
    obtain ⟨hq, hr, he⟩ := hcommitted
    refine ⟨_, _, hn, hq, ?_, ?_⟩
    · intro f hf l hl k
      obtain rfl := Option.some.inj (hfirst.symm.trans hf)
      obtain rfl := Option.some.inj (hlast.symm.trans hl)
      rw [hr, hread]
    · intro k
      rw [he, hevents]
  have htenant : ∀ row ∈ db.findRun tenantId tx (toUuid runId) tenantId,
      row.tenantId = tenantId := fun row hrow => (read_of_findRun hrow).2
  have hlock : (db.runs (toUuid runId)).lockedFor tx = false := hquiet.runs.freeFor tx _
  have hwritten : ∀ row k, ((db.runs.write tx (toUuid runId) row) k).read tx =
      if k = toUuid runId then some row else (db.runs k).committed := by
    intro row k
    rw [Table.read_write, Cell.read_of_pending_none (hquiet.runs k)]
  rw [ingest, hprepare]
  dsimp only
  rw [Prog.serial_selectRun, ingestInto_ok htenant hchain hfirst hlast]
  cases hfound : db.findRun tenantId tx (toUuid runId) tenantId with
  | some row =>
    obtain ⟨hread, hrow⟩ := read_of_findRun hfound
    rw [Cell.read_of_pending_none (hquiet.runs _)] at hread
    dsimp only [runStmt]
    rw [Prog.serial_run tenantId tx (run_updateRun _ hfound hlock)]
    refine hrest _ _ rfl (Table.FreeFor.write (hquiet.runs.freeFor tx)) ?_
    intro k
    rw [runs_writeRun, hwritten]
    split
    case isTrue hk => rw [hk, hread, runAfter, if_pos hrow]
    case isFalse => rfl
  | none =>
    dsimp only [runStmt]
    rw [findRun_of_quiet hquiet, Option.filter_eq_none_iff] at hfound
    have hread : (db.runs (toUuid runId)).read tx = (db.runs (toUuid runId)).committed :=
      Cell.read_of_pending_none (hquiet.runs _)
    cases hcommitted : (db.runs (toUuid runId)).committed with
    | some row =>
      -- another tenant's run: the insert does nothing
      have hforeign : row.tenantId ≠ tenantId := by simpa using hfound row hcommitted
      rw [Prog.serial_run tenantId tx
        (run_insertRun_taken rfl hlock (by rw [newRun, hread, hcommitted]; rfl))]
      refine hrest _ _ rfl (hquiet.runs.freeFor tx) ?_
      intro k
      rw [Cell.read_of_pending_none (hquiet.runs k)]
      split
      case isTrue hk => rw [hk, hcommitted, runAfter, if_neg hforeign]
      case isFalse => rfl
    | none =>
      rw [Prog.serial_run tenantId tx
        (run_insertRun_new rfl hlock (by rw [newRun, hread, hcommitted]))]
      refine hrest _ _ rfl (Table.FreeFor.write (hquiet.runs.freeFor tx)) ?_
      intro k
      dsimp only [newRun]
      rw [runs_writeRun, hwritten]
      split
      case isTrue hk => rw [hk, hcommitted, runAfter, newRun]
      case isFalse => rfl

/-- **One whose chain is not is refused.** -/
theorem serial_ingest_error {e : IngestError} (hprepare : prepare lines = .ok (runId, items))
    (tx : Nat)
    (hchain : verifyBatchChain items
      ((db.findRun tenantId tx (toUuid runId) tenantId).bind RunRow.lastHash) = .error e) :
    (ingest tenantId lines).serial tenantId tx db = .error e := by
  have htenant : ∀ row ∈ db.findRun tenantId tx (toUuid runId) tenantId,
      row.tenantId = tenantId := fun row hrow => (read_of_findRun hrow).2
  rw [ingest, hprepare]
  dsimp only
  rw [Prog.serial_selectRun, ingestInto_error htenant hchain, Prog.serial]

/-- **What an acceptance leaves behind.** -/
theorem ingested_of_serial {tx : Nat} {result : Result} {db' : Db} (hquiet : db.Quiet)
    (h : (ingest tenantId lines).serial tenantId tx db = .ok (result, db')) :
    ∃ runId items, prepare lines = .ok (runId, items) ∧
      verifyBatchChain items
        ((db.findRun tenantId tx (toUuid runId) tenantId).bind RunRow.lastHash) = .ok () ∧
      Ingested tenantId runId items db db' := by
  cases hprepare : prepare lines with
  | error e =>
    rw [ingest, hprepare, Prog.serial] at h
    cases h
  | ok prepared =>
    obtain ⟨runId, items⟩ := prepared
    refine ⟨runId, items, rfl, ?_⟩
    cases hchain : verifyBatchChain items
        ((db.findRun tenantId tx (toUuid runId) tenantId).bind RunRow.lastHash) with
    | error e =>
      rw [serial_ingest_error hprepare tx hchain] at h
      cases h
    | ok u =>
      obtain ⟨result', db'', hok, hingested⟩ := serial_ingest_ok hquiet hprepare tx hchain
      rw [hok] at h
      cases h
      exact ⟨rfl, hingested⟩

end Serial

namespace Sample

/-- The hash of every line, where every digest is made of zeros. -/
def zeros : String := String.ofList (List.replicate 64 '0')

/-- A line of some members. -/
def lineOf (members : List (String × Json String Nat)) : String :=
  String.ofList (Json.render Json.quote Json.natText (.obj members))

/-- The event as it is read. -/
def eventOf (members : List (String × Json String Nat)) : ParsedEvent :=
  .ofObject (Json.mapNumM Json.natText members)

theorem prepare_lineOf {members : List (String × Json String Nat)}
    (herror : firstError (Json.mapNumM Json.natText members) = none) :
    prepare [lineOf members] = .ok ((eventOf members).runId, [⟨eventOf members, lineOf members⟩]) := by
  have htext : (lineOf members).toList = Json.render Json.quote Json.natText (.obj members) := by
    rw [lineOf, String.toList_ofList]
  have hparse : Json.parse (lineOf members).toList =
      some (.obj (Json.mapNumM Json.natText members)) := by
    rw [htext]
    exact Json.parse_render Json.natText Json.isNumber_natText (.obj members)
  have htrim : trimEnd (lineOf members) = lineOf members :=
    trimEnd_obj Json.quote Json.natText members
  have hne : lineOf members ≠ "" := by
    intro h
    rw [h, Json.render] at htext
    cases htext
  have hevent : parseEventLine (trimEnd (lineOf members)) 0 = .ok (eventOf members) := by
    rw [htrim, parseEventLine, hparse]
    dsimp only
    rw [herror]
    rfl
  rw [prepare_singleton hne hevent, htrim]

/-- The first event of the run. -/
def startMembers : List (String × Json String Nat) :=
  [("schema_version", .num 1), ("event_type", .str "run_started"), ("run_id", .str runId),
    ("seq", .num 1), ("ts", .str "2026-01-31T09:30:00Z"), ("hash", .str zeros),
    ("hash_prev", .null)]

/-- Its line. -/
def startLine : String := String.ofList (Json.render Json.quote Json.natText (.obj startMembers))

/-- The event as it is read. -/
def startEvent : ParsedEvent := .ofObject (Json.mapNumM Json.natText startMembers)

theorem prepare_startLine : prepare [startLine] = .ok (runId, [⟨startEvent, startLine⟩]) :=
  prepare_lineOf (by decide +kernel)

/-- The run after the line. -/
theorem run_startLine {tenantId : String} {db db' : Db}
    (h : Ingested tenantId runId [⟨startEvent, startLine⟩] db db') :
    (db'.runs (toUuid runId)).committed =
      some (runAfter tenantId runId [⟨startEvent, startLine⟩] startEvent startEvent
        (db.runs (toUuid runId)).committed) := by
  rw [h.runs _ rfl _ rfl, if_pos rfl]
  rfl

/-- The row of the event, under the number one. -/
theorem key_startEvent (tenantId : String) :
    (eventRow tenantId ⟨startEvent, startLine⟩).key = (toUuid runId, 1) := by
  have hseq : startEvent.seq = 1 := by decide +kernel
  rw [EventRow.key, eventRow]
  dsimp only
  rw [hseq]
  rfl

/-- The one event stored after the line. -/
theorem events_startLine {tenantId : String} {db : Db}
    (h : Ingested tenantId runId [⟨startEvent, startLine⟩] .empty db) (k : String × Nat) :
    (db.events k).committed = if (toUuid runId, 1) = k then
      some (eventRow tenantId ⟨startEvent, startLine⟩) else none := by
  rw [h.events, List.map_singleton, List.find?_singleton, key_startEvent]
  show Option.or none _ = _
  rw [Option.none_or]
  by_cases hk : (toUuid runId, 1) = k
  · rw [if_pos (decide_eq_true hk), if_pos hk]
  · rw [if_neg (by simpa using hk), if_neg hk]

open LoopStorm.Engine.Sample in
/-- The chain of a line with the digest of the sample. -/
theorem verifyBatchChain_lineOf {members : List (String × Json String Nat)} {prev : Option String}
    (hhash : (eventOf members).hash = zeros) (hprev : (eventOf members).hashPrev = prev) :
    verifyBatchChain [⟨eventOf members, lineOf members⟩] prev = .ok () := by
  have hdigest : sha256Hex (lineOf members) = zeros := rfl
  rw [verifyBatchChain, verifyBatchFrom, if_neg (not_not.2 (hdigest.trans hhash.symm)),
    if_neg (not_not.2 hprev), verifyBatchFrom]

open LoopStorm.Engine.Sample in
/-- The line starts a run. -/
theorem verifyBatchChain_startLine : verifyBatchChain [⟨startEvent, startLine⟩] none = .ok () :=
  verifyBatchChain_lineOf rfl rfl

end Sample

end LoopStorm.Backend
