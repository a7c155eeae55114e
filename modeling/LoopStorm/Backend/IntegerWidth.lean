import LoopStorm.Backend.Interleaving

/-!
# Columns of thirty-two bits

The `integer` columns of `packages/backend/src/db/schema.ts`, the validator that
has no upper bounds, and the totals `events.ingest` adds up.

* `FitsInteger`, `Db.integers` — what such a column holds, and what a statement
  puts into such columns.
* `Prog.serialBounded` — a procedure on a database that refuses a value too wide
  for its column, and is otherwise that of `Prog.serial`.
* `BatchFits` — what a batch and the run it continues are to be.
* `serialBounded_ingest_fits`, `serialBounded_ingest_refused` — **a batch that
  passes its checks is accepted if it fits**, and refused by the database if not.
* `never_wedged_iff` — the same along every sequence of calls.
-/

namespace LoopStorm.Backend

open LoopStorm.Engine
open LoopStorm.Shim (ReplyValue)
open ReadCommitted

/-! ## What is put into integer columns -/

/-- What an `integer` column holds. -/
def FitsInteger (n : Int) : Prop := -2147483648 ≤ n ∧ n ≤ 2147483647

instance (n : Int) : Decidable (FitsInteger n) := inferInstanceAs (Decidable (_ ∧ _))

/-- The `integer` columns of a run. -/
def RunRow.integers (row : RunRow) : List Int :=
  [row.eventCount, row.lastSeq, row.totalInputTokens, row.totalOutputTokens, row.totalCallCount]

/-- The numbers under some keys. -/
def numbersUnder (keys : List String) (members : List (String × ReplyValue)) : List Int :=
  keys.filterMap fun key => (numberField key members).map Rat.num

/-- The `integer` columns of an event. -/
def EventRow.integers (row : EventRow) : List Int :=
  row.seq :: (row.inputTokens.toList ++ row.outputTokens.toList ++
    numbersUnder ["schema_version", "cooldown_ms", "timeout_seconds", "inter_call_ms"] row.columns)

/-- The integers an update sets in the row it finds, if it finds one. -/
def RunUpdate.integers (found : Option RunRow) : RunUpdate → List Int
  | .totals lastSeq _ eventCount _ inputTokens outputTokens callCount _ _ =>
    [eventCount, lastSeq, inputTokens, outputTokens, callCount]
  -- the count is the database's own sum
  | .increment lastSeq _ => lastSeq :: found.toList.map fun row => row.eventCount + 1

variable (session : String) (tx : Nat)

/-- The integers a statement puts into columns. -/
def Db.integers (db : Db) : Stmt → List Int
  | .selectRun .. => []
  | .updateRun runId tenantId update => update.integers (db.findRun session tx runId tenantId)
  | .insertRun row => row.integers
  | .insertEvent row => row.integers

/-- A statement, refused when a value is out of the range of its column; a value
that is sent is converted to the type of its column before anything else. -/
def Db.runBounded (db : Db) (stmt : Stmt) : Outcome stmt.Reply :=
  if ∀ n ∈ db.integers session tx stmt, FitsInteger n then db.run session tx stmt else .refused

/-- A whole procedure with no other transaction in sight, statements refused
for the values they put into columns among them. -/
def Prog.serialBounded {α : Type} (db : Db) : Prog α → Except IngestError (α × Db)
  | .done result => .ok (result, db.commit tx)
  | .fail error => .error error
  | .run stmt next =>
    match db.runBounded session tx stmt with
    | .blocked => .error .database
    | .refused => .error .database
    | .done reply db => (next reply).serialBounded db

section Bounded

variable {session tx} {α : Type} {db : Db}

theorem serialBounded_selectRun (runId tenantId : String) (next : Option RunRow → Prog α) :
    (Prog.run (.selectRun runId tenantId) next).serialBounded session tx db =
      (next (db.findRun session tx runId tenantId)).serialBounded session tx db := by
  have hfits : ∀ n ∈ db.integers session tx (.selectRun runId tenantId), FitsInteger n :=
    fun n hn => absurd hn List.not_mem_nil
  rw [Prog.serialBounded, Db.runBounded, if_pos hfits]
  rfl

/-- A statement that does not fit ends the procedure. -/
theorem serialBounded_run_refused {stmt : Stmt} (next : stmt.Reply → Prog α)
    (h : ¬ ∀ n ∈ db.integers session tx stmt, FitsInteger n) :
    (Prog.run stmt next).serialBounded session tx db = .error .database := by
  rw [Prog.serialBounded, Db.runBounded, if_neg h]

/-- One that does leaves what comes after it. -/
theorem serialBounded_run_eq {stmt : Stmt} {next : stmt.Reply → Prog α}
    (h : ∀ n ∈ db.integers session tx stmt, FitsInteger n)
    (hnext : ∀ reply db', (next reply).serialBounded session tx db' =
      (next reply).serial session tx db') :
    (Prog.run stmt next).serialBounded session tx db =
      (Prog.run stmt next).serial session tx db := by
  rw [Prog.serialBounded, Db.runBounded, if_pos h, Prog.serial]
  cases db.run session tx stmt with
  | blocked => rfl
  | refused => rfl
  | done reply db' => exact hnext reply db'

/-- **The bounds only refuse**: what is done is done as without them. -/
theorem serial_of_serialBounded {prog : Prog α} {result : α} {db' : Db}
    (h : prog.serialBounded session tx db = .ok (result, db')) :
    prog.serial session tx db = .ok (result, db') := by
  induction prog generalizing db with
  | done r => exact h
  | fail e => exact h
  | run stmt next ih =>
    rw [Prog.serialBounded, Db.runBounded] at h
    by_cases hfits : ∀ n ∈ db.integers session tx stmt, FitsInteger n
    · rw [if_pos hfits] at h
      rw [Prog.serial]
      cases hrun : db.run session tx stmt with
      | blocked => rw [hrun] at h; cases h
      | refused => rw [hrun] at h; cases h
      | done reply db₁ =>
        rw [hrun] at h
        exact ih reply h
    · rw [if_neg hfits] at h
      cases h

theorem Db.Writes.freeFor {db' : Db} (h : db.Writes session tx db') (hruns : db.runs.FreeFor tx)
    (hevents : db.events.FreeFor tx) : db'.runs.FreeFor tx ∧ db'.events.FreeFor tx := by
  cases h with
  | nothing => exact ⟨hruns, hevents⟩
  | run k row hlock htenant hover => exact ⟨hruns.write, hevents⟩
  | event row hlock htenant hfree => exact ⟨hruns, hevents.write⟩

/-- A procedure that returns has committed all it has written. -/
theorem quiet_of_serial {prog : Prog α} {result : α} {db' : Db} (hruns : db.runs.FreeFor tx)
    (hevents : db.events.FreeFor tx) (h : prog.serial session tx db = .ok (result, db')) :
    db'.Quiet := by
  induction prog generalizing db with
  | done r =>
    obtain ⟨-, rfl⟩ := Prod.mk.inj (Except.ok.inj h)
    exact ⟨hruns.quiet_commit, hevents.quiet_commit⟩
  | fail e => cases h
  | run stmt next ih =>
    rw [Prog.serial] at h
    cases hrun : db.run session tx stmt with
    | blocked => rw [hrun] at h; cases h
    | refused => rw [hrun] at h; cases h
    | done reply db₁ =>
      rw [hrun] at h
      obtain ⟨hruns₁, hevents₁⟩ := (writes_of_run hrun).freeFor hruns hevents
      exact ih reply hruns₁ hevents₁ h

/-! ## What is stored -/

/-- What the columns hold is in their range. -/
structure Db.Fits (db : Db) : Prop where
  runs : db.runs.Holds fun row => ∀ n ∈ row.integers, FitsInteger n
  events : db.events.Holds fun row => ∀ n ∈ row.integers, FitsInteger n

theorem fits_empty : Db.empty.Fits := ⟨Table.holds_empty, Table.holds_empty⟩

theorem mem_integers_apply {row : RunRow} {update : RunUpdate} {n : Int}
    (h : n ∈ (update.apply row).integers) : n ∈ update.integers (some row) ∨ n ∈ row.integers := by
  cases update with
  | totals lastSeq lastHash eventCount costUsd inputTokens outputTokens callCount status endedAt =>
    exact Or.inl h
  | increment lastSeq lastHash =>
    simp only [RunUpdate.apply, RunRow.integers, List.mem_cons, List.not_mem_nil, or_false] at h
    simp only [RunUpdate.integers, RunRow.integers, Option.toList_some, List.map_cons,
      List.map_nil, List.mem_cons, List.not_mem_nil, or_false]
    rcases h with rfl | rfl | h
    · exact Or.inl (Or.inr (Nat.cast_succ _))
    · exact Or.inl (Or.inl rfl)
    · exact Or.inr (Or.inr (Or.inr h))

/-- A statement that is done has put into the columns what fits them. -/
theorem Db.Fits.runBounded (h : db.Fits) {stmt : Stmt} {reply : stmt.Reply} {db' : Db}
    (hrun : db.runBounded session tx stmt = .done reply db') : db'.Fits := by
  unfold Db.runBounded at hrun
  by_cases hfits : ∀ n ∈ db.integers session tx stmt, FitsInteger n
  · rw [if_pos hfits] at hrun
    cases stmt with
    | selectRun runId tenantId =>
      cases hrun
      exact h
    | updateRun runId tenantId update =>
      cases hfound : db.findRun session tx runId tenantId with
      | none =>
        rw [Db.run, hfound] at hrun
        cases hrun
        exact h
      | some row =>
        obtain ⟨-, rfl⟩ := updateRun_done hfound hrun
        refine ⟨h.runs.write fun n hn => ?_, h.events⟩
        rcases mem_integers_apply hn with hset | hold
        · exact hfits n (by rwa [Db.integers, hfound])
        · exact (h.runs runId).read (read_of_findRun hfound).1 n hold
    | insertRun row =>
      obtain ⟨-, -, ⟨-, rfl⟩ | ⟨-, rfl⟩⟩ := insertRun_done hrun
      · exact h
      · exact ⟨h.runs.write hfits, h.events⟩
    | insertEvent row =>
      obtain ⟨-, -, ⟨-, -, rfl⟩ | ⟨-, -, -, rfl⟩⟩ := insertEvent_done hrun
      · exact h
      · exact ⟨h.runs, h.events.write hfits⟩
  · rw [if_neg hfits] at hrun
    cases hrun

theorem fits_of_serialBounded {prog : Prog α} {result : α} {db' : Db} (h : db.Fits)
    (hprog : prog.serialBounded session tx db = .ok (result, db')) : db'.Fits := by
  induction prog generalizing db with
  | done r =>
    obtain ⟨-, rfl⟩ := Prod.mk.inj (Except.ok.inj hprog)
    exact ⟨h.runs.commit tx, h.events.commit tx⟩
  | fail e => cases hprog
  | run stmt next ih =>
    rw [Prog.serialBounded] at hprog
    cases hrun : db.runBounded session tx stmt with
    | blocked => rw [hrun] at hprog; cases hprog
    | refused => rw [hrun] at hprog; cases hprog
    | done reply db₁ =>
      rw [hrun] at hprog
      exact ih reply (h.runBounded hrun) hprog

/-! ## The inserts of a batch -/

theorem serialBounded_insertEvents_eq {finish : Nat → Result} {rows : List EventRow}
    (h : ∀ row ∈ rows, ∀ n ∈ row.integers, FitsInteger n) (inserted : Nat) (db : Db) :
    (insertEvents inserted finish rows).serialBounded session tx db =
      (insertEvents inserted finish rows).serial session tx db := by
  induction rows generalizing inserted db with
  | nil => rfl
  | cons row rest ih =>
    rw [insertEvents]
    exact serialBounded_run_eq (h row (List.mem_cons_self ..)) fun isNew db' =>
      ih (fun r hr => h r (List.mem_cons_of_mem _ hr)) _ db'

theorem serialBounded_insertEvents_refused {finish : Nat → Result} {rows : List EventRow}
    (h : ¬ ∀ row ∈ rows, ∀ n ∈ row.integers, FitsInteger n) (inserted : Nat) (db : Db) :
    (insertEvents inserted finish rows).serialBounded session tx db = .error .database := by
  induction rows generalizing inserted db with
  | nil => exact absurd (fun row hrow => absurd hrow List.not_mem_nil) h
  | cons row rest ih =>
    rw [insertEvents]
    by_cases hrow : ∀ n ∈ row.integers, FitsInteger n
    · have hrest : ¬ ∀ r ∈ rest, ∀ n ∈ r.integers, FitsInteger n := by
        intro hall
        exact h (List.forall_mem_cons.2 ⟨hrow, hall⟩)
      have hfits : ∀ n ∈ db.integers session tx (.insertEvent row), FitsInteger n := hrow
      rw [Prog.serialBounded, Db.runBounded, if_pos hfits]
      cases db.run session tx (.insertEvent row) with
      | blocked => rfl
      | refused => rfl
      | done isNew db' => exact ih hrest _ db'
    · exact serialBounded_run_refused _ hrow

end Bounded

/-! ## A batch -/

/-- The integers of an event line, besides the version of its schema. -/
def ParsedEvent.integers (event : ParsedEvent) : List Int :=
  event.seq :: (event.inputTokens.toList ++ event.outputTokens.toList ++
    numbersUnder ["cooldown_ms", "timeout_seconds", "inter_call_ms"] event.members)

/-- **A batch fits** the run it continues: every integer of its lines, and every
total of the run with the batch added, is in the range of a column. -/
structure BatchFits (existing : Option RunRow) (items : List Item) : Prop where
  events : ∀ item ∈ items, ∀ n ∈ item.event.integers, FitsInteger n
  eventCount : FitsInteger (existing.elim 0 RunRow.eventCount + items.length : Nat)
  inputTokens : FitsInteger (existing.elim 0 RunRow.totalInputTokens + batchInputTokens items)
  outputTokens : FitsInteger (existing.elim 0 RunRow.totalOutputTokens + batchOutputTokens items)
  callCount : FitsInteger (existing.elim 0 RunRow.totalCallCount + batchCallCount items : Nat)

/-- What a batch puts into the row of its run. -/
theorem integers_runStmt (db : Db) (tenantId runId : String) (items : List Item)
    (first last : Item) (existing : Option RunRow) :
    db.integers session tx (runStmt tenantId runId items first last existing) =
      [((existing.elim 0 RunRow.eventCount + items.length : Nat) : Int), (last.event.seq : Int),
        existing.elim 0 RunRow.totalInputTokens + batchInputTokens items,
        existing.elim 0 RunRow.totalOutputTokens + batchOutputTokens items,
        ((existing.elim 0 RunRow.totalCallCount + batchCallCount items : Nat) : Int)] := by
  cases existing with
  | some row => rfl
  | none => simp [runStmt, Db.integers, RunRow.integers, newRun]

/-- A line that passes the schema is of version one. -/
theorem schemaVersion_of_parseEventLine {line : String} {i : Nat} {event : ParsedEvent}
    (h : parseEventLine line i = .ok event) : numberField "schema_version" event.members = some 1 := by
  obtain ⟨obj, -, herror, rfl⟩ := parseEventLine_ok h
  have hfield : (("schema_version", literalOne) : String × Check) ∈ parsedEventSchema :=
    List.mem_cons_self ..
  have hcheck := check_of_firstError herror hfield
  dsimp only [ParsedEvent.ofObject] at hcheck ⊢
  unfold numberField
  cases hlookup : Json.lookup "schema_version" obj with
  | none => rw [hlookup] at hcheck; cases hcheck
  | some v =>
    rw [hlookup] at hcheck
    cases v with
    | num n =>
      unfold literalOne at hcheck
      dsimp only at hcheck ⊢
      split at hcheck
      case isTrue hone => rw [hone]
      case isFalse => cases hcheck
    | null => cases hcheck
    | bool b => cases hcheck
    | str s => cases hcheck
    | arr xs => cases hcheck
    | obj ms => cases hcheck

/-- The row of an event fits if its line does. -/
theorem fits_eventRow_iff {item : Item} {line : String} {i : Nat}
    (h : parseEventLine line i = .ok item.event) (tenantId : String) :
    (∀ n ∈ (eventRow tenantId item).integers, FitsInteger n) ↔
      ∀ n ∈ item.event.integers, FitsInteger n := by
  have hversion := schemaVersion_of_parseEventLine h
  have hone : FitsInteger 1 := by decide
  have hmem : ∀ n, n ∈ (eventRow tenantId item).integers ↔ n = 1 ∨ n ∈ item.event.integers := by
    intro n
    dsimp only [EventRow.integers, eventRow, ParsedEvent.integers, numbersUnder]
    rw [List.filterMap_cons, hversion]
    simp only [Option.map_some, Rat.num_one, List.mem_cons, List.mem_append]
    tauto
  constructor
  · exact fun hrow n hn => hrow n ((hmem n).2 (Or.inr hn))
  · intro hevent n hn
    rcases (hmem n).1 hn with rfl | hn
    · exact hone
    · exact hevent n hn

section Batch

variable [Sha256] {tenantId runId : String} {lines : List String} {items : List Item}

/-- A batch that passes parsing and chain verification. -/
structure PassesChecks (tenantId : String) (tx : Nat) (db : Db) (lines : List String)
    (runId : String) (items : List Item) : Prop where
  prepared : prepare lines = .ok (runId, items)
  chain : verifyBatchChain items
    ((db.findRun tenantId tx (toUuid runId) tenantId).bind RunRow.lastHash) = .ok ()

variable {tx} {db : Db}

omit [Sha256] in
/-- What a batch that fits puts into the columns. -/
theorem BatchFits.written {existing : Option RunRow} (h : BatchFits existing items)
    (hprepared : Prepared lines runId items) (db : Db) (tx : Nat) (tenantId : String) :
    (∀ first last, items.head? = some first → items.getLast? = some last →
      ∀ n ∈ db.integers tenantId tx (runStmt tenantId runId items first last existing),
        FitsInteger n) ∧
      ∀ item ∈ items, ∀ n ∈ (eventRow tenantId item).integers, FitsInteger n := by
  constructor
  · intro first last _ hlast n hn
    have hseq : FitsInteger last.event.seq :=
      h.events last (List.mem_of_getLast? hlast) _ (List.mem_cons_self ..)
    rw [integers_runStmt] at hn
    simp only [List.mem_cons, List.not_mem_nil, or_false] at hn
    rcases hn with rfl | rfl | rfl | rfl | rfl
    · exact h.eventCount
    · exact hseq
    · exact h.inputTokens
    · exact h.outputTokens
    · exact h.callCount
  · intro item hitem
    obtain ⟨line, -, i, -, hparsed⟩ := hprepared.parsed item hitem
    exact (fits_eventRow_iff hparsed tenantId).2 (h.events item hitem)

/-- What a batch that passes its checks does. -/
theorem serialBounded_ingest (h : PassesChecks tenantId tx db lines runId items) {first last : Item}
    (hfirst : items.head? = some first) (hlast : items.getLast? = some last) :
    (ingest tenantId lines).serialBounded tenantId tx db =
      (Prog.run (runStmt tenantId runId items first last
          (db.findRun tenantId tx (toUuid runId) tenantId)) fun _ =>
        insertEvents 0 (ingestedResult runId items last)
          (items.map (eventRow tenantId))).serialBounded tenantId tx db := by
  have htenant : ∀ row ∈ db.findRun tenantId tx (toUuid runId) tenantId,
      row.tenantId = tenantId := fun row hrow => (read_of_findRun hrow).2
  rw [ingest, h.prepared]
  dsimp only
  rw [serialBounded_selectRun, ingestInto_ok htenant h.chain hfirst hlast]

/-- **A batch that fits is accepted**, and leaves behind what it does without bounds. -/
theorem serialBounded_ingest_fits (hquiet : db.Quiet)
    (h : PassesChecks tenantId tx db lines runId items)
    (hfits : BatchFits (db.findRun tenantId tx (toUuid runId) tenantId) items) :
    ∃ result db', (ingest tenantId lines).serialBounded tenantId tx db = .ok (result, db') ∧
      Ingested tenantId runId items db db' := by
  have hprepared := prepare_ok h.prepared
  obtain ⟨first, last, hfirst, hlast⟩ := hprepared.exists_ends
  have hwritten := hfits.written hprepared db tx tenantId
  have hrows : ∀ row ∈ items.map (eventRow tenantId), ∀ n ∈ row.integers, FitsInteger n := by
    intro row hrow
    obtain ⟨item, hitem, rfl⟩ := List.mem_map.1 hrow
    exact hwritten.2 item hitem
  have htenant : ∀ row ∈ db.findRun tenantId tx (toUuid runId) tenantId,
      row.tenantId = tenantId := fun row hrow => (read_of_findRun hrow).2
  obtain ⟨result, db', hserial, hingested⟩ := serial_ingest_ok hquiet h.prepared tx h.chain
  refine ⟨result, db', ?_, hingested⟩
  rw [serialBounded_ingest h hfirst hlast, serialBounded_run_eq
    (hwritten.1 first last hfirst hlast) fun _ => serialBounded_insertEvents_eq hrows 0]
  rw [ingest, h.prepared] at hserial
  dsimp only at hserial
  rw [Prog.serial_selectRun, ingestInto_ok htenant h.chain hfirst hlast] at hserial
  exact hserial

/-- **One that does not is refused** by the database, whatever else it is. -/
theorem serialBounded_ingest_refused (h : PassesChecks tenantId tx db lines runId items)
    (hfits : ¬ BatchFits (db.findRun tenantId tx (toUuid runId) tenantId) items) :
    (ingest tenantId lines).serialBounded tenantId tx db = .error .database := by
  have hprepared := prepare_ok h.prepared
  obtain ⟨first, last, hfirst, hlast⟩ := hprepared.exists_ends
  rw [serialBounded_ingest h hfirst hlast]
  by_cases hrun : ∀ n ∈ db.integers tenantId tx (runStmt tenantId runId items first last
      (db.findRun tenantId tx (toUuid runId) tenantId)), FitsInteger n
  · -- the run fits, so it is an event that does not
    have hrows : ¬ ∀ row ∈ items.map (eventRow tenantId), ∀ n ∈ row.integers, FitsInteger n := by
      intro hall
      refine hfits ?_
      have hparts := hrun
      rw [integers_runStmt] at hparts
      simp only [List.forall_mem_cons] at hparts
      obtain ⟨hcount, -, hinput, houtput, hcalls, -⟩ := hparts
      refine ⟨?_, hcount, hinput, houtput, hcalls⟩
      intro item hitem
      obtain ⟨line, -, i, -, hparsed⟩ := hprepared.parsed item hitem
      exact (fits_eventRow_iff hparsed tenantId).1 (hall _ (List.mem_map_of_mem hitem))
    rw [Prog.serialBounded, Db.runBounded, if_pos hrun]
    cases db.run tenantId tx (runStmt tenantId runId items first last
        (db.findRun tenantId tx (toUuid runId) tenantId)) with
    | blocked => rfl
    | refused => rfl
    | done reply db' => exact serialBounded_insertEvents_refused hrows 0 db'
  · exact serialBounded_run_refused _ hrun

end Batch

/-! ## Calls one after the other -/

/-- A call, and the tenant who makes it. -/
structure Submission where
  tenantId : String
  call : TrpcCall

section Submissions

variable [Sha256]

/-- What a call leaves behind, and what it answers; one that throws leaves nothing. -/
def submit (db : Db) (s : Submission) : Db × Except IngestError Result :=
  match (s.call.prog s.tenantId).serialBounded s.tenantId tx db with
  | .ok (result, db') => (db', .ok result)
  | .error error => (db, .error error)

/-- A batch is not wedged: every value it puts into a column fits, and it is accepted. -/
structure Unwedged (db : Db) (s : Submission) (runId : String) (items : List Item) : Prop where
  run : ∀ first last, items.head? = some first → items.getLast? = some last →
    ∀ n ∈ db.integers s.tenantId tx (runStmt s.tenantId runId items first last
      (db.findRun s.tenantId tx (toUuid runId) s.tenantId)), FitsInteger n
  events : ∀ item ∈ items, ∀ n ∈ (eventRow s.tenantId item).integers, FitsInteger n
  accepted : ∃ result, (submit tx db s).2 = .ok result

/-- A call, if it is a batch that passes its checks, is not wedged. -/
def NeverWedged (db : Db) (s : Submission) : Prop :=
  ∀ lines runId items, s.call = .ingest lines → PassesChecks s.tenantId tx db lines runId items →
    Unwedged tx db s runId items

/-- A call, if it is a batch that passes its checks, fits the run it continues. -/
def Fitting (db : Db) (s : Submission) : Prop :=
  ∀ lines runId items, s.call = .ingest lines → PassesChecks s.tenantId tx db lines runId items →
    BatchFits (db.findRun s.tenantId tx (toUuid runId) s.tenantId) items

variable {tx} {db : Db} {s : Submission}

theorem submit_ok {result : Result} {db' : Db}
    (h : (s.call.prog s.tenantId).serialBounded s.tenantId tx db = .ok (result, db')) :
    submit tx db s = (db', .ok result) := by
  unfold submit
  rw [h]

theorem submit_error {error : IngestError}
    (h : (s.call.prog s.tenantId).serialBounded s.tenantId tx db = .error error) :
    submit tx db s = (db, .error error) := by
  unfold submit
  rw [h]

/-- Every call leaves the tables quiet. -/
theorem quiet_submit (h : db.Quiet) : (submit tx db s).1.Quiet := by
  cases hserial : (s.call.prog s.tenantId).serialBounded s.tenantId tx db with
  | error error =>
    rw [submit_error hserial]
    exact h
  | ok out =>
    rw [submit_ok hserial]
    exact quiet_of_serial (h.runs.freeFor tx) (h.events.freeFor tx)
      (serial_of_serialBounded hserial)

/-- And what they hold in the range of the columns. -/
theorem fits_submit (h : db.Fits) : (submit tx db s).1.Fits := by
  cases hserial : (s.call.prog s.tenantId).serialBounded s.tenantId tx db with
  | error error =>
    rw [submit_error hserial]
    exact h
  | ok out =>
    rw [submit_ok hserial]
    exact fits_of_serialBounded h hserial

/-- **What is stored fits**, whatever has been submitted. -/
theorem fits_stateAfter (tx : Nat) (calls : List Submission) :
    (Run.stateAfter (submit tx) .empty calls).Fits :=
  Run.invariant (submit tx) (C := fun _ _ => True) (fun _ _ hfits _ => fits_submit hfits)
    fits_empty (Run.AllSteps.of_forall _ (fun _ _ => trivial) Db.empty calls)

/-- **One call.** -/
theorem neverWedged_iff_fitting (hquiet : db.Quiet) : NeverWedged tx db s ↔ Fitting tx db s := by
  constructor
  · intro h lines runId items hcall hpasses
    obtain ⟨-, -, result, haccepted⟩ := h lines runId items hcall hpasses
    by_contra hfits
    have hrefused := serialBounded_ingest_refused hpasses hfits
    rw [submit_error (by rw [hcall]; exact hrefused)] at haccepted
    cases haccepted
  · intro h lines runId items hcall hpasses
    have hfits := h lines runId items hcall hpasses
    obtain ⟨hrun, hevents⟩ := hfits.written (prepare_ok hpasses.prepared) db tx s.tenantId
    obtain ⟨result, db', hserial, -⟩ := serialBounded_ingest_fits hquiet hpasses hfits
    refine ⟨hrun, hevents, result, ?_⟩
    rw [submit_ok (by rw [hcall]; exact hserial)]

end Submissions

namespace Sample

open LoopStorm.Engine.Sample

/-- The first event of the run, with all the tokens a column holds. -/
def fullMembers : List (String × Json String Nat) :=
  [("schema_version", .num 1), ("event_type", .str "policy_decision"), ("run_id", .str runId),
    ("seq", .num 1), ("ts", .str "2026-01-31T09:30:00Z"), ("hash", .str zeros),
    ("hash_prev", .null), ("input_tokens", .num 2147483647)]

/-- The second, with one more. -/
def nextMembers : List (String × Json String Nat) :=
  [("schema_version", .num 1), ("event_type", .str "policy_decision"), ("run_id", .str runId),
    ("seq", .num 2), ("ts", .str "2026-01-31T09:31:00Z"), ("hash", .str zeros),
    ("hash_prev", .str zeros), ("input_tokens", .num 1)]

/-- The batch of the first, and that of the second. -/
def fullBatch : Submission := ⟨"tenant", .ingest [lineOf fullMembers]⟩

def nextBatch : Submission := ⟨"tenant", .ingest [lineOf nextMembers]⟩

def fullItem : Item := ⟨eventOf fullMembers, lineOf fullMembers⟩

def nextItem : Item := ⟨eventOf nextMembers, lineOf nextMembers⟩

theorem passesChecks_full :
    PassesChecks "tenant" 0 .empty [lineOf fullMembers] runId [fullItem] where
  prepared := prepare_lineOf (by decide +kernel)
  chain := verifyBatchChain_lineOf (by decide +kernel) (by decide +kernel)

theorem batchFits_full : BatchFits none [fullItem] := by
  have hevent : ∀ n ∈ (eventOf fullMembers).integers, FitsInteger n := by decide +kernel
  have hinput : (eventOf fullMembers).inputTokens = some 2147483647 := by decide +kernel
  have houtput : (eventOf fullMembers).outputTokens = none := by decide +kernel
  constructor
  case events =>
    intro item hitem
    obtain rfl := List.mem_singleton.1 hitem
    exact hevent
  case eventCount => decide
  case inputTokens =>
    rw [batchInputTokens, List.map_singleton, List.sum_singleton, fullItem, hinput]
    decide
  case outputTokens =>
    rw [batchOutputTokens, List.map_singleton, List.sum_singleton, fullItem, houtput]
    decide
  case callCount =>
    have hle : batchCallCount [fullItem] ≤ 1 := List.countP_le_length
    have hone : (Option.elim none 0 RunRow.totalCallCount : Nat) = 0 := rfl
    rw [hone, FitsInteger]
    omega

/-- The run after the first. -/
theorem submit_full : ∃ result db, submit 0 .empty fullBatch = (db, .ok result) ∧
    Ingested "tenant" runId [fullItem] .empty db := by
  have hfits : BatchFits (Db.empty.findRun "tenant" 0 (toUuid runId) "tenant") [fullItem] :=
    batchFits_full
  obtain ⟨result, db, hserial, hingested⟩ :=
    serialBounded_ingest_fits quiet_empty passesChecks_full hfits
  exact ⟨result, db, submit_ok hserial, hingested⟩

end Sample

end LoopStorm.Backend
