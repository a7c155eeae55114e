import LoopStorm.Backend.Interleaving

/-!
# The aggregates of a run

What the columns of a run say of its events, while one tenant's calls run side
by side.

* `Aggregates`, `Consistent` — a run counts exactly the events stored for it.
* `StmtCounts` — what a statement is to meet: an update of a run writes over the
  row its call has read, and moves on; an event is inserted exactly when it has
  been counted.
* `Phase` — where a call is, and what it has written by then.
* `consistent_of_counts` — **the aggregates are those of the stored events** in
  every run of calls whose statements meet that.
-/

namespace LoopStorm.Backend

open LoopStorm.Engine
open ReadCommitted

/-! ## Counting events -/

/-- A tool call decision. -/
def EventRow.isCall (e : EventRow) : Bool :=
  e.eventType = "policy_decision" && e.decision.any (· ≠ "")

/-- The columns of a run are those of a list of events. -/
structure Aggregates (row : RunRow) (events : List EventRow) : Prop where
  eventCount : row.eventCount = events.length
  totalCostUsd : row.totalCostUsd = (events.map fun e => e.estimatedCostUsd.getD 0).sum
  totalInputTokens : row.totalInputTokens = (events.map fun e => e.inputTokens.getD 0).sum
  totalOutputTokens : row.totalOutputTokens = (events.map fun e => e.outputTokens.getD 0).sum
  totalCallCount : row.totalCallCount = events.countP EventRow.isCall
  last : ∃ e ∈ events, row.lastSeq = e.seq ∧ row.lastHash = some e.hash
  lastSeq_max : ∀ e ∈ events, e.seq ≤ row.lastSeq

/-- A list holds the events of a run, `view` being the event with a number. -/
structure Lists (view : Nat → Option EventRow) (events : List EventRow) : Prop where
  nodup : (events.map EventRow.seq).Nodup
  mem : ∀ n e, view n = some e ↔ e ∈ events ∧ e.seq = n

/-- Every run counts the events stored for it. -/
def Consistent (db : Db) : Prop :=
  ∀ k row, (db.runs k).committed = some row →
    ∃ events, Lists (fun n => (db.events (k, n)).committed) events ∧ Aggregates row events

theorem lists_nil {view : Nat → Option EventRow} (h : ∀ n, view n = none) : Lists view [] where
  nodup := List.nodup_nil
  mem n e := by simp [h]

/-- One more event, under a number that was free. -/
theorem Lists.concat {view view' : Nat → Option EventRow} {events : List EventRow}
    (h : Lists view events) {row : EventRow} (hfree : view row.seq = none)
    (hview : ∀ n, view' n = if n = row.seq then some row else view n) :
    Lists view' (events ++ [row]) where
  nodup := by
    rw [List.map_append, List.map_singleton, List.nodup_append_comm, List.singleton_append,
      List.nodup_cons]
    refine ⟨?_, h.nodup⟩
    intro hmem
    obtain ⟨e, he, hseq⟩ := List.mem_map.1 hmem
    rw [(h.mem row.seq e).2 ⟨he, hseq⟩] at hfree
    cases hfree
  mem n e := by
    rw [hview, List.mem_append, List.mem_singleton]
    split
    case isTrue hn =>
      constructor
      · intro heq
        obtain rfl := Option.some.inj heq
        exact ⟨.inr rfl, hn.symm⟩
      · rintro ⟨he | rfl, hseq⟩
        · rw [(h.mem row.seq e).2 ⟨he, hseq.trans hn⟩] at hfree
          cases hfree
        · rfl
    case isFalse hn =>
      rw [h.mem n e]
      constructor
      · rintro ⟨he, hseq⟩
        exact ⟨.inl he, hseq⟩
      · rintro ⟨he | rfl, hseq⟩
        · exact ⟨he, hseq⟩
        · exact absurd hseq.symm hn

/-- The events of a batch are numbered up to its last. -/
theorem seq_le_last {tenantId : String} {items : List Item} {last : Item}
    (hsorted : (items.map (·.event.seq)).Pairwise (· < ·)) (hlast : items.getLast? = some last) :
    ∀ e ∈ items.map (eventRow tenantId), e.seq ≤ last.event.seq := by
  intro e he
  obtain ⟨item, hitem, rfl⟩ := List.mem_map.1 he
  obtain ⟨front, rfl⟩ := List.getLast?_eq_some_iff.1 hlast
  rw [List.map_append, List.pairwise_append] at hsorted
  rcases List.mem_append.1 hitem with hfront | hend
  · exact (hsorted.2.2 _ (List.mem_map_of_mem hfront) last.event.seq (by simp)).le
  · obtain rfl := List.mem_singleton.1 hend
    exact le_rfl

/-- A batch that moves on, counted by its update. -/
theorem Aggregates.runUpdate {row : RunRow} {events : List EventRow} {tenantId : String}
    {items : List Item} {last : Item} (h : Aggregates row events)
    (hsorted : (items.map (·.event.seq)).Pairwise (· < ·)) (hlast : items.getLast? = some last)
    (hmoves : row.lastSeq < last.event.seq) :
    Aggregates ((Backend.runUpdate row items last.event).apply row)
      (events ++ items.map (eventRow tenantId)) where
  eventCount := by
    rw [List.length_append, List.length_map, ← h.eventCount]
    rfl
  totalCostUsd := by
    rw [List.map_append, List.sum_append, ← h.totalCostUsd, List.map_map]
    rfl
  totalInputTokens := by
    rw [List.map_append, List.sum_append, ← h.totalInputTokens, List.map_map]
    rfl
  totalOutputTokens := by
    rw [List.map_append, List.sum_append, ← h.totalOutputTokens, List.map_map]
    rfl
  totalCallCount := by
    rw [List.countP_append, ← h.totalCallCount, List.countP_map]
    rfl
  last := by
    have hmem : last ∈ items := List.mem_of_getLast? hlast
    exact ⟨eventRow tenantId last, List.mem_append_right _ (List.mem_map_of_mem hmem), rfl, rfl⟩
  lastSeq_max := by
    intro e he
    show e.seq ≤ last.event.seq
    rcases List.mem_append.1 he with hold | hnew
    · exact (h.lastSeq_max e hold).trans hmoves.le
    · exact seq_le_last hsorted hlast e hnew

/-- A first batch, counted by the run it creates. -/
theorem aggregates_newRun {tenantId runId : String} {items : List Item} {first last : Item}
    (hsorted : (items.map (·.event.seq)).Pairwise (· < ·)) (hlast : items.getLast? = some last) :
    Aggregates (newRun tenantId runId items first.event last.event)
      (items.map (eventRow tenantId)) where
  eventCount := (List.length_map ..).symm
  totalCostUsd := by
    rw [List.map_map]
    rfl
  totalInputTokens := by
    rw [List.map_map]
    rfl
  totalOutputTokens := by
    rw [List.map_map]
    rfl
  totalCallCount := by
    rw [List.countP_map]
    rfl
  last := ⟨eventRow tenantId last, List.mem_map_of_mem (List.mem_of_getLast? hlast), rfl, rfl⟩
  lastSeq_max := seq_le_last hsorted hlast

/-- A supervisor event that moves on, counted by its update. -/
theorem Aggregates.increment {row : RunRow} {events : List EventRow} {tenantId : String}
    {input : EmitInput} (h : Aggregates row events) (hmoves : row.lastSeq < input.seq) :
    Aggregates ((RunUpdate.increment input.seq input.hash).apply row)
      (events ++ [input.eventRow tenantId]) where
  eventCount := by
    rw [List.length_append, ← h.eventCount]
    rfl
  totalCostUsd := by
    rw [List.map_append, List.sum_append, ← h.totalCostUsd]
    simp [RunUpdate.apply, EmitInput.eventRow]
  totalInputTokens := by
    rw [List.map_append, List.sum_append, ← h.totalInputTokens]
    simp [RunUpdate.apply, EmitInput.eventRow]
  totalOutputTokens := by
    rw [List.map_append, List.sum_append, ← h.totalOutputTokens]
    simp [RunUpdate.apply, EmitInput.eventRow]
  totalCallCount := by
    have hcall : (input.eventRow tenantId).isCall = false := Bool.and_false _
    rw [List.countP_append, ← h.totalCallCount, List.countP_singleton, hcall]
    rfl
  last := ⟨input.eventRow tenantId, List.mem_append_right _ (List.mem_singleton_self _), rfl, rfl⟩
  lastSeq_max := by
    intro e he
    show e.seq ≤ input.seq
    rcases List.mem_append.1 he with hold | hnew
    · exact (h.lastSeq_max e hold).trans hmoves.le
    · obtain rfl := List.mem_singleton.1 hnew
      exact le_rfl

/-! ## What a statement is to meet -/

/-- An update of a run writes over the row its call has read, where it has read
one, and moves on to a higher number; the one of a supervisor event comes with
the event.  An event of a batch is stored exactly when its run has counted it. -/
def StmtCounts (tx : Nat) (existing : Option (Option RunRow)) (db : Db) : Stmt → Prop
  | .selectRun .. => True
  | .insertRun _ => True
  | .updateRun k _ (.totals lastSeq ..) =>
    ∃ row, existing = some (some row) ∧ (db.runs k).committed = some row ∧ row.lastSeq < lastSeq
  | .updateRun k _ (.increment lastSeq _) =>
    ((db.events (k, lastSeq)).own tx).isSome = true ∧
      ∀ row, (db.runs k).committed = some row → row.lastSeq < lastSeq
  | .insertEvent row =>
    existing.isSome = true →
      ((db.events row.key).read tx = none ↔ ((db.runs row.runId).own tx).isSome = true)

/-- The same of the statement a step sends. -/
def StepCounts (s : Store) : TxEvent → Prop
  | .step tx => ∀ existing stmt next, s.txs tx = .running existing (.run stmt next) →
      StmtCounts tx existing s.db stmt
  | _ => True

/-! ## The tables and a call -/

section Phases

variable [Sha256] (tenantId : String) (db : Db) (tx : Nat)

/-- What is committed is sound: runs of the tenant that count their events, and
no event without its run. -/
structure Sound : Prop where
  consistent : Consistent db
  tenant : ∀ k row, (db.runs k).committed = some row → row.tenantId = tenantId
  run_of_event : ∀ k n e, (db.events (k, n)).committed = some e →
    ((db.runs k).committed).isSome = true

/-- A transaction has written nothing. -/
structure Clean : Prop where
  runs : db.runs.Untouched tx
  events : db.events.Untouched tx

/-- A transaction has written a run that counts the events it sees and the rows
it has still to insert, and events of that run. -/
structure Counting (k : String) (rest : List EventRow) : Prop where
  counts : ∃ row events, (db.runs k).own tx = some row ∧ row.tenantId = tenantId ∧
    Lists (fun n => (db.events (k, n)).read tx) events ∧ Aggregates row (events ++ rest)
  runs : ∀ j, j ≠ k → (db.runs j).own tx = none
  events : ∀ j n, j ≠ k → (db.events (j, n)).own tx = none

/-- A supervisor event may have been inserted, into a run there is. -/
structure Emitting (input : EmitInput) : Prop where
  runs : db.runs.Untouched tx
  events : ∀ k, k ≠ (input.eventRow tenantId).key → (db.events k).own tx = none
  event : ∀ row, (db.events (input.eventRow tenantId).key).own tx = some row →
    row = input.eventRow tenantId
  run : ((db.runs (toUuid input.runId)).committed).isSome = true

/-- Where a call is, with what it has written by then. -/
inductive Phase : Option (Option RunRow) → Prog Result → Prop
  | failing (existing : Option (Option RunRow)) (e : IngestError) : Phase existing (.fail e)
  | idle (existing : Option (Option RunRow)) (result : Result) (h : Clean db tx) :
    Phase existing (.done result)
  | counted (existing : Option (Option RunRow)) (result : Result) (k : String)
    (h : Counting tenantId db tx k []) : Phase existing (.done result)
  | looking (runId : String) (items : List Item) (lines : List String) (h : Clean db tx)
    (hprepared : Prepared lines runId items) :
    Phase none (.run (.selectRun (toUuid runId) tenantId) (ingestInto tenantId runId items))
  | updating (row : RunRow) (runId : String) (items : List Item) (last : Item)
    (finish : Nat → Result) (h : Clean db tx)
    (hsorted : (items.map (·.event.seq)).Pairwise (· < ·)) (hlast : items.getLast? = some last)
    (hrun : ∀ item ∈ items, item.event.runId = runId) :
    Phase (some (some row))
      (.run (.updateRun (toUuid runId) tenantId (runUpdate row items last.event))
        fun _ => insertEvents 0 finish (items.map (eventRow tenantId)))
  | creating (runId : String) (items : List Item) (first last : Item)
    (finish : Nat → Result) (h : Clean db tx)
    (hsorted : (items.map (·.event.seq)).Pairwise (· < ·)) (hlast : items.getLast? = some last)
    (hrun : ∀ item ∈ items, item.event.runId = runId) :
    Phase (some none) (.run (.insertRun (newRun tenantId runId items first.event last.event))
      fun _ => insertEvents 0 finish (items.map (eventRow tenantId)))
  | skipping (existing : Option RunRow) (row : EventRow) (rows : List EventRow) (inserted : Nat)
    (finish : Nat → Result) (h : Clean db tx) :
    Phase (some existing) (.run (.insertEvent row) fun isNew =>
      insertEvents (if isNew then inserted + 1 else inserted) finish rows)
  | inserting (existing : Option RunRow) (k : String) (row : EventRow) (rows : List EventRow)
    (inserted : Nat) (finish : Nat → Result) (h : Counting tenantId db tx k (row :: rows))
    (hrun : ∀ r ∈ row :: rows, r.runId = k) :
    Phase (some existing) (.run (.insertEvent row) fun isNew =>
      insertEvents (if isNew then inserted + 1 else inserted) finish rows)
  | emitting (input : EmitInput) (h : Clean db tx) :
    Phase none (.run (.insertEvent (input.eventRow tenantId)) fun _ =>
      .run (.selectRun (toUuid input.runId) tenantId) (emitInto tenantId input))
  | emitLooking (input : EmitInput) (h : Emitting tenantId db tx input) :
    Phase none (.run (.selectRun (toUuid input.runId) tenantId) (emitInto tenantId input))
  | emitUpdating (existing : Option (Option RunRow)) (input : EmitInput)
    (h : Emitting tenantId db tx input) :
    Phase existing (.run (.updateRun (toUuid input.runId) tenantId
      (.increment input.seq input.hash)) fun _ => .done .emitted)

/-- Where a transaction is, with what it has written by then. -/
def TxOk : TxState → Prop
  | .running existing rest => Phase tenantId db tx existing rest
  | _ => Clean db tx

end Phases

section Steps

variable {tenantId : String} {db db' : Db} {tx : Nat}

/-! ## What the others leave alone -/

/-- What a transaction relies on while others move: its own rows, the stored
events of a run it has written, and that no run goes away. -/
structure Undisturbed (tx : Nat) (db db' : Db) : Prop where
  runs : ∀ k, (db'.runs k).own tx = (db.runs k).own tx
  events : ∀ k, (db'.events k).own tx = (db.events k).own tx
  committed : ∀ k n, ((db.runs k).own tx).isSome = true →
    (db'.events (k, n)).committed = (db.events (k, n)).committed
  run_isSome : ∀ k, ((db.runs k).committed).isSome = true →
    ((db'.runs k).committed).isSome = true

theorem Clean.undisturbed (h : Clean db tx) (hu : Undisturbed tx db db') : Clean db' tx where
  runs k := (hu.runs k).trans (h.runs k)
  events k := (hu.events k).trans (h.events k)

theorem Counting.undisturbed {k : String} {rest : List EventRow}
    (h : Counting tenantId db tx k rest) (hu : Undisturbed tx db db') :
    Counting tenantId db' tx k rest where
  counts := by
    obtain ⟨row, events, hrow, htenant, hlists, haggregates⟩ := h.counts
    have hread : ∀ n, (db'.events (k, n)).read tx = (db.events (k, n)).read tx := by
      intro n
      rw [Cell.read, Cell.read, hu.events, hu.committed k n (by rw [hrow]; rfl)]
    refine ⟨row, events, (hu.runs k).trans hrow, htenant, ?_, haggregates⟩
    simp only [hread]
    exact hlists
  runs j hj := (hu.runs j).trans (h.runs j hj)
  events j n hj := (hu.events (j, n)).trans (h.events j n hj)

theorem Emitting.undisturbed {input : EmitInput} (h : Emitting tenantId db tx input)
    (hu : Undisturbed tx db db') : Emitting tenantId db' tx input where
  runs k := (hu.runs k).trans (h.runs k)
  events k hk := (hu.events k).trans (h.events k hk)
  event row hrow := h.event row ((hu.events _).symm.trans hrow)
  run := hu.run_isSome _ h.run

/-- A transaction that has only written what it has counted. -/
def Whole (tenantId : String) (db : Db) (tx : Nat) : Prop :=
  Clean db tx ∨ ∃ k, Counting tenantId db tx k []

theorem undisturbed_writes {session : String} {other : Nat} (h : db.Writes session other db')
    (hne : tx ≠ other) : Undisturbed tx db db' where
  runs k := h.own_runs hne k
  events k := h.own_events hne k
  committed k n _ := h.committed_events (k, n)
  run_isSome k hk := by rwa [h.committed_runs k]

theorem undisturbed_abort (db : Db) {other : Nat} (hne : tx ≠ other) :
    Undisturbed tx db (db.abort other) where
  runs k := Cell.own_abort_of_ne hne
  events k := Cell.own_abort_of_ne hne
  committed k n _ := Cell.committed_abort
  run_isSome k hk := by
    show ((Cell.abort (db.runs k) other).committed).isSome = true
    rwa [Cell.committed_abort]

/-- The others commit events of the runs they have written, and no two
transactions have written one run. -/
theorem undisturbed_commit {other : Nat} (hne : tx ≠ other) (h : Whole tenantId db other) :
    Undisturbed tx db (db.commit other) where
  runs k := Cell.own_commit_of_ne hne
  events k := Cell.own_commit_of_ne hne
  committed k n hk := by
    have hnone : (db.events (k, n)).own other = none := by
      rcases h with hclean | ⟨j, hcounting⟩
      · exact hclean.events (k, n)
      · refine hcounting.events k n ?_
        rintro rfl
        obtain ⟨row, -, hrow, -⟩ := hcounting.counts
        rw [Cell.own_of_own_ne hk hne.symm] at hrow
        cases hrow
    show (Cell.commit (db.events (k, n)) other).committed = _
    rw [Cell.commit_of_own_none hnone]
  run_isSome k hk := by
    show ((Cell.commit (db.runs k) other).committed).isSome = true
    rw [Cell.committed_commit]
    cases (db.runs k).own other with
    | none => exact hk
    | some row => rfl

theorem Phase.undisturbed [Sha256] {existing : Option (Option RunRow)} {rest : Prog Result}
    (h : Phase tenantId db tx existing rest) (hu : Undisturbed tx db db') :
    Phase tenantId db' tx existing rest := by
  cases h with
  | failing _ e => exact .failing _ e
  | idle _ result h => exact .idle _ result (h.undisturbed hu)
  | counted _ result k h => exact .counted _ result k (h.undisturbed hu)
  | looking runId items lines h hprepared =>
    exact .looking runId items lines (h.undisturbed hu) hprepared
  | updating row runId items last finish h hsorted hlast hrun =>
    exact .updating row runId items last finish (h.undisturbed hu) hsorted hlast hrun
  | creating runId items first last finish h hsorted hlast hrun =>
    exact .creating runId items first last finish (h.undisturbed hu) hsorted hlast hrun
  | skipping existing row rows inserted finish h =>
    exact .skipping existing row rows inserted finish (h.undisturbed hu)
  | inserting existing k row rows inserted finish h hrun =>
    exact .inserting existing k row rows inserted finish (h.undisturbed hu) hrun
  | emitting input h => exact .emitting input (h.undisturbed hu)
  | emitLooking input h => exact .emitLooking input (h.undisturbed hu)
  | emitUpdating _ input h => exact .emitUpdating _ input (h.undisturbed hu)

theorem TxOk.undisturbed [Sha256] {state : TxState} (h : TxOk tenantId db tx state)
    (hu : Undisturbed tx db db') : TxOk tenantId db' tx state := by
  cases state with
  | idle => exact Clean.undisturbed h hu
  | running existing rest => exact Phase.undisturbed h hu
  | committed result => exact Clean.undisturbed h hu
  | rolledBack e => exact Clean.undisturbed h hu

/-! ## What is committed stays sound -/

theorem Sound.of_committed (h : Sound tenantId db)
    (hruns : ∀ k, (db'.runs k).committed = (db.runs k).committed)
    (hevents : ∀ k, (db'.events k).committed = (db.events k).committed) :
    Sound tenantId db' where
  consistent k row hrow := by
    rw [hruns] at hrow
    simp only [hevents]
    exact h.consistent k row hrow
  tenant k row hrow := h.tenant k row ((hruns k).symm.trans hrow)
  run_of_event k n e he := by
    rw [hruns]
    exact h.run_of_event k n e ((hevents _).symm.trans he)

theorem Sound.writes {session : String} (h : Sound tenantId db)
    (hw : db.Writes session tx db') : Sound tenantId db' :=
  h.of_committed hw.committed_runs hw.committed_events

theorem Sound.abort (h : Sound tenantId db) (tx : Nat) : Sound tenantId (db.abort tx) :=
  h.of_committed (fun _ => Cell.committed_abort) (fun _ => Cell.committed_abort)

/-- **A call that has written what it has counted may commit.** -/
theorem Sound.commit (h : Sound tenantId db) (hwhole : Whole tenantId db tx) :
    Sound tenantId (db.commit tx) := by
  rcases hwhole with hclean | ⟨k, hcounting⟩
  · rw [Db.commit, hclean.runs.commit_eq, hclean.events.commit_eq]
    exact h
  · obtain ⟨own, events, hown, htenant, hlists, haggregates⟩ := hcounting.counts
    rw [List.append_nil] at haggregates
    have hself : ((db.commit tx).runs k).committed = some own := by
      show (Cell.commit (db.runs k) tx).committed = some own
      rw [Cell.committed_commit, hown, Option.some_or]
    have hother : ∀ j, j ≠ k → ((db.commit tx).runs j).committed = (db.runs j).committed := by
      intro j hj
      show (Cell.commit (db.runs j) tx).committed = _
      rw [Cell.commit_of_own_none (hcounting.runs j hj)]
    have hevents : ∀ j n, j ≠ k →
        ((db.commit tx).events (j, n)).committed = (db.events (j, n)).committed := by
      intro j n hj
      show (Cell.commit (db.events (j, n)) tx).committed = _
      rw [Cell.commit_of_own_none (hcounting.events j n hj)]
    refine ⟨?_, ?_, ?_⟩
    · intro j row hrow
      by_cases hj : j = k
      · subst hj
        obtain rfl := Option.some.inj (hself.symm.trans hrow)
        refine ⟨events, ?_, haggregates⟩
        have hread : ∀ n, ((db.commit tx).events (j, n)).committed = (db.events (j, n)).read tx :=
          fun n => Cell.committed_commit_eq_read
        simp only [hread]
        exact hlists
      · rw [hother j hj] at hrow
        simp only [hevents j _ hj]
        exact h.consistent j row hrow
    · intro j row hrow
      by_cases hj : j = k
      · subst hj
        obtain rfl := Option.some.inj (hself.symm.trans hrow)
        exact htenant
      · exact h.tenant j row ((hother j hj).symm.trans hrow)
    · intro j n e he
      by_cases hj : j = k
      · subst hj
        rw [hself]
        rfl
      · rw [hother j hj]
        exact h.run_of_event j n e ((hevents j n hj).symm.trans he)

theorem clean_commit (db : Db) (tx : Nat) : Clean (db.commit tx) tx :=
  ⟨Table.untouched_commit_self, Table.untouched_commit_self⟩

theorem clean_abort (db : Db) (tx : Nat) : Clean (db.abort tx) tx :=
  ⟨Table.untouched_abort_self, Table.untouched_abort_self⟩

/-! ## A call's own statements -/

theorem Clean.read_runs (h : Clean db tx) (k : String) :
    (db.runs k).read tx = (db.runs k).committed := Cell.read_of_own_none (h.runs k)

theorem Clean.read_events (h : Clean db tx) (k : String × Nat) :
    (db.events k).read tx = (db.events k).committed := Cell.read_of_own_none (h.events k)

/-- A tenant finds every run there is. -/
theorem Sound.findRun (h : Sound tenantId db) (hown : db.runs.Untouched tx) (k : String) :
    db.findRun tenantId tx k tenantId = (db.runs k).committed := by
  rw [Db.findRun, Cell.read_of_own_none (hown k)]
  cases hrow : (db.runs k).committed with
  | none => rfl
  | some row => simp [Option.filter_some, visible, h.tenant k row hrow]

variable [Sha256]

theorem phase_insertEvents_clean {existing : Option RunRow} (rows : List EventRow)
    (inserted : Nat) (finish : Nat → Result) (h : Clean db tx) :
    Phase tenantId db tx (some existing) (insertEvents inserted finish rows) := by
  cases rows with
  | nil => exact .idle _ _ h
  | cons row rows => exact .skipping existing row rows inserted finish h

theorem phase_insertEvents_counting {existing : Option RunRow} {k : String}
    {rows : List EventRow} (inserted : Nat) (finish : Nat → Result)
    (h : Counting tenantId db tx k rows) (hrun : ∀ r ∈ rows, r.runId = k) :
    Phase tenantId db tx (some existing) (insertEvents inserted finish rows) := by
  cases rows with
  | nil => exact .counted _ _ k h
  | cons row rows => exact .inserting existing k row rows inserted finish h hrun

theorem phase_ingest (lines : List String) (h : Clean db tx) :
    Phase tenantId db tx none (ingest tenantId lines) := by
  unfold ingest
  split
  · exact .failing _ _
  case h_2 runId items hprepare => exact .looking runId items lines h (prepare_ok hprepare)

theorem phase_ingestInto {runId : String} {items : List Item} {lines : List String}
    (existing : Option RunRow) (h : Clean db tx) (hprepared : Prepared lines runId items) :
    Phase tenantId db tx (some existing) (ingestInto tenantId runId items existing) := by
  unfold ingestInto
  split
  · exact .failing _ _
  · split
    · exact .failing _ _
    case h_2 first last hchain hfirst hlast =>
      dsimp only
      cases existing with
      | some row =>
        exact .updating row runId items last _ h hprepared.sorted hlast hprepared.runId_eq
      | none =>
        exact .creating runId items first last _ h hprepared.sorted hlast hprepared.runId_eq
    · exact .failing _ _

theorem phase_emitEvent (supervisorScope : Bool) (input : EmitInput) (h : Clean db tx) :
    Phase tenantId db tx none (emitEvent tenantId supervisorScope input) := by
  unfold emitEvent
  split
  · exact .emitting input h
  · exact .failing _ _

/-- A call that has ended has only written what it has counted. -/
theorem Phase.whole {existing : Option (Option RunRow)} {result : Result}
    (h : Phase tenantId db tx existing (.done result)) : Whole tenantId db tx := by
  cases h with
  | idle _ _ h => exact .inl h
  | counted _ _ k h => exact .inr ⟨k, h⟩

omit [Sha256] in
/-- The update of a run, written over the row it has read. -/
theorem counting_update {row : RunRow} {runId : String} {items : List Item} {last : Item}
    (hsound : Sound tenantId db) (h : Clean db tx)
    (hsorted : (items.map (·.event.seq)).Pairwise (· < ·)) (hlast : items.getLast? = some last)
    (hcommitted : (db.runs (toUuid runId)).committed = some row)
    (hmoves : row.lastSeq < last.event.seq) :
    Counting tenantId (db.writeRun tx (toUuid runId)
      ((runUpdate row items last.event).apply row)) tx (toUuid runId)
      (items.map (eventRow tenantId)) where
  counts := by
    obtain ⟨events, hlists, haggregates⟩ := hsound.consistent _ row hcommitted
    refine ⟨_, events, by rw [runs_writeRun, Table.write_self, Cell.own_write], ?_, ?_,
      haggregates.runUpdate hsorted hlast hmoves⟩
    · rw [tenantId_apply]
      exact hsound.tenant _ row hcommitted
    · simp only [events_writeRun, h.read_events]
      exact hlists
  runs j hj := by
    rw [runs_writeRun, Table.write_of_ne hj]
    exact h.runs j
  events j n _ := h.events (j, n)

omit [Sha256] in
/-- The insert of a new run. -/
theorem counting_insert {runId : String} {items : List Item} {first last : Item}
    (hsound : Sound tenantId db) (h : Clean db tx)
    (hsorted : (items.map (·.event.seq)).Pairwise (· < ·)) (hlast : items.getLast? = some last)
    (hfree : (db.runs (toUuid runId)).committed = none) :
    Counting tenantId (db.writeRun tx (toUuid runId)
      (newRun tenantId runId items first.event last.event)) tx (toUuid runId)
      (items.map (eventRow tenantId)) where
  counts := by
    refine ⟨_, [], by rw [runs_writeRun, Table.write_self, Cell.own_write], rfl, lists_nil ?_,
      aggregates_newRun hsorted hlast⟩
    intro n
    rw [events_writeRun, h.read_events]
    cases hevent : (db.events (toUuid runId, n)).committed with
    | none => rfl
    | some e =>
      have hrun := hsound.run_of_event _ n e hevent
      rw [hfree] at hrun
      cases hrun
  runs j hj := by
    rw [runs_writeRun, Table.write_of_ne hj]
    exact h.runs j
  events j n _ := h.events (j, n)

omit [Sha256] in
/-- The insert of an event that has been counted. -/
theorem Counting.insertEvent {k : String} {row : EventRow} {rows : List EventRow}
    (h : Counting tenantId db tx k (row :: rows)) (hrun : row.runId = k)
    (hfree : (db.events row.key).read tx = none) :
    Counting tenantId (db.writeEvent tx row) tx k rows where
  counts := by
    obtain ⟨own, events, hown, htenant, hlists, haggregates⟩ := h.counts
    rw [List.append_cons] at haggregates
    subst hrun
    refine ⟨own, events ++ [row], hown, htenant, hlists.concat hfree ?_, haggregates⟩
    intro n
    rw [events_writeEvent, Table.read_write]
    simp [EventRow.key]
  runs := h.runs
  events j n hj := by
    rw [events_writeEvent, Table.write_of_ne]
    · exact h.events j n hj
    · intro hkey
      exact hj ((congrArg Prod.fst hkey).trans hrun)

omit [Sha256] in
/-- The update that counts a supervisor event. -/
theorem counting_increment {input : EmitInput} {row : RunRow} (hsound : Sound tenantId db)
    (h : Emitting tenantId db tx input)
    (hpresent : ((db.events (toUuid input.runId, input.seq)).own tx).isSome = true)
    (hrow : (db.runs (toUuid input.runId)).committed = some row)
    (hmoves : row.lastSeq < input.seq) :
    Counting tenantId (db.writeRun tx (toUuid input.runId)
      ((RunUpdate.increment input.seq input.hash).apply row)) tx (toUuid input.runId) [] where
  counts := by
    obtain ⟨events, hlists, haggregates⟩ := hsound.consistent _ row hrow
    obtain ⟨own, hown⟩ := Option.isSome_iff_exists.1 hpresent
    obtain rfl := h.event own hown
    refine ⟨_, events ++ [input.eventRow tenantId], by
      rw [runs_writeRun, Table.write_self, Cell.own_write], ?_, ?_, ?_⟩
    · rw [tenantId_apply]
      exact hsound.tenant _ row hrow
    · refine hlists.concat ?_ ?_
      · -- its number is higher than any stored
        cases hstored : (db.events (toUuid input.runId, input.seq)).committed with
        | none => exact hstored
        | some e =>
          obtain ⟨hmem, hseq⟩ := (hlists.mem input.seq e).1 hstored
          have hle := haggregates.lastSeq_max e hmem
          omega
      · intro n
        rw [events_writeRun]
        split
        case isTrue hn =>
          subst hn
          exact Cell.read_of_own hown
        case isFalse hn =>
          refine Cell.read_of_own_none (h.events _ ?_)
          intro hkey
          exact hn (congrArg Prod.snd hkey)
    · rw [List.append_nil]
      exact haggregates.increment hmoves
  runs j hj := by
    rw [runs_writeRun, Table.write_of_ne hj]
    exact h.runs j
  events j n hj := by
    refine h.events (j, n) ?_
    intro hkey
    exact hj (congrArg Prod.fst hkey)

/-- **Every statement of a call that meets what it is to meet takes it from one
phase to the next.** -/
theorem phase_sent {existing : Option (Option RunRow)} {stmt : Stmt}
    {next : stmt.Reply → Prog Result} {reply : stmt.Reply} (hsound : Sound tenantId db)
    (hphase : Phase tenantId db tx existing (.run stmt next))
    (hcounts : StmtCounts tx existing db stmt)
    (hrun : db.run tenantId tx stmt = .done reply db') :
    Phase tenantId db' tx (lookedUp existing stmt reply) (next reply) := by
  cases hphase with
  | looking runId items lines h hprepared =>
    cases hrun
    exact phase_ingestInto _ h hprepared
  | updating row runId items last finish h hsorted hlast hitems =>
    obtain ⟨row', hrow', hcommitted, hmoves⟩ := hcounts
    cases hrow'
    have hfound : db.findRun tenantId tx (toUuid runId) tenantId = some row := by
      rw [hsound.findRun h.runs, hcommitted]
    obtain ⟨-, rfl⟩ := updateRun_done hfound hrun
    refine phase_insertEvents_counting 0 finish
      (counting_update hsound h hsorted hlast hcommitted hmoves) ?_
    intro r hr
    obtain ⟨item, hitem, rfl⟩ := List.mem_map.1 hr
    exact congrArg toUuid (hitems item hitem)
  | creating runId items first last finish h hsorted hlast hitems =>
    obtain ⟨-, -, ⟨-, rfl⟩ | ⟨hfree, rfl⟩⟩ := insertRun_done hrun
    · -- somebody else has created it: none of the events has been counted
      exact phase_insertEvents_clean _ 0 finish h
    · refine phase_insertEvents_counting 0 finish
        (counting_insert hsound h hsorted hlast (Cell.committed_of_read_none hfree)) ?_
      intro r hr
      obtain ⟨item, hitem, rfl⟩ := List.mem_map.1 hr
      exact congrArg toUuid (hitems item hitem)
  | skipping existing row rows inserted finish h =>
    obtain ⟨-, -, ⟨-, -, rfl⟩ | ⟨-, hfree, -, -⟩⟩ := insertEvent_done hrun
    · exact phase_insertEvents_clean rows _ finish h
    · have hown := (hcounts rfl).1 hfree
      rw [h.runs] at hown
      cases hown
  | inserting existing k row rows inserted finish h hrows =>
    obtain ⟨own, -, hown, -⟩ := h.counts
    have hrow : row.runId = k := hrows row (List.mem_cons_self ..)
    have hfree : (db.events row.key).read tx = none :=
      (hcounts rfl).2 (by rw [hrow, hown]; rfl)
    obtain ⟨-, -, ⟨-, htaken, -⟩ | ⟨-, -, -, rfl⟩⟩ := insertEvent_done hrun
    · rw [hfree] at htaken
      cases htaken
    · exact phase_insertEvents_counting _ finish (h.insertEvent hrow hfree)
        (fun r hr => hrows r (List.mem_cons_of_mem _ hr))
  | emitting input h =>
    obtain ⟨-, -, ⟨-, htaken, rfl⟩ | ⟨-, -, hpresent, rfl⟩⟩ := insertEvent_done hrun
    · refine .emitLooking input ⟨h.runs, fun k _ => h.events k, ?_, ?_⟩
      · intro row hrow
        rw [h.events] at hrow
        cases hrow
      · rw [h.read_events] at htaken
        obtain ⟨e, he⟩ := Option.isSome_iff_exists.1 htaken
        exact hsound.run_of_event _ _ e he
    · refine .emitLooking input ⟨h.runs, ?_, ?_, ?_⟩
      · intro k hk
        rw [events_writeEvent, Table.write_of_ne hk]
        exact h.events k
      · intro row hrow
        rw [events_writeEvent, Table.write_self, Cell.own_write] at hrow
        exact (Option.some.inj hrow).symm
      · rw [h.read_runs] at hpresent
        exact hpresent
  | emitLooking input h =>
    cases hrun
    rw [hsound.findRun h.runs]
    obtain ⟨row, hrow⟩ := Option.isSome_iff_exists.1 h.run
    rw [hrow]
    exact .emitUpdating _ input h
  | emitUpdating _ input h =>
    obtain ⟨hpresent, hmoves⟩ := hcounts
    obtain ⟨row, hrow⟩ := Option.isSome_iff_exists.1 h.run
    have hfound : db.findRun tenantId tx (toUuid input.runId) tenantId = some row := by
      rw [hsound.findRun h.runs, hrow]
    obtain ⟨-, rfl⟩ := updateRun_done hfound hrun
    exact .counted _ _ _ (counting_increment hsound h hpresent hrow (hmoves row hrow))

/-- **What every event of a run preserves.** -/
structure Inv (tenantId : String) (s : Store) : Prop where
  sound : Sound tenantId s.db
  txs : ∀ tx, TxOk tenantId s.db tx (s.txs tx)

theorem inv_start (tenantId : String) : Inv tenantId (.of .empty) where
  sound := ⟨fun k row hrow => (by cases hrow), fun k row hrow => (by cases hrow),
    fun k n e he => (by cases he)⟩
  txs tx := ⟨Table.untouched_empty, Table.untouched_empty⟩

/-- The move of one transaction, and the others undisturbed. -/
theorem Inv.put {s : Store} (h : Inv tenantId s) {state : TxState}
    (hsound : Sound tenantId db') (hself : TxOk tenantId db' tx state)
    (hothers : ∀ other, other ≠ tx → Undisturbed other s.db db') :
    Inv tenantId (s.put tx db' state) where
  sound := hsound
  txs other := by
    by_cases hother : other = tx
    · subst hother
      rw [Store.txs_put_self]
      exact hself
    · rw [Store.txs_put_of_ne s db' state hother]
      exact (h.txs other).undisturbed (hothers other hother)

theorem inv_step {s s' : Store} {e : TxEvent} (h : Inv tenantId s) (hcounts : StepCounts s e)
    (hstep : s.step (fun _ => tenantId) e = some s') : Inv tenantId s' := by
  cases moves_of_step _ hstep with
  | @start tx call hidle =>
    have hclean : Clean s.db tx := by
      have hok := h.txs tx
      rw [hidle] at hok
      exact hok
    refine h.put h.sound ?_ (fun other _ => ⟨fun _ => rfl, fun _ => rfl, fun _ _ _ => rfl,
      fun _ hk => hk⟩)
    cases call with
    | ingest lines => exact phase_ingest lines hclean
    | emitEvent scope input => exact phase_emitEvent scope input hclean
  | @sent tx existing stmt next reply db hrunning hrun =>
    have hphase : Phase tenantId s.db tx existing (.run stmt next) := by
      have hok := h.txs tx
      rw [hrunning] at hok
      exact hok
    have hwrites := writes_of_run hrun
    exact h.put (h.sound.writes hwrites)
      (phase_sent h.sound hphase (hcounts existing stmt next hrunning) hrun)
      (fun other hne => undisturbed_writes hwrites hne)
  | @committed tx existing result hrunning =>
    have hphase : Phase tenantId s.db tx existing (.done result) := by
      have hok := h.txs tx
      rw [hrunning] at hok
      exact hok
    exact h.put (h.sound.commit hphase.whole) (clean_commit s.db tx)
      (fun other hne => undisturbed_commit hne hphase.whole)
  | rolledBack error hrunning =>
    exact h.put (h.sound.abort _) (clean_abort s.db _)
      (fun other hne => undisturbed_abort s.db hne)

end Steps

/-- A supervisor event under a number that is taken is not stored, and counted. -/
theorem serial_emitEvent_taken {tenantId : String} {tx : Nat} {db : Db} {input : EmitInput}
    {row : RunRow} (hquiet : db.Quiet)
    (hrow : (db.runs (toUuid input.runId)).committed = some row) (htenant : row.tenantId = tenantId)
    (htaken : ((db.events (input.eventRow tenantId).key).committed).isSome = true) :
    (emitEvent tenantId true input).serial tenantId tx db =
      .ok (.emitted, (db.writeRun tx (toUuid input.runId)
        ((RunUpdate.increment input.seq input.hash).apply row)).commit tx) := by
  have hfound : db.findRun tenantId tx (toUuid input.runId) tenantId = some row := by
    rw [findRun_of_quiet hquiet, hrow, Option.filter_some, if_pos (by simpa using htenant)]
  have hskip : db.run tenantId tx (.insertEvent (input.eventRow tenantId)) = .done false db := by
    refine run_insertEvent_taken rfl (hquiet.events.freeFor tx _) ?_
    rw [Cell.read_of_pending_none (hquiet.events _)]
    exact htaken
  rw [emitEvent, if_pos rfl, Prog.serial_run _ _ hskip, Prog.serial_selectRun, hfound, emitInto,
    Prog.serial_run _ _ (run_updateRun _ hfound (hquiet.runs.freeFor tx _)), Prog.serial]

namespace Sample

open LoopStorm.Engine.Sample

/-- A supervisor event under the number of the first event of the run. -/
def emitted : EmitInput where
  runId := runId
  eventType := "supervisor_run_started"
  seq := 1
  ts := "2026-01-31T09:31:00Z"
  hash := zeros
  hashPrev := none
  agentName := none
  optionals := []
  runId_isUuid := by decide
  one_le_seq := le_rfl
  hash_length := by decide +kernel
  hashPrev_length := fun _ h => absurd h (Option.not_mem_none _)

/-- The batch, and the supervisor event after it. -/
def emitEvents : List TxEvent :=
  callEvents 0 (.ingest [startLine]) 4 ++ callEvents 1 (.emitEvent true emitted) 4

end Sample

end LoopStorm.Backend
