import LoopStorm.Backend.Interleaving

/-!
# Tenants side by side

What a tenant's calls do while other tenants call too.

* `Db.Owned` — every row a transaction has written, and every row it replaces,
  is its tenant's: the policies see to that (`owned_run`).
* `Db.only`, `Store.only` — what is left when the others are taken away.
* `run_only`, `only_run_of_ne` — a statement of the tenant does the same there,
  and one of another tenant does nothing there.
* `Unshared` — no other tenant has a row under a key the tenant inserts under.
  The keys are not the tenant's own, so this is not a matter of course.
* `same_as_alone` — **the others make no difference** to a tenant with whom
  nobody shares a key.
-/

namespace LoopStorm.Backend

open LoopStorm.Engine
open ReadCommitted

section Tenants

variable (tenantOf : Nat → String)

/-! ## Rows and their tenants -/

/-- Every written slot is its tenant's. -/
structure Db.Owned (db : Db) : Prop where
  runs : db.runs.Owned tenantOf RunRow.tenantId
  events : db.events.Owned tenantOf EventRow.tenantId

/-- The rows of one tenant. -/
def Db.only (a : String) (db : Db) : Db where
  runs := db.runs.only tenantOf RunRow.tenantId a
  events := db.events.only tenantOf EventRow.tenantId a

theorem owned_empty : Db.empty.Owned tenantOf := ⟨Table.owned_empty, Table.owned_empty⟩

variable {tenantOf} {db : Db} {tx : Nat} {a : String}

theorem Db.Owned.commit (h : db.Owned tenantOf) (tx : Nat) : (db.commit tx).Owned tenantOf :=
  ⟨h.runs.commit tx, h.events.commit tx⟩

theorem Db.Owned.abort (h : db.Owned tenantOf) (tx : Nat) : (db.abort tx).Owned tenantOf :=
  ⟨h.runs.abort tx, h.events.abort tx⟩

/-- **No statement writes over another tenant's row.** -/
theorem owned_run {stmt : Stmt} {reply : stmt.Reply} {db' : Db} (h : db.Owned tenantOf)
    (hrun : db.run (tenantOf tx) tx stmt = .done reply db') : db'.Owned tenantOf := by
  cases writes_of_run hrun with
  | nothing => exact h
  | run k row hlock htenant hover =>
    refine ⟨h.runs.write htenant ?_, h.events⟩
    intro r hr
    cases hread : (db.runs k).read tx with
    | none =>
      rw [Cell.committed_of_read_none hread] at hr
      cases hr
    | some old => exact h.runs.committed_of_read hread (hover old hread) hr
  | event row hlock htenant hfree =>
    refine ⟨h.runs, h.events.write htenant ?_⟩
    intro r hr
    rw [Cell.committed_of_read_none hfree] at hr
    cases hr

/-! ## A statement among the rows of one tenant -/

/-- No other tenant has a row under a key the statement inserts under, nor a run
an inserted event would refer to. -/
def Unshared (a : String) (db : Db) : Stmt → Prop
  | .selectRun .. => True
  | .updateRun .. => True
  | .insertRun row => (db.runs row.runId).HeldBy RunRow.tenantId a
  | .insertEvent row =>
    (db.events row.key).HeldBy EventRow.tenantId a ∧
      ∀ r, (db.runs row.runId).committed = some r → r.tenantId = a

/-- A statement's outcome among the rows of one tenant. -/
def Outcome.only {ρ : Type} (tenantOf : Nat → String) (a : String) : Outcome ρ → Outcome ρ
  | .blocked => .blocked
  | .refused => .refused
  | .done reply db => .done reply (db.only tenantOf a)

theorem only_writeRun (htx : tenantOf tx = a) (db : Db) (k : String) (row : RunRow) :
    (db.writeRun tx k row).only tenantOf a = (db.only tenantOf a).writeRun tx k row := by
  rw [Db.only, runs_writeRun, Table.only_write htx]
  rfl

theorem only_writeEvent (htx : tenantOf tx = a) (db : Db) (row : EventRow) :
    (db.writeEvent tx row).only tenantOf a = (db.only tenantOf a).writeEvent tx row := by
  rw [Db.only, events_writeEvent, Table.only_write htx]
  rfl

theorem only_commit (h : db.Owned tenantOf) (htx : tenantOf tx = a) :
    (db.commit tx).only tenantOf a = (db.only tenantOf a).commit tx := by
  rw [Db.only, Db.commit, Table.only_commit htx h.runs, Table.only_commit htx h.events]
  rfl

theorem only_abort (db : Db) (htx : tenantOf tx = a) :
    (db.abort tx).only tenantOf a = (db.only tenantOf a).abort tx := by
  rw [Db.only, Db.abort, Table.only_abort htx, Table.only_abort htx]
  rfl

theorem only_commit_of_ne (h : db.Owned tenantOf) (htx : tenantOf tx ≠ a) :
    (db.commit tx).only tenantOf a = db.only tenantOf a := by
  rw [Db.only, Db.commit, Table.only_commit_of_ne htx h.runs,
    Table.only_commit_of_ne htx h.events]
  rfl

theorem only_abort_of_ne (db : Db) (htx : tenantOf tx ≠ a) :
    (db.abort tx).only tenantOf a = db.only tenantOf a := by
  rw [Db.only, Db.abort, Table.only_abort_of_ne htx, Table.only_abort_of_ne htx]
  rfl

theorem findRun_only (htx : tenantOf tx = a) (runId tenantId : String) :
    (db.only tenantOf a).findRun a tx runId tenantId = db.findRun a tx runId tenantId := by
  show Option.filter _ (Cell.read (Cell.only _ _ _ _) tx) = Option.filter _ (Cell.read _ tx)
  rw [Cell.read, Cell.read, Cell.own_only htx]
  cases (db.runs runId).own tx with
  | some row => rfl
  | none =>
    rw [Option.none_or, Option.none_or, Cell.only, Option.filter_filter]
    congr 1
    funext row
    by_cases hrow : row.tenantId = a
    · simp [hrow]
    · simp [visible, hrow]

/-- **A statement of the tenant does the same among its own rows**, where nobody
shares its keys. -/
theorem run_only (h : db.Owned tenantOf) (htx : tenantOf tx = a) {stmt : Stmt}
    (hkeys : Unshared a db stmt) :
    (db.only tenantOf a).run a tx stmt = (db.run a tx stmt).only tenantOf a := by
  cases stmt with
  | selectRun runId tenantId =>
    rw [Db.run, Db.run, findRun_only htx]
    rfl
  | updateRun runId tenantId update =>
    rw [Db.run, Db.run, findRun_only htx]
    cases hfound : db.findRun a tx runId tenantId with
    | none => rfl
    | some row =>
      obtain ⟨hread, hrow⟩ := read_of_findRun hfound
      have hlock : ((db.only tenantOf a).runs runId).lockedFor tx =
          (db.runs runId).lockedFor tx := Cell.lockedFor_only (h.runs runId) htx hread hrow
      dsimp only
      rw [hlock]
      split
      · rfl
      · rw [Outcome.only, only_writeRun htx]
  | insertRun row =>
    have hslot : (db.only tenantOf a).runs row.runId = db.runs row.runId :=
      Cell.only_of_heldBy (h.runs _) hkeys
    rw [Db.run, Db.run, hslot]
    split
    · rfl
    · split
      · rfl
      · split
        · rfl
        · rw [Outcome.only, only_writeRun htx]
  | insertEvent row =>
    have hslot : (db.only tenantOf a).events row.key = db.events row.key :=
      Cell.only_of_heldBy (h.events _) hkeys.1
    have hrun : ((db.only tenantOf a).runs row.runId).read tx = (db.runs row.runId).read tx := by
      show (Cell.only _ _ _ _).read tx = _
      rw [Cell.read, Cell.read, Cell.own_only htx, Cell.only]
      congr 1
      cases hr : (db.runs row.runId).committed with
      | none => rfl
      | some r => simp [Option.filter_some, hkeys.2 r hr]
    rw [Db.run, Db.run, hslot, hrun]
    split
    · rfl
    · split
      · rfl
      · split
        · rfl
        · split
          · rfl
          · rw [Outcome.only, only_writeEvent htx]

/-- **A statement of another tenant does nothing there.** -/
theorem only_run_of_ne (htx : tenantOf tx ≠ a) {stmt : Stmt} {reply : stmt.Reply} {db' : Db}
    (hrun : db.run (tenantOf tx) tx stmt = .done reply db') :
    db'.only tenantOf a = db.only tenantOf a := by
  cases writes_of_run hrun with
  | nothing => rfl
  | run k row hlock htenant hover =>
    rw [Db.only, Db.only, runs_writeRun, Table.only_write_of_ne htx hlock]
    rfl
  | event row hlock htenant hfree =>
    rw [Db.only, Db.only, events_writeEvent, Table.only_write_of_ne htx hlock]
    rfl

/-! ## Runs -/

variable (tenantOf)

/-- The store as if only one tenant had called. -/
def Store.only (a : String) (s : Store) : Store where
  db := s.db.only tenantOf a
  txs tx := if tenantOf tx = a then s.txs tx else .idle

/-- A step of the tenant's meets no other tenant's row under its keys. -/
def StepUnshared (a : String) (s : Store) : TxEvent → Prop
  | .step tx => tenantOf tx = a → ∀ existing stmt next,
      s.txs tx = .running existing (.run stmt next) → Unshared a s.db stmt
  | _ => True

/-- Two stores that show a tenant the same: its rows, and where its calls are
and what they have returned. -/
structure SameFor (a : String) (s t : Store) : Prop where
  runs : ∀ k, (s.db.runs k).committed.filter (fun row => row.tenantId = a) =
    (t.db.runs k).committed.filter (fun row => row.tenantId = a)
  events : ∀ k, (s.db.events k).committed.filter (fun row => row.tenantId = a) =
    (t.db.events k).committed.filter (fun row => row.tenantId = a)
  txs : ∀ tx, tenantOf tx = a → s.txs tx = t.txs tx

variable {tenantOf} {s s' : Store} {e : TxEvent}

/-- The store shows a tenant what is left when the others are taken away. -/
theorem sameFor_only (s : Store) : SameFor tenantOf a s (s.only tenantOf a) where
  runs k := by
    show _ = ((s.db.runs k).committed.filter _).filter _
    rw [Option.filter_filter]
    simp
  events k := by
    show _ = ((s.db.events k).committed.filter _).filter _
    rw [Option.filter_filter]
    simp
  txs tx htx := (if_pos htx).symm

theorem only_put (htx : tenantOf tx = a) (db : Db) (state : TxState) :
    (s.put tx db state).only tenantOf a =
      (s.only tenantOf a).put tx (db.only tenantOf a) state := by
  rw [Store.only, Store.put, Store.put]
  congr 1
  funext other
  by_cases hother : other = tx
  · subst hother
    simp [htx]
  · simp [Store.only, Function.update_of_ne hother]

/-- A move of another tenant's, one that leaves the tenant's rows alone, is not
seen. -/
theorem only_put_of_ne (htx : tenantOf tx ≠ a) {db : Db} (state : TxState)
    (hdb : db.only tenantOf a = s.db.only tenantOf a) :
    (s.put tx db state).only tenantOf a = s.only tenantOf a := by
  rw [Store.only, Store.only, Store.put, hdb]
  congr 1
  funext other
  by_cases hother : other = tx
  · subst hother
    simp [htx]
  · simp [Function.update_of_ne hother]

section Steps

variable [Sha256]

theorem owned_step (h : s.db.Owned tenantOf) (hstep : s.step tenantOf e = some s') :
    s'.db.Owned tenantOf := by
  cases moves_of_step tenantOf hstep with
  | start call hidle => exact h
  | sent hrunning hrun => exact owned_run h hrun
  | committed hrunning => exact h.commit _
  | rolledBack error hrunning => exact h.abort _

/-- An event of the tenant's happens in the same way when the others are taken
away. -/
theorem step_only (h : s.db.Owned tenantOf) (htx : tenantOf e.tx = a)
    (hkeys : StepUnshared tenantOf a s e) :
    (s.only tenantOf a).step tenantOf e = (s.step tenantOf e).map (Store.only tenantOf a) := by
  have htxs : ∀ tx, tenantOf tx = a → (s.only tenantOf a).txs tx = s.txs tx :=
    fun tx htx => if_pos htx
  cases e with
  | start tx call =>
    change tenantOf tx = a at htx
    rw [Store.step, Store.step, htxs tx htx]
    split
    · rw [Option.map_some, only_put htx]
      rfl
    · rfl
  | kill tx =>
    change tenantOf tx = a at htx
    rw [Store.step, Store.step, htxs tx htx]
    split
    · rw [Option.map_some, only_put htx, only_abort s.db htx]
      rfl
    · rfl
  | step tx =>
    change tenantOf tx = a at htx
    rw [Store.step, Store.step, htxs tx htx]
    split
    case h_1 existing stmt next hrunning =>
      have hrun : (s.only tenantOf a).db.run (tenantOf tx) tx stmt =
          (s.db.run (tenantOf tx) tx stmt).only tenantOf a := by
        rw [htx]
        exact run_only h htx (hkeys htx existing stmt next hrunning)
      rw [hrun]
      cases s.db.run (tenantOf tx) tx stmt with
      | blocked => rfl
      | refused =>
        dsimp only [Outcome.only]
        rw [Option.map_some, only_put htx, only_abort s.db htx]
        rfl
      | done reply db =>
        dsimp only [Outcome.only]
        rw [Option.map_some, only_put htx]
    case h_2 =>
      rw [Option.map_some, only_put htx, only_commit h htx]
      rfl
    case h_3 =>
      rw [Option.map_some, only_put htx, only_abort s.db htx]
      rfl
    case h_4 => rfl

/-- An event of another tenant's is not seen. -/
theorem only_step_of_ne (h : s.db.Owned tenantOf) (htx : tenantOf e.tx ≠ a)
    (hstep : s.step tenantOf e = some s') : s'.only tenantOf a = s.only tenantOf a := by
  cases moves_of_step tenantOf hstep with
  | start call hidle => exact only_put_of_ne htx _ rfl
  | sent hrunning hrun => exact only_put_of_ne htx _ (only_run_of_ne htx hrun)
  | committed hrunning => exact only_put_of_ne htx _ (only_commit_of_ne h htx)
  | rolledBack error hrunning => exact only_put_of_ne htx _ (only_abort_of_ne s.db htx)

/-- **The others make no difference** to a tenant with whom nobody shares a key:
its rows and what its calls return are the same when none of the others' calls
is made. -/
theorem same_as_alone {a : String} {events : List TxEvent} {s : Store}
    (h : Run.exec (Store.step tenantOf) (.of .empty) events = some s)
    (hkeys : Run.AllEvents (Store.step tenantOf) (StepUnshared tenantOf a) (.of .empty) events) :
    ∃ alone, Run.exec (Store.step tenantOf) (.of .empty)
        (events.filter fun e => tenantOf e.tx = a) = some alone ∧ SameFor tenantOf a s alone := by
  let R : Store → Store → Prop := fun s t => s.db.Owned tenantOf ∧ t = s.only tenantOf a
  have hin : ∀ s t e s', R s t → StepUnshared tenantOf a s e → decide (tenantOf e.tx = a) = true →
      s.step tenantOf e = some s' → ∃ t', t.step tenantOf e = some t' ∧ R s' t' := by
    rintro s t e s' ⟨howned, rfl⟩ hkeys htx hstep
    refine ⟨s'.only tenantOf a, ?_, owned_step howned hstep, rfl⟩
    rw [step_only howned (of_decide_eq_true htx) hkeys, hstep]
    rfl
  have hout : ∀ s t e s', R s t → StepUnshared tenantOf a s e →
      decide (tenantOf e.tx = a) = false → s.step tenantOf e = some s' → R s' t := by
    rintro s t e s' ⟨howned, rfl⟩ - htx hstep
    exact ⟨owned_step howned hstep,
      (only_step_of_ne howned (of_decide_eq_false htx) hstep).symm⟩
  have hstart : R (.of .empty) (.of .empty) := by
    refine ⟨owned_empty tenantOf, ?_⟩
    rw [Store.of, Store.only]
    congr 1
    funext tx
    exact (ite_self _).symm
  obtain ⟨alone, halone, -, rfl⟩ := Run.exec_filter _ hin hout hstart hkeys h
  exact ⟨s.only tenantOf a, halone, sameFor_only s⟩

end Steps

end Tenants

namespace Sample

open LoopStorm.Engine.Sample

/-- The first call is the one tenant's, the others are the other's. -/
def tenantOf (tx : Nat) : String := if tx = 0 then "b" else "a"

/-- The same line from both, the other's first. -/
def events : List TxEvent :=
  callEvents 0 (.ingest [startLine]) 4 ++ callEvents 1 (.ingest [startLine]) 4

/-- One tenant takes the key of the other's run, which is then never stored. -/
theorem not_same_as_alone : ∃ s alone,
    Run.exec (Store.step tenantOf) (.of .empty) events = some s ∧
      Run.exec (Store.step tenantOf) (.of .empty)
        (events.filter fun e => tenantOf e.tx = "a") = some alone ∧
      ¬ SameFor tenantOf "a" s alone := by
  have hidle : ∀ tx, (Store.of .empty).txs tx = .idle := fun _ => rfl
  obtain ⟨result₀, db₀, hexec₀, hingested₀⟩ := exec_startLine tenantOf (hidle 0) quiet_empty rfl
  have hrun₀ := run_startLine hingested₀
  have hnone : db₀.findRun "a" 1 (toUuid runId) "a" = none := by
    rw [findRun_of_quiet hingested₀.quiet, hrun₀]
    rfl
  have hidle₁ : ((Store.of .empty).put 0 db₀ (.committed result₀)).txs 1 = .idle := rfl
  obtain ⟨result₁, db₁, hexec₁, hingested₁⟩ := exec_startLine tenantOf hidle₁ hingested₀.quiet hnone
  have hrun₁ : (db₁.runs (toUuid runId)).committed = _ := run_startLine hingested₁
  obtain ⟨result, db, hexec, hingested⟩ := exec_startLine tenantOf (hidle 1) quiet_empty rfl
  have hrun := run_startLine hingested
  have hboth : Run.exec (Store.step tenantOf) (.of .empty) events =
      some (((Store.of .empty).put 0 db₀ (.committed result₀)).put 1 db₁ (.committed result₁)) := by
    rw [events, Run.exec_append, hexec₀, Option.bind_some, hexec₁]
  have hfilter : (events.filter fun e => tenantOf e.tx = "a") =
      callEvents 1 (.ingest [startLine]) 4 := by
    simp [events, callEvents, TxEvent.tx, tenantOf]
  refine ⟨_, _, hboth, hfilter ▸ hexec, ?_⟩
  intro hsame
  have hrows := hsame.runs (toUuid runId)
  rw [Store.db_put, Store.db_put, hrun₁, hrun, Store.db_put, hrun₀] at hrows
  exact absurd hrows (by decide)

/-- A tenant looks for its run before the other's batch comes. -/
def lookFirst : List TxEvent :=
  [.start 1 (.ingest [startLine]), .step 1] ++ callEvents 0 (.ingest [startLine]) 4

/-- The store once the tenant's call has started. -/
def started : Store :=
  (Store.of .empty).put 1 .empty
    (.running none (.run (.selectRun (toUuid runId) "a") (ingestInto "a" runId [⟨startEvent, startLine⟩])))

/-- The store once it has looked. -/
def looked : Store :=
  started.put 1 .empty (.running (some none) (ingestInto "a" runId [⟨startEvent, startLine⟩] none))

theorem step_started :
    (Store.of .empty).step tenantOf (.start 1 (.ingest [startLine])) = some started := by
  have hidle : (Store.of .empty).txs 1 = .idle := rfl
  have hprog : (TrpcCall.ingest [startLine]).prog (tenantOf 1) =
      .run (.selectRun (toUuid runId) "a") (ingestInto "a" runId [⟨startEvent, startLine⟩]) := by
    show ingest "a" [startLine] = _
    rw [ingest, prepare_startLine]
  rw [step_start tenantOf _ hidle, hprog]
  rfl

theorem step_looked : started.step tenantOf (.step 1) = some looked := by
  have hrunning : started.txs 1 = .running none
      (.run (.selectRun (toUuid runId) "a") (ingestInto "a" runId [⟨startEvent, startLine⟩])) := rfl
  have hselect : started.db.run (tenantOf 1) 1 (.selectRun (toUuid runId) "a") =
      .done none .empty := rfl
  exact step_sent tenantOf hrunning hselect

theorem same_as_alone_lookFirst : ∃ s alone,
    Run.exec (Store.step tenantOf) (.of .empty) lookFirst = some s ∧
      Run.exec (Store.step tenantOf) (.of .empty)
        (lookFirst.filter fun e => tenantOf e.tx = "a") = some alone ∧
      SameFor tenantOf "a" s alone := by
  have hidle : looked.txs 0 = .idle := rfl
  obtain ⟨result, db, hexec, -⟩ := exec_startLine tenantOf hidle quiet_empty rfl
  have hboth : Run.exec (Store.step tenantOf) (.of .empty) lookFirst =
      some (looked.put 0 db (.committed result)) := by
    rw [lookFirst, Run.exec_append, Run.exec, step_started, Option.bind_some, Run.exec,
      step_looked, Option.bind_some, Run.exec, Option.bind_some, hexec]
  have hkeys : Run.AllEvents (Store.step tenantOf) (StepUnshared tenantOf "a") (.of .empty)
      lookFirst := by
    refine ⟨trivial, fun s hs => ⟨?_, fun t _ => ?_⟩⟩
    · -- the tenant's one statement is its look for the run
      rintro - existing stmt next hrunning
      obtain rfl := Option.some.inj (step_started.symm.trans hs)
      cases hrunning
      trivial
    · refine Run.AllEvents.of_mem _ ?_ t
      intro e he s
      have htx : e = .start 0 (.ingest [startLine]) ∨ e = .step 0 := by
        simpa [callEvents] using he
      rcases htx with rfl | rfl
      · trivial
      · exact fun h => absurd h (by decide)
  obtain ⟨alone, halone, hsame⟩ := same_as_alone hboth hkeys
  exact ⟨_, alone, hboth, halone, hsame⟩

end Sample

end LoopStorm.Backend
