import LoopStorm.Backend.Serial
import LoopStorm.Lib.Run

/-!
# Calls side by side

Calls of the two procedures, each in its transaction, sending their statements
in any order.

* `Store` — the tables and where every transaction is; `tenantOf` says whose a
  transaction is.
* `TxEvent`, `Store.step` — a transaction starts, sends its next statement or
  ends, or is killed.  One that would have to wait is not stepped.
* `Moves` — what an event can do, and `moves_of_step`, the inversion every
  invariant goes through.
* `exec_of_serial` — a call with no other in sight runs as `Prog.serial` has it.
-/

namespace LoopStorm.Backend

open LoopStorm.Engine
open ReadCommitted

/-- A call of one of the two procedures. -/
inductive TrpcCall where
  | ingest (lines : List String)
  | emitEvent (supervisorScope : Bool) (input : EmitInput)

/-- What a call of a tenant does. -/
def TrpcCall.prog [Sha256] (tenantId : String) : TrpcCall → Prog Result
  | .ingest lines => Backend.ingest tenantId lines
  | .emitEvent supervisorScope input => Backend.emitEvent tenantId supervisorScope input

/-- Where the transaction of a call is. -/
inductive TxState where
  | idle
  /-- with what its look for the run has found, once it has looked -/
  | running (existing : Option (Option RunRow)) (rest : Prog Result)
  | committed (result : Result)
  | rolledBack (error : IngestError)

/-- The tables and the transactions on them. -/
structure Store where
  db : Db
  txs : Nat → TxState

/-- Tables nothing has been called on. -/
def Store.of (db : Db) : Store := ⟨db, fun _ => .idle⟩

/-- The store with a transaction moved on and the tables it leaves. -/
def Store.put (s : Store) (tx : Nat) (db : Db) (state : TxState) : Store :=
  ⟨db, Function.update s.txs tx state⟩

@[simp] theorem Store.db_put (s : Store) (tx : Nat) (db : Db) (state : TxState) :
    (s.put tx db state).db = db := rfl

@[simp] theorem Store.txs_put_self (s : Store) (tx : Nat) (db : Db) (state : TxState) :
    (s.put tx db state).txs tx = state := Function.update_self ..

theorem Store.txs_put_of_ne (s : Store) {tx other : Nat} (db : Db) (state : TxState)
    (h : other ≠ tx) : (s.put tx db state).txs other = s.txs other := Function.update_of_ne h ..

/-- Of two moves of one transaction the second is what is left. -/
@[simp] theorem Store.put_put (s : Store) (tx : Nat) (db db' : Db) (state state' : TxState) :
    (s.put tx db state).put tx db' state' = s.put tx db' state' := by
  rw [put, put, put, Function.update_idem]

/-- What happens to a transaction. -/
inductive TxEvent where
  | start (tx : Nat) (call : TrpcCall)
  | step (tx : Nat)
  /-- its connection is lost, or the database gives up on it -/
  | kill (tx : Nat)

/-- The transaction an event happens to. -/
def TxEvent.tx : TxEvent → Nat
  | .start tx _ | .step tx | .kill tx => tx

/-- What a call knows of its run after a statement. -/
def lookedUp (existing : Option (Option RunRow)) : (stmt : Stmt) → stmt.Reply →
    Option (Option RunRow)
  | .selectRun .., found => some found
  | .updateRun .., _ => existing
  | .insertRun _, _ => existing
  | .insertEvent _, _ => existing

section Machine

variable [Sha256] (tenantOf : Nat → String)

/-- One event; `none` when it cannot happen, or would have to wait. -/
def Store.step (s : Store) : TxEvent → Option Store
  | .start tx call =>
    match s.txs tx with
    | .idle => some (s.put tx s.db (.running none (call.prog (tenantOf tx))))
    | _ => none
  | .step tx =>
    match s.txs tx with
    | .running existing (.run stmt next) =>
      match s.db.run (tenantOf tx) tx stmt with
      | .blocked => none
      | .refused => some (s.put tx (s.db.abort tx) (.rolledBack .database))
      | .done reply db => some (s.put tx db (.running (lookedUp existing stmt reply) (next reply)))
    | .running _ (.done result) => some (s.put tx (s.db.commit tx) (.committed result))
    | .running _ (.fail error) => some (s.put tx (s.db.abort tx) (.rolledBack error))
    | _ => none
  | .kill tx =>
    match s.txs tx with
    | .running .. => some (s.put tx (s.db.abort tx) (.rolledBack .database))
    | _ => none

theorem step_start {s : Store} {tx : Nat} (call : TrpcCall) (h : s.txs tx = .idle) :
    s.step tenantOf (.start tx call) =
      some (s.put tx s.db (.running none (call.prog (tenantOf tx)))) := by
  rw [Store.step, h]

theorem step_sent {s : Store} {tx : Nat} {existing : Option (Option RunRow)} {stmt : Stmt}
    {next : stmt.Reply → Prog Result} {reply : stmt.Reply} {db : Db}
    (h : s.txs tx = .running existing (.run stmt next))
    (hrun : s.db.run (tenantOf tx) tx stmt = .done reply db) :
    s.step tenantOf (.step tx) =
      some (s.put tx db (.running (lookedUp existing stmt reply) (next reply))) := by
  rw [Store.step, h]
  dsimp only
  rw [hrun]

/-- What an event can do. -/
inductive Moves (s : Store) : TxEvent → Store → Prop
  | start {tx : Nat} (call : TrpcCall) (h : s.txs tx = .idle) :
    Moves s (.start tx call) (s.put tx s.db (.running none (call.prog (tenantOf tx))))
  | sent {tx : Nat} {existing : Option (Option RunRow)} {stmt : Stmt}
    {next : stmt.Reply → Prog Result} {reply : stmt.Reply} {db : Db}
    (h : s.txs tx = .running existing (.run stmt next))
    (hrun : s.db.run (tenantOf tx) tx stmt = .done reply db) :
    Moves s (.step tx) (s.put tx db (.running (lookedUp existing stmt reply) (next reply)))
  | committed {tx : Nat} {existing : Option (Option RunRow)} {result : Result}
    (h : s.txs tx = .running existing (.done result)) :
    Moves s (.step tx) (s.put tx (s.db.commit tx) (.committed result))
  | rolledBack {e : TxEvent} {existing : Option (Option RunRow)} {rest : Prog Result}
    (error : IngestError) (h : s.txs e.tx = .running existing rest) :
    Moves s e (s.put e.tx (s.db.abort e.tx) (.rolledBack error))

theorem moves_of_step {s s' : Store} {e : TxEvent} (h : s.step tenantOf e = some s') :
    Moves tenantOf s e s' := by
  cases e with
  | start tx call =>
    rw [Store.step] at h
    split at h
    case h_1 hidle =>
      obtain rfl := Option.some.inj h
      exact .start call hidle
    case h_2 => cases h
  | step tx =>
    rw [Store.step] at h
    split at h
    case h_1 existing stmt next hrunning =>
      split at h
      case h_1 => cases h
      case h_2 =>
        obtain rfl := Option.some.inj h
        exact .rolledBack _ hrunning
      case h_3 reply db hrun =>
        obtain rfl := Option.some.inj h
        exact .sent hrunning hrun
    case h_2 hrunning =>
      obtain rfl := Option.some.inj h
      exact .committed hrunning
    case h_3 hrunning =>
      obtain rfl := Option.some.inj h
      exact .rolledBack _ hrunning
    case h_4 => cases h
  | kill tx =>
    rw [Store.step] at h
    split at h
    case h_1 hrunning =>
      obtain rfl := Option.some.inj h
      exact .rolledBack _ hrunning
    case h_2 => cases h

/-- A call that runs through with no other in sight does so in a run of the
store. -/
theorem exec_of_serial {s : Store} {tx n : Nat} {existing : Option (Option RunRow)}
    {rest : Prog Result} {result : Result} {db : Db} (hsteps : rest.TakesSteps n)
    (h : s.txs tx = .running existing rest)
    (hserial : rest.serial (tenantOf tx) tx s.db = .ok (result, db)) :
    Run.exec (Store.step tenantOf) s (List.replicate n (.step tx)) =
      some (s.put tx db (.committed result)) := by
  induction hsteps generalizing s existing with
  | done r =>
    obtain ⟨rfl, rfl⟩ := Prod.mk.inj (Except.ok.inj hserial)
    rw [List.replicate_one, Run.exec, Store.step, h]
    rfl
  | fail e => cases hserial
  | run stmt next n _ ih =>
    rw [Prog.serial] at hserial
    split at hserial
    · cases hserial
    · cases hserial
    case h_3 reply db' hrun =>
      have hrest := ih reply (Store.txs_put_self s tx db'
        (.running (lookedUp existing stmt reply) (next reply))) hserial
      rw [Store.put_put] at hrest
      rw [List.replicate_succ, Run.exec, step_sent tenantOf h hrun, Option.bind_some, hrest]

/-- The events of a call that starts and runs through in `n` steps. -/
def callEvents (tx : Nat) (call : TrpcCall) (n : Nat) : List TxEvent :=
  .start tx call :: List.replicate n (.step tx)

theorem exec_callEvents {s : Store} {tx n : Nat} {call : TrpcCall} {result : Result} {db : Db}
    (hsteps : (call.prog (tenantOf tx)).TakesSteps n) (h : s.txs tx = .idle)
    (hserial : (call.prog (tenantOf tx)).serial (tenantOf tx) tx s.db = .ok (result, db)) :
    Run.exec (Store.step tenantOf) s (callEvents tx call n) =
      some (s.put tx db (.committed result)) := by
  have hrest := exec_of_serial tenantOf hsteps (Store.txs_put_self s tx s.db
    (.running none (call.prog (tenantOf tx)))) hserial
  rw [Store.put_put] at hrest
  rw [callEvents, Run.exec, step_start tenantOf call h, Option.bind_some, hrest]

end Machine

theorem takesSteps_insertEvents (finish : Nat → Result) (rows : List EventRow) (inserted : Nat) :
    (insertEvents inserted finish rows).TakesSteps (rows.length + 1) := by
  induction rows generalizing inserted with
  | nil => exact .done _
  | cons row rest ih => exact .run _ _ _ fun _ => ih _

/-- A batch takes a step for each of its events, and three. -/
theorem takesSteps_ingest [Sha256] {tenantId runId : String} {lines : List String}
    {items : List Item} (hprepare : prepare lines = .ok (runId, items)) :
    (ingest tenantId lines).TakesSteps (items.length + 3) := by
  rw [ingest, hprepare]
  refine .run _ _ _ fun existing => ?_
  have hevents : ∀ finish,
      (insertEvents 0 finish (items.map (eventRow tenantId))).TakesSteps (items.length + 1) := by
    intro finish
    have h := takesSteps_insertEvents finish (items.map (eventRow tenantId)) 0
    rwa [List.length_map] at h
  unfold ingestInto
  split
  · exact .fail _ _
  · split
    · exact .fail _ _
    · dsimp only
      split
      · exact .run _ _ _ fun _ => hevents _
      · exact .run _ _ _ fun _ => hevents _
    · exact .fail _ _

/-- A supervisor event takes four steps. -/
theorem takesSteps_emitEvent (tenantId : String) (supervisorScope : Bool) (input : EmitInput) :
    (emitEvent tenantId supervisorScope input).TakesSteps 4 := by
  unfold emitEvent
  split
  · refine .run _ _ _ fun _ => .run _ _ _ fun existing => ?_
    cases existing with
    | none => exact .run _ _ _ fun _ => .done _
    | some row => exact .run _ _ _ fun _ => .done _
  · exact .fail _ _

namespace Sample

open LoopStorm.Engine.Sample

/-- The line accepted, as the first of a run no tenant's look can find. -/
theorem exec_startLine (tenantOf : Nat → String) {s : Store} {tx : Nat} (h : s.txs tx = .idle)
    (hquiet : s.db.Quiet)
    (hnone : s.db.findRun (tenantOf tx) tx (toUuid runId) (tenantOf tx) = none) :
    ∃ result db, Run.exec (Store.step tenantOf) s (callEvents tx (.ingest [startLine]) 4) =
      some (s.put tx db (.committed result)) ∧
        Ingested (tenantOf tx) runId [⟨startEvent, startLine⟩] s.db db := by
  have hchain : verifyBatchChain [⟨startEvent, startLine⟩]
      ((s.db.findRun (tenantOf tx) tx (toUuid runId) (tenantOf tx)).bind RunRow.lastHash) =
        .ok () := by
    rw [hnone]
    exact verifyBatchChain_startLine
  obtain ⟨result, db, hserial, hingested⟩ := serial_ingest_ok hquiet prepare_startLine tx hchain
  have hsteps : (ingest (tenantOf tx) [startLine]).TakesSteps 4 := by
    have h : (ingest (tenantOf tx) [startLine]).TakesSteps ([Item.mk startEvent startLine].length + 3) :=
      takesSteps_ingest prepare_startLine
    rwa [List.length_singleton] at h
  exact ⟨result, db, exec_callEvents tenantOf hsteps h hserial, hingested⟩

end Sample

end LoopStorm.Backend
