import LoopStorm.Lib.ReadCommitted
import LoopStorm.Lib.Run

/-!
# Calls that look at a row and then update it

Transactions under READ COMMITTED that look for rows of one table, decide, and
update rows where a guard holds.

* `Prog` — what a call does; `Prog.Runs` — how it can end, with the writes it
  makes on the way.
* `Store`, `step` — the table, the calls and the writes committed so far.
* `Follows` — a list of writes in which every write of a row has replaced
  exactly what the write before it left.
* `serialised` — **no write is lost**: in every run the committed writes follow
  each other, what is committed is what they leave, and each call that has
  committed is one its program can make.
* `committed_of_not_commit` — a step that does not commit a call changes no
  committed row.
-/

open ReadCommitted

namespace GuardedUpdate

variable {κ α ε ρ γ : Type}

/-- What a call does: it looks for a row, updates one where a guard holds, hands
over what the row has become, and ends. -/
inductive Prog (κ α ε ρ : Type) where
  | select (k : κ) (seen : α → Bool) (next : Option α → Prog κ α ε ρ)
  | update (k : κ) (guard : α → Bool) (set : α → α) (next : Option α → Prog κ α ε ρ)
  | done (reply : ρ)
  | fail (error : ε)

/-- A row replaced. -/
structure Write (κ α : Type) where
  key : κ
  before : α
  after : α

/-- The program can end with a reply, making the given writes. -/
inductive Prog.Runs : Prog κ α ε ρ → List (Write κ α) → ρ → Prop
  | done (reply : ρ) : Runs (.done reply) [] reply
  | select {k : κ} {seen : α → Bool} {next : Option α → Prog κ α ε ρ} {ws : List (Write κ α)}
    {reply : ρ} (found : Option α) (hfound : ∀ row, found = some row → seen row = true)
    (h : (next found).Runs ws reply) : Runs (.select k seen next) ws reply
  | updated {k : κ} {guard : α → Bool} {set : α → α} {next : Option α → Prog κ α ε ρ}
    {ws : List (Write κ α)} {reply : ρ} (row : α) (hguard : guard row = true)
    (h : (next (some (set row))).Runs ws reply) :
    Runs (.update k guard set next) (⟨k, row, set row⟩ :: ws) reply
  | missed {k : κ} {guard : α → Bool} {set : α → α} {next : Option α → Prog κ α ε ρ}
    {ws : List (Write κ α)} {reply : ρ} (h : (next none).Runs ws reply) :
    Runs (.update k guard set next) ws reply

/-! ## Writes in a row -/

section Writes

variable [DecidableEq κ]

/-- What a list of writes leaves under a key. -/
def rowAfter (k : κ) (row : Option α) : List (Write κ α) → Option α
  | [] => row
  | w :: ws => rowAfter k (if w.key = k then some w.after else row) ws

/-- Every write under a key has replaced what was there. -/
def Follows (k : κ) (row : Option α) : List (Write κ α) → Prop
  | [] => True
  | w :: ws =>
    (w.key = k → row = some w.before) ∧ Follows k (if w.key = k then some w.after else row) ws

variable {k : κ} {row : Option α} {ws vs : List (Write κ α)}

theorem rowAfter_append : rowAfter k row (ws ++ vs) = rowAfter k (rowAfter k row ws) vs := by
  induction ws generalizing row with
  | nil => rfl
  | cons w ws ih => exact ih

theorem follows_append :
    Follows k row (ws ++ vs) ↔ Follows k row ws ∧ Follows k (rowAfter k row ws) vs := by
  induction ws generalizing row with
  | nil => simp [Follows, rowAfter]
  | cons w ws ih => rw [List.cons_append, Follows, ih, Follows, rowAfter, and_assoc]

/-- Writes under other keys leave a row alone. -/
theorem rowAfter_of_ne (h : ∀ w ∈ ws, w.key ≠ k) : rowAfter k row ws = row := by
  induction ws generalizing row with
  | nil => rfl
  | cons w ws ih =>
    rw [rowAfter, if_neg (h w (List.mem_cons_self ..))]
    exact ih fun v hv => h v (List.mem_cons_of_mem _ hv)

theorem follows_of_ne (h : ∀ w ∈ ws, w.key ≠ k) : Follows k row ws := by
  induction ws generalizing row with
  | nil => trivial
  | cons w ws ih =>
    have hne := h w (List.mem_cons_self ..)
    exact ⟨fun heq => absurd heq hne, ih fun v hv => h v (List.mem_cons_of_mem _ hv)⟩

/-- Where there is no row there is nothing to write. -/
theorem ne_of_follows_none (h : Follows k none ws) : ∀ w ∈ ws, w.key ≠ k := by
  induction ws with
  | nil => exact fun w hw => absurd hw List.not_mem_nil
  | cons w ws ih =>
    obtain ⟨hbefore, hrest⟩ := h
    have hne : w.key ≠ k := fun hk => absurd (hbefore hk) (by simp)
    rw [if_neg hne] at hrest
    exact List.forall_mem_cons.2 ⟨hne, ih hrest⟩

end Writes

/-! ## The machine -/

/-- Where a call is. -/
inductive TxState (κ α ε ρ γ : Type) where
  | idle
  /-- with the writes it has made -/
  | running (call : γ) (writes : List (Write κ α)) (rest : Prog κ α ε ρ)
  | committed (call : γ) (reply : ρ)
  /-- with its error, unless it has been killed -/
  | rolledBack (call : γ) (error : Option ε)

/-- A call that has committed. -/
structure Commit (κ α ρ γ : Type) where
  call : γ
  reply : ρ
  writes : List (Write κ α)

/-- The table, the calls, and the calls that have committed, in order. -/
structure Store (κ α ε ρ γ : Type) where
  table : Table κ α
  txs : Nat → TxState κ α ε ρ γ
  history : List (Commit κ α ρ γ)

/-- A table nothing has been called on. -/
def Store.of (rows : κ → Option α) : Store κ α ε ρ γ :=
  ⟨fun k => .ofRow (rows k), fun _ => .idle, []⟩

/-- All that has been written, in the order it was committed. -/
def Store.writes (s : Store κ α ε ρ γ) : List (Write κ α) := s.history.flatMap (·.writes)

/-- What happens to a call. -/
inductive Event (γ : Type) where
  | start (tx : Nat) (call : γ)
  | step (tx : Nat)
  /-- its connection is lost, or the database gives up on it -/
  | kill (tx : Nat)

/-- The transaction an event happens to. -/
def Event.tx : Event γ → Nat
  | .start tx _ | .step tx | .kill tx => tx

variable [DecidableEq κ] (prog : γ → Prog κ α ε ρ)

/-- The store with a transaction moved on and the table it leaves. -/
def Store.put (s : Store κ α ε ρ γ) (tx : Nat) (table : Table κ α)
    (state : TxState κ α ε ρ γ) : Store κ α ε ρ γ :=
  { s with table := table, txs := Function.update s.txs tx state }

/-- The store with a call committed. -/
def Store.ended (s : Store κ α ε ρ γ) (tx : Nat) (call : γ) (reply : ρ)
    (ws : List (Write κ α)) : Store κ α ε ρ γ :=
  { s.put tx (s.table.commit tx) (.committed call reply) with
    history := s.history ++ [⟨call, reply, ws⟩] }

omit [DecidableEq κ] in
theorem writes_ended (s : Store κ α ε ρ γ) (tx : Nat) (call : γ) (reply : ρ)
    (ws : List (Write κ α)) : (s.ended tx call reply ws).writes = s.writes ++ ws := by
  rw [Store.writes, Store.ended, List.flatMap_append, List.flatMap_singleton]
  rfl

/-- One event; `none` when it cannot happen, or would have to wait. -/
def step (s : Store κ α ε ρ γ) : Event γ → Option (Store κ α ε ρ γ)
  | .start tx call =>
    match s.txs tx with
    | .idle => some (s.put tx s.table (.running call [] (prog call)))
    | _ => none
  | .step tx =>
    match s.txs tx with
    | .running call ws (.select k seen next) =>
      some (s.put tx s.table (.running call ws (next (((s.table k).read tx).filter seen))))
    | .running call ws (.update k guard set next) =>
      match ((s.table k).read tx).filter guard with
      | none => some (s.put tx s.table (.running call ws (next none)))
      | some row =>
        if (s.table k).lockedFor tx then none
        else
          some (s.put tx (s.table.write tx k (set row))
            (.running call (ws ++ [⟨k, row, set row⟩]) (next (some (set row)))))
    | .running call ws (.done reply) => some (s.ended tx call reply ws)
    | .running call _ (.fail error) =>
      some (s.put tx (s.table.abort tx) (.rolledBack call (some error)))
    | _ => none
  | .kill tx =>
    match s.txs tx with
    | .running call _ _ => some (s.put tx (s.table.abort tx) (.rolledBack call none))
    | _ => none

/-- What an event can do. -/
inductive Moves (s : Store κ α ε ρ γ) : Event γ → Store κ α ε ρ γ → Prop
  | start {tx : Nat} (call : γ) (h : s.txs tx = .idle) :
    Moves s (.start tx call) (s.put tx s.table (.running call [] (prog call)))
  | selected {tx : Nat} {call : γ} {ws : List (Write κ α)} {k : κ} {seen : α → Bool}
    {next : Option α → Prog κ α ε ρ} (h : s.txs tx = .running call ws (.select k seen next)) :
    Moves s (.step tx)
      (s.put tx s.table (.running call ws (next (((s.table k).read tx).filter seen))))
  | missed {tx : Nat} {call : γ} {ws : List (Write κ α)} {k : κ} {guard : α → Bool}
    {set : α → α} {next : Option α → Prog κ α ε ρ}
    (h : s.txs tx = .running call ws (.update k guard set next))
    (hrow : ((s.table k).read tx).filter guard = none) :
    Moves s (.step tx) (s.put tx s.table (.running call ws (next none)))
  | updated {tx : Nat} {call : γ} {ws : List (Write κ α)} {k : κ} {guard : α → Bool}
    {set : α → α} {next : Option α → Prog κ α ε ρ} {row : α}
    (h : s.txs tx = .running call ws (.update k guard set next))
    (hread : (s.table k).read tx = some row) (hguard : guard row = true)
    (hlock : (s.table k).lockedFor tx = false) :
    Moves s (.step tx) (s.put tx (s.table.write tx k (set row))
      (.running call (ws ++ [⟨k, row, set row⟩]) (next (some (set row)))))
  | committed {tx : Nat} {call : γ} {ws : List (Write κ α)} {reply : ρ}
    (h : s.txs tx = .running call ws (.done reply)) :
    Moves s (.step tx) (s.ended tx call reply ws)
  | rolledBack {e : Event γ} {call : γ} {ws : List (Write κ α)} {rest : Prog κ α ε ρ}
    (error : Option ε) (h : s.txs e.tx = .running call ws rest)
    (herror : ∀ d, error = some d → rest = .fail d) :
    Moves s e (s.put e.tx (s.table.abort e.tx) (.rolledBack call error))

theorem moves_of_step {s s' : Store κ α ε ρ γ} {e : Event γ} (h : step prog s e = some s') :
    Moves prog s e s' := by
  cases e with
  | start tx call =>
    rw [step] at h
    split at h
    case h_1 hidle =>
      obtain rfl := Option.some.inj h
      exact .start call hidle
    case h_2 => cases h
  | step tx =>
    rw [step] at h
    split at h
    case h_1 hrunning =>
      obtain rfl := Option.some.inj h
      exact .selected hrunning
    case h_2 hrunning =>
      split at h
      case h_1 hrow =>
        obtain rfl := Option.some.inj h
        exact .missed hrunning hrow
      case h_2 row hrow =>
        obtain ⟨hread, hguard⟩ := Option.filter_eq_some_iff.1 hrow
        split at h
        · cases h
        case isFalse hlock =>
          obtain rfl := Option.some.inj h
          exact .updated hrunning hread hguard (by simpa using hlock)
    case h_3 hrunning =>
      obtain rfl := Option.some.inj h
      exact .committed hrunning
    case h_4 error hrunning =>
      obtain rfl := Option.some.inj h
      refine .rolledBack (some error) hrunning fun d hd => ?_
      rw [Option.some.inj hd]
    case h_5 => cases h
  | kill tx =>
    rw [step] at h
    split at h
    case h_1 hrunning =>
      obtain rfl := Option.some.inj h
      exact .rolledBack none hrunning fun d hd => absurd hd (by simp)
    case h_2 => cases h

/-! ## The invariant -/

/-- What holds of a call that is running: whatever it still does ends a run of
its program, and it sees what its writes have left. -/
structure Running (t : Table κ α) (tx : Nat) (call : γ) (ws : List (Write κ α))
    (rest : Prog κ α ε ρ) : Prop where
  runs : ∀ vs reply, rest.Runs vs reply → (prog call).Runs (ws ++ vs) reply
  follows : ∀ k, Follows k (t k).committed ws
  read : ∀ k, (t k).read tx = rowAfter k (t k).committed ws
  own : ∀ w ∈ ws, ((t w.key).own tx).isSome = true

/-- What holds of a transaction. -/
def TxOk (t : Table κ α) (tx : Nat) : TxState κ α ε ρ γ → Prop
  | .running call ws rest => Running prog t tx call ws rest
  | _ => t.Untouched tx

/-- What holds of every store reached from the given rows. -/
structure Inv (rows : κ → Option α) (s : Store κ α ε ρ γ) : Prop where
  txs : ∀ tx, TxOk prog s.table tx (s.txs tx)
  follows : ∀ k, Follows k (rows k) s.writes
  committed : ∀ k, (s.table k).committed = rowAfter k (rows k) s.writes
  history : ∀ c ∈ s.history, (prog c.call).Runs c.writes c.reply

section Frame

variable {prog} {t t' : Table κ α} {tx : Nat}

/-- A call is not disturbed where it keeps its writes, and the rows below
them stay. -/
theorem Running.frame {call : γ} {ws : List (Write κ α)} {rest : Prog κ α ε ρ}
    (h : Running prog t tx call ws rest) (hown : ∀ k, (t' k).own tx = (t k).own tx)
    (hcommitted : ∀ k, ((t k).own tx).isSome = true → (t' k).committed = (t k).committed) :
    Running prog t' tx call ws rest := by
  have hne (k : κ) (hk : (t k).own tx = none) : ∀ w ∈ ws, w.key ≠ k := by
    rintro w hw rfl
    have hsome := h.own w hw
    rw [hk] at hsome
    cases hsome
  refine ⟨h.runs, fun k => ?_, fun k => ?_, fun w hw => ?_⟩
  · cases hk : (t k).own tx with
    | none => exact follows_of_ne (hne k hk)
    | some row =>
      rw [hcommitted k (by rw [hk]; rfl)]
      exact h.follows k
  · cases hk : (t k).own tx with
    | none => rw [Cell.read_of_own_none (by rw [hown, hk]), rowAfter_of_ne (hne k hk)]
    | some row =>
      rw [hcommitted k (by rw [hk]; rfl), ← h.read k, Cell.read_of_own hk,
        Cell.read_of_own (by rw [hown, hk])]
  · rw [hown]
    exact h.own w hw

theorem TxOk.frame {state : TxState κ α ε ρ γ} (h : TxOk prog t tx state)
    (hown : ∀ k, (t' k).own tx = (t k).own tx)
    (hcommitted : ∀ k, ((t k).own tx).isSome = true → (t' k).committed = (t k).committed) :
    TxOk prog t' tx state := by
  cases state with
  | running call ws rest => exact Running.frame h hown hcommitted
  | idle => exact fun k => (hown k).trans (h k)
  | committed call reply => exact fun k => (hown k).trans (h k)
  | rolledBack call error => exact fun k => (hown k).trans (h k)

variable {other : Nat} {state : TxState κ α ε ρ γ}

/-- Another transaction's write of a free row disturbs nobody. -/
theorem TxOk.write (h : TxOk prog t tx state) {k : κ} {row : α} (hne : tx ≠ other)
    (hlock : (t k).lockedFor other = false) : TxOk prog (t.write other k row) tx state :=
  h.frame (fun j => Table.own_write_of_ne hlock hne j) fun j _ => Table.committed_write j

/-- Nor does its end. -/
theorem TxOk.commit (h : TxOk prog t tx state) (hne : tx ≠ other) :
    TxOk prog (t.commit other) tx state := by
  refine h.frame (fun k => Cell.own_commit_of_ne hne) fun k hown => ?_
  have hnone : (t k).own other = none := Cell.own_of_own_ne hown hne.symm
  show ((t k).commit other).committed = _
  rw [Cell.commit_of_own_none hnone]

theorem TxOk.abort (h : TxOk prog t tx state) (hne : tx ≠ other) :
    TxOk prog (t.abort other) tx state :=
  h.frame (fun _ => Cell.own_abort_of_ne hne) fun _ _ => Cell.committed_abort

end Frame

variable {prog} {rows : κ → Option α}

theorem inv_of (rows : κ → Option α) :
    Inv prog rows (Store.of rows : Store κ α ε ρ γ) where
  txs _ _ := rfl
  follows _ := trivial
  committed _ := rfl
  history _ h := absurd h List.not_mem_nil

/-- A step that commits nothing: the transaction itself, the others, and the
rows. -/
theorem Inv.put {s : Store κ α ε ρ γ} (h : Inv prog rows s) {tx : Nat} {t : Table κ α}
    {state : TxState κ α ε ρ γ} (hself : TxOk prog t tx state)
    (hothers : ∀ other, other ≠ tx → TxOk prog t other (s.txs other))
    (hcommitted : ∀ k, (t k).committed = (s.table k).committed) :
    Inv prog rows (s.put tx t state) where
  txs other := by
    by_cases hother : other = tx
    · subst hother
      show TxOk prog t other (Function.update s.txs other state other)
      rw [Function.update_self]
      exact hself
    · show TxOk prog t other (Function.update s.txs tx state other)
      rw [Function.update_of_ne hother]
      exact hothers other hother
  follows := h.follows
  committed k := (hcommitted k).trans (h.committed k)
  history := h.history

theorem Inv.running {s : Store κ α ε ρ γ} (h : Inv prog rows s) {tx : Nat} {call : γ}
    {ws : List (Write κ α)} {rest : Prog κ α ε ρ} (htx : s.txs tx = .running call ws rest) :
    Running prog s.table tx call ws rest := by
  have hok := h.txs tx
  rw [htx] at hok
  exact hok

/-- A call that moves on without writing. -/
theorem Running.move {t : Table κ α} {tx : Nat} {call : γ} {ws : List (Write κ α)}
    {rest rest' : Prog κ α ε ρ} (h : Running prog t tx call ws rest)
    (hruns : ∀ vs reply, rest'.Runs vs reply → rest.Runs vs reply) :
    Running prog t tx call ws rest' where
  runs vs reply hrest := h.runs vs reply (hruns vs reply hrest)
  follows := h.follows
  read := h.read
  own := h.own

/-- A call that has written a row. -/
theorem Running.updated {t : Table κ α} {tx : Nat} {call : γ} {ws : List (Write κ α)} {k : κ}
    {guard : α → Bool} {set : α → α} {next : Option α → Prog κ α ε ρ} {row : α}
    (h : Running prog t tx call ws (.update k guard set next))
    (hread : (t k).read tx = some row) (hguard : guard row = true) :
    Running prog (t.write tx k (set row)) tx call (ws ++ [⟨k, row, set row⟩])
      (next (some (set row))) where
  runs vs reply hrest := by
    rw [List.append_assoc]
    exact h.runs _ _ (.updated row hguard hrest)
  follows j := by
    rw [Table.committed_write, follows_append, ← h.read]
    refine ⟨h.follows j, ?_, trivial⟩
    rintro rfl
    exact hread
  read j := by
    rw [Table.committed_write, rowAfter_append, ← h.read, Table.read_write, rowAfter, rowAfter]
    simp only [eq_comm]
  own w hw := by
    rcases List.mem_append.1 hw with hw | hw
    · by_cases hk : w.key = k
      · rw [hk, Table.write_self, Cell.own_write]
        rfl
      · rw [Table.write_of_ne hk]
        exact h.own w hw
    · rw [List.mem_singleton.1 hw, Table.write_self, Cell.own_write]
      rfl

/-- A call that commits adds its writes to those committed before. -/
theorem Inv.commit {s : Store κ α ε ρ γ} (h : Inv prog rows s) {tx : Nat} {call : γ}
    {ws : List (Write κ α)} {reply : ρ} (htx : s.txs tx = .running call ws (.done reply)) :
    Inv prog rows (s.ended tx call reply ws) := by
  have hrun := h.running htx
  constructor
  · intro other
    by_cases hother : other = tx
    · subst hother
      show TxOk prog _ other (Function.update s.txs other _ other)
      rw [Function.update_self]
      exact Table.untouched_commit_self
    · show TxOk prog _ other (Function.update s.txs tx _ other)
      rw [Function.update_of_ne hother]
      exact (h.txs other).commit hother
  · intro k
    rw [writes_ended, follows_append, ← h.committed]
    exact ⟨h.follows k, hrun.follows k⟩
  · intro k
    rw [writes_ended, rowAfter_append, ← h.committed, ← hrun.read]
    exact Cell.committed_commit_eq_read
  · intro c hc
    rcases List.mem_append.1 hc with hc | hc
    · exact h.history c hc
    · rw [List.mem_singleton.1 hc]
      have hend := hrun.runs [] reply (.done reply)
      rwa [List.append_nil] at hend

theorem Inv.step {s s' : Store κ α ε ρ γ} {e : Event γ} (h : Inv prog rows s)
    (hstep : step prog s e = some s') : Inv prog rows s' := by
  cases moves_of_step prog hstep with
  | @start tx call htx =>
    refine h.put ?_ (fun other _ => h.txs other) fun _ => rfl
    have hok := h.txs tx
    rw [htx] at hok
    exact {
      runs := fun vs reply hrest => hrest
      follows := fun _ => trivial
      read := fun k => Cell.read_of_own_none (hok k)
      own := fun w hw => absurd hw List.not_mem_nil }
  | @selected tx call ws k seen next htx =>
    refine h.put ?_ (fun other _ => h.txs other) fun _ => rfl
    refine (h.running htx).move fun vs reply hrest => .select _ (fun row hrow => ?_) hrest
    exact (Option.filter_eq_some_iff.1 hrow).2
  | missed htx hrow =>
    refine h.put ?_ (fun other _ => h.txs other) fun _ => rfl
    exact (h.running htx).move fun vs reply hrest => .missed hrest
  | updated htx hread hguard hlock =>
    refine h.put ((h.running htx).updated hread hguard) (fun other hother => ?_) fun k =>
      Table.committed_write k
    exact (h.txs other).write hother hlock
  | committed htx => exact h.commit htx
  | rolledBack error htx =>
    refine h.put Table.untouched_abort_self (fun other hother => (h.txs other).abort hother) ?_
    exact fun k => Cell.committed_abort

theorem inv_exec {s : Store κ α ε ρ γ} {es : List (Event γ)}
    (hrun : Run.exec (step prog) (Store.of rows) es = some s) : Inv prog rows s :=
  Run.exec_invariant (step prog) (C := fun _ _ => True) (fun _ _ _ h _ hstep => h.step hstep)
    (inv_of rows) (Run.AllEvents.of_mem _ (fun _ _ _ => trivial) _) hrun

/-- **No write is lost.**  In every run, every committed write has replaced
exactly what the one before it left, what is committed is what they leave, and
each call that has committed is one its program can make. -/
theorem serialised {s : Store κ α ε ρ γ} {es : List (Event γ)}
    (hrun : Run.exec (step prog) (Store.of rows) es = some s) (k : κ) :
    Follows k (rows k) s.writes ∧ (s.table k).committed = rowAfter k (rows k) s.writes ∧
      ∀ c ∈ s.history, (prog c.call).Runs c.writes c.reply :=
  ⟨(inv_exec hrun).follows k, (inv_exec hrun).committed k, (inv_exec hrun).history⟩

/-- **A step that does not commit a call changes no committed row.** -/
theorem committed_of_not_commit {s s' : Store κ α ε ρ γ} {e : Event γ}
    (hstep : step prog s e = some s')
    (hnot : ∀ call reply, s'.txs e.tx ≠ .committed call reply) (k : κ) :
    (s'.table k).committed = (s.table k).committed ∧ s'.history = s.history := by
  cases moves_of_step prog hstep with
  | start call htx => exact ⟨rfl, rfl⟩
  | selected htx => exact ⟨rfl, rfl⟩
  | missed htx hrow => exact ⟨rfl, rfl⟩
  | updated htx hread hguard hlock => exact ⟨Table.committed_write k, rfl⟩
  | @committed tx call ws reply htx => exact absurd (Function.update_self ..) (hnot call reply)
  | rolledBack error htx => exact ⟨Cell.committed_abort, rfl⟩

end GuardedUpdate
