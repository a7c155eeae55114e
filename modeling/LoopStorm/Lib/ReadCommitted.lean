import Mathlib

/-!
# Rows under READ COMMITTED

A table as a function from keys to slots.  A slot holds the row committed to it
and, while a transaction has written it, the row that transaction would commit;
until then the slot is locked.

* `Cell`, `Table` — slots and tables, over any type of rows.
* `read` — what a transaction sees: its own row, or the committed one.
* `commit`, `abort` — what becomes of the rows a transaction has written.
* `Untouched` — a table in which a transaction has written nothing.
-/

namespace ReadCommitted

variable {κ α : Type*}

/-- A slot for a row. -/
structure Cell (α : Type*) where
  committed : Option α
  /-- the transaction that has written the slot, and the row it has written -/
  pending : Option (Nat × α)

namespace Cell

/-- A slot nobody has written. -/
def empty : Cell α := ⟨none, none⟩

/-- A slot with a committed row, or none, and no transaction on it. -/
def ofRow (row : Option α) : Cell α := ⟨row, none⟩

/-- The row transaction `tx` has written. -/
def own (c : Cell α) (tx : Nat) : Option α :=
  c.pending.bind fun p => if p.1 = tx then some p.2 else none

/-- What transaction `tx` sees. -/
def read (c : Cell α) (tx : Nat) : Option α := (c.own tx).or c.committed

/-- Another transaction has written the slot. -/
def lockedFor (c : Cell α) (tx : Nat) : Bool := c.pending.any fun p => p.1 ≠ tx

/-- The slot after transaction `tx` has written a row. -/
def write (c : Cell α) (tx : Nat) (row : α) : Cell α := { c with pending := some (tx, row) }

/-- The slot after transaction `tx` has committed. -/
def commit (c : Cell α) (tx : Nat) : Cell α :=
  if (c.own tx).isSome then ⟨c.own tx, none⟩ else c

/-- The slot after transaction `tx` has been rolled back. -/
def abort (c : Cell α) (tx : Nat) : Cell α :=
  if (c.own tx).isSome then ⟨c.committed, none⟩ else c

variable {c : Cell α} {tx other : Nat} {row : α}

@[simp] theorem own_empty : (empty : Cell α).own tx = none := rfl

@[simp] theorem own_ofRow (o : Option α) : (ofRow o).own tx = none := rfl

@[simp] theorem read_ofRow (o : Option α) : (ofRow o).read tx = o := rfl

@[simp] theorem own_write : (c.write tx row).own tx = some row := by
  simp [own, write]

theorem own_write_of_ne (h : other ≠ tx) : (c.write tx row).own other = none := by
  simp [own, write, Ne.symm h]

@[simp] theorem committed_write : (c.write tx row).committed = c.committed := rfl

theorem own_eq_some : c.own tx = some row ↔ c.pending = some (tx, row) := by
  unfold own
  cases hp : c.pending with
  | none => simp
  | some p =>
    obtain ⟨o, r⟩ := p
    by_cases h : o = tx
    · simp [h]
    · simp [h]

theorem read_of_own_none (h : c.own tx = none) : c.read tx = c.committed := by
  rw [read, h, Option.none_or]

theorem read_of_own (h : c.own tx = some row) : c.read tx = some row := by
  rw [read, h, Option.some_or]

/-- A slot that is not locked is written by nobody, or by the transaction itself. -/
theorem own_of_not_lockedFor (h : c.lockedFor tx = false) (hne : other ≠ tx) :
    c.own other = none := by
  unfold lockedFor at h
  unfold own
  cases hp : c.pending with
  | none => rfl
  | some p =>
    rw [hp] at h
    have heq : p.1 = tx := by simpa using h
    simp [heq, Ne.symm hne]

/-- A slot with nothing to read has nothing committed. -/
theorem committed_of_read_none (h : c.read tx = none) : c.committed = none := by
  rw [read, Option.or_eq_none_iff] at h
  exact h.2

/-- A slot nobody has written is read as it is committed. -/
theorem read_of_pending_none (h : c.pending = none) : c.read tx = c.committed := by
  rw [read, own, h, Option.bind_none, Option.none_or]

theorem lockedFor_of_pending_none (h : c.pending = none) : c.lockedFor tx = false := by
  rw [lockedFor, h]
  rfl

@[simp] theorem lockedFor_write : (c.write tx row).lockedFor tx = false := by
  simp [lockedFor, write]

@[simp] theorem read_write : (c.write tx row).read tx = some row := read_of_own own_write

/-- What a transaction sees is what it commits. -/
theorem committed_commit_eq_read : (c.commit tx).committed = c.read tx := by
  unfold commit
  split
  case isTrue h =>
    obtain ⟨r, hr⟩ := Option.isSome_iff_exists.1 h
    rw [read_of_own hr, hr]
  case isFalse h =>
    rw [Option.not_isSome_iff_eq_none] at h
    rw [read_of_own_none h]

/-- A slot only the transaction has written is free again after it. -/
theorem pending_commit (h : c.lockedFor tx = false) : (c.commit tx).pending = none := by
  unfold commit
  split
  · rfl
  case isFalse hown =>
    cases hp : c.pending with
    | none => rfl
    | some p =>
      have heq : p.1 = tx := by simpa [lockedFor, hp] using h
      simp [own, hp, heq] at hown

theorem committed_commit : (c.commit tx).committed = (c.own tx).or c.committed := by
  unfold commit
  split
  case isTrue h =>
    obtain ⟨r, hr⟩ := Option.isSome_iff_exists.1 h
    simp [hr]
  case isFalse h =>
    rw [Option.not_isSome_iff_eq_none] at h
    simp [h]

theorem committed_abort : (c.abort tx).committed = c.committed := by
  unfold abort
  split <;> rfl

@[simp] theorem own_commit_self : (c.commit tx).own tx = none := by
  unfold commit
  split
  · rfl
  case isFalse h => exact Option.not_isSome_iff_eq_none.1 h

@[simp] theorem own_abort_self : (c.abort tx).own tx = none := by
  unfold abort
  split
  · rfl
  case isFalse h => exact Option.not_isSome_iff_eq_none.1 h

/-- Two transactions never have a slot at once. -/
theorem own_of_own_ne (h : (c.own tx).isSome) (hne : other ≠ tx) : c.own other = none := by
  obtain ⟨r, hr⟩ := Option.isSome_iff_exists.1 h
  rw [own_eq_some] at hr
  simp [own, hr, Ne.symm hne]

theorem own_commit_of_ne (hne : other ≠ tx) : (c.commit tx).own other = c.own other := by
  unfold commit
  split
  case isTrue h => exact (own_of_own_ne h hne).symm
  case isFalse => rfl

theorem own_abort_of_ne (hne : other ≠ tx) : (c.abort tx).own other = c.own other := by
  unfold abort
  split
  case isTrue h => exact (own_of_own_ne h hne).symm
  case isFalse => rfl

theorem commit_of_own_none (h : c.own tx = none) : c.commit tx = c := by
  rw [commit, h]
  rfl

/-- The rows of a slot, committed or not, have a property. -/
structure Holds (p : α → Prop) (c : Cell α) : Prop where
  committed : ∀ row, c.committed = some row → p row
  pending : ∀ tx row, c.pending = some (tx, row) → p row

theorem holds_empty {p : α → Prop} : (empty : Cell α).Holds p where
  committed _ h := by cases h
  pending _ _ h := by cases h

theorem Holds.write {p : α → Prop} (h : c.Holds p) (hrow : p row) : (c.write tx row).Holds p where
  committed := h.committed
  pending _ _ hpending := by
    cases hpending
    exact hrow

theorem Holds.commit {p : α → Prop} (h : c.Holds p) (tx : Nat) : (c.commit tx).Holds p := by
  unfold Cell.commit
  split
  · exact ⟨fun row hrow => h.pending tx row (own_eq_some.1 hrow), fun _ _ hnone => by cases hnone⟩
  · exact h

theorem Holds.read {p : α → Prop} (h : c.Holds p) (hread : c.read tx = some row) : p row := by
  rcases Option.or_eq_some_iff.1 hread with hown | ⟨-, hcommitted⟩
  · exact h.pending tx row (own_eq_some.1 hown)
  · exact h.committed row hcommitted

section Owners

variable {β : Type*} [DecidableEq β] (owner : Nat → β) (f : α → β) (b : β)

/-- Whose a written slot is: the row written and the row it replaces belong to
the owner of the transaction. -/
structure Owned (c : Cell α) : Prop where
  pending : ∀ tx row, c.pending = some (tx, row) → f row = owner tx
  committed : ∀ tx row r, c.pending = some (tx, row) → c.committed = some r → f r = owner tx

/-- What is left of a slot when only the rows of one owner count. -/
def only (c : Cell α) : Cell α :=
  ⟨c.committed.filter (fun r => f r = b), c.pending.filter (fun p => owner p.1 = b)⟩

/-- The slot has rows of one owner only. -/
def HeldBy (c : Cell α) : Prop :=
  (∀ r, c.committed = some r → f r = b) ∧ ∀ p, c.pending = some p → f p.2 = b

variable {owner f b}

omit [DecidableEq β] in
theorem owned_ofRow (o : Option α) : (ofRow o).Owned owner f where
  pending _ _ h := by cases h
  committed _ _ _ h := by cases h

omit [DecidableEq β] in
theorem Owned.of_own (h : c.Owned owner f) (hown : c.own tx = some row) : f row = owner tx :=
  h.pending tx row (own_eq_some.1 hown)

omit [DecidableEq β] in
theorem Owned.write (hrow : f row = owner tx)
    (hcommitted : ∀ r, c.committed = some r → f r = owner tx) :
    (c.write tx row).Owned owner f := by
  constructor
  · intro tx' row' h
    cases h
    exact hrow
  · intro tx' row' r h hr
    cases h
    exact hcommitted r hr

omit [DecidableEq β] in
theorem Owned.commit (h : c.Owned owner f) (tx : Nat) : (c.commit tx).Owned owner f := by
  unfold Cell.commit
  split
  · exact owned_ofRow _
  · exact h

omit [DecidableEq β] in
theorem Owned.abort (h : c.Owned owner f) (tx : Nat) : (c.abort tx).Owned owner f := by
  unfold Cell.abort
  split
  · exact owned_ofRow _
  · exact h

theorem own_only (htx : owner tx = b) : (c.only owner f b).own tx = c.own tx := by
  unfold own only
  cases hp : c.pending with
  | none => rfl
  | some p =>
    by_cases hb : owner p.1 = b
    · simp [Option.filter_some, hb]
    · have hne : p.1 ≠ tx := by
        rintro rfl
        exact hb htx
      simp [Option.filter_some, hb, hne]

theorem only_write (htx : owner tx = b) :
    (c.write tx row).only owner f b = (c.only owner f b).write tx row := by
  simp [only, write, Option.filter_some, htx]

theorem only_write_of_ne (htx : owner tx ≠ b) (hlock : c.lockedFor tx = false) :
    (c.write tx row).only owner f b = c.only owner f b := by
  have hpending : c.pending.filter (fun p => owner p.1 = b) = none := by
    cases hp : c.pending with
    | none => rfl
    | some p =>
      have heq : p.1 = tx := by simpa [lockedFor, hp] using hlock
      simp [Option.filter_some, heq, htx]
  simp [only, write, Option.filter_some, hpending, htx]

theorem only_commit (htx : owner tx = b) (h : c.Owned owner f) :
    (c.commit tx).only owner f b = (c.only owner f b).commit tx := by
  unfold commit
  rw [own_only htx]
  cases hown : c.own tx with
  | none => rfl
  | some row =>
    have hrow : f row = b := (h.of_own hown).trans htx
    simp [only, Option.filter_some, hrow]

theorem only_abort (htx : owner tx = b) :
    (c.abort tx).only owner f b = (c.only owner f b).abort tx := by
  unfold abort
  rw [own_only htx]
  cases hown : c.own tx with
  | none => rfl
  | some row => rfl

/-- The rows of another owner come and go unseen. -/
theorem only_commit_of_ne (htx : owner tx ≠ b) (h : c.Owned owner f) :
    (c.commit tx).only owner f b = c.only owner f b := by
  unfold commit
  cases hown : c.own tx with
  | none => rfl
  | some row =>
    have hpending := own_eq_some.1 hown
    have hrow : f row ≠ b := by
      rw [h.of_own hown]
      exact htx
    have hcommitted : c.committed.filter (fun r => f r = b) = none := by
      rw [Option.filter_eq_none_iff]
      intro r hr
      rw [h.committed tx row r hpending hr]
      simpa using htx
    simp [only, hpending, Option.filter_some, hrow, htx, hcommitted]

theorem only_abort_of_ne (htx : owner tx ≠ b) :
    (c.abort tx).only owner f b = c.only owner f b := by
  unfold abort
  cases hown : c.own tx with
  | none => rfl
  | some row => simp [only, own_eq_some.1 hown, Option.filter_some, htx]

/-- A slot with no other owner's rows is left whole. -/
theorem only_of_heldBy (h : c.Owned owner f) (hheld : c.HeldBy f b) :
    c.only owner f b = c := by
  have hcommitted : c.committed.filter (fun r => f r = b) = c.committed := by
    cases hr : c.committed with
    | none => rfl
    | some r => simp [Option.filter_some, hheld.1 r hr]
  have hpending : c.pending.filter (fun p => owner p.1 = b) = c.pending := by
    cases hp : c.pending with
    | none => rfl
    | some p =>
      have howner : f p.2 = owner p.1 := h.pending p.1 p.2 hp
      simp [Option.filter_some, ← howner, hheld.2 p hp]
  rw [only, hcommitted, hpending]

/-- A transaction that sees a row of its owner waits for what it waits for among
its owner's rows. -/
theorem lockedFor_only (h : c.Owned owner f) (htx : owner tx = b)
    (hread : c.read tx = some row) (hrow : f row = b) :
    (c.only owner f b).lockedFor tx = c.lockedFor tx := by
  unfold lockedFor only
  cases hp : c.pending with
  | none => rfl
  | some p =>
    have howner : owner p.1 = b := by
      by_cases heq : p.1 = tx
      · rw [heq, htx]
      · have hnone : c.own tx = none := by simp [own, hp, heq]
        rw [read_of_own_none hnone] at hread
        rw [← h.committed p.1 p.2 row hp hread, hrow]
    simp [Option.filter_some, howner]

end Owners

end Cell

/-- A table. -/
abbrev Table (κ α : Type*) : Type _ := κ → Cell α

namespace Table

/-- A table nobody has written. -/
def empty : Table κ α := fun _ => .empty

/-- The table after transaction `tx` has committed. -/
def commit (t : Table κ α) (tx : Nat) : Table κ α := fun k => (t k).commit tx

/-- The table after transaction `tx` has been rolled back. -/
def abort (t : Table κ α) (tx : Nat) : Table κ α := fun k => (t k).abort tx

/-- The table after transaction `tx` has written a row. -/
def write [DecidableEq κ] (t : Table κ α) (tx : Nat) (k : κ) (row : α) : Table κ α :=
  Function.update t k ((t k).write tx row)

/-- Transaction `tx` has written nothing. -/
def Untouched (t : Table κ α) (tx : Nat) : Prop := ∀ k, (t k).own tx = none

/-- No transaction has written anything. -/
def Quiet (t : Table κ α) : Prop := ∀ k, (t k).pending = none

/-- Nobody but transaction `tx` has written anything. -/
def FreeFor (t : Table κ α) (tx : Nat) : Prop := ∀ k, (t k).lockedFor tx = false

variable {t : Table κ α} {tx other : Nat}

theorem quiet_empty : (empty : Table κ α).Quiet := fun _ => rfl

theorem Quiet.freeFor (h : t.Quiet) (tx : Nat) : t.FreeFor tx :=
  fun k => Cell.lockedFor_of_pending_none (h k)

theorem FreeFor.quiet_commit (h : t.FreeFor tx) : (t.commit tx).Quiet :=
  fun k => Cell.pending_commit (h k)

theorem untouched_empty : (empty : Table κ α).Untouched tx := fun _ => rfl

theorem Untouched.commit_eq (h : t.Untouched tx) : t.commit tx = t :=
  funext fun k => Cell.commit_of_own_none (h k)

theorem untouched_commit_self : (t.commit tx).Untouched tx := fun _ => Cell.own_commit_self

theorem untouched_abort_self : (t.abort tx).Untouched tx := fun _ => Cell.own_abort_self

section Write

variable [DecidableEq κ] {k j : κ} {row : α}

@[simp] theorem write_self : t.write tx k row k = (t k).write tx row := Function.update_self ..

theorem write_of_ne (h : j ≠ k) : t.write tx k row j = t j := Function.update_of_ne h ..

theorem FreeFor.write (h : t.FreeFor tx) : (t.write tx k row).FreeFor tx := by
  intro j
  by_cases hj : j = k
  · subst hj
    rw [write_self, Cell.lockedFor_write]
  · rw [write_of_ne hj]
    exact h j

/-- What a transaction reads once it has written a row. -/
theorem read_write (j : κ) :
    (t.write tx k row j).read tx = if j = k then some row else (t j).read tx := by
  split
  case isTrue h =>
    subst h
    rw [write_self, Cell.read_write]
  case isFalse h => rw [write_of_ne h]

/-- Writing changes nothing that is committed. -/
@[simp] theorem committed_write (j : κ) : (t.write tx k row j).committed = (t j).committed := by
  by_cases h : j = k
  · subst h
    rw [write_self, Cell.committed_write]
  · rw [write_of_ne h]

/-- Nor what any other transaction has written, where the slot is not locked. -/
theorem own_write_of_ne (hlock : (t k).lockedFor tx = false) (hne : other ≠ tx) (j : κ) :
    (t.write tx k row j).own other = (t j).own other := by
  by_cases h : j = k
  · subst h
    rw [write_self, Cell.own_write_of_ne hne, Cell.own_of_not_lockedFor hlock hne]
  · rw [write_of_ne h]

end Write

/-- All rows of a table have a property. -/
def Holds (p : α → Prop) (t : Table κ α) : Prop := ∀ k, (t k).Holds p

theorem holds_empty {p : α → Prop} : (empty : Table κ α).Holds p := fun _ => Cell.holds_empty

theorem Holds.write [DecidableEq κ] {p : α → Prop} {k : κ} {row : α} (h : t.Holds p)
    (hrow : p row) : (t.write tx k row).Holds p := by
  intro j
  by_cases hj : j = k
  · subst hj
    rw [write_self]
    exact (h j).write hrow
  · rw [write_of_ne hj]
    exact h j

theorem Holds.commit {p : α → Prop} (h : t.Holds p) (tx : Nat) : (t.commit tx).Holds p :=
  fun k => (h k).commit tx

section Owners

variable {β : Type*} [DecidableEq β] (owner : Nat → β) (f : α → β) (b : β)

/-- Every written slot is its owner's. -/
def Owned (t : Table κ α) : Prop := ∀ k, (t k).Owned owner f

/-- The rows of one owner. -/
def only (t : Table κ α) : Table κ α := fun k => (t k).only owner f b

variable {owner f b}

omit [DecidableEq β] in
theorem owned_empty : (empty : Table κ α).Owned owner f := fun _ => Cell.owned_ofRow none

omit [DecidableEq β] in
theorem Owned.commit (h : t.Owned owner f) (tx : Nat) : (t.commit tx).Owned owner f :=
  fun k => (h k).commit tx

omit [DecidableEq β] in
theorem Owned.abort (h : t.Owned owner f) (tx : Nat) : (t.abort tx).Owned owner f :=
  fun k => (h k).abort tx

theorem only_commit (htx : owner tx = b) (h : t.Owned owner f) :
    (t.commit tx).only owner f b = (t.only owner f b).commit tx :=
  funext fun k => Cell.only_commit htx (h k)

theorem only_abort (htx : owner tx = b) :
    (t.abort tx).only owner f b = (t.only owner f b).abort tx :=
  funext fun _ => Cell.only_abort htx

theorem only_commit_of_ne (htx : owner tx ≠ b) (h : t.Owned owner f) :
    (t.commit tx).only owner f b = t.only owner f b :=
  funext fun k => Cell.only_commit_of_ne htx (h k)

theorem only_abort_of_ne (htx : owner tx ≠ b) :
    (t.abort tx).only owner f b = t.only owner f b :=
  funext fun _ => Cell.only_abort_of_ne htx

variable [DecidableEq κ] {k : κ} {row : α}

omit [DecidableEq β] in
/-- A row of the owner's over a row of the owner's. -/
theorem Owned.write (h : t.Owned owner f) (hrow : f row = owner tx)
    (hcommitted : ∀ r, (t k).committed = some r → f r = owner tx) :
    (t.write tx k row).Owned owner f := by
  intro j
  by_cases hj : j = k
  · subst hj
    rw [write_self]
    exact Cell.Owned.write hrow hcommitted
  · rw [write_of_ne hj]
    exact h j

omit [DecidableEq β] [DecidableEq κ] in
/-- A row that is seen, of the owner's, replaces a row of the owner's. -/
theorem Owned.committed_of_read {r : α} (h : t.Owned owner f) (hread : (t k).read tx = some row)
    (hrow : f row = owner tx) (hr : (t k).committed = some r) : f r = owner tx := by
  cases hown : (t k).own tx with
  | some own => exact (h k).committed tx own r (Cell.own_eq_some.1 hown) hr
  | none =>
    rw [Cell.read_of_own_none hown, hr] at hread
    obtain rfl := Option.some.inj hread
    exact hrow

theorem only_write (htx : owner tx = b) :
    (t.write tx k row).only owner f b = (t.only owner f b).write tx k row := by
  funext j
  by_cases hj : j = k
  · subst hj
    rw [write_self, only, write_self, Cell.only_write htx]
    rfl
  · rw [write_of_ne hj, only, write_of_ne hj]
    rfl

/-- A row of another owner's is written unseen. -/
theorem only_write_of_ne (htx : owner tx ≠ b) (hlock : (t k).lockedFor tx = false) :
    (t.write tx k row).only owner f b = t.only owner f b := by
  funext j
  by_cases hj : j = k
  · subst hj
    rw [only, write_self, Cell.only_write_of_ne htx hlock]
    rfl
  · rw [only, write_of_ne hj]
    rfl

end Owners

end Table

end ReadCommitted
