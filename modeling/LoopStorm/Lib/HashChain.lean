import Mathlib

/-!
# Hash chains

A sequence of records in which every record but the first carries the digest
of the one before it, over any type of records and any type of digests.

* `Linked`, `Chain` — the definition, read from the front; `chain_concat` reads
  it from the back, which is how a log is extended.
* `chain_unique` — **a chain is determined by its last record** when no two of
  its records share a digest: two chains with the same end are the same chain.
-/

namespace HashChain

variable {α η : Type*} (digest : α → η) (link : α → Option η)

/-- Every record links to the one before it, the first one to `p`. -/
def Linked : Option η → List α → Prop
  | _, [] => True
  | p, a :: as => link a = p ∧ Linked (some (digest a)) as

/-- A chain: its first record links to nothing. -/
def Chain (l : List α) : Prop := Linked digest link none l

/-- The digest the next record of a chain has to carry. -/
def tip (p : Option η) (l : List α) : Option η := (l.getLast?.map digest).or p

@[simp] theorem tip_nil (p : Option η) : tip digest p [] = p := rfl

theorem tip_cons (p : Option η) (a : α) (l : List α) :
    tip digest p (a :: l) = tip digest (some (digest a)) l := by
  cases l with
  | nil => rfl
  | cons b l => simp [tip, List.getLast?_eq_some_getLast]

theorem linked_append (p : Option η) (l m : List α) :
    Linked digest link p (l ++ m) ↔
      Linked digest link p l ∧ Linked digest link (tip digest p l) m := by
  induction l generalizing p with
  | nil => simp [Linked]
  | cons b l ih => rw [List.cons_append, Linked, Linked, ih, tip_cons, and_assoc]

theorem linked_concat (p : Option η) (l : List α) (a : α) :
    Linked digest link p (l ++ [a]) ↔ Linked digest link p l ∧ link a = tip digest p l := by
  rw [linked_append, Linked, Linked, and_true]

/-- Records made of others link as those do. -/
theorem linked_map {β : Type*} (f : β → α) (p : Option η) (l : List β) :
    Linked digest link p (l.map f) ↔ Linked (digest ∘ f) (link ∘ f) p l := by
  induction l generalizing p with
  | nil => exact Iff.rfl
  | cons b l ih => rw [List.map_cons, Linked, Linked, ih, Function.comp_apply, Function.comp_apply]

/-- A record of a chain that links to nothing is the first. -/
theorem eq_nil_of_chain {l m : List α} {a : α} (h : Chain digest link (l ++ a :: m))
    (ha : link a = none) : l = [] := by
  have hlink := ((linked_append digest link none l (a :: m)).1 h).2.1
  rw [ha, tip, Option.or_none] at hlink
  simpa using hlink.symm

/-- A chain is extended by a record that carries the digest of its last one. -/
theorem chain_concat (l : List α) (a : α) :
    Chain digest link (l ++ [a]) ↔
      Chain digest link l ∧ link a = l.getLast?.map digest := by
  rw [Chain, linked_concat, tip, Option.or_none]
  rfl

/-- **A chain is determined by its last record**, when records of the two
chains with one digest are one record. -/
theorem chain_unique {l m : List α}
    (hinj : ∀ a ∈ l, ∀ b ∈ m, digest a = digest b → a = b)
    (hl : Chain digest link l) (hm : Chain digest link m)
    (hlast : l.getLast? = m.getLast?) : l = m := by
  induction l using List.reverseRecOn generalizing m with
  | nil => exact (List.getLast?_eq_none_iff.1 hlast.symm).symm
  | append_singleton l a ih =>
    rcases List.eq_nil_or_concat m with rfl | ⟨m', b, rfl⟩
    · simp at hlast
    · rw [List.concat_eq_append] at hinj hm hlast ⊢
      simp only [List.getLast?_concat, Option.some.injEq] at hlast
      subst hlast
      obtain ⟨hl', hla⟩ := (chain_concat digest link l a).1 hl
      obtain ⟨hm', hmb⟩ := (chain_concat digest link m' a).1 hm
      have hdig : l.getLast?.map digest = m'.getLast?.map digest := hla.symm.trans hmb
      have hend : l.getLast? = m'.getLast? := by
        cases hx : l.getLast? with
        | none =>
          rw [hx, Option.map_none, eq_comm, Option.map_eq_none_iff] at hdig
          exact hdig.symm
        | some x =>
          obtain ⟨y, hy, hxy⟩ : ∃ y, m'.getLast? = some y ∧ digest y = digest x := by
            rw [hx] at hdig
            simpa using hdig.symm
          have hxl : x ∈ l := List.mem_of_getLast? hx
          have hym : y ∈ m' := List.mem_of_getLast? hy
          rw [hy, hinj x (by simp [hxl]) y (by simp [hym]) hxy.symm]
      rw [ih (fun x hx y hy => hinj x (by simp [hx]) y (by simp [hy])) hl' hm' hend]

end HashChain
