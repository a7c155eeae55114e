import Mathlib.Data.List.Sort

/-!
# The first of a stably sorted list

A list is sorted by a total preorder, ties keeping their order, and searched for
the first element that passes a test.  That element is the least of those that
pass, where ties go to the earlier position.

* `Ahead` — one position comes before another: its element is less, or ties and
  stands earlier.
* `IsLeast` — a position that passes, ahead of all others that do.
* `find?_orderedInsert` — one insertion.
* `find?_insertionSort_eq_some_iff` — **the search in the sorted list finds the
  least.**
-/

namespace StableFirst

variable {α : Type*} (r : α → α → Prop)

/-- Position `i` of a list is ahead of position `j`. -/
def Ahead (l : List α) (i j : Nat) : Prop :=
  ∃ a b, l[i]? = some a ∧ l[j]? = some b ∧ r a b ∧ (r b a → i < j)

/-- The element at a position passes, and the position is ahead of every other
that has one. -/
def IsLeast (p : α → Bool) (l : List α) (i : Nat) (a : α) : Prop :=
  l[i]? = some a ∧ p a = true ∧
    ∀ j b, l[j]? = some b → p b = true → j ≠ i → Ahead r l i j

variable {r} {p : α → Bool} {l : List α} {a : α}

/-- Two positions cannot both be least. -/
theorem IsLeast.unique {i j : Nat} {b : α} (h : IsLeast r p l i a) (h' : IsLeast r p l j b) :
    i = j := by
  obtain ⟨ha, hpa, hi⟩ := h
  obtain ⟨hb, hpb, hj⟩ := h'
  by_contra hne
  obtain ⟨x, y, hx, hy, hxy, hlt⟩ := hi j b hb hpb (Ne.symm hne)
  obtain ⟨y', x', hy', hx', hyx, hlt'⟩ := hj i a ha hpa hne
  obtain rfl := Option.some.inj (hx.symm.trans hx')
  obtain rfl := Option.some.inj (hy.symm.trans hy')
  have h1 := hlt hyx
  have h2 := hlt' hxy
  omega

section Search

variable [DecidableRel r]

/-- The first to pass after an insertion: the new element, unless one that passes
stands before its place. -/
theorem find?_orderedInsert (htrans : ∀ a b c, r a b → r b c → r a c) (hsorted : l.Pairwise r) :
    (l.orderedInsert r a).find? p =
      if p a then
        match l.find? p with
        | none => some a
        | some b => if r a b then some a else some b
      else l.find? p := by
  induction l with
  | nil => cases hp : p a <;> simp [hp]
  | cons y l ih =>
    obtain ⟨hy, hl⟩ := List.pairwise_cons.1 hsorted
    rw [List.orderedInsert_cons]
    by_cases hay : r a y
    · rw [if_pos hay, List.find?_cons]
      cases hp : p a with
      | false => simp
      | true =>
        simp only [if_true]
        cases hfind : (y :: l).find? p with
        | none => rfl
        | some b =>
          -- whatever passes stands at or after `y`
          have hab : r a b := by
            rcases List.mem_cons.1 (List.mem_of_find?_eq_some hfind) with rfl | hb
            · exact hay
            · exact htrans a y b hay (hy b hb)
          simp [hab]
    · rw [if_neg hay, List.find?_cons, List.find?_cons]
      cases hpy : p y with
      | false => simpa [hpy] using ih hl
      | true => simp [hay]

variable (r p) in
/-- The least of a list, from the end. -/
def least : List α → Option α
  | [] => none
  | a :: l =>
    if p a then
      match least l with
      | none => some a
      | some b => if r a b then some a else some b
    else least l

theorem find?_insertionSort [IsTrans α r] [Std.Total r] (l : List α) :
    (l.insertionSort r).find? p = least r p l := by
  induction l with
  | nil => rfl
  | cons a l ih =>
    rw [List.insertionSort_cons, find?_orderedInsert (fun _ _ _ => IsTrans.trans _ _ _)
      (List.pairwise_insertionSort r l), ih, least]

theorem least_eq_none_iff {l : List α} : least r p l = none ↔ ∀ x ∈ l, p x = false := by
  induction l with
  | nil => simp [least]
  | cons x l ih =>
    rw [least, List.forall_mem_cons, ← ih]
    cases hp : p x with
    | false => simp
    | true =>
      simp only [if_true, Bool.true_eq_false, false_and, iff_false]
      cases least r p l with
      | none => simp
      | some b => by_cases hxb : r x b <;> simp [hxb]

omit [DecidableRel r] in
theorem Ahead.cons {i j : Nat} (x : α) (h : Ahead r l i j) :
    Ahead r (x :: l) (i + 1) (j + 1) := by
  obtain ⟨a, b, ha, hb, hab, hlt⟩ := h
  exact ⟨a, b, ha, hb, hab, fun hba => Nat.succ_lt_succ (hlt hba)⟩

/-- The least of a list stands at a position ahead of all others. -/
theorem exists_isLeast [IsTrans α r] [Std.Total r] {l : List α} {a : α}
    (h : least r p l = some a) : ∃ i, IsLeast r p l i a := by
  induction l generalizing a with
  | nil => cases h
  | cons x l ih =>
    rw [least] at h
    cases hp : p x with
    | false =>
      rw [hp, if_neg (by decide)] at h
      obtain ⟨i, ha, hpa, hi⟩ := ih h
      refine ⟨i + 1, ha, hpa, fun j b hb hpb hne => ?_⟩
      cases j with
      | zero =>
        obtain rfl := Option.some.inj hb
        rw [hp] at hpb
        cases hpb
      | succ j => exact (hi j b hb hpb (by omega)).cons x
    | true =>
      rw [hp, if_pos rfl] at h
      cases hl : least r p l with
      | none =>
        rw [hl] at h
        obtain rfl := Option.some.inj h
        refine ⟨0, rfl, hp, fun j b hb hpb hne => ?_⟩
        cases j with
        | zero => exact absurd rfl hne
        | succ j =>
          have hnot := least_eq_none_iff.1 hl b (List.mem_of_getElem? hb)
          rw [hnot] at hpb
          cases hpb
      | some b =>
        obtain ⟨i, hb, hpb, hi⟩ := ih hl
        rw [hl] at h
        dsimp only at h
        by_cases hxb : r x b
        · rw [if_pos hxb] at h
          obtain rfl := Option.some.inj h
          refine ⟨0, rfl, hp, fun j c hc hpc hne => ?_⟩
          cases j with
          | zero => exact absurd rfl hne
          | succ j =>
            refine ⟨x, c, rfl, hc, ?_, fun _ => Nat.succ_pos j⟩
            by_cases hji : j = i
            · obtain rfl := Option.some.inj (hb.symm.trans (hji ▸ hc))
              exact hxb
            · obtain ⟨b', c', hb', hc', hbc, -⟩ := hi j c hc hpc hji
              obtain rfl := Option.some.inj (hb.symm.trans hb')
              obtain rfl := Option.some.inj (hc.symm.trans hc')
              exact IsTrans.trans x b c hxb hbc
        · rw [if_neg hxb] at h
          obtain rfl := Option.some.inj h
          refine ⟨i + 1, hb, hpb, fun j c hc hpc hne => ?_⟩
          cases j with
          | zero =>
            obtain rfl := Option.some.inj hc
            exact ⟨b, x, hb, rfl, (Std.Total.total x b).resolve_left hxb,
              fun hx => absurd hx hxb⟩
          | succ j => exact (hi j c hc hpc (by omega)).cons x

/-- **The search in the sorted list finds the least of those that pass.** -/
theorem find?_insertionSort_eq_some_iff [IsTrans α r] [Std.Total r] {l : List α} {a : α} :
    (l.insertionSort r).find? p = some a ↔ ∃ i, IsLeast r p l i a := by
  rw [find?_insertionSort]
  refine ⟨exists_isLeast, ?_⟩
  rintro ⟨i, hi⟩
  cases hl : least r p l with
  | none =>
    have hnot := least_eq_none_iff.1 hl a (List.mem_of_getElem? hi.1)
    rw [hi.2.1] at hnot
    cases hnot
  | some b =>
    obtain ⟨j, hj⟩ := exists_isLeast hl
    obtain rfl := hi.unique hj
    exact hj.1.symm.trans hi.1

theorem find?_insertionSort_eq_none_iff {l : List α} :
    (l.insertionSort r).find? p = none ↔ ∀ x ∈ l, p x = false := by
  rw [List.find?_eq_none]
  simp only [List.mem_insertionSort, Bool.not_eq_true]

end Search

end StableFirst
