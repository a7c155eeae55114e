import Mathlib

/-!
# Passes over a list that may fail

`List.mapM` in `Option` and in `Except`.

* `forall₂_of_some`, `forall₂_of_ok` — what a pass that succeeds has made of each
  item; `exists_of_forall₂` reads that from either side.
* `isSome_iff`, `isOk_iff` — a pass succeeds exactly if it does on every item.
-/

namespace MapM

variable {α β ε : Type*}

theorem forall₂_of_some {f : α → Option β} {xs : List α} {ys : List β}
    (h : xs.mapM f = some ys) : List.Forall₂ (fun x y => f x = some y) xs ys := by
  induction xs generalizing ys with
  | nil =>
    cases h
    exact .nil
  | cons x xs ih =>
    rw [List.mapM_cons] at h
    obtain ⟨y, hy, hrest⟩ := Option.bind_eq_some_iff.1 h
    obtain ⟨zs, hzs, heq⟩ := Option.bind_eq_some_iff.1 hrest
    cases heq
    exact .cons hy (ih hzs)

theorem forall₂_of_ok {f : α → Except ε β} {xs : List α} {ys : List β}
    (h : xs.mapM f = .ok ys) : List.Forall₂ (fun x y => f x = .ok y) xs ys := by
  induction xs generalizing ys with
  | nil =>
    cases h
    exact .nil
  | cons x xs ih =>
    rw [List.mapM_cons] at h
    cases hy : f x with
    | error e => rw [hy] at h; cases h
    | ok y =>
      cases hzs : xs.mapM f with
      | error e => rw [hy, hzs] at h; cases h
      | ok zs =>
        rw [hy, hzs] at h
        cases h
        exact .cons hy (ih hzs)

theorem exists_of_forall₂ {R : α → β → Prop} {xs : List α} {ys : List β}
    (h : List.Forall₂ R xs ys) :
    (∀ x ∈ xs, ∃ y ∈ ys, R x y) ∧ ∀ y ∈ ys, ∃ x ∈ xs, R x y := by
  induction h with
  | nil => simp
  | cons hxy _ ih =>
    simp only [List.forall_mem_cons, List.exists_mem_cons_iff]
    exact ⟨⟨Or.inl hxy, fun x hx => Or.inr (ih.1 x hx)⟩,
      Or.inl hxy, fun y hy => Or.inr (ih.2 y hy)⟩

theorem isSome_iff {f : α → Option β} {xs : List α} :
    (xs.mapM f).isSome = true ↔ ∀ x ∈ xs, (f x).isSome = true := by
  induction xs with
  | nil => simp
  | cons x xs ih =>
    rw [List.mapM_cons, List.forall_mem_cons, ← ih]
    cases f x with
    | none => simp
    | some y =>
      cases xs.mapM f with
      | none => simp
      | some ys => simp

theorem isOk_iff {f : α → Except ε β} {xs : List α} :
    (xs.mapM f).isOk = true ↔ ∀ x ∈ xs, (f x).isOk = true := by
  induction xs with
  | nil => simp [Except.isOk, Except.toBool, pure, Except.pure]
  | cons x xs ih =>
    rw [List.mapM_cons, List.forall_mem_cons, ← ih]
    cases f x with
    | error e => simp [Except.isOk, Except.toBool, bind, Except.bind]
    | ok y =>
      cases xs.mapM f with
      | error e => simp [Except.isOk, Except.toBool, bind, Except.bind]
      | ok ys => simp [Except.isOk, Except.toBool, bind, Except.bind, pure, Except.pure]

end MapM
