import Mathlib

/-!
# Counters that hand out numbers

Counters that only grow and give each caller the number they have reached.

* `Ticket` — a counter and the number it has given.
* `Fair` — what is held was given, and no two hold one number of one counter.
* `Fair.draw`, `Fair.mono` — the next number is given, counters grow.
* `Fair.card_le` — **no more holders than numbers**: with numbers up to a limit,
  of one counter.
-/

namespace Tickets

variable {κ ι : Type*}

/-- A number a counter has given. -/
structure Ticket (κ : Type*) where
  slot : κ
  number : ℕ

/-- Every number held is one its counter has given, and no two hold the same. -/
structure Fair (counts : κ → ℕ) (held : ι → List (Ticket κ)) : Prop where
  given : ∀ i, ∀ t ∈ held i, 1 ≤ t.number ∧ t.number ≤ counts t.slot
  distinct : ∀ i j, i ≠ j → ∀ t ∈ held i, ∀ u ∈ held j, t.slot = u.slot → t.number ≠ u.number

theorem Fair.none (counts : κ → ℕ) : Fair counts fun _ : ι => [] where
  given _ _ ht := absurd ht List.not_mem_nil
  distinct _ _ _ _ ht := absurd ht List.not_mem_nil

/-- Counters grow, and tickets are given up. -/
theorem Fair.mono {counts counts' : κ → ℕ} {held held' : ι → List (Ticket κ)}
    (h : Fair counts held) (hcounts : ∀ k, counts k ≤ counts' k)
    (hheld : ∀ i, held' i ⊆ held i) : Fair counts' held' where
  given i t ht := by
    obtain ⟨hone, hle⟩ := h.given i t (hheld i ht)
    exact ⟨hone, hle.trans (hcounts t.slot)⟩
  distinct i j hij t ht u hu := h.distinct i j hij t (hheld i ht) u (hheld j hu)

variable [DecidableEq κ] [DecidableEq ι]

/-- A counter gives its next number. -/
theorem Fair.draw {counts : κ → ℕ} {held : ι → List (Ticket κ)} (h : Fair counts held) (i : ι)
    (k : κ) :
    Fair (Function.update counts k (counts k + 1))
      (Function.update held i (held i ++ [⟨k, counts k + 1⟩])) := by
  have hgrow : ∀ l, counts l ≤ Function.update counts k (counts k + 1) l := by
    intro l
    by_cases hl : l = k
    · rw [hl, Function.update_self]
      exact Nat.le_succ _
    · rw [Function.update_of_ne hl]
  -- a ticket is an old one, or the new one of `i`
  have hcases : ∀ j, ∀ t ∈ Function.update held i (held i ++ [⟨k, counts k + 1⟩]) j,
      t ∈ held j ∨ j = i ∧ t = ⟨k, counts k + 1⟩ := by
    intro j t ht
    by_cases hj : j = i
    · rw [hj, Function.update_self] at ht
      rcases List.mem_append.1 ht with ht | ht
      · exact Or.inl (hj ▸ ht)
      · exact Or.inr ⟨hj, List.mem_singleton.1 ht⟩
    · rw [Function.update_of_ne hj] at ht
      exact Or.inl ht
  constructor
  case given =>
    intro j t ht
    rcases hcases j t ht with hold | ⟨-, rfl⟩
    · obtain ⟨hone, hle⟩ := h.given j t hold
      exact ⟨hone, hle.trans (hgrow t.slot)⟩
    · rw [Function.update_self]
      exact ⟨Nat.le_add_left 1 _, le_refl _⟩
  case distinct =>
    intro j l hjl t ht u hu hslot
    rcases hcases j t ht with htold | ⟨hj, rfl⟩
    · rcases hcases l u hu with huold | ⟨-, rfl⟩
      · exact h.distinct j l hjl t htold u huold hslot
      · have hle := (h.given j t htold).2
        rw [hslot] at hle
        dsimp only at hle ⊢
        omega
    · rcases hcases l u hu with huold | ⟨hl, -⟩
      · have hle := (h.given l u huold).2
        rw [← hslot] at hle
        dsimp only at hle ⊢
        omega
      · exact absurd (hj.trans hl.symm) hjl

omit [DecidableEq κ] [DecidableEq ι] in
/-- **No more holders than numbers.** -/
theorem Fair.card_le {counts : κ → ℕ} {held : ι → List (Ticket κ)} (h : Fair counts held)
    {limit : ℕ} {k : κ} {S : Finset ι}
    (hS : ∀ i ∈ S, ∃ t ∈ held i, t.slot = k ∧ t.number ≤ limit) : S.card ≤ limit := by
  classical
  have : Nonempty (Ticket κ) := ⟨⟨k, 0⟩⟩
  choose! ticket hticket using hS
  have hmaps : Set.MapsTo (fun i => (ticket i).number) S (Finset.Icc 1 limit) := by
    intro i hi
    obtain ⟨hmem, -, hle⟩ := hticket i hi
    exact Finset.mem_coe.2 (Finset.mem_Icc.2 ⟨(h.given i _ hmem).1, hle⟩)
  have hinj : Set.InjOn (fun i => (ticket i).number) (S : Set ι) := by
    intro i hi j hj heq
    by_contra hij
    obtain ⟨hi', hislot, -⟩ := hticket i hi
    obtain ⟨hj', hjslot, -⟩ := hticket j hj
    exact h.distinct i j hij _ hi' _ hj' (hislot.trans hjslot.symm) heq
  have hcard := Finset.card_le_card_of_injOn _ hmaps hinj
  rwa [Nat.card_Icc, Nat.add_sub_cancel] at hcard

end Tickets
