import Mathlib.Data.List.DropRight
import Mathlib.Data.List.Sort

/-!
# The end of a history

What a program keeps of a growing list when it keeps only its end: a fixed
number of entries, or the entries not older than a bound.

* `rtake_concat_eq_iff` — pushing an entry leaves the last `n + 1` as they were
  when all of them are that entry.
* `dropWhile_eq_filter` — pruning a sorted list from the front keeps exactly what
  passes the test.
* `foldl_push_concat` — **a history pruned from the front at every entry holds
  exactly the entries that are fresh at its last one.**
-/

namespace Window

variable {α : Type*}

/-- A list that is its own shift is constant. -/
theorem forall_eq_of_cons_eq_concat {a e : α} {as : List α} (h : a :: as = as ++ [e]) :
    ∀ x ∈ a :: as, x = e := by
  induction as generalizing a with
  | nil =>
    intro x hx
    obtain rfl := List.mem_singleton.1 hx
    exact (List.cons.inj h).1
  | cons b bs ih =>
    obtain ⟨rfl, htail⟩ := List.cons.inj h
    intro x hx
    rcases List.mem_cons.1 hx with rfl | hx
    · exact ih htail x (List.mem_cons_self ..)
    · exact ih htail x hx

theorem cons_eq_concat_of_forall {a e : α} {as : List α} (h : ∀ x ∈ a :: as, x = e) :
    a :: as = as ++ [e] := by
  rw [List.eq_replicate_iff.2 ⟨rfl, fun x hx => h x (List.mem_cons_of_mem _ hx)⟩,
    h a (List.mem_cons_self ..), ← List.replicate_succ, ← List.replicate_succ']

/-- The last entries stay the same under one more entry when there are enough of
them and all are that entry. -/
theorem rtake_concat_eq_iff {n : Nat} {as : List α} {e : α} :
    as.rtake (n + 1) = (as ++ [e]).rtake (n + 1) ↔
      n < as.length ∧ ∀ x ∈ as.rtake (n + 1), x = e := by
  rw [List.rtake_concat_succ]
  by_cases hlen : n < as.length
  · have hshift : as.rtake (n + 1) = as[as.length - (n + 1)] :: as.rtake n := by
      rw [List.rtake, List.rtake, List.drop_eq_getElem_cons (by omega)]
      congr 2
      omega
    rw [hshift]
    constructor
    · intro h
      exact ⟨hlen, forall_eq_of_cons_eq_concat h⟩
    · rintro ⟨-, h⟩
      exact cons_eq_concat_of_forall h
  · constructor
    · intro h
      have := congrArg List.length h
      simp only [List.rtake, List.length_append, List.length_drop, List.length_singleton] at this
      omega
    · rintro ⟨h, -⟩
      exact absurd h hlen

/-! ## Entries not older than a bound -/

/-- Where an entry that passes comes after none that fails, dropping the passing
front leaves the entries that fail. -/
theorem dropWhile_eq_filter {p : α → Bool} {as : List α}
    (h : as.Pairwise fun a b => p b = true → p a = true) :
    as.dropWhile p = as.filter fun a => !p a := by
  induction as with
  | nil => rfl
  | cons a as ih =>
    obtain ⟨hhead, htail⟩ := List.pairwise_cons.1 h
    by_cases ha : p a = true
    · rw [List.dropWhile_cons_of_pos ha, ih htail, List.filter_cons_of_neg (by simp [ha])]
    · have hall : ∀ b ∈ a :: as, (!p b) = true := by
        intro b hb
        rw [Bool.not_eq_true']
        rcases List.mem_cons.1 hb with rfl | hb
        · exact Bool.eq_false_of_not_eq_true ha
        · exact Bool.eq_false_of_not_eq_true fun hp => ha (hhead b hb hp)
      rw [List.dropWhile_cons_of_neg ha, List.filter_eq_self.2 hall]

section Push

variable (time : α → Nat) (window : Nat)

/-- At the instant `now`, the entry is not older than the window. -/
def fresh (now : Nat) (a : α) : Bool := decide (now - time a ≤ window)

/-- Push an entry, and prune what is too old from the front. -/
def push (kept : List α) (e : α) : List α :=
  (kept ++ [e]).dropWhile fun a => !fresh time window (time e) a

variable {time window}

/-- What is fresh stays so at an earlier instant. -/
theorem fresh_of_le {now later : Nat} (hle : now ≤ later) {a : α}
    (h : fresh time window later a = true) : fresh time window now a = true := by
  rw [fresh, decide_eq_true_eq] at h ⊢
  omega

/-- Of a sorted history, pushing an entry keeps what is fresh then. -/
theorem push_eq_filter {kept : List α} {e : α}
    (h : (kept ++ [e]).Pairwise fun a b => time a ≤ time b) :
    push time window kept e = (kept ++ [e]).filter (fresh time window (time e)) := by
  have hsorted : (kept ++ [e]).Pairwise fun a b =>
      (!fresh time window (time e) b) = true → (!fresh time window (time e) a) = true := by
    refine h.imp ?_
    intro a b hle
    simp only [fresh, Bool.not_eq_true', decide_eq_false_iff_not]
    omega
  rw [push, dropWhile_eq_filter hsorted]
  simp only [Bool.not_not]

/-- **A history that is pruned at every entry** holds exactly the entries that
are fresh at its last one. -/
theorem foldl_push_concat {es : List α} {e : α}
    (h : (es ++ [e]).Pairwise fun a b => time a ≤ time b) :
    (es ++ [e]).foldl (push time window) [] = (es ++ [e]).filter (fresh time window (time e)) := by
  induction es using List.reverseRecOn generalizing e with
  | nil => exact push_eq_filter h
  | append_singleton es e' ih =>
    have hbefore : (es ++ [e']).Pairwise fun a b => time a ≤ time b := (List.pairwise_append.1 h).1
    have hle : time e' ≤ time e :=
      (List.pairwise_append.1 h).2.2 e' (by simp) e (List.mem_singleton_self e)
    have hkept : ((es ++ [e']).filter (fresh time window (time e')) ++ [e]).Pairwise
        fun a b => time a ≤ time b := h.sublist (List.filter_sublist.append_right [e])
    rw [List.foldl_append, ih hbefore]
    show push time window _ e = _
    rw [push_eq_filter hkept, List.filter_append, List.filter_filter,
      List.filter_append (es ++ [e'])]
    congr 1
    refine List.filter_congr fun a _ => ?_
    -- Fresh at the later entry means fresh at the earlier one.
    by_cases hfresh : fresh time window (time e) a = true
    · rw [hfresh, fresh_of_le hle hfresh, Bool.and_self]
    · rw [Bool.not_eq_true] at hfresh
      rw [hfresh, Bool.false_and]

end Push

end Window
