import Mathlib

/-!
# A map that remembers the order of its keys

The `Map` of the language the backend and the exporter are written in: a key set
anew comes last, one set again keeps its place, and an iteration goes in order.

* `OrderedMap` — the entries, no two with one key.
* `get?`, `set`, `delete`, `filter` — the operations; deleting what an iteration
  passes over is `filter`.
* `set_perm`, `perm_of_get?` — one entry and the others, for sums over a map.
* `mapValues` — the same keys with other values; every operation commutes with
  it, which is what a refinement between two maps needs.
-/

/-- A map with its entries in order. -/
structure OrderedMap (κ β : Type*) where
  entries : List (κ × β)
  nodup : (entries.map Prod.fst).Nodup

namespace OrderedMap

variable {κ β : Type*}

/-- The map with no entry. -/
def empty : OrderedMap κ β := ⟨[], List.nodup_nil⟩

/-- How many entries there are. -/
def size (m : OrderedMap κ β) : Nat := m.entries.length

/-- The values, in the order of their keys. -/
def values (m : OrderedMap κ β) : List β := m.entries.map Prod.snd

/-- The entries that pass a test. -/
def filter (m : OrderedMap κ β) (p : κ × β → Bool) : OrderedMap κ β where
  entries := m.entries.filter p
  nodup := m.nodup.sublist (List.filter_sublist.map Prod.fst)

theorem nodup_entries (m : OrderedMap κ β) : m.entries.Nodup := m.nodup.of_map Prod.fst

variable [DecidableEq κ]

/-- The value of a key. -/
def get? (m : OrderedMap κ β) (k : κ) : Option β :=
  (m.entries.find? fun e => e.1 = k).map Prod.snd

/-- A map without a key. -/
def delete (m : OrderedMap κ β) (k : κ) : OrderedMap κ β := m.filter fun e => e.1 ≠ k

/-- A map with a value for a key, in its place if it has one. -/
def set (m : OrderedMap κ β) (k : κ) (v : β) : OrderedMap κ β :=
  if h : k ∈ m.entries.map Prod.fst then
    { entries := m.entries.map fun e => if e.1 = k then (k, v) else e
      nodup := by
        have hkeys : (m.entries.map fun e => if e.1 = k then (k, v) else e).map Prod.fst =
            m.entries.map Prod.fst := by
          rw [List.map_map]
          refine List.map_congr_left fun e _ => ?_
          by_cases he : e.1 = k
          · simp [he]
          · simp [he]
        rw [hkeys]
        exact m.nodup }
  else
    { entries := m.entries ++ [(k, v)]
      nodup := by
        rw [List.map_append, List.map_singleton, List.nodup_append]
        refine ⟨m.nodup, List.nodup_singleton _, ?_⟩
        intro j hj l hl heq
        obtain rfl : j = k := heq.trans (List.mem_singleton.1 hl)
        exact h hj }

/-! ## Reading -/

@[simp] theorem get?_empty (k : κ) : (empty : OrderedMap κ β).get? k = none := rfl

theorem get?_eq_some_iff {m : OrderedMap κ β} {k : κ} {v : β} :
    m.get? k = some v ↔ (k, v) ∈ m.entries := by
  rw [get?, Option.map_eq_some_iff]
  constructor
  · rintro ⟨⟨j, w⟩, hfind, rfl⟩
    have hj := List.find?_some hfind
    rw [decide_eq_true_eq] at hj
    exact hj ▸ List.mem_of_find?_eq_some hfind
  · intro hmem
    cases hfind : m.entries.find? fun e => e.1 = k with
    | none =>
      have hnone := List.find?_eq_none.1 hfind _ hmem
      simp at hnone
    | some e =>
      have he := List.find?_some hfind
      rw [decide_eq_true_eq] at he
      have heq := List.inj_on_of_nodup_map m.nodup (List.mem_of_find?_eq_some hfind) hmem he
      exact ⟨e, rfl, by rw [heq]⟩

theorem get?_eq_none_iff {m : OrderedMap κ β} {k : κ} :
    m.get? k = none ↔ ∀ e ∈ m.entries, e.1 ≠ k := by
  rw [get?, Option.map_eq_none_iff, List.find?_eq_none]
  simp only [decide_eq_true_eq]

theorem get?_filter_of_pos {m : OrderedMap κ β} {p : κ × β → Bool} {k : κ} {v : β}
    (hget : m.get? k = some v) (hp : p (k, v) = true) : (m.filter p).get? k = some v :=
  get?_eq_some_iff.2 (List.mem_filter.2 ⟨get?_eq_some_iff.1 hget, hp⟩)

theorem get?_filter_of_none {m : OrderedMap κ β} {p : κ × β → Bool} {k : κ}
    (hget : m.get? k = none) : (m.filter p).get? k = none :=
  get?_eq_none_iff.2 fun e he => get?_eq_none_iff.1 hget e (List.mem_filter.1 he).1

theorem mem_set {m : OrderedMap κ β} {k : κ} {v : β} {e : κ × β} :
    e ∈ (m.set k v).entries ↔ e = (k, v) ∨ e ∈ m.entries ∧ e.1 ≠ k := by
  unfold set
  split
  case isTrue h =>
    rw [List.mem_map]
    constructor
    · rintro ⟨d, hd, rfl⟩
      by_cases hk : d.1 = k
      · exact Or.inl (if_pos hk)
      · rw [if_neg hk]
        exact Or.inr ⟨hd, hk⟩
    · rintro (rfl | ⟨he, hk⟩)
      · obtain ⟨d, hd, hdk⟩ := List.mem_map.1 h
        exact ⟨d, hd, if_pos hdk⟩
      · exact ⟨e, he, if_neg hk⟩
  case isFalse h =>
    rw [List.mem_append, List.mem_singleton, or_comm]
    refine or_congr_right ⟨fun he => ⟨he, fun hk => ?_⟩, And.left⟩
    exact h (List.mem_map.2 ⟨e, he, hk⟩)

/-- A map as it was set last. -/
theorem get?_set (m : OrderedMap κ β) (k : κ) (v : β) (j : κ) :
    (m.set k v).get? j = if j = k then some v else m.get? j := by
  by_cases hj : j = k
  · rw [if_pos hj, get?_eq_some_iff, mem_set, hj]
    exact Or.inl rfl
  · rw [if_neg hj]
    refine Option.ext fun w => ?_
    rw [get?_eq_some_iff, get?_eq_some_iff, mem_set]
    constructor
    · rintro (heq | ⟨hmem, -⟩)
      · exact absurd (congrArg Prod.fst heq) hj
      · exact hmem
    · intro hmem
      exact Or.inr ⟨hmem, hj⟩

/-! ## One entry and the others -/

theorem mem_delete {m : OrderedMap κ β} {k : κ} {e : κ × β} :
    e ∈ (m.delete k).entries ↔ e ∈ m.entries ∧ e.1 ≠ k := by
  rw [delete, filter, List.mem_filter, decide_eq_true_eq]

theorem nodup_cons_delete (m : OrderedMap κ β) (k : κ) (v : β) :
    ((k, v) :: (m.delete k).entries).Nodup := by
  refine List.nodup_cons.2 ⟨fun hmem => ?_, (m.delete k).nodup_entries⟩
  exact (mem_delete.1 hmem).2 rfl

theorem delete_entries_of_none {m : OrderedMap κ β} {k : κ} (h : m.get? k = none) :
    (m.delete k).entries = m.entries :=
  List.filter_eq_self.2 fun e he => decide_eq_true (get?_eq_none_iff.1 h e he)

/-- The entry of a key, and the others. -/
theorem perm_of_get? {m : OrderedMap κ β} {k : κ} {v : β} (h : m.get? k = some v) :
    m.entries.Perm ((k, v) :: (m.delete k).entries) := by
  refine (List.perm_ext_iff_of_nodup m.nodup_entries (m.nodup_cons_delete k v)).2 fun e => ?_
  rw [List.mem_cons, mem_delete]
  constructor
  · intro he
    by_cases hk : e.1 = k
    · refine Or.inl (Prod.ext hk ?_)
      rw [← hk] at h
      exact Option.some.inj ((get?_eq_some_iff.2 he).symm.trans h)
    · exact Or.inr ⟨he, hk⟩
  · rintro (rfl | ⟨he, -⟩)
    · exact get?_eq_some_iff.1 h
    · exact he

/-- A map with a key set: that entry, and the others. -/
theorem set_perm (m : OrderedMap κ β) (k : κ) (v : β) :
    (m.set k v).entries.Perm ((k, v) :: (m.delete k).entries) := by
  refine (List.perm_ext_iff_of_nodup (m.set k v).nodup_entries
    (m.nodup_cons_delete k v)).2 fun e => ?_
  rw [mem_set, List.mem_cons, mem_delete]

theorem delete_set_perm (m : OrderedMap κ β) (k : κ) (v : β) :
    ((m.set k v).delete k).entries.Perm (m.delete k).entries := by
  refine (List.perm_ext_iff_of_nodup ((m.set k v).delete k).nodup_entries
    (m.delete k).nodup_entries).2 fun e => ?_
  rw [mem_delete, mem_delete, mem_set]
  constructor
  · rintro ⟨rfl | he, hk⟩
    · exact absurd rfl hk
    · exact he
  · rintro ⟨he, hk⟩
    exact ⟨Or.inr ⟨he, hk⟩, hk⟩

theorem get?_delete (m : OrderedMap κ β) (k j : κ) :
    (m.delete k).get? j = if j = k then none else m.get? j := by
  by_cases hj : j = k
  · rw [if_pos hj, hj]
    exact get?_eq_none_iff.2 fun e he => (mem_delete.1 he).2
  · rw [if_neg hj]
    refine Option.ext fun w => ?_
    rw [get?_eq_some_iff, get?_eq_some_iff, mem_delete]
    exact and_iff_left hj

/-- The entries of one key. -/
theorem filter_entries_key (m : OrderedMap κ β) (k : κ) :
    m.entries.filter (fun e => e.1 = k) = (m.get? k).toList.map (Prod.mk k) := by
  cases h : m.get? k with
  | none =>
    refine List.filter_eq_nil_iff.2 fun e he heq => ?_
    exact get?_eq_none_iff.1 h e he (of_decide_eq_true heq)
  | some v =>
    have hrest : (m.delete k).entries.filter (fun e => e.1 = k) = [] :=
      List.filter_eq_nil_iff.2 fun e he heq => (mem_delete.1 he).2 (of_decide_eq_true heq)
    have hperm := (perm_of_get? h).filter fun e => e.1 = k
    rw [List.filter_cons, if_pos (decide_eq_true rfl), hrest] at hperm
    exact List.perm_singleton.1 hperm

/-! ## Writing twice -/

omit [DecidableEq κ] in
theorem ext_entries {m n : OrderedMap κ β} (h : m.entries = n.entries) : m = n := by
  cases m
  cases n
  cases h
  rfl

theorem entries_set_of_mem {m : OrderedMap κ β} {k : κ} (h : k ∈ m.entries.map Prod.fst) (v : β) :
    (m.set k v).entries = m.entries.map fun e => if e.1 = k then (k, v) else e := by
  unfold set
  rw [dif_pos h]

theorem entries_set_of_notMem {m : OrderedMap κ β} {k : κ} (h : k ∉ m.entries.map Prod.fst)
    (v : β) : (m.set k v).entries = m.entries ++ [(k, v)] := by
  unfold set
  rw [dif_neg h]

theorem key_mem_set (m : OrderedMap κ β) (k : κ) (v : β) :
    k ∈ (m.set k v).entries.map Prod.fst :=
  List.mem_map.2 ⟨(k, v), mem_set.2 (Or.inl rfl), rfl⟩

/-- Only the value set last counts. -/
theorem set_set (m : OrderedMap κ β) (k : κ) (v w : β) : (m.set k v).set k w = m.set k w := by
  refine ext_entries ?_
  rw [entries_set_of_mem (m.key_mem_set k v)]
  by_cases hk : k ∈ m.entries.map Prod.fst
  · rw [entries_set_of_mem hk, entries_set_of_mem hk, List.map_map]
    refine List.map_congr_left fun e _ => ?_
    by_cases he : e.1 = k
    · simp [he]
    · simp [he]
  · rw [entries_set_of_notMem hk, entries_set_of_notMem hk, List.map_append, List.map_singleton,
      if_pos rfl]
    have hrest : (m.entries.map fun e => if e.1 = k then (k, w) else e) = m.entries.map id :=
      List.map_congr_left fun e he =>
        if_neg fun heq : e.1 = k => hk (heq ▸ List.mem_map_of_mem he)
    rw [hrest, List.map_id]

theorem delete_set (m : OrderedMap κ β) (k : κ) (v : β) : (m.set k v).delete k = m.delete k := by
  refine ext_entries ?_
  show (m.set k v).entries.filter _ = m.entries.filter _
  by_cases hk : k ∈ m.entries.map Prod.fst
  · rw [entries_set_of_mem hk]
    induction m.entries with
    | nil => rfl
    | cons e es ih =>
      by_cases he : e.1 = k
      · simpa [he] using ih
      · simpa [he] using ih
  · rw [entries_set_of_notMem hk, List.filter_append]
    simp

/-! ## Maps of other values -/

section MapValues

variable {γ : Type*}

omit [DecidableEq κ] in
/-- The same keys, with other values. -/
def mapValues (f : β → γ) (m : OrderedMap κ β) : OrderedMap κ γ where
  entries := m.entries.map fun e => (e.1, f e.2)
  nodup := by
    rw [List.map_map]
    exact m.nodup

omit [DecidableEq κ] in
@[simp] theorem entries_mapValues (f : β → γ) (m : OrderedMap κ β) :
    (m.mapValues f).entries = m.entries.map fun e => (e.1, f e.2) := rfl

omit [DecidableEq κ] in
@[simp] theorem size_mapValues (f : β → γ) (m : OrderedMap κ β) :
    (m.mapValues f).size = m.size := List.length_map _

omit [DecidableEq κ] in
theorem keys_mapValues (f : β → γ) (m : OrderedMap κ β) :
    (m.mapValues f).entries.map Prod.fst = m.entries.map Prod.fst := by
  rw [entries_mapValues, List.map_map]
  rfl

omit [DecidableEq κ] in
theorem filter_mapValues (f : β → γ) (m : OrderedMap κ β) (p : κ × γ → Bool) :
    (m.mapValues f).filter p = (m.filter fun e => p (e.1, f e.2)).mapValues f := by
  refine ext_entries ?_
  show (m.entries.map _).filter p = (m.entries.filter _).map _
  rw [List.filter_map]
  rfl

theorem get?_mapValues (f : β → γ) (m : OrderedMap κ β) (k : κ) :
    (m.mapValues f).get? k = (m.get? k).map f := by
  rw [get?, get?, entries_mapValues, List.find?_map, Option.map_map, Option.map_map]
  rfl

theorem delete_mapValues (f : β → γ) (m : OrderedMap κ β) (k : κ) :
    (m.mapValues f).delete k = (m.delete k).mapValues f :=
  filter_mapValues f m _

theorem set_mapValues (f : β → γ) (m : OrderedMap κ β) (k : κ) (v : β) :
    (m.mapValues f).set k (f v) = (m.set k v).mapValues f := by
  refine ext_entries ?_
  rw [entries_mapValues]
  by_cases hk : k ∈ m.entries.map Prod.fst
  · rw [entries_set_of_mem hk, entries_set_of_mem (by rwa [keys_mapValues]), entries_mapValues,
      List.map_map, List.map_map]
    refine List.map_congr_left fun e _ => ?_
    by_cases he : e.1 = k
    · simp [he]
    · simp [he]
  · rw [entries_set_of_notMem hk, entries_set_of_notMem (by rwa [keys_mapValues]),
      entries_mapValues, List.map_append, List.map_singleton]

end MapValues

end OrderedMap
