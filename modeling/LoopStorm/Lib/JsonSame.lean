import LoopStorm.Lib.JsonSort

/-!
# Values up to the order of their members

* `same` — two values are one, with the members of an object in any order.
* `UniqueKeys` — no object has a key twice.
* `same_of_sortKeys` — values whose sorted forms are one are the same.
* `map_perm_of_same` — what is read off the members of the same objects is one
  list, but for its order.
-/

namespace Json

variable {σ ν : Type} [DecidableEq σ]

/-! ## Looking a key up -/

/-- No object in a value has a key twice. -/
inductive UniqueKeys : Json σ ν → Prop
  | null : UniqueKeys .null
  | bool (b : Bool) : UniqueKeys (.bool b)
  | num (n : ν) : UniqueKeys (.num n)
  | str (s : σ) : UniqueKeys (.str s)
  | arr (xs : List (Json σ ν)) (h : ∀ x ∈ xs, UniqueKeys x) : UniqueKeys (.arr xs)
  | obj (ms : List (σ × Json σ ν)) (hkeys : (ms.map Prod.fst).Nodup)
    (h : ∀ m ∈ ms, UniqueKeys m.2) : UniqueKeys (.obj ms)

theorem mem_of_lookup {k : σ} {v : Json σ ν} {ms : List (σ × Json σ ν)}
    (h : lookup k ms = some v) : (k, v) ∈ ms := by
  induction ms with
  | nil => cases h
  | cons m ms ih =>
    obtain ⟨l, w⟩ := m
    rw [lookup, Option.or_eq_some_iff] at h
    rcases h with h | ⟨-, h⟩
    · exact List.mem_cons_of_mem _ (ih h)
    · split at h
      case isTrue heq =>
        obtain rfl := Option.some.inj h
        rw [heq]
        exact List.mem_cons_self ..
      case isFalse => cases h

/-- Where no key stands twice, a member is what its key stands for. -/
theorem lookup_of_mem {k : σ} {v : Json σ ν} {ms : List (σ × Json σ ν)}
    (hkeys : (ms.map Prod.fst).Nodup) (h : (k, v) ∈ ms) : lookup k ms = some v := by
  induction ms with
  | nil => exact absurd h List.not_mem_nil
  | cons m ms ih =>
    obtain ⟨l, w⟩ := m
    rw [List.map_cons, List.nodup_cons] at hkeys
    rw [lookup]
    rcases List.mem_cons.1 h with heq | hmem
    · obtain ⟨rfl, rfl⟩ := Prod.mk.inj heq
      have hnone : lookup k ms = none :=
        lookup_eq_none fun n hn hk => hkeys.1 (List.mem_map.2 ⟨n, hn, hk⟩)
      rw [hnone, Option.none_or, if_pos rfl]
    · rw [ih hkeys.2 hmem, Option.some_or]

/-! ## One value -/

variable [DecidableEq ν]

mutual
/-- Whether two values are one, the members of an object in any order. -/
def same : Json σ ν → Json σ ν → Bool
  | .null, .null => true
  | .bool b, .bool c => b == c
  | .num n, .num m => n == m
  | .str s, .str t => s == t
  | .arr xs, .arr ys => sameL xs ys
  | .obj ms, .obj ns => ms.length == ns.length && sameM ms ns
  | _, _ => false

/-- `same` over the elements of two arrays. -/
def sameL : List (Json σ ν) → List (Json σ ν) → Bool
  | [], [] => true
  | x :: xs, y :: ys => same x y && sameL xs ys
  | _, _ => false

/-- Every member of the first object has its like in the second. -/
def sameM : List (σ × Json σ ν) → List (σ × Json σ ν) → Bool
  | [], _ => true
  | (k, v) :: ms, ns => (lookup k ns).any (fun w => same v w) && sameM ms ns
end

theorem sameL_iff {xs ys : List (Json σ ν)} :
    sameL xs ys = true ↔ List.Forall₂ (fun x y => same x y = true) xs ys := by
  induction xs generalizing ys with
  | nil => cases ys <;> simp [sameL]
  | cons x xs ih => cases ys <;> simp [sameL, ih]

theorem sameM_iff {ms ns : List (σ × Json σ ν)} :
    sameM ms ns = true ↔ ∀ m ∈ ms, ∃ w, lookup m.1 ns = some w ∧ same m.2 w = true := by
  induction ms with
  | nil => simp [sameM]
  | cons m ms ih =>
    obtain ⟨k, v⟩ := m
    rw [sameM, Bool.and_eq_true, ih, List.forall_mem_cons, Option.any_eq_true]

/-- **Values whose sorted forms are one are the same.** -/
theorem same_of_sortKeys {le : σ → σ → Bool} {v w : Json σ ν} (hw : UniqueKeys w)
    (h : sortKeys le v = sortKeys le w) : same v w = true := by
  induction v using Json.induction generalizing w with
  | null => cases w <;> simp_all [sortKeys, same]
  | bool b => cases w <;> simp_all [sortKeys, same]
  | num n => cases w <;> simp_all [sortKeys, same]
  | str s => cases w <;> simp_all [sortKeys, same]
  | arr xs ih =>
    cases hw with
    | arr ys hys =>
      rw [sortKeys, sortKeys, arr.injEq, sortKeysL_eq_map, sortKeysL_eq_map] at h
      rw [same, sameL_iff]
      have hall : List.Forall₂ (fun x y => sortKeys le x = sortKeys le y) xs ys := by
        rwa [← List.forall₂_eq_eq_eq, List.forall₂_map_left_iff, List.forall₂_map_right_iff] at h
      have hmem := List.forall₂_iff_get.1 hall
      refine List.forall₂_iff_get.2 ⟨hmem.1, fun i hx hy => ?_⟩
      exact ih _ (List.get_mem ..) (hys _ (List.get_mem ..)) (hmem.2 i hx hy)
    | _ => simp [sortKeys] at h
  | obj ms ih =>
    cases hw with
    | obj ns hkeys hns =>
      rw [sortKeys, sortKeys, obj.injEq, sortKeysM_eq_map, sortKeysM_eq_map] at h
      have hperm : (ms.map fun m => (m.1, sortKeys le m.2)).Perm
          (ns.map fun n => (n.1, sortKeys le n.2)) :=
        (List.mergeSort_perm _ _).symm.trans
          ((List.Perm.of_eq h).trans (List.mergeSort_perm _ _))
      rw [same, Bool.and_eq_true, beq_iff_eq, sameM_iff]
      refine ⟨by simpa using hperm.length_eq, fun m hm => ?_⟩
      have hmem := hperm.mem_iff.1 (List.mem_map_of_mem hm)
      obtain ⟨⟨k, w⟩, hn, heq⟩ := List.mem_map.1 hmem
      obtain ⟨hkey, hvalue⟩ := Prod.mk.inj heq
      simp only at hkey
      subst hkey
      exact ⟨w, lookup_of_mem hkeys hn, ih m hm (hns _ hn) hvalue.symm⟩
    | _ => simp [sortKeys] at h

/-- The keys of the same objects are one list, but for its order. -/
theorem keys_perm_of_same {ms ns : List (σ × Json σ ν)} (hms : (ms.map Prod.fst).Nodup)
    (h : same (.obj ms) (.obj ns) = true) : (ms.map Prod.fst).Perm (ns.map Prod.fst) := by
  rw [same, Bool.and_eq_true, beq_iff_eq, sameM_iff] at h
  have hsub : ms.map Prod.fst ⊆ ns.map Prod.fst := by
    intro k hk
    obtain ⟨m, hm, rfl⟩ := List.mem_map.1 hk
    obtain ⟨w, hw, -⟩ := h.2 m hm
    exact List.mem_map.2 ⟨(m.1, w), mem_of_lookup hw, rfl⟩
  refine (hms.subperm hsub).perm_of_length_le ?_
  rw [List.length_map, List.length_map, h.1]

/-- **What is read off the members of the same objects is one list**, but for its
order, when it is one for the same values. -/
theorem map_perm_of_same {β : Type} {ms ns : List (σ × Json σ ν)}
    (hms : (ms.map Prod.fst).Nodup) (hns : (ns.map Prod.fst).Nodup)
    (h : same (.obj ms) (.obj ns) = true) {f : σ × Json σ ν → β}
    (hf : ∀ m ∈ ms, ∀ n ∈ ns, n.1 = m.1 → same m.2 n.2 = true → f m = f n) :
    (ms.map f).Perm (ns.map f) := by
  have hkeys := keys_perm_of_same hms h
  rw [same, Bool.and_eq_true, beq_iff_eq, sameM_iff] at h
  -- both lists are read off the keys alone
  let g (k : σ) : β := f (k, (lookup k ns).getD .null)
  have hleft : ms.map f = (ms.map Prod.fst).map g := by
    rw [List.map_map]
    refine List.map_congr_left fun m hm => ?_
    obtain ⟨w, hw, hsame⟩ := h.2 m hm
    show f m = f (m.1, (lookup m.1 ns).getD .null)
    rw [hw]
    exact hf m hm (m.1, w) (mem_of_lookup hw) rfl hsame
  have hright : ns.map f = (ns.map Prod.fst).map g := by
    rw [List.map_map]
    refine List.map_congr_left fun n hn => ?_
    show f n = f (n.1, (lookup n.1 ns).getD .null)
    rw [lookup_of_mem hns hn]
    rfl
  rw [hleft, hright]
  exact hkeys.map g

end Json
