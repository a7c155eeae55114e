import LoopStorm.Lib.Json

/-!
# Paths in a JSON value

A path leads from a value to one below it, step by step: into a member, by its
position and its key, or into an element.

* `child`, `descend` — the value at the end of a step and of a path.
* `Node`, `node` — what a value is without what is below it.
* `AgreeOn` — two values have the same nodes at the end of every path whose steps
  are of some kind; `AgreeOn.lookup` follows it through a look-up, and
  `AgreeOn.eq_of_seen` says when it is all of the value.
-/

namespace Json

variable {σ ν : Type}

/-- A step into a member of an object or into an element of an array. -/
inductive Step (σ : Type) where
  | member (i : Nat) (key : σ)
  | element (i : Nat)

section Descend

variable [DecidableEq σ]

/-- The value a step leads to. -/
def child : Json σ ν → Step σ → Option (Json σ ν)
  | .obj ms, .member i key => ms[i]?.bind fun m => if m.1 = key then some m.2 else none
  | .arr xs, .element i => xs[i]?
  | _, _ => none

/-- The value a path leads to. -/
def descend (v : Json σ ν) : List (Step σ) → Option (Json σ ν)
  | [] => some v
  | step :: path => (v.child step).bind fun w => w.descend path

theorem descend_append (v : Json σ ν) (path path' : List (Step σ)) :
    v.descend (path ++ path') = (v.descend path).bind fun w => w.descend path' := by
  induction path generalizing v with
  | nil => rfl
  | cons step path ih =>
    rw [List.cons_append, descend, descend, Option.bind_assoc]
    simp only [ih]

theorem descend_singleton (v : Json σ ν) (step : Step σ) : v.descend [step] = v.child step :=
  Option.bind_fun_some _

theorem child_member {ms : List (σ × Json σ ν)} {i : Nat} {key : σ} {w : Json σ ν} :
    child (.obj ms) (.member i key) = some w ↔ ms[i]? = some (key, w) := by
  rw [child, Option.bind_eq_some_iff]
  constructor
  · rintro ⟨⟨k, v⟩, hm, hv⟩
    by_cases hk : k = key
    · rw [if_pos hk] at hv
      obtain rfl : v = w := Option.some.inj hv
      rw [hm, show k = key from hk]
    · rw [if_neg hk] at hv
      cases hv
  · intro hm
    exact ⟨(key, w), hm, if_pos rfl⟩

end Descend

/-! ## Nodes -/

/-- What a value is by itself: a scalar, the length of an array, the keys of an
object. -/
inductive Node (σ ν : Type) where
  | null
  | bool (b : Bool)
  | num (n : ν)
  | str (s : σ)
  | arr (length : Nat)
  | obj (keys : List σ)

def node : Json σ ν → Node σ ν
  | .null => .null
  | .bool b => .bool b
  | .num n => .num n
  | .str s => .str s
  | .arr xs => .arr xs.length
  | .obj ms => .obj (ms.map Prod.fst)

theorem eq_arr_of_node {v : Json σ ν} {n : Nat} (h : v.node = .arr n) :
    ∃ xs, v = .arr xs ∧ xs.length = n := by
  cases v with
  | arr xs => exact ⟨xs, rfl, Node.arr.inj h⟩
  | null | bool | num | str | obj => cases h

theorem eq_obj_of_node {v : Json σ ν} {keys : List σ} (h : v.node = .obj keys) :
    ∃ ms, v = .obj ms ∧ ms.map Prod.fst = keys := by
  cases v with
  | obj ms => exact ⟨ms, rfl, Node.obj.inj h⟩
  | null | bool | num | str | arr => cases h

section Agree

variable [DecidableEq σ]

/-- The values have the same nodes wherever visible steps lead. -/
def AgreeOn (visible : Step σ → Prop) (v w : Json σ ν) : Prop :=
  ∀ path, (∀ step ∈ path, visible step) → (v.descend path).map node = (w.descend path).map node

variable {visible : Step σ → Prop} {v w : Json σ ν}

theorem AgreeOn.node_eq (h : AgreeOn visible v w) : v.node = w.node :=
  Option.some.inj (h [] fun _ hstep => absurd hstep List.not_mem_nil)

/-- Values that agree have agreeing values below them. -/
theorem AgreeOn.child (h : AgreeOn visible v w) {step : Step σ} (hstep : visible step)
    {v' w' : Json σ ν} (hv : v.child step = some v') (hw : w.child step = some w') :
    AgreeOn visible v' w' := by
  intro path hpath
  have hall := h (step :: path) (List.forall_mem_cons.2 ⟨hstep, hpath⟩)
  rw [descend, descend, hv, hw] at hall
  exact hall

/-- A key is found at one position among the members of objects with the same
keys. -/
theorem lookup_position {ms ns : List (σ × Json σ ν)} (h : ms.map Prod.fst = ns.map Prod.fst)
    (key : σ) :
    (lookup key ms = none ∧ lookup key ns = none) ∨
      ∃ i v w, child (.obj ms) (.member i key) = some v ∧
        child (.obj ns) (.member i key) = some w ∧ lookup key ms = some v ∧
          lookup key ns = some w := by
  induction ms generalizing ns with
  | nil =>
    obtain rfl := List.map_eq_nil_iff.1 h.symm
    exact .inl ⟨rfl, rfl⟩
  | cons m ms ih =>
    obtain ⟨n, ns, rfl⟩ := List.exists_cons_of_ne_nil (l := ns) (by
      rintro rfl
      cases h)
    obtain ⟨k, v⟩ := m
    obtain ⟨k', w⟩ := n
    obtain ⟨rfl, hkeys⟩ := List.cons.inj h
    rcases ih hkeys with ⟨hms, hns⟩ | ⟨i, v', w', hv, hw, hms, hns⟩
    · rw [lookup, lookup, hms, hns, Option.none_or, Option.none_or]
      by_cases hk : k = key
      · subst hk
        rw [if_pos rfl, if_pos rfl]
        exact .inr ⟨0, v, w, child_member.2 rfl, child_member.2 rfl, rfl, rfl⟩
      · rw [if_neg hk, if_neg hk]
        exact .inl ⟨rfl, rfl⟩
    · rw [lookup, lookup, hms, hns]
      exact .inr ⟨i + 1, v', w', child_member.2 (child_member.1 hv),
        child_member.2 (child_member.1 hw), rfl, rfl⟩

/-- In objects that agree, a visible key stands for values that agree. -/
theorem AgreeOn.lookup {ms ns : List (σ × Json σ ν)} (h : AgreeOn visible (.obj ms) (.obj ns))
    {key : σ} (hkey : ∀ i, visible (.member i key)) :
    (Json.lookup key ms = none ∧ Json.lookup key ns = none) ∨
      ∃ v w, Json.lookup key ms = some v ∧ Json.lookup key ns = some w ∧ AgreeOn visible v w := by
  rcases lookup_position (Node.obj.inj h.node_eq) key with hnone | ⟨i, v, w, hv, hw, hms, hns⟩
  · exact .inl hnone
  · exact .inr ⟨v, w, hms, hns, h.child (hkey i) hv hw⟩

theorem AgreeOn.symm (h : AgreeOn visible v w) : AgreeOn visible w v :=
  fun path hpath => (h path hpath).symm

/-- All of the value is where visible steps lead. -/
def Seen (visible : Step σ → Prop) (v : Json σ ν) : Prop :=
  ∀ path u, v.descend path = some u → ∀ step ∈ path, visible step

/-- A step into a value that is seen is visible, and so is what it leads to. -/
theorem Seen.step (h : Seen visible v) {step : Step σ} {u : Json σ ν}
    (hu : Json.child v step = some u) : visible step ∧ Seen visible u := by
  constructor
  · exact h [step] u (by rw [descend_singleton, hu]) step (List.mem_singleton_self step)
  · intro path w hw s hs
    refine h (step :: path) w ?_ s (List.mem_cons_of_mem _ hs)
    rw [descend, hu]
    exact hw

/-- A value that agrees with one that is seen is that value. -/
theorem AgreeOn.eq_of_seen (h : AgreeOn visible v w) (hseen : Seen visible v) : v = w := by
  have hnode := h.node_eq
  induction v using Json.induction generalizing w with
  | null | bool | num | str =>
    cases w <;> cases hnode
    all_goals rfl
  | arr xs ih =>
    obtain ⟨ys, rfl, hlen⟩ := eq_arr_of_node hnode.symm
    congr 1
    refine List.ext_getElem hlen.symm fun i hi hi' => ?_
    have hx : Json.child (.arr xs) (.element i) = some xs[i] := List.getElem?_eq_getElem hi
    have hy : Json.child (.arr ys) (.element i) = some ys[i] := List.getElem?_eq_getElem hi'
    obtain ⟨hstep, hrest⟩ := hseen.step hx
    have hchild := h.child hstep hx hy
    exact ih _ (List.getElem_mem hi) hchild hrest hchild.node_eq
  | obj ms ih =>
    obtain ⟨ns, rfl, hkeys⟩ := eq_obj_of_node hnode.symm
    have hlen : ms.length = ns.length := by
      have hlengths := congrArg List.length hkeys
      simpa using hlengths.symm
    congr 1
    refine List.ext_getElem hlen fun i hi hi' => ?_
    have hkey : ns[i].1 = ms[i].1 := by
      have hat := congrArg (fun keys => keys[i]?) hkeys
      simpa [hi, hi'] using hat
    have hm : Json.child (.obj ms) (.member i ms[i].1) = some ms[i].2 :=
      child_member.2 (List.getElem?_eq_getElem hi)
    have hn : Json.child (.obj ns) (.member i ms[i].1) = some ns[i].2 :=
      child_member.2 (by rw [← hkey]; exact List.getElem?_eq_getElem hi')
    obtain ⟨hstep, hrest⟩ := hseen.step hm
    have hchild := h.child hstep hm hn
    exact Prod.ext hkey.symm (ih _ (List.getElem_mem hi) hchild hrest hchild.node_eq)

end Agree

end Json
