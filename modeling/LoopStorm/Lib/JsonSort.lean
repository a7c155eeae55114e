import LoopStorm.Lib.JsonParse

/-!
# Values with their members in order

What it takes for two orders of the keys to give a value one canonical text.

* `sortKeys` — the value with the members of every object sorted, at any depth.
* `SortsAlike` — the two orders agree on every two keys of one object, and so on
  inside.
* `sortKeys_eq_iff` — **one sorted value**: two linear orders sort a value alike
  exactly when they agree on the keys that meet in it.
* `render_injective` — a compact text is the text of one value only, so that
  the same goes for the texts.
-/

namespace Json

variable {σ τ ν μ : Type}

/-! ## Strings and numbers rewritten -/

mutual
/-- The same document with every string and key rewritten. -/
def mapStr (f : σ → τ) : Json σ ν → Json τ ν
  | .null => .null
  | .bool b => .bool b
  | .num n => .num n
  | .str s => .str (f s)
  | .arr xs => .arr (mapStrL f xs)
  | .obj ms => .obj (mapStrM f ms)

/-- `mapStr` over the elements of an array. -/
def mapStrL (f : σ → τ) : List (Json σ ν) → List (Json τ ν)
  | [] => []
  | x :: xs => mapStr f x :: mapStrL f xs

/-- `mapStr` over the members of an object. -/
def mapStrM (f : σ → τ) : List (σ × Json σ ν) → List (τ × Json τ ν)
  | [] => []
  | (k, v) :: ms => (f k, mapStr f v) :: mapStrM f ms
end

theorem mapNumL_eq_map (f : ν → μ) (xs : List (Json σ ν)) :
    mapNumL f xs = xs.map (mapNum f) := by
  induction xs with
  | nil => rfl
  | cons x xs ih => rw [mapNumL, ih, List.map_cons]

theorem mapNumM_eq_map (f : ν → μ) (ms : List (σ × Json σ ν)) :
    mapNumM f ms = ms.map fun m => (m.1, mapNum f m.2) := by
  induction ms with
  | nil => rfl
  | cons m ms ih =>
    obtain ⟨k, v⟩ := m
    rw [mapNumM, ih, List.map_cons]

theorem mapStrL_eq_map (f : σ → τ) (xs : List (Json σ ν)) :
    mapStrL f xs = xs.map (mapStr f) := by
  induction xs with
  | nil => rfl
  | cons x xs ih => rw [mapStrL, ih, List.map_cons]

theorem mapStrM_eq_map (f : σ → τ) (ms : List (σ × Json σ ν)) :
    mapStrM f ms = ms.map fun m => (f m.1, mapStr f m.2) := by
  induction ms with
  | nil => rfl
  | cons m ms ih =>
    obtain ⟨k, v⟩ := m
    rw [mapStrM, ih, List.map_cons]

/-- Lists with one image are one, where the elements of the first are told apart
by their images. -/
theorem eq_of_map_eq {α β : Type} {f : α → β} {xs ys : List α}
    (h : ∀ x ∈ xs, ∀ y, f x = f y → x = y) (hmap : xs.map f = ys.map f) : xs = ys := by
  induction xs generalizing ys with
  | nil => exact (List.map_eq_nil_iff.1 hmap.symm).symm
  | cons x xs ih =>
    cases ys with
    | nil => cases hmap
    | cons y ys =>
      obtain ⟨hhead, htail⟩ := List.cons.inj hmap
      rw [h x (List.mem_cons_self ..) y hhead,
        ih (fun z hz => h z (List.mem_cons_of_mem _ hz)) htail]

/-- Numbers rewritten one to one leave different documents different. -/
theorem mapNum_injective {f : ν → μ} (hf : Function.Injective f) :
    Function.Injective (mapNum f : Json σ ν → Json σ μ) := by
  intro v
  induction v using Json.induction with
  | null => intro w h; cases w <;> simp_all [mapNum]
  | bool b => intro w h; cases w <;> simp_all [mapNum]
  | num n =>
    intro w h
    cases w with
    | num m =>
      rw [mapNum, mapNum] at h
      rw [hf (num.inj h)]
    | _ => simp [mapNum] at h
  | str s => intro w h; cases w <;> simp_all [mapNum]
  | arr xs ih =>
    intro w h
    cases w with
    | arr ys =>
      rw [mapNum, mapNum, mapNumL_eq_map, mapNumL_eq_map] at h
      exact congrArg arr (eq_of_map_eq (fun x hx y hxy => ih x hx hxy) (arr.inj h))
    | _ => simp [mapNum] at h
  | obj ms ih =>
    intro w h
    cases w with
    | obj ns =>
      rw [mapNum, mapNum, mapNumM_eq_map, mapNumM_eq_map] at h
      refine congrArg obj (eq_of_map_eq (fun m hm n hmn => ?_) (obj.inj h))
      obtain ⟨hkey, hvalue⟩ := Prod.mk.inj hmn
      exact Prod.ext hkey (ih m hm hvalue)
    | _ => simp [mapNum] at h

/-- Strings rewritten one to one leave different documents different. -/
theorem mapStr_injective {f : σ → τ} (hf : Function.Injective f) :
    Function.Injective (mapStr f : Json σ ν → Json τ ν) := by
  intro v
  induction v using Json.induction with
  | null => intro w h; cases w <;> simp_all [mapStr]
  | bool b => intro w h; cases w <;> simp_all [mapStr]
  | num n => intro w h; cases w <;> simp_all [mapStr]
  | str s =>
    intro w h
    cases w with
    | str t =>
      rw [mapStr, mapStr] at h
      rw [hf (str.inj h)]
    | _ => simp [mapStr] at h
  | arr xs ih =>
    intro w h
    cases w with
    | arr ys =>
      rw [mapStr, mapStr, mapStrL_eq_map, mapStrL_eq_map] at h
      exact congrArg arr (eq_of_map_eq (fun x hx y hxy => ih x hx hxy) (arr.inj h))
    | _ => simp [mapStr] at h
  | obj ms ih =>
    intro w h
    cases w with
    | obj ns =>
      rw [mapStr, mapStr, mapStrM_eq_map, mapStrM_eq_map] at h
      refine congrArg obj (eq_of_map_eq (fun m hm n hmn => ?_) (obj.inj h))
      obtain ⟨hkey, hvalue⟩ := Prod.mk.inj hmn
      exact Prod.ext (hf hkey) (ih m hm hvalue)
    | _ => simp [mapStr] at h

/-- The text of a document with every string rewritten. -/
theorem render_mapStr (f : σ → τ) (qt : τ → List Char) (nt : ν → List Char) (v : Json σ ν) :
    render qt nt (mapStr f v) = render (fun s => qt (f s)) nt v := by
  induction v using Json.induction with
  | null => rfl
  | bool b => cases b <;> rfl
  | num n => rfl
  | str s => rfl
  | arr xs ih =>
    rw [mapStr, render, render, renderL_eq_map, renderL_eq_map, mapStrL_eq_map, List.map_map]
    exact congrArg (fun ts => '[' :: (joinComma ts ++ [']'])) (List.map_congr_left ih)
  | obj ms ih =>
    rw [mapStr, render, render, renderM_eq_map, renderM_eq_map, mapStrM_eq_map, List.map_map]
    refine congrArg (fun ts => '{' :: (joinComma ts ++ ['}'])) (List.map_congr_left fun m hm => ?_)
    rw [Function.comp_apply, ih m hm]

/-- **A compact text is the text of one value.** -/
theorem render_injective {nt : ν → List Char} (hnt : ∀ n, IsNumber (nt n))
    (hinj : Function.Injective nt) : Function.Injective (render quote nt) := by
  intro v w h
  have hparse := parse_render nt hnt v
  rw [h, parse_render nt hnt w] at hparse
  exact mapNum_injective hinj (Option.some.inj hparse).symm

theorem intText_injective : Function.Injective intText := by
  have hdash : ∀ n cs, natText n ≠ '-' :: cs := by
    intro n cs h
    have hdigit : '-'.isDigit = true := isDigit_natText (n := n) (h ▸ List.mem_cons_self ..)
    cases hdigit
  intro m n h
  unfold intText at h
  split at h
  case isTrue hm =>
    split at h
    case isTrue hn =>
      have habs := natText_injective (List.cons.inj h).2
      omega
    case isFalse => exact absurd h.symm (hdash _ _)
  case isFalse hm =>
    split at h
    case isTrue => exact absurd h (hdash _ _)
    case isFalse hn =>
      have habs := natText_injective h
      omega

/-! ## Sorting -/

/-- Two orders that agree on the elements of a list sort it alike. -/
theorem mergeSort_congr {α : Type} {le le' : α → α → Bool} {l : List α}
    (h : ∀ a ∈ l, ∀ b ∈ l, le a b = le' a b) : l.mergeSort le = l.mergeSort le' := by
  have hmap := List.map_mergeSort (f := id) h
  rwa [List.map_id, List.map_id] at hmap

/-- A linear order, as a comparison that computes. -/
structure Linear (le : σ → σ → Bool) : Prop where
  trans : ∀ a b c, le a b = true → le b c = true → le a c = true
  total : ∀ a b, le a b = true ∨ le b a = true
  antisymm : ∀ a b, le a b = true → le b a = true → a = b

theorem Linear.refl {le : σ → σ → Bool} (h : Linear le) (a : σ) : le a a = true := by
  rcases h.total a a with hrefl | hrefl
  · exact hrefl
  · exact hrefl

theorem Linear.pairwise {le : σ → σ → Bool} (h : Linear le) (l : List σ) :
    (l.mergeSort le).Pairwise fun a b => le a b = true :=
  List.pairwise_mergeSort h.trans (fun a b => by simpa using h.total a b) l

/-- Of two elements in order, only the one comparison holds. -/
theorem Linear.flip_eq {le : σ → σ → Bool} (h : Linear le) {a b : σ} (hne : a ≠ b)
    (hle : le a b = true) : le b a = false := by
  rw [Bool.eq_false_iff]
  intro hflip
  exact hne (h.antisymm a b hle hflip)

/-- Linear orders that sort a list alike agree on its elements. -/
theorem Linear.agree {le le' : σ → σ → Bool} (h : Linear le) (h' : Linear le') {l : List σ}
    (heq : l.mergeSort le = l.mergeSort le') : ∀ a ∈ l, ∀ b ∈ l, le a b = le' a b := by
  let R (a b : σ) : Prop := a ≠ b → le a b = le' a b ∧ le b a = le' b a
  have hsymm : Std.Symm R := ⟨fun a b hab hne => (hab hne.symm).symm⟩
  have hpair : (l.mergeSort le').Pairwise R := by
    have hboth := (heq ▸ h.pairwise l).and (h'.pairwise l)
    refine hboth.imp fun {a b} hle hne => ?_
    rw [hle.1, hle.2, h.flip_eq hne hle.1, h'.flip_eq hne hle.2]
    exact ⟨rfl, rfl⟩
  intro a ha b hb
  have hmem (x : σ) : x ∈ l.mergeSort le' ↔ x ∈ l := (List.mergeSort_perm l le').mem_iff
  rcases eq_or_ne a b with rfl | hne
  · rw [h.refl, h'.refl]
  · exact (hpair.forall ((hmem a).2 ha) ((hmem b).2 hb) hne hne).1

section SortKeys

variable (le : σ → σ → Bool)

/-- Members sorted by their keys. -/
def sortMembers {β : Type} (ms : List (σ × β)) : List (σ × β) :=
  ms.mergeSort fun m n => le m.1 n.1

theorem map_sortMembers {β γ : Type} (f : σ × β → σ × γ) (hf : ∀ m, (f m).1 = m.1)
    (ms : List (σ × β)) : (sortMembers le ms).map f = sortMembers le (ms.map f) :=
  List.map_mergeSort fun m _ n _ => by rw [hf m, hf n]

theorem map_fst_sortMembers {β : Type} (ms : List (σ × β)) :
    (sortMembers le ms).map Prod.fst = (ms.map Prod.fst).mergeSort le :=
  List.map_mergeSort fun _ _ _ _ => rfl

mutual
/-- The value with the members of every object sorted. -/
def sortKeys : Json σ ν → Json σ ν
  | .null => .null
  | .bool b => .bool b
  | .num n => .num n
  | .str s => .str s
  | .arr xs => .arr (sortKeysL xs)
  | .obj ms => .obj (sortMembers le (sortKeysM ms))

/-- `sortKeys` over the elements of an array. -/
def sortKeysL : List (Json σ ν) → List (Json σ ν)
  | [] => []
  | x :: xs => sortKeys x :: sortKeysL xs

/-- `sortKeys` over the values of an object. -/
def sortKeysM : List (σ × Json σ ν) → List (σ × Json σ ν)
  | [] => []
  | (k, v) :: ms => (k, sortKeys v) :: sortKeysM ms
end

theorem sortKeysL_eq_map (xs : List (Json σ ν)) : sortKeysL le xs = xs.map (sortKeys le) := by
  induction xs with
  | nil => rfl
  | cons x xs ih => rw [sortKeysL, ih, List.map_cons]

theorem sortKeysM_eq_map (ms : List (σ × Json σ ν)) :
    sortKeysM le ms = ms.map fun m => (m.1, sortKeys le m.2) := by
  induction ms with
  | nil => rfl
  | cons m ms ih =>
    obtain ⟨k, v⟩ := m
    rw [sortKeysM, ih, List.map_cons]

end SortKeys

/-- Two orders agree on every two keys of an object, for every object in a
value. -/
inductive SortsAlike (le le' : σ → σ → Bool) : Json σ ν → Prop
  | null : SortsAlike le le' .null
  | bool (b : Bool) : SortsAlike le le' (.bool b)
  | num (n : ν) : SortsAlike le le' (.num n)
  | str (s : σ) : SortsAlike le le' (.str s)
  | arr (xs : List (Json σ ν)) (h : ∀ x ∈ xs, SortsAlike le le' x) : SortsAlike le le' (.arr xs)
  | obj (ms : List (σ × Json σ ν))
    (hkeys : ∀ k ∈ ms.map Prod.fst, ∀ l ∈ ms.map Prod.fst, le k l = le' k l)
    (h : ∀ m ∈ ms, SortsAlike le le' m.2) : SortsAlike le le' (.obj ms)

/-- Orders that sort the keys of an object alike sort its members alike. -/
theorem sortMembers_congr {le le' : σ → σ → Bool} {β : Type} {ms : List (σ × β)}
    (h : ∀ k ∈ ms.map Prod.fst, ∀ l ∈ ms.map Prod.fst, le k l = le' k l) :
    sortMembers le ms = sortMembers le' ms :=
  mergeSort_congr fun m hm n hn =>
    h m.1 (List.mem_map_of_mem hm) n.1 (List.mem_map_of_mem hn)

theorem map_fst_sortKeysM (le : σ → σ → Bool) (ms : List (σ × Json σ ν)) :
    (sortKeysM le ms).map Prod.fst = ms.map Prod.fst := by
  rw [sortKeysM_eq_map, List.map_map]
  rfl

/-- Sorting the members and sorting inside them go in either order. -/
theorem sortMembers_sortKeysM (le le' : σ → σ → Bool) (ms : List (σ × Json σ ν)) :
    sortMembers le' (sortKeysM le ms) =
      (sortMembers le' ms).map fun m => (m.1, sortKeys le m.2) := by
  rw [sortKeysM_eq_map]
  exact (map_sortMembers le' (fun m => (m.1, sortKeys le m.2)) (fun _ => rfl) ms).symm

/-- Sorted lists of members are one when the orders agree on the keys and each
value is sorted alike. -/
theorem sortMembers_eq_iff {le le' : σ → σ → Bool} (h : Linear le) (h' : Linear le')
    {ms : List (σ × Json σ ν)} :
    sortMembers le (sortKeysM le ms) = sortMembers le' (sortKeysM le' ms) ↔
      (∀ k ∈ ms.map Prod.fst, ∀ l ∈ ms.map Prod.fst, le k l = le' k l) ∧
        ∀ m ∈ ms, sortKeys le m.2 = sortKeys le' m.2 := by
  constructor
  · intro heq
    have hfst := congrArg (List.map Prod.fst) heq
    rw [map_fst_sortMembers, map_fst_sortMembers, map_fst_sortKeysM, map_fst_sortKeysM] at hfst
    have hkeys := h.agree h' hfst
    refine ⟨hkeys, fun m hm => ?_⟩
    rw [sortMembers_congr (by rwa [map_fst_sortKeysM]), sortMembers_sortKeysM,
      sortMembers_sortKeysM] at heq
    have hmem : m ∈ sortMembers le' ms := (List.mergeSort_perm ms _).mem_iff.2 hm
    exact (Prod.mk.inj (List.map_inj_left.1 heq m hmem)).2
  · rintro ⟨hkeys, hvalues⟩
    have hvalue : sortKeysM le ms = sortKeysM le' ms := by
      rw [sortKeysM_eq_map, sortKeysM_eq_map]
      exact List.map_congr_left fun m hm => by rw [hvalues m hm]
    rw [hvalue]
    exact sortMembers_congr (by rwa [map_fst_sortKeysM])

/-- **One sorted value.**  Two linear orders sort a value alike exactly when
they agree on every two keys of one object. -/
theorem sortKeys_eq_iff {le le' : σ → σ → Bool} (h : Linear le) (h' : Linear le')
    (v : Json σ ν) : sortKeys le v = sortKeys le' v ↔ SortsAlike le le' v := by
  induction v using Json.induction with
  | null => exact ⟨fun _ => .null, fun _ => rfl⟩
  | bool b => exact ⟨fun _ => .bool b, fun _ => rfl⟩
  | num n => exact ⟨fun _ => .num n, fun _ => rfl⟩
  | str s => exact ⟨fun _ => .str s, fun _ => rfl⟩
  | arr xs ih =>
    rw [sortKeys, sortKeys, sortKeysL_eq_map, sortKeysL_eq_map, arr.injEq, List.map_inj_left]
    constructor
    · intro heq
      exact .arr xs fun x hx => (ih x hx).1 (heq x hx)
    · rintro (_ | _ | _ | _ | ⟨_, hxs⟩)
      exact fun x hx => (ih x hx).2 (hxs x hx)
  | obj ms ih =>
    rw [sortKeys, sortKeys, obj.injEq, sortMembers_eq_iff h h']
    constructor
    · rintro ⟨hkeys, hvalues⟩
      exact .obj ms hkeys fun m hm => (ih m hm).1 (hvalues m hm)
    · rintro (_ | _ | _ | _ | _ | ⟨_, hkeys, hms⟩)
      exact ⟨hkeys, fun m hm => (ih m hm).2 (hms m hm)⟩

/-- The text of a sorted value does not depend on how the strings and numbers it
is made from are held, as long as they are written and compared alike. -/
theorem render_sortKeys_map {f : σ → τ} {g : ν → μ} {qt : σ → List Char} {qt' : τ → List Char}
    {nt : ν → List Char} {nt' : μ → List Char} {le : σ → σ → Bool} {le' : τ → τ → Bool}
    (hq : ∀ s, qt' (f s) = qt s) (hn : ∀ n, nt' (g n) = nt n)
    (hle : ∀ k l, le' (f k) (f l) = le k l) (v : Json σ ν) :
    render qt' nt' (sortKeys le' (mapStr f (mapNum g v))) = render qt nt (sortKeys le v) := by
  induction v using Json.induction with
  | null => rfl
  | bool b => cases b <;> rfl
  | num n => exact hn n
  | str s => exact hq s
  | arr xs ih =>
    rw [mapNum, mapStr, sortKeys, sortKeys, render, render, renderL_eq_map, renderL_eq_map,
      mapNumL_eq_map, mapStrL_eq_map, sortKeysL_eq_map, sortKeysL_eq_map]
    simp only [List.map_map]
    exact congrArg (fun ts => '[' :: (joinComma ts ++ [']'])) (List.map_congr_left ih)
  | obj ms ih =>
    rw [mapNum, mapStr, sortKeys, sortKeys, render, render, renderM_eq_map, renderM_eq_map,
      mapNumM_eq_map, mapStrM_eq_map, sortMembers_sortKeysM, sortMembers_sortKeysM, List.map_map]
    have hsorted : sortMembers le' (ms.map fun m => (f m.1, mapStr f (mapNum g m.2))) =
        (sortMembers le ms).map fun m => (f m.1, mapStr f (mapNum g m.2)) :=
      (List.map_mergeSort fun m _ n _ => (hle m.1 n.1).symm).symm
    have hmap : (ms.map fun m => (m.1, mapNum g m.2)).map (fun m => (f m.1, mapStr f m.2)) =
        ms.map fun m => (f m.1, mapStr f (mapNum g m.2)) := by
      rw [List.map_map]
      rfl
    refine congrArg (fun ts => '{' :: (joinComma ts ++ ['}'])) ?_
    rw [hmap, hsorted, List.map_map, List.map_map]
    refine List.map_congr_left fun m hm => ?_
    have hmem : m ∈ ms := (List.mergeSort_perm ms _).mem_iff.1 hm
    simp only [Function.comp_apply, hq, ih m hmem]

end Json
