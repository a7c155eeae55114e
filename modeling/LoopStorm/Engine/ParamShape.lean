import LoopStorm.Engine.Telemetry
import LoopStorm.Shim.Canonical

/-!
# What a parameter shape tells apart

`compute_param_shape_hash` of `telemetry.rs` digests the name of a kind, or the
sorted keys of an object with newlines between them.

* `paramShapePayload` — the text that is digested.
* `shapeLines` — its lines: those of the keys, one key after the other.
* `paramShapePayload_spec` — **what shares a payload**: values with the same
  lines; where no key holds a newline, values of one shape, `{}` and `{"": _}`,
  and an object whose only key is the name of a kind and a value of that kind.
-/

namespace LoopStorm.Engine

open LoopStorm.Shim (Ts.keyLe Ts.lit)

/-- The kinds of a JSON value. -/
inductive Kind where
  | null
  | boolean
  | number
  | string
  | array
  | object
  deriving DecidableEq, Repr

/-- The name of a kind; objects are digested by their keys. -/
def Kind.tag : Kind → String
  | .null => "null"
  | .boolean => "boolean"
  | .number => "number"
  | .string => "string"
  | .array => "array"
  | .object => "object"

section Payload

variable {F : Type} [Float64 F]

/-- The kind of some arguments; absent ones count as null. -/
def kindOf : Option (Value F) → Kind
  | none => .null
  | some .null => .null
  | some (.bool _) => .boolean
  | some (.num _) => .number
  | some (.str _) => .string
  | some (.arr _) => .array
  | some (.obj _) => .object

/-- The top-level keys of an object. -/
def topKeys : Option (Value F) → List String
  | some (.obj map) => map.map (·.1)
  | _ => []

/-- The text whose digest is the shape hash. -/
def paramShapePayload (args : Option (Value F)) : String :=
  if kindOf args = .object then "\n".intercalate ((topKeys args).insertionSort (· ≤ ·))
  else (kindOf args).tag

theorem computeParamShapeHash_eq [Sha256] (args : Option (Value F)) :
    computeParamShapeHash args = sha256Hex (paramShapePayload args) := by
  rcases args with _ | (_ | _ | _ | _ | _ | _)
  all_goals rfl

/-- Two objects with the same keys, or two values of another kind. -/
structure SameShape (a b : Option (Value F)) : Prop where
  kind : kindOf a = kindOf b
  keys : ∀ k, k ∈ topKeys a ↔ k ∈ topKeys b

/-- An object without keys and one with the empty key; or an object whose only
key is the name of the other's kind. -/
def Collide (a b : Option (Value F)) : Prop :=
  kindOf a = .object ∧
    (kindOf b = .object ∧ topKeys a = [] ∧ topKeys b = [""] ∨
      kindOf b ≠ .object ∧ topKeys a = [(kindOf b).tag])

/-- No key of the object holds a newline. -/
def NoNewline (a : Option (Value F)) : Prop := ∀ k ∈ topKeys a, '\n' ∉ k.toList

/-! ## Lines -/

/-- The lines of some keys in order; no keys make one empty line. -/
def keyLines (keys : List String) : List (List Char) :=
  if keys = [] then [[]] else keys.flatMap fun k => k.toList.splitOn '\n'

/-- The lines of the payload. -/
def shapeLines (args : Option (Value F)) : List (List Char) :=
  if kindOf args = .object then keyLines ((topKeys args).insertionSort (· ≤ ·))
  else [(kindOf args).tag.toList]

theorem newline_notMem_tag (k : Kind) : '\n' ∉ k.tag.toList := by
  cases k <;> decide

theorem splitOn_intercalate_lines (keys : List String) :
    ("\n".intercalate keys).toList.splitOn '\n' = keyLines keys := by
  rw [String.toList_intercalate]
  induction keys with
  | nil => rfl
  | cons k keys ih =>
    cases keys with
    | nil =>
      rw [keyLines, if_neg (List.cons_ne_nil k []), List.flatMap_singleton, List.map_singleton,
        List.intercalate_singleton]
    | cons l keys =>
      rw [List.map_cons] at ih
      rw [List.map_cons, List.map_cons, List.intercalate_cons_cons, List.append_assoc]
      rw [keyLines, if_neg (List.cons_ne_nil l keys)] at ih
      rw [keyLines, if_neg (List.cons_ne_nil k (l :: keys)), List.flatMap_cons, ← ih]
      exact List.splitOn_append_cons_self ..

/-- The lines of the payload are the lines of the sorted keys. -/
theorem splitOn_paramShapePayload (args : Option (Value F)) :
    (paramShapePayload args).toList.splitOn '\n' = shapeLines args := by
  rw [paramShapePayload, shapeLines]
  split
  · exact splitOn_intercalate_lines _
  · exact List.splitOn_eq_singleton (newline_notMem_tag _)

/-- Payloads with the same lines are one. -/
theorem paramShapePayload_eq_iff_lines (a b : Option (Value F)) :
    paramShapePayload a = paramShapePayload b ↔ shapeLines a = shapeLines b := by
  rw [← splitOn_paramShapePayload, ← splitOn_paramShapePayload]
  constructor
  · intro h
    rw [h]
  · intro h
    have hjoin := congrArg (fun ls => ['\n'].intercalate ls) h
    simp only [List.intercalate_splitOn] at hjoin
    exact String.toList_inj.1 hjoin

/-- Keys without newlines are the lines. -/
theorem keyLines_eq_map {keys : List String} (hne : keys ≠ [])
    (h : ∀ k ∈ keys, '\n' ∉ k.toList) : keyLines keys = keys.map String.toList := by
  rw [keyLines, if_neg hne, List.map_eq_flatMap]
  exact List.flatMap_congr fun k hk => List.splitOn_eq_singleton (h k hk)

/-- Keys without newlines have lines of their own, but for the empty key. -/
theorem keyLines_eq_iff {ks ls : List String} (hks : ∀ k ∈ ks, '\n' ∉ k.toList)
    (hls : ∀ k ∈ ls, '\n' ∉ k.toList) :
    keyLines ks = keyLines ls ↔ ks = ls ∨ ks = [] ∧ ls = [""] ∨ ls = [] ∧ ks = [""] := by
  have hmap {l : List String} (h : [[]] = l.map String.toList) : l = [""] :=
    List.map_injective_iff.2 (fun _ _ => String.toList_inj.1) h.symm
  rcases eq_or_ne ks [] with rfl | hk
  · rcases eq_or_ne ls [] with rfl | hl
    · simp
    · rw [keyLines_eq_map hl hls]
      constructor
      · intro h
        exact Or.inr (Or.inl ⟨rfl, hmap h⟩)
      · rintro (rfl | ⟨-, rfl⟩ | ⟨rfl, -⟩)
        · exact absurd rfl hl
        · rfl
        · exact absurd rfl hl
  · rw [keyLines_eq_map hk hks]
    rcases eq_or_ne ls [] with rfl | hl
    · constructor
      · intro h
        exact Or.inr (Or.inr ⟨rfl, hmap h.symm⟩)
      · rintro (rfl | ⟨rfl, -⟩ | ⟨-, rfl⟩)
        · exact absurd rfl hk
        · exact absurd rfl hk
        · rfl
    · rw [keyLines_eq_map hl hls]
      constructor
      · intro h
        exact Or.inl (List.map_injective_iff.2 (fun _ _ => String.toList_inj.1) h)
      · rintro (rfl | ⟨rfl, -⟩ | ⟨rfl, -⟩)
        · rfl
        · exact absurd rfl hk
        · exact absurd rfl hl

/-- One line, not an empty one, is one key. -/
theorem keyLines_eq_singleton_iff {ks : List String} (hks : ∀ k ∈ ks, '\n' ∉ k.toList)
    {t : String} (ht : t ≠ "") (hline : '\n' ∉ t.toList) :
    keyLines ks = [t.toList] ↔ ks = [t] := by
  have hsingle : keyLines [t] = [t.toList] :=
    keyLines_eq_map (List.cons_ne_nil t []) fun k hk => List.mem_singleton.1 hk ▸ hline
  rw [← hsingle, keyLines_eq_iff hks fun k hk => List.mem_singleton.1 hk ▸ hline]
  constructor
  · rintro (h | ⟨-, h⟩ | ⟨h, -⟩)
    · exact h
    · exact absurd (List.singleton_inj.1 h) ht
    · exact absurd h (List.cons_ne_nil t [])
  · exact Or.inl

/-! ## Shapes -/

theorem insertionSort_eq_nil {ks : List String} : ks.insertionSort (· ≤ ·) = [] ↔ ks = [] := by
  rw [← List.length_eq_zero_iff, List.length_insertionSort, List.length_eq_zero_iff]

theorem insertionSort_eq_singleton {ks : List String} {k : String} :
    ks.insertionSort (· ≤ ·) = [k] ↔ ks = [k] := by
  constructor
  · intro h
    exact List.perm_singleton.1 (h ▸ List.perm_insertionSort (· ≤ ·) ks).symm
  · rintro rfl
    rfl

/-- Sorted, two objects have one list of keys when each key of one is in the
other. -/
theorem insertionSort_eq_iff {ks ls : List String} (hks : ks.Nodup) (hls : ls.Nodup) :
    ks.insertionSort (· ≤ ·) = ls.insertionSort (· ≤ ·) ↔ ∀ k, k ∈ ks ↔ k ∈ ls := by
  constructor
  · intro h k
    rw [← List.mem_insertionSort (· ≤ ·), h, List.mem_insertionSort]
  · intro h
    have hperm : ks.Perm ls := (List.perm_ext_iff_of_nodup hks hls).2 h
    refine List.Perm.eq_of_pairwise (fun a b _ _ => le_antisymm) (List.pairwise_insertionSort _ ks)
      (List.pairwise_insertionSort _ ls) ?_
    exact (List.perm_insertionSort _ ks).trans (hperm.trans (List.perm_insertionSort _ ls).symm)

theorem topKeys_of_kind {a : Option (Value F)} (h : kindOf a ≠ .object) : topKeys a = [] := by
  rcases a with _ | (_ | _ | _ | _ | _ | _)
  case some.obj ms => exact absurd rfl h
  all_goals rfl

theorem tag_injective : Function.Injective Kind.tag := by
  intro k l h
  cases k <;> cases l <;> first | rfl | exact absurd h (by decide)

theorem tag_ne_empty (k : Kind) : k.tag ≠ "" := by
  cases k <;> decide

/-- What an object shares its payload with, when no key holds a newline. -/
theorem shapeLines_eq_iff {a b : Option (Value F)} (ha : (topKeys a).Nodup)
    (hb : (topKeys b).Nodup) (hna : NoNewline a) (hnb : NoNewline b) :
    shapeLines a = shapeLines b ↔ SameShape a b ∨ Collide a b ∨ Collide b a := by
  have hsort {c : Option (Value F)} (hc : NoNewline c) :
      ∀ k ∈ (topKeys c).insertionSort (· ≤ ·), '\n' ∉ k.toList := by
    intro k hk
    exact hc k ((List.mem_insertionSort _).1 hk)
  have hshape : SameShape a b ↔ kindOf a = kindOf b ∧ ∀ k, k ∈ topKeys a ↔ k ∈ topKeys b :=
    ⟨fun h => ⟨h.kind, h.keys⟩, fun h => ⟨h.1, h.2⟩⟩
  rw [hshape, shapeLines, shapeLines, Collide, Collide]
  by_cases hka : kindOf a = .object
  · by_cases hkb : kindOf b = .object
    · rw [if_pos hka, if_pos hkb, keyLines_eq_iff (hsort hna) (hsort hnb),
        insertionSort_eq_iff ha hb, insertionSort_eq_nil, insertionSort_eq_nil,
        insertionSort_eq_singleton, insertionSort_eq_singleton]
      simp [hka, hkb]
    · rw [if_pos hka, if_neg hkb, keyLines_eq_singleton_iff (hsort hna) (tag_ne_empty _)
        (newline_notMem_tag _), insertionSort_eq_singleton]
      simp [hka, hkb, Ne.symm hkb]
  · by_cases hkb : kindOf b = .object
    · rw [if_neg hka, if_pos hkb, eq_comm, keyLines_eq_singleton_iff (hsort hnb) (tag_ne_empty _)
        (newline_notMem_tag _), insertionSort_eq_singleton]
      simp [hka, hkb]
    · rw [if_neg hka, if_neg hkb, List.singleton_inj, String.toList_inj, tag_injective.eq_iff,
        topKeys_of_kind hka, topKeys_of_kind hkb]
      simp [hka, hkb]

end Payload

/-! ## The two orders of the keys -/

/-- The order of UTF-8 bytes and that of UTF-16 code units agree on some keys. -/
def OrdersAgree (keys : List String) : Prop :=
  ∀ k ∈ keys, ∀ l ∈ keys, decide (k ≤ l) = Ts.keyLe k l

/-- Keys the two orders agree on are sorted alike. -/
theorem insertionSort_eq_mergeSort {keys : List String} (h : OrdersAgree keys) :
    keys.insertionSort (· ≤ ·) = keys.mergeSort Ts.keyLe := by
  have hsorted : (keys.mergeSort Ts.keyLe).Pairwise (· ≤ ·) := by
    refine (Shim.Ts.linear_keyLe.pairwise keys).imp_of_mem fun hk hl hle => ?_
    rw [(List.mergeSort_perm ..).mem_iff] at hk hl
    exact of_decide_eq_true ((h _ hk _ hl).trans hle)
  exact List.Perm.eq_of_pairwise (fun _ _ _ _ => le_antisymm) (List.pairwise_insertionSort _ keys)
    hsorted ((List.perm_insertionSort _ keys).trans (List.mergeSort_perm ..).symm)

/-- Up to U+FFFF a character is one code unit, and the orders are one. -/
theorem lt_flatMap_units {cs ds : List Char} (hcs : ∀ c ∈ cs, c.toNat < 0x10000)
    (hds : ∀ c ∈ ds, c.toNat < 0x10000) :
    cs < ds ↔ cs.flatMap Shim.Ts.units < ds.flatMap Shim.Ts.units := by
  have hunit {c : Char} (hc : c.toNat < 0x10000) : Shim.Ts.units c = [UInt16.ofNat c.toNat] :=
    if_pos hc
  induction cs generalizing ds with
  | nil =>
    cases ds with
    | nil => simp
    | cons d ds => simp [hunit (hds d (List.mem_cons_self ..))]
  | cons c cs ih =>
    cases ds with
    | nil => simp
    | cons d ds =>
      obtain ⟨hc, hcs⟩ := List.forall_mem_cons.1 hcs
      obtain ⟨hd, hds⟩ := List.forall_mem_cons.1 hds
      have hlt : c < d ↔ UInt16.ofNat c.toNat < UInt16.ofNat d.toNat := by
        rw [UInt16.lt_iff_toNat_lt, Shim.Ts.toNat_ofNat hc, Shim.Ts.toNat_ofNat hd]
        exact Iff.rfl
      have heq : c = d ↔ UInt16.ofNat c.toNat = UInt16.ofNat d.toNat := by
        rw [← UInt16.toNat_inj, Shim.Ts.toNat_ofNat hc, Shim.Ts.toNat_ofNat hd]
        exact Char.toNat_inj.symm
      have hrest : cs < ds ↔ cs.flatMap Shim.Ts.units < ds.flatMap Shim.Ts.units := ih hcs hds
      rw [List.flatMap_cons, List.flatMap_cons, hunit hc, hunit hd, List.singleton_append,
        List.singleton_append, List.cons_lt_cons_iff, List.cons_lt_cons_iff, hrest, hlt, heq]

theorem ordersAgree_of_bmp {keys : List String}
    (h : ∀ k ∈ keys, ∀ c ∈ k.toList, c.toNat < 0x10000) : OrdersAgree keys := by
  intro k hk l hl
  rw [Ts.keyLe, decide_eq_decide, String.le_iff_toList_le, ← not_lt, ← List.not_lt]
  exact not_congr (lt_flatMap_units (h l hl) (h k hk))

/-- **What shares a payload.**  Values share it when they have the same lines:
where no key holds a newline, when they have one shape, or are `{}` and
`{"": _}`, or an object whose only key is the name of a kind and a value of that
kind.  Where the two orders agree, as they do up to U+FFFF, the keys come in the
order of their UTF-16 code units. -/
theorem paramShapePayload_spec {F : Type} [Float64 F] (a b : Option (Value F))
    (ha : (topKeys a).Nodup) (hb : (topKeys b).Nodup) :
    (paramShapePayload a = paramShapePayload b ↔ shapeLines a = shapeLines b) ∧
      (NoNewline a → NoNewline b →
        (paramShapePayload a = paramShapePayload b ↔
          SameShape a b ∨ Collide a b ∨ Collide b a)) ∧
      (kindOf a = .object → OrdersAgree (topKeys a) →
        paramShapePayload a = "\n".intercalate ((topKeys a).mergeSort Ts.keyLe)) ∧
      ((∀ k ∈ topKeys a, ∀ c ∈ k.toList, c.toNat < 0x10000) → OrdersAgree (topKeys a)) := by
  refine ⟨paramShapePayload_eq_iff_lines a b, fun hna hnb => ?_, fun hkind halike => ?_,
    ordersAgree_of_bmp⟩
  · rw [paramShapePayload_eq_iff_lines]
    exact shapeLines_eq_iff ha hb hna hnb
  · rw [paramShapePayload, if_pos hkind, insertionSort_eq_mergeSort halike]

namespace Sample

/-- An object whose only key is the name of a kind. -/
def spellsNull : Option (Value ℚ) := some (.obj [("null", .bool true)])

theorem paramShapePayload_spellsNull :
    paramShapePayload spellsNull = paramShapePayload (some (.null : Value ℚ)) :=
  ((paramShapePayload_spec spellsNull (some .null) (by decide) (by decide)).2.1
    (by unfold NoNewline; decide) (by unfold NoNewline; decide)).2
    (Or.inr (Or.inl ⟨rfl, Or.inr ⟨by decide, rfl⟩⟩))

/-- It shares the payload of a value of that kind, which is no object. -/
theorem not_same_spellsNull :
    paramShapePayload spellsNull = paramShapePayload (some (.null : Value ℚ)) ∧
      ¬ SameShape spellsNull (some .null) := by
  refine ⟨by decide +kernel, fun h => ?_⟩
  have hkind := h.kind
  revert hkind
  decide

end Sample

end LoopStorm.Engine
