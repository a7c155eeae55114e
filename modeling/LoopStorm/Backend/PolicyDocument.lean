import LoopStorm.Backend.Policies
import LoopStorm.Engine.Loader

/-!
# A content as a document

A content of a policy pack written out, and what the loader of an engine reads
in it, value by value and field by field.

* `JsonNumber`, `document` — the numbers of a content by value, and the document
  it is written as; `ReadsJson` says what `serde_yaml` makes of its scalars.
* `u64_document` and its companions — which values a scalar type takes.
* `field_entries` and its companions — the fields of a struct, read from an
  object that has each key once.
-/

namespace LoopStorm.Backend

open LoopStorm.Engine (Yaml Plain SerdeYaml)
open LoopStorm.Shim (NumberText)

/-! ## Documents -/

/-- The numbers of a JSON document, with their values. -/
class JsonNumber (ν : Type) extends JsNumber ν where
  value : ν → ℚ
  isOne_iff : ∀ n : ν, isOne n = true ↔ value n = 1
  isPositive_iff : ∀ n : ν, isPositive n = true ↔ 0 < value n
  isNumber_text : ∀ n : ν, Json.IsNumber (text n)

variable {ν : Type}

section Document

variable [NumberText ν]

mutual
/-- A JSON value as a YAML document: strings are quoted, all else is plain. -/
def document : Json String ν → Yaml
  | .null => .scalar true "null"
  | .bool b => .scalar true (if b then "true" else "false")
  | .num n => .scalar true (String.ofList (NumberText.text n))
  | .str s => .scalar false s
  | .arr xs => .seq (documents xs)
  | .obj ms => .map (entries ms)

/-- `document` over the elements of an array. -/
def documents : List (Json String ν) → List Yaml
  | [] => []
  | x :: xs => document x :: documents xs

/-- `document` over the members of an object. -/
def entries : List (String × Json String ν) → List (String × Yaml)
  | [] => []
  | (k, v) :: ms => (k, document v) :: entries ms
end

theorem documents_eq_map (xs : List (Json String ν)) : documents xs = xs.map document := by
  induction xs with
  | nil => rfl
  | cons x xs ih => rw [documents, ih, List.map_cons]

/-- The text of a scalar, whatever it stands for. -/
def scalarText : Json String ν → Option String
  | .null => some "null"
  | .bool b => some (if b then "true" else "false")
  | .num n => some (String.ofList (NumberText.text n))
  | .str s => some s
  | .arr _ | .obj _ => none

theorem string_document (v : Json String ν) : (document v).string = scalarText v := by
  cases v with
  | null | bool | num | str => rw [document]; rfl
  | arr xs => rw [document]; rfl
  | obj ms => rw [document]; rfl

end Document

mutual
/-- The numbers in a value. -/
def numbers : Json String ν → List ν
  | .null | .bool _ | .str _ => []
  | .num n => [n]
  | .arr xs => numbersL xs
  | .obj ms => numbersM ms

/-- The numbers in the elements of an array. -/
def numbersL : List (Json String ν) → List ν
  | [] => []
  | x :: xs => numbers x ++ numbersL xs

/-- The numbers in the members of an object. -/
def numbersM : List (String × Json String ν) → List ν
  | [] => []
  | (_, v) :: ms => numbers v ++ numbersM ms
end

mutual
/-- Each object has each key once, as an object of JavaScript does. -/
def HasDistinctKeys : Json String ν → Prop
  | .null | .bool _ | .num _ | .str _ => True
  | .arr xs => HaveDistinctKeys xs
  | .obj ms => (ms.map Prod.fst).Nodup ∧ MembersHaveDistinctKeys ms

/-- `HasDistinctKeys` over the elements of an array. -/
def HaveDistinctKeys : List (Json String ν) → Prop
  | [] => True
  | x :: xs => HasDistinctKeys x ∧ HaveDistinctKeys xs

/-- `HasDistinctKeys` over the members of an object. -/
def MembersHaveDistinctKeys : List (String × Json String ν) → Prop
  | [] => True
  | (_, v) :: ms => HasDistinctKeys v ∧ MembersHaveDistinctKeys ms
end

theorem haveDistinctKeys_iff {xs : List (Json String ν)} :
    HaveDistinctKeys xs ↔ ∀ x ∈ xs, HasDistinctKeys x := by
  induction xs with
  | nil => simp [HaveDistinctKeys]
  | cons x xs ih => rw [HaveDistinctKeys, ih, List.forall_mem_cons]

/-! ## Numbers -/

/-- A natural number below `2 ^ 64`. -/
def Fits64 (q : ℚ) : Prop := ∃ k : Nat, k < 2 ^ 64 ∧ q = k

/-- An integer between `-2 ^ 63` and `2 ^ 63 - 1`. -/
def FitsSigned64 (q : ℚ) : Prop := ∃ k : Int, -2 ^ 63 ≤ k ∧ k < 2 ^ 63 ∧ q = k

/-- An integer in digits that neither has room for: JavaScript writes one from
`10 ^ 21` on with an exponent. -/
def IsWide (q : ℚ) : Prop :=
  ∃ k : Int, (k < -2 ^ 63 ∨ 2 ^ 64 ≤ k) ∧ k.natAbs < 10 ^ 21 ∧ q = k

/-- What `serde_yaml` makes of the plain scalars of a JSON text. -/
class ReadsJson (F ν : Type) [SerdeYaml F] [JsonNumber ν] : Prop where
  null : (SerdeYaml.resolve "null" : Plain F) = .null
  bool : ∀ b, (SerdeYaml.resolve (if b then "true" else "false") : Plain F) = .bool b
  /-- a number is a number -/
  number : ∀ n : ν, (∃ k, (SerdeYaml.resolve (String.ofList (NumberText.text n)) : Plain F) =
      .unsigned k ∧ JsonNumber.value n = k.toNat) ∨
    (∃ k, (SerdeYaml.resolve (String.ofList (NumberText.text n)) : Plain F) = .negative k ∧
      JsonNumber.value n = k.toInt ∧ k.toInt < 0) ∨
    (∃ x, (SerdeYaml.resolve (String.ofList (NumberText.text n)) : Plain F) = .wide x ∧
      IsWide (JsonNumber.value n)) ∨
    (∃ x, (SerdeYaml.resolve (String.ofList (NumberText.text n)) : Plain F) = .float x ∧
      ¬ Fits64 (JsonNumber.value n) ∧ ¬ FitsSigned64 (JsonNumber.value n) ∧
      ¬ IsWide (JsonNumber.value n))
  float : ∀ n : ν, (SerdeYaml.float (String.ofList (NumberText.text n)) : Option F).isSome = true

/-! ## Scalars -/

/-- A value that is written as one scalar. -/
def IsScalar (v : Json String ν) : Prop :=
  match v with
  | .arr _ | .obj _ => False
  | _ => True

def IsBool (v : Json String ν) : Prop := ∃ b, v = .bool b

section Numbers

variable [JsonNumber ν]

def IsWhole (v : Json String ν) : Prop := ∃ n, v = .num n ∧ Fits64 (JsonNumber.value n)

def IsSigned (v : Json String ν) : Prop := ∃ n, v = .num n ∧ FitsSigned64 (JsonNumber.value n)

def IsNarrow (v : Json String ν) : Prop := ∀ n ∈ numbers v, ¬ IsWide (JsonNumber.value n)

end Numbers

theorem scalarText_isSome [NumberText ν] {v : Json String ν} :
    (scalarText v).isSome = true ↔ IsScalar v := by
  cases v <;> simp [scalarText, IsScalar]

theorem fits64_toNat (k : UInt64) : Fits64 (k.toNat : ℚ) := ⟨k.toNat, k.toNat_lt, rfl⟩

theorem not_isWide_toNat (k : UInt64) : ¬ IsWide (k.toNat : ℚ) := by
  rintro ⟨i, hi, -, heq⟩
  have hik : (k.toNat : ℤ) = i := by exact_mod_cast heq
  have hlt := k.toNat_lt
  omega

theorem not_isWide_toInt {k : Int64} (hk : k.toInt < 0) : ¬ IsWide (k.toInt : ℚ) := by
  rintro ⟨i, hi, -, heq⟩
  have hik : k.toInt = i := by exact_mod_cast heq
  have hle := Int64.le_toInt k
  omega

theorem not_fits64_of_neg {k : Int64} (hk : k.toInt < 0) : ¬ Fits64 (k.toInt : ℚ) := by
  rintro ⟨i, -, heq⟩
  have hik : k.toInt = (i : ℤ) := by exact_mod_cast heq
  omega

theorem not_fits64_of_isWide {q : ℚ} (h : IsWide q) : ¬ Fits64 q := by
  obtain ⟨i, hi, -, rfl⟩ := h
  rintro ⟨k, hk, heq⟩
  have hik : i = (k : ℤ) := by exact_mod_cast heq
  omega

theorem not_fitsSigned64_of_isWide {q : ℚ} (h : IsWide q) : ¬ FitsSigned64 q := by
  obtain ⟨i, hi, -, rfl⟩ := h
  rintro ⟨k, hlow, hhigh, heq⟩
  have hik : i = k := by exact_mod_cast heq
  omega

section Read

variable {F : Type} [SerdeYaml F] [JsonNumber ν] [ReadsJson F ν]

/-- What a plain scalar of a document stands for, unless it is a number. -/
theorem plain_document (v : Json String ν) (hv : ∀ n, v ≠ .num n) :
    (document v).plain F =
      match v with
      | .null => some .null
      | .bool b => some (.bool b)
      | _ => none := by
  cases v with
  | null => exact congrArg some (ReadsJson.null (ν := ν))
  | bool b => exact congrArg some (ReadsJson.bool (ν := ν) b)
  | num n => exact absurd rfl (hv n)
  | str s => rfl
  | arr xs => rfl
  | obj ms => rfl

omit [ReadsJson F ν] in
theorem plain_num (n : ν) : (document (.num n)).plain F =
    some (SerdeYaml.resolve (String.ofList (NumberText.text n))) := rfl

theorem isNull_document (v : Json String ν) : (document v).isNull F = true ↔ v = .null := by
  unfold Yaml.isNull
  cases v with
  | num n =>
    rw [plain_num]
    rcases ReadsJson.number (F := F) n with ⟨k, hk, -⟩ | ⟨k, hk, -⟩ | ⟨x, hx, -⟩ | ⟨x, hx, -⟩ <;>
      simp [*]
  | null | bool | str | arr | obj => rw [plain_document _ (by simp)]; simp

theorem bool_document (v : Json String ν) : ((document v).bool F).isSome = true ↔ IsBool v := by
  unfold Yaml.bool IsBool
  cases v with
  | num n =>
    rw [plain_num]
    rcases ReadsJson.number (F := F) n with ⟨k, hk, -⟩ | ⟨k, hk, -⟩ | ⟨x, hx, -⟩ | ⟨x, hx, -⟩ <;>
      simp [*]
  | null | bool | str | arr | obj => rw [plain_document _ (by simp)]; simp

theorem u64_document (v : Json String ν) : ((document v).u64 F).isSome = true ↔ IsWhole v := by
  unfold Yaml.u64 IsWhole
  cases v with
  | num n =>
    rw [plain_num]
    rcases ReadsJson.number (F := F) n with ⟨k, hk, hv⟩ | ⟨k, hk, hv, hneg⟩ | ⟨x, hx, hv⟩ |
      ⟨x, hx, hv, -⟩
    · simpa [hk, hv] using fits64_toNat k
    · simpa [hk, hv] using not_fits64_of_neg hneg
    · simpa [hx] using not_fits64_of_isWide hv
    · simpa [hx] using hv
  | null | bool | str | arr | obj => rw [plain_document _ (by simp)]; simp

theorem i64_document (v : Json String ν) : ((document v).i64 F).isSome = true ↔ IsSigned v := by
  unfold Yaml.i64 IsSigned
  cases v with
  | num n =>
    rw [plain_num]
    rcases ReadsJson.number (F := F) n with ⟨k, hk, hv⟩ | ⟨k, hk, hv, hneg⟩ | ⟨x, hx, hv⟩ |
      ⟨x, hx, -, hv, -⟩
    · have hfits : k.toNat < 2 ^ 63 ↔ FitsSigned64 (k.toNat : ℚ) := by
        constructor
        · intro h
          exact ⟨k.toNat, by omega, by omega, by push_cast; rfl⟩
        · rintro ⟨i, -, hi, heq⟩
          have hik : (k.toNat : ℤ) = i := by exact_mod_cast heq
          omega
      simp only [hk]
      split_ifs with h
      · simpa [hv] using hfits.1 h
      · simpa [hv] using fun h' => h (hfits.2 h')
    · simp only [hk]
      simpa [hv] using ⟨k.toInt, Int64.le_toInt k, Int64.toInt_lt k, rfl⟩
    · simpa [hx] using not_fitsSigned64_of_isWide hv
    · simpa [hx] using hv
  | null | bool | str | arr | obj => rw [plain_document _ (by simp)]; simp

theorem f64_document {v : Json String ν} (h : ∃ n, v = .num n) :
    ((document v).f64 F).isSome = true := by
  obtain ⟨n, rfl⟩ := h
  exact ReadsJson.float n

theorem isNarrow_num (n : ν) :
    (document (.num n)).isNarrow F = true ↔ ¬ IsWide (JsonNumber.value n) := by
  rw [document, Yaml.isNarrow]
  rcases ReadsJson.number (F := F) n with ⟨k, hk, hv⟩ | ⟨k, hk, hv, hneg⟩ | ⟨x, hx, hv⟩ |
    ⟨x, hx, -, -, hv⟩
  · simpa [hk, hv] using not_isWide_toNat k
  · simpa [hk, hv] using not_isWide_toInt hneg
  · simpa [hx] using hv
  · simpa [hx] using hv

theorem isNarrow_document (v : Json String ν) : (document v).isNarrow F = true ↔ IsNarrow v := by
  unfold IsNarrow
  induction v using Json.induction with
  | null => simp [document, Yaml.isNarrow, numbers, ReadsJson.null (F := F) (ν := ν)]
  | bool b => simp [document, Yaml.isNarrow, numbers, ReadsJson.bool (F := F) (ν := ν)]
  | num n => rw [isNarrow_num, numbers, List.forall_mem_singleton]
  | str s => simp [document, Yaml.isNarrow, numbers]
  | arr xs ih =>
    rw [document, Yaml.isNarrow, numbers]
    induction xs with
    | nil => simp [documents, Yaml.areNarrow, numbersL]
    | cons x xs ihxs =>
      rw [documents, Yaml.areNarrow, Bool.and_eq_true, ih x (List.mem_cons_self ..),
        ihxs fun y hy => ih y (List.mem_cons_of_mem _ hy), numbersL, List.forall_mem_append]
  | obj ms ih =>
    rw [document, Yaml.isNarrow, numbers]
    induction ms with
    | nil => simp [entries, Yaml.haveNarrow, numbersM]
    | cons m ms ihms =>
      obtain ⟨k, v⟩ := m
      rw [entries, Yaml.haveNarrow, Bool.and_eq_true, ih (k, v) (List.mem_cons_self ..),
        ihms fun y hy => ih y (List.mem_cons_of_mem _ hy), numbersM, List.forall_mem_append]

end Read

/-! ## Fields -/

/-- A field that has to be there. -/
def Given (key : String) (P : Json String ν → Prop) (ms : List (String × Json String ν)) : Prop :=
  ∃ v, Json.lookup key ms = some v ∧ P v

/-- A field that may be left out. -/
def Allowed (key : String) (P : Json String ν → Prop) (ms : List (String × Json String ν)) :
    Prop :=
  ∀ v, Json.lookup key ms = some v → P v

/-- A value that may be `null`. -/
def Nullable (P : Json String ν → Prop) (v : Json String ν) : Prop := v = .null ∨ P v

/-- An array of such values. -/
def Items (P : Json String ν → Prop) (v : Json String ν) : Prop :=
  ∃ xs, v = .arr xs ∧ ∀ x ∈ xs, P x

/-- An object with such members. -/
def Members (P : List (String × Json String ν) → Prop) (v : Json String ν) : Prop :=
  ∃ ms, v = .obj ms ∧ P ms

theorem hasDistinctKeys_of_lookup {key : String} {ms : List (String × Json String ν)}
    {v : Json String ν} (h : MembersHaveDistinctKeys ms) (hv : Json.lookup key ms = some v) :
    HasDistinctKeys v := by
  induction ms with
  | nil => cases hv
  | cons m ms ih =>
    obtain ⟨k, w⟩ := m
    rw [Json.lookup, Option.or_eq_some_iff] at hv
    rcases hv with hv | ⟨-, hv⟩
    · exact ih h.2 hv
    · split_ifs at hv
      cases hv
      exact h.1

section Fields

variable [NumberText ν] {ms : List (String × Json String ν)}

/-- An object that has each key once has each field once. -/
theorem field_entries (h : (ms.map Prod.fst).Nodup) (key : String) :
    Engine.field key (entries ms) = some ((Json.lookup key ms).map document) := by
  have hfilter : (entries ms).filter (fun m => m.1 = key) =
      ((Json.lookup key ms).map fun v => (key, document v)).toList := by
    induction ms with
    | nil => rfl
    | cons m ms ih =>
      obtain ⟨k, v⟩ := m
      rw [List.map_cons, List.nodup_cons] at h
      rw [entries, Json.lookup, List.filter_cons]
      by_cases hk : k = key
      · have hnone : Json.lookup key ms = none := by
          apply Json.lookup_eq_none
          intro m hm heq
          rw [hk, ← heq] at h
          exact h.1 (List.mem_map.2 ⟨m, hm, rfl⟩)
        simp [ih h.2, hnone, hk]
      · simp [ih h.2, hk]
  unfold Engine.field
  rw [hfilter]
  cases Json.lookup key ms with
  | none => rfl
  | some v => rfl

variable {α : Type} {de : Yaml → Option α}

theorem requiredField_entries (h : (ms.map Prod.fst).Nodup) (key : String) :
    (Engine.requiredField key de (entries ms)).isSome = true ↔
      Given key (fun v => (de (document v)).isSome = true) ms := by
  rw [Engine.requiredField, field_entries h, Given]
  cases Json.lookup key ms with
  | none => simp
  | some v => simp

theorem defaultedField_entries (h : (ms.map Prod.fst).Nodup) (key : String) (default : α) :
    (Engine.defaultedField key de default (entries ms)).isSome = true ↔
      Allowed key (fun v => (de (document v)).isSome = true) ms := by
  rw [Engine.defaultedField, field_entries h, Allowed]
  cases Json.lookup key ms with
  | none => simp
  | some v => simp

end Fields

/-- A struct is read if each of its fields is. -/
theorem isSome_bind_iff {α β : Type} {x : Option α} {f : α → Option β} {P : Prop}
    (hf : ∀ a, x = some a → ((f a).isSome = true ↔ P)) :
    (x >>= f).isSome = true ↔ x.isSome = true ∧ P := by
  cases x with
  | none => simp
  | some a => simpa using hf a rfl

section Optional

variable {F : Type} [SerdeYaml F] [JsonNumber ν] [ReadsJson F ν] {α : Type} {de : Yaml → Option α}
  {ms : List (String × Json String ν)}

theorem option_document (v : Json String ν) :
    (Yaml.option F de (document v)).isSome = true ↔
      Nullable (fun v => (de (document v)).isSome = true) v := by
  unfold Yaml.option Nullable
  rw [← isNull_document (F := F)]
  split_ifs with hnull
  · simp [hnull]
  · simp [hnull]

theorem optionalField_entries (h : (ms.map Prod.fst).Nodup) (key : String) :
    (Engine.optionalField F key de (entries ms)).isSome = true ↔
      Allowed key (Nullable fun v => (de (document v)).isSome = true) ms := by
  rw [Engine.optionalField, defaultedField_entries h]
  exact forall₂_congr fun v _ => option_document v

/-- What an optional field holds: nothing if it is `null` or left out. -/
theorem optionalField_eq_some (h : (ms.map Prod.fst).Nodup) {key : String} {o : Option α}
    (ho : Engine.optionalField F key de (entries ms) = some o) {a : α} :
    o = some a ↔ ∃ v, Json.lookup key ms = some v ∧ v ≠ .null ∧ de (document v) = some a := by
  rw [Engine.optionalField, Engine.defaultedField, field_entries h] at ho
  cases hlookup : Json.lookup key ms with
  | none =>
    rw [hlookup] at ho
    cases ho
    simp
  | some v =>
    rw [hlookup] at ho
    simp only [Option.map_some, Option.bind_eq_bind, Option.bind_some, Yaml.option] at ho
    have hnull := isNull_document (F := F) v
    split_ifs at ho with hn
    · cases ho
      simp [hnull.1 hn]
    · obtain ⟨b, hb, rfl⟩ := Option.map_eq_some_iff.1 ho
      have hne : v ≠ .null := fun h => hn (hnull.2 h)
      simp [hb, hne]

theorem list_document (v : Json String ν) :
    (Yaml.list de (document v)).isSome = true ↔
      Items (fun v => (de (document v)).isSome = true) v := by
  cases v with
  | arr xs =>
    rw [document, Yaml.list, documents_eq_map, MapM.isSome_iff]
    simp [Items]
  | num n =>
    have hne : String.ofList (NumberText.text n) ≠ "" := by
      intro h
      have hnil : NumberText.text n = [] := by simpa using congrArg String.toList h
      have hvalid := (JsonNumber.isNumber_text n).valid
      rw [hnil] at hvalid
      cases hvalid
    simp only [document, Items]
    unfold Yaml.list
    split
    case h_2 heq => exact absurd (by simpa using heq) hne
    all_goals simp_all
  | null => simp [document, Yaml.list, Items]
  | bool b => cases b <;> simp [document, Yaml.list, Items]
  | str s => simp [document, Yaml.list, Items]
  | obj ms => simp [document, Yaml.list, Items]

end Optional

end LoopStorm.Backend
