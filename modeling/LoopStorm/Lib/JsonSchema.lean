import LoopStorm.Lib.Json

/-!
# JSON Schema, shallowly

A schema is the set of values it accepts, and every keyword is a function of its
argument.  A keyword about one kind of value accepts all other kinds.

* `Schema`, `allOf`, `properties`, `items` and the other keywords.
* `closedObject` — an object with required members and no unknown ones, which is
  how a data format describes a record; `closedObject_iff` takes it apart.
-/

namespace JsonSchema

/-- The numbers of a document, as far as a schema sees them. -/
class Numeric (ν : Type) where
  /-- No fractional part. -/
  isInteger : ν → Bool
  /-- Not below a number. -/
  atLeast : Nat → ν → Bool
  /-- Equal to a number. -/
  equals : Nat → ν → Bool

variable {ν : Type}

/-- What a schema accepts. -/
abbrev Schema (ν : Type) : Type := Json String ν → Bool

/-! ## Keywords about any value -/

/-- `allOf`, and the keywords of one schema object taken together. -/
def allOf (ss : List (Schema ν)) : Schema ν := fun v => ss.all fun s => s v

/-- `oneOf`. -/
def oneOf (ss : List (Schema ν)) : Schema ν := fun v => (ss.filter fun s => s v).length = 1

/-- `not`. -/
def not (s : Schema ν) : Schema ν := fun v => !s v

/-- `if` and `then`. -/
def ifThen (s t : Schema ν) : Schema ν := fun v => !s v || t v

/-- `enum` over strings; `const` is the case of one. -/
def enum (words : List String) : Schema ν
  | .str s => s ∈ words
  | _ => false

/-! ## Kinds -/

/-- `"type": "object"`. -/
def isObject : Schema ν
  | .obj _ => true
  | _ => false

/-- `"type": "array"`. -/
def isArray : Schema ν
  | .arr _ => true
  | _ => false

/-- `"type": "string"`. -/
def isString : Schema ν
  | .str _ => true
  | _ => false

/-- `"type": "boolean"`. -/
def isBoolean : Schema ν
  | .bool _ => true
  | _ => false

/-- `"type": "number"`. -/
def isNumber : Schema ν
  | .num _ => true
  | _ => false

/-- `"type": "integer"`. -/
def isInteger [Numeric ν] : Schema ν
  | .num n => Numeric.isInteger n
  | _ => false

/-! ## Keywords about one kind -/

/-- `const` with a number. -/
def constNumber [Numeric ν] (k : Nat) : Schema ν
  | .num n => Numeric.equals k n
  | _ => false

/-- `minimum`. -/
def minimum [Numeric ν] (k : Nat) : Schema ν
  | .num n => Numeric.atLeast k n
  | _ => true

/-- `minLength`. -/
def minLength (k : Nat) : Schema ν
  | .str s => k ≤ s.length
  | _ => true

/-- `minItems`. -/
def minItems (k : Nat) : Schema ν
  | .arr xs => k ≤ xs.length
  | _ => true

/-- `items`. -/
def items (s : Schema ν) : Schema ν
  | .arr xs => xs.all fun x => s x
  | _ => true

/-- `required`. -/
def required (keys : List String) : Schema ν
  | .obj ms => keys.all fun k => ms.any fun m => m.1 = k
  | _ => true

/-- `properties`. -/
def properties (ps : List (String × Schema ν)) : Schema ν
  | .obj ms => ms.all fun m =>
    match ps.lookup m.1 with
    | some s => s m.2
    | none => true
  | _ => true

/-- `"additionalProperties": false` next to `properties`. -/
def noOthers (ps : List (String × Schema ν)) : Schema ν
  | .obj ms => ms.all fun m => (ps.lookup m.1).isSome
  | _ => true

/-! ## Records -/

/-- An object with its required members, and members of its own only. -/
def closedObject (keys : List String) (ps : List (String × Schema ν)) : Schema ν :=
  allOf [isObject, required keys, properties ps, noOthers ps]

variable {s : Schema ν}

theorem allOf_iff {ss : List (Schema ν)} {v : Json String ν} :
    allOf ss v = true ↔ ∀ s ∈ ss, s v = true :=
  List.all_eq_true

theorem isString_iff {v : Json String ν} : isString v = true ↔ ∃ s, v = .str s := by
  cases v <;> simp [isString]

theorem enum_iff {words : List String} {v : Json String ν} :
    enum words v = true ↔ ∃ s ∈ words, v = .str s := by
  cases v <;> simp [enum]

theorem items_iff {xs : List (Json String ν)} :
    items s (.arr xs) = true ↔ ∀ x ∈ xs, s x = true :=
  List.all_eq_true

theorem required_iff {keys : List String} {ms : List (String × Json String ν)} :
    required keys (.obj ms) = true ↔ ∀ k ∈ keys, ∃ v, (k, v) ∈ ms := by
  simp [required]

/-- **A record, member by member.** -/
theorem closedObject_iff {keys : List String} {ps : List (String × Schema ν)}
    {ms : List (String × Json String ν)} :
    closedObject keys ps (.obj ms) = true ↔
      (∀ k ∈ keys, ∃ v, (k, v) ∈ ms) ∧
        ∀ k v, (k, v) ∈ ms → ∃ s, ps.lookup k = some s ∧ s v = true := by
  have hobject : closedObject keys ps (.obj ms) = true ↔ required keys (.obj ms) = true ∧
      properties ps (.obj ms) = true ∧ noOthers ps (.obj ms) = true := by
    simp [closedObject, allOf, isObject]
  rw [hobject, required_iff]
  refine and_congr_right fun _ => ?_
  simp only [properties, noOthers, List.all_eq_true]
  constructor
  · rintro ⟨hvalid, hknown⟩ k v hmem
    obtain ⟨s, hs⟩ := Option.isSome_iff_exists.1 (hknown (k, v) hmem)
    have hv := hvalid (k, v) hmem
    rw [hs] at hv
    exact ⟨s, hs, hv⟩
  · intro h
    constructor
    · rintro ⟨k, v⟩ hmem
      obtain ⟨s, hs, hv⟩ := h k v hmem
      simp only [hs]
      exact hv
    · rintro ⟨k, v⟩ hmem
      obtain ⟨s, hs, -⟩ := h k v hmem
      simp only [hs]
      rfl

end JsonSchema
