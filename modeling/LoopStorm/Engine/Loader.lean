import LoopStorm.Engine.Policy

/-!
# Loading a policy pack

`Policy::from_yaml_str`: the structs of `policy.rs` read from a YAML document the
way `serde` derives it, and then validated.  The YAML reader is a parameter: it
parses a text and says what a plain scalar stands for.

* `Yaml` — a document; `Yaml.toJson` reads it as a JSON value.
* `requiredField`, `optionalField`, `defaultedField` — a field of a struct, which may not be
  given twice; fields the struct does not have are ignored.
* `Policy.ofYaml` and the structs under it.
* `Policy.fromYamlStr` — the loader, with its errors.
-/

namespace LoopStorm.Engine

/-! ## Documents -/

/-- A YAML document without tags, its aliases followed.  A key is the text of a
scalar. -/
inductive Yaml where
  | scalar (plain : Bool) (text : String)
  | seq (xs : List Yaml)
  | map (ms : List (String × Yaml))

/-- What a plain scalar stands for. -/
inductive Plain (F : Type) where
  | null
  | bool (b : Bool)
  | unsigned (n : UInt64)
  | negative (n : Int64)
  /-- An integer beyond 64 bits, with the double nearest to it. -/
  | wide (x : F)
  | float (x : F)
  | text
  deriving DecidableEq

/-- The words a plain scalar has another meaning for. -/
def reservedWords : List String :=
  ["null", "Null", "NULL", "true", "True", "TRUE", "false", "False", "FALSE"]

/-- The first character is an ASCII letter. -/
def startsWithLetter (s : String) : Bool :=
  match s.toList with
  | c :: _ => c.isAlpha
  | [] => false

/-- A word without another meaning. -/
def isWord (s : String) : Bool := startsWithLetter s && !reservedWords.contains s

/-- The crate `serde_yaml`. -/
class SerdeYaml (F : Type) where
  /-- The one document of a text. -/
  parse : String → Option Yaml
  /-- What a plain scalar stands for where any value may be. -/
  resolve : String → Plain F
  /-- A plain scalar where a double is wanted. -/
  float : String → Option F
  /-- A word is a text. -/
  resolve_word : ∀ s, isWord s = true → resolve s = .text

section Json

variable (F : Type) [Float64 F] [SerdeYaml F]

/-- A scalar as a JSON value; there is none for a double that is not finite. -/
def scalarJson (plain : Bool) (text : String) : Value F :=
  if plain then
    match (SerdeYaml.resolve text : Plain F) with
    | .null => .null
    | .bool b => .bool b
    | .unsigned n => .num (.posInt n)
    | .negative n => .num (.negInt n)
    | .wide x => f64Value x
    | .float x => f64Value x
    | .text => .str text
  else .str text

mutual
/-- The document as a JSON value. -/
def Yaml.toJson : Yaml → Value F
  | .scalar plain text => scalarJson F plain text
  | .seq xs => .arr (Yaml.toJsons xs)
  | .map ms => .obj (Yaml.toMembers ms)

/-- `toJson` over the items of a sequence. -/
def Yaml.toJsons : List Yaml → List (Value F)
  | [] => []
  | x :: xs => x.toJson :: Yaml.toJsons xs

/-- `toJson` over the entries of a mapping. -/
def Yaml.toMembers : List (String × Yaml) → List (String × Value F)
  | [] => []
  | (k, v) :: ms => (k, v.toJson) :: Yaml.toMembers ms
end

variable {F}

theorem Yaml.toJsons_eq_map (xs : List Yaml) :
    Yaml.toJsons F xs = xs.map (Yaml.toJson F) := by
  induction xs with
  | nil => rfl
  | cons x xs ih => rw [Yaml.toJsons, ih, List.map_cons]

theorem Yaml.toMembers_eq_map (ms : List (String × Yaml)) :
    Yaml.toMembers F ms = ms.map fun m => (m.1, m.2.toJson F) := by
  induction ms with
  | nil => rfl
  | cons m ms ih => obtain ⟨k, v⟩ := m; rw [Yaml.toMembers, ih, List.map_cons]

end Json

/-! ## Values -/

namespace Yaml

/-- Any scalar is taken for a string, with the text it is written with. -/
def string : Yaml → Option String
  | .scalar _ text => some text
  | _ => none

/-- A unit variant of an enum, by its name. -/
def variant {α : Type} (names : List (String × α)) : Yaml → Option α
  | .scalar _ text => names.lookup text
  | _ => none

/-- A list; an empty plain scalar is an empty one. -/
def list {α : Type} (de : Yaml → Option α) : Yaml → Option (List α)
  | .seq xs => xs.mapM de
  | .scalar true "" => some []
  | _ => none

section Scalars

variable (F : Type) [SerdeYaml F]

/-- What a plain scalar stands for. -/
def plain : Yaml → Option (Plain F)
  | .scalar true text => some (SerdeYaml.resolve text)
  | _ => none

/-- A plain scalar that stands for nothing. -/
def isNull (y : Yaml) : Bool :=
  match y.plain F with
  | some .null => true
  | _ => false

def bool (y : Yaml) : Option Bool :=
  match y.plain F with
  | some (.bool b) => some b
  | _ => none

def u64 (y : Yaml) : Option UInt64 :=
  match y.plain F with
  | some (.unsigned n) => some n
  | _ => none

def u32 (y : Yaml) : Option UInt32 :=
  (y.u64 F).bind fun n => if n.toNat < 2 ^ 32 then some n.toUInt32 else none

def i64 (y : Yaml) : Option Int64 :=
  match y.plain F with
  | some (.unsigned n) => if n.toNat < 2 ^ 63 then some (Int64.ofNat n.toNat) else none
  | some (.negative n) => some n
  | _ => none

def f64 : Yaml → Option F
  | .scalar true text => SerdeYaml.float text
  | _ => none

/-- A value that may be null. -/
def option {α : Type} (de : Yaml → Option α) (y : Yaml) : Option (Option α) :=
  if y.isNull F then some none else (de y).map some

mutual
/-- No integer beyond 64 bits, which a `serde_json::Value` does not take. -/
def isNarrow : Yaml → Bool
  | .scalar false _ => true
  | .scalar true text =>
    match (SerdeYaml.resolve text : Plain F) with
    | .wide _ => false
    | _ => true
  | .seq xs => areNarrow xs
  | .map ms => haveNarrow ms

/-- `isNarrow` over the items of a sequence. -/
def areNarrow : List Yaml → Bool
  | [] => true
  | x :: xs => x.isNarrow && areNarrow xs

/-- `isNarrow` over the entries of a mapping. -/
def haveNarrow : List (String × Yaml) → Bool
  | [] => true
  | (_, v) :: ms => v.isNarrow && haveNarrow ms
end

/-- A `serde_json::Value`. -/
def value [Float64 F] (y : Yaml) : Option (Value F) :=
  if y.isNarrow F then some (y.toJson F) else none

end Scalars

/-! ## Structs -/

/-- The entries of a mapping.  (An empty scalar can stand for a struct without
entries; those of the loader that may lack every field may be null as well, and
there it is that.) -/
def entries : Yaml → Option (List (String × Yaml))
  | .map ms => some ms
  | _ => none

end Yaml

/-- The value of a field, if it is given; it may not be given twice. -/
def field (key : String) (ms : List (String × Yaml)) : Option (Option Yaml) :=
  match ms.filter fun m => m.1 = key with
  | [] => some none
  | [m] => some (some m.2)
  | _ => none

section Fields

variable {α : Type}

/-- A field that has to be given. -/
def requiredField (key : String) (de : Yaml → Option α) (ms : List (String × Yaml)) : Option α := do
  match ← field key ms with
  | none => none
  | some y => de y

/-- A field with a default. -/
def defaultedField (key : String) (de : Yaml → Option α) (default : α) (ms : List (String × Yaml)) :
    Option α := do
  match ← field key ms with
  | none => some default
  | some y => de y

/-- A field of an `Option` type. -/
def optionalField (F : Type) [SerdeYaml F] (key : String) (de : Yaml → Option α)
    (ms : List (String × Yaml)) : Option (Option α) :=
  defaultedField key (Yaml.option F de) none ms

end Fields

section Structs

variable {F : Type} [Float64 F] [SerdeYaml F]

def RuleAction.ofYaml : Yaml → Option RuleAction :=
  Yaml.variant [("allow", .allow), ("deny", .deny), ("require_approval", .requireApproval)]

def ConditionOperator.ofYaml : Yaml → Option ConditionOperator :=
  Yaml.variant [("equals", .equals), ("not_equals", .notEquals), ("matches", .matches),
    ("not_matches", .notMatches), ("in", .isIn), ("not_in", .notIn)]

def Condition.ofYaml (y : Yaml) : Option (Condition F) := do
  let ms ← y.entries
  let field ← requiredField "field" Yaml.string ms
  let operator ← requiredField "operator" ConditionOperator.ofYaml ms
  let value ← optionalField F "value" (Yaml.value F) ms
  let pattern ← optionalField F "pattern" Yaml.string ms
  return ⟨field, operator, value, pattern⟩

def Rule.ofYaml (y : Yaml) : Option (Rule F) := do
  let ms ← y.entries
  let name ← requiredField "name" Yaml.string ms
  let action ← requiredField "action" RuleAction.ofYaml ms
  let tool ← optionalField F "tool" Yaml.string ms
  let toolPattern ← optionalField F "tool_pattern" Yaml.string ms
  let conditions ← optionalField F "conditions" (Yaml.list Condition.ofYaml) ms
  let timeout ← optionalField F "timeout" (Yaml.u64 F) ms
  let timeoutAction ← optionalField F "timeout_action" Yaml.string ms
  let reason ← optionalField F "reason" Yaml.string ms
  let priority ← optionalField F "priority" (Yaml.i64 F) ms
  return ⟨name, action, tool, toolPattern, conditions, timeout, timeoutAction, reason, priority⟩

def BudgetDimensionFloat.ofYaml (y : Yaml) : Option (BudgetDimensionFloat F) := do
  let ms ← y.entries
  let soft ← optionalField F "soft" (Yaml.f64 F) ms
  let hard ← requiredField "hard" (Yaml.f64 F) ms
  return ⟨soft, hard⟩

variable (F) in
def BudgetDimensionInt.ofYaml (y : Yaml) : Option BudgetDimensionInt := do
  let ms ← y.entries
  let soft ← optionalField F "soft" (Yaml.u64 F) ms
  let hard ← requiredField "hard" (Yaml.u64 F) ms
  return ⟨soft, hard⟩

def BudgetConfig.ofYaml (y : Yaml) : Option (BudgetConfig F) := do
  let ms ← y.entries
  let costUsd ← optionalField F "cost_usd" BudgetDimensionFloat.ofYaml ms
  let inputTokens ← optionalField F "input_tokens" (BudgetDimensionInt.ofYaml F) ms
  let outputTokens ← optionalField F "output_tokens" (BudgetDimensionInt.ofYaml F) ms
  let callCount ← optionalField F "call_count" (BudgetDimensionInt.ofYaml F) ms
  return ⟨costUsd, inputTokens, outputTokens, callCount⟩

variable (F) in
def LoopDetectionConfig.ofYaml (y : Yaml) : Option LoopDetectionConfig := do
  let ms ← y.entries
  let enabled ← defaultedField "enabled" (Yaml.bool F) true ms
  let identicalCallWindowSeconds ←
    defaultedField "identical_call_window_seconds" (Yaml.u64 F) 120 ms
  let identicalCallThreshold ← defaultedField "identical_call_threshold" (Yaml.u64 F) 3 ms
  let identicalErrorThreshold ← defaultedField "identical_error_threshold" (Yaml.u64 F) 3 ms
  let cooldownMs ← defaultedField "cooldown_ms" (Yaml.u64 F) 5000 ms
  return ⟨enabled, identicalCallWindowSeconds, identicalCallThreshold, identicalErrorThreshold,
    cooldownMs⟩

def RedactionPattern.ofYaml (y : Yaml) : Option RedactionPattern := do
  let ms ← y.entries
  let name ← requiredField "name" Yaml.string ms
  let pattern ← requiredField "pattern" Yaml.string ms
  let replacement ← defaultedField "replacement" Yaml.string "[REDACTED]" ms
  return ⟨name, pattern, replacement⟩

variable (F) in
def RedactionConfig.ofYaml (y : Yaml) : Option RedactionConfig := do
  let ms ← y.entries
  let enabled ← defaultedField "enabled" (Yaml.bool F) true ms
  let additionalPatterns ←
    optionalField F "additional_patterns" (Yaml.list RedactionPattern.ofYaml) ms
  let keyPatterns ← optionalField F "key_patterns" (Yaml.list Yaml.string) ms
  return ⟨enabled, additionalPatterns, keyPatterns⟩

def Policy.ofYaml (y : Yaml) : Option (Policy F) := do
  let ms ← y.entries
  let schemaVersion ← requiredField "schema_version" (Yaml.u32 F) ms
  let name ← optionalField F "name" Yaml.string ms
  let description ← optionalField F "description" Yaml.string ms
  let agentRole ← optionalField F "agent_role" Yaml.string ms
  let environment ← optionalField F "environment" Yaml.string ms
  let rules ← requiredField "rules" (Yaml.list Rule.ofYaml) ms
  let budget ← optionalField F "budget" BudgetConfig.ofYaml ms
  let loopDetection ← optionalField F "loop_detection" (LoopDetectionConfig.ofYaml F) ms
  let redaction ← optionalField F "redaction" (RedactionConfig.ofYaml F) ms
  return ⟨schemaVersion, name, description, agentRole, environment, rules, budget, loopDetection,
    redaction⟩

/-! ## The loader -/

/-- Errors of loading a policy. -/
inductive LoadError where
  | yaml
  | policy (e : PolicyError)
  deriving DecidableEq, Repr

/-- Parse and validate a policy from a YAML string. -/
def Policy.fromYamlStr [Globset] (yaml : String) : Except LoadError (CompiledPolicy F) :=
  match (SerdeYaml.parse (F := F) yaml).bind Policy.ofYaml with
  | none => .error .yaml
  | some policy =>
    match policy.validateAndCompile with
    | .error e => .error (.policy e)
    | .ok compiled => .ok compiled

end Structs

/-! ## What a field that was read says about the document -/

/-- Every entry with the key meets a condition. -/
def At (key : String) (P : Yaml → Prop) (ms : List (String × Yaml)) : Prop :=
  ∀ y, (key, y) ∈ ms → P y

section Read

variable {α : Type} {key : String} {de : Yaml → Option α} {ms : List (String × Yaml)}

theorem field_eq_none (h : field key ms = some none) (y : Yaml) : (key, y) ∉ ms := by
  unfold field at h
  split at h
  case h_1 hfilter =>
    intro hmem
    have hkey : decide ((key, y).1 = key) = true := by simp
    have hin : (key, y) ∈ ms.filter fun m => m.1 = key := List.mem_filter.2 ⟨hmem, hkey⟩
    rw [hfilter] at hin
    exact List.not_mem_nil hin
  case h_2 => cases h
  case h_3 => cases h

theorem field_eq_some {y : Yaml} (h : field key ms = some (some y)) (z : Yaml) :
    (key, z) ∈ ms ↔ z = y := by
  unfold field at h
  split at h
  case h_1 => cases h
  case h_2 m hfilter =>
    obtain ⟨k, v⟩ := m
    obtain rfl : v = y := by simpa using h
    have hiff : ∀ m, m ∈ ms ∧ m.1 = key ↔ m = (k, v) := by
      intro m
      have hmem : m ∈ (ms.filter fun m => m.1 = key) ↔ m = (k, v) := by
        rw [hfilter, List.mem_singleton]
      simpa [List.mem_filter] using hmem
    have hk : k = key := ((hiff (k, v)).2 rfl).2
    constructor
    · intro hz
      exact congrArg Prod.snd ((hiff (key, z)).1 ⟨hz, rfl⟩)
    · rintro rfl
      exact hk ▸ ((hiff (k, z)).2 rfl).1
  case h_3 => cases h

/-- A field that has to be given is there, once. -/
theorem requiredField_eq_some {a : α} (h : requiredField key de ms = some a) :
    ∃ y, (key, y) ∈ ms ∧ de y = some a ∧ ∀ z, (key, z) ∈ ms → z = y := by
  unfold requiredField at h
  obtain ⟨v, hfield, hv⟩ := Option.bind_eq_some_iff.1 h
  cases v with
  | none => cases hv
  | some y =>
    exact ⟨y, (field_eq_some hfield y).2 rfl, hv, fun z hz => (field_eq_some hfield z).1 hz⟩

/-- What is given for a field with a default is read. -/
theorem at_of_defaultedField {d a : α} (h : defaultedField key de d ms = some a) :
    At key (fun y => de y = some a) ms := by
  unfold defaultedField at h
  obtain ⟨v, hfield, hv⟩ := Option.bind_eq_some_iff.1 h
  intro z hz
  cases v with
  | none => exact absurd hz (field_eq_none hfield z)
  | some y =>
    rw [(field_eq_some hfield z).1 hz]
    exact hv

theorem at_of_requiredField {a : α} (h : requiredField key de ms = some a) :
    At key (fun y => de y = some a) ms := by
  obtain ⟨y, -, hy, hone⟩ := requiredField_eq_some h
  intro z hz
  rw [hone z hz]
  exact hy

/-- A field that is not there has its default. -/
theorem defaultedField_eq_default {d a : α} (h : defaultedField key de d ms = some a)
    (hnone : ∀ y, (key, y) ∉ ms) : a = d := by
  unfold defaultedField at h
  obtain ⟨v, hfield, hv⟩ := Option.bind_eq_some_iff.1 h
  cases v with
  | none => exact (Option.some.inj hv).symm
  | some y => exact absurd ((field_eq_some hfield y).2 rfl) (hnone y)

/-- A mapping has an entry that meets a condition. -/
def Has (key : String) (P : Yaml → Prop) (ms : List (String × Yaml)) : Prop :=
  ∃ y, (key, y) ∈ ms ∧ P y

/-- Of the one entry with a key. -/
theorem has_iff {P : Yaml → Prop} {y : Yaml} (hmem : (key, y) ∈ ms)
    (hone : ∀ z, (key, z) ∈ ms → z = y) : Has key P ms ↔ P y := by
  constructor
  · rintro ⟨z, hz, hP⟩
    rw [← hone z hz]
    exact hP
  · intro hP
    exact ⟨y, hmem, hP⟩

/-- A field of an `Option` type is null or not there, or read from its one
entry. -/
theorem optionalField_cases {F : Type} [SerdeYaml F] {o : Option α}
    (h : optionalField F key de ms = some o) :
    (o = none ∧ At key (fun y => y.isNull F = true) ms) ∨
      ∃ y a, o = some a ∧ (key, y) ∈ ms ∧ (∀ z, (key, z) ∈ ms → z = y) ∧
        y.isNull F = false ∧ de y = some a := by
  unfold optionalField defaultedField at h
  obtain ⟨v, hfield, hv⟩ := Option.bind_eq_some_iff.1 h
  cases v with
  | none =>
    refine Or.inl ⟨(Option.some.inj hv).symm, ?_⟩
    intro z hz
    exact absurd hz (field_eq_none hfield z)
  | some y =>
    have hone (z : Yaml) : (key, z) ∈ ms ↔ z = y := field_eq_some hfield z
    dsimp only [Yaml.option] at hv
    split at hv
    case isTrue hnull =>
      refine Or.inl ⟨(Option.some.inj hv).symm, ?_⟩
      intro z hz
      rw [(hone z).1 hz]
      exact hnull
    case isFalse hnull =>
      obtain ⟨a, ha, rfl⟩ := Option.map_eq_some_iff.1 hv
      exact Or.inr ⟨y, a, rfl, (hone y).2 rfl, fun z hz => (hone z).1 hz,
        Bool.eq_false_of_not_eq_true hnull, ha⟩

/-- The items of a list that was read. -/
theorem items_of_list {xs : List Yaml} {as : List α} (h : Yaml.list de (.seq xs) = some as) :
    ∀ x ∈ xs, ∃ a ∈ as, de x = some a :=
  (MapM.exists_of_forall₂ (MapM.forall₂_of_some h)).1

/-- What was read, from the items of a sequence. -/
theorem item_of_list {y : Yaml} {as : List α} (h : Yaml.list de y = some as) {a : α}
    (ha : a ∈ as) : ∃ xs, y = .seq xs ∧ ∃ x ∈ xs, de x = some a := by
  unfold Yaml.list at h
  split at h
  case h_1 xs => exact ⟨xs, rfl, (MapM.exists_of_forall₂ (MapM.forall₂_of_some h)).2 a ha⟩
  case h_2 =>
    cases h
    exact absurd ha List.not_mem_nil
  case h_3 => cases h

end Read

end LoopStorm.Engine
