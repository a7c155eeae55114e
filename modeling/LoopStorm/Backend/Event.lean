import LoopStorm.Engine.Telemetry
import LoopStorm.Shim.Protocol

/-!
# Event lines

The parser of a submitted line in `packages/backend/src/trpc/routers/events.ts`:
`parsedEventSchema`, with the checks of the schema library it is written in, and
`parseEventLine`.

* `Check` — a schema for one field: the error it finds in a value, or in the
  absence of one.
* `parsedEventSchema` — the fields of an event line and their checks.
* `ParsedEvent`, `parseEventLine` — what is read of a line, or the error that
  names the line, the field and what is wrong with it.
* `hashPrev_of_parseEventLine` — an accepted line has a `hash_prev`, though it
  may be null.
-/

namespace LoopStorm.Backend

open LoopStorm.Engine
open LoopStorm.Shim (ReplyValue)

/-! ## Numbers -/

/-- The number a string of digits stands for. -/
def digitsValue (cs : List Char) : Nat := cs.foldl (fun n c => 10 * n + (c.toNat - 48)) 0

/-- The factor an exponent stands for. -/
def exponentValue : List Char → ℚ
  | 'e' :: '-' :: cs | 'E' :: '-' :: cs => 1 / 10 ^ digitsValue cs
  | 'e' :: '+' :: cs | 'E' :: '+' :: cs => 10 ^ digitsValue cs
  | 'e' :: cs | 'E' :: cs => 10 ^ digitsValue cs
  | _ => 1

/-- The value of a JSON number without its sign. -/
def unsignedValue (cs : List Char) : ℚ :=
  let whole := cs.takeWhile Char.isDigit
  match cs.dropWhile Char.isDigit with
  | '.' :: rest =>
    let frac := rest.takeWhile Char.isDigit
    (digitsValue (whole ++ frac) : ℚ) / 10 ^ frac.length *
      exponentValue (rest.dropWhile Char.isDigit)
  | rest => digitsValue whole * exponentValue rest

/-- The value of a JSON number.  It is taken exactly; a double holds the nearest
value it can. -/
def numberValue : List Char → ℚ
  | '-' :: cs => -unsignedValue cs
  | cs => unsignedValue cs

/-! ## Formats -/

/-- White space and line ends as `trim` and `trimEnd` see them. -/
def isJsSpace (c : Char) : Bool :=
  (9 ≤ c.toNat && c.toNat ≤ 13) || c.toNat = 0x20 || c.toNat = 0xA0 || c.toNat = 0x1680 ||
    (0x2000 ≤ c.toNat && c.toNat ≤ 0x200A) || c.toNat = 0x2028 || c.toNat = 0x2029 ||
    c.toNat = 0x202F || c.toNat = 0x205F || c.toNat = 0x3000 || c.toNat = 0xFEFF

/-- A digit of a hash: `[0-9a-f]`. -/
def isLowerHex (c : Char) : Bool := c.isDigit || ('a' ≤ c && c ≤ 'f')

/-- `/^[0-9a-f]{64}$/`. -/
def isDigest (s : String) : Bool := s.toList.length = 64 && s.toList.all isLowerHex

/-- A digit of an identifier: `[0-9a-fA-F]`. -/
def isHex (c : Char) : Bool := isLowerHex c || ('A' ≤ c && c ≤ 'F')

/-- A text put into a `uuid` column: upper-case digits and lower-case ones are
the same. -/
def toUuid (s : String) : String := s.toLower

/-- The number of characters of a string, as its schema counts them. -/
def jsLength (s : String) : Nat := (Shim.Ts.lit s).length

/-- `z.string().uuid()`: groups of hex digits, lengths 8, 4, 4, 4 and 12. -/
def isUuid (s : String) : Bool :=
  let groups := s.toList.splitOn '-'
  groups.map List.length = [8, 4, 4, 4, 12] && groups.all (·.all isHex)

/-- The days of a month. -/
def daysIn (year month : Nat) : Nat :=
  if month ∈ [4, 6, 9, 11] then 30
  else if month = 2 then
    if year % 4 = 0 ∧ (year % 100 ≠ 0 ∨ year % 400 = 0) then 29 else 28
  else 31

/-- A date, `yyyy-mm-dd`. -/
def isDate (year month day : List Char) : Bool :=
  (year ++ month ++ day).all Char.isDigit &&
    1 ≤ digitsValue month && digitsValue month ≤ 12 && 1 ≤ digitsValue day &&
      digitsValue day ≤ daysIn (digitsValue year) (digitsValue month)

/-- What may follow the minutes: seconds, with or without a fraction, and the
`Z` without which a time is not accepted. -/
def isTimeEnd : List Char → Bool
  | ['Z'] => true
  | ':' :: s₁ :: s₂ :: rest =>
    s₁.isDigit && s₂.isDigit && digitsValue [s₁] ≤ 5 &&
      match rest with
      | ['Z'] => true
      | '.' :: frac =>
        !(frac.takeWhile Char.isDigit).isEmpty && frac.dropWhile Char.isDigit = ['Z']
      | _ => false
  | _ => false

/-- `z.string().datetime()`. -/
def isDatetime (s : String) : Bool :=
  match s.toList with
  | y₁ :: y₂ :: y₃ :: y₄ :: '-' :: m₁ :: m₂ :: '-' :: d₁ :: d₂ :: 'T' :: h₁ :: h₂ :: ':' ::
      n₁ :: n₂ :: rest =>
    isDate [y₁, y₂, y₃, y₄] [m₁, m₂] [d₁, d₂] && [h₁, h₂, n₁, n₂].all Char.isDigit &&
      digitsValue [h₁, h₂] ≤ 23 && digitsValue [n₁] ≤ 5 && isTimeEnd rest
  | _ => false

example : isDatetime "2026-01-31T09:30:00.125Z" = true ∧
    isDatetime "2026-01-31T09:30:00.125+00:00" = false := by
  decide

/-! ## Checks -/

/-- What a schema finds wrong with a field: where below it, and the message. -/
abbrev Check : Type := Option ReplyValue → Option (String × String)

/-- The name of a value's type in a message. -/
def typeName : ReplyValue → String
  | .null => "null"
  | .bool _ => "boolean"
  | .num _ => "number"
  | .str _ => "string"
  | .arr _ => "array"
  | .obj _ => "object"

/-- A value of another type than expected, or none. -/
def wrongType (expected : String) : Option ReplyValue → String
  | none => "Required"
  | some v => "Expected " ++ expected ++ ", received " ++ typeName v

/-- `z.literal(1)`. -/
def literalOne : Check
  | some (.num n) => if numberValue n = 1 then none else some ("", "Invalid literal value, expected 1")
  | _ => some ("", "Invalid literal value, expected 1")

/-- `z.string()` with further checks, the first that fails giving the message. -/
def stringWith (checks : List ((String → Bool) × String)) : Check
  | some (.str s) => (checks.find? fun c => !c.1 s).map fun c => ("", c.2)
  | v => some ("", wrongType "string" v)

/-- `z.number()` with further checks. -/
def numberWith (checks : List ((ℚ → Bool) × String)) : Check
  | some (.num n) => (checks.find? fun c => !c.1 (numberValue n)).map fun c => ("", c.2)
  | v => some ("", wrongType "number" v)

/-- `.nullable()`. -/
def nullable (check : Check) : Check
  | some .null => none
  | v => check v

/-- `.optional()`. -/
def optional (check : Check) : Check
  | none => none
  | v => check v

/-- `z.unknown()`. -/
def unknown : Check := fun _ => none

/-- `z.array(z.string())`: the first item that is no string. -/
def stringArray : Check
  | some (.arr xs) =>
    (xs.zipIdx.find? fun p => (stringWith [] (some p.1)).isSome).map fun p =>
      ("." ++ toString p.2, wrongType "string" (some p.1))
  | v => some ("", wrongType "array" v)

/-- `.int()`. -/
def isInt : (ℚ → Bool) × String := (fun x => x.den = 1, "Expected integer, received float")

/-- `.min(n)` of a number. -/
def atLeast (n : Nat) : (ℚ → Bool) × String :=
  (fun x => (n : ℚ) ≤ x, "Number must be greater than or equal to " ++ toString n)

/-- `.length(64)`, in UTF-16 code units. -/
def hashLength : (String → Bool) × String :=
  (fun s => (Shim.Ts.lit s).length = 64, "String must contain exactly 64 character(s)")

/-- `.regex(/^[0-9a-f]{64}$/)`. -/
def hashPattern : (String → Bool) × String := (isDigest, "Invalid")

/-- `.min(1)` of a string. -/
def nonEmpty : (String → Bool) × String :=
  (fun s => s ≠ "", "String must contain at least 1 character(s)")

/-- `.optional().nullable()`. -/
def optionalNullable (check : Check) : Check := nullable (optional check)

/-! ## The schema -/

/-- Schema for a single parsed event line. -/
def parsedEventSchema : List (String × Check) :=
  [("schema_version", literalOne),
    ("event_type", stringWith [nonEmpty]),
    ("run_id", stringWith [(isUuid, "Invalid uuid")]),
    ("seq", numberWith [isInt, atLeast 1]),
    ("ts", stringWith [(isDatetime, "Invalid datetime")]),
    ("hash", stringWith [hashLength, hashPattern]),
    ("hash_prev", nullable (stringWith [hashLength, hashPattern])),
    ("agent_name", optionalNullable (stringWith [])),
    ("agent_role", optionalNullable (stringWith [])),
    ("environment", optionalNullable (stringWith [])),
    ("policy_pack_id", optionalNullable (stringWith [])),
    ("tool", optionalNullable (stringWith [])),
    ("args_hash", optionalNullable (stringWith [])),
    ("args_redacted", optionalNullable unknown),
    ("decision", optionalNullable (stringWith [])),
    ("rule_id", optionalNullable (stringWith [])),
    ("reason", optionalNullable (stringWith [])),
    ("model", optionalNullable (stringWith [])),
    ("input_tokens", optionalNullable (numberWith [isInt])),
    ("output_tokens", optionalNullable (numberWith [isInt])),
    ("estimated_cost_usd", optionalNullable (numberWith [])),
    ("latency_ms", optionalNullable (numberWith [])),
    ("run_status", optionalNullable (stringWith [])),
    ("dimension", optionalNullable (stringWith [])),
    ("loop_rule", optionalNullable (stringWith [])),
    ("loop_action", optionalNullable (stringWith [])),
    ("cooldown_ms", optionalNullable (numberWith [isInt])),
    ("budget", optionalNullable unknown),
    ("supervisor_run_id", optionalNullable (stringWith [])),
    ("trigger", optionalNullable (stringWith [])),
    ("trigger_run_id", optionalNullable (stringWith [])),
    ("proposal_id", optionalNullable (stringWith [])),
    ("proposal_type", optionalNullable (stringWith [])),
    ("target_agent", optionalNullable (stringWith [])),
    ("rationale", optionalNullable (stringWith [])),
    ("confidence", optionalNullable (numberWith [])),
    ("supporting_runs", optionalNullable stringArray),
    ("status", optionalNullable (stringWith [])),
    ("escalation_id", optionalNullable (stringWith [])),
    ("severity", optionalNullable (stringWith [])),
    ("recommendation", optionalNullable (stringWith [])),
    ("timeout_seconds", optionalNullable (numberWith [isInt])),
    ("timeout_action", optionalNullable (stringWith [])),
    ("call_seq_fingerprint", optionalNullable (stringWith [hashPattern])),
    ("inter_call_ms", optionalNullable (numberWith [isInt, atLeast 0])),
    ("token_rate_delta", optionalNullable (numberWith [atLeast 0])),
    ("param_shape_hash", optionalNullable (stringWith [hashPattern]))]

/-- The first error of an object: the path of the field and the message. -/
def firstError (obj : List (String × ReplyValue)) : Option (String × String) :=
  parsedEventSchema.findSome? fun field =>
    (field.2 (Json.lookup field.1 obj)).map fun e => (field.1 ++ e.1, e.2)

/-- Why a batch is refused. -/
inductive IngestError where
  | invalidJson (line : Nat)
  | invalidEvent (line : Nat) (seq : Option ReplyValue) (message path : String)
  | mixedRuns (count : Nat)
  | noEvents
  | duplicateSeq (seq : Nat)
  | seqGap (expected actual : Nat)
  | hashMismatch (seq : Nat) (expected stored : String)
  | chainLink (seq : Nat) (hashPrev expected : Option String)
  | forbidden
  /-- an input its schema does not let through -/
  | badInput
  /-- a statement the database refuses -/
  | database

/-- An event as it is read of a line. -/
structure ParsedEvent where
  eventType : String
  runId : String
  seq : Nat
  ts : String
  hash : String
  hashPrev : Option String
  agentName : Option String
  agentRole : Option String
  environment : Option String
  policyPackId : Option String
  decision : Option String
  runStatus : Option String
  inputTokens : Option Int
  outputTokens : Option Int
  estimatedCostUsd : Option ℚ
  /-- all members of the object, most of them only copied into columns -/
  members : List (String × ReplyValue)

/-- The string under a key. -/
def stringField (key : String) (obj : List (String × ReplyValue)) : Option String :=
  (Json.lookup key obj).bind Json.asStr

/-- The number under a key. -/
def numberField (key : String) (obj : List (String × ReplyValue)) : Option ℚ :=
  match Json.lookup key obj with
  | some (.num n) => some (numberValue n)
  | _ => none

/-- The event an object without errors stands for. -/
def ParsedEvent.ofObject (obj : List (String × ReplyValue)) : ParsedEvent where
  eventType := (stringField "event_type" obj).getD ""
  runId := (stringField "run_id" obj).getD ""
  seq := ((numberField "seq" obj).getD 0).num.toNat
  ts := (stringField "ts" obj).getD ""
  hash := (stringField "hash" obj).getD ""
  hashPrev := stringField "hash_prev" obj
  agentName := stringField "agent_name" obj
  agentRole := stringField "agent_role" obj
  environment := stringField "environment" obj
  policyPackId := stringField "policy_pack_id" obj
  decision := stringField "decision" obj
  runStatus := stringField "run_status" obj
  inputTokens := (numberField "input_tokens" obj).map Rat.num
  outputTokens := (numberField "output_tokens" obj).map Rat.num
  estimatedCostUsd := numberField "estimated_cost_usd" obj
  members := obj

/-- Parse and validate a single line. -/
def parseEventLine (line : String) (lineIndex : Nat) : Except IngestError ParsedEvent :=
  match Json.parse line.toList with
  | none => .error (.invalidJson (lineIndex + 1))
  | some (.obj obj) =>
    match firstError obj with
    | some (path, message) =>
      .error (.invalidEvent (lineIndex + 1) (Json.lookup "seq" obj) message path)
    | none => .ok (.ofObject obj)
  | some value => .error (.invalidEvent (lineIndex + 1) none (wrongType "object" (some value)) "")

/-! ## What is accepted -/

theorem parseEventLine_ok {line : String} {lineIndex : Nat} {event : ParsedEvent}
    (h : parseEventLine line lineIndex = .ok event) :
    ∃ obj, Json.parse line.toList = some (.obj obj) ∧ firstError obj = none ∧
      event = .ofObject obj := by
  unfold parseEventLine at h
  split at h
  · cases h
  · split at h
    · cases h
    case h_2 obj hparse _ herror =>
      exact ⟨obj, hparse, herror, (Except.ok.inj h).symm⟩
  · cases h

/-- Every field of an object without errors passes its check. -/
theorem check_of_firstError {obj : List (String × ReplyValue)} (h : firstError obj = none)
    {field : String × Check} (hfield : field ∈ parsedEventSchema) :
    field.2 (Json.lookup field.1 obj) = none := by
  have hnone := List.findSome?_eq_none_iff.1 h field hfield
  rwa [Option.map_eq_none_iff] at hnone

/-- An accepted line has a `hash_prev`, and reads as null only when it is. -/
theorem hashPrev_of_parseEventLine {line : String} {lineIndex : Nat} {event : ParsedEvent}
    (h : parseEventLine line lineIndex = .ok event) :
    ∃ obj, Json.parse line.toList = some (.obj obj) ∧
      (Json.lookup "hash_prev" obj = some .null ∧ event.hashPrev = none ∨
        ∃ hp, Json.lookup "hash_prev" obj = some (.str hp) ∧ event.hashPrev = some hp) := by
  obtain ⟨obj, hparse, herror, rfl⟩ := parseEventLine_ok h
  refine ⟨obj, hparse, ?_⟩
  have hfield : (("hash_prev", nullable (stringWith [hashLength, hashPattern])) :
      String × Check) ∈ parsedEventSchema := by
    simp [parsedEventSchema]
  have hcheck := check_of_firstError herror hfield
  dsimp only [ParsedEvent.ofObject, stringField]
  cases hlookup : Json.lookup "hash_prev" obj with
  | none => rw [hlookup] at hcheck; cases hcheck
  | some v =>
    rw [hlookup] at hcheck
    cases v with
    | null => exact .inl ⟨rfl, rfl⟩
    | str hp => exact .inr ⟨hp, rfl, rfl⟩
    | bool b => cases hcheck
    | num n => cases hcheck
    | arr xs => cases hcheck
    | obj ms => cases hcheck

end LoopStorm.Backend
