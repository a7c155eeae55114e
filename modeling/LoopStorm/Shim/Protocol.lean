import LoopStorm.Engine.Decision
import LoopStorm.Lib.JsonParse
import LoopStorm.Lib.Text

/-!
# The wire between a shim and the engine

The two messages as the shims write and read them: `protocol.ts` of the IPC
client, `_protocol.py` of the Python shim, and `write_response` of the engine.

* `DecisionRequest.toDict` — the members of a request, over the strings and
  numbers of either language.
* `Ts.toNdjson` — a TypeScript request as a line; strings are UTF-16 and a lone
  surrogate is written as an escape.
* `Py.toNdjson` — a Python request as a line; there is none when a string holds
  a surrogate.
* `Ts.fromJson`, `Py.fromJson` — a reply read back.
* `writeResponse` — the line the engine answers with; `fromJson_responseText`
  says that both shims read its decision, and `newline_notMem_responseBytes`
  that it is one line.
-/

namespace LoopStorm.Shim

open LoopStorm.Engine

/-- The most bytes a message may have, its newline included. -/
def maxMessageSize : Nat := 65536

/-- The byte that ends a message. -/
def newline : UInt8 := 10

/-! ## Lines -/

/-- The first line of a buffer and the bytes after it. -/
def splitLine (buffer : List UInt8) : Option (List UInt8 × List UInt8) :=
  if newline ∈ buffer then
    some (buffer.takeWhile (· ≠ newline), (buffer.dropWhile (· ≠ newline)).tail)
  else none

theorem splitLine_of_notMem {buffer : List UInt8} (h : newline ∉ buffer) :
    splitLine buffer = none :=
  if_neg h

theorem splitLine_append {line : List UInt8} (h : newline ∉ line) (rest : List UInt8) :
    splitLine (line ++ newline :: rest) = some (line, rest) := by
  have hline : ∀ b ∈ line, decide (b ≠ newline) = true := by
    intro b hb
    refine decide_eq_true ?_
    rintro rfl
    exact h hb
  rw [splitLine, if_pos (by simp), List.takeWhile_append_of_pos hline,
    List.dropWhile_append_of_pos hline]
  simp

/-- The part of a line that has arrived has no newline until all of it has. -/
theorem newline_notMem_of_append {line arrived left : List UInt8} (h : newline ∉ line)
    (happend : arrived ++ left = line ++ [newline]) (hleft : left ≠ []) : newline ∉ arrived := by
  have hlast := List.dropLast_append_getLast hleft
  rw [← hlast, ← List.append_assoc] at happend
  have hline := (List.append_inj' happend rfl).1
  intro hmem
  exact h (hline ▸ List.mem_append_left _ hmem)

/-! ## Requests -/

/-- The numbers of a shim's language and the text its JSON writer gives them. -/
class NumberText (ν : Type) where
  /-- The number a counter or a version is. -/
  ofNat : Nat → ν
  /-- The text of a number in a message. -/
  text : ν → List Char
  /-- The text of a number in the canonical form, unless it has none. -/
  canonical : ν → Option (List Char)

instance : NumberText ℤ := ⟨Int.ofNat, Json.intText, fun n => some (Json.intText n)⟩

/-- A request from the shim to the engine, with strings in `σ` and numbers in
`ν`. -/
structure DecisionRequest (σ ν : Type) where
  schemaVersion : Nat
  runId : σ
  seq : Nat
  tool : σ
  argsHash : σ
  ts : σ
  argsRedacted : Option (Json σ ν)
  agentRole : Option σ
  agentName : Option σ
  model : Option σ
  inputTokens : Option ν
  outputTokens : Option ν
  estimatedCostUsd : Option ν
  environment : Option σ

/-- A member that is left out when its value is absent. -/
def member {σ ν α : Type} (key : σ) (f : α → Json σ ν) : Option α → List (σ × Json σ ν)
  | none => []
  | some a => [(key, f a)]

/-- The members of a request, `lit` giving the keys as strings of the language. -/
def DecisionRequest.toDict {σ ν : Type} [NumberText ν] (lit : String → σ)
    (r : DecisionRequest σ ν) : List (σ × Json σ ν) :=
  [(lit "schema_version", .num (NumberText.ofNat r.schemaVersion)),
    (lit "run_id", .str r.runId),
    (lit "seq", .num (NumberText.ofNat r.seq)),
    (lit "tool", .str r.tool),
    (lit "args_hash", .str r.argsHash),
    (lit "ts", .str r.ts)] ++
  member (lit "args_redacted") id r.argsRedacted ++
  member (lit "agent_role") .str r.agentRole ++
  member (lit "agent_name") .str r.agentName ++
  member (lit "model") .str r.model ++
  member (lit "input_tokens") .num r.inputTokens ++
  member (lit "output_tokens") .num r.outputTokens ++
  member (lit "estimated_cost_usd") .num r.estimatedCostUsd ++
  member (lit "environment") .str r.environment

/-! ## Requests in TypeScript -/

namespace Ts

/-- A JavaScript string: UTF-16 code units, surrogates in any order. -/
abbrev Str : Type := List UInt16

/-- The code units of a character. -/
def units (c : Char) : List UInt16 :=
  if c.toNat < 0x10000 then [UInt16.ofNat c.toNat]
  else
    [UInt16.ofNat (0xD800 + (c.toNat - 0x10000) / 0x400),
      UInt16.ofNat (0xDC00 + (c.toNat - 0x10000) % 0x400)]

/-- A literal of the source. -/
def lit (s : String) : Str := s.toList.flatMap units

/-- The first half of a surrogate pair. -/
def isLead (u : UInt16) : Bool := 0xD800 ≤ u && u < 0xDC00

/-- The second half of a surrogate pair. -/
def isTrail (u : UInt16) : Bool := 0xDC00 ≤ u && u < 0xE000

/-- A lone surrogate as `JSON.stringify` writes it. -/
def escapeUnit (u : UInt16) : List Char :=
  ['\\', 'u', Json.hexDigit (u.toNat / 4096), Json.hexDigit (u.toNat / 256 % 16),
    Json.hexDigit (u.toNat / 16 % 16), Json.hexDigit (u.toNat % 16)]

/-- A code unit on its own. -/
def quoteUnit (u : UInt16) : List Char :=
  if isLead u || isTrail u then escapeUnit u else Json.escapeChar (Char.ofNat u.toNat)

/-- The contents of a string literal: surrogate pairs as their character. -/
def quoteUnits : Str → List Char
  | [] => []
  | [u] => quoteUnit u
  | u :: v :: us =>
    if isLead u && isTrail v then
      Json.escapeChar (Char.ofNat (0x10000 + (u.toNat - 0xD800) * 0x400 + (v.toNat - 0xDC00))) ++
        quoteUnits us
    else quoteUnit u ++ quoteUnits (v :: us)

/-- A string literal. -/
def quote (s : Str) : List Char := '"' :: (quoteUnits s ++ ['"'])

/-- `JSON.stringify` of an object. -/
def stringify {ν : Type} [NumberText ν] (ms : List (Str × Json Str ν)) : List Char :=
  Json.render quote NumberText.text (.obj ms)

/-- Serialize to NDJSON line. -/
def toNdjson {ν : Type} [NumberText ν] (r : DecisionRequest Str ν) : List UInt8 :=
  Text.utf8 (String.ofList (stringify (r.toDict lit))) ++ [newline]

example : quote [0x0A, 0xD834, 0xDD1E, 0xD834] =
    ['"', '\\', 'n', Char.ofNat 0x1D11E, '\\', 'u', 'd', '8', '3', '4', '"'] := by
  decide

end Ts

/-! ## Requests in Python -/

namespace Py

/-- A code point of a Python string. -/
inductive CodePoint where
  | scalar (c : Char)
  | surrogate (n : Fin 2048)
  deriving DecidableEq, Repr

/-- A Python string. -/
abbrev Str : Type := List CodePoint

/-- A literal of the source. -/
def lit (s : String) : Str := s.toList.map .scalar

/-- The code point as a character, when it has a UTF-8 encoding. -/
def CodePoint.encode : CodePoint → Option Char
  | .scalar c => some c
  | .surrogate _ => none

/-- A string whose code points all have a UTF-8 encoding. -/
def encode (s : Str) : Option String := (s.mapM CodePoint.encode).map String.ofList

variable {ν : Type}

mutual
/-- A value whose strings all have a UTF-8 encoding. -/
def encodeValue : Json Str ν → Option (Json String ν)
  | .null => some .null
  | .bool b => some (.bool b)
  | .num n => some (.num n)
  | .str s => (encode s).map .str
  | .arr xs => (encodeValues xs).map .arr
  | .obj ms => (encodeMembers ms).map .obj

/-- `encodeValue` over the elements of a list. -/
def encodeValues : List (Json Str ν) → Option (List (Json String ν))
  | [] => some []
  | x :: xs => do
    let y ← encodeValue x
    let ys ← encodeValues xs
    return y :: ys

/-- `encodeValue` over the items of a dict. -/
def encodeMembers : List (Str × Json Str ν) → Option (List (String × Json String ν))
  | [] => some []
  | (k, v) :: ms => do
    let k ← encode k
    let v ← encodeValue v
    let ms ← encodeMembers ms
    return (k, v) :: ms
end

/-- Serialize to NDJSON line; `none` when `payload.encode("utf-8")` raises.
The payload holds the strings of the request as they are (`ensure_ascii=False`),
so it can be encoded when each of them can. -/
def toNdjson [NumberText ν] (r : DecisionRequest Str ν) : Option (List UInt8) :=
  (encodeMembers (r.toDict lit)).map fun ms =>
    Text.utf8 (String.ofList (Json.render Json.quote NumberText.text (.obj ms))) ++ [newline]

end Py

/-! ## Replies -/

/-- A JSON value of a reply, its numbers as they were written. -/
abbrev ReplyValue : Type := Json String (List Char)

/-- A reply as a shim holds it: the members it knows, whatever their values. -/
structure DecisionResponse where
  schemaVersion : Option ReplyValue
  runId : Option ReplyValue
  seq : Option ReplyValue
  decision : Option ReplyValue
  ruleId : Option ReplyValue
  reason : Option ReplyValue
  cooldownMs : Option ReplyValue
  cooldownMessage : Option ReplyValue
  approvalId : Option ReplyValue
  approvalTimeoutMs : Option ReplyValue
  approvalTimeoutAction : Option ReplyValue
  budgetRemaining : Option ReplyValue
  ts : Option ReplyValue

/-- The reply with the given members, unknown ones ignored. -/
def DecisionResponse.ofMembers (ms : List (String × ReplyValue)) : DecisionResponse where
  schemaVersion := Json.lookup "schema_version" ms
  runId := Json.lookup "run_id" ms
  seq := Json.lookup "seq" ms
  decision := Json.lookup "decision" ms
  ruleId := Json.lookup "rule_id" ms
  reason := Json.lookup "reason" ms
  cooldownMs := Json.lookup "cooldown_ms" ms
  cooldownMessage := Json.lookup "cooldown_message" ms
  approvalId := Json.lookup "approval_id" ms
  approvalTimeoutMs := Json.lookup "approval_timeout_ms" ms
  approvalTimeoutAction := Json.lookup "approval_timeout_action" ms
  budgetRemaining := Json.lookup "budget_remaining" ms
  ts := Json.lookup "ts" ms

/-- Deserialize from the bytes of a line; `none` when `JSON.parse` or the
constructor throws.  Any value but `null` has its members read, and only an
object has any. -/
def Ts.fromJson (line : List UInt8) : Option DecisionResponse :=
  match Json.parse (Text.ofUtf8Lossy line).toList with
  | none => none
  | some .null => none
  | some (.obj ms) => some (.ofMembers ms)
  | some _ => some (.ofMembers [])

/-- Deserialize from the bytes of a line; `none` when decoding, `json.loads` or
the constructor raises, which wants the four fields without a default. -/
def Py.fromJson (line : List UInt8) : Option DecisionResponse :=
  match (Text.ofUtf8 line).bind (fun s => Json.parse s.toList) with
  | some (.obj ms) =>
    let r := DecisionResponse.ofMembers ms
    if r.schemaVersion.isSome && r.runId.isSome && r.seq.isSome && r.decision.isSome then some r
    else none
  | _ => none

/-! ## The engine's line -/

section Engine

variable {F : Type} [Float64 F]

/-- The JSON text of a response. -/
def responseText (r : Engine.DecisionResponse F) : List Char := Value.toText (.obj r.wire)

/-- The bytes of a response, without the newline. -/
def responseBytes (r : Engine.DecisionResponse F) : List UInt8 :=
  Text.utf8 (String.ofList (responseText r))

/-- Serialize a response as NDJSON. -/
def writeResponse (r : Engine.DecisionResponse F) : List UInt8 := responseBytes r ++ [newline]

/-- A response is one line. -/
theorem newline_notMem_responseBytes (r : Engine.DecisionResponse F) :
    newline ∉ responseBytes r := by
  refine Text.newline_notMem_utf8 (fun h => ?_)
  have hprintable := Json.printable_render Json.quote Number.text
    (fun _ _ hd => Json.printable_quote hd) Number.printable_text _ _ h
  exact absurd hprintable (by decide)

/-- What the members of a response read back as. -/
theorem parse_responseText (r : Engine.DecisionResponse F) :
    Json.parse (responseText r) = some (.obj (Json.mapNumM Number.text r.wire)) :=
  Json.parse_render Number.text Number.isNumber_text (.obj r.wire)

/-- The reply a shim makes of a response. -/
def readBack (r : Engine.DecisionResponse F) : DecisionResponse :=
  .ofMembers (Json.mapNumM Number.text r.wire)

theorem lookup_wire (r : Engine.DecisionResponse F) :
    Json.lookup "decision" r.wire = some (.str r.decision.wire) ∧
      Json.lookup "run_id" r.wire = some (.str r.runId) ∧
      Json.lookup "seq" r.wire = some (u64Value r.seq) ∧
      (Json.lookup "schema_version" r.wire).isSome = true := by
  simp [Engine.DecisionResponse.wire, Json.lookup_append, Json.lookup, lookup_optMember_of_ne]

@[simp] theorem decision_readBack (r : Engine.DecisionResponse F) :
    (readBack r).decision = some (.str r.decision.wire) := by
  have h := Json.lookup_mapNumM Number.text "decision" r.wire
  rwa [(lookup_wire r).1] at h

@[simp] theorem runId_readBack (r : Engine.DecisionResponse F) :
    (readBack r).runId = some (.str r.runId) := by
  have h := Json.lookup_mapNumM Number.text "run_id" r.wire
  rwa [(lookup_wire r).2.1] at h

@[simp] theorem seq_readBack (r : Engine.DecisionResponse F) :
    (readBack r).seq = some (.num (Json.natText r.seq.toNat)) := by
  have h := Json.lookup_mapNumM Number.text "seq" r.wire
  rwa [(lookup_wire r).2.2.1] at h

/-- **Both shims read the engine's line**, and read the same. -/
theorem fromJson_responseBytes (r : Engine.DecisionResponse F) :
    Ts.fromJson (responseBytes r) = some (readBack r) ∧
      Py.fromJson (responseBytes r) = some (readBack r) := by
  have hparse := parse_responseText r
  constructor
  · rw [Ts.fromJson, responseBytes, Text.ofUtf8Lossy_utf8, String.toList_ofList, hparse]
    rfl
  · have hversion : (readBack r).schemaVersion.isSome = true := by
      rw [readBack, DecisionResponse.ofMembers, Json.lookup_mapNumM, Option.isSome_map]
      exact (lookup_wire r).2.2.2
    unfold Py.fromJson
    rw [responseBytes, Text.ofUtf8_utf8, Option.bind_some, String.toList_ofList, hparse]
    change (if (readBack r).schemaVersion.isSome && (readBack r).runId.isSome &&
      (readBack r).seq.isSome && (readBack r).decision.isSome then some (readBack r) else none) = _
    rw [hversion, runId_readBack, seq_readBack, decision_readBack]
    rfl

end Engine

end LoopStorm.Shim
