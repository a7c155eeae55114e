import LoopStorm.Engine.Audit
import LoopStorm.Lib.JsonParse
import LoopStorm.Lib.HashChain

/-!
# The verifier of audit logs

`verify_chain` of `apps/cli/src/verify.rs`, over the bytes of a file.  The JSON
reader is a parameter: what the verifier takes from it is whether a line is an
object and what strings it holds under two keys.

* `verifyChain` — the verdict on a file, or the reason there is none.
* `stripHashFields` — the payload of a line, by text replacement.
* `chain_of_valid` — an accepted file is a chain of lines.
* `tamper_evident` — **an accepted log is determined by its last line**.
-/

namespace LoopStorm.Cli

open LoopStorm.Engine

/-- The reader of `serde_json`, with its own type of numbers. -/
class JsonReader where
  Num : Type
  parse : String → Option (Json String Num)

/-- Result of verifying an audit log chain. -/
structure VerifyResult where
  valid : Bool
  eventCount : Nat
  breakAtLine : Option Nat
  expectedHash : Option String
  actualHash : Option String
  error : Option String
  deriving DecidableEq, Repr

/-- Errors that prevent verification from completing. -/
inductive VerifyError where
  | io
  | json (line : Nat)
  deriving DecidableEq, Repr

/-- A chain found broken at a line, counted from zero. -/
def VerifyResult.brokenAt (i : Nat) (expected actual : Option String) (error : String) :
    VerifyResult where
  valid := false
  eventCount := i
  breakAtLine := some (i + 1)
  expectedHash := expected
  actualHash := actual
  error := some error

/-- A chain of `n` events with no break. -/
def VerifyResult.intact (n : Nat) : VerifyResult where
  valid := true
  eventCount := n
  breakAtLine := none
  expectedHash := none
  actualHash := none
  error := none

/-- Strip the hash fields from a raw JSON line: the first text that looks like
`hash_prev`, then the first that looks like `hash`. -/
def stripHashFields (line : String) (hash hashPrev : Option String) : String :=
  let result := line.toList
  let result := match hashPrev with
    | some hp => Text.removeFirst (",\"hash_prev\":\"" ++ hp ++ "\"").toList result
    | none => result
  let result := match hash with
    | some h => Text.removeFirst (",\"hash\":\"" ++ h ++ "\"").toList result
    | none => result
  String.ofList result

/-- The string a parsed line holds under a key. -/
def storedString {ν : Type} (key : String) (obj : List (String × Json String ν)) :
    Option String :=
  (Json.lookup key obj).bind Json.asStr

section Verifier

variable [Sha256] [JsonReader]

/-- The hash check of a line: its payload has the digest it stores. -/
def checkHash (i : Nat) (line : String) (storedHash storedHashPrev : Option String) :
    Option VerifyResult :=
  let computed := sha256Hex (stripHashFields line storedHash storedHashPrev)
  if storedHash = some computed then none
  else some (.brokenAt i (some computed) storedHash "event hash mismatch")

/-- The checks of a line, `prev` being the line before it; the result is the
break found, if any. -/
def checkLine (i : Nat) (prev : Option String) (line : String) :
    Except VerifyError (Option VerifyResult) :=
  match JsonReader.parse line with
  | none => .error (.json (i + 1))
  | some value =>
    match value.asObj with
    | none => .ok (some (.brokenAt i none none "line is not a JSON object"))
    | some obj =>
      let storedHash := storedString "hash" obj
      let storedHashPrev := storedString "hash_prev" obj
      match prev with
      | none =>
        if storedHashPrev.isSome then
          .ok (some (.brokenAt i none storedHashPrev "first event should not have hash_prev"))
        else .ok (checkHash i line storedHash storedHashPrev)
      | some prev =>
        let expected := sha256Hex prev
        if storedHashPrev = some expected then
          .ok (checkHash i line storedHash storedHashPrev)
        else
          .ok (some (.brokenAt i (some expected) storedHashPrev "hash_prev mismatch"))

/-- The loop over the lines, from line `i` on. -/
def verifyLines (i : Nat) (prev : Option String) : List String → Except VerifyError VerifyResult
  | [] => .ok (.intact i)
  | line :: rest =>
    match checkLine i prev line with
    | .error e => .error e
    | .ok (some broken) => .ok broken
    | .ok none => verifyLines (i + 1) (some line) rest

omit [Sha256] [JsonReader] in
/-- The lines of a text that are not blank. -/
def nonBlankLines (content : String) : List String :=
  ((Text.lines content.toList).filter (fun line => !Text.isBlank line)).map String.ofList

/-- Verify the hash chain integrity of a log file. -/
def verifyChain (file : List UInt8) : Except VerifyError VerifyResult :=
  match Text.ofUtf8 file with
  | none => .error .io
  | some content => verifyLines 0 none (nonBlankLines content)

/-! ## Accepted files are chains -/

/-- The string a line stores under a key. -/
def storedIn (key line : String) : Option String :=
  ((JsonReader.parse line).bind Json.asObj).bind (storedString key)

/-- A line that passes its checks links to the line before it. -/
theorem storedIn_of_checkLine {i : Nat} {prev : Option String} {line : String}
    (h : checkLine i prev line = .ok none) : storedIn "hash_prev" line = prev.map sha256Hex := by
  unfold checkLine at h
  cases hparse : JsonReader.parse line with
  | none => rw [hparse] at h; cases h
  | some value =>
    cases hobj : value.asObj with
    | none => rw [hparse] at h; simp only [hobj] at h; cases h
    | some obj =>
      rw [hparse] at h
      simp only [hobj] at h
      rw [storedIn, hparse, Option.bind_some, hobj, Option.bind_some]
      cases prev with
      | none =>
        by_cases hsome : (storedString "hash_prev" obj).isSome = true
        · simp only [hsome, if_true] at h
          cases h
        · simpa using hsome
      | some prev =>
        by_cases heq : storedString "hash_prev" obj = some (sha256Hex prev)
        · exact heq
        · simp only [heq, if_false] at h
          cases h

omit [JsonReader] in
theorem valid_of_checkHash {i : Nat} {line : String} {storedHash storedHashPrev : Option String}
    {broken : VerifyResult} (h : checkHash i line storedHash storedHashPrev = some broken) :
    broken.valid = false := by
  unfold checkHash at h
  dsimp only at h
  split at h
  · cases h
  · cases h
    rfl

/-- A break found is not reported as valid. -/
theorem valid_of_checkLine {i : Nat} {prev : Option String} {line : String}
    {broken : VerifyResult} (h : checkLine i prev line = .ok (some broken)) :
    broken.valid = false := by
  unfold checkLine at h
  dsimp only at h
  split at h
  · cases h
  · split at h
    · cases h
      rfl
    · split at h
      · split at h
        · cases h
          rfl
        · exact valid_of_checkHash (Except.ok.inj h)
      · split at h
        · exact valid_of_checkHash (Except.ok.inj h)
        · cases h
          rfl

/-- Lines that pass are linked, each to the one before it. -/
theorem linked_of_verifyLines {i : Nat} {prev : Option String} {lines : List String}
    {r : VerifyResult} (h : verifyLines i prev lines = .ok r) (hv : r.valid = true) :
    HashChain.Linked sha256Hex (storedIn "hash_prev") (prev.map sha256Hex) lines := by
  induction lines generalizing i prev with
  | nil => trivial
  | cons line rest ih =>
    rw [verifyLines] at h
    cases hcheck : checkLine i prev line with
    | error e => rw [hcheck] at h; cases h
    | ok found =>
      rw [hcheck] at h
      cases found with
      | none => exact ⟨storedIn_of_checkLine hcheck, ih h⟩
      | some broken =>
        cases h
        rw [valid_of_checkLine hcheck] at hv
        cases hv

omit [Sha256] [JsonReader] in
/-- The lines of a file that are not blank; none when it is not UTF-8. -/
def linesOfFile (file : List UInt8) : List String :=
  match Text.ofUtf8 file with
  | none => []
  | some content => nonBlankLines content

/-- An accepted file is a chain of lines: the first links to nothing and every
other one to the line before it. -/
theorem chain_of_valid {file : List UInt8} {r : VerifyResult} (h : verifyChain file = .ok r)
    (hv : r.valid = true) :
    HashChain.Chain sha256Hex (storedIn "hash_prev") (linesOfFile file) := by
  unfold verifyChain at h
  unfold linesOfFile
  cases hutf : Text.ofUtf8 file with
  | none => rw [hutf] at h; cases h
  | some content =>
    rw [hutf] at h
    exact linked_of_verifyLines h hv

/-- **Tamper evidence.**  With an injective digest, two accepted files with the
same last line, blank lines aside, have the same lines: no event can be edited,
removed, inserted or moved without changing the last line. -/
theorem tamper_evident (hinj : Function.Injective (Sha256.hex : List UInt8 → String))
    {file file' : List UInt8} {r r' : VerifyResult} (h : verifyChain file = .ok r)
    (hv : r.valid = true) (h' : verifyChain file' = .ok r') (hv' : r'.valid = true)
    (hlast : (linesOfFile file).getLast? = (linesOfFile file').getLast?) :
    linesOfFile file = linesOfFile file' := by
  refine HashChain.chain_unique sha256Hex (storedIn "hash_prev") ?_ (chain_of_valid h hv)
    (chain_of_valid h' hv') hlast
  intro a _ b _ hab
  exact Text.utf8_injective (hinj hab)

end Verifier

namespace Sample

/-- The reader of this development in place of `serde_json`'s. -/
scoped instance jsonReader : JsonReader := ⟨List Char, fun s => Json.parse s.toList⟩

/-- Bytes written in hex: an injective digest. -/
def hexBytes (bs : List UInt8) : String :=
  String.ofList (bs.flatMap (fun b =>
    [Json.hexDigit (b.toNat / 16), Json.hexDigit (b.toNat % 16)]))

theorem hexDigit_injective {m n : Nat} (hm : m < 16) (hn : n < 16)
    (h : Json.hexDigit m = Json.hexDigit n) : m = n := by
  have hnat := congrArg Char.toNat h
  rw [Json.hexDigit_toNat hm, Json.hexDigit_toNat hn] at hnat
  split at hnat <;> split at hnat <;> omega

theorem hexBytes_injective : Function.Injective hexBytes := by
  intro bs cs h
  have hlist := String.ofList_injective h
  clear h
  induction bs generalizing cs with
  | nil =>
    cases cs with
    | nil => rfl
    | cons c cs => simp at hlist
  | cons b bs ih =>
    cases cs with
    | nil => simp at hlist
    | cons c cs =>
      simp only [List.flatMap_cons, List.cons_append, List.nil_append, List.cons.injEq] at hlist
      have hb := b.toNat_lt
      have hc := c.toNat_lt
      have hhigh := hexDigit_injective (by omega) (by omega) hlist.1
      have hlow := hexDigit_injective (by omega) (by omega) hlist.2.1
      rw [ih hlist.2.2, UInt8.toNat_inj.1 (by omega : b.toNat = c.toNat)]

/-- Hex in place of SHA-256. -/
@[reducible] def hexSha256 : Sha256 := ⟨hexBytes⟩

/-- A line that stores the hex of the rest of it. -/
def line : String := "\x7b\"a\":null,\"hash\":\"7b2261223a6e756c6c7d\"\x7d"

theorem parse_line : JsonReader.parse line =
    some (.obj [("a", .null), ("hash", .str "7b2261223a6e756c6c7d")]) := by
  have hparse := Json.parse_render Json.natText Json.isNumber_natText
    (.obj [("a", .null), ("hash", .str "7b2261223a6e756c6c7d")])
  have htext : line.toList = Json.render Json.quote Json.natText
      (.obj [("a", .null), ("hash", .str "7b2261223a6e756c6c7d")]) := by
    decide
  rw [← htext] at hparse
  exact hparse

/-- A file with that line and nothing but blank lines around it is accepted. -/
theorem verifyChain_line {content : String} (h : nonBlankLines content = [line]) :
    @verifyChain hexSha256 jsonReader (Text.utf8 content) = .ok (.intact 1) := by
  unfold verifyChain
  rw [Text.ofUtf8_utf8]
  dsimp only
  rw [h]
  unfold verifyLines checkLine
  rw [parse_line]
  decide

/-- Two files that differ in their blank lines only. -/
theorem tamper_evident_blank_lines :
    linesOfFile (Text.utf8 (line ++ "\n")) = linesOfFile (Text.utf8 ("\n" ++ line ++ "\n \n")) :=
  @tamper_evident hexSha256 jsonReader hexBytes_injective _ _ _ _ (verifyChain_line (by decide)) rfl
    (verifyChain_line (by decide)) rfl
    (by simp only [linesOfFile, Text.ofUtf8_utf8]; decide)

end Sample

end LoopStorm.Cli
