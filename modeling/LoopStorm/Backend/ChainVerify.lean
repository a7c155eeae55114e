import LoopStorm.Cli.Verify
import LoopStorm.Shim.Protocol

/-!
# Verification on the server

`packages/backend/src/lib/chain-verify.ts`, next to the command line's
`verify_chain`.

* `computeEventHash`, `verifyChain` — the server's verdict on stored events.
* `valid_verifyChain_iff` — what it accepts: every stored hash is the digest of
  the whole line, and every event carries the hash of the one before it.
* `valid_cli_iff` — what the command line accepts: every stored hash is the
  digest of the line without its hash fields, and every line carries the digest
  of the whole line before it.
* `verdicts_agree_iff` — **when the two agree**.
-/

namespace LoopStorm.Backend

open LoopStorm.Engine LoopStorm.Cli
open LoopStorm.Shim (NumberText)

/-! ## The source -/

/-- Minimal interface for an event used in chain verification. -/
structure ChainEvent (ν : Type) where
  seq : Nat
  hash : String
  hashPrev : Option String
  rawLine : Option String
  /-- All other fields are opaque. -/
  others : List (Shim.Ts.Str × Json Shim.Ts.Str ν)

/-- Result of a chain verification. -/
inductive ChainVerifyResult where
  | valid (eventCount : Nat)
  | broken (eventCount brokenAtSeq : Nat) (reason : String)
  deriving DecidableEq, Repr

/-- The chain was found intact. -/
def ChainVerifyResult.isValid : ChainVerifyResult → Bool
  | .valid _ => true
  | .broken .. => false

/-- A hash, or the word for its absence, in a message. -/
def orNull : Option String → String
  | some h => h
  | none => "null"

section Stringify

variable {ν : Type} [NumberText ν]

mutual
/-- Serialize a value to a deterministic JSON string with sorted keys. -/
def deterministicStringify : Json Shim.Ts.Str ν → List Char
  | .null => "null".toList
  | .bool true => "true".toList
  | .bool false => "false".toList
  | .num n => NumberText.text n
  | .str s => Shim.Ts.quote s
  | .arr xs => '[' :: (Json.joinComma (stringifyItems xs) ++ [']'])
  | .obj ms =>
    let sorted := (stringifyPairs ms).mergeSort (fun p q => decide (p.1 ≤ q.1))
    '{' :: (Json.joinComma (sorted.map fun p => Shim.Ts.quote p.1 ++ ':' :: p.2) ++ ['}'])

/-- `deterministicStringify` over the items of an array. -/
def stringifyItems : List (Json Shim.Ts.Str ν) → List (List Char)
  | [] => []
  | x :: xs => deterministicStringify x :: stringifyItems xs

/-- The pairs of an object, each key with the text of its value. -/
def stringifyPairs : List (Shim.Ts.Str × Json Shim.Ts.Str ν) → List (Shim.Ts.Str × List Char)
  | [] => []
  | (k, v) :: ms => (k, deterministicStringify v) :: stringifyPairs ms
end

variable [Sha256]

/-- Compute the expected hash for a single event: of its raw line when it has
one, of the event without its hash fields otherwise. -/
def computeEventHash (event : ChainEvent ν) : String :=
  match event.rawLine with
  | some line => if line = "" then rest else sha256Hex line
  | none => rest
where
  rest : String :=
    sha256Hex (String.ofList (deterministicStringify (.obj
      ((Shim.Ts.lit "seq", .num (NumberText.ofNat event.seq)) :: event.others))))

/-- The loop over the sorted events, `count` of them in all. -/
def verifySorted (count : Nat) : Option String → List (ChainEvent ν) → ChainVerifyResult
  | _, [] => .valid count
  | prevHash, event :: rest =>
    if computeEventHash event ≠ event.hash then
      .broken count event.seq ("Hash mismatch at seq=" ++ toString event.seq ++ ": computed=" ++
        computeEventHash event ++ ", stored=" ++ event.hash)
    else
      match prevHash with
      | none =>
        if event.hashPrev ≠ none then
          .broken count event.seq ("seq=" ++ toString event.seq ++ " has hash_prev=" ++
            orNull event.hashPrev ++ " but expected null (first event)")
        else verifySorted count (some event.hash) rest
      | some prev =>
        if event.hashPrev ≠ some prev then
          .broken count event.seq ("Chain break at seq=" ++ toString event.seq ++ ": hash_prev=" ++
            orNull event.hashPrev ++ ", expected=" ++ prev)
        else verifySorted count (some event.hash) rest

/-- Verify the hash chain integrity of a sequence of events, in any order. -/
def verifyChain (events : List (ChainEvent ν)) : ChainVerifyResult :=
  verifySorted events.length none (events.mergeSort (fun a b => decide (a.seq ≤ b.seq)))

/-! ## What it accepts -/

theorem isValid_verifySorted_iff (count : Nat) (prevHash : Option String)
    (events : List (ChainEvent ν)) :
    (verifySorted count prevHash events).isValid = true ↔
      (∀ e ∈ events, computeEventHash e = e.hash) ∧
        HashChain.Linked ChainEvent.hash ChainEvent.hashPrev prevHash events := by
  induction events generalizing prevHash with
  | nil => simp [verifySorted, HashChain.Linked, ChainVerifyResult.isValid]
  | cons e rest ih =>
    rw [List.forall_mem_cons, HashChain.Linked]
    by_cases hhash : computeEventHash e = e.hash
    · cases prevHash with
      | none =>
        by_cases hlink : e.hashPrev = none
        · simp [verifySorted, hhash, hlink, ih]
        · simp [verifySorted, hhash, hlink, ChainVerifyResult.isValid]
      | some prev =>
        by_cases hlink : e.hashPrev = some prev
        · simp [verifySorted, hhash, hlink, ih]
        · simp [verifySorted, hhash, hlink, ChainVerifyResult.isValid]
    · cases prevHash with
      | none => simp [verifySorted, hhash, ChainVerifyResult.isValid]
      | some prev => simp [verifySorted, hhash, ChainVerifyResult.isValid]

/-- **What the server accepts**, of events in the order of their numbers. -/
theorem valid_verifyChain_iff {events : List (ChainEvent ν)}
    (hsorted : events.Pairwise (fun a b => a.seq < b.seq)) :
    (verifyChain events).isValid = true ↔
      (∀ e ∈ events, computeEventHash e = e.hash) ∧
        HashChain.Chain ChainEvent.hash ChainEvent.hashPrev events := by
  have hsort : events.mergeSort (fun a b => decide (a.seq ≤ b.seq)) = events := by
    refine List.mergeSort_of_pairwise (hsorted.imp ?_)
    intro a b hab
    exact decide_eq_true hab.le
  rw [verifyChain, hsort]
  exact isValid_verifySorted_iff _ _ _

end Stringify

/-! ## The two verifiers on one file -/

section Agreement

variable {ν : Type} [NumberText ν] [Sha256] [JsonReader]

/-- An event is a line of a log with its parsed fields, an absent `hash_prev`
read as null. -/
structure ReadFrom (line : String) (event : ChainEvent ν) : Prop where
  rawLine : event.rawLine = some line
  fields : ∃ obj, JsonReader.parse line = some (.obj obj) ∧
    Json.lookup "hash" obj = some (.str event.hash) ∧
    Json.lookup "hash_prev" obj = event.hashPrev.map .str

/-- Every line links to the one before it by the digest of the whole line, the
first to nothing. -/
def LinksIntact (lines : List String) (events : List (ChainEvent ν)) : Prop :=
  HashChain.Linked (fun p : String × ChainEvent ν => sha256Hex p.1) (fun p => p.2.hashPrev) none
    (lines.zip events)

/-- The digest of every whole line is the hash it stores. -/
def WholeLineHashes (lines : List String) (events : List (ChainEvent ν)) : Prop :=
  ∀ p ∈ lines.zip events, p.2.hash = sha256Hex p.1

/-- The digest of every payload, the line without its hash fields, is the hash
the line stores. -/
def PayloadHashes (lines : List String) (events : List (ChainEvent ν)) : Prop :=
  ∀ p ∈ lines.zip events, p.2.hash = sha256Hex (stripHashFields p.1 (some p.2.hash) p.2.hashPrev)

variable {line : String} {event : ChainEvent ν} {lines : List String}
  {events : List (ChainEvent ν)}

omit [NumberText ν] [Sha256] in
theorem ReadFrom.stored (h : ReadFrom line event) :
    ∃ obj, JsonReader.parse line = some (.obj obj) ∧
      storedString "hash" obj = some event.hash ∧
      storedString "hash_prev" obj = event.hashPrev := by
  obtain ⟨obj, hparse, hhash, hprev⟩ := h.fields
  refine ⟨obj, hparse, ?_, ?_⟩
  · rw [storedString, hhash]
    rfl
  · rw [storedString, hprev]
    cases event.hashPrev with
    | none => rfl
    | some hp => rfl

omit [NumberText ν] in
/-- The checks the command line makes of a line. -/
theorem checkLine_eq_none_iff {i : Nat} {prev : Option String} (h : ReadFrom line event) :
    checkLine i prev line = .ok none ↔
      event.hashPrev = prev.map sha256Hex ∧
        event.hash = sha256Hex (stripHashFields line (some event.hash) event.hashPrev) := by
  obtain ⟨obj, hparse, hhash, hprev⟩ := h.stored
  have hcheck : checkHash i line (some event.hash) event.hashPrev = none ↔
      event.hash = sha256Hex (stripHashFields line (some event.hash) event.hashPrev) := by
    simp [checkHash]
  unfold checkLine
  rw [hparse]
  simp only [Json.asObj, hhash, hprev]
  cases prev with
  | none =>
    cases hlink : event.hashPrev with
    | none => simpa [hlink] using hcheck
    | some hp => simp
  | some prev =>
    dsimp only
    by_cases hlink : event.hashPrev = some (sha256Hex prev)
    · rw [if_pos hlink, Option.map_some]
      simpa [hlink] using hcheck
    · rw [if_neg hlink, Option.map_some]
      simp [hlink]

omit [NumberText ν] in
/-- The loop goes on behind a line that passes, and only there. -/
theorem valid_verifyLines_cons_iff {i : Nat} {prev : Option String} {rest : List String} :
    (∃ r, verifyLines i prev (line :: rest) = .ok r ∧ r.valid = true) ↔
      checkLine i prev line = .ok none ∧
        ∃ r, verifyLines (i + 1) (some line) rest = .ok r ∧ r.valid = true := by
  rw [verifyLines]
  cases hcheck : checkLine i prev line with
  | error e => simp
  | ok found =>
    cases found with
    | none => simp
    | some broken => simp [valid_of_checkLine hcheck]

omit [NumberText ν] in
theorem valid_verifyLines_iff {i : Nat} {prev : Option String}
    (h : List.Forall₂ ReadFrom lines events) :
    (∃ r, verifyLines i prev lines = .ok r ∧ r.valid = true) ↔
      PayloadHashes lines events ∧
        HashChain.Linked (fun p : String × ChainEvent ν => sha256Hex p.1) (fun p => p.2.hashPrev)
          (prev.map sha256Hex) (lines.zip events) := by
  induction h generalizing i prev with
  | nil => simp [verifyLines, VerifyResult.intact, PayloadHashes, HashChain.Linked]
  | @cons line event lines events hread _ ih =>
    rw [valid_verifyLines_cons_iff, checkLine_eq_none_iff hread, ih, List.zip_cons_cons,
      PayloadHashes, PayloadHashes, List.zip_cons_cons, List.forall_mem_cons, HashChain.Linked]
    constructor
    · rintro ⟨⟨hlink, hhash⟩, hhashes, hlinks⟩
      exact ⟨⟨hhash, hhashes⟩, hlink, hlinks⟩
    · rintro ⟨⟨hhash, hhashes⟩, hlink, hlinks⟩
      exact ⟨⟨hlink, hhash⟩, hhashes, hlinks⟩

omit [NumberText ν] in
/-- **What the command line accepts**, of a file with the given lines. -/
theorem valid_cli_iff {content : String}
    (h : List.Forall₂ ReadFrom (nonBlankLines content) events) :
    (∃ r, Cli.verifyChain (Text.utf8 content) = .ok r ∧ r.valid = true) ↔
      PayloadHashes (nonBlankLines content) events ∧
        LinksIntact (nonBlankLines content) events := by
  rw [Cli.verifyChain, Text.ofUtf8_utf8]
  exact valid_verifyLines_iff h

theorem computeEventHash_of_readFrom (h : ReadFrom line event) (hne : line ≠ "") :
    computeEventHash event = sha256Hex line := by
  unfold computeEventHash
  rw [h.rawLine]
  exact if_neg hne

/-- Where the digest of a whole line is the hash it stores, the two ways to link
are one. -/
theorem whole_and_linked_iff {prev : Option String} (h : List.Forall₂ ReadFrom lines events)
    (hne : ∀ line ∈ lines, line ≠ "") :
    (∀ e ∈ events, computeEventHash e = e.hash) ∧
        HashChain.Linked ChainEvent.hash ChainEvent.hashPrev prev events ↔
      WholeLineHashes lines events ∧
        HashChain.Linked (fun p : String × ChainEvent ν => sha256Hex p.1) (fun p => p.2.hashPrev)
          prev (lines.zip events) := by
  induction h generalizing prev with
  | nil => simp [WholeLineHashes, HashChain.Linked]
  | @cons line event lines events hread _ ih =>
    have hcomputed := computeEventHash_of_readFrom hread (hne line (List.mem_cons_self ..))
    have hrest := fun p => @ih p (fun l hl => hne l (List.mem_cons_of_mem _ hl))
    rw [List.zip_cons_cons, WholeLineHashes, List.zip_cons_cons, List.forall_mem_cons,
      List.forall_mem_cons, HashChain.Linked, HashChain.Linked, hcomputed]
    dsimp only
    constructor
    · rintro ⟨⟨hhash, hhashes⟩, hlink, hlinks⟩
      obtain ⟨hhashes, hlinks⟩ := (hrest _).1 ⟨hhashes, hlinks⟩
      exact ⟨⟨hhash.symm, hhashes⟩, hlink, hhash ▸ hlinks⟩
    · rintro ⟨⟨hhash, hhashes⟩, hlink, hlinks⟩
      obtain ⟨hhashes, hlinks⟩ := (hrest _).2 ⟨hhashes, hlinks⟩
      exact ⟨⟨hhash.symm, hhashes⟩, hlink, hhash ▸ hlinks⟩

omit [Sha256] [JsonReader] [NumberText ν] in
theorem ne_empty_of_mem_nonBlankLines {content : String} (h : line ∈ nonBlankLines content) :
    line ≠ "" := by
  obtain ⟨l, hl, rfl⟩ := List.mem_map.1 h
  obtain ⟨-, hblank⟩ := List.mem_filter.1 hl
  intro hempty
  have hnil : l = [] := String.ofList_injective hempty
  rw [hnil] at hblank
  cases hblank

end Agreement

namespace Sample

/-- A line that stores the hex of its payload, as the engine would write it. -/
def line : String := "\x7b\"seq\":1,\"hash\":\"7b22736571223a317d\"\x7d"

/-- The line as a stored event. -/
def event : ChainEvent ℤ := ⟨1, "7b22736571223a317d", none, some line, []⟩

theorem nonBlankLines_line : nonBlankLines (line ++ "\n") = [line] := by decide

theorem readFrom_line : @ReadFrom ℤ Cli.Sample.jsonReader line event := by
  have hparse := Json.parse_render Json.natText Json.isNumber_natText
    (.obj [("seq", .num 1), ("hash", .str "7b22736571223a317d")])
  have htext : line.toList = Json.render Json.quote Json.natText
      (.obj [("seq", .num 1), ("hash", .str "7b22736571223a317d")]) := by
    decide
  rw [← htext] at hparse
  exact @ReadFrom.mk ℤ Cli.Sample.jsonReader line event rfl ⟨_, hparse, rfl, rfl⟩

end Sample

end LoopStorm.Backend
