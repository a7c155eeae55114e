import LoopStorm.Cli.Verify
import LoopStorm.Engine.Log

/-!
# The writer and the verifier agree

A log written by one writer to a fresh file is accepted, whatever its events
hold.  The verifier undoes the writer's work by replacing text, so most of this
file shows that in the text of an event the hash fields are where the verifier
finds them.

* `toList_line` — the text of an event around its hash fields.
* `not_infix_headText` — nothing before them looks like one.
* `stripHashFields_sealed` — stripping a line gives back the payload hashed.
* `verifyLines_sealedAll` — the lines of a log pass, one after the other.
* `verifyChain_writeEvents` — **every log the writer writes is accepted**.
-/

namespace LoopStorm.Cli

open LoopStorm.Engine

/-- A digest in hex: 64 lower-case hexadecimal digits. -/
structure IsHexDigest (s : String) : Prop where
  length : s.toList.length = 64
  digits : ∀ c ∈ s.toList, c ∈ "0123456789abcdef".toList

section Text

variable {F : Type} [Float64 F]

/-! ## The text of an event -/

/-- Members as an event's text holds them, each behind a comma. -/
def memberText (ms : List (String × Value F)) : List Char :=
  Json.commaMembers Json.quote Number.text ms

/-- The members between the first one and the hash fields. -/
def keyMembers (e : AuditEvent F) : List (String × Value F) :=
  [("event_type", .str e.eventType), ("run_id", .str e.runId), ("seq", u64Value e.seq)]

/-- The text of an event up to its hash fields. -/
def headText (e : AuditEvent F) : List Char :=
  '{' :: (Json.quote "schema_version" ++
    ':' :: (u64Value e.schemaVersion.toUInt64 : Value F).toText ++ memberText (keyMembers e))

/-- The text of an event from `ts` on. -/
def tailText (e : AuditEvent F) : List Char := memberText e.tailMembers ++ ['}']

/-- The text of an event: its hash fields stand between a head and a tail that
do not depend on them. -/
theorem toList_line (e : AuditEvent F) :
    e.line.toList = headText e ++ (memberText e.hashMembers ++ tailText e) := by
  have hmembers : e.members = ("schema_version", u64Value e.schemaVersion.toUInt64) ::
      (keyMembers e ++ (e.hashMembers ++ e.tailMembers)) := by
    rw [AuditEvent.members, List.append_assoc]
    rfl
  rw [AuditEvent.line, String.toList_ofList, Value.toText, hmembers, Json.render_obj_cons,
    Json.commaMembers_append, Json.commaMembers_append]
  simp only [headText, tailText, memberText, Value.toText, List.append_assoc, List.cons_append]

/-! ## Nothing before the hash fields looks like one -/

theorem toText_u64Value (n : UInt64) : (u64Value n : Value F).toText = Json.natText n.toNat := rfl

theorem ne_comma_of_mem_natText {n : Nat} {c : Char} (h : c ∈ Json.natText n) : c ≠ ',' := by
  rintro rfl
  exact absurd (Json.isDigit_natText h) (by decide)

variable {v rest : List Char}

/-- The text up to the hash fields holds no start of a key with an `h`. -/
theorem not_infix_headText (e : AuditEvent F) (h : ¬ ',' :: '"' :: 'h' :: v <:+: rest) :
    ¬ ',' :: '"' :: 'h' :: v <:+: headText e ++ rest := by
  have hseq : ¬ ',' :: '"' :: 'h' :: v <:+:
      ',' :: (Json.quote "seq" ++ ':' :: (Json.natText e.seq.toNat ++ rest)) := by
    refine Json.not_infix_member rfl (by decide)
      (fun d hd => Json.ne_comma_of_mem_quote (by decide) hd) ?_
    refine @Json.not_infix_of_no_comma _ _ [':'] (by simp) ?_
    exact Json.not_infix_of_no_comma (fun c hc => ne_comma_of_mem_natText hc) h
  have hrun : ¬ ',' :: '"' :: 'h' :: v <:+:
      ',' :: (Json.quote "run_id" ++ ':' :: (Json.quote e.runId ++
        ',' :: (Json.quote "seq" ++ ':' :: (Json.natText e.seq.toNat ++ rest)))) := by
    refine Json.not_infix_member rfl (by decide)
      (fun d hd => Json.ne_comma_of_mem_quote (by decide) hd) ?_
    refine @Json.not_infix_of_no_comma _ _ [':'] (by simp) ?_
    exact Json.not_infix_quote (by simp) hseq e.runId
  have hevent : ¬ ',' :: '"' :: 'h' :: v <:+:
      ',' :: (Json.quote "event_type" ++ ':' :: (Json.quote e.eventType ++
        ',' :: (Json.quote "run_id" ++ ':' :: (Json.quote e.runId ++
          ',' :: (Json.quote "seq" ++ ':' :: (Json.natText e.seq.toNat ++ rest)))))) := by
    refine Json.not_infix_member rfl (by decide)
      (fun d hd => Json.ne_comma_of_mem_quote (by decide) hd) ?_
    refine @Json.not_infix_of_no_comma _ _ [':'] (by simp) ?_
    exact Json.not_infix_quote (by simp) hrun e.eventType
  have hhead : headText e ++ rest =
      ('{' :: (Json.quote "schema_version" ++ [':']) ++
        Json.natText e.schemaVersion.toUInt64.toNat) ++
      ',' :: (Json.quote "event_type" ++ ':' :: (Json.quote e.eventType ++
        ',' :: (Json.quote "run_id" ++ ':' :: (Json.quote e.runId ++
          ',' :: (Json.quote "seq" ++ ':' :: (Json.natText e.seq.toNat ++ rest)))))) := by
    simp only [headText, keyMembers, memberText, Json.commaMembers, List.flatMap_cons,
      List.flatMap_nil, toText_u64Value, List.append_assoc, List.cons_append, List.nil_append]
    rfl
  rw [hhead]
  refine Json.not_infix_of_no_comma ?_ hevent
  intro c hc
  rcases List.mem_append.1 hc with hc | hc
  · rcases List.mem_cons.1 hc with rfl | hc
    · decide
    · rcases List.mem_append.1 hc with hc | hc
      · exact Json.ne_comma_of_mem_quote (by decide) hc
      · rw [List.mem_singleton.1 hc]
        decide
  · exact ne_comma_of_mem_natText hc

/-! ## Stripping -/

/-- What the verifier looks for, and what the writer put there: a digest is
written as it is. -/
theorem quote_of_isHexDigest {h : String} (hh : IsHexDigest h) :
    Json.quote h = '"' :: (h.toList ++ ['"']) := by
  have hplain : ("0123456789abcdef".toList.all fun c => Json.escapeChar c = [c]) = true := by
    decide
  have hesc : ∀ l : List Char, (∀ c ∈ l, c ∈ "0123456789abcdef".toList) →
      l.flatMap Json.escapeChar = l := by
    intro l hl
    induction l with
    | nil => rfl
    | cons c cs ih =>
      have hc := List.all_eq_true.1 hplain c (hl c (List.mem_cons_self ..))
      rw [List.flatMap_cons, of_decide_eq_true hc,
        ih (fun d hd => hl d (List.mem_cons_of_mem _ hd)), List.singleton_append]
  rw [Json.quote, hesc h.toList hh.digits]

theorem ne_comma_of_isHexDigest {h : String} (hh : IsHexDigest h) {c : Char} (hc : c ∈ h.toList) :
    c ≠ ',' := by
  rintro rfl
  exact absurd (hh.digits _ hc) (by decide)

/-- The needle for a hash field. -/
def needle (key : List Char) (h : String) : List Char :=
  ',' :: '"' :: (key ++ '"' :: ':' :: '"' :: (h.toList ++ ['"']))

theorem toList_hashNeedle (h : String) :
    (",\"hash\":\"" ++ h ++ "\"").toList = needle "hash".toList h := by
  simp [needle]

theorem toList_hashPrevNeedle (h : String) :
    (",\"hash_prev\":\"" ++ h ++ "\"").toList = needle "hash_prev".toList h := by
  simp [needle]

theorem memberText_hash {h : String} (hh : IsHexDigest h) (key : String)
    (hkey : Json.quote key = '"' :: (key.toList ++ ['"'])) :
    memberText [(key, (.str h : Value F))] = needle key.toList h := by
  simp [memberText, Json.commaMembers, Json.render, quote_of_isHexDigest hh, hkey, needle]

/-- With the `hash_prev` field gone, the `hash` field is the first text that
looks like it. -/
theorem removeFirst_hash (e : AuditEvent F) (h : String) (post : List Char) :
    Text.removeFirst (needle "hash".toList h) (headText e ++ (needle "hash".toList h ++ post)) =
      headText e ++ post := by
  refine @Text.removeFirst_of_start _ _ [',', '"', 'h'] _ _ _ (by simp) ?_
  refine not_infix_headText e (fun hinf => ?_)
  exact absurd hinf.length_le (by decide)

/-- The `hash_prev` field is the first text that looks like it: the `hash` field
in front of it differs in its sixth character. -/
theorem removeFirst_hashPrev (e : AuditEvent F) {h : String} (hh : IsHexDigest h) (hp : String)
    (post : List Char) :
    Text.removeFirst (needle "hash_prev".toList hp)
        ((headText e ++ needle "hash".toList h) ++ (needle "hash_prev".toList hp ++ post)) =
      (headText e ++ needle "hash".toList h) ++ post := by
  refine @Text.removeFirst_of_start _ _ [',', '"', 'h', 'a', 's', 'h', '_'] _ _ _ (by simp) ?_
  rw [List.append_assoc]
  refine not_infix_headText e ?_
  rw [needle, List.cons_append, List.infix_cons_iff]
  rintro (hpre | hinf)
  · simp at hpre
  · revert hinf
    refine Json.not_infix_of_no_comma ?_ (fun hinf => absurd hinf.length_le (by decide))
    intro c hc
    simp only [List.mem_cons, List.mem_append, List.not_mem_nil, or_false] at hc
    rcases hc with rfl | hc | rfl | rfl | rfl | hc | rfl
    · decide
    · rintro rfl
      exact absurd hc (by decide)
    · decide
    · decide
    · decide
    · exact ne_comma_of_isHexDigest hh hc
    · decide

/-- **Stripping undoes sealing.**  From the line of an event with a digest for
`hash`, and a digest or nothing for `hash_prev`, the verifier gets back the line
of the event without either. -/
theorem stripHashFields_line (e : AuditEvent F) {h : String} (hh : IsHexDigest h)
    (hhash : e.hash = some h) (hprev : ∀ p, e.hashPrev = some p → IsHexDigest p) :
    stripHashFields e.line e.hash e.hashPrev = e.unhashed.line := by
  have hpayload : e.unhashed.line.toList = headText e ++ tailText e := toList_line e.unhashed
  refine String.toList_injective ?_
  unfold stripHashFields
  rw [hpayload, hhash, String.toList_ofList]
  dsimp only
  rw [toList_hashNeedle, toList_line, AuditEvent.hashMembers, hhash]
  cases hp : e.hashPrev with
  | none =>
    have hfields : memberText (optMember "hash" .str (some h) ++ optMember "hash_prev" .str none :
        List (String × Value F)) = needle "hash".toList h :=
      memberText_hash hh "hash" rfl
    rw [hfields]
    exact removeFirst_hash e h _
  | some p =>
    have hfields : memberText (optMember "hash" .str (some h) ++
        optMember "hash_prev" .str (some p) : List (String × Value F)) =
          needle "hash".toList h ++ needle "hash_prev".toList p := by
      rw [memberText, Json.commaMembers_append]
      exact congrArg₂ _ (memberText_hash hh "hash" rfl) (memberText_hash (hprev p hp) "hash_prev" rfl)
    rw [hfields, List.append_assoc, ← List.append_assoc]
    dsimp only
    rw [toList_hashPrevNeedle, removeFirst_hashPrev e hh, List.append_assoc]
    exact removeFirst_hash e h _

/-! ## The members read back -/

theorem storedString_optMember (key : String) (o : Option String) :
    storedString key (optMember key .str o : List (String × Value F)) = o := by
  cases o with
  | none => rfl
  | some a => simp [storedString, optMember, Json.lookup, Json.asStr]

theorem lookup_headMembers (e : AuditEvent F) {key : String} (h : key = "hash" ∨ key = "hash_prev") :
    Json.lookup key e.headMembers = none := by
  rcases h with rfl | rfl <;> simp [AuditEvent.headMembers, Json.lookup]

theorem lookup_tailMembers (e : AuditEvent F) {key : String} (h : key = "hash" ∨ key = "hash_prev") :
    Json.lookup key e.tailMembers = none := by
  rcases h with rfl | rfl <;>
    simp [AuditEvent.tailMembers, Json.lookup, Json.lookup_append, lookup_optMember_of_ne]

/-- An event holds its hash fields under their keys. -/
theorem storedString_members (e : AuditEvent F) :
    storedString "hash" e.members = e.hash ∧ storedString "hash_prev" e.members = e.hashPrev := by
  have hmem : ∀ key, key = "hash" ∨ key = "hash_prev" →
      Json.lookup key e.members = Json.lookup key e.hashMembers := by
    intro key hkey
    rw [AuditEvent.members, Json.lookup_append, Json.lookup_append, lookup_tailMembers e hkey,
      lookup_headMembers e hkey, Option.none_or, Option.or_none]
  constructor
  · rw [storedString, hmem _ (.inl rfl), AuditEvent.hashMembers, Json.lookup_append,
      lookup_optMember_of_ne (by decide), Option.none_or]
    exact storedString_optMember "hash" e.hash
  · rw [storedString, hmem _ (.inr rfl), AuditEvent.hashMembers, Json.lookup_append,
      lookup_optMember_of_ne (by decide : "hash" ≠ "hash_prev"), Option.or_none]
    exact storedString_optMember "hash_prev" e.hashPrev

end Text

/-! ## The lines of a log -/

section Lines

variable {F : Type} [Float64 F]

/-- The text of an event is one line. -/
theorem printable_line (e : AuditEvent F) : ∀ c ∈ e.line.toList, 32 ≤ c.toNat := by
  rw [AuditEvent.line, String.toList_ofList]
  exact Json.printable_render _ _ (fun _ _ hc => Json.printable_quote hc) Number.printable_text _

/-- The text of a log: the lines of its events, each with a newline. -/
def logText (es : List (AuditEvent F)) : String :=
  String.ofList ((es.map (fun e => e.line.toList)).flatMap (fun l => l ++ ['\n']))

theorem utf8_logText (es : List (AuditEvent F)) : Text.utf8 (logText es) = logBytes es := by
  induction es with
  | nil => rfl
  | cons e es ih =>
    have hcons : logText (e :: es) = e.line ++ "\n" ++ logText es := by
      refine String.toList_injective ?_
      simp [logText]
    have hnewline : Text.utf8 "\n" = [10] := by decide
    rw [hcons, Text.utf8_append, Text.utf8_append, ih, hnewline, logBytes_cons]

/-- The lines of the text of a log that are not blank are the lines of its
events. -/
theorem nonBlankLines_logText (es : List (AuditEvent F)) :
    nonBlankLines (logText es) = es.map AuditEvent.line := by
  have hlines : Text.lines (logText es).toList = es.map (fun e => e.line.toList) := by
    rw [logText, String.toList_ofList]
    refine Text.lines_flatMap ?_
    intro l hl
    obtain ⟨e, -, rfl⟩ := List.mem_map.1 hl
    constructor
    · intro hmem
      exact absurd (printable_line e _ hmem) (by decide)
    · intro hlast
      exact absurd (printable_line e _ (List.mem_of_getLast? hlast)) (by decide)
  have hblank : ∀ l ∈ es.map (fun e => e.line.toList), (!Text.isBlank l) = true := by
    intro l hl
    obtain ⟨e, -, rfl⟩ := List.mem_map.1 hl
    have hbrace : '{' ∈ e.line.toList := by
      rw [toList_line, headText]
      exact List.mem_append_left _ (List.mem_cons_self ..)
    rw [Text.isBlank_eq_false hbrace (by decide)]
    rfl
  rw [nonBlankLines, hlines, List.filter_eq_self.2 hblank, List.map_map]
  refine List.map_congr_left (fun e _ => ?_)
  exact String.ofList_toList

end Lines

section Agreement

variable {F : Type} [Float64 F] [Sha256] [JsonReader]

/-- The reader reads what `serde_json` writes: the text of an object is an
object, with the same strings under its keys. -/
def ReadsBack (F : Type) [Float64 F] : Prop :=
  ∀ ms : List (String × Value F), ∃ obj,
    JsonReader.parse (String.ofList (Value.toText (.obj ms))) = some (.obj obj) ∧
      ∀ key, storedString key obj = storedString key ms

/-- The `hash_prev` of the next event. -/
def link (w : AuditWriter) : Option String := if w.eventCount = 0 then none else some w.lastHash

omit [JsonReader] in
/-- From the line of a sealed event the verifier strips what sealing added. -/
theorem stripHashFields_sealed (hhex : ∀ bs, IsHexDigest (Sha256.hex bs)) {w : AuditWriter}
    {prev : Option String} (hlink : link w = prev.map sha256Hex) (e : AuditEvent F) :
    stripHashFields (w.sealed e).line (w.sealed e).hash (w.sealed e).hashPrev =
      e.unhashed.line := by
  refine stripHashFields_line (w.sealed e) (hhex _) rfl ?_
  intro p hp
  have hp' : link w = some p := hp
  rw [hlink] at hp'
  obtain ⟨line, -, rfl⟩ := Option.map_eq_some_iff.1 hp'
  exact hhex _

/-- The line of a sealed event passes its checks. -/
theorem checkLine_sealed (hhex : ∀ bs, IsHexDigest (Sha256.hex bs)) (hread : ReadsBack F)
    {w : AuditWriter} {prev : Option String} (hlink : link w = prev.map sha256Hex) (i : Nat)
    (e : AuditEvent F) : checkLine i prev (w.sealed e).line = .ok none := by
  have hhash : (w.sealed e).hash = some (sha256Hex e.unhashed.line) := rfl
  have hprev : (w.sealed e).hashPrev = prev.map sha256Hex := hlink
  have hcheck : checkHash i (w.sealed e).line (w.sealed e).hash (w.sealed e).hashPrev = none := by
    rw [checkHash, stripHashFields_sealed hhex hlink]
    exact if_pos rfl
  obtain ⟨obj, hparse, hstored⟩ := hread (w.sealed e).members
  unfold checkLine
  rw [AuditEvent.line, hparse]
  simp only [Json.asObj, hstored, (storedString_members _).1, (storedString_members _).2]
  rw [← AuditEvent.line, hcheck, hprev]
  cases prev with
  | none => rfl
  | some line => exact if_pos rfl

/-- The lines of a log pass, one after the other. -/
theorem verifyLines_sealedAll (hhex : ∀ bs, IsHexDigest (Sha256.hex bs)) (hread : ReadsBack F)
    {w : AuditWriter} {prev : Option String} (hlink : link w = prev.map sha256Hex) (i : Nat)
    (es : List (AuditEvent F)) :
    verifyLines i prev ((w.sealedAll es).map AuditEvent.line) = .ok (.intact (i + es.length)) := by
  induction es generalizing w prev i with
  | nil => rfl
  | cons e es ih =>
    rw [AuditWriter.sealedAll, List.map_cons, verifyLines, checkLine_sealed hhex hread hlink]
    dsimp only
    rw [ih rfl, List.length_cons]
    congr 2
    omega

omit [JsonReader] in
theorem link_writeEvents {w : AuditWriter} {prev : Option String}
    (hlink : link w = prev.map sha256Hex) (es : List (AuditEvent F)) :
    ∃ prev' : Option String, link (w.writeEvents es) = prev'.map sha256Hex := by
  induction es generalizing w prev with
  | nil => exact ⟨prev, hlink⟩
  | cons e es ih => exact @ih (w.writeEvent e .ok).2 (some (w.sealed e).line) rfl

omit [JsonReader] in
/-- The file one writer leaves is the text of its log. -/
theorem disk_eq_logText (path : String) (events : List (AuditEvent F)) :
    ((AuditWriter.new path []).writeEvents events).disk =
      Text.utf8 (logText ((AuditWriter.new path []).sealedAll events)) := by
  rw [utf8_logText]
  exact (disk_writeEvents rfl events).1

/-- The file one writer leaves is accepted, with the number of its events. -/
theorem verifyChain_disk (hhex : ∀ bs, IsHexDigest (Sha256.hex bs)) (hread : ReadsBack F)
    (path : String) (events : List (AuditEvent F)) :
    verifyChain ((AuditWriter.new path []).writeEvents events).disk =
      .ok (.intact events.length) := by
  have hstart : link (AuditWriter.new path []) = (none : Option String).map sha256Hex := rfl
  rw [disk_eq_logText, verifyChain, Text.ofUtf8_utf8]
  dsimp only
  rw [nonBlankLines_logText, verifyLines_sealedAll hhex hread hstart, Nat.zero_add]

/-- The log of an engine in which no write fails is accepted. -/
theorem verifyChain_run [Globset] [TextTools] (hhex : ∀ bs, IsHexDigest (Sha256.hex bs))
    (hread : ReadsBack F) (policy : CompiledPolicy F) (path : String) (calls : List (Call F))
    (hok : ∀ c ∈ calls, c.writesOk = true) :
    verifyChain (Run.stateAfter process (.new policy path []) calls).auditWriter.disk =
      .ok (.intact (runLog (.new policy path []) calls).length) := by
  rw [auditWriter_stateAfter hok, runLog, length_sealedAll]
  exact verifyChain_disk hhex hread path _

/-- **The writer and the verifier agree.**  Whatever the events hold, the file
one writer leaves is accepted with their number as its count, and from each line
the verifier strips exactly the fields the writer added: what is left is the
payload the writer hashed. -/
theorem verifyChain_writeEvents (hhex : ∀ bs, IsHexDigest (Sha256.hex bs)) (hread : ReadsBack F)
    (path : String) (events : List (AuditEvent F)) :
    verifyChain ((AuditWriter.new path []).writeEvents events).disk =
        .ok (.intact events.length) ∧
      linesOfFile ((AuditWriter.new path []).writeEvents events).disk =
        ((AuditWriter.new path []).sealedAll events).map AuditEvent.line ∧
      ∀ before e after, events = before ++ e :: after →
        let s := ((AuditWriter.new path []).writeEvents before).sealed e
        s.hash = some (sha256Hex e.unhashed.line) ∧
          stripHashFields s.line s.hash s.hashPrev = e.unhashed.line := by
  refine ⟨verifyChain_disk hhex hread path events, ?_, ?_⟩
  · rw [disk_eq_logText, linesOfFile, Text.ofUtf8_utf8]
    exact nonBlankLines_logText _
  · intro before e after _
    have hstart : link (AuditWriter.new path []) = (none : Option String).map sha256Hex := rfl
    obtain ⟨prev, hprev⟩ := link_writeEvents hstart before
    exact ⟨rfl, stripHashFields_sealed hhex hprev e⟩

end Agreement

namespace Sample

open LoopStorm.Engine.Sample

theorem isHexDigest_hex (bs : List UInt8) : IsHexDigest (Sha256.hex bs) := by
  have hlist : (Sha256.hex bs).toList = List.replicate 64 '0' := String.toList_ofList
  constructor
  · rw [hlist, List.length_replicate]
  · intro c hc
    rw [hlist] at hc
    rw [List.eq_of_mem_replicate hc]
    decide

theorem asStr_mapNum {ν μ : Type} (f : ν → μ) (v : Json String ν) :
    (v.mapNum f).asStr = v.asStr := by
  cases v <;> rfl

/-- The reader of this development reads back what is written. -/
theorem readsBack_parse (F : Type) [Float64 F] : ReadsBack F := by
  intro ms
  refine ⟨Json.mapNumM Number.text ms, ?_, ?_⟩
  · have hparse := Json.parse_render Number.text Number.isNumber_text (.obj ms : Value F)
    simpa [JsonReader.parse, Value.toText, Json.mapNum] using hparse
  · intro key
    rw [storedString, storedString, Json.lookup_mapNumM]
    cases Json.lookup key ms with
    | none => rfl
    | some v => exact asStr_mapNum _ v

/-- An event whose run is named to look like a hash field. -/
def event : AuditEvent ℚ :=
  warningEvent (call "r\",\"hash\":\"0" "search" 1 none 0).request "input_tokens" 6 5 ""

/-- Two such events, the second with hash fields of its own, verify. -/
theorem verifyChain_writeEvents_two :
    verifyChain ((AuditWriter.new "audit.jsonl" []).writeEvents
      [event, { event with hash := some "0", hashPrev := some "0" }]).disk = .ok (.intact 2) :=
  (verifyChain_writeEvents isHexDigest_hex (readsBack_parse ℚ) "audit.jsonl"
    [event, { event with hash := some "0", hashPrev := some "0" }]).1

end Sample

end LoopStorm.Cli
