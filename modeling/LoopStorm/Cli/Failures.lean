import LoopStorm.Cli.Restart

/-!
# Writes that fail

A write that fails may leave a part of its line in the file or in the buffer,
and the next write goes behind it.

* `attempt`, `writtenLog` — writes under any behaviour of the file system, and
  the events of those that succeed.
* `LeavesNothing` — a failure that leaves no byte behind.
* `braces` — what gives a part of a line away: its first character.
* `intact_after_failures` — **when the log is intact after a successful write**:
  no failure before it has left anything.
-/

namespace LoopStorm.Cli

open LoopStorm.Engine

section Failures

variable {F : Type} [Float64 F]

/-- A call of `write_event`, and what the file system does. -/
abbrev Write (F : Type) [Float64 F] : Type := AuditEvent F × WriteIo

/-- One call. -/
def attempt [Sha256] (w : AuditWriter) (c : Write F) : AuditWriter × Except AuditError Unit :=
  (w.writeEvent c.1 c.2).swap

/-- The events whose call has returned `Ok`, as they go into the log. -/
def writtenLog [Sha256] (w : AuditWriter) : List (Write F) → List (AuditEvent F)
  | [] => []
  | c :: cs =>
    (if c.2.succeeds then [w.sealed c.1] else []) ++ writtenLog (attempt w c).1 cs

/-- The same events as they were handed to the writer. -/
def okEvents : List (Write F) → List (AuditEvent F)
  | [] => []
  | c :: cs => if c.2.succeeds then c.1 :: okEvents cs else okEvents cs

/-- A call that succeeds, or fails before a byte of its line is on the way. -/
def LeavesNothing : WriteIo → Prop
  | .ok => True
  | .failed stage _ onDisk => stage = .line ∧ onDisk = 0

theorem writtenLog_concat [Sha256] (w : AuditWriter) (cs : List (Write F)) (c : Write F) :
    writtenLog w (cs ++ [c]) = writtenLog w cs ++
      (if c.2.succeeds then [(Run.stateAfter attempt w cs).sealed c.1] else []) := by
  induction cs generalizing w with
  | nil => exact (List.append_nil _).trans (List.nil_append _).symm
  | cons d cs ih =>
    rw [List.cons_append, writtenLog, ih, writtenLog, List.append_assoc]
    rfl

/-! ## Failures that leave nothing -/

/-- A failure that leaves nothing leaves the writer as it was. -/
theorem attempt_of_leavesNothing [Sha256] (w : AuditWriter) {c : Write F}
    (h : LeavesNothing c.2) (hfail : c.2.succeeds = false) : (attempt w c).1 = w := by
  obtain ⟨e, io⟩ := c
  cases io with
  | ok => cases hfail
  | failed stage error onDisk =>
    obtain ⟨rfl, rfl⟩ := h
    show { w with
      disk := w.disk ++ List.take 0 (w.buf ++ _)
      buf := w.buf.drop 0 } = w
    rw [List.take_zero, List.append_nil, List.drop_zero]

theorem attempt_of_ok [Sha256] (w : AuditWriter) {c : Write F} (h : c.2.succeeds = true) :
    (attempt w c).1 = (w.writeEvent c.1 .ok).2 := by
  rw [attempt, WriteIo.eq_ok h]
  rfl

/-- Writes that leave nothing when they fail are the successful ones alone. -/
theorem stateAfter_of_leavesNothing [Sha256] (w : AuditWriter) {cs : List (Write F)}
    (h : ∀ c ∈ cs, LeavesNothing c.2) :
    Run.stateAfter attempt w cs = w.writeEvents (okEvents cs) ∧
      writtenLog w cs = w.sealedAll (okEvents cs) := by
  induction cs generalizing w with
  | nil => exact ⟨rfl, rfl⟩
  | cons c cs ih =>
    obtain ⟨hstate, hlog⟩ := ih (attempt w c).1 (fun d hd => h d (List.mem_cons_of_mem _ hd))
    rw [Run.stateAfter, writtenLog, hstate, hlog, okEvents]
    cases hc : c.2.succeeds with
    | true =>
      rw [attempt_of_ok w hc]
      exact ⟨rfl, rfl⟩
    | false =>
      rw [attempt_of_leavesNothing w (h c (List.mem_cons_self ..)) hc]
      exact ⟨rfl, rfl⟩

/-! ## Failures that leave something -/

/-- How often the character that starts a line occurs in some bytes. -/
def braces (bytes : List UInt8) : Nat := bytes.count 123

@[simp] theorem braces_append (as bs : List UInt8) : braces (as ++ bs) = braces as + braces bs :=
  List.count_append

/-- The braces of a log. -/
def logBraces (es : List (AuditEvent F)) : Nat := (es.map fun e => braces (Text.utf8 e.line)).sum

theorem utf8_line (e : AuditEvent F) : ∃ rest, Text.utf8 e.line = 123 :: rest := by
  have hhead : ∃ rest, e.line.toList = '{' :: rest := by
    rw [toList_line, headText, List.cons_append]
    exact ⟨_, rfl⟩
  obtain ⟨rest, hrest⟩ := hhead
  rw [← String.ofList_toList (s := e.line), hrest, Text.utf8_ofList, List.flatMap_cons]
  exact ⟨rest.flatMap String.utf8EncodeChar, rfl⟩

/-- The bytes of the writer: in the file, or on their way there. -/
def total (w : AuditWriter) : List UInt8 := w.disk ++ w.buf

/-- A call puts a part of its line behind the bytes of the writer: all of it if
it succeeds, something unless it leaves nothing. -/
theorem total_attempt [Sha256] (w : AuditWriter) (c : Write F) :
    ∃ part, total (attempt w c).1 = total w ++ part ∧
      (c.2.succeeds = true → part = Text.utf8 (w.sealed c.1).line ++ [10]) ∧
      (w.buf = [] → ¬ LeavesNothing c.2 → 0 < braces part) := by
  obtain ⟨e, io⟩ := c
  obtain ⟨rest, hline⟩ := utf8_line (w.sealed e)
  cases io with
  | ok =>
    refine ⟨Text.utf8 (w.sealed e).line ++ [10], ?_, fun _ => rfl, fun _ h => absurd trivial h⟩
    simp only [total, attempt, AuditWriter.writeEvent, Prod.fst_swap, List.append_assoc,
      List.append_nil]
  | failed stage error onDisk =>
    have hpos : ∀ more : List UInt8, 0 < braces (123 :: more) := by
      intro more
      rw [braces, List.count_cons_self]
      omega
    cases stage with
    | line =>
      refine ⟨(Text.utf8 (w.sealed e).line).take (onDisk - w.buf.length), ?_,
        fun h => absurd h Bool.false_ne_true, ?_⟩
      · simp only [total, attempt, AuditWriter.writeEvent, Prod.fst_swap, WriteStage.pending,
          WriteStage.kept, List.take_append, List.append_assoc]
        by_cases hle : onDisk ≤ w.buf.length
        · rw [Nat.sub_eq_zero_of_le hle, List.take_zero, List.nil_append, List.append_nil,
            List.take_append_drop]
        · have hge : w.buf.length ≤ onDisk := by omega
          rw [List.take_of_length_le hge, List.drop_of_length_le hge, List.append_nil]
      · intro hbuf hleaves
        have hne : onDisk - w.buf.length ≠ 0 := by
          rw [hbuf]
          intro hzero
          exact hleaves ⟨rfl, hzero⟩
        obtain ⟨n, hn⟩ := Nat.exists_eq_succ_of_ne_zero hne
        rw [hn, hline, Nat.succ_eq_add_one, List.take_succ_cons]
        exact hpos _
    | newline =>
      refine ⟨Text.utf8 (w.sealed e).line, ?_, fun h => absurd h Bool.false_ne_true, ?_⟩
      · simp only [total, attempt, AuditWriter.writeEvent, Prod.fst_swap, WriteStage.pending,
          WriteStage.kept, List.append_assoc]
        rw [List.take_append_drop]
      · intro _ _
        rw [hline]
        exact hpos _
    | flush =>
      refine ⟨Text.utf8 (w.sealed e).line ++ [10], ?_, fun h => absurd h Bool.false_ne_true, ?_⟩
      · simp only [total, attempt, AuditWriter.writeEvent, Prod.fst_swap, WriteStage.pending,
          WriteStage.kept, List.append_assoc]
        rw [List.take_append_drop]
      · intro _ _
        rw [hline, List.cons_append]
        exact hpos _

theorem braces_utf8 (s : String) : braces (Text.utf8 s) = s.toList.count '{' := by
  have hcount := Text.count_utf8 (a := '{') (by decide) s.toList
  rw [String.ofList_toList] at hcount
  exact hcount

/-- A file has the braces of its lines. -/
theorem braces_of_linesOfFile {content : String} {es : List (AuditEvent F)}
    (h : linesOfFile (Text.utf8 content) = es.map AuditEvent.line) :
    braces (Text.utf8 content) = logBraces es := by
  set kept := (Text.lines content.toList).filter (fun line => !Text.isBlank line) with hkept
  have hlines : kept = es.map (fun e => e.line.toList) := by
    rw [linesOfFile, Text.ofUtf8_utf8] at h
    have hmap := congrArg (List.map String.toList) h
    dsimp only at hmap
    rw [nonBlankLines, ← hkept, List.map_map, List.map_map] at hmap
    rw [← List.map_id kept, ← (funext fun l => String.toList_ofList :
      String.toList ∘ String.ofList = id)]
    exact hmap
  have hcount := Text.count_nonBlank (a := '{') (by decide) content.toList
  rw [← hkept, hlines, List.count_flatten, List.map_map] at hcount
  rw [braces_utf8, ← hcount, logBraces]
  refine congrArg List.sum (List.map_congr_left (fun e _ => ?_))
  rw [Function.comp_apply, braces_utf8]

/-- Where a failure has left something there are more braces than the log
accounts for, and it stays so. -/
theorem braces_stateAfter [Sha256] {w : AuditWriter} (hbuf : w.buf = [])
    (cs : List (Write F)) :
    logBraces (writtenLog w cs) ≤ braces (total (Run.stateAfter attempt w cs)) ∧
      (((∀ c ∈ cs, LeavesNothing c.2) ∧ (Run.stateAfter attempt w cs).buf = []) ∨
        logBraces (writtenLog w cs) < braces (total (Run.stateAfter attempt w cs))) := by
  induction cs using List.reverseRecOn with
  | nil => exact ⟨Nat.zero_le _, Or.inl ⟨fun c hc => absurd hc List.not_mem_nil, hbuf⟩⟩
  | append_singleton cs c ih =>
    obtain ⟨hle, hcases⟩ := ih
    set v := Run.stateAfter attempt w cs
    obtain ⟨part, htotal, hpart, hleft⟩ := total_attempt v c
    have hgrows : logBraces (writtenLog w (cs ++ [c])) ≤
        logBraces (writtenLog w cs) + braces part := by
      rw [writtenLog_concat, logBraces, List.map_append, List.sum_append]
      refine Nat.add_le_add_left ?_ _
      cases hc : c.2.succeeds with
      | true =>
        rw [hpart hc, braces_append]
        exact Nat.le_add_right _ _
      | false => exact Nat.zero_le _
    rw [Run.stateAfter_concat, htotal, braces_append]
    refine ⟨by omega, ?_⟩
    rcases hcases with ⟨hall, hempty⟩ | hlt
    · by_cases hc : LeavesNothing c.2
      · refine Or.inl ⟨?_, ?_⟩
        · intro d hd
          rcases List.mem_append.1 hd with hd | hd
          · exact hall d hd
          · exact List.mem_singleton.1 hd ▸ hc
        · cases hok : c.2.succeeds with
          | true =>
            rw [attempt_of_ok v hok]
            rfl
          | false =>
            rw [attempt_of_leavesNothing v hc hok]
            exact hempty
      · -- the failure of `c` leaves a part of a line that is not in the log
        have hfail : c.2.succeeds = false := by
          by_contra hok
          rw [Bool.not_eq_false] at hok
          rw [WriteIo.eq_ok hok] at hc
          exact hc trivial
        refine Or.inr ?_
        have hpos := hleft hempty hc
        rw [writtenLog_concat, hfail, if_neg Bool.false_ne_true, List.append_nil]
        omega
    · exact Or.inr (by omega)

end Failures

section Intact

variable {F : Type} [Float64 F] [Sha256] [JsonReader]

/-- The file is accepted and holds the events of the log, in order and no
others. -/
def Intact (file : List UInt8) (log : List (AuditEvent F)) : Prop :=
  Accepted file ∧ linesOfFile file = log.map AuditEvent.line

/-- Failures that leave nothing leave the log intact. -/
theorem intact_of_leavesNothing (hhex : ∀ bs, IsHexDigest (Sha256.hex bs)) (hread : ReadsBack F)
    (path : String) {cs : List (Write F)} (h : ∀ c ∈ cs, LeavesNothing c.2) :
    Intact (Run.stateAfter attempt (AuditWriter.new path []) cs).disk
      (writtenLog (AuditWriter.new path []) cs) := by
  obtain ⟨hstate, hlog⟩ := stateAfter_of_leavesNothing (AuditWriter.new path []) h
  rw [hstate, hlog]
  refine ⟨⟨_, verifyChain_disk hhex hread path (okEvents cs), rfl⟩, ?_⟩
  rw [disk_eq_logText, linesOfFile, Text.ofUtf8_utf8]
  exact nonBlankLines_logText _

/-- A log that is intact after a successful write has seen no failure that left
something. -/
theorem leavesNothing_of_intact {path : String} {cs : List (Write F)} {e : AuditEvent F}
    (h : Intact (Run.stateAfter attempt (AuditWriter.new path []) (cs ++ [(e, .ok)])).disk
      (writtenLog (AuditWriter.new path []) (cs ++ [(e, .ok)]))) :
    ∀ c ∈ cs, LeavesNothing c.2 := by
  obtain ⟨⟨r, hr, -⟩, hlines⟩ := h
  have hbraces := braces_stateAfter (w := AuditWriter.new path []) rfl (cs ++ [(e, .ok)])
  have hbuf : (Run.stateAfter attempt (AuditWriter.new path []) (cs ++ [(e, .ok)])).buf = [] := by
    rw [Run.stateAfter_concat, attempt_of_ok _ rfl]
    rfl
  generalize Run.stateAfter attempt (AuditWriter.new path []) (cs ++ [(e, .ok)]) = w at *
  cases hutf : Text.ofUtf8 w.disk with
  | none => rw [verifyChain, hutf] at hr; cases hr
  | some content =>
    rw [← Text.utf8_of_ofUtf8 hutf] at hlines
    have heq := braces_of_linesOfFile hlines
    rw [Text.utf8_of_ofUtf8 hutf] at heq
    rw [total, hbuf, List.append_nil, heq] at hbraces
    rcases hbraces.2 with ⟨hall, -⟩ | hlt
    · intro c hc
      exact hall c (List.mem_append_left _ hc)
    · exact absurd hlt (Nat.lt_irrefl _)

/-- **When failed writes do no damage.**  After a successful write the log is
intact exactly if no failure before it has put a byte into the file or left one
in the buffer. -/
theorem intact_after_failures (hhex : ∀ bs, IsHexDigest (Sha256.hex bs)) (hread : ReadsBack F)
    (path : String) (cs : List (Write F)) (e : AuditEvent F) :
    Intact (Run.stateAfter attempt (AuditWriter.new path []) (cs ++ [(e, .ok)])).disk
        (writtenLog (AuditWriter.new path []) (cs ++ [(e, .ok)])) ↔
      ∀ c ∈ cs, LeavesNothing c.2 := by
  constructor
  · exact leavesNothing_of_intact
  · intro h
    refine intact_of_leavesNothing hhex hread path ?_
    intro c hc
    rcases List.mem_append.1 hc with hc | hc
    · exact h c hc
    · rw [List.mem_singleton.1 hc]
      trivial

end Intact

namespace Sample

open LoopStorm.Engine.Sample

/-- A write that fails before a byte is on the way. -/
def refused : List (Write ℚ) := [(event, .failed .line "no space left on device" 0)]

/-- A write whose flush fails with nothing written. -/
def unflushed : List (Write ℚ) := [(event, .failed .flush "no space left on device" 0)]

/-- Failing before a byte is on the way does no damage. -/
theorem intact_after_refusal :
    Intact (Run.stateAfter attempt (AuditWriter.new "audit.jsonl" [])
        (refused ++ [(event, .ok)])).disk
      (writtenLog (AuditWriter.new "audit.jsonl" []) (refused ++ [(event, .ok)])) :=
  (intact_after_failures isHexDigest_hex (readsBack_parse ℚ) "audit.jsonl" refused event).2
    (fun c hc => by rw [List.mem_singleton.1 hc]; exact ⟨rfl, rfl⟩)

/-- A flush that fails leaves its line in the buffer, and the next write puts it
into the file. -/
theorem damage_after_flush :
    ¬ Intact (Run.stateAfter attempt (AuditWriter.new "audit.jsonl" [])
        (unflushed ++ [(event, .ok)])).disk
      (writtenLog (AuditWriter.new "audit.jsonl" []) (unflushed ++ [(event, .ok)])) := by
  intro h
  have hleaves := leavesNothing_of_intact h _ (List.mem_singleton_self _)
  exact absurd hleaves.1 (by decide)

end Sample

end LoopStorm.Cli
