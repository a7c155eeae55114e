import LoopStorm.Cli.Agreement

/-!
# Restarting the engine on an existing log

A session opens the log with `AuditWriter::new` and writes events.  The writer
appends to what is there but starts its chain anew, so the log of two sessions
that wrote something is not a chain.

* `session` — the file after one session; a run of sessions is a `Run`.
* `linesOfFile_session` — a session puts its lines behind the lines of the file.
* `restart_keeps_chain` — **when the log is still accepted**: every session that
  wrote an event has opened a log without one.
-/

namespace LoopStorm.Cli

open LoopStorm.Engine

section Restart

variable {F : Type} [Float64 F] [Sha256]

/-- The file after a session: open it, write the events, all writes succeeding. -/
def session (path : String) (disk : List UInt8) (events : List (AuditEvent F)) : List UInt8 × Unit :=
  (((AuditWriter.new path disk).writeEvents events).disk, ())

/-- A session that writes finds a log that holds no event and, if it holds blank
lines, ends in a newline. -/
def OpensFresh (disk : List UInt8) (events : List (AuditEvent F)) : Prop :=
  events = [] ∨ Text.IsTerminated disk ∧ linesOfFile disk = []

/-- The events of a session as they go into the file. -/
def sessionLog (path : String) (disk : List UInt8) (events : List (AuditEvent F)) :
    List (AuditEvent F) :=
  (AuditWriter.new path disk).sealedAll events

theorem session_eq (path : String) (disk : List UInt8) (events : List (AuditEvent F)) :
    (session path disk events).1 = disk ++ Text.utf8 (logText (sessionLog path disk events)) := by
  rw [utf8_logText]
  exact (disk_writeEvents rfl events).1

theorem isTerminated_session {path : String} {disk : List UInt8} (h : Text.IsTerminated disk)
    (events : List (AuditEvent F)) : Text.IsTerminated (session path disk events).1 := by
  rw [session_eq, utf8_logText]
  rcases List.eq_nil_or_concat (sessionLog path disk events) with hnil | ⟨es, e, hes⟩
  · rw [hnil, logBytes_nil, List.append_nil]
    exact h
  · refine Or.inr ?_
    rw [hes, List.concat_eq_append, logBytes_append, logBytes_cons, logBytes_nil, List.append_nil,
      ← List.append_assoc, ← List.append_assoc, List.getLast?_concat]

omit [Sha256] in
/-- The lines of a terminated text and a log behind it. -/
theorem linesOfFile_append_log {content : String} (h : Text.IsTerminated (Text.utf8 content))
    (es : List (AuditEvent F)) :
    linesOfFile (Text.utf8 content ++ Text.utf8 (logText es)) =
      linesOfFile (Text.utf8 content) ++ es.map AuditEvent.line := by
  simp only [linesOfFile, ← Text.utf8_append, Text.ofUtf8_utf8]
  have hlines := Text.lines_append_of_terminated h (logText es).toList
  rw [nonBlankLines, String.toList_append, hlines, List.filter_append, List.map_append]
  exact congrArg _ (nonBlankLines_logText es)

/-- A session puts the lines of its events behind the lines of the file. -/
theorem linesOfFile_session {path : String} {content : String}
    (h : Text.IsTerminated (Text.utf8 content)) (events : List (AuditEvent F)) :
    linesOfFile (session path (Text.utf8 content) events).1 =
      linesOfFile (Text.utf8 content) ++
        (sessionLog path (Text.utf8 content) events).map AuditEvent.line := by
  rw [session_eq]
  exact linesOfFile_append_log h _

/-- The text a session leaves. -/
theorem session_utf8 (path content : String) (events : List (AuditEvent F)) :
    (session path (Text.utf8 content) events).1 =
      Text.utf8 (content ++ logText (sessionLog path (Text.utf8 content) events)) := by
  rw [session_eq, Text.utf8_append]

/-- Later sessions leave the lines of the file in place. -/
theorem linesOfFile_prefix (path : String) {content : String}
    (h : Text.IsTerminated (Text.utf8 content)) (sessions : List (List (AuditEvent F))) :
    linesOfFile (Text.utf8 content) <+:
      linesOfFile (Run.stateAfter (session path) (Text.utf8 content) sessions) := by
  induction sessions generalizing content with
  | nil => exact List.prefix_refl _
  | cons events sessions ih =>
    have hnext : Text.IsTerminated (session path (Text.utf8 content) events).1 :=
      isTerminated_session h events
    rw [session_utf8] at hnext
    have hrest := ih hnext
    rw [← session_utf8, linesOfFile_session h] at hrest
    exact (List.prefix_append _ _).trans hrest

end Restart

section Verdict

variable {F : Type} [Float64 F] [Sha256] [JsonReader]

/-- The verifier accepts the file. -/
def Accepted (file : List UInt8) : Prop := ∃ r, verifyChain file = .ok r ∧ r.valid = true

omit [Sha256] in
/-- The line of an event stores the `hash_prev` the event has. -/
theorem storedIn_line (hread : ReadsBack F) (e : AuditEvent F) :
    storedIn "hash_prev" e.line = e.hashPrev := by
  obtain ⟨obj, hparse, hstored⟩ := hread e.members
  rw [storedIn, AuditEvent.line, hparse, Option.bind_some, Json.asObj, Option.bind_some, hstored]
  exact (storedString_members e).2

/-- A session on a log without an event leaves a log that is accepted. -/
theorem accepted_session (hhex : ∀ bs, IsHexDigest (Sha256.hex bs)) (hread : ReadsBack F)
    (path : String) {disk : List UInt8} {events : List (AuditEvent F)} (h : Accepted disk)
    (hfresh : OpensFresh disk events) : Accepted (session path disk events).1 := by
  rcases hfresh with rfl | ⟨hterminated, hempty⟩
  · exact h
  · obtain ⟨r, hr, -⟩ := h
    cases hutf : Text.ofUtf8 disk with
    | none => rw [verifyChain, hutf] at hr; cases hr
    | some content =>
      obtain rfl := Text.utf8_of_ofUtf8 hutf
      have hstart : link (AuditWriter.new path (Text.utf8 content)) =
          (none : Option String).map sha256Hex := rfl
      have hlines : linesOfFile (session path (Text.utf8 content) events).1 = _ :=
        linesOfFile_session hterminated events
      rw [hempty, List.nil_append, session_utf8, linesOfFile, Text.ofUtf8_utf8] at hlines
      refine ⟨.intact events.length, ?_, rfl⟩
      rw [session_utf8, verifyChain, Text.ofUtf8_utf8]
      dsimp only at hlines ⊢
      rw [hlines, sessionLog, verifyLines_sealedAll hhex hread hstart, Nat.zero_add]

/-- Sessions whose log is accepted have each found a log without an event, or
written none. -/
theorem opensFresh_of_accepted (hread : ReadsBack F) (path : String) {content : String}
    (hterminated : Text.IsTerminated (Text.utf8 content)) {sessions : List (List (AuditEvent F))}
    (h : Accepted (Run.stateAfter (session path) (Text.utf8 content) sessions)) :
    Run.AllSteps (session path) OpensFresh (Text.utf8 content) sessions := by
  induction sessions generalizing content with
  | nil => trivial
  | cons events sessions ih =>
    have hnext : Text.IsTerminated (session path (Text.utf8 content) events).1 :=
      isTerminated_session hterminated events
    rw [session_utf8] at hnext
    constructor
    · cases events with
      | nil => exact Or.inl rfl
      | cons e es =>
        refine Or.inr ⟨hterminated, ?_⟩
        -- the line of `e` links to nothing, so it is the first one of the file
        obtain ⟨r, hr, hv⟩ := h
        have hchain := chain_of_valid hr hv
        rw [Run.stateAfter, session_utf8] at hchain
        obtain ⟨later, hlater⟩ := linesOfFile_prefix path hnext sessions
        rw [← hlater, ← session_utf8, linesOfFile_session hterminated, List.append_assoc] at hchain
        exact HashChain.eq_nil_of_chain sha256Hex (storedIn "hash_prev") hchain
          (storedIn_line hread _)
    · rw [Run.stateAfter, session_utf8] at h
      rw [session_utf8]
      exact ih hnext h

/-- **When a restart keeps the chain.**  A log that is accepted is accepted after
any number of sessions in which every one that wrote has found no event in it;
and after no others, for a log whose last line has its newline. -/
theorem restart_keeps_chain (hhex : ∀ bs, IsHexDigest (Sha256.hex bs)) (hread : ReadsBack F)
    (path : String) {disk : List UInt8} (h : Accepted disk)
    (sessions : List (List (AuditEvent F))) :
    (Run.AllSteps (session path) OpensFresh disk sessions →
      Accepted (Run.stateAfter (session path) disk sessions)) ∧
    (Text.IsTerminated disk → Accepted (Run.stateAfter (session path) disk sessions) →
      Run.AllSteps (session path) OpensFresh disk sessions) := by
  constructor
  · intro hfresh
    refine Run.invariant (session path) ?_ h hfresh
    intro disk events haccepted hopens
    exact accepted_session hhex hread path haccepted hopens
  · intro hterminated hafter
    obtain ⟨r, hr, -⟩ := h
    cases hutf : Text.ofUtf8 disk with
    | none => rw [verifyChain, hutf] at hr; cases hr
    | some content =>
      obtain rfl := Text.utf8_of_ofUtf8 hutf
      exact opensFresh_of_accepted hread path hterminated hafter

end Verdict

namespace Sample

open LoopStorm.Engine.Sample

/-- A session of one event keeps an empty log accepted, and so does a session
after it that writes nothing. -/
theorem restart_keeps_chain_idle :
    Accepted (Run.stateAfter (session "audit.jsonl") [] [[event], []]) :=
  (restart_keeps_chain isHexDigest_hex (readsBack_parse ℚ) "audit.jsonl"
    ⟨.intact 0, verifyChain_disk isHexDigest_hex (readsBack_parse ℚ) "" [], rfl⟩
    [[event], []]).1 ⟨Or.inr ⟨Or.inl rfl, rfl⟩, Or.inl rfl, trivial⟩

/-- Two sessions that write one event each: the log of the first is accepted,
and the log of both is not. -/
theorem restart_breaks_chain :
    Accepted (Run.stateAfter (session "audit.jsonl") [] [[event]]) ∧
      ¬ Accepted (Run.stateAfter (session "audit.jsonl") [] [[event], [event]]) := by
  have hfirst : Accepted (Run.stateAfter (session "audit.jsonl") [] [[event]]) :=
    ⟨_, verifyChain_disk isHexDigest_hex (readsBack_parse ℚ) "audit.jsonl" [event], rfl⟩
  refine ⟨hfirst, fun hboth => ?_⟩
  have hempty : ([] : List UInt8) = Text.utf8 "" := rfl
  rw [hempty] at hboth
  have hfresh := opensFresh_of_accepted (readsBack_parse ℚ) "audit.jsonl" (Or.inl rfl) hboth
  rcases hfresh.2.1 with hnone | ⟨-, hlines⟩
  · exact absurd hnone (List.cons_ne_nil _ _)
  · rw [linesOfFile_session (Or.inl rfl)] at hlines
    exact absurd hlines (by simp [sessionLog, AuditWriter.sealedAll])

end Sample

end LoopStorm.Cli
