import LoopStorm.Backend.Ingest
import LoopStorm.Cli.Agreement

/-!
# Submitting the engine's log

The engine's log of a run, submitted to `events.ingest` in consecutive batches.

* `runLines` — the lines of a run in the log.
* `parse_line` — the backend reads of a line what the engine has put into it.
* `hashPrev_of_engineLine` — a line that passes the schema has a `hash_prev`
  that is no null: the engine leaves the member out of its first line, which the
  schema does not let pass, and fills it in in every other.
* `accepts_log_iff` — **no log of a run is accepted**: the first event of a run
  is to have a null there.
-/

namespace LoopStorm.Backend

open LoopStorm.Engine

variable {F : Type} [Float64 F]

/-! ## A line of the log, read -/

/-- The line of an event parses to its members, the numbers standing as their
text. -/
theorem parse_line (e : AuditEvent F) :
    Json.parse e.line.toList = some (.obj (Json.mapNumM Number.text e.members)) := by
  rw [AuditEvent.line, String.toList_ofList]
  exact Json.parse_render Number.text Number.isNumber_text (.obj e.members)

theorem lookup_hashPrev (e : AuditEvent F) :
    Json.lookup "hash_prev" e.members = e.hashPrev.map .str := by
  rw [AuditEvent.members, Json.lookup_append, Json.lookup_append,
    Cli.lookup_tailMembers e (.inr rfl), Cli.lookup_headMembers e (.inr rfl), Option.none_or,
    Option.or_none, AuditEvent.hashMembers, Json.lookup_append,
    lookup_optMember_of_ne (by decide : "hash" ≠ "hash_prev"), Option.or_none]
  cases e.hashPrev with
  | none => rfl
  | some hp => simp [optMember, Json.lookup]

theorem lookup_runId (e : AuditEvent F) :
    Json.lookup "run_id" e.members = some (.str e.runId) := by
  simp [AuditEvent.members, AuditEvent.headMembers, AuditEvent.hashMembers,
    AuditEvent.tailMembers, Json.lookup_append, Json.lookup, lookup_optMember_of_ne]

theorem trimEnd_line (e : AuditEvent F) : trimEnd e.line = e.line :=
  trimEnd_obj Json.quote Number.text e.members

/-- An accepted line of the engine has a `hash_prev` that is no null, and is
read under its own run. -/
theorem hashPrev_of_engineLine {e : AuditEvent F} {i : Nat} {event : ParsedEvent}
    (h : parseEventLine e.line i = .ok event) :
    event.hashPrev ≠ none ∧ event.runId = e.runId := by
  obtain ⟨obj, hparse, hprev⟩ := hashPrev_of_parseEventLine h
  obtain ⟨obj', hparse', -, rfl⟩ := parseEventLine_ok h
  rw [parse_line] at hparse hparse'
  cases hparse
  cases hparse'
  constructor
  · rcases hprev with ⟨hnull, -⟩ | ⟨hp, -, hsome⟩
    · rw [Json.lookup_mapNumM, lookup_hashPrev, Option.map_map] at hnull
      cases hlink : e.hashPrev with
      | none => rw [hlink] at hnull; cases hnull
      | some hp => rw [hlink] at hnull; cases hnull
    · rw [hsome]
      exact Option.some_ne_none hp
  · show (stringField "run_id" _).getD "" = e.runId
    rw [stringField, Json.lookup_mapNumM, lookup_runId]
    rfl

/-! ## A batch of the log -/

section Submission

variable [Sha256]

/-- An event that continues something does not start a run. -/
theorem verifyBatchChain_ne_ok {items : List Item} (hne : items ≠ [])
    (h : ∀ item ∈ items, item.event.hashPrev ≠ none) :
    verifyBatchChain items none ≠ .ok () := by
  cases items with
  | nil => exact absurd rfl hne
  | cons item rest =>
    intro hok
    rw [verifyBatchChain, verifyBatchFrom] at hok
    split at hok
    · cases hok
    · rw [if_pos (h item (List.mem_cons_self ..))] at hok
      cases hok

/-- A batch of the engine's lines does not start a run. -/
theorem ingest_engineLines {tenantId runId : String} {tx : Nat} {db : Db} {lines : List String}
    (hlines : ∀ line ∈ lines, ∃ e : AuditEvent F, line = e.line ∧ e.runId = runId)
    (hnew : db.findRun tenantId tx (toUuid runId) tenantId = none) :
    ∃ e, (ingest tenantId lines).serial tenantId tx db = .error e := by
  cases hprepare : prepare lines with
  | error e => exact ⟨e, by rw [ingest, hprepare, Prog.serial]⟩
  | ok prepared =>
    obtain ⟨batchRun, items⟩ := prepared
    have hprepared := prepare_ok hprepare
    have hitem : ∀ item ∈ items, item.event.hashPrev ≠ none ∧ item.event.runId = runId := by
      intro item hitem
      obtain ⟨line, hline, i, -, hparsed⟩ := hprepared.parsed item hitem
      obtain ⟨e, rfl, he⟩ := hlines line hline
      rw [trimEnd_line] at hparsed
      obtain ⟨hprev, hrun⟩ := hashPrev_of_engineLine hparsed
      exact ⟨hprev, hrun.trans he⟩
    obtain ⟨first, hfirst⟩ := List.exists_mem_of_ne_nil _ hprepared.ne_nil
    have hrun : batchRun = runId :=
      (hprepared.runId_eq first hfirst).symm.trans (hitem first hfirst).2
    have hchain := verifyBatchChain_ne_ok hprepared.ne_nil (fun item h => (hitem item h).1)
    rw [ingest, hprepare, hrun]
    dsimp only
    rw [Prog.serial_selectRun, hnew]
    unfold ingestInto
    rw [if_neg (by simp)]
    cases hverify : verifyBatchChain items none with
    | ok u => exact absurd hverify hchain
    | error e =>
      refine ⟨e, ?_⟩
      rw [Option.bind_none, hverify]
      rfl

/-- Batches submitted one after the other are all accepted. -/
def AcceptsAll (tenantId : String) (tx : Nat) (db : Db) : List (List String) → Prop
  | [] => True
  | lines :: rest =>
    ∃ result db', (ingest tenantId lines).serial tenantId tx db = .ok (result, db') ∧
      AcceptsAll tenantId tx db' rest

variable [Globset] [TextTools]

/-- The lines of a run in the log, with every write succeeding
(`disk_stateAfter`). -/
def runLines (ctx : EnforcementContext F) (calls : List (Call F)) (runId : String) : List String :=
  ((runLog ctx calls).filter (fun e => e.runId = runId)).map AuditEvent.line

theorem mem_runLines {ctx : EnforcementContext F} {calls : List (Call F)} {runId line : String}
    (h : line ∈ runLines ctx calls runId) : ∃ e : AuditEvent F, line = e.line ∧ e.runId = runId := by
  obtain ⟨e, he, rfl⟩ := List.mem_map.1 h
  exact ⟨e, rfl, of_decide_eq_true (List.mem_filter.1 he).2⟩

/-- The run of every logged event is the run of its call. -/
theorem runIds_runEvents (ctx : EnforcementContext F) (calls : List (Call F)) (runId : String) :
    (∃ e ∈ runEvents ctx calls, e.runId = runId) ↔ ∃ c ∈ calls, c.request.runId = runId := by
  have hlogged : ∀ (ctx : EnforcementContext F) (c : Call F),
      (∃ e ∈ loggedEvents c.request c.env ctx, e.runId = runId) ↔ c.request.runId = runId := by
    intro ctx c
    unfold loggedEvents
    cases (ctx.budgetTracker.record c.request.runId c.request.update
      ctx.policy.policy.budget).1 <;> simp [decisionEvent, warningEvent]
  induction calls generalizing ctx with
  | nil => simp [runEvents]
  | cons c cs ih =>
    simp only [runEvents, List.mem_append, or_and_right, exists_or, List.mem_cons, hlogged, ih]
    simp

/-- Sealing an event leaves it in its run. -/
theorem runIds_runLog (ctx : EnforcementContext F) (calls : List (Call F)) :
    (runLog ctx calls).map AuditEvent.runId = (runEvents ctx calls).map AuditEvent.runId := by
  have hunhashed : ∀ es : List (AuditEvent F),
      es.map AuditEvent.runId = (es.map AuditEvent.unhashed).map AuditEvent.runId := by
    intro es
    rw [List.map_map]
    rfl
  rw [hunhashed (runLog ctx calls), runLog, map_unhashed_sealedAll, ← hunhashed]

theorem runLines_ne_nil {ctx : EnforcementContext F} {calls : List (Call F)} {runId : String} :
    runLines ctx calls runId ≠ [] ↔ ∃ c ∈ calls, c.request.runId = runId := by
  have hlogged : (∃ e ∈ runLog ctx calls, e.runId = runId) ↔
      ∃ e ∈ runEvents ctx calls, e.runId = runId := by
    rw [← List.mem_map, ← List.mem_map, runIds_runLog]
  rw [← runIds_runEvents ctx calls runId, ← hlogged, runLines, ne_eq, List.map_eq_nil_iff,
    List.filter_eq_nil_iff]
  simp

/-- **No log of a run is accepted.**  Submitted to a backend that does not have
the run, in consecutive batches, it is accepted only when the run has made no
call and there is nothing to submit. -/
theorem accepts_log_iff (ctx : EnforcementContext F) (calls : List (Call F)) (runId : String)
    (tenantId : String) (tx : Nat) {db : Db} {batches : List (List String)}
    (hnew : db.findRun tenantId tx (toUuid runId) tenantId = none)
    (hbatches : ∀ lines ∈ batches, lines ≠ [] ∧ lines.length ≤ 1000)
    (hpartition : batches.flatten = runLines ctx calls runId) :
    AcceptsAll tenantId tx db batches ↔ ∀ c ∈ calls, c.request.runId ≠ runId := by
  cases batches with
  | nil =>
    have hnone : ¬ ∃ c ∈ calls, c.request.runId = runId :=
      fun hcall => runLines_ne_nil.2 hcall hpartition.symm
    refine iff_of_true trivial ?_
    intro c hc hrun
    exact hnone ⟨c, hc, hrun⟩
  | cons lines rest =>
    have hlines : lines ≠ [] := (hbatches lines (List.mem_cons_self ..)).1
    have hsubmitted : ∀ line ∈ lines, line ∈ runLines ctx calls runId := by
      intro line hline
      rw [← hpartition, List.flatten_cons]
      exact List.mem_append_left _ hline
    refine iff_of_false ?_ ?_
    · -- the batch that is to start the run is refused
      rintro ⟨result, db', haccepted, -⟩
      obtain ⟨e, hrefused⟩ :=
        ingest_engineLines (fun line hline => mem_runLines (hsubmitted line hline)) hnew
      rw [hrefused] at haccepted
      cases haccepted
    · intro hnone
      obtain ⟨line, hline⟩ := List.exists_mem_of_ne_nil _ hlines
      obtain ⟨c, hc, hrun⟩ :=
        runLines_ne_nil.1 (List.ne_nil_of_mem (hsubmitted line hline))
      exact hnone c hc hrun

end Submission

namespace Sample

open LoopStorm.Engine.Sample

/-- The engine before the first call. -/
def context : EnforcementContext ℚ := .new (compiled none none) "audit.jsonl" []

/-- The log of the first call of a run. -/
def firstLines : List String := runLines context [call runId "search" 1 none 0] runId

theorem firstLines_ne_nil : firstLines ≠ [] :=
  runLines_ne_nil.2 ⟨_, List.mem_singleton.2 rfl, rfl⟩

theorem length_firstLines : firstLines.length ≤ 1000 := by
  have hevents : (runEvents context [call runId "search" 1 none 0]).length = 1 := rfl
  have hfilter := List.length_filter_le (fun e : AuditEvent ℚ => decide (e.runId = runId))
    (runLog context [call runId "search" 1 none 0])
  rw [runLog, length_sealedAll, hevents] at hfilter
  rw [firstLines, runLines, List.length_map]
  exact hfilter.trans (by decide)

/-- A backend that has no run refuses the first line of one. -/
theorem firstLines_refused :
    isUuid runId = true ∧ firstLines ≠ [] ∧ firstLines.length ≤ 1000 ∧
      ¬ AcceptsAll "tenant" 0 .empty [firstLines] := by
  refine ⟨by decide, firstLines_ne_nil, length_firstLines, ?_⟩
  rintro ⟨result, db', haccepted, -⟩
  have herror : ∃ e, (ingest "tenant" firstLines).serial "tenant" 0 .empty = .error e :=
    ingest_engineLines (F := ℚ) (fun line hline => mem_runLines hline) rfl
  obtain ⟨e, hrefused⟩ := herror
  rw [hrefused] at haccepted
  cases haccepted

theorem accepts_log_iff_firstLines :
    AcceptsAll "tenant" 0 .empty [firstLines] ↔
      ∀ c ∈ [call runId "search" 1 none 0], c.request.runId ≠ runId :=
  accepts_log_iff context [call runId "search" 1 none 0] runId "tenant" 0 rfl
    (by
      intro lines hlines
      obtain rfl := List.mem_singleton.1 hlines
      exact ⟨firstLines_ne_nil, length_firstLines⟩)
    (List.append_nil _)

end Sample

end LoopStorm.Backend
