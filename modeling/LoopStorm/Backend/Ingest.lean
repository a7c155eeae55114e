import LoopStorm.Backend.Database

/-!
# The two procedures that write events

`events.ingest` of `packages/backend/src/trpc/routers/events.ts` and `emitEvent`
of `supervisor-tools.ts`, as programs of statements.

* `prepare` — what `ingest` does before its first statement: the lines parsed,
  of one run, sorted and without gaps.
* `verifyBatchChain` — the hash check of a batch.
* `ingest`, `emitEvent` — the procedures; `ingestInto` is the rest of the first
  once it has looked up the run.
* `prepare_ok` — what an accepted batch looks like.
-/

namespace LoopStorm.Backend

open LoopStorm.Engine
open LoopStorm.Shim (ReplyValue)

/-- A parsed event and the line it was parsed from. -/
structure Item where
  event : ParsedEvent
  rawLine : String

/-! ## Before the transaction's first statement -/

/-- `line.trimEnd()`. -/
def trimEnd (line : String) : String := String.ofList (line.toList.rdropWhile isJsSpace)

/-- Parse and validate all lines, from line `i` on. -/
def parseLines (i : Nat) : List String → Except IngestError (List Item)
  | [] => .ok []
  | line :: rest =>
    match parseEventLine (trimEnd line) i with
    | .error e => .error e
    | .ok event =>
      match parseLines (i + 1) rest with
      | .error e => .error e
      | .ok items => .ok (⟨event, trimEnd line⟩ :: items)

/-- Check for gaps or duplicates in the sorted numbers. -/
def checkSeqs : List Nat → Except IngestError Unit
  | prev :: curr :: rest =>
    if curr = prev then .error (.duplicateSeq curr)
    else if curr ≠ prev + 1 then .error (.seqGap (prev + 1) curr)
    else checkSeqs (curr :: rest)
  | _ => .ok ()

/-- Sort by number. -/
def sortItems (items : List Item) : List Item :=
  items.mergeSort (fun a b => decide (a.event.seq ≤ b.event.seq))

/-- The input schema: 1 to 1000 lines, none empty. -/
def validInput (lines : List String) : Bool :=
  1 ≤ lines.length && lines.length ≤ 1000 && lines.all (· ≠ "")

/-- The batch and its run, or why it is refused. -/
def prepare (lines : List String) : Except IngestError (String × List Item) :=
  if validInput lines then
    match parseLines 0 lines with
    | .error e => .error e
    | .ok [] => .error .noEvents
    | .ok (first :: rest) =>
      let runIds := ((first :: rest).map (·.event.runId)).dedup
      if 1 < runIds.length then .error (.mixedRuns runIds.length)
      else
        let sorted := sortItems (first :: rest)
        match checkSeqs (sorted.map (·.event.seq)) with
        | .error e => .error e
        | .ok () => .ok (first.event.runId, sorted)
  else .error .badInput

/-! ## What is accepted -/

/-- A batch as `prepare` hands it on: events of one run, parsed from the lines,
in the order of their numbers. -/
structure Prepared (lines : List String) (runId : String) (items : List Item) : Prop where
  ne_nil : items ≠ []
  runId_eq : ∀ item ∈ items, item.event.runId = runId
  sorted : (items.map (·.event.seq)).Pairwise (· < ·)
  parsed : ∀ item ∈ items, ∃ line ∈ lines, ∃ i, item.rawLine = trimEnd line ∧
    parseEventLine (trimEnd line) i = .ok item.event

theorem Prepared.exists_ends {lines : List String} {runId : String} {items : List Item}
    (h : Prepared lines runId items) :
    ∃ first last, items.head? = some first ∧ items.getLast? = some last :=
  ⟨_, _, List.head?_eq_some_head h.ne_nil, List.getLast?_eq_some_getLast h.ne_nil⟩

theorem parseLines_ok {i : Nat} {lines : List String} {items : List Item}
    (h : parseLines i lines = .ok items) :
    ∀ item ∈ items, ∃ line ∈ lines, ∃ i, item.rawLine = trimEnd line ∧
      parseEventLine (trimEnd line) i = .ok item.event := by
  induction lines generalizing i items with
  | nil =>
    obtain rfl := Except.ok.inj h
    exact fun item hitem => absurd hitem List.not_mem_nil
  | cons line rest ih =>
    rw [parseLines] at h
    split at h
    · cases h
    case h_2 event hevent =>
      split at h
      · cases h
      case h_2 tail htail =>
        obtain rfl := Except.ok.inj h
        intro item hitem
        rcases List.mem_cons.1 hitem with rfl | hmem
        · exact ⟨line, List.mem_cons_self .., i, rfl, hevent⟩
        · obtain ⟨l, hl, hparsed⟩ := ih htail item hmem
          exact ⟨l, List.mem_cons_of_mem _ hl, hparsed⟩

/-- Numbers without gaps increase. -/
theorem pairwise_of_checkSeqs {seqs : List Nat} (h : checkSeqs seqs = .ok ()) :
    seqs.Pairwise (· < ·) := by
  rw [← List.isChain_iff_pairwise]
  induction seqs with
  | nil => exact .nil
  | cons a rest ih =>
    cases rest with
    | nil => exact .singleton a
    | cons b rest =>
      rw [checkSeqs] at h
      split at h
      · cases h
      · split at h
        · cases h
        case isFalse hgap =>
          have hnext : b = a + 1 := not_not.1 hgap
          exact .cons_cons (by omega) (ih h)

theorem eq_of_dedup_length {xs : List String} (h : ¬ 1 < xs.dedup.length) {x y : String}
    (hx : x ∈ xs) (hy : y ∈ xs) : x = y := by
  rw [← List.mem_dedup] at hx hy
  match hd : xs.dedup with
  | [] => rw [hd] at hx; exact absurd hx List.not_mem_nil
  | [z] =>
    rw [hd, List.mem_singleton] at hx hy
    rw [hx, hy]
  | z :: w :: rest => rw [hd] at h; simp at h

/-- **What an accepted batch looks like** when its transaction starts. -/
theorem prepare_ok {lines : List String} {runId : String} {items : List Item}
    (h : prepare lines = .ok (runId, items)) : Prepared lines runId items := by
  unfold prepare at h
  split at h
  · split at h
    · cases h
    · cases h
    case h_3 first rest hparse =>
      dsimp only at h
      split at h
      · cases h
      case isFalse hone =>
        split at h
        · cases h
        case h_2 hseqs =>
          cases h
          have hperm : (sortItems (first :: rest)).Perm (first :: rest) :=
            List.mergeSort_perm _ _
          refine ⟨?_, ?_, pairwise_of_checkSeqs hseqs, ?_⟩
          · intro hnil
            rw [hnil] at hperm
            exact absurd hperm.symm (List.not_perm_cons_nil)
          · intro item hitem
            exact eq_of_dedup_length hone
              (List.mem_map_of_mem (hperm.mem_iff.1 hitem)) (List.mem_cons_self ..)
          · intro item hitem
            exact parseLines_ok hparse item (hperm.mem_iff.1 hitem)
  · cases h

/-- A line that is an object ends in a brace, so there is nothing to trim. -/
theorem trimEnd_obj {σ ν : Type} (quote : σ → List Char) (num : ν → List Char)
    (members : List (σ × Json σ ν)) :
    trimEnd (String.ofList (Json.render quote num (.obj members))) =
      String.ofList (Json.render quote num (.obj members)) := by
  have hlast : ∃ front, Json.render quote num (.obj members) = front ++ ['}'] := by
    rw [Json.render]
    exact ⟨'{' :: Json.joinComma (Json.renderM quote num members), rfl⟩
  obtain ⟨front, hfront⟩ := hlast
  rw [trimEnd, String.toList_ofList, hfront, List.rdropWhile_concat_neg _ _ _ (by decide)]

/-- A batch of one line. -/
theorem prepare_singleton {line : String} {event : ParsedEvent} (hne : line ≠ "")
    (hparse : parseEventLine (trimEnd line) 0 = .ok event) :
    prepare [line] = .ok (event.runId, [⟨event, trimEnd line⟩]) := by
  have hvalid : validInput [line] = true := by simp [validInput, hne]
  unfold prepare
  rw [if_pos hvalid, parseLines, hparse, parseLines]
  simp [sortItems, checkSeqs]

section Chain

variable [Sha256]

/-- The loop of `verifyBatchChain`, `prevHash` being what the next event has to
carry. -/
def verifyBatchFrom (prevHash : Option String) : List Item → Except IngestError Unit
  | [] => .ok ()
  | ⟨event, rawLine⟩ :: rest =>
    if sha256Hex rawLine ≠ event.hash then
      .error (.hashMismatch event.seq (sha256Hex rawLine) event.hash)
    else if event.hashPrev ≠ prevHash then
      .error (.chainLink event.seq event.hashPrev prevHash)
    else verifyBatchFrom (some event.hash) rest

/-- Verify the hash chain within a sorted batch of events, the first of which
continues the run. -/
def verifyBatchChain (sortedEvents : List Item) (prevRunHash : Option String) :
    Except IngestError Unit :=
  verifyBatchFrom prevRunHash sortedEvents

/-! ## The rows of a batch -/

/-- The status a batch leaves its run in, if it says. -/
def newStatus (items : List Item) : Option String :=
  items.foldl (fun status item =>
    if item.event.eventType = "run_started" then some "started"
    else if item.event.eventType = "run_ended" then
      match item.event.runStatus with
      | some "budget_exceeded" => some "terminated_budget"
      | some "loop_terminated" => some "terminated_loop"
      | some "policy_terminated" => some "terminated_policy"
      | _ => some "completed"
    else status) none

/-- The time of the last event of a type. -/
def lastTs (eventType : String) (items : List Item) : Option String :=
  items.foldl (fun ts item => if item.event.eventType = eventType then some item.event.ts else ts)
    none

/-- A tool call decision. -/
def ParsedEvent.isCall (event : ParsedEvent) : Bool :=
  event.eventType = "policy_decision" && event.decision.any (· ≠ "")

/-- The cost of a batch. -/
def batchCost (items : List Item) : ℚ :=
  (items.map fun item => item.event.estimatedCostUsd.getD 0).sum

/-- The input tokens of a batch. -/
def batchInputTokens (items : List Item) : Int :=
  (items.map fun item => item.event.inputTokens.getD 0).sum

/-- The output tokens of a batch. -/
def batchOutputTokens (items : List Item) : Int :=
  (items.map fun item => item.event.outputTokens.getD 0).sum

/-- The tool call decisions of a batch. -/
def batchCallCount (items : List Item) : Nat := items.countP fun item => item.event.isCall

/-- What a batch makes of a run that exists. -/
def runUpdate (existing : RunRow) (items : List Item) (last : ParsedEvent) : RunUpdate :=
  .totals last.seq last.hash (existing.eventCount + items.length)
    (existing.totalCostUsd + batchCost items)
    (existing.totalInputTokens + batchInputTokens items)
    (existing.totalOutputTokens + batchOutputTokens items)
    (existing.totalCallCount + batchCallCount items) (newStatus items) (lastTs "run_ended" items)

/-- The run a first batch creates. -/
def newRun (tenantId runId : String) (items : List Item) (first last : ParsedEvent) : RunRow where
  runId := toUuid runId
  tenantId := tenantId
  agentName := first.agentName
  agentRole := first.agentRole
  environment := first.environment
  policyPackId := first.policyPackId
  status := (newStatus items).getD "started"
  eventCount := items.length
  lastSeq := last.seq
  lastHash := some last.hash
  totalCostUsd := batchCost items
  totalInputTokens := batchInputTokens items
  totalOutputTokens := batchOutputTokens items
  totalCallCount := batchCallCount items
  startedAt := (lastTs "run_started" items).getD first.ts
  endedAt := lastTs "run_ended" items

/-- The row of an event. -/
def eventRow (tenantId : String) (item : Item) : EventRow where
  runId := toUuid item.event.runId
  tenantId := tenantId
  seq := item.event.seq
  eventType := item.event.eventType
  hash := item.event.hash
  hashPrev := item.event.hashPrev
  ts := item.event.ts
  decision := item.event.decision
  inputTokens := item.event.inputTokens
  outputTokens := item.event.outputTokens
  estimatedCostUsd := item.event.estimatedCostUsd
  columns := item.event.members
  rawLine := item.rawLine

/-! ## The procedures -/

/-- What a procedure returns. -/
inductive Result where
  | ingested (runId : String) (inserted totalInBatch skipped lastSeq : Nat)
  | emitted
  deriving DecidableEq, Repr

/-- Insert the events that are left, `inserted` of the batch being in. -/
def insertEvents (inserted : Nat) (finish : Nat → Result) : List EventRow → Prog Result
  | [] => .done (finish inserted)
  | row :: rest =>
    .run (.insertEvent row) fun isNew =>
      insertEvents (if isNew then inserted + 1 else inserted) finish rest

/-- The batch once its run has been looked up. -/
def ingestInto (tenantId runId : String) (items : List Item) (existing : Option RunRow) :
    Prog Result :=
  if existing.any (fun row => row.tenantId ≠ tenantId) then .fail .forbidden
  else
    match verifyBatchChain items (existing.bind RunRow.lastHash), items.head?, items.getLast? with
    | .error e, _, _ => .fail e
    | .ok (), some first, some last =>
      let finish := fun inserted =>
        .ingested runId inserted items.length (items.length - inserted) last.event.seq
      let events := insertEvents 0 finish (items.map (eventRow tenantId))
      match existing with
      | some row =>
        .run (.updateRun (toUuid runId) tenantId (runUpdate row items last.event)) fun _ => events
      | none => .run (.insertRun (newRun tenantId runId items first.event last.event)) fun _ => events
    | .ok (), _, _ => .fail .noEvents

/-- The result of a batch, once the number of inserted events is known. -/
def ingestedResult (runId : String) (items : List Item) (last : Item) (inserted : Nat) : Result :=
  .ingested runId inserted items.length (items.length - inserted) last.event.seq

/-- The statement that writes the run of a batch: an update of the run that
exists, or the insert of a new one. -/
def runStmt (tenantId runId : String) (items : List Item) (first last : Item) :
    Option RunRow → Stmt
  | some row => .updateRun (toUuid runId) tenantId (runUpdate row items last.event)
  | none => .insertRun (newRun tenantId runId items first.event last.event)

section Into

variable {tenantId runId : String} {items : List Item} {existing : Option RunRow}

omit [Sha256] in
theorem any_other_eq_false (htenant : ∀ row ∈ existing, row.tenantId = tenantId) :
    existing.any (fun row => decide (row.tenantId ≠ tenantId)) = false := by
  cases existing with
  | none => rfl
  | some row => simpa using htenant row rfl

/-- A batch that does not continue its run is refused. -/
theorem ingestInto_error {e : IngestError} (htenant : ∀ row ∈ existing, row.tenantId = tenantId)
    (hchain : verifyBatchChain items (existing.bind RunRow.lastHash) = .error e) :
    ingestInto tenantId runId items existing = .fail e := by
  unfold ingestInto
  rw [any_other_eq_false htenant, if_neg Bool.false_ne_true, hchain]

/-- One that does writes its run, and then its events. -/
theorem ingestInto_ok {first last : Item} (htenant : ∀ row ∈ existing, row.tenantId = tenantId)
    (hchain : verifyBatchChain items (existing.bind RunRow.lastHash) = .ok ())
    (hfirst : items.head? = some first) (hlast : items.getLast? = some last) :
    ingestInto tenantId runId items existing =
      .run (runStmt tenantId runId items first last existing) fun _ =>
        insertEvents 0 (ingestedResult runId items last) (items.map (eventRow tenantId)) := by
  unfold ingestInto
  rw [any_other_eq_false htenant, if_neg Bool.false_ne_true, hchain, hfirst, hlast]
  cases existing with
  | none => rfl
  | some row => rfl

end Into

/-- Batch ingest of audit log lines. -/
def ingest (tenantId : String) (lines : List String) : Prog Result :=
  match prepare lines with
  | .error e => .fail e
  | .ok (runId, items) =>
    .run (.selectRun (toUuid runId) tenantId) fun existing =>
      ingestInto tenantId runId items existing

end Chain

/-- The input of `emitEvent`, as its schema lets it through. -/
structure EmitInput where
  runId : String
  eventType : String
  seq : Nat
  ts : String
  hash : String
  hashPrev : Option String
  agentName : Option String
  /-- the optional fields given, in the order of the schema -/
  optionals : List (String × ReplyValue)
  runId_isUuid : isUuid runId = true
  one_le_seq : 1 ≤ seq
  hash_length : (Shim.Ts.lit hash).length = 64
  hashPrev_length : ∀ h ∈ hashPrev, (Shim.Ts.lit h).length = 64

/-- `JSON.stringify(input)`. -/
def EmitInput.rawLine (input : EmitInput) : String :=
  String.ofList (Json.render Json.quote id (.obj
    ([("run_id", .str input.runId), ("schema_version", .num ['1']),
      ("event_type", .str input.eventType), ("seq", .num (Json.natText input.seq)),
      ("ts", .str input.ts), ("hash", .str input.hash),
      ("hash_prev", match input.hashPrev with | some h => .str h | none => .null)] ++
    (match input.agentName with | some a => [("agent_name", .str a)] | none => []) ++
    input.optionals)))

/-- The row of a supervisor event. -/
def EmitInput.eventRow (tenantId : String) (input : EmitInput) : EventRow where
  runId := toUuid input.runId
  tenantId := tenantId
  seq := input.seq
  eventType := input.eventType
  hash := input.hash
  hashPrev := input.hashPrev
  ts := input.ts
  decision := none
  inputTokens := none
  outputTokens := none
  estimatedCostUsd := none
  columns := input.optionals
  rawLine := input.rawLine

/-- The run a supervisor event would create. -/
def EmitInput.newRun (tenantId : String) (input : EmitInput) : RunRow where
  runId := toUuid input.runId
  tenantId := tenantId
  agentName := some (input.agentName.getD "loopstorm-supervisor")
  agentRole := none
  environment := none
  policyPackId := none
  status := "started"
  eventCount := 1
  lastSeq := input.seq
  lastHash := some input.hash
  totalCostUsd := 0
  totalInputTokens := 0
  totalOutputTokens := 0
  totalCallCount := 0
  startedAt := input.ts
  endedAt := none

/-- A supervisor event once its run has been looked up. -/
def emitInto (tenantId : String) (input : EmitInput) : Option RunRow → Prog Result
  | none => .run (.insertRun (input.newRun tenantId)) fun _ => .done .emitted
  | some _ =>
    .run (.updateRun (toUuid input.runId) tenantId (.increment input.seq input.hash))
      fun _ => .done .emitted

/-- Emit a supervisor audit event, with a key that has the scope for it or not. -/
def emitEvent (tenantId : String) (supervisorScope : Bool) (input : EmitInput) : Prog Result :=
  if supervisorScope then
    .run (.insertEvent (input.eventRow tenantId)) fun _ =>
      .run (.selectRun (toUuid input.runId) tenantId) (emitInto tenantId input)
  else .fail .forbidden

namespace Sample

/-- A run, as the clients name it. -/
def runId : String := "7f3c1d2e-90ab-4cde-8f01-23456789abcd"

end Sample

end LoopStorm.Backend
