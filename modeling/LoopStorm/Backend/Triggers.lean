import LoopStorm.Backend.Resend
import LoopStorm.Supervisor.Server

/-!
# The triggers of an ingest

What `events.ingest` sets off after its transaction: the triggers of
`packages/backend/src/lib/triggers.ts`, dispatched one by one to the supervisor.

* `evaluatePostRunTriggers` — the triggers a run and a list of events fire.
* `finalStatus`, `ingestTriggers` — the status a batch leaves its run in, and what
  fires then; `mem_ingestTriggers` says when each trigger does.
* `Ingests` — accepted batches of any tenants, one after the other.
* `sessions_have_causes` — **from the log to the session**: every supervisor
  session is about a batch that gave cause for it.
-/

namespace LoopStorm.Backend

open LoopStorm.Engine
open LoopStorm.Shim (ReplyValue)

/-! ## Evaluation -/

/-- A single trigger that fired, with its priority: 1 is critical. -/
structure TriggerResult where
  trigger : String
  priority : ℚ
  deriving DecidableEq

/-- What of an event the evaluation reads. -/
structure TriggerEvent where
  eventType : String
  decision : Option String

/-- Sort ascending by priority, ties as they are. -/
def sortByPriority (triggers : List TriggerResult) : List TriggerResult :=
  triggers.insertionSort fun a b => a.priority ≤ b.priority

/-- Budget fraction that triggers `high_cost`. -/
def highCostFraction : ℚ := 8 / 10

/-- Evaluate which triggers should fire after a run has ended. -/
def evaluatePostRunTriggers (status : String) (totalCostUsd : ℚ) (events : List TriggerEvent)
    (budgetHardCap : Option ℚ) : List TriggerResult :=
  sortByPriority
    ((if status = "terminated_budget" then [⟨"terminated_budget", 1⟩] else []) ++
      (if status = "terminated_loop" then [⟨"terminated_loop", 1⟩] else []) ++
      (if budgetHardCap.any (fun cap => highCostFraction * cap < totalCostUsd) then
        [⟨"high_cost", 2⟩] else []) ++
      (if status = "abandoned" then [⟨"abandoned", 3⟩] else []) ++
      if events.any (fun e => e.decision = some "deny") then [⟨"deny_decisions", 3⟩] else [])

/-! ## A batch -/

def terminalStatuses : List String :=
  ["completed", "terminated_budget", "terminated_loop", "terminated_policy", "abandoned"]

/-- The status a batch leaves its run in, `existing` being the run it found. -/
def finalStatus (existing : Option RunRow) (items : List Item) : String :=
  ((newStatus items).or (existing.map RunRow.status)).getD "started"

/-- The cost of the run after the batch. -/
def newTotalCost (existing : Option RunRow) (items : List Item) : ℚ :=
  (existing.map RunRow.totalCostUsd).getD 0 + batchCost items

def Item.triggerEvent (item : Item) : TriggerEvent := ⟨item.event.eventType, item.event.decision⟩

/-- The triggers a batch fires; the hard cap is not looked up. -/
def ingestTriggers (existing : Option RunRow) (items : List Item) : List TriggerResult :=
  if finalStatus existing items ∈ terminalStatuses then
    evaluatePostRunTriggers (finalStatus existing items) (newTotalCost existing items)
      (items.map Item.triggerEvent) none
  else []

/-- The messages a batch has dispatched. -/
def ingestMessages (enqueuedAt tenantId runId : String) (existing : Option RunRow)
    (items : List Item) : List TriggerMessage :=
  (ingestTriggers existing items).map fun t => ⟨t.trigger, runId, tenantId, t.priority, enqueuedAt⟩

/-- An event of the batch was denied. -/
def Denies (items : List Item) : Prop := ∃ item ∈ items, item.event.decision = some "deny"

theorem mem_sortByPriority (t : TriggerResult) (ts : List TriggerResult) :
    t ∈ sortByPriority ts ↔ t ∈ ts :=
  List.mem_insertionSort _

/-- **When a trigger fires.**  There are four: two for a run that was cut off, one
for a run found abandoned, one for a deny in the batch that ends the run or comes
after its end. -/
theorem mem_ingestTriggers (existing : Option RunRow) (items : List Item) (t : TriggerResult) :
    t ∈ ingestTriggers existing items ↔
      (t = ⟨"terminated_budget", 1⟩ ∧ finalStatus existing items = "terminated_budget") ∨
      (t = ⟨"terminated_loop", 1⟩ ∧ finalStatus existing items = "terminated_loop") ∨
      (t = ⟨"abandoned", 3⟩ ∧ finalStatus existing items = "abandoned") ∨
      (t = ⟨"deny_decisions", 3⟩ ∧ finalStatus existing items ∈ terminalStatuses ∧
        Denies items) := by
  have hdeny : (items.map Item.triggerEvent).any (fun e => e.decision = some "deny") = true ↔
      Denies items := by
    rw [List.any_map, List.any_eq_true]
    exact exists_congr fun item => and_congr Iff.rfl decide_eq_true_iff
  unfold ingestTriggers
  split
  case isTrue hterminal =>
    rw [evaluatePostRunTriggers, mem_sortByPriority]
    simp only [List.mem_append, hdeny, Option.any_none, List.mem_ite_nil_right,
      List.mem_singleton, hterminal, true_and, Bool.false_eq_true]
    tauto
  case isFalse hterminal =>
    have hne : ∀ s ∈ terminalStatuses, finalStatus existing items ≠ s :=
      fun s hs heq => hterminal (heq ▸ hs)
    have h1 := hne "terminated_budget" (by decide)
    have h2 := hne "terminated_loop" (by decide)
    have h3 := hne "abandoned" (by decide)
    simp [h1, h2, h3, hterminal]

/-! ## Batches -/

section Ingests

variable [Sha256]

/-- An accepted batch: the tables before and after, and when it was dispatched. -/
structure IngestStep where
  before : Db
  after : Db
  tenantId : String
  runId : String
  items : List Item
  enqueuedAt : String

/-- The run a batch found. -/
def IngestStep.existing (s : IngestStep) : Option RunRow :=
  (s.before.runs (toUuid s.runId)).committed.filter fun row => row.tenantId = s.tenantId

/-- What a batch has dispatched. -/
def IngestStep.messages (s : IngestStep) : List TriggerMessage :=
  ingestMessages s.enqueuedAt s.tenantId s.runId s.existing s.items

/-- Accepted batches, one after the other, each of some tenant. -/
inductive Ingests : Db → List IngestStep → Prop
  | nil (db : Db) : Ingests db []
  | cons {db db' : Db} {tenantId runId : String} {lines : List String} {items : List Item}
    {tx : Nat} {result : Result} {steps : List IngestStep} (htenant : tenantId ≠ "")
    (hprepare : prepare lines = .ok (runId, items))
    (haccepted : (ingest tenantId lines).serial tenantId tx db = .ok (result, db'))
    (enqueuedAt : String) (hrest : Ingests db' steps) :
    Ingests db (⟨db, db', tenantId, runId, items, enqueuedAt⟩ :: steps)

/-- What gives cause for a session: the message is of the batch's run and tenant,
and its trigger says how the batch left the run, or that it denied something in a
run that has ended. -/
structure IngestStep.Causes (s : IngestStep) (message : TriggerMessage) (status : String) :
    Prop where
  runId : message.triggerRunId = s.runId
  tenantId : message.tenantId = s.tenantId
  stored : ∀ row, (s.after.runs (toUuid s.runId)).committed = some row →
    row.tenantId = s.tenantId → row.status = status
  trigger : (message.trigger = status ∧
      status ∈ ["terminated_budget", "terminated_loop", "abandoned"]) ∨
    (message.trigger = "deny_decisions" ∧ status ∈ terminalStatuses ∧ Denies s.items)

omit [Sha256] in
/-- The status of the run after a batch is the one its triggers are evaluated at. -/
theorem status_runAfter {tenantId runId : String} {items : List Item} {first last : ParsedEvent}
    {old : Option RunRow}
    (htenant : (runAfter tenantId runId items first last old).tenantId = tenantId) :
    (runAfter tenantId runId items first last old).status =
      finalStatus (old.filter fun row => row.tenantId = tenantId) items := by
  cases old with
  | none =>
    rw [finalStatus, Option.filter_none, Option.map_none, Option.or_none]
    rfl
  | some row =>
    by_cases hown : row.tenantId = tenantId
    · rw [runAfter, if_pos hown, Option.filter_some_pos (by simpa using hown), finalStatus,
        Option.map_some]
      show (newStatus items).getD row.status = _
      cases newStatus items <;> rfl
    · rw [runAfter, if_neg hown] at htenant
      exact absurd htenant hown

omit [Sha256] in
/-- An accepted event names its run. -/
theorem runId_ne_of_parseEventLine {line : String} {i : Nat} {event : ParsedEvent}
    (h : parseEventLine line i = .ok event) : event.runId ≠ "" := by
  obtain ⟨obj, hparse, herror, rfl⟩ := parseEventLine_ok h
  have hfield : (("run_id", stringWith [(isUuid, "Invalid uuid")]) : String × Check) ∈
      parsedEventSchema := by
    simp [parsedEventSchema]
  have hcheck := check_of_firstError herror hfield
  dsimp only [ParsedEvent.ofObject, stringField]
  cases hlookup : Json.lookup "run_id" obj with
  | none => rw [hlookup] at hcheck; cases hcheck
  | some v =>
    rw [hlookup] at hcheck
    cases v with
    | str s =>
      rintro hempty
      have hs : s = "" := hempty
      subst hs
      have hbad : isUuid "" = false := by decide
      simp [stringWith, hbad] at hcheck
    | null => cases hcheck
    | bool b => cases hcheck
    | num n => cases hcheck
    | arr xs => cases hcheck
    | obj ms => cases hcheck

/-- **What a batch dispatches has a cause**, and names its trigger, run and
tenant. -/
theorem Ingests.causes {db : Db} {steps : List IngestStep} (h : Ingests db steps)
    (hquiet : db.Quiet) : ∀ step ∈ steps, ∀ message ∈ step.messages,
      Supervisor.Told message ∧ ∃ status, step.Causes message status := by
  induction h with
  | nil db => exact fun _ hstep => absurd hstep List.not_mem_nil
  | @cons db db' tenantId runId lines items tx result steps htenant hprepare haccepted time hrest ih =>
    obtain ⟨runId', items', hprepare', -, hingested⟩ := ingested_of_serial hquiet haccepted
    obtain ⟨rfl, rfl⟩ := Prod.mk.inj (Except.ok.inj (hprepare.symm.trans hprepare'))
    have hprepared := prepare_ok hprepare
    obtain ⟨first, last, hfirst, hlast⟩ := hprepared.exists_ends
    intro step hstep message hmessage
    rcases List.mem_cons.1 hstep with rfl | hstep
    · obtain ⟨t, ht, rfl⟩ := List.mem_map.1 hmessage
      have hrunId : runId ≠ "" := by
        have hmem := List.mem_of_mem_head? hfirst
        obtain ⟨line, -, i, -, hparse⟩ := hprepared.parsed first hmem
        exact hprepared.runId_eq first hmem ▸ runId_ne_of_parseEventLine hparse
      have hstored : ∀ row, (db'.runs (toUuid runId)).committed = some row →
          row.tenantId = tenantId → row.status = finalStatus
            ((db.runs (toUuid runId)).committed.filter fun row => row.tenantId = tenantId)
            items := by
        intro row hrow hown
        rw [hingested.runs first hfirst last hlast, if_pos rfl] at hrow
        obtain rfl := Option.some.inj hrow
        exact status_runAfter hown
      rcases (mem_ingestTriggers _ _ t).1 ht with
        ⟨rfl, hstatus⟩ | ⟨rfl, hstatus⟩ | ⟨rfl, hstatus⟩ | ⟨rfl, hterminal, hdenies⟩
      · refine ⟨⟨(by decide : "terminated_budget" ≠ ""), hrunId, htenant⟩, _, rfl, rfl, hstored, Or.inl ⟨hstatus.symm, ?_⟩⟩
        rw [IngestStep.existing] at hstatus
        simp [hstatus]
      · refine ⟨⟨(by decide : "terminated_loop" ≠ ""), hrunId, htenant⟩, _, rfl, rfl, hstored, Or.inl ⟨hstatus.symm, ?_⟩⟩
        rw [IngestStep.existing] at hstatus
        simp [hstatus]
      · refine ⟨⟨(by decide : "abandoned" ≠ ""), hrunId, htenant⟩, _, rfl, rfl, hstored, Or.inl ⟨hstatus.symm, ?_⟩⟩
        rw [IngestStep.existing] at hstatus
        simp [hstatus]
      · exact ⟨⟨(by decide : "deny_decisions" ≠ ""), hrunId, htenant⟩, _, rfl, rfl, hstored,
          Or.inr ⟨rfl, hterminal, hdenies⟩⟩
    · exact ih hingested.quiet step hstep message hmessage

end Ingests

namespace Sample

/-- The end of a run, cut off by a loop. -/
def endMembers : List (String × Json String Nat) :=
  [("schema_version", .num 1), ("event_type", .str "run_ended"), ("run_id", .str runId),
    ("seq", .num 1), ("ts", .str "2026-01-31T09:30:00Z"), ("hash", .str zeros),
    ("hash_prev", .null), ("run_status", .str "loop_terminated")]

theorem prepare_endMembers :
    prepare [lineOf endMembers] = .ok ((eventOf endMembers).runId,
      [⟨eventOf endMembers, lineOf endMembers⟩]) :=
  prepare_lineOf (by decide +kernel)

/-- A batch of it. -/
def endStep (db : Db) : IngestStep :=
  ⟨.empty, db, "t1", (eventOf endMembers).runId, [⟨eventOf endMembers, lineOf endMembers⟩],
    "2026-01-31T09:30:01Z"⟩

theorem messages_endStep (db : Db) : (endStep db).messages =
    [⟨"terminated_loop", (eventOf endMembers).runId, "t1", 1, "2026-01-31T09:30:01Z"⟩] := by
  have htriggers : ingestTriggers (endStep db).existing (endStep db).items =
      [⟨"terminated_loop", 1⟩] := by
    show ingestTriggers none [⟨eventOf endMembers, lineOf endMembers⟩] = _
    decide +kernel
  rw [IngestStep.messages, ingestMessages, htriggers]
  rfl

end Sample

end LoopStorm.Backend
