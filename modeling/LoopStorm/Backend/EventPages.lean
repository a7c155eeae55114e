import LoopStorm.Backend.ChainVerify
import LoopStorm.Backend.Database
import LoopStorm.Lib.Cursor

/-!
# Reading the events of a run

The three procedures that read the events of a run in the order of their
numbers: `runs.getEvents`, `supervisorTools.getRunEvents` and `verify.chain`.

* `selectEvents` — their query, `getEvents`, `getRunEvents` its pages.
* `pages_are_one_query` — **the pages of a run that is being written are one
  query** of what was stored when the last page was read.
* `chain` — the verdict on all events of a run, which it fetches by the thousand;
  `chain_eq` says that it is the verdict on one query.
-/

namespace LoopStorm.Backend

open LoopStorm.Engine

/-! ## The query -/

/-- The stored events of a run, of one type when one is named. -/
def eventsOfRun (tenantId runId : String) (eventType : Option String) (table : List EventRow) :
    List EventRow :=
  table.filter fun e => e.runId = toUuid runId && e.tenantId = tenantId &&
    eventType.all fun t => e.eventType = t

/-- `SELECT … FROM events WHERE run_id = … AND tenant_id = … ORDER BY seq ASC`,
above a cursor. -/
def selectEvents (tenantId runId : String) (eventType : Option String) (cursor : Option Nat)
    (table : List EventRow) : List EventRow :=
  ((eventsOfRun tenantId runId eventType table).filter fun e =>
    cursor.all fun c => c < e.seq).mergeSort fun a b => a.seq ≤ b.seq

/-- The events of a run have different numbers. -/
def Numbered (tenantId runId : String) (table : List EventRow) : Prop :=
  ((eventsOfRun tenantId runId none table).map EventRow.seq).Nodup

/-- The events a run has gained have higher numbers than those it had. -/
def Appended (tenantId runId : String) : List EventRow → List EventRow → Prop :=
  fun before after => Cursor.Grows EventRow.seq (eventsOfRun tenantId runId none before)
    (eventsOfRun tenantId runId none after)

section Select

variable {tenantId runId : String} {table : List EventRow}

theorem eventsOfRun_eq_filter (eventType : Option String) :
    eventsOfRun tenantId runId eventType table =
      (eventsOfRun tenantId runId none table).filter fun e =>
        eventType.all fun t => e.eventType = t := by
  rw [eventsOfRun, eventsOfRun, List.filter_filter]
  refine List.filter_congr fun e _ => ?_
  rw [Option.all_none, Bool.and_true, Bool.and_comm]

theorem Appended.ofType {before after : List EventRow} (h : Appended tenantId runId before after)
    (eventType : Option String) :
    Cursor.Grows EventRow.seq (eventsOfRun tenantId runId eventType before)
      (eventsOfRun tenantId runId eventType after) := by
  rw [show eventsOfRun tenantId runId eventType before = _ from eventsOfRun_eq_filter eventType,
    show eventsOfRun tenantId runId eventType after = _ from eventsOfRun_eq_filter eventType]
  constructor
  case kept =>
    intro e he
    rw [List.mem_filter] at he ⊢
    exact ⟨h.kept he.1, he.2⟩
  case above =>
    intro e he hnew s hs
    rw [List.mem_filter] at he hs
    refine h.above e he.1 (fun hold => hnew ?_) s hs.1
    exact List.mem_filter.2 ⟨hold, he.2⟩

/-- A table that gains events above all it had. -/
theorem appended_of_above {before after : List EventRow} (hkept : before ⊆ after)
    (habove : ∀ r ∈ after, r ∉ before → ∀ s ∈ before, s.seq < r.seq) :
    Appended tenantId runId before after := by
  constructor
  case kept =>
    intro e he
    rw [eventsOfRun, List.mem_filter] at he ⊢
    exact ⟨hkept he.1, he.2⟩
  case above =>
    intro e he hnew s hs
    rw [eventsOfRun, List.mem_filter] at he hs
    refine habove e he.1 (fun hold => hnew ?_) s hs.1
    exact List.mem_filter.2 ⟨hold, he.2⟩

theorem found_selectEvents (h : Numbered tenantId runId table) (eventType : Option String)
    (cursor : Option Nat) :
    Cursor.Found EventRow.seq cursor (eventsOfRun tenantId runId eventType table)
      (selectEvents tenantId runId eventType cursor table) := by
  constructor
  case mem =>
    intro e
    rw [selectEvents, List.mem_mergeSort, List.mem_filter, Option.all_eq_true]
    simp
  case ascending =>
    have hperm := List.mergeSort_perm ((eventsOfRun tenantId runId eventType table).filter fun e =>
      cursor.all fun c => c < e.seq) fun a b => a.seq ≤ b.seq
    have hnodup : ((selectEvents tenantId runId eventType cursor table).map EventRow.seq).Nodup := by
      refine ((hperm.map EventRow.seq).nodup_iff).2 (h.sublist ?_)
      refine List.Sublist.map _ (List.filter_sublist.trans ?_)
      rw [eventsOfRun_eq_filter]
      exact List.filter_sublist
    have hsorted : (selectEvents tenantId runId eventType cursor table).Pairwise
        fun a b => decide (a.seq ≤ b.seq) = true :=
      List.pairwise_mergeSort (fun a b c hab hbc => by simp at *; omega)
        (fun a b => by simp; omega) _
    exact (hsorted.and (List.pairwise_map.1 hnodup)).imp fun hab =>
      lt_of_le_of_ne (of_decide_eq_true hab.1) hab.2

end Select

/-! ## The listings -/

/-- The input of a listing of events, but for its cursor. -/
structure EventsQuery (maxLimit : Nat) where
  runId : String
  limit : Option Nat
  eventType : Option String
  one_le_limit : ∀ n ∈ limit, 1 ≤ n
  limit_le : ∀ n ∈ limit, n ≤ maxLimit

/-- `if (input.event_type)`: no type, and an empty one, ask for every event. -/
def typeFilter : Option String → Option String
  | some "" => none
  | eventType => eventType

/-- A page of the events a query asks for. -/
def EventsQuery.page {maxLimit : Nat} (query : EventsQuery maxLimit) (default : Nat)
    (tenantId : String) (cursor : Option Nat) (table : List EventRow) : Cursor.Page EventRow Nat :=
  Cursor.extraPage EventRow.seq (query.limit.getD default)
    (selectEvents tenantId query.runId (typeFilter query.eventType) cursor table)

/-- `runs.getEvents`, `run` being the run the tenant finds. -/
def getEvents (tenantId : String) (query : EventsQuery 500) (run : Option RunRow)
    (cursor : Option Nat) (table : List EventRow) : Cursor.Page EventRow Nat :=
  match run with
  | none => ⟨[], none⟩
  | some _ => query.page 100 tenantId cursor table

/-- `supervisorTools.getRunEvents`, for a key that has its scope or not. -/
def getRunEvents (tenantId : String) (supervisorScope : Bool) (query : EventsQuery 1000)
    (cursor : Option Nat) (table : List EventRow) :
    Except IngestError (Cursor.Page EventRow Nat) :=
  if supervisorScope then .ok (query.page 500 tenantId cursor table) else .error .forbidden

section Pages

variable {tenantId : String} {maxLimit default : Nat} {query : EventsQuery maxLimit}
  {tables : List (List EventRow)}

theorem isPage_page (hdefault : 1 ≤ default) {table : List EventRow}
    (h : Numbered tenantId query.runId table) (cursor : Option Nat) :
    Cursor.IsPage EventRow.seq (query.limit.getD default) cursor
      (eventsOfRun tenantId query.runId (typeFilter query.eventType) table)
      (query.page default tenantId cursor table) := by
  refine Cursor.isPage_extraPage ?_ (found_selectEvents h _ cursor)
  cases hlimit : query.limit with
  | none => exact hdefault
  | some n => exact query.one_le_limit n hlimit

/-- Pages of a run that is being written, up to the last, are one query of the
events that were stored by then. -/
theorem follow_page (hdefault : 1 ≤ default)
    (hnumbered : ∀ t ∈ tables, Numbered tenantId query.runId t)
    (happended : tables.Pairwise (Appended tenantId query.runId)) {items : List EventRow}
    (h : Cursor.follow (query.page default tenantId) none tables = some items) :
    ∃ t ∈ tables,
      items = selectEvents tenantId query.runId (typeFilter query.eventType) none t := by
  obtain ⟨t, ht, hfound⟩ := Cursor.found_follow
    (fun cursor t ht => isPage_page hdefault (hnumbered t ht) cursor)
    (happended.imp fun hab => hab.ofType _) h
  exact ⟨t, ht, hfound.unique (found_selectEvents (hnumbered t ht) _ none)⟩

theorem follow_page_isSome (hdefault : 1 ≤ default)
    (hnumbered : ∀ t ∈ tables, Numbered tenantId query.runId t)
    (happended : tables.Pairwise (Appended tenantId query.runId)) (hne : tables ≠ [])
    (hmany : ∀ t ∈ tables, (eventsOfRun tenantId query.runId none t).length < tables.length) :
    (Cursor.follow (query.page default tenantId) none tables).isSome = true := by
  refine Cursor.follow_isSome_of_grows
    (fun cursor t ht => isPage_page hdefault (hnumbered t ht) cursor)
    (happended.imp fun hab => hab.ofType _) hne fun t ht => ?_
  rw [eventsOfRun_eq_filter]
  exact (List.length_filter_le _ _).trans_lt (hmany t ht)

end Pages

namespace Sample

/-- An event of a run. -/
def storedEvent (seq : Nat) : EventRow where
  runId := "r1"
  tenantId := "t1"
  seq := seq
  eventType := "policy_decision"
  hash := ""
  hashPrev := none
  ts := "2026-01-31T09:30:00Z"
  decision := some "allow"
  inputTokens := none
  outputTokens := none
  estimatedCostUsd := none
  columns := []
  rawLine := ""

/-- Three states of a table that gains an event. -/
def growing : List (List EventRow) :=
  [[storedEvent 1], [storedEvent 2, storedEvent 1], [storedEvent 2, storedEvent 1]]

theorem numbered_growing : ∀ t ∈ growing, ∀ runId, Numbered "t1" runId t := by
  intro t ht runId
  refine List.Nodup.sublist (List.Sublist.map _ List.filter_sublist) ?_
  simp only [growing, List.mem_cons, List.not_mem_nil, or_false] at ht
  rcases ht with rfl | rfl | rfl <;> decide

theorem appended_growing (runId : String) : growing.Pairwise (Appended "t1" runId) := by
  simp only [growing, List.pairwise_cons, List.mem_cons, List.not_mem_nil, or_false,
    forall_eq_or_imp, forall_eq, IsEmpty.forall_iff, implies_true, List.Pairwise.nil, and_true]
  refine ⟨⟨appended_of_above ?_ ?_, appended_of_above ?_ ?_⟩, appended_of_above ?_ ?_⟩ <;>
    simp [storedEvent]

/-- The run. -/
def sampleRun : RunRow where
  runId := "r1"
  tenantId := "t1"
  agentName := none
  agentRole := none
  environment := none
  policyPackId := none
  status := "started"
  eventCount := 1
  lastSeq := 1
  lastHash := none
  totalCostUsd := 0
  totalInputTokens := 0
  totalOutputTokens := 0
  totalCallCount := 1
  startedAt := "2026-01-31T09:30:00Z"
  endedAt := none

/-- One event on each page. -/
def oneByOne (maxLimit : Nat) (h : 1 ≤ maxLimit) : EventsQuery maxLimit where
  runId := "r1"
  limit := some 1
  eventType := none
  one_le_limit _ hn := (Option.some.inj hn).le
  limit_le _ hn := (Option.some.inj hn) ▸ h

end Sample

/-! ## Verification -/

/-- What `verify.chain` answers. -/
structure ChainAnswer where
  runId : String
  found : Bool
  valid : Bool
  eventCount : Nat
  brokenAtSeq : Option Nat
  message : String
  deriving DecidableEq, Repr

/-- The columns of an event its verification reads. -/
def EventRow.chainEvent (e : EventRow) : ChainEvent ℤ := ⟨e.seq, e.hash, e.hashPrev, e.rawLine, []⟩

/-- Page size for fetching events during chain verification. -/
def eventsPageSize : Nat := 1000

section Chain

variable [Sha256]

/-- The verdict on all events of a run. -/
def verdict (runId : String) (allEvents : List EventRow) : ChainAnswer :=
  match allEvents with
  | [] => ⟨runId, true, true, 0, none, "Run has no events"⟩
  | _ =>
    match verifyChain (allEvents.map EventRow.chainEvent) with
    | .valid eventCount =>
      ⟨runId, true, true, eventCount, none,
        "Chain verified: " ++ toString eventCount ++ " events intact"⟩
    | .broken eventCount brokenAtSeq reason =>
      ⟨runId, true, false, eventCount, some brokenAtSeq, reason⟩

/-- A page of all events of a run. -/
def chainPage (tenantId runId : String) (cursor : Option Nat) (table : List EventRow) :
    Cursor.Page EventRow Nat :=
  Cursor.shortPage EventRow.seq eventsPageSize (selectEvents tenantId runId none cursor table)

/-- `verify.chain`, `run` being the run the tenant finds, with the table as each
page finds it. -/
def chain (tenantId runId : String) (run : Option RunRow) (tables : List (List EventRow)) :
    Option ChainAnswer :=
  match run with
  | none => some ⟨runId, false, false, 0, none, "Run not found"⟩
  | some _ => (Cursor.follow (chainPage tenantId runId) (some 0) tables).map (verdict runId)

variable {tenantId runId : String} {tables : List (List EventRow)}

omit [Sha256] in
theorem isPage_chainPage {table : List EventRow} (h : Numbered tenantId runId table)
    (cursor : Option Nat) :
    Cursor.IsPage EventRow.seq eventsPageSize cursor (eventsOfRun tenantId runId none table)
      (chainPage tenantId runId cursor table) :=
  Cursor.isPage_shortPage (by decide) (found_selectEvents h none cursor)

/-- The verdict is on one query of the events that were stored by the last page. -/
theorem chain_eq {run : RunRow} (hnumbered : ∀ t ∈ tables, Numbered tenantId runId t)
    (happended : tables.Pairwise (Appended tenantId runId)) {answer : ChainAnswer}
    (h : chain tenantId runId (some run) tables = some answer) :
    ∃ t ∈ tables, answer = verdict runId (selectEvents tenantId runId none (some 0) t) := by
  obtain ⟨items, hitems, rfl⟩ := Option.map_eq_some_iff.1 h
  obtain ⟨t, ht, hfound⟩ := Cursor.found_follow
    (fun cursor t ht => isPage_chainPage (hnumbered t ht) cursor) happended hitems
  exact ⟨t, ht, congrArg _ (hfound.unique (found_selectEvents (hnumbered t ht) none _))⟩

/-- There is an answer after more pages than there are events. -/
theorem chain_isSome {run : RunRow} (hnumbered : ∀ t ∈ tables, Numbered tenantId runId t)
    (happended : tables.Pairwise (Appended tenantId runId)) (hne : tables ≠ [])
    (hmany : ∀ t ∈ tables, (eventsOfRun tenantId runId none t).length < tables.length) :
    (chain tenantId runId (some run) tables).isSome = true := by
  rw [chain, Option.isSome_map]
  exact Cursor.follow_isSome_of_grows
    (fun cursor t ht => isPage_chainPage (hnumbered t ht) cursor) happended hne hmany

end Chain

end LoopStorm.Backend
