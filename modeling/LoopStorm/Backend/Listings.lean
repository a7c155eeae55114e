import LoopStorm.Lib.Keyset
import LoopStorm.Backend.Database
import LoopStorm.Backend.Review

/-!
# Listings in pages

`runs.list` of `trpc/routers/runs.ts` and `listEscalations` of
`trpc/routers/supervisor.ts`: newest first by `created_at`, with the last row's
`created_at` as the cursor.

* `toMillis` — what the cursor keeps of a time: the database has microseconds, a
  `Date` and its `toISOString` milliseconds.
* `runsList`, `listEscalations` — a page of each listing.
* `everyRun`, `everyEscalation` — all the pages a caller sees who follows the
  cursors.
* `listings_complete_iff` — **all rows are listed just when** no page ends within
  a millisecond.
-/

namespace LoopStorm.Backend

/-! ## Rows -/

/-- A row of `runs` with the time it was created, in microseconds. -/
structure CreatedRun where
  row : RunRow
  createdAt : ℤ
  deriving DecidableEq

/-- A row of `supervisor_escalations` as it is listed; the time in microseconds. -/
structure ListedEscalation (δ : Type) where
  tenantId : String
  status : EscalationStatus
  severity : String
  createdAt : ℤ
  rest : δ

/-- A number of rows per page that the input schema admits. -/
structure PageSize where
  val : ℕ
  min : 1 ≤ val
  max : val ≤ 100

/-- A time in microseconds, cut off to milliseconds. -/
def toMillis (t : ℤ) : ℤ := t / 1000 * 1000

theorem toMillis_le (t : ℤ) : toMillis t ≤ t := by
  unfold toMillis
  omega

/-! ## Pages -/

/-- An optional filter of a query. -/
def passes {α : Type} [DecidableEq α] (filter : Option α) (value : α) : Bool :=
  match filter with
  | none => true
  | some wanted => value = wanted

/-- The runs a listing is about. -/
def matchingRuns (tenantId : String) (status : Option String) (table : List CreatedRun) :
    List CreatedRun :=
  table.filter fun r => r.row.tenantId = tenantId && passes status r.row.status

/-- The escalations a listing is about. -/
def matchingEscalations {δ : Type} (tenantId : String) (status : Option EscalationStatus)
    (severity : Option String) (table : List (ListedEscalation δ)) : List (ListedEscalation δ) :=
  table.filter fun r => r.tenantId = tenantId && passes status r.status &&
    passes severity r.severity

/-- List agent runs for the current tenant. -/
def runsList (order : Keyset.Order CreatedRun.createdAt) (tenantId : String)
    (table : List CreatedRun) (status : Option String) (limit : PageSize) (cursor : Option ℤ) :
    Keyset.Page CreatedRun ℤ :=
  Keyset.page order toMillis limit.val (matchingRuns tenantId status table) cursor

/-- List supervisor escalations for the current tenant. -/
def listEscalations {δ : Type} (order : Keyset.Order (ListedEscalation.createdAt (δ := δ)))
    (tenantId : String) (table : List (ListedEscalation δ)) (status : Option EscalationStatus)
    (severity : Option String) (limit : PageSize) (cursor : Option ℤ) :
    Keyset.Page (ListedEscalation δ) ℤ :=
  Keyset.page order toMillis limit.val (matchingEscalations tenantId status severity table) cursor

/-- What a caller has seen who has followed the cursors to the end. -/
def everyRun (order : Keyset.Order CreatedRun.createdAt) (tenantId : String)
    (table : List CreatedRun) (status : Option String) (limit : PageSize) :
    Option (List CreatedRun) :=
  Keyset.follow (runsList order tenantId table status limit) (table.length + 1) none

/-- What a caller has seen who has followed the cursors to the end. -/
def everyEscalation {δ : Type} (order : Keyset.Order (ListedEscalation.createdAt (δ := δ)))
    (tenantId : String) (table : List (ListedEscalation δ)) (status : Option EscalationStatus)
    (severity : Option String) (limit : PageSize) : Option (List (ListedEscalation δ)) :=
  Keyset.follow (listEscalations order tenantId table status severity limit) (table.length + 1)
    none

/-- A page ends, and the next row was created in an earlier millisecond: among
these times, in pages of this size, always. -/
def BoundariesClear (limit : PageSize) (times : List ℤ) : Prop :=
  Keyset.Clear toMillis limit.val (Keyset.newestFirst times)

/-! ## What is listed -/

/-- A walk over pages of the rows a filter leaves ends, without a row twice. -/
theorem follow_filter {ρ : Type} {key : ρ → ℤ} (order : Keyset.Order key) (limit : PageSize)
    (p : ρ → Bool) (table : List ρ) :
    ∃ items, Keyset.follow (Keyset.page order toMillis limit.val (table.filter p))
        (table.length + 1) none = some items ∧
      items.Subperm (table.filter p) ∧
      (items.Perm (table.filter p) ↔ BoundariesClear limit ((table.filter p).map key)) :=
  Keyset.follow_spec order toMillis_le limit.min (Nat.lt_succ_of_le (List.length_filter_le ..))

/-- The runs are listed to an end, none of them twice. -/
theorem everyRun_subperm (order : Keyset.Order CreatedRun.createdAt) (tenantId : String)
    (table : List CreatedRun) (status : Option String) (limit : PageSize) :
    ∃ items, everyRun order tenantId table status limit = some items ∧
      items.Subperm (matchingRuns tenantId status table) := by
  obtain ⟨items, hitems, hsub, -⟩ := follow_filter order limit
    (fun r => r.row.tenantId = tenantId && passes status r.row.status) table
  exact ⟨items, hitems, hsub⟩

theorem some_perm_iff {ρ : Type} {seen : Option (List ρ)} {rows : List ρ} {c : Prop}
    (h : ∃ items, seen = some items ∧ items.Subperm rows ∧ (items.Perm rows ↔ c)) :
    (∃ items, seen = some items ∧ items.Perm rows) ↔ c := by
  obtain ⟨items, rfl, -, hiff⟩ := h
  rw [← hiff]
  constructor
  · rintro ⟨others, heq, hperm⟩
    obtain rfl := Option.some.inj heq
    exact hperm
  · intro hperm
    exact ⟨items, rfl, hperm⟩

/-- **All rows, each once, just when the boundaries are clear**: for runs and for
escalations, whatever is in the table, however the database orders rows of one
time, for every filter and page size. -/
theorem listings_complete_iff (limit : PageSize) :
    (∀ (order : Keyset.Order CreatedRun.createdAt) (tenantId : String) (table : List CreatedRun)
      (status : Option String),
      (∃ items, everyRun order tenantId table status limit = some items ∧
        items.Perm (matchingRuns tenantId status table)) ↔
      BoundariesClear limit ((matchingRuns tenantId status table).map CreatedRun.createdAt)) ∧
    ∀ (δ : Type) (order : Keyset.Order (ListedEscalation.createdAt (δ := δ))) (tenantId : String)
      (table : List (ListedEscalation δ)) (status : Option EscalationStatus)
      (severity : Option String),
      (∃ items, everyEscalation order tenantId table status severity limit = some items ∧
        items.Perm (matchingEscalations tenantId status severity table)) ↔
      BoundariesClear limit
        ((matchingEscalations tenantId status severity table).map ListedEscalation.createdAt) := by
  refine ⟨fun order tenantId table status => ?_, fun δ order tenantId table status severity => ?_⟩
  · exact some_perm_iff (follow_filter order limit _ table)
  · exact some_perm_iff (follow_filter order limit _ table)

namespace Sample

/-- A run of a tenant, created at a time in microseconds. -/
def createdRun (runId : String) (createdAt : ℤ) : CreatedRun where
  row :=
    { runId := runId, tenantId := "t1", agentName := none, agentRole := none, environment := none,
      policyPackId := none, status := "completed", eventCount := 1, lastSeq := 1, lastHash := none,
      totalCostUsd := 0, totalInputTokens := 0, totalOutputTokens := 0, totalCallCount := 0,
      startedAt := "2026-04-05T10:00:00.000Z", endedAt := none }
  createdAt := createdAt

/-- Two runs of one millisecond. -/
def twoRuns : List CreatedRun :=
  [createdRun "r2" 1775383200000700, createdRun "r1" 1775383200000200]

theorem min_onePerPage : 1 ≤ 1 := le_refl 1

theorem max_onePerPage : 1 ≤ 100 := by decide

/-- One run per page. -/
def onePerPage : PageSize := ⟨1, min_onePerPage, max_onePerPage⟩

theorem not_listed_twoRuns :
    ¬∃ items, everyRun (.stable CreatedRun.createdAt) "t1" twoRuns none onePerPage = some items ∧
      items.Perm (matchingRuns "t1" none twoRuns) := by
  have hseen : everyRun (.stable CreatedRun.createdAt) "t1" twoRuns none onePerPage =
      some [createdRun "r2" 1775383200000700] := by
    decide +kernel
  have hall : (matchingRuns "t1" none twoRuns).length = 2 := by decide +kernel
  rintro ⟨items, hitems, hperm⟩
  rw [hseen] at hitems
  obtain rfl := Option.some.inj hitems
  have hlength := hperm.length_eq
  rw [hall] at hlength
  cases hlength

end Sample

end LoopStorm.Backend
