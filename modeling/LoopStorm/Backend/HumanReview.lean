import LoopStorm.Backend.ApiKeys
import LoopStorm.Backend.Review
import LoopStorm.Lib.GrowingTable

/-!
# From the supervisor's proposals to a human's decisions

`createProposal`, `recordLearning` and `createEscalation` of
`trpc/routers/supervisor-tools.ts` insert rows for a supervisor; the procedures of
`supervisor.ts` let the users of its tenant decide on them, and the jobs expire them.
All of it happens side by side, from empty tables.

* `NewProposal`, `NewEscalation` — the rows a supervisor inserts; a learning record
  is approved from the start, a proposal is pending.
* `ProposalCall.Explains`, `EscalationCall.Explains` — how a call makes one row of
  another.
* `HumanReview`, `humanReviewStep` — both tables.
* `humans_decide` — **nobody but a human approves a proposal**: every row is as the
  supervisor made it, or what the calls of users of its tenant, or its timeout, have
  made of it.
-/

namespace LoopStorm.Backend

open GuardedUpdate
open LoopStorm.Shim (ReplyValue)

/-! ## What a supervisor inserts -/

/-- What a proposal says. -/
structure ProposalContent where
  proposalId : String
  supervisorRunId : String
  triggerRunId : Option String
  proposalType : String
  targetAgent : Option String
  rationale : String
  confidence : Option ℚ
  supportingRuns : Option (List String)
  proposedChanges : Option ReplyValue

/-- What an escalation says. -/
structure EscalationContent where
  escalationId : String
  supervisorRunId : String
  triggerRunId : Option String
  severity : String
  rationale : String
  recommendation : Option String
  confidence : Option ℚ
  supportingRuns : Option (List String)
  timeoutAction : Option String

/-- The kinds of learning records. -/
def learningTypes : List String :=
  ["incident_pattern", "agent_profile_update", "intervention_outcome"]

/-- The severities of an escalation. -/
def severities : List String := ["low", "medium", "high", "critical"]

/-- What may be done when an escalation times out. -/
def timeoutActions : List String := ["deny", "allow", "kill"]

/-- What the schemas ask of the members that proposals and escalations share. -/
def validCommon (supervisorRunId : String) (triggerRunId : Option String) (rationale : String)
    (confidence : Option ℚ) : Bool :=
  supervisorRunId ≠ "" && triggerRunId.all isUuid && rationale ≠ "" &&
    confidence.all fun x => 0 ≤ x && x ≤ 1

/-- A call of `createProposal`, or of `recordLearning`: the key it presents, its input,
the time, and the id the database draws. -/
structure NewProposal where
  key : ApiKeyAuthResult
  learning : Bool
  content : ProposalContent
  now : Int
  id : String

/-- The key has the scope, and the input the form its schema asks for. -/
def NewProposal.valid (c : NewProposal) : Bool :=
  "supervisor" ∈ c.key.scopes && c.content.proposalId ≠ "" &&
    validCommon c.content.supervisorRunId c.content.triggerRunId c.content.rationale
      c.content.confidence &&
    if c.learning then c.content.proposalType ∈ learningTypes else c.content.proposalType ≠ ""

/-- The row: a proposal waits for a decision, a learning record is approved. -/
def NewProposal.row (c : NewProposal) : Proposal ProposalContent where
  tenantId := c.key.tenantId
  status := if c.learning then .approved else .pending
  reviewedBy := none
  reviewedAt := if c.learning then some c.now else none
  reviewNotes := if c.learning then some "Auto-approved learning record" else none
  createdAt := c.now
  updatedAt := c.now
  rest := c.content

/-- A proposal as it is inserted, under its id. -/
def NewProposal.inserted (c : NewProposal) : Option (String × Proposal ProposalContent) :=
  if c.valid then some (c.id, c.row) else none

/-- A call of `createEscalation`. -/
structure NewEscalation where
  key : ApiKeyAuthResult
  content : EscalationContent
  timeoutSeconds : Option Int
  now : Int
  id : String

/-- The key has the scope, and the input the form its schema asks for. -/
def NewEscalation.valid (c : NewEscalation) : Bool :=
  "supervisor" ∈ c.key.scopes && c.content.escalationId ≠ "" &&
    validCommon c.content.supervisorRunId c.content.triggerRunId c.content.rationale
      c.content.confidence &&
    c.content.severity ∈ severities && (c.timeoutSeconds.all fun seconds => 0 ≤ seconds) &&
    c.content.timeoutAction.all fun action => action ∈ timeoutActions

/-- The row: it is open. -/
def NewEscalation.row (c : NewEscalation) : Escalation EscalationContent where
  tenantId := c.key.tenantId
  timeoutSeconds := c.timeoutSeconds
  status := .open
  acknowledgedBy := none
  acknowledgedAt := none
  resolutionNotes := none
  createdAt := c.now
  updatedAt := c.now
  rest := c.content

/-- An escalation as it is inserted, under its id. -/
def NewEscalation.inserted (c : NewEscalation) : Option (String × Escalation EscalationContent) :=
  if c.valid then some (c.id, c.row) else none

/-! ## Both tables -/

/-- The proposals, with those made so far and the calls on them. -/
abbrev ProposalTable : Type :=
  Growing String (Proposal ProposalContent) TrpcError (Reply (Proposal ProposalContent))
    ProposalCall NewProposal

/-- The escalations, likewise. -/
abbrev EscalationTable : Type :=
  Growing String (Escalation EscalationContent) TrpcError (Reply (Escalation EscalationContent))
    EscalationCall NewEscalation

/-- Both. -/
abbrev HumanReview : Type := ProposalTable × EscalationTable

/-- An event of either table. -/
def humanReviewStep :
    HumanReview → Growth ProposalCall NewProposal ⊕ Growth EscalationCall NewEscalation →
      Option HumanReview :=
  Run.both (grow ProposalCall.run NewProposal.inserted)
    (grow EscalationCall.run NewEscalation.inserted)

/-- Two empty tables. -/
def HumanReview.empty : HumanReview := (.empty, .empty)

/-! ## What a call makes of a row -/

section Explains

variable {δ : Type}

/-- How a call on the proposal `id` makes one row of another: a user of its tenant
approves or rejects it, or its time is up. -/
inductive ProposalCall.Explains (id : String) :
    ProposalCall → Proposal δ → Proposal δ → Prop
  | approve {caller : Caller} {target : String} {notes : Option String} {row : Proposal δ}
    (names : toUuid target = id) (mine : row.tenantId = caller.tenantId)
    (waits : row.status = .pending) :
    Explains id (.approve caller target notes) row
      { row with
        status := .approved
        reviewedBy := some caller.userId
        reviewedAt := some caller.now
        reviewNotes := notes
        updatedAt := caller.now }
  | reject {caller : Caller} {target notes : String} {row : Proposal δ}
    (names : toUuid target = id) (mine : row.tenantId = caller.tenantId)
    (waits : row.status = .pending) :
    Explains id (.reject caller target notes) row
      { row with
        status := .rejected
        reviewedBy := some caller.userId
        reviewedAt := some caller.now
        reviewNotes := some notes
        updatedAt := caller.now }
  | expire {now : Int} {ids : List String} {row : Proposal δ} (waits : row.status = .pending)
    (late : row.createdAt < now - proposalTimeoutSeconds * 1000) :
    Explains id (.expire now ids) row { row with status := .expired, updatedAt := now }

/-- How a call on the escalation `id` makes one row of another: a user of its tenant
acknowledges or resolves it, or its time is up. -/
inductive EscalationCall.Explains (id : String) :
    EscalationCall → Escalation δ → Escalation δ → Prop
  | acknowledge {caller : Caller} {target : String} {notes : Option String} {row : Escalation δ}
    (names : toUuid target = id) (mine : row.tenantId = caller.tenantId)
    (waits : row.status = .open) :
    Explains id (.acknowledge caller target notes) row
      { row with
        status := .acknowledged
        acknowledgedBy := some caller.userId
        acknowledgedAt := some caller.now
        resolutionNotes := notes
        updatedAt := caller.now }
  | resolve {caller : Caller} {target : String} {notes : Option String} {row : Escalation δ}
    (names : toUuid target = id) (mine : row.tenantId = caller.tenantId)
    (waits : row.status = .acknowledged) :
    Explains id (.resolve caller target notes) row
      { row with
        status := .resolved
        resolutionNotes := notes
        updatedAt := caller.now }
  | expire {dbNow now seconds : Int} {ids : List String} {row : Escalation δ}
    (waits : row.status = .open) (timed : row.timeoutSeconds = some seconds)
    (late : row.createdAt + seconds * 1000 < dbNow) :
    Explains id (.expire dbNow now ids) row { row with status := .expired, updatedAt := now }

/-- What was proposed, and for whom, stays. -/
theorem ProposalCall.Explains.kept {id : String} {call : ProposalCall} {a b : Proposal δ}
    (h : call.Explains id a b) : b.rest = a.rest ∧ b.tenantId = a.tenantId := by
  cases h <;> exact ⟨rfl, rfl⟩

theorem EscalationCall.Explains.kept {id : String} {call : EscalationCall} {a b : Escalation δ}
    (h : call.Explains id a b) : b.rest = a.rest ∧ b.tenantId = a.tenantId := by
  cases h <;> exact ⟨rfl, rfl⟩

/-- A call that has moved a row on has found it in its status, and its own. -/
theorem runs_transition_mine {α σ : Type} [DecidableEq σ] {tenantOf : α → String}
    {statusOf : α → σ} {noun : String} {refusal : σ → String} {source : σ} {caller : Caller}
    {id : String} {set : α → α} {ws : List (Write String α)} {answer : Reply α}
    (h : (transition tenantOf statusOf noun refusal source caller id set).Runs ws answer) :
    ∀ w ∈ ws, toUuid id = w.key ∧ tenantOf w.before = caller.tenantId ∧
      statusOf w.before = source ∧ w.after = set w.before := by
  obtain ⟨before, rfl, hmine, hsource, -⟩ := runs_checkThenSet h
  intro w hw
  rw [List.mem_singleton.1 hw]
  exact ⟨rfl, of_decide_eq_true hmine, of_decide_eq_true hsource, rfl⟩

/-- Every write of a call on proposals is explained by it. -/
theorem ProposalCall.explains {call : ProposalCall} {ws : List (Write String (Proposal δ))}
    {answer : Reply (Proposal δ)} (h : (call.run).Runs ws answer) :
    ∀ w ∈ ws, call.Explains w.key w.before w.after := by
  intro w hw
  cases call with
  | approve caller id reviewNotes =>
    obtain ⟨hkey, hmine, hwaits, hafter⟩ := runs_transition_mine (runs_of_ite h) w hw
    rw [hafter]
    exact .approve hkey hmine hwaits
  | reject caller id reviewNotes =>
    obtain ⟨hkey, hmine, hwaits, hafter⟩ := runs_transition_mine (runs_of_ite h) w hw
    rw [hafter]
    exact .reject hkey hmine hwaits
  | expire now ids =>
    obtain ⟨hdue, hafter⟩ := runs_sweep h w hw
    rw [decide_eq_true_eq] at hdue
    rw [hafter]
    exact .expire hdue.1 hdue.2

/-- Every write of a call on escalations is explained by it. -/
theorem EscalationCall.explains {call : EscalationCall} {ws : List (Write String (Escalation δ))}
    {answer : Reply (Escalation δ)} (h : (call.run).Runs ws answer) :
    ∀ w ∈ ws, call.Explains w.key w.before w.after := by
  intro w hw
  cases call with
  | acknowledge caller id resolutionNotes =>
    obtain ⟨hkey, hmine, hwaits, hafter⟩ := runs_transition_mine (runs_of_ite h) w hw
    rw [hafter]
    exact .acknowledge hkey hmine hwaits
  | resolve caller id resolutionNotes =>
    obtain ⟨hkey, hmine, hwaits, hafter⟩ := runs_transition_mine (runs_of_ite h) w hw
    rw [hafter]
    exact .resolve hkey hmine hwaits
  | expire dbNow now ids =>
    obtain ⟨hdue, hafter⟩ := runs_sweep h w hw
    rw [Bool.and_eq_true, decide_eq_true_eq, Option.any_eq_true] at hdue
    obtain ⟨hwaits, seconds, htimed, hlate⟩ := hdue
    rw [hafter]
    exact .expire hwaits htimed (of_decide_eq_true hlate)

end Explains

/-! ## Runs -/

theorem NewProposal.of_inserted {c : NewProposal} {id : String} {row : Proposal ProposalContent}
    (h : c.inserted = some (id, row)) : c.id = id ∧ c.row = row := by
  unfold NewProposal.inserted at h
  split at h
  · exact Prod.mk.inj (Option.some.inj h)
  · cases h

theorem NewEscalation.of_inserted {c : NewEscalation} {id : String}
    {row : Escalation EscalationContent} (h : c.inserted = some (id, row)) :
    c.id = id ∧ c.row = row := by
  unfold NewEscalation.inserted at h
  split at h
  · exact Prod.mk.inj (Option.some.inj h)
  · cases h

/-- A proposal is as it was made, or as one call has left it; a learning record is as it
was made. -/
theorem proposal_decided {s : ProposalTable} {es : List (Growth ProposalCall NewProposal)}
    (hrun : Run.exec (grow ProposalCall.run NewProposal.inserted) .empty es = some s)
    {c : NewProposal} (hc : c ∈ s.placed) :
    ∃ row, (s.store.table c.id).committed = some row ∧
      (row = c.row ∨ c.learning = false ∧
        ∃ d ∈ s.store.history, d.call.Explains c.id c.row row) := by
  have hinv := inv_grown hrun
  obtain ⟨id, first, hinserted, hfirst⟩ := hinv.rows c hc
  obtain ⟨rfl, rfl⟩ := NewProposal.of_inserted hinserted
  obtain ⟨last, hlast, hpath⟩ := hinv.path lawful_proposal hfirst
  refine ⟨last, hlast, ?_⟩
  have hlength := length_le_one_of_path hpath
  have hcalls := hinv.explained (fun _ _ _ => ProposalCall.explains) c.id
  generalize writesOf c.id s.store.writes = ws at hpath hlength hcalls
  generalize hstart : c.row = start at hpath
  cases hpath with
  | nil => exact .inl rfl
  | @cons w ws _ hnext hrest =>
    right
    rw [List.length_cons] at hlength
    obtain rfl : ws = [] := List.length_eq_zero_iff.1 (by omega)
    constructor
    · by_contra hlearning
      have hstatus : w.before.status = .approved := by
        rw [← hstart, NewProposal.row, if_pos (Bool.of_not_eq_false hlearning)]
      rw [hstatus] at hnext
      cases hnext
    · obtain ⟨d, hd, hexplains⟩ := hcalls w (List.mem_singleton_self w)
      generalize w.after = after at hrest hexplains
      cases hrest
      exact ⟨d, hd, hexplains⟩

/-- An escalation is as it was made, or as one call has left it, or two: one that has
acknowledged it and one that has resolved it. -/
theorem escalation_decided {s : EscalationTable} {es : List (Growth EscalationCall NewEscalation)}
    (hrun : Run.exec (grow EscalationCall.run NewEscalation.inserted) .empty es = some s)
    {c : NewEscalation} (hc : c ∈ s.placed) :
    ∃ row, (s.store.table c.id).committed = some row ∧
      (row = c.row ∨ (∃ d ∈ s.store.history, d.call.Explains c.id c.row row) ∨
        ∃ mid, (∃ d ∈ s.store.history, d.call.Explains c.id c.row mid) ∧
          mid.status = .acknowledged ∧ ∃ d ∈ s.store.history, d.call.Explains c.id mid row) := by
  have hinv := inv_grown hrun
  obtain ⟨id, first, hinserted, hfirst⟩ := hinv.rows c hc
  obtain ⟨rfl, rfl⟩ := NewEscalation.of_inserted hinserted
  obtain ⟨last, hlast, hpath⟩ := hinv.path lawful_escalation hfirst
  refine ⟨last, hlast, ?_⟩
  have hexplains := hinv.explained (fun _ _ _ => EscalationCall.explains) c.id
  generalize writesOf c.id s.store.writes = ws at hpath hexplains
  generalize hstart : c.row = start at hpath
  cases hpath with
  | nil => exact .inl rfl
  | @cons w ws _ hnext hrest =>
    obtain ⟨hw, hexplains'⟩ := List.forall_mem_cons.1 hexplains
    generalize hmid : w.after = mid at hrest
    cases hrest with
    | nil => exact .inr (.inl (hmid ▸ hw))
    | @cons v vs _ hnext' hrest' =>
      obtain ⟨hv, -⟩ := List.forall_mem_cons.1 hexplains'
      have hstatus : v.before.status = .acknowledged := by
        rw [hmid, ← hstart] at hnext
        generalize v.before.status = status at hnext hnext'
        cases hnext with
        | acknowledge => rfl
        | expire => cases hnext'
      generalize hlater : v.after = later at hrest'
      cases hrest' with
      | nil => exact .inr (.inr ⟨v.before, hmid ▸ hw, hstatus, hlater ▸ hv⟩)
      | cons hnext'' hrest'' =>
        rw [hlater] at hnext'
        rw [hstatus] at hnext'
        generalize Escalation.status _ = status at hnext' hnext''
        cases hnext'
        cases hnext''

namespace Sample

/-- A supervisor of one tenant proposes a budget. -/
def budgetProposal : NewProposal where
  key := ⟨"a", "k", ["supervisor"]⟩
  learning := false
  content := ⟨"prop_1", "sup_1", none, "budget_adjustment", none, "spend", none, none, none⟩
  now := 0
  id := proposalId

/-- It is inserted and approved. -/
def decision : List (Growth ProposalCall NewProposal ⊕ Growth EscalationCall NewEscalation) :=
  [.inl (.place budgetProposal), .inl (.call (.start 0 approval)), .inl (.call (.step 0)),
    .inl (.call (.step 0)), .inl (.call (.step 0))]

end Sample

end LoopStorm.Backend
