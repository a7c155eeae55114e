import LoopStorm.Backend.Event
import LoopStorm.Lib.CheckThenSet

/-!
# Human review of proposals and escalations

The procedures of `packages/backend/src/trpc/routers/supervisor.ts` that move a
proposal or an escalation on, and the job of
`packages/backend/src/jobs/timeout-checker.ts` that expires them.

* `Proposal`, `Escalation` — the rows, with the columns the code here reads or
  sets; `δ` stands for the rest.
* `approveProposal`, `rejectProposal`, `expireProposals` and
  `acknowledgeEscalation`, `resolveEscalation`, `expireEscalations` — the
  programs, each a look at the row and a guarded update.
* `Review`, `reviewStep` — the two tables side by side.
* `review_lifecycle` — **every row goes forward, once**: in every run of calls
  side by side.
-/

namespace LoopStorm.Backend

open GuardedUpdate

/-! ## Rows -/

/-- The status of a proposal. -/
inductive ProposalStatus where
  | pending
  | approved
  | rejected
  | expired
  deriving DecidableEq

/-- The status of an escalation. -/
inductive EscalationStatus where
  | open
  | acknowledged
  | resolved
  | expired
  deriving DecidableEq

/-- The text of a status. -/
def ProposalStatus.text : ProposalStatus → String
  | .pending => "pending"
  | .approved => "approved"
  | .rejected => "rejected"
  | .expired => "expired"

/-- The text of a status. -/
def EscalationStatus.text : EscalationStatus → String
  | .open => "open"
  | .acknowledged => "acknowledged"
  | .resolved => "resolved"
  | .expired => "expired"

/-- A row of `supervisor_proposals`; times in milliseconds. -/
structure Proposal (δ : Type) where
  tenantId : String
  status : ProposalStatus
  reviewedBy : Option String
  reviewedAt : Option Int
  reviewNotes : Option String
  createdAt : Int
  updatedAt : Int
  rest : δ

/-- A row of `supervisor_escalations`; times in milliseconds. -/
structure Escalation (δ : Type) where
  tenantId : String
  timeoutSeconds : Option Int
  status : EscalationStatus
  acknowledgedBy : Option String
  acknowledgedAt : Option Int
  resolutionNotes : Option String
  createdAt : Int
  updatedAt : Int
  rest : δ

/-! ## Programs -/

/-- An error of a procedure; the message of a refused input is the schema's. -/
structure TrpcError where
  code : String
  message : Option String
  deriving DecidableEq

/-- An input its schema refuses. -/
def badRequest : TrpcError := ⟨"BAD_REQUEST", none⟩

/-- Who calls, at which time. -/
structure Caller where
  tenantId : String
  userId : String
  now : Int
  deriving DecidableEq

/-- What a call answers: the row it has set, or how many rows. -/
inductive Reply (α : Type) where
  | updated (row : α)
  | count (n : Nat)

/-- Move a row on from the status it has to be in. -/
def transition {α σ : Type} [DecidableEq σ] (tenantOf : α → String) (statusOf : α → σ)
    (noun : String) (refusal : σ → String) (source : σ) (caller : Caller) (id : String)
    (set : α → α) : GuardedUpdate.Prog String α TrpcError (Reply α) :=
  checkThenSet (toUuid id) (fun row => tenantOf row = caller.tenantId)
    (fun row => statusOf row = source) set
    ⟨"NOT_FOUND", some (noun ++ " not found")⟩
    (fun row => ⟨"CONFLICT", some (refusal (statusOf row))⟩)
    ⟨"CONFLICT", some (noun ++ " status changed concurrently. Please re-fetch and retry.")⟩
    .updated

/-- The notes have the length their schema asks for. -/
def notesOk (least : Nat) (notes : String) : Bool :=
  decide (least ≤ jsLength notes ∧ jsLength notes ≤ 2000)

section Programs

variable {δ : Type}

/-- Approve a pending supervisor proposal. -/
def approveProposal (caller : Caller) (id : String) (reviewNotes : Option String) :
    GuardedUpdate.Prog String (Proposal δ) TrpcError (Reply (Proposal δ)) :=
  if isUuid id && reviewNotes.all (notesOk 0) then
    transition (·.tenantId) (·.status) "Proposal"
      (fun status => "Proposal is already in status \"" ++ status.text ++
        "\". Only pending proposals can be approved.")
      .pending caller id fun row =>
        { row with
          status := .approved
          reviewedBy := some caller.userId
          reviewedAt := some caller.now
          reviewNotes := reviewNotes
          updatedAt := caller.now }
  else .fail badRequest

/-- Reject a pending supervisor proposal. -/
def rejectProposal (caller : Caller) (id : String) (reviewNotes : String) :
    GuardedUpdate.Prog String (Proposal δ) TrpcError (Reply (Proposal δ)) :=
  if isUuid id && notesOk 1 reviewNotes then
    transition (·.tenantId) (·.status) "Proposal"
      (fun status => "Proposal is already in status \"" ++ status.text ++
        "\". Only pending proposals can be rejected.")
      .pending caller id fun row =>
        { row with
          status := .rejected
          reviewedBy := some caller.userId
          reviewedAt := some caller.now
          reviewNotes := some reviewNotes
          updatedAt := caller.now }
  else .fail badRequest

/-- Acknowledge an open escalation. -/
def acknowledgeEscalation (caller : Caller) (id : String) (resolutionNotes : Option String) :
    GuardedUpdate.Prog String (Escalation δ) TrpcError (Reply (Escalation δ)) :=
  if isUuid id && resolutionNotes.all (notesOk 0) then
    transition (·.tenantId) (·.status) "Escalation"
      (fun status => "Escalation is already in status \"" ++ status.text ++
        "\". Only open escalations can be acknowledged.")
      .open caller id fun row =>
        { row with
          status := .acknowledged
          acknowledgedBy := some caller.userId
          acknowledgedAt := some caller.now
          resolutionNotes := resolutionNotes
          updatedAt := caller.now }
  else .fail badRequest

/-- Resolve an acknowledged escalation. -/
def resolveEscalation (caller : Caller) (id : String) (resolutionNotes : Option String) :
    GuardedUpdate.Prog String (Escalation δ) TrpcError (Reply (Escalation δ)) :=
  if isUuid id && resolutionNotes.all (notesOk 0) then
    transition (·.tenantId) (·.status) "Escalation"
      (fun status => "Escalation is in status \"" ++ status.text ++
        "\". Only acknowledged escalations can be resolved.")
      .acknowledged caller id fun row =>
        { row with
          status := .resolved
          resolutionNotes := resolutionNotes
          updatedAt := caller.now }
  else .fail badRequest

/-- Proposals expire after this many seconds (24 hours). -/
def proposalTimeoutSeconds : Int := 86400

/-- Expire pending proposals that have exceeded their timeout; `ids` are the
rows the statement comes upon, in the order it does. -/
def expireProposals (now : Int) (ids : List String) :
    GuardedUpdate.Prog String (Proposal δ) TrpcError (Reply (Proposal δ)) :=
  let cutoff := now - proposalTimeoutSeconds * 1000
  sweep (fun row => decide (row.status = .pending ∧ row.createdAt < cutoff))
    (fun row => { row with status := .expired, updatedAt := now }) .count ids 0

/-- Expire open escalations that have exceeded their timeout; the clock of the
database decides which, that of the job is written. -/
def expireEscalations (dbNow now : Int) (ids : List String) :
    GuardedUpdate.Prog String (Escalation δ) TrpcError (Reply (Escalation δ)) :=
  sweep (fun row => decide (row.status = .open) &&
      row.timeoutSeconds.any fun seconds => row.createdAt + seconds * 1000 < dbNow)
    (fun row => { row with status := .expired, updatedAt := now }) .count ids 0

end Programs

/-- A call on proposals. -/
inductive ProposalCall where
  | approve (caller : Caller) (id : String) (reviewNotes : Option String)
  | reject (caller : Caller) (id : String) (reviewNotes : String)
  | expire (now : Int) (ids : List String)
  deriving DecidableEq

/-- A call on escalations. -/
inductive EscalationCall where
  | acknowledge (caller : Caller) (id : String) (resolutionNotes : Option String)
  | resolve (caller : Caller) (id : String) (resolutionNotes : Option String)
  | expire (dbNow now : Int) (ids : List String)

/-- What a call on proposals does. -/
def ProposalCall.run {δ : Type} :
    ProposalCall → GuardedUpdate.Prog String (Proposal δ) TrpcError (Reply (Proposal δ))
  | .approve caller id reviewNotes => approveProposal caller id reviewNotes
  | .reject caller id reviewNotes => rejectProposal caller id reviewNotes
  | .expire now ids => expireProposals now ids

/-- What a call on escalations does. -/
def EscalationCall.run {δ : Type} :
    EscalationCall → GuardedUpdate.Prog String (Escalation δ) TrpcError (Reply (Escalation δ))
  | .acknowledge caller id resolutionNotes => acknowledgeEscalation caller id resolutionNotes
  | .resolve caller id resolutionNotes => resolveEscalation caller id resolutionNotes
  | .expire dbNow now ids => expireEscalations dbNow now ids

/-! ## The two tables -/

section Tables

variable (δ β : Type)

/-- The proposals, with the calls on them. -/
abbrev Proposals : Type :=
  Store String (Proposal δ) TrpcError (Reply (Proposal δ)) ProposalCall

/-- The escalations, with the calls on them. -/
abbrev Escalations : Type :=
  Store String (Escalation δ) TrpcError (Reply (Escalation δ)) EscalationCall

/-- Both. -/
abbrev Review : Type := Proposals δ × Escalations β

end Tables

variable {δ β : Type}

/-- An event of a call on either table. -/
def reviewStep : Review δ β → Event ProposalCall ⊕ Event EscalationCall → Option (Review δ β) :=
  Run.both (step ProposalCall.run) (step EscalationCall.run)

/-- Two tables nothing has been called on. -/
def Review.of (proposals : String → Option (Proposal δ))
    (escalations : String → Option (Escalation β)) : Review δ β :=
  (Store.of proposals, Store.of escalations)

/-! ## What a call can do -/

/-- Where a proposal can go. -/
inductive ProposalStatus.Next : ProposalStatus → ProposalStatus → Prop
  | approve : Next .pending .approved
  | reject : Next .pending .rejected
  | expire : Next .pending .expired

/-- Where an escalation can go. -/
inductive EscalationStatus.Next : EscalationStatus → EscalationStatus → Prop
  | acknowledge : Next .open .acknowledged
  | resolve : Next .acknowledged .resolved
  | expire : Next .open .expired

/-- A well-formed call of a tenant that would move the pending proposal `id` on. -/
def ProposalCall.Competes (call : ProposalCall) (id tenantId : String) : Prop :=
  match call with
  | .approve caller target reviewNotes =>
    (isUuid target && reviewNotes.all (notesOk 0)) = true ∧ toUuid target = id ∧
      caller.tenantId = tenantId
  | .reject caller target reviewNotes =>
    (isUuid target && notesOk 1 reviewNotes) = true ∧ toUuid target = id ∧
      caller.tenantId = tenantId
  | .expire .. => False

/-- A well-formed call of a tenant that would move the escalation `id` on from a
status. -/
def EscalationCall.Competes (call : EscalationCall) (id tenantId : String)
    (source : EscalationStatus) : Prop :=
  match call with
  | .acknowledge caller target resolutionNotes =>
    source = .open ∧ (isUuid target && resolutionNotes.all (notesOk 0)) = true ∧
      toUuid target = id ∧ caller.tenantId = tenantId
  | .resolve caller target resolutionNotes =>
    source = .acknowledged ∧ (isUuid target && resolutionNotes.all (notesOk 0)) = true ∧
      toUuid target = id ∧ caller.tenantId = tenantId
  | .expire .. => False

theorem runs_of_ite {α ρ : Type} {b : Bool} {p : GuardedUpdate.Prog String α TrpcError ρ}
    {error : TrpcError}
    {ws : List (Write String α)} {answer : ρ}
    (h : (if b = true then p else .fail error).Runs ws answer) : p.Runs ws answer := by
  split at h
  · exact h
  · cases h

/-- A call that has moved a row on has found it in its status. -/
theorem runs_transition {α σ : Type} [DecidableEq σ] {tenantOf : α → String} {statusOf : α → σ}
    {noun : String} {refusal : σ → String} {source : σ} {caller : Caller} {id : String}
    {set : α → α} {ws : List (Write String α)} {answer : Reply α}
    (h : (transition tenantOf statusOf noun refusal source caller id set).Runs ws answer) :
    ∃ before, ws = [⟨toUuid id, before, set before⟩] ∧ statusOf before = source := by
  obtain ⟨before, hws, -, hsource, -⟩ := runs_checkThenSet h
  exact ⟨before, hws, by simpa using hsource⟩

/-- Proposals only leave `pending`. -/
theorem lawful_proposal :
    Lawful (ProposalCall.run (δ := δ)) fun a b => a.status.Next b.status := by
  intro call ws answer h w hw
  cases call with
  | approve caller id reviewNotes =>
    obtain ⟨before, rfl, hsource⟩ := runs_transition (runs_of_ite h)
    rw [List.mem_singleton.1 hw]
    show before.status.Next .approved
    rw [hsource]
    exact .approve
  | reject caller id reviewNotes =>
    obtain ⟨before, rfl, hsource⟩ := runs_transition (runs_of_ite h)
    rw [List.mem_singleton.1 hw]
    show before.status.Next .rejected
    rw [hsource]
    exact .reject
  | expire now ids =>
    obtain ⟨hdue, hafter⟩ := runs_sweep h w hw
    rw [decide_eq_true_eq] at hdue
    rw [hafter]
    show w.before.status.Next .expired
    rw [hdue.1]
    exact .expire

/-- Escalations only go from open to acknowledged to resolved, or from open to
expired. -/
theorem lawful_escalation :
    Lawful (EscalationCall.run (δ := δ)) fun a b => a.status.Next b.status := by
  intro call ws answer h w hw
  cases call with
  | acknowledge caller id resolutionNotes =>
    obtain ⟨before, rfl, hsource⟩ := runs_transition (runs_of_ite h)
    rw [List.mem_singleton.1 hw]
    show before.status.Next .acknowledged
    rw [hsource]
    exact .acknowledge
  | resolve caller id resolutionNotes =>
    obtain ⟨before, rfl, hsource⟩ := runs_transition (runs_of_ite h)
    rw [List.mem_singleton.1 hw]
    show before.status.Next .resolved
    rw [hsource]
    exact .resolve
  | expire dbNow now ids =>
    obtain ⟨hdue, hafter⟩ := runs_sweep h w hw
    rw [Bool.and_eq_true, decide_eq_true_eq] at hdue
    rw [hafter]
    show w.before.status.Next .expired
    rw [hdue.1]
    exact .expire

/-- How far a proposal has come. -/
def ProposalStatus.rank : ProposalStatus → Nat
  | .pending => 0
  | .approved | .rejected | .expired => 1

/-- How far an escalation has come. -/
def EscalationStatus.rank : EscalationStatus → Nat
  | .open => 0
  | .acknowledged => 1
  | .resolved | .expired => 2

theorem ProposalStatus.Next.rank_lt {a b : ProposalStatus} (h : a.Next b) : a.rank < b.rank := by
  cases h <;> decide

theorem EscalationStatus.Next.rank_lt {a b : EscalationStatus} (h : a.Next b) :
    a.rank < b.rank := by
  cases h <;> decide

theorem ranked_proposal :
    Ranked (fun a b : Proposal δ => a.status.Next b.status) (fun row => row.status.rank)
      (fun row => row.status = .pending) 0 where
  lt a b h := h.rank_lt
  ready row := by
    rw [decide_eq_true_iff]
    cases row.status <;> decide

theorem ranked_escalation {source : EscalationStatus}
    (hsource : source = .open ∨ source = .acknowledged) :
    Ranked (fun a b : Escalation δ => a.status.Next b.status) (fun row => row.status.rank)
      (fun row => row.status = source) source.rank where
  lt a b h := h.rank_lt
  ready row := by
    rw [decide_eq_true_iff]
    rcases hsource with rfl | rfl
    · cases row.status <;> decide
    · cases row.status <;> decide

theorem ProposalCall.Competes.checksThenSets {call : ProposalCall} {id tenantId : String}
    (h : call.Competes id tenantId) :
    (call.run :
      GuardedUpdate.Prog String (Proposal δ) TrpcError (Reply (Proposal δ))).ChecksThenSets id
      (fun row => row.tenantId = tenantId) fun row => row.status = .pending := by
  cases call with
  | approve caller target reviewNotes =>
    obtain ⟨hformed, rfl, rfl⟩ := h
    exact ⟨_, _, _, _, _, if_pos hformed⟩
  | reject caller target reviewNotes =>
    obtain ⟨hformed, rfl, rfl⟩ := h
    exact ⟨_, _, _, _, _, if_pos hformed⟩
  | expire now ids => cases h

theorem EscalationCall.Competes.checksThenSets {call : EscalationCall} {id tenantId : String}
    {source : EscalationStatus} (h : call.Competes id tenantId source) :
    (call.run :
      GuardedUpdate.Prog String (Escalation δ) TrpcError (Reply (Escalation δ))).ChecksThenSets id
      (fun row => row.tenantId = tenantId) fun row => row.status = source := by
  cases call with
  | acknowledge caller target resolutionNotes =>
    obtain ⟨rfl, hformed, rfl, rfl⟩ := h
    exact ⟨_, _, _, _, _, if_pos hformed⟩
  | resolve caller target resolutionNotes =>
    obtain ⟨rfl, hformed, rfl, rfl⟩ := h
    exact ⟨_, _, _, _, _, if_pos hformed⟩
  | expire dbNow now ids => cases h

theorem EscalationCall.Competes.source {call : EscalationCall} {id tenantId : String}
    {source : EscalationStatus} (h : call.Competes id tenantId source) :
    source = .open ∨ source = .acknowledged := by
  cases call with
  | acknowledge caller target resolutionNotes => exact .inl h.1
  | resolve caller target resolutionNotes => exact .inr h.1
  | expire dbNow now ids => cases h

/-! ## Runs -/

/-- The event has committed a call. -/
def Review.Commits (s : Review δ β) : Event ProposalCall ⊕ Event EscalationCall → Prop
  | .inl e => ∃ call answer, s.1.txs e.tx = .committed call answer
  | .inr e => ∃ call answer, s.2.txs e.tx = .committed call answer

/-- A proposal that has moved does not move again. -/
theorem ProposalStatus.Next.last {a b c : ProposalStatus} (hab : a.Next b) (hbc : b.Next c) :
    False := by
  cases hab <;> cases hbc

theorem length_le_one_of_path {first last : Proposal δ} {ws : List (Write String (Proposal δ))}
    (h : Path (fun a b : Proposal δ => a.status.Next b.status) first ws last) :
    ws.length ≤ 1 := by
  cases h with
  | nil => exact Nat.zero_le 1
  | @cons w ws last hnext hrest =>
    generalize hmid : w.after = mid at hrest
    cases hrest with
    | nil => exact le_rfl
    | cons hnext' hrest' =>
      rw [hmid] at hnext
      exact (hnext.last hnext').elim

/-- **Every row goes forward, once.**  In every run of calls side by side: the
writes of a proposal are at most one, from pending to approved, rejected or
expired, and those of an escalation a path from open to acknowledged to
resolved, or from open to expired; as soon as one of the calls begun on a row in
the status they move it on from has ended, exactly one call has moved it on; and
a step that does not commit a call leaves every stored row alone. -/
theorem review_lifecycle {proposals : String → Option (Proposal δ)}
    {escalations : String → Option (Escalation β)} {s : Review δ β}
    {events : List (Event ProposalCall ⊕ Event EscalationCall)}
    (hrun : Run.exec reviewStep (Review.of proposals escalations) events = some s) :
    (∀ id first, proposals id = some first → ∃ row, (s.1.table id).committed = some row ∧
      Path (fun a b => a.status.Next b.status) first (writesOf id s.1.writes) row ∧
      (writesOf id s.1.writes).length ≤ 1 ∧
      (row.status = .pending → ∀ tx, s.1.txs tx = .idle → ∀ more s',
        Run.exec reviewStep s more = some s' → ∀ call : ProposalCall,
          call.Competes id row.tenantId → (s'.1.txs tx).Ended call →
            ∃ c, winners id (fun r => r.status = .pending) s'.1.history = [c] ∧
              ∀ d ∈ s'.1.history, d.call.Competes id row.tenantId → d = c)) ∧
    (∀ id first, escalations id = some first → ∃ row, (s.2.table id).committed = some row ∧
      Path (fun a b => a.status.Next b.status) first (writesOf id s.2.writes) row ∧
      ∀ tx, s.2.txs tx = .idle → ∀ more s',
        Run.exec reviewStep s more = some s' → ∀ call : EscalationCall,
          call.Competes id row.tenantId row.status → (s'.2.txs tx).Ended call →
            ∃ c, winners id (fun r => r.status = row.status) s'.2.history = [c] ∧
              ∀ d ∈ s'.2.history, d.call.Competes id row.tenantId row.status → d = c) ∧
    ∀ e s', reviewStep s e = some s' → ¬ s'.Commits e → ∀ id,
      (s'.1.table id).committed = (s.1.table id).committed ∧
        (s'.2.table id).committed = (s.2.table id).committed := by
  obtain ⟨hproposals, hescalations⟩ := Run.exec_both _ _ hrun
  refine ⟨fun id first hfirst => ?_, fun id first hfirst => ?_, fun e s' hstep hnot id => ?_⟩
  · obtain ⟨row, hrow, hpath⟩ := path_of_exec lawful_proposal hproposals hfirst
    refine ⟨row, hrow, hpath, length_le_one_of_path hpath, ?_⟩
    intro hpending tx hidle more s' hmore call hcompetes hend
    obtain ⟨c, hc, honly⟩ := one_wins lawful_proposal ranked_proposal hproposals hfirst hrow
      (decide_eq_true hpending) (decide_eq_true rfl) hidle (Run.exec_both _ _ hmore).1
      hcompetes.checksThenSets hend
    exact ⟨c, hc, fun d hd hdcompetes => honly d hd hdcompetes.checksThenSets⟩
  · obtain ⟨row, hrow, hpath⟩ := path_of_exec lawful_escalation hescalations hfirst
    refine ⟨row, hrow, hpath, ?_⟩
    intro tx hidle more s' hmore call hcompetes hend
    obtain ⟨c, hc, honly⟩ := one_wins lawful_escalation (ranked_escalation hcompetes.source)
      hescalations hfirst hrow (decide_eq_true rfl) (decide_eq_true rfl) hidle
      (Run.exec_both _ _ hmore).2 hcompetes.checksThenSets hend
    exact ⟨c, hc, fun d hd hdcompetes => honly d hd hdcompetes.checksThenSets⟩
  · cases e with
    | inl e =>
      obtain ⟨t, ht, rfl⟩ := Option.map_eq_some_iff.1 hstep
      exact ⟨(committed_of_not_commit ht (fun call answer h => hnot ⟨call, answer, h⟩) id).1, rfl⟩
    | inr e =>
      obtain ⟨t, ht, rfl⟩ := Option.map_eq_some_iff.1 hstep
      exact ⟨rfl, (committed_of_not_commit ht (fun call answer h => hnot ⟨call, answer, h⟩) id).1⟩

namespace Sample

/-- A pending proposal. -/
def proposal : Proposal Unit := ⟨"a", .pending, none, none, none, 0, 0, ()⟩

def proposalId : String := "00000000-0000-4000-8000-000000000002"

/-- Its approval. -/
def approval : ProposalCall := .approve ⟨"a", "u", 1⟩ proposalId none

/-- Two reviewers who both find it pending. -/
def rivals : List (Event ProposalCall ⊕ Event EscalationCall) :=
  [.inl (.start 0 approval), .inl (.start 1 approval), .inl (.step 0), .inl (.step 1),
    .inl (.step 0), .inl (.step 0), .inl (.step 1), .inl (.step 1)]

/-- The call that has been rolled back with an error of its own. -/
def refused {κ α ε ρ γ : Type} : TxState κ α ε ρ γ → Option γ
  | .rolledBack call (some _) => some call
  | _ => none

theorem ended_of_refused {κ α ε ρ γ : Type} {state : TxState κ α ε ρ γ} {call : γ}
    (h : refused state = some call) : state.Ended call := by
  cases state with
  | rolledBack c error =>
    cases error with
    | some error =>
      cases h
      exact .inr ⟨error, rfl⟩
    | none => cases h
  | idle => cases h
  | running c ws rest => cases h
  | committed c reply => cases h

/-- The tables with that proposal alone. -/
def inbox : Review Unit Unit :=
  Review.of (fun id => if id = proposalId then some proposal else none) fun _ => none

/-- One of them approves it. -/
theorem review_lifecycle_rivals :
    ∃ s c, Run.exec reviewStep inbox rivals = some s ∧
      winners proposalId (fun r => r.status = .pending) s.1.history = [c] := by
  have hrefused : (Run.exec reviewStep inbox rivals).map (fun s => refused (s.1.txs 1)) =
      some (some approval) := by
    decide +kernel
  obtain ⟨s, hrun, hend⟩ := Option.map_eq_some_iff.1 hrefused
  have hlife := review_lifecycle (show Run.exec reviewStep inbox [] = some inbox from rfl)
  obtain ⟨row, hrow, -, -, hone⟩ := hlife.1 proposalId proposal (if_pos rfl)
  obtain rfl : proposal = row := Option.some.inj hrow
  have hcompetes : approval.Competes proposalId proposal.tenantId :=
    ⟨by decide +kernel, by decide +kernel, rfl⟩
  obtain ⟨c, hc, -⟩ := hone rfl 1 rfl rivals s hrun approval hcompetes (ended_of_refused hend)
  exact ⟨s, c, hrun, hc⟩

end Sample

end LoopStorm.Backend
