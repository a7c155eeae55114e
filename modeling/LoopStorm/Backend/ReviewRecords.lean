import LoopStorm.Backend.Review

/-!
# What a review leaves in its row

The columns a reviewer's decision is recorded in, and what the calls of
`packages/backend/src/trpc/routers/supervisor.ts` and the job of
`packages/backend/src/jobs/timeout-checker.ts` that come later leave of them.

* `Retains`, `Proposal.Keeps`, `Escalation.Keeps` — a value that was there is
  there still.
* `Review.RecordsKept` — every write of a row leaves in it what the writes
  before it have recorded.
* `Review.NotesRepeated` — whoever has resolved an escalation has given again
  the note it was acknowledged with.
* `recordsKept_iff` — **records are kept exactly where notes are repeated**: a
  proposal keeps everything and an escalation keeps its reviewer, but
  `resolveEscalation` sets the notes whether it has been given some or not.
-/

namespace LoopStorm.Backend

open GuardedUpdate

/-- What a column held it still holds. -/
def Retains {α : Type} (old new : Option α) : Prop := ∀ value, old = some value → new = some value

theorem Retains.of_eq {α : Type} {old new : Option α} (h : new = old) : Retains old new :=
  fun _ hvalue => h.trans hvalue

variable {δ β : Type}

/-- What a review has recorded of a proposal is still there. -/
structure Proposal.Keeps (old new : Proposal δ) : Prop where
  reviewedBy : Retains old.reviewedBy new.reviewedBy
  reviewedAt : Retains old.reviewedAt new.reviewedAt
  reviewNotes : Retains old.reviewNotes new.reviewNotes

/-- What a review has recorded of an escalation is still there. -/
structure Escalation.Keeps (old new : Escalation δ) : Prop where
  acknowledgedBy : Retains old.acknowledgedBy new.acknowledgedBy
  acknowledgedAt : Retains old.acknowledgedAt new.acknowledgedAt
  resolutionNotes : Retains old.resolutionNotes new.resolutionNotes

/-- Every write of a row leaves in it what the writes before it have recorded. -/
def Review.RecordsKept (s : Review δ β) : Prop :=
  ∀ id, (writesOf id s.1.writes).Pairwise (fun w v => w.after.Keeps v.after) ∧
    (writesOf id s.2.writes).Pairwise fun w v => w.after.Keeps v.after

/-- Whoever has resolved an escalation has given again the note it was
acknowledged with. -/
def Review.NotesRepeated (s : Review δ β) : Prop :=
  ∀ c ∈ s.2.history, ∀ d ∈ s.2.history, ∀ acknowledger resolver target target' note notes,
    c.call = .acknowledge acknowledger target (some note) →
      d.call = .resolve resolver target' notes → toUuid target = toUuid target' →
        notes = some note

/-! ## Which call has made a write -/

section Writes

variable {call : EscalationCall} {ws : List (Write String (Escalation β))}
  {answer : Reply (Escalation β)} {w : Write String (Escalation β)}

/-- An acknowledgement records its reviewer, its time and its notes. -/
theorem runs_acknowledge {caller : Caller} {id : String} {resolutionNotes : Option String}
    (h : (acknowledgeEscalation caller id resolutionNotes).Runs ws answer) :
    ∃ before, before.status = .open ∧
      ws = [⟨toUuid id, before,
        { before with
          status := .acknowledged
          acknowledgedBy := some caller.userId
          acknowledgedAt := some caller.now
          resolutionNotes := resolutionNotes
          updatedAt := caller.now }⟩] := by
  obtain ⟨before, hws, hsource⟩ := runs_transition (runs_of_ite h)
  exact ⟨before, hsource, hws⟩

/-- A resolution records its notes, or that it has none. -/
theorem runs_resolve {caller : Caller} {id : String} {resolutionNotes : Option String}
    (h : (resolveEscalation caller id resolutionNotes).Runs ws answer) :
    ∃ before, before.status = .acknowledged ∧
      ws = [⟨toUuid id, before,
        { before with
          status := .resolved
          resolutionNotes := resolutionNotes
          updatedAt := caller.now }⟩] := by
  obtain ⟨before, hws, hsource⟩ := runs_transition (runs_of_ite h)
  exact ⟨before, hsource, hws⟩

theorem status_of_expire {dbNow now : Int} {ids : List String}
    (h : (expireEscalations dbNow now ids).Runs ws answer) (hw : w ∈ ws) :
    w.after.status = .expired := by
  obtain ⟨-, hafter⟩ := runs_sweep h w hw
  rw [hafter]

/-- Only an acknowledgement leaves an escalation acknowledged. -/
theorem exists_acknowledge (h : call.run.Runs ws answer) (hw : w ∈ ws)
    (hstatus : w.after.status = .acknowledged) :
    ∃ caller target, call = .acknowledge caller target w.after.resolutionNotes ∧
      w.key = toUuid target := by
  cases call with
  | acknowledge caller target resolutionNotes =>
    obtain ⟨before, -, rfl⟩ := runs_acknowledge h
    obtain rfl := List.mem_singleton.1 hw
    exact ⟨caller, target, rfl, rfl⟩
  | resolve caller target resolutionNotes =>
    obtain ⟨before, -, rfl⟩ := runs_resolve h
    obtain rfl := List.mem_singleton.1 hw
    cases hstatus
  | expire dbNow now ids =>
    rw [status_of_expire h hw] at hstatus
    cases hstatus

/-- Only a resolution leaves an escalation resolved; its reviewer stays. -/
theorem exists_resolve (h : call.run.Runs ws answer) (hw : w ∈ ws)
    (hstatus : w.after.status = .resolved) :
    ∃ caller target, call = .resolve caller target w.after.resolutionNotes ∧
      w.key = toUuid target ∧ w.after.acknowledgedBy = w.before.acknowledgedBy ∧
      w.after.acknowledgedAt = w.before.acknowledgedAt := by
  cases call with
  | acknowledge caller target resolutionNotes =>
    obtain ⟨before, -, rfl⟩ := runs_acknowledge h
    obtain rfl := List.mem_singleton.1 hw
    cases hstatus
  | resolve caller target resolutionNotes =>
    obtain ⟨before, -, rfl⟩ := runs_resolve h
    obtain rfl := List.mem_singleton.1 hw
    exact ⟨caller, target, rfl, rfl, rfl, rfl⟩
  | expire dbNow now ids =>
    rw [status_of_expire h hw] at hstatus
    cases hstatus

end Writes

/-! ## The writes of one escalation -/

/-- An escalation moves twice only by way of an acknowledgement. -/
theorem EscalationStatus.Next.twice {a b c : EscalationStatus} (hab : a.Next b) (hbc : b.Next c) :
    b = .acknowledged ∧ c = .resolved := by
  cases hab with
  | acknowledge =>
    cases hbc
    exact ⟨rfl, rfl⟩
  | resolve => cases hbc
  | expire => cases hbc

/-- An escalation is written at most once, or acknowledged and then resolved. -/
theorem pair_of_path {first last : Escalation β} {ws : List (Write String (Escalation β))}
    (h : Path (fun a b : Escalation β => a.status.Next b.status) first ws last) :
    ws = [] ∨ (∃ w, ws = [w]) ∨ ∃ w v, ws = [w, v] ∧ w.after.status = .acknowledged ∧
      v.before = w.after ∧ v.after.status = .resolved := by
  cases h with
  | nil => exact .inl rfl
  | @cons w ws last hnext hrest =>
    generalize hmid : w.after = mid at hrest hnext
    cases hrest with
    | nil => exact .inr (.inl ⟨w, rfl⟩)
    | @cons v ws last hnext' hrest' =>
      obtain ⟨hacknowledged, hresolved⟩ := hnext.twice hnext'
      generalize hend : v.after = stop at hrest' hnext' hresolved
      cases hrest' with
      | nil =>
        refine .inr (.inr ⟨w, v, rfl, ?_, hmid.symm, ?_⟩)
        · rw [hmid]
          exact hacknowledged
        · rw [hend]
          exact hresolved
      | cons hnext'' hrest'' =>
        -- a third write would need a status to leave a resolved escalation in
        rw [(hnext'.twice hnext'').1] at hresolved
        cases hresolved

section Path

variable {first last : Escalation β} {ws : List (Write String (Escalation β))}

/-- What acknowledges an escalation and what resolves it are all its writes. -/
theorem eq_pair_of_path
    (h : Path (fun a b : Escalation β => a.status.Next b.status) first ws last)
    {w v : Write String (Escalation β)} (hw : w ∈ ws) (hv : v ∈ ws)
    (hacknowledged : w.after.status = .acknowledged) (hresolved : v.after.status = .resolved) :
    ws = [w, v] ∧ v.before = w.after := by
  have hne : w ≠ v := by
    rintro rfl
    rw [hacknowledged] at hresolved
    cases hresolved
  rcases pair_of_path h with rfl | ⟨x, rfl⟩ | ⟨w', v', rfl, -, hbefore, hresolved'⟩
  · cases hw
  · exact absurd ((List.mem_singleton.1 hw).trans (List.mem_singleton.1 hv).symm) hne
  · rw [List.mem_pair] at hw hv
    obtain rfl : w = w' := hw.resolve_right fun heq => by
      rw [heq, hresolved'] at hacknowledged
      cases hacknowledged
    obtain rfl := hv.resolve_left hne.symm
    exact ⟨rfl, hbefore⟩

/-- What holds of an acknowledgement and a resolution holds of any two writes of
an escalation. -/
theorem pairwise_iff_of_path
    (h : Path (fun a b : Escalation β => a.status.Next b.status) first ws last)
    {P : Write String (Escalation β) → Write String (Escalation β) → Prop} :
    ws.Pairwise P ↔ ∀ w ∈ ws, ∀ v ∈ ws, w.after.status = .acknowledged →
      v.after.status = .resolved → P w v := by
  constructor
  · intro hpairwise w hw v hv hacknowledged hresolved
    obtain ⟨rfl, -⟩ := eq_pair_of_path h hw hv hacknowledged hresolved
    exact List.rel_of_pairwise_cons hpairwise (List.mem_singleton_self v)
  · intro hall
    rcases pair_of_path h with rfl | ⟨x, rfl⟩ | ⟨w, v, rfl, hacknowledged, -, hresolved⟩
    · exact .nil
    · exact List.pairwise_singleton _ x
    · exact List.pairwise_pair.2
        (hall w List.mem_cons_self v (List.mem_cons_of_mem _ (List.mem_singleton_self v))
          hacknowledged hresolved)

end Path

variable {proposals : String → Option (Proposal δ)} {escalations : String → Option (Escalation β)}
  {s : Review δ β} {events : List (Event ProposalCall ⊕ Event EscalationCall)}

/-- A proposal keeps what has been recorded of it: it is written once. -/
theorem proposals_kept
    (hrun : Run.exec reviewStep (Review.of proposals escalations) events = some s) (id : String) :
    (writesOf id s.1.writes).Pairwise fun w v => w.after.Keeps v.after := by
  rcases writesOf_eq_nil_or_path lawful_proposal (Run.exec_both _ _ hrun).1 id with
    hnil | ⟨first, last, hpath⟩
  · rw [hnil]
    exact .nil
  · have hlength := length_le_one_of_path hpath
    generalize writesOf id s.1.writes = ws at hlength
    cases ws with
    | nil => exact .nil
    | cons w ws =>
      rw [List.length_cons] at hlength
      obtain rfl := List.length_eq_zero_iff.1 (by omega : ws.length = 0)
      exact List.pairwise_singleton _ w

/-- An escalation keeps its reviewer, and everything exactly if its resolution
keeps the notes. -/
theorem escalations_kept_iff
    (hrun : Run.exec reviewStep (Review.of proposals escalations) events = some s) (id : String) :
    (writesOf id s.2.writes).Pairwise (fun w v => w.after.Keeps v.after) ↔
      ∀ w ∈ writesOf id s.2.writes, ∀ v ∈ writesOf id s.2.writes,
        w.after.status = .acknowledged → v.after.status = .resolved →
          Retains w.after.resolutionNotes v.after.resolutionNotes := by
  have hescalations := (Run.exec_both _ _ hrun).2
  rcases writesOf_eq_nil_or_path lawful_escalation hescalations id with
    hnil | ⟨first, last, hpath⟩
  · rw [hnil]
    exact iff_of_true .nil fun w hw => absurd hw List.not_mem_nil
  · rw [pairwise_iff_of_path hpath]
    constructor
    · intro hkept w hw v hv hacknowledged hresolved
      exact (hkept w hw v hv hacknowledged hresolved).resolutionNotes
    · intro hnotes w hw v hv hacknowledged hresolved
      obtain ⟨-, hbefore⟩ := eq_pair_of_path hpath hw hv hacknowledged hresolved
      obtain ⟨-, d, hd, hvd⟩ := mem_writesOf.1 hv
      obtain ⟨-, -, -, -, hby, hat⟩ :=
        exists_resolve ((inv_exec hescalations).history d hd) hvd hresolved
      rw [hbefore] at hby hat
      exact ⟨.of_eq hby, .of_eq hat, hnotes w hw v hv hacknowledged hresolved⟩

/-- **Records are kept exactly where notes are repeated.**  In every run of calls
side by side, what a review has recorded of a row is still there after every
later write of the row, if and only if every escalation that has been
acknowledged with a note and resolved has been resolved with that note. -/
theorem recordsKept_iff
    (hrun : Run.exec reviewStep (Review.of proposals escalations) events = some s) :
    s.RecordsKept ↔ s.NotesRepeated := by
  have hinv := inv_exec (Run.exec_both _ _ hrun).2
  constructor
  · intro hkept c hc d hd acknowledger resolver target target' note notes hcall hcall' hid
    have hcruns := hinv.history c hc
    have hdruns := hinv.history d hd
    rw [hcall] at hcruns
    rw [hcall'] at hdruns
    obtain ⟨before, -, hcws⟩ := runs_acknowledge hcruns
    obtain ⟨before', -, hdws⟩ := runs_resolve hdruns
    have hw := mem_writesOf.2 ⟨rfl, c, hc, hcws ▸ List.mem_singleton_self _⟩
    have hv := mem_writesOf.2 ⟨hid.symm, d, hd, hdws ▸ List.mem_singleton_self _⟩
    exact (escalations_kept_iff hrun (toUuid target)).1 (hkept (toUuid target)).2 _ hw _ hv rfl rfl
      note rfl
  · intro hrepeated id
    refine ⟨proposals_kept hrun id, (escalations_kept_iff hrun id).2 ?_⟩
    intro w hw v hv hacknowledged hresolved note hnote
    obtain ⟨hwid, c, hc, hwc⟩ := mem_writesOf.1 hw
    obtain ⟨hvid, d, hd, hvd⟩ := mem_writesOf.1 hv
    obtain ⟨acknowledger, target, hcall, hkey⟩ :=
      exists_acknowledge (hinv.history c hc) hwc hacknowledged
    obtain ⟨resolver, target', hcall', hkey', -, -⟩ :=
      exists_resolve (hinv.history d hd) hvd hresolved
    rw [hnote] at hcall
    refine hrepeated c hc d hd acknowledger resolver target target' note _ hcall hcall' ?_
    rw [← hkey, ← hkey', hwid, hvid]

namespace Sample

/-- An open escalation. -/
def escalation : Escalation Unit := ⟨"a", none, .open, none, none, none, 0, 0, ()⟩

def escalationId : String := "00000000-0000-4000-8000-000000000003"

/-- The tables with that escalation alone. -/
def alarm : Review Unit Unit :=
  Review.of (fun _ => none) fun id => if id = escalationId then some escalation else none

/-- It is acknowledged with one note and resolved with another, or none. -/
def handled (note : String) (notes : Option String) :
    List (Event ProposalCall ⊕ Event EscalationCall) :=
  [.inr (.start 0 (.acknowledge ⟨"a", "u", 1⟩ escalationId (some note))),
    .inr (.step 0), .inr (.step 0), .inr (.step 0),
    .inr (.start 1 (.resolve ⟨"a", "v", 2⟩ escalationId notes)),
    .inr (.step 1), .inr (.step 1), .inr (.step 1)]

/-- The notes its writes have left, one after the other. -/
def notesLeft (s : Review Unit Unit) : List (Option String) :=
  (writesOf escalationId s.2.writes).map fun w => w.after.resolutionNotes

theorem notesLeft_handled_none :
    (Run.exec reviewStep alarm (handled "paged" none)).map notesLeft =
      some [some "paged", none] := by
  decide +kernel

/-- A resolution without notes erases the note of the acknowledgement. -/
theorem recordsKept_erased :
    ∃ s, Run.exec reviewStep alarm (handled "paged" none) = some s ∧ ¬ s.RecordsKept := by
  obtain ⟨s, hrun, hnotes⟩ := Option.map_eq_some_iff.1 notesLeft_handled_none
  refine ⟨s, hrun, fun hkept => ?_⟩
  have hpairwise : (notesLeft s).Pairwise Retains :=
    List.pairwise_map.2 ((hkept escalationId).2.imp fun h => h.resolutionNotes)
  rw [hnotes, List.pairwise_pair] at hpairwise
  exact absurd (hpairwise "paged" rfl) (by simp)

/-- With the note given again it is kept. -/
theorem recordsKept_iff_handled :
    ∃ s, Run.exec reviewStep alarm (handled "paged" (some "paged")) = some s ∧
      (s.RecordsKept ↔ s.NotesRepeated) := by
  have hsome : (Run.exec reviewStep alarm (handled "paged" (some "paged"))).isSome = true := by
    decide +kernel
  obtain ⟨s, hrun⟩ := Option.isSome_iff_exists.1 hsome
  exact ⟨s, hrun, recordsKept_iff hrun⟩

end Sample

end LoopStorm.Backend
