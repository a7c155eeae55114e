import LoopStorm.Lib.OrderedMap
import LoopStorm.Lib.Run

/-!
# The queue of supervisor triggers

`TriggerQueue` of `packages/backend/src/lib/trigger-queue.ts`: a bounded queue
that passes over a trigger for a run that had one in the last 60 seconds.

* `enqueueWhen`, `dequeue` — the queue, with the map of what was accepted last
  for each run, cleaned at the lengths `due` names.
* `latest`, `Tracks` — what the map stands for: the history of what was accepted.
* `triggerQueue_fifo` — **a queue with a memory of its history**: nothing lost or
  doubled, never too long, and refused only by what the history says, whenever
  the map is cleaned.
-/

namespace LoopStorm.Backend

structure TriggerMessage where
  trigger : String
  triggerRunId : String
  tenantId : String
  priority : ℚ
  enqueuedAt : String
  deriving DecidableEq

structure DedupeEntry where
  priority : ℚ
  /-- `Date.now()` in milliseconds. -/
  timestamp : ℤ

/-- Deduplication window in milliseconds (60 seconds). -/
def dedupWindowMs : ℤ := 60000

structure TriggerQueue where
  queue : List TriggerMessage
  /-- The entry enqueued last for each run. -/
  dedup : OrderedMap String DedupeEntry

namespace TriggerQueue

/-- A queue before its first message. -/
def empty : TriggerQueue := ⟨[], .empty⟩

/-- A trigger for the run was enqueued recently, of equal or higher priority. -/
def suppressed (now : ℤ) (message : TriggerMessage) : Option DedupeEntry → Bool
  | some existing =>
    now - existing.timestamp < dedupWindowMs ∧ existing.priority ≤ message.priority
  | none => false

/-- Remove expired dedup entries. -/
def cleanupDedup (now : ℤ) (dedup : OrderedMap String DedupeEntry) :
    OrderedMap String DedupeEntry :=
  dedup.filter fun e => !decide (dedupWindowMs ≤ now - e.2.timestamp)

/-- Enqueue a trigger message, and clean the map when the new length is due. -/
def enqueueWhen (due : Nat → Bool) (capacity : Nat) (q : TriggerQueue) (now : ℤ)
    (message : TriggerMessage) : TriggerQueue × Bool :=
  if suppressed now message (q.dedup.get? message.triggerRunId) then (q, false)
  else if capacity ≤ q.queue.length then (q, false)
  else
    let queue := q.queue ++ [message]
    let dedup := q.dedup.set message.triggerRunId ⟨message.priority, now⟩
    (⟨queue, if due queue.length then cleanupDedup now dedup else dedup⟩, true)

/-- The lengths at which the map is cleaned. -/
def everyFifty (length : Nat) : Bool := length % 50 = 0

/-- Dequeue the next trigger message. -/
def dequeue (q : TriggerQueue) : TriggerQueue × Option TriggerMessage :=
  ({ q with queue := q.queue.tail }, q.queue.head?)

/-! ## The machine -/

inductive Op where
  | enqueue (now : ℤ) (message : TriggerMessage)
  | dequeue

inductive Answer where
  | enqueued (accepted : Bool)
  | dequeued (message : Option TriggerMessage)

/-- One call of a queue that is cleaned at the lengths `due`. -/
def stepWhen (due : Nat → Bool) (capacity : Nat) (q : TriggerQueue) :
    Op → TriggerQueue × Answer
  | .enqueue now message =>
    let (q, accepted) := enqueueWhen due capacity q now message
    (q, .enqueued accepted)
  | .dequeue =>
    let (q, message) := q.dequeue
    (q, .dequeued message)

/-- One call. -/
def step : Nat → TriggerQueue → Op → TriggerQueue × Answer := stepWhen everyFifty

/-- The clock when a call reads it. -/
def Op.time? : Op → Option ℤ
  | .enqueue now _ => some now
  | .dequeue => none

/-- The clock does not go back. -/
def ClockMonotone (ops : List Op) : Prop := (ops.filterMap Op.time?).Pairwise (· ≤ ·)

/-- What a call accepts, and when. -/
def acceptedBy : Op × Answer → Option (ℤ × TriggerMessage)
  | (.enqueue now message, .enqueued true) => some (now, message)
  | _ => none

/-- The message a call dequeues. -/
def Answer.dequeued? : Answer → Option TriggerMessage
  | .dequeued message => message
  | .enqueued _ => none

section Runs

variable (due : Nat → Bool) (capacity : Nat)

/-- The queue after a run of calls. -/
def queueAfter (ops : List Op) : TriggerQueue :=
  Run.stateAfter (stepWhen due capacity) empty ops

/-- The answers in a run of calls. -/
def answers (ops : List Op) : List Answer := Run.outputs (stepWhen due capacity) empty ops

/-- The messages a run of calls has accepted, in order, each with its time. -/
def accepted (ops : List Op) : List (ℤ × TriggerMessage) :=
  (ops.zip (answers due capacity ops)).filterMap acceptedBy

/-- The messages a run of calls has dequeued, in order. -/
def dequeued (ops : List Op) : List TriggerMessage :=
  (answers due capacity ops).filterMap Answer.dequeued?

end Runs

/-- The message accepted last for a run. -/
def latest (history : List (ℤ × TriggerMessage)) (runId : String) : Option (ℤ × TriggerMessage) :=
  (history.filter fun e => e.2.triggerRunId = runId).getLast?

/-- The history refuses a message: one of equal or higher priority was accepted
last for its run, less than 60 seconds ago. -/
def Refuses (history : List (ℤ × TriggerMessage)) (now : ℤ) (message : TriggerMessage) : Prop :=
  ∃ e, latest history message.triggerRunId = some e ∧ now - e.1 < dedupWindowMs ∧
    e.2.priority ≤ message.priority

/-! ## What the map stands for -/

theorem latest_concat (history : List (ℤ × TriggerMessage)) (e : ℤ × TriggerMessage)
    (runId : String) :
    latest (history ++ [e]) runId =
      if e.2.triggerRunId = runId then some e else latest history runId := by
  rw [latest, List.filter_append]
  by_cases h : e.2.triggerRunId = runId
  · rw [if_pos h, List.filter_singleton, decide_eq_true h]
    exact List.getLast?_concat
  · rw [if_neg h, List.filter_singleton, decide_eq_false h]
    simp [latest]

/-- The map knows what was accepted last for a run, unless that is 60 seconds
ago. -/
structure Tracks (q : TriggerQueue) (history : List (ℤ × TriggerMessage)) (now : ℤ) : Prop where
  past : ∀ e ∈ history, e.1 ≤ now
  entry : ∀ runId existing, q.dedup.get? runId = some existing →
    ∃ e, latest history runId = some e ∧ existing = ⟨e.2.priority, e.1⟩
  kept : ∀ runId e, latest history runId = some e → now - e.1 < dedupWindowMs →
    q.dedup.get? runId = some ⟨e.2.priority, e.1⟩

theorem Tracks.empty (now : ℤ) : Tracks .empty [] now where
  past _ he := absurd he List.not_mem_nil
  entry _ _ h := by cases h
  kept _ _ h := by cases h

/-- Time passes. -/
theorem Tracks.mono {q : TriggerQueue} {history : List (ℤ × TriggerMessage)} {now later : ℤ}
    (h : Tracks q history now) (hle : now ≤ later) : Tracks q history later where
  past e he := (h.past e he).trans hle
  entry := h.entry
  kept runId e he hrecent := h.kept runId e he (by omega)

/-- **What the map answers** is what the history says. -/
theorem Tracks.suppressed_iff {q : TriggerQueue} {history : List (ℤ × TriggerMessage)} {now : ℤ}
    (h : Tracks q history now) (message : TriggerMessage) :
    suppressed now message (q.dedup.get? message.triggerRunId) = true ↔
      Refuses history now message := by
  constructor
  · intro hsuppressed
    cases hget : q.dedup.get? message.triggerRunId with
    | none =>
      rw [hget] at hsuppressed
      cases hsuppressed
    | some existing =>
      obtain ⟨e, he, rfl⟩ := h.entry _ _ hget
      rw [hget] at hsuppressed
      exact ⟨e, he, of_decide_eq_true hsuppressed⟩
  · rintro ⟨e, he, hrecent, hpriority⟩
    rw [h.kept _ e he hrecent]
    exact decide_eq_true ⟨hrecent, hpriority⟩

theorem Tracks.cleanup {q : TriggerQueue} {history : List (ℤ × TriggerMessage)} {now : ℤ}
    (h : Tracks q history now) : Tracks ⟨q.queue, cleanupDedup now q.dedup⟩ history now where
  past := h.past
  entry runId existing hget := by
    refine h.entry runId existing (OrderedMap.get?_eq_some_iff.2 ?_)
    exact (List.mem_filter.1 (OrderedMap.get?_eq_some_iff.1 hget)).1
  kept runId e he hrecent := by
    refine OrderedMap.get?_filter_of_pos (h.kept runId e he hrecent) ?_
    rw [Bool.not_eq_true', decide_eq_false_iff_not]
    exact not_le.2 hrecent

theorem Tracks.accept {q : TriggerQueue} {history : List (ℤ × TriggerMessage)} {now : ℤ}
    (h : Tracks q history now) (queue : List TriggerMessage) (message : TriggerMessage) :
    Tracks ⟨queue, q.dedup.set message.triggerRunId ⟨message.priority, now⟩⟩
      (history ++ [(now, message)]) now where
  past e he := by
    rcases List.mem_append.1 he with he | he
    · exact h.past e he
    · rw [List.mem_singleton.1 he]
  entry runId existing hget := by
    rw [OrderedMap.get?_set] at hget
    rw [latest_concat]
    by_cases hrun : runId = message.triggerRunId
    · rw [if_pos hrun] at hget
      rw [if_pos hrun.symm]
      exact ⟨_, rfl, (Option.some.inj hget).symm⟩
    · rw [if_neg hrun] at hget
      rw [if_neg fun heq => hrun heq.symm]
      exact h.entry runId existing hget
  kept runId e he hrecent := by
    rw [latest_concat] at he
    rw [OrderedMap.get?_set]
    by_cases hrun : runId = message.triggerRunId
    · rw [if_pos hrun.symm] at he
      rw [if_pos hrun, ← Option.some.inj he]
    · rw [if_neg fun heq => hrun heq.symm] at he
      rw [if_neg hrun]
      exact h.kept runId e he hrecent

/-- **One message**: refused by the history or a full queue, or accepted. -/
theorem Tracks.enqueue {q : TriggerQueue} {history : List (ℤ × TriggerMessage)} {now : ℤ}
    (h : Tracks q history now) (due : Nat → Bool) (capacity : Nat) (message : TriggerMessage) :
    ((capacity ≤ q.queue.length ∨ Refuses history now message) ∧
      enqueueWhen due capacity q now message = (q, false)) ∨
    (q.queue.length < capacity ∧ ¬Refuses history now message ∧
      ∃ dedup, enqueueWhen due capacity q now message = (⟨q.queue ++ [message], dedup⟩, true) ∧
        Tracks ⟨q.queue ++ [message], dedup⟩ (history ++ [(now, message)]) now) := by
  unfold enqueueWhen
  by_cases hrefuses : Refuses history now message
  · rw [if_pos ((h.suppressed_iff message).2 hrefuses)]
    exact Or.inl ⟨Or.inr hrefuses, rfl⟩
  · rw [if_neg fun hs => hrefuses ((h.suppressed_iff message).1 hs)]
    by_cases hfull : capacity ≤ q.queue.length
    · rw [if_pos hfull]
      exact Or.inl ⟨Or.inl hfull, rfl⟩
    · rw [if_neg hfull]
      refine Or.inr ⟨not_le.1 hfull, hrefuses, _, rfl, ?_⟩
      have haccept := h.accept (q.queue ++ [message]) message
      split_ifs
      · exact haccept.cleanup
      · exact haccept

/-! ## Whole runs -/

/-- Accepted messages of one run, less than 60 seconds apart, get more urgent. -/
def MoreUrgent (a b : ℤ × TriggerMessage) : Prop :=
  a.2.triggerRunId = b.2.triggerRunId → b.1 - a.1 < dedupWindowMs →
    b.2.priority < a.2.priority

/-- A message the history does not refuse is more urgent than all before it. -/
theorem moreUrgent_of_not_refuses {history : List (ℤ × TriggerMessage)} {now : ℤ}
    {message : TriggerMessage} (hsorted : history.Pairwise fun a b => a.1 ≤ b.1)
    (hurgent : history.Pairwise MoreUrgent) (hpast : ∀ e ∈ history, e.1 ≤ now)
    (h : ¬Refuses history now message) : ∀ a ∈ history, MoreUrgent a (now, message) := by
  rintro a ha hrun hrecent
  have hmem : a ∈ history.filter fun e => e.2.triggerRunId = message.triggerRunId :=
    List.mem_filter.2 ⟨ha, decide_eq_true hrun⟩
  -- the last one accepted for the run was not refused either
  obtain ⟨init, last, hfilter⟩ := (List.eq_nil_or_concat _).resolve_left (List.ne_nil_of_mem hmem)
  rw [List.concat_eq_append] at hfilter
  have hlatest : latest history message.triggerRunId = some last := by
    rw [latest, hfilter]
    exact List.getLast?_concat
  have hlast : last ∈ history ∧ last.2.triggerRunId = message.triggerRunId := by
    have hin : last ∈ history.filter fun e => e.2.triggerRunId = message.triggerRunId := by
      rw [hfilter]
      exact List.mem_concat_self
    exact ⟨(List.mem_filter.1 hin).1, of_decide_eq_true (List.mem_filter.1 hin).2⟩
  have hstep : now - last.1 < dedupWindowMs → message.priority < last.2.priority := by
    intro hclose
    by_contra hle
    exact h ⟨last, hlatest, hclose, not_lt.1 hle⟩
  rw [hfilter] at hmem
  rcases List.mem_append.1 hmem with hinit | heq
  · have hpair := hsorted.filter fun e => e.2.triggerRunId = message.triggerRunId
    have hpair' := hurgent.filter fun e => e.2.triggerRunId = message.triggerRunId
    rw [hfilter] at hpair hpair'
    have hle := (List.pairwise_append.1 hpair).2.2 a hinit last (List.mem_singleton_self _)
    have hmore := (List.pairwise_append.1 hpair').2.2 a hinit last (List.mem_singleton_self _)
    have hnow := hpast last hlast.1
    have hbefore : last.2.priority < a.2.priority := by
      refine hmore (hrun.trans hlast.2.symm) ?_
      dsimp only at hrecent
      omega
    refine (hstep ?_).trans hbefore
    dsimp only at hrecent
    omega
  · rw [List.mem_singleton.1 heq] at hrecent ⊢
    exact hstep hrecent

/-- What a queue owes to its history and to what has left it. -/
structure Accounted (capacity : Nat) (q : TriggerQueue) (history : List (ℤ × TriggerMessage))
    (taken : List TriggerMessage) : Prop where
  fifo : taken ++ q.queue = history.map Prod.snd
  bounded : q.queue.length ≤ capacity
  sorted : history.Pairwise fun a b => a.1 ≤ b.1
  urgent : history.Pairwise MoreUrgent

section Accounts

variable {capacity : Nat} {q : TriggerQueue} {history : List (ℤ × TriggerMessage)}
  {taken : List TriggerMessage}

theorem Accounted.accept {now : ℤ} {message : TriggerMessage}
    {dedup : OrderedMap String DedupeEntry} (h : Accounted capacity q history taken)
    (hpast : ∀ e ∈ history, e.1 ≤ now) (hroom : q.queue.length < capacity)
    (hrefuses : ¬Refuses history now message) :
    Accounted capacity ⟨q.queue ++ [message], dedup⟩ (history ++ [(now, message)]) taken where
  fifo := by rw [← List.append_assoc, h.fifo, List.map_append, List.map_singleton]
  bounded := by
    rw [List.length_append, List.length_singleton]
    exact hroom
  sorted := by
    refine List.pairwise_append.2 ⟨h.sorted, List.pairwise_singleton _ _, fun a ha b hb => ?_⟩
    rw [List.mem_singleton.1 hb]
    exact hpast a ha
  urgent := by
    refine List.pairwise_append.2 ⟨h.urgent, List.pairwise_singleton _ _, fun a ha b hb => ?_⟩
    rw [List.mem_singleton.1 hb]
    exact moreUrgent_of_not_refuses h.sorted h.urgent hpast hrefuses a ha

theorem Accounted.dequeue (h : Accounted capacity q history taken) :
    Accounted capacity q.dequeue.1 history (taken ++ q.dequeue.2.toList) where
  fifo := by
    have hsplit : q.queue.head?.toList ++ q.queue.tail = q.queue := by
      cases q.queue with
      | nil => rfl
      | cons message rest => rfl
    show taken ++ q.queue.head?.toList ++ q.queue.tail = _
    rw [List.append_assoc, hsplit, h.fifo]
  bounded := by
    refine le_trans ?_ h.bounded
    rw [TriggerQueue.dequeue, List.length_tail]
    exact Nat.sub_le _ _
  sorted := h.sorted
  urgent := h.urgent

end Accounts

section Runs

variable (due : Nat → Bool) (capacity : Nat)

theorem accepted_concat (ops : List Op) (op : Op) :
    accepted due capacity (ops ++ [op]) = accepted due capacity ops ++
      (acceptedBy (op, (stepWhen due capacity (queueAfter due capacity ops) op).2)).toList := by
  have hlength : ops.length = (answers due capacity ops).length := (Run.length_outputs ..).symm
  have hanswers : answers due capacity (ops ++ [op]) = answers due capacity ops ++
      [(stepWhen due capacity (queueAfter due capacity ops) op).2] :=
    Run.outputs_concat ..
  rw [accepted, hanswers, List.zip_append hlength, List.filterMap_append]
  cases hlast : acceptedBy (op, (stepWhen due capacity (queueAfter due capacity ops) op).2) with
  | none => simp [accepted, hlast]
  | some e => simp [accepted, hlast]

theorem dequeued_concat (ops : List Op) (op : Op) :
    dequeued due capacity (ops ++ [op]) = dequeued due capacity ops ++
      (stepWhen due capacity (queueAfter due capacity ops) op).2.dequeued?.toList := by
  have hanswers : answers due capacity (ops ++ [op]) = answers due capacity ops ++
      [(stepWhen due capacity (queueAfter due capacity ops) op).2] :=
    Run.outputs_concat ..
  rw [dequeued, hanswers, List.filterMap_append]
  cases hlast : (stepWhen due capacity (queueAfter due capacity ops) op).2.dequeued? with
  | none => simp [dequeued, hlast]
  | some message => simp [dequeued, hlast]

theorem queueAfter_concat (ops : List Op) (op : Op) :
    queueAfter due capacity (ops ++ [op]) =
      (stepWhen due capacity (queueAfter due capacity ops) op).1 :=
  Run.stateAfter_concat ..

theorem ClockMonotone.of_append {ops rest : List Op} (h : ClockMonotone (ops ++ rest)) :
    ClockMonotone ops := by
  rw [ClockMonotone, List.filterMap_append] at h
  exact (List.pairwise_append.1 h).1

theorem ClockMonotone.past {ops rest : List Op} {now : ℤ} {message : TriggerMessage}
    (h : ClockMonotone (ops ++ .enqueue now message :: rest)) :
    ∀ time ∈ ops.filterMap Op.time?, time ≤ now := by
  rw [ClockMonotone, List.filterMap_append] at h
  exact fun time ht => (List.pairwise_append.1 h).2.2 time ht now (List.mem_cons_self ..)

/-- What holds after a run, at any time that is not before it. -/
theorem run_spec {ops : List Op} (h : ClockMonotone ops) :
    (∀ now, (∀ time ∈ ops.filterMap Op.time?, time ≤ now) →
      Tracks (queueAfter due capacity ops) (accepted due capacity ops) now) ∧
    Accounted capacity (queueAfter due capacity ops) (accepted due capacity ops)
      (dequeued due capacity ops) := by
  induction ops using List.reverseRecOn with
  | nil => exact ⟨fun now _ => .empty now, rfl, Nat.zero_le _, List.Pairwise.nil, List.Pairwise.nil⟩
  | append_singleton ops op ih =>
    obtain ⟨htracks, haccounted⟩ := ih h.of_append
    rw [queueAfter_concat, accepted_concat, dequeued_concat]
    cases op with
    | enqueue now message =>
      have hnow := htracks now h.past
      have hlater : ∀ later, (∀ time ∈ (ops ++ [Op.enqueue now message]).filterMap Op.time?,
          time ≤ later) → now ≤ later := by
        intro later htimes
        refine htimes now ?_
        rw [List.filterMap_append]
        exact List.mem_append_right _ (List.mem_singleton_self _)
      rcases hnow.enqueue due capacity message with
        ⟨-, heq⟩ | ⟨hroom, hrefuses, dedup, heq, hnext⟩
      · have hstep : stepWhen due capacity (queueAfter due capacity ops) (.enqueue now message) =
            (queueAfter due capacity ops, .enqueued false) := by
          rw [stepWhen, heq]
        rw [hstep]
        simp only [acceptedBy, Answer.dequeued?, Option.toList_none, List.append_nil]
        exact ⟨fun later htimes => hnow.mono (hlater later htimes), haccounted⟩
      · have hstep : stepWhen due capacity (queueAfter due capacity ops) (.enqueue now message) =
            (⟨(queueAfter due capacity ops).queue ++ [message], dedup⟩, .enqueued true) := by
          rw [stepWhen, heq]
        rw [hstep]
        simp only [acceptedBy, Answer.dequeued?, Option.toList_none, Option.toList_some,
          List.append_nil]
        exact ⟨fun later htimes => hnext.mono (hlater later htimes),
          haccounted.accept hnow.past hroom hrefuses⟩
    | dequeue =>
      have hsame : acceptedBy (.dequeue,
          (stepWhen due capacity (queueAfter due capacity ops) .dequeue).2) = none := rfl
      rw [hsame, Option.toList_none, List.append_nil]
      refine ⟨fun later htimes => ?_, haccounted.dequeue⟩
      rw [List.filterMap_append] at htimes
      have hbefore := htracks later fun time ht => htimes time (List.mem_append_left _ ht)
      exact ⟨hbefore.past, hbefore.entry, hbefore.kept⟩

/-- An answer of a run, by what was accepted before. -/
theorem answer_enqueue {ops : List Op} {now : ℤ} {message : TriggerMessage}
    (h : ClockMonotone (ops ++ [.enqueue now message])) :
    (enqueueWhen due capacity (queueAfter due capacity ops) now message).2 = false ↔
      capacity ≤ (queueAfter due capacity ops).queue.length ∨
        Refuses (accepted due capacity ops) now message := by
  have hnow := (run_spec due capacity h.of_append).1 now h.past
  rcases hnow.enqueue due capacity message with ⟨hrefused, heq⟩ | ⟨hroom, hrefuses, dedup, heq, -⟩
  · rw [heq]
    exact iff_of_true rfl hrefused
  · rw [heq]
    refine iff_of_false Bool.true_eq_false_eq_False.elim ?_
    rintro (hfull | hrefused)
    · exact absurd hfull (not_le.2 hroom)
    · exact hrefuses hrefused

/-- The map is cleaned at other lengths: the answers and the queue stay. -/
theorem answers_due (due' : Nat → Bool) {ops : List Op} (h : ClockMonotone ops) :
    answers due' capacity ops = answers due capacity ops ∧
      (queueAfter due' capacity ops).queue = (queueAfter due capacity ops).queue := by
  induction ops using List.reverseRecOn with
  | nil => exact ⟨rfl, rfl⟩
  | append_singleton ops op ih =>
    obtain ⟨hanswers, hqueue⟩ := ih h.of_append
    have hlast : ∀ d, answers d capacity (ops ++ [op]) = answers d capacity ops ++
        [(stepWhen d capacity (queueAfter d capacity ops) op).2] :=
      fun d => Run.outputs_concat ..
    have haccepted : accepted due' capacity ops = accepted due capacity ops := by
      rw [accepted, accepted, hanswers]
    rw [hlast, hlast, hanswers, queueAfter_concat, queueAfter_concat]
    cases op with
    | enqueue now message =>
      have htracks := (run_spec due capacity h.of_append).1 now h.past
      have htracks' := (run_spec due' capacity h.of_append).1 now h.past
      rw [haccepted] at htracks'
      -- both go by the same history and the same queue
      rcases htracks.enqueue due capacity message with
        ⟨hrefused, heq⟩ | ⟨hroom, hrefuses, dedup, heq, -⟩
      · rcases htracks'.enqueue due' capacity message with
          ⟨-, heq'⟩ | ⟨hroom', hrefuses', -⟩
        · rw [stepWhen, stepWhen, heq, heq']
          exact ⟨rfl, hqueue⟩
        · rw [hqueue] at hroom'
          rcases hrefused with hfull | hrefused
          · exact absurd hfull (not_le.2 hroom')
          · exact absurd hrefused hrefuses'
      · rcases htracks'.enqueue due' capacity message with
          ⟨hrefused', -⟩ | ⟨-, -, dedup', heq', -⟩
        · rw [hqueue] at hrefused'
          rcases hrefused' with hfull' | hrefused'
          · exact absurd hfull' (not_le.2 hroom)
          · exact absurd hrefused' hrefuses
        · rw [stepWhen, stepWhen, heq, heq', hqueue]
          exact ⟨rfl, rfl⟩
    | dequeue =>
      rw [stepWhen, stepWhen, dequeue, dequeue, hqueue]
      exact ⟨rfl, rfl⟩

end Runs

/-- **A queue with a memory of its history**, for every capacity and every run of
calls by a clock that does not go back.  What has left it and what is in it are
what it accepted, in that order; it is never too long; a message is refused just
when it is full or the history refuses it, so that messages of one run less than
60 seconds apart get more urgent; and cleaning the map at any lengths, or never,
changes no answer. -/
theorem triggerQueue_fifo (capacity : Nat) (ops : List Op) (h : ClockMonotone ops) :
    dequeued everyFifty capacity ops ++ (queueAfter everyFifty capacity ops).queue =
      (accepted everyFifty capacity ops).map Prod.snd ∧
    (queueAfter everyFifty capacity ops).queue.length ≤ capacity ∧
    (∀ before now message after, ops = before ++ .enqueue now message :: after →
      ((enqueueWhen everyFifty capacity (queueAfter everyFifty capacity before) now message).2 =
          false ↔
        capacity ≤ (queueAfter everyFifty capacity before).queue.length ∨
          Refuses (accepted everyFifty capacity before) now message)) ∧
    (accepted everyFifty capacity ops).Pairwise MoreUrgent ∧
    ∀ due, answers due capacity ops = answers everyFifty capacity ops := by
  have hrun := (run_spec everyFifty capacity h).2
  refine ⟨hrun.fifo, hrun.bounded, ?_, hrun.urgent, fun due => (answers_due _ _ due h).1⟩
  rintro before now message after rfl
  have hprefix : ClockMonotone ((before ++ [.enqueue now message]) ++ after) := by
    rw [List.append_assoc]
    exact h
  exact answer_enqueue everyFifty capacity hprefix.of_append

namespace Sample

/-- A trigger for a run. -/
def trigger (runId : String) (priority : ℚ) : TriggerMessage :=
  ⟨"high_cost", runId, "t1", priority, "2026-04-05T10:00:00.000Z"⟩

/-- A trigger, one that is no more urgent, one that is, and one of another run. -/
def triggers : List Op :=
  [.enqueue 0 (trigger "r1" 2), .enqueue 10 (trigger "r1" 2), .enqueue 20 (trigger "r1" 1),
    .dequeue, .enqueue 30 (trigger "r2" 3), .enqueue 60010 (trigger "r1" 1)]

theorem triggerQueue_fifo_triggers :
    dequeued everyFifty 2 triggers ++ (queueAfter everyFifty 2 triggers).queue =
      (accepted everyFifty 2 triggers).map Prod.snd ∧
    (accepted everyFifty 2 triggers).map Prod.fst = [0, 20, 30] :=
  ⟨(triggerQueue_fifo 2 triggers (by unfold ClockMonotone; decide)).1, by decide +kernel⟩

end Sample

end TriggerQueue

end LoopStorm.Backend
