import LoopStorm.Lib.Run

/-!
# Admission to a limited number of places

A station runs a limited number of jobs at a time and lets a limited number of
others wait.

* `Station`, `step` — a job arrives, or one that runs ends and those that wait
  move up.
* `Orderly` — neither limit is passed, and a job waits only while every place is
  taken.
* `run_spec` — **first come, first served, none lost**: what has started and what
  waits is what was taken in, in order, and what has started has ended or runs.
* `started_of_full`, `started_in_turn` — **no overtaking**: the jobs that wait
  start one for one with the ends, whatever arrives behind them.
-/

namespace Admission

variable {α : Type*}

/-- The jobs that run, and the jobs that wait. -/
structure Station (α : Type*) where
  running : List α
  waiting : List α
  deriving DecidableEq

namespace Station

def empty : Station α := ⟨[], []⟩

end Station

inductive Event (α : Type*) where
  | arrive (job : α)
  /-- The job at a place of the running ones ends. -/
  | finish (place : ℕ)

/-- What an event took in, started and ended. -/
structure Effect (α : Type*) where
  taken : List α
  started : List α
  ended : List α

def Effect.none : Effect α := ⟨[], [], []⟩

/-- Jobs that wait move up while there is a place. -/
def fill (slots : ℕ) (running : List α) : List α → Station α × List α
  | [] => (⟨running, []⟩, [])
  | job :: waiting =>
    if running.length < slots then
      let (s, started) := fill slots (running ++ [job]) waiting
      (s, job :: started)
    else (⟨running, job :: waiting⟩, [])

/-- A job arrives: it is refused when there is neither place nor room. -/
def arrive (slots room : ℕ) (s : Station α) (job : α) : Station α × Effect α :=
  if slots ≤ s.running.length ∧ room ≤ s.waiting.length then (s, .none)
  else if s.running.length < slots then
    (⟨s.running ++ [job], s.waiting⟩, ⟨[job], [job], []⟩)
  else (⟨s.running, s.waiting ++ [job]⟩, ⟨[job], [], []⟩)

def step (slots room : ℕ) (s : Station α) : Event α → Station α × Effect α
  | .arrive job => arrive slots room s job
  | .finish place =>
    match s.running[place]? with
    | none => (s, .none)
    | some job =>
      let (t, started) := fill slots (s.running.eraseIdx place) s.waiting
      (t, ⟨[], started, [job]⟩)

/-- Neither limit is passed, and a job waits only while every place is taken. -/
structure Orderly (slots room : ℕ) (s : Station α) : Prop where
  running_le : s.running.length ≤ slots
  waiting_le : s.waiting.length ≤ room
  full : s.waiting ≠ [] → s.running.length = slots

theorem Orderly.empty (slots room : ℕ) : Orderly slots room (.empty : Station α) where
  running_le := Nat.zero_le _
  waiting_le := Nat.zero_le _
  full h := absurd rfl h

section Step

variable {slots room : ℕ} {s : Station α}

/-- Moving up keeps the order, and stops when the places or the jobs run out. -/
theorem fill_spec {running waiting started : List α} {t : Station α}
    (h : running.length ≤ slots) (hfill : fill slots running waiting = (t, started)) :
    t.running = running ++ started ∧ started ++ t.waiting = waiting ∧
      t.running.length ≤ slots ∧ (t.waiting ≠ [] → t.running.length = slots) := by
  induction waiting generalizing running t started with
  | nil =>
    obtain ⟨rfl, rfl⟩ := Prod.mk.inj hfill
    exact ⟨(List.append_nil _).symm, rfl, h, fun hne => absurd rfl hne⟩
  | cons job waiting ih =>
    rw [fill] at hfill
    by_cases hlt : running.length < slots
    · rw [if_pos hlt] at hfill
      obtain ⟨rfl, rfl⟩ := Prod.mk.inj hfill
      have hnext : (running ++ [job]).length ≤ slots := by
        rw [List.length_append, List.length_singleton]
        omega
      obtain ⟨hrun, hwait, hle, hfull⟩ := ih hnext rfl
      refine ⟨?_, ?_, hle, hfull⟩
      · rw [hrun, List.append_assoc, List.singleton_append]
      · rw [List.cons_append, hwait]
    · rw [if_neg hlt] at hfill
      obtain ⟨rfl, rfl⟩ := Prod.mk.inj hfill
      exact ⟨(List.append_nil _).symm, rfl, h, fun _ => le_antisymm h (Nat.le_of_not_lt hlt)⟩

theorem length_eraseIdx_of_getElem? {running : List α} {place : ℕ} {job : α}
    (h : running[place]? = some job) : (running.eraseIdx place).length + 1 = running.length := by
  obtain ⟨hlt, -⟩ := List.getElem?_eq_some_iff.1 h
  rw [List.length_eraseIdx_of_lt hlt]
  omega

/-- One end, with what moves up. -/
theorem finish_spec (h : Orderly slots room s) {place : ℕ} {job : α} {t : Station α}
    {effect : Effect α} (hjob : s.running[place]? = some job)
    (hstep : step slots room s (.finish place) = (t, effect)) :
    effect.taken = [] ∧ effect.ended = [job] ∧
      t.running = s.running.eraseIdx place ++ effect.started ∧
      effect.started ++ t.waiting = s.waiting ∧ Orderly slots room t ∧
      effect.started = s.waiting.take 1 := by
  have hlen := length_eraseIdx_of_getElem? hjob
  have hle : (s.running.eraseIdx place).length ≤ slots := by
    have := h.running_le
    omega
  rw [step] at hstep
  simp only [hjob] at hstep
  obtain ⟨rfl, rfl⟩ := Prod.mk.inj hstep
  obtain ⟨hrun, hwait, hlimit, hfull⟩ := fill_spec hle (rfl : fill slots _ s.waiting = _)
  have hroom : (fill slots (s.running.eraseIdx place) s.waiting).1.waiting.length ≤ room := by
    have := congrArg List.length hwait
    rw [List.length_append] at this
    have := h.waiting_le
    omega
  refine ⟨rfl, rfl, hrun, hwait, ⟨hlimit, hroom, hfull⟩, ?_⟩
  -- one place is free: the first that waits takes it, and no other
  cases hw : s.waiting with
  | nil => rfl
  | cons first rest =>
    have hslots : s.running.length = slots := h.full (by simp [hw])
    have hlt : (s.running.eraseIdx place).length < slots := by omega
    have hnext : ¬(s.running.eraseIdx place ++ [first]).length < slots := by
      rw [List.length_append, List.length_singleton]
      omega
    rw [fill, if_pos hlt]
    cases rest with
    | nil => rfl
    | cons second rest => rw [fill, if_neg hnext]; rfl

/-- One arrival: refused, at work or at the end of the line. -/
theorem arrive_cases (slots room : ℕ) (s : Station α) (job : α) :
    (slots ≤ s.running.length ∧ room ≤ s.waiting.length ∧
        step slots room s (.arrive job) = (s, .none)) ∨
      (s.running.length < slots ∧
        step slots room s (.arrive job) =
          (⟨s.running ++ [job], s.waiting⟩, ⟨[job], [job], []⟩)) ∨
      (slots ≤ s.running.length ∧ s.waiting.length < room ∧
        step slots room s (.arrive job) =
          (⟨s.running, s.waiting ++ [job]⟩, ⟨[job], [], []⟩)) := by
  rw [step, arrive]
  by_cases hslots : slots ≤ s.running.length
  · by_cases hroom : room ≤ s.waiting.length
    · exact Or.inl ⟨hslots, hroom, if_pos ⟨hslots, hroom⟩⟩
    · refine Or.inr (Or.inr ⟨hslots, Nat.lt_of_not_le hroom, ?_⟩)
      rw [if_neg (fun h => hroom h.2), if_neg (Nat.not_lt.2 hslots)]
  · refine Or.inr (Or.inl ⟨Nat.lt_of_not_le hslots, ?_⟩)
    rw [if_neg (fun h => hslots h.1), if_pos (Nat.lt_of_not_le hslots)]

/-- An end of a job that does not run changes nothing. -/
theorem finish_none {place : ℕ} (h : s.running[place]? = none) :
    step slots room s (.finish place) = (s, .none) := by
  rw [step]
  simp only [h]

/-- The jobs of a station move through it: each event keeps the limits, starts
jobs in order and drops none. -/
theorem step_spec (h : Orderly slots room s) {e : Event α} {t : Station α} {effect : Effect α}
    (hstep : step slots room s e = (t, effect)) :
    Orderly slots room t ∧ effect.started ++ t.waiting = s.waiting ++ effect.taken ∧
      (effect.ended ++ t.running).Perm (s.running ++ effect.started) := by
  cases e with
  | arrive job =>
    rcases arrive_cases slots room s job with
      ⟨-, -, heq⟩ | ⟨hlt, heq⟩ | ⟨hge, hroom, heq⟩
    · obtain ⟨rfl, rfl⟩ := Prod.mk.inj (heq.symm.trans hstep)
      exact ⟨h, (List.append_nil _).symm, by simp [Effect.none]⟩
    · obtain ⟨rfl, rfl⟩ := Prod.mk.inj (heq.symm.trans hstep)
      have hnil : s.waiting = [] := by
        by_contra hne
        exact absurd (h.full hne) (Nat.ne_of_lt hlt)
      refine ⟨⟨?_, h.waiting_le, fun hne => absurd hnil hne⟩, ?_, ?_⟩
      · rw [List.length_append, List.length_singleton]
        omega
      · simp [hnil]
      · exact List.Perm.refl _
    · obtain ⟨rfl, rfl⟩ := Prod.mk.inj (heq.symm.trans hstep)
      refine ⟨⟨h.running_le, ?_, fun _ => le_antisymm h.running_le hge⟩, rfl, ?_⟩
      · rw [List.length_append, List.length_singleton]
        omega
      · simp
  | finish place =>
    cases hjob : s.running[place]? with
    | none =>
      obtain ⟨rfl, rfl⟩ := Prod.mk.inj ((finish_none hjob).symm.trans hstep)
      exact ⟨h, (List.append_nil _).symm, by simp [Effect.none]⟩
    | some job =>
      obtain ⟨htaken, hended, hrun, hwait, hord, -⟩ := finish_spec h hjob hstep
      refine ⟨hord, ?_, ?_⟩
      · rw [htaken, List.append_nil, hwait]
      · rw [hended, hrun, List.singleton_append, ← List.cons_append]
        refine List.Perm.append_right _ ?_
        obtain ⟨hlt, rfl⟩ := List.getElem?_eq_some_iff.1 hjob
        exact List.getElem_cons_eraseIdx_perm hlt

end Step

/-! ## Runs -/

section Runs

variable (slots room : ℕ)

/-- The station after a list of events. -/
def after (s : Station α) (es : List (Event α)) : Station α := Run.stateAfter (step slots room) s es

/-- What a list of events takes in, in order. -/
def taken (s : Station α) (es : List (Event α)) : List α :=
  (Run.outputs (step slots room) s es).flatMap Effect.taken

/-- What a list of events starts, in order. -/
def started (s : Station α) (es : List (Event α)) : List α :=
  (Run.outputs (step slots room) s es).flatMap Effect.started

/-- What a list of events ends, in order. -/
def ended (s : Station α) (es : List (Event α)) : List α :=
  (Run.outputs (step slots room) s es).flatMap Effect.ended

variable {slots room} {s : Station α}

/-- A run is its first event and the rest. -/
theorem runs_cons {e : Event α} {t : Station α} {effect : Effect α}
    (hstep : step slots room s e = (t, effect)) (es : List (Event α)) :
    after slots room s (e :: es) = after slots room t es ∧
      taken slots room s (e :: es) = effect.taken ++ taken slots room t es ∧
      started slots room s (e :: es) = effect.started ++ started slots room t es ∧
      ended slots room s (e :: es) = effect.ended ++ ended slots room t es := by
  refine ⟨?_, ?_, ?_, ?_⟩
  · rw [after, Run.stateAfter, hstep]
    rfl
  · rw [taken, Run.outputs, hstep]
    rfl
  · rw [started, Run.outputs, hstep]
    rfl
  · rw [ended, Run.outputs, hstep]
    rfl

/-- **First come, first served**, and none lost. -/
theorem run_spec (h : Orderly slots room s) (es : List (Event α)) :
    Orderly slots room (after slots room s es) ∧
      started slots room s es ++ (after slots room s es).waiting =
        s.waiting ++ taken slots room s es ∧
      (ended slots room s es ++ (after slots room s es).running).Perm
        (s.running ++ started slots room s es) := by
  induction es generalizing s with
  | nil => exact ⟨h, (List.append_nil _).symm, by simp [started, ended, after, Run.outputs]⟩
  | cons e es ih =>
    cases hstep : step slots room s e with
    | mk t effect =>
      obtain ⟨hord, hwait, hrun⟩ := step_spec h hstep
      obtain ⟨hord', hwait', hrun'⟩ := ih hord
      obtain ⟨hafter, htaken, hstarted, hended⟩ := runs_cons hstep es
      rw [hafter, hstarted, htaken, hended]
      refine ⟨hord', ?_, ?_⟩
      · rw [List.append_assoc, hwait', ← List.append_assoc, hwait, List.append_assoc]
      · rw [List.append_assoc]
        refine (List.Perm.append_left _ hrun').trans ?_
        rw [← List.append_assoc, ← List.append_assoc]
        exact List.Perm.append_right _ hrun

/-- **No overtaking.**  While every place is taken, the jobs that wait start one
for one with the ends, whatever arrives behind them. -/
theorem started_of_full (h : Orderly slots room s) (hfull : s.running.length = slots)
    {es : List (Event α)} (hends : (ended slots room s es).length ≤ s.waiting.length) :
    started slots room s es = s.waiting.take (ended slots room s es).length ∧
      (after slots room s es).running.length = slots := by
  induction es generalizing s with
  | nil => exact ⟨rfl, hfull⟩
  | cons e es ih =>
    cases hstep : step slots room s e with
    | mk t effect =>
      have hord := (step_spec h hstep).1
      obtain ⟨hafter, -, hstarted, hended⟩ := runs_cons hstep es
      rw [hended] at hends
      rw [hafter, hstarted, hended]
      cases e with
      | arrive job =>
        rcases arrive_cases slots room s job with
          ⟨-, -, heq⟩ | ⟨hlt, -⟩ | ⟨-, -, heq⟩
        · obtain ⟨rfl, rfl⟩ := Prod.mk.inj (heq.symm.trans hstep)
          exact ih hord hfull hends
        · exact absurd hfull (Nat.ne_of_lt hlt)
        · obtain ⟨rfl, rfl⟩ := Prod.mk.inj (heq.symm.trans hstep)
          -- the newcomer stands behind those the ends reach
          have hle : (ended slots room ⟨s.running, s.waiting ++ [job]⟩ es).length ≤
              (s.waiting ++ [job]).length :=
            hends.trans (List.length_append ▸ Nat.le_add_right _ _)
          obtain ⟨hstart, hrun⟩ := ih hord hfull hle
          refine ⟨?_, hrun⟩
          rw [List.nil_append, hstart]
          exact List.take_append_of_le_length hends
      | finish place =>
        cases hjob : s.running[place]? with
        | none =>
          obtain ⟨rfl, rfl⟩ := Prod.mk.inj ((finish_none hjob).symm.trans hstep)
          exact ih hord hfull hends
        | some job =>
          obtain ⟨-, hone, hrun, hwait, -, htake⟩ := finish_spec h hjob hstep
          rw [hone] at hends ⊢
          cases hw : s.waiting with
          | nil =>
            rw [hw, List.length_nil, List.length_append] at hends
            simp at hends
          | cons first rest =>
            rw [hw] at hends htake hwait
            rw [htake] at hwait hrun ⊢
            have hrest : t.waiting = rest := by simpa using hwait
            have hlen := length_eraseIdx_of_getElem? hjob
            have hslots : t.running.length = slots := by
              rw [hrun, List.length_append, List.take_succ_cons, List.take_zero,
                List.length_singleton, hlen, hfull]
            have hle : (ended slots room t es).length ≤ t.waiting.length := by
              rw [hrest]
              simp only [List.length_append, List.length_cons, List.length_nil] at hends
              omega
            obtain ⟨hstart, hend⟩ := ih hord hslots hle
            refine ⟨?_, hend⟩
            rw [hstart, hrest, List.length_append, List.length_singleton, Nat.add_comm 1,
              List.take_succ_cons, List.take_succ_cons, List.take_zero, List.singleton_append]

theorem started_append (es fs : List (Event α)) :
    started slots room s (es ++ fs) =
      started slots room s es ++ started slots room (after slots room s es) fs := by
  rw [started, Run.outputs_append, List.flatMap_append]
  rfl

theorem ended_append (es fs : List (Event α)) :
    ended slots room s (es ++ fs) =
      ended slots room s es ++ ended slots room (after slots room s es) fs := by
  rw [ended, Run.outputs_append, List.flatMap_append]
  rfl

/-- An event ends one job at most. -/
theorem length_ended_le (s : Station α) (e : Event α) :
    (step slots room s e).2.ended.length ≤ 1 := by
  cases e with
  | arrive job =>
    rcases arrive_cases slots room s job with
      ⟨-, -, heq⟩ | ⟨-, heq⟩ | ⟨-, -, heq⟩ <;> simp [heq, Effect.none]
  | finish place =>
    rw [step]
    cases s.running[place]? with
    | none => exact Nat.zero_le _
    | some job => exact le_refl _

/-- A run that ends so many jobs has at some time ended just that many. -/
theorem exists_ended {k : ℕ} {es : List (Event α)} (h : k ≤ (ended slots room s es).length) :
    ∃ fs gs, es = fs ++ gs ∧ (ended slots room s fs).length = k := by
  induction es using List.reverseRecOn with
  | nil =>
    refine ⟨[], [], rfl, ?_⟩
    exact (Nat.le_zero.1 h).symm
  | append_singleton es e ih =>
    by_cases hk : k ≤ (ended slots room s es).length
    · obtain ⟨fs, gs, rfl, hfs⟩ := ih hk
      exact ⟨fs, gs ++ [e], List.append_assoc .., hfs⟩
    · refine ⟨es ++ [e], [], (List.append_nil _).symm, ?_⟩
      have hone : (ended slots room (after slots room s es) [e]).length ≤ 1 := by
        simpa [ended, Run.outputs] using length_ended_le (after slots room s es) e
      rw [ended_append, List.length_append] at h ⊢
      omega

/-- **A job starts in its turn**: just when one job more has ended than stood
ahead of it. -/
theorem started_in_turn (h : Orderly slots room s) {ahead behind : List α} {job : α}
    (hwait : s.waiting = ahead ++ job :: behind) (es : List (Event α)) :
    ahead ++ [job] <+: started slots room s es ↔
      ahead.length < (ended slots room s es).length := by
  have hfull : s.running.length = slots := h.full (by simp [hwait])
  have hlen : ahead.length + 1 ≤ s.waiting.length := by
    rw [hwait, List.length_append, List.length_cons]
    omega
  constructor
  · intro hpre
    by_contra hle
    have hend : (ended slots room s es).length ≤ s.waiting.length := by omega
    have hlt := hpre.length_le
    rw [(started_of_full h hfull hend).1, List.length_append, List.length_take,
      List.length_singleton] at hlt
    omega
  · intro hlt
    obtain ⟨fs, gs, rfl, hk⟩ := exists_ended (Nat.succ_le_of_lt hlt)
    have hend : (ended slots room s fs).length ≤ s.waiting.length := by omega
    have htake : s.waiting.take (ahead.length + 1) = ahead ++ [job] := by
      rw [hwait, List.append_cons]
      exact List.take_left' (by simp)
    rw [started_append, (started_of_full h hfull hend).1, hk, Nat.succ_eq_add_one, htake]
    exact List.prefix_append ..

end Runs

end Admission
