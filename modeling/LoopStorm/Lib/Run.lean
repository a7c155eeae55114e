import Mathlib

/-!
# Runs of a state machine

A machine answers each input and moves on; a run is a list of inputs.

* `stateAfter`, `outputs`, `answer` — what a run leaves behind, all it answers,
  and the answer to one more input.
* `AllSteps` — a condition on state and input met at every step of a run, and
  `invariant`, the induction behind every safety statement: an invariant that
  holds at the start and survives each step meeting the condition holds at the
  end.
* `outputs_filter` — **noninterference**: if the inputs outside a class cannot
  be seen through a relation of states, the inputs inside it are answered as if
  they had come alone.
* `outputs_of_simulation` — a machine that runs as the image of another.
* `exec` — the same for a machine that may refuse an event.
* `both` — two such machines side by side.
-/

namespace Run

variable {σ ι ο : Type*}

section Total

variable (step : σ → ι → σ × ο)

/-- The state a list of inputs leads to. -/
def stateAfter (s : σ) : List ι → σ
  | [] => s
  | i :: is => stateAfter (step s i).1 is

/-- The answers to a list of inputs, in order. -/
def outputs (s : σ) : List ι → List ο
  | [] => []
  | i :: is => (step s i).2 :: outputs (step s i).1 is

/-- The answer to `i` after the inputs `is`. -/
def answer (s : σ) (is : List ι) (i : ι) : ο := (step (stateAfter step s is) i).2

@[simp] theorem stateAfter_nil (s : σ) : stateAfter step s [] = s := rfl

theorem stateAfter_append (s : σ) (is js : List ι) :
    stateAfter step s (is ++ js) = stateAfter step (stateAfter step s is) js := by
  induction is generalizing s with
  | nil => rfl
  | cons i is ih => exact ih (step s i).1

theorem stateAfter_concat (s : σ) (is : List ι) (i : ι) :
    stateAfter step s (is ++ [i]) = (step (stateAfter step s is) i).1 := by
  rw [stateAfter_append]
  rfl

theorem outputs_append (s : σ) (is js : List ι) :
    outputs step s (is ++ js) = outputs step s is ++ outputs step (stateAfter step s is) js := by
  induction is generalizing s with
  | nil => rfl
  | cons i is ih => rw [List.cons_append, outputs, ih]; rfl

theorem outputs_concat (s : σ) (is : List ι) (i : ι) :
    outputs step s (is ++ [i]) = outputs step s is ++ [answer step s is i] := by
  rw [outputs_append]
  rfl

@[simp] theorem length_outputs (s : σ) (is : List ι) :
    (outputs step s is).length = is.length := by
  induction is generalizing s with
  | nil => rfl
  | cons i is ih => rw [outputs, List.length_cons, ih, List.length_cons]

/-- A condition on the state before a step and its input, met at every step of
a run. -/
def AllSteps (C : σ → ι → Prop) (s : σ) : List ι → Prop
  | [] => True
  | i :: is => C s i ∧ AllSteps C (step s i).1 is

theorem allSteps_append {C : σ → ι → Prop} {s : σ} {is js : List ι} :
    AllSteps step C s (is ++ js) ↔
      AllSteps step C s is ∧ AllSteps step C (stateAfter step s is) js := by
  induction is generalizing s with
  | nil => simp [AllSteps]
  | cons i is ih => rw [List.cons_append, AllSteps, ih, AllSteps, stateAfter, and_assoc]

/-- A condition met at every step of a run is met at any one of them. -/
theorem AllSteps.at {C : σ → ι → Prop} {s : σ} {is js : List ι} {i : ι}
    (h : AllSteps step C s (is ++ i :: js)) : C (stateAfter step s is) i :=
  ((allSteps_append step).1 h).2.1

theorem AllSteps.of_forall {C : σ → ι → Prop} (h : ∀ s i, C s i) (s : σ) (is : List ι) :
    AllSteps step C s is := by
  induction is generalizing s with
  | nil => trivial
  | cons i is ih => exact ⟨h s i, ih _⟩

/-- Two conditions that agree wherever an invariant holds agree along a run. -/
theorem AllSteps.iff_of_invariant {Inv : σ → Prop} {C D : σ → ι → Prop}
    (hstep : ∀ s i, Inv s → Inv (step s i).1) (h : ∀ s i, Inv s → (C s i ↔ D s i)) {s : σ}
    (hs : Inv s) (is : List ι) : AllSteps step C s is ↔ AllSteps step D s is := by
  induction is generalizing s with
  | nil => exact Iff.rfl
  | cons i is ih => exact and_congr (h s i hs) (ih (hstep s i hs))

/-- **Invariant rule.**  What holds at the start and survives every step that
meets the condition holds at the end of a run all of whose steps meet it. -/
theorem invariant {Inv : σ → Prop} {C : σ → ι → Prop}
    (hstep : ∀ s i, Inv s → C s i → Inv (step s i).1) {s : σ} {is : List ι}
    (hs : Inv s) (hC : AllSteps step C s is) : Inv (stateAfter step s is) := by
  induction is generalizing s with
  | nil => exact hs
  | cons i is ih => exact ih (hstep s i hs hC.1) hC.2

/-- The answers to the inputs of a class, in a run that also has others. -/
def outputsOf (keep : ι → Bool) (s : σ) : List ι → List ο
  | [] => []
  | i :: is =>
    if keep i then (step s i).2 :: outputsOf keep (step s i).1 is
    else outputsOf keep (step s i).1 is

/-- **Noninterference.**  Let `R` be a relation of states that any input
outside the class keeps on the one side alone, and any input inside it keeps on
both sides, with answers that look the same.  Then the inputs of the class look
as if they had come alone, and the end states are related. -/
theorem outputs_filter {ω : Type*} (view : ο → ω) {R : σ → σ → Prop} {keep : ι → Bool}
    {ok : ι → Prop}
    (hin : ∀ s t i, ok i → keep i = true → R s t →
      view (step s i).2 = view (step t i).2 ∧ R (step s i).1 (step t i).1)
    (hout : ∀ s t i, ok i → keep i = false → R s t → R (step s i).1 t)
    {s t : σ} (hR : R s t) {is : List ι} (hok : ∀ i ∈ is, ok i) :
    (outputsOf step keep s is).map view = (outputs step t (is.filter keep)).map view ∧
      R (stateAfter step s is) (stateAfter step t (is.filter keep)) := by
  induction is generalizing s t with
  | nil => exact ⟨rfl, hR⟩
  | cons i is ih =>
    have hrest : ∀ j ∈ is, ok j := fun j hj => hok j (List.mem_cons_of_mem _ hj)
    have hi : ok i := hok i (List.mem_cons_self ..)
    cases hk : keep i with
    | true =>
      obtain ⟨hview, hnext⟩ := hin s t i hi hk hR
      obtain ⟨houts, hend⟩ := ih hnext hrest
      rw [List.filter_cons_of_pos hk, outputsOf, if_pos hk, outputs, List.map_cons, List.map_cons,
        hview, houts]
      exact ⟨rfl, hend⟩
    | false =>
      have hnext := hout s t i hi hk hR
      rw [List.filter_cons_of_neg (by simp [hk]), outputsOf, if_neg (by simp [hk])]
      exact ih hnext hrest

/-- A machine that moves like `step` and answers more. -/
def Refines {ω : Type*} (step' : σ → ι → σ × ω) (f : ω → ο) : Prop :=
  ∀ s i, (step' s i).1 = (step s i).1 ∧ f (step' s i).2 = (step s i).2

theorem Refines.stateAfter {ω : Type*} {step' : σ → ι → σ × ω} {f : ω → ο}
    (h : Refines step step' f) (s : σ) (is : List ι) :
    Run.stateAfter step' s is = Run.stateAfter step s is := by
  induction is generalizing s with
  | nil => rfl
  | cons i is ih => rw [Run.stateAfter, Run.stateAfter, (h s i).1, ih]

theorem Refines.map_outputs {ω : Type*} {step' : σ → ι → σ × ω} {f : ω → ο}
    (h : Refines step step' f) (s : σ) (is : List ι) :
    (Run.outputs step' s is).map f = Run.outputs step s is := by
  induction is generalizing s with
  | nil => rfl
  | cons i is ih => rw [Run.outputs, List.map_cons, Run.outputs, (h s i).1, (h s i).2, ih]

theorem Refines.map_outputsOf {ω : Type*} {step' : σ → ι → σ × ω} {f : ω → ο}
    (h : Refines step step' f) (keep : ι → Bool) (s : σ) (is : List ι) :
    (Run.outputsOf step' keep s is).map f = Run.outputsOf step keep s is := by
  induction is generalizing s with
  | nil => rfl
  | cons i is ih =>
    rw [Run.outputsOf, Run.outputsOf, (h s i).1, ← (h s i).2, ← ih]
    split
    · rfl
    · rfl

/-- **Simulation.**  A machine whose states are the images of another's, and whose
answers are made of the other's, runs as its image. -/
theorem outputs_of_simulation {τ ω : Type*} {step' : τ → ι → τ × ω} {f : τ → σ} {g : ι → ω → ο}
    (h : ∀ t i, step (f t) i = (f (step' t i).1, g i (step' t i).2)) (t : τ) (is : List ι) :
    outputs step (f t) is = List.zipWith g is (outputs step' t is) ∧
      stateAfter step (f t) is = f (stateAfter step' t is) := by
  induction is generalizing t with
  | nil => exact ⟨rfl, rfl⟩
  | cons i is ih =>
    obtain ⟨houts, hstate⟩ := ih (step' t i).1
    rw [outputs, outputs, stateAfter, stateAfter, h t i, List.zipWith_cons_cons]
    exact ⟨congrArg _ houts, hstate⟩

end Total

section Guarded

variable {ε : Type*} (step : σ → ε → Option σ)

/-- The state a list of events leads to; `none` as soon as one is refused. -/
def exec (s : σ) : List ε → Option σ
  | [] => some s
  | e :: es => (step s e).bind (fun t => exec t es)

theorem exec_append (s : σ) (es fs : List ε) :
    exec step s (es ++ fs) = (exec step s es).bind (fun t => exec step t fs) := by
  induction es generalizing s with
  | nil => rfl
  | cons e es ih => simp only [List.cons_append, exec, ih, Option.bind_assoc]

theorem exec_concat (s : σ) (es : List ε) (e : ε) :
    exec step s (es ++ [e]) = (exec step s es).bind (fun t => step t e) := by
  rw [exec_append]
  simp [exec]

/-- A condition on the state before an event, met at every event of a run. -/
def AllEvents (C : σ → ε → Prop) (s : σ) : List ε → Prop
  | [] => True
  | e :: es => C s e ∧ ∀ t, step s e = some t → AllEvents C t es

instance AllEvents.decidable {C : σ → ε → Prop} [∀ s e, Decidable (C s e)] :
    ∀ s es, Decidable (AllEvents step C s es)
  | _, [] => inferInstanceAs (Decidable True)
  | s, e :: es =>
    haveI : ∀ t, Decidable (AllEvents step C t es) := fun t => AllEvents.decidable t es
    inferInstanceAs (Decidable (C s e ∧ ∀ t ∈ step s e, AllEvents step C t es))

/-- One event that meets the condition, and the rest of the run. -/
theorem AllEvents.cons {C : σ → ε → Prop} {s t : σ} {e : ε} {es : List ε} (he : C s e)
    (hstep : step s e = some t) (h : AllEvents step C t es) : AllEvents step C s (e :: es) := by
  refine ⟨he, fun u hu => ?_⟩
  obtain rfl := Option.some.inj (hstep.symm.trans hu)
  exact h

/-- A condition the events meet in every state is met. -/
theorem AllEvents.of_mem {C : σ → ε → Prop} {es : List ε} (h : ∀ e ∈ es, ∀ s, C s e) (s : σ) :
    AllEvents step C s es := by
  induction es generalizing s with
  | nil => trivial
  | cons e es ih =>
    refine ⟨h e (List.mem_cons_self ..) s, fun t _ => ?_⟩
    exact ih (fun d hd => h d (List.mem_cons_of_mem _ hd)) t

theorem AllEvents.and {C D : σ → ε → Prop} {s : σ} {es : List ε} (hC : AllEvents step C s es)
    (hD : AllEvents step D s es) : AllEvents step (fun s e => C s e ∧ D s e) s es := by
  induction es generalizing s with
  | nil => trivial
  | cons e es ih => exact ⟨⟨hC.1, hD.1⟩, fun t ht => ih (hC.2 t ht) (hD.2 t ht)⟩

theorem allEvents_concat {C : σ → ε → Prop} {s : σ} {es : List ε} {e : ε} :
    AllEvents step C s (es ++ [e]) ↔
      AllEvents step C s es ∧ ∀ t, exec step s es = some t → C t e := by
  induction es generalizing s with
  | nil => simp [AllEvents, exec]
  | cons d es ih =>
    simp only [List.cons_append, AllEvents, ih, exec, Option.bind_eq_some_iff]
    constructor
    · rintro ⟨hd, hrest⟩
      refine ⟨⟨hd, fun t ht => (hrest t ht).1⟩, ?_⟩
      rintro t ⟨u, hu, ht⟩
      exact (hrest u hu).2 t ht
    · rintro ⟨⟨hd, hrest⟩, he⟩
      exact ⟨hd, fun t ht => ⟨hrest t ht, fun u hu => he u ⟨t, ht, hu⟩⟩⟩

/-- **Invariant rule** for a machine that may refuse. -/
theorem exec_invariant {Inv : σ → Prop} {C : σ → ε → Prop}
    (hstep : ∀ s e t, Inv s → C s e → step s e = some t → Inv t) {s t : σ} {es : List ε}
    (hs : Inv s) (hC : AllEvents step C s es) (h : exec step s es = some t) : Inv t := by
  induction es generalizing s with
  | nil => cases h; exact hs
  | cons e es ih =>
    rw [exec, Option.bind_eq_some_iff] at h
    obtain ⟨u, hu, hrest⟩ := h
    exact ih (hstep s e u hs hC.1 hu) (hC.2 u hu) hrest

/-- **Noninterference** for a machine that may refuse.  Let `R` be a relation
of states that any event outside the class keeps on the one side alone, and any
event inside it keeps on both sides.  Then the events of the class can happen
alone, and the end states are related. -/
theorem exec_filter {R : σ → σ → Prop} {C : σ → ε → Prop} {keep : ε → Bool}
    (hin : ∀ s t e s', R s t → C s e → keep e = true → step s e = some s' →
      ∃ t', step t e = some t' ∧ R s' t')
    (hout : ∀ s t e s', R s t → C s e → keep e = false → step s e = some s' → R s' t)
    {s t s' : σ} {es : List ε} (hR : R s t) (hC : AllEvents step C s es)
    (h : exec step s es = some s') :
    ∃ t', exec step t (es.filter keep) = some t' ∧ R s' t' := by
  induction es generalizing s t with
  | nil =>
    cases h
    exact ⟨t, rfl, hR⟩
  | cons e es ih =>
    rw [exec, Option.bind_eq_some_iff] at h
    obtain ⟨u, hu, hrest⟩ := h
    cases hk : keep e with
    | true =>
      obtain ⟨v, hv, hnext⟩ := hin s t e u hR hC.1 hk hu
      obtain ⟨t', ht', hend⟩ := ih hnext (hC.2 u hu) hrest
      refine ⟨t', ?_, hend⟩
      rw [List.filter_cons_of_pos hk, exec, hv]
      exact ht'
    | false =>
      have hnext := hout s t e u hR hC.1 hk hu
      rw [List.filter_cons_of_neg (by simp [hk])]
      exact ih hnext (hC.2 u hu) hrest

end Guarded

section Both

variable {τ ε ζ : Type*} (step : σ → ε → Option σ) (step' : τ → ζ → Option τ)

/-- Two machines side by side. -/
def both (s : σ × τ) : ε ⊕ ζ → Option (σ × τ)
  | .inl e => (step s.1 e).map fun t => (t, s.2)
  | .inr e => (step' s.2 e).map fun t => (s.1, t)

/-- A run of two machines side by side is a run of each. -/
theorem exec_both {s t : σ × τ} {es : List (ε ⊕ ζ)} (h : exec (both step step') s es = some t) :
    exec step s.1 (es.filterMap Sum.getLeft?) = some t.1 ∧
      exec step' s.2 (es.filterMap Sum.getRight?) = some t.2 := by
  induction es generalizing s with
  | nil =>
    cases h
    exact ⟨rfl, rfl⟩
  | cons e es ih =>
    rw [exec, Option.bind_eq_some_iff] at h
    obtain ⟨u, hu, hrest⟩ := h
    obtain ⟨hleft, hright⟩ := ih hrest
    cases e with
    | inl e =>
      obtain ⟨v, hv, rfl⟩ := Option.map_eq_some_iff.1 hu
      refine ⟨?_, hright⟩
      show (step s.1 e).bind _ = _
      rw [hv]
      exact hleft
    | inr e =>
      obtain ⟨v, hv, rfl⟩ := Option.map_eq_some_iff.1 hu
      refine ⟨hleft, ?_⟩
      show (step' s.2 e).bind _ = _
      rw [hv]
      exact hright

end Both

end Run
