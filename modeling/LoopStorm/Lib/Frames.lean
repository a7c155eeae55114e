import Mathlib

/-!
# Frames: a stream cut after every separator

A stream of symbols read in frames, each of which ends with its separator; the
symbols after the last separator are an open frame.

* `frames` — the frames of a stream, the open one last.
* `frames_append` — behind a whole number of frames a new one starts, so a
  reader may forget what it has read.
* `frames_closed`, `frames_open`, `frames_overrun` — the first frame of what is
  still to be read, when its separator is there, when nothing is behind it, and
  when more may come.
* `exists_whole_append` — what has arrived is a whole number of frames and the
  start of one.
* `upTo` — a list up to its first element of a kind, that one included.
-/

namespace Frames

variable {α : Type*} {sep : α}

/-- A stream of whole frames. -/
def Whole (sep : α) (as : List α) : Prop := as = [] ∨ as.getLast? = some sep

theorem Whole.nil : Whole sep ([] : List α) := .inl rfl

theorem Whole.append_frame (head : List α) (line : List α) :
    Whole sep (head ++ (line ++ [sep])) := by
  refine .inr ?_
  rw [← List.append_assoc, List.getLast?_concat]

variable [DecidableEq α]

/-- The frames of a stream, `acc` being the start of the current one. -/
def framesFrom (sep : α) (acc : List α) : List α → List (List α)
  | [] => if acc = [] then [] else [acc]
  | a :: as =>
    if a = sep then (acc ++ [a]) :: framesFrom sep [] as else framesFrom sep (acc ++ [a]) as

/-- The frames of a stream: cut after each separator. -/
def frames (sep : α) (as : List α) : List (List α) := framesFrom sep [] as

@[simp] theorem frames_nil : frames sep ([] : List α) = [] := rfl

theorem framesFrom_append {line : List α} (h : sep ∉ line) (acc rest : List α) :
    framesFrom sep acc (line ++ sep :: rest) = (acc ++ line ++ [sep]) :: frames sep rest := by
  induction line generalizing acc with
  | nil => rw [List.nil_append, framesFrom, if_pos rfl, List.append_nil]; rfl
  | cons a as ih =>
    rw [List.mem_cons, not_or] at h
    rw [List.cons_append, framesFrom, if_neg (Ne.symm h.1), ih h.2, List.append_assoc acc [a] as]
    rfl

/-- A frame at the front of a stream is its first. -/
theorem frames_closed {line : List α} (h : sep ∉ line) (rest : List α) :
    frames sep (line ++ sep :: rest) = (line ++ [sep]) :: frames sep rest := by
  rw [frames, framesFrom_append h, List.nil_append]

theorem framesFrom_open {line : List α} (h : sep ∉ line) (acc : List α) :
    framesFrom sep acc line = if acc ++ line = [] then [] else [acc ++ line] := by
  induction line generalizing acc with
  | nil => rw [framesFrom, List.append_nil]
  | cons a as ih =>
    rw [List.mem_cons, not_or] at h
    rw [framesFrom, if_neg (Ne.symm h.1), ih h.2, List.append_assoc]
    rfl

/-- A stream without a separator is one open frame. -/
theorem frames_open {line : List α} (h : sep ∉ line) :
    frames sep line = if line = [] then [] else [line] :=
  framesFrom_open h []

theorem framesFrom_concat_sep (acc as bs : List α) :
    framesFrom sep acc (as ++ sep :: bs) = framesFrom sep acc (as ++ [sep]) ++ frames sep bs := by
  induction as generalizing acc with
  | nil => simp [framesFrom, frames]
  | cons a as ih =>
    by_cases ha : a = sep
    · rw [List.cons_append, framesFrom, if_pos ha, ih, List.cons_append, framesFrom, if_pos ha,
        List.cons_append]
    · rw [List.cons_append, framesFrom, if_neg ha, ih, List.cons_append, framesFrom, if_neg ha]

/-- **Whole frames can be forgotten.** -/
theorem frames_append {as : List α} (h : Whole sep as) (bs : List α) :
    frames sep (as ++ bs) = frames sep as ++ frames sep bs := by
  rcases h with rfl | h
  · rfl
  · obtain ⟨front, rfl⟩ := List.getLast?_eq_some_iff.1 h
    rw [List.append_assoc]
    exact framesFrom_concat_sep [] front bs

/-- The first frame of a stream starts with the symbols before its separator,
whether the separator has come or not. -/
theorem frames_overrun {line : List α} (h : sep ∉ line) (hne : line ≠ []) (rest : List α) :
    ∃ more tail, frames sep (line ++ rest) = (line ++ more) :: tail := by
  by_cases hrest : sep ∈ rest
  · obtain ⟨before, after, rfl, hbefore⟩ := List.eq_append_cons_of_mem hrest
    have hline : sep ∉ line ++ before := by
      rw [List.mem_append, not_or]
      exact ⟨h, hbefore⟩
    refine ⟨before ++ [sep], frames sep after, ?_⟩
    rw [← List.append_assoc, frames_closed hline, List.append_assoc]
  · have hline : sep ∉ line ++ rest := by
      rw [List.mem_append, not_or]
      exact ⟨h, hrest⟩
    refine ⟨rest, [], ?_⟩
    rw [frames_open hline, if_neg (by simp [hne])]

/-- A stream is a whole number of frames and an open one. -/
theorem exists_whole_append (sep : α) (as : List α) :
    ∃ head line, Whole sep head ∧ sep ∉ line ∧ as = head ++ line := by
  induction as using List.reverseRecOn with
  | nil => exact ⟨[], [], .nil, List.not_mem_nil, rfl⟩
  | append_singleton as a ih =>
    obtain ⟨head, line, hwhole, hline, rfl⟩ := ih
    by_cases ha : a = sep
    · subst ha
      refine ⟨head ++ line ++ [a], [], .inr List.getLast?_concat, List.not_mem_nil, ?_⟩
      rw [List.append_nil]
    · have hopen : sep ∉ line ++ [a] := by
        rw [List.mem_append, List.mem_singleton, not_or]
        exact ⟨hline, Ne.symm ha⟩
      exact ⟨head, line ++ [a], hwhole, hopen, List.append_assoc ..⟩

section UpTo

variable {β : Type*} (p : β → Bool)

/-- A list up to its first element that satisfies `p`, that one included. -/
def upTo : List β → List β
  | [] => []
  | b :: bs => if p b then [b] else b :: upTo bs

variable {p}

theorem upTo_cons_of_pos {b : β} (h : p b = true) (bs : List β) : upTo p (b :: bs) = [b] :=
  if_pos h

theorem upTo_append {bs : List β} (h : ∀ b ∈ bs, p b = false) (cs : List β) :
    upTo p (bs ++ cs) = bs ++ upTo p cs := by
  induction bs with
  | nil => rfl
  | cons b bs ih =>
    rw [List.cons_append, upTo, if_neg (by simp [h b (List.mem_cons_self ..)]),
      ih (fun c hc => h c (List.mem_cons_of_mem _ hc)), List.cons_append]

theorem upTo_prefix_self (bs : List β) : upTo p bs <+: bs := by
  induction bs with
  | nil => exact List.prefix_rfl
  | cons b bs ih =>
    rw [upTo]
    split
    · exact List.prefix_append [b] bs
    · exact (List.prefix_cons_inj b).2 ih

/-- What comes behind adds at most itself. -/
theorem prefix_upTo_append (bs cs : List β) : upTo p (bs ++ cs) <+: upTo p bs ++ cs := by
  induction bs with
  | nil => exact upTo_prefix_self cs
  | cons b bs ih =>
    rw [List.cons_append, upTo, upTo]
    split
    · exact List.prefix_append [b] cs
    · exact (List.prefix_cons_inj b).2 ih

theorem upTo_prefix_append (bs cs : List β) : upTo p bs <+: upTo p (bs ++ cs) := by
  induction bs with
  | nil => exact List.nil_prefix
  | cons b bs ih =>
    rw [List.cons_append, upTo, upTo]
    split
    · exact List.prefix_rfl
    · exact (List.prefix_cons_inj b).2 ih

end UpTo

end Frames
