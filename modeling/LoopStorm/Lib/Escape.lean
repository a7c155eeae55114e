import Mathlib

/-!
# Symbols escaped by code words

Texts over any symbols, in which some symbols are written as code words.

* `replaceAll` — every occurrence of one symbol replaced by a text; `encode` —
  several symbols at once, by a table.  `replaceAll_encode`: one replacement
  after others adds a line to the table, where the code words so far are free of
  the symbol.
* `decode` — code words read back from left to right.
* `Faithful` — a table no code word of which begins another, and whose code
  words begin with symbols that are themselves escaped.
* `decode_encode` — **what has been escaped is read back**, by a faithful table.
* `occurrences` — where a text occurs in another; a text that begins with a
  symbol occurs only where the symbol does (`occurrences_two`).
* `append_cons_inj` — a text without a symbol ends where the symbol first stands.
-/

namespace Escape

variable {α : Type*} [DecidableEq α]

/-- Every occurrence of a symbol replaced by a text. -/
def replaceAll (c : α) (text s : List α) : List α := s.flatMap fun a => if a = c then text else [a]

/-- Every symbol of a table replaced by its code word. -/
def encode (table : List (α × List α)) (s : List α) : List α :=
  s.flatMap fun a => (table.lookup a).getD [a]

/-- The line of a table whose code word a text begins with. -/
def wordAt (table : List (α × List α)) (s : List α) : Option (α × List α) :=
  table.find? fun e => decide (e.2 <+: s)

/-- Code words read as their symbols; the first symbols are passed over, as many
as there are left of the code word before them. -/
def decodeFrom (table : List (α × List α)) : Nat → List α → List α
  | _, [] => []
  | n + 1, _ :: s => decodeFrom table n s
  | 0, a :: s =>
    match wordAt table (a :: s) with
    | some e => e.1 :: decodeFrom table (e.2.length - 1) s
    | none => a :: decodeFrom table 0 s

/-- Code words read as their symbols, from left to right. -/
def decode (table : List (α × List α)) (s : List α) : List α := decodeFrom table 0 s

/-! ## Replacements one after the other -/

theorem encode_nil (s : List α) : encode [] s = s := List.flatMap_singleton' s

theorem encode_cons (table : List (α × List α)) (a : α) (s : List α) :
    encode table (a :: s) = (table.lookup a).getD [a] ++ encode table s := List.flatMap_cons

/-- A text without the symbol is left as it is. -/
theorem replaceAll_of_notMem {c : α} {text s : List α} (h : c ∉ s) : replaceAll c text s = s := by
  induction s with
  | nil => rfl
  | cons a s ih =>
    rw [List.mem_cons, not_or] at h
    rw [replaceAll, List.flatMap_cons, if_neg (Ne.symm h.1)]
    exact congrArg (a :: ·) (ih h.2)

/-- A code word stands in the table beside its symbol. -/
theorem mem_of_lookup {table : List (α × List α)} {a : α} {word : List α}
    (h : table.lookup a = some word) : (a, word) ∈ table := by
  obtain ⟨l, r, rfl, -⟩ := List.lookup_eq_some_iff.1 h
  exact List.mem_append_right l List.mem_cons_self

theorem notMem_of_lookup {table : List (α × List α)} {a : α} (h : table.lookup a = none) :
    a ∉ table.map Prod.fst := by
  intro hmem
  obtain ⟨e, he, rfl⟩ := List.mem_map.1 hmem
  exact absurd (List.lookup_eq_none_iff.1 h e he) (by simp)

/-- One replacement after others adds a line to the table. -/
theorem replaceAll_encode {table : List (α × List α)} {c : α} {text : List α}
    (h : ∀ e ∈ table, c ∉ e.2) (s : List α) :
    replaceAll c text (encode table s) = encode (table ++ [(c, text)]) s := by
  rw [encode, replaceAll, List.flatMap_assoc, encode]
  refine List.flatMap_congr fun a _ => ?_
  rw [List.lookup_append]
  cases hword : table.lookup a with
  | some word => exact replaceAll_of_notMem (h _ (mem_of_lookup hword))
  | none =>
    by_cases ha : a = c
    · simp [List.lookup, ha]
    · simp [List.lookup, ha, beq_false_of_ne ha]

/-- A symbol with a code word of its own is gone, unless a code word has it. -/
theorem notMem_encode {table : List (α × List α)} {c : α} (hc : c ∈ table.map Prod.fst)
    (h : ∀ e ∈ table, c ∉ e.2) (s : List α) : c ∉ encode table s := by
  intro hmem
  obtain ⟨a, -, ha⟩ := List.mem_flatMap.1 hmem
  cases hword : table.lookup a with
  | some word =>
    rw [hword] at ha
    exact h _ (mem_of_lookup hword) ha
  | none =>
    rw [hword, Option.getD_none, List.mem_singleton] at ha
    exact notMem_of_lookup hword (ha ▸ hc)

/-! ## Reading back -/

/-- No code word begins another, and each begins with a symbol that is itself
escaped. -/
structure Faithful (table : List (α × List α)) : Prop where
  starts : ∀ e ∈ table, ∃ a rest, e.2 = a :: rest ∧ a ∈ table.map Prod.fst
  prefixFree : ∀ e ∈ table, ∀ f ∈ table, e.2 <+: f.2 → e = f

variable {table : List (α × List α)}

/-- The rest of a code word is passed over. -/
theorem decodeFrom_append (s t : List α) : decodeFrom table s.length (s ++ t) = decode table t := by
  induction s with
  | nil => rfl
  | cons a s ih => exact ih

/-- The code word a text begins with is found. -/
theorem Faithful.wordAt_append (h : Faithful table) {e : α × List α} (he : e ∈ table)
    (t : List α) : wordAt table (e.2 ++ t) = some e := by
  cases hfound : wordAt table (e.2 ++ t) with
  | none =>
    have hnone := List.find?_eq_none.1 hfound e he
    exact absurd (decide_eq_true (List.prefix_append e.2 t)) hnone
  | some f =>
    have hf := List.mem_of_find?_eq_some hfound
    rw [wordAt] at hfound
    have hbegins : f.2 <+: e.2 ++ t := by simpa using List.find?_some hfound
    rcases List.prefix_or_prefix_of_prefix hbegins (List.prefix_append e.2 t) with hle | hle
    · rw [h.prefixFree f hf e he hle]
    · rw [h.prefixFree e he f hf hle]

/-- A code word is read as its symbol. -/
theorem Faithful.decode_word (h : Faithful table) {e : α × List α} (he : e ∈ table)
    (t : List α) : decode table (e.2 ++ t) = e.1 :: decode table t := by
  have hword := h.wordAt_append he t
  obtain ⟨a, rest, heq, -⟩ := h.starts e he
  rw [heq, List.cons_append] at hword ⊢
  rw [decode, decodeFrom, hword]
  dsimp only
  rw [heq, List.length_cons, Nat.add_sub_cancel, decodeFrom_append]

/-- A symbol that is not escaped is read as it stands. -/
theorem Faithful.decode_cons (h : Faithful table) {a : α} (ha : a ∉ table.map Prod.fst)
    (t : List α) : decode table (a :: t) = a :: decode table t := by
  have hnone : wordAt table (a :: t) = none := by
    refine List.find?_eq_none.2 fun e he hbegins => ?_
    obtain ⟨b, rest, heq, hb⟩ := h.starts e he
    rw [heq, decide_eq_true_eq, List.cons_prefix_cons] at hbegins
    rw [hbegins.1] at hb
    exact ha hb
  rw [decode, decodeFrom, hnone]
  rfl

/-- **What has been escaped is read back.** -/
theorem decode_encode (h : Faithful table) (s : List α) : decode table (encode table s) = s := by
  induction s with
  | nil => rfl
  | cons a s ih =>
    rw [encode_cons]
    cases hword : table.lookup a with
    | some word =>
      rw [Option.getD_some, h.decode_word (mem_of_lookup hword), ih]
    | none =>
      rw [Option.getD_none, List.singleton_append, h.decode_cons (notMem_of_lookup hword), ih]

/-! ## Occurrences -/

/-- Where a text occurs in another. -/
def occurrences (pattern : List α) : List α → List Nat
  | [] => if pattern = [] then [0] else []
  | a :: s =>
    if pattern <+: a :: s then 0 :: (occurrences pattern s).map (· + 1)
    else (occurrences pattern s).map (· + 1)

section Occurrences

variable {c : α} {rest : List α}

/-- A text that begins with a symbol does not occur where the symbol does not. -/
theorem occurrences_append_of_notMem {s : List α} (h : c ∉ s) (t : List α) :
    occurrences (c :: rest) (s ++ t) = (occurrences (c :: rest) t).map (· + s.length) := by
  induction s with
  | nil => exact (List.map_id _).symm
  | cons a s ih =>
    rw [List.mem_cons, not_or] at h
    have hnot : ¬ c :: rest <+: a :: (s ++ t) := fun hbegins =>
      h.1 (List.cons_prefix_cons.1 hbegins).1
    rw [List.cons_append, occurrences, if_neg hnot, ih h.2, List.map_map]
    rfl

theorem occurrences_of_notMem {s : List α} (h : c ∉ s) : occurrences (c :: rest) s = [] := by
  have hnil : occurrences (c :: rest) (s ++ []) = [] := occurrences_append_of_notMem h []
  rwa [List.append_nil] at hnil

/-- In a text with the symbol in two places it occurs there at most. -/
theorem occurrences_two {s t : List α} (hs : c ∉ s) (ht : c ∉ t) :
    occurrences (c :: rest) (c :: (s ++ c :: t)) =
      (if rest <+: s ++ c :: t then [0] else []) ++
        if rest <+: t then [s.length + 1] else [] := by
  have hlast : occurrences (c :: rest) (c :: t) = if rest <+: t then [0] else [] := by
    rw [occurrences, occurrences_of_notMem ht]
    simp [List.cons_prefix_cons]
  rw [occurrences, occurrences_append_of_notMem hs, hlast]
  by_cases hfirst : rest <+: s ++ c :: t <;> by_cases hsecond : rest <+: t <;>
    simp [List.cons_prefix_cons, hfirst, hsecond]

omit [DecidableEq α] in
/-- Texts without a symbol end where it first stands. -/
theorem append_cons_inj {s s' t t' : List α} (hs : c ∉ s) (hs' : c ∉ s')
    (h : s ++ c :: t = s' ++ c :: t') : s = s' ∧ t = t' := by
  induction s generalizing s' with
  | nil =>
    cases s' with
    | nil => exact ⟨rfl, (List.cons.inj h).2⟩
    | cons a s' => exact absurd (List.cons.inj h).1 fun ha => hs' (ha ▸ List.mem_cons_self)
  | cons b s ih =>
    cases s' with
    | nil => exact absurd (List.cons.inj h).1.symm fun hb => hs (hb ▸ List.mem_cons_self)
    | cons a s' =>
      obtain ⟨rfl, hrest⟩ := List.cons.inj h
      rw [List.mem_cons, not_or] at hs hs'
      obtain ⟨rfl, rfl⟩ := ih hs.2 hs'.2 hrest
      exact ⟨rfl, rfl⟩

end Occurrences

end Escape
