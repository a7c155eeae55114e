import Mathlib

/-!
# Text: UTF-8 bytes, lines, and removing a first occurrence

The text operations a line-oriented log rests on, over any contents.

* `utf8` / `ofUtf8` — the bytes of a string and the checked way back;
  `ofUtf8_utf8` is the round trip and `utf8_injective` its consequence;
  `newline_notMem_utf8` says that only a newline has a newline byte, and
  `count_utf8` that an ASCII character occurs as often as its byte.
* `ofUtf8Lossy` — the way back that replaces what is not UTF-8.
* `lines` — the lines of a text: cut at every newline, a carriage return right
  before the newline dropped, a final newline optional.  `lines_append` says
  that a newline-terminated line at the front of a text is its first line.
* `isBlank` — a line holding nothing but white space; `ink` — a text without its
  white space, which cutting it into lines that are not blank leaves alone
  (`ink_nonBlank`).
* `IsTerminated` — a text whose last line has its newline: what is put behind it
  starts a line (`lines_append_of_terminated`).
* `removeFirst` — a text with the first occurrence of a pattern taken out;
  `removeFirst_append` and `removeFirst_of_start` say when the first occurrence
  is the one in plain sight.
-/

namespace Text

/-! ## UTF-8 -/

/-- The UTF-8 bytes of a string. -/
def utf8 (s : String) : List UInt8 := s.toByteArray.data.toList

/-- Read bytes as a string; `none` when they are not UTF-8. -/
def ofUtf8 (bs : List UInt8) : Option String := String.fromUTF8? ⟨bs.toArray⟩

/-- Reading back the bytes of a string returns the string. -/
@[simp] theorem ofUtf8_utf8 (s : String) : ofUtf8 (utf8 s) = some s := by
  have hb : (⟨(utf8 s).toArray⟩ : ByteArray) = s.toByteArray := by simp [utf8]
  rw [ofUtf8, hb, String.fromUTF8?, dif_pos s.isValidUTF8]
  rfl

/-- Bytes read as a string are the bytes of it. -/
theorem utf8_of_ofUtf8 {bs : List UInt8} {s : String} (h : ofUtf8 bs = some s) : utf8 s = bs := by
  unfold ofUtf8 String.fromUTF8? at h
  split at h
  case isTrue hvalid =>
    obtain rfl := Option.some.inj h
    show (ByteArray.mk bs.toArray).data.toList = bs
    simp
  case isFalse => cases h

theorem utf8_injective : Function.Injective utf8 := by
  intro s t h
  have hs : ofUtf8 (utf8 s) = ofUtf8 (utf8 t) := congrArg ofUtf8 h
  simpa using hs

@[simp] theorem utf8_append (s t : String) : utf8 (s ++ t) = utf8 s ++ utf8 t := by
  simp [utf8, String.toByteArray_append, ByteArray.data_append]

theorem utf8_ofList (cs : List Char) :
    utf8 (String.ofList cs) = cs.flatMap String.utf8EncodeChar := by
  simp [utf8, List.utf8Encode]

/-- A text has no more characters than bytes. -/
theorem length_le_utf8 (cs : List Char) : cs.length ≤ (utf8 (String.ofList cs)).length := by
  rw [utf8_ofList]
  induction cs with
  | nil => simp
  | cons c cs ih =>
    have hc := List.length_pos_iff.2 (@String.utf8EncodeChar_ne_nil c)
    rw [List.flatMap_cons, List.length_append, List.length_cons]
    omega

/-- An ASCII character has its byte to itself. -/
theorem ascii_notMem_utf8EncodeChar {a c : Char} (ha : a.toNat < 128) (h : c ≠ a) :
    UInt8.ofNat a.toNat ∉ String.utf8EncodeChar c := by
  have hv : c.val.toNat ≠ a.toNat := fun hv => h (Char.toNat_inj.1 hv)
  have hbyte : ∀ n : Nat, n % 256 ≠ a.toNat → UInt8.ofNat a.toNat ≠ UInt8.ofNat n := by
    intro n hn hn'
    have htoNat := congrArg UInt8.toNat hn'
    rw [UInt8.toNat_ofNat', UInt8.toNat_ofNat'] at htoNat
    omega
  unfold String.utf8EncodeChar
  dsimp only
  -- one byte below 128, or two to four from 128 on
  split_ifs <;> simp only [List.mem_cons, List.not_mem_nil, or_false, not_or]
  · exact hbyte _ (by omega)
  · exact ⟨hbyte _ (by omega), hbyte _ (by omega)⟩
  · exact ⟨hbyte _ (by omega), hbyte _ (by omega), hbyte _ (by omega)⟩
  · exact ⟨hbyte _ (by omega), hbyte _ (by omega), hbyte _ (by omega), hbyte _ (by omega)⟩

theorem utf8EncodeChar_of_ascii {a : Char} (ha : a.toNat < 128) :
    String.utf8EncodeChar a = [UInt8.ofNat a.toNat] := by
  have hv : a.val.toNat ≤ 127 := Nat.le_of_lt_succ ha
  unfold String.utf8EncodeChar
  dsimp only
  rw [if_pos hv]
  rfl

theorem newline_notMem_utf8EncodeChar {c : Char} (h : c ≠ '\n') :
    10 ∉ String.utf8EncodeChar c :=
  ascii_notMem_utf8EncodeChar (a := '\n') (by decide) h

/-- An ASCII character occurs in a text as often as its byte in the bytes. -/
theorem count_utf8 {a : Char} (ha : a.toNat < 128) (cs : List Char) :
    (utf8 (String.ofList cs)).count (UInt8.ofNat a.toNat) = cs.count a := by
  rw [utf8_ofList]
  induction cs with
  | nil => rfl
  | cons c cs ih =>
    rw [List.flatMap_cons, List.count_append, ih, List.count_cons]
    by_cases hc : c = a
    · rw [hc, utf8EncodeChar_of_ascii ha, List.count_singleton_self, beq_self_eq_true, if_pos rfl,
        Nat.add_comm]
    · rw [List.count_eq_zero.2 (ascii_notMem_utf8EncodeChar ha hc), Nat.zero_add,
        if_neg (by simpa using hc), Nat.add_zero]

/-- A text without a newline has no newline byte. -/
theorem newline_notMem_utf8 {cs : List Char} (h : '\n' ∉ cs) :
    10 ∉ utf8 (String.ofList cs) := by
  rw [utf8_ofList]
  intro hm
  obtain ⟨c, hc, hm⟩ := List.mem_flatMap.1 hm
  refine newline_notMem_utf8EncodeChar ?_ hm
  rintro rfl
  exact h hc

/-! ## Bytes that need not be UTF-8 -/

/-- A character cut short: the bytes still to come, the bits so far and the
range of the next byte. -/
structure Pending where
  needed : Nat
  bits : Nat
  low : UInt8
  high : UInt8

/-- A byte where a character may start. -/
def startByte (b : UInt8) : List Char × Option Pending :=
  if b < 0x80 then ([Char.ofNat b.toNat], none)
  else if 0xC2 ≤ b ∧ b < 0xE0 then ([], some ⟨1, b.toNat % 32, 0x80, 0xBF⟩)
  else if 0xE0 ≤ b ∧ b < 0xF0 then
    ([], some ⟨2, b.toNat % 16, if b = 0xE0 then 0xA0 else 0x80, if b = 0xED then 0x9F else 0xBF⟩)
  else if 0xF0 ≤ b ∧ b < 0xF5 then
    ([], some ⟨3, b.toNat % 8, if b = 0xF0 then 0x90 else 0x80, if b = 0xF4 then 0x8F else 0xBF⟩)
  else ([Char.ofNat 0xFFFD], none)

/-- A byte inside a character; one out of range ends it and starts the next. -/
def nextByte (p : Pending) (b : UInt8) : List Char × Option Pending :=
  if p.low ≤ b ∧ b ≤ p.high then
    let bits := p.bits * 64 + b.toNat % 64
    if p.needed ≤ 1 then ([Char.ofNat bits], none)
    else ([], some ⟨p.needed - 1, bits, 0x80, 0xBF⟩)
  else
    let (cs, next) := startByte b
    (Char.ofNat 0xFFFD :: cs, next)

/-- The decoder of the Encoding Standard: a replacement character for each
maximal part of a character that is not followed by the rest of it. -/
def decodeLossy (p : Option Pending) : List UInt8 → List Char
  | [] => if p.isSome then [Char.ofNat 0xFFFD] else []
  | b :: bs =>
    let (cs, next) := match p with
      | none => startByte b
      | some p => nextByte p b
    cs ++ decodeLossy next bs

/-- Read bytes as a string, replacing what is not UTF-8. -/
def ofUtf8Lossy (bs : List UInt8) : String :=
  match ofUtf8 bs with
  | some s => s
  | none => String.ofList (decodeLossy none bs)

@[simp] theorem ofUtf8Lossy_utf8 (s : String) : ofUtf8Lossy (utf8 s) = s := by
  simp [ofUtf8Lossy]

example : decodeLossy none [0xE2, 0x82, 0xAC, 0x41, 0xE2, 0x82, 0x41, 0xFF] =
    [Char.ofNat 0x20AC, 'A', Char.ofNat 0xFFFD, 'A', Char.ofNat 0xFFFD] := by
  decide

/-! ## Lines -/

/-- A line with one trailing carriage return dropped. -/
def stripCr (l : List Char) : List Char :=
  if l.getLast? = some '\r' then l.dropLast else l

/-- The lines of a text, `acc` being the reversed start of the current line. -/
def linesFrom (acc : List Char) : List Char → List (List Char)
  | [] => if acc = [] then [] else [acc.reverse]
  | c :: cs =>
    if c = '\n' then stripCr acc.reverse :: linesFrom [] cs else linesFrom (c :: acc) cs

/-- The lines of a text: cut at each newline, the terminator dropped. -/
def lines (cs : List Char) : List (List Char) := linesFrom [] cs

@[simp] theorem lines_nil : lines [] = [] := rfl

theorem linesFrom_append {l : List Char} (hl : '\n' ∉ l) (acc rest : List Char) :
    linesFrom acc (l ++ '\n' :: rest) = stripCr (acc.reverse ++ l) :: lines rest := by
  induction l generalizing acc with
  | nil => simp [linesFrom, lines]
  | cons c cs ih =>
    simp only [List.mem_cons, not_or] at hl
    rw [List.cons_append, linesFrom, if_neg (Ne.symm hl.1), ih hl.2]
    simp

/-- A newline-terminated line at the front of a text is the text's first line. -/
theorem lines_append {l : List Char} (hl : '\n' ∉ l) (hr : l.getLast? ≠ some '\r')
    (rest : List Char) : lines (l ++ '\n' :: rest) = l :: lines rest := by
  rw [lines, linesFrom_append hl, List.reverse_nil, List.nil_append, stripCr, if_neg hr]

/-- A text made of newline-terminated lines has exactly those lines. -/
theorem lines_flatMap {ls : List (List Char)}
    (h : ∀ l ∈ ls, '\n' ∉ l ∧ l.getLast? ≠ some '\r') :
    lines (ls.flatMap (fun l => l ++ ['\n'])) = ls := by
  induction ls with
  | nil => rfl
  | cons l ls ih =>
    obtain ⟨hn, hr⟩ := h l (List.mem_cons_self ..)
    rw [List.flatMap_cons, List.append_assoc, List.singleton_append, lines_append hn hr,
      ih (fun m hm => h m (List.mem_cons_of_mem _ hm))]

theorem linesFrom_append_newline (acc cs ds : List Char) :
    linesFrom acc (cs ++ '\n' :: ds) = linesFrom acc (cs ++ ['\n']) ++ lines ds := by
  induction cs generalizing acc with
  | nil => simp [linesFrom, lines]
  | cons c cs ih =>
    by_cases hc : c = '\n'
    · rw [List.cons_append, linesFrom, if_pos hc, ih, List.cons_append, linesFrom, if_pos hc,
        List.cons_append]
    · rw [List.cons_append, linesFrom, if_neg hc, ih, List.cons_append, linesFrom, if_neg hc]

/-- A text whose last line has its newline, if it has a line. -/
def IsTerminated (bs : List UInt8) : Prop := bs = [] ∨ bs.getLast? = some 10

/-- A terminated text ends in a newline character. -/
theorem eq_append_newline {s : String} (h : (utf8 s).getLast? = some 10) :
    ∃ cs, s.toList = cs ++ ['\n'] := by
  obtain ⟨cs, rfl⟩ : ∃ cs, s = String.ofList cs := ⟨s.toList, String.ofList_toList.symm⟩
  rw [String.toList_ofList]
  rcases List.eq_nil_or_concat cs with rfl | ⟨cs, c, rfl⟩
  · exact absurd h (by decide)
  · refine ⟨cs, ?_⟩
    rw [List.concat_eq_append] at h ⊢
    rw [utf8_ofList, List.flatMap_append, List.flatMap_singleton,
      List.getLast?_append_of_ne_nil _ String.utf8EncodeChar_ne_nil] at h
    by_contra hc
    have hne : c ≠ '\n' := by
      rintro rfl
      exact hc rfl
    exact newline_notMem_utf8EncodeChar hne (List.mem_of_getLast? h)

/-- The lines of a terminated text and a text behind it. -/
theorem lines_append_of_terminated {s : String} (h : IsTerminated (utf8 s)) (ds : List Char) :
    lines (s.toList ++ ds) = lines s.toList ++ lines ds := by
  rcases h with h | h
  · have hs : s = "" := utf8_injective h
    rw [hs]
    rfl
  · obtain ⟨cs, hcs⟩ := eq_append_newline h
    rw [hcs, List.append_assoc]
    exact linesFrom_append_newline [] cs ds

/-- The code points of the Unicode `White_Space` property. -/
def isWhite (c : Char) : Bool :=
  (9 ≤ c.toNat && c.toNat ≤ 13) || c.toNat = 0x20 || c.toNat = 0x85 || c.toNat = 0xA0 ||
    c.toNat = 0x1680 || (0x2000 ≤ c.toNat && c.toNat ≤ 0x200A) || c.toNat = 0x2028 ||
    c.toNat = 0x2029 || c.toNat = 0x202F || c.toNat = 0x205F || c.toNat = 0x3000

/-- A line that is empty once white space is trimmed off. -/
def isBlank (l : List Char) : Bool := l.all isWhite

theorem isBlank_eq_false {l : List Char} {c : Char} (hc : c ∈ l) (hw : isWhite c = false) :
    isBlank l = false := by
  rw [isBlank, List.all_eq_false]
  exact ⟨c, hc, by simp [hw]⟩

/-- The characters of a text that are not white space. -/
def ink (cs : List Char) : List Char := cs.filter (fun c => !isWhite c)

@[simp] theorem ink_append (cs ds : List Char) : ink (cs ++ ds) = ink cs ++ ink ds :=
  List.filter_append ..

theorem ink_stripCr (l : List Char) : ink (stripCr l) = ink l := by
  unfold stripCr
  split
  case isTrue h =>
    obtain ⟨front, rfl⟩ := List.getLast?_eq_some_iff.1 h
    rw [List.dropLast_concat, ink_append]
    exact (List.append_nil _).symm
  case isFalse => rfl

theorem ink_linesFrom (acc cs : List Char) :
    ink (linesFrom acc cs).flatten = ink (acc.reverse ++ cs) := by
  induction cs generalizing acc with
  | nil =>
    rw [linesFrom, List.append_nil]
    split
    case isTrue h => rw [h]; rfl
    case isFalse => rw [List.flatten_singleton]
  | cons c cs ih =>
    by_cases hc : c = '\n'
    · rw [linesFrom, if_pos hc, List.flatten_cons, ink_append, ink_stripCr, ih, hc]
      simp [ink, isWhite]
    · rw [linesFrom, if_neg hc, ih, List.reverse_cons, List.append_assoc, List.singleton_append]

/-- A line that is blank has no ink. -/
theorem ink_of_isBlank {l : List Char} (h : isBlank l = true) : ink l = [] := by
  refine List.filter_eq_nil_iff.2 ?_
  intro c hc
  simp [List.all_eq_true.1 h c hc]

/-- Cutting a text into lines and dropping the blank ones loses no ink. -/
theorem ink_nonBlank (cs : List Char) :
    ink ((lines cs).filter (fun l => !isBlank l)).flatten = ink cs := by
  have hfilter : ∀ ls : List (List Char),
      ink (ls.filter (fun l => !isBlank l)).flatten = ink ls.flatten := by
    intro ls
    induction ls with
    | nil => rfl
    | cons l ls ih =>
      cases hl : isBlank l with
      | true => rw [List.filter_cons_of_neg (by simp [hl]), List.flatten_cons, ink_append,
          ink_of_isBlank hl, List.nil_append, ih]
      | false => rw [List.filter_cons_of_pos (by simp [hl]), List.flatten_cons, ink_append, ih,
          List.flatten_cons, ink_append]
  rw [hfilter]
  exact ink_linesFrom [] cs

/-- A character that is not white space occurs in the lines that are not blank
as often as in the text. -/
theorem count_nonBlank {a : Char} (ha : isWhite a = false) (cs : List Char) :
    ((lines cs).filter (fun l => !isBlank l)).flatten.count a = cs.count a := by
  have hink : ∀ ds : List Char, (ink ds).count a = ds.count a :=
    fun ds => List.count_filter (by simp [ha])
  rw [← hink, ink_nonBlank, hink]

/-! ## Removing the first occurrence of a pattern -/

section RemoveFirst

variable {α : Type*} [DecidableEq α]

/-- A text with the first occurrence of `pat` taken out, unchanged when there
is none. -/
def removeFirst (pat : List α) : List α → List α
  | [] => []
  | c :: cs => if pat <+: c :: cs then (c :: cs).drop pat.length else c :: removeFirst pat cs

/-- **The first occurrence is the visible one** when the pattern starts at no
earlier position. -/
theorem removeFirst_append {pat : List α} (hp : pat ≠ []) {pre post : List α}
    (h : ∀ s, s ≠ [] → s <:+ pre → ¬ pat <+: s ++ (pat ++ post)) :
    removeFirst pat (pre ++ (pat ++ post)) = pre ++ post := by
  induction pre with
  | nil =>
    obtain ⟨a, as, rfl⟩ := List.exists_cons_of_ne_nil hp
    rw [List.nil_append, List.cons_append, removeFirst,
      if_pos (by rw [← List.cons_append]; exact List.prefix_append _ _), ← List.cons_append]
    simp
  | cons c cs ih =>
    have hhere : ¬ pat <+: (c :: cs) ++ (pat ++ post) :=
      h (c :: cs) (List.cons_ne_nil _ _) (List.suffix_refl _)
    rw [List.cons_append] at hhere ⊢
    rw [removeFirst, if_neg hhere, ih, List.cons_append]
    intro s hs hsuf
    exact h s hs (hsuf.trans (List.suffix_cons _ _))

/-- The same when the start of the pattern is nowhere in the text before it, not
even running into the pattern itself. -/
theorem removeFirst_of_start {start rest pre post : List α} (hs : start ≠ [])
    (h : ¬ start <:+: pre ++ start.dropLast) :
    removeFirst (start ++ rest) (pre ++ ((start ++ rest) ++ post)) = pre ++ post := by
  refine removeFirst_append (by simp [hs]) ?_
  intro s hne hsuf hpre
  refine h ?_
  -- a match inside `s` is over before the last character of the pattern's start
  have hlong : start <+: s ++ start ++ (rest ++ post) := by
    refine (List.prefix_append start rest).trans (hpre.trans ?_)
    simp only [List.append_assoc, List.prefix_rfl]
  have hshort : s ++ start.dropLast <+: s ++ start ++ (rest ++ post) :=
    ((List.prefix_append_right_inj s).2 (List.dropLast_prefix start)).trans
      (List.prefix_append _ _)
  have hlen : start.length ≤ (s ++ start.dropLast).length := by
    have h1 := List.length_pos_iff.2 hne
    have h2 := List.length_pos_iff.2 hs
    simp only [List.length_append, List.length_dropLast]
    omega
  have hinfix : start <:+: s ++ start.dropLast :=
    (List.prefix_of_prefix_length_le hlong hshort hlen).isInfix
  obtain ⟨t, rfl⟩ := hsuf
  exact hinfix.trans ⟨t, [], by simp⟩

end RemoveFirst

end Text
