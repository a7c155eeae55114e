import LoopStorm.Lib.Text

/-!
# Lines of a stream that is read piece by piece

A stream cut at every separator, the symbols after the last one being the open
line, and what becomes of lines when bytes are decoded to text.

* `cut` — the closed lines of a stream and the open one.
* `cut_append` — **a piece at a time**: the lines of a longer stream are those
  of the shorter one and those of its open line with the new piece behind it.
* `decodeState`, `decode_append` — a stream may be decoded in two pieces where
  the first does not end inside a character.
* `cut_decode` — **decoding and cutting commute**, whatever the bytes are.
* `decode_utf8` — a text is decoded to itself.
-/

namespace Lines

variable {α : Type*} [DecidableEq α] {sep : α}

/-- Put a symbol in front of the first line. -/
def consLine (a : α) : List (List α) × List α → List (List α) × List α
  | ([], last) => ([], a :: last)
  | (l :: ls, last) => ((a :: l) :: ls, last)

/-- The closed lines of a stream, without their separators, and the open one. -/
def cut (sep : α) : List α → List (List α) × List α
  | [] => ([], [])
  | a :: as => if a = sep then ([] :: (cut sep as).1, (cut sep as).2) else consLine a (cut sep as)

@[simp] theorem cut_nil : cut sep ([] : List α) = ([], []) := rfl

theorem cut_cons_sep (as : List α) :
    cut sep (sep :: as) = ([] :: (cut sep as).1, (cut sep as).2) := if_pos rfl

theorem cut_cons_of_ne {a : α} (h : a ≠ sep) (as : List α) :
    cut sep (a :: as) = consLine a (cut sep as) := if_neg h

/-- A stream without a separator is one open line. -/
theorem cut_open {line : List α} (h : sep ∉ line) : cut sep line = ([], line) := by
  induction line with
  | nil => rfl
  | cons a as ih =>
    rw [List.mem_cons, not_or] at h
    rw [cut_cons_of_ne (Ne.symm h.1), ih h.2]
    rfl

/-- A closed line at the front of a stream is its first. -/
theorem cut_closed {line : List α} (h : sep ∉ line) (rest : List α) :
    cut sep (line ++ sep :: rest) = (line :: (cut sep rest).1, (cut sep rest).2) := by
  induction line with
  | nil => exact cut_cons_sep rest
  | cons a as ih =>
    rw [List.mem_cons, not_or] at h
    rw [List.cons_append, cut_cons_of_ne (Ne.symm h.1), ih h.2]
    rfl

/-- **A piece at a time.** -/
theorem cut_append (as bs : List α) :
    cut sep (as ++ bs) = ((cut sep as).1 ++ (cut sep ((cut sep as).2 ++ bs)).1,
      (cut sep ((cut sep as).2 ++ bs)).2) := by
  induction as with
  | nil => rfl
  | cons a as ih =>
    by_cases ha : a = sep
    · subst ha
      rw [List.cons_append, cut_cons_sep, ih, cut_cons_sep]
      rfl
    · rw [List.cons_append, cut_cons_of_ne ha, ih, cut_cons_of_ne ha]
      cases h : cut sep as with
      | mk ls last =>
        cases ls with
        | nil =>
          show consLine a (cut sep (last ++ bs)) = (cut sep (a :: last ++ bs))
          rw [List.cons_append, cut_cons_of_ne ha]
        | cons l ls => rfl

/-- A stream is one open line, or a closed line and a shorter stream. -/
theorem open_or_closed (as : List α) :
    sep ∉ as ∨ ∃ line rest, as = line ++ sep :: rest ∧ sep ∉ line := by
  by_cases h : sep ∈ as
  · obtain ⟨line, rest, has, hline⟩ := List.eq_append_cons_of_mem h
    exact .inr ⟨line, rest, has, hline⟩
  · exact .inl h

/-- The closed lines of a stream stay when it grows. -/
theorem cut_prefix {as bs : List α} (h : as <+: bs) : (cut sep as).1 <+: (cut sep bs).1 := by
  obtain ⟨more, rfl⟩ := h
  rw [cut_append]
  exact List.prefix_append ..

end Lines

namespace Text

/-! ## Decoding in pieces -/

/-- What a byte makes of a decoder. -/
def decodeByte (p : Option Pending) (b : UInt8) : List Char × Option Pending :=
  match p with
  | none => startByte b
  | some p => nextByte p b

/-- The decoder after some bytes: the character it is inside of. -/
def decodeState (p : Option Pending) : List UInt8 → Option Pending
  | [] => p
  | b :: bs => decodeState (decodeByte p b).2 bs

theorem decodeLossy_cons (p : Option Pending) (b : UInt8) (bs : List UInt8) :
    decodeLossy p (b :: bs) = (decodeByte p b).1 ++ decodeLossy (decodeByte p b).2 bs := by
  cases p <;> rfl

/-- **In two pieces.**  Where the first does not end inside a character. -/
theorem decode_append {p : Option Pending} {as : List UInt8} (h : decodeState p as = none)
    (bs : List UInt8) : decodeLossy p (as ++ bs) = decodeLossy p as ++ decodeLossy none bs := by
  induction as generalizing p with
  | nil =>
    rw [decodeState] at h
    rw [h]
    rfl
  | cons a as ih =>
    rw [List.cons_append, decodeLossy_cons, ih h, decodeLossy_cons, List.append_assoc]

/-! ## Newlines -/

/-- What every character cut short is like: its next byte is not ASCII, and the
bits it has come to exceed those of a newline. -/
structure Pending.Ok (p : Pending) : Prop where
  low : 128 ≤ p.low.toNat
  high : p.high.toNat ≤ 191
  bits : 1 ≤ p.bits ∨ 144 ≤ p.low.toNat

/-- A decoder between two bytes. -/
def DecoderOk (p : Option Pending) : Prop := ∀ q ∈ p, q.Ok

theorem decoderOk_none : DecoderOk none := fun _ h => by cases h

theorem ofNat_ne_newline {n : Nat} (h : n ≠ 10) : Char.ofNat n ≠ '\n' := by
  intro heq
  by_cases hv : n.isValidChar
  · have hn : (Char.ofNat n).toNat = n := by
      rw [Char.toNat_ofNat, if_pos hv]
    rw [heq] at hn
    exact h hn.symm
  · have hzero : (Char.ofNat n).toNat = 0 := by
      rw [Char.toNat_ofNat, if_neg hv]
    rw [heq] at hzero
    exact absurd hzero (by decide)

theorem replacement_ne_newline : '\n' ≠ Char.ofNat 0xFFFD := by decide

/-- What a byte where a character may start leaves behind. -/
theorem startByte_ok (b : UInt8) : DecoderOk (startByte b).2 := by
  unfold startByte
  split
  · exact decoderOk_none
  split
  case isTrue h =>
    intro q hq
    obtain rfl := Option.some.inj hq
    have hlow : 194 ≤ b.toNat := UInt8.le_iff_toNat_le.1 h.1
    have hhigh : b.toNat < 224 := UInt8.lt_iff_toNat_lt.1 h.2
    exact ⟨Nat.le_refl 128, Nat.le_refl 191, .inl (by dsimp only; omega)⟩
  split
  case isTrue h =>
    intro q hq
    obtain rfl := Option.some.inj hq
    have hlow : 224 ≤ b.toNat := UInt8.le_iff_toNat_le.1 h.1
    have hhigh : b.toNat < 240 := UInt8.lt_iff_toNat_lt.1 h.2
    by_cases hfirst : b = 0xE0
    · subst hfirst
      exact ⟨by decide, by decide, .inr (by decide)⟩
    · have hne : b.toNat ≠ 224 := fun heq => hfirst (UInt8.toNat_inj.1 heq)
      refine ⟨?_, ?_, .inl (by dsimp only; omega)⟩
      · simp [hfirst]
      · dsimp only
        split <;> decide
  split
  case isTrue h =>
    intro q hq
    obtain rfl := Option.some.inj hq
    have hlow : 240 ≤ b.toNat := UInt8.le_iff_toNat_le.1 h.1
    have hhigh : b.toNat < 245 := UInt8.lt_iff_toNat_lt.1 h.2
    by_cases hfirst : b = 0xF0
    · subst hfirst
      exact ⟨by decide, by decide, .inr (by decide)⟩
    · have hne : b.toNat ≠ 240 := fun heq => hfirst (UInt8.toNat_inj.1 heq)
      refine ⟨?_, ?_, .inl (by dsimp only; omega)⟩
      · simp [hfirst]
      · dsimp only
        split <;> decide
  · exact decoderOk_none

theorem newline_notMem_startByte {b : UInt8} (h : b ≠ 10) : '\n' ∉ (startByte b).1 := by
  have hb : b.toNat ≠ 10 := fun heq => h (UInt8.toNat_inj.1 heq)
  unfold startByte
  split
  · rw [List.mem_singleton]
    exact (ofNat_ne_newline hb).symm
  split
  · exact List.not_mem_nil
  split
  · exact List.not_mem_nil
  split
  · exact List.not_mem_nil
  · rw [List.mem_singleton]
    exact replacement_ne_newline

/-- The bits of a character with one more byte. -/
theorem Pending.Ok.more {p : Pending} (h : p.Ok) {b : UInt8} (hlow : p.low ≤ b)
    (hhigh : b ≤ p.high) : 16 ≤ p.bits * 64 + b.toNat % 64 := by
  have h1 := h.low
  have h2 := h.high
  have h3 := UInt8.le_iff_toNat_le.1 hlow
  have h4 := UInt8.le_iff_toNat_le.1 hhigh
  rcases h.bits with h5 | h5
  · omega
  · omega

theorem nextByte_ok {p : Pending} (hp : p.Ok) (b : UInt8) : DecoderOk (nextByte p b).2 := by
  unfold nextByte
  split
  case isTrue h =>
    have hmore := hp.more h.1 h.2
    dsimp only
    split
    · exact decoderOk_none
    · intro q hq
      obtain rfl := Option.some.inj hq
      exact ⟨Nat.le_refl 128, Nat.le_refl 191, .inl (by dsimp only; omega)⟩
  · exact startByte_ok b

theorem newline_notMem_nextByte {p : Pending} (hp : p.Ok) {b : UInt8} (hb : b ≠ 10) :
    '\n' ∉ (nextByte p b).1 := by
  unfold nextByte
  split
  case isTrue h =>
    have hmore := hp.more h.1 h.2
    dsimp only
    split
    · rw [List.mem_singleton]
      exact (ofNat_ne_newline (by omega)).symm
    · exact List.not_mem_nil
  · rw [List.mem_cons, not_or]
    exact ⟨replacement_ne_newline, newline_notMem_startByte hb⟩

theorem decodeByte_ok {p : Option Pending} (hp : DecoderOk p) (b : UInt8) :
    DecoderOk (decodeByte p b).2 := by
  cases p with
  | none => exact startByte_ok b
  | some p => exact nextByte_ok (hp p rfl) b

theorem newline_notMem_decodeByte {p : Option Pending} (hp : DecoderOk p) {b : UInt8}
    (hb : b ≠ 10) : '\n' ∉ (decodeByte p b).1 := by
  cases p with
  | none => exact newline_notMem_startByte hb
  | some p => exact newline_notMem_nextByte (hp p rfl) hb

/-- A newline ends whatever is before it. -/
theorem decodeLossy_newline {p : Option Pending} (hp : DecoderOk p) (bs : List UInt8) :
    decodeLossy p (10 :: bs) = decodeLossy p [] ++ '\n' :: decodeLossy none bs := by
  cases p with
  | none => rfl
  | some p =>
    have hlow := (hp p rfl).low
    have hnot : ¬ (p.low ≤ 10 ∧ 10 ≤ p.high) := by
      rintro ⟨hle, -⟩
      have h10 : p.low.toNat ≤ 10 := UInt8.le_iff_toNat_le.1 hle
      omega
    rw [decodeLossy_cons, decodeByte, nextByte, if_neg hnot]
    rfl

/-- A text decoded of bytes without a newline has none. -/
theorem newline_notMem_decodeLossy {p : Option Pending} (hp : DecoderOk p) {bs : List UInt8}
    (h : 10 ∉ bs) : '\n' ∉ decodeLossy p bs := by
  induction bs generalizing p with
  | nil =>
    rw [decodeLossy]
    split
    · rw [List.mem_singleton]
      exact replacement_ne_newline
    · exact List.not_mem_nil
  | cons b bs ih =>
    rw [List.mem_cons, not_or] at h
    rw [decodeLossy_cons, List.mem_append, not_or]
    exact ⟨newline_notMem_decodeByte hp (Ne.symm h.1), ih (decodeByte_ok hp b) h.2⟩

theorem decodeLossy_closed {p : Option Pending} (hp : DecoderOk p) (line rest : List UInt8) :
    decodeLossy p (line ++ 10 :: rest) = decodeLossy p line ++ '\n' :: decodeLossy none rest := by
  induction line generalizing p with
  | nil => exact decodeLossy_newline hp rest
  | cons b bs ih =>
    rw [List.cons_append, decodeLossy_cons, ih (decodeByte_ok hp b), decodeLossy_cons,
      List.append_assoc]

/-- **Decoding and cutting commute.** -/
theorem cut_decode (bs : List UInt8) :
    Lines.cut '\n' (decodeLossy none bs) =
      ((Lines.cut 10 bs).1.map (decodeLossy none), decodeLossy none (Lines.cut 10 bs).2) := by
  induction h : bs.length using Nat.strong_induction_on generalizing bs with
  | _ n ih =>
    have hcases : (10 : UInt8) ∉ bs ∨ ∃ line rest, bs = line ++ 10 :: rest ∧ (10 : UInt8) ∉ line :=
      Lines.open_or_closed bs
    rcases hcases with hopen | ⟨line, rest, rfl, hline⟩
    · rw [Lines.cut_open hopen,
        Lines.cut_open (newline_notMem_decodeLossy decoderOk_none hopen)]
      rfl
    · have hshorter : rest.length < n := by
        rw [← h, List.length_append, List.length_cons]
        omega
      rw [decodeLossy_closed decoderOk_none,
        Lines.cut_closed (newline_notMem_decodeLossy decoderOk_none hline),
        Lines.cut_closed hline, ih rest.length hshorter rest rfl]
      rfl

/-! ## Decoding a text -/

/-- The first byte of a character that takes two. -/
theorem startByte_two {m : Nat} (hlow : 2 ≤ m) (hhigh : m < 32) :
    startByte (UInt8.ofNat (m + 0xC0)) = ([], some ⟨1, m, 0x80, 0xBF⟩) := by
  have hbyte : (UInt8.ofNat (m + 0xC0)).toNat = m + 0xC0 := by
    rw [UInt8.toNat_ofNat']
    omega
  simp only [startByte, UInt8.lt_iff_toNat_lt, UInt8.le_iff_toNat_le, hbyte]
  rw [if_neg (by simp), if_pos (by simp; omega)]
  rw [show (m + 0xC0) % 32 = m from by omega]

/-- The first byte of a character that takes three. -/
theorem startByte_three {m : Nat} (h : m < 16) :
    startByte (UInt8.ofNat (m + 0xE0)) =
      ([], some ⟨2, m, if m = 0 then 0xA0 else 0x80, if m = 13 then 0x9F else 0xBF⟩) := by
  interval_cases m <;> rfl

/-- The first byte of a character that takes four. -/
theorem startByte_four {m : Nat} (h : m < 5) :
    startByte (UInt8.ofNat (m + 0xF0)) =
      ([], some ⟨3, m, if m = 0 then 0x90 else 0x80, if m = 4 then 0x8F else 0xBF⟩) := by
  interval_cases m <;> rfl

/-- A byte in the middle of a character. -/
theorem nextByte_more {n bits k : Nat} {low high : UInt8} (hk : k < 64)
    (hlow : low.toNat ≤ k + 0x80) (hhigh : k + 0x80 ≤ high.toNat) :
    nextByte ⟨n + 2, bits, low, high⟩ (UInt8.ofNat (k + 0x80)) =
      ([], some ⟨n + 1, bits * 64 + k, 0x80, 0xBF⟩) := by
  have hbyte : (UInt8.ofNat (k + 0x80)).toNat = k + 0x80 := by
    rw [UInt8.toNat_ofNat']
    omega
  simp only [nextByte, UInt8.le_iff_toNat_le, hbyte]
  rw [if_pos ⟨hlow, hhigh⟩, if_neg (by omega), show (k + 0x80) % 64 = k from by omega]
  rfl

/-- The last byte of a character. -/
theorem nextByte_last {bits k : Nat} {low high : UInt8} (hk : k < 64)
    (hlow : low.toNat ≤ k + 0x80) (hhigh : k + 0x80 ≤ high.toNat) :
    nextByte ⟨1, bits, low, high⟩ (UInt8.ofNat (k + 0x80)) =
      ([Char.ofNat (bits * 64 + k)], none) := by
  have hbyte : (UInt8.ofNat (k + 0x80)).toNat = k + 0x80 := by
    rw [UInt8.toNat_ofNat']
    omega
  simp only [nextByte, UInt8.le_iff_toNat_le, hbyte]
  rw [if_pos ⟨hlow, hhigh⟩, if_pos (Nat.le_refl 1), show (k + 0x80) % 64 = k from by omega]

/-- The bytes of a character are decoded to it. -/
theorem decode_utf8EncodeChar (c : Char) :
    decodeLossy none (String.utf8EncodeChar c) = [c] ∧
      decodeState none (String.utf8EncodeChar c) = none := by
  have hc : Char.ofNat c.val.toNat = c := Char.ofNat_toNat c
  have hvalid : c.val.toNat < 0xD800 ∨ 0xDFFF < c.val.toNat ∧ c.val.toNat < 0x110000 := c.valid
  unfold String.utf8EncodeChar
  dsimp only
  generalize hv : c.val.toNat = v at hc hvalid
  split_ifs with h1 h2 h3
  · have hbyte : (UInt8.ofNat v).toNat = v := by
      rw [UInt8.toNat_ofNat']
      omega
    have hstart : startByte (UInt8.ofNat v) = ([c], none) := by
      simp only [startByte, UInt8.lt_iff_toNat_lt, hbyte]
      rw [if_pos (by simp; omega), hc]
    simp [decodeState, decodeByte, hstart, decodeLossy]
  · have hsum : v / 64 * 64 + v % 64 = v := by omega
    have hfirst := startByte_two (m := v / 64) (by omega) (by omega)
    have hlast : nextByte ⟨1, v / 64, 0x80, 0xBF⟩ (UInt8.ofNat (v % 64 + 0x80)) = ([c], none) := by
      rw [nextByte_last (by omega) (by simp) (by simp; omega), hsum, hc]
    rw [show v / 64 % 0x20 = v / 64 from by omega]
    simp only [decodeState, decodeByte, decodeLossy, hfirst, hlast]
    exact ⟨rfl, trivial⟩
  · have hsum : (v / 4096 * 64 + v / 64 % 64) * 64 + v % 64 = v := by omega
    have hfirst := startByte_three (m := v / 4096) (by omega)
    have hmore : nextByte ⟨2, v / 4096, if v / 4096 = 0 then 0xA0 else 0x80,
        if v / 4096 = 13 then 0x9F else 0xBF⟩ (UInt8.ofNat (v / 64 % 64 + 0x80)) =
          ([], some ⟨1, v / 4096 * 64 + v / 64 % 64, 0x80, 0xBF⟩) :=
      nextByte_more (by omega) (by split_ifs <;> simp; omega) (by split_ifs <;> simp <;> omega)
    have hlast : nextByte ⟨1, v / 4096 * 64 + v / 64 % 64, 0x80, 0xBF⟩
        (UInt8.ofNat (v % 64 + 0x80)) = ([c], none) := by
      rw [nextByte_last (by omega) (by simp) (by simp; omega), hsum, hc]
    rw [show v / 4096 % 0x10 = v / 4096 from by omega]
    simp only [decodeState, decodeByte, decodeLossy, hfirst, hmore, hlast]
    exact ⟨rfl, trivial⟩
  · have hsum : ((v / 262144 * 64 + v / 4096 % 64) * 64 + v / 64 % 64) * 64 + v % 64 = v := by
      omega
    have hfirst := startByte_four (m := v / 262144) (by omega)
    have hsecond : nextByte ⟨3, v / 262144, if v / 262144 = 0 then 0x90 else 0x80,
        if v / 262144 = 4 then 0x8F else 0xBF⟩ (UInt8.ofNat (v / 4096 % 64 + 0x80)) =
          ([], some ⟨2, v / 262144 * 64 + v / 4096 % 64, 0x80, 0xBF⟩) :=
      nextByte_more (by omega) (by split_ifs <;> simp; omega) (by split_ifs <;> simp <;> omega)
    have hthird : nextByte ⟨2, v / 262144 * 64 + v / 4096 % 64, 0x80, 0xBF⟩
        (UInt8.ofNat (v / 64 % 64 + 0x80)) =
          ([], some ⟨1, (v / 262144 * 64 + v / 4096 % 64) * 64 + v / 64 % 64, 0x80, 0xBF⟩) :=
      nextByte_more (by omega) (by simp) (by simp; omega)
    have hlast : nextByte ⟨1, (v / 262144 * 64 + v / 4096 % 64) * 64 + v / 64 % 64, 0x80, 0xBF⟩
        (UInt8.ofNat (v % 64 + 0x80)) = ([c], none) := by
      rw [nextByte_last (by omega) (by simp) (by simp; omega), hsum, hc]
    rw [show v / 262144 % 0x08 = v / 262144 from by omega]
    simp only [decodeState, decodeByte, decodeLossy, hfirst, hsecond, hthird, hlast]
    exact ⟨rfl, trivial⟩

theorem decodeState_append (p : Option Pending) (as bs : List UInt8) :
    decodeState p (as ++ bs) = decodeState (decodeState p as) bs := by
  induction as generalizing p with
  | nil => rfl
  | cons a as ih => exact ih _

/-- **A text is decoded to itself**, and ends between two characters. -/
theorem decode_utf8 (s : String) :
    decodeLossy none (utf8 s) = s.toList ∧ decodeState none (utf8 s) = none := by
  have hlist : ∀ cs : List Char, decodeLossy none (cs.flatMap String.utf8EncodeChar) = cs ∧
      decodeState none (cs.flatMap String.utf8EncodeChar) = none := by
    intro cs
    induction cs with
    | nil => exact ⟨rfl, rfl⟩
    | cons c cs ih =>
      obtain ⟨hchar, hstate⟩ := decode_utf8EncodeChar c
      rw [List.flatMap_cons, decode_append hstate, decodeState_append, hchar, hstate, ih.1]
      exact ⟨rfl, ih.2⟩
  have hs := hlist s.toList
  rwa [← utf8_ofList, String.ofList_toList] at hs

end Text
