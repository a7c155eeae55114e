import LoopStorm.Lib.Decimal
import LoopStorm.Shim.Protocol
import Mathlib.Data.List.DropRight

/-!
# The text of a number in Python

`_jcs_number` and `_es_number_to_string` of `_jcs.py` next to the text that
ECMAScript's `Number::toString` gives a number, both over the shortest digits
that are read back as it.

* `reprText` — `repr` of a float, from its digits.
* `jcsNumber` — the text in Python; `Ts.numberToString` is the text in JavaScript.
* `format_digits` — the two agree on the digits and the exponent, but for a
  number of 21 digits.
* `jcsNumber_eq_iff` — **one text** exactly when the number is no integer below
  `10 ^ 21`, or its shortest digits are all its digits, as they are up to
  `2 ^ 53` (`speltOut_of_lt`).
-/

namespace LoopStorm.Shim

/-! ## JavaScript -/

/-- A sign before a text. -/
def signed (negative : Bool) (text : List Char) : List Char :=
  if negative then '-' :: text else text

namespace Ts

/-- `Number::toString` of the digits of a positive number. -/
def digitsToString (d : Decimal) : List Char :=
  let k : ℤ := d.len
  let n := d.point
  if k ≤ n ∧ n ≤ 21 then d.digits ++ List.replicate (n - k).toNat '0'
  else if 0 < n ∧ n ≤ 21 then d.digits.take n.toNat ++ '.' :: d.digits.drop n.toNat
  else if -6 < n ∧ n ≤ 0 then '0' :: '.' :: (List.replicate (-n).toNat '0' ++ d.digits)
  else
    let mantissa := if k = 1 then d.digits else d.digits.take 1 ++ '.' :: d.digits.drop 1
    mantissa ++ 'e' :: (if n - 1 < 0 then '-' else '+') :: Json.natText (n - 1).natAbs

end Ts

namespace Py

/-- A finite float. -/
structure Double where
  negative : Bool
  magnitude : ℚ
  nonneg : 0 ≤ magnitude
  representable : Decimal.Representable magnitude
  finite : magnitude < 2 ^ 1024

/-- The number a float is; both zeros are zero. -/
def Double.value (x : Double) : ℚ := if x.negative then -x.magnitude else x.magnitude

end Py

/-- `Number::toString` of a double with these digits. -/
def Ts.numberToString (d : Decimal) (x : Py.Double) : List Char :=
  if x.magnitude = 0 then ['0'] else signed x.negative (digitsToString d)

namespace Py

/-! ## The standard library -/

/-- `int` of a float drops what is behind the point. -/
def intOf (q : ℚ) : ℤ := q.num.tdiv q.den

/-- The digits of an exponent, two or more. -/
def exponentText (n : ℕ) : List Char := if n < 10 then '0' :: Json.natText n else Json.natText n

/-- `repr` of a positive float, from its shortest digits: with an exponent when
the point is far away. -/
def reprDigits (d : Decimal) : List Char :=
  let n := d.point
  if -4 < n ∧ n ≤ 16 then
    if n ≤ 0 then '0' :: '.' :: (List.replicate (-n).toNat '0' ++ d.digits)
    else if n < d.len then d.digits.take n.toNat ++ '.' :: d.digits.drop n.toNat
    else d.digits ++ List.replicate (n - d.len).toNat '0' ++ ['.', '0']
  else
    let mantissa := if d.len = 1 then d.digits else d.digits.take 1 ++ '.' :: d.digits.drop 1
    mantissa ++ 'e' :: (if n - 1 < 0 then '-' else '+') :: exponentText (n - 1).natAbs

/-- `repr` of a float that is not zero. -/
def reprText (negative : Bool) (d : Decimal) : List Char := signed negative (reprDigits d)

/-- `int` of some digits. -/
def natOf (cs : List Char) : Option ℕ :=
  if cs ≠ [] ∧ cs.all Char.isDigit then some (Nat.ofDigitChars 10 cs 0) else none

/-- `int` of digits after an optional sign. -/
def intText : List Char → Option ℤ
  | '-' :: cs => (natOf cs).map fun n : ℕ => -(n : ℤ)
  | '+' :: cs => (natOf cs).map Int.ofNat
  | cs => (natOf cs).map Int.ofNat

/-! ## The serializer -/

/-- Parse into mantissa and exponent. -/
def splitExponent (s : List Char) : Option (List Char × ℤ) :=
  if 'e' ∈ s ∨ 'E' ∈ s then do
    let parts := (s.map Char.toLower).splitOn 'e'
    let mantissa ← parts[0]?
    let exp ← parts[1]?.bind intText
    return (mantissa, exp)
  else some (s, 0)

/-- Remove the decimal point and track its position. -/
def splitPoint (mantissa : List Char) (exp : ℤ) : List Char × ℤ :=
  if '.' ∈ mantissa then (mantissa.filter (· ≠ '.'), exp + (mantissa.idxOf '.' - 1))
  else (mantissa, exp + (mantissa.length - 1))

/-- ES Number.toString formatting rules. -/
def format (digits : List Char) (k : ℤ) : List Char :=
  let n : ℤ := digits.length
  if 0 ≤ k ∧ k < n then
    -- decimal point within the digits
    digits.take (k + 1).toNat ++ (if k + 1 < n then '.' :: digits.drop (k + 1).toNat else [])
  else if n ≤ k + 1 ∧ k + 1 < 21 then
    -- integer with trailing zeros
    digits ++ List.replicate (k + 1 - n).toNat '0'
  else if -6 ≤ k ∧ k < 0 then
    -- small number
    '0' :: '.' :: (List.replicate (-k - 1).toNat '0' ++ digits)
  else
    let result := if n = 1 then digits else digits.take 1 ++ '.' :: digits.drop 1
    result ++ (if 0 ≤ k then 'e' :: '+' :: Json.intText k else 'e' :: Json.intText k)

/-- Strip trailing zeros from the digits, but not the last of them all. -/
def stripZeros (digits : List Char) : List Char :=
  let stripped := digits.rdropWhile (· = '0')
  if stripped = [] then ['0'] else stripped

/-- Format a float per ECMAScript's `Number.prototype.toString()`, from its
`repr`. -/
def esNumberToString (s : List Char) : Option (List Char) := do
  let (mantissa, exp) ← splitExponent s
  let negative := mantissa.head? = some '-'
  let (digits, exp) := splitPoint (if negative then mantissa.tail else mantissa) exp
  return signed negative (format (stripZeros digits) exp)

/-- Serialize a float per ECMAScript Number.toString(). -/
def jcsNumber (d : Decimal) (x : Double) : Option (List Char) :=
  if x.value = 0 ∧ x.negative then some ['0']
  else if x.value = intOf x.value ∧ |x.value| < 10 ^ 21 then
    some (Json.intText (intOf x.value))
  else esNumberToString (reprText x.negative d)

/-! ## Reading a `repr` -/

/-- What a mantissa and an exponent are made of. -/
def Plain (c : Char) : Prop := c.isDigit = true ∨ c = '.' ∨ c = '-' ∨ c = '+'

theorem Plain.toLower {c : Char} (h : Plain c) : c.toLower = c := by
  rcases h with hdigit | rfl | rfl | rfl
  · rw [Char.toLower, dif_neg]
    rintro ⟨hA, -⟩
    have hle := (Char.isDigit_iff_toNat.1 hdigit).2
    have hge : 'A'.toNat ≤ c.toNat := UInt32.le_iff_toNat_le.1 hA
    have hlt : '9'.toNat < 'A'.toNat := by decide
    omega
  all_goals decide

theorem Plain.ne_e {c : Char} (h : Plain c) : c ≠ 'e' ∧ c ≠ 'E' := by
  constructor
  · rintro rfl
    revert h
    unfold Plain
    decide
  · rintro rfl
    revert h
    unfold Plain
    decide

theorem map_toLower {cs : List Char} (h : ∀ c ∈ cs, Plain c) : cs.map Char.toLower = cs := by
  rw [List.map_congr_left fun c hc => (h c hc).toLower]
  exact List.map_id _

theorem notMem_e {cs : List Char} (h : ∀ c ∈ cs, Plain c) : 'e' ∉ cs ∧ 'E' ∉ cs :=
  ⟨fun he => (h _ he).ne_e.1 rfl, fun hE => (h _ hE).ne_e.2 rfl⟩

theorem splitExponent_plain {s : List Char} (h : ∀ c ∈ s, Plain c) :
    splitExponent s = some (s, 0) := by
  obtain ⟨he, hE⟩ := notMem_e h
  rw [splitExponent, if_neg (by rintro (h | h) <;> contradiction)]

theorem splitExponent_exp {m t : List Char} (hm : ∀ c ∈ m, Plain c) (ht : ∀ c ∈ t, Plain c) {e : ℤ}
    (he : intText t = some e) : splitExponent (m ++ 'e' :: t) = some (m, e) := by
  have hparts : ((m ++ 'e' :: t).map Char.toLower).splitOn 'e' = [m, t] := by
    rw [List.map_append, List.map_cons, map_toLower hm, map_toLower ht]
    have hlower : 'e'.toLower = 'e' := by decide
    rw [hlower, List.splitOn_append_cons_self_of_not_mem (notMem_e hm).1,
      List.splitOn_eq_singleton (notMem_e ht).1]
  rw [splitExponent, if_pos (Or.inl (List.mem_append_right _ (List.mem_cons_self ..)))]
  dsimp only
  rw [hparts]
  simp [he]

theorem isDigit_exponentText {n : ℕ} : ∀ c ∈ exponentText n, c.isDigit = true := by
  intro c hc
  rw [exponentText] at hc
  split at hc
  · rcases List.mem_cons.1 hc with rfl | hc
    · decide
    · exact Json.isDigit_natText hc
  · exact Json.isDigit_natText hc

theorem natOf_exponentText (n : ℕ) : natOf (exponentText n) = some n := by
  have hne : exponentText n ≠ [] := by
    rw [exponentText]
    split
    · exact List.cons_ne_nil _ _
    · exact Json.natText_ne_nil n
  have hvalue : Nat.ofDigitChars 10 (exponentText n) 0 = n := by
    rw [exponentText]
    split
    · rw [Nat.ofDigitChars_cons]
      exact Nat.ofDigitChars_ten_toDigits
    · exact Nat.ofDigitChars_ten_toDigits
  rw [natOf, if_pos ⟨hne, List.all_eq_true.2 isDigit_exponentText⟩, hvalue]

theorem intText_exponent (e : ℤ) :
    intText ((if e < 0 then '-' else '+') :: exponentText e.natAbs) = some e := by
  split
  · rw [intText, natOf_exponentText, Option.map_some]
    exact congrArg some (by omega)
  · rw [intText, natOf_exponentText, Option.map_some]
    exact congrArg some (by show ((e.natAbs : ℕ) : ℤ) = e; omega)

/-- Digits around a point. -/
theorem splitPoint_point {as bs : List Char} (ha : ∀ c ∈ as, c.isDigit = true)
    (hb : ∀ c ∈ bs, c.isDigit = true) (e : ℤ) :
    splitPoint (as ++ '.' :: bs) e = (as ++ bs, e + (as.length - 1)) := by
  have hne {cs : List Char} (h : ∀ c ∈ cs, c.isDigit = true) : '.' ∉ cs := by
    intro hmem
    have hdot := h _ hmem
    revert hdot
    decide
  have hfilter {cs : List Char} (h : ∀ c ∈ cs, c.isDigit = true) :
      cs.filter (fun c => decide (c ≠ '.')) = cs := by
    rw [List.filter_eq_self]
    intro c hc
    exact decide_eq_true fun heq => hne h (heq ▸ hc)
  rw [splitPoint, if_pos (List.mem_append_right _ (List.mem_cons_self ..)), List.filter_append,
    List.filter_cons_of_neg (by decide), hfilter ha, hfilter hb,
    List.idxOf_append_of_notMem (hne ha), List.idxOf_cons_self, Nat.add_zero]

/-- Digits without a point. -/
theorem splitPoint_digits {as : List Char} (ha : ∀ c ∈ as, c.isDigit = true) (e : ℤ) :
    splitPoint as e = (as, e + (as.length - 1)) := by
  rw [splitPoint, if_neg]
  intro hmem
  have hdot := ha _ hmem
  revert hdot
  decide

theorem stripZeros_append {a : List Char} {c : Char} (hc : c ≠ '0') (j : ℕ) :
    stripZeros (a ++ [c] ++ List.replicate j '0') = a ++ [c] := by
  have hdrop : (a ++ [c] ++ List.replicate j '0').rdropWhile (fun d => decide (d = '0')) =
      a ++ [c] := by
    induction j with
    | zero =>
      rw [List.replicate_zero, List.append_nil,
        List.rdropWhile_concat_neg _ _ _ (by simpa using hc)]
    | succ j ih =>
      rw [List.replicate_succ', ← List.append_assoc, List.rdropWhile_concat_pos _ _ _ (by decide),
        ih]
  rw [stripZeros, hdrop, if_neg (by simp)]

/-! ## One format -/

theorem isDigit_digits {d : Decimal} : ∀ c ∈ d.digits, c.isDigit = true :=
  fun _ hc => Json.isDigit_natText hc

/-- **The formats agree** on the digits and the exponent, unless there is a digit
for each of 21 places in front of the point, or the digits reach further. -/
theorem format_digits {d : Decimal} (h : d.point ≤ 20 ∨ 21 < d.point ∧ d.len < d.point) :
    format d.digits (d.point - 1) = Ts.digitsToString d := by
  have hlen : (d.digits.length : ℤ) = d.len := rfl
  have hpos := d.len_pos
  have hsucc : d.point - 1 + 1 = d.point := by omega
  rw [format, Ts.digitsToString, hlen, hsucc]
  dsimp only
  rcases lt_trichotomy (d.len : ℤ) d.point with hlt | heq | hgt
  · -- all digits are in front of the point
    have hwithin : ¬ (0 ≤ d.point - 1 ∧ d.point - 1 < d.len) := by omega
    by_cases hplaces : d.point ≤ 20
    · have hpad : (d.len : ℤ) ≤ d.point ∧ d.point < 21 := by omega
      have hpad' : (d.len : ℤ) ≤ d.point ∧ d.point ≤ 21 := by omega
      rw [if_neg hwithin, if_pos hpad, if_pos hpad']
    · have hpad : ¬ ((d.len : ℤ) ≤ d.point ∧ d.point < 21) := by omega
      have hsmall : ¬ (-6 ≤ d.point - 1 ∧ d.point - 1 < 0) := by omega
      have hpad' : ¬ ((d.len : ℤ) ≤ d.point ∧ d.point ≤ 21) := by omega
      have hwithin' : ¬ (0 < d.point ∧ d.point ≤ 21) := by omega
      have hsmall' : ¬ (-6 < d.point ∧ d.point ≤ 0) := by omega
      have hexp : 0 ≤ d.point - 1 := by omega
      rw [if_neg hwithin, if_neg hpad, if_neg hsmall, if_neg hpad', if_neg hwithin',
        if_neg hsmall', if_pos hexp, if_neg (not_lt.2 hexp), Json.intText, if_neg (not_lt.2 hexp)]
  · -- the point is behind the last digit
    have hwithin : 0 ≤ d.point - 1 ∧ d.point - 1 < d.len := by omega
    have hpad' : (d.len : ℤ) ≤ d.point ∧ d.point ≤ 21 := by omega
    have hnat : d.point.toNat = d.digits.length := by omega
    rw [if_pos hwithin, if_pos hpad', if_neg (by omega), hnat, List.take_length, heq, sub_self]
    rfl
  · by_cases hfront : 0 < d.point
    · -- the point is among the digits
      have hwithin : 0 ≤ d.point - 1 ∧ d.point - 1 < d.len := by omega
      have hpad' : ¬ ((d.len : ℤ) ≤ d.point ∧ d.point ≤ 21) := by omega
      have hwithin' : 0 < d.point ∧ d.point ≤ 21 := by omega
      rw [if_pos hwithin, if_neg hpad', if_pos hwithin', if_pos hgt]
    · -- the point is before the digits
      have hwithin : ¬ (0 ≤ d.point - 1 ∧ d.point - 1 < d.len) := by omega
      have hpad : ¬ ((d.len : ℤ) ≤ d.point ∧ d.point < 21) := by omega
      have hpad' : ¬ ((d.len : ℤ) ≤ d.point ∧ d.point ≤ 21) := by omega
      have hwithin' : ¬ (0 < d.point ∧ d.point ≤ 21) := by omega
      have hexp : d.point - 1 < 0 := by omega
      rw [if_neg hwithin, if_neg hpad, if_neg hpad', if_neg hwithin']
      by_cases hsmall : -6 < d.point
      · have hzeros : -(d.point - 1) - 1 = -d.point := by omega
        rw [if_pos ⟨by omega, hexp⟩, if_pos ⟨hsmall, by omega⟩, hzeros]
      · have hfar : ¬ (-6 ≤ d.point - 1 ∧ d.point - 1 < 0) := by omega
        have hfar' : ¬ (-6 < d.point ∧ d.point ≤ 0) := by omega
        rw [if_neg hfar, if_neg hfar', if_neg (not_le.2 hexp), if_pos hexp, Json.intText,
          if_pos hexp]

/-- A fraction is formatted from its zeros and digits as they stand. -/
theorem format_fraction {d : Decimal} (hlow : -4 < d.point) (hhigh : d.point ≤ 0) :
    format ('0' :: (List.replicate (-d.point).toNat '0' ++ d.digits)) 0 =
      Ts.digitsToString d := by
  have hpos := d.len_pos
  rw [format, Ts.digitsToString]
  dsimp only
  have hlength : ('0' :: (List.replicate (-d.point).toNat '0' ++ d.digits)).length =
      (-d.point).toNat + d.len + 1 := by
    rw [List.length_cons, List.length_append, List.length_replicate]
    rfl
  have hpad' : ¬ ((d.len : ℤ) ≤ d.point ∧ d.point ≤ 21) := by omega
  have hwithin' : ¬ (0 < d.point ∧ d.point ≤ 21) := by omega
  rw [hlength, if_pos (by omega), if_pos (by omega), if_neg hpad', if_neg hwithin',
    if_pos (by omega)]
  rfl

/-- The last digit of a decimal, when it is not zero. -/
theorem digits_eq_concat {d : Decimal} (h : d.coeff % 10 ≠ 0) :
    ∃ as c, d.digits = as ++ [c] ∧ c ≠ '0' := by
  have hlast : ∀ n < 10, n ≠ 0 → n.digitChar ≠ '0' := by decide
  by_cases hsmall : d.coeff < 10
  · refine ⟨[], d.coeff.digitChar, ?_, hlast _ hsmall (by omega)⟩
    exact Nat.toDigits_of_lt_base hsmall
  · refine ⟨Json.natText (d.coeff / 10), (d.coeff % 10).digitChar, ?_,
      hlast _ (Nat.mod_lt _ (by decide)) h⟩
    exact Nat.toDigits_of_base_le (by decide) (by omega)

theorem stripZeros_digits {d : Decimal} (h : d.coeff % 10 ≠ 0) (j : ℕ) :
    stripZeros (d.digits ++ List.replicate j '0') = d.digits := by
  obtain ⟨as, c, hdigits, hc⟩ := digits_eq_concat h
  rw [hdigits]
  exact stripZeros_append hc j

/-- A text that has the digits of a number and its exponent. -/
structure Spells (d : Decimal) (body : List Char) : Prop where
  /-- It starts with a digit. -/
  head : body.head? ≠ some '-'
  /-- It reads the same with a sign before it. -/
  reads : ∀ negative, ∃ mantissa exp,
    splitExponent (signed negative body) = some (signed negative mantissa, exp) ∧
      mantissa.head? ≠ some '-' ∧
      format (stripZeros (splitPoint mantissa exp).1) (splitPoint mantissa exp).2 =
        Ts.digitsToString d

theorem Plain.signed {cs : List Char} (h : ∀ c ∈ cs, Plain c) (negative : Bool) :
    ∀ c ∈ signed negative cs, Plain c := by
  cases negative with
  | false => exact h
  | true => exact List.forall_mem_cons.2 ⟨Or.inr (Or.inr (Or.inl rfl)), h⟩

theorem head?_ne_dash {cs d : List Char} (h : ∀ c ∈ cs, c.isDigit = true) (hne : cs ≠ []) :
    (cs ++ d).head? ≠ some '-' := by
  cases cs with
  | nil => exact absurd rfl hne
  | cons c cs =>
    rw [List.cons_append, List.head?_cons]
    intro heq
    have hdigit := h c (List.mem_cons_self ..)
    rw [Option.some.inj heq] at hdigit
    revert hdigit
    decide

/-- Digits around a point, and no exponent. -/
theorem spells_point {d : Decimal} {a b : List Char} (ha : ∀ c ∈ a, c.isDigit = true)
    (hb : ∀ c ∈ b, c.isDigit = true) (hne : a ≠ [])
    (h : format (stripZeros (a ++ b)) (a.length - 1) = Ts.digitsToString d) :
    Spells d (a ++ '.' :: b) where
  head := head?_ne_dash ha hne
  reads negative := by
    refine ⟨a ++ '.' :: b, 0, splitExponent_plain (Plain.signed ?_ negative),
      head?_ne_dash ha hne, ?_⟩
    · intro c hc
      rcases List.mem_append.1 hc with hc | hc
      · exact Or.inl (ha c hc)
      · rcases List.mem_cons.1 hc with rfl | hc
        · exact Or.inr (Or.inl rfl)
        · exact Or.inl (hb c hc)
    · rw [splitPoint_point ha hb, zero_add]
      exact h

/-- A mantissa and an exponent. -/
theorem spells_exp {d : Decimal} {mantissa : List Char} {e : ℤ}
    (hm : ∀ c ∈ mantissa, c.isDigit = true ∨ c = '.') (hhead : mantissa.head? ≠ some '-')
    (hne : mantissa ≠ [])
    (h : format (stripZeros (splitPoint mantissa e).1) (splitPoint mantissa e).2 =
      Ts.digitsToString d) :
    Spells d (mantissa ++ 'e' :: (if e < 0 then '-' else '+') :: exponentText e.natAbs) where
  head := by
    cases mantissa with
    | nil => exact absurd rfl hne
    | cons c cs => exact hhead
  reads negative := by
    refine ⟨mantissa, e, ?_, hhead, h⟩
    have hplain : ∀ c ∈ signed negative mantissa, Plain c := by
      refine Plain.signed (fun c hc => ?_) negative
      rcases hm c hc with hdigit | hdot
      · exact Or.inl hdigit
      · exact Or.inr (Or.inl hdot)
    have hexp : ∀ c ∈ (if e < 0 then '-' else '+') :: exponentText e.natAbs, Plain c := by
      intro c hc
      rcases List.mem_cons.1 hc with rfl | hc
      · split
        · exact Or.inr (Or.inr (Or.inl rfl))
        · exact Or.inr (Or.inr (Or.inr rfl))
      · exact Or.inl (isDigit_exponentText c hc)
    have hsigned : signed negative (mantissa ++ 'e' :: (if e < 0 then '-' else '+') ::
        exponentText e.natAbs) =
        signed negative mantissa ++ 'e' :: (if e < 0 then '-' else '+') ::
          exponentText e.natAbs := by
      cases negative <;> rfl
    rw [hsigned]
    exact splitExponent_exp hplain hexp (intText_exponent e)

/-- The text of `repr` has the digits of the number and its exponent. -/
theorem spells_reprDigits {d : Decimal} (hlast : d.coeff % 10 ≠ 0)
    (h : d.point ≤ 20 ∨ 21 < d.point ∧ d.len < d.point) : Spells d (reprDigits d) := by
  have hpos := d.len_pos
  have hzero : ∀ j, ∀ c ∈ List.replicate j '0', c.isDigit = true := by
    intro j c hc
    rw [(List.mem_replicate.1 hc).2]
    decide
  have hdigit : ∀ c ∈ d.digits, c.isDigit = true := isDigit_digits
  have hstripped : stripZeros d.digits = d.digits := by
    have hself := stripZeros_digits hlast 0
    rwa [List.replicate_zero, List.append_nil] at hself
  have hformat := format_digits h
  rw [reprDigits]
  dsimp only
  by_cases hfixed : -4 < d.point ∧ d.point ≤ 16
  · rw [if_pos hfixed]
    by_cases hfraction : d.point ≤ 0
    · rw [if_pos hfraction]
      have hstrip : stripZeros ('0' :: (List.replicate (-d.point).toNat '0' ++ d.digits)) =
          '0' :: (List.replicate (-d.point).toNat '0' ++ d.digits) := by
        obtain ⟨as, c, hdigits, hc⟩ := digits_eq_concat hlast
        rw [hdigits]
        have happend := stripZeros_append (a := '0' :: (List.replicate (-d.point).toNat '0' ++ as))
          hc 0
        rwa [List.replicate_zero, List.append_nil, List.cons_append, List.append_assoc] at happend
      refine spells_point (a := ['0']) (b := List.replicate (-d.point).toNat '0' ++ d.digits)
        (hzero 1) (fun c hc => ?_) (List.cons_ne_nil _ _) ?_
      · rcases List.mem_append.1 hc with hc | hc
        · exact hzero _ c hc
        · exact hdigit c hc
      · rw [List.singleton_append, hstrip]
        exact format_fraction hfixed.1 hfraction
    · rw [if_neg hfraction]
      by_cases hamong : d.point < d.len
      · rw [if_pos hamong]
        have hlength : (d.digits.take d.point.toNat).length = d.point.toNat :=
          List.length_take_of_le (by show d.point.toNat ≤ d.len; omega)
        have hcast : (d.point.toNat : ℤ) = d.point := by omega
        refine spells_point (fun c hc => hdigit c (List.mem_of_mem_take hc))
          (fun c hc => hdigit c (List.mem_of_mem_drop hc)) ?_ ?_
        · refine List.ne_nil_of_length_pos ?_
          omega
        · rw [List.take_append_drop, hlength, hcast, hstripped, hformat]
      · rw [if_neg hamong]
        have hlength : (d.digits ++ List.replicate (d.point - d.len).toNat '0').length =
            d.point.toNat := by
          rw [List.length_append, List.length_replicate]
          show d.len + _ = _
          omega
        have hcast : (d.point.toNat : ℤ) = d.point := by omega
        have happend : d.digits ++ List.replicate (d.point - d.len).toNat '0' ++ ['0'] =
            d.digits ++ List.replicate ((d.point - d.len).toNat + 1) '0' := by
          rw [List.replicate_succ', List.append_assoc]
        refine spells_point (a := d.digits ++ List.replicate (d.point - d.len).toNat '0')
          (b := ['0']) (fun c hc => ?_) (hzero 1) ?_ ?_
        · rcases List.mem_append.1 hc with hc | hc
          · exact hdigit c hc
          · exact hzero _ c hc
        · refine List.ne_nil_of_length_pos ?_
          omega
        · rw [happend, stripZeros_digits hlast, hlength, hcast, hformat]
  · rw [if_neg hfixed]
    by_cases hone : d.len = 1
    · rw [if_pos hone]
      refine spells_exp (fun c hc => Or.inl (hdigit c hc)) ?_ (Json.natText_ne_nil _) ?_
      · have hhead := head?_ne_dash (d := []) hdigit (Json.natText_ne_nil _)
        rwa [List.append_nil] at hhead
      · rw [splitPoint_digits hdigit, hstripped]
        have hexp : d.point - 1 + ((d.digits.length : ℤ) - 1) = d.point - 1 := by
          have hlength : d.digits.length = 1 := hone
          rw [hlength]
          omega
        rw [hexp, hformat]
    · rw [if_neg hone]
      have hlength : (d.digits.take 1).length = 1 := List.length_take_of_le d.len_pos
      have htake : ∀ c ∈ d.digits.take 1, c.isDigit = true :=
        fun c hc => hdigit c (List.mem_of_mem_take hc)
      have hdrop : ∀ c ∈ d.digits.drop 1, c.isDigit = true :=
        fun c hc => hdigit c (List.mem_of_mem_drop hc)
      have hne : d.digits.take 1 ≠ [] := List.ne_nil_of_length_pos (by omega)
      refine spells_exp (fun c hc => ?_) (head?_ne_dash htake hne) (by simp) ?_
      · rcases List.mem_append.1 hc with hc | hc
        · exact Or.inl (htake c hc)
        · rcases List.mem_cons.1 hc with rfl | hc
          · exact Or.inr rfl
          · exact Or.inl (hdrop c hc)
      · rw [splitPoint_point htake hdrop, List.take_append_drop, hlength, hstripped]
        have hexp : d.point - 1 + (((1 : ℕ) : ℤ) - 1) = d.point - 1 := by omega
        rw [hexp, hformat]

theorem esNumberToString_of_spells {d : Decimal} {body : List Char} (h : Spells d body)
    (negative : Bool) :
    esNumberToString (signed negative body) = some (signed negative (Ts.digitsToString d)) := by
  obtain ⟨mantissa, exp, hsplit, hhead, hformat⟩ := h.reads negative
  rw [esNumberToString, hsplit]
  cases negative with
  | true => simp [signed, hformat]
  | false => simp [signed, hhead, hformat]

/-! ## One text -/

/-- Its shortest digits are all its digits, if it is an integer below
`10 ^ 21`. -/
def Double.SpeltOut (x : Double) (d : Decimal) : Prop :=
  x.magnitude ≠ 0 → x.magnitude.den = 1 → x.magnitude < 10 ^ 21 → d.value = x.magnitude

theorem intOf_intCast (n : ℤ) : intOf n = n := by
  rw [intOf, Rat.num_intCast, Rat.den_intCast, Nat.cast_one, Int.tdiv_one]

theorem eq_intOf_iff {q : ℚ} : q = intOf q ↔ q.den = 1 := by
  constructor
  · intro h
    rw [h, Rat.den_intCast]
  · intro h
    rw [intOf, h, Nat.cast_one, Int.tdiv_one, Rat.coe_int_num_of_den_eq_one h]

theorem den_value (x : Double) : x.value.den = x.magnitude.den := by
  rw [Double.value]
  split
  · exact Rat.neg_den _
  · rfl

theorem abs_value (x : Double) : |x.value| = x.magnitude := by
  rw [Double.value]
  split
  · rw [abs_neg, abs_of_nonneg x.nonneg]
  · rw [abs_of_nonneg x.nonneg]

theorem exists_natCast {q : ℚ} (hq : 0 ≤ q) (hden : q.den = 1) : ∃ n : ℕ, q = n := by
  refine ⟨q.num.toNat, ?_⟩
  have hcast : ((q.num.toNat : ℤ) : ℚ) = q.num := by
    rw [Int.toNat_of_nonneg (Rat.num_nonneg.2 hq)]
  rw [← Int.cast_natCast, hcast, Rat.coe_int_num_of_den_eq_one hden]

theorem natText_mul_pow {m : ℕ} (hm : 0 < m) (j : ℕ) :
    Json.natText (m * 10 ^ j) = Json.natText m ++ List.replicate j '0' := by
  induction j with
  | zero => rw [pow_zero, mul_one, List.replicate_zero, List.append_nil]
  | succ j ih =>
    have hpos : 0 < m * 10 ^ j := Nat.mul_pos hm (Nat.pow_pos (by decide))
    have hmod : m * 10 ^ j * 10 % 10 = 0 := Nat.mul_mod_left ..
    have hdiv : m * 10 ^ j * 10 / 10 = m * 10 ^ j := Nat.mul_div_cancel _ (by decide)
    rw [pow_succ, ← mul_assoc, Json.natText, Nat.toDigits_of_base_le (by decide) (by omega), hmod,
      hdiv, List.replicate_succ', ← List.append_assoc, ← ih]
    rfl

/-- A text with a point or an exponent is not that of an integer. -/
theorem ne_natText_of_mem {cs : List Char} {c : Char} (hc : c ∈ cs) (hdigit : c.isDigit = false)
    (n : ℕ) : cs ≠ Json.natText n := by
  rintro rfl
  rw [Json.isDigit_natText hc] at hdigit
  cases hdigit

/-- The shortest digits make the text of an integer when they are all its
digits. -/
theorem digitsToString_eq_natText {d : Decimal} {n : ℕ} (hpos : 0 < d.coeff)
    (hlast : d.coeff % 10 ≠ 0) (hn : n < 10 ^ 21) :
    Ts.digitsToString d = Json.natText n ↔ d.value = n := by
  by_cases hpad : (d.len : ℤ) ≤ d.point ∧ d.point ≤ 21
  · rw [Ts.digitsToString]
    dsimp only
    rw [if_pos hpad, Decimal.Shortest.value_eq_natCast hpad.1, Decimal.digits, ← natText_mul_pow hpos,
      Json.natText_injective.eq_iff, Nat.cast_inj]
  · refine iff_of_false ?_ ?_
    · rw [Ts.digitsToString]
      dsimp only
      rw [if_neg hpad]
      split
      · exact ne_natText_of_mem (List.mem_append_right _ (List.mem_cons_self ..)) rfl n
      · split
        · exact ne_natText_of_mem (List.mem_cons_of_mem _ (List.mem_cons_self ..)) rfl n
        · exact ne_natText_of_mem (List.mem_append_right _ (List.mem_cons_self ..)) rfl n
    · intro hvalue
      apply hpad
      constructor
      · -- a last digit behind the point would be a zero
        by_contra hlt
        obtain ⟨j, hj⟩ : ∃ j : ℕ, (d.len : ℤ) - d.point = j + 1 :=
          ⟨((d.len : ℤ) - d.point - 1).toNat, by omega⟩
        have hexp : d.point - d.len = -((j + 1 : ℕ) : ℤ) := by
          push_cast
          omega
        rw [Decimal.value, hexp, zpow_neg, zpow_natCast, ← div_eq_mul_inv,
          div_eq_iff (by positivity)] at hvalue
        have hnat : d.coeff = n * 10 ^ (j + 1) := by exact_mod_cast hvalue
        rw [hnat, pow_succ, ← mul_assoc, Nat.mul_mod_left] at hlast
        exact hlast rfl
      · apply Decimal.point_le_of_value_lt hpos
        rw [hvalue, zpow_ofNat]
        exact_mod_cast hn

theorem signed_inj {negative : Bool} {as bs : List Char} :
    signed negative as = signed negative bs ↔ as = bs := by
  cases negative with
  | false => exact Iff.rfl
  | true => exact List.cons_inj_right _

/-- **One text**, exactly when the number is no integer below `10 ^ 21`, or its
shortest digits are all its digits. -/
theorem jcsNumber_eq_iff (x : Double) (d : Decimal)
    (h : x.magnitude ≠ 0 → Decimal.Shortest x.magnitude d) :
    jcsNumber d x = some (Ts.numberToString d x) ↔ x.SpeltOut d := by
  rw [jcsNumber, Ts.numberToString]
  simp only [eq_intOf_iff, den_value, abs_value]
  by_cases hzero : x.magnitude = 0
  · have hvalue : x.value = 0 := abs_eq_zero.1 ((abs_value x).trans hzero)
    have hint : Json.intText (intOf x.value) = ['0'] := by
      rw [hvalue]
      rfl
    refine iff_of_true ?_ fun hne => absurd hzero hne
    rw [if_pos hzero, hint]
    split_ifs with hneg hsmall
    · rfl
    · rfl
    · exact absurd ⟨by rw [hzero]; rfl, by rw [hzero]; norm_num⟩ hsmall
  · have hshort := h hzero
    have hvalue : x.value ≠ 0 := fun heq => hzero (by rw [← abs_value, heq, abs_zero])
    rw [if_neg hzero, if_neg fun hneg => hvalue hneg.1]
    by_cases hsmall : x.magnitude.den = 1 ∧ x.magnitude < 10 ^ 21
    · rw [if_pos hsmall]
      -- an integer: all its digits against the shortest ones
      obtain ⟨n, hn⟩ := exists_natCast x.nonneg hsmall.1
      have htext : Json.intText (intOf x.value) = signed x.negative (Json.natText n) := by
        have hpos : 0 < n := by
          rcases Nat.eq_zero_or_pos n with rfl | hpos
          · exact absurd hn hzero
          · exact hpos
        cases hneg : x.negative with
        | true =>
          have hint : x.value = ((-n : ℤ) : ℚ) := by
            rw [Double.value, hneg, if_pos rfl, hn]
            push_cast
            rfl
          rw [hint, intOf_intCast, Json.intText, if_pos (by omega), Int.natAbs_neg,
            Int.natAbs_natCast]
          rfl
        | false =>
          have hint : x.value = ((n : ℤ) : ℚ) := by
            rw [Double.value, hneg, if_neg Bool.false_ne_true, hn]
            push_cast
            rfl
          rw [hint, intOf_intCast, Json.intText, if_neg (by omega), Int.natAbs_natCast]
          rfl
      have hlt : n < 10 ^ 21 := by
        have hmag := hsmall.2
        rw [hn] at hmag
        exact_mod_cast hmag
      rw [htext, Option.some.injEq, signed_inj, eq_comm,
        digitsToString_eq_natText hshort.pos hshort.last hlt, ← hn]
      exact ⟨fun heq _ _ _ => heq, fun hspelt => hspelt hzero hsmall.1 hsmall.2⟩
    · rw [if_neg hsmall]
      refine iff_of_true ?_ fun _ hden hlt => absurd ⟨hden, hlt⟩ hsmall
      refine esNumberToString_of_spells (spells_reprDigits hshort.last ?_) x.negative
      by_cases hden : x.magnitude.den = 1
      · have hlarge : 10 ^ 21 ≤ x.magnitude := not_lt.1 fun hlt => hsmall ⟨hden, hlt⟩
        have hpoint := hshort.lt_point hlarge
        have hlen := hshort.len_le x.representable hlarge
        exact Or.inr ⟨hpoint, by omega⟩
      · exact Or.inl ((hshort.point_le x.representable hden).trans (by norm_num))

/-- Within the safe range an integer has all its digits among the shortest. -/
theorem speltOut_of_lt {x : Double} {d : Decimal}
    (h : x.magnitude ≠ 0 → Decimal.Shortest x.magnitude d) (hlt : x.magnitude < 2 ^ 53) :
    x.SpeltOut d := by
  intro hzero hden _
  obtain ⟨n, hn⟩ := exists_natCast x.nonneg hden
  have hshort := h hzero
  rw [hn] at hshort hlt hzero ⊢
  exact hshort.value_eq_of_lt (by exact_mod_cast hzero) (by exact_mod_cast hlt)

namespace Sample

/-- Minus one half. -/
def minusHalf : Double where
  negative := true
  magnitude := 1 / 2
  nonneg := by norm_num
  representable := ⟨1, -1, by norm_num, by norm_num, by norm_num⟩
  finite := lt_of_lt_of_le (show (1 / 2 : ℚ) < 1 by norm_num) (one_le_pow₀ (by norm_num))

theorem shortest_half : Decimal.Shortest (1 / 2) ⟨5, 0⟩ where
  pos := by decide
  rounds := by
    have hvalue : (⟨5, 0⟩ : Decimal).value = 1 / 2 := by
      have hlen : (⟨5, 0⟩ : Decimal).len = 1 := by decide
      rw [Decimal.value, hlen]
      norm_num
    rw [hvalue]
    exact Decimal.RoundsTo.self _
  least d' _ _ := d'.len_pos

theorem jcsNumber_minusHalf :
    jcsNumber ⟨5, 0⟩ minusHalf = some (Ts.numberToString ⟨5, 0⟩ minusHalf) :=
  (jcsNumber_eq_iff minusHalf ⟨5, 0⟩ fun _ => shortest_half).2
    fun _ hden => absurd hden (by decide +kernel)

/-- The float `2.0 ** 69`. -/
def pow69 : Double where
  negative := false
  magnitude := 2 ^ 69
  nonneg := by norm_num
  representable := by
    have h := Decimal.representable_of_int (m := 1) (by norm_num) 69
    norm_num at h ⊢
    exact h
  finite := pow_lt_pow_right₀ (by norm_num) (by norm_num)

/-- Its shortest digits, `5.902958103587057e+20`. -/
def digits69 : Decimal := ⟨5902958103587057, 21⟩

theorem value_digits69 : digits69.value = 590295810358705700000 := by
  have hlen : digits69.len = 16 := by decide +kernel
  rw [Decimal.value, hlen, digits69]
  norm_num

/-- The next double is `2 ^ 17` away. -/
theorem next_pow69 {y : ℚ} (hy : Decimal.Representable y) (h : 2 ^ 69 < y) :
    2 ^ 69 + 2 ^ 17 ≤ y := by
  obtain ⟨m, e, hm, -, rfl⟩ := hy
  have he : 17 ≤ e := by
    by_contra hlt
    have hsize := (le_abs_self _).trans_lt (Decimal.abs_lt_of_bits (e := e) hm)
    have hpow : (2 : ℚ) ^ e ≤ 2 ^ (16 : ℤ) := zpow_le_zpow_right₀ (by norm_num) (by omega)
    norm_num at hsize hpow h
    linarith
  have hself : ((2 ^ 52 : ℤ) : ℚ) * 2 ^ (17 : ℤ) = 2 ^ 69 := by norm_num
  have hgap := Decimal.le_abs_sub (m := 2 ^ 52) (k := m) he (by rw [hself]; exact h.ne)
  rw [hself, abs_of_pos (by linarith)] at hgap
  norm_num at hgap h ⊢
  linarith

theorem shortest_pow69 : Decimal.Shortest (2 ^ 69) digits69 where
  pos := by decide
  rounds := by
    rw [value_digits69]
    refine Decimal.RoundsTo.of_closer fun y hy hne => ?_
    rcases lt_or_gt_of_ne hne with hlt | hgt
    · rw [abs_of_neg (by norm_num), abs_of_neg (by norm_num at hlt ⊢; linarith)]
      linarith
    · have hnext := next_pow69 hy hgt
      norm_num at hnext
      rw [abs_of_neg (by norm_num), abs_of_pos (by linarith)]
      norm_num
      linarith
  least d' hpos hrounds := by
    have hlen : digits69.len = 16 := by decide +kernel
    rw [hlen]
    by_contra hshort
    -- the number rounded is within half a gap, where no multiple of a million is
    have habove := hrounds.nearest (2 ^ 69 + 2 ^ 17) ⟨2 ^ 52 + 1, 17, by norm_num, by norm_num,
      by norm_num⟩
    have hbelow := hrounds.nearest (2 ^ 69 - 2 ^ 17) ⟨2 ^ 52 - 1, 17, by norm_num, by norm_num,
      by norm_num⟩
    have hhigh : d'.value ≤ 2 ^ 69 + 2 ^ 16 := by
      by_contra hlt
      rw [abs_of_neg (by linarith)] at habove
      rcases abs_cases (2 ^ 69 + 2 ^ 17 - d'.value) with ⟨heq, -⟩ | ⟨heq, -⟩ <;> linarith
    have hlow : 2 ^ 69 - 2 ^ 16 ≤ d'.value := by
      by_contra hlt
      rw [abs_of_pos (by linarith)] at hbelow
      rcases abs_cases (2 ^ 69 - 2 ^ 17 - d'.value) with ⟨heq, -⟩ | ⟨heq, -⟩ <;> linarith
    have hpoint : d'.point = 21 := by
      refine le_antisymm (Decimal.point_le_of_value_lt hpos ?_)
        (Decimal.lt_point_of_le_value (n := 20) ?_)
      · norm_num at hhigh ⊢
        linarith
      · norm_num at hlow ⊢
        linarith
    obtain ⟨j, hj⟩ : ∃ j : ℕ, d'.len + j = 15 := ⟨15 - d'.len, by omega⟩
    have hvalue : d'.value = (d'.coeff * 10 ^ j * 1000000 : ℕ) := by
      have hexp : d'.point - d'.len = ((j + 6 : ℕ) : ℤ) := by
        rw [hpoint]
        push_cast
        omega
      rw [Decimal.value, hexp, zpow_natCast, pow_add]
      push_cast
      ring
    rw [hvalue] at hlow hhigh
    have hlow' : 590295810358705586176 ≤ d'.coeff * 10 ^ j * 1000000 := by
      norm_num at hlow
      exact_mod_cast hlow
    have hhigh' : d'.coeff * 10 ^ j * 1000000 ≤ 590295810358705717248 := by
      norm_num at hhigh
      exact_mod_cast hhigh
    omega

/-- All digits of the number against its shortest ones. -/
theorem not_one_text_pow69 :
    Decimal.Shortest pow69.magnitude digits69 ∧
      jcsNumber digits69 pow69 ≠ some (Ts.numberToString digits69 pow69) :=
  ⟨shortest_pow69, by decide +kernel⟩

end Sample

end Py

end LoopStorm.Shim
