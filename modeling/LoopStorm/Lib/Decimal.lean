import LoopStorm.Lib.Json
import Mathlib.Algebra.Order.Archimedean.Basic
import Mathlib.Data.Rat.Cast.Order
import Mathlib.Tactic.Linarith
import Mathlib.Tactic.NormNum
import Mathlib.Tactic.Positivity
import Mathlib.Tactic.Ring
import Mathlib.Tactic.FieldSimp
import Mathlib.Tactic.GCongr

/-!
# The shortest decimal of a double

Binary floating-point numbers as rationals, and the decimal with the fewest
digits that is read back as one of them.

* `Representable` — a number with 53 bits, exponents unbounded above.
* `RoundsTo` — round to nearest, ties to even.
* `Shortest` — no decimal with fewer digits rounds to the number.
* `Representable.gap` — **no two such numbers lie close together**.
* `Shortest.len_le`, `Shortest.lt_point`, `Shortest.point_le` — how many digits
  there are and where the point is, for large numbers and for fractions.
* `Shortest.value_eq_of_lt` — **small integers are spelt out**.
-/

/-- The digits of a number and where its point is: `0.d₁d₂…` times a power of
ten. -/
structure Decimal where
  coeff : ℕ
  point : ℤ

namespace Decimal

/-! ## Doubles -/

/-- A number with a significand of 53 bits. -/
def Representable (q : ℚ) : Prop := ∃ m e : ℤ, |m| < 2 ^ 53 ∧ -1074 ≤ e ∧ q = m * 2 ^ e

/-- A number whose significand is even. -/
def HasEven (q : ℚ) : Prop := ∃ m e : ℤ, |m| < 2 ^ 52 ∧ -1073 ≤ e ∧ q = m * 2 ^ e

/-- The number `q` is rounded to: the nearest, and the even one of two. -/
structure RoundsTo (q x : ℚ) : Prop where
  nearest : ∀ y, Representable y → |x - q| ≤ |y - q|
  even : ∀ y, Representable y → y ≠ x → |y - q| = |x - q| → HasEven x

theorem two_zpow_pos (e : ℤ) : (0 : ℚ) < 2 ^ e := by positivity

theorem ten_zpow_pos (e : ℤ) : (0 : ℚ) < 10 ^ e := by positivity

/-- An integer of at most 53 bits, and its multiples by powers of two. -/
theorem representable_of_int {m : ℤ} (h : |m| < 2 ^ 53) (j : ℕ) :
    Representable ((m : ℚ) * 2 ^ j) := by
  refine ⟨m, j, h, ?_, by rw [zpow_natCast]⟩
  omega

/-- Multiples of two powers of two lie apart by the smaller power. -/
theorem le_abs_sub {m k : ℤ} {e f : ℤ} (hef : e ≤ f) (hne : (m : ℚ) * 2 ^ e ≠ k * 2 ^ f) :
    (2 : ℚ) ^ e ≤ |(k : ℚ) * 2 ^ f - m * 2 ^ e| := by
  obtain ⟨j, rfl⟩ := Int.le.dest hef
  have hsplit : (2 : ℚ) ^ (e + j) = 2 ^ j * 2 ^ e := by
    rw [zpow_add₀ two_ne_zero, zpow_natCast, mul_comm]
  have hfactor : (k : ℚ) * 2 ^ (e + j) - m * 2 ^ e = (k * 2 ^ j - m : ℤ) * 2 ^ e := by
    rw [hsplit]
    push_cast
    ring
  rw [hfactor, abs_mul, abs_of_pos (two_zpow_pos e)]
  have hint : k * 2 ^ j - m ≠ 0 := by
    intro h
    apply hne
    have hzero : (k : ℚ) * 2 ^ (e + j) - m * 2 ^ e = 0 := by
      rw [hfactor, h]
      simp
    linarith
  have hone : (1 : ℚ) ≤ |((k * 2 ^ j - m : ℤ) : ℚ)| := by
    rw [← Int.cast_abs]
    exact_mod_cast Int.one_le_abs hint
  exact le_mul_of_one_le_left (two_zpow_pos e).le hone

theorem abs_lt_of_bits {m e : ℤ} (h : |m| < 2 ^ 53) : |(m : ℚ) * 2 ^ e| < 2 ^ 53 * 2 ^ e := by
  rw [abs_mul, abs_of_pos (two_zpow_pos e)]
  have hm : |(m : ℚ)| < 2 ^ 53 := by
    rw [← Int.cast_abs]
    exact_mod_cast h
  exact mul_lt_mul_of_pos_right hm (two_zpow_pos e)

/-- **No two such numbers lie close together.** -/
theorem Representable.gap {x y : ℚ} (hx : Representable x) (hy : Representable y) (hne : y ≠ x) :
    |x| / 2 ^ 54 ≤ |y - x| := by
  obtain ⟨m, e, hm, -, rfl⟩ := hx
  obtain ⟨k, f, hk, -, rfl⟩ := hy
  rcases le_total e f with hef | hfe
  · have hgap := le_abs_sub hef hne.symm
    have hsize := abs_lt_of_bits (e := e) hm
    have hpos := two_zpow_pos e
    linarith
  · -- the other number is nearly as large, or the claim is clear
    have hgap := le_abs_sub hfe hne
    rw [abs_sub_comm] at hgap
    have hsize := abs_lt_of_bits (e := f) hk
    have htriangle := abs_sub_abs_le_abs_sub ((m : ℚ) * 2 ^ e) (k * 2 ^ f)
    rw [abs_sub_comm] at htriangle
    have hpos := two_zpow_pos f
    linarith

namespace RoundsTo

variable {q x y : ℚ}

/-- Rounding does not pass a number that need not be rounded. -/
theorem le_of_le (h : RoundsTo q x) (hy : Representable y) (hqy : q ≤ y) : x ≤ y := by
  by_contra hlt
  have hnear := h.nearest y hy
  rw [abs_of_nonneg (by linarith), abs_of_nonneg (by linarith)] at hnear
  linarith

theorem ge_of_ge (h : RoundsTo q x) (hy : Representable y) (hyq : y ≤ q) : y ≤ x := by
  by_contra hlt
  have hnear := h.nearest y hy
  rw [abs_of_nonpos (by linarith), abs_of_nonpos (by linarith)] at hnear
  linarith

/-- A number closer than all others is what is rounded to. -/
theorem of_closer (h : ∀ y, Representable y → y ≠ x → |x - q| < |y - q|) : RoundsTo q x where
  nearest y hy := by
    rcases eq_or_ne y x with rfl | hne
    · exact le_rfl
    · exact (h y hy hne).le
  even y hy hne heq := absurd heq (h y hy hne).ne'

theorem self (x : ℚ) : RoundsTo x x := by
  refine of_closer fun y _ hne => ?_
  rw [sub_self, abs_zero]
  exact abs_pos.2 (sub_ne_zero.2 hne)

end RoundsTo

/-! ## Decimals -/

/-- The digits. -/
def digits (d : Decimal) : List Char := Json.natText d.coeff

/-- The number of digits. -/
def len (d : Decimal) : ℕ := d.digits.length

/-- The number itself. -/
def value (d : Decimal) : ℚ := d.coeff * 10 ^ (d.point - d.len)

/-- The fewest digits that are read back as the number. -/
structure Shortest (x : ℚ) (d : Decimal) : Prop where
  pos : 0 < d.coeff
  rounds : RoundsTo d.value x
  least : ∀ d' : Decimal, 0 < d'.coeff → RoundsTo d'.value x → d.len ≤ d'.len

theorem length_natText_le_iff {n k : ℕ} (hk : 0 < k) :
    (Json.natText n).length ≤ k ↔ n < 10 ^ k :=
  Nat.length_toDigits_le_iff (by decide) hk

theorem len_pos (d : Decimal) : 0 < d.len :=
  List.length_pos_iff.2 (Json.natText_ne_nil _)

theorem len_one (p : ℤ) : (⟨1, p⟩ : Decimal).len = 1 := by
  show (Json.natText 1).length = 1
  decide

/-- A power of ten, with its one digit. -/
theorem value_one (l : ℕ) : (⟨1, l + 1⟩ : Decimal).value = 10 ^ l := by
  rw [value, len_one]
  push_cast
  rw [add_sub_cancel_right, zpow_natCast, one_mul]

theorem coeff_lt (d : Decimal) : d.coeff < 10 ^ d.len :=
  (length_natText_le_iff d.len_pos).1 le_rfl

theorem coeff_le_nine {d : Decimal} (h : d.len = 1) : (d.coeff : ℚ) ≤ 9 := by
  have hlt := d.coeff_lt
  rw [h] at hlt
  exact_mod_cast Nat.le_of_lt_succ hlt

theorem le_coeff {d : Decimal} (h : 0 < d.coeff) : 10 ^ (d.len - 1) ≤ d.coeff := by
  rcases Nat.eq_or_lt_of_le d.len_pos with hone | hmore
  · rw [← hone]
    exact h
  · by_contra hlt
    have hle := (length_natText_le_iff (Nat.sub_pos_of_lt hmore)).2 (not_le.1 hlt)
    have hlen : (Json.natText d.coeff).length = d.len := rfl
    omega

theorem zpow_split (d : Decimal) :
    (10 : ℚ) ^ d.point = 10 ^ d.len * 10 ^ (d.point - d.len) := by
  rw [← zpow_natCast, ← zpow_add₀ (by norm_num)]
  congr 1
  ring

theorem value_lt (d : Decimal) : d.value < 10 ^ d.point := by
  rw [zpow_split, value]
  have hlt : (d.coeff : ℚ) < 10 ^ d.len := by exact_mod_cast d.coeff_lt
  exact mul_lt_mul_of_pos_right hlt (ten_zpow_pos _)

theorem le_value {d : Decimal} (h : 0 < d.coeff) : 10 ^ (d.point - 1) ≤ d.value := by
  have hsplit : (10 : ℚ) ^ (d.point - 1) = 10 ^ (d.len - 1) * 10 ^ (d.point - d.len) := by
    rw [← zpow_natCast, ← zpow_add₀ (by norm_num), Nat.cast_sub d.len_pos]
    congr 1
    push_cast
    ring
  rw [hsplit, value]
  have hle : (10 : ℚ) ^ (d.len - 1) ≤ d.coeff := by exact_mod_cast le_coeff h
  exact mul_le_mul_of_nonneg_right hle (ten_zpow_pos _).le

/-- Where the point is, from how large the number is. -/
theorem point_le_of_value_lt {d : Decimal} (h : 0 < d.coeff) {n : ℤ} (hlt : d.value < 10 ^ n) :
    d.point ≤ n := by
  have hpow := lt_of_le_of_lt (le_value h) hlt
  rw [zpow_lt_zpow_iff_right₀ (by norm_num)] at hpow
  omega

theorem lt_point_of_le_value {d : Decimal} {n : ℤ} (hle : 10 ^ n ≤ d.value) : n < d.point := by
  have hpow := lt_of_le_of_lt hle d.value_lt
  rwa [zpow_lt_zpow_iff_right₀ (by norm_num)] at hpow

namespace Shortest

variable {x : ℚ} {d : Decimal}

/-- The last digit is not zero. -/
theorem last (h : Shortest x d) : d.coeff % 10 ≠ 0 := by
  intro hzero
  have hpos := h.pos
  let d' : Decimal := ⟨d.coeff / 10, d.point⟩
  have hlen : d.len = d'.len + 1 := by
    have htext : Json.natText d.coeff = Json.natText (d.coeff / 10) ++ [(d.coeff % 10).digitChar] :=
      Nat.toDigits_of_base_le (by decide) (by omega)
    rw [len, digits, htext, List.length_append]
    rfl
  have hvalue : d'.value = d.value := by
    have hcoeff : (d.coeff : ℚ) = (d.coeff / 10 : ℕ) * 10 := by
      exact_mod_cast (Nat.div_mul_cancel (Nat.dvd_of_mod_eq_zero hzero)).symm
    have hsplit : (10 : ℚ) ^ (d.point - d'.len) = 10 * 10 ^ (d.point - d.len) := by
      rw [hlen, ← zpow_one_add₀ (by norm_num)]
      congr 1
      push_cast
      ring
    show ((d.coeff / 10 : ℕ) : ℚ) * 10 ^ (d.point - d'.len) = d.coeff * 10 ^ (d.point - d.len)
    rw [hsplit, hcoeff]
    ring
  have hleast := h.least d' (by show 0 < d.coeff / 10; omega) (hvalue ▸ h.rounds)
  omega

/-! ## Large numbers -/

theorem representable_tenPow21 : Representable (10 ^ 21) := by
  have h := representable_of_int (m := 476837158203125) (by norm_num) 21
  norm_num at h ⊢
  exact h

theorem representable_nine : Representable (9 * 10 ^ 20) := by
  have h := representable_of_int (m := 858306884765625) (by norm_num) 20
  norm_num at h ⊢
  exact h

/-- From `10 ^ 21` on, the point is beyond the first 21 digits. -/
theorem lt_point (h : Shortest x d) (hx : 10 ^ 21 ≤ x) : 21 < d.point := by
  apply lt_point_of_le_value
  rw [zpow_ofNat]
  by_contra hlt
  rw [not_le] at hlt
  -- the number is then `10 ^ 21` itself, which one digit spells
  have hle := h.rounds.le_of_le representable_tenPow21 hlt.le
  obtain rfl : x = 10 ^ 21 := le_antisymm hle hx
  have hone := h.least ⟨1, (21 : ℕ) + 1⟩ Nat.one_pos (by rw [value_one]; exact RoundsTo.self _)
  rw [len_one] at hone
  have hlen : d.len = 1 := le_antisymm hone d.len_pos
  have hpoint : d.point ≤ 21 := by
    apply point_le_of_value_lt h.pos
    rw [zpow_ofNat]
    exact hlt
  have hpow : (10 : ℚ) ^ (d.point - d.len) ≤ 10 ^ 20 := by
    rw [← zpow_natCast]
    apply zpow_le_zpow_right₀ (by norm_num)
    rw [hlen]
    push_cast
    omega
  have hvalue : d.value ≤ 9 * 10 ^ 20 :=
    mul_le_mul (coeff_le_nine hlen) hpow (ten_zpow_pos _).le (by norm_num)
  have hsmall := h.rounds.le_of_le representable_nine hvalue
  norm_num at hsmall

/-- Large numbers have no more than 21 digits: that many always suffice. -/
theorem len_le (h : Shortest x d) (hr : Representable x) (hx : 10 ^ 21 ≤ x) : d.len ≤ 21 := by
  obtain ⟨n, hn, hn'⟩ := exists_nat_pow_near (show (1 : ℚ) ≤ x by linarith)
    (show (1 : ℚ) < 10 by norm_num)
  have hlarge : 21 ≤ n := by
    by_contra hlt
    have hpow : (10 : ℚ) ^ (n + 1) ≤ 10 ^ 21 := pow_le_pow_right₀ (by norm_num) (by omega)
    linarith
  obtain ⟨j, rfl⟩ : ∃ j, n = j + 20 := ⟨n - 20, by omega⟩
  -- the first 21 digits of the number
  have hj : (0 : ℚ) < 10 ^ j := by positivity
  let c : ℕ := ⌊x / 10 ^ j⌋₊
  have hc : (c : ℚ) ≤ x / 10 ^ j := Nat.floor_le (by positivity)
  have hc' : x / 10 ^ j < c + 1 := Nat.lt_floor_add_one _
  rw [le_div_iff₀ hj] at hc
  rw [div_lt_iff₀ hj] at hc'
  rw [pow_add] at hn
  have hpos : 0 < c := by
    by_contra hzero
    obtain hzero : c = 0 := by omega
    rw [hzero, Nat.cast_zero, zero_add] at hc'
    linarith
  have hsmall : c < 10 ^ 21 := by
    have hlt : (c : ℚ) * 10 ^ j < 10 ^ 21 * 10 ^ j := by
      rw [← pow_add]
      calc (c : ℚ) * 10 ^ j ≤ x := hc
        _ < 10 ^ (j + 20 + 1) := hn'
        _ = 10 ^ (21 + j) := by congr 1; omega
    exact_mod_cast lt_of_mul_lt_mul_right hlt hj.le
  let d' : Decimal := ⟨c, j + (Json.natText c).length⟩
  have hvalue : d'.value = c * 10 ^ j := by
    have hexp : d'.point - d'.len = (j : ℤ) := add_sub_cancel_right ..
    rw [value, hexp, zpow_natCast]
  have hrounds : RoundsTo d'.value x := by
    refine RoundsTo.of_closer fun y hy hne => ?_
    have hgap := hr.gap hy hne
    rw [abs_of_pos (show 0 < x by linarith)] at hgap
    have htriangle := abs_sub_le y d'.value x
    rw [abs_sub_comm d'.value x] at htriangle
    have hnear : |x - d'.value| < 10 ^ j := by
      rw [hvalue, abs_of_nonneg (by linarith)]
      linarith
    linarith
  exact (h.least d' hpos hrounds).trans ((length_natText_le_iff (by decide)).2 hsmall)

/-! ## Fractions -/

theorem representable_two52 : Representable (2 ^ 52) := by
  have h := representable_of_int (m := 1) (by norm_num) 52
  norm_num at h ⊢
  exact h

/-- A number that is no integer is small. -/
theorem lt_two52 (hr : Representable x) (hint : x.den ≠ 1) : x < 2 ^ 52 := by
  obtain ⟨m, e, hm, -, rfl⟩ := hr
  have he : e ≤ -1 := by
    by_contra hnonneg
    obtain ⟨j, rfl⟩ := Int.eq_ofNat_of_zero_le (show 0 ≤ e by omega)
    apply hint
    have hcast : (m : ℚ) * 2 ^ (j : ℤ) = ((m * 2 ^ j : ℤ) : ℚ) := by
      rw [zpow_natCast]
      push_cast
      rfl
    rw [hcast, Rat.den_intCast]
  have hsize := (le_abs_self _).trans_lt (abs_lt_of_bits (e := e) hm)
  have hpow : (2 : ℚ) ^ e ≤ 2 ^ (-1 : ℤ) := zpow_le_zpow_right₀ (by norm_num) he
  have hhalf : (2 : ℚ) ^ (-1 : ℤ) = 1 / 2 := by norm_num
  rw [hhalf] at hpow
  linarith

/-- A fraction has its point within the first 16 digits. -/
theorem point_le (h : Shortest x d) (hr : Representable x) (hint : x.den ≠ 1) :
    d.point ≤ 16 := by
  have hlt := lt_two52 hr hint
  have hvalue : d.value ≤ 2 ^ 52 := by
    by_contra hbig
    have hle := h.rounds.ge_of_ge representable_two52 (not_le.1 hbig).le
    linarith
  apply point_le_of_value_lt h.pos
  rw [zpow_ofNat]
  exact lt_of_le_of_lt hvalue (by norm_num)

/-! ## Integers -/

theorem representable_natCast {n : ℕ} (h : n < 2 ^ 53) : Representable n := by
  have hr := representable_of_int (m := n) (by rw [Nat.abs_cast]; exact_mod_cast h) 0
  rwa [pow_zero, mul_one, Int.cast_natCast] at hr

theorem representable_two53 : Representable (2 ^ 53) := by
  have h := representable_of_int (m := 1) (by norm_num) 53
  norm_num at h ⊢
  exact h

theorem representable_fifteen : Representable (15 / 16) := by
  refine ⟨15, -4, by norm_num, by norm_num, by norm_num⟩

/-- The integer a decimal is when it has no digits behind the point. -/
theorem value_eq_natCast {d : Decimal} (hpoint : d.len ≤ d.point) :
    d.value = (d.coeff * 10 ^ (d.point - d.len).toNat : ℕ) := by
  have hexp : d.point - d.len = ((d.point - d.len).toNat : ℤ) := by omega
  rw [value]
  conv_lhs => rw [hexp, zpow_natCast]
  push_cast
  rfl

/-- The decimal of an integer, with all its digits. -/
theorem value_natText (n : ℕ) : (⟨n, (Json.natText n).length⟩ : Decimal).value = n := by
  have hexp : ((Json.natText n).length : ℤ) - (⟨n, (Json.natText n).length⟩ : Decimal).len = 0 :=
    sub_self _
  rw [value]
  dsimp only
  rw [hexp, zpow_zero, mul_one]

/-- Below `2 ^ 53` the digits of an integer are those of the integer itself. -/
theorem value_eq_of_lt {n : ℕ} (h : Shortest n d) (hn : n ≠ 0) (hlt : n < 2 ^ 53) :
    d.value = n := by
  have hbound : d.value < 2 ^ 53 := by
    by_contra hbig
    have hge := h.rounds.ge_of_ge representable_two53 (not_lt.1 hbig)
    have hcast : (n : ℚ) < 2 ^ 53 := by exact_mod_cast hlt
    linarith
  by_cases hpoint : d.len ≤ d.point
  · -- an integer that needs no rounding
    have hvalue := value_eq_natCast hpoint
    rw [hvalue] at hbound
    have hself := h.rounds.nearest _ (representable_natCast (by exact_mod_cast hbound))
    rw [← hvalue, sub_self, abs_zero] at hself
    exact (sub_eq_zero.1 (abs_nonpos_iff.1 hself)).symm
  · -- a fraction has fewer digits in front of the point than the integer has in all
    exfalso
    have hdigits : d.len ≤ (Json.natText n).length :=
      h.least ⟨n, (Json.natText n).length⟩ (Nat.pos_of_ne_zero hn)
        (by rw [value_natText]; exact RoundsTo.self _)
    obtain ⟨l, hl⟩ : ∃ l, (Json.natText n).length = l + 1 :=
      ⟨(Json.natText n).length - 1, by have := List.length_pos_iff.2 (Json.natText_ne_nil n); omega⟩
    have hpow : 10 ^ l ≤ n := by
      have hle := le_coeff (d := ⟨n, l + 1⟩) (Nat.pos_of_ne_zero hn)
      have hlen : (⟨n, l + 1⟩ : Decimal).len = l + 1 := hl
      rwa [hlen, Nat.add_sub_cancel] at hle
    have hvalue : d.value ≤ (10 ^ l : ℕ) := by
      push_cast
      rw [← zpow_natCast]
      exact d.value_lt.le.trans (zpow_le_zpow_right₀ (by norm_num) (by omega))
    have hle := h.rounds.le_of_le (representable_natCast (hpow.trans_lt hlt)) hvalue
    obtain rfl : n = 10 ^ l := le_antisymm (by exact_mod_cast hle) hpow
    have hone := h.least ⟨1, l + 1⟩ Nat.one_pos (by
      rw [value_one, Nat.cast_pow]
      exact RoundsTo.self _)
    rw [len_one] at hone
    have hlen : d.len = 1 := le_antisymm hone d.len_pos
    have htenth : (10 : ℚ) ^ (d.point - d.len) ≤ 1 / 10 := by
      have hmono : (10 : ℚ) ^ (d.point - d.len) ≤ 10 ^ (-1 : ℤ) :=
        zpow_le_zpow_right₀ (by norm_num) (by omega)
      norm_num at hmono ⊢
      exact hmono
    have hsmall : d.value ≤ 15 / 16 := by
      have hmul := mul_le_mul (coeff_le_nine hlen) htenth (ten_zpow_pos _).le (by norm_num)
      rw [value]
      linarith
    have hbelow := h.rounds.le_of_le representable_fifteen hsmall
    have hge : (1 : ℚ) ≤ (10 ^ l : ℕ) := by exact_mod_cast Nat.one_le_pow _ _ (by decide)
    linarith

end Shortest

end Decimal
