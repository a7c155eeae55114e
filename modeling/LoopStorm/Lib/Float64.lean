import LoopStorm.Lib.Json

/-!
# Double-precision arithmetic, abstractly

The operations a program performs on doubles, with no law beyond the ones its
texts need: what is proved over `Float64` holds of IEEE arithmetic whatever it
rounds.  The exact rationals are one instance, used where sums are to be
exact and where a run is to be computed.

* `Float64` — the operations and the two texts, fixed-point and shortest.
* `Number`, `Number.text` — the numbers of a JSON document: unsigned and signed
  64-bit integers and finite doubles; `isNumber_text` says each text is a JSON
  number.
* `decimals` — the last digits of a number, the fractional part of a text.
-/

/-- The operations on doubles, `F` standing for the type of doubles. -/
class Float64 (F : Type) where
  /-- The literal `0.0`. -/
  zero : F
  /-- Addition. -/
  add : F → F → F
  /-- Multiplication. -/
  mul : F → F → F
  /-- Division. -/
  div : F → F → F
  /-- The comparison `x > y`, false when either is NaN. -/
  gt : F → F → Bool
  /-- The comparison `x == 0.0`. -/
  isZero : F → Bool
  /-- Rounding to the nearest integer, halves away from zero. -/
  round : F → F
  /-- The double nearest to an integer. -/
  ofNat : Nat → F
  /-- Neither infinite nor NaN. -/
  isFinite : F → Bool
  /-- The text with four decimals, `{:.4}`. -/
  fixed4 : F → String
  /-- The shortest text that reads back. -/
  text : F → List Char
  /-- The shortest text of a finite double is a JSON number. -/
  isNumber_text : ∀ x, isFinite x = true → Json.IsNumber (text x)

/-- The numbers of a JSON document. -/
inductive Number (F : Type) [Float64 F] where
  | posInt (n : UInt64)
  | negInt (n : Int64)
  | float (x : F) (finite : Float64.isFinite x = true)

namespace Number

variable {F : Type} [Float64 F]

/-- The text of a number. -/
def text : Number F → List Char
  | .posInt n => Json.natText n.toNat
  | .negInt n => Json.intText n.toInt
  | .float x _ => Float64.text x

theorem isNumber_text (n : Number F) : Json.IsNumber n.text := by
  cases n with
  | posInt n => exact Json.isNumber_natText _
  | negInt n => exact Json.isNumber_intText _
  | float x h => exact Float64.isNumber_text x h

theorem printable_text (n : Number F) : ∀ c ∈ n.text, 32 ≤ c.toNat := n.isNumber_text.printable

end Number

namespace Float64

/-! ## Exact rationals -/

/-- The last `k` decimal digits of a number. -/
def decimals : Nat → Nat → List Char
  | 0, _ => []
  | k + 1, n => decimals k (n / 10) ++ [(n % 10).digitChar]

theorem isDigit_decimals {k n : Nat} {c : Char} (h : c ∈ decimals k n) : c.isDigit = true := by
  induction k generalizing n with
  | zero => simp [decimals] at h
  | succ k ih =>
    rw [decimals, List.mem_append, List.mem_singleton] at h
    rcases h with h | rfl
    · exact ih h
    · have : n % 10 < 10 := Nat.mod_lt _ (by norm_num)
      interval_cases n % 10 <;> rfl

theorem decimals_succ_ne_nil (k n : Nat) : decimals (k + 1) n ≠ [] := by
  simp [decimals]

/-- A number of `10 ^ (-k)` units written with `k` decimals. -/
def fixedPoint (k n : Nat) : List Char :=
  Json.natText (n / 10 ^ k) ++ '.' :: decimals k n

theorem validUnsigned_fixedPoint (k n : Nat) :
    Json.validUnsigned (fixedPoint (k + 1) n) = true := by
  refine Json.validUnsigned_natText_append _ ?_ (by simp)
  obtain ⟨h1, h2⟩ := @Json.takeWhile_digits (decimals (k + 1) n) []
    (fun c hc => isDigit_decimals hc) (by simp)
  rw [List.append_nil] at h1 h2
  simp only [Json.validTail, h1, h2, Json.validDigits, Bool.and_true, Bool.and_eq_true,
    Bool.not_eq_true', List.isEmpty_eq_false_iff]
  exact ⟨decimals_succ_ne_nil k n, List.all_eq_true.2 (fun c hc => isDigit_decimals hc)⟩

theorem isNumChar_fixedPoint {k n : Nat} {c : Char} (h : c ∈ fixedPoint k n) :
    Json.isNumChar c = true := by
  rw [fixedPoint, List.mem_append, List.mem_cons] at h
  rcases h with h | rfl | h
  · simp [Json.isNumChar, Json.isDigit_natText h]
  · rfl
  · simp [Json.isNumChar, isDigit_decimals h]

/-- A rational with a sign and `k` decimals, the rest rounded to even. -/
def ratText (k : Nat) (x : ℚ) : List Char :=
  let scaled := |x| * 10 ^ k
  let down := scaled.floor.toNat
  let half := scaled - down
  let units := if half < 1 / 2 ∨ (half = 1 / 2 ∧ down % 2 = 0) then down else down + 1
  if x < 0 then '-' :: fixedPoint k units else fixedPoint k units

theorem isNumber_ratText (k : Nat) (x : ℚ) : Json.IsNumber (ratText (k + 1) x) := by
  unfold ratText
  split
  · exact Json.isNumber_neg (validUnsigned_fixedPoint k _) (fun c hc => isNumChar_fixedPoint hc)
  · exact ⟨Json.validNumber_of_unsigned (validUnsigned_fixedPoint k _),
      fun c hc => isNumChar_fixedPoint hc⟩

/-- Exact arithmetic.  A rational has no shortest text; nine decimals stand in
for it. -/
instance : Float64 ℚ where
  zero := 0
  add x y := x + y
  mul x y := x * y
  div x y := x / y
  gt x y := decide (y < x)
  isZero x := decide (x = 0)
  round x := if 0 ≤ x then (x + 1 / 2).floor else (x - 1 / 2).ceil
  ofNat n := n
  isFinite _ := true
  fixed4 x := String.ofList (ratText 4 x)
  text x := ratText 9 x
  isNumber_text x _ := isNumber_ratText 8 x

@[simp] theorem rat_zero : (Float64.zero : ℚ) = 0 := rfl

@[simp] theorem rat_add (x y : ℚ) : Float64.add x y = x + y := rfl

@[simp] theorem rat_gt (x y : ℚ) : Float64.gt x y = decide (y < x) := rfl

end Float64
