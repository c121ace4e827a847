import Mathlib.Algebra.Order.Floor.Ring
import Mathlib.Data.Rat.Floor
import Mathlib.Tactic.Linarith
import Mathlib.Tactic.NormNum

/-!
# Rounding

The two ways Python takes a number to an integer: `round` goes to the nearest
integer and sends ties to the even one, `int` drops the fractional part.  Both
are stated over an arbitrary ordered field with a floor.  With a number of digits,
`round` goes to the nearest decimal fraction of so many digits.

* `roundHalfEven_mono` and `roundDigits_mono`: rounding keeps the order.
* `abs_roundDigits_le`: what is between two integers stays between them.
* `truncate_neg_iff`: a truncated number is negative exactly when the number is
  at most `-1`, so everything above `-1` truncates to a nonnegative integer.
-/

namespace ScamOn

variable {K : Type*} [Field K] [LinearOrder K] [IsStrictOrderedRing K] [FloorRing K]

/-- `round(q)`: the nearest integer, ties to even. -/
def roundHalfEven (q : K) : ℤ :=
  if q - ⌊q⌋ < 1 / 2 then ⌊q⌋
  else if 1 / 2 < q - ⌊q⌋ then ⌊q⌋ + 1
  else if ⌊q⌋ % 2 = 0 then ⌊q⌋
  else ⌊q⌋ + 1

/-- `int(q)`: the integer part, towards zero. -/
def truncate (q : K) : ℤ := if 0 ≤ q then ⌊q⌋ else ⌈q⌉

omit [IsStrictOrderedRing K] in
theorem floor_le_roundHalfEven (q : K) : ⌊q⌋ ≤ roundHalfEven q := by
  unfold roundHalfEven
  split_ifs <;> omega

omit [IsStrictOrderedRing K] in
theorem roundHalfEven_le_floor_add_one (q : K) : roundHalfEven q ≤ ⌊q⌋ + 1 := by
  unfold roundHalfEven
  split_ifs <;> omega

/-- Rounding keeps the order. -/
theorem roundHalfEven_mono {a b : K} (h : a ≤ b) : roundHalfEven a ≤ roundHalfEven b := by
  rcases (Int.floor_le_floor h).lt_or_eq with hlt | heq
  · calc roundHalfEven a ≤ ⌊a⌋ + 1 := roundHalfEven_le_floor_add_one a
      _ ≤ ⌊b⌋ := hlt
      _ ≤ roundHalfEven b := floor_le_roundHalfEven b
  · have hfrac : a - ⌊a⌋ ≤ b - ⌊b⌋ := by
      rw [heq]
      linarith
    unfold roundHalfEven
    rw [heq] at hfrac ⊢
    split_ifs <;> first | omega | (exfalso; linarith)

theorem roundHalfEven_intCast (n : ℤ) : roundHalfEven (n : K) = n := by
  unfold roundHalfEven
  rw [Int.floor_intCast, sub_self, if_pos (by norm_num)]

/-- `round(q, digits)`. -/
def roundDigits (digits : ℕ) (q : K) : K := (roundHalfEven (q * 10 ^ digits) : K) / 10 ^ digits

theorem roundDigits_mono (digits : ℕ) {q r : K} (h : q ≤ r) :
    roundDigits digits q ≤ roundDigits digits r := by
  have hpos : (0 : K) < 10 ^ digits := by positivity
  have hround : roundHalfEven (q * 10 ^ digits) ≤ roundHalfEven (r * 10 ^ digits) :=
    roundHalfEven_mono (mul_le_mul_of_nonneg_right h hpos.le)
  exact div_le_div_of_nonneg_right (Int.cast_le.2 hround) hpos.le

theorem roundDigits_zero (digits : ℕ) : roundDigits digits (0 : K) = 0 := by
  have hround : roundHalfEven (0 : K) = 0 := by simpa using roundHalfEven_intCast (K := K) 0
  rw [roundDigits, zero_mul, hround, Int.cast_zero, zero_div]

/-- Rounding to some digits does not leave an interval with integer ends. -/
theorem abs_roundDigits_le {digits : ℕ} {q : K} (n : ℕ) (h : |q| ≤ n) :
    |roundDigits digits q| ≤ n := by
  have hpos : (0 : K) < 10 ^ digits := by positivity
  obtain ⟨hlow, hhigh⟩ := abs_le.1 h
  have hupper : roundHalfEven (q * 10 ^ digits) ≤ n * 10 ^ digits := by
    have hmono := roundHalfEven_mono (mul_le_mul_of_nonneg_right hhigh hpos.le)
    have hcast : (n : K) * 10 ^ digits = ((n * 10 ^ digits : ℤ) : K) := by push_cast; rfl
    rwa [hcast, roundHalfEven_intCast] at hmono
  have hlower : -(n * 10 ^ digits : ℤ) ≤ roundHalfEven (q * 10 ^ digits) := by
    have hmono := roundHalfEven_mono (mul_le_mul_of_nonneg_right hlow hpos.le)
    have hcast : -(n : K) * 10 ^ digits = ((-(n * 10 ^ digits) : ℤ) : K) := by push_cast; ring
    rwa [hcast, roundHalfEven_intCast] at hmono
  unfold roundDigits
  rw [abs_le, le_div_iff₀ hpos, div_le_iff₀ hpos]
  constructor
  · have hcast : ((-(n * 10 ^ digits) : ℤ) : K) ≤ roundHalfEven (q * 10 ^ digits) := Int.cast_le.2 hlower
    push_cast at hcast
    linarith
  · have hcast : (roundHalfEven (q * 10 ^ digits) : K) ≤ ((n * 10 ^ digits : ℤ) : K) := Int.cast_le.2 hupper
    push_cast at hcast
    exact hcast

theorem truncate_neg_iff {q : K} : truncate q < 0 ↔ q ≤ -1 := by
  unfold truncate
  split_ifs with h
  · have hfloor : 0 ≤ ⌊q⌋ := Int.floor_nonneg.2 h
    constructor
    · intro hneg
      omega
    · intro hle
      exfalso
      linarith
  · constructor
    · intro hneg
      have hceil : (⌈q⌉ : K) ≤ -1 := by
        have hint : ⌈q⌉ ≤ -1 := by omega
        exact_mod_cast hint
      exact (Int.le_ceil q).trans hceil
    · intro hle
      have hint : ⌈q⌉ ≤ -1 := Int.ceil_le.2 (by exact_mod_cast hle)
      omega

end ScamOn
