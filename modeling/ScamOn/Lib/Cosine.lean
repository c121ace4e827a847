import Mathlib.Algebra.Order.BigOperators.Group.List
import Mathlib.Algebra.Order.Field.Rat
import Mathlib.Tactic.Linarith
import Mathlib.Tactic.Positivity
import Mathlib.Tactic.Ring

/-!
# Cosine similarity

The cosine of the angle between two vectors, given as lists of the same length over an ordered
field.  Numbers are exact, except that a square root may come out too large.

* `dot_sq_le` is the inequality of Cauchy and Schwarz.
* `abs_cosine_le_one`: a cosine is between `-1` and `1`.
-/

namespace ScamOn

variable {K : Type*} [Field K] [LinearOrder K]

/-- A square root, or an upper bound of it where there is none. -/
structure SquareRoot (K : Type*) [Field K] [LinearOrder K] where
  sqrt : K → K
  nonneg : ∀ x, 0 ≤ sqrt x
  le_mul_self : ∀ x, 0 ≤ x → x ≤ sqrt x * sqrt x

/-- `sum(a * b for a, b in zip(x, y))`. -/
def dot (x y : List K) : K := (List.zipWith (· * ·) x y).sum

/-- `sqrt(sum(a * a for a in x))`. -/
def SquareRoot.norm (S : SquareRoot K) (x : List K) : K := S.sqrt (x.map fun a => a * a).sum

/-- The cosine similarity; `0` where a vector has no direction. -/
def SquareRoot.cosine (S : SquareRoot K) (x y : List K) : K :=
  if 0 < S.norm x && 0 < S.norm y then dot x y / (S.norm x * S.norm y) else 0

variable [IsStrictOrderedRing K]

theorem sum_mul_self_nonneg (x : List K) : 0 ≤ (x.map fun a => a * a).sum := by
  apply List.sum_nonneg
  intro b hb
  obtain ⟨a, -, rfl⟩ := List.mem_map.1 hb
  exact mul_self_nonneg a

/-- **The inequality of Cauchy and Schwarz.** -/
theorem dot_sq_le (x y : List K) :
    dot x y ^ 2 ≤ (x.map fun a => a * a).sum * (y.map fun a => a * a).sum := by
  induction x generalizing y with
  | nil => simp [dot]
  | cons a x ih =>
    cases y with
    | nil => simp [dot]
    | cons b y =>
      have hP := sum_mul_self_nonneg x
      have hQ := sum_mul_self_nonneg y
      have hrest := ih y
      simp only [dot, List.zipWith_cons_cons, List.sum_cons, List.map_cons] at hrest ⊢
      generalize (List.zipWith (· * ·) x y).sum = D at hrest ⊢
      generalize (x.map fun a => a * a).sum = P at hP hrest ⊢
      generalize (y.map fun a => a * a).sum = Q at hQ hrest ⊢
      -- The mixed term is bounded by the arithmetic mean of its two squares.
      have hmixed : 2 * (a * b * D) ≤ a * a * Q + b * b * P := by
        apply le_of_abs_le
        apply abs_le_of_sq_le_sq
        · calc (2 * (a * b * D)) ^ 2 = 4 * (a * b) ^ 2 * D ^ 2 := by ring
            _ ≤ 4 * (a * b) ^ 2 * (P * Q) := by gcongr
            _ = (a * a * Q + b * b * P) ^ 2 - (a * a * Q - b * b * P) ^ 2 := by ring
            _ ≤ (a * a * Q + b * b * P) ^ 2 := sub_le_self _ (sq_nonneg _)
        · exact add_nonneg (mul_nonneg (mul_self_nonneg a) hQ) (mul_nonneg (mul_self_nonneg b) hP)
      calc (a * b + D) ^ 2 = a * a * (b * b) + 2 * (a * b * D) + D ^ 2 := by ring
        _ ≤ a * a * (b * b) + (a * a * Q + b * b * P) + P * Q := by gcongr
        _ = (a * a + P) * (b * b + Q) := by ring

namespace SquareRoot

variable (S : SquareRoot K)

omit [IsStrictOrderedRing K] in
theorem norm_nonneg (x : List K) : 0 ≤ S.norm x := S.nonneg _

theorem abs_dot_le (x y : List K) : |dot x y| ≤ S.norm x * S.norm y := by
  apply abs_le_of_sq_le_sq
  · calc dot x y ^ 2 ≤ (x.map fun a => a * a).sum * (y.map fun a => a * a).sum := dot_sq_le x y
      _ ≤ S.norm x * S.norm x * (S.norm y * S.norm y) :=
        mul_le_mul (S.le_mul_self _ (sum_mul_self_nonneg x)) (S.le_mul_self _ (sum_mul_self_nonneg y))
          (sum_mul_self_nonneg y) (mul_self_nonneg _)
      _ = (S.norm x * S.norm y) ^ 2 := by ring
  · exact mul_nonneg (S.norm_nonneg x) (S.norm_nonneg y)

/-- **A cosine is between `-1` and `1`.** -/
theorem abs_cosine_le_one (x y : List K) : |S.cosine x y| ≤ 1 := by
  unfold cosine
  split_ifs with hpos
  · rw [Bool.and_eq_true, decide_eq_true_eq, decide_eq_true_eq] at hpos
    have hprod : 0 < S.norm x * S.norm y := mul_pos hpos.1 hpos.2
    rw [abs_div, abs_of_pos hprod]
    exact (div_le_one hprod).2 (S.abs_dot_le x y)
  · simp

/-! ## Fractions -/

/-- Exact where the numerator and the denominator are squares. -/
def rationalSqrt (x : ℚ) : ℚ :=
  let n := Nat.sqrt x.num.toNat
  let d := Nat.sqrt x.den
  if n * n = x.num.toNat ∧ d * d = x.den then n / d else (1 + |x|) / 2

theorem rationalSqrt_nonneg (x : ℚ) : 0 ≤ rationalSqrt x := by
  unfold rationalSqrt
  dsimp only
  split_ifs
  · positivity
  · positivity

theorem le_rationalSqrt_mul_self {x : ℚ} (hx : 0 ≤ x) :
    x ≤ rationalSqrt x * rationalSqrt x := by
  unfold rationalSqrt
  dsimp only
  split_ifs with hsquare
  · obtain ⟨hnum, hden⟩ := hsquare
    have hnum' : (Nat.sqrt x.num.toNat : ℚ) * Nat.sqrt x.num.toNat = x.num := by
      have hcast : ((x.num.toNat : ℤ) : ℚ) = x.num := by
        rw [Int.toNat_of_nonneg (Rat.num_nonneg.2 hx)]
      rw [← hcast]
      exact_mod_cast hnum
    have hden' : (Nat.sqrt x.den : ℚ) * Nat.sqrt x.den = x.den := by exact_mod_cast hden
    rw [div_mul_div_comm, hnum', hden', Rat.num_div_den]
  · rw [abs_of_nonneg hx]
    nlinarith [sq_nonneg (1 - x)]

/-- Square roots of fractions. -/
def rational : SquareRoot ℚ := ⟨rationalSqrt, rationalSqrt_nonneg, fun _ => le_rationalSqrt_mul_self⟩

end SquareRoot
end ScamOn
