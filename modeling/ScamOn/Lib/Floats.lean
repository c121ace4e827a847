import Mathlib.Algebra.Order.Field.Rat
import Mathlib.Algebra.Order.BigOperators.Group.List
import Mathlib.Data.Nat.Log
import Mathlib.Tactic.Positivity

/-!
# Floating-point arithmetic

What the program does with floating-point numbers, without saying how they are rounded.

* `Floats` are the operations, `Floats.Lawful` the signs of their results.
* `Floats.dyadic` computes with fractions; its logarithm is exact at the powers of two.
-/

namespace ScamOn

/-- The floating-point operations that the program uses. -/
structure Floats (F : Type*) where
  ofNat : ℕ → F
  /-- `a / b`, for two integers. -/
  ratio : ℕ → ℕ → F
  mul : F → F → F
  neg : F → F
  /-- `math.log2`. -/
  log2 : F → F
  /-- `sum`. -/
  sum : List F → F
  le : F → F → Bool

namespace Floats

variable {F : Type*}

/-- **The signs of results.**  Rounding to the nearest number does not cross a number that
can be written down. -/
structure Lawful (fl : Floats F) : Prop where
  zero_le : ∀ n, fl.le (fl.ofNat 0) (fl.ofNat n) = true
  ratio_nonneg : ∀ a b, 0 < b → fl.le (fl.ofNat 0) (fl.ratio a b) = true
  ratio_le_one : ∀ a b, 0 < b → a ≤ b → fl.le (fl.ratio a b) (fl.ofNat 1) = true
  log2_nonpos : ∀ a b, 0 < a → a ≤ b → fl.le (fl.log2 (fl.ratio a b)) (fl.ofNat 0) = true
  mul_nonpos : ∀ p q, fl.le (fl.ofNat 0) p = true → fl.le q (fl.ofNat 0) = true →
    fl.le (fl.mul p q) (fl.ofNat 0) = true
  sum_nonpos : ∀ l, (∀ q ∈ l, fl.le q (fl.ofNat 0) = true) →
    fl.le (fl.sum l) (fl.ofNat 0) = true
  neg_nonneg : ∀ q, fl.le q (fl.ofNat 0) = true → fl.le (fl.ofNat 0) (fl.neg q) = true

/-- Fractions, with the logarithm rounded to an integer. -/
def dyadic : Floats ℚ where
  ofNat n := n
  ratio a b := a / b
  mul p q := p * q
  neg q := -q
  log2 q := (Nat.log2 q.num.natAbs : ℚ) - Nat.log2 q.den
  sum l := l.sum
  le p q := p ≤ q

theorem log2_dyadic_nonpos {q : ℚ} (hpos : 0 < q) (h : q ≤ 1) : dyadic.log2 q ≤ 0 := by
  have hnum : q.num.natAbs ≤ q.den := by
    have hle : q.num ≤ q.den := Rat.num_le_denom_iff.2 h
    have hnonneg : 0 ≤ q.num := Rat.num_nonneg.2 hpos.le
    omega
  have hlog : Nat.log2 q.num.natAbs ≤ Nat.log2 q.den := by
    rw [Nat.log2_eq_log_two, Nat.log2_eq_log_two]
    exact Nat.log_mono_right hnum
  have hcast : (Nat.log2 q.num.natAbs : ℚ) ≤ Nat.log2 q.den := by exact_mod_cast hlog
  exact sub_nonpos.2 hcast

theorem lawful_dyadic : dyadic.Lawful where
  zero_le n := by
    simp [dyadic]
  ratio_nonneg a b _ := by
    simp only [dyadic, Nat.cast_zero, decide_eq_true_eq]
    positivity
  ratio_le_one a b hb h := by
    have hb' : (0 : ℚ) < b := by exact_mod_cast hb
    have h' : (a : ℚ) ≤ b := by exact_mod_cast h
    simp only [dyadic, Nat.cast_one, decide_eq_true_eq]
    exact (div_le_one hb').2 h'
  log2_nonpos a b ha h := by
    have ha' : (0 : ℚ) < a := by exact_mod_cast ha
    have h' : (a : ℚ) ≤ b := by exact_mod_cast h
    have hb' : (0 : ℚ) < b := ha'.trans_le h'
    have hlog := log2_dyadic_nonpos (div_pos ha' hb') ((div_le_one hb').2 h')
    simpa [dyadic] using hlog
  mul_nonpos p q hp hq := by
    simp only [dyadic, Nat.cast_zero, decide_eq_true_eq] at hp hq ⊢
    exact mul_nonpos_of_nonneg_of_nonpos hp hq
  sum_nonpos l h := by
    simp only [dyadic, Nat.cast_zero, decide_eq_true_eq] at h ⊢
    simpa using List.sum_le_card_nsmul l 0 h
  neg_nonneg q h := by
    simp only [dyadic, Nat.cast_zero, decide_eq_true_eq] at h ⊢
    exact neg_nonneg.2 h

end Floats
end ScamOn
