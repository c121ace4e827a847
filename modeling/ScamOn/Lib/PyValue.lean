import Mathlib.Data.Rat.Cast.Order
import Mathlib.Algebra.Order.Floor.Ring
import Mathlib.Data.Rat.Floor
import ScamOn.Lib.Rounding
import ScamOn.Lib.Text

/-!
# Untyped values

What a field of type `Any` may hold, as far as the program looks at it: numbers that are
compared with each other, texts, and everything that has no order.

* `PyNumber.lt` is the comparison of numbers, with the infinities and NaN.
* `PyValue.number?` is the number a value is taken for; `lessThan` and `greaterThanZero` are
  comparisons that raise on anything else.
* `PyValue.intOf` is `int(v)`, with its exceptions.
* `PyNumber.rounds` counts the integers below a number: how often a loop runs that counts
  up to it.
-/

namespace ScamOn

/-- An exception, by its class and its text. -/
structure PyException where
  className : String
  text : String
  deriving DecidableEq, Repr

/-- An integer or a float: finite, infinite, or not a number. -/
inductive PyNumber
  | finite (q : ℚ)
  | inf
  | negInf
  | nan
  deriving DecidableEq

namespace PyNumber

/-- `x < y`; integers and floats are compared exactly. -/
def lt : PyNumber → PyNumber → Bool
  | .nan, _ => false
  | _, .nan => false
  | .inf, _ => false
  | _, .negInf => false
  | .negInf, _ => true
  | _, .inf => true
  | .finite q, .finite r => q < r

/-- How many natural numbers lie below a number: `none` if all do. -/
def rounds : PyNumber → Option ℕ
  | .finite q => some ⌈q⌉.toNat
  | .inf => none
  | .negInf => some 0
  | .nan => some 0

/-- **A loop that counts up to a number runs as often as there are integers below it.** -/
theorem lt_iff_rounds (n : ℕ) (x : PyNumber) :
    lt (.finite n) x = true ↔ ∀ r, x.rounds = some r → n < r := by
  cases x with
  | finite q =>
    have hceil : (n : ℤ) < ⌈q⌉ ↔ (n : ℚ) < q := by
      rw [Int.lt_ceil]
      simp
    simp only [lt, rounds, Option.some.injEq, forall_eq', decide_eq_true_eq]
    rw [← hceil]
    omega
  | inf => simp [lt, rounds]
  | negInf => simp [lt, rounds]
  | nan => simp [lt, rounds]

end PyNumber

/-- A value of a field of type `Any`. -/
inductive PyValue
  | bool (b : Bool)
  | int (n : ℤ)
  | float (x : PyNumber)
  | str (s : String)
  /-- `None`, a list or an object, by the name of its type. -/
  | other (typeName : String)
  deriving DecidableEq

namespace PyValue

/-- The number a value is in a comparison. -/
def number? : PyValue → Option PyNumber
  | .bool b => some (.finite (if b then 1 else 0))
  | .int n => some (.finite n)
  | .float x => some x
  | .str _ => none
  | .other _ => none

/-- The name of the value's type. -/
def typeName : PyValue → String
  | .bool _ => "bool"
  | .int _ => "int"
  | .float _ => "float"
  | .str _ => "str"
  | .other name => name

/-- `int(v)`. -/
def intOf : PyValue → Except PyException ℤ
  | .bool b => .ok (if b then 1 else 0)
  | .int n => .ok n
  | .float (.finite q) => .ok (truncate q)
  | .float .nan => .error ⟨"ValueError", "cannot convert float NaN to integer"⟩
  | .float _ => .error ⟨"OverflowError", "cannot convert float infinity to integer"⟩
  | .str s =>
    match Text.intOfStr? s with
    | some n => .ok n
    | none => .error ⟨"ValueError", "invalid literal for int() with base 10"⟩
  | .other typeName =>
    .error ⟨"TypeError", "int() argument must be a string, a bytes-like object or a real number, not '" ++
      typeName ++ "'"⟩

/-- A comparison that Python does not support. -/
def unordered (operator left right : String) : PyException :=
  ⟨"TypeError", "'" ++ operator ++ "' not supported between instances of '" ++ left ++ "' and '" ++
    right ++ "'"⟩

/-- `n < v`, for an integer `n`. -/
def lessThan (n : ℕ) (v : PyValue) : Except PyException Bool :=
  match v.number? with
  | some x => .ok (PyNumber.lt (.finite n) x)
  | none => .error (unordered "<" "int" v.typeName)

/-- `v > 0`. -/
def greaterThanZero (v : PyValue) : Except PyException Bool :=
  match v.number? with
  | some x => .ok (PyNumber.lt (.finite 0) x)
  | none => .error (unordered ">" v.typeName "int")

theorem lessThan_eq_ok_true_iff {n : ℕ} {v : PyValue} :
    v.lessThan n = .ok true ↔
      ∃ x, v.number? = some x ∧ ∀ r, x.rounds = some r → n < r := by
  unfold lessThan
  cases v.number? with
  | none => simp
  | some x => simp [← PyNumber.lt_iff_rounds]

theorem lessThan_eq_ok_false_iff {n : ℕ} {v : PyValue} :
    v.lessThan n = .ok false ↔ ∃ x r, v.number? = some x ∧ x.rounds = some r ∧ r ≤ n := by
  have hfalse : ∀ x : PyNumber, PyNumber.lt (.finite n) x = false ↔ ∃ r, x.rounds = some r ∧ r ≤ n := by
    intro x
    rw [Bool.eq_false_iff, Ne, PyNumber.lt_iff_rounds]
    push Not
    rfl
  unfold lessThan
  cases v.number? with
  | none => simp
  | some x => simp [hfalse]

end PyValue

end ScamOn
