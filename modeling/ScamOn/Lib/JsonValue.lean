import Mathlib.Data.Int.Cast.Defs
import Mathlib.Data.List.Basic

/-!
# JSON documents

JSON values with their numbers, over a type `K` of floating-point numbers.  A document is what
`json.load` returns, and what it returns again once `json.dump` has written it.

* `JsonValue.eq` is `==` of the decoded values: numbers are compared by value whatever their type,
  objects without regard to the order of their keys.
* `JsonValue.truthy` says whether a value counts as true.
-/

namespace ScamOn

/-- A decoded value. -/
inductive JsonValue (K : Type*)
  | null
  | bool (b : Bool)
  | int (n : ℤ)
  | float (x : K)
  | str (s : String)
  | arr (items : List (JsonValue K))
  | obj (fields : List (String × JsonValue K))

namespace JsonValue

variable {K : Type*}

section Numbers

variable [IntCast K]

/-- The number that a value is in a comparison. -/
def number? : JsonValue K → Option K
  | .bool b => some ((if b then 1 else 0 : ℤ) : K)
  | .int n => some (n : K)
  | .float x => some x
  | _ => none

variable [DecidableEq K]

mutual

/-- `x == y`. -/
def eq : JsonValue K → JsonValue K → Bool
  | .null, .null => true
  | .str s, .str t => s == t
  | .arr xs, .arr ys => eqItems xs ys
  | .obj fs, .obj gs => fs.length == gs.length && eqFields fs gs
  | x, y =>
    match x.number?, y.number? with
    | some a, some b => decide (a = b)
    | _, _ => false

def eqItems : List (JsonValue K) → List (JsonValue K) → Bool
  | [], [] => true
  | x :: xs, y :: ys => eq x y && eqItems xs ys
  | _, _ => false

/-- Every field of the one object is in the other. -/
def eqFields : List (String × JsonValue K) → List (String × JsonValue K) → Bool
  | [], _ => true
  | (k, v) :: fs, gs =>
    match gs.lookup k with
    | some w => eq v w && eqFields fs gs
    | none => false

end

theorem eq_str (s t : String) : eq (.str s : JsonValue K) (.str t) = (s == t) := rfl

/-- `bool(x)`. -/
def truthy : JsonValue K → Bool
  | .null => false
  | .bool b => b
  | .int n => n ≠ 0
  | .float x => x ≠ ((0 : ℤ) : K)
  | .str s => s ≠ ""
  | .arr items => !items.isEmpty
  | .obj fields => !fields.isEmpty

example : eq (.obj [("a", .int 1), ("b", .null)])
    (.obj [("b", .null), ("a", .bool true)] : JsonValue ℤ) = true := by decide

end Numbers

end JsonValue
end ScamOn
