import Mathlib.Data.List.Basic

/-!
# JSON values

Values as a JSON decoder hands them to a dynamically typed program: the program
looks fields up in dictionaries, asks whether a value counts as true, and fails
when a value has not the type it expects.

* `Json.truthy` and `Json.typeName` are what the program can ask of any value.
* `Json.field` is a lookup with a default.
-/

namespace ScamOn

/-- A decoded value.  A floating-point number is given by its text. -/
inductive Json
  | null
  | bool (b : Bool)
  | int (n : Int)
  | float (text : String)
  | str (s : String)
  | arr (items : List Json)
  | obj (fields : List (String × Json))

namespace Json

/-- Whether the value counts as true. -/
def truthy : Json → Bool
  | null => false
  | bool b => b
  | int n => n ≠ 0
  | float text => text ≠ "0.0" ∧ text ≠ "-0.0"
  | str s => s ≠ ""
  | arr items => !items.isEmpty
  | obj fields => !fields.isEmpty

/-- The name of the value's type in error messages. -/
def typeName : Json → String
  | null => "NoneType"
  | bool _ => "bool"
  | int _ => "int"
  | float _ => "float"
  | str _ => "str"
  | arr _ => "list"
  | obj _ => "dict"

/-- `fields.get(key, default)`. -/
def field (fields : List (String × Json)) (key : String) (default : Json) : Json :=
  (fields.lookup key).getD default

end Json

end ScamOn
