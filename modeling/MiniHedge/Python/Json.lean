import MiniHedge.Python.Values

/-! Parameters that come out of a JSON object, as the code reads them.

A number comes with its text. Where the code reads a value as a decimal, a text
that reads as one is kept as the number; every other text is kept as it is. Of a
list only the texts in it are kept, and the text of the whole.
-/

set_option autoImplicit false

namespace MiniHedge.Python

inductive Json where
  | null
  | bool (value : Bool)
  | number (value : Decimal) (shown : String)
  | text (value : String)
  | list (items : List (Option String)) (shown : String)
  deriving DecidableEq, Repr

namespace Json

/-- `str(value)`. -/
def str : Json → String
  | null => "None"
  | bool true => "True"
  | bool false => "False"
  | number _ shown => shown
  | text value => value
  | list _ shown => shown

/-- `Decimal(str(value))`. -/
def asDecimal : Json → Except Exc Decimal
  | number value _ => .ok value
  | _ => .error .invalidOperation

/-- `bool(value)`. -/
def truthy : Json → Bool
  | null => false
  | bool value => value
  | number value _ => value ≠ 0
  | text value => value ≠ ""
  | list items _ => items ≠ []

end Json

abbrev Parameters := List (String × Json)

namespace Parameters

/-- `parameters.get(key)`, with and without a default. -/
def get? (parameters : Parameters) (key : String) : Option Json := parameters.lookup key

def get (parameters : Parameters) (key : String) (default : Json) : Json :=
  (parameters.get? key).getD default

end Parameters

end MiniHedge.Python
