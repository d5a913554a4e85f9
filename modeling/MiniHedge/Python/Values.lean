import MiniHedge.Python.Uuid
import Mathlib.Data.Rat.Defs
import Mathlib.Algebra.Order.Ring.Rat

/-! The values and the exceptions that the modules exchange.

Decimals are exact rationals and instants are numbers. A JSON object is a list
of named fields; the text of a decimal is kept as the decimal itself, since
`Decimal(str(d)) = d`.
-/

set_option autoImplicit false

namespace MiniHedge.Python

abbrev Decimal := ℚ

abbrev Datetime := Int

inductive Exc where
  | valueError (message : String)
  | typeError (message : String)
  | attributeError (name : String)
  | keyError (key : String)
  | lookupError (message : String)
  | runtimeError (message : String)
  | invalidOperation
  | divisionByZero
  | dataError
  | integrityError
  | exception (name message : String)
  deriving DecidableEq, Repr

/-- `str(exc)`. -/
def Exc.text : Exc → String
  | .valueError message | .typeError message | .lookupError message | .runtimeError message
  | .exception _ message => message
  | .attributeError name => name
  | .keyError key => s!"'{key}'"
  | .invalidOperation | .divisionByZero | .dataError | .integrityError => ""

/-- `Decimal` division. -/
def divide (a b : Decimal) : Except Exc Decimal :=
  if b = 0 then .error (if a = 0 then .invalidOperation else .divisionByZero) else .ok (a / b)

theorem divide_ok {b : Decimal} (nonzero : b ≠ 0) (a : Decimal) : divide a b = .ok (a / b) :=
  if_neg nonzero

/-- `text.split(c)`, on characters. -/
def split (c : Char) : List Char → List (List Char)
  | [] => [[]]
  | d :: rest =>
    if d = c then [] :: split c rest
    else match split c rest with
      | [] => [[d]]
      | part :: parts => (d :: part) :: parts

theorem length_split (c : Char) (l : List Char) : (split c l).length = l.count c + 1 := by
  induction l with
  | nil => rfl
  | cons d rest ih =>
    by_cases same : d = c
    · simp [split, same, ih]
    · rw [split, if_neg same, List.count_cons_of_ne same, ← ih]
      cases found : split c rest with
      | nil => simp [found] at ih
      | cons part parts => rfl

theorem split_absent {c : Char} {l : List Char} (absent : c ∉ l) : split c l = [l] := by
  induction l with
  | nil => rfl
  | cons d rest ih =>
    rw [List.mem_cons, not_or] at absent
    simp [split, Ne.symm absent.1, ih absent.2]

theorem split_append {c : Char} {l : List Char} (absent : c ∉ l) (m : List Char) :
    split c (l ++ c :: m) = l :: split c m := by
  induction l with
  | nil => simp [split]
  | cons d rest ih =>
    rw [List.mem_cons, not_or] at absent
    simp [split, Ne.symm absent.1, ih absent.2]

/-- Texts are equal before and after the last occurrence of a character. -/
theorem split_last {c : Char} {l m s t : List Char} (absent : c ∉ s) (absent' : c ∉ t)
    (same : l ++ c :: s = m ++ c :: t) : l = m ∧ s = t := by
  rcases List.append_eq_append_iff.mp same with ⟨rest, left, right⟩ | ⟨rest, left, right⟩
  · cases rest with
    | nil => exact ⟨by simpa using left.symm, (List.cons.inj right).2⟩
    | cons d rest =>
      have tail : s = rest ++ c :: t := (List.cons.inj right).2
      exact absurd (by simp [tail]) absent
  · cases rest with
    | nil => exact ⟨by simpa using left, (List.cons.inj right).2.symm⟩
    | cons d rest =>
      have tail : t = rest ++ c :: s := (List.cons.inj right).2
      exact absurd (by simp [tail]) absent'

inductive Field where
  | text (value : String)
  | decimal (value : Decimal)
  deriving DecidableEq, Repr

abbrev Dict := List (String × Field)

namespace Dict

/-- `data.get(key)`. -/
def get (d : Dict) (key : String) : Option Field := d.lookup key

/-- `data[key]`. -/
def getItem (d : Dict) (key : String) : Except Exc Field :=
  match d.get key with
  | some field => .ok field
  | none => .error (.keyError key)

end Dict

namespace Field

def asText : Field → Except Exc String
  | .text value => .ok value
  | .decimal _ => .error (.typeError "expected a text")

/-- `Decimal(field)`. -/
def asDecimal : Field → Except Exc Decimal
  | .decimal value => .ok value
  | .text _ => .error .invalidOperation

/-- `UUID(field)`. -/
def asUuid (field : Field) : Except Exc UUID := do
  match UUID.parse (← field.asText) with
  | some u => .ok u
  | none => .error (.valueError "badly formed hexadecimal UUID string")

@[simp] theorem asText_text (value : String) : (text value).asText = .ok value := rfl

@[simp] theorem asDecimal_decimal (value : Decimal) : (decimal value).asDecimal = .ok value := rfl

@[simp] theorem asUuid_str (u : UUID) : (text u.str).asUuid = .ok u := by
  simp [asUuid, Bind.bind, Except.bind]

end Field

namespace Dict

/-- `data[key]` read as a text, a decimal or an identifier. -/
def text (d : Dict) (key : String) : Except Exc String := do (← d.getItem key).asText

def decimal (d : Dict) (key : String) : Except Exc Decimal := do (← d.getItem key).asDecimal

def uuid (d : Dict) (key : String) : Except Exc UUID := do (← d.getItem key).asUuid

/-- `data.get(key, default)`, read the same ways. -/
def textOr (d : Dict) (key default : String) : Except Exc String :=
  ((d.get key).getD (.text default)).asText

def decimalOr (d : Dict) (key : String) (default : Decimal) : Except Exc Decimal :=
  ((d.get key).getD (.decimal default)).asDecimal

end Dict

end MiniHedge.Python
