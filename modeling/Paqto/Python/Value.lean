/-
# Python values that `json` can write

`None`, booleans, integers, floats, strings, lists, tuples and dicts.  A dict is
the list of its items in insertion order.

Floats are a parameter: all that `json` uses of them is `float.__repr__`, the
conversion of a JSON number to a float, and the three constants that are not
finite.  `FloatText` is the form `float.__repr__` gives finite floats, a JSON
number with a fraction or an exponent, and reading it gives the float back.
-/

import Paqto.Python.Text
import Mathlib.Data.Int.Notation

namespace Paqto
namespace Python

/-- A decimal digit. -/
def isDigit (n : ℕ) : Bool := 48 ≤ n && n ≤ 57

/-- One or more digits. -/
def Digits (l : Str) : Prop := l ≠ [] ∧ ∀ d ∈ l, isDigit d = true

/-- `0`, or digits without a leading zero. -/
def IntPart (l : Str) : Prop :=
  l = [48] ∨ ∃ d ds, l = d :: ds ∧ d ≠ 48 ∧ isDigit d = true ∧ ∀ e ∈ ds, isDigit e = true

/-- A point and digits, or nothing. -/
def FracPart (l : Str) : Prop := l = [] ∨ ∃ ds, l = 46 :: ds ∧ Digits ds

/-- `e` or `E`, perhaps a sign, and digits, or nothing. -/
def ExpPart (l : Str) : Prop :=
  l = [] ∨ ∃ c sign ds, l = c :: (sign ++ ds) ∧ (c = 101 ∨ c = 69) ∧
    (sign = [] ∨ sign = [43] ∨ sign = [45]) ∧ Digits ds

/-- A JSON number that is not an integer. -/
def FloatText (s : Str) : Prop :=
  ∃ sign int frac exp, s = sign ++ int ++ frac ++ exp ∧ (sign = [] ∨ sign = [45]) ∧
    IntPart int ∧ FracPart frac ∧ ExpPart exp ∧ (frac ≠ [] ∨ exp ≠ [])

/-- What `json` uses of floats. -/
class PyFloat (F : Type) where
  isFinite : F → Bool
  /-- `float.__repr__` -/
  repr : F → Str
  /-- `float(text)` -/
  ofText : Str → F
  nan : F
  inf : F
  negInf : F
  isFinite_nan : isFinite nan = false
  isFinite_inf : isFinite inf = false
  isFinite_negInf : isFinite negInf = false
  repr_floatText : ∀ x, isFinite x = true → FloatText (repr x)
  ofText_repr : ∀ x, isFinite x = true → ofText (repr x) = x

/-- The keys of a dict that `json` accepts. -/
inductive Key (F : Type)
  | none
  | bool (b : Bool)
  | int (i : ℤ)
  | float (x : F)
  | str (s : Str)

/-- A value of Python that `json` reads or writes. -/
inductive Value (F : Type)
  | none
  | bool (b : Bool)
  | int (i : ℤ)
  | float (x : F)
  | str (s : Str)
  | list (items : List (Value F))
  | tuple (items : List (Value F))
  | dict (items : List (Key F × Value F))

namespace Value

variable {F : Type}

mutual

/-- What `json.loads` can make: dicts with distinct string keys, and no tuples. -/
def Native : Value F → Prop
  | .list items => NativeItems items
  | .dict items => NativeMembers items ∧ (items.map Prod.fst).Nodup
  | .tuple _ => False
  | _ => True

/-- The items are native. -/
def NativeItems : List (Value F) → Prop
  | [] => True
  | v :: items => v.Native ∧ NativeItems items

/-- The names are strings and the values native. -/
def NativeMembers : List (Key F × Value F) → Prop
  | [] => True
  | (k, v) :: items => (∃ s, k = .str s) ∧ v.Native ∧ NativeMembers items

end

end Value

end Python
end Paqto
