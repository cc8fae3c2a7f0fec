/-
# Python's `json`

`dumpsWith` is `json.dumps` with `allow_nan=False` and the compact separators,
over a writer of strings: `dumps` has `ensure_ascii=False`, `dumpsAscii` has
`ensure_ascii=True`.  `none` is its `TypeError` or `ValueError`.  `loadsWith` is
`json.loads` with an `object_pairs_hook` and a `parse_constant`; `none` is its
`ValueError`, or that of a hook.

`loadsWith` takes its recursion depth as fuel; `parseValue` never asks for more
than the length of the text.
-/

import Paqto.Python.Value
import Mathlib.Data.Nat.Digits.Defs

namespace Paqto
namespace Python

variable {F : Type}

/-! ## Writing -/

/-- The digits of a natural number, as `int.__repr__` writes them. -/
def natText (n : ℕ) : Str :=
  if n = 0 then [48] else (Nat.digits 10 n).reverse.map (48 + ·)

/-- `int.__repr__`, but for its limit. -/
def intText : ℤ → Str
  | .ofNat n => natText n
  | .negSucc n => 45 :: natText (n + 1)

/-- `sys.int_info.default_max_str_digits` -/
def maxStrDigits : ℕ := 4300

/-- `int.__repr__`; `none` is its `ValueError` for too many digits. -/
def intRepr (i : ℤ) : Option Str :=
  if (natText i.natAbs).length > maxStrDigits then none else some (intText i)

/-- A hexadecimal digit. -/
def hexDigit (n : ℕ) : ℕ := if n < 10 then 48 + n else 87 + n

/-- One character of a JSON string. -/
def escapeChar (n : ℕ) : Str :=
  if n = 34 then [92, 34]
  else if n = 92 then [92, 92]
  else if n = 10 then [92, 110]
  else if n = 13 then [92, 114]
  else if n = 9 then [92, 116]
  else if n = 12 then [92, 102]
  else if n = 8 then [92, 98]
  else if n < 32 then [92, 117, 48, 48, hexDigit (n / 16), hexDigit (n % 16)]
  else [n]

/-- `json.encoder.encode_basestring` -/
def stringText (s : Str) : Str := 34 :: (s.flatMap escapeChar ++ [34])

/-- `\uXXXX` -/
def escapeUnit (n : ℕ) : Str :=
  [92, 117, hexDigit (n / 4096), hexDigit (n / 256 % 16), hexDigit (n / 16 % 16), hexDigit (n % 16)]

/-- One character of an ASCII JSON string: what is not ASCII is escaped, as a
surrogate pair from U+10000 on. -/
def escapeAscii (n : ℕ) : Str :=
  if n < 127 ∨ 0x110000 ≤ n then escapeChar n
  else if n < 0x10000 then escapeUnit n
  else escapeUnit (0xD800 + (n - 0x10000) / 0x400) ++ escapeUnit (0xDC00 + (n - 0x10000) % 0x400)

/-- `json.encoder.encode_basestring_ascii` -/
def asciiText (s : Str) : Str := 34 :: (s.flatMap escapeAscii ++ [34])

/-- `float.__repr__`, where `allow_nan=False` lets it through. -/
def floatText [PyFloat F] (x : F) : Option Str :=
  if PyFloat.isFinite x then some (PyFloat.repr x) else none

/-- A key as the name of a member. -/
def keyText [PyFloat F] : Key F → Option Str
  | .none => some (ofChars ['n', 'u', 'l', 'l'])
  | .bool true => some (ofChars ['t', 'r', 'u', 'e'])
  | .bool false => some (ofChars ['f', 'a', 'l', 's', 'e'])
  | .int i => intRepr i
  | .float x => floatText x
  | .str s => some s

section Dumps

variable [PyFloat F] (write : Str → Str)

mutual

/-- `json.dumps` with a writer of strings. -/
def dumpsWith : Value F → Option Str
  | .none => some (ofChars ['n', 'u', 'l', 'l'])
  | .bool true => some (ofChars ['t', 'r', 'u', 'e'])
  | .bool false => some (ofChars ['f', 'a', 'l', 's', 'e'])
  | .int i => intRepr i
  | .float x => floatText x
  | .str s => some (write s)
  | .list [] | .tuple [] => some [91, 93]
  | .list (v :: items) | .tuple (v :: items) => do
      return 91 :: (← dumpsWith v) ++ (← dumpsItems items)
  | .dict [] => some [123, 125]
  | .dict ((k, v) :: items) => do
      return 123 :: write (← keyText k) ++ 58 :: (← dumpsWith v) ++ (← dumpsMembers items)

/-- The items after the first, and the end of the array. -/
def dumpsItems : List (Value F) → Option Str
  | [] => some [93]
  | v :: items => do return 44 :: (← dumpsWith v) ++ (← dumpsItems items)

/-- The members after the first, and the end of the object. -/
def dumpsMembers : List (Key F × Value F) → Option Str
  | [] => some [125]
  | (k, v) :: items => do
      return 44 :: write (← keyText k) ++ 58 :: (← dumpsWith v) ++ (← dumpsMembers items)

end

end Dumps

/-- `json.dumps` with `ensure_ascii=False` -/
def dumps [PyFloat F] (v : Value F) : Option Str := dumpsWith stringText v

/-- `json.dumps` with `ensure_ascii=True` -/
def dumpsAscii [PyFloat F] (v : Value F) : Option Str := dumpsWith asciiText v

/-! ## Reading -/

/-- JSON white space. -/
def isSpace (n : ℕ) : Bool := n = 32 || n = 9 || n = 10 || n = 13

/-- White space is skipped. -/
def skipSpace (s : Str) : Str := s.dropWhile isSpace

/-- The value of a hexadecimal digit. -/
def hexValue (n : ℕ) : Option ℕ :=
  if 48 ≤ n ∧ n ≤ 57 then some (n - 48)
  else if 97 ≤ n ∧ n ≤ 102 then some (n - 87)
  else if 65 ≤ n ∧ n ≤ 70 then some (n - 55)
  else none

/-- The four digits after `\u`. -/
def hex4 (a b c d : ℕ) : Option ℕ := do
  return (← hexValue a) * 4096 + (← hexValue b) * 256 + (← hexValue c) * 16 + (← hexValue d)

/-- The one-letter escapes. -/
def unescape (n : ℕ) : Option ℕ :=
  if n = 34 ∨ n = 92 ∨ n = 47 then some n
  else if n = 98 then some 8
  else if n = 102 then some 12
  else if n = 110 then some 10
  else if n = 114 then some 13
  else if n = 116 then some 9
  else none

/-- The first half of a pair. -/
def isHighSurrogate (n : ℕ) : Bool := 0xD800 ≤ n && n ≤ 0xDBFF

/-- The second half of a pair. -/
def isLowSurrogate (n : ℕ) : Bool := 0xDC00 ≤ n && n ≤ 0xDFFF

/-- `json.decoder.scanstring` after the opening quote, with `strict=True`. -/
def scanString : Str → Option (Str × Str)
  | [] => none
  | 34 :: r => some ([], r)
  | 92 :: 117 :: a :: b :: c :: d :: r =>
      match hex4 a b c d with
      | none => none
      | some u =>
          match r with
          | 92 :: 117 :: a' :: b' :: c' :: d' :: r' =>
              if isHighSurrogate u then
                match hex4 a' b' c' d' with
                | none => none
                | some u' =>
                    if isLowSurrogate u' then
                      (scanString r').map fun (s, r) =>
                        ((0x10000 + (u - 0xD800) * 0x400 + (u' - 0xDC00)) :: s, r)
                    else (scanString (92 :: 117 :: a' :: b' :: c' :: d' :: r')).map
                      fun (s, r) => (u :: s, r)
              else (scanString (92 :: 117 :: a' :: b' :: c' :: d' :: r')).map
                fun (s, r) => (u :: s, r)
          | r => (scanString r).map fun (s, r) => (u :: s, r)
  | 92 :: e :: r =>
      match unescape e with
      | none => none
      | some n => (scanString r).map fun (s, r) => (n :: s, r)
  | n :: r => if n < 32 then none else (scanString r).map fun (s, r) => (n :: s, r)

/-- The digits at the head of a text, and the rest. -/
def spanDigits (s : Str) : Str × Str := (s.takeWhile isDigit, s.dropWhile isDigit)

/-- The value of a text of digits. -/
def digitsValue (s : Str) : ℕ := s.foldl (fun n d => n * 10 + (d - 48)) 0

/-- `(\.[0-9]+)?` -/
def scanFrac : Str → Str × Str
  | 46 :: r => if (spanDigits r).1 = [] then ([], 46 :: r) else (46 :: (spanDigits r).1, (spanDigits r).2)
  | r => ([], r)

/-- `[-+]?` -/
def scanExpSign : Str → Str × Str
  | 43 :: r => ([43], r)
  | 45 :: r => ([45], r)
  | r => ([], r)

/-- `([eE][-+]?[0-9]+)?` -/
def scanExp : Str → Str × Str
  | [] => ([], [])
  | c :: r =>
      let (sign, r') := scanExpSign r
      if (c = 101 ∨ c = 69) ∧ (spanDigits r').1 ≠ [] then
        (c :: (sign ++ (spanDigits r').1), (spanDigits r').2)
      else ([], c :: r)

/-- `(?:0|[1-9][0-9]*)` -/
def scanInt : Str → Option (Str × Str)
  | [] => none
  | d :: r =>
      if d = 48 then some ([48], r)
      else if isDigit d then some (d :: (spanDigits r).1, (spanDigits r).2)
      else none

/-- `-?` -/
def scanSign : Str → Str × Str
  | 45 :: r => ([45], r)
  | r => ([], r)

/-- A JSON number; `int` refuses a text with too many digits. -/
def scanNumber [PyFloat F] (s : Str) : Option (Value F × Str) :=
  let (sign, r) := scanSign s
  match scanInt r with
  | none => none
  | some (int, r) =>
      let (frac, r) := scanFrac r
      let (exp, r) := scanExp r
      if frac = [] ∧ exp = [] then
        if int.length > maxStrDigits then none
        else some (.int (if sign = [] then digitsValue int else -digitsValue int), r)
      else some (.float (PyFloat.ofText (sign ++ int ++ frac ++ exp)), r)

/-- `prefix` of a text, and the rest. -/
def scanWord (word s : Str) : Option Str := if word <+: s then some (s.drop word.length) else none

/-- The hooks of `json.loads`; `none` is their `ValueError`. -/
structure Hooks (F : Type) where
  /-- `object_pairs_hook` -/
  object : List (Str × Value F) → Option (Value F)
  /-- `parse_constant` -/
  constant : F → Option (Value F)

/-- The values that are words. -/
def scanConstant [PyFloat F] (hooks : Hooks F) (s : Str) : Option (Option (Value F) × Str) :=
  match scanWord (ofChars ['n', 'u', 'l', 'l']) s with
  | some r => some (some .none, r)
  | none =>
  match scanWord (ofChars ['t', 'r', 'u', 'e']) s with
  | some r => some (some (.bool true), r)
  | none =>
  match scanWord (ofChars ['f', 'a', 'l', 's', 'e']) s with
  | some r => some (some (.bool false), r)
  | none =>
  match scanWord (ofChars ['N', 'a', 'N']) s with
  | some r => some (hooks.constant PyFloat.nan, r)
  | none =>
  match scanWord (ofChars ['I', 'n', 'f', 'i', 'n', 'i', 't', 'y']) s with
  | some r => some (hooks.constant PyFloat.inf, r)
  | none =>
  match scanWord (ofChars ['-', 'I', 'n', 'f', 'i', 'n', 'i', 't', 'y']) s with
  | some r => some (hooks.constant PyFloat.negInf, r)
  | none => none

section Parse

variable [PyFloat F] (hooks : Hooks F)

mutual

/-- `json.scanner.scan_once` -/
def parseValue : ℕ → Str → Option (Value F × Str)
  | 0, _ => none
  | n + 1, s =>
      match s with
      | 34 :: r => (scanString r).map fun (t, r) => (.str t, r)
      | 91 :: r =>
          match skipSpace r with
          | 93 :: r => some (.list [], r)
          | r => (parseItems n r).map fun (items, r) => (.list items, r)
      | 123 :: r =>
          match skipSpace r with
          | 125 :: r => (hooks.object []).map fun v => (v, r)
          | r => do
              let (pairs, r) ← parseMembers n r
              return (← hooks.object pairs, r)
      | s =>
          match scanConstant hooks s with
          | some (v, r) => v.map fun v => (v, r)
          | none => scanNumber s

/-- The items of an array, from the first one to the closing bracket. -/
def parseItems : ℕ → Str → Option (List (Value F) × Str)
  | 0, _ => none
  | n + 1, s => do
      let (v, r) ← parseValue n s
      match skipSpace r with
      | 93 :: r => return ([v], r)
      | 44 :: r =>
          let (items, r) ← parseItems n (skipSpace r)
          return (v :: items, r)
      | _ => none

/-- The members of an object, from the first one to the closing brace. -/
def parseMembers : ℕ → Str → Option (List (Str × Value F) × Str)
  | 0, _ => none
  | n + 1, s =>
      match s with
      | 34 :: r => do
          let (k, r) ← scanString r
          match skipSpace r with
          | 58 :: r =>
              let (v, r) ← parseValue n (skipSpace r)
              match skipSpace r with
              | 125 :: r => return ([(k, v)], r)
              | 44 :: r =>
                  let (pairs, r) ← parseMembers n (skipSpace r)
                  return ((k, v) :: pairs, r)
              | _ => none
          | _ => none
      | _ => none

end

/-- `json.loads` with its hooks. -/
def loadsWith (s : Str) : Option (Value F) :=
  match parseValue hooks (s.length + 1) (skipSpace s) with
  | some (v, r) => if skipSpace r = [] then some v else none
  | none => none

end Parse

/-- `json.loads` with an `object_pairs_hook` -/
def loads [PyFloat F] (hook : List (Str × Value F) → Option (Value F)) (s : Str) :
    Option (Value F) :=
  loadsWith ⟨hook, fun x => some (.float x)⟩ s

end Python
end Paqto
