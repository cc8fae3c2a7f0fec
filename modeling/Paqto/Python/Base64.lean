/-
# Base64

`base64.b64encode`, and `base64.b64decode` with `validate=True`: digits in groups
of four, the last of which may be padded; the bits it drops are not looked at.
-/

import Paqto.Python.Text
import Mathlib.Tactic.IntervalCases

namespace Paqto
namespace Python

/-- A digit, as its ASCII code. -/
def base64Digit (n : ℕ) : ℕ :=
  if n < 26 then 65 + n
  else if n < 52 then 71 + n
  else if n < 62 then n - 4
  else if n = 62 then 43
  else 47

/-- The value of a digit. -/
def base64Value (c : ℕ) : Option ℕ :=
  if 65 ≤ c ∧ c ≤ 90 then some (c - 65)
  else if 97 ≤ c ∧ c ≤ 122 then some (c - 71)
  else if 48 ≤ c ∧ c ≤ 57 then some (c + 4)
  else if c = 43 then some 62
  else if c = 47 then some 63
  else none

/-- `base64.b64encode` -/
def b64encode : Bytes → Str
  | [] => []
  | [a] => [base64Digit (a.toNat / 4), base64Digit (a.toNat % 4 * 16), 61, 61]
  | [a, b] =>
      [base64Digit (a.toNat / 4), base64Digit (a.toNat % 4 * 16 + b.toNat / 16),
        base64Digit (b.toNat % 16 * 4), 61]
  | a :: b :: c :: r =>
      base64Digit (a.toNat / 4) :: base64Digit (a.toNat % 4 * 16 + b.toNat / 16) ::
        base64Digit (b.toNat % 16 * 4 + c.toNat / 64) :: base64Digit (c.toNat % 64) :: b64encode r

/-- `base64.b64decode`; `none` is `binascii.Error`. -/
def b64decode : Str → Option Bytes
  | [] => some []
  | a :: b :: c :: d :: r => do
      let x ← base64Value a
      let y ← base64Value b
      if c = 61 ∧ d = 61 ∧ r = [] then return [UInt8.ofNat (x * 4 + y / 16)]
      else
        let z ← base64Value c
        if d = 61 ∧ r = [] then
          return [UInt8.ofNat (x * 4 + y / 16), UInt8.ofNat (y % 16 * 16 + z / 4)]
        else
          let w ← base64Value d
          return UInt8.ofNat (x * 4 + y / 16) :: UInt8.ofNat (y % 16 * 16 + z / 4) ::
            UInt8.ofNat (z % 4 * 64 + w) :: (← b64decode r)
  | _ => none

/-- A digit is read back. -/
theorem base64Value_digit {n : ℕ} (h : n < 64) : base64Value (base64Digit n) = some n := by
  interval_cases n <;> rfl

/-- No digit is the padding. -/
theorem base64Digit_ne {n : ℕ} (h : n < 64) : base64Digit n ≠ 61 := by
  interval_cases n <;> decide

/-- The first byte of a group. -/
theorem byte_fst {a : UInt8} {t : ℕ} (ht : t < 16) :
    UInt8.ofNat (a.toNat / 4 * 4 + (a.toNat % 4 * 16 + t) / 16) = a := by
  have heq : a.toNat / 4 * 4 + (a.toNat % 4 * 16 + t) / 16 = a.toNat := by omega
  rw [heq, UInt8.ofNat_toNat]

/-- The second byte of a group. -/
theorem byte_snd {b : UInt8} {s t : ℕ} (ht : t < 4) :
    UInt8.ofNat ((s * 16 + b.toNat / 16) % 16 * 16 + (b.toNat % 16 * 4 + t) / 4) = b := by
  have hb := b.toNat_lt
  have heq : (s * 16 + b.toNat / 16) % 16 * 16 + (b.toNat % 16 * 4 + t) / 4 = b.toNat := by omega
  rw [heq, UInt8.ofNat_toNat]

/-- The third byte of a group. -/
theorem byte_trd {c : UInt8} {s : ℕ} :
    UInt8.ofNat ((s * 4 + c.toNat / 64) % 4 * 64 + c.toNat % 64) = c := by
  have hc := c.toNat_lt
  have heq : (s * 4 + c.toNat / 64) % 4 * 64 + c.toNat % 64 = c.toNat := by omega
  rw [heq, UInt8.ofNat_toNat]

/-- **What was encoded is decoded.** -/
theorem b64decode_b64encode (data : Bytes) : b64decode (b64encode data) = some data := by
  fun_induction b64encode data with
  | case1 => rfl
  | case2 a =>
      have ha := a.toNat_lt
      have hfst := byte_fst (a := a) (t := 0) (by decide)
      rw [Nat.add_zero] at hfst
      simp only [b64decode, base64Value_digit (show a.toNat / 4 < 64 by omega),
        base64Value_digit (show a.toNat % 4 * 16 < 64 by omega), Option.bind_eq_bind,
        Option.bind_some, and_self, if_true, Option.pure_def, hfst]
  | case3 a b =>
      have ha := a.toNat_lt
      have hb := b.toNat_lt
      have hsnd := byte_snd (b := b) (s := a.toNat % 4) (t := 0) (by decide)
      rw [Nat.add_zero] at hsnd
      simp only [b64decode, base64Value_digit (show a.toNat / 4 < 64 by omega),
        base64Value_digit (show a.toNat % 4 * 16 + b.toNat / 16 < 64 by omega),
        base64Value_digit (show b.toNat % 16 * 4 < 64 by omega),
        base64Digit_ne (show b.toNat % 16 * 4 < 64 by omega), Option.bind_eq_bind,
        Option.bind_some, false_and, and_self, if_true, if_false, Option.pure_def,
        byte_fst (a := a) (show b.toNat / 16 < 16 by omega), hsnd]
  | case4 a b c r ih =>
      have ha := a.toNat_lt
      have hb := b.toNat_lt
      have hc := c.toNat_lt
      simp only [b64decode, base64Value_digit (show a.toNat / 4 < 64 by omega),
        base64Value_digit (show a.toNat % 4 * 16 + b.toNat / 16 < 64 by omega),
        base64Value_digit (show b.toNat % 16 * 4 + c.toNat / 64 < 64 by omega),
        base64Value_digit (show c.toNat % 64 < 64 by omega),
        base64Digit_ne (show b.toNat % 16 * 4 + c.toNat / 64 < 64 by omega),
        base64Digit_ne (show c.toNat % 64 < 64 by omega), Option.bind_eq_bind, Option.bind_some,
        false_and, if_false, Option.pure_def, ih,
        byte_fst (a := a) (show b.toNat / 16 < 16 by omega),
        byte_snd (b := b) (s := a.toNat % 4) (show c.toNat / 64 < 4 by omega), byte_trd]

end Python
end Paqto
