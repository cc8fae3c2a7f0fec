/-
# What `json.dumps` writes, `json.loads` reads

`reread` is what comes back of a value: tuples are lists, keys are strings, and
the hook sees the members of every object in their order.  The text of every
value is read as that (`loadsWith_dumpsWith`), and a value `json.loads` can make
(`Value.Native`) comes back unchanged (`loads_dumps`).

Each scanner is shown to take exactly the text its writer made, whatever
follows; for numbers what follows must end them (`Stops`).  The writers of
strings are instances of `ReadsAs`: with `ensure_ascii` two lone surrogates that
make a pair come back as one character.
-/

import Paqto.Python.Json
import Mathlib.Data.Nat.Digits.Lemmas

namespace Paqto
namespace Python

variable {F : Type}

/-! ## Numbers -/

/-- The text goes on with a comma or a closing bracket, or ends. -/
def Stops (s : Str) : Prop := ∀ d r, s = d :: r → d = 44 ∨ d = 93 ∨ d = 125

/-- The end of the text stops a number. -/
theorem stops_nil : Stops [] := by
  rintro d r ⟨⟩

/-- So does a comma or a closing bracket. -/
theorem stops_cons {d : ℕ} {r : Str} (h : d = 44 ∨ d = 93 ∨ d = 125) : Stops (d :: r) := by
  rintro _ _ ⟨⟩
  exact h

/-- The text does not go on with a digit. -/
def NoDigit (s : Str) : Prop := ∀ d r, s = d :: r → isDigit d = false

/-- What stops a number is no digit. -/
theorem Stops.noDigit {s : Str} (h : Stops s) : NoDigit s := by
  intro d r hs
  rcases h d r hs with rfl | rfl | rfl <;> rfl

/-- Digits are read up to the first other character. -/
theorem spanDigits_append {ds r : Str} (hd : ∀ d ∈ ds, isDigit d = true) (hr : NoDigit r) :
    spanDigits (ds ++ r) = (ds, r) := by
  have htake : r.takeWhile isDigit = [] := by
    cases r with
    | nil => rfl
    | cons d r => simp [hr d r rfl]
  have hdrop : r.dropWhile isDigit = r := by
    cases r with
    | nil => rfl
    | cons d r => simp [hr d r rfl]
  rw [spanDigits, List.takeWhile_append_of_pos hd, List.dropWhile_append_of_pos hd, htake, hdrop,
    List.append_nil]

/-- A sign is read back. -/
theorem scanSign_append {sign r : Str} (hs : sign = [] ∨ sign = [45])
    (hr : ∀ d t, r = d :: t → d ≠ 45) : scanSign (sign ++ r) = (sign, r) := by
  rcases hs with rfl | rfl
  · rw [List.nil_append]
    unfold scanSign
    split
    · exact absurd rfl (hr 45 _ rfl)
    · rfl
  · rfl

/-- An integer part is read back. -/
theorem scanInt_append {int r : Str} (hi : IntPart int) (hr : NoDigit r) :
    scanInt (int ++ r) = some (int, r) := by
  rcases hi with rfl | ⟨d, ds, rfl, hd, hdig, hds⟩
  · rfl
  · simp [scanInt, hd, hdig, spanDigits_append hds hr]

/-- A fraction is read back. -/
theorem scanFrac_append {frac r : Str} (hf : FracPart frac) (hr : NoDigit r)
    (hp : ∀ d t, r = d :: t → d ≠ 46) : scanFrac (frac ++ r) = (frac, r) := by
  rcases hf with rfl | ⟨ds, rfl, hne, hds⟩
  · rw [List.nil_append]
    unfold scanFrac
    split
    · exact absurd rfl (hp 46 _ rfl)
    · rfl
  · simp [scanFrac, spanDigits_append hds hr, hne]

/-- An exponent is read back. -/
theorem scanExp_append {exp r : Str} (he : ExpPart exp) (hr : Stops r) :
    scanExp (exp ++ r) = (exp, r) := by
  rcases he with rfl | ⟨c, sign, ds, rfl, hc, hsign, hne, hds⟩
  · rw [List.nil_append]
    cases r with
    | nil => rfl
    | cons d r =>
        have hd : ¬ (d = 101 ∨ d = 69) := by
          rcases hr d r rfl with rfl | rfl | rfl <;> decide
        simp [scanExp, hd]
  · have hsg : scanExpSign (sign ++ (ds ++ r)) = (sign, ds ++ r) := by
      obtain ⟨d, ds', rfl⟩ := List.exists_cons_of_ne_nil hne
      have hd := hds d List.mem_cons_self
      rcases hsign with rfl | rfl | rfl
      · rw [List.nil_append, List.cons_append]
        unfold scanExpSign
        split
        · rename_i h
          rw [List.cons.injEq] at h
          rw [h.1] at hd
          cases hd
        · rename_i h
          rw [List.cons.injEq] at h
          rw [h.1] at hd
          cases hd
        · rfl
      · rfl
      · rfl
    have hspan := spanDigits_append hds hr.noDigit
    simp [scanExp, hsg, hspan, hc, hne]

/-- **A number is read back, up to where it stops.** -/
theorem scanNumber_append [PyFloat F] {sign int frac exp r : Str} (hs : sign = [] ∨ sign = [45])
    (hi : IntPart int) (hf : FracPart frac) (he : ExpPart exp) (hr : Stops r) :
    scanNumber (F := F) (sign ++ (int ++ (frac ++ (exp ++ r)))) =
      if frac = [] ∧ exp = [] then
        if int.length > maxStrDigits then none
        else some (.int (if sign = [] then digitsValue int else -digitsValue int), r)
      else some (.float (PyFloat.ofText (sign ++ int ++ frac ++ exp)), r) := by
  have hexp : NoDigit (exp ++ r) ∧ ∀ d t, exp ++ r = d :: t → d ≠ 46 := by
    rcases he with rfl | ⟨c, sign, ds, rfl, hc, _⟩
    · refine ⟨hr.noDigit, fun d t ht => ?_⟩
      rcases hr d t ht with rfl | rfl | rfl <;> decide
    · refine ⟨fun d t ht => ?_, fun d t ht => ?_⟩ <;>
        obtain ⟨rfl, _⟩ := List.cons.inj ht <;>
        rcases hc with rfl | rfl <;> decide
  have hfrac : NoDigit (frac ++ (exp ++ r)) := by
    rcases hf with rfl | ⟨ds, rfl, _⟩
    · exact hexp.1
    · rintro d t ht
      obtain ⟨rfl, _⟩ := List.cons.inj ht
      rfl
  have hint : ∀ d t, int ++ (frac ++ (exp ++ r)) = d :: t → d ≠ 45 := by
    rcases hi with rfl | ⟨c, ds, rfl, hc, hdig, _⟩
    · rintro d t ht
      obtain ⟨rfl, _⟩ := List.cons.inj ht
      decide
    · rintro d t ht rfl
      obtain ⟨rfl, _⟩ := List.cons.inj ht
      cases hdig
  rw [scanNumber, scanSign_append hs hint]
  simp only [scanInt_append hi hfrac, scanFrac_append hf hexp.1 hexp.2, scanExp_append he hr]

/-- A digit below ten is a digit. -/
theorem isDigit_add {d : ℕ} (h : d < 10) : isDigit (48 + d) = true := by
  simp only [isDigit, Bool.and_eq_true, decide_eq_true_eq]
  omega

/-- The text of a number is an integer part. -/
theorem natText_intPart (n : ℕ) : IntPart (natText n) := by
  unfold natText
  split
  · exact Or.inl rfl
  · rename_i hn
    have hne : Nat.digits 10 n ≠ [] := Nat.digits_ne_nil_iff_ne_zero.2 hn
    have hlt : ∀ d ∈ Nat.digits 10 n, d < 10 := fun d hd => Nat.digits_lt_base (by decide) hd
    have hlast := Nat.getLast_digit_ne_zero 10 hn
    refine Or.inr ⟨48 + (Nat.digits 10 n).getLast hne,
      (Nat.digits 10 n).dropLast.reverse.map (48 + ·), ?_, by omega,
      isDigit_add (hlt _ (List.getLast_mem hne)), fun e he => ?_⟩
    · rw [← List.map_cons, ← List.reverse_concat, List.dropLast_append_getLast hne]
    · obtain ⟨d, hd, rfl⟩ := List.mem_map.1 he
      exact isDigit_add (hlt d (List.dropLast_subset _ (List.mem_reverse.1 hd)))

/-- Its value is the number. -/
theorem digitsValue_natText (n : ℕ) : digitsValue (natText n) = n := by
  have hdigits : ∀ l : List ℕ, l.foldr (fun d n => n * 10 + (48 + d - 48)) 0 =
      Nat.ofDigits 10 l := by
    intro l
    induction l with
    | nil => rfl
    | cons d l ih =>
        rw [List.foldr_cons, ih, Nat.ofDigits_cons]
        omega
  unfold natText
  split
  · rename_i hn
    rw [hn]
    rfl
  · rw [digitsValue, List.foldl_map, List.foldl_reverse, hdigits, Nat.ofDigits_digits]

/-- An integer is written as its text, unless that is too long. -/
theorem intRepr_eq {i : ℤ} {t : Str} (h : intRepr i = some t) :
    (natText i.natAbs).length ≤ maxStrDigits ∧ t = intText i := by
  unfold intRepr at h
  split at h
  · cases h
  · rename_i hlen
    exact ⟨Nat.le_of_not_lt hlen, (Option.some.inj h).symm⟩

/-- `int.__repr__` is read back. -/
theorem scanNumber_intRepr [PyFloat F] {i : ℤ} {t r : Str} (ht : intRepr i = some t)
    (hr : Stops r) : scanNumber (F := F) (t ++ r) = some (.int i, r) := by
  obtain ⟨hlen, rfl⟩ := intRepr_eq ht
  cases i with
  | ofNat n =>
      have h := scanNumber_append (F := F) (Or.inl rfl) (natText_intPart n) (Or.inl rfl)
        (Or.inl rfl) hr
      rw [if_pos ⟨rfl, rfl⟩, if_neg (show ¬ (natText n).length > maxStrDigits from Nat.not_lt.2 hlen)] at h
      simpa [intText, digitsValue_natText] using h
  | negSucc n =>
      have h := scanNumber_append (F := F) (Or.inr rfl) (natText_intPart (n + 1)) (Or.inl rfl)
        (Or.inl rfl) hr
      rw [if_pos ⟨rfl, rfl⟩,
        if_neg (show ¬ (natText (n + 1)).length > maxStrDigits from Nat.not_lt.2 hlen)] at h
      simpa [intText, digitsValue_natText, Int.negSucc_eq] using h

/-- `float.__repr__` is read back. -/
theorem scanNumber_floatText [PyFloat F] {x : F} {t r : Str} (ht : floatText x = some t)
    (hr : Stops r) : scanNumber (F := F) (t ++ r) = some (.float x, r) := by
  unfold floatText at ht
  split at ht
  · rename_i hx
    obtain rfl := Option.some.inj ht
    obtain ⟨sign, int, frac, exp, heq, hs, hi, hf, he, hne⟩ := PyFloat.repr_floatText x hx
    have h := scanNumber_append (F := F) hs hi hf he hr
    rw [if_neg (by tauto), ← heq, PyFloat.ofText_repr x hx] at h
    rw [heq]
    simpa using h
  · cases ht

/-! ## Strings -/

/-- A hexadecimal digit is read back. -/
theorem hexValue_hexDigit {n : ℕ} (h : n < 16) : hexValue (hexDigit n) = some n := by
  interval_cases n <;> rfl

/-- So are the four of a control character. -/
theorem hex4_control {n : ℕ} (h : n < 32) :
    hex4 48 48 (hexDigit (n / 16)) (hexDigit (n % 16)) = some n := by
  rw [hex4, hexValue_hexDigit (by omega : n / 16 < 16), hexValue_hexDigit (by omega : n % 16 < 16)]
  change some _ = some _
  simp only [Option.some.injEq]
  omega

/-- One character is read back. -/
theorem scanString_escapeChar (n : ℕ) (r : Str) :
    scanString (escapeChar n ++ r) = (scanString r).map fun (s, r) => (n :: s, r) := by
  by_cases hn : n ∈ [34, 92, 10, 13, 9, 12, 8]
  · simp only [List.mem_cons, List.not_mem_nil, or_false] at hn
    rcases hn with rfl | rfl | rfl | rfl | rfl | rfl | rfl <;> rfl
  · simp only [List.mem_cons, List.not_mem_nil, or_false, not_or] at hn
    obtain ⟨h34, h92, h10, h13, h9, h12, h8⟩ := hn
    simp only [escapeChar, if_neg h34, if_neg h92, if_neg h10, if_neg h13, if_neg h9, if_neg h12,
      if_neg h8]
    split
    · rename_i h
      have hs : isHighSurrogate n = false := by
        simp only [isHighSurrogate, Bool.and_eq_false_iff, decide_eq_false_iff_not]
        omega
      simp only [List.cons_append, List.nil_append]
      rw [scanString.eq_def]
      simp only [hex4_control h, hs]
      split <;> simp_all
    · rename_i h
      rw [List.singleton_append, scanString.eq_def]
      split <;> simp_all

/-- So are the four of any code unit. -/
theorem hex4_unit {n : ℕ} (h : n < 0x10000) :
    hex4 (hexDigit (n / 4096)) (hexDigit (n / 256 % 16)) (hexDigit (n / 16 % 16))
      (hexDigit (n % 16)) = some n := by
  rw [hex4, hexValue_hexDigit (by omega : n / 4096 < 16),
    hexValue_hexDigit (by omega : n / 256 % 16 < 16),
    hexValue_hexDigit (by omega : n / 16 % 16 < 16), hexValue_hexDigit (by omega : n % 16 < 16)]
  change some _ = some _
  simp only [Option.some.injEq]
  omega

/-- Two lone surrogates that make a pair are one character. -/
def joinSurrogates : Str → Str
  | u :: u' :: s =>
      if isHighSurrogate u && isLowSurrogate u' then
        (0x10000 + (u - 0xD800) * 0x400 + (u' - 0xDC00)) :: joinSurrogates s
      else u :: joinSurrogates (u' :: s)
  | s => s

/-- The writer's text of every string is scanned as `read` of the string. -/
def ReadsAs (write read : Str → Str) : Prop :=
  ∀ s, ∃ u, write s = 34 :: u ∧ ∀ r, scanString (u ++ r) = some (read s, r)

/-- **A string is read back.** -/
theorem stringText_readsAs : ReadsAs stringText id := by
  refine fun s => ⟨_, rfl, fun r => ?_⟩
  rw [List.append_assoc, List.singleton_append]
  induction s with
  | nil => rfl
  | cons n s ih =>
      rw [List.flatMap_cons, List.append_assoc, scanString_escapeChar, ih]
      rfl

/-- What follows is no escaped low surrogate. -/
def NoLow (r : Str) : Prop :=
  ∀ a b c d t, r = 92 :: 117 :: a :: b :: c :: d :: t →
    ∃ n, hex4 a b c d = some n ∧ isLowSurrogate n = false

/-- An escaped code unit is read back, unless it begins a pair. -/
theorem scanString_escapeUnit {n : ℕ} {r : Str} (hn : n < 0x10000)
    (h : isHighSurrogate n = false ∨ NoLow r) :
    scanString (escapeUnit n ++ r) = (scanString r).map fun (s, r) => (n :: s, r) := by
  simp only [escapeUnit, List.cons_append, List.nil_append]
  rw [scanString.eq_def]
  simp only [hex4_unit hn]
  split
  · rename_i a b c d t
    rcases h with h | h
    · rw [h]
      rfl
    · obtain ⟨u, hu, hlow⟩ := h a b c d t rfl
      simp only [hu, hlow]
      split <;> rfl
  · rfl

/-- An escaped pair is read back as one character. -/
theorem scanString_pair {u u' : ℕ} (hu : isHighSurrogate u = true) (hu' : isLowSurrogate u' = true)
    (r : Str) : scanString (escapeUnit u ++ (escapeUnit u' ++ r)) =
      (scanString r).map fun (s, r) => ((0x10000 + (u - 0xD800) * 0x400 + (u' - 0xDC00)) :: s, r) := by
  have hlt : u < 0x10000 := by
    simp only [isHighSurrogate, Bool.and_eq_true, decide_eq_true_eq] at hu
    omega
  have hlt' : u' < 0x10000 := by
    simp only [isLowSurrogate, Bool.and_eq_true, decide_eq_true_eq] at hu'
    omega
  simp only [escapeUnit, List.cons_append, List.nil_append]
  rw [scanString.eq_def]
  simp only [hex4_unit hlt, hex4_unit hlt', hu, hu', if_true]

/-- Outside their range there is no low surrogate. -/
theorem isLowSurrogate_eq_false {n : ℕ} (h : n < 0xDC00 ∨ 0xDFFF < n) : isLowSurrogate n = false := by
  simp only [isLowSurrogate, Bool.and_eq_false_iff, decide_eq_false_iff_not]
  omega

/-- Another code unit does not complete a pair. -/
theorem noLow_escapeUnit {n : ℕ} (hn : n < 0x10000) (h : isLowSurrogate n = false) (r : Str) :
    NoLow (escapeUnit n ++ r) := by
  rintro a b c d t heq
  simp only [escapeUnit, List.cons_append, List.nil_append, List.cons.injEq, true_and] at heq
  obtain ⟨rfl, rfl, rfl, rfl, _⟩ := heq
  exact ⟨n, hex4_unit hn, h⟩

/-- A character that is not escaped as `\uXXXX` is none of these. -/
theorem noLow_escapeChar (n : ℕ) (r : Str) : NoLow (escapeChar n ++ r) := by
  rintro a b c d t heq
  by_cases hn : n ∈ [34, 92, 10, 13, 9, 12, 8]
  · simp only [List.mem_cons, List.not_mem_nil, or_false] at hn
    rcases hn with rfl | rfl | rfl | rfl | rfl | rfl | rfl <;> simp [escapeChar] at heq
  · simp only [List.mem_cons, List.not_mem_nil, or_false, not_or] at hn
    obtain ⟨h34, h92, h10, h13, h9, h12, h8⟩ := hn
    simp only [escapeChar, if_neg h34, if_neg h92, if_neg h10, if_neg h13, if_neg h9, if_neg h12,
      if_neg h8] at heq
    split at heq
    · rename_i h
      simp only [List.cons_append, List.nil_append, List.cons.injEq, true_and] at heq
      obtain ⟨rfl, rfl, rfl, rfl, _⟩ := heq
      exact ⟨n, hex4_control h, isLowSurrogate_eq_false (by omega)⟩
    · exact absurd (List.cons.inj heq).1 h92

/-- What the ASCII text of a string starts with, when it is no low surrogate. -/
theorem noLow_escapeAscii {n : ℕ} (h : isLowSurrogate n = false) (r : Str) :
    NoLow (escapeAscii n ++ r) := by
  unfold escapeAscii
  split
  · exact noLow_escapeChar n r
  · split
    · rename_i hlt
      exact noLow_escapeUnit hlt h r
    · rw [List.append_assoc]
      exact noLow_escapeUnit (by omega) (isLowSurrogate_eq_false (by omega)) _

/-- An escaped character is read back. -/
theorem scanString_escapeAscii {n : ℕ} {r : Str} (h : isHighSurrogate n = false ∨ NoLow r) :
    scanString (escapeAscii n ++ r) = (scanString r).map fun (s, r) => (n :: s, r) := by
  unfold escapeAscii
  split
  · exact scanString_escapeChar n r
  · split
    · rename_i hlt
      exact scanString_escapeUnit hlt h
    · rename_i hn hlt
      rw [List.append_assoc, scanString_pair]
      · have hjoin : 0x10000 + (0xD800 + (n - 0x10000) / 0x400 - 0xD800) * 0x400 +
            (0xDC00 + (n - 0x10000) % 0x400 - 0xDC00) = n := by omega
        simp only [hjoin]
      · simp only [isHighSurrogate, Bool.and_eq_true, decide_eq_true_eq]
        omega
      · simp only [isLowSurrogate, Bool.and_eq_true, decide_eq_true_eq]
        omega

/-- **An ASCII string is read back with its surrogates joined.** -/
theorem asciiText_readsAs : ReadsAs asciiText joinSurrogates := by
  refine fun s => ⟨_, rfl, fun r => ?_⟩
  rw [List.append_assoc, List.singleton_append]
  fun_induction joinSurrogates s with
  | case1 u u' s hpair ih =>
      rw [Bool.and_eq_true] at hpair
      have hbounds := hpair
      simp only [isHighSurrogate, isLowSurrogate, Bool.and_eq_true, decide_eq_true_eq] at hbounds
      have hunit : ∀ {n : ℕ}, 127 ≤ n → n < 0x10000 → escapeAscii n = escapeUnit n := by
        intro n h127 hlt
        rw [escapeAscii, if_neg (by omega), if_pos hlt]
      rw [List.flatMap_cons, List.flatMap_cons, List.append_assoc, List.append_assoc,
        hunit (by omega) (by omega), hunit (by omega) (by omega), scanString_pair hpair.1 hpair.2, ih]
      rfl
  | case2 u u' s hpair ih =>
      have hsep : isHighSurrogate u = false ∨ isLowSurrogate u' = false := by
        rwa [Bool.and_eq_true, not_and_or, Bool.not_eq_true, Bool.not_eq_true] at hpair
      rw [List.flatMap_cons, List.append_assoc, scanString_escapeAscii, ih]
      · rfl
      · refine hsep.imp_right fun h => ?_
        rw [List.flatMap_cons, List.append_assoc]
        exact noLow_escapeAscii h _
  | case3 s hs =>
      cases s with
      | nil => rfl
      | cons u s =>
          cases s with
          | nil =>
              rw [List.flatMap_cons, List.append_assoc, List.flatMap_nil, List.nil_append,
                scanString_escapeAscii (Or.inr ?_)]
              · rfl
              · rintro a b c d t ⟨⟩
          | cons u' s => exact absurd rfl (hs u u' s)

/-! ## Values -/

/-- What the text of a value starts with. -/
def ValueHead (t : Str) : Prop :=
  ∃ c t', t = c :: t' ∧ isSpace c = false ∧ c ≠ 93 ∧ c ≠ 125

/-- A number begins with a sign or a digit. -/
theorem numberHead {sign int t : Str} (hs : sign = [] ∨ sign = [45]) (hi : IntPart int) :
    ∃ c t', sign ++ (int ++ t) = c :: t' ∧ (isDigit c = true ∨ c = 45 ∧ ∃ d t'',
      t' = d :: t'' ∧ isDigit d = true) := by
  have hint : ∃ d ds, int = d :: ds ∧ isDigit d = true := by
    rcases hi with rfl | ⟨d, ds, rfl, _, hd, _⟩
    · exact ⟨48, [], rfl, rfl⟩
    · exact ⟨d, ds, rfl, hd⟩
  obtain ⟨d, ds, rfl, hd⟩ := hint
  rcases hs with rfl | rfl
  · exact ⟨d, ds ++ t, rfl, Or.inl hd⟩
  · exact ⟨45, d :: (ds ++ t), rfl, Or.inr ⟨rfl, d, _, rfl, hd⟩⟩

/-- A number is no constant, string, array or object. -/
theorem parseValue_number [PyFloat F] (hooks : Hooks F) {s int t : Str}
    (hs : s = [] ∨ s = [45]) (hi : IntPart int) (n : ℕ) :
    parseValue hooks (n + 1) (s ++ (int ++ t)) = scanNumber (s ++ (int ++ t)) := by
  obtain ⟨c, t', heq, hc⟩ := numberHead (t := t) hs hi
  rw [heq]
  have hword : ∀ w : Str, ∀ d w', w = d :: w' → isDigit d = false →
      (d = 45 → ∃ e w'', w' = e :: w'' ∧ isDigit e = false) → scanWord w (c :: t') = none := by
    rintro _ d w' rfl hd h45
    refine if_neg fun hp => ?_
    rw [List.cons_prefix_cons] at hp
    obtain ⟨rfl, hp⟩ := hp
    rcases hc with hc | ⟨rfl, e, t'', rfl, he⟩
    · rw [hd] at hc
      cases hc
    · obtain ⟨f, w'', rfl, hf⟩ := h45 rfl
      rw [List.cons_prefix_cons] at hp
      obtain ⟨rfl, _⟩ := hp
      rw [hf] at he
      cases he
  have hconst : scanConstant hooks (c :: t') = none := by
    have hnull := hword (ofChars ['n', 'u', 'l', 'l']) _ _ rfl rfl
      (fun h => absurd h (by decide))
    have htrue := hword (ofChars ['t', 'r', 'u', 'e']) _ _ rfl rfl
      (fun h => absurd h (by decide))
    have hfalse := hword (ofChars ['f', 'a', 'l', 's', 'e']) _ _ rfl rfl
      (fun h => absurd h (by decide))
    have hnan := hword (ofChars ['N', 'a', 'N']) _ _ rfl rfl
      (fun h => absurd h (by decide))
    have hinf := hword (ofChars ['I', 'n', 'f', 'i', 'n', 'i', 't', 'y']) _ _ rfl rfl
      (fun h => absurd h (by decide))
    have hneg := hword (ofChars ['-', 'I', 'n', 'f', 'i', 'n', 'i', 't', 'y']) _ _ rfl rfl
      (fun _ => ⟨_, _, rfl, rfl⟩)
    simp only [scanConstant, hnull, htrue, hfalse, hnan, hinf, hneg]
  have hhead : c ≠ 34 ∧ c ≠ 91 ∧ c ≠ 123 := by
    rcases hc with hc | ⟨rfl, _⟩
    · refine ⟨?_, ?_, ?_⟩ <;> rintro rfl <;> cases hc
    · decide
  rw [parseValue]
  · rw [hconst]
  · exact fun _ h => hhead.1 (List.cons.inj h).1
  · exact fun _ h => hhead.2.1 (List.cons.inj h).1
  · exact fun _ h => hhead.2.2 (List.cons.inj h).1

/-- **An integer is read back.** -/
theorem parseValue_intRepr [PyFloat F] (hooks : Hooks F) {i : ℤ} {t r : Str}
    (ht : intRepr i = some t) (hr : Stops r) (n : ℕ) :
    parseValue hooks (n + 1) (t ++ r) = some (.int i, r) := by
  rw [← scanNumber_intRepr ht hr]
  obtain ⟨_, rfl⟩ := intRepr_eq ht
  cases i with
  | ofNat m => exact parseValue_number hooks (s := []) (Or.inl rfl) (natText_intPart m) n
  | negSucc m =>
      exact parseValue_number hooks (s := [45]) (Or.inr rfl) (natText_intPart (m + 1)) n

/-- **A float is read back.** -/
theorem parseValue_floatText [PyFloat F] (hooks : Hooks F) {x : F} {t r : Str}
    (ht : floatText x = some t) (hr : Stops r) (n : ℕ) :
    parseValue hooks (n + 1) (t ++ r) = some (.float x, r) := by
  have hscan := scanNumber_floatText ht hr
  unfold floatText at ht
  split at ht
  · rename_i hx
    obtain rfl := Option.some.inj ht
    obtain ⟨sign, int, frac, exp, heq, hs, hi, _⟩ := PyFloat.repr_floatText x hx
    rw [← hscan, heq, List.append_assoc, List.append_assoc, List.append_assoc]
    exact parseValue_number hooks hs hi n
  · cases ht

/-- The value's text is not skipped. -/
theorem ValueHead.skipSpace {t : Str} (h : ValueHead t) (r : Str) :
    skipSpace (t ++ r) = t ++ r := by
  obtain ⟨c, t', rfl, hc, _⟩ := h
  rw [Python.skipSpace, List.cons_append, List.dropWhile_cons, hc]
  rfl

/-- What begins a value begins it whatever follows. -/
theorem ValueHead.append {t : Str} (h : ValueHead t) (r : Str) : ValueHead (t ++ r) := by
  obtain ⟨c, t', rfl, hc⟩ := h
  exact ⟨c, _, rfl, hc⟩

/-- A value has a text. -/
theorem ValueHead.length_pos {t : Str} (h : ValueHead t) : 0 < t.length := by
  obtain ⟨c, t', rfl, _⟩ := h
  simp

section Dumps

variable [PyFloat F] {write read : Str → Str}

/-- The text of a whole array but for its opening bracket. -/
theorem dumps_list {v : Value F} {items : List (Value F)} {t : Str}
    (h : dumpsWith write (.list (v :: items)) = some t) :
    ∃ u w, dumpsWith write v = some u ∧ dumpsItems write items = some w ∧ t = 91 :: (u ++ w) := by
  rw [dumpsWith.eq_def] at h
  simp only [Option.bind_eq_bind, Option.bind_eq_some_iff, Option.pure_def,
    Option.some.injEq] at h
  obtain ⟨u, hu, w, hw, rfl⟩ := h
  exact ⟨u, w, hu, hw, rfl⟩

/-- A tuple is written as a list. -/
theorem dumps_tuple (items : List (Value F)) :
    dumpsWith write (.tuple items) = dumpsWith write (.list items) := by
  cases items <;> rw [dumpsWith, dumpsWith]

/-- The text of one more item. -/
theorem dumpsItems_cons {v : Value F} {items : List (Value F)} {t : Str}
    (h : dumpsItems write (v :: items) = some t) :
    ∃ u w, dumpsWith write v = some u ∧ dumpsItems write items = some w ∧ t = 44 :: (u ++ w) := by
  rw [dumpsItems] at h
  simp only [Option.bind_eq_bind, Option.bind_eq_some_iff, Option.pure_def,
    Option.some.injEq] at h
  obtain ⟨u, hu, w, hw, rfl⟩ := h
  exact ⟨u, w, hu, hw, rfl⟩

/-- The text of a whole object but for its opening brace. -/
theorem dumps_dict {k : Key F} {v : Value F} {items : List (Key F × Value F)} {t : Str}
    (h : dumpsWith write (.dict ((k, v) :: items)) = some t) :
    ∃ kt u w, keyText k = some kt ∧ dumpsWith write v = some u ∧
      dumpsMembers write items = some w ∧ t = 123 :: (write kt ++ 58 :: (u ++ w)) := by
  rw [dumpsWith.eq_def] at h
  simp only [Option.bind_eq_bind, Option.bind_eq_some_iff, Option.pure_def,
    Option.some.injEq] at h
  obtain ⟨kt, hk, u, hu, w, hw, rfl⟩ := h
  exact ⟨kt, u, w, hk, hu, hw, by simp⟩

/-- The text of one more member. -/
theorem dumpsMembers_cons {k : Key F} {v : Value F} {items : List (Key F × Value F)} {t : Str}
    (h : dumpsMembers write ((k, v) :: items) = some t) :
    ∃ kt u w, keyText k = some kt ∧ dumpsWith write v = some u ∧
      dumpsMembers write items = some w ∧ t = 44 :: (write kt ++ 58 :: (u ++ w)) := by
  rw [dumpsMembers] at h
  simp only [Option.bind_eq_bind, Option.bind_eq_some_iff, Option.pure_def,
    Option.some.injEq] at h
  obtain ⟨kt, hk, u, hu, w, hw, rfl⟩ := h
  exact ⟨kt, u, w, hk, hu, hw, by simp⟩

/-- **The text of a value is not empty and starts no white space or end.** -/
theorem valueHead_of_dumps (hwrite : ReadsAs write read) {v : Value F} {t : Str}
    (h : dumpsWith write v = some t) : ValueHead t := by
  have hnum : ∀ {sign int u : Str}, (sign = [] ∨ sign = [45]) → IntPart int →
      ValueHead (sign ++ (int ++ u)) := by
    intro sign int u hs hi
    obtain ⟨c, t', heq, hc⟩ := numberHead (t := u) hs hi
    refine ⟨c, t', heq, ?_⟩
    rcases hc with hc | ⟨rfl, _⟩
    · simp only [isDigit, Bool.and_eq_true, decide_eq_true_eq] at hc
      refine ⟨?_, by omega, by omega⟩
      simp only [isSpace, Bool.or_eq_false_iff, decide_eq_false_iff_not]
      omega
    · decide
  have hlist : ∀ {items : List (Value F)}, dumpsWith write (.list items) = some t →
      ValueHead t := by
    intro items h
    cases items with
    | nil =>
        rw [dumpsWith] at h
        obtain rfl := Option.some.inj h
        exact ⟨_, _, rfl, by decide⟩
    | cons v items =>
        obtain ⟨u, w, _, _, rfl⟩ := dumps_list h
        exact ⟨_, _, rfl, by decide⟩
  cases v with
  | none =>
      rw [dumpsWith] at h
      obtain rfl := Option.some.inj h
      exact ⟨_, _, rfl, by decide⟩
  | bool b =>
      cases b <;>
      · rw [dumpsWith] at h
        obtain rfl := Option.some.inj h
        exact ⟨_, _, rfl, by decide⟩
  | int i =>
      rw [dumpsWith] at h
      obtain ⟨_, rfl⟩ := intRepr_eq h
      cases i with
      | ofNat m => simpa [intText] using hnum (u := []) (Or.inl rfl) (natText_intPart m)
      | negSucc m => simpa [intText] using hnum (u := []) (Or.inr rfl) (natText_intPart (m + 1))
  | float x =>
      rw [dumpsWith] at h
      unfold floatText at h
      split at h
      · rename_i hx
        obtain rfl := Option.some.inj h
        obtain ⟨sign, int, frac, exp, heq, hs, hi, _⟩ := PyFloat.repr_floatText x hx
        rw [heq, List.append_assoc, List.append_assoc]
        exact hnum hs hi
      · cases h
  | str s =>
      rw [dumpsWith] at h
      obtain rfl := Option.some.inj h
      obtain ⟨u, hu, _⟩ := hwrite s
      exact ⟨_, _, hu, by decide⟩
  | list items => exact hlist h
  | tuple items =>
      rw [dumps_tuple] at h
      exact hlist h
  | dict items =>
      cases items with
      | nil =>
          rw [dumpsWith] at h
          obtain rfl := Option.some.inj h
          exact ⟨_, _, rfl, by decide⟩
      | cons p items =>
          obtain ⟨kt, u, w, _, _, _, rfl⟩ := dumps_dict (k := p.1) (v := p.2) h
          exact ⟨_, _, rfl, by decide⟩

end Dumps

section Reread

variable [PyFloat F] (hooks : Hooks F) (read : Str → Str)

mutual

/-- What comes back of a value that was written. -/
def reread : Value F → Option (Value F)
  | .str s => some (.str (read s))
  | .list items | .tuple items => (rereadItems items).map .list
  | .dict items => (rereadMembers items).bind hooks.object
  | .none => some .none
  | .bool b => some (.bool b)
  | .int i => some (.int i)
  | .float x => some (.float x)

/-- The items that are read. -/
def rereadItems : List (Value F) → Option (List (Value F))
  | [] => some []
  | v :: items => do return (← reread v) :: (← rereadItems items)

/-- The pairs the hook gets. -/
def rereadMembers : List (Key F × Value F) → Option (List (Str × Value F))
  | [] => some []
  | (k, v) :: items => do
      return (read (← keyText k), ← reread v) :: (← rereadMembers items)

end

end Reread

section Parse

variable [PyFloat F] {hooks : Hooks F} {write read : Str → Str}

/-- Reading an array with items. -/
theorem parseValue_list {t : Str} {n : ℕ} (ht : ValueHead t) :
    parseValue hooks (n + 1) (91 :: t) =
      (parseItems hooks n t).map fun (items, r) => (.list items, r) := by
  have hskip := ht.skipSpace []
  obtain ⟨c, t', rfl, _, h93, _⟩ := ht
  rw [List.append_nil] at hskip
  rw [parseValue, hskip]
  split
  · rename_i heq
    exact absurd (List.cons.inj heq).1 h93
  · rfl

/-- Reading an object with members. -/
theorem parseValue_dict {t : Str} {n : ℕ} :
    parseValue hooks (n + 1) (123 :: 34 :: t) =
      (parseMembers hooks n (34 :: t)).bind fun (pairs, r) =>
        (hooks.object pairs).map fun v => (v, r) := by
  have hskip : skipSpace (34 :: t) = 34 :: t := rfl
  rw [parseValue, hskip]
  simp only [Option.bind_eq_bind, Option.pure_def]
  congr
  funext p
  cases hooks.object p.1 <;> rfl

variable (hooks) in
/-- What follows a member. -/
def afterMember (n : ℕ) (k : Str) (v : Value F) (r : Str) : Option (List (Str × Value F) × Str) :=
  match skipSpace r with
  | 125 :: r => some ([(k, v)], r)
  | 44 :: r => (parseMembers hooks n (skipSpace r)).map fun (pairs, r) => ((k, v) :: pairs, r)
  | _ => none

/-- Reading the first member of an object. -/
theorem parseMembers_first (hwrite : ReadsAs write read) {k u : Str} {n : ℕ} (hu : ValueHead u) :
    parseMembers hooks (n + 1) (write k ++ 58 :: u) =
      (parseValue hooks n u).bind fun (v, r) => afterMember hooks n (read k) v r := by
  have hskip := hu.skipSpace []
  rw [List.append_nil] at hskip
  obtain ⟨t, ht, hscan⟩ := hwrite k
  have hcolon : skipSpace (58 :: u) = 58 :: u := rfl
  rw [ht, List.cons_append, parseMembers]
  simp only [hscan, Option.bind_eq_bind, Option.bind_some, hcolon, hskip]
  congr
  funext p
  unfold afterMember
  generalize skipSpace p.2 = rest
  split
  · rfl
  · have hmembers : ∀ o : Option (List (Str × Value F) × Str),
        (o.bind fun a => pure ((read k, p.1) :: a.1, a.2)) =
          o.map fun a => ((read k, p.1) :: a.1, a.2) := fun o => by cases o <;> rfl
    exact hmembers _
  · rename_i h125 h44
    simp_all

mutual

/-- **A value is read as what comes back of it, whatever stops it.** -/
theorem parseValue_dumps (hwrite : ReadsAs write read) :
    ∀ (v : Value F) {t r : Str} {n : ℕ}, dumpsWith write v = some t → Stops r → t.length < n →
      parseValue hooks n (t ++ r) = (reread hooks read v).map fun v => (v, r)
  | v, t, r, 0, _, _, hn => absurd hn (Nat.not_lt_zero _)
  | .none, t, r, n + 1, h, _, _ => by
      rw [dumpsWith] at h
      obtain rfl := Option.some.inj h
      rw [reread]
      rfl
  | .bool true, t, r, n + 1, h, _, _ => by
      rw [dumpsWith] at h
      obtain rfl := Option.some.inj h
      rw [reread]
      rfl
  | .bool false, t, r, n + 1, h, _, _ => by
      rw [dumpsWith] at h
      obtain rfl := Option.some.inj h
      rw [reread]
      rfl
  | .int i, t, r, n + 1, h, hr, _ => by
      rw [dumpsWith] at h
      rw [reread]
      exact parseValue_intRepr hooks h hr n
  | .float x, t, r, n + 1, h, hr, _ => by
      rw [dumpsWith] at h
      rw [reread]
      exact parseValue_floatText hooks h hr n
  | .str s, t, r, n + 1, h, _, _ => by
      rw [dumpsWith] at h
      obtain rfl := Option.some.inj h
      obtain ⟨u, hu, hscan⟩ := hwrite s
      rw [hu, List.cons_append, parseValue, hscan, reread]
      rfl
  | .tuple items, t, r, n + 1, h, hr, hn => by
      rw [dumps_tuple] at h
      exact parseArray_dumps hwrite items h hn
  | .list items, t, r, n + 1, h, hr, hn => parseArray_dumps hwrite items h hn
  | .dict [], t, r, n + 1, h, _, _ => by
      rw [dumpsWith] at h
      obtain rfl := Option.some.inj h
      have hskip : skipSpace (125 :: r) = 125 :: r := rfl
      rw [List.cons_append, List.cons_append, List.nil_append, parseValue, hskip, reread,
        rereadMembers]
      rfl
  | .dict ((k, v) :: items), t, r, n + 1, h, _, hn => by
      obtain ⟨kt, u, w, hk, hu, hw, rfl⟩ := dumps_dict h
      have hm := parseMembers_dumps hwrite ((k, v) :: items) (r := r) (n := n) rfl hk hu hw
        (by simp only [List.length_cons] at hn; omega)
      obtain ⟨x, hx, _⟩ := hwrite kt
      have htext : 123 :: (write kt ++ 58 :: (u ++ w)) ++ r =
          123 :: 34 :: (x ++ 58 :: (u ++ (w ++ r))) := by simp [hx]
      rw [htext, parseValue_dict]
      rw [hx, List.cons_append] at hm
      rw [hm, reread]
      cases rereadMembers hooks read ((k, v) :: items) <;> rfl

/-- An array is read back. -/
theorem parseArray_dumps (hwrite : ReadsAs write read) :
    ∀ (items : List (Value F)) {t r : Str} {n : ℕ}, dumpsWith write (.list items) = some t →
      t.length < n + 1 →
      parseValue hooks (n + 1) (t ++ r) =
        ((rereadItems hooks read items).map .list).map fun v => (v, r)
  | [], t, r, n, h, _ => by
      rw [dumpsWith] at h
      obtain rfl := Option.some.inj h
      have hskip : skipSpace (93 :: r) = 93 :: r := rfl
      rw [List.cons_append, List.cons_append, List.nil_append, parseValue, hskip, rereadItems]
      rfl
  | v :: items, t, r, n, h, hn => by
      obtain ⟨u, w, hu, hw, rfl⟩ := dumps_list h
      have hhead := (valueHead_of_dumps hwrite hu).append (w ++ r)
      have hitems := parseItems_dumps hwrite (v :: items) (r := r) (n := n) rfl hu hw
        (by simpa using hn)
      rw [List.cons_append, List.append_assoc, parseValue_list hhead, hitems]
      cases rereadItems hooks read (v :: items) <;> rfl

/-- The items of an array are read back. -/
theorem parseItems_dumps (hwrite : ReadsAs write read) :
    ∀ (items : List (Value F)) {v : Value F} {l : List (Value F)} {u w r : Str} {n : ℕ},
      items = v :: l → dumpsWith write v = some u → dumpsItems write l = some w →
      (u ++ w).length < n →
      parseItems hooks n (u ++ (w ++ r)) =
        (rereadItems hooks read items).map fun items => (items, r)
  | [], _, _, _, _, _, _, h, _, _, _ => nomatch h
  | _, _, _, _, _, _, 0, _, _, _, hn => absurd hn (Nat.not_lt_zero _)
  | v :: [], _, _, u, w, r, n + 1, rfl, hu, hw, hn => by
      rw [dumpsItems] at hw
      obtain rfl := Option.some.inj hw
      have hval := parseValue_dumps hwrite v (r := 93 :: r) (n := n) hu
        (stops_cons (Or.inr (Or.inl rfl))) (by simpa using hn)
      have hskip : skipSpace (93 :: r) = 93 :: r := rfl
      rw [parseItems, List.cons_append, List.nil_append, hval, rereadItems, rereadItems]
      cases reread hooks read v with
      | none => rfl
      | some v => simp [hskip]
  | v :: v' :: l, _, _, u, w, r, n + 1, rfl, hu, hw, hn => by
      obtain ⟨u', w', hu', hw', rfl⟩ := dumpsItems_cons hw
      simp only [List.length_append, List.length_cons] at hn
      have hpos := (valueHead_of_dumps hwrite hu).length_pos
      have hval := parseValue_dumps hwrite v (r := 44 :: (u' ++ (w' ++ r))) (n := n) hu
        (stops_cons (Or.inl rfl)) (by omega)
      have hrest := parseItems_dumps hwrite (v' :: l) (r := r) (n := n) rfl hu' hw'
        (by rw [List.length_append]; omega)
      have hskip : skipSpace (44 :: (u' ++ (w' ++ r))) = 44 :: (u' ++ (w' ++ r)) := rfl
      have hskip' := (valueHead_of_dumps hwrite hu').skipSpace (w' ++ r)
      have htext : u ++ (44 :: (u' ++ w') ++ r) = u ++ 44 :: (u' ++ (w' ++ r)) := by simp
      rw [htext, parseItems, hval, rereadItems]
      cases reread hooks read v with
      | none => rfl
      | some v =>
          simp only [Option.map_some, Option.bind_eq_bind, Option.bind_some, hskip, hskip', hrest]
          cases rereadItems hooks read (v' :: l) <;> rfl

/-- The members of an object are read back. -/
theorem parseMembers_dumps (hwrite : ReadsAs write read) :
    ∀ (items : List (Key F × Value F)) {k : Key F} {v : Value F} {l : List (Key F × Value F)}
      {kt u w r : Str} {n : ℕ},
      items = (k, v) :: l → keyText k = some kt → dumpsWith write v = some u →
      dumpsMembers write l = some w → (write kt ++ 58 :: (u ++ w)).length < n →
      parseMembers hooks n (write kt ++ 58 :: (u ++ (w ++ r))) =
        (rereadMembers hooks read items).map fun pairs => (pairs, r)
  | [], _, _, _, _, _, _, _, _, h, _, _, _, _ => nomatch h
  | _, _, _, _, _, _, _, _, 0, _, _, _, _, hn => absurd hn (Nat.not_lt_zero _)
  | (k, v) :: [], _, _, _, kt, u, w, r, n + 1, rfl, hk, hu, hw, hn => by
      rw [dumpsMembers] at hw
      obtain rfl := Option.some.inj hw
      simp only [List.length_append, List.length_cons] at hn
      have hval := parseValue_dumps hwrite v (r := 125 :: r) (n := n) hu
        (stops_cons (Or.inr (Or.inr rfl))) (by omega)
      have hhead := (valueHead_of_dumps hwrite hu).append (125 :: r)
      rw [List.cons_append, List.nil_append, parseMembers_first hwrite hhead, hval, rereadMembers,
        rereadMembers, hk]
      cases reread hooks read v <;> rfl
  | (k, v) :: (k', v') :: l, _, _, _, kt, u, w, r, n + 1, rfl, hk, hu, hw, hn => by
      obtain ⟨kt', u', w', hk', hu', hw', rfl⟩ := dumpsMembers_cons hw
      simp only [List.length_append, List.length_cons] at hn
      have hm := parseMembers_dumps hwrite ((k', v') :: l) (r := r) (n := n) rfl hk' hu' hw'
        (by simp only [List.length_append, List.length_cons]; omega)
      obtain ⟨x, hx, _⟩ := hwrite kt'
      have htext : u ++ (44 :: (write kt' ++ 58 :: (u' ++ w')) ++ r) =
          u ++ 44 :: (write kt' ++ 58 :: (u' ++ (w' ++ r))) := by simp
      have hval := parseValue_dumps hwrite v (n := n)
        (r := 44 :: (write kt' ++ 58 :: (u' ++ (w' ++ r)))) hu (stops_cons (Or.inl rfl)) (by omega)
      have hhead := (valueHead_of_dumps hwrite hu).append
        (44 :: (write kt' ++ 58 :: (u' ++ (w' ++ r))))
      have hskip : skipSpace (44 :: (write kt' ++ 58 :: (u' ++ (w' ++ r)))) =
          44 :: (write kt' ++ 58 :: (u' ++ (w' ++ r))) := rfl
      have hskip' : skipSpace (write kt' ++ 58 :: (u' ++ (w' ++ r))) =
          write kt' ++ 58 :: (u' ++ (w' ++ r)) := by
        rw [hx]
        rfl
      rw [htext, parseMembers_first hwrite hhead, hval, rereadMembers, hk]
      cases reread hooks read v with
      | none => rfl
      | some v =>
          simp only [Option.map_some, Option.bind_eq_bind, Option.bind_some, afterMember, hskip,
            hskip', hm]
          cases rereadMembers hooks read ((k', v') :: l) <;> rfl

end

/-- **What `json.dumps` writes of a value, `json.loads` reads as what comes back
of it.** -/
theorem loadsWith_dumpsWith (hwrite : ReadsAs write read) {v : Value F} {t : Str}
    (h : dumpsWith write v = some t) : loadsWith hooks t = reread hooks read v := by
  have hskip := (valueHead_of_dumps hwrite h).skipSpace []
  have hval : parseValue hooks (t.length + 1) (t ++ []) =
      (reread hooks read v).map fun v => (v, []) :=
    parseValue_dumps hwrite v h stops_nil (Nat.lt_succ_self _)
  rw [List.append_nil] at hskip hval
  rw [loadsWith, hskip, hval]
  cases reread hooks read v <;> rfl

/-- The items of a dict of `json.loads`. -/
def members (pairs : List (Str × Value F)) : List (Key F × Value F) :=
  pairs.map fun p => (.str p.1, p.2)

mutual

/-- What `json.loads` can make comes back unchanged. -/
theorem reread_native
    (hhook : ∀ pairs, (pairs.map Prod.fst).Nodup → hooks.object pairs = some (.dict (members pairs))) :
    ∀ (v : Value F), v.Native → reread hooks id v = some v
  | .none, _ => rfl
  | .bool _, _ => rfl
  | .int _, _ => rfl
  | .float _, _ => rfl
  | .str _, _ => rfl
  | .tuple _, hv => absurd hv id
  | .list items, hv => by
      rw [reread, rereadItems_native hhook items hv]
      rfl
  | .dict items, hv => by
      obtain ⟨pairs, rfl, hm⟩ := rereadMembers_native hhook items hv.1
      rw [reread, hm]
      refine hhook pairs ?_
      have hmap : (members pairs).map Prod.fst = (pairs.map Prod.fst).map (Key.str (F := F)) := by
        simp [members, List.map_map, Function.comp_def]
      have hkeys := hv.2
      rw [hmap] at hkeys
      exact hkeys.of_map

/-- Native items are read as they were written. -/
theorem rereadItems_native
    (hhook : ∀ pairs, (pairs.map Prod.fst).Nodup → hooks.object pairs = some (.dict (members pairs))) :
    ∀ (items : List (Value F)), Value.NativeItems items → rereadItems hooks id items = some items
  | [], _ => rfl
  | v :: items, hv => by
      rw [rereadItems, reread_native hhook v hv.1, rereadItems_native hhook items hv.2]
      rfl

/-- So are native members. -/
theorem rereadMembers_native
    (hhook : ∀ pairs, (pairs.map Prod.fst).Nodup → hooks.object pairs = some (.dict (members pairs))) :
    ∀ (items : List (Key F × Value F)), Value.NativeMembers items →
      ∃ pairs, members pairs = items ∧ rereadMembers hooks id items = some pairs
  | [], _ => ⟨[], rfl, rfl⟩
  | (k, v) :: items, hv => by
      obtain ⟨k, rfl⟩ := hv.1
      obtain ⟨pairs, hpairs, hm⟩ := rereadMembers_native hhook items hv.2.2
      refine ⟨(k, v) :: pairs, congrArg _ hpairs, ?_⟩
      rw [rereadMembers, reread_native hhook v hv.2.1, hm]
      rfl

end

/-- **What `json.dumps` writes of a value `json.loads` can make, `json.loads`
reads as that value**, with every hook that makes a dict of distinct names. -/
theorem loads_dumps {hook : List (Str × Value F) → Option (Value F)}
    (hhook : ∀ pairs, (pairs.map Prod.fst).Nodup → hook pairs = some (.dict (members pairs)))
    {v : Value F} {t : Str} (hv : v.Native) (h : dumps v = some t) : loads hook t = some v := by
  rw [loads, loadsWith_dumpsWith stringText_readsAs h]
  exact reread_native hhook v hv

end Parse

end Python
end Paqto
