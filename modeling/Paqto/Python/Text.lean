/-
# Python strings and UTF-8

A `str` is a sequence of code points, lone surrogates included: `json.loads`
makes them from `\uD800`-style escapes, and `str.encode("utf-8")` refuses them.
Bytes are decoded strictly, as `bytes.decode("utf-8")` does; the codec itself
is the one of `String`.
-/

import Mathlib.Data.List.Basic

namespace Paqto
namespace Python

/-- A `str`, code point by code point. -/
abbrev Str := List ℕ

/-- A `bytes`. -/
abbrev Bytes := List UInt8

/-- `text in texts` -/
instance decidableMem (s : Str) (texts : List Str) : Decidable (s ∈ texts) :=
  List.instDecidableMemOfLawfulBEq s texts

/-- A literal. -/
def ofChars (l : List Char) : Str := l.map Char.toNat

/-- `str.encode("utf-8")`; `none` is `UnicodeEncodeError`. -/
def encodeUtf8 (s : Str) : Option Bytes :=
  if ∀ n ∈ s, n.isValidChar then some ((s.map Char.ofNat).flatMap String.utf8EncodeChar) else none

/-- `bytes.decode("utf-8")`; `none` is `UnicodeDecodeError`. -/
def decodeUtf8 (b : Bytes) : Option Str :=
  b.toByteArray.utf8Decode?.map fun a => ofChars a.toList

/-- A valid code point is that of its character. -/
theorem toNat_ofNat {n : ℕ} (h : n.isValidChar) : (Char.ofNat n).toNat = n := by
  rw [Char.ofNat, dif_pos h]
  rfl

/-- **What was encoded is decoded.** -/
theorem decodeUtf8_encodeUtf8 {s : Str} {b : Bytes} (h : encodeUtf8 s = some b) :
    decodeUtf8 b = some s := by
  unfold encodeUtf8 at h
  split at h
  · rename_i hs
    obtain rfl := Option.some.inj h
    have hdec : ((s.map Char.ofNat).flatMap String.utf8EncodeChar).toByteArray.utf8Decode? =
        some (s.map Char.ofNat).toArray := List.utf8Decode?_utf8Encode
    have hmap : s.map (Char.toNat ∘ Char.ofNat) = s.map id :=
      List.map_congr_left fun n hn => toNat_ofNat (hs n hn)
    rw [decodeUtf8, hdec, Option.map_some, ofChars, List.map_map, hmap, List.map_id]
  · cases h

end Python
end Paqto
