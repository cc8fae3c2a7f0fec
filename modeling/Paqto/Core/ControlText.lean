/-
# Which identifiers fit a control frame

`encode_acknowledgement_frame` takes any non-empty string, and fails for two
kinds of them: those with a lone surrogate, which UTF-8 cannot encode, and those
whose quoted text is too long (`encodeAcknowledgementFrame_ok_iff`).
-/

import Paqto.Core.Portable
import Paqto.Python.JsonAtoms

namespace Paqto
namespace Core

open Python

variable {F : Type} [PyFloat F]

/-- The payload of an acknowledgement. -/
def acknowledgementPayload (messageId : Str) : List (Key F × Value F) :=
  [(.str magicKey, .str protocolMagic), (.str typeKey, .str ackType),
    (.str messageIdKey, .str messageId)]

/-- The text before the quoted id. -/
def acknowledgementHead : Str :=
  123 :: stringText magicKey ++ 58 :: stringText protocolMagic ++
    (44 :: stringText typeKey ++ 58 :: stringText ackType ++ (44 :: stringText messageIdKey ++ [58]))

/-- The number of bytes of the payload of an acknowledgement. -/
def acknowledgementSize (messageId : Str) : ℕ := 44 + utf8Length (stringText messageId)

/-- **The text of an ACK.** -/
theorem dumps_acknowledgementPayload (messageId : Str) :
    dumps (.dict (acknowledgementPayload (F := F) messageId)) =
      some (acknowledgementHead ++ (stringText messageId ++ [125])) := by
  simp [dumps, acknowledgementPayload, dumpsWith, dumpsMembers, keyText, acknowledgementHead]

/-- Its length. -/
theorem utf8Length_acknowledgement (messageId : Str) :
    utf8Length (acknowledgementHead ++ (stringText messageId ++ [125])) =
      acknowledgementSize messageId := by
  have hhead : utf8Length acknowledgementHead = 43 := by decide
  have htail : utf8Length [125] = 1 := by decide
  rw [utf8Length_append, utf8Length_append, hhead, htail, acknowledgementSize]
  omega

/-- It is encodable when the id is. -/
theorem encodable_acknowledgement (messageId : Str) :
    Encodable (acknowledgementHead ++ (stringText messageId ++ [125])) ↔ Encodable messageId := by
  have hhead : Encodable acknowledgementHead := by decide
  have htail : Encodable [125] := by decide
  rw [encodable_append, encodable_append, encodable_stringText]
  exact ⟨fun h => h.2.1, fun h => ⟨hhead, h, htail⟩⟩

/-- **An id is acknowledged when UTF-8 can encode it and its frame is small
enough.** -/
theorem encodeAcknowledgementFrame_ok_iff (messageId : Identifier) :
    (∃ frame, encodeAcknowledgementFrame (F := F) messageId = .ok frame) ↔
      Encodable messageId.1 ∧ acknowledgementSize messageId.1 ≤ maxControlPayloadSize := by
  have hsafe : isSafeJsonValue (.dict (acknowledgementPayload (F := F) messageId.1)) = true :=
    (isSafeJsonValue_iff _).2 ⟨by decide, trivial, trivial, trivial, trivial⟩
  have hencode : encodeAcknowledgementFrame (F := F) messageId =
      encodeControl (acknowledgementPayload (F := F) messageId.1) := rfl
  rw [hencode, encodeControl, if_pos hsafe, dumps_acknowledgementPayload, Option.bind_some,
    ← encodable_acknowledgement, ← encodeUtf8_eq_some]
  cases hutf : encodeUtf8 (acknowledgementHead ++ (stringText messageId.1 ++ [125])) with
  | none => simp
  | some encoded =>
      have hlen : encoded.length = acknowledgementSize messageId.1 :=
        (encodeUtf8_length hutf).trans (utf8Length_acknowledgement messageId.1)
      by_cases hsize : acknowledgementSize messageId.1 > maxControlPayloadSize
      · simp [hlen, hsize]
      · simp [hlen, hsize, Nat.le_of_not_lt hsize]

end Core
end Paqto
