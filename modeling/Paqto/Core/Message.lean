/-
# Message envelopes and the adapters that encode them

`Message` (`core/message.py`), its validation in `core/node.py` and the
`Serializer` interface (`core/serializer.py`).  Nothing checks an envelope when
it is built, so an attribute may hold any object; the node only asks whether it
is `None` or a string, and `other` is any other object.

`created_at` is data of the application like `payload`: the node passes both on
unread, and they are one value here.
-/

import Paqto.Core.Protocol

namespace Paqto
namespace Core

open Python

/-- A field of a message: absent, a string or something else. -/
inductive Attr
  | none
  | str (s : Str)
  | other
  deriving DecidableEq, Repr

/-- A non-empty string. -/
def Attr.identifier : Attr → Option Identifier
  | .str s => if h : s ≠ [] then some ⟨s, h⟩ else Option.none
  | _ => Option.none

/-- An identifier is a string that is not empty. -/
theorem Attr.identifier_eq_some {a : Attr} {i : Identifier} :
    a.identifier = some i ↔ a = .str i.1 := by
  constructor
  · intro h
    unfold identifier at h
    split at h
    · split at h <;> cases h
      rfl
    · cases h
  · rintro rfl
    simp [identifier, i.2]

/-- `None` or a non-empty string. -/
def Attr.isOptionalIdentifier (a : Attr) : Bool := a = .none || a.identifier.isSome

/-- `headers` is `none` when it is not a dict. -/
structure Message (P : Type) where
  payload : P
  type : Attr
  sender : Attr
  recipient : Attr
  headers : Option (List (Attr × Attr))
  id : Attr
  replyTo : Attr
  deriving DecidableEq, Repr

/-- What an adapter makes of a message and of received bytes; `none` stands for
every failure, all of which become `SerializationError`. -/
structure Serializer (P : Type) where
  serialize : Message P → Option Bytes
  deserialize : Bytes → Option (Message P)

/-- `direction` of `_validate_message_shape`. -/
inductive EnvelopeDirection
  | incoming
  | outgoing
  deriving DecidableEq, Repr

/-- The attribute a `ProtocolFrameError` about an envelope names. -/
inductive EnvelopeField
  | type
  | headers
  | sender
  | recipient
  | id
  | replyTo
  deriving DecidableEq, Repr

/-- A field that is refused, of a message that is written or read. -/
structure EnvelopeError where
  direction : EnvelopeDirection
  field : EnvelopeField
  deriving DecidableEq, Repr

/-- Headers map strings to strings. -/
def headersAreStrings : Option (List (Attr × Attr)) → Bool
  | none => false
  | some items => items.all fun
      | (.str _, .str _) => true
      | _ => false

variable {P : Type}

/-- The check of one attribute. -/
def EnvelopeField.passes (m : Message P) : EnvelopeField → Bool
  | type => m.type.identifier.isSome
  | headers => headersAreStrings m.headers
  | sender => m.sender.isOptionalIdentifier
  | recipient => m.recipient.isOptionalIdentifier
  | id => m.id.identifier.isSome
  | replyTo => m.replyTo.isOptionalIdentifier

/-- Check attributes in order. -/
def checkFields (direction : EnvelopeDirection) (m : Message P) :
    List EnvelopeField → Except EnvelopeError Unit
  | [] => .ok ()
  | f :: fields => if f.passes m then checkFields direction m fields else .error ⟨direction, f⟩

/-- `_validate_message_shape` -/
def validateMessageShape (m : Message P) (direction : EnvelopeDirection) :
    Except EnvelopeError Unit :=
  checkFields direction m [.type, .headers, .sender, .recipient]

/-- `_validate_outgoing_message` -/
def validateOutgoingMessage (m : Message P) : Except EnvelopeError Unit := do
  validateMessageShape m .outgoing
  checkFields .outgoing m [.id, .replyTo]

/-- `_validate_incoming_message` -/
def validateIncomingMessage (m : Message P) : Except EnvelopeError Unit := do
  validateMessageShape m .incoming
  checkFields .incoming m [.id, .replyTo]

/-- Every field passes. -/
theorem checkFields_ok {direction : EnvelopeDirection} {m : Message P}
    {fields : List EnvelopeField} :
    checkFields direction m fields = .ok () ↔ ∀ f ∈ fields, f.passes m := by
  induction fields with
  | nil => simp [checkFields]
  | cons f fields ih => by_cases hf : f.passes m <;> simp [checkFields, hf, ih]

/-- **An accepted envelope is well formed.** -/
theorem validateIncomingMessage_ok {m : Message P} :
    validateIncomingMessage m = .ok () ↔ ∀ f : EnvelopeField, f.passes m := by
  unfold validateIncomingMessage validateMessageShape
  constructor
  · intro h f
    cases hs : checkFields .incoming m [.type, .headers, .sender, .recipient] with
    | error e => simp [hs, bind, Except.bind] at h
    | ok u =>
        have h1 := checkFields_ok.1 hs
        have h2 := checkFields_ok.1 (by simpa [hs, bind, Except.bind] using h)
        cases f <;> first | exact h1 _ (by decide) | exact h2 _ (by decide)
  · intro h
    rw [checkFields_ok.2 fun f _ => h f]
    exact checkFields_ok.2 fun f _ => h f

/-- A message that the node sends is well formed. -/
theorem validateOutgoingMessage_ok {m : Message P} :
    validateOutgoingMessage m = .ok () ↔ ∀ f : EnvelopeField, f.passes m := by
  unfold validateOutgoingMessage validateMessageShape
  constructor
  · intro h f
    cases hs : checkFields .outgoing m [.type, .headers, .sender, .recipient] with
    | error e => simp [hs, bind, Except.bind] at h
    | ok u =>
        have h1 := checkFields_ok.1 hs
        have h2 := checkFields_ok.1 (by simpa [hs, bind, Except.bind] using h)
        cases f <;> first | exact h1 _ (by decide) | exact h2 _ (by decide)
  · intro h
    rw [checkFields_ok.2 fun f _ => h f]
    exact checkFields_ok.2 fun f _ => h f

end Core
end Paqto
