/-
# The built-in serializers

`serializers/_json.py`, `_envelope.py`, `json.py` and `bytes.py`.  Every `raise`
is a constructor of `SerializationError`, with the values its message shows.

A payload of the application is a value or bytes; a `created_at` that is no
`datetime` is `none`.  Of `datetime` the serializers use its ISO 8601 text and
whether it has a UTC offset (`PyDatetime`).
-/

import Paqto.Core.Message
import Paqto.Python.Base64
import Paqto.Python.SortKeys

namespace Paqto
namespace Serializers

open Python Paqto.Core

variable {F : Type} [PyFloat F]

/-- What the serializers use of `datetime`.  The text of an aware one is read as
an aware one of the same instant. -/
class PyDatetime (D : Type) where
  isoformat : D → Str
  /-- `none` is the `ValueError`. -/
  fromIsoformat : Str → Option D
  /-- `tzinfo` and `utcoffset()` are not `None`. -/
  isAware : D → Bool
  /-- The instant of an aware one, in microseconds. -/
  instant : D → ℤ
  fromIsoformat_isoformat : ∀ d, isAware d = true → ∃ d', fromIsoformat (isoformat d) = some d' ∧
    isAware d' = true ∧ instant d' = instant d

/-- What a serializer carries. -/
inductive Payload (F : Type)
  | json (value : Value F)
  | bytes (data : Bytes)

/-- What the application puts into a message. -/
structure Body (F D : Type) where
  payload : Payload F
  createdAt : Option D

/-- `SerializationError` -/
inductive SerializationError
  /-- "Message is not valid JSON data." -/
  | notJson
  /-- "Serialized message is not valid UTF-8 JSON." -/
  | malformedJson
  /-- "JSON payload numbers must be finite." -/
  | notFinite
  /-- "JSON payload string exceeds … characters." -/
  | stringTooLong (limit : ℕ)
  /-- "JSON payload exceeds maximum nesting of …." -/
  | nesting (limit : ℕ)
  /-- "JSON payload object keys must be strings." -/
  | keyNotString
  /-- "JSON payload object key exceeds … characters." -/
  | keyTooLong (limit : ℕ)
  /-- "JSON payload does not support … values." -/
  | unsupported (typeName : Str)
  /-- "JSON payload exceeds maximum total collection items of …." -/
  | tooManyItems (limit : ℕ)
  /-- "Serialized message envelope must be a JSON object." -/
  | notAnObject
  /-- "Serialized message envelope has an invalid schema (missing fields: …; unexpected fields: …)." -/
  | invalidSchema (missing unexpected : List Str)
  /-- "Message created_at must be an ISO 8601 string." -/
  | createdAtNotString
  /-- "Message created_at must be a valid ISO 8601 datetime." -/
  | createdAtMalformed
  /-- "Message … must be …." -/
  | invalidField (field : EnvelopeField)
  /-- "Message created_at must be a datetime." -/
  | createdAtNotDatetime
  /-- "Message created_at must be timezone-aware." -/
  | createdAtNaive
  /-- "BytesSerializer payload must be bytes." -/
  | payloadNotBytes
  /-- "BytesSerializer payload must be a Base64 string." -/
  | payloadNotString
  /-- "BytesSerializer payload must be valid Base64 data." -/
  | notBase64
  /-- "BytesSerializer payload must use canonical Base64." -/
  | notCanonical
  deriving DecidableEq

/-! ## `_json.py` -/

/-- `encode_json`; its callers let string keys through only. -/
def encodeJson (value : Value F) : Except SerializationError Bytes :=
  match ((sortKeys value).bind dumps).bind encodeUtf8 with
  | none => .error .notJson
  | some data => .ok data

/-- `_unique_json_object` and `_reject_json_constant` -/
def strictHooks : Hooks F := ⟨uniqueJsonObject, fun _ => none⟩

/-- `decode_json` -/
def decodeJson (data : Bytes) : Except SerializationError (Value F) :=
  match (decodeUtf8 data).bind (loadsWith strictHooks) with
  | none => .error .malformedJson
  | some value => .ok value

/-- The limits of `JsonSerializer`, as `validate_limit` lets them through. -/
structure Limits where
  maxNesting : ℕ
  maxNesting_pos : 0 < maxNesting
  maxCollectionItems : ℕ
  maxCollectionItems_pos : 0 < maxCollectionItems
  maxStringLength : ℕ
  maxStringLength_pos : 0 < maxStringLength

/-- A key that is no string. -/
def notStringKey : Key F → Option SerializationError
  | .str _ => none
  | _ => some .keyNotString

/-- A name that is too long. -/
def longKey (limits : Limits) : Key F → Option SerializationError
  | .str s =>
      if s.length > limits.maxStringLength then some (.keyTooLong limits.maxStringLength) else none
  | _ => none

/-- The checks of the keys of a dict: all are strings, then all are short. -/
def validateKeys (limits : Limits) (items : List (Key F × Value F)) : Except SerializationError Unit :=
  match items.findSome? fun p => notStringKey p.1 with
  | some e => .error e
  | none =>
      match items.findSome? fun p => longKey limits p.1 with
      | some e => .error e
      | none => .ok ()

/-- The checks of one value in `validate_json_value`, and the nested values the
loop goes on with. -/
def validateItem (limits : Limits) (depth : ℕ) : Value F → Except SerializationError (List (Value F))
  | .none | .bool _ | .int _ => .ok []
  | .float x => if PyFloat.isFinite x then .ok [] else .error .notFinite
  | .str s =>
      if s.length > limits.maxStringLength then .error (.stringTooLong limits.maxStringLength)
      else .ok []
  | .list items =>
      if depth ≥ limits.maxNesting then .error (.nesting limits.maxNesting) else .ok items
  | .dict items =>
      if depth ≥ limits.maxNesting then .error (.nesting limits.maxNesting)
      else (validateKeys limits items).map fun _ => items.map Prod.snd
  | .tuple _ => .error (.unsupported (ofChars ['t', 'u', 'p', 'l', 'e']))

/-- What is nested in a value weighs less. -/
theorem validateItem_weight {limits : Limits} {depth : ℕ} {v : Value F} {nested : List (Value F)}
    (h : validateItem limits depth v = .ok nested) : itemsWeight nested < valueWeight v := by
  cases v with
  | list items =>
      simp only [validateItem] at h
      split at h <;> cases h
      rw [valueWeight]
      omega
  | dict items =>
      simp only [validateItem] at h
      split at h
      · cases h
      · cases hk : validateKeys limits items with
        | error e =>
            rw [hk] at h
            cases h
        | ok u =>
            rw [hk] at h
            obtain rfl := Except.ok.inj h
            rw [itemsWeight_members, valueWeight]
            omega
  | float x =>
      simp only [validateItem] at h
      split at h <;> cases h
      simp [itemsWeight, valueWeight]
  | str s =>
      simp only [validateItem] at h
      split at h <;> cases h
      simp [itemsWeight, valueWeight]
  | tuple items => cases h
  | _ =>
      cases h
      simp [itemsWeight, valueWeight]

/-- The loop of `validate_json_value`; the top of its stack comes first.  A value
without items leaves `collection_items` as it was. -/
def validateLoop (limits : Limits) : List (Value F × ℕ) → ℕ → Except SerializationError Unit
  | [], _ => .ok ()
  | (item, depth) :: pending, collectionItems =>
      match _hnested : validateItem limits depth item with
      | .error e => .error e
      | .ok nested =>
          if collectionItems + nested.length > limits.maxCollectionItems then
            .error (.tooManyItems limits.maxCollectionItems)
          else
            validateLoop limits ((nested.map fun v => (v, depth + 1)).reverse ++ pending)
              (collectionItems + nested.length)
termination_by pending => itemsWeight (pending.map Prod.fst)
decreasing_by
  have hw := validateItem_weight _hnested
  simp only [List.map_append, List.map_reverse, List.map_map, Function.comp_def, List.map_id',
    itemsWeight_append, itemsWeight_reverse, List.map_cons, itemsWeight]
  omega

/-- `validate_json_value` -/
def validateJsonValue (limits : Limits) (value : Value F) : Except SerializationError Unit :=
  validateLoop limits [(value, 0)] 0

/-! ## `_envelope.py` -/

section Envelope

variable {D : Type} [PyDatetime D]

/-- `"payload"` -/
def payloadKey : Str := ofChars ['p', 'a', 'y', 'l', 'o', 'a', 'd']
/-- `"sender"` -/
def senderKey : Str := ofChars ['s', 'e', 'n', 'd', 'e', 'r']
/-- `"recipient"` -/
def recipientKey : Str := ofChars ['r', 'e', 'c', 'i', 'p', 'i', 'e', 'n', 't']
/-- `"headers"` -/
def headersKey : Str := ofChars ['h', 'e', 'a', 'd', 'e', 'r', 's']
/-- `"id"` -/
def idKey : Str := ofChars ['i', 'd']
/-- `"created_at"` -/
def createdAtKey : Str := ofChars ['c', 'r', 'e', 'a', 't', 'e', 'd', '_', 'a', 't']
/-- `"reply_to"` -/
def replyToKey : Str := ofChars ['r', 'e', 'p', 'l', 'y', '_', 't', 'o']

/-- `_ENVELOPE_FIELDS`, in alphabetical order -/
def envelopeFields : List Str :=
  [createdAtKey, headersKey, idKey, payloadKey, recipientKey, replyToKey, senderKey, typeKey]

/-- `_validate_message_fields` -/
def validateMessageFields (m : Message (Body F D)) : Except SerializationError Unit :=
  match [EnvelopeField.type, .id, .sender, .recipient, .replyTo, .headers].find? fun f =>
    !f.passes m with
  | some field => .error (.invalidField field)
  | none =>
      match m.payload.createdAt with
      | none => .error .createdAtNotDatetime
      | some d => if PyDatetime.isAware d then .ok () else .error .createdAtNaive

/-- An attribute that passed the validation, in the envelope. -/
def attrValue : Attr → Value F
  | .str s => .str s
  | _ => .none

/-- The name of a header. -/
def attrKey : Attr → Key F
  | .str s => .str s
  | _ => .none

/-- The headers in the envelope. -/
def headersValue (headers : Option (List (Attr × Attr))) : Value F :=
  .dict ((headers.getD []).map fun p => (attrKey p.1, attrValue p.2))

/-- `encode_envelope` -/
def encodeEnvelope (m : Message (Body F D)) (payload : Value F) :
    Except SerializationError (Value F) := do
  validateMessageFields m
  match m.payload.createdAt with
  | none => .error .createdAtNotDatetime
  | some createdAt =>
      return .dict
        [(.str payloadKey, payload),
          (.str typeKey, attrValue m.type),
          (.str senderKey, attrValue m.sender),
          (.str recipientKey, attrValue m.recipient),
          (.str headersKey, headersValue m.headers),
          (.str idKey, attrValue m.id),
          (.str createdAtKey, .str (PyDatetime.isoformat createdAt)),
          (.str replyToKey, attrValue m.replyTo)]

/-- A member as an attribute of the message. -/
def valueAttr : Option (Value F) → Attr
  | some .none => .none
  | some (.str s) => .str s
  | _ => .other

/-- The name of a header that is read. -/
def keyAttr : Key F → Attr
  | .none => .none
  | .str s => .str s
  | _ => .other

/-- The headers that are read. -/
def valueHeaders : Option (Value F) → Option (List (Attr × Attr))
  | some (.dict items) => some (items.map fun p => (keyAttr p.1, valueAttr (some p.2)))
  | _ => none

/-- The names of the members of an object. -/
def memberNames (raw : List (Key F × Value F)) : List Str :=
  raw.filterMap fun p => match p.1 with
    | .str s => some s
    | _ => none

/-- `decode_envelope` -/
def decodeEnvelope (raw : Value F)
    (decodePayload : Option (Value F) → Except SerializationError (Payload F)) :
    Except SerializationError (Message (Body F D)) :=
  match raw with
  | .dict raw =>
      let missing := envelopeFields.filter fun f => f ∉ memberNames raw
      let unexpected := (memberNames raw).filter fun f => f ∉ envelopeFields
      if missing ≠ [] ∨ unexpected ≠ [] then
        .error (.invalidSchema missing (unexpected.insertionSort (· ≤ ·)))
      else
        match dictGet raw createdAtKey with
        | some (.str createdAtRaw) =>
            match PyDatetime.fromIsoformat (D := D) createdAtRaw with
            | none => .error .createdAtMalformed
            | some createdAt => do
                let payload ← decodePayload (dictGet raw payloadKey)
                let message : Message (Body F D) :=
                  { payload := ⟨payload, some createdAt⟩
                    type := valueAttr (dictGet raw typeKey)
                    sender := valueAttr (dictGet raw senderKey)
                    recipient := valueAttr (dictGet raw recipientKey)
                    headers := valueHeaders (dictGet raw headersKey)
                    id := valueAttr (dictGet raw idKey)
                    replyTo := valueAttr (dictGet raw replyToKey) }
                validateMessageFields message
                return message
        | _ => .error .createdAtNotString
  | _ => .error .notAnObject

/-! ## `json.py` -/

namespace JsonSerializer

/-- `_validate_payload` -/
def validatePayload (limits : Limits) : Payload F → Except SerializationError (Value F)
  | .json value => (validateJsonValue limits value).map fun _ => value
  | .bytes _ => .error (.unsupported (ofChars ['b', 'y', 't', 'e', 's']))

/-- `JsonSerializer.serialize` -/
def serialize (limits : Limits) (m : Message (Body F D)) : Except SerializationError Bytes := do
  let payload ← validatePayload limits m.payload.payload
  let envelope ← encodeEnvelope m payload
  encodeJson envelope

/-- `_decode_payload` -/
def decodePayload (limits : Limits) : Option (Value F) → Except SerializationError (Payload F)
  | some payload => (validateJsonValue limits payload).map fun _ => .json payload
  | none => .error .notAnObject

/-- `JsonSerializer.deserialize` -/
def deserialize (limits : Limits) (data : Bytes) : Except SerializationError (Message (Body F D)) := do
  let raw ← decodeJson data
  decodeEnvelope raw (decodePayload limits)

end JsonSerializer

/-! ## `bytes.py` -/

namespace BytesSerializer

/-- `BytesSerializer.serialize` -/
def serialize (m : Message (Body F D)) : Except SerializationError Bytes :=
  match m.payload.payload with
  | .bytes payload => do
      let envelope ← encodeEnvelope m (.str (b64encode payload))
      encodeJson envelope
  | .json _ => .error .payloadNotBytes

/-- `_decode_payload` -/
def decodePayload : Option (Value F) → Except SerializationError (Payload F)
  | some (.str encoded) =>
      match b64decode encoded with
      | none => .error .notBase64
      | some decoded =>
          if b64encode decoded ≠ encoded then .error .notCanonical else .ok (.bytes decoded)
  | _ => .error .payloadNotString

/-- `BytesSerializer.deserialize` -/
def deserialize (data : Bytes) : Except SerializationError (Message (Body F D)) := do
  let raw ← decodeJson data
  decodeEnvelope raw decodePayload

end BytesSerializer

/-! ## The adapters the node uses -/

/-- `JsonSerializer`, as a node sees it. -/
def jsonSerializer (limits : Limits) : Serializer (Body F D) where
  serialize m := (JsonSerializer.serialize limits m).toOption
  deserialize data := (JsonSerializer.deserialize limits data).toOption

/-- `BytesSerializer`, as a node sees it. -/
def bytesSerializer : Serializer (Body F D) where
  serialize m := (BytesSerializer.serialize m).toOption
  deserialize data := (BytesSerializer.deserialize data).toOption

end Envelope

end Serializers
end Paqto
