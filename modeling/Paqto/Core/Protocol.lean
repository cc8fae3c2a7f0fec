/-
# Hello negotiation and READY-session frames

`core/protocol.py`.  Every `raise` of the source is a constructor of
`FrameError` or `HandshakeError`, with the values its message shows;
`FrameError` is `ProtocolFrameError`, and `HandshakeError.errorClass` names the
class of the others.

`exchange` inside `negotiate_protocol` is an input here: what the connection
answered to the local hello (`Exchange`).
-/

import Paqto.Python.Json

namespace Paqto
namespace Core

open Python

variable {F : Type} [PyFloat F]

/-- `PROTOCOL_MAGIC` -/
def protocolMagic : Str := ofChars ['P', 'A', 'Q', 'T', 'O']

/-- `PROTOCOL_VERSION` -/
def protocolVersion : ℤ := 1

/-- `TECHNICAL_ACK_CAPABILITY` -/
def technicalAckCapability : Str :=
  ofChars ['p', 'a', 'q', 't', 'o', '.', 'a', 'c', 'k', '.', 'v', '1']

/-- `HEARTBEAT_CAPABILITY` -/
def heartbeatCapability : Str :=
  ofChars ['p', 'a', 'q', 't', 'o', '.', 'h', 'e', 'a', 'r', 't', 'b', 'e', 'a', 't', '.', 'v', '1']

/-- `FRAME_CONTROL` -/
def controlFrame : UInt8 := 0
/-- `FRAME_APPLICATION` -/
def applicationFrame : UInt8 := 1
/-- `"hello"` -/
def helloType : Str := ofChars ['h', 'e', 'l', 'l', 'o']
/-- `"ack"` -/
def ackType : Str := ofChars ['a', 'c', 'k']
/-- `"ping"` -/
def pingType : Str := ofChars ['p', 'i', 'n', 'g']
/-- `"pong"` -/
def pongType : Str := ofChars ['p', 'o', 'n', 'g']
/-- `MAX_CONTROL_PAYLOAD_SIZE` -/
def maxControlPayloadSize : ℕ := 64 * 1024
/-- `MAX_JSON_NESTING` -/
def maxJsonNesting : ℕ := 32
/-- `MAX_JSON_INTEGER_BITS` -/
def maxJsonIntegerBits : ℕ := 4096

/-! The member names of control frames. -/

/-- `"magic"` -/
def magicKey : Str := ofChars ['m', 'a', 'g', 'i', 'c']
/-- `"type"` -/
def typeKey : Str := ofChars ['t', 'y', 'p', 'e']
/-- `"version"` -/
def versionKey : Str := ofChars ['v', 'e', 'r', 's', 'i', 'o', 'n']
/-- `"peer_id"` -/
def peerIdKey : Str := ofChars ['p', 'e', 'e', 'r', '_', 'i', 'd']
/-- `"capabilities"` -/
def capabilitiesKey : Str :=
  ofChars ['c', 'a', 'p', 'a', 'b', 'i', 'l', 'i', 't', 'i', 'e', 's']
/-- `"serializer"` -/
def serializerKey : Str := ofChars ['s', 'e', 'r', 'i', 'a', 'l', 'i', 'z', 'e', 'r']
/-- `"max_message_size"` -/
def maxMessageSizeKey : Str :=
  ofChars ['m', 'a', 'x', '_', 'm', 'e', 's', 's', 'a', 'g', 'e', '_', 's', 'i', 'z', 'e']
/-- `"metadata"` -/
def metadataKey : Str := ofChars ['m', 'e', 't', 'a', 'd', 'a', 't', 'a']
/-- `"message_id"` -/
def messageIdKey : Str := ofChars ['m', 'e', 's', 's', 'a', 'g', 'e', '_', 'i', 'd']
/-- `"ping_id"` -/
def pingIdKey : Str := ofChars ['p', 'i', 'n', 'g', '_', 'i', 'd']

/-- What `__post_init__` of `HandshakeOffer` checks.  The metadata of an offer is
a dict. -/
structure HandshakeOffer (F : Type) where
  peerId : Str
  serializerId : Str
  version : ℤ
  capabilities : List Str
  maxMessageSize : ℤ
  metadata : List (Key F × Value F)
  peerId_ne : peerId ≠ []
  serializerId_ne : serializerId ≠ []
  one_le_version : 1 ≤ version
  capabilities_ne : ∀ c ∈ capabilities, c ≠ []
  capabilities_nodup : capabilities.Nodup
  maxMessageSize_pos : 0 < maxMessageSize

/-- What a handshake agrees on. -/
structure ProtocolSession (F : Type) where
  peerId : Str
  version : ℤ
  serializerId : Str
  capabilities : List Str
  maxMessageSize : ℤ
  peerIdAuthenticated : Bool
  metadata : List (Key F × Value F)

/-- The security properties of a connection that the core reads
(`core/security.py`). -/
structure SecurityInfo where
  authenticated : Bool
  authenticatedPeerId : Option Str
  deriving DecidableEq, Repr

/-- `ProtocolFrameError` -/
inductive FrameError
  | applicationTooLarge (size : ℕ) (limit : ℤ)
  | controlAfterHandshake
  | unknownFrameType (kind : UInt8)
  | incomingTooLarge (size : ℕ) (limit : ℤ)
  | invalidIdentifier
  | acknowledgementId
  | heartbeatId
  | unexpectedControl
  | emptyFrame
  | unsafeControlData
  | notSerializable
  | controlFrameTooLarge
  | malformedJson
  | notAnObject
  deriving DecidableEq, Repr

/-- What leaves a failed handshake: an exception, or the cancellation of the
task. -/
inductive HandshakeError
  | cancelled
  | timeout
  | remoteClosed
  | transportFailed
  | localMetadata (cause : FrameError)
  | malformedFrame (cause : FrameError)
  | expectedControlFrame
  | helloTooLarge
  | malformedJson (cause : FrameError)
  | invalidIdentifier
  | expectedHello
  | invalidVersion
  | invalidPeerId
  | invalidSerializer
  | invalidCapabilities
  | duplicateCapabilities
  | invalidMaxMessageSize
  | invalidMetadata
  | incompatibleVersion (localVersion remoteVersion : ℤ)
  | incompatibleSerializer (localId remoteId : Str)
  | unexpectedPeer (expected remote : Str)
  | authenticatedMismatch (remote authenticated : Str)
  | notAuthenticated (remote : Str)
  | noAuthenticatedId (remote : Str)
  deriving DecidableEq, Repr

/-- The classes of `core/errors.py` that a handshake raises. -/
inductive ErrorClass
  | protocolHandshakeError
  | protocolHandshakeTimeoutError
  | protocolVersionError
  | peerIdentityMismatchError
  | peerAuthenticationError
  deriving DecidableEq, Repr

/-- The class of an error; a cancellation has none. -/
def HandshakeError.errorClass : HandshakeError → Option ErrorClass
  | cancelled => none
  | timeout => some .protocolHandshakeTimeoutError
  | incompatibleVersion _ _ => some .protocolVersionError
  | unexpectedPeer _ _ | authenticatedMismatch _ _ => some .peerIdentityMismatchError
  | notAuthenticated _ | noAuthenticatedId _ => some .peerAuthenticationError
  | _ => some .protocolHandshakeError

/-! ## Control data -/

/-- `int.bit_length` -/
def bitLength (i : ℤ) : ℕ := if i = 0 then 0 else i.natAbs.log2 + 1

/-- The checks of one value in `_is_safe_json_value`, and the nested values the
loop goes on with. -/
def safeNested (depth : ℕ) : Value F → Option (List (Value F))
  | .float x => if PyFloat.isFinite x then some [] else none
  | .int i => if bitLength i > maxJsonIntegerBits then none else some []
  | .dict items => if depth ≥ maxJsonNesting then none else some (items.map Prod.snd)
  | .list items => if depth ≥ maxJsonNesting then none else some items
  | _ => some []

mutual

/-- How many values a value holds. -/
def valueWeight : Value F → ℕ
  | .list items | .tuple items => 1 + itemsWeight items
  | .dict items => 1 + membersWeight items
  | _ => 1

/-- The weight of a list of values. -/
def itemsWeight : List (Value F) → ℕ
  | [] => 0
  | v :: items => valueWeight v + itemsWeight items

/-- The weight of an object. -/
def membersWeight : List (Key F × Value F) → ℕ
  | [] => 0
  | (_, v) :: items => valueWeight v + membersWeight items

end

omit [PyFloat F] in
/-- The weights of two parts are added. -/
theorem itemsWeight_append (l m : List (Value F)) :
    itemsWeight (l ++ m) = itemsWeight l + itemsWeight m := by
  induction l with
  | nil => simp [itemsWeight]
  | cons v l ih => simp [itemsWeight, ih, Nat.add_assoc]

omit [PyFloat F] in
/-- The order does not matter. -/
theorem itemsWeight_reverse (l : List (Value F)) : itemsWeight l.reverse = itemsWeight l := by
  induction l with
  | nil => rfl
  | cons v l ih => simp [itemsWeight_append, itemsWeight, ih, Nat.add_comm]

omit [PyFloat F] in
/-- Names weigh nothing. -/
theorem itemsWeight_members (l : List (Key F × Value F)) :
    itemsWeight (l.map Prod.snd) = membersWeight l := by
  induction l with
  | nil => rfl
  | cons p l ih => simp [itemsWeight, membersWeight, ih]

/-- What is nested in a value weighs less. -/
theorem safeNested_weight {depth : ℕ} {v : Value F} {nested : List (Value F)}
    (h : safeNested depth v = some nested) : itemsWeight nested < valueWeight v := by
  unfold safeNested at h
  split at h
  · split at h <;> cases h
    simp [itemsWeight, valueWeight]
  · split at h <;> cases h
    simp [itemsWeight, valueWeight]
  · split at h <;> cases h
    rw [itemsWeight_members, valueWeight]
    omega
  · split at h <;> cases h
    rw [valueWeight]
    omega
  · cases h
    cases v <;> simp [itemsWeight, valueWeight]

/-- The loop of `_is_safe_json_value`; the top of its stack comes first. -/
def isSafeLoop : List (Value F × ℕ) → Bool
  | [] => true
  | (item, depth) :: pending =>
      match _hnested : safeNested depth item with
      | none => false
      | some nested => isSafeLoop ((nested.map fun v => (v, depth + 1)).reverse ++ pending)
termination_by pending => itemsWeight (pending.map Prod.fst)
decreasing_by
  have hw := safeNested_weight _hnested
  simp only [List.map_append, List.map_reverse, List.map_map, Function.comp_def, List.map_id',
    itemsWeight_append, itemsWeight_reverse, List.map_cons, itemsWeight]
  omega

/-- `_is_safe_json_value` -/
def isSafeJsonValue (value : Value F) : Bool := isSafeLoop [(value, 0)]

/-- `dict.get` of a string. -/
def dictGet (items : List (Key F × Value F)) (name : Str) : Option (Value F) :=
  match items with
  | [] => none
  | (.str k, v) :: items => if k = name then some v else dictGet items name
  | _ :: items => dictGet items name

/-- The loop of `_unique_json_object`. -/
def uniqueMembers : List (Str × Value F) → List (Str × Value F) → Option (List (Str × Value F))
  | result, [] => some result
  | result, (key, value) :: pairs =>
      if key ∈ result.map Prod.fst then none
      else uniqueMembers (result ++ [(key, value)]) pairs

/-- `_unique_json_object` -/
def uniqueJsonObject (pairs : List (Str × Value F)) : Option (Value F) :=
  (uniqueMembers [] pairs).map fun result => .dict (result.map fun p => (.str p.1, p.2))

/-- `_split_frame` -/
def splitFrame : Bytes → Except FrameError (UInt8 × Bytes)
  | [] => .error .emptyFrame
  | kind :: payload => .ok (kind, payload)

/-- `_encode_control` -/
def encodeControl (payload : List (Key F × Value F)) : Except FrameError Bytes :=
  if isSafeJsonValue (.dict payload) then
    match (dumps (.dict payload)).bind encodeUtf8 with
    | none => .error .notSerializable
    | some encoded =>
        if encoded.length > maxControlPayloadSize then .error .controlFrameTooLarge
        else .ok (controlFrame :: encoded)
  else .error .unsafeControlData

/-- `_decode_control` -/
def decodeControl (payload : Bytes) : Except FrameError (List (Key F × Value F)) :=
  if payload.length > maxControlPayloadSize then .error .controlFrameTooLarge
  else
    match (decodeUtf8 payload).bind (loads uniqueJsonObject) with
    | none => .error .malformedJson
    | some (.dict raw) =>
        if isSafeJsonValue (.dict raw : Value F) then .ok raw else .error .unsafeControlData
    | some _ => .error .notAnObject

/-! ## Hello frames -/

/-- The payload of `_encode_hello`. -/
def helloPayload (offer : HandshakeOffer F) : List (Key F × Value F) :=
  [(.str magicKey, .str protocolMagic),
    (.str typeKey, .str helloType),
    (.str versionKey, .int offer.version),
    (.str peerIdKey, .str offer.peerId),
    (.str capabilitiesKey, .list (offer.capabilities.map .str)),
    (.str serializerKey, .str offer.serializerId),
    (.str maxMessageSizeKey, .int offer.maxMessageSize),
    (.str metadataKey, .dict offer.metadata)]

/-- `_encode_hello` -/
def encodeHello (offer : HandshakeOffer F) : Except HandshakeError Bytes :=
  match encodeControl (helloPayload offer) with
  | .ok frame => .ok frame
  | .error e => .error (.localMetadata e)

/-- A non-empty string. -/
def nonEmptyStr : Option (Value F) → Option { s : Str // s ≠ [] }
  | some (.str s) => if h : s ≠ [] then some ⟨s, h⟩ else none
  | _ => none

/-- An integer, not a boolean, that is at least one. -/
def positiveInt : Option (Value F) → Option { i : ℤ // 1 ≤ i }
  | some (.int i) => if h : 1 ≤ i then some ⟨i, h⟩ else none
  | _ => none

/-- The items of a list of non-empty strings. -/
def nonEmptyStrs : List (Value F) → Option { l : List Str // ∀ c ∈ l, c ≠ [] }
  | [] => some ⟨[], by simp⟩
  | v :: items =>
      match nonEmptyStr (some v), nonEmptyStrs items with
      | some c, some l => some ⟨c.1 :: l.1, by simpa using ⟨c.2, l.2⟩⟩
      | _, _ => none

/-- The field is that string. -/
def isStr (v : Option (Value F)) (s : Str) : Bool :=
  match v with
  | some (.str t) => t = s
  | _ => false

/-- The checks of `_decode_hello` on the decoded control data. -/
def decodeOffer (raw : List (Key F × Value F)) : Except HandshakeError (HandshakeOffer F) :=
  if !isStr (dictGet raw magicKey) protocolMagic then .error .invalidIdentifier
  else if !isStr (dictGet raw typeKey) helloType then .error .expectedHello
  else
    match positiveInt (dictGet raw versionKey) with
    | none => .error .invalidVersion
    | some version =>
    match nonEmptyStr (dictGet raw peerIdKey) with
    | none => .error .invalidPeerId
    | some peerId =>
    match nonEmptyStr (dictGet raw serializerKey) with
    | none => .error .invalidSerializer
    | some serializerId =>
    match (match dictGet raw capabilitiesKey with
      | some (.list items) => nonEmptyStrs items
      | _ => none) with
    | none => .error .invalidCapabilities
    | some capabilities =>
    if hnodup : capabilities.1.Nodup then
      match positiveInt (dictGet raw maxMessageSizeKey) with
      | none => .error .invalidMaxMessageSize
      | some maxMessageSize =>
      match dictGet raw metadataKey with
      | some (.dict metadata) =>
          .ok {
            peerId := peerId.1
            serializerId := serializerId.1
            version := version.1
            capabilities := capabilities.1
            maxMessageSize := maxMessageSize.1
            metadata
            peerId_ne := peerId.2
            serializerId_ne := serializerId.2
            one_le_version := version.2
            capabilities_ne := capabilities.2
            capabilities_nodup := hnodup
            maxMessageSize_pos := maxMessageSize.2 }
      | _ => .error .invalidMetadata
    else .error .duplicateCapabilities

/-- `_decode_hello` -/
def decodeHello (frame : Bytes) : Except HandshakeError (HandshakeOffer F) :=
  match splitFrame frame with
  | .error e => .error (.malformedFrame e)
  | .ok (kind, payload) =>
      if kind ≠ controlFrame then .error .expectedControlFrame
      else if payload.length > maxControlPayloadSize then .error .helloTooLarge
      else
        match decodeControl payload with
        | .error e => .error (.malformedJson e)
        | .ok raw => decodeOffer raw

/-! ## Negotiation -/

/-- The outcome of sending the local hello and receiving a frame. -/
inductive Exchange
  | received (frame : Bytes)
  | timeout
  | remoteClosed
  | transportFailed
  | cancelled
  deriving DecidableEq, Repr

/-- The frame of an exchange, or what its failure is turned into. -/
def Exchange.frame : Exchange → Except HandshakeError Bytes
  | received frame => .ok frame
  | timeout => .error .timeout
  | remoteClosed => .error .remoteClosed
  | transportFailed => .error .transportFailed
  | cancelled => .error .cancelled

/-- The identity checks on a remote hello. -/
def checkIdentity (expectedPeerId : Option Str) (security : SecurityInfo)
    (requireAuthenticatedPeerId : Bool) (remote : Str) : Except HandshakeError Unit :=
  match expectedPeerId.filter (· ≠ remote) with
  | some expected => .error (.unexpectedPeer expected remote)
  | none =>
  match security.authenticatedPeerId.filter (· ≠ remote) with
  | some authenticated => .error (.authenticatedMismatch remote authenticated)
  | none =>
  if requireAuthenticatedPeerId then
    if !security.authenticated then .error (.notAuthenticated remote)
    else if security.authenticatedPeerId = none then .error (.noAuthenticatedId remote)
    else .ok ()
  else .ok ()

/-- The session of a local offer and a remote hello that passed every check. -/
def sessionOf (offer remote : HandshakeOffer F) (security : SecurityInfo) : ProtocolSession F where
  peerId := remote.peerId
  version := remote.version
  serializerId := remote.serializerId
  capabilities := offer.capabilities.filter (· ∈ remote.capabilities)
  maxMessageSize := min offer.maxMessageSize remote.maxMessageSize
  peerIdAuthenticated :=
    security.authenticated && security.authenticatedPeerId = some remote.peerId
  metadata := remote.metadata

/-- The body of `negotiate_protocol`. -/
def negotiate (offer : HandshakeOffer F) (expectedPeerId : Option Str) (security : SecurityInfo)
    (requireAuthenticatedPeerId : Bool) (exchange : Exchange) :
    Except HandshakeError (ProtocolSession F) := do
  let _ ← encodeHello offer
  let frame ← exchange.frame
  let remote ← decodeHello frame
  if remote.version ≠ offer.version then
    .error (.incompatibleVersion offer.version remote.version)
  else if remote.serializerId ≠ offer.serializerId then
    .error (.incompatibleSerializer offer.serializerId remote.serializerId)
  else
    checkIdentity expectedPeerId security requireAuthenticatedPeerId remote.peerId
    return sessionOf offer remote security

/-- What `negotiate_protocol` leaves: its result, and whether it has closed the
connection. -/
structure Negotiated (F : Type) where
  result : Except HandshakeError (ProtocolSession F)
  isClosed : Bool

/-- `negotiate_protocol`, which closes the connection when it fails. -/
def negotiateProtocol (offer : HandshakeOffer F) (expectedPeerId : Option Str)
    (security : SecurityInfo) (requireAuthenticatedPeerId : Bool) (exchange : Exchange) :
    Negotiated F :=
  match negotiate offer expectedPeerId security requireAuthenticatedPeerId exchange with
  | .ok session => ⟨.ok session, false⟩
  | .error e => ⟨.error e, true⟩

/-- **When an identity is accepted.** -/
theorem checkIdentity_ok {expectedPeerId : Option Str} {security : SecurityInfo}
    {requireAuthenticatedPeerId : Bool} {remote : Str} :
    checkIdentity expectedPeerId security requireAuthenticatedPeerId remote = .ok () ↔
      (∀ p, expectedPeerId = some p → p = remote) ∧
      (∀ q, security.authenticatedPeerId = some q → q = remote) ∧
      (requireAuthenticatedPeerId = true →
        security.authenticated = true ∧ security.authenticatedPeerId = some remote) := by
  have hfilter : ∀ o : Option Str, o.filter (· ≠ remote) = none ↔ ∀ p, o = some p → p = remote :=
    fun o => by cases o <;> simp
  unfold checkIdentity
  split
  · rename_i expected he
    have : ¬ ∀ p, expectedPeerId = some p → p = remote := by rw [← hfilter, he]; simp
    simp [this]
  · rename_i he
    rw [hfilter] at he
    split
    · rename_i authenticated ha
      have : ¬ ∀ q, security.authenticatedPeerId = some q → q = remote := by
        rw [← hfilter, ha]; simp
      simp [this]
    · rename_i ha
      rw [hfilter] at ha
      rw [and_iff_right he, and_iff_right ha]
      cases hauth : security.authenticatedPeerId with
      | none => cases requireAuthenticatedPeerId <;> cases security.authenticated <;> simp
      | some q =>
          obtain rfl := ha q hauth
          cases requireAuthenticatedPeerId <;> cases security.authenticated <;> simp

/-- A session is the one of a remote hello that passed the identity checks. -/
theorem negotiate_ok {offer : HandshakeOffer F} {expectedPeerId : Option Str}
    {security : SecurityInfo} {requireAuthenticatedPeerId : Bool} {exchange : Exchange}
    {session : ProtocolSession F}
    (h : negotiate offer expectedPeerId security requireAuthenticatedPeerId exchange =
      .ok session) :
    checkIdentity expectedPeerId security requireAuthenticatedPeerId session.peerId = .ok () := by
  simp only [negotiate, bind, Except.bind] at h
  split at h
  · cases h
  · split at h
    · cases h
    · split at h
      · cases h
      · rename_i remote _
        split at h
        · cases h
        · split at h
          · cases h
          · cases hcheck : checkIdentity expectedPeerId security requireAuthenticatedPeerId
              remote.peerId with
            | error e =>
                rw [hcheck] at h
                cases h
            | ok u =>
                rw [hcheck] at h
                cases h
                exact hcheck

/-! ## READY frames -/

/-- `encode_application_frame` -/
def encodeApplicationFrame (data : Bytes) (maxMessageSize : ℤ) : Except FrameError Bytes :=
  if (data.length : ℤ) > maxMessageSize then
    .error (.applicationTooLarge data.length maxMessageSize)
  else .ok (applicationFrame :: data)

/-- An identifier of a control frame: a non-empty string. -/
abbrev Identifier := { s : Str // s ≠ [] }

/-- What `decode_session_frame` returns. -/
inductive SessionFrame
  | application (data : Bytes)
  | acknowledgement (messageId : Identifier)
  | ping (pingId : Identifier)
  | pong (pingId : Identifier)

/-- `encode_acknowledgement_frame` -/
def encodeAcknowledgementFrame (messageId : Identifier) : Except FrameError Bytes :=
  encodeControl (F := F)
    [(.str magicKey, .str protocolMagic), (.str typeKey, .str ackType),
      (.str messageIdKey, .str messageId)]

/-- `encode_ping_frame` -/
def encodePingFrame (pingId : Identifier) : Except FrameError Bytes :=
  encodeControl (F := F)
    [(.str magicKey, .str protocolMagic), (.str typeKey, .str pingType),
      (.str pingIdKey, .str pingId)]

/-- `encode_pong_frame` -/
def encodePongFrame (pingId : Identifier) : Except FrameError Bytes :=
  encodeControl (F := F)
    [(.str magicKey, .str protocolMagic), (.str typeKey, .str pongType),
      (.str pingIdKey, .str pingId)]

/-- `decode_session_frame` -/
def decodeSessionFrame (frame : Bytes) (maxMessageSize : ℤ) : Except FrameError SessionFrame := do
  let (kind, payload) ← splitFrame frame
  if kind = applicationFrame then
    if (payload.length : ℤ) > maxMessageSize then
      .error (.incomingTooLarge payload.length maxMessageSize)
    else .ok (.application payload)
  else if kind ≠ controlFrame then .error (.unknownFrameType kind)
  else
    let raw ← decodeControl (F := F) payload
    if !isStr (dictGet raw magicKey) protocolMagic then .error .invalidIdentifier
    else if isStr (dictGet raw typeKey) ackType then
      match nonEmptyStr (dictGet raw messageIdKey) with
      | some messageId => .ok (.acknowledgement messageId)
      | none => .error .acknowledgementId
    else if isStr (dictGet raw typeKey) pingType || isStr (dictGet raw typeKey) pongType then
      match nonEmptyStr (dictGet raw pingIdKey) with
      | some pingId =>
          if isStr (dictGet raw typeKey) pingType then .ok (.ping pingId) else .ok (.pong pingId)
      | none => .error .heartbeatId
    else .error .unexpectedControl

/-- `decode_application_frame` -/
def decodeApplicationFrame (frame : Bytes) (maxMessageSize : ℤ) : Except FrameError Bytes := do
  let (kind, payload) ← splitFrame frame
  if kind = controlFrame then .error .controlAfterHandshake
  else if kind ≠ applicationFrame then .error (.unknownFrameType kind)
  else if (payload.length : ℤ) > maxMessageSize then
    .error (.incomingTooLarge payload.length maxMessageSize)
  else .ok payload

end Core
end Paqto
