/-
# LAN discovery

What `LanDiscovery` of `lan/discovery.py` does with one datagram, and the cache
of `DiscoveredPeer`s it keeps (`core/discovered.py`).

A callback reads the clocks once (`Now`).  The objects of the cache are those
that `discover()` hands out, and `last_seen` is a public attribute of them: the
application may set it to any `datetime`, with or without a time zone, and the
next freshness check honours it.

`transport.sendto` is the environment's: it sends, or raises `OSError` or
`RuntimeError`.
-/

import Paqto.Core.Protocol
import Paqto.Lan.Address
import Paqto.Python.Dict
import Mathlib.Algebra.Order.Ring.Rat

namespace Paqto
namespace Lan

open Python Paqto.Core

variable {F : Type} [PyFloat F]

/-- `PROTOCOL_VERSION` -/
def discoveryVersion : ℤ := 1

/-- `MAX_UDP_DATAGRAM_SIZE` -/
def maxUdpDatagramSize : ℕ := 65507

/-! The member names and kinds of packets. -/

/-- `"paqto"` -/
def paqtoKey : Str := ofChars ['p', 'a', 'q', 't', 'o']
/-- `"kind"` -/
def kindKey : Str := ofChars ['k', 'i', 'n', 'd']
/-- `"peer"` -/
def peerKey : Str := ofChars ['p', 'e', 'e', 'r']
/-- `"id"` -/
def idKey : Str := ofChars ['i', 'd']
/-- `"name"` -/
def nameKey : Str := ofChars ['n', 'a', 'm', 'e']
/-- `"endpoints"` -/
def endpointsKey : Str := ofChars ['e', 'n', 'd', 'p', 'o', 'i', 'n', 't', 's']
/-- `"transport"` -/
def transportKey : Str := ofChars ['t', 'r', 'a', 'n', 's', 'p', 'o', 'r', 't']
/-- `"address"` -/
def addressKey : Str := ofChars ['a', 'd', 'd', 'r', 'e', 's', 's']
/-- `"discover"` -/
def discoverKind : Str := ofChars ['d', 'i', 's', 'c', 'o', 'v', 'e', 'r']
/-- `"announce"` -/
def announceKind : Str := ofChars ['a', 'n', 'n', 'o', 'u', 'n', 'c', 'e']

/-- `Endpoint` -/
structure Endpoint (F : Type) where
  transport : Str
  address : Str
  metadata : List (Key F × Value F)

/-- `Peer` -/
structure Peer (F : Type) where
  id : Str
  name : Option Str
  metadata : List (Key F × Value F)

/-! ## Discovered peers -/

/-- A `datetime`: whether it has a time zone, and its instant. -/
structure Datetime where
  aware : Bool
  instant : ℚ
  deriving DecidableEq

/-- `time.monotonic()` and `datetime.now(timezone.utc)` -/
structure Now where
  monotonic : ℚ
  wall : ℚ

/-- `DiscoveredPeer` -/
structure DiscoveredPeer (F : Type) where
  peer : Peer F
  endpoints : List (Endpoint F)
  lastSeen : Datetime
  metadata : List (Key F × Value F)
  observedAtMonotonic : ℚ
  lastSeenSnapshot : Datetime

namespace DiscoveredPeer

/-- `_anchor_monotonic_age` -/
def anchorMonotonicAge (d : DiscoveredPeer F) (now : Now) : DiscoveredPeer F :=
  if d.lastSeen.aware then
    { d with
      observedAtMonotonic := now.monotonic - max 0 (now.wall - d.lastSeen.instant)
      lastSeenSnapshot := d.lastSeen }
  else { d with observedAtMonotonic := now.monotonic, lastSeenSnapshot := d.lastSeen }

/-- `DiscoveredPeer(peer, endpoints, metadata)` -/
def create (now : Now) (peer : Peer F) (endpoints : List (Endpoint F))
    (metadata : List (Key F × Value F)) : DiscoveredPeer F :=
  anchorMonotonicAge ⟨peer, endpoints, ⟨true, now.wall⟩, metadata, 0, ⟨true, now.wall⟩⟩ now

/-- `touch` -/
def touch (d : DiscoveredPeer F) (now : Now) : DiscoveredPeer F :=
  { d with
    lastSeen := ⟨true, now.wall⟩
    lastSeenSnapshot := ⟨true, now.wall⟩
    observedAtMonotonic := now.monotonic }

/-- `_synchronize_manually_changed_timestamp` -/
def synchronize (d : DiscoveredPeer F) (now : Now) : DiscoveredPeer F :=
  if d.lastSeen ≠ d.lastSeenSnapshot then d.anchorMonotonicAge now else d

/-- `is_fresh` with a time to live; `none` is its `ValueError`, "Discovery
timestamps must be timezone-aware." -/
def isFresh (d : DiscoveredPeer F) (ttl : ℚ) (now : Now) : Option Bool :=
  if d.lastSeen.aware then
    some (max 0 (now.monotonic - (d.synchronize now).observedAtMonotonic) ≤ ttl)
  else none

end DiscoveredPeer

/-! ## The service -/

/-- An address of `sendto`. -/
structure SocketAddress where
  host : Str
  port : ℤ
  deriving DecidableEq

/-- The arguments of `LanDiscovery` that its datagrams meet, as `__init__` lets
them through. -/
structure Settings (F : Type) where
  broadcastAddress : SocketAddress
  metadata : List (Key F × Value F)
  maxDatagramSize : ℕ
  maxDatagramSize_pos : 0 < maxDatagramSize
  maxDatagramSize_le : maxDatagramSize ≤ maxUdpDatagramSize
  /-- `None` disables expiry. -/
  peerTtl : Option ℚ
  peerTtl_pos : ∀ ttl, peerTtl = some ttl → 0 < ttl
  maxDiscoveredPeers : ℕ
  maxDiscoveredPeers_pos : 0 < maxDiscoveredPeers

/-- `LanDiscovery` -/
structure LanDiscovery (F : Type) where
  settings : Settings F
  localPeer : Option (Peer F)
  endpoints : List (Endpoint F)
  discovered : Dict Str (DiscoveredPeer F)
  /-- `_transport` is not `None`. -/
  started : Bool

/-- The failures of `transport.sendto`. -/
inductive SendError
  | osError
  | runtimeError
  deriving DecidableEq, Repr

/-- The clock, and what the socket does. -/
structure Environment where
  now : Now
  sendto : Bytes → SocketAddress → Option SendError

/-- `DiscoveryError` -/
inductive DiscoveryError
  /-- "LAN discovery must be started before announcing." -/
  | announceNotStarted
  /-- "LAN discovery must be started before sending." -/
  | sendNotStarted
  /-- "LAN discovery data contains unsafe numbers or exceeds the maximum nesting depth of 32." -/
  | unsafeData
  /-- "LAN discovery packet is not JSON serializable." -/
  | notSerializable
  /-- "LAN discovery packet exceeds … bytes." -/
  | packetTooLarge (limit : ℕ)
  /-- "Could not send LAN discovery packet to …." -/
  | sendFailed (addr : SocketAddress)
  deriving DecidableEq

/-- An exception that leaves `_datagram_received`. -/
inductive Raised
  /-- The `ValueError` of `urlparse` -/
  | malformedUrl
  /-- The `ValueError` of `freshness` -/
  | naiveTimestamp
  deriving DecidableEq, Repr

/-- `_is_safe_json_value`, whose limits are those of `core/protocol.py`. -/
def isSafeJsonValue (value : Value F) : Bool := Core.isSafeJsonValue value

/-- `_optional_dict` of a member. -/
def optionalDict : Option (Value F) → Option (List (Key F × Value F))
  | none | some .none => some []
  | some (.dict items) => some items
  | _ => none

/-! ## Packets -/

/-- `_encode_packet` -/
def encodePacket (settings : Settings F) (payload : List (Key F × Value F)) :
    Except DiscoveryError Bytes :=
  if isSafeJsonValue (.dict payload) then
    match (dumpsAscii (.dict payload)).bind encodeUtf8 with
    | none => .error .notSerializable
    | some data =>
        if data.length > settings.maxDatagramSize then
          .error (.packetTooLarge settings.maxDatagramSize)
        else .ok data
  else .error .unsafeData

/-- `value == PROTOCOL_VERSION`, as Python compares numbers and booleans. -/
def isDiscoveryVersion : Option (Value F) → Bool
  | some (.int i) => i = discoveryVersion
  | some (.bool b) => b
  | some (.float x) => PyFloat.isFinite x && PyFloat.repr x = ofChars ['1', '.', '0']
  | _ => false

/-- `_decode_packet` -/
def decodePacket (data : Bytes) : Option (List (Key F × Value F)) :=
  match (decodeUtf8 data).bind (loads uniqueJsonObject) with
  | some (.dict payload) =>
      if !isSafeJsonValue (.dict payload : Value F) then none
      else if !isDiscoveryVersion (dictGet payload paqtoKey) then none
      else some payload
  | _ => none

/-- An endpoint in an announcement. -/
def endpointPayload (endpoint : Endpoint F) : Value F :=
  .dict [(.str transportKey, .str endpoint.transport),
    (.str addressKey, .str endpoint.address),
    (.str metadataKey, .dict endpoint.metadata)]

/-- `_announce_payload` -/
def announcePayload (d : LanDiscovery F) : Except DiscoveryError (List (Key F × Value F)) :=
  match d.localPeer with
  | none => .error .announceNotStarted
  | some localPeer => .ok
      [(.str paqtoKey, .int discoveryVersion),
        (.str kindKey, .str announceKind),
        (.str peerKey, .dict
          [(.str idKey, .str localPeer.id),
            (.str nameKey, (localPeer.name.map .str).getD .none),
            (.str metadataKey, .dict localPeer.metadata)]),
        (.str endpointsKey, .list (d.endpoints.map endpointPayload)),
        (.str metadataKey, .dict d.settings.metadata)]

/-- `_send_packet`: what is sent. -/
def sendPacket (env : Environment) (d : LanDiscovery F) (payload : List (Key F × Value F))
    (addr : SocketAddress) : Except DiscoveryError Bytes :=
  if !d.started then .error .sendNotStarted
  else do
    let data ← encodePacket d.settings payload
    match env.sendto data addr with
    | some _ => .error (.sendFailed addr)
    | none => .ok data

/-- `_send_announce` -/
def sendAnnounce (env : Environment) (d : LanDiscovery F) (addr : Option SocketAddress) :
    Except DiscoveryError Bytes := do
  let payload ← announcePayload d
  sendPacket env d payload (addr.getD d.settings.broadcastAddress)

/-! ## Incoming datagrams -/

/-- What a callback leaves behind. -/
structure Outcome (F : Type) where
  raised : Option Raised
  discovery : LanDiscovery F
  /-- The answer that was sent, and its destination. -/
  sent : Option (Bytes × SocketAddress)

/-- The callback has returned, and nothing has changed. -/
def ignored (d : LanDiscovery F) : Outcome F := ⟨none, d, none⟩

/-- `_parse_peer` -/
def parsePeer : Option (Value F) → Option (Peer F)
  | some (.dict value) =>
      match dictGet value idKey with
      | some (.str []) => none
      | some (.str peerId) =>
          match dictGet value nameKey with
          | none | some .none =>
              (optionalDict (dictGet value metadataKey)).map fun m => ⟨peerId, none, m⟩
          | some (.str name) =>
              (optionalDict (dictGet value metadataKey)).map fun m => ⟨peerId, some name, m⟩
          | _ => none
      | _ => none
  | _ => none

section Url

variable [UrlLib]

/-- `_parse_endpoint` -/
def parseEndpoint : Value F → Except Raised (Option (Endpoint F))
  | .dict value =>
      if !isStr (dictGet value transportKey) transportName then .ok none
      else
        match dictGet value addressKey with
        | some (.str address) =>
            match parseTcpAddress address with
            | .error .valueError => .error .malformedUrl
            | .error _ => .ok none
            | .ok _ =>
                .ok ((optionalDict (dictGet value metadataKey)).map fun m =>
                  ⟨transportName, address, m⟩)
        | _ => .ok none
  | _ => .ok none

/-- The loop of `_parse_endpoints`. -/
def parseEndpointItems : List (Value F) → Except Raised (List (Endpoint F))
  | [] => .ok []
  | item :: items => do
      let endpoint ← parseEndpoint item
      let endpoints ← parseEndpointItems items
      return endpoint.toList ++ endpoints

/-- `_parse_endpoints` -/
def parseEndpoints : Option (Value F) → Except Raised (Option (List (Endpoint F)))
  | some (.list items) => (parseEndpointItems items).map some
  | _ => .ok none

end Url

/-- The loop of `_prune_expired`, over the items of the cache. -/
def pruneLoop (ttl : ℚ) (now : Now) :
    List (Str × DiscoveredPeer F) → Dict Str (DiscoveredPeer F) →
      Option Raised × Dict Str (DiscoveredPeer F)
  | [], cache => (none, cache)
  | (peerId, discovered) :: items, cache =>
      let cache := cache.set peerId (discovered.synchronize now)
      match discovered.isFresh ttl now with
      | none => (some .naiveTimestamp, cache)
      | some true => pruneLoop ttl now items cache
      | some false => pruneLoop ttl now items (cache.erase peerId)

/-- `_prune_expired` -/
def pruneExpired (d : LanDiscovery F) (now : Now) : Option Raised × LanDiscovery F :=
  match d.settings.peerTtl with
  | none => (none, d)
  | some ttl =>
      let (raised, cache) := pruneLoop ttl now d.discovered.items d.discovered
      (raised, { d with discovered := cache })

/-- The end of `_handle_announce`: what was declared goes to the cache. -/
def cacheAnnounce (now : Now) (d : LanDiscovery F) (peer : Peer F) (endpoints : List (Endpoint F))
    (metadata : List (Key F × Value F)) : Outcome F :=
  match d.discovered.get? peer.id with
  | none =>
      match pruneExpired d now with
      | (some e, d) => ⟨some e, d, none⟩
      | (none, d) =>
          if d.discovered.size ≥ d.settings.maxDiscoveredPeers then ignored d
          else ignored { d with
            discovered := d.discovered.set peer.id (.create now peer endpoints metadata) }
  | some discovered =>
      let discovered := { discovered with peer, endpoints, metadata }
      ignored { d with discovered := d.discovered.set peer.id (discovered.touch now) }

/-- `_handle_announce` -/
def handleAnnounce [UrlLib] (now : Now) (d : LanDiscovery F) (payload : List (Key F × Value F)) :
    Outcome F :=
  match d.localPeer with
  | none => ignored d
  | some localPeer =>
      match parsePeer (dictGet payload peerKey) with
      | none => ignored d
      | some peer =>
          if peer.id = localPeer.id then ignored d
          else
            match parseEndpoints (dictGet payload endpointsKey) with
            | .error e => ⟨some e, d, none⟩
            | .ok none => ignored d
            | .ok (some endpoints) =>
                match optionalDict (dictGet payload metadataKey) with
                | none => ignored d
                | some metadata => cacheAnnounce now d peer endpoints metadata

/-- `_handle_discover`; `addr` is `none` when `_is_socket_address` refuses the
sender's address. -/
def handleDiscover (env : Environment) (d : LanDiscovery F) (payload : List (Key F × Value F))
    (addr : Option SocketAddress) : Outcome F :=
  match d.localPeer with
  | none => ignored d
  | some localPeer =>
      match dictGet payload peerIdKey with
      | some (.str peerId) =>
          if peerId = localPeer.id then ignored d
          else
            match addr with
            | none => ignored d
            | some addr =>
                match sendAnnounce env d (some addr) with
                | .error _ => ignored d
                | .ok data => ⟨none, d, some (data, addr)⟩
      | _ => ignored d

/-- `_datagram_received` -/
def datagramReceived [UrlLib] (env : Environment) (d : LanDiscovery F) (data : Bytes)
    (addr : Option SocketAddress) : Outcome F :=
  if data.length > d.settings.maxDatagramSize then ignored d
  else
    match decodePacket data with
    | none => ignored d
    | some payload =>
        if isStr (dictGet payload kindKey) discoverKind then handleDiscover env d payload addr
        else if isStr (dictGet payload kindKey) announceKind then handleAnnounce env.now d payload
        else ignored d

end Lan
end Paqto
