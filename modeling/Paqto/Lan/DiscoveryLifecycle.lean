/-
# LAN discovery through its life

`start()`, `stop()` and `discover()` of `LanDiscovery`, and the runs in which they
interleave with datagrams and expiry.

`start()` suspends once, while the event loop opens the socket; the first datagram
of a socket is delivered only after that, so `start` is one step.  `discover()`
sends its request and sleeps; what it returns is decided when it wakes up.
-/

import Paqto.Lan.Discovery
import Paqto.Transition.System

namespace Paqto
namespace Lan

open Python Paqto.Core Transition

variable {F : Type} [PyFloat F]

/-! ## Start and stop -/

/-- `_copy_valid_endpoint` -/
def copyValidEndpoint [UrlLib] (endpoint : Endpoint F) : Except Raised (Option (Endpoint F)) :=
  if endpoint.transport ≠ transportName then .ok none
  else
    match parseTcpAddress endpoint.address with
    | .error .valueError => .error .malformedUrl
    | .error _ => .ok none
    | .ok _ => .ok (some ⟨transportName, endpoint.address, endpoint.metadata⟩)

/-- The endpoints that `_start` publishes. -/
def copyValidEndpoints [UrlLib] : List (Endpoint F) → Except Raised (List (Endpoint F))
  | [] => .ok []
  | endpoint :: endpoints => do
      let copied ← copyValidEndpoint endpoint
      let rest ← copyValidEndpoints endpoints
      return copied.toList ++ rest

/-- How the socket is opened: bound, refused by an `OSError`, or given up by
another exception, such as a cancellation. -/
inductive SocketOutcome
  | opened
  | osError
  | interrupted
  deriving DecidableEq, Repr

/-- What leaves `start()`. -/
inductive StartFailure
  /-- "LAN discovery is already started." -/
  | alreadyStarted
  /-- "LAN discovery requires a non-empty local peer id." -/
  | emptyPeerId
  /-- The `ValueError` of `urlparse` -/
  | malformedUrl
  /-- The announcement cannot be encoded. -/
  | announcement (e : DiscoveryError)
  /-- "Could not start LAN discovery on UDP port …." -/
  | socket
  | interrupted
  deriving DecidableEq

namespace LanDiscovery

/-- What `__init__` leaves. -/
def new (settings : Settings F) : LanDiscovery F := ⟨settings, none, [], Dict.empty, false⟩

/-- `_clear_local_state` -/
def clearLocalState (d : LanDiscovery F) : LanDiscovery F :=
  { d with localPeer := none, endpoints := [] }

/-- `_ensure_announce_is_serializable` -/
def ensureAnnounceIsSerializable (d : LanDiscovery F) : Except DiscoveryError Unit := do
  let payload ← announcePayload d
  let _ ← encodePacket d.settings payload

/-- `_start` -/
def start [UrlLib] (d : LanDiscovery F) (localPeer : Peer F) (endpoints : List (Endpoint F))
    (socket : SocketOutcome) : Option StartFailure × LanDiscovery F :=
  if d.started then (some .alreadyStarted, d)
  else if localPeer.id = [] then (some .emptyPeerId, d)
  else
    let d := { d with localPeer := some localPeer }
    match copyValidEndpoints endpoints with
    -- Nothing clears the local peer here.
    | .error _ => (some .malformedUrl, d)
    | .ok copied =>
        let d := { d with endpoints := copied }
        match d.ensureAnnounceIsSerializable with
        | .error e => (some (.announcement e), d.clearLocalState)
        | .ok _ =>
            match socket with
            | .osError => (some .socket, d.clearLocalState)
            | .interrupted => (some .interrupted, d.clearLocalState)
            | .opened => (none, { d with started := true })

/-- `_stop` -/
def stop (d : LanDiscovery F) : LanDiscovery F :=
  { d.clearLocalState with started := false, discovered := Dict.empty }

/-! ## Discover -/

/-- What leaves `discover()` before it sleeps. -/
inductive DiscoverFailure
  /-- "LAN discovery must be started before discover()." -/
  | notStarted
  | sending (e : DiscoveryError)
  /-- "timeout must be greater than or equal to zero." -/
  | negativeTimeout
  deriving DecidableEq

/-- `_send_discover` -/
def sendDiscover (d : LanDiscovery F) (env : Environment) : Except DiscoverFailure Unit :=
  match d.localPeer with
  | none => .error .notStarted
  | some localPeer =>
      match sendPacket env d
        [(.str paqtoKey, .int discoveryVersion), (.str kindKey, .str discoverKind),
          (.str peerIdKey, .str localPeer.id)] d.settings.broadcastAddress with
      | .error e => .error (.sending e)
      | .ok _ => .ok ()

/-- `_collection_window` -/
def collectionWindow (defaultTimeout : ℚ) (timeout : Option ℚ) : Except DiscoverFailure ℚ :=
  let value := timeout.getD defaultTimeout
  if value < 0 then .error .negativeTimeout
  else .ok (max 0 (value - min (1 / 10) (value * (2 / 10))))

/-- `discover` up to its sleep: how long it is. -/
def beginDiscover (d : LanDiscovery F) (env : Environment) (defaultTimeout : ℚ)
    (timeout : Option ℚ) : Except DiscoverFailure ℚ := do
  if !d.started then .error .notStarted
  d.sendDiscover env
  collectionWindow defaultTimeout timeout

/-- `discover` after its sleep: what it returns, and what it leaves. -/
def endDiscover (d : LanDiscovery F) (now : Now) :
    Except Raised (List (DiscoveredPeer F)) × LanDiscovery F :=
  match pruneExpired d now with
  | (some e, d) => (.error e, d)
  | (none, d) => (.ok d.discovered.values, d)

end LanDiscovery

/-! ## Runs -/

/-- The service among its datagrams, its callers and its clocks. -/
structure ServiceState (F : Type) where
  discovery : LanDiscovery F
  now : Now
  /-- `_default_discover_timeout` -/
  defaultTimeout : ℚ
  /-- When the sleeping calls of `discover()` wake up. -/
  collecting : List ℚ

/-- What can happen. -/
inductive ServiceLabel (F : Type)
  /-- A datagram of any sender; an answer meets `sendto`. -/
  | datagram (data : Bytes) (addr : Option SocketAddress)
      (sendto : Bytes → SocketAddress → Option SendError)
  /-- The monotonic clock goes on, and the wall clock jumps anywhere. -/
  | time (now : Now)
  | prune
  | discover (timeout : Option ℚ) (sendto : Bytes → SocketAddress → Option SendError)
  /-- A call of `discover()` wakes up and returns. -/
  | collected (call : ℕ)
  | start (localPeer : Peer F) (endpoints : List (Endpoint F)) (socket : SocketOutcome)
  | stop

namespace ServiceState

/-- One step; datagrams come from an open socket. -/
def step [UrlLib] (s : ServiceState F) : ServiceLabel F → Option (ServiceState F)
  | .datagram data addr sendto =>
      if s.discovery.started then
        some { s with discovery := (datagramReceived ⟨s.now, sendto⟩ s.discovery data addr).discovery }
      else none
  | .time now => if s.now.monotonic ≤ now.monotonic then some { s with now } else none
  | .prune => some { s with discovery := (pruneExpired s.discovery s.now).2 }
  | .discover timeout sendto =>
      match s.discovery.beginDiscover ⟨s.now, sendto⟩ s.defaultTimeout timeout with
      | .error _ => some s
      | .ok window => some { s with collecting := s.collecting ++ [s.now.monotonic + window] }
  | .collected call =>
      match s.collecting[call]? with
      | none => none
      | some wakeUp =>
          if wakeUp ≤ s.now.monotonic then
            some { s with
              discovery := (s.discovery.endDiscover s.now).2
              collecting := s.collecting.eraseIdx call }
          else none
  | .start localPeer endpoints socket =>
      some { s with discovery := (s.discovery.start localPeer endpoints socket).2 }
  | .stop => some { s with discovery := s.discovery.stop }

/-- A service that has just been made. -/
def Initial (s : ServiceState F) : Prop :=
  ∃ settings now defaultTimeout, s = ⟨.new settings, now, defaultTimeout, []⟩

/-- The runs of a service. -/
def system (F : Type) [PyFloat F] [UrlLib] : System (ServiceState F) (ServiceLabel F) :=
  ⟨Initial, step⟩

end ServiceState

end Lan
end Paqto
