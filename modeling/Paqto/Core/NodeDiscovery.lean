/-
# Nodes and their discovery

`discover()`, `connect()` up to its dial and `_remember` of `core/node.py`, of any number
of nodes with a `LanDiscovery` each, over the network of `Paqto.Lan.DiscoveryNetwork`.

The node keeps the `DiscoveredPeer` objects that its service returns.  The service goes on
writing to the one it caches for a peer, in `_known_peers` of the node as well, and never
again to one that it has dropped.  The application may make one itself, for a peer of which
it has learned otherwise, and pass it to `connect()`.  A `Ref` says which of the three an
object is.

A step is what one task does between two suspensions.  `connect()` of a `Peer` and a
reconnect loop look up `_known_peers`; what they find, what `discover()` has returned and
what the application has made is `held` until it is dialed, at any later time.  A `Peer` that
is not known, but has a READY connection, gets that connection and is not dialed.
-/

import Paqto.Core.KnownPeers
import Paqto.Lan.DiscoveryNetwork

namespace Paqto
namespace Core

open Python Transition Paqto.Lan

variable {F : Type} [PyFloat F]

namespace NodeDiscovery

export KnownPeers (Config)

/-! ## Objects -/

/-- `DiscoveredPeer(peer, endpoints, last_seen, metadata)` -/
def construct (now : Now) (peer : Peer F) (endpoints : List (Endpoint F)) (lastSeen : Datetime)
    (metadata : List (Key F × Value F)) : DiscoveredPeer F :=
  DiscoveredPeer.anchorMonotonicAge ⟨peer, endpoints, lastSeen, metadata, 0, lastSeen⟩ now

/-- A `DiscoveredPeer`: the one that the service caches for the peer, one that it has
dropped, or one that the application has made. -/
inductive Ref (F : Type)
  | cached (id : Str)
  | dropped (discovered : DiscoveredPeer F)
  | made (discovered : DiscoveredPeer F)

namespace Ref

/-- `peer.id` -/
def id : Ref F → Str
  | cached id => id
  | dropped discovered => discovered.peer.id
  | made discovered => discovered.peer.id

/-- The object. -/
def read (cache : Dict Str (DiscoveredPeer F)) : Ref F → Option (DiscoveredPeer F)
  | cached id => cache.get? id
  | dropped discovered => some discovered
  | made discovered => some discovered

/-- The object after a step of the service: what it drops stays as it was. -/
def settle (cache cache' : Dict Str (DiscoveredPeer F)) : Ref F → Ref F
  | cached id =>
      match cache.get? id, cache'.get? id with
      | some discovered, none => dropped discovered
      | _, _ => cached id
  | dropped discovered => dropped discovered
  | made discovered => made discovered

end Ref

/-! ## Nodes -/

/-- `PEER_DISCOVERED` and `PEER_EXPIRED` as they are emitted, and the end of a `stop()`. -/
inductive Report
  | discovered (id : Str)
  | expired (id : Str)
  | stopped
  deriving DecidableEq

/-- A call of `transport.connect`. -/
structure Dial (F : Type) where
  id : Str
  endpoint : Endpoint F
  time : ℚ

/-- What a node keeps of its peers. -/
structure View (F : Type) where
  /-- `_running` -/
  running : Bool
  /-- `_lifecycle_generation` -/
  generation : ℕ
  /-- `_known_peers` -/
  known : Dict Str (Ref F)
  /-- The calls of `discover()` that wait for the service: their generations. -/
  waiting : List ℕ
  /-- The calls that the service has returned to, with what it returned. -/
  returned : List (ℕ × List (Ref F))
  held : List (Ref F)
  /-- What the application has made. -/
  made : List (DiscoveredPeer F)
  dials : List (Dial F)
  reports : List Report

namespace View

/-- The view of a node that has just been made. -/
def initial : View F := ⟨false, 0, Dict.empty, [], [], [], [], [], []⟩

/-- The view after a change of the cache. -/
def settle (cache cache' : Dict Str (DiscoveredPeer F)) (v : View F) : View F :=
  { v with
    known := v.known.map (Ref.settle cache cache')
    returned := v.returned.map fun call => (call.1, call.2.map (Ref.settle cache cache'))
    held := v.held.map (Ref.settle cache cache') }

/-- Something is reported. -/
def report (v : View F) (r : Report) : View F := { v with reports := v.reports ++ [r] }

/-- A turn of the first loop of `discover()`. -/
def expire (isFresh : Ref F → Bool) (v : View F) (item : Str × Ref F) : View F :=
  if isFresh item.2 then v else { v with known := v.known.erase item.1 }.report (.expired item.1)

/-- The first loop of `discover()`. -/
def dropExpired (isFresh : Ref F → Bool) (v : View F) : View F :=
  v.known.items.foldl (expire isFresh) v

/-- `_remember` -/
def remember (config : Config) (cache : Dict Str (DiscoveredPeer F)) (v : View F) (ref : Ref F) :
    View F :=
  if ref.id = config.localId then v
  else
    match (v.known.get? ref.id).bind (Ref.read cache), ref.read cache with
    | some existing, some discovered =>
        if existing.lastSeen.instant > discovered.lastSeen.instant then v
        else { v with known := v.known.set ref.id ref }
    | _, _ => { v with known := v.known.set ref.id ref }

/-- A turn of the last loop of `discover()`. -/
def observe (config : Config) (cache : Dict Str (DiscoveredPeer F)) (v : View F) (ref : Ref F) :
    View F :=
  let v' := v.remember config cache ref
  if v.known.get? ref.id = none then v'.report (.discovered ref.id) else v'

end View

/-- What the service of a node caches. -/
def cache (net : Network F) (i : ℕ) : Dict Str (DiscoveredPeer F) :=
  (net.services i).discovery.discovered

/-- The clocks of a service. -/
def now (net : Network F) (i : ℕ) : Now := (net.services i).now

/-- The network, and what each node knows. -/
structure Nodes (F : Type) where
  net : Network F
  view : ℕ → View F
  /-- The datagrams that each service was handed, and when. -/
  heard : ℕ → List (ℚ × Bytes)

/-- The moves of the network and of the nodes. -/
inductive Label (F : Type)
  | net (label : NetworkLabel F)
  /-- `start()` has started the adapters. -/
  | start (i : ℕ)
  /-- `stop()` begins. -/
  | stop (i : ℕ)
  /-- `stop()` clears `_known_peers`. -/
  | forget (i : ℕ)
  /-- `discover()` is called. -/
  | discover (i : ℕ)
  /-- A call of `discover()` of the service returns to a call of the node. -/
  | collected (i call waiting : ℕ)
  /-- A call of `discover()` goes on. -/
  | finish (i call : ℕ)
  /-- `connect()` of a `Peer`, or a reconnect loop, finds the peer in `_known_peers`. -/
  | resolve (i : ℕ) (id : Str)
  /-- The application makes a `DiscoveredPeer` for `connect()`, with a `last_seen` that has a
  time zone, or with the default. -/
  | make (i : ℕ) (peer : Peer F) (endpoints : List (Endpoint F)) (lastSeen : Datetime)
      (metadata : List (Key F × Value F))
  /-- `_connect_discovered` of what is held, up to its dial. -/
  | connect (i k : ℕ)
  /-- `_connect_discovered` has its connection. -/
  | connected (i k : ℕ)

namespace Nodes

/-- A view changes. -/
def setView (s : Nodes F) (i : ℕ) (v : View F) : Nodes F :=
  { s with view := Function.update s.view i v }

/-- The network takes a step. -/
def follow (s : Nodes F) (net : Network F) : Nodes F :=
  { s with
    net
    view := fun i => (s.view i).settle (cache s.net i) (cache net i) }

/-- A datagram is heard. -/
def hear (s : Nodes F) (i : ℕ) (data : Option Bytes) : Nodes F :=
  { s with
    heard := Function.update s.heard i (s.heard i ++ data.toList.map fun d => ((now s.net i).monotonic, d)) }

/-- `is_fresh(config.peer_ttl)` of an object. -/
def isFresh (config : Config) (s : Nodes F) (i : ℕ) (ref : Ref F) : Bool :=
  (ref.read (cache s.net i)).any (KnownPeers.isFresh config (now s.net i))

/-- One step. -/
def step [UrlLib] (config : ℕ → Config) (s : Nodes F) : Label F → Option (Nodes F)
  | .net label =>
      match label with
      | .deliver i k addr sendto =>
          (s.net.step (.deliver i k addr sendto)).map fun net => (s.hear i s.net.air[k]?).follow net
      | label => (s.net.step label).map s.follow
  | .start i =>
      let v := s.view i
      if v.running then none
      else some (s.setView i { v with running := true, generation := v.generation + 1 })
  | .stop i =>
      let v := s.view i
      if v.running then some (s.setView i { v with running := false }) else none
  | .forget i =>
      let v := s.view i
      if v.running then none else some (s.setView i ({ v with known := Dict.empty }.report .stopped))
  | .discover i =>
      let v := s.view i
      if v.running then
        let v := v.dropExpired (s.isFresh (config i) i)
        some (s.setView i { v with waiting := v.waiting ++ [v.generation] })
      else none
  | .collected i call waiting =>
      match (s.view i).waiting[waiting]?, s.net.step (.own i (.collected call)) with
      | some generation, some net =>
          let s' := s.follow net
          let v := { s'.view i with waiting := (s'.view i).waiting.eraseIdx waiting }
          match ((s.net.services i).discovery.endDiscover (now s.net i)).1 with
          | .error _ => some (s'.setView i v)
          | .ok _ =>
              some (s'.setView i { v with
                returned := v.returned ++
                  [(generation, (cache s'.net i).items.map fun item => .cached item.1)] })
      | _, _ => none
  | .finish i call =>
      let v := s.view i
      match v.returned[call]? with
      | none => none
      | some (generation, refs) =>
          let v := { v with returned := v.returned.eraseIdx call }
          if !v.running || generation ≠ v.generation then some (s.setView i v)
          else
            let peers := refs.filter (s.isFresh (config i) i)
            some (s.setView i
              (peers.foldl (View.observe (config i) (cache s.net i)) { v with held := v.held ++ peers }))
  | .resolve i id =>
      let v := s.view i
      match v.known.get? id with
      | none => none
      | some ref => some (s.setView i { v with held := v.held ++ [ref] })
  | .make i peer endpoints lastSeen metadata =>
      let v := s.view i
      if lastSeen.aware then
        let discovered := construct (now s.net i) peer endpoints lastSeen metadata
        some (s.setView i { v with
          held := v.held ++ [.made discovered]
          made := v.made ++ [discovered] })
      else none
  | .connect i k =>
      let v := s.view i
      match v.held[k]?.bind (Ref.read (cache s.net i)) with
      | none => none
      | some discovered =>
          if KnownPeers.isFresh (config i) (now s.net i) discovered then
            match KnownPeers.endpointFor discovered (config i).transport with
            | none => some s
            | some endpoint =>
                some (s.setView i { v with
                  dials := v.dials ++ [⟨discovered.peer.id, endpoint, (now s.net i).monotonic⟩] })
          else some (s.setView i (v.report (.expired discovered.peer.id)))
  | .connected i k =>
      let v := s.view i
      match v.held[k]? with
      | none => none
      | some ref => some (s.setView i (v.remember (config i) (cache s.net i) ref))

/-- Nodes that have just been made. -/
def Initial (s : Nodes F) : Prop :=
  s.net.Initial ∧ (∀ i, s.heard i = []) ∧ ∀ i, s.view i = .initial

/-- The runs of the nodes. -/
def system (F : Type) [PyFloat F] [UrlLib] (config : ℕ → Config) : System (Nodes F) (Label F) :=
  ⟨Initial, step config⟩

/-- Each node starts its service as its own peer. -/
def StartsOwn (config : ℕ → Config) (_ : Nodes F) : Label F → Prop
  | .net (.own i (.start localPeer endpoints _)) =>
      localPeer.id = (config i).localId ∧ Textual localPeer endpoints
  | _ => True

end Nodes

end NodeDiscovery

end Core
end Paqto
