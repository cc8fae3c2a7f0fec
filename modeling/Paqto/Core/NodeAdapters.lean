/-
# The adapters of a node through its lifecycle

`_start_locked`, `_stop_locked` and `_network_changed_serialized` of `core/node.py` over
the adapters of the LAN: `start` and `close` of `TcpListener`, `start`, `create_listener`
and `stop` of `LanTransport`, `start` and `stop` of `LanDiscovery`.

Whoever holds `_lifecycle_lock` is the only one who starts or stops an adapter.  The
callers that wait for the lock are not part of the state: the next of them is the label's
choice, and one that is cancelled while it waits has done nothing.  `start()` runs in the
task of its caller and may be cancelled at each of its awaits; `stop()` and
`network_changed()` run in a task of their own that the caller shields.

Each coroutine in a `gather` is a task that begins when the scheduler says so.  What it
does until its first await is one step, and what it does after its last await another;
how long it waits in between is the environment's choice.
-/

import Paqto.Lan.AdvertisedHost
import Paqto.Lan.TransportLifecycle
import Paqto.Core.Lifecycle

namespace Paqto
namespace Lan

open Python

variable {F : Type} [PyFloat F]

/-! ## The two halves of `_start` -/

namespace LanDiscovery

/-- `_start`, up to `create_datagram_endpoint`. -/
def beginStart [UrlLib] (d : LanDiscovery F) (localPeer : Peer F) (endpoints : List (Endpoint F)) :
    Option StartFailure × LanDiscovery F :=
  if d.started then (some .alreadyStarted, d)
  else if localPeer.id = [] then (some .emptyPeerId, d)
  else
    let d := { d with localPeer := some localPeer }
    match copyValidEndpoints endpoints with
    | .error _ => (some .malformedUrl, d)
    | .ok copied =>
        let d := { d with endpoints := copied }
        match d.ensureAnnounceIsSerializable with
        | .error e => (some (.announcement e), d.clearLocalState)
        | .ok _ => (none, d)

/-- `_start`, from the answer of `create_datagram_endpoint` on. -/
def endStart (d : LanDiscovery F) : SocketOutcome → Option StartFailure × LanDiscovery F
  | .osError => (some .socket, d.clearLocalState)
  | .interrupted => (some .interrupted, d.clearLocalState)
  | .opened => (none, { d with started := true })

/-- **The two halves are `_start`**: what the first raises, `_start` raises before it opens a
socket, and otherwise the second takes the answer of `create_datagram_endpoint`. -/
theorem start_eq [UrlLib] (d : LanDiscovery F) (localPeer : Peer F) (endpoints : List (Endpoint F))
    (socket : SocketOutcome) :
    d.start localPeer endpoints socket =
      match d.beginStart localPeer endpoints with
      | (some e, d') => (some e, d')
      | (none, d') => d'.endStart socket := by
  unfold start beginStart
  by_cases hstarted : d.started = true
  · simp only [if_pos hstarted]
  · simp only [if_neg hstarted]
    by_cases hid : localPeer.id = []
    · simp only [if_pos hid]
    · simp only [if_neg hid]
      cases copyValidEndpoints endpoints with
      | error raised => rfl
      | ok copied =>
          dsimp only
          -- Both sides look at this announcement, and only `start` goes on to the socket.
          cases ensureAnnounceIsSerializable
              { d with localPeer := some localPeer, endpoints := copied } with
          | error failure => rfl
          | ok _ =>
              cases socket with
              | opened => rfl
              | osError => rfl
              | interrupted => rfl

end LanDiscovery

/-! ## The listener -/

/-- What the life of a `TcpListener` is about. -/
structure TcpListener (F : Type) where
  /-- `_server` is not `None`: the port is open. -/
  serving : Bool
  closed : Bool
  localEndpoint : Option (Endpoint F)
  shut : closed = true → serving = false

namespace TcpListener

/-- What `__init__` leaves. -/
def new : TcpListener F := ⟨false, false, none, fun _ => rfl⟩

/-- `_start` has a server. -/
def opened (localEndpoint : Option (Endpoint F)) : TcpListener F :=
  ⟨true, false, localEndpoint, fun h => absurd h Bool.false_ne_true⟩

/-- `_close`, up to its first await. -/
def close (l : TcpListener F) : TcpListener F :=
  if l.closed then l else ⟨false, true, l.localEndpoint, fun _ => rfl⟩

omit [PyFloat F] in
/-- A closed listener serves nobody. -/
theorem close_serving (l : TcpListener F) : l.close.serving = false := by
  unfold close
  split
  · next hclosed => exact l.shut hclosed
  · rfl

end TcpListener

end Lan

namespace Core
namespace NodeAdapters

open Python Paqto.Lan Transition

variable {F : Type} [PyFloat F]

/-! ## A node -/

/-- What the adapters are configured with. -/
structure Config (F : Type) where
  peer : Peer F
  /-- `_host` of the transport -/
  host : Str
  /-- `_advertised_host` of the transport -/
  advertisedHost : Value F

/-- A coroutine in a `gather`. -/
inductive Child
  /-- Its task has not begun. -/
  | created
  | suspended
  | done
  deriving DecidableEq, Repr

/-- `transport.stop()` in a `gather`. -/
inductive TransportChild
  | created
  /-- In its own `gather`, with the listeners whose `close()` has not begun. -/
  | closing (stop : ℕ) (listeners : List ℕ)
  | done
  deriving DecidableEq, Repr

/-- The calls on the adapters in a `gather`. -/
structure Cleanup where
  discovery : Option Child
  listener : Option (ℕ × Child)
  transport : Option TransportChild
  deriving DecidableEq, Repr

namespace Cleanup

/-- The `gather` is over. -/
def isDone (c : Cleanup) : Bool :=
  c.discovery.all (· = .done) && c.listener.all (·.2 = .done) && c.transport.all (· = .done)

/-- The `gather` over the services in `_stop_locked`. -/
def services : Cleanup := ⟨some .created, none, some .created⟩

end Cleanup

/-- Where the holder of the lifecycle lock is suspended; `failed` says that a result of
`_stop_locked` is an error. -/
inductive Pc
  /-- Nobody holds the lock. -/
  | free
  /-- `_start_locked` in `listener.start()` -/
  | openingServer (call : LifecycleCall) (listener : ℕ)
  /-- `_start_locked` in `discovery.start()` -/
  | openingSocket (call : LifecycleCall) (listener : ℕ)
  /-- `_start_locked` in the `gather` of its rollback -/
  | rollingBack (call : LifecycleCall) (cleanup : Cleanup)
  /-- `_stop_locked` in its first `gather` -/
  | closing (call : LifecycleCall) (cleanup : Cleanup)
  /-- `_stop_locked` in the `gather` of the tasks -/
  | gathering (call : LifecycleCall) (failed : Bool)
  /-- `_stop_locked` in its last `gather` -/
  | stopping (call : LifecycleCall) (failed : Bool) (cleanup : Cleanup)
  /-- `_network_changed_serialized` in `discover()` -/
  | discovering
  deriving DecidableEq, Repr

/-- The node with its adapters. -/
structure Node (F : Type) where
  running : Bool
  /-- `_listener` -/
  listener : Option ℕ
  /-- Every listener that was created. -/
  listeners : ℕ → TcpListener F
  transport : RecordedTransport
  service : ServiceState F
  /-- `_announce_task` of the discovery is not `None`. -/
  announcing : Bool
  pc : Pc
  /-- The last call that has ended, and whether it returned. -/
  ended : Option (LifecycleCall × Bool)

/-- How `asyncio.start_server` ends. -/
inductive ServerOutcome
  | opened (port : ℕ)
  /-- The server is open, and `_first_sockname` or `parse_sockname` raises. -/
  | unnamed
  | osError
  /-- Given up by another exception, such as a cancellation. -/
  | interrupted
  deriving DecidableEq, Repr

/-- A step of a coroutine in a `gather`. -/
inductive ChildLabel
  | discovery
  | listener
  | transport
  /-- `close()` of a listener, in the `gather` of `transport.stop()` -/
  | tracked (listener : ℕ)
  deriving DecidableEq, Repr

/-- The moves of the lifecycle calls and of the network. -/
inductive Label (F : Type)
  /-- A call gets the lock.  `tls` says that the TLS contexts can be built. -/
  | acquire (call : LifecycleCall) (tls : Bool)
  | server (outcome : ServerOutcome)
  | socket (outcome : SocketOutcome)
  | child (child : ChildLabel)
  /-- The holder of the lock goes on after a `gather`.  `failed` says that a connection or a
  listener could not be closed. -/
  | gathered (failed tls : Bool)
  /-- `start()` is cancelled in the `gather` of its rollback. -/
  | interrupt
  /-- `discover()` returns to `network_changed()`, or raises. -/
  | discovered (returned : Bool)
  /-- The discovery service goes on by itself. -/
  | service (label : ServiceLabel F)
  /-- The transport connects. -/
  | transport (label : LanTransport.Label)

namespace Node

/-! ## Ends -/

/-- The holder of the lock releases it. -/
def release (s : Node F) (call : LifecycleCall) (returned : Bool) : Node F :=
  { s with pc := .free, ended := some (call, returned) }

/-- A listener changes. -/
def setListener (s : Node F) (l : ℕ) (listener : TcpListener F) : Node F :=
  { s with listeners := Function.update s.listeners l listener }

/-- The discovery changes. -/
def setDiscovery (s : Node F) (d : LanDiscovery F) : Node F :=
  { s with service := { s.service with discovery := d } }

/-! ## `_start_locked` -/

/-- The `except` of `_start_locked`, up to its `gather`. -/
def rollBack (s : Node F) (call : LifecycleCall) (discovery : Bool) (listener : Option ℕ) : Node F :=
  { s with
    pc := .rollingBack call
      { discovery := if discovery then some .created else none
        listener := listener.map (·, .created)
        transport := some .created } }

/-- `_start_locked`, up to `asyncio.start_server`. -/
def startLocked (s : Node F) (call : LifecycleCall) (tls : Bool) : Node F :=
  if !s.transport.started && !tls then s.rollBack call false none
  else
    let l := s.transport.nextListener
    { s.setListener l .new with
      transport :=
        { s.transport with toLanTransport := s.transport.toLanTransport.start }.createListener
      pc := .openingServer call l }

/-- `_start` of the listener after `start_server`, and `_start_locked` from there up to the
socket of the discovery. -/
def serverOpened [UrlLib] [HostLib] (config : Config F) (s : Node F) (call : LifecycleCall) (l : ℕ)
    (port : ℕ) : Node F :=
  match buildLocalEndpoint [] config.advertisedHost config.host port with
  | .error _ => (s.setListener l (.opened none)).rollBack call false (some l)
  | .ok endpoint =>
      let t := s.setListener l (.opened (some endpoint))
      match t.service.discovery.beginStart config.peer [endpoint] with
      | (some _, d) => (t.setDiscovery d).rollBack call true (some l)
      | (none, d) => { t.setDiscovery d with pc := .openingSocket call l }

/-- `_start_locked` after `asyncio.start_server`. -/
def server [UrlLib] [HostLib] (config : Config F) (s : Node F) (call : LifecycleCall) (l : ℕ) :
    ServerOutcome → Node F
  | .opened port => s.serverOpened config call l port
  | .unnamed => (s.setListener l (.opened none)).rollBack call false (some l)
  | .osError => s.rollBack call false (some l)
  | .interrupted => s.rollBack call false (some l)

/-- `_start_locked` after the socket of the discovery. -/
def socket (s : Node F) (call : LifecycleCall) (l : ℕ) (outcome : SocketOutcome) : Node F :=
  match s.service.discovery.endStart outcome with
  | (some _, d) => (s.setDiscovery d).rollBack call true (some l)
  | (none, d) =>
      let t := { s.setDiscovery d with running := true, listener := some l, announcing := true }
      if call = .networkChanged then { t with pc := .discovering } else t.release call true

/-! ## The coroutines of a `gather` -/

/-- `_stop` of the discovery after its await. -/
def endDiscovery (s : Node F) : Node F := s.setDiscovery s.service.discovery.stop

/-- A step of `discovery.stop()`. -/
def runDiscovery (s : Node F) : Child → Option (Node F × Child)
  | .created =>
      if s.announcing then some ({ s with announcing := false }, .suspended)
      else some (s.endDiscovery, .done)
  | .suspended => some (s.endDiscovery, .done)
  | .done => none

/-- A step of `listener.close()`. -/
def runListener (s : Node F) (l : ℕ) : Child → Option (Node F × Child)
  | .created => some (s.setListener l (s.listeners l).close, .suspended)
  | .suspended => some (s, .done)
  | .done => none

/-- A step of `transport.stop()`. -/
def runTransport (s : Node F) : TransportChild → Option (Node F × TransportChild)
  | .created =>
      some ({ s with transport := s.transport.record .stop s.transport.toLanTransport.stop },
        .closing s.transport.nextStop s.transport.listeners)
  | .closing stop [] =>
      (s.transport.toLanTransport.finish stop).map fun t =>
        ({ s with transport := s.transport.record (.finish stop) t }, .done)
  | _ => none

/-- A listener that `transport.stop()` closes. -/
def runTracked (s : Node F) (l : ℕ) : TransportChild → Option (Node F × TransportChild)
  | .closing stop listeners =>
      if l ∈ listeners then
        some (s.setListener l (s.listeners l).close, .closing stop (listeners.erase l))
      else none
  | _ => none

/-- A step of a coroutine in a `gather`. -/
def run (s : Node F) (c : Cleanup) : ChildLabel → Option (Node F × Cleanup)
  | .discovery => c.discovery.bind fun child =>
      (s.runDiscovery child).map fun r => (r.1, { c with discovery := some r.2 })
  | .listener => c.listener.bind fun p =>
      (s.runListener p.1 p.2).map fun r => (r.1, { c with listener := some (p.1, r.2) })
  | .transport => c.transport.bind fun child =>
      (s.runTransport child).map fun r => (r.1, { c with transport := some r.2 })
  | .tracked l => c.transport.bind fun child =>
      (s.runTracked l child).map fun r => (r.1, { c with transport := some r.2 })

/-- A step of a coroutine in the `gather` that the holder of the lock is in. -/
def child (s : Node F) (label : ChildLabel) : Option (Node F) :=
  match s.pc with
  | .rollingBack call c => (s.run c label).map fun r => { r.1 with pc := .rollingBack call r.2 }
  | .closing call c => (s.run c label).map fun r => { r.1 with pc := .closing call r.2 }
  | .stopping call failed c =>
      (s.run c label).map fun r => { r.1 with pc := .stopping call failed r.2 }
  | _ => none

/-! ## `_stop_locked` -/

/-- `_stop_locked`, up to its first `gather`. -/
def beginStop (s : Node F) (call : LifecycleCall) : Node F :=
  { s with
    running := false
    listener := none
    pc := .closing call ⟨none, s.listener.map (·, .created), none⟩ }

/-- The holder of the lock goes on after a `gather`. -/
def gathered (s : Node F) (failed tls : Bool) : Option (Node F) :=
  match s.pc with
  | .rollingBack call c =>
      if c.isDone then some ({ s with listener := none }.release call false) else none
  | .closing call c => if c.isDone then some { s with pc := .gathering call failed } else none
  | .gathering call failed => some { s with pc := .stopping call failed .services }
  | .stopping call failed c =>
      if !c.isDone then none
      else if failed then some (s.release call false)
      else if call = .networkChanged then some (s.startLocked call tls)
      else some (s.release call true)
  | _ => none

/-- The call that gets the lock. -/
def acquire (s : Node F) (call : LifecycleCall) (tls : Bool) : Node F :=
  match call with
  | .start => if s.running then s.release .start false else s.startLocked .start tls
  | .stop => if s.running then s.beginStop .stop else s.release .stop true
  | .networkChanged =>
      if s.running then s.beginStop .networkChanged else s.release .networkChanged false

/-! ## Runs -/

/-- One step. -/
def step [UrlLib] [HostLib] (config : Config F) (s : Node F) : Label F → Option (Node F)
  | .acquire call tls => if s.pc = .free then some (s.acquire call tls) else none
  | .server outcome =>
      match s.pc with
      | .openingServer call l => some (s.server config call l outcome)
      | _ => none
  | .socket outcome =>
      match s.pc with
      | .openingSocket call l => some (s.socket call l outcome)
      | _ => none
  | .child label => s.child label
  | .gathered failed tls => s.gathered failed tls
  | .interrupt =>
      match s.pc with
      -- The tasks of the `gather` are cancelled, and one that has not begun never does.
      | .rollingBack .start _ => some (s.release .start false)
      | _ => none
  | .discovered returned =>
      if s.pc = .discovering then some (s.release .networkChanged returned) else none
  | .service label =>
      match label with
      | .start .. | .stop => none
      | label => (s.service.step label).map fun t => { s with service := t }
  | .transport label =>
      match label with
      | .start | .stop | .finish _ => none
      | label => (s.transport.step (.transport label)).map fun t => { s with transport := t }

/-- What the constructors leave. -/
def Initial (s : Node F) : Prop :=
  ∃ service, service.Initial ∧ s = ⟨false, none, fun _ => .new, .initial, service, false, .free, none⟩

/-- The runs of a node. -/
def system [UrlLib] [HostLib] (config : Config F) : System (Node F) (Label F) :=
  ⟨Initial, step config⟩

/-- No rollback is cancelled. -/
def Uninterrupted (_ : Node F) (label : Label F) : Prop := label ≠ .interrupt

end Node

end NodeAdapters
end Core
end Paqto
