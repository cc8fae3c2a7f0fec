/-
# The adapters follow the node

Over every run of a node, through any failures of its adapters and any number of starts,
stops and network changes: a node that runs has one open listener, its transport is
started, and its discovery publishes the endpoint of this listener; a node that does not
run, and that nobody is starting or stopping, holds nothing (`adapters_consistent`).

What each coroutine of a `gather` ensures is kept by the others (`Settled`), so that it
does not matter in which order they begin and end.  Only a `start()` that is cancelled
while it rolls back leaves something behind (`interrupted_rollback`).
-/

import Paqto.Core.NodeAdapters
import Paqto.Lan.DiscoveryNetwork

namespace Paqto
namespace Lan

open Python Paqto.Core Transition

variable {F : Type} [PyFloat F]

/-! ## A service that goes on by itself -/

omit [PyFloat F] in
/-- Where nothing was discovered, nothing expires. -/
theorem pruneExpired_empty {d : LanDiscovery F} (h : d.discovered = Dict.empty) (now : Now) :
    (pruneExpired d now).2 = d := by
  unfold pruneExpired
  split
  · rfl
  · rw [h]
    change { d with discovered := Dict.empty } = d
    rw [← h]

omit [PyFloat F] in
/-- `discover` leaves its adapter as `_prune_expired` does. -/
theorem endDiscover_discovery (d : LanDiscovery F) (now : Now) :
    (d.endDiscover now).2 = (pruneExpired d now).2 := by
  unfold LanDiscovery.endDiscover
  split
  · next hprune => rw [hprune]
  · next hprune => rw [hprune]

/-- Nobody calls `start()` or `stop()`. -/
def ServiceLabel.GoesOn (label : ServiceLabel F) : Prop :=
  (∀ localPeer endpoints socket, label ≠ .start localPeer endpoints socket) ∧ label ≠ .stop

/-- Between `start()` and `stop()` only the cache changes, and a service that is stopped has
none to change. -/
theorem service_frame [UrlLib] {s t : ServiceState F} {label : ServiceLabel F}
    (hlabel : label.GoesOn) (hstep : s.step label = some t) :
    t.discovery = { s.discovery with discovered := t.discovery.discovered } ∧
      (s.discovery.started = false → s.discovery.discovered = Dict.empty →
        t.discovery = s.discovery) := by
  cases label with
  | datagram data addr sendto =>
      obtain ⟨hstarted, ⟨⟩⟩ := Option.ite_none_right_eq_some.1 hstep
      have hleaves := datagramReceived_leaves ⟨s.now, sendto⟩ s.discovery data addr
      obtain ⟨hlocal, hendpoints, hsame⟩ := Network.leaves_local hleaves
      have hsettings := leaves_settings hleaves
      refine ⟨?_, fun hstopped => absurd hstarted (by rw [hstopped]; exact Bool.false_ne_true)⟩
      generalize (datagramReceived ⟨s.now, sendto⟩ s.discovery data addr).discovery = d at *
      obtain ⟨settings, localPeer, endpoints, discovered, started⟩ := d
      dsimp only at hlocal hendpoints hsame hsettings ⊢
      rw [hlocal, hendpoints, hsame, hsettings]
  | time now =>
      obtain ⟨-, ⟨⟩⟩ := Option.ite_none_right_eq_some.1 hstep
      exact ⟨rfl, fun _ _ => rfl⟩
  | prune =>
      cases hstep
      exact ⟨pruneExpired_eq .., fun _ hempty => pruneExpired_empty hempty _⟩
  | discover timeout sendto =>
      simp only [ServiceState.step] at hstep
      split at hstep <;> cases hstep
      · exact ⟨rfl, fun _ _ => rfl⟩
      · exact ⟨rfl, fun _ _ => rfl⟩
  | collected call =>
      simp only [ServiceState.step] at hstep
      split at hstep
      · cases hstep
      · obtain ⟨-, ⟨⟩⟩ := Option.ite_none_right_eq_some.1 hstep
        dsimp only
        rw [endDiscover_discovery]
        exact ⟨pruneExpired_eq .., fun _ hempty => pruneExpired_empty hempty _⟩
  | start localPeer endpoints socket => exact absurd rfl (hlabel.1 localPeer endpoints socket)
  | stop => exact absurd rfl hlabel.2

/-- What a stop leaves. -/
structure LanDiscovery.Cleared (d : LanDiscovery F) : Prop where
  started : d.started = false
  localPeer : d.localPeer = none
  endpoints : d.endpoints = []
  discovered : d.discovered = Dict.empty

omit [PyFloat F] in
/-- A stopped discovery holds nothing. -/
theorem LanDiscovery.cleared_stop (d : LanDiscovery F) : d.stop.Cleared := ⟨rfl, rfl, rfl, rfl⟩

/-- What `_start` has prepared where it opens its socket. -/
theorem beginStart_prepares [UrlLib] {d d' : LanDiscovery F} {localPeer : Peer F}
    {endpoints : List (Endpoint F)} (h : d.beginStart localPeer endpoints = (none, d')) :
    ∃ copied, copyValidEndpoints endpoints = .ok copied ∧ d.started = false ∧
      d' = { d with localPeer := some localPeer, endpoints := copied } := by
  unfold LanDiscovery.beginStart at h
  split at h
  · cases h
  · next hstopped =>
      split at h
      · cases h
      · dsimp only at h
        split at h
        · cases h
        · next copied hcopied =>
            split at h
            · cases h
            · cases h
              exact ⟨copied, hcopied, Bool.eq_false_iff.2 hstopped, rfl⟩

/-! ## A transport that goes on by itself -/

/-- The transport is stopped. -/
structure RecordedTransport.Closed (s : RecordedTransport) : Prop where
  started : s.started = false
  listeners : s.listeners = []
  connections : s.connections = []

/-- Between `start()` and `stop()` the listeners stay, and a transport that is stopped tracks
nothing. -/
theorem transport_frame {s t : RecordedTransport} {label : LanTransport.Label}
    (hstart : label ≠ .start) (hstop : label ≠ .stop) (hstep : s.step (.transport label) = some t) :
    t.started = s.started ∧ t.listeners = s.listeners ∧ t.nextListener = s.nextListener ∧
      (s.started = false → t.connections = s.connections) := by
  obtain ⟨u, hu, rfl⟩ := Option.map_eq_some_iff.1 hstep
  cases label with
  | start => exact absurd rfl hstart
  | stop => exact absurd rfl hstop
  | closeOne i c =>
      change s.toLanTransport.closeOne i c = some u at hu
      unfold LanTransport.closeOne at hu
      split at hu
      · obtain ⟨-, ⟨⟩⟩ := Option.ite_none_right_eq_some.1 hu
        exact ⟨rfl, rfl, rfl, fun _ => rfl⟩
      · cases hu
  | finish i =>
      change s.toLanTransport.finish i = some u at hu
      unfold LanTransport.finish at hu
      split at hu
      · obtain ⟨-, ⟨⟩⟩ := Option.ite_none_right_eq_some.1 hu
        exact ⟨rfl, rfl, rfl, fun _ => rfl⟩
      · cases hu
  | connect =>
      obtain ⟨-, ⟨⟩⟩ := Option.ite_none_right_eq_some.1 hu
      exact ⟨rfl, rfl, rfl, fun _ => rfl⟩
  | opened k wellFormed =>
      change s.toLanTransport.opened k wellFormed = some u at hu
      unfold LanTransport.opened at hu
      split at hu
      · cases hu
      · next generation hattempt =>
          dsimp only at hu
          split at hu
          · cases hu
            exact ⟨rfl, rfl, rfl, fun _ => rfl⟩
          · next hcurrent =>
              cases hu
              refine ⟨rfl, rfl, rfl, fun hstopped => absurd ?_ hcurrent⟩
              rw [LanTransport.isStale, hstopped]
              rfl
  | failed k =>
      change (if s.attempts k = none then none else _) = some u at hu
      obtain ⟨-, ⟨⟩⟩ := Option.ite_none_left_eq_some.1 hu
      exact ⟨rfl, rfl, rfl, fun _ => rfl⟩
  | stream c event =>
      obtain ⟨-, ⟨⟩⟩ := Option.ite_none_right_eq_some.1 hu
      exact ⟨rfl, rfl, rfl, fun _ => rfl⟩

end Lan

namespace Core
namespace NodeAdapters

open Python Paqto.Lan Transition

variable {F : Type}

/-! ## Up and down -/

section state

/-- No port is open. -/
def Shut (s : Node F) : Prop := ∀ j, (s.listeners j).serving = false

/-- No port is open but that of the listener. -/
def Alone (s : Node F) (l : ℕ) : Prop := ∀ j, (s.listeners j).serving = true → j = l

/-- The listener is open, at this endpoint. -/
structure Serves [HostLib] (config : Config F) (s : Node F) (l : ℕ) (endpoint : Endpoint F) : Prop where
  listener : s.listeners l = .opened (some endpoint)
  built : ∃ port : ℕ, buildLocalEndpoint [] config.advertisedHost config.host port = .ok endpoint
  alone : Alone s l
  transport : s.transport.started = true
  tracked : s.transport.listeners = [l]

/-- **The node is up**: it runs, with one open listener, and its discovery publishes the
endpoint of this listener. -/
structure Up [UrlLib] [HostLib] (config : Config F) (s : Node F) (l : ℕ) (endpoint : Endpoint F) :
    Prop extends Serves config s l endpoint where
  running : s.running = true
  current : s.listener = some l
  announcing : s.announcing = true
  started : s.service.discovery.started = true
  localPeer : s.service.discovery.localPeer = some config.peer
  published : copyValidEndpoints [endpoint] = .ok s.service.discovery.endpoints

/-- The node does not run, and has no listener. -/
structure Off (s : Node F) : Prop where
  running : s.running = false
  current : s.listener = none

/-- Nothing announces the node, and nothing is left of an announcement. -/
structure Silent (s : Node F) : Prop where
  announcing : s.announcing = false
  cleared : s.service.discovery.Cleared

/-- **The node is down**: it does not run, and every adapter has been released. -/
structure Down (s : Node F) : Prop extends Off s, Silent s where
  shut : Shut s
  transport : s.transport.Closed

/-! ## The coroutines of a `gather` -/

/-- What `discovery.stop()` has done so far. -/
def DiscoverySettled (s : Node F) : Option Child → Prop
  | some .created => True
  | some .suspended => s.announcing = false
  | _ => Silent s

/-- What `listener.close()` has done so far. -/
def ListenerSettled (s : Node F) : Option (ℕ × Child) → Prop
  | some (l, .created) => Alone s l
  | _ => Shut s

/-- What `transport.stop()` has done so far. -/
def TransportSettled (s : Node F) : Option TransportChild → Prop
  | some .created => True
  | _ => s.transport.Closed

/-- What the coroutines of a `gather` have done so far. -/
structure Settled (s : Node F) (c : Cleanup) : Prop where
  discovery : DiscoverySettled s c.discovery
  listener : ListenerSettled s c.listener
  transport : TransportSettled s c.transport

variable {s t : Node F}

/-- Ports are only closed. -/
def Closes (s t : Node F) : Prop :=
  ∀ j, (t.listeners j).serving = true → (s.listeners j).serving = true

/-- Listeners that are left alone are closed as they were. -/
theorem closes_of_eq (h : t.listeners = s.listeners) : Closes s t := fun _ hserving => h ▸ hserving

/-- Closed listeners stay closed. -/
theorem Shut.closes (h : Shut s) (hcloses : Closes s t) : Shut t := by
  intro j
  rw [Bool.eq_false_iff]
  intro hserving
  exact absurd (hcloses j hserving) (by rw [h j]; exact Bool.false_ne_true)

/-- No further listener is opened. -/
theorem Alone.closes {l : ℕ} (h : Alone s l) (hcloses : Closes s t) : Alone t l :=
  fun j hserving => h j (hcloses j hserving)

/-- The clean-up of a listener goes on. -/
theorem ListenerSettled.closes {child : Option (ℕ × Child)} (h : ListenerSettled s child)
    (hcloses : Closes s t) : ListenerSettled t child := by
  unfold ListenerSettled at h ⊢
  split at h
  · exact Alone.closes h hcloses
  · exact Shut.closes h hcloses

/-- It reads only what concerns the discovery. -/
theorem DiscoverySettled.of_eq {child : Option Child} (h : DiscoverySettled s child)
    (hannouncing : t.announcing = s.announcing) (hservice : t.service = s.service) :
    DiscoverySettled t child := by
  unfold DiscoverySettled at h ⊢
  split at h
  · trivial
  · exact hannouncing.trans h
  · exact ⟨hannouncing.trans h.announcing, hservice ▸ h.cleared⟩

/-- It reads only what concerns the transport. -/
theorem TransportSettled.of_eq {child : Option TransportChild} (h : TransportSettled s child)
    (htransport : t.transport = s.transport) : TransportSettled t child := by
  unfold TransportSettled at h ⊢
  split at h
  · trivial
  · rw [htransport]
    exact h

/-- A clean-up reads the adapters only. -/
theorem Settled.of_eq {c : Cleanup} (h : Settled s c) (hannouncing : t.announcing = s.announcing)
    (hservice : t.service = s.service) (hlisteners : t.listeners = s.listeners)
    (htransport : t.transport = s.transport) : Settled t c :=
  ⟨h.discovery.of_eq hannouncing hservice, h.listener.closes (closes_of_eq hlisteners),
    h.transport.of_eq htransport⟩

/-- The listener that is set. -/
theorem setListener_self (s : Node F) (l : ℕ) (listener : TcpListener F) :
    (s.setListener l listener).listeners l = listener := Function.update_self ..

/-- Other listeners stay as they are. -/
theorem setListener_of_ne (s : Node F) {j l : ℕ} (h : j ≠ l) (listener : TcpListener F) :
    (s.setListener l listener).listeners j = s.listeners j := Function.update_of_ne h ..

/-- `close()` of a listener. -/
theorem closes_close (s : Node F) (l : ℕ) : Closes s (s.setListener l (s.listeners l).close) := by
  intro j hserving
  by_cases hj : j = l
  · rw [hj, setListener_self, TcpListener.close_serving] at hserving
    cases hserving
  · rwa [setListener_of_ne s hj] at hserving

/-- The only open listener is closed. -/
theorem Alone.close {l : ℕ} (h : Alone s l) : Shut (s.setListener l (s.listeners l).close) := by
  intro j
  by_cases hj : j = l
  · rw [hj, setListener_self, TcpListener.close_serving]
  · rw [setListener_of_ne s hj, Bool.eq_false_iff]
    exact fun hserving => hj (h j hserving)

/-- A step of a coroutine leaves the node as it is, and ports only closed. -/
structure Kept (s t : Node F) : Prop where
  running : t.running = s.running
  current : t.listener = s.listener
  ended : t.ended = s.ended
  pc : t.pc = s.pc
  closes : Closes s t

/-- The child of a clean-up that stops the discovery touches the discovery only. -/
theorem runDiscovery_spec {child child' : Child} (h : DiscoverySettled s (some child))
    (hrun : s.runDiscovery child = some (t, child')) :
    DiscoverySettled t (some child') ∧ Kept s t ∧ t.listeners = s.listeners ∧
      t.transport = s.transport := by
  have hend : s.announcing = false → DiscoverySettled s.endDiscovery (some .done) :=
    fun hquiet => ⟨hquiet, LanDiscovery.cleared_stop _⟩
  cases child with
  | created =>
      simp only [Node.runDiscovery] at hrun
      split at hrun
      · cases hrun
        exact ⟨rfl, ⟨rfl, rfl, rfl, rfl, closes_of_eq rfl⟩, rfl, rfl⟩
      · next hquiet =>
          cases hrun
          exact ⟨hend (Bool.eq_false_iff.2 hquiet), ⟨rfl, rfl, rfl, rfl, closes_of_eq rfl⟩, rfl, rfl⟩
  | suspended =>
      cases hrun
      exact ⟨hend h, ⟨rfl, rfl, rfl, rfl, closes_of_eq rfl⟩, rfl, rfl⟩
  | done => cases hrun

/-- The child that closes a listener touches that listener only. -/
theorem runListener_spec {l : ℕ} {child child' : Child} (h : ListenerSettled s (some (l, child)))
    (hrun : s.runListener l child = some (t, child')) :
    ListenerSettled t (some (l, child')) ∧ Kept s t ∧ t.announcing = s.announcing ∧
      t.service = s.service ∧ t.transport = s.transport := by
  cases child with
  | created =>
      cases hrun
      exact ⟨Alone.close h, ⟨rfl, rfl, rfl, rfl, closes_close s l⟩, rfl, rfl, rfl⟩
  | suspended =>
      cases hrun
      exact ⟨h, ⟨rfl, rfl, rfl, rfl, closes_of_eq rfl⟩, rfl, rfl, rfl⟩
  | done => cases hrun

/-- The child that stops the transport touches the transport only. -/
theorem runTransport_spec {child child' : TransportChild} (h : TransportSettled s (some child))
    (hrun : s.runTransport child = some (t, child')) :
    TransportSettled t (some child') ∧ Kept s t ∧ t.listeners = s.listeners ∧
      t.announcing = s.announcing ∧ t.service = s.service := by
  cases child with
  | created =>
      cases hrun
      exact ⟨⟨rfl, rfl, rfl⟩, ⟨rfl, rfl, rfl, rfl, closes_of_eq rfl⟩, rfl, rfl, rfl⟩
  | closing stop listeners =>
      cases listeners with
      | nil =>
          obtain ⟨u, hu, heq⟩ := Option.map_eq_some_iff.1 hrun
          cases heq
          have hstep : s.transport.step (.transport (.finish stop)) =
              some (s.transport.record (.finish stop) u) := by
            change (s.transport.toLanTransport.finish stop).map _ = _
            rw [hu]
            rfl
          obtain ⟨hstarted, hlisteners, -, hconnections⟩ :=
            transport_frame (by simp) (by simp) hstep
          have hclosed : s.transport.Closed := h
          exact ⟨⟨hstarted.trans hclosed.started, hlisteners.trans hclosed.listeners,
            (hconnections hclosed.started).trans hclosed.connections⟩,
            ⟨rfl, rfl, rfl, rfl, closes_of_eq rfl⟩, rfl, rfl, rfl⟩
      | cons l listeners => cases hrun
  | done => cases hrun

/-- The listener that the transport tracks is closed, and no other is touched. -/
theorem runTracked_spec {l : ℕ} {child child' : TransportChild} (h : TransportSettled s (some child))
    (hrun : s.runTracked l child = some (t, child')) :
    TransportSettled t (some child') ∧ Kept s t ∧ t.announcing = s.announcing ∧
      t.service = s.service := by
  cases child with
  | created => cases hrun
  | closing stop listeners =>
      obtain ⟨-, heq⟩ := Option.ite_none_right_eq_some.1 hrun
      cases heq
      exact ⟨h, ⟨rfl, rfl, rfl, rfl, closes_close s l⟩, rfl, rfl⟩
  | done => cases hrun

/-- **What one coroutine has done, the others leave done.** -/
theorem Settled.run {c c' : Cleanup} {label : ChildLabel} (h : Settled s c)
    (hrun : s.run c label = some (t, c')) : Settled t c' ∧ Kept s t := by
  cases label with
  | discovery =>
      obtain ⟨child, hchild, hrun⟩ := Option.bind_eq_some_iff.1 hrun
      obtain ⟨⟨u, child'⟩, hran, heq⟩ := Option.map_eq_some_iff.1 hrun
      cases heq
      have hsettled := h.discovery
      rw [hchild] at hsettled
      obtain ⟨hnow, hkept, -, htransport⟩ := runDiscovery_spec hsettled hran
      exact ⟨⟨hnow, h.listener.closes hkept.closes, h.transport.of_eq htransport⟩, hkept⟩
  | listener =>
      obtain ⟨⟨l, child⟩, hchild, hrun⟩ := Option.bind_eq_some_iff.1 hrun
      obtain ⟨⟨u, child'⟩, hran, heq⟩ := Option.map_eq_some_iff.1 hrun
      cases heq
      have hsettled := h.listener
      rw [hchild] at hsettled
      obtain ⟨hnow, hkept, hannouncing, hservice, htransport⟩ := runListener_spec hsettled hran
      exact ⟨⟨h.discovery.of_eq hannouncing hservice, hnow, h.transport.of_eq htransport⟩, hkept⟩
  | transport =>
      obtain ⟨child, hchild, hrun⟩ := Option.bind_eq_some_iff.1 hrun
      obtain ⟨⟨u, child'⟩, hran, heq⟩ := Option.map_eq_some_iff.1 hrun
      cases heq
      have hsettled := h.transport
      rw [hchild] at hsettled
      obtain ⟨hnow, hkept, -, hannouncing, hservice⟩ := runTransport_spec hsettled hran
      exact ⟨⟨h.discovery.of_eq hannouncing hservice, h.listener.closes hkept.closes, hnow⟩, hkept⟩
  | tracked l =>
      obtain ⟨child, hchild, hrun⟩ := Option.bind_eq_some_iff.1 hrun
      obtain ⟨⟨u, child'⟩, hran, heq⟩ := Option.map_eq_some_iff.1 hrun
      cases heq
      have hsettled := h.transport
      rw [hchild] at hsettled
      obtain ⟨hnow, hkept, hannouncing, hservice⟩ := runTracked_spec hsettled hran
      exact ⟨⟨h.discovery.of_eq hannouncing hservice, h.listener.closes hkept.closes, hnow⟩, hkept⟩

/-- A clean-up with a child for the transport keeps it. -/
theorem run_transport_ne {c c' : Cleanup} {label : ChildLabel} (h : c.transport ≠ none)
    (hrun : s.run c label = some (t, c')) : c'.transport ≠ none := by
  cases label with
  | discovery =>
      obtain ⟨child, -, hrun⟩ := Option.bind_eq_some_iff.1 hrun
      obtain ⟨r, -, heq⟩ := Option.map_eq_some_iff.1 hrun
      cases heq
      exact h
  | listener =>
      obtain ⟨child, -, hrun⟩ := Option.bind_eq_some_iff.1 hrun
      obtain ⟨r, -, heq⟩ := Option.map_eq_some_iff.1 hrun
      cases heq
      exact h
  | transport =>
      obtain ⟨child, -, hrun⟩ := Option.bind_eq_some_iff.1 hrun
      obtain ⟨r, -, heq⟩ := Option.map_eq_some_iff.1 hrun
      cases heq
      exact Option.some_ne_none _
  | tracked l =>
      obtain ⟨child, -, hrun⟩ := Option.bind_eq_some_iff.1 hrun
      obtain ⟨r, -, heq⟩ := Option.map_eq_some_iff.1 hrun
      cases heq
      exact Option.some_ne_none _

/-- **A `gather` that is over has released everything.** -/
theorem Settled.done {c : Cleanup} (h : Settled s c) (htransport : c.transport ≠ none)
    (hdone : c.isDone = true) : Silent s ∧ Shut s ∧ s.transport.Closed := by
  obtain ⟨discovery, listener, transport⟩ := c
  simp only [Cleanup.isDone, Bool.and_eq_true] at hdone
  obtain ⟨⟨hdiscovery, hlistener⟩, htask⟩ := hdone
  refine ⟨?_, ?_, ?_⟩
  · cases discovery with
    | none => exact h.discovery
    | some child =>
        obtain rfl : child = .done := of_decide_eq_true hdiscovery
        exact h.discovery
  · cases listener with
    | none => exact h.listener
    | some p =>
        obtain ⟨l, child⟩ := p
        obtain rfl : child = .done := of_decide_eq_true hlistener
        exact h.listener
  · cases transport with
    | none => exact absurd rfl htransport
    | some child =>
        obtain rfl : child = .done := of_decide_eq_true htask
        exact h.transport

end state

/-! ## The invariant -/

section node

variable [PyFloat F] [UrlLib] [HostLib] {config : Config F} {s t : Node F}

/-- The discovery is about to open its socket, to publish this endpoint. -/
structure Opening (config : Config F) (d : LanDiscovery F) (endpoint : Endpoint F) : Prop where
  started : d.started = false
  localPeer : d.localPeer = some config.peer
  published : copyValidEndpoints [endpoint] = .ok d.endpoints
  discovered : d.discovered = Dict.empty

/-- What holds where the holder of the lock is suspended. -/
def Stands (config : Config F) (s : Node F) : Pc → Prop
  | .free =>
      ((∃ l endpoint, Up config s l endpoint) ∧ ∀ returned, s.ended ≠ some (.stop, returned)) ∨
        Down s ∧ ∀ call, call ≠ .stop → s.ended ≠ some (call, true)
  | .openingServer call l =>
      call ≠ .stop ∧ Off s ∧ Silent s ∧ Shut s ∧ s.transport.started = true ∧
        s.transport.listeners = [l]
  | .openingSocket call l =>
      call ≠ .stop ∧ Off s ∧ s.announcing = false ∧
        ∃ endpoint, Serves config s l endpoint ∧ Opening config s.service.discovery endpoint
  | .rollingBack call c => call ≠ .stop ∧ Off s ∧ Settled s c ∧ c.transport ≠ none
  | .closing call c =>
      call ≠ .start ∧ Off s ∧ ListenerSettled s c.listener ∧ c.discovery = none ∧ c.transport = none
  | .gathering call _ => call ≠ .start ∧ Off s ∧ Shut s
  | .stopping call _ c => call ≠ .start ∧ Off s ∧ Settled s c ∧ c.transport ≠ none
  | .discovering => ∃ l endpoint, Up config s l endpoint

/-- The invariant of a node. -/
def Inv (config : Config F) (s : Node F) : Prop := Stands config s s.pc

omit [PyFloat F] in
/-- Before the first call. -/
theorem inv_initial (h : s.Initial) : Inv config s := by
  obtain ⟨service, ⟨settings, now, timeout, rfl⟩, rfl⟩ := h
  refine .inr ⟨⟨⟨rfl, rfl⟩, ⟨rfl, rfl, rfl, rfl, rfl⟩, fun _ => rfl, rfl, rfl, rfl⟩, ?_⟩
  intro call _ h
  cases h

/-! ### Starts -/

omit [PyFloat F] in
/-- The rollback begins where nothing is open but the listener. -/
theorem stands_rollBack {call : LifecycleCall} {discovery : Bool} {listener : Option ℕ}
    (hcall : call ≠ .stop) (hoff : Off s) (hsilent : discovery = false → Silent s)
    (hshut : listener = none → Shut s) (halone : ∀ l, listener = some l → Alone s l) :
    Stands config (s.rollBack call discovery listener) (s.rollBack call discovery listener).pc := by
  refine ⟨hcall, ⟨hoff.running, hoff.current⟩, ⟨?_, ?_, trivial⟩, Option.some_ne_none _⟩
  · cases discovery with
    | false =>
        obtain ⟨hquiet, hcleared⟩ := hsilent rfl
        exact ⟨hquiet, hcleared⟩
    | true => trivial
  · cases listener with
    | none => exact hshut rfl
    | some l => exact halone l rfl

omit [PyFloat F] in
/-- `_start_locked` begins where everything is down. -/
theorem stands_startLocked (h : Down s) {call : LifecycleCall} (hcall : call ≠ .stop) (tls : Bool) :
    Stands config (s.startLocked call tls) (s.startLocked call tls).pc := by
  unfold Node.startLocked
  split
  · refine stands_rollBack hcall h.toOff (fun _ => h.toSilent) (fun _ => h.shut) ?_
    intro l hl
    cases hl
  · refine ⟨hcall, ⟨h.running, h.current⟩, ⟨h.announcing, h.cleared⟩, ?_, ?_, ?_⟩
    · intro j
      by_cases hj : j = s.transport.nextListener
      · rw [hj]
        exact congrArg TcpListener.serving (setListener_self ..)
      · exact (congrArg TcpListener.serving (setListener_of_ne s hj _)).trans (h.shut j)
    · change s.transport.toLanTransport.start.started = true
      rw [LanTransport.start, if_neg (by rw [h.transport.started]; exact Bool.false_ne_true)]
    · change s.transport.listeners ++ [s.transport.nextListener] = _
      rw [h.transport.listeners]
      rfl

omit [PyFloat F] [UrlLib] [HostLib] in
/-- Only the listener that was opened is open. -/
theorem Shut.alone (h : Shut s) (l : ℕ) (listener : TcpListener F) :
    Alone (s.setListener l listener) l := by
  intro j hserving
  by_contra hj
  rw [setListener_of_ne s hj, h j] at hserving
  cases hserving

/-- The server is open: the transport goes on to the socket of the discovery. -/
theorem stands_serverOpened {call : LifecycleCall} {l port : ℕ}
    (h : Stands config s (.openingServer call l)) :
    Stands config (s.serverOpened config call l port) (s.serverOpened config call l port).pc := by
  obtain ⟨hcall, hoff, hsilent, hshut, hstarted, htracked⟩ := h
  have hrolls : ∀ {t : Node F} {discovery : Bool} (listener : TcpListener F),
      t.listeners = (s.setListener l listener).listeners → Off t →
      (discovery = false → Silent t) →
      Stands config (t.rollBack call discovery (some l)) (t.rollBack call discovery (some l)).pc := by
    intro t discovery listener heq hoff hsilent
    refine stands_rollBack hcall hoff hsilent (fun hnone => by cases hnone) fun j hj => ?_
    obtain rfl := Option.some.inj hj
    exact (hshut.alone _ listener).closes (closes_of_eq heq)
  unfold Node.serverOpened
  split
  · exact hrolls (.opened none) rfl ⟨hoff.running, hoff.current⟩ fun _ => ⟨hsilent.announcing, hsilent.cleared⟩
  · next endpoint hbuilt =>
      dsimp only
      split
      · exact hrolls (.opened (some endpoint)) rfl ⟨hoff.running, hoff.current⟩ (fun hno => by cases hno)
      · next d hbegin =>
          obtain ⟨copied, hcopied, -, rfl⟩ := beginStart_prepares hbegin
          refine ⟨hcall, ⟨hoff.running, hoff.current⟩, hsilent.announcing, endpoint,
            ⟨setListener_self .., ⟨port, hbuilt⟩, hshut.alone l _, hstarted, htracked⟩, ?_⟩
          exact ⟨hsilent.cleared.started, rfl, hcopied, hsilent.cleared.discovered⟩

/-- The server is opened, or the start is given up. -/
theorem stands_server {call : LifecycleCall} {l : ℕ} {outcome : ServerOutcome}
    (h : Stands config s (.openingServer call l)) :
    Stands config (s.server config call l outcome) (s.server config call l outcome).pc := by
  obtain ⟨hcall, hoff, hsilent, hshut, -, -⟩ := id h
  have hrolls : ∀ listener, Alone (s.setListener l listener) l := hshut.alone l
  cases outcome with
  | opened port => exact stands_serverOpened h
  | unnamed =>
      refine stands_rollBack hcall ⟨hoff.running, hoff.current⟩ (fun _ => ⟨hsilent.announcing, hsilent.cleared⟩)
        (fun hnone => by cases hnone) fun j hj => ?_
      obtain rfl := Option.some.inj hj
      exact hrolls _
  | osError | interrupted =>
      refine stands_rollBack hcall hoff (fun _ => hsilent) (fun hnone => by cases hnone) fun j _ => ?_
      exact fun k hserving => absurd hserving (by rw [hshut k]; exact Bool.false_ne_true)

omit [PyFloat F] in
/-- The socket is opened, or the start is given up. -/
theorem stands_socket {call : LifecycleCall} {l : ℕ} {outcome : SocketOutcome}
    (h : Stands config s (.openingSocket call l)) :
    Stands config (s.socket call l outcome) (s.socket call l outcome).pc := by
  obtain ⟨hcall, hoff, hquiet, endpoint, hserves, hopening⟩ := h
  have hrolls : ∀ d, Stands config ((s.setDiscovery d).rollBack call true (some l))
      ((s.setDiscovery d).rollBack call true (some l)).pc := by
    intro d
    refine stands_rollBack hcall ⟨hoff.running, hoff.current⟩ (fun hno => by cases hno)
      (fun hnone => by cases hnone) fun j hj => ?_
    obtain rfl := Option.some.inj hj
    exact hserves.alone
  cases outcome with
  | osError => exact hrolls _
  | interrupted => exact hrolls _
  | opened =>
      have hup : Up config { s.setDiscovery { s.service.discovery with started := true } with
          running := true, listener := some l, announcing := true } l endpoint :=
        { listener := hserves.listener
          built := hserves.built
          alone := hserves.alone
          transport := hserves.transport
          tracked := hserves.tracked
          running := rfl
          current := rfl
          announcing := rfl
          started := rfl
          localPeer := hopening.localPeer
          published := hopening.published }
      simp only [Node.socket, LanDiscovery.endStart]
      split
      · exact ⟨l, endpoint, { hup with }⟩
      · next hother =>
          refine .inl ⟨⟨l, endpoint, { hup with }⟩, fun returned heq => ?_⟩
          obtain ⟨rfl, -⟩ := Prod.mk.inj (Option.some.inj heq)
          exact hcall rfl

/-! ### Stops -/

omit [PyFloat F] [UrlLib] [HostLib] in
/-- What is off stays off. -/
theorem Off.kept (h : Off s) (hkept : Kept s t) : Off t :=
  ⟨hkept.running.trans h.running, hkept.current.trans h.current⟩

omit [PyFloat F] in
/-- A child of a clean-up moves. -/
theorem stands_child {label : ChildLabel} (h : Inv config s) (hstep : s.child label = some t) :
    Inv config t := by
  unfold Node.child at hstep
  unfold Inv at h
  split at hstep
  · next call c hpc =>
      rw [hpc] at h
      obtain ⟨hcall, hoff, hsettled, htransport⟩ := h
      obtain ⟨⟨u, c'⟩, hrun, rfl⟩ := Option.map_eq_some_iff.1 hstep
      obtain ⟨hnow, hkept⟩ := hsettled.run hrun
      have hoff' := hoff.kept hkept
      exact ⟨hcall, ⟨hoff'.running, hoff'.current⟩, hnow.of_eq rfl rfl rfl rfl,
        run_transport_ne htransport hrun⟩
  · next call c hpc =>
      rw [hpc] at h
      obtain ⟨hcall, hoff, hsettled, hdiscovery, htransport⟩ := h
      obtain ⟨⟨u, c'⟩, hrun, rfl⟩ := Option.map_eq_some_iff.1 hstep
      cases label with
      | discovery | transport | tracked =>
          simp only [Node.run, hdiscovery, htransport, Option.bind_none] at hrun
          cases hrun
      | listener =>
          obtain ⟨⟨l, child⟩, hchild, hrun⟩ := Option.bind_eq_some_iff.1 hrun
          obtain ⟨⟨v, child'⟩, hran, heq⟩ := Option.map_eq_some_iff.1 hrun
          cases heq
          rw [hchild] at hsettled
          obtain ⟨hnow, hkept, -⟩ := runListener_spec hsettled hran
          have hoff' := hoff.kept hkept
          exact ⟨hcall, ⟨hoff'.running, hoff'.current⟩, hnow, hdiscovery, htransport⟩
  · next call failed c hpc =>
      rw [hpc] at h
      obtain ⟨hcall, hoff, hsettled, htransport⟩ := h
      obtain ⟨⟨u, c'⟩, hrun, rfl⟩ := Option.map_eq_some_iff.1 hstep
      obtain ⟨hnow, hkept⟩ := hsettled.run hrun
      have hoff' := hoff.kept hkept
      exact ⟨hcall, ⟨hoff'.running, hoff'.current⟩, hnow.of_eq rfl rfl rfl rfl,
        run_transport_ne htransport hrun⟩
  · cases hstep

omit [PyFloat F] in
/-- A call that ends where nothing is held. -/
theorem inv_release_down (h : Down s) {call : LifecycleCall} {returned : Bool}
    (hreturned : returned = true → call = .stop) : Inv config (s.release call returned) := by
  refine .inr ⟨{ h with }, fun other hother heq => ?_⟩
  obtain ⟨rfl, rfl⟩ := Prod.mk.inj (Option.some.inj heq)
  exact hother (hreturned rfl)

omit [PyFloat F] in
/-- A clean-up is over: the call ends, or goes on to its start. -/
theorem inv_gathered {failed tls : Bool} (h : Inv config s)
    (hstep : s.gathered failed tls = some t) : Inv config t := by
  unfold Node.gathered at hstep
  unfold Inv at h
  split at hstep
  · next call c hpc =>
      rw [hpc] at h
      obtain ⟨-, hoff, hsettled, htransport⟩ := h
      obtain ⟨hdone, ⟨⟩⟩ := Option.ite_none_right_eq_some.1 hstep
      obtain ⟨hsilent, hshut, hclosed⟩ := hsettled.done htransport hdone
      exact inv_release_down (s := { s with listener := none })
        ⟨⟨hoff.running, rfl⟩, ⟨hsilent.announcing, hsilent.cleared⟩, hshut, hclosed⟩
        fun heq => by cases heq
  · next call c hpc =>
      rw [hpc] at h
      obtain ⟨hcall, hoff, hsettled, -, -⟩ := h
      obtain ⟨hdone, ⟨⟩⟩ := Option.ite_none_right_eq_some.1 hstep
      refine ⟨hcall, ⟨hoff.running, hoff.current⟩, ?_⟩
      obtain ⟨discovery, listener, transport⟩ := c
      cases listener with
      | none => exact hsettled
      | some p =>
          obtain ⟨l, child⟩ := p
          simp only [Cleanup.isDone, Bool.and_eq_true] at hdone
          obtain rfl : child = .done := of_decide_eq_true hdone.1.2
          exact hsettled
  · next call failed' hpc =>
      rw [hpc] at h
      obtain ⟨hcall, hoff, hshut⟩ := h
      cases hstep
      exact ⟨hcall, ⟨hoff.running, hoff.current⟩, ⟨trivial, hshut, trivial⟩, Option.some_ne_none _⟩
  · next call failed' c hpc =>
      rw [hpc] at h
      obtain ⟨hcall, hoff, hsettled, htransport⟩ := h
      obtain ⟨hdone, hstep⟩ := Option.ite_none_left_eq_some.1 hstep
      obtain ⟨hsilent, hshut, hclosed⟩ := hsettled.done htransport
        (by rwa [Bool.not_eq_true', Bool.not_eq_false] at hdone)
      have hdown : Down s := ⟨hoff, hsilent, hshut, hclosed⟩
      split at hstep
      · cases hstep
        exact inv_release_down hdown fun heq => by cases heq
      · split at hstep
        · next hchanged =>
            cases hstep
            exact stands_startLocked hdown (by rw [hchanged]; exact LifecycleCall.noConfusion) tls
        · next hother =>
            cases hstep
            refine inv_release_down hdown fun _ => ?_
            cases call with
            | start => exact absurd rfl hcall
            | stop => rfl
            | networkChanged => exact absurd rfl hother
  · cases hstep

omit [PyFloat F] in
/-- `_stop_locked` begins where everything is up. -/
theorem stands_beginStop {l : ℕ} {endpoint : Endpoint F} (h : Up config s l endpoint)
    {call : LifecycleCall} (hcall : call ≠ .start) : Inv config (s.beginStop call) := by
  refine ⟨hcall, ⟨rfl, rfl⟩, ?_, rfl, rfl⟩
  change ListenerSettled _ (s.listener.map (·, .created))
  rw [h.current]
  exact h.alone

omit [PyFloat F] in
/-- A call takes the lock. -/
theorem inv_acquire {call : LifecycleCall} {tls : Bool} (h : Inv config s) (hfree : s.pc = .free) :
    Inv config (s.acquire call tls) := by
  unfold Inv at h
  rw [hfree] at h
  obtain ⟨⟨l, endpoint, hup⟩, -⟩ | ⟨hdown, -⟩ := h
  · cases call with
    | start =>
        simp only [Node.acquire, hup.running, if_true]
        refine .inl ⟨⟨l, endpoint, { hup with }⟩, fun returned heq => ?_⟩
        cases heq
    | stop =>
        simp only [Node.acquire, hup.running, if_true]
        exact stands_beginStop hup (by simp)
    | networkChanged =>
        simp only [Node.acquire, hup.running, if_true]
        exact stands_beginStop hup (by simp)
  · cases call with
    | start =>
        simp only [Node.acquire, hdown.running, Bool.false_eq_true, if_false]
        exact stands_startLocked hdown (by simp) tls
    | stop =>
        simp only [Node.acquire, hdown.running, Bool.false_eq_true, if_false]
        exact inv_release_down hdown fun _ => rfl
    | networkChanged =>
        simp only [Node.acquire, hdown.running, Bool.false_eq_true, if_false]
        exact inv_release_down hdown fun heq => by cases heq

/-! ### What goes on by itself -/

/-- The node and its adapters are neither started nor stopped. -/
structure GoesOn (s t : Node F) : Prop where
  running : t.running = s.running
  current : t.listener = s.listener
  listeners : t.listeners = s.listeners
  announcing : t.announcing = s.announcing
  ended : t.ended = s.ended
  discovery : t.service.discovery =
    { s.service.discovery with discovered := t.service.discovery.discovered }
  stopped : s.service.discovery.started = false → s.service.discovery.discovered = Dict.empty →
    t.service.discovery = s.service.discovery
  started : t.transport.started = s.transport.started
  tracked : t.transport.listeners = s.transport.listeners
  connections : s.transport.started = false → t.transport.connections = s.transport.connections

omit [PyFloat F] [UrlLib] [HostLib] in
/-- What is off stays off outside the lock. -/
theorem Off.goesOn (h : Off s) (hgoes : GoesOn s t) : Off t :=
  ⟨hgoes.running.trans h.running, hgoes.current.trans h.current⟩

omit [PyFloat F] [UrlLib] [HostLib] in
/-- What is silent stays silent. -/
theorem Silent.goesOn (h : Silent s) (hgoes : GoesOn s t) : Silent t := by
  refine ⟨hgoes.announcing.trans h.announcing, ?_⟩
  rw [hgoes.stopped h.cleared.started h.cleared.discovered]
  exact h.cleared

omit [PyFloat F] [UrlLib] [HostLib] in
/-- A closed transport stays closed. -/
theorem GoesOn.closed (h : GoesOn s t) (hclosed : s.transport.Closed) : t.transport.Closed :=
  ⟨h.started.trans hclosed.started, h.tracked.trans hclosed.listeners,
    (h.connections hclosed.started).trans hclosed.connections⟩

omit [PyFloat F] [UrlLib] in
/-- A listener that serves goes on serving. -/
theorem Serves.goesOn {l : ℕ} {endpoint : Endpoint F} (h : Serves config s l endpoint)
    (hgoes : GoesOn s t) : Serves config t l endpoint :=
  ⟨(congrFun hgoes.listeners l).trans h.listener, h.built, h.alone.closes (closes_of_eq hgoes.listeners),
    hgoes.started.trans h.transport, hgoes.tracked.trans h.tracked⟩

omit [PyFloat F] in
/-- What is up stays up. -/
theorem Up.goesOn {l : ℕ} {endpoint : Endpoint F} (h : Up config s l endpoint)
    (hgoes : GoesOn s t) : Up config t l endpoint where
  toServes := h.toServes.goesOn hgoes
  running := hgoes.running.trans h.running
  current := hgoes.current.trans h.current
  announcing := hgoes.announcing.trans h.announcing
  started := (congrArg LanDiscovery.started hgoes.discovery).trans h.started
  localPeer := (congrArg LanDiscovery.localPeer hgoes.discovery).trans h.localPeer
  published := h.published.trans
    (congrArg Except.ok (congrArg LanDiscovery.endpoints hgoes.discovery).symm)

omit [PyFloat F] [UrlLib] [HostLib] in
/-- A clean-up is not disturbed from outside. -/
theorem Settled.goesOn {c : Cleanup} (h : Settled s c) (hgoes : GoesOn s t) : Settled t c := by
  refine ⟨?_, h.listener.closes (closes_of_eq hgoes.listeners), ?_⟩
  · have hdiscovery := h.discovery
    unfold DiscoverySettled at hdiscovery ⊢
    split at hdiscovery
    · trivial
    · exact hgoes.announcing.trans hdiscovery
    · exact hdiscovery.goesOn hgoes
  · have htransport := h.transport
    unfold TransportSettled at htransport ⊢
    split at htransport
    · trivial
    · exact hgoes.closed htransport

omit [PyFloat F] in
/-- Nor is any other place of a call. -/
theorem Stands.goesOn {pc : Pc} (h : Stands config s pc) (hgoes : GoesOn s t) :
    Stands config t pc := by
  cases pc with
  | free =>
      obtain ⟨⟨l, endpoint, hup⟩, hended⟩ | ⟨hdown, hended⟩ := h
      · exact .inl ⟨⟨l, endpoint, hup.goesOn hgoes⟩, hgoes.ended.symm ▸ hended⟩
      · exact .inr ⟨⟨hdown.toOff.goesOn hgoes, hdown.toSilent.goesOn hgoes,
          hdown.shut.closes (closes_of_eq hgoes.listeners), hgoes.closed hdown.transport⟩,
          hgoes.ended.symm ▸ hended⟩
  | openingServer call l =>
      obtain ⟨hcall, hoff, hsilent, hshut, hstarted, htracked⟩ := h
      exact ⟨hcall, hoff.goesOn hgoes, hsilent.goesOn hgoes, hshut.closes (closes_of_eq hgoes.listeners),
        hgoes.started.trans hstarted, hgoes.tracked.trans htracked⟩
  | openingSocket call l =>
      obtain ⟨hcall, hoff, hquiet, endpoint, hserves, hopening⟩ := h
      refine ⟨hcall, hoff.goesOn hgoes, hgoes.announcing.trans hquiet, endpoint,
        hserves.goesOn hgoes, ?_⟩
      rw [hgoes.stopped hopening.started hopening.discovered]
      exact hopening
  | rollingBack call c =>
      obtain ⟨hcall, hoff, hsettled, htransport⟩ := h
      exact ⟨hcall, hoff.goesOn hgoes, hsettled.goesOn hgoes, htransport⟩
  | closing call c =>
      obtain ⟨hcall, hoff, hsettled, hrest⟩ := h
      exact ⟨hcall, hoff.goesOn hgoes, hsettled.closes (closes_of_eq hgoes.listeners), hrest⟩
  | gathering call failed =>
      obtain ⟨hcall, hoff, hshut⟩ := h
      exact ⟨hcall, hoff.goesOn hgoes, hshut.closes (closes_of_eq hgoes.listeners)⟩
  | stopping call failed c =>
      obtain ⟨hcall, hoff, hsettled, htransport⟩ := h
      exact ⟨hcall, hoff.goesOn hgoes, hsettled.goesOn hgoes, htransport⟩
  | discovering =>
      obtain ⟨l, endpoint, hup⟩ := h
      exact ⟨l, endpoint, hup.goesOn hgoes⟩

/-- **What a step does to the invariant.** -/
theorem inv_step {label : Label F} (h : Inv config s) (hlabel : s.Uninterrupted label)
    (hstep : s.step config label = some t) : Inv config t := by
  cases label with
  | acquire call tls =>
      obtain ⟨hfree, ⟨⟩⟩ := Option.ite_none_right_eq_some.1 hstep
      exact inv_acquire h hfree
  | server outcome =>
      simp only [Node.step] at hstep
      split at hstep
      · next call l hpc =>
          cases hstep
          unfold Inv at h
          rw [hpc] at h
          exact stands_server h
      · cases hstep
  | socket outcome =>
      simp only [Node.step] at hstep
      split at hstep
      · next call l hpc =>
          cases hstep
          unfold Inv at h
          rw [hpc] at h
          exact stands_socket h
      · cases hstep
  | child label => exact stands_child h hstep
  | gathered failed tls => exact inv_gathered h hstep
  | interrupt => exact absurd rfl hlabel
  | discovered returned =>
      obtain ⟨hpc, ⟨⟩⟩ := Option.ite_none_right_eq_some.1 hstep
      unfold Inv at h
      rw [hpc] at h
      obtain ⟨l, endpoint, hup⟩ := h
      refine .inl ⟨⟨l, endpoint, { hup with }⟩, fun other heq => ?_⟩
      cases heq
  | service label =>
      simp only [Node.step] at hstep
      split at hstep
      · cases hstep
      · cases hstep
      · next hstart hstop =>
          obtain ⟨service, hservice, rfl⟩ := Option.map_eq_some_iff.1 hstep
          obtain ⟨hframe, hstopped⟩ := service_frame ⟨hstart, hstop⟩ hservice
          exact Stands.goesOn h ⟨rfl, rfl, rfl, rfl, rfl, hframe, hstopped, rfl, rfl, fun _ => rfl⟩
  | transport label =>
      simp only [Node.step] at hstep
      split at hstep
      · cases hstep
      · cases hstep
      · cases hstep
      · next hstart hstop hfinish =>
          obtain ⟨transport, htransport, rfl⟩ := Option.map_eq_some_iff.1 hstep
          obtain ⟨hstarted, htracked, -, hconnections⟩ := transport_frame hstart hstop htransport
          exact Stands.goesOn h ⟨rfl, rfl, rfl, rfl, rfl, rfl, fun _ _ => rfl, hstarted, htracked,
            hconnections⟩

/-- **The adapters agree with the node** in every run without an interruption. -/
theorem inv_of_reachable (h : ReachableWhen (Node.system config) Node.Uninterrupted s) :
    Inv config s :=
  h.invariant (fun _ hinit => inv_initial hinit) fun _ _ _ hI hlabel hstep =>
    inv_step hI hlabel hstep

omit [PyFloat F] in
/-- At most one port is open. -/
theorem Stands.alone {pc : Pc} (h : Stands config s pc) : ∃ l, Alone s l := by
  have hshut : Shut s → ∃ l, Alone s l := fun hshut =>
    ⟨0, fun j hserving => absurd hserving (by rw [hshut j]; exact Bool.false_ne_true)⟩
  have hsettled : ∀ {child}, ListenerSettled s child → ∃ l, Alone s l := by
    intro child hchild
    unfold ListenerSettled at hchild
    split at hchild
    · exact ⟨_, hchild⟩
    · exact hshut hchild
  cases pc with
  | free =>
      obtain ⟨⟨l, endpoint, hup⟩, -⟩ | ⟨hdown, -⟩ := h
      · exact ⟨l, hup.alone⟩
      · exact hshut hdown.shut
  | openingServer call l => exact hshut h.2.2.2.1
  | openingSocket call l =>
      obtain ⟨-, -, -, endpoint, hserves, -⟩ := h
      exact ⟨l, hserves.alone⟩
  | rollingBack call c => exact hsettled h.2.2.1.listener
  | closing call c => exact hsettled h.2.2.1
  | gathering call failed => exact hshut h.2.2
  | stopping call failed c => exact hsettled h.2.2.1.listener
  | discovering =>
      obtain ⟨l, endpoint, hup⟩ := h
      exact ⟨l, hup.alone⟩

omit [PyFloat F] in
/-- A running node is up wherever its lock stands. -/
theorem Stands.up {pc : Pc} (h : Stands config s pc) (hrunning : s.running = true) :
    ∃ l endpoint, Up config s l endpoint := by
  have hoff : ¬ Off s := fun hoff => by
    rw [hoff.running] at hrunning
    cases hrunning
  cases pc with
  | free =>
      obtain ⟨hup, -⟩ | ⟨hdown, -⟩ := h
      · exact hup
      · exact absurd hdown.toOff hoff
  | discovering => exact h
  | gathering call failed => exact absurd h.2.1 hoff
  | openingServer | openingSocket | rollingBack | closing | stopping => exact absurd h.2.1 hoff

end node

/-! ## Two runs -/

section sample

/-- A system that resolves no host name. -/
local instance noHosts : HostLib := ⟨fun _ => none, fun _ => none⟩

/-- `"b.lan"` -/
def sampleHost : Str := ofChars ['b', '.', 'l', 'a', 'n']

/-- The node of the peer `a` or `b`. -/
def sampleConfig (b : Bool) (advertisedHost : Str) : Config SampleFloat :=
  ⟨samplePeer b, anyIpv4, .str advertisedHost⟩

/-- What the constructors leave. -/
def sampleNode : Node SampleFloat :=
  ⟨false, none, fun _ => .new, .initial, ⟨.new sampleSettings, ⟨0, 0⟩, 1, []⟩, false, .free, none⟩

/-- The sample begins. -/
theorem sampleNode_initial : sampleNode.Initial :=
  ⟨_, ⟨sampleSettings, ⟨0, 0⟩, 1, rfl⟩, rfl⟩

/-- The endpoint of the listener. -/
def sampleLocal : Endpoint SampleFloat :=
  ⟨transportName, tcpUrl sampleHost 80,
    [(.str bindHostKey, .str anyIpv4), (.str sourceKey, .str HostSource.configured.text)]⟩

/-- Its listener has an endpoint to announce. -/
theorem sampleLocal_built (b : Bool) : buildLocalEndpoint [] (sampleConfig b sampleHost).advertisedHost
    (sampleConfig b sampleHost).host (80 : ℕ) = .ok sampleLocal := rfl

/-- The endpoint is a valid one. -/
theorem sampleLocal_copied : copyValidEndpoints [sampleLocal] = .ok [sampleLocal] := rfl

set_option maxRecDepth 8000 in
/-- The announcement of it can be written. -/
theorem sampleLocal_announces (b : Bool) : ∃ data,
    encodePacket sampleSettings (announcement [] ⟨samplePeer b, [sampleLocal]⟩) = .ok data := by
  have hbits : ¬ (Nat.log2 1 + 1 > 4096) := by decide
  have hsafe : Lan.isSafeJsonValue (.dict (announcement [] ⟨samplePeer b, [sampleLocal]⟩) :
      Value SampleFloat) = true := by
    simp [Lan.isSafeJsonValue, Core.isSafeJsonValue, isSafeLoop, safeNested, announcement, samplePeer,
      sampleLocal, endpointPayload, maxJsonNesting, bitLength, maxJsonIntegerBits,
      discoveryVersion, hbits]
  rw [encodePacket, if_pos hsafe]
  cases b with
  | false => exact ⟨_, rfl⟩
  | true => exact ⟨_, rfl⟩

/-- The start of the discovery takes it over. -/
theorem sampleLocal_begins (b : Bool) :
    (LanDiscovery.new sampleSettings).beginStart (samplePeer b) [sampleLocal] =
      (none, ⟨sampleSettings, some (samplePeer b), [sampleLocal], Dict.empty, false⟩) := by
  obtain ⟨data, hdata⟩ := sampleLocal_announces b
  have hid : (samplePeer b).id ≠ [] := by cases b <;> decide
  have hstart := Network.start_opened hid sampleLocal_copied hdata
  rw [LanDiscovery.start_eq] at hstart
  split at hstart
  · cases hstart
  · next d hbegin =>
      obtain ⟨copied, hcopied, -, rfl⟩ := beginStart_prepares hbegin
      cases sampleLocal_copied.symm.trans hcopied
      exact hbegin

/-- The node after a start. -/
def sampleUp (b : Bool) : Node SampleFloat where
  running := true
  listener := some 0
  listeners := Function.update (Function.update (fun _ => .new) 0 .new) 0 (.opened (some sampleLocal))
  transport := { RecordedTransport.initial with
    toLanTransport := LanTransport.initial.start }.createListener
  service := ⟨⟨sampleSettings, some (samplePeer b), [sampleLocal], Dict.empty, true⟩, ⟨0, 0⟩, 1, []⟩
  announcing := true
  pc := .free
  ended := some (.start, true)

/-- The server is opened, and the discovery is about to open its socket. -/
theorem serverOpened_eq [HostLib] {config : Config SampleFloat} {s : Node SampleFloat}
    {call : LifecycleCall} {l port : ℕ} {endpoint : Endpoint SampleFloat} {d : LanDiscovery SampleFloat}
    (hbuilt : buildLocalEndpoint [] config.advertisedHost config.host port = .ok endpoint)
    (hbegin : s.service.discovery.beginStart config.peer [endpoint] = (none, d)) :
    s.serverOpened config call l port =
      { (s.setListener l (.opened (some endpoint))).setDiscovery d with pc := .openingSocket call l } := by
  have hsame : (s.setListener l (.opened (some endpoint))).service.discovery.beginStart config.peer
      [endpoint] = (none, d) := hbegin
  simp only [Node.serverOpened, hbuilt, hsame]

/-- A start that finds its ports. -/
theorem sampleNode_starts (b : Bool) :
    exec (Node.step (sampleConfig b sampleHost)) sampleNode
      [.acquire .start true, .server (.opened 80), .socket .opened] = some (sampleUp b) := by
  have hacquire : sampleNode.step (sampleConfig b sampleHost) (.acquire .start true) =
      some (sampleNode.startLocked .start true) := rfl
  have hserver : (sampleNode.startLocked .start true).step (sampleConfig b sampleHost)
      (.server (.opened 80)) = some ((sampleNode.startLocked .start true).serverOpened
        (sampleConfig b sampleHost) .start 0 80) := rfl
  rw [exec_cons, hacquire, Option.bind_some, exec_cons, hserver, Option.bind_some,
    serverOpened_eq (sampleLocal_built b) (sampleLocal_begins b)]
  rfl

/-- A `start()` that is cancelled twice: its listener cannot be published, and it is cancelled
while it rolls back. -/
def cancelledTwice : List (Label SampleFloat) :=
  [.acquire .start true, .server (.opened 80), .interrupt]

/-- **A rollback that is cancelled leaves its port open**: nobody holds the lock, the node does
not run, and its listener is open. -/
theorem interrupted_rollback : ∃ s, exec (Node.step (sampleConfig true [])) sampleNode cancelledTwice =
    some s ∧ s.pc = .free ∧ s.running = false ∧ (s.listeners 0).serving = true :=
  ⟨_, rfl, rfl, rfl, rfl⟩

end sample

end NodeAdapters
end Core
end Paqto
