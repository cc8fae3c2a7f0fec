/-
# Setting a session up, and ending it

`_run_incoming_connection`, `_prepare_outgoing_connection`,
`_retire_replaced_connection` and `_connection_ended` of `core/node.py`, with
`adopt` and `_open_connection` of `core/manager.py` as far as they decide what
becomes of the connection, for any number of connections, and with every table
that may hold one.  Here `close()` may raise.

A connection is closed from the moment `close()` is called, whether it returns or
raises.  A routine stops at every place where it can await something, and once more
between `_select_ready_connection` and the manager, where it cannot: there are more
interleavings here than the event loop has.  `fails` is an exception or a
cancellation at the place where a routine stands.

What else happens to the tables comes in single removals, in any order:
`disconnect`, `close_peer` and the ends of retirements that were interrupted.
A session ends through `readerEnds`, and a correlation is registered only for a
connection that has a session.  The runs are those from `start()` to `stop()`.
-/

import Paqto.Core.SessionTables
import Paqto.Transition.System

namespace Paqto
namespace Core

open Transition Python

namespace SessionSetup

/-- The routine that sets a connection up. -/
inductive Kind
  | incoming
  | outgoing (p : Str)
  deriving DecidableEq, Repr

/-- A call of `_retire_replaced_connection`; `peer` is that of the session the
replaced connection still had. -/
structure Retire where
  connection : ℕ
  peer : Option Str
  deriving DecidableEq, Repr

/-- Where a retirement stands. -/
inductive RetirePc
  /-- In `_cancel_heartbeat` or `_close_outbound_channel`. -/
  | stopping
  /-- In `close()` of the replaced connection. -/
  | closing
  deriving DecidableEq, Repr

/-- Where a set-up stands. -/
inductive SetupPc (F : Type)
  | absent
  | negotiating (kind : Kind)
  | retiring (kind : Kind) (session : ProtocolSession F) (loser : Retire) (pc : RetirePc)
  /-- Before `adopt`, or the installation in `_open_connection`. -/
  | installing (kind : Kind) (session : ProtocolSession F) (loser : Option ℕ)
  | retiringPrevious (session : ProtocolSession F) (previous : Retire) (pc : RetirePc)
  /-- Before the last look at `_peer_connections` in `_run_incoming_connection`. -/
  | checking (session : ProtocolSession F)
  /-- In `previous.close()` of `_open_connection`. -/
  | closingPrevious
  /-- In `close()` of the own connection, which has lost against `winner`. -/
  | losing (kind : Kind) (winner : ℕ)
  /-- In `close()` of the own connection, in a `finally`. -/
  | failing
  | failed
  /-- `_open_connection` has returned the connection. -/
  | returned
  /-- In `_read_connection`. -/
  | reading (session : ProtocolSession F)
  /-- In `_connection_ended`, before `connection_lost`. -/
  | ending (session : ProtocolSession F) (wasCanonical : Bool)
  /-- In `close()` of `_connection_ended`; `report` is `was_canonical or removed`. -/
  | closing (session : ProtocolSession F) (report : Bool)
  | ended (report : Bool)

/-- The tables of the node, and the routines of its connections. -/
structure Node (F : Type) where
  tables : SessionTables F
  /-- The connection is in `_outbound_channels`, and its writer lives. -/
  channels : ℕ → Bool
  incomingConnections : ℕ → Bool
  outgoingConnections : ℕ → Bool
  /-- `_pending_requests`: the connection of a message id. -/
  pendingRequests : Str → Option ℕ
  pendingAcknowledgements : Str → Option ℕ
  isClosed : ℕ → Bool
  /-- `ConnectionManager._connections` -/
  manager : Str → Option ℕ
  /-- `_closing_peers` -/
  closingPeers : Str → Bool
  setups : ℕ → SetupPc F
  /-- The connections with a `DISCONNECTED` event of `_connection_ended`, and the peers of
  its calls of `_schedule_reconnect`. -/
  disconnected : List ℕ
  reconnects : List Str

variable {F : Type}

/-- Before the first connection. -/
def initial : Node F where
  tables := .empty
  channels := fun _ => false
  incomingConnections := fun _ => false
  outgoingConnections := fun _ => false
  pendingRequests := fun _ => none
  pendingAcknowledgements := fun _ => none
  isClosed := fun _ => false
  manager := fun _ => none
  closingPeers := fun _ => false
  setups := fun _ => .absent
  disconnected := []
  reconnects := []

/-- The moves of the routines, and what others do. -/
inductive Label (F : Type)
  /-- A connection is accepted and admitted. -/
  | accept (c : ℕ)
  /-- `transport.connect` has returned, and the connection is admitted. -/
  | opened (c : ℕ) (p : Str)
  | negotiated (c : ℕ) (session : ProtocolSession F)
  /-- What the routine of a connection awaits returns. -/
  | resume (c : ℕ)
  /-- What the routine of a connection awaits raises. -/
  | fails (c : ℕ)
  /-- `_ensure_reader` of the caller of `connect()`. -/
  | startReader (c : ℕ)
  /-- The loop of `_read_connection` ends. -/
  | readerEnds (c : ℕ)
  | registerRequest (id : Str) (c : ℕ)
  | registerAcknowledgement (id : Str) (c : ℕ)
  /-- A request or a wait for an ACK is over. -/
  | resolveRequest (id : Str)
  | resolveAcknowledgement (id : Str)
  | deactivate (c : ℕ)
  | failPending (c : ℕ)
  /-- `_close_outbound_channel`, or the writer ends by itself. -/
  | closeOutboundChannel (c : ℕ)
  | discard (c : ℕ)
  | connectionLost (p : Str) (c : ℕ)
  | close (c : ℕ)
  /-- `close_peer` begins. -/
  | closePeer (p : Str)
  | endClosePeer (p : Str)

namespace Node

/-- A routine moves. -/
def setSetup (s : Node F) (c : ℕ) (pc : SetupPc F) : Node F :=
  { s with setups := Function.update s.setups c pc }

/-- `connection.close()` -/
def closeConnection (s : Node F) (c : ℕ) : Node F :=
  { s with isClosed := Function.update s.isClosed c true }

/-- `_deactivate_session` -/
def deactivate (s : Node F) (c : ℕ) : Node F := { s with tables := s.tables.deactivateSession c }

/-- `_fail_pending_for_connection` -/
def failPending (s : Node F) (c : ℕ) : Node F :=
  { s with
    pendingRequests := fun id => (s.pendingRequests id).filter (· ≠ c)
    pendingAcknowledgements := fun id => (s.pendingAcknowledgements id).filter (· ≠ c) }

/-- `_close_outbound_channel`; the cancelled writer counts as ended. -/
def closeOutboundChannel (s : Node F) (c : ℕ) : Node F :=
  { s with channels := Function.update s.channels c false }

/-- The connection is no longer counted as incoming. -/
def discardIncoming (s : Node F) (c : ℕ) : Node F :=
  { s with incomingConnections := Function.update s.incomingConnections c false }

/-- Nor as outgoing. -/
def discardOutgoing (s : Node F) (c : ℕ) : Node F :=
  { s with outgoingConnections := Function.update s.outgoingConnections c false }

/-- `connection_lost` -/
def connectionLost (s : Node F) (p : Str) (c : ℕ) : Node F :=
  if s.manager p = some c then { s with manager := Function.update s.manager p none } else s

/-! ## Retirement -/

/-- What a retirement has to know. -/
def retireOf (s : Node F) (c : ℕ) : Retire := ⟨c, (s.tables.sessionFor c).map (·.peerId)⟩

/-- `_retire_replaced_connection` up to its first suspension. -/
def beginRetire (s : Node F) (c : ℕ) : Node F := (s.deactivate c).failPending c

/-- The rest of `_retire_replaced_connection`, up to `close()`. -/
def endRetire (s : Node F) (r : Retire) : Node F :=
  let t := ((s.closeOutboundChannel r.connection).discardIncoming r.connection).discardOutgoing
    r.connection
  (match r.peer with
    | some p => t.connectionLost p r.connection
    | none => t).closeConnection r.connection

/-! ## Failures -/

/-- The `finally` of `_run_incoming_connection`, up to `close()`. -/
def finallyIncoming (s : Node F) (c : ℕ) : Node F :=
  (((s.deactivate c).discardIncoming c).failPending c).closeConnection c

/-- The `finally` of `_open_connection`: it closes the opened connection. -/
def finallyOpen (s : Node F) (c : ℕ) : Node F :=
  if s.isClosed c then s.setSetup c .failed else (s.closeConnection c).setSetup c .failing

/-- The routine raises before `_prepare_outgoing_connection` is over. -/
def fail (s : Node F) (c : ℕ) : Kind → Node F
  | .incoming => (s.finallyIncoming c).setSetup c .failing
  | .outgoing _ => (s.discardOutgoing c).finallyOpen c

/-! ## The routines -/

/-- `_ensure_outbound_channel` -/
def ensureOutboundChannel (s : Node F) (c : ℕ) : Node F :=
  { s with channels := Function.update s.channels c true }

/-- The connection has lost against the canonical one. -/
def lose (s : Node F) (c : ℕ) (winner : ℕ) : Kind → Node F
  | .incoming => (s.finallyIncoming c).setSetup c (.losing .incoming winner)
  | .outgoing p =>
      ((s.discardOutgoing c).closeConnection c).setSetup c (.losing (.outgoing p) winner)

/-- The direction of a connection. -/
def directionOf : Kind → Direction
  | .incoming => .inbound
  | .outgoing _ => .outbound

/-- A set-up after `_negotiate`. -/
def negotiated (s : Node F) (peerId : Str) (c : ℕ) (kind : Kind) (session : ProtocolSession F) :
    Node F :=
  match s.tables.selectReadyConnection peerId s.isClosed c session (directionOf kind) with
  | none => s.fail c kind
  | some (tables, selection) =>
      if selection.selected = c then
        let t := { s with tables }.ensureOutboundChannel c
        match selection.loser with
        | some loser =>
            (t.beginRetire loser).setSetup c (.retiring kind session (t.retireOf loser) .stopping)
        | none => t.setSetup c (.installing kind session none)
      else { s with tables }.lose c selection.selected kind

/-- `adopt`, and what follows it. -/
def adopt (s : Node F) (c : ℕ) (session : ProtocolSession F) (loser : Option ℕ) : Node F :=
  if s.closingPeers session.peerId then s.fail c .incoming
  else
    let t := { s with manager := Function.update s.manager session.peerId (some c) }
    match (s.manager session.peerId).filter fun m => m ≠ c ∧ some m ≠ loser with
    | some previous =>
        (t.beginRetire previous).setSetup c
          (.retiringPrevious session (t.retireOf previous) .stopping)
    | none => t.setSetup c (.checking session)

/-- `_open_connection` installs its own connection. -/
def install (s : Node F) (c : ℕ) (p : Str) : Node F :=
  if s.closingPeers p then s.finallyOpen c
  else
    let t := { s with manager := Function.update s.manager p (some c) }
    match (s.manager p).filter (· ≠ c) with
    | some previous => (t.closeConnection previous).setSetup c .closingPrevious
    | none => t.setSetup c .returned

/-- `_open_connection` installs the connection that won. -/
def installWinner (s : Node F) (c : ℕ) (p : Str) (winner : ℕ) : Node F :=
  if s.closingPeers p then s.setSetup c .failed
  else
    let t := { s with manager := Function.update s.manager p (some winner) }
    match (s.manager p).filter (· ≠ winner) with
    | some previous => (t.closeConnection previous).setSetup c .failed
    | none => t.setSetup c .failed

/-- The end of `_run_incoming_connection` before it reads. -/
def startReading (s : Node F) (c : ℕ) (session : ProtocolSession F) : Node F :=
  if s.tables.peerConnections session.peerId = some c then s.setSetup c (.reading session)
  else (s.connectionLost session.peerId c).fail c .incoming

/-- `_connection_ended` up to its first suspension. -/
def beginEnd (s : Node F) (c : ℕ) (session : ProtocolSession F) : Node F :=
  let wasCanonical := decide (s.tables.peerConnections session.peerId = some c)
  ((((s.deactivate c).discardIncoming c).discardOutgoing c).failPending c).setSetup c
    (.ending session wasCanonical)

/-- `_connection_ended` up to `close()`. -/
def endConnection (s : Node F) (c : ℕ) (session : ProtocolSession F) (wasCanonical : Bool) :
    Node F :=
  let removed := decide (s.manager session.peerId = some c)
  (((s.closeOutboundChannel c).connectionLost session.peerId c).closeConnection c).setSetup c
    (.closing session (wasCanonical || removed))

/-- The event and the reconnect of `_connection_ended`. -/
def reportEnd (s : Node F) (c : ℕ) (session : ProtocolSession F) (report : Bool) : Node F :=
  if report then
    { s with
      disconnected := s.disconnected ++ [c]
      reconnects := s.reconnects ++ [session.peerId] }
  else s

/-- The routine of a connection goes on. -/
def resume (s : Node F) (c : ℕ) : Option (Node F) :=
  match s.setups c with
  | .retiring kind session loser .stopping =>
      some ((s.endRetire loser).setSetup c (.retiring kind session loser .closing))
  | .retiring kind session loser .closing =>
      some (s.setSetup c (.installing kind session (some loser.connection)))
  | .installing .incoming session loser => some (s.adopt c session loser)
  | .installing (.outgoing p) _ _ => some (s.install c p)
  | .retiringPrevious session previous .stopping =>
      some ((s.endRetire previous).setSetup c (.retiringPrevious session previous .closing))
  | .retiringPrevious session _ .closing => some (s.setSetup c (.checking session))
  | .checking session => some (s.startReading c session)
  | .closingPrevious => some (s.setSetup c .returned)
  | .losing .incoming _ => some (s.setSetup c .failed)
  | .losing (.outgoing p) winner => some (s.installWinner c p winner)
  | .failing => some (s.setSetup c .failed)
  | .ending session wasCanonical => some (s.endConnection c session wasCanonical)
  | .closing session report => some ((s.reportEnd c session report).setSetup c (.ended report))
  | _ => none

/-- What the routine of a connection awaits raises. -/
def raise (s : Node F) (c : ℕ) : Option (Node F) :=
  match s.setups c with
  | .negotiating kind | .retiring kind _ _ _ => some (s.fail c kind)
  | .retiringPrevious _ _ _ => some (s.fail c .incoming)
  | .closingPrevious => some (s.finallyOpen c)
  | .losing _ _ | .failing => some (s.setSetup c .failed)
  | .closing _ report => some (s.setSetup c (.ended report))
  | _ => none

end Node

/-- One step. -/
def step (peerId : Str) (s : Node F) : Label F → Option (Node F)
  | .accept c =>
      match s.setups c with
      | .absent =>
          some ({ s with incomingConnections := Function.update s.incomingConnections c true
            }.setSetup c (.negotiating .incoming))
      | _ => none
  | .opened c p =>
      match s.setups c with
      | .absent =>
          some ({ s with outgoingConnections := Function.update s.outgoingConnections c true
            }.setSetup c (.negotiating (.outgoing p)))
      | _ => none
  | .negotiated c session =>
      match s.setups c with
      | .negotiating .incoming => some (s.negotiated peerId c .incoming session)
      | .negotiating (.outgoing p) =>
          if session.peerId = p then some (s.negotiated peerId c (.outgoing p) session) else none
      | _ => none
  | .resume c => s.resume c
  | .fails c => s.raise c
  | .startReader c =>
      match s.setups c, s.tables.sessionFor c with
      | .returned, some session => some (s.setSetup c (.reading session))
      | _, _ => none
  | .readerEnds c =>
      match s.setups c with
      | .reading session => some (s.beginEnd c session)
      | _ => none
  | .registerRequest id c =>
      if (s.tables.ready c).isSome && (s.pendingRequests id).isNone then
        some { s with pendingRequests := Function.update s.pendingRequests id (some c) }
      else none
  | .registerAcknowledgement id c =>
      if (s.tables.ready c).isSome && (s.pendingAcknowledgements id).isNone then
        some { s with
          pendingAcknowledgements := Function.update s.pendingAcknowledgements id (some c) }
      else none
  | .resolveRequest id =>
      some { s with pendingRequests := Function.update s.pendingRequests id none }
  | .resolveAcknowledgement id =>
      some { s with pendingAcknowledgements := Function.update s.pendingAcknowledgements id none }
  | .deactivate c => some (s.deactivate c)
  | .failPending c => some (s.failPending c)
  | .closeOutboundChannel c => some (s.closeOutboundChannel c)
  | .discard c => some ((s.discardIncoming c).discardOutgoing c)
  | .connectionLost p c => some (s.connectionLost p c)
  | .close c => some (s.closeConnection c)
  | .closePeer p =>
      some { s with
        closingPeers := Function.update s.closingPeers p true
        manager := Function.update s.manager p none }
  | .endClosePeer p => some { s with closingPeers := Function.update s.closingPeers p false }

/-- The runs. -/
def system (F : Type) (peerId : Str) : System (Node F) (Label F) where
  init s := s = initial
  step := step peerId

end SessionSetup
end Core
end Paqto
