/-
# The sessions of a running node

Who opens, publishes, replaces, reads and closes the connections of a node:
`connect`, `_connect_discovered`, `_prepare_outgoing_connection`,
`_run_incoming_connection`, `_retire_replaced_connection`, `_connection_ended`,
`_ensure_reader` and `disconnect` of `core/node.py`, and `connect`, `adopt`,
`connection_lost`, `close_peer` and `_open_connection` of `core/manager.py`,
for any number of peers, calls and connections.

A step is what one task does between two suspensions.  The lock of the manager
is never held over a suspension, so to take it is none.  A connection counts as
closed from the moment `close()` is called, and `close()` returns.  A reconnect
loop is one more caller of `_connect_discovered`.

A connection is named by a number; the shared attempt that opens it has the
same number.  `killed` records the open canonical connections that
`_open_connection` and `_connect_discovered` have closed.
-/

import Paqto.Core.SessionTables
import Paqto.Transition.System

namespace Paqto
namespace Core

open Transition Python

namespace Sessions

/-- `_retire_replaced_connection` before it forgets and closes the connection;
the peer is that of the session the connection still had. -/
structure Retire where
  connection : ℕ
  peer : Option Str
  deriving DecidableEq, Repr

/-- The task of `_open_connection`. -/
inductive AttemptPc
  | absent
  /-- In `transport.connect`. -/
  | connecting (p : Str)
  | negotiating (p : Str)
  | retiring (p : Str) (loser : Retire)
  /-- In `close()` of the loser. -/
  | closingLoser (p : Str)
  /-- In `close()` of the opened connection, which has lost. -/
  | closingOpened (p : Str) (selected : ℕ)
  /-- In `close()` of the connection that the manager had. -/
  | closingPrevious (p : Str) (selected : ℕ)
  /-- In `close()` of the `finally`. -/
  | failing (p : Str)
  | returned (selected : ℕ)
  | raised
  deriving DecidableEq, Repr

/-- The task of a connection in `_reader_tasks`: `_run_incoming_connection` or
`_read_connection`. -/
inductive ReaderPc (F : Type)
  | absent
  | negotiating
  | retiring (session : ProtocolSession F) (loser : Retire)
  | closingLoser (session : ProtocolSession F) (loser : ℕ)
  | retiringPrevious (session : ProtocolSession F) (previous : Retire)
  | closingPrevious (session : ProtocolSession F)
  | reading (session : ProtocolSession F)
  /-- In `_connection_ended`, before `connection_lost`. -/
  | ending (session : ProtocolSession F)
  /-- In `close()` of its own connection. -/
  | closing
  | ended

/-- A suspended `close_peer`. -/
inductive CloserPc
  | gathering (p : Str) (task : ℕ) (connection : Option ℕ)
  /-- In `gather`, which is over with its task only, to raise `CancelledError`. -/
  | cancelled (p : Str) (task : ℕ)
  | closing (p : Str)
  deriving DecidableEq, Repr

/-- A caller of `_connect_discovered`. -/
inductive CallerPc
  | absent
  /-- In `shield(task)`. -/
  | waiting (p : Str) (attempt : ℕ)
  /-- In `close_peer`, because its connection had no session. -/
  | closingPeer (closer : CloserPc)
  | returned (c : ℕ)
  | raised
  | cancelled
  deriving DecidableEq, Repr

/-- A call of `disconnect`. -/
inductive DisconnectPc
  | absent
  | retiring (p : Str)
  | closingPeer (closer : CloserPc)
  | returned
  deriving DecidableEq, Repr

/-- The tables of the node and of its manager, with all that moves them. -/
structure Node (F : Type) where
  tables : SessionTables F
  isClosed : ℕ → Bool
  /-- `ConnectionManager._connections` -/
  manager : Str → Option ℕ
  /-- `_in_flight` -/
  inFlight : Str → Option ℕ
  /-- `_closing_peers` -/
  closingPeers : Str → Bool
  attempts : ℕ → AttemptPc
  /-- `Task.cancel` was called on the attempt. -/
  cancelled : ℕ → Bool
  readers : ℕ → ReaderPc F
  callers : ℕ → CallerPc
  nextCaller : ℕ
  disconnects : ℕ → DisconnectPc
  nextDisconnect : ℕ
  killed : List ℕ

variable {F : Type}

/-- A node that has just been started. -/
def initial : Node F where
  tables := .empty
  isClosed := fun _ => false
  manager := fun _ => none
  inFlight := fun _ => none
  closingPeers := fun _ => false
  attempts := fun _ => .absent
  cancelled := fun _ => false
  readers := fun _ => .absent
  callers := fun _ => .absent
  nextCaller := 0
  disconnects := fun _ => .absent
  nextDisconnect := 0
  killed := []

/-- The moves of attempts, readers, callers and calls of `disconnect`. -/
inductive Label (F : Type)
  /-- A connection is accepted. -/
  | accept (c : ℕ)
  /-- A call of `connect()`; `a` is the number of the attempt it may create. -/
  | connect (p : Str) (a : ℕ)
  /-- `transport.connect` returns. -/
  | opened (a : ℕ)
  /-- `transport.connect`, the connection limit or `_negotiate` raises. -/
  | attemptFails (a : ℕ)
  | attemptNegotiated (a : ℕ) (session : ProtocolSession F)
  /-- The attempt sees its cancellation. -/
  | attemptCancelled (a : ℕ)
  | resumeAttempt (a : ℕ)
  | incomingFails (c : ℕ)
  | incomingNegotiated (c : ℕ) (session : ProtocolSession F)
  | resumeReader (c : ℕ)
  /-- The loop of `_read_connection` ends, for any reason. -/
  | readerEnds (c : ℕ)
  | resumeCaller (k : ℕ)
  | cancelCaller (k : ℕ)
  | disconnect (p : Str)
  | resumeDisconnect (d : ℕ)
  /-- `connection_state()` -/
  | connectionState (p : Str)
  /-- A connection is closed by its transport, its writer or its remote end. -/
  | close (c : ℕ)

namespace Node

/-- An attempt moves. -/
def setAttempt (s : Node F) (a : ℕ) (pc : AttemptPc) : Node F :=
  { s with attempts := Function.update s.attempts a pc }

/-- A reader moves. -/
def setReader (s : Node F) (c : ℕ) (pc : ReaderPc F) : Node F :=
  { s with readers := Function.update s.readers c pc }

/-- A caller moves. -/
def setCaller (s : Node F) (k : ℕ) (pc : CallerPc) : Node F :=
  { s with callers := Function.update s.callers k pc }

/-- A call of `disconnect` moves. -/
def setDisconnect (s : Node F) (d : ℕ) (pc : DisconnectPc) : Node F :=
  { s with disconnects := Function.update s.disconnects d pc }

/-- `connection_for_peer` -/
def connectionForPeer (s : Node F) (p : Str) : Option ℕ :=
  (s.tables.peerConnections p).filter fun c => !s.isClosed c

/-- `connection.close()` -/
def closeConnection (s : Node F) (c : ℕ) : Node F :=
  { s with isClosed := Function.update s.isClosed c true }

/-- `close()` in the setup of an outgoing connection to `p`. -/
def closeInSetup (s : Node F) (p : Str) (c : ℕ) : Node F :=
  { s.closeConnection c with
    killed := if s.connectionForPeer p = some c then s.killed ++ [c] else s.killed }

/-! ## Retirement -/

/-- The synchronous part of `_retire_replaced_connection`. -/
def beginRetire (s : Node F) (c : ℕ) : Node F :=
  { s with tables := s.tables.deactivateSession c }

/-- What it remembers. -/
def retireOf (s : Node F) (c : ℕ) : Retire := ⟨c, (s.tables.sessionFor c).map (·.peerId)⟩

/-- `connection_lost` -/
def connectionLost (s : Node F) (p : Str) (c : ℕ) : Node F :=
  if s.manager p = some c then { s with manager := Function.update s.manager p none } else s

/-- The rest of `_retire_replaced_connection`, up to `close()`. -/
def endRetire (s : Node F) (r : Retire) : Node F :=
  match r.peer with
  | some p => s.connectionLost p r.connection
  | none => s

/-- `get_by_id` forgets a closed connection. -/
def forgetClosed (s : Node F) (p : Str) : Node F :=
  { s with
    manager := if (s.manager p).any s.isClosed then Function.update s.manager p none
      else s.manager }

/-! ## The shared attempt -/

/-- The last part of the `finally` of `_open_connection`. -/
def endAttempt (s : Node F) (a : ℕ) (p : Str) (pc : AttemptPc) : Node F :=
  { s with
    inFlight := if s.inFlight p = some a then Function.update s.inFlight p none else s.inFlight
    }.setAttempt a pc

/-- The attempt raises. -/
def raiseAttempt (s : Node F) (a : ℕ) (p : Str) : Node F :=
  (s.endAttempt a p .raised).forgetClosed p

/-- An attempt that has opened its connection fails. -/
def failAttempt (s : Node F) (a : ℕ) (p : Str) : Node F :=
  if s.isClosed a then s.raiseAttempt a p
  else (s.closeInSetup p a).setAttempt a (.failing p)

/-- `_open_connection` installs the connection that `prepare` has selected. -/
def install (s : Node F) (a : ℕ) (p : Str) (selected : ℕ) : Node F :=
  if s.closingPeers p then s.failAttempt a p
  else
    let t := { s with manager := Function.update s.manager p (some selected) }
    match (s.manager p).filter (· ≠ selected) with
    | some previous => (t.closeInSetup p previous).setAttempt a (.closingPrevious p selected)
    | none => t.endAttempt a p (.returned selected)

/-- `_prepare_outgoing_connection` after `_negotiate`, and what follows. -/
def attemptNegotiated (s : Node F) (peerId : Str) (a : ℕ) (p : Str)
    (session : ProtocolSession F) : Node F :=
  match s.tables.selectReadyConnection peerId s.isClosed a session .outbound with
  | none => s.failAttempt a p
  | some (tables, selection) =>
      let t := { s with tables }
      if selection.selected = a then
        match selection.loser with
        | some loser => (t.beginRetire loser).setAttempt a (.retiring p (t.retireOf loser))
        | none => t.install a p a
      else if s.isClosed a then t.install a p selection.selected
      else (t.closeInSetup p a).setAttempt a (.closingOpened p selection.selected)

/-! ## Incoming connections and readers -/

/-- The `finally` of `_run_incoming_connection`. -/
def endIncoming (s : Node F) (c : ℕ) : Node F :=
  ({ s with tables := s.tables.deactivateSession c }.closeConnection c).setReader c .closing

/-- `_run_incoming_connection` after `adopt`. -/
def startReading (s : Node F) (c : ℕ) (session : ProtocolSession F) : Node F :=
  if s.tables.peerConnections session.peerId = some c then s.setReader c (.reading session)
  else (s.connectionLost session.peerId c).endIncoming c

/-- `adopt`, and what follows. -/
def adopt (s : Node F) (c : ℕ) (session : ProtocolSession F) (loser : Option ℕ) : Node F :=
  if s.closingPeers session.peerId then s.endIncoming c
  else
    let t := { s with manager := Function.update s.manager session.peerId (some c) }
    match (s.manager session.peerId).filter fun m => m ≠ c ∧ some m ≠ loser with
    | some previous =>
        (t.beginRetire previous).setReader c (.retiringPrevious session (t.retireOf previous))
    | none => t.startReading c session

/-- `_run_incoming_connection` after `_negotiate`. -/
def incomingNegotiated (s : Node F) (peerId : Str) (c : ℕ) (session : ProtocolSession F) :
    Node F :=
  match s.tables.selectReadyConnection peerId s.isClosed c session .inbound with
  | none => s.endIncoming c
  | some (tables, selection) =>
      let t := { s with tables }
      if selection.selected = c then
        match selection.loser with
        | some loser => (t.beginRetire loser).setReader c (.retiring session (t.retireOf loser))
        | none => t.adopt c session none
      else t.endIncoming c

/-- `_ensure_reader` -/
def ensureReader (s : Node F) (c : ℕ) (session : ProtocolSession F) : Node F :=
  match s.readers c with
  | .absent | .ended => s.setReader c (.reading session)
  | _ => s

/-! ## `close_peer` -/

/-- `close()` in `close_peer`, on behalf of `_connect_discovered` or not. -/
def closeFor (s : Node F) (setup : Bool) (p : Str) (c : ℕ) : Node F :=
  if setup then s.closeInSetup p c else s.closeConnection c

/-- The `finally` of `close_peer`. -/
def endClosePeer (s : Node F) (p : Str) : Node F :=
  { s with closingPeers := Function.update s.closingPeers p false }

/-- `close_peer` once the attempt is done; no place when it returns. -/
def closeGathered (s : Node F) (setup : Bool) (p : Str) (connection : Option ℕ) :
    Node F × Option CloserPc :=
  match connection with
  | some c => (s.closeFor setup p c, some (.closing p))
  | none => (s.endClosePeer p, none)

/-- `close_peer` up to its first suspension. -/
def closePeer (s : Node F) (setup : Bool) (p : Str) : Node F × Option CloserPc :=
  let t := { s with
    closingPeers := Function.update s.closingPeers p true
    inFlight := Function.update s.inFlight p none
    manager := Function.update s.manager p none }
  match s.inFlight p with
  | some a =>
      ({ t with cancelled := Function.update s.cancelled a true },
        some (.gathering p a (s.manager p)))
  | none => t.closeGathered setup p (s.manager p)

/-- The task is done. -/
def attemptDone (s : Node F) (a : ℕ) : Bool :=
  match s.attempts a with
  | .returned _ | .raised => true
  | _ => false

/-- A suspended `close_peer` goes on. -/
def resumeClosePeer (s : Node F) (setup : Bool) : CloserPc → Option (Node F × Option CloserPc)
  | .gathering p a connection =>
      if s.attemptDone a then some (s.closeGathered setup p connection) else none
  | .cancelled p a => if s.attemptDone a then some (s.endClosePeer p, none) else none
  | .closing p => some (s.endClosePeer p, none)

/-! ## Callers -/

/-- `_connect_discovered` has got its connection. -/
def handOver (s : Node F) (k : ℕ) (p : Str) (c : ℕ) : Node F :=
  match s.tables.sessionFor c with
  | some session => (s.ensureReader c session).setCaller k (.returned c)
  | none =>
      match s.closePeer true p with
      | (t, some closer) => t.setCaller k (.closingPeer closer)
      | (t, none) => t.setCaller k .raised

/-- `ConnectionManager.connect` without a usable connection. -/
def joinAttempt (s : Node F) (k : ℕ) (p : Str) (a : ℕ) : Option (Node F) :=
  match s.inFlight p with
  | some a => some (s.setCaller k (.waiting p a))
  | none =>
      match s.attempts a, s.readers a with
      | .absent, .absent =>
          some (({ s with inFlight := Function.update s.inFlight p (some a) }.setAttempt a
            (.connecting p)).setCaller k (.waiting p a))
      | _, _ => none

/-- A call of `connect()` up to its first suspension. -/
def connect (s : Node F) (p : Str) (a : ℕ) : Option (Node F) :=
  let k := s.nextCaller
  let t := { s with nextCaller := k + 1 }
  match s.connectionForPeer p with
  | some c => some (t.setCaller k (.returned c))
  | none =>
      if s.closingPeers p then some (t.setCaller k .raised)
      else
        match (s.manager p).filter fun c => !s.isClosed c with
        | some c => some (t.handOver k p c)
        | none => (t.forgetClosed p).joinAttempt k p a

/-- A call of `disconnect()` up to its first suspension. -/
def disconnect (s : Node F) (p : Str) : Node F :=
  let d := s.nextDisconnect
  let t := { s with nextDisconnect := d + 1 }
  match s.tables.peerConnections p with
  | some c => (t.beginRetire c).setDisconnect d (.retiring p)
  | none =>
      match t.closePeer false p with
      | (t, some closer) => t.setDisconnect d (.closingPeer closer)
      | (t, none) => t.setDisconnect d .returned

end Node

/-- One step of the node whose id is `peerId`. -/
def step (peerId : Str) (s : Node F) : Label F → Option (Node F)
  | .accept c =>
      match s.attempts c, s.readers c with
      | .absent, .absent => some (s.setReader c .negotiating)
      | _, _ => none
  | .connect p a => s.connect p a
  | .opened a =>
      match s.attempts a with
      | .connecting p =>
          if s.cancelled a then none else some (s.setAttempt a (.negotiating p))
      | _ => none
  | .attemptFails a =>
      if s.cancelled a then none
      else
        match s.attempts a with
        | .connecting p => some (s.raiseAttempt a p)
        | .negotiating p => some (s.failAttempt a p)
        | _ => none
  | .attemptNegotiated a session =>
      match s.attempts a with
      | .negotiating p =>
          if s.cancelled a = false ∧ session.peerId = p then
            some (s.attemptNegotiated peerId a p session)
          else none
      | _ => none
  | .attemptCancelled a =>
      if s.cancelled a then
        match s.attempts a with
        | .connecting p | .failing p => some (s.raiseAttempt a p)
        | .negotiating p | .retiring p _ | .closingLoser p | .closingOpened p _
        | .closingPrevious p _ => some (s.failAttempt a p)
        | _ => none
      else none
  | .resumeAttempt a =>
      if s.cancelled a then none
      else
        match s.attempts a with
        | .retiring p loser =>
            some (((s.endRetire loser).closeInSetup p loser.connection).setAttempt a
              (.closingLoser p))
        | .closingLoser p => some (s.install a p a)
        | .closingOpened p selected => some (s.install a p selected)
        | .closingPrevious p selected => some (s.endAttempt a p (.returned selected))
        | .failing p => some (s.raiseAttempt a p)
        | _ => none
  | .incomingFails c =>
      match s.readers c with
      | .negotiating => some (s.endIncoming c)
      | _ => none
  | .incomingNegotiated c session =>
      match s.readers c with
      | .negotiating => some (s.incomingNegotiated peerId c session)
      | _ => none
  | .resumeReader c =>
      match s.readers c with
      | .retiring session loser =>
          some (((s.endRetire loser).closeConnection loser.connection).setReader c
            (.closingLoser session loser.connection))
      | .closingLoser session loser => some (s.adopt c session (some loser))
      | .retiringPrevious session previous =>
          some (((s.endRetire previous).closeConnection previous.connection).setReader c
            (.closingPrevious session))
      | .closingPrevious session => some (s.startReading c session)
      | .ending session =>
          some (((s.connectionLost session.peerId c).closeConnection c).setReader c .closing)
      | .closing => some (s.setReader c .ended)
      | _ => none
  | .readerEnds c =>
      match s.readers c with
      | .reading session =>
          some ({ s with tables := s.tables.deactivateSession c }.setReader c (.ending session))
      | _ => none
  | .resumeCaller k =>
      match s.callers k with
      | .waiting p a =>
          match s.attempts a with
          | .returned c => some (s.handOver k p c)
          | .raised => some (s.setCaller k .raised)
          | _ => none
      | .closingPeer closer =>
          (s.resumeClosePeer true closer).map fun
            | (t, some closer) => t.setCaller k (.closingPeer closer)
            | (t, none) => t.setCaller k .raised
      | _ => none
  | .cancelCaller k =>
      match s.callers k with
      | .waiting _ _ => some (s.setCaller k .cancelled)
      | .closingPeer (.gathering p a _) => some (s.setCaller k (.closingPeer (.cancelled p a)))
      | .closingPeer (.closing p) => some ((s.endClosePeer p).setCaller k .cancelled)
      | _ => none
  | .disconnect p => some (s.disconnect p)
  | .resumeDisconnect d =>
      match s.disconnects d with
      | .retiring p =>
          match s.closePeer false p with
          | (t, some closer) => some (t.setDisconnect d (.closingPeer closer))
          | (t, none) => some (t.setDisconnect d .returned)
      | .closingPeer closer =>
          (s.resumeClosePeer false closer).map fun
            | (t, some closer) => t.setDisconnect d (.closingPeer closer)
            | (t, none) => t.setDisconnect d .returned
      | _ => none
  | .connectionState p => some (s.forgetClosed p)
  | .close c => some (s.closeConnection c)

/-- The runs of a node. -/
def system (F : Type) (peerId : Str) : System (Node F) (Label F) where
  init s := s = initial
  step := step peerId

end Sessions
end Core
end Paqto
