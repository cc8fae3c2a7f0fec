/-
# Admission of connections

`_accept_loop`, `_prepare_outgoing_connection`, `_run_incoming_connection`,
`_retire_replaced_connection`, `_connection_ended` and `disconnect` of `core/node.py` with
`_incoming_connections` and `_outgoing_connections`, for any number of connections and over
any number of calls of `start()` and `stop()`.

A step is what one task does between two suspensions.  A connection is a number that is
never used twice.  Its `close()` may take its time or raise: `closesAtOnce` has those whose
`is_closed` is true as soon as `close()` is called, `closes` is the step in which another
one closes.

What the manager decides is in the labels: the connection `adopt` has replaced, which
attempts it cancels, what it closes.  `negotiated` and `counted` keep for which connections
`_negotiate` was called, and which were in one of the two sets.
-/

import Paqto.Core.SessionTables
import Paqto.Transition.System
import Mathlib.Data.Finset.Card

namespace Paqto
namespace Core

open Transition Python

namespace Admission

/-- What admission is configured with. -/
structure Config where
  peerId : Str
  maxConnections : ℕ
  /-- `is_closed` is true once `close()` is called; this is the adapter's. -/
  closesAtOnce : ℕ → Bool

/-- The routine that sets a connection up. -/
inductive Kind
  | incoming
  | outgoing (p : Str)
  deriving DecidableEq, Repr

/-- The direction of a connection. -/
def Kind.direction : Kind → Direction
  | incoming => .inbound
  | outgoing _ => .outbound

/-- Where a retirement stands. -/
inductive RetirePc
  /-- In `_cancel_heartbeat` or `_close_outbound_channel`. -/
  | stopping
  /-- In `connection_lost`, or in `close()` of the replaced connection. -/
  | closing
  deriving DecidableEq, Repr

/-- Where the routine of a connection is suspended. -/
inductive Stage (F : Type)
  | absent
  /-- The limit has refused it. -/
  | refused
  /-- In `_negotiate`. -/
  | negotiating (kind : Kind)
  /-- In `_retire_replaced_connection` of the connection it has replaced. -/
  | retiring (kind : Kind) (session : ProtocolSession F) (loser : ℕ) (pc : RetirePc)
  /-- In `adopt`. -/
  | adopting (session : ProtocolSession F)
  | retiringPrevious (session : ProtocolSession F) (previous : ℕ) (pc : RetirePc)
  /-- Before the last look of `_run_incoming_connection` at `_peer_connections`. -/
  | checking (session : ProtocolSession F)
  /-- `_prepare_outgoing_connection` has returned it. -/
  | prepared (p : Str)
  /-- In `_read_connection`. -/
  | reading (session : ProtocolSession F)
  | ended

namespace Stage

variable {F : Type}

/-- `_negotiate` has returned. -/
def isPast : Stage F → Bool
  | absent | refused | negotiating _ => false
  | _ => true

/-- It belongs to an attempt of the manager. -/
def isAttempt : Stage F → Bool
  | negotiating (.outgoing _) | retiring (.outgoing _) _ _ _ | prepared _ => true
  | _ => false

/-- It belongs to a task in `_reader_tasks`. -/
def isReader : Stage F → Bool
  | negotiating .incoming | retiring .incoming _ _ _ | adopting _ | retiringPrevious _ _ _
  | checking _ | reading _ => true
  | _ => false

/-- A set-up that has retired what it had replaced. -/
def settled (session : ProtocolSession F) : Kind → Stage F
  | .incoming => .adopting session
  | .outgoing p => .prepared p

/-- The connection that is being retired. -/
def retires : Stage F → Option ℕ
  | retiring _ _ loser _ => some loser
  | retiringPrevious _ previous _ => some previous
  | _ => none

end Stage

/-- Where `_stop_locked` is. -/
inductive StopPc
  | idle
  /-- Before `close_all` has cancelled the attempts. -/
  | closing
  | gathering
  deriving DecidableEq, Repr

/-- The tables of the node, and the stages of its connections. -/
structure Node (F : Type) where
  running : Bool
  stop : StopPc
  tables : SessionTables F
  /-- `_incoming_connections` -/
  incoming : Finset ℕ
  /-- `_outgoing_connections` -/
  outgoing : Finset ℕ
  isClosed : ℕ → Bool
  closeCalled : ℕ → Bool
  stages : ℕ → Stage F
  /-- `cancel()` was called on the task of the connection. -/
  cancelled : ℕ → Bool
  /-- The calls of `disconnect` that wait for the writer of a connection. -/
  disconnects : ℕ → Option ℕ
  negotiated : ℕ → Bool
  counted : ℕ → Bool

/-- The moves of the connections and of the lifecycle. -/
inductive Label (F : Type)
  | start
  | beginStop
  | closeAll
  | stopped
  /-- `accept()` returns. -/
  | accept (c : ℕ)
  /-- `transport.connect` returns in an attempt for a peer. -/
  | opened (c : ℕ) (p : Str)
  /-- `_negotiate` returns. -/
  | negotiated (c : ℕ) (session : ProtocolSession F)
  /-- What the routine of a connection awaits returns. -/
  | resume (c : ℕ)
  /-- `adopt` returns, with a connection to retire or none. -/
  | adopted (c : ℕ) (previous : Option ℕ)
  /-- What the routine of a connection awaits raises, or it is cancelled there. -/
  | raises (c : ℕ)
  /-- `_ensure_reader` -/
  | startReader (c : ℕ)
  /-- `_read_connection` comes to its `finally`. -/
  | readerEnds (c : ℕ)
  /-- `close_peer` cancels an attempt. -/
  | cancel (c : ℕ)
  | disconnect (k : ℕ) (p : Str)
  | resumeDisconnect (k : ℕ)
  /-- Somebody calls `close()`. -/
  | close (c : ℕ)
  /-- `is_closed` becomes true. -/
  | closes (c : ℕ)

variable {F : Type}

/-- `__init__` -/
def initial : Node F where
  running := false
  stop := .idle
  tables := .empty
  incoming := ∅
  outgoing := ∅
  isClosed := fun _ => false
  closeCalled := fun _ => false
  stages := fun _ => .absent
  cancelled := fun _ => false
  disconnects := fun _ => none
  negotiated := fun _ => false
  counted := fun _ => false

namespace Node

/-- `active_connection_count` -/
def activeConnectionCount (s : Node F) : ℕ := (s.incoming ∪ s.outgoing).card

/-- A connection moves. -/
def setStage (s : Node F) (c : ℕ) (stage : Stage F) : Node F :=
  { s with stages := Function.update s.stages c stage }

/-- `connection.close()`, up to its suspension. -/
def closeConnection (cfg : Config) (s : Node F) (c : ℕ) : Node F :=
  { s with
    closeCalled := Function.update s.closeCalled c true
    isClosed := Function.update s.isClosed c (s.isClosed c || cfg.closesAtOnce c) }

/-- `_deactivate_session` -/
def deactivate (s : Node F) (c : ℕ) : Node F := { s with tables := s.tables.deactivateSession c }

/-- The connection is no longer counted as incoming. -/
def discardIncoming (s : Node F) (c : ℕ) : Node F := { s with incoming := s.incoming.erase c }

/-- Nor as outgoing. -/
def discardOutgoing (s : Node F) (c : ℕ) : Node F := { s with outgoing := s.outgoing.erase c }

/-- Nor as either. -/
def discard (s : Node F) (c : ℕ) : Node F := (s.discardIncoming c).discardOutgoing c

/-- The connection is in a set, and its handshake begins. -/
def admitConnection (s : Node F) (c : ℕ) (kind : Kind) : Node F :=
  { s with
    negotiated := Function.update s.negotiated c true
    counted := Function.update s.counted c true }.setStage c (.negotiating kind)

/-- `_accept_loop` with what `accept()` returned. -/
def accept (cfg : Config) (s : Node F) (c : ℕ) : Node F :=
  if cfg.maxConnections ≤ s.activeConnectionCount then
    (s.closeConnection cfg c).setStage c .refused
  else { s with incoming := insert c s.incoming }.admitConnection c .incoming

/-- The `finally` of `_open_connection`: it closes what it has opened. -/
def finallyOpen (cfg : Config) (s : Node F) (c : ℕ) : Node F :=
  if s.isClosed c then s else s.closeConnection cfg c

/-- `_prepare_outgoing_connection` up to `_negotiate`. -/
def opened (cfg : Config) (s : Node F) (c : ℕ) (p : Str) : Node F :=
  if c ∉ s.outgoing ∧ cfg.maxConnections ≤ s.activeConnectionCount then
    (s.finallyOpen cfg c).setStage c .refused
  else { s with outgoing := insert c s.outgoing }.admitConnection c (.outgoing p)

/-- The routine gives its connection up: the `finally` of `_run_incoming_connection`, or the
end of `_prepare_outgoing_connection` with that of `_open_connection`. -/
def fail (cfg : Config) (s : Node F) (c : ℕ) : Kind → Node F
  | .incoming => (((s.setStage c .ended).deactivate c).discardIncoming c).closeConnection cfg c
  | .outgoing _ => ((s.setStage c .ended).discardOutgoing c).finallyOpen cfg c

/-- A set-up after `_negotiate`. -/
def select (cfg : Config) (s : Node F) (c : ℕ) (kind : Kind) (session : ProtocolSession F) :
    Node F :=
  match s.tables.selectReadyConnection cfg.peerId s.isClosed c session kind.direction with
  | none => s.fail cfg c kind
  | some (tables, selection) =>
      if selection.selected = c then
        match selection.loser with
        | some loser =>
            ({ s with tables }.deactivate loser).setStage c
              (.retiring kind session loser .stopping)
        | none => { s with tables }.setStage c (.settled session kind)
      else { s with tables }.fail cfg c kind

/-- `_retire_replaced_connection` after the writer has ended, up to `close()`. -/
def endRetire (cfg : Config) (s : Node F) (c : ℕ) : Node F := (s.discard c).closeConnection cfg c

/-- The routine of a connection goes on. -/
def resume (cfg : Config) (s : Node F) (c : ℕ) : Option (Node F) :=
  match s.stages c with
  | .retiring kind session loser .stopping =>
      some ((s.endRetire cfg loser).setStage c (.retiring kind session loser .closing))
  | .retiring kind session _ .closing => some (s.setStage c (.settled session kind))
  | .retiringPrevious session previous .stopping =>
      some ((s.endRetire cfg previous).setStage c (.retiringPrevious session previous .closing))
  | .retiringPrevious session _ .closing => some (s.setStage c (.checking session))
  | .checking session =>
      if s.tables.peerConnections session.peerId = some c then
        some (s.setStage c (.reading session))
      else some (s.fail cfg c .incoming)
  | _ => none

/-- What the routine of a connection awaits raises. -/
def raise (cfg : Config) (s : Node F) (c : ℕ) : Option (Node F) :=
  match s.stages c with
  | .negotiating kind | .retiring kind _ _ _ => some (s.fail cfg c kind)
  | .adopting _ | .retiringPrevious _ _ _ | .checking _ => some (s.fail cfg c .incoming)
  | .prepared _ => some ((s.setStage c .ended).finallyOpen cfg c)
  | _ => none

/-- `disconnect` up to its first suspension. -/
def disconnect (s : Node F) (k : ℕ) (p : Str) : Node F :=
  match s.tables.peerConnections p with
  | some c =>
      { s.deactivate c with disconnects := Function.update s.disconnects k (some c) }
  | none => s

/-- `_stop_locked` up to its first suspension. -/
def beginStop (s : Node F) : Node F :=
  { s with
    running := false
    stop := .closing
    tables := .empty
    incoming := ∅
    outgoing := ∅
    cancelled := fun c => s.cancelled c || (s.stages c).isReader }

/-- `close_all` up to its first suspension. -/
def closeAll (s : Node F) : Node F :=
  { s with
    stop := .gathering
    cancelled := fun c => s.cancelled c || (s.stages c).isAttempt }

end Node

/-- One step of the node. -/
def step (cfg : Config) (s : Node F) : Label F → Option (Node F)
  | .start =>
      match s.stop with
      | .idle => if s.running then none else some { s with running := true }
      | _ => none
  | .beginStop => if s.running then some s.beginStop else none
  | .closeAll =>
      match s.stop with
      | .closing => some s.closeAll
      | _ => none
  | .stopped =>
      match s.stop with
      | .gathering => some { s with stop := .idle }
      | _ => none
  | .accept c =>
      match s.stages c with
      | .absent => if s.running then some (s.accept cfg c) else none
      | _ => none
  | .opened c p =>
      match s.stages c with
      | .absent => some (s.opened cfg c p)
      | _ => none
  | .negotiated c session =>
      if s.cancelled c then none
      else
        match s.stages c with
        | .negotiating .incoming => some (s.select cfg c .incoming session)
        | .negotiating (.outgoing p) =>
            if session.peerId = p then some (s.select cfg c (.outgoing p) session) else none
        | _ => none
  | .resume c => if s.cancelled c then none else s.resume cfg c
  | .adopted c previous =>
      if s.cancelled c then none
      else
        match s.stages c, previous with
        | .adopting session, none => some (s.setStage c (.checking session))
        | .adopting session, some m =>
            if (s.stages m).isPast && m != c then
              some ((s.deactivate m).setStage c (.retiringPrevious session m .stopping))
            else none
        | _, _ => none
  | .raises c => s.raise cfg c
  | .startReader c =>
      match s.stages c, s.tables.sessionFor c with
      | .prepared _, some session => some (s.setStage c (.reading session))
      | _, _ => none
  | .readerEnds c =>
      match s.stages c with
      | .reading _ => some (((s.setStage c .ended).deactivate c).discard c)
      | _ => none
  | .cancel c =>
      if (s.stages c).isAttempt then
        some { s with cancelled := Function.update s.cancelled c true }
      else none
  | .disconnect k p =>
      match s.disconnects k with
      | none => some (s.disconnect k p)
      | some _ => none
  | .resumeDisconnect k =>
      (s.disconnects k).map fun c =>
        { s.discard c with disconnects := Function.update s.disconnects k none }
  | .close c => some (s.closeConnection cfg c)
  | .closes c => some { s with isClosed := Function.update s.isClosed c true }

/-- The runs of a node. -/
def system (F : Type) (cfg : Config) : System (Node F) (Label F) where
  init s := s = initial
  step := step cfg

/-! ## The law -/

/-- Every open canonical connection is in a set. -/
def Node.CountsSessions (s : Node F) : Prop :=
  ∀ p c, s.tables.peerConnections p = some c → s.isClosed c = false → c ∈ s.incoming ∪ s.outgoing

/-- What the limit promises in a state. -/
structure Node.Limited (cfg : Config) (s : Node F) : Prop where
  bound : s.activeConnectionCount ≤ cfg.maxConnections
  closed : ∀ c, s.stages c = .refused → s.closeCalled c = true ∨ s.isClosed c = true
  unnegotiated : ∀ c, s.stages c = .refused → s.negotiated c = false
  uncounted : ∀ c, s.stages c = .refused → s.counted c = false

/-- An attempt gives up a connection whose session it has published, and which is still
open when it has called `close()`. -/
def Abandons (cfg : Config) (s : Node F) (c : ℕ) : Prop :=
  (∃ p session loser pc, s.stages c = .retiring (.outgoing p) session loser pc) ∧
    (∃ q, s.tables.peerConnections q = some c) ∧ s.isClosed c = false ∧
      cfg.closesAtOnce c = false

/-- An attempt that was in its handshake when `stop()` emptied the tables and the sets, and
that `close_all` has not yet cancelled, publishes its session. -/
def PublishesLate (cfg : Config) (s : Node F) (c : ℕ) (session : ProtocolSession F) : Prop :=
  s.stop = .closing ∧ c ∉ s.outgoing ∧ s.isClosed c = false ∧
    (∃ p, s.stages c = .negotiating (.outgoing p)) ∧
    ∃ tables loser, s.tables.selectReadyConnection cfg.peerId s.isClosed c session .outbound =
      some (tables, ⟨c, loser⟩)

/-- No published session is given up, and none is published into the tables of a node that
is being stopped. -/
def KeepsSessions (cfg : Config) (s : Node F) : Label F → Prop
  | .raises c => ¬ Abandons cfg s c
  | .negotiated c session => ¬ PublishesLate cfg s c session
  | _ => True

end Admission
end Core
end Paqto
