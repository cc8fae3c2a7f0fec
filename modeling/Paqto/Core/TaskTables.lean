/-
# The task tables of a node

`_reader_tasks`, `_outbound_channels`, `_heartbeat_tasks` and `_reconnect_tasks` of
`PaqtoNode` (`core/node.py`), and whatever creates a task of theirs, cancels one or takes one
out.  The four are one table of `Python.TaskTable` here, and a key says which of them it is of.

A connection is a number that is never used twice.  `ids` has the addresses of the connections
that somebody refers to; the address of any other may be used again.  A task refers to its
connection until it is done, and its callback runs some time after that.

A step is what some task does between two suspensions, and the steps come in any order.  What
other functions make of `_peer_connections`, `_reconnect_suppressed` and `_known_peers` is in
the labels, and so is the task that makes a call when it may be one of the tables.
-/

import Paqto.Core.Protocol
import Paqto.Python.TaskTable
import Paqto.Transition.System

namespace Paqto
namespace Core

open Python Transition

namespace TaskTables

/-- A key of one of the four tables. -/
inductive Slot
  /-- Of `_reader_tasks`. -/
  | reader (key : ℕ)
  /-- Of `_outbound_channels`. -/
  | outbound (key : ℕ)
  /-- Of `_heartbeat_tasks`. -/
  | heartbeat (key : ℕ)
  /-- Of `_reconnect_tasks`. -/
  | reconnect (peerId : Str)
  deriving DecidableEq, Repr

/-- `id(connection)`, where it is the key. -/
def Slot.address : Slot → Option ℕ
  | reader key | outbound key | heartbeat key => some key
  | reconnect _ => none

/-- What the node is configured with. -/
structure Config where
  /-- `heartbeat_interval` is not `None`. -/
  heartbeats : Bool
  /-- `reconnect.enabled` -/
  reconnectEnabled : Bool

/-- What the functions read beside the tables. -/
structure Surroundings where
  /-- `_peer_connections` -/
  peerConnections : Dict Str ℕ
  /-- `_reconnect_suppressed` -/
  reconnectSuppressed : List Str
  /-- The peers whose observation in `_known_peers` is fresh. -/
  freshPeers : List Str

/-- The tables of tasks, with the connections they are keyed by. -/
structure Node where
  running : Bool
  /-- The tasks that a suspended `_stop_locked` has cancelled. -/
  stopping : Option (List ℕ)
  /-- `id` of the connections that are referred to. -/
  ids : Dict ℕ ℕ
  nextConnection : ℕ
  /-- The tables, and for each task the connection its coroutine refers to. -/
  tables : TaskTable Slot (Option ℕ)
  surroundings : Surroundings

/-- `__init__` -/
def initial : Node where
  running := false
  stopping := none
  ids := .empty
  nextConnection := 0
  tables := .empty
  surroundings := ⟨.empty, [], []⟩

namespace Node

variable {F : Type}

/-- Some task that is not done refers to the connection. -/
def refersTo (s : Node) (c : ℕ) : Bool :=
  (List.range s.tables.next).any fun t =>
    (s.tables.tasks t).any fun x => !x.status.done && decide (x.subject = some c)

/-- The task that makes a call is not done. -/
def runs (s : Node) (current : Option ℕ) : Bool := current.all s.tables.isUnfinished

/-! ## Connection tasks -/

/-- `_register_connection_task` -/
def registerConnectionTask (s : Node) (key c : ℕ) : Node :=
  { s with tables := s.tables.create (.reader key) (some c) }

/-- `_ensure_heartbeat` -/
def ensureHeartbeat (config : Config) (s : Node) (key c : ℕ) (session : ProtocolSession F) : Node :=
  if !config.heartbeats || !session.capabilities.contains heartbeatCapability ||
      decide (s.surroundings.peerConnections.get? session.peerId ≠ some c) then s
  else { s with tables := s.tables.ensure (.heartbeat key) (some c) }

/-- `_ensure_reader` -/
def ensureReader (config : Config) (s : Node) (key c : ℕ) (session : ProtocolSession F) : Node :=
  if s.tables.isRunning (.reader key) then s
  else (s.registerConnectionTask key c).ensureHeartbeat config key c session

/-- `_ensure_incoming_task` -/
def ensureIncomingTask (s : Node) (key c : ℕ) : Node :=
  if s.tables.isRunning (.reader key) then s else s.registerConnectionTask key c

/-- `_reader_finished`, which does not look whose entry it is. -/
def readerFinished (s : Node) (key : ℕ) : Node :=
  { s with tables := s.tables.pop (.reader key) }

/-! ## Writers and heartbeats -/

/-- `_ensure_outbound_channel` -/
def ensureOutboundChannel (s : Node) (key c : ℕ) : Node :=
  { s with tables := s.tables.ensure (.outbound key) (some c) }

/-- `_close_outbound_channel`, up to its wait for the writer. -/
def closeOutboundChannel (s : Node) (key : ℕ) (current : Option ℕ) : Node :=
  { s with tables := s.tables.popCancel (.outbound key) current }

/-- `_outbound_finished` -/
def outboundFinished (s : Node) (key t : ℕ) : Node :=
  { s with tables := s.tables.popOwn (.outbound key) t }

/-- `_cancel_heartbeat`, up to its wait for the task. -/
def cancelHeartbeat (s : Node) (key : ℕ) (current : Option ℕ) : Node :=
  { s with tables := s.tables.popCancel (.heartbeat key) current }

/-- `_heartbeat_finished`, and the end of `_heartbeat_loop`. -/
def heartbeatFinished (s : Node) (key t : ℕ) : Node :=
  { s with tables := s.tables.popOwn (.heartbeat key) t }

/-! ## Reconnect loops -/

/-- `_schedule_reconnect` -/
def scheduleReconnect (config : Config) (s : Node) (peerId : Str) : Node :=
  if !s.running || !config.reconnectEnabled ||
      s.surroundings.reconnectSuppressed.contains peerId then s
  else if !s.surroundings.freshPeers.contains peerId then s
  else { s with tables := s.tables.ensure (.reconnect peerId) none }

/-- The reconnect loop of a peer is cancelled and stays in its table. -/
def cancelReconnect (s : Node) (peerId : Str) (current : Option ℕ) : Node :=
  match s.tables.entries.get? (.reconnect peerId) with
  | none => s
  | some t => { s with tables := s.tables.cancelOther t current }

/-- `_reconnect_finished` -/
def reconnectFinished (s : Node) (peerId : Str) (t : ℕ) : Node :=
  { s with tables := s.tables.popOwn (.reconnect peerId) t }

/-! ## The ends of tasks -/

/-- The done-callback of a task. -/
def finished (s : Node) (t : ℕ) : Slot → Node
  | .reader key => s.readerFinished key
  | .outbound key => s.outboundFinished key t
  | .heartbeat key => s.heartbeatFinished key t
  | .reconnect peerId => s.reconnectFinished peerId t

/-- What a coroutine that has begun does as it ends. -/
def left (s : Node) (t : ℕ) : Slot → Node
  | .heartbeat key => s.heartbeatFinished key t
  | _ => s

/-! ## `stop()` -/

/-- The tasks that `_stop_locked` cancels and waits for; `skip` has called it. -/
def gathered (s : Node) (skip : Option ℕ) : List ℕ :=
  s.tables.entries.values.filter fun t => decide (skip ≠ some t)

/-- `_stop_locked`, up to its first wait. -/
def stopLocked (s : Node) (skip : Option ℕ) : Node :=
  { s with
    running := false
    stopping := some (s.gathered skip)
    tables := s.tables.cancelAll (s.gathered skip)
    surroundings := { s.surroundings with peerConnections := .empty } }

/-- The tables are emptied at the end of `_stop_locked`. -/
def clearTables (s : Node) : Node :=
  { s with
    stopping := none
    tables := s.tables.clear
    surroundings := { s.surroundings with reconnectSuppressed := [], freshPeers := [] } }

end Node

/-- The moves of the tasks, and of what creates them. -/
inductive Label (F : Type)
  /-- What the functions read is changed. -/
  | surroundings (new : Surroundings)
  /-- A connection is made, at an address. -/
  | opened (key : ℕ)
  /-- The last reference to a connection is gone. -/
  | released (c : ℕ)
  | ensureIncomingTask (c : ℕ)
  /-- The end of `_connect_discovered`. -/
  | connectDiscovered (c : ℕ) (session : ProtocolSession F) (peerId : Str) (current : Option ℕ)
  | ensureOutboundChannel (c : ℕ)
  | ensureHeartbeat (c : ℕ) (session : ProtocolSession F)
  | cancelHeartbeat (c : ℕ) (current : Option ℕ)
  | closeOutboundChannel (c : ℕ) (current : Option ℕ)
  | scheduleReconnect (peerId : Str)
  /-- `disconnect`, up to its wait for the reconnect loop. -/
  | disconnect (peerId : Str) (current : Option ℕ)
  /-- The first step of a task. -/
  | begin (t : ℕ)
  /-- A task ends; before its first step it can only be cancelled. -/
  | finish (t : ℕ)
  | callback (t : ℕ)
  /-- `stop()`, or `network_changed()`. -/
  | stop (skip : Option ℕ)
  /-- All that `_stop_locked` waits for has ended. -/
  | clear
  | start

/-- `connectDiscovered`, with the address of the connection. -/
def Node.connectDiscovered {F : Type} (config : Config) (s : Node) (key c : ℕ)
    (session : ProtocolSession F) (peerId : Str) (current : Option ℕ) : Node :=
  (s.ensureReader config key c session).cancelReconnect peerId current

/-- One step. -/
def step {F : Type} (config : Config) (s : Node) : Label F → Option Node
  | .surroundings new => some { s with surroundings := new }
  | .opened key =>
      if key ∈ s.ids.values then none
      else some { s with
        ids := s.ids.set s.nextConnection key
        nextConnection := s.nextConnection + 1 }
  | .released c => if s.refersTo c then none else some { s with ids := s.ids.erase c }
  | .ensureIncomingTask c => (s.ids.get? c).map fun key => s.ensureIncomingTask key c
  | .connectDiscovered c session peerId current =>
      if s.runs current then
        (s.ids.get? c).map fun key => s.connectDiscovered config key c session peerId current
      else none
  | .ensureOutboundChannel c => (s.ids.get? c).map fun key => s.ensureOutboundChannel key c
  | .ensureHeartbeat c session =>
      (s.ids.get? c).map fun key => s.ensureHeartbeat config key c session
  | .cancelHeartbeat c current =>
      if s.runs current then (s.ids.get? c).map fun key => s.cancelHeartbeat key current else none
  | .closeOutboundChannel c current =>
      if s.runs current then (s.ids.get? c).map fun key => s.closeOutboundChannel key current
      else none
  | .scheduleReconnect peerId => some (s.scheduleReconnect config peerId)
  | .disconnect peerId current =>
      if s.runs current then some (s.cancelReconnect peerId current) else none
  | .begin t =>
      if s.tables.isUnfinished t then some { s with tables := s.tables.updateTask t .begin }
      else none
  | .finish t =>
      match s.tables.tasks t with
      | none => none
      | some x =>
          if x.status.done || !x.status.started && !x.status.cancelled then none
          else
            let u := if x.status.started then s.left t x.key else s
            some { u with tables := u.tables.updateTask t .finish }
  | .callback t =>
      match s.tables.tasks t with
      | none => none
      | some x =>
          if x.status.done && !x.status.calledBack then
            some ({ s with tables := s.tables.updateTask t .callBack }.finished t x.key)
          else none
  | .stop skip => if s.running && s.runs skip then some (s.stopLocked skip) else none
  | .clear =>
      match s.stopping with
      | none => none
      | some ts => if ts.any s.tables.isUnfinished then none else some s.clearTables
  | .start =>
      if s.running || s.stopping.isSome then none else some { s with running := true }

/-- The runs. -/
def system (F : Type) (config : Config) : System Node (Label F) where
  init := fun s => s = initial
  step := step config

end TaskTables

end Core
end Paqto
