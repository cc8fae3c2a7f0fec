/-
# The connection manager

`ConnectionManager` of `core/manager.py`: the canonical connection of each
peer, the open attempts that callers share, and the calls that close them.

A step is what one task does between two suspensions.  The lock of the manager
is never held over a suspension, so to take it is none.  A connection, an
attempt, a caller and a closing call are named by numbers.  What the transport,
`prepare` and the connections do while the manager awaits them is in the
labels: an await is answered with a value or an exception, late or never, and a
connection closes when it likes.  A cancellation that was requested may be
answered at once, after a clean-up of any length, or not at all.
-/

import Mathlib.Data.List.AList
import Paqto.Python.Text
import Paqto.Transition.System

namespace Paqto
namespace Core

open Transition Python

namespace ConnectionManager

/-- `ConnectionState` -/
inductive ConnectionState
  | disconnected
  | connecting
  | connected
  | reconnecting
  | closing
  | closed
  deriving DecidableEq, Repr

/-- `Endpoint`, without its metadata. -/
structure Endpoint where
  transport : Str
  address : Str
  deriving DecidableEq, Repr

/-- What a call of the manager raises. -/
inductive Failure (E : Type)
  /-- `TransportError`, "Endpoint uses transport …, but manager uses …." -/
  | otherTransport (endpoint manager : Str)
  /-- `NoEndpointError`, "Peer … has an empty endpoint address." -/
  | emptyAddress (p : Str)
  /-- `ConnectionClosedError`, "Connection lifecycle for peer … is closing." -/
  | closing (p : Str)
  /-- `ConnectionClosedError`, "… closed during connection setup." -/
  | closedDuringSetup (p : Str)
  /-- `PaqtoTimeoutError`, "Timed out while opening connection." -/
  | timedOut
  /-- `CancelledError` -/
  | cancelled
  /-- An exception of the transport, of `prepare` or of a connection. -/
  | raised (e : E)
  deriving DecidableEq, Repr

variable {E : Type}

/-- The failure is a cancellation. -/
def Failure.isCancelled : Failure E → Bool
  | cancelled => true
  | _ => false

/-- The task of `_open_connection` for the peer `p`. -/
inductive AttemptPc (E : Type)
  | absent
  /-- Created by `connect`, with or without a `prepare`. -/
  | created (p : Str) (prepare : Bool)
  /-- In `transport.connect`. -/
  | connecting (p : Str) (prepare : Bool)
  | preparing (p : Str) (opened : ℕ)
  /-- In `close()` of the opened connection, in the place of which another one
  was selected. -/
  | closingOpened (p : Str) (opened selected : ℕ)
  /-- In `close()` of the connection it has replaced. -/
  | closingPrevious (p : Str) (opened selected : ℕ)
  /-- In `close()` of the `finally`. -/
  | cleaning (p : Str) (opened : ℕ) (primaryError : Failure E)
  | done (p : Str) (outcome : Except (Failure E) ℕ)

/-- The peer of an attempt that is not done. -/
def AttemptPc.peer : AttemptPc E → Option Str
  | created p _ | connecting p _ | preparing p _ | closingOpened p _ _ | closingPrevious p _ _
  | cleaning p _ _ => some p
  | _ => none

/-- The attempt is done. -/
def AttemptPc.isDone : AttemptPc E → Bool
  | done _ _ => true
  | _ => false

/-- A call of `connect`. -/
inductive CallerPc (E : Type)
  | absent
  /-- In `shield(task)`. -/
  | waiting (attempt : ℕ)
  /-- It has returned or raised; `joined` is the attempt it has waited for. -/
  | done (joined : Option ℕ) (outcome : Except (Failure E) ℕ)
  | cancelled (joined : ℕ)

/-- A call of `close_peer` or `close_all`. -/
inductive CloserPc
  | absent
  /-- `close_peer`, in `gather` of the attempt. -/
  | gathering (p : Str) (task : ℕ) (connection : Option ℕ)
  /-- The same, cancelled: `gather` is over with its task only. -/
  | gatheringCancelled (p : Str) (task : ℕ)
  /-- `close_peer`, in `close()` of the connection. -/
  | closing (p : Str) (connection : ℕ)
  /-- `close_all`, in `gather` of the attempts. -/
  | gatheringAll (tasks connections : List ℕ) (peers : List Str)
  /-- `close_all`, cancelled in a `gather` of these attempts. -/
  | gatheringAllCancelled (tasks : List ℕ)
  /-- `close_all`, in `gather` of the `close()` calls. -/
  | closingAll (connections : List ℕ) (peers : List Str)
  | finished
  deriving DecidableEq, Repr

/-- A `dict` whose keys are peer ids. -/
abbrev PeerDict (α : Type) := AList fun _ : Str => α

/-- The tables of the manager, and its calls. -/
structure Manager (E : Type) where
  /-- `_connections` -/
  connections : PeerDict ℕ
  /-- `_in_flight` -/
  inFlight : PeerDict ℕ
  /-- `_states` -/
  states : PeerDict ConnectionState
  /-- `_closing_peers` -/
  closingPeers : Str → Bool
  /-- `_closing` -/
  closing : Bool
  isClosed : ℕ → Bool
  /-- `close()` was called on the connection. -/
  closeCalled : ℕ → Bool
  attempts : ℕ → AttemptPc E
  /-- `cancel()` was called on the attempt, which has not been told yet. -/
  cancelled : ℕ → Bool
  callers : ℕ → CallerPc E
  closers : ℕ → CloserPc

/-- `__init__` -/
def initial : Manager E where
  connections := ∅
  inFlight := ∅
  states := ∅
  closingPeers := fun _ => false
  closing := false
  isClosed := fun _ => false
  closeCalled := fun _ => false
  attempts := fun _ => .absent
  cancelled := fun _ => false
  callers := fun _ => .absent
  closers := fun _ => .absent

/-- What an attempt is resumed with. -/
inductive Answer (E : Type)
  /-- The task is run for the first time. -/
  | start
  /-- `transport.connect` returns. -/
  | opened (c : ℕ)
  /-- `transport.connect` raises `TimeoutError`, or takes too long. -/
  | timeout
  /-- `prepare` returns. -/
  | prepared (replacement : Option ℕ)
  /-- `close()` returns. -/
  | closed
  /-- What it awaits raises. -/
  | raises (e : Failure E)

/-- The calls of the manager, and what they await. -/
inductive Label (E : Type)
  /-- A call of `connect` up to its first suspension; `a` is the number of the
  attempt it may create. -/
  | connect (k a : ℕ) (p : Str) (endpoint : Endpoint) (prepare reconnecting : Bool)
  | resumeCaller (k : ℕ)
  | cancelCaller (k : ℕ)
  | attempt (a : ℕ) (answer : Answer E)
  | adopt (p : Str) (c : ℕ)
  | connectionLost (p : Str) (c : ℕ)
  | markReconnecting (p : Str)
  | markDisconnected (p : Str)
  /-- `state`, `get` and `get_by_id` -/
  | getById (p : Str)
  | closePeer (k : ℕ) (p : Str)
  | closeAll (k : ℕ)
  /-- What a closing call awaits is over; a `close()` may have raised. -/
  | resumeCloser (k : ℕ)
  | cancelCloser (k : ℕ)
  /-- A connection closes. -/
  | closes (c : ℕ)

namespace Manager

/-- An attempt moves. -/
def setAttempt (s : Manager E) (a : ℕ) (pc : AttemptPc E) : Manager E :=
  { s with attempts := Function.update s.attempts a pc }

/-- A caller moves. -/
def setCaller (s : Manager E) (k : ℕ) (pc : CallerPc E) : Manager E :=
  { s with callers := Function.update s.callers k pc }

/-- A closing call moves. -/
def setCloser (s : Manager E) (k : ℕ) (pc : CloserPc) : Manager E :=
  { s with closers := Function.update s.closers k pc }

/-- `_states[p] = state` -/
def setState (s : Manager E) (p : Str) (state : ConnectionState) : Manager E :=
  { s with states := s.states.insert p state }

/-- `await connection.close()`, up to its suspension. -/
def callClose (s : Manager E) (c : ℕ) : Manager E :=
  { s with closeCalled := Function.update s.closeCalled c true }

/-- `self._closing or peer.id in self._closing_peers` -/
def isClosing (s : Manager E) (p : Str) : Bool := s.closing || s.closingPeers p

/-- `get_by_id` -/
def getById (s : Manager E) (p : Str) : Manager E × Option ℕ :=
  match s.connections.lookup p with
  | some c =>
      if s.isClosed c then
        ({ s with
            connections := s.connections.erase p
            states := if s.states.lookup p = some .connected then
                s.states.insert p .disconnected
              else s.states }, none)
      else (s, some c)
  | none => (s, none)

/-- `state` -/
def state (s : Manager E) (p : Str) : ConnectionState :=
  match (s.getById p).2 with
  | some _ => .connected
  | none => ((s.getById p).1.states.lookup p).getD .disconnected

/-- `mark_reconnecting` -/
def markReconnecting (s : Manager E) (p : Str) : Manager E :=
  if s.isClosing p then s
  else
    match s.getById p with
    | (t, none) => t.setState p .reconnecting
    | (t, some _) => t

/-- `mark_disconnected` -/
def markDisconnected (s : Manager E) (p : Str) : Manager E :=
  match s.getById p with
  | (t, none) => if t.closingPeers p then t else t.setState p .disconnected
  | (t, some _) => t

/-- `adopt`; a refused call changes nothing. -/
def adopt (s : Manager E) (p : Str) (c : ℕ) : Manager E :=
  if s.isClosing p then s
  else { s with connections := s.connections.insert p c }.setState p .connected

/-- `connection_lost` -/
def connectionLost (s : Manager E) (p : Str) (c : ℕ) : Manager E :=
  if s.connections.lookup p = some c then
    let t := { s with connections := s.connections.erase p }
    if s.isClosing p then t else t.setState p .disconnected
  else s

/-! ## `connect` -/

/-- `_validate_target` -/
def validateTarget (transport : Str) (p : Str) (endpoint : Endpoint) : Option (Failure E) :=
  if endpoint.transport ≠ transport then some (.otherTransport endpoint.transport transport)
  else if endpoint.address = [] then some (.emptyAddress p)
  else none

/-- `connect` up to its first suspension. -/
def connect (s : Manager E) (transport : Str) (k a : ℕ) (p : Str) (endpoint : Endpoint)
    (prepare reconnecting : Bool) : Option (Manager E) :=
  match validateTarget transport p endpoint with
  | some e => some (s.setCaller k (.done none (.error e)))
  | none =>
      if s.isClosing p then some (s.setCaller k (.done none (.error (.closing p))))
      else
        match s.getById p with
        | (t, some c) => some (t.setCaller k (.done none (.ok c)))
        | (t, none) =>
            match t.inFlight.lookup p with
            | some a => some (t.setCaller k (.waiting a))
            | none =>
                match t.attempts a with
                | .absent =>
                    let state := if reconnecting then .reconnecting else .connecting
                    some (({ t with inFlight := t.inFlight.insert p a }.setState p state
                      |>.setAttempt a (.created p prepare)).setCaller k (.waiting a))
                | _ => none

/-! ## `_open_connection` -/

/-- The end of the `finally`. -/
def endAttempt (s : Manager E) (a : ℕ) (p : Str) (outcome : Except (Failure E) ℕ) : Manager E :=
  let t := { s with
    inFlight := if s.inFlight.lookup p = some a then s.inFlight.erase p else s.inFlight }
  match outcome with
  | .ok _ => t.setAttempt a (.done p outcome)
  | .error _ =>
      match t.getById p with
      | (t, none) =>
          (t.setState p (if t.isClosing p then .closed else .disconnected)).setAttempt a
            (.done p outcome)
      | (t, some _) => t.setAttempt a (.done p outcome)

/-- The `finally` after an exception. -/
def failAttempt (s : Manager E) (a : ℕ) (p : Str) (opened : ℕ) (e : Failure E) : Manager E :=
  if s.isClosed opened then s.endAttempt a p (.error e)
  else (s.callClose opened).setAttempt a (.cleaning p opened e)

/-- The connection that was selected becomes the canonical one. -/
def install (s : Manager E) (a : ℕ) (p : Str) (opened selected : ℕ) : Manager E :=
  if s.isClosing p then s.failAttempt a p opened (.closedDuringSetup p)
  else
    let t := { s with connections := s.connections.insert p selected }.setState p .connected
    match (s.connections.lookup p).filter (· ≠ selected) with
    | some previous => (t.callClose previous).setAttempt a (.closingPrevious p opened selected)
    | none => t.endAttempt a p (.ok selected)

/-- `prepare` has returned, or there is none. -/
def select (s : Manager E) (a : ℕ) (p : Str) (opened : ℕ) (replacement : Option ℕ) : Manager E :=
  let selected := replacement.getD opened
  if selected ≠ opened ∧ s.isClosed opened = false then
    (s.callClose opened).setAttempt a (.closingOpened p opened selected)
  else s.install a p opened selected

/-- The attempt `a` is resumed: a cancellation is told with it. -/
def resumeAttempt (s : Manager E) (a : ℕ) (answer : Answer E) : Option (Manager E) :=
  let t := { s with cancelled := Function.update s.cancelled a false }
  match s.attempts a, answer with
  | .created p prepare, .start =>
      if s.cancelled a then none else some (s.setAttempt a (.connecting p prepare))
  -- a task that is cancelled before it is run never enters its `try`
  | .created p _, .raises .cancelled =>
      if s.cancelled a then some (t.setAttempt a (.done p (.error .cancelled))) else none
  | .connecting p prepare, .opened c =>
      if prepare then some (t.setAttempt a (.preparing p c)) else some (t.select a p c none)
  | .connecting p _, .timeout => some (t.endAttempt a p (.error .timedOut))
  | .preparing p c, .prepared replacement => some (t.select a p c replacement)
  | .closingOpened p opened selected, .closed => some (t.install a p opened selected)
  | .closingPrevious p _ selected, .closed => some (t.endAttempt a p (.ok selected))
  | .cleaning p _ e, .closed => some (t.endAttempt a p (.error e))
  | pc, .raises e =>
      if e.isCancelled && !s.cancelled a then none
      else
        match pc with
        | .connecting p _ => some (t.endAttempt a p (.error e))
        | .preparing p opened | .closingOpened p opened _ | .closingPrevious p opened _ =>
            some (t.failAttempt a p opened e)
        | .cleaning p _ primaryError => some (t.endAttempt a p (.error primaryError))
        | _ => none
  | _, _ => none

/-! ## `close_peer` and `close_all` -/

/-- `task.cancel()` -/
def cancelTasks (s : Manager E) (tasks : List ℕ) : Manager E :=
  { s with cancelled := fun a => s.cancelled a || (a ∈ tasks && !(s.attempts a).isDone) }

/-- The `finally` of `close_peer`. -/
def endClosePeer (s : Manager E) (k : ℕ) (p : Str) : Manager E :=
  let t := { s with closingPeers := Function.update s.closingPeers p false }
  (if (s.connections.lookup p).isNone ∧ (s.inFlight.lookup p).isNone then t.setState p .closed
    else t).setCloser k .finished

/-- `close_peer` once its attempt is done. -/
def closeGathered (s : Manager E) (k : ℕ) (p : Str) (connection : Option ℕ) : Manager E :=
  match connection with
  | some c => (s.callClose c).setCloser k (.closing p c)
  | none => s.endClosePeer k p

/-- `close_peer` up to its first suspension. -/
def closePeer (s : Manager E) (k : ℕ) (p : Str) : Manager E :=
  let t := { s with
    closingPeers := Function.update s.closingPeers p true
    inFlight := s.inFlight.erase p
    connections := s.connections.erase p }.setState p .closing
  match s.inFlight.lookup p with
  | some a => (t.cancelTasks [a]).setCloser k (.gathering p a (s.connections.lookup p))
  | none => t.closeGathered k p (s.connections.lookup p)

/-- The end of `close_all`. -/
def endCloseAll (s : Manager E) (k : ℕ) (peers : List Str) : Manager E :=
  { s with
    states := peers.foldl (fun states p => states.insert p .closed) s.states
    closingPeers := fun _ => false
    closing := false }.setCloser k .finished

/-- `close_all` once the attempts are done. -/
def closeAllGathered (s : Manager E) (k : ℕ) (connections : List ℕ) (peers : List Str) :
    Manager E :=
  if connections = [] then s.endCloseAll k peers
  else
    { s with closeCalled := fun c => s.closeCalled c || c ∈ connections }.setCloser k
      (.closingAll connections peers)

/-- `dict.values()` -/
def values {α : Type} (d : PeerDict α) : List α := d.entries.map Sigma.snd

/-- `close_all` up to its first suspension. -/
def closeAll (s : Manager E) (k : ℕ) : Manager E :=
  let peers := (s.states.keys ++ s.connections.keys ++ s.inFlight.keys).dedup
  let tasks := values s.inFlight
  let connections := (values s.connections).dedup
  let t := { s with
    closing := true
    states := peers.foldl (fun states p => states.insert p .closing) s.states
    inFlight := ∅
    connections := ∅ }.cancelTasks tasks
  if tasks = [] then t.closeAllGathered k connections peers
  else t.setCloser k (.gatheringAll tasks connections peers)

/-- A closing call goes on. -/
def resumeCloser (s : Manager E) (k : ℕ) : Option (Manager E) :=
  match s.closers k with
  | .gathering p a connection =>
      if (s.attempts a).isDone then some (s.closeGathered k p connection) else none
  | .gatheringCancelled p a => if (s.attempts a).isDone then some (s.endClosePeer k p) else none
  | .closing p _ => some (s.endClosePeer k p)
  | .gatheringAll tasks connections peers =>
      if ∀ a ∈ tasks, (s.attempts a).isDone then some (s.closeAllGathered k connections peers)
      else none
  -- `CancelledError` is raised, and nothing lowers `_closing` any more
  | .gatheringAllCancelled tasks =>
      if ∀ a ∈ tasks, (s.attempts a).isDone then some (s.setCloser k .finished) else none
  | .closingAll _ peers => some (s.endCloseAll k peers)
  | _ => none

/-- A closing call is cancelled. -/
def cancelCloser (s : Manager E) (k : ℕ) : Option (Manager E) :=
  match s.closers k with
  | .gathering p a _ => some ((s.cancelTasks [a]).setCloser k (.gatheringCancelled p a))
  | .closing p _ => some (s.endClosePeer k p)
  | .gatheringAll tasks _ _ =>
      some ((s.cancelTasks tasks).setCloser k (.gatheringAllCancelled tasks))
  | .closingAll _ _ => some (s.setCloser k (.gatheringAllCancelled []))
  | _ => none

end Manager

/-- One step of the manager of the transport named `transport`. -/
def step (transport : Str) (s : Manager E) : Label E → Option (Manager E)
  | .connect k a p endpoint prepare reconnecting =>
      match s.callers k with
      | .absent => s.connect transport k a p endpoint prepare reconnecting
      | _ => none
  | .resumeCaller k =>
      match s.callers k with
      | .waiting a =>
          match s.attempts a with
          | .done _ outcome => some (s.setCaller k (.done (some a) outcome))
          | _ => none
      | _ => none
  | .cancelCaller k =>
      match s.callers k with
      | .waiting a => some (s.setCaller k (.cancelled a))
      | _ => none
  | .attempt a answer => s.resumeAttempt a answer
  | .adopt p c => some (s.adopt p c)
  | .connectionLost p c => some (s.connectionLost p c)
  | .markReconnecting p => some (s.markReconnecting p)
  | .markDisconnected p => some (s.markDisconnected p)
  | .getById p => some (s.getById p).1
  | .closePeer k p =>
      match s.closers k with
      | .absent => some (s.closePeer k p)
      | _ => none
  | .closeAll k =>
      match s.closers k with
      | .absent => some (s.closeAll k)
      | _ => none
  | .resumeCloser k => s.resumeCloser k
  | .cancelCloser k => s.cancelCloser k
  | .closes c => some { s with isClosed := Function.update s.isClosed c true }

/-- The runs of a manager. -/
def system (E : Type) (transport : Str) : System (Manager E) (Label E) where
  init s := s = initial
  step := step transport

end ConnectionManager
end Core
end Paqto
