/-
# The session tables of a node

`_sessions`, `_session_connections`, `_session_directions` and
`_peer_connections` of `PaqtoNode` (`core/node.py`) and everything that reads or
changes them.  The first three are keyed by `id(connection)`, the address of an
object while it lives, and the address of a dead object is used again.

A connection is a number that is never used twice; `ids` has the addresses of the
living ones.  A listener or a transport hands out a new object each time, and the
task that sets it up selects it once.  A connection dies when no table holds it.

A step is a section of some task between two suspensions that touches the tables:
selection in a set-up task, deactivation by a reader that ends, by a set-up that
fails or for a replaced connection, `disconnect`, and the clearing in `stop`.  They
come in any order, which is more than the tasks can do.
-/

import Paqto.Core.SessionTables
import Paqto.Python.Dict
import Paqto.Transition.System

namespace Paqto
namespace Core

open Python Transition

/-- The four dicts of sessions, keyed by the ids of connection objects. -/
structure NodeTables (F : Type) where
  sessions : Dict ℕ (ProtocolSession F)
  sessionConnections : Dict ℕ ℕ
  sessionDirections : Dict ℕ Direction
  peerConnections : Dict Str ℕ
  /-- `id` of the living connections. -/
  ids : Dict ℕ ℕ
  nextConnection : ℕ
  /-- Selection has run for the connection. -/
  selected : ℕ → Bool

namespace NodeTables

variable {F : Type}

/-- No connection. -/
def initial : NodeTables F where
  sessions := .empty
  sessionConnections := .empty
  sessionDirections := .empty
  peerConnections := .empty
  ids := .empty
  nextConnection := 0
  selected := fun _ => false

/-- `_register_session` -/
def registerSession (s : NodeTables F) (key c : ℕ) (session : ProtocolSession F)
    (direction : Direction) : NodeTables F :=
  { s with
    sessions := s.sessions.set key session
    sessionConnections := s.sessionConnections.set key c
    sessionDirections := s.sessionDirections.set key direction
    peerConnections := s.peerConnections.set session.peerId c }

/-- `_deactivate_session` -/
def deactivateSession (s : NodeTables F) (key c : ℕ) : NodeTables F :=
  let t := { s with
    sessions := s.sessions.erase key
    sessionConnections := s.sessionConnections.erase key
    sessionDirections := s.sessionDirections.erase key }
  match s.sessions.get? key with
  | some session =>
      if s.peerConnections.get? session.peerId = some c then
        { t with peerConnections := s.peerConnections.erase session.peerId }
      else t
  | none => t

/-- What `_select_ready_connection` raises. -/
inductive SelectError
  | peerIdentityMismatch
  /-- `self._session_directions[id(existing)]` -/
  | keyError
  deriving DecidableEq, Repr

/-- `_peer_connections.get`, after a closed one was deactivated. -/
def openExisting (s : NodeTables F) (isClosed : ℕ → Bool) (remote : Str) :
    NodeTables F × Option ℕ :=
  match s.peerConnections.get? remote with
  | none => (s, none)
  | some existing =>
      if isClosed existing then
        ((s.ids.get? existing).elim s fun key => s.deactivateSession key existing, none)
      else (s, some existing)

/-- `_select_ready_connection` for a connection with an `id`. -/
def selectReadyConnection (s : NodeTables F) (peerId : Str) (isClosed : ℕ → Bool) (key c : ℕ)
    (session : ProtocolSession F) (direction : Direction) :
    Except SelectError (NodeTables F × SessionTables.Selection) :=
  if session.peerId = peerId then .error .peerIdentityMismatch
  else
    match s.openExisting isClosed session.peerId with
    | (t, none) => .ok (t.registerSession key c session direction, ⟨c, none⟩)
    | (t, some existing) =>
        if existing = c then .ok (t, ⟨c, none⟩)
        else
          match (t.ids.get? existing).bind fun existingKey => (t.sessionDirections.get? existingKey).map
            fun existingDirection => (existingKey, existingDirection) with
          | none => .error .keyError
          | some (existingKey, existingDirection) =>
              let preferred := SessionTables.preferredDirection peerId session.peerId
              if direction = preferred ∧ existingDirection ≠ preferred then
                .ok ((t.deactivateSession existingKey existing).registerSession key c session direction,
                  ⟨c, some existing⟩)
              else .ok (t, ⟨existing, some c⟩)

/-- What `_connection_for_reply` raises. -/
inductive ReplyError
  /-- "No READY connection is available for peer …." -/
  | noConnection (peerId : Str)
  /-- "Multiple READY connections exist for peer …." -/
  | multiple (peerId : Str)
  /-- `self._sessions[key]` -/
  | keyError
  deriving DecidableEq, Repr

/-- The list comprehension of `_connection_for_reply`. -/
def candidates (s : NodeTables F) (isClosed : ℕ → Bool) (sender : Str) :
    List (ℕ × ℕ) → Except ReplyError (List ℕ)
  | [] => .ok []
  | (key, c) :: items =>
      if isClosed c then s.candidates isClosed sender items
      else
        match s.sessions.get? key with
        | none => .error .keyError
        | some session =>
            (s.candidates isClosed sender items).map fun rest =>
              if session.peerId = sender then c :: rest else rest

/-- `_connection_for_reply`; `context` is the connection of the message that the
current task handles, when it is this one. -/
def connectionForReply (s : NodeTables F) (context : Option ℕ) (isClosed : ℕ → Bool) (sender : Str) :
    Except ReplyError ℕ :=
  match context with
  | some c => .ok c
  | none =>
      match s.candidates isClosed sender s.sessionConnections.items with
      | .error e => .error e
      | .ok [] => .error (.noConnection sender)
      | .ok [c] => .ok c
      | .ok (_ :: _ :: _) => .error (.multiple sender)

/-- Some table holds the connection. -/
def holds (s : NodeTables F) (c : ℕ) : Bool :=
  c ∈ s.sessionConnections.items.map Prod.snd || c ∈ s.peerConnections.items.map Prod.snd

/-- Connections come and go, and the node calls its tables. -/
inductive Label (F : Type)
  /-- A new connection object at an address that no living one has. -/
  | opened (id : ℕ)
  /-- A connection object is freed. -/
  | freed (connection : ℕ)
  /-- `_select_ready_connection` in the set-up of a connection. -/
  | select (connection : ℕ) (session : ProtocolSession F) (direction : Direction)
      (isClosed : ℕ → Bool)
  /-- `_deactivate_session` in `_retire_replaced_connection`, `_connection_ended` or
  `_run_incoming_connection`. -/
  | deactivate (connection : ℕ)
  /-- `disconnect` -/
  | disconnect (peerId : Str)
  /-- `_stop_locked` clears the tables. -/
  | stop

/-- `_stop_locked`, where it clears the tables. -/
def clear (s : NodeTables F) : NodeTables F :=
  { s with
    sessions := .empty
    sessionConnections := .empty
    sessionDirections := .empty
    peerConnections := .empty }

/-- `disconnect`, as far as it touches the tables. -/
def disconnect (s : NodeTables F) (peerId : Str) : NodeTables F :=
  match s.peerConnections.get? peerId with
  | none => s
  | some c => (s.ids.get? c).elim s fun key => s.deactivateSession key c

/-- One step. -/
def step (peerId : Str) (s : NodeTables F) : Label F → Option (NodeTables F)
  | .opened id =>
      if id ∈ s.ids.items.map Prod.snd then none
      else some { s with
        ids := s.ids.set s.nextConnection id
        nextConnection := s.nextConnection + 1 }
  | .freed c =>
      if s.holds c then none else some { s with ids := s.ids.erase c }
  | .select c session direction isClosed =>
      match s.ids.get? c with
      | none => none
      | some key =>
          if s.selected c then none
          else
            let t := { s with selected := Function.update s.selected c true }
            match t.selectReadyConnection peerId isClosed key c session direction with
            | .error _ => some t
            | .ok (u, _) => some u
  | .deactivate c => (s.ids.get? c).map fun key => s.deactivateSession key c
  | .disconnect remote => some (s.disconnect remote)
  | .stop => some s.clear

/-- The runs. -/
def system (F : Type) (peerId : Str) : System (NodeTables F) (Label F) where
  init s := s = initial
  step := step peerId

end NodeTables

end Core
end Paqto
