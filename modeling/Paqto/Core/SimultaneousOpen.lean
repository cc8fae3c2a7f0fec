/-
# Simultaneous open

Two running nodes that open a connection to each other at once: `a`, with the smaller id,
opens X, and `b` opens Y.  Each end of each connection learns a session of the other node
from its hello, no node is stopped or told to disconnect, and a connection is closed by one
of the two nodes only.

Both nodes take the steps of `Paqto.Core.Sessions`; here stands what one waits for from the
other.  A hello completes once the other end has sent its own: the end that opens sends it
when `transport.connect` has returned, the end that accepts when its task runs.  The reader
of a connection ends when one of the two nodes has closed it.
-/

import Paqto.Core.SessionsInvariant

namespace Paqto
namespace Core

open Transition Python

namespace Sessions

variable {F : Type}

/-- `transport.connect` has not returned. -/
def AttemptPc.isConnecting : AttemptPc → Bool
  | .connecting _ => true
  | _ => false

/-- The reader has not started. -/
def ReaderPc.isAbsent : ReaderPc F → Bool
  | .absent => true
  | _ => false

namespace SimultaneousOpen

/-- The two peers. -/
inductive Side
  | a
  | b
  deriving DecidableEq, Repr

/-- The other one. -/
def Side.other : Side → Side
  | a => b
  | b => a

/-- Two nodes; the connection that a side opens is named by the side. -/
structure Pair (F : Type) where
  peerId : Side → Str
  lt : peerId .a < peerId .b
  connection : Side → ℕ
  distinct : connection .a ≠ connection .b
  /-- The call of `connect()`. -/
  caller : Side → ℕ
  /-- What the end of a side learns from the hello on a connection. -/
  session : Side → Side → ProtocolSession F
  session_peerId : ∀ e c, (session e c).peerId = peerId e.other

/-- What happens at a side. -/
inductive Event
  /-- `transport.connect` returns. -/
  | opened
  /-- The connection of the other side is accepted. -/
  | accept
  /-- The hello on the own connection completes. -/
  | attemptNegotiated
  | attemptCancelled
  | resumeAttempt
  /-- The hello on the connection of the other side completes. -/
  | incomingNegotiated
  | resumeReader (c : Side)
  | readerEnds (c : Side)
  | resumeCaller
  /-- The end of a connection that the other node has closed. -/
  | remoteClosed (c : Side)
  deriving DecidableEq, Repr

/-- The two nodes. -/
abbrev State (F : Type) : Type := Side → Node F

namespace Pair

variable (P : Pair F)

/-- The step of a node that an event is, when the other node has done its part. -/
def label (s : State F) (e : Side) : Event → Option (Label F)
  | .opened => some (.opened (P.connection e))
  | .accept => some (.accept (P.connection e.other))
  | .attemptNegotiated =>
      if ((s e.other).readers (P.connection e)).isAbsent then none
      else some (.attemptNegotiated (P.connection e) (P.session e e))
  | .attemptCancelled => some (.attemptCancelled (P.connection e))
  | .resumeAttempt => some (.resumeAttempt (P.connection e))
  | .incomingNegotiated =>
      if ((s e.other).attempts (P.connection e.other)).isConnecting then none
      else some (.incomingNegotiated (P.connection e.other) (P.session e e.other))
  | .resumeReader c => some (.resumeReader (P.connection c))
  | .readerEnds c =>
      if (s e).isClosed (P.connection c) || (s e.other).isClosed (P.connection c) then
        some (.readerEnds (P.connection c))
      else none
  | .resumeCaller => some (.resumeCaller (P.caller e))
  | .remoteClosed c =>
      if (s e.other).isClosed (P.connection c) && !(s e).isClosed (P.connection c) then
        some (.close (P.connection c))
      else none

/-- One step of one of the two nodes. -/
def step (s : State F) (l : Side × Event) : Option (State F) :=
  (P.label s l.1 l.2).bind fun l' =>
    (Sessions.step (P.peerId l.1) (s l.1) l').map fun t => Function.update s l.1 t

/-- Nothing is left of a connection to the peer, and the two connections are new. -/
structure Unconnected (s : Node F) (e : Side) : Prop where
  peerConnections : s.tables.peerConnections (P.peerId e.other) = none
  manager : s.manager (P.peerId e.other) = none
  inFlight : s.inFlight (P.peerId e.other) = none
  closingPeers : s.closingPeers (P.peerId e.other) = false
  caller : s.nextCaller = P.caller e
  ready : ∀ c, s.tables.ready (P.connection c) = none
  isClosed : ∀ c, s.isClosed (P.connection c) = false
  cancelled : ∀ c, s.cancelled (P.connection c) = false
  attempts : ∀ c, s.attempts (P.connection c) = .absent
  readers : ∀ c, s.readers (P.connection c) = .absent

/-- Both nodes have called `connect()`. -/
def Started (s : State F) : Prop :=
  ∀ e, ∃ u, Reachable (Sessions.system F (P.peerId e)) u ∧ P.Unconnected u e ∧
    Sessions.step (P.peerId e) u (.connect (P.peerId e.other) (P.connection e)) = some (s e)

/-- The runs from there. -/
def system : System (State F) (Side × Event) where
  init := P.Started
  step := P.step

/-! ## The law -/

/-- No step is left. -/
def Terminal (s : State F) : Prop := ∀ l, P.step s l = none

/-- **Simultaneous open has converged**: X is canonical, READY and open at both nodes, Y is
closed, and both calls of `connect()` have returned. -/
structure Converged (s : State F) : Prop where
  canonical : ∀ e, (s e).tables.peerConnections (P.peerId e.other) = some (P.connection .a)
  ready : ∀ e, ∃ session, (s e).tables.sessionFor (P.connection .a) = some session ∧
    session.peerId = P.peerId e.other
  isOpen : ∀ e, (s e).isClosed (P.connection .a) = false
  isClosed : ∀ e, (s e).isClosed (P.connection .b) = true
  returned : ∀ e, ∃ c, (s e).callers (P.caller e) = .returned c

/-- The hello on X completes at `b` after its attempt has returned Y, and before the caller
resumes. -/
def Overtakes (s : State F) (l : Side × Event) : Prop :=
  l = (.b, .incomingNegotiated) ∧
    (s .b).attempts (P.connection .b) = .returned (P.connection .b) ∧
    (s .b).callers (P.caller .b) = .waiting (P.peerId .a) (P.connection .b)

end Pair
end SimultaneousOpen
end Sessions
end Core
end Paqto
