/-
# The TCP listener

`TcpListener` of `lan/listener.py`: clients that connect, `accept()` calls and
their cancellation, and `close()`.

`accept()` waits for a future in `_accept_waiters`.  `_handle_client` fulfils it
in one step, and the call resumes in a later one.  A cancellation in between
finds the future done: it is thrown into the call when it resumes (`mustCancel`),
in place of the connection.

A stream is what `TcpConnection.is_closed` looks at.  Its writer is closed by
`TcpConnection.close`, by the one who handles it before it is a connection, or
with the transport of the event loop.  `close()` runs to its `gather` in one step;
then every connection it found is closed in a task of its own, and it may finish
when all these tasks have begun.

The last two fields record what has happened: the admitted connections, and the
calls they were given to, both in order.
-/

import Paqto.Transition.System

namespace Paqto
namespace Lan

open Transition

/-- What `TcpConnection.is_closed` looks at. -/
structure Stream where
  /-- `_closed` -/
  closed : Bool
  /-- `_writer.is_closing()` -/
  writerClosed : Bool
  /-- `_reader.at_eof()` -/
  atEof : Bool
  deriving DecidableEq, Repr

namespace Stream

/-- A stream that was just opened. -/
def opened : Stream := ⟨false, false, false⟩

/-- `TcpConnection.is_closed` -/
def isClosed (s : Stream) : Bool := s.closed || s.writerClosed || s.atEof

/-- `TcpConnection.close`, up to its `await`. -/
def close (s : Stream) : Stream := { s with closed := true, writerClosed := true }

/-- What happens to a stream that neither listener nor transport does. -/
inductive Event
  /-- The peer closed or half-closed, and everything it sent has been read. -/
  | eof
  /-- `send_frame` or `receive_frame` failed. -/
  | failed
  /-- The event loop closed the transport. -/
  | lost
  /-- The owner closed the connection. -/
  | ownerClose
  deriving DecidableEq, Repr

/-- What happens to a stream. -/
def apply (s : Stream) : Event → Stream
  | .eof => { s with atEof := true }
  | .failed => { s with closed := true }
  | .lost => { s with writerClosed := true }
  | .ownerClose => s.close

/-- A closed writer stays closed. -/
theorem writerClosed_apply {s : Stream} (h : s.writerClosed = true) (e : Event) :
    (s.apply e).writerClosed = true := by
  cases e with
  | eof => exact h
  | failed => exact h
  | lost => rfl
  | ownerClose => rfl

end Stream

/-- The rebuild of `_connections`, with the new connection. -/
def track (streams : ℕ → Stream) (connections : List ℕ) (c : ℕ) : List ℕ :=
  connections.filter (fun e => !(streams e).isClosed) ++ [c]

namespace Listener

/-- What the listener is configured with. -/
structure Config where
  maxPendingAccepts : ℕ
  maxPendingAccepts_pos : 0 < maxPendingAccepts

/-- The future of an `accept()` call. -/
inductive Waiter
  | pending
  | result (connection : ℕ)
  /-- `ConnectionClosedError` -/
  | closed
  | cancelled
  deriving DecidableEq, Repr

/-- An `accept()` call. -/
inductive Call
  | waiting (waiter : Waiter) (mustCancel : Bool)
  | returned (connection : ℕ)
  | raised
  deriving DecidableEq, Repr

end Listener

/-- The listener with its calls and its streams. -/
structure Listener where
  /-- `_server` is not `None`. -/
  started : Bool
  closed : Bool
  accepted : List ℕ
  /-- `_accept_waiters`, as the calls that wait. -/
  acceptWaiters : List ℕ
  connections : List ℕ
  calls : ℕ → Option Listener.Call
  nextCall : ℕ
  streams : ℕ → Stream
  nextConnection : ℕ
  /-- What `gather` of `_close` has yet to close. -/
  closing : List ℕ
  /-- `close()` has finished. -/
  finished : Bool
  admitted : List ℕ
  assigned : List (ℕ × ℕ)

namespace Listener

/-- Before `start`. -/
def initial : Listener where
  started := false
  closed := false
  accepted := []
  acceptWaiters := []
  connections := []
  calls := fun _ => none
  nextCall := 0
  streams := fun _ => .opened
  nextConnection := 0
  closing := []
  finished := false
  admitted := []
  assigned := []

/-- A call moves. -/
def setCall (s : Listener) (k : ℕ) (call : Call) : Listener :=
  { s with calls := Function.update s.calls k (some call) }

/-- A stream changes. -/
def setStream (s : Listener) (c : ℕ) (stream : Stream) : Listener :=
  { s with streams := Function.update s.streams c stream }

/-- The call that is set. -/
@[simp] theorem setCall_self (s : Listener) (k : ℕ) (call : Call) :
    (s.setCall k call).calls k = some call := Function.update_self ..

/-- Other calls stay as they are. -/
theorem setCall_of_ne (s : Listener) {j k : ℕ} (h : j ≠ k) (call : Call) :
    (s.setCall k call).calls j = s.calls j := Function.update_of_ne h ..

/-- The stream that is set. -/
@[simp] theorem setStream_self (s : Listener) (c : ℕ) (stream : Stream) :
    (s.setStream c stream).streams c = stream := Function.update_self ..

/-- Other streams stay as they are. -/
theorem setStream_of_ne (s : Listener) {b c : ℕ} (h : b ≠ c) (stream : Stream) :
    (s.setStream c stream).streams b = s.streams b := Function.update_of_ne h ..

/-- The waiter of the call is not done. -/
def isPending (calls : ℕ → Option Call) (k : ℕ) : Bool :=
  match calls k with
  | some (.waiting .pending _) => true
  | _ => false

/-- The task of the next `accept()` call. -/
def newCall (s : Listener) (call : Call) : Listener :=
  { s.setCall s.nextCall call with nextCall := s.nextCall + 1 }

/-- `accept`, up to its `await`. -/
def accept (s : Listener) : Listener :=
  if s.closed then s.newCall .raised
  else if !s.started then s.newCall .raised
  else
    match s.accepted with
    | c :: accepted =>
        { s.newCall (.returned c) with accepted, assigned := s.assigned ++ [(s.nextCall, c)] }
    | [] =>
        { s.newCall (.waiting .pending false) with
          acceptWaiters := s.acceptWaiters ++ [s.nextCall] }

/-- What a new call does: it fails, takes a connection, or waits. -/
theorem accept_cases (s : Listener) :
    s.accept = s.newCall .raised ∨
      (∃ c accepted, s.accepted = c :: accepted ∧ s.accept =
        { s.newCall (.returned c) with accepted, assigned := s.assigned ++ [(s.nextCall, c)] }) ∨
      (s.accepted = [] ∧ s.accept =
        { s.newCall (.waiting .pending false) with
          acceptWaiters := s.acceptWaiters ++ [s.nextCall] }) := by
  unfold accept
  split
  · exact .inl rfl
  · split
    · exact .inl rfl
    · split
      · next c accepted h => exact .inr (.inl ⟨c, accepted, h, rfl⟩)
      · next h => exact .inr (.inr ⟨h, rfl⟩)

/-- The end of an `accept()` call that its future has woken. -/
def resumed : Waiter → Bool → Option Call
  | .pending, _ => none
  | _, true => some .raised
  | .result c, false => some (.returned c)
  | .closed, false => some .raised
  | .cancelled, false => some .raised

/-- `accept` from its `await` on. -/
def resume (s : Listener) (k : ℕ) : Option Listener :=
  match s.calls k with
  | some (.waiting waiter mustCancel) =>
      (resumed waiter mustCancel).map fun call =>
        { s.setCall k call with acceptWaiters := s.acceptWaiters.erase k }
  | _ => none

/-- `Task.cancel` of the task of a call: it cancels the future, or marks the task
when the future is done. -/
def cancel (s : Listener) (k : ℕ) : Option Listener :=
  match s.calls k with
  | some (.waiting .pending mustCancel) => some (s.setCall k (.waiting .cancelled mustCancel))
  | some (.waiting waiter _) => some (s.setCall k (.waiting waiter true))
  | _ => none

/-- The loop of `_handle_client` over `_accept_waiters`: the first waiter that is
not done, and the waiters it leaves. -/
def nextWaiter (calls : ℕ → Option Call) : List ℕ → Option ℕ × List ℕ
  | [] => (none, [])
  | k :: waiters => if isPending calls k then (some k, waiters) else nextWaiter calls waiters

/-- `_handle_client`, from the new `TcpConnection` on. -/
def acceptClient (cfg : Config) (s : Listener) (c : ℕ) : Listener :=
  match nextWaiter s.calls s.acceptWaiters with
  | (some k, waiters) =>
      { s.setCall k (.waiting (.result c) false) with
        acceptWaiters := waiters
        connections := track s.streams s.connections c
        admitted := s.admitted ++ [c]
        assigned := s.assigned ++ [(k, c)] }
  | (none, waiters) =>
      if s.accepted.length ≥ cfg.maxPendingAccepts then
        { s.setStream c (s.streams c).close with acceptWaiters := waiters }
      else
        { s with
          acceptWaiters := waiters
          connections := track s.streams s.connections c
          accepted := s.accepted ++ [c]
          admitted := s.admitted ++ [c] }

/-- A new connection goes to a call that waits, into `_accepted`, or is closed. -/
theorem acceptClient_cases (cfg : Config) (s : Listener) (c : ℕ) :
    (∃ k waiters, nextWaiter s.calls s.acceptWaiters = (some k, waiters) ∧ s.acceptClient cfg c =
      { s.setCall k (.waiting (.result c) false) with
        acceptWaiters := waiters
        connections := track s.streams s.connections c
        admitted := s.admitted ++ [c]
        assigned := s.assigned ++ [(k, c)] }) ∨
    ∃ waiters, nextWaiter s.calls s.acceptWaiters = (none, waiters) ∧
      (s.accepted.length ≥ cfg.maxPendingAccepts ∧ s.acceptClient cfg c =
        { s.setStream c (s.streams c).close with acceptWaiters := waiters } ∨
      s.accepted.length < cfg.maxPendingAccepts ∧ s.acceptClient cfg c =
        { s with
          acceptWaiters := waiters
          connections := track s.streams s.connections c
          accepted := s.accepted ++ [c]
          admitted := s.admitted ++ [c] }) := by
  unfold acceptClient
  split
  · next k waiters h => exact .inl ⟨k, waiters, h, rfl⟩
  · next waiters h =>
      split
      · next hfull => exact .inr ⟨waiters, h, .inl ⟨hfull, rfl⟩⟩
      · next hroom => exact .inr ⟨waiters, h, .inr ⟨Nat.lt_of_not_le hroom, rfl⟩⟩

/-- `_handle_client`; `wellFormed` says that endpoint and security metadata of the
stream were read. -/
def handleClient (cfg : Config) (s : Listener) (wellFormed : Bool) : Listener :=
  let c := s.nextConnection
  let t := { s.setStream c .opened with nextConnection := s.nextConnection + 1 }
  if s.closed || !wellFormed then t.setStream c { Stream.opened with writerClosed := true }
  else t.acceptClient cfg c

/-- `_close`, up to its `gather`. -/
def close (s : Listener) : Listener :=
  { s with
    closed := true
    started := false
    calls := fun k =>
      if k ∈ s.acceptWaiters ∧ isPending s.calls k then some (.waiting .closed false) else s.calls k
    acceptWaiters := []
    connections := []
    accepted := []
    closing := s.connections }

/-- The calls of a listener, and what happens to it. -/
inductive Label
  | start
  | accept
  | resume (call : ℕ)
  | cancel (call : ℕ)
  | client (wellFormed : Bool)
  | stream (connection : ℕ) (event : Stream.Event)
  | close
  /-- A task of `gather` closes its connection. -/
  | closeOne (connection : ℕ)
  | finish
  deriving DecidableEq, Repr

/-- One step. -/
def step (cfg : Config) (s : Listener) : Label → Option Listener
  | .start => if s.closed then none else some { s with started := true }
  | .accept => some s.accept
  | .resume k => s.resume k
  | .cancel k => s.cancel k
  | .client wellFormed => some (s.handleClient cfg wellFormed)
  | .stream c event =>
      if c < s.nextConnection then some (s.setStream c ((s.streams c).apply event)) else none
  | .close => if s.closed then none else some s.close
  | .closeOne c =>
      if c ∈ s.closing then
        some { s.setStream c (s.streams c).close with closing := s.closing.erase c }
      else none
  | .finish => if s.closed ∧ s.closing = [] then some { s with finished := true } else none

/-- The runs. -/
def system (cfg : Config) : System Listener Label where
  init s := s = initial
  step := step cfg

end Listener

end Lan
end Paqto
