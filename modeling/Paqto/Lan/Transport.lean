/-
# The outgoing side of the LAN transport

`connect`, `start` and `stop` of `LanTransport` (`lan/transport.py`).  A `connect()`
call keeps the generation of the lifecycle it began in while the stream is opened;
a stream that comes after that lifecycle has ended is closed.  `stop()` runs to its
`gather` in one step, and it may finish when the tasks that close its connections
have all begun.  A listener is not part of it: it closes its own streams.

`returned` records the connections that `connect()` has returned, each with the
lifecycle it was opened in.
-/

import Paqto.Lan.Listener

namespace Paqto
namespace Lan

open Transition

/-- A `stop()` call. -/
structure StopCall where
  /-- The generation that it ended. -/
  lifecycle : ℕ
  /-- What its `gather` has yet to close. -/
  closing : List ℕ
  finished : Bool

/-- The transport with its connections and its calls. -/
structure LanTransport where
  started : Bool
  generation : ℕ
  connections : List ℕ
  streams : ℕ → Stream
  nextConnection : ℕ
  /-- The generations of the `connect()` calls that wait for their stream. -/
  attempts : ℕ → Option ℕ
  nextAttempt : ℕ
  stops : ℕ → Option StopCall
  nextStop : ℕ
  returned : List (ℕ × ℕ)

namespace LanTransport

/-- Before the first start. -/
def initial : LanTransport where
  started := false
  generation := 0
  connections := []
  streams := fun _ => .opened
  nextConnection := 0
  attempts := fun _ => none
  nextAttempt := 0
  stops := fun _ => none
  nextStop := 0
  returned := []

/-- A connection changes. -/
def setStream (s : LanTransport) (c : ℕ) (stream : Stream) : LanTransport :=
  { s with streams := Function.update s.streams c stream }

/-- A stop moves. -/
def setStop (s : LanTransport) (i : ℕ) (call : StopCall) : LanTransport :=
  { s with stops := Function.update s.stops i (some call) }

/-- `start` -/
def start (s : LanTransport) : LanTransport :=
  if s.started then s else { s with generation := s.generation + 1, started := true }

/-- `stop`, up to its `gather`. -/
def stop (s : LanTransport) : LanTransport :=
  { s.setStop s.nextStop ⟨s.generation, s.connections, false⟩ with
    nextStop := s.nextStop + 1
    started := false
    generation := s.generation + 1
    connections := [] }

/-- A task of the `gather` of a `stop()` call closes its connection. -/
def closeOne (s : LanTransport) (i c : ℕ) : Option LanTransport :=
  match s.stops i with
  | some call =>
      if c ∈ call.closing then
        some ((s.setStop i { call with closing := call.closing.erase c }).setStream c
          (s.streams c).close)
      else none
  | none => none

/-- A stop is over. -/
def finish (s : LanTransport) (i : ℕ) : Option LanTransport :=
  match s.stops i with
  | some call => if call.closing = [] then some (s.setStop i { call with finished := true }) else none
  | none => none

/-- `connect`, up to `open_connection`. -/
def connect (s : LanTransport) : Option LanTransport :=
  if s.started then
    some { s with
      attempts := Function.update s.attempts s.nextAttempt (some s.generation)
      nextAttempt := s.nextAttempt + 1 }
  else none

/-- The lifecycle that the call began in is over. -/
def isStale (s : LanTransport) (generation : ℕ) : Bool := !s.started || s.generation ≠ generation

/-- `connect`, from the opened stream on; `wellFormed` says that endpoint and
security metadata of the stream were read. -/
def opened (s : LanTransport) (k : ℕ) (wellFormed : Bool) : Option LanTransport :=
  match s.attempts k with
  | none => none
  | some generation =>
      let c := s.nextConnection
      let t := { s.setStream c .opened with
        nextConnection := s.nextConnection + 1
        attempts := Function.update s.attempts k none }
      if s.isStale generation || !wellFormed then
        some (t.setStream c { Stream.opened with writerClosed := true })
      else
        some { t with
          connections := track s.streams s.connections c
          returned := s.returned ++ [(generation, c)] }

/-- The calls of a transport, and what happens to it. -/
inductive Label
  | start
  | stop
  | closeOne (stop connection : ℕ)
  | finish (stop : ℕ)
  | connect
  | opened (attempt : ℕ) (wellFormed : Bool)
  /-- `open_connection` failed, timed out or was cancelled. -/
  | failed (attempt : ℕ)
  | stream (connection : ℕ) (event : Stream.Event)
  deriving DecidableEq, Repr

/-- One step. -/
def step (s : LanTransport) : Label → Option LanTransport
  | .start => some s.start
  | .stop => some s.stop
  | .closeOne i c => s.closeOne i c
  | .finish i => s.finish i
  | .connect => s.connect
  | .opened k wellFormed => s.opened k wellFormed
  | .failed k =>
      if s.attempts k = none then none
      else some { s with attempts := Function.update s.attempts k none }
  | .stream c event =>
      if c < s.nextConnection then some (s.setStream c ((s.streams c).apply event)) else none

/-- The runs. -/
def system : System LanTransport Label where
  init s := s = initial
  step := step

end LanTransport

end Lan
end Paqto
