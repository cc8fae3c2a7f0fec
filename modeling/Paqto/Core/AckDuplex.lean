/-
# Two READY endpoints that acknowledge each other

One connection between two nodes whose sessions negotiated `paqto.ack.v1`, with
the outbound policy `WAIT` (`core/node.py`: `_queue_frame`, `_outbound_worker`,
`_read_connection`, `_send_acknowledgement`; `lan/connection.py`:
`TcpConnection.send_frame`).

Each direction is a FIFO channel that holds `capacity` bytes once its frame
has left `send_frame`: `drain()` returns when all but that many bytes of what
was written are consumed by the remote reader.  Each endpoint has one writer,
which takes frames from one bounded FIFO queue, and one reader, which after
every application frame calls `_send_acknowledgement` and reads on only when
its ACK frame has left `send_frame`.

The callers of `_queue_frame` put their frames in the order of their list;
handlers keep the inbound queue moving, so the reader does not wait there.
-/

import Paqto.Transition.System
import Mathlib.Algebra.BigOperators.Group.List.Basic
import Mathlib.Algebra.Ring.Nat

namespace Paqto
namespace Core
namespace AckDuplex

open Transition

/-- The two ends of the connection. -/
inductive Side
  | a
  | b
  deriving DecidableEq, Repr

/-- The other end. -/
def Side.other : Side → Side
  | a => b
  | b => a

/-- The other end of the other end. -/
@[simp] theorem Side.other_other (e : Side) : e.other.other = e := by cases e <;> rfl

/-- It is another one. -/
theorem Side.other_ne (e : Side) : e.other ≠ e := by cases e <;> decide

/-- Both ends. -/
theorem Side.forall_of {p : Side → Prop} (e : Side) (h : p e) (ho : p e.other) (d : Side) :
    p d := by
  cases e <;> cases d <;> assumption

/-- `HEADER_SIZE` of `lan/connection.py`. -/
def headerSize : ℕ := 4

/-- An application frame: the length of its data and of the ACK frame that
answers it. -/
structure AppFrame where
  size : ℕ
  ackSize : ℕ
  deriving DecidableEq, Repr

/-- A frame on the wire. -/
inductive Frame
  | app (frame : AppFrame)
  | ack (size : ℕ)
  deriving DecidableEq, Repr

/-- The bytes `send_frame` writes: the length prefix and the data. -/
def Frame.wireSize : Frame → ℕ
  | app f => headerSize + f.size
  | ack n => headerSize + n

/-- It has a header. -/
theorem Frame.wireSize_pos (f : Frame) : 0 < f.wireSize := by
  cases f <;> simp only [wireSize, headerSize] <;> omega

/-- A frame in a channel and how many of its bytes are not consumed yet. -/
structure InFlight where
  frame : Frame
  left : ℕ
  deriving DecidableEq, Repr

/-- The reader task: in `receive_frame`, in `queue.put` with its ACK frame,
waiting for the future of its ACK frame, or about to go on. -/
inductive ReaderPc
  | receiving
  | putting (size : ℕ)
  | waiting
  | written
  deriving DecidableEq, Repr

/-- One endpoint, with the channel its writer writes to. -/
structure Endpoint where
  /-- Application frames whose `_queue_frame` call is before its `put`. -/
  callers : List AppFrame
  queue : List Frame
  /-- `channel.current`: the frame in `send_frame`. -/
  current : Option Frame
  wire : List InFlight
  reader : ReaderPc
  deriving DecidableEq, Repr

/-- Bytes written to the channel that the remote reader has not consumed. -/
def Endpoint.unread (x : Endpoint) : ℕ := (x.wire.map InFlight.left).sum

/-- Channel capacities in bytes and outbound queue bounds, which
`PaqtoConfig` requires to be positive. -/
structure Config where
  capacity : Side → ℕ
  maxOutboundQueue : Side → ℕ
  maxOutboundQueue_pos : ∀ e, 0 < maxOutboundQueue e

/-- Both ends. -/
abbrev Duplex := Side → Endpoint

/-- Both lists of application frames are still with their callers. -/
def initial (frames : Side → List AppFrame) : Duplex := fun e =>
  { callers := frames e, queue := [], current := none, wire := [], reader := .receiving }

/-- The moves of the ends. -/
inductive Label
  | put (e : Side)
  | putAck (e : Side)
  | startSend (e : Side)
  | finishSend (e : Side)
  | resumeReader (e : Side)
  /-- The reader of `e` consumes `n` bytes. -/
  | receive (e : Side) (n : ℕ)
  deriving DecidableEq, Repr

/-- Where the reader goes after a complete frame: an application frame is
acknowledged, an ACK only resolves its waiter. -/
def afterFrame : Frame → ReaderPc
  | .app f => .putting f.ackSize
  | .ack _ => .receiving

/-- The future of a frame that left `send_frame` resumes its waiter: for an
ACK frame this is the endpoint's own reader. -/
def afterSend (r : ReaderPc) : Frame → ReaderPc
  | .app _ => r
  | .ack _ => .written

/-- One step. -/
def step (cfg : Config) (s : Duplex) : Label → Option Duplex
  | .put e =>
      match (s e).callers with
      | f :: callers =>
          if (s e).queue.length < cfg.maxOutboundQueue e then
            some (Function.update s e { s e with callers, queue := (s e).queue ++ [.app f] })
          else none
      | [] => none
  | .putAck e =>
      match (s e).reader with
      | .putting n =>
          if (s e).queue.length < cfg.maxOutboundQueue e then
            some (Function.update s e
              { s e with reader := .waiting, queue := (s e).queue ++ [.ack n] })
          else none
      | _ => none
  | .startSend e =>
      match (s e).current, (s e).queue with
      | none, f :: queue =>
          some (Function.update s e
            { s e with current := some f, queue, wire := (s e).wire ++ [⟨f, f.wireSize⟩] })
      | _, _ => none
  | .finishSend e =>
      match (s e).current with
      | some f =>
          if (s e).unread ≤ cfg.capacity e then
            some (Function.update s e
              { s e with current := none, reader := afterSend (s e).reader f })
          else none
      | none => none
  | .resumeReader e =>
      if (s e).reader = .written then
        some (Function.update s e { s e with reader := .receiving })
      else none
  | .receive e n =>
      match (s e).reader, (s e.other).wire with
      | .receiving, ⟨f, left⟩ :: wire =>
          if n = 0 ∨ left < n then none
          else if n < left then
            some (Function.update s e.other { s e.other with wire := ⟨f, left - n⟩ :: wire })
          else
            some (Function.update (Function.update s e.other { s e.other with wire }) e
              { s e with reader := afterFrame f })
      | _, _ => none

/-- The two endpoints, with the frames their callers queue. -/
def system (cfg : Config) (frames : Side → List AppFrame) : System Duplex Label where
  init s := s = initial frames
  step := step cfg

/-- Some frame is not yet fully written or not yet fully read. -/
def Unfinished (s : Duplex) : Prop :=
  ∃ e, (s e).callers ≠ [] ∨ (s e).queue ≠ [] ∨ (s e).current ≠ none ∨ (s e).wire ≠ []

/-- Frames are left and neither a reader nor a writer nor a caller can move. -/
def Stuck (cfg : Config) (s : Duplex) : Prop :=
  Unfinished s ∧ ∀ l, step cfg s l = none

/-- The most bytes that can stand in the channel from `e` when the remote
reader stops after `i` frames and `e`'s own reader after `j`: the application
frames behind the `i`-th and the ACKs of the first `j` frames received. -/
def backlog (frames : Side → List AppFrame) (e : Side) (i j : ℕ) : ℕ :=
  (((frames e).drop i).map fun f => headerSize + f.size).sum +
    (((frames e.other).take j).map fun f => headerSize + f.ackSize).sum

/-- For no pair of positions do both channels overflow at once. -/
def BacklogsFit (cfg : Config) (frames : Side → List AppFrame) : Prop :=
  ∀ i j, 1 ≤ i → i ≤ (frames .a).length → 1 ≤ j → j ≤ (frames .b).length →
    backlog frames .a i j ≤ cfg.capacity .a ∨ backlog frames .b j i ≤ cfg.capacity .b

end AckDuplex
end Core
end Paqto
