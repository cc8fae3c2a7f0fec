/-
# The TCP connection

One direction of a byte stream between two `TcpConnection`s of
`lan/connection.py`: `send_frame` of one end, and `receive_frame` and `close`
of the other one, with the `StreamReader` in between.

A step is what one task does between two suspensions, or what the network does.
Written bytes travel (`wire`), arrive in pieces of any size (`buffer`) or are
lost with the transport.  `readexactly` takes its bytes at once or waits and
takes none.  The receive lock is handed on in the order in which it was asked
for.  `asyncio.wait_for` gives the deadline of the payload up with the
`TimeoutError` that the handler names from Python 3.11 on only
(`timeoutCaught`).
-/

import Paqto.Python.Text
import Paqto.Transition.System

namespace Paqto
namespace Lan

open Transition Python

namespace Connection

/-- `MAX_UINT32` -/
def maxUint32 : ℕ := 0xFFFFFFFF

/-- `HEADER_SIZE` -/
def headerSize : ℕ := 4

/-- `n.to_bytes(HEADER_SIZE, "big")` -/
def header (n : ℕ) : Bytes :=
  [UInt8.ofNat (n / 0x1000000), UInt8.ofNat (n / 0x10000), UInt8.ofNat (n / 0x100), UInt8.ofNat n]

/-- `int.from_bytes(b, "big")` -/
def fromBytes (b : Bytes) : ℕ := b.foldl (fun n x => n * 256 + x.toNat) 0

/-- The frame of a payload. -/
def frame (data : Bytes) : Bytes := header data.length ++ data

/-- The frames of a list of payloads, one after the other. -/
def frames (payloads : List Bytes) : Bytes := payloads.flatMap frame

/-- A header has four bytes. -/
@[simp] theorem length_header (n : ℕ) : (header n).length = headerSize := rfl

/-- It is read back. -/
theorem fromBytes_header {n : ℕ} (h : n ≤ maxUint32) : fromBytes (header n) = n := by
  unfold maxUint32 at h
  simp only [fromBytes, header, List.foldl_cons, List.foldl_nil, UInt8.toNat_ofNat']
  omega

/-- No frame. -/
@[simp] theorem frames_nil : frames [] = [] := rfl

/-- One more frame. -/
@[simp] theorem frames_cons (p : Bytes) (ps : List Bytes) : frames (p :: ps) = frame p ++ frames ps :=
  rfl

/-- The frames of two parts. -/
@[simp] theorem frames_append (ps qs : List Bytes) : frames (ps ++ qs) = frames ps ++ frames qs :=
  List.flatMap_append

/-- A frame is its header and its payload. -/
@[simp] theorem length_frame (p : Bytes) : (frame p).length = headerSize + p.length := by
  simp [frame]

/-- The two ends, as `validate_max_frame_size` and
`validate_frame_payload_timeout` let them through. -/
structure Config where
  /-- `max_frame_size` of the sending end -/
  sendLimit : ℕ
  sendLimit_pos : 0 < sendLimit
  sendLimit_le : sendLimit ≤ maxUint32
  /-- `max_frame_size` of the receiving end -/
  receiveLimit : ℕ
  receiveLimit_pos : 0 < receiveLimit
  receiveLimit_le : receiveLimit ≤ maxUint32
  /-- `frame_payload_timeout` is not `None`. -/
  hasDeadline : Bool
  /-- `asyncio.TimeoutError` is the `TimeoutError` of the `except`. -/
  timeoutCaught : Bool

/-- What `receive_frame` raises. -/
inductive Failure
  /-- `ConnectionClosedError`, "Cannot receive from a closed TCP connection." -/
  | closed
  /-- `ConnectionClosedError`, "… closed before a full frame was received." -/
  | incomplete
  /-- `ConnectionClosedError`, "… closed while receiving a frame." -/
  | failed
  /-- `TransportError`, "Incoming frame size … exceeds limit …." -/
  | oversized (size limit : ℕ)
  /-- `TransportError`, "Timed out while receiving a complete TCP frame payload." -/
  | timedOut
  /-- `asyncio.TimeoutError`, which no handler has caught. -/
  | uncaught
  deriving DecidableEq, Repr

/-- What a call of `receive_frame` ends with. -/
inductive Outcome
  | returned (payload : Bytes)
  | raised (e : Failure)
  | cancelled
  deriving DecidableEq, Repr

/-- Where the call that has the receive lock is. -/
inductive HolderPc
  /-- The lock was handed to it, and it has not been resumed. -/
  | acquired
  | readingHeader
  | readingPayload (size : ℕ)
  /-- In `close()`, to raise `e` then. -/
  | closing (e : Failure)
  deriving DecidableEq, Repr

/-- A stream with the calls that read it. -/
structure Link where
  /-- The payloads whose frames were written, oldest first. -/
  sent : List Bytes
  /-- `is_closed` of the sending end -/
  senderClosed : Bool
  /-- What is written goes nowhere any more. -/
  lost : Bool
  wire : Bytes
  /-- The buffer of the `StreamReader`. -/
  buffer : Bytes
  /-- The bytes that were read. -/
  consumed : ℕ
  /-- `feed_eof` was called. -/
  eof : Bool
  /-- `set_exception` was called. -/
  failed : Bool
  /-- `_closed` -/
  closed : Bool
  /-- `_writer.is_closing()` -/
  writerClosing : Bool
  holder : Option (ℕ × HolderPc)
  /-- The calls that wait for the receive lock, first come first. -/
  waiters : List ℕ
  /-- The calls of `receive_frame` that are over, in order. -/
  outcomes : List (ℕ × Outcome)
  deriving DecidableEq, Repr

/-- Two ends that have just been connected. -/
def initial : Link where
  sent := []
  senderClosed := false
  lost := false
  wire := []
  buffer := []
  consumed := 0
  eof := false
  failed := false
  closed := false
  writerClosing := false
  holder := none
  waiters := []
  outcomes := []

/-- The moves of the two ends and of the network. -/
inductive Label
  /-- A call of `send_frame` that has got the send lock. -/
  | send (data : Bytes)
  /-- The sending end is closed. -/
  | senderCloses
  /-- The transport is gone: what follows the next `n` bytes is lost. -/
  | loses (n : ℕ)
  /-- `feed_data` with the next `n` bytes -/
  | arrive (n : ℕ)
  | feedEof
  | setException
  /-- A call of `receive_frame`. -/
  | receive (k : ℕ)
  /-- The call that has the lock is resumed. -/
  | resume
  /-- The deadline of the payload expires. -/
  | expire
  | cancelHolder
  | cancelWaiter (k : ℕ)
  /-- A call of `close` at the receiving end. -/
  | close
  /-- Its transport is closing. -/
  | writerCloses

/-- What `readexactly` finds. -/
inductive Read
  | data (b : Bytes)
  | incomplete
  | failed
  | wait

namespace Link

/-- `is_closed` -/
def isClosed (s : Link) : Bool := s.closed || s.writerClosing || (s.eof && s.buffer.isEmpty)

/-- `readexactly(n)` -/
def readExactly (s : Link) (n : ℕ) : Read :=
  if s.failed then .failed
  else if n = 0 then .data []
  else if n ≤ s.buffer.length then .data (s.buffer.take n)
  else if s.eof then .incomplete
  else .wait

/-- The bytes that were read leave the buffer. -/
def consume (s : Link) (n : ℕ) : Link :=
  { s with buffer := s.buffer.drop n, consumed := s.consumed + n }

/-- `close()` up to its suspension. -/
def callClose (s : Link) : Link := { s with closed := true, writerClosing := true }

/-- The call `k` is over and hands the lock on. -/
def finish (s : Link) (k : ℕ) (outcome : Outcome) : Link :=
  { s with
    outcomes := s.outcomes ++ [(k, outcome)]
    holder := s.waiters.head?.map fun i => (i, .acquired)
    waiters := s.waiters.tail }

/-- `_read_exactly` raises. -/
def failRead (s : Link) (k : ℕ) (e : Failure) : Link := { s with closed := true }.finish k (.raised e)

/-- `receive_frame` after its header: the payload is awaited. -/
def gotHeader (s : Link) (config : Config) (k size : ℕ) : Link :=
  if config.receiveLimit < size then
    { s.callClose with holder := some (k, .closing (.oversized size config.receiveLimit)) }
  else { s with holder := some (k, .readingPayload size) }

/-- `receive_frame` reads its header. -/
def readHeader (s : Link) (config : Config) (k : ℕ) : Link :=
  match s.readExactly headerSize with
  | .data b => (s.consume headerSize).gotHeader config k (fromBytes b)
  | .incomplete => { s with buffer := [] }.failRead k .incomplete
  | .failed => s.failRead k .failed
  | .wait => { s with holder := some (k, .readingHeader) }

/-- `receive_frame` with the lock. -/
def enter (s : Link) (config : Config) (k : ℕ) : Link :=
  if s.isClosed then s.finish k (.raised .closed) else s.readHeader config k

/-- The call that has the lock goes on, if what it awaits is there. -/
def resume (s : Link) (config : Config) : Option Link :=
  match s.holder with
  | some (k, .acquired) => some (s.enter config k)
  | some (k, .readingHeader) =>
      match s.readExactly headerSize with
      | .wait => none
      | _ => some (s.readHeader config k)
  | some (k, .readingPayload size) =>
      match s.readExactly size with
      | .data b => some ((s.consume size).finish k (.returned b))
      | .incomplete => some ({ s with buffer := [] }.failRead k .incomplete)
      | .failed => some (s.failRead k .failed)
      | .wait => none
  | some (k, .closing e) => some (s.finish k (.raised e))
  | none => none

/-- The deadline of the payload expires. -/
def expire (s : Link) (config : Config) : Option Link :=
  match s.holder with
  | some (k, .readingPayload _) =>
      if config.hasDeadline then
        if config.timeoutCaught then some { s.callClose with holder := some (k, .closing .timedOut) }
        else some (s.finish k (.raised .uncaught))
      else none
  | _ => none

/-- `send_frame` with the send lock. -/
def sendFrame (s : Link) (config : Config) (data : Bytes) : Link :=
  if s.senderClosed then s
  else if config.sendLimit < data.length then s
  else { s with
    sent := s.sent ++ [data]
    wire := if s.lost then s.wire else s.wire ++ frame data }

/-- What the calls of `receive_frame` have returned, in order. -/
def returned (s : Link) : List Bytes :=
  s.outcomes.filterMap fun
    | (_, .returned payload) => some payload
    | _ => none

end Link

/-- One step. -/
def step (config : Config) (s : Link) : Label → Option Link
  | .send data => some (s.sendFrame config data)
  | .senderCloses => some { s with senderClosed := true }
  | .loses n => some { s with lost := true, wire := s.wire.take n }
  | .arrive n =>
      if s.eof then none
      else some { s with buffer := s.buffer ++ s.wire.take n, wire := s.wire.drop n }
  | .feedEof => if s.lost ∧ s.wire = [] then some { s with eof := true } else none
  | .setException => some { s with failed := true }
  | .receive k =>
      match s.holder with
      | none => some (s.enter config k)
      | some _ => some { s with waiters := s.waiters ++ [k] }
  | .resume => s.resume config
  | .expire => s.expire config
  | .cancelHolder => s.holder.map fun (k, _) => s.finish k .cancelled
  | .cancelWaiter k =>
      if k ∈ s.waiters then
        some { s with
          waiters := s.waiters.erase k
          outcomes := s.outcomes ++ [(k, .cancelled)] }
      else none
  | .close => some s.callClose
  | .writerCloses => some { s with writerClosing := true }

/-- The runs of a connection. -/
def system (config : Config) : System Link Label where
  init s := s = initial
  step := step config

end Connection
end Lan
end Paqto
