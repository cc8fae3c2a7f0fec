/-
# The outbound channel of one READY connection

`_OutboundChannel` and what touches it (`core/node.py`): the callers of
`_queue_frame`, the writer task `_outbound_worker`, `_close_outbound_channel`,
`_outbound_finished`, and the part of `_stop_locked` that cancels the writer and
runs `_fail_all_outbound`.

The queue is an `asyncio.Queue`: `items` is bounded, `putters` are the callers
whose `put` found it full, in order.  A get wakes the first of them; the woken
caller runs in a later step, looks again whether the queue is full, and either
inserts its item or waits at the end.  A woken caller that is cancelled passes
the wake-up on when there is room.

A frame is named by the number of the `_queue_frame` call that owns it.  The
last five fields record what has happened: whether the coroutine of the writer has
begun, frames in the order of insertion, of the calls of `send_frame`, of the ends of
these calls, and those whose `send_frame` returned normally.
-/

import Paqto.Transition.System
import Mathlib.Data.List.Sublists

namespace Paqto
namespace Core

open Transition

/-- `BackpressurePolicy` of `core/config.py`. -/
inductive BackpressurePolicy
  | wait
  | reject
  deriving DecidableEq, Repr

namespace OutboundChannel

/-- What the future of a frame is resolved with. -/
inductive Outcome
  | sent
  | error
  deriving DecidableEq, Repr

/-- A caller of `_queue_frame`. -/
inductive CallerPc
  | notCalled
  /-- In `queue.put`, its putter in the deque of the queue. -/
  | blocked
  /-- In `queue.put`, woken and not yet resumed. -/
  | woken
  /-- Awaits the future of its frame. -/
  | queued
  /-- The future is done, the caller not yet resumed. -/
  | resolved (outcome : Outcome)
  | returned
  | raised
  deriving DecidableEq, Repr

/-- The task of `_outbound_worker`. -/
inductive WriterPc
  /-- Created, not yet run: a cancellation here skips its `finally`. -/
  | created
  | getting
  /-- In `send_frame`, with `channel.current` set. -/
  | sending (frame : ℕ)
  /-- In `connection.close()` after a failed `send_frame`. -/
  | closing (frame : ℕ)
  | finished
  deriving DecidableEq, Repr

/-- The call of `_close_outbound_channel` that popped the channel. -/
inductive CloserPc
  | none
  /-- In `gather`, waiting for the writer. -/
  | waiting
  | ended
  deriving DecidableEq, Repr

/-- The settings of a channel. -/
structure Config where
  outboundBackpressure : BackpressurePolicy
  maxOutboundQueue : ℕ

/-- An `_OutboundChannel`, with its writer task and the calls on it. -/
structure Channel where
  items : List ℕ
  putters : List ℕ
  writer : WriterPc
  /-- The writer task has been cancelled and has not seen it yet. -/
  cancelRequested : Bool
  /-- The channel is in `_outbound_channels`. -/
  registered : Bool
  closer : CloserPc
  /-- `PaqtoNode._running`. -/
  running : Bool
  /-- `connection.is_closed`. -/
  isClosed : Bool
  callers : ℕ → CallerPc
  nextCaller : ℕ
  /-- The writer has run for the first time, so that its `finally` will run. -/
  begun : Bool
  inserted : List ℕ
  started : List ℕ
  ended : List ℕ
  delivered : List ℕ

/-- `_ensure_outbound_channel` has just run. -/
def initial : Channel where
  items := []
  putters := []
  writer := .created
  cancelRequested := false
  registered := true
  closer := .none
  running := true
  isClosed := false
  callers := fun _ => .notCalled
  nextCaller := 0
  begun := false
  inserted := []
  started := []
  ended := []
  delivered := []

namespace Channel

/-- A caller moves. -/
def setCaller (s : Channel) (c : ℕ) (pc : CallerPc) : Channel :=
  { s with callers := Function.update s.callers c pc }

/-- `future.set_result` and `_set_future_error`: only a pending future. -/
def resolve (s : Channel) (c : ℕ) (outcome : Outcome) : Channel :=
  if s.callers c = .queued then s.setCaller c (.resolved outcome) else s

/-- `Queue._wakeup_next(self._putters)`. -/
def wakeupNext (s : Channel) : Channel :=
  match s.putters with
  | [] => s
  | p :: putters => { s.setCaller p .woken with putters }

/-- `Queue.put_nowait` in a caller that goes on to await its future. -/
def putNowait (s : Channel) (c : ℕ) : Channel :=
  { s.setCaller c .queued with items := s.items ++ [c], inserted := s.inserted ++ [c] }

/-- `Queue.put` found the queue full. -/
def park (s : Channel) (c : ℕ) : Channel :=
  { s.setCaller c .blocked with putters := s.putters ++ [c] }

/-- `_fail_outbound_queue`, over the items of the queue. -/
def failItems (s : Channel) : List ℕ → Channel
  | [] => s
  | i :: items => failItems (({ s with items }.wakeupNext).resolve i .error) items

/-- `_fail_outbound_queue` -/
def failOutboundQueue (s : Channel) : Channel := s.failItems s.items

/-- Setting a future leaves the queue alone. -/
@[simp] theorem resolve_items (s : Channel) (c : ℕ) (o : Outcome) :
    (s.resolve c o).items = s.items := by unfold resolve; split <;> rfl

/-- Setting a future leaves the writer alone. -/
@[simp] theorem resolve_writer (s : Channel) (c : ℕ) (o : Outcome) :
    (s.resolve c o).writer = s.writer := by unfold resolve; split <;> rfl

/-- Setting a future leaves the table of the channels alone. -/
@[simp] theorem resolve_registered (s : Channel) (c : ℕ) (o : Outcome) :
    (s.resolve c o).registered = s.registered := by unfold resolve; split <;> rfl

/-- Setting a future leaves the closing call alone. -/
@[simp] theorem resolve_closer (s : Channel) (c : ℕ) (o : Outcome) :
    (s.resolve c o).closer = s.closer := by unfold resolve; split <;> rfl

/-- Setting a future leaves whether the writer has begun alone. -/
@[simp] theorem resolve_begun (s : Channel) (c : ℕ) (o : Outcome) :
    (s.resolve c o).begun = s.begun := by unfold resolve; split <;> rfl

/-- Setting a future leaves whether the writer is cancelled alone. -/
@[simp] theorem resolve_cancelRequested (s : Channel) (c : ℕ) (o : Outcome) :
    (s.resolve c o).cancelRequested = s.cancelRequested := by unfold resolve; split <;> rfl

/-- Waking up a putter leaves the queue alone. -/
@[simp] theorem wakeupNext_items (s : Channel) : s.wakeupNext.items = s.items := by
  unfold wakeupNext; split <;> rfl

/-- Waking up a putter leaves the writer alone. -/
@[simp] theorem wakeupNext_writer (s : Channel) : s.wakeupNext.writer = s.writer := by
  unfold wakeupNext; split <;> rfl

/-- Waking up a putter leaves the table of the channels alone. -/
@[simp] theorem wakeupNext_registered (s : Channel) :
    s.wakeupNext.registered = s.registered := by unfold wakeupNext; split <;> rfl

/-- Waking up a putter leaves the closing call alone. -/
@[simp] theorem wakeupNext_closer (s : Channel) : s.wakeupNext.closer = s.closer := by
  unfold wakeupNext; split <;> rfl

/-- Waking up a putter leaves whether the writer has begun alone. -/
@[simp] theorem wakeupNext_begun (s : Channel) : s.wakeupNext.begun = s.begun := by
  unfold wakeupNext; split <;> rfl

/-- Waking up a putter leaves whether the writer is cancelled alone. -/
@[simp] theorem wakeupNext_cancelRequested (s : Channel) :
    s.wakeupNext.cancelRequested = s.cancelRequested := by unfold wakeupNext; split <;> rfl

/-- Failing frames leaves the writer alone. -/
@[simp] theorem failItems_writer (s : Channel) (l : List ℕ) :
    (s.failItems l).writer = s.writer := by
  induction l generalizing s with
  | nil => rfl
  | cons i l ih => simp [failItems, ih]

/-- Failing frames leaves the table of the channels alone. -/
@[simp] theorem failItems_registered (s : Channel) (l : List ℕ) :
    (s.failItems l).registered = s.registered := by
  induction l generalizing s with
  | nil => rfl
  | cons i l ih => simp [failItems, ih]

/-- Failing frames leaves the closing call alone. -/
@[simp] theorem failItems_closer (s : Channel) (l : List ℕ) :
    (s.failItems l).closer = s.closer := by
  induction l generalizing s with
  | nil => rfl
  | cons i l ih => simp [failItems, ih]

/-- Failing frames leaves whether the writer has begun alone. -/
@[simp] theorem failItems_begun (s : Channel) (l : List ℕ) :
    (s.failItems l).begun = s.begun := by
  induction l generalizing s with
  | nil => rfl
  | cons i l ih => simp [failItems, ih]

/-- Failing frames leaves whether the writer is cancelled alone. -/
@[simp] theorem failItems_cancelRequested (s : Channel) (l : List ℕ) :
    (s.failItems l).cancelRequested = s.cancelRequested := by
  induction l generalizing s with
  | nil => rfl
  | cons i l ih => simp [failItems, ih]

/-- The drain leaves nothing in the queue. -/
theorem failOutboundQueue_items (s : Channel) : s.failOutboundQueue.items = [] := by
  unfold failOutboundQueue
  generalize hl : s.items = l
  induction l generalizing s with
  | nil => exact hl
  | cons i l ih => exact ih _ (by simp)

/-- The outer `finally` of `_outbound_worker`, after which the task is done. -/
def exitWriter (s : Channel) : Channel := { s.failOutboundQueue with writer := .finished }

/-- `get` returns the first item and `send_frame` begins. -/
def sendNext (s : Channel) (i : ℕ) (items : List ℕ) : Channel :=
  { { s with items }.wakeupNext with writer := .sending i, started := s.started ++ [i] }

/-- The condition of the `while` of `_outbound_worker`. -/
def mayGoOn (s : Channel) : Bool := s.running && !s.isClosed

/-- The `while` of `_outbound_worker`, up to its next suspension. -/
def runWriter (s : Channel) : Channel :=
  if s.mayGoOn then
    match s.items with
    | [] => { s with writer := .getting }
    | i :: items => s.sendNext i items
  else s.exitWriter

/-- `send_frame` of frame `c` has ended, and its future is resolved. -/
def endSend (s : Channel) (c : ℕ) (outcome : Outcome) : Channel :=
  { s.resolve c outcome with
    ended := s.ended ++ [c]
    delivered := if outcome = .sent then s.delivered ++ [c] else s.delivered }

/-- `Task.cancel`, without effect on a task that is done. -/
def cancelWriter (s : Channel) : Channel :=
  { s with cancelRequested := s.cancelRequested || s.writer != .finished }

/-- `_set_future_error` on `channel.current`. -/
def failCurrent (s : Channel) : Channel :=
  match s.writer with
  | .sending c | .closing c => s.resolve c .error
  | _ => s

/-- The end of a send leaves the writer alone. -/
@[simp] theorem endSend_writer (s : Channel) (c : ℕ) (o : Outcome) :
    (s.endSend c o).writer = s.writer := resolve_writer s c o

/-- The end of a send leaves the table of the channels alone. -/
@[simp] theorem endSend_registered (s : Channel) (c : ℕ) (o : Outcome) :
    (s.endSend c o).registered = s.registered := resolve_registered s c o

/-- The end of a send leaves the closing call alone. -/
@[simp] theorem endSend_closer (s : Channel) (c : ℕ) (o : Outcome) :
    (s.endSend c o).closer = s.closer := resolve_closer s c o

/-- The end of a send leaves whether the writer has begun alone. -/
@[simp] theorem endSend_begun (s : Channel) (c : ℕ) (o : Outcome) :
    (s.endSend c o).begun = s.begun := resolve_begun s c o

/-- The end of a send leaves whether the callers may go on alone. -/
@[simp] theorem endSend_mayGoOn (s : Channel) (c : ℕ) (o : Outcome) :
    (s.endSend c o).mayGoOn = s.mayGoOn := by
  unfold mayGoOn endSend resolve
  split <;> rfl

/-- Draining the queue leaves the writer alone. -/
@[simp] theorem failOutboundQueue_writer (s : Channel) :
    s.failOutboundQueue.writer = s.writer := failItems_writer s _

/-- Draining the queue leaves the table of the channels alone. -/
@[simp] theorem failOutboundQueue_registered (s : Channel) :
    s.failOutboundQueue.registered = s.registered := failItems_registered s _

/-- Draining the queue leaves the closing call alone. -/
@[simp] theorem failOutboundQueue_closer (s : Channel) :
    s.failOutboundQueue.closer = s.closer := failItems_closer s _

/-- Draining the queue leaves whether the writer has begun alone. -/
@[simp] theorem failOutboundQueue_begun (s : Channel) :
    s.failOutboundQueue.begun = s.begun := failItems_begun s _

/-- Draining the queue leaves whether the writer is cancelled alone. -/
@[simp] theorem failOutboundQueue_cancelRequested (s : Channel) :
    s.failOutboundQueue.cancelRequested = s.cancelRequested := failItems_cancelRequested s _

/-- The writer that ends is finished. -/
@[simp] theorem exitWriter_writer (s : Channel) : s.exitWriter.writer = .finished := rfl

/-- The end of the writer leaves the table of the channels alone. -/
@[simp] theorem exitWriter_registered (s : Channel) :
    s.exitWriter.registered = s.registered := failOutboundQueue_registered s

/-- The end of the writer leaves the closing call alone. -/
@[simp] theorem exitWriter_closer (s : Channel) : s.exitWriter.closer = s.closer :=
  failOutboundQueue_closer s

/-- The end of the writer leaves whether the writer has begun alone. -/
@[simp] theorem exitWriter_begun (s : Channel) : s.exitWriter.begun = s.begun :=
  failOutboundQueue_begun s

/-- The next send leaves the table of the channels alone. -/
@[simp] theorem sendNext_registered (s : Channel) (i : ℕ) (items : List ℕ) :
    (s.sendNext i items).registered = s.registered := wakeupNext_registered _

/-- The next send leaves the closing call alone. -/
@[simp] theorem sendNext_closer (s : Channel) (i : ℕ) (items : List ℕ) :
    (s.sendNext i items).closer = s.closer := wakeupNext_closer _

/-- The next send leaves whether the writer has begun alone. -/
@[simp] theorem sendNext_begun (s : Channel) (i : ℕ) (items : List ℕ) :
    (s.sendNext i items).begun = s.begun := wakeupNext_begun _

/-- The head of the writer's loop leaves the table of the channels alone. -/
@[simp] theorem runWriter_registered (s : Channel) :
    s.runWriter.registered = s.registered := by
  unfold runWriter
  split
  · split
    · rfl
    · exact sendNext_registered s _ _
  · exact exitWriter_registered s

/-- The head of the writer's loop leaves the closing call alone. -/
@[simp] theorem runWriter_closer (s : Channel) : s.runWriter.closer = s.closer := by
  unfold runWriter
  split
  · split
    · rfl
    · exact sendNext_closer s _ _
  · exact exitWriter_closer s

/-- The head of the writer's loop leaves whether the writer has begun alone. -/
@[simp] theorem runWriter_begun (s : Channel) : s.runWriter.begun = s.begun := by
  unfold runWriter
  split
  · split
    · rfl
    · exact sendNext_begun s _ _
  · exact exitWriter_begun s

/-- The writer that does not go on drains the queue. -/
theorem runWriter_exit (s : Channel) (hgo : s.mayGoOn = false) :
    s.runWriter = s.exitWriter := by
  simp [runWriter, hgo]

/-- Failing the frame that is being sent leaves the writer alone. -/
@[simp] theorem failCurrent_writer (s : Channel) : s.failCurrent.writer = s.writer := by
  unfold failCurrent
  split <;> simp

/-- Failing the frame that is being sent leaves the table of the channels alone. -/
@[simp] theorem failCurrent_registered (s : Channel) :
    s.failCurrent.registered = s.registered := by
  unfold failCurrent
  split <;> simp

/-- Failing the frame that is being sent leaves the closing call alone. -/
@[simp] theorem failCurrent_closer (s : Channel) : s.failCurrent.closer = s.closer := by
  unfold failCurrent
  split <;> simp

/-- Failing the frame that is being sent leaves whether the writer has begun alone. -/
@[simp] theorem failCurrent_begun (s : Channel) : s.failCurrent.begun = s.begun := by
  unfold failCurrent
  split <;> simp

/-- Failing the frame that is being sent leaves whether the writer is cancelled alone. -/
@[simp] theorem failCurrent_cancelRequested (s : Channel) :
    s.failCurrent.cancelRequested = s.cancelRequested := by
  unfold failCurrent
  split <;> simp

end Channel

/-- What happens in one step. -/
inductive Label
  /-- The next `_queue_frame` call, up to its first suspension. -/
  | queueFrame
  /-- A woken caller goes on in `put`. -/
  | resumePut (c : ℕ)
  /-- A caller whose future is done goes on. -/
  | resumeFuture (c : ℕ)
  /-- A caller runs into its timeout or is cancelled. -/
  | cancelCaller (c : ℕ)
  | startWriter
  | get
  | sendReturns
  | sendRaises
  | closeReturns
  /-- The writer sees its cancellation. -/
  | writerCancelled
  /-- Somebody else closes the connection, or the remote end does. -/
  | connectionClosed
  | closeOutboundChannel
  | cleanup
  /-- `_close_outbound_channel` is itself cancelled in `gather`, which raises
  once the writer is done. -/
  | cleanupCancelled
  /-- `_outbound_finished`, or `_stop_locked` clearing the table. -/
  | outboundFinished
  | stop
  deriving DecidableEq, Repr

/-- One step. -/
def step (cfg : Config) (s : Channel) : Label → Option Channel
  | .queueFrame =>
      let c := s.nextCaller
      let s := { s with nextCaller := c + 1 }
      if !s.registered || s.writer = .finished || s.isClosed then
        some (s.setCaller c .raised)
      else if s.items.length < cfg.maxOutboundQueue then
        some (s.putNowait c)
      else
        match cfg.outboundBackpressure with
        | .wait => some (s.park c)
        | .reject => some (s.setCaller c .raised)
  | .resumePut c =>
      if s.callers c = .woken then
        if s.items.length < cfg.maxOutboundQueue then some (s.putNowait c) else some (s.park c)
      else none
  | .resumeFuture c =>
      match s.callers c with
      | .resolved .sent => some (s.setCaller c .returned)
      | .resolved .error => some (s.setCaller c .raised)
      | _ => none
  | .cancelCaller c =>
      match s.callers c with
      | .blocked => some { s.setCaller c .raised with putters := s.putters.erase c }
      | .woken =>
          if s.items.length < cfg.maxOutboundQueue then
            some (s.setCaller c .raised).wakeupNext
          else some (s.setCaller c .raised)
      | .queued | .resolved _ => some (s.setCaller c .raised)
      | _ => none
  | .startWriter =>
      if s.writer = .created ∧ s.cancelRequested = false then
        some { s with begun := true }.runWriter
      else none
  | .get =>
      match s.items with
      | i :: items =>
          if s.writer = .getting ∧ s.cancelRequested = false then some (s.sendNext i items) else none
      | [] => none
  | .sendReturns =>
      match s.writer with
      | .sending c =>
          if s.cancelRequested then none
          else some (s.endSend c .sent).runWriter
      | _ => none
  | .sendRaises =>
      match s.writer with
      | .sending c =>
          if s.cancelRequested then none
          else some { s.endSend c .error with writer := .closing c, isClosed := true }
      | _ => none
  | .closeReturns =>
      match s.writer with
      | .closing _ => if s.cancelRequested then none else some s.exitWriter
      | _ => none
  | .writerCancelled =>
      if s.cancelRequested then
        match s.writer with
        | .created => some { s with writer := .finished }
        | .getting | .closing _ => some s.exitWriter
        | .sending c => some (s.endSend c .error).exitWriter
        | .finished => none
      else none
  | .connectionClosed => some { s with isClosed := true }
  | .closeOutboundChannel =>
      if s.registered then
        some { s.cancelWriter with registered := false, closer := .waiting }
      else none
  | .cleanup =>
      if s.closer = .waiting ∧ s.writer = .finished then
        some { s.failOutboundQueue with closer := .ended }
      else none
  | .cleanupCancelled =>
      if s.closer = .waiting ∧ s.writer = .finished then some { s with closer := .ended } else none
  | .outboundFinished =>
      if s.registered ∧ s.writer = .finished then some { s with registered := false } else none
  | .stop =>
      if s.running then
        if s.registered then
          some { s.cancelWriter with running := false }.failCurrent.failOutboundQueue
        else some { s with running := false }
      else none

/-- The runs of a channel. -/
def system (cfg : Config) : System Channel Label where
  init s := s = initial
  step := step cfg

/-- A caller that has neither returned nor been given an error. -/
def CallerPc.IsWaiting (pc : CallerPc) : Prop := pc = .blocked ∨ pc = .woken ∨ pc = .queued

/-- The writer has finished and every cleanup there is has run. -/
def Channel.Retired (s : Channel) : Prop :=
  s.writer = .finished ∧ s.registered = false ∧ s.closer ≠ .waiting

/-- A caller that goes on by itself. -/
def CallerPc.canResume : CallerPc → Bool
  | woken | resolved _ => true
  | _ => false

/-- No caller can go on by itself. -/
def Channel.Quiet (s : Channel) : Prop := ∀ c, (s.callers c).canResume = false

/-- (iii): a channel that is retired and quiet has no caller left. -/
def Channel.NoLostWaiter (s : Channel) : Prop :=
  s.Retired → s.Quiet → ∀ c, ¬ (s.callers c).IsWaiting

/-- The frame in `send_frame`. -/
def WriterPc.current : WriterPc → Option ℕ
  | sending c => some c
  | _ => none

/-- (i): `send_frame` gets inserted frames only, each at most once, in the order
of insertion, and the next one only when the last has ended. -/
def Channel.InOrder (s : Channel) : Prop :=
  s.started.Sublist s.inserted ∧ s.inserted.Nodup ∧
    s.started = s.ended ++ s.writer.current.toList

/-- (ii): `send_frame` has returned for the frame of a caller that returned. -/
def Channel.ReturnsAreSent (s : Channel) : Prop :=
  ∀ c, s.callers c = .returned → c ∈ s.delivered

/-- No caller is inside `queue.put`, blocked or woken. -/
def Channel.NobodyInPut (s : Channel) : Prop :=
  ∀ c, s.callers c ≠ .blocked ∧ s.callers c ≠ .woken

/-- A call of `_queue_frame` on a channel in use is refused: the connection is closed, or
the queue is full and the policy rejects. -/
def Channel.Refuses (cfg : Config) (s : Channel) : Prop :=
  s.isClosed = true ∨
    cfg.maxOutboundQueue ≤ s.items.length ∧ cfg.outboundBackpressure = .reject

/-- A drain would have nothing to do: no frame of the queue has a caller that awaits it,
and nobody is inside `put`. -/
def Channel.NothingToDrain (s : Channel) : Prop :=
  s.NobodyInPut ∧ ∀ c ∈ s.items, s.callers c ≠ .queued

/-- The condition on a step under which no waiter is lost.  A drain fails what is in the
queue and wakes who is blocked; so nobody is inside `put` when the writer drains the
queue in its `finally`, when `_close_outbound_channel` drains it, and when
`_fail_all_outbound` drains that of a writer that has not begun.  A writer that is
cancelled before it has begun has no `finally`: after a stop nobody enters its queue any
more, and the cleanup of `_close_outbound_channel` is not skipped while there is
something to drain. -/
def LeavesNobody (cfg : Config) (s : Channel) : Label → Prop
  | .startWriter | .sendReturns => s.mayGoOn = false → s.NobodyInPut
  | .closeReturns | .cleanup => s.NobodyInPut
  | .writerCancelled => s.writer ≠ .created → s.NobodyInPut
  | .stop => s.registered = true → s.writer = .created → s.NobodyInPut
  | .queueFrame =>
      s.registered = true → s.writer = .created → s.cancelRequested = true → s.Refuses cfg
  | .cleanupCancelled => s.begun = false → s.NothingToDrain
  | _ => True

end OutboundChannel
end Core
end Paqto
