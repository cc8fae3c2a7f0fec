/-
# Heartbeat supervision

`_ensure_heartbeat`, `_heartbeat_loop`, `_resolve_heartbeat` and `_cancel_heartbeat`
of `core/node.py`, with what their tasks meet: the session tables, the readers, the
outbound channel of each connection with its other senders, time, and `stop()`.

A connection is a number that is never used twice.  A session is registered while
the node runs: an attempt that ends after `stop()` has begun is refused by the
connection manager, so nobody reads its session.

A section of a task between two suspensions is one step.  `close()` of a connection is
the adapter's: it may report to be closed at once or when it ends, and nothing makes it.
-/

import Paqto.Core.OutboundChannel
import Paqto.Python.Dict
import Paqto.Python.Text
import Mathlib.Algebra.Order.Ring.Rat

namespace Paqto
namespace Core
namespace Heartbeat

open Python Transition

/-- What the heartbeats are configured with. -/
structure Config where
  heartbeatInterval : ℚ
  heartbeatTimeout : ℚ
  outboundBackpressure : BackpressurePolicy
  maxOutboundQueue : ℕ

/-- What the supervision reads of a `ProtocolSession`. -/
structure Session where
  peerId : Str
  /-- `HEARTBEAT_CAPABILITY in session.capabilities` -/
  heartbeat : Bool
  deriving DecidableEq

/-- An `asyncio.Future[None]` -/
inductive Future
  | pending
  | resolved
  | cancelled
  deriving DecidableEq, Repr

/-- `_PendingHeartbeat` -/
structure PendingHeartbeat where
  future : ℕ
  connection : ℕ
  deriving DecidableEq

/-- The `ping_id` and the `future` of a round of the loop. -/
structure Ping where
  id : Str
  future : ℕ
  deriving DecidableEq

/-- How a heartbeat task has ended. -/
inductive Ending
  /-- The loop saw a node that is stopped. -/
  | stopped
  /-- The loop saw a closed connection. -/
  | connectionClosed
  /-- The loop saw that the connection is not canonical. -/
  | replaced
  /-- After `close()`, for a PONG that did not come. -/
  | pongMissed
  /-- The `ConnectionClosedError` of `_queue_frame` -/
  | noWriter
  /-- The `ResourceLimitError` of `_queue_frame` -/
  | queueFull
  /-- The error that the writer set on the frame. -/
  | frameFailed
  | cancelled
  deriving DecidableEq, Repr

/-- Where a heartbeat task stands. -/
inductive Pc
  | created
  | sleeping (wakeUp : ℚ)
  /-- In `queue.put`, which found the queue full; `now` is that of the round. -/
  | putting (ping : Ping) (now : ℚ)
  /-- Awaits the future of the frame. -/
  | queued (ping : Ping) (now : ℚ)
  /-- The frame is written, the task not yet resumed. -/
  | written (ping : Ping) (now : ℚ)
  /-- The frame has failed, the task not yet resumed. -/
  | failed (ping : Ping)
  /-- In `_wait_for(future, timeout)`. -/
  | waiting (ping : Ping) (deadline : ℚ)
  /-- In `connection.close()`. -/
  | closing (ping : Ping)
  | done (ending : Ending)
  deriving DecidableEq

namespace Pc

/-- The ping of the current round. -/
def ping : Pc → Option Ping
  | .putting ping _ | .queued ping _ | .written ping _ | .failed ping | .waiting ping _
  | .closing ping => some ping
  | _ => none

/-- The task is done. -/
def finished : Pc → Bool
  | .done _ => true
  | _ => false

/-- `_set_future_error` on the frame of the task. -/
def failFrame : Pc → Pc
  | .queued ping _ => .failed ping
  | pc => pc

end Pc

/-- A task of `_heartbeat_loop`. -/
structure HeartbeatTask where
  connection : ℕ
  session : Session
  pc : Pc
  cancelRequested : Bool

/-- An `_OutboundChannel` whose writer is not done; a frame is that of a heartbeat
task or somebody else's. -/
structure Channel where
  items : List (Option ℕ)
  current : Option (Option ℕ)
  /-- In `connection.close()` after a failed `send_frame`. -/
  closing : Bool

/-- The frames whose futures wait. -/
def Channel.frames (channel : Channel) : List (Option ℕ) := channel.current.toList ++ channel.items

/-- The sessions, their heartbeat tasks and the pending PINGs. -/
structure Node where
  running : Bool
  /-- `_stop_locked` has not ended. -/
  stopping : Bool
  /-- `loop.time()` -/
  now : ℚ
  sessions : ℕ → Option Session
  peerConnections : Str → Option ℕ
  lastReceivedActivity : ℕ → Option ℚ
  channels : ℕ → Option Channel
  heartbeatTasks : ℕ → Option ℕ
  pendingHeartbeats : Dict Str PendingHeartbeat
  isClosed : ℕ → Bool
  /-- The session of the connection has been registered once. -/
  registered : ℕ → Bool
  /-- The connections in the loop of `_read_connection`. -/
  readers : List ℕ
  tasks : ℕ → Option HeartbeatTask
  nextTask : ℕ
  futures : ℕ → Future
  nextFuture : ℕ

/-- The node has just started. -/
def initial (now : ℚ) : Node where
  running := true
  stopping := false
  now := now
  sessions := fun _ => none
  peerConnections := fun _ => none
  lastReceivedActivity := fun _ => none
  channels := fun _ => none
  heartbeatTasks := fun _ => none
  pendingHeartbeats := .empty
  isClosed := fun _ => false
  registered := fun _ => false
  readers := []
  tasks := fun _ => none
  nextTask := 0
  futures := fun _ => .pending
  nextFuture := 0

namespace Node

/-- A task moves. -/
def setTask (s : Node) (i : ℕ) (task : HeartbeatTask) : Node :=
  { s with tasks := Function.update s.tasks i (some task) }

/-- `future.cancel()` on those that are not done. -/
def cancelFutures (s : Node) (futures : List ℕ) : Node :=
  { s with futures := fun f =>
      if f ∈ futures ∧ s.futures f = .pending then .cancelled else s.futures f }

/-- `connection.close()` reports to be closed, or not yet. -/
def close (s : Node) (c : ℕ) (closes : Bool) : Node :=
  { s with isClosed := Function.update s.isClosed c (s.isClosed c || closes) }

/-- `_fail_heartbeats_for_connection` -/
def failHeartbeatsForConnection (s : Node) (c : ℕ) : Node :=
  { s.cancelFutures ((s.pendingHeartbeats.values.filter (·.connection = c)).map (·.future)) with
    pendingHeartbeats := s.pendingHeartbeats.filter (·.connection ≠ c) }

/-- `_fail_all_heartbeats` -/
def failAllHeartbeats (s : Node) : Node :=
  { s.cancelFutures (s.pendingHeartbeats.values.map (·.future)) with pendingHeartbeats := .empty }

/-- The inner `finally` of `_heartbeat_loop`. -/
def dropPing (s : Node) (c : ℕ) (ping : Ping) : Node :=
  let s := if s.pendingHeartbeats.get? ping.id = some ⟨ping.future, c⟩ then
    { s with pendingHeartbeats := s.pendingHeartbeats.erase ping.id } else s
  s.cancelFutures [ping.future]

/-- The inner `finally`, when the task is in a round. -/
def endRound (s : Node) (task : HeartbeatTask) : Node :=
  match task.pc.ping with
  | none => s
  | some ping => s.dropPing task.connection ping

/-- The `finally`s of `_heartbeat_loop`. -/
def finish (s : Node) (i : ℕ) (task : HeartbeatTask) (ending : Ending) : Node :=
  let s := (s.endRound task).failHeartbeatsForConnection task.connection
  let s := if s.heartbeatTasks task.connection = some i then
    { s with heartbeatTasks := Function.update s.heartbeatTasks task.connection none } else s
  s.setTask i { task with pc := .done ending }

/-- Why the loop ends, if it does. -/
def loopEnds (s : Node) (task : HeartbeatTask) : Option Ending :=
  if !s.running then some .stopped
  else if s.isClosed task.connection then some .connectionClosed
  else if s.peerConnections task.session.peerId ≠ some task.connection then some .replaced
  else none

/-- The head of the loop. -/
def loopHead (cfg : Config) (s : Node) (i : ℕ) (task : HeartbeatTask) : Node :=
  match s.loopEnds task with
  | some ending => s.finish i task ending
  | none => s.setTask i { task with pc := .sleeping (s.now + cfg.heartbeatInterval) }

/-- `Queue.put_nowait` of the ping, when there is room. -/
def putPing (s : Node) (i : ℕ) (task : HeartbeatTask) (channel : Channel) (ping : Ping)
    (now : ℚ) : Node :=
  { s.setTask i { task with pc := .queued ping now } with
    channels := Function.update s.channels task.connection
      (some { channel with items := channel.items ++ [some i] }) }

/-- `_queue_frame` of the ping, until it suspends. -/
def queuePing (cfg : Config) (s : Node) (i : ℕ) (task : HeartbeatTask) (ping : Ping) : Node :=
  let task := { task with pc := .putting ping s.now }
  match s.channels task.connection with
  | none => s.finish i task .noWriter
  | some channel =>
      if s.isClosed task.connection then s.finish i task .noWriter
      else if channel.items.length < cfg.maxOutboundQueue then s.putPing i task channel ping s.now
      else
        match cfg.outboundBackpressure with
        | .wait => s.setTask i task
        | .reject => s.finish i task .queueFull

/-- A new ping is registered, and queued. -/
def sendPing (cfg : Config) (s : Node) (i : ℕ) (task : HeartbeatTask) (pingId : Str) : Node :=
  let ping := ⟨pingId, s.nextFuture⟩
  queuePing cfg { s with
    pendingHeartbeats := s.pendingHeartbeats.set pingId ⟨s.nextFuture, task.connection⟩
    nextFuture := s.nextFuture + 1 } i task ping

/-- `now - last_activity < interval` -/
def active (cfg : Config) (s : Node) (c : ℕ) : Bool :=
  s.now - (s.lastReceivedActivity c).getD s.now < cfg.heartbeatInterval

/-- The task runs to its next suspension; a new ping gets `pingId`, and a `close()`
that begins or ends reports what `closes` says. -/
def beat (cfg : Config) (s : Node) (i : ℕ) (task : HeartbeatTask) (pingId : Str) (closes : Bool) :
    Option Node :=
  if task.pc.finished then none
  else if task.cancelRequested then some (s.finish i task .cancelled)
  else
    match task.pc with
    | .created => some (s.loopHead cfg i task)
    | .sleeping wakeUp =>
        if s.now < wakeUp then none
        else
          match s.loopEnds task with
          | some ending => some (s.finish i task ending)
          | none =>
              if s.active cfg task.connection then some (s.loopHead cfg i task)
              else some (s.sendPing cfg i task pingId)
    | .putting ping now =>
        match s.channels task.connection with
        | none => none
        | some channel =>
            if channel.items.length < cfg.maxOutboundQueue then
              some (s.putPing i task channel ping now)
            else none
    | .queued _ _ => none
    | .written ping _ =>
        some (s.setTask i { task with pc := .waiting ping (s.now + cfg.heartbeatTimeout) })
    | .failed _ => some (s.finish i task .frameFailed)
    | .waiting ping deadline =>
        match s.futures ping.future with
        | .resolved =>
            some ((s.dropPing task.connection ping).loopHead cfg i { task with pc := .created })
        | .cancelled => some (s.finish i task .cancelled)
        | .pending =>
            if s.now < deadline then none
            else some (((s.cancelFutures [ping.future]).setTask i { task with pc := .closing ping }).close
              task.connection closes)
    | .closing _ => some ((s.close task.connection closes).finish i task .pongMissed)
    | .done _ => none

/-- `_register_session`, as far as the supervision sees it. -/
def registerSession (s : Node) (c : ℕ) (session : Session) : Node :=
  { s with
    registered := Function.update s.registered c true
    sessions := Function.update s.sessions c (some session)
    peerConnections := Function.update s.peerConnections session.peerId (some c)
    lastReceivedActivity := Function.update s.lastReceivedActivity c (some s.now)
    channels := Function.update s.channels c (some ⟨[], none, false⟩) }

/-- `_deactivate_session` -/
def deactivateSession (s : Node) (c : ℕ) : Node :=
  { s with
    sessions := Function.update s.sessions c none
    lastReceivedActivity := Function.update s.lastReceivedActivity c none
    peerConnections := match s.sessions c with
      | some session =>
          if s.peerConnections session.peerId = some c then
            Function.update s.peerConnections session.peerId none
          else s.peerConnections
      | none => s.peerConnections }

/-- A task of the table that is not done. -/
def supervised (s : Node) (c : ℕ) : Bool :=
  match (s.heartbeatTasks c).bind s.tasks with
  | some task => !task.pc.finished
  | none => false

/-- `_ensure_heartbeat` -/
def ensureHeartbeat (s : Node) (c : ℕ) (session : Session) : Node :=
  if !session.heartbeat || s.peerConnections session.peerId ≠ some c then s
  else if s.supervised c then s
  else
    { s.setTask s.nextTask ⟨c, session, .created, false⟩ with
      lastReceivedActivity := Function.update s.lastReceivedActivity c (some s.now)
      heartbeatTasks := Function.update s.heartbeatTasks c (some s.nextTask)
      nextTask := s.nextTask + 1 }

/-- `_resolve_heartbeat` -/
def resolveHeartbeat (s : Node) (c : ℕ) (pingId : Str) : Node :=
  match s.pendingHeartbeats.get? pingId with
  | none => s
  | some pending =>
      if pending.connection = c then
        { s with
          pendingHeartbeats := s.pendingHeartbeats.erase pingId
          futures := if s.futures pending.future = .pending then
            Function.update s.futures pending.future .resolved else s.futures }
      else s

/-- `task.cancel()` on the tasks that are not done. -/
def cancelTasks (s : Node) (selected : ℕ → HeartbeatTask → Bool) : Node :=
  { s with tasks := fun i => (s.tasks i).map fun task =>
      { task with cancelRequested := task.cancelRequested || selected i task } }

/-- `_cancel_heartbeat`, until it waits for the task. -/
def cancelHeartbeat (s : Node) (c : ℕ) : Node :=
  { s.cancelTasks fun i _ => s.heartbeatTasks c = some i with
    heartbeatTasks := Function.update s.heartbeatTasks c none }

/-- The futures of some frames get an error. -/
def failFrames (s : Node) (frames : List (Option ℕ)) : Node :=
  { s with tasks := fun i => (s.tasks i).map fun task =>
      if some i ∈ frames then { task with pc := task.pc.failFrame } else task }

/-- The future of a frame gets its result. -/
def frameWritten (s : Node) (frame : Option ℕ) : Node :=
  { s with tasks := fun i => (s.tasks i).map fun task =>
      match task.pc with
      | .queued ping now => if frame = some i then { task with pc := .written ping now } else task
      | _ => task }

/-- `_stop_locked`, until it waits for the tasks. -/
def stop (s : Node) : Node :=
  let s := { s.failAllHeartbeats with running := false, stopping := true }
  let s := s.cancelTasks fun i task => s.heartbeatTasks task.connection = some i
  { s with
    tasks := fun i => (s.tasks i).map fun task =>
      if some i ∈ (s.channels task.connection).elim [] Channel.frames then
        { task with pc := task.pc.failFrame } else task
    channels := fun _ => none
    sessions := fun _ => none
    peerConnections := fun _ => none
    lastReceivedActivity := fun _ => none }

end Node

/-- The moves of the tasks, of the clock and of the connections. -/
inductive Label
  | time (now : ℚ)
  /-- The connection reports to be closed, whoever has closed it. -/
  | closed (connection : ℕ)
  | register (connection : ℕ) (session : Session)
  /-- `_deactivate_session` by a retirement, a failed set-up or `disconnect`. -/
  | deactivate (connection : ℕ)
  /-- `_read_connection` begins, and the supervision with it. -/
  | read (connection : ℕ)
  /-- A frame other than a PONG is read. -/
  | received (connection : ℕ)
  | pong (connection : ℕ) (pingId : Str)
  /-- The loop of `_read_connection` has ended, and `_connection_ended` begins. -/
  | readEnds (connection : ℕ)
  | cancelHeartbeat (connection : ℕ)
  /-- The rest of `_cancel_heartbeat`. -/
  | heartbeatCancelled (connection : ℕ)
  /-- The task runs. -/
  | beat (task : ℕ) (pingId : Str) (closes : Bool)
  /-- Another sender's frame is put. -/
  | enqueue (connection : ℕ)
  | writerTakes (connection : ℕ)
  | writerSent (connection : ℕ)
  /-- `send_frame` raises, and the writer calls `close()`. -/
  | sendFails (connection : ℕ) (closes : Bool)
  /-- The writer is done: its `close()` has ended, or its loop. -/
  | writerEnds (connection : ℕ) (closes : Bool)
  /-- `_close_outbound_channel` -/
  | closeOutbound (connection : ℕ)
  | stop
  /-- The rest of `_stop_locked`. -/
  | stopEnds
  | start

namespace Node

/-- One step. -/
def step (cfg : Config) (s : Node) : Label → Option Node
  | .time now => if s.now ≤ now then some { s with now } else none
  | .closed c => some (s.close c true)
  | .register c session =>
      if s.running ∧ s.registered c = false ∧ s.peerConnections session.peerId = none then
        some (s.registerSession c session)
      else none
  | .deactivate c => some (s.deactivateSession c)
  | .read c =>
      match s.sessions c with
      | none => none
      | some session =>
          if c ∈ s.readers then none
          else some ({ s with readers := c :: s.readers }.ensureHeartbeat c session)
  | .received c =>
      if c ∈ s.readers then
        some { s with lastReceivedActivity := Function.update s.lastReceivedActivity c (some s.now) }
      else none
  | .pong c pingId =>
      if c ∈ s.readers then
        some ({ s with
          lastReceivedActivity := Function.update s.lastReceivedActivity c
            (some s.now) }.resolveHeartbeat c pingId)
      else none
  | .readEnds c =>
      if c ∈ s.readers then
        some ({ s with readers := s.readers.filter (· ≠ c) }.deactivateSession c)
      else none
  | .cancelHeartbeat c => if s.sessions c = none then some (s.cancelHeartbeat c) else none
  | .heartbeatCancelled c =>
      if s.sessions c = none then
        some ({ s with
          lastReceivedActivity := Function.update s.lastReceivedActivity c
            none }.failHeartbeatsForConnection c)
      else none
  | .beat i pingId closes => (s.tasks i).bind fun task => s.beat cfg i task pingId closes
  | .enqueue c =>
      match s.channels c with
      | none => none
      | some channel =>
          if channel.items.length < cfg.maxOutboundQueue then
            some { s with
              channels := Function.update s.channels c
                (some { channel with items := channel.items ++ [none] }) }
          else none
  | .writerTakes c =>
      match s.channels c with
      | some ⟨frame :: items, none, false⟩ =>
          some { s with channels := Function.update s.channels c (some ⟨items, some frame, false⟩) }
      | _ => none
  | .writerSent c =>
      match s.channels c with
      | some ⟨items, some frame, false⟩ =>
          some ({ s with
            channels := Function.update s.channels c (some ⟨items, none, false⟩) }.frameWritten frame)
      | _ => none
  | .sendFails c closes =>
      match s.channels c with
      | some ⟨items, some frame, false⟩ =>
          some (({ s with
            channels := Function.update s.channels c
              (some ⟨items, none, true⟩) }.failFrames [frame]).close c closes)
      | _ => none
  | .writerEnds c closes =>
      match s.channels c with
      | none => none
      | some channel =>
          if channel.closing then
            some (({ s with
              channels := Function.update s.channels c none }.failFrames channel.frames).close c closes)
          else if channel.current = none ∧ (s.isClosed c = true ∨ s.running = false) then
            some ({ s with
              channels := Function.update s.channels c none }.failFrames channel.frames)
          else none
  | .closeOutbound c =>
      if s.sessions c = none then
        some ({ s with
          channels := Function.update s.channels c none }.failFrames
            ((s.channels c).elim [] Channel.frames))
      else none
  | .stop => if s.running then some s.stop else none
  | .stopEnds =>
      if s.stopping then some { s with heartbeatTasks := fun _ => none, stopping := false } else none
  | .start => if !s.running && !s.stopping then some { s with running := true } else none

end Node

/-- The runs. -/
def system (cfg : Config) : System Node Label where
  init s := ∃ now, s = initial now
  step := Node.step cfg

end Heartbeat
end Core
end Paqto
