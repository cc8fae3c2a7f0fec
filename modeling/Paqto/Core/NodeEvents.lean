/-
# Node events and the worker that dispatches them

`EventRouter` of `core/events.py`, and `_emit_event`, `_event_worker` and what
`_start_locked` and `_stop_locked` do with the event queue and its task
(`core/node.py`), over any number of lifecycles.

The labels take what is not the node's choice: which events the node emits and
when, what the listeners do, who calls `stop()`, and which tasks the event loop
resumes.  `stop()` does not cancel the task that called it, so a listener that
stops the node goes on, and can start it again while it is still running.
-/

import Paqto.Core.Protocol
import Paqto.Transition.System

namespace Paqto
namespace Core

open Transition

/-- `NodeEventType` of `core/events.py`. -/
inductive NodeEventType
  | peerDiscovered
  | peerExpired
  | connecting
  | connected
  | authenticated
  | disconnected
  | reconnecting
  | transportError
  | protocolError
  | handlerError
  | resourceLimit
  deriving DecidableEq, Repr

/-- `NodeEvent`: `__post_init__` refuses empty ids.  `details` are `error` and
`metadata`. -/
structure NodeEvent (D : Type) where
  type : NodeEventType
  localPeerId : Identifier
  peerId : Option Identifier
  connectionId : Option Identifier
  details : D

namespace Events

/-- `max_event_queue`, which `PaqtoConfig` has checked. -/
structure Config where
  maxEventQueue : ℕ
  maxEventQueue_pos : 0 < maxEventQueue

/-- A call of `dispatch` of the router: the listeners it found, those it has
called, and those of them that raised an `Exception`. -/
structure Delivery (D : Type) where
  event : NodeEvent D
  /-- `_handlers` when the dispatch began. -/
  registered : Option NodeEventType → List ℕ
  listeners : List ℕ
  called : List ℕ
  failed : List ℕ

/-- Where an event worker stands. -/
inductive WorkerPc (D : Type)
  | absent
  /-- The task has not run. -/
  | created
  /-- In `queue.get`. -/
  | waiting
  /-- In the listener that was called last, and the others that are left. -/
  | dispatching (delivery : Delivery D) (left : List ℕ)
  | ended

/-- The node.  A task of `_event_worker` is named by the lifecycle it was
created in. -/
structure Node (D : Type) where
  running : Bool
  /-- `_lifecycle_generation` -/
  generation : ℕ
  /-- `_event_queue` -/
  queue : Option (List (NodeEvent D))
  /-- `_handlers` of the router. -/
  handlers : Option NodeEventType → List ℕ
  workers : ℕ → WorkerPc D
  /-- `stop()` has cancelled the task, which has not been told. -/
  cancelled : ℕ → Bool
  /-- A `stop()` is in progress, and the task of the worker has called it. -/
  stopping : Option Bool
  /-- The events of a lifecycle that the queue took, in order. -/
  accepted : ℕ → List (NodeEvent D)
  /-- The dispatches of the worker of a lifecycle that are over, in order. -/
  deliveries : ℕ → List (Delivery D)

/-- `__init__` -/
def initial {D : Type} : Node D where
  running := false
  generation := 0
  queue := none
  handlers := fun _ => []
  workers := fun _ => .absent
  cancelled := fun _ => false
  stopping := none
  accepted := fun _ => []
  deliveries := fun _ => []

/-- The moves of the workers and of what emits events. -/
inductive Label (D : Type)
  | start
  /-- `_stop_locked` begins, called by a listener or by another task. -/
  | stop (byListener : Bool)
  /-- `_stop_locked` has gathered its tasks, and discards the queue. -/
  | discardQueue
  /-- `_emit_event` -/
  | emit (event : NodeEvent D)
  /-- `add_handler` -/
  | addHandler (type : Option NodeEventType) (listener : ℕ)
  /-- The task of a worker runs for the first time. -/
  | runWorker (g : ℕ)
  /-- `queue.get` returns. -/
  | take (g : ℕ)
  | listenerReturned (g : ℕ)
  /-- A listener raises an `Exception`. -/
  | listenerFailed (g : ℕ)
  /-- A listener raises what `dispatch` does not catch, as a cancellation. -/
  | listenerEscaped (g : ℕ)
  /-- A cancellation reaches a worker that is not in a listener. -/
  | workerCancelled (g : ℕ)

variable {D : Type}

namespace Node

/-- A worker moves. -/
def setWorker (s : Node D) (g : ℕ) (pc : WorkerPc D) : Node D :=
  { s with workers := Function.update s.workers g pc }

/-- The listeners `dispatch` runs for an event. -/
def matching (s : Node D) (event : NodeEvent D) : List ℕ :=
  s.handlers (some event.type) ++ s.handlers none

/-- The head of the loop of `_event_worker`. -/
def loopHead (s : Node D) (g : ℕ) : Node D :=
  if s.running && s.generation = g then
    match s.queue with
    | none => s.setWorker g .ended
    | some _ => s.setWorker g .waiting
  else s.setWorker g .ended

/-- A dispatch is over. -/
def record (s : Node D) (g : ℕ) (delivery : Delivery D) : Node D :=
  { s with deliveries := Function.update s.deliveries g (s.deliveries g ++ [delivery]) }

/-- The loop of `dispatch`, and then `queue.task_done()`. -/
def runListeners (s : Node D) (g : ℕ) (delivery : Delivery D) : List ℕ → Node D
  | [] => (s.record g delivery).loopHead g
  | listener :: left =>
      s.setWorker g
        (.dispatching { delivery with called := delivery.called ++ [listener] } left)

/-- `queue.get` returns the event. -/
def take (s : Node D) (g : ℕ) (event : NodeEvent D) (rest : List (NodeEvent D)) : Node D :=
  { s with queue := some rest }.runListeners g
    { event, registered := s.handlers, listeners := s.matching event, called := [], failed := [] }
    (s.matching event)

/-- `_emit_event` -/
def emitEvent (cfg : Config) (s : Node D) (event : NodeEvent D) : Node D :=
  match s.queue with
  | none => s
  | some queue =>
      if queue.length < cfg.maxEventQueue then
        { s with
          queue := some (queue ++ [event])
          accepted := Function.update s.accepted s.generation
            (s.accepted s.generation ++ [event]) }
      else s

/-- The end of `_start_locked`. -/
def start (s : Node D) : Node D :=
  { s with
    running := true
    generation := s.generation + 1
    queue := some [] }.setWorker (s.generation + 1) .created

/-- The worker is in a listener. -/
def isDispatching (s : Node D) (g : ℕ) : Bool :=
  match s.workers g with
  | .dispatching _ _ => true
  | _ => false

/-- `_stop_locked` begins. -/
def stop (s : Node D) (byListener : Bool) : Node D :=
  { s with
    running := false
    cancelled := if byListener then s.cancelled else Function.update s.cancelled s.generation true
    stopping := some byListener }

/-- The tasks that `_stop_locked` gathers are done. -/
def gathered (s : Node D) (byListener : Bool) : Bool :=
  byListener ||
    match s.workers s.generation with
    | .ended => true
    | _ => false

end Node

/-- One step of the node. -/
def step (cfg : Config) (s : Node D) : Label D → Option (Node D)
  | .start => if !s.running && s.stopping.isNone then some s.start else none
  | .stop byListener =>
      if s.running && (!byListener || s.isDispatching s.generation) then some (s.stop byListener)
      else none
  | .discardQueue =>
      s.stopping.bind fun byListener =>
        if s.gathered byListener then some { s with queue := none, stopping := none } else none
  | .emit event => some (s.emitEvent cfg event)
  | .addHandler type listener =>
      some { s with handlers := Function.update s.handlers type (s.handlers type ++ [listener]) }
  | .runWorker g =>
      match s.workers g with
      | .created => if s.cancelled g then none else some (s.loopHead g)
      | _ => none
  | .take g =>
      match s.workers g, s.queue with
      | .waiting, some (event :: rest) => if s.cancelled g then none else some (s.take g event rest)
      | _, _ => none
  | .listenerReturned g =>
      match s.workers g with
      | .dispatching delivery left => some (s.runListeners g delivery left)
      | _ => none
  | .listenerFailed g =>
      match s.workers g with
      | .dispatching delivery left =>
          some (s.runListeners g
            { delivery with failed := delivery.failed ++ delivery.called.getLast?.toList } left)
      | _ => none
  | .listenerEscaped g =>
      match s.workers g with
      | .dispatching delivery _ => some ((s.record g delivery).setWorker g .ended)
      | _ => none
  | .workerCancelled g =>
      match s.workers g with
      | .created | .waiting => if s.cancelled g then some (s.setWorker g .ended) else none
      | _ => none

/-- The runs of a node. -/
def system (cfg : Config) : System (Node D) (Label D) where
  init s := s = initial
  step := step cfg

/-- The events that the worker of a lifecycle took, in order. -/
def Node.taken (s : Node D) (g : ℕ) : List (NodeEvent D) :=
  (s.deliveries g).map (·.event) ++
    match s.workers g with
    | .dispatching delivery _ => [delivery.event]
    | _ => []

end Events
end Core
end Paqto
