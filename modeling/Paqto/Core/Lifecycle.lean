/-
# Lifecycle calls and the lifecycle lock

`PaqtoNode.stop` and `PaqtoNode.network_changed` (`core/node.py`) each create
one lifecycle task and wait for it in `_await_lifecycle_task`.  The lifecycle
task takes `_lifecycle_lock`, runs `_stop_locked` (cancel every node-owned task
except the direct caller, close the connections, then `gather` the cancelled
tasks) and, for `network_changed`, `_start_locked` and one discovery pass.

The state keeps what decides who waits for whom: the lock with its FIFO of
waiters, the program point of every lifecycle task, the node-owned tasks that
sit in `_reader_tasks`, `_handler_tasks`, `_heartbeat_tasks`,
`_reconnect_tasks`, `_outbound_channels`, `_event_task` and `_accept_task`, and
for each of them whether it is inside `_await_lifecycle_task`.  Adapters,
handlers and listeners return: their awaits are steps that may happen at any
time.

A caller in `_await_lifecycle_task` swallows its cancellation until its own
lifecycle task is done, and only the *direct* caller is left out of the
`gather`.  Two lifecycle calls from two node-owned tasks therefore wait for
each other (`stop_stop_deadlock`).  `CallsApart` is the condition on single
steps that rules this out, and `lifecycle_waits_acyclic` shows that under it
the wait-for graph never has a cycle.
-/

import Paqto.Transition.System

namespace Paqto
namespace Core

open Transition

/-- The public lifecycle calls of `PaqtoNode`. -/
inductive LifecycleCall
  | start
  | stop
  | networkChanged
  deriving DecidableEq, Repr

/-- Where a lifecycle task is suspended.  `closing` and `gathering` keep the
list of tasks `_stop_locked` cancelled and gathers. -/
inductive LifecyclePc
  | queued
  | closing (tasks : List ℕ)
  | gathering (tasks : List ℕ)
  | services
  | starting
  | discovering
  | done
  deriving DecidableEq, Repr

/-- The tasks a lifecycle task has cancelled and waits for, or is going to. -/
def LifecyclePc.waitSet : LifecyclePc → List ℕ
  | closing tasks => tasks
  | gathering tasks => tasks
  | _ => []

/-- A task in a lifecycle call. -/
structure LifecycleTask where
  call : LifecycleCall
  skipTask : Option ℕ
  pc : LifecyclePc
  deriving DecidableEq, Repr

/-- A node-owned task runs its own code, waits in `_await_lifecycle_task` for
the lifecycle task it created, or has ended. -/
inductive OwnedPc
  | working
  | awaiting (task : ℕ)
  | finished
  deriving DecidableEq, Repr

/-- A task that the node owns. -/
structure OwnedTask where
  pc : OwnedPc
  cancelled : Bool
  deriving DecidableEq, Repr

/-- The lifecycle part of a node. -/
structure Lifecycle where
  running : Bool
  lockHolder : Option ℕ
  lockWaiters : List ℕ
  lifecycle : ℕ → Option LifecycleTask
  owned : ℕ → Option OwnedTask
  /-- The values of the node's task tables. -/
  tables : List ℕ
  nextTask : ℕ

namespace Lifecycle

/-- A node that was constructed and not started. -/
def initial : Lifecycle where
  running := false
  lockHolder := none
  lockWaiters := []
  lifecycle := fun _ => none
  owned := fun _ => none
  tables := []
  nextTask := 0

/-- The scheduler's and the environment's choices. -/
inductive Label
  /-- A lifecycle call, from outside (`none`) or from a node-owned task. -/
  | call (caller : Option ℕ) (call : LifecycleCall)
  | acquireLock (task : ℕ)
  | cleanupDone (task : ℕ)
  | tasksDone (task : ℕ)
  | servicesDone (task : ℕ) (failed : Bool)
  | startDone (task : ℕ) (failed : Bool)
  | discoverDone (task : ℕ) (reconnects : ℕ)
  /-- The caller's `shield` of a finished lifecycle task returns. -/
  | resumeCaller (task : ℕ)
  /-- The node creates a reader, writer, heartbeat or replacement worker. -/
  | spawn
  | finish (task : ℕ)
  deriving DecidableEq, Repr

/-- A lifecycle call moves. -/
def setLifecyclePc (s : Lifecycle) (l : ℕ) (t : LifecycleTask) (pc : LifecyclePc) :
    Lifecycle :=
  { s with lifecycle := Function.update s.lifecycle l (some { t with pc }) }

/-- The lifecycle task ends and leaves `async with self._lifecycle_lock`. -/
def release (s : Lifecycle) (l : ℕ) (t : LifecycleTask) : Lifecycle :=
  { s.setLifecyclePc l t .done with lockHolder := none }

/-- The node creates a task and stores it in one of its tables. -/
def spawnOne (s : Lifecycle) : Lifecycle :=
  { s with
    owned := Function.update s.owned s.nextTask (some ⟨.working, false⟩)
    tables := s.tables ++ [s.nextTask]
    nextTask := s.nextTask + 1 }

/-- Tasks are created. -/
def spawnOwned (s : Lifecycle) : ℕ → Lifecycle
  | 0 => s
  | n + 1 => s.spawnOne.spawnOwned n

/-- The tasks `_stop_locked` cancels and gathers: every task of the tables
except the direct caller (`excluded_tasks`). -/
def gatherSet (s : Lifecycle) (t : LifecycleTask) : List ℕ :=
  s.tables.filter fun w => some w ≠ t.skipTask

/-- `task.cancel()` on each of `tasks`.  A task inside `_await_lifecycle_task`
catches the `CancelledError` and goes on waiting, so no `pc` changes here. -/
def cancelTasks (s : Lifecycle) (tasks : List ℕ) : Lifecycle :=
  { s with
    owned := fun w => if w ∈ tasks then (s.owned w).map ({ · with cancelled := true })
      else s.owned w }

/-- `_stop_locked` up to its first `gather`. -/
def beginStop (s : Lifecycle) (l : ℕ) (t : LifecycleTask) : Lifecycle :=
  ({ s with running := false }.cancelTasks (s.gatherSet t)).setLifecyclePc l t
    (.closing (s.gatherSet t))

/-- Whether a lifecycle task that gets the lock runs `_stop_locked`'s cleanup:
`stop` returns at once and `network_changed` raises when the node is stopped. -/
def sweeps (s : Lifecycle) (t : LifecycleTask) : Bool :=
  s.running && t.call != .start

/-- A lifecycle call creates the lifecycle task; it queues on the lock. -/
def begin (s : Lifecycle) (caller : Option ℕ) (call : LifecycleCall) : Lifecycle :=
  { s with
    lockWaiters := s.lockWaiters ++ [s.nextTask]
    lifecycle := Function.update s.lifecycle s.nextTask (some ⟨call, caller, .queued⟩)
    nextTask := s.nextTask + 1 }

/-- One step.  `handlers` is `config.handler_concurrency`. -/
def step (handlers : ℕ) (s : Lifecycle) : Label → Option Lifecycle
  | .call none call =>
      -- `network_changed` starts with `_ensure_running`
      if call = .networkChanged ∧ s.running = false then none else some (s.begin none call)
  | .call (some w) call =>
      match s.owned w with
      | some ⟨.working, cancelled⟩ =>
          if call = .start ∨ call = .networkChanged ∧ s.running = false then none
          else some { s.begin (some w) call with
            owned := Function.update s.owned w (some ⟨.awaiting s.nextTask, cancelled⟩) }
      | _ => none
  | .acquireLock l =>
      match s.lockHolder, s.lockWaiters, s.lifecycle l with
      | none, w :: waiters, some t =>
          if w ≠ l then none
          else
            let s := { s with lockHolder := some l, lockWaiters := waiters }
            if s.sweeps t then some (s.beginStop l t)
            else if t.call = .start ∧ s.running = false then
              some (s.setLifecyclePc l t .starting)
            else some (s.release l t)
      | _, _, _ => none
  | .cleanupDone l =>
      match s.lifecycle l with
      | some t =>
          match t.pc with
          | .closing tasks => some (s.setLifecyclePc l t (.gathering tasks))
          | _ => none
      | none => none
  | .tasksDone l =>
      match s.lifecycle l with
      | some t =>
          match t.pc with
          | .gathering tasks =>
              if ∀ w ∈ tasks, (s.owned w).any (·.pc = .finished) then
                some { s.setLifecyclePc l t .services with tables := [] }
              else none
          | _ => none
      | none => none
  | .servicesDone l failed =>
      match s.lifecycle l with
      | some t =>
          if t.pc ≠ .services then none
          else if t.call = .networkChanged ∧ failed = false then
            some (s.setLifecyclePc l t .starting)
          else some (s.release l t)
      | none => none
  | .startDone l failed =>
      match s.lifecycle l with
      | some t =>
          if t.pc ≠ .starting then none
          else if failed then some (s.release l t)
          else
            -- the dispatch workers, the event worker and the accept loop
            let s := { s.spawnOwned (handlers + 2) with running := true }
            if t.call = .networkChanged then some (s.setLifecyclePc l t .discovering)
            else some (s.release l t)
      | none => none
  | .discoverDone l reconnects =>
      match s.lifecycle l with
      | some t =>
          if t.pc ≠ .discovering then none
          else some ((s.spawnOwned reconnects).release l t)
      | none => none
  | .resumeCaller w =>
      match s.owned w with
      | some ⟨.awaiting l, cancelled⟩ =>
          if (s.lifecycle l).any (·.pc = .done) then
            some { s with owned := Function.update s.owned w (some ⟨.working, cancelled⟩) }
          else none
      | _ => none
  | .spawn => some s.spawnOne
  | .finish w =>
      match s.owned w with
      | some ⟨.working, cancelled⟩ =>
          some { s with
            owned := Function.update s.owned w (some ⟨.finished, cancelled⟩)
            tables := s.tables.erase w }
      | _ => none

/-- The lifecycle of one node. -/
def system (handlers : ℕ) : System Lifecycle Label where
  init s := s = initial
  step := step handlers

/-! ### Who waits for whom -/

/-- A node-owned task is inside `_await_lifecycle_task` for a lifecycle task
that is not done. -/
def blocked (s : Lifecycle) (w : ℕ) : Bool :=
  match s.owned w with
  | some ⟨.awaiting l, _⟩ => (s.lifecycle l).any (·.pc != .done)
  | _ => false

/-- The wait-for relation over lifecycle tasks, the lock and node-owned
tasks: a queued task waits, through the lock, for the task that holds it. -/
inductive WaitsFor (s : Lifecycle) : ℕ → ℕ → Prop
  | gather {l w : ℕ} {t : LifecycleTask} {tasks : List ℕ} {o : OwnedTask} :
      s.lifecycle l = some t → t.pc = .gathering tasks → w ∈ tasks → s.owned w = some o →
      o.pc ≠ .finished → WaitsFor s l w
  | await {w l : ℕ} {o : OwnedTask} {t : LifecycleTask} :
      s.owned w = some o → o.pc = .awaiting l → s.lifecycle l = some t → t.pc ≠ .done →
      WaitsFor s w l
  | lock {l h : ℕ} {t : LifecycleTask} :
      s.lifecycle l = some t → t.pc = .queued → s.lockHolder = some h → WaitsFor s l h

/-- The task that holds the lock waits in `_stop_locked`'s `gather` for a
task that waits, through `_await_lifecycle_task`, for a lifecycle task queued
on the lock. -/
def Deadlock (s : Lifecycle) : Prop :=
  ∃ l w q t tasks o u, s.lockHolder = some l ∧ s.lifecycle l = some t ∧
    t.pc = .gathering tasks ∧ w ∈ tasks ∧ s.owned w = some o ∧ o.pc = .awaiting q ∧
    s.lifecycle q = some u ∧ u.pc = .queued

/-- Lifecycle calls that can meet are kept apart: a node-owned task makes no
lifecycle call while a `_stop_locked` that has cancelled it still runs, and no
`_stop_locked` begins while a task it is going to gather waits for an
unfinished lifecycle task. -/
def CallsApart (s : Lifecycle) : Label → Prop
  | .call (some w) _ => ∀ l t, s.lifecycle l = some t → w ∉ t.pc.waitSet
  | .acquireLock l => ∀ t, s.lifecycle l = some t → s.sweeps t = true →
      ∀ w ∈ s.gatherSet t, s.blocked w = false
  | _ => True

end Lifecycle
end Core
end Paqto
