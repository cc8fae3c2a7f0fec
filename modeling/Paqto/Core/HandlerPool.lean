/-
# The handler pool

`_dispatch_worker`, `_handler_finished` and `_start_dispatch_worker` of `core/node.py` with
what `_start_locked` and `_stop_locked` do to the workers, over any number of calls of
`start()`, `stop()` and `network_changed()`, from outside or from a handler.

A worker that has ended is replaced by its done-callback, which runs later.  The worker
whose handler calls `stop()` or `network_changed()` is neither cancelled nor awaited there,
and may outlive its generation.  A queue is named by the generation that created it.

What handlers and `close()` do is in the labels.  A handler may ignore that it is cancelled.
-/

import Paqto.Transition.System
import Mathlib.Data.Finset.Card
import Mathlib.Data.Finset.Range

namespace Paqto
namespace Core

open Transition

namespace HandlerPool

/-- What the pool is configured with. -/
structure Config where
  handlerConcurrency : ℕ
  /-- `handler_error_policy` is `CLOSE_CONNECTION`. -/
  closeConnection : Bool

/-- Where `_dispatch_worker` is suspended. -/
inductive WorkerPc
  /-- Created, its first step not taken. -/
  | created
  /-- In `queue.get()`. -/
  | getting (queue : ℕ)
  /-- In `_dispatch_message` with an item of the queue. -/
  | handling (queue : ℕ)
  /-- In `close()` of the connection of its item. -/
  | closing (queue : ℕ)
  /-- The task is done, its callback has not run. -/
  | finished
  /-- `_handler_finished` has run. -/
  | removed
  deriving DecidableEq, Repr

/-- The queue a worker waits for, or has an item of. -/
def WorkerPc.queue : WorkerPc → Option ℕ
  | getting q | handling q | closing q => some q
  | _ => none

/-- The task is in a handler. -/
def WorkerPc.isHandling : WorkerPc → Bool
  | handling _ => true
  | _ => false

/-- The task is not done. -/
def WorkerPc.isLive : WorkerPc → Bool
  | finished | removed => false
  | _ => true

/-- A task of `_dispatch_worker`. -/
structure Worker where
  /-- The generation that its callback compares. -/
  created : ℕ
  /-- The local `generation`. -/
  generation : ℕ
  pc : WorkerPc
  cancelled : Bool
  deriving DecidableEq, Repr

/-- Who holds the lifecycle lock. -/
inductive Lifecycle
  | idle
  /-- `_stop_locked`, which waits for the tasks it has cancelled; `refresh` when it is
  `network_changed()`. -/
  | stopping (refresh : Bool)
  /-- `_start_locked` of `network_changed()`, before the node runs. -/
  | starting
  deriving DecidableEq, Repr

/-- The workers, and what their lifecycle is. -/
structure Node where
  running : Bool
  /-- `_lifecycle_generation` -/
  generation : ℕ
  lifecycle : Lifecycle
  /-- `_inbound_queue` -/
  inboundQueue : Option ℕ
  /-- How many items a queue has. -/
  items : ℕ → ℕ
  workers : ℕ → Option Worker
  nextWorker : ℕ
  /-- `_handler_tasks` -/
  handlerTasks : ℕ → Bool
  /-- The workers that `_stop_locked` has cancelled. -/
  gathered : ℕ → Bool

/-- `__init__` -/
def initial : Node where
  running := false
  generation := 0
  lifecycle := .idle
  inboundQueue := none
  items := fun _ => 0
  workers := fun _ => none
  nextWorker := 0
  handlerTasks := fun _ => false
  gathered := fun _ => false

/-- What a worker is resumed with. -/
inductive WorkerLabel
  /-- Its first step. -/
  | begin
  /-- `queue.get()` returns. -/
  | take
  | handlerReturns
  /-- A handler raises an `Exception`. -/
  | handlerRaises
  /-- `CancelledError` comes out of a handler. -/
  | handlerCancelled
  /-- `close()` returns. -/
  | closed
  /-- `close()` raises. -/
  | closeRaises
  /-- It is told outside its handler that it is cancelled. -/
  | cancelled
  /-- `_handler_finished` -/
  | handlerFinished
  deriving DecidableEq, Repr

/-- The moves of the workers and of the lifecycle calls. -/
inductive Label
  /-- `start()` has started its resources. -/
  | start
  /-- `stop()`, or `network_changed()`, gets the lock; the worker whose handler has called
  it, if any. -/
  | beginStop (refresh : Bool) (caller : Option ℕ)
  /-- The cancelled tasks have ended. -/
  | clear
  /-- `_start_locked` of `network_changed()` has started its resources, or has failed. -/
  | restarted (failed : Bool)
  /-- A reader puts a message in the queue it has looked up. -/
  | put (queue : ℕ)
  | worker (w : ℕ) (l : WorkerLabel)

namespace Node

/-- A worker moves. -/
def setWorker (s : Node) (w : ℕ) (worker : Worker) : Node :=
  { s with workers := Function.update s.workers w (some worker) }

/-- `_start_dispatch_worker` -/
def startDispatchWorker (s : Node) : Node :=
  { s with
    workers := Function.update s.workers s.nextWorker (some ⟨s.generation, 0, .created, false⟩)
    nextWorker := s.nextWorker + 1
    handlerTasks := Function.update s.handlerTasks s.nextWorker true }

/-- The loop over `range(handler_concurrency)`. -/
def startDispatchWorkers (s : Node) : ℕ → Node
  | 0 => s
  | n + 1 => (s.startDispatchWorkers n).startDispatchWorker

/-- The end of `_start_locked`. -/
def startLocked (cfg : Config) (s : Node) : Node :=
  { s with
    running := true
    generation := s.generation + 1
    lifecycle := .idle
    inboundQueue := some (s.generation + 1)
    items := Function.update s.items (s.generation + 1) 0
    }.startDispatchWorkers cfg.handlerConcurrency

/-- `_stop_locked` up to its first suspension. -/
def beginStop (s : Node) (refresh : Bool) (caller : Option ℕ) : Node :=
  { s with
    running := false
    lifecycle := .stopping refresh
    gathered := fun w => s.handlerTasks w && caller ≠ some w
    workers := fun w =>
      (s.workers w).map fun worker =>
        if s.handlerTasks w && caller ≠ some w then { worker with cancelled := true }
        else worker }

/-- `_stop_locked` has awaited the tasks it has cancelled. -/
def clear (s : Node) (lifecycle : Lifecycle) : Node :=
  { s with
    lifecycle
    handlerTasks := fun _ => false
    inboundQueue := none
    items := match s.inboundQueue with
      | some q => Function.update s.items q 0
      | none => s.items }

/-- The head of the loop of `_dispatch_worker`, up to its next suspension. -/
def head (s : Node) (w : ℕ) (worker : Worker) : Node :=
  if s.running ∧ worker.generation = s.generation then
    match s.inboundQueue with
    | some q => s.setWorker w { worker with pc := .getting q }
    | none => s.setWorker w { worker with pc := .finished }
  else s.setWorker w { worker with pc := .finished }

/-- `_handler_finished` -/
def handlerFinished (s : Node) (w : ℕ) (worker : Worker) : Node :=
  let t := { s with handlerTasks := Function.update s.handlerTasks w false }.setWorker w
    { worker with pc := .removed }
  if s.running ∧ worker.created = s.generation then t.startDispatchWorker else t

/-- The tasks that `_stop_locked` awaits have ended. -/
def allGathered (s : Node) : Prop :=
  ∀ w < s.nextWorker, s.gathered w → ∀ worker ∈ s.workers w, worker.pc.isLive = false

instance (s : Node) : Decidable s.allGathered :=
  inferInstanceAs (Decidable (∀ w < s.nextWorker, _))

/-- A worker, and not one of another node, calls `stop()`. -/
def mayCall (s : Node) : Option ℕ → Bool
  | some w => (s.workers w).any (·.pc.isHandling)
  | none => true

end Node

open Node

/-- One step of a worker. -/
def workerStep (cfg : Config) (s : Node) (w : ℕ) (worker : Worker) :
    WorkerLabel → Option Node
  | .begin =>
      match worker.pc with
      | .created =>
          if worker.cancelled then none
          else some (s.head w { worker with generation := s.generation })
      | _ => none
  | .take =>
      match worker.pc with
      | .getting q =>
          if worker.cancelled ∨ s.items q = 0 then none
          else some ({ s with items := Function.update s.items q (s.items q - 1) }.setWorker w
            { worker with pc := .handling q })
      | _ => none
  | .handlerReturns =>
      match worker.pc with
      | .handling _ => some (s.head w worker)
      | _ => none
  | .handlerRaises =>
      match worker.pc with
      | .handling q =>
          if cfg.closeConnection then some (s.setWorker w { worker with pc := .closing q })
          else some (s.head w worker)
      | _ => none
  | .handlerCancelled =>
      match worker.pc with
      | .handling _ => some (s.setWorker w { worker with pc := .finished })
      | _ => none
  | .closed =>
      match worker.pc with
      | .closing _ => some (s.head w worker)
      | _ => none
  | .closeRaises =>
      match worker.pc with
      | .closing _ => some (s.setWorker w { worker with pc := .finished })
      | _ => none
  | .cancelled =>
      match worker.pc with
      | .created | .getting _ | .closing _ =>
          if worker.cancelled then some (s.setWorker w { worker with pc := .finished }) else none
      | _ => none
  | .handlerFinished =>
      match worker.pc with
      | .finished => some (s.handlerFinished w worker)
      | _ => none

/-- One step of the node. -/
def step (cfg : Config) (s : Node) : Label → Option Node
  | .start =>
      match s.lifecycle with
      | .idle => if s.running then none else some (s.startLocked cfg)
      | _ => none
  | .beginStop refresh caller =>
      match s.lifecycle with
      | .idle =>
          if s.running && s.mayCall caller then some (s.beginStop refresh caller) else none
      | _ => none
  | .clear =>
      match s.lifecycle with
      | .stopping refresh =>
          if s.allGathered then some (s.clear (if refresh then .starting else .idle)) else none
      | _ => none
  | .restarted failed =>
      match s.lifecycle with
      | .starting =>
          if failed then some { s with lifecycle := .idle } else some (s.startLocked cfg)
      | _ => none
  | .put q => some { s with items := Function.update s.items q (s.items q + 1) }
  | .worker w l => (s.workers w).bind fun worker => workerStep cfg s w worker l

/-- The runs of a node. -/
def system (cfg : Config) : System Node Label where
  init s := s = initial
  step := step cfg

/-! ## The law -/

/-- The worker is live, or its callback has not run, and it is of this generation. -/
def Node.inPool (s : Node) (w : ℕ) : Bool :=
  (s.workers w).any fun worker => worker.created = s.generation && worker.pc ≠ .removed

/-- The workers of this generation. -/
def Node.pool (s : Node) : Finset ℕ := (Finset.range s.nextWorker).filter fun w => s.inPool w

/-- The label starts a node. -/
inductive Starts : Label → Prop
  | start : Starts .start
  | restarted : Starts (.restarted false)

/-- `stop()` has stopped the node, and nothing has started it since. -/
structure Node.Stopped (s : Node) : Prop where
  running : s.running = false
  lifecycle : s.lifecycle = .idle ∨ s.lifecycle = .stopping false

/-- **The handler pool keeps its size**, in a state. -/
structure KeepsPool (cfg : Config) (s : Node) : Prop where
  size : s.running = true → s.pool.card = cfg.handlerConcurrency
  /-- A worker waits for the queue of its own generation, and has an item of no other. -/
  own : ∀ w worker q, s.workers w = some worker → worker.pc.queue = some q → q = worker.created
  /-- A worker is started with the node, or in the place of one of this generation. -/
  started : ∀ l t w worker, step cfg s l = some t → s.workers w = none →
    t.workers w = some worker → t.running = true ∧ worker.created = t.generation ∧
      (Starts l ∨ s.running = true ∧ ∃ v old, l = .worker v .handlerFinished ∧
        s.workers v = some old ∧ old.created = s.generation)

/-! ## What the workers keep -/

variable {cfg : Config} {s t : Node} {w : ℕ} {worker : Worker}

/-- What a worker has of a queue is of its own generation. -/
def Worker.Sound (worker : Worker) : Prop :=
  ∀ q, worker.pc.queue = some q → q = worker.created ∧ worker.generation = worker.created

/-- What holds in every run of the pool. -/
structure Inv (s : Node) : Prop where
  fresh : ∀ w, s.nextWorker ≤ w → s.workers w = none
  older : ∀ w worker, s.workers w = some worker → worker.created ≤ s.generation
  /-- A worker that has yet to begin is of this generation, and will be cancelled. -/
  pending : ∀ w worker, s.workers w = some worker → worker.pc = .created →
    worker.cancelled = false →
    s.running = true ∧ worker.created = s.generation ∧ s.handlerTasks w = true
  sound : ∀ w worker, s.workers w = some worker → worker.Sound
  queue : s.running = true → s.inboundQueue = some s.generation
  stopped : s.lifecycle ≠ .idle → s.running = false

/-- There is no worker yet. -/
theorem inv_initial : Inv initial where
  fresh _ _ := rfl
  older _ _ h := by cases h
  pending _ _ h := by cases h
  sound _ _ h := by cases h
  queue h := by cases h
  stopped _ := rfl

/-- The worker that moves, and the others. -/
theorem workers_setWorker {v : ℕ} {worker other : Worker}
    (h : (s.setWorker w worker).workers v = some other) :
    (v = w ∧ other = worker) ∨ (v ≠ w ∧ s.workers v = some other) := by
  change Function.update s.workers w (some worker) v = some other at h
  by_cases hvw : v = w
  · rw [hvw, Function.update_self] at h
    exact Or.inl ⟨hvw, (Option.some.inj h).symm⟩
  · rw [Function.update_of_ne hvw] at h
    exact Or.inr ⟨hvw, h⟩

/-- A worker has a number. -/
theorem Inv.lt_of_worker (h : Inv s) (hw : s.workers w = some worker) : w < s.nextWorker := by
  by_contra hle
  rw [h.fresh w (Nat.le_of_not_lt hle)] at hw
  cases hw

/-- A worker goes on, or ends. -/
theorem Inv.setWorker (h : Inv s) (hw : s.workers w = some worker) {worker' : Worker}
    (hcreated : worker'.created = worker.created) (hpc : worker'.pc ≠ .created)
    (hsound : worker'.Sound) (items : ℕ → ℕ) : Inv ({ s with items }.setWorker w worker') where
  fresh v hv := by
    have hne : v ≠ w := by
      have hlt := h.lt_of_worker hw
      change s.nextWorker ≤ v at hv
      omega
    exact (Function.update_of_ne hne ..).trans (h.fresh v hv)
  older v other hv := by
    obtain ⟨rfl, rfl⟩ | ⟨-, hv⟩ := workers_setWorker hv
    · exact hcreated ▸ h.older v worker hw
    · exact h.older v other hv
  pending v other hv hbegun := by
    obtain ⟨rfl, rfl⟩ | ⟨-, hv⟩ := workers_setWorker hv
    · exact absurd hbegun hpc
    · exact h.pending v other hv hbegun
  sound v other hv := by
    obtain ⟨rfl, rfl⟩ | ⟨-, hv⟩ := workers_setWorker hv
    · exact hsound
    · exact h.sound v other hv
  queue := h.queue
  stopped := h.stopped

/-- The pool has the workers of this generation that were not removed. -/
theorem mem_pool (h : Inv s) : w ∈ s.pool ↔ ∃ worker, s.workers w = some worker ∧
    worker.created = s.generation ∧ worker.pc ≠ .removed := by
  unfold Node.pool Node.inPool
  rw [Finset.mem_filter, Finset.mem_range]
  constructor
  · rintro ⟨-, hpool⟩
    obtain ⟨worker, hw, hin⟩ := (Option.any_eq_true ..).1 hpool
    simp only [ne_eq, decide_not, Bool.and_eq_true, decide_eq_true_eq, Bool.not_eq_eq_eq_not,
      Bool.not_true, decide_eq_false_iff_not] at hin
    exact ⟨worker, hw, hin⟩
  · rintro ⟨worker, hw, hcreated, hpc⟩
    refine ⟨h.lt_of_worker hw, ?_⟩
    simp [hw, hcreated, hpc]

/-- A worker that goes on stays in the pool, or out of it. -/
theorem pool_setWorker (h : Inv s) (hw : s.workers w = some worker) {worker' : Worker}
    (hcreated : worker'.created = worker.created) (hpc : worker'.pc ≠ .created)
    (hsound : worker'.Sound) (hremoved : worker.pc ≠ .removed) (hremoved' : worker'.pc ≠ .removed)
    (items : ℕ → ℕ) : ({ s with items }.setWorker w worker').pool = s.pool := by
  ext v
  rw [mem_pool (h.setWorker hw hcreated hpc hsound items), mem_pool h]
  constructor
  · rintro ⟨other, hv, hin⟩
    obtain ⟨rfl, rfl⟩ | ⟨-, hv⟩ := workers_setWorker hv
    · exact ⟨worker, hw, hcreated.symm.trans hin.1, hremoved⟩
    · exact ⟨other, hv, hin⟩
  · rintro ⟨other, hv, hin⟩
    by_cases hvw : v = w
    · subst hvw
      cases hw.symm.trans hv
      exact ⟨worker', Function.update_self .., hcreated.trans hin.1, hremoved'⟩
    · exact ⟨other, (Function.update_of_ne hvw ..).trans hv, hin⟩

/-! ### Starting workers -/

/-- The new worker, and the others. -/
theorem workers_startDispatchWorker {v : ℕ} {other : Worker}
    (h : s.startDispatchWorker.workers v = some other) :
    (v = s.nextWorker ∧ other = ⟨s.generation, 0, .created, false⟩) ∨
      (v ≠ s.nextWorker ∧ s.workers v = some other) :=
  workers_setWorker (s := s) h

/-- A new worker. -/
theorem inv_startDispatchWorker (h : Inv s) (hrunning : s.running = true) :
    Inv s.startDispatchWorker := by
  constructor
  case fresh =>
    intro v hv
    change s.nextWorker + 1 ≤ v at hv
    have hne : v ≠ s.nextWorker := by omega
    have hle : s.nextWorker ≤ v := by omega
    exact (Function.update_of_ne hne ..).trans (h.fresh v hle)
  case older =>
    intro v other hv
    obtain ⟨rfl, rfl⟩ | ⟨-, hv⟩ := workers_startDispatchWorker hv
    · exact Nat.le_refl _
    · exact h.older v other hv
  case pending =>
    intro v other hv hpc hcancelled
    obtain ⟨rfl, rfl⟩ | ⟨hne, hv⟩ := workers_startDispatchWorker hv
    · exact ⟨hrunning, rfl, Function.update_self ..⟩
    · obtain ⟨-, hcreated, htask⟩ := h.pending v other hv hpc hcancelled
      exact ⟨hrunning, hcreated, (Function.update_of_ne hne ..).trans htask⟩
  case sound =>
    intro v other hv
    obtain ⟨rfl, rfl⟩ | ⟨-, hv⟩ := workers_startDispatchWorker hv
    · rintro q ⟨⟩
    · exact h.sound v other hv
  case queue => exact h.queue
  case stopped => exact h.stopped

/-- **A new worker enlarges the pool by one.** -/
theorem card_pool_startDispatchWorker (h : Inv s) (hrunning : s.running = true) :
    s.startDispatchWorker.pool.card = s.pool.card + 1 := by
  have hinsert : s.startDispatchWorker.pool = insert s.nextWorker s.pool := by
    ext v
    rw [mem_pool (inv_startDispatchWorker h hrunning), Finset.mem_insert, mem_pool h]
    constructor
    · rintro ⟨other, hv, hin⟩
      obtain ⟨rfl, -⟩ | ⟨-, hv⟩ := workers_startDispatchWorker hv
      · exact Or.inl rfl
      · exact Or.inr ⟨other, hv, hin⟩
    · rintro (rfl | ⟨other, hv, hin⟩)
      · exact ⟨_, Function.update_self .., rfl, by simp⟩
      · have hne : v ≠ s.nextWorker := (h.lt_of_worker hv).ne
        exact ⟨other, (Function.update_of_ne hne ..).trans hv, hin⟩
  have hnew : s.nextWorker ∉ s.pool := by
    rw [mem_pool h, h.fresh _ (Nat.le_refl _)]
    rintro ⟨_, hv, -⟩
    cases hv
  rw [hinsert, Finset.card_insert_of_notMem hnew]

/-- Starting workers leaves `_running` alone. -/
theorem startDispatchWorkers_running (s : Node) (n : ℕ) :
    (s.startDispatchWorkers n).running = s.running := by
  induction n with
  | zero => rfl
  | succ n ih => exact ih

/-- It leaves the generation alone. -/
theorem startDispatchWorkers_generation (s : Node) (n : ℕ) :
    (s.startDispatchWorkers n).generation = s.generation := by
  induction n with
  | zero => rfl
  | succ n ih => exact ih

/-- **As many workers are added as are started.** -/
theorem startDispatchWorkers_spec (h : Inv s) (hrunning : s.running = true) (n : ℕ) :
    Inv (s.startDispatchWorkers n) ∧ (s.startDispatchWorkers n).pool.card = s.pool.card + n := by
  induction n with
  | zero => exact ⟨h, rfl⟩
  | succ n ih =>
      obtain ⟨hinv, hcard⟩ := ih
      have hr := (startDispatchWorkers_running s n).trans hrunning
      refine ⟨inv_startDispatchWorker hinv hr, ?_⟩
      rw [Node.startDispatchWorkers, card_pool_startDispatchWorker hinv hr, hcard]
      omega

/-- **A node starts with a full pool.** -/
theorem startLocked_spec (cfg : Config) (h : Inv s) (hrunning : s.running = false) :
    Inv (s.startLocked cfg) ∧ (s.startLocked cfg).pool.card = cfg.handlerConcurrency := by
  have hbegun : ∀ {v : ℕ} {other : Worker}, s.workers v = some other → other.pc = .created →
      other.cancelled = true := by
    intro v other hv hpc
    by_contra hcancelled
    have hr := (h.pending v other hv hpc (Bool.eq_false_of_not_eq_true hcancelled)).1
    rw [hrunning] at hr
    cases hr
  have hstarting : Inv { s with
      running := true
      generation := s.generation + 1
      lifecycle := .idle
      inboundQueue := some (s.generation + 1)
      items := Function.update s.items (s.generation + 1) 0 } := by
    constructor
    case fresh => exact h.fresh
    case older =>
      intro v other hv
      exact (h.older v other hv).trans (Nat.le_succ _)
    case pending =>
      intro v other hv hpc hcancelled
      rw [hbegun hv hpc] at hcancelled
      cases hcancelled
    case sound => exact h.sound
    case queue => exact fun _ => rfl
    case stopped => exact fun hidle => absurd rfl hidle
  obtain ⟨hinv, hcard⟩ := startDispatchWorkers_spec hstarting rfl cfg.handlerConcurrency
  refine ⟨hinv, hcard.trans ?_⟩
  rw [Nat.add_eq_right, Finset.card_eq_zero, Finset.eq_empty_iff_forall_notMem]
  intro v hv
  obtain ⟨other, hother, hcreated, -⟩ := (mem_pool hstarting).1 hv
  have hle := h.older v other hother
  change other.created = s.generation + 1 at hcreated
  omega

/-! ### The steps of a worker -/

/-- A worker at the head of its loop waits for the queue, or ends. -/
theorem head_spec (h : Inv s) (worker : Worker)
    (hgen : s.running = true → worker.generation = s.generation →
      worker.created = s.generation) :
    ∃ pc, s.head w worker = s.setWorker w { worker with pc } ∧ pc ≠ .created ∧ pc ≠ .removed ∧
      ({ worker with pc } : Worker).Sound := by
  have hfinished : ({ worker with pc := .finished } : Worker).Sound := by rintro q ⟨⟩
  unfold Node.head
  split
  · next hgoes =>
      obtain ⟨hrunning, hgeneration⟩ := hgoes
      have hcreated := hgen hrunning hgeneration
      simp only [h.queue hrunning]
      refine ⟨.getting s.generation, rfl, by simp, by simp, ?_⟩
      rintro q hq
      cases hq
      exact ⟨hcreated.symm, hgeneration.trans hcreated.symm⟩
  · exact ⟨.finished, rfl, by simp, by simp, hfinished⟩

/-- **A worker keeps to its generation**, step by step. -/
theorem workerStep_spec (h : Inv s) (hw : s.workers w = some worker) {l : WorkerLabel}
    (hl : l ≠ .handlerFinished) (hs : workerStep cfg s w worker l = some t) :
    ∃ items worker', t = { s with items }.setWorker w worker' ∧
      worker'.created = worker.created ∧ worker'.pc ≠ .created ∧ worker'.pc ≠ .removed ∧
      worker.pc ≠ .removed ∧ worker'.Sound := by
  have hsound := h.sound w worker hw
  have hfinished : ({ worker with pc := .finished } : Worker).Sound := by rintro q ⟨⟩
  have hends : worker.pc ≠ .removed → ∃ items worker',
      s.setWorker w { worker with pc := .finished } = { s with items }.setWorker w worker' ∧
      worker'.created = worker.created ∧ worker'.pc ≠ .created ∧ worker'.pc ≠ .removed ∧
      worker.pc ≠ .removed ∧ worker'.Sound := fun hpc =>
    ⟨s.items, { worker with pc := .finished }, rfl, rfl, by simp, by simp, hpc, hfinished⟩
  have hhead : ∀ {q : ℕ}, worker.pc.queue = some q → worker.pc ≠ .removed → ∃ items worker',
      s.head w worker = { s with items }.setWorker w worker' ∧
      worker'.created = worker.created ∧ worker'.pc ≠ .created ∧ worker'.pc ≠ .removed ∧
      worker.pc ≠ .removed ∧ worker'.Sound := by
    intro q hq hpc
    obtain ⟨-, hgeneration⟩ := hsound q hq
    obtain ⟨pc, heq, hcreated, hremoved, hnew⟩ := head_spec (w := w) h worker
      fun _ hg => hgeneration.symm.trans hg
    exact ⟨s.items, { worker with pc }, heq, rfl, hcreated, hremoved, hpc, hnew⟩
  cases l with
  | begin =>
      simp only [workerStep] at hs
      split at hs
      · next hpc =>
          split at hs <;> cases hs
          next hcancelled =>
          have hpending := h.pending w worker hw hpc (Bool.eq_false_of_not_eq_true hcancelled)
          obtain ⟨pc, heq, hcreated, hremoved, hnew⟩ := head_spec (w := w) h
            { worker with generation := s.generation } fun _ _ => hpending.2.1
          exact ⟨s.items, _, heq, rfl, hcreated, hremoved, by simp [hpc], hnew⟩
      · cases hs
  | take =>
      simp only [workerStep] at hs
      split at hs
      · next q hpc =>
          split at hs <;> cases hs
          refine ⟨_, _, rfl, rfl, by simp, by simp, by simp [hpc], ?_⟩
          rintro q' hq'
          cases hq'
          exact hsound q (by rw [hpc]; rfl)
      · cases hs
  | handlerReturns =>
      simp only [workerStep] at hs
      split at hs
      · next q hpc =>
          cases hs
          exact hhead (by rw [hpc]; rfl) (by simp [hpc])
      · cases hs
  | handlerRaises =>
      simp only [workerStep] at hs
      split at hs
      · next q hpc =>
          split at hs <;> cases hs
          · refine ⟨s.items, _, rfl, rfl, by simp, by simp, by simp [hpc], ?_⟩
            rintro q' hq'
            cases hq'
            exact hsound q (by rw [hpc]; rfl)
          · exact hhead (by rw [hpc]; rfl) (by simp [hpc])
      · cases hs
  | handlerCancelled =>
      simp only [workerStep] at hs
      split at hs
      · next q hpc =>
          cases hs
          exact hends (by simp [hpc])
      · cases hs
  | closed =>
      simp only [workerStep] at hs
      split at hs
      · next q hpc =>
          cases hs
          exact hhead (by rw [hpc]; rfl) (by simp [hpc])
      · cases hs
  | closeRaises =>
      simp only [workerStep] at hs
      split at hs
      · next q hpc =>
          cases hs
          exact hends (by simp [hpc])
      · cases hs
  | cancelled =>
      simp only [workerStep] at hs
      split at hs
      · next hpc =>
          split at hs <;> cases hs
          exact hends (by simp [hpc])
      · next q hpc =>
          split at hs <;> cases hs
          exact hends (by simp [hpc])
      · next q hpc =>
          split at hs <;> cases hs
          exact hends (by simp [hpc])
      · cases hs
  | handlerFinished => exact absurd rfl hl

/-! ### The callback of a worker -/

/-- A worker is out of the pool once its callback has run. -/
theorem remove_spec (h : Inv s) (hw : s.workers w = some worker) :
    Inv ({ s with handlerTasks := Function.update s.handlerTasks w false }.setWorker w
        { worker with pc := .removed }) ∧
      ({ s with handlerTasks := Function.update s.handlerTasks w false }.setWorker w
        { worker with pc := .removed }).pool = s.pool.erase w := by
  have hremoved : ({ worker with pc := .removed } : Worker).Sound := by rintro q ⟨⟩
  have hset : Inv ({ s with items := s.items }.setWorker w { worker with pc := .removed }) := by
    refine h.setWorker hw ?_ ?_ hremoved s.items
    · rfl
    · simp
  have hinv : Inv ({ s with handlerTasks := Function.update s.handlerTasks w false }.setWorker w
      { worker with pc := .removed }) := by
    refine { hset with pending := fun v other hv hpc hcancelled => ?_ }
    obtain ⟨hr, hcreated, htask⟩ := hset.pending v other hv hpc hcancelled
    refine ⟨hr, hcreated, (Function.update_of_ne ?_ _ _).trans htask⟩
    rintro rfl
    obtain ⟨-, rfl⟩ | ⟨hne, -⟩ := workers_setWorker hv
    · cases hpc
    · exact hne rfl
  refine ⟨hinv, ?_⟩
  ext v
  rw [mem_pool hinv, Finset.mem_erase, mem_pool h]
  constructor
  · rintro ⟨other, hv, hcreated, hpc⟩
    obtain ⟨rfl, rfl⟩ | ⟨hne, hv⟩ := workers_setWorker hv
    · exact absurd rfl hpc
    · exact ⟨hne, other, hv, hcreated, hpc⟩
  · rintro ⟨hne, other, hv, hin⟩
    exact ⟨other, (Function.update_of_ne hne ..).trans hv, hin⟩

/-- A handler that ends leaves `_running` alone. -/
theorem handlerFinished_running : (s.handlerFinished w worker).running = s.running := by
  unfold Node.handlerFinished
  dsimp only
  split <;> rfl

/-- It leaves the lifecycle alone. -/
theorem handlerFinished_lifecycle : (s.handlerFinished w worker).lifecycle = s.lifecycle := by
  unfold Node.handlerFinished
  dsimp only
  split <;> rfl

/-- **A worker of this generation is replaced, and no other.** -/
theorem handlerFinished_spec (h : Inv s) (hw : s.workers w = some worker)
    (hpc : worker.pc = .finished) :
    Inv (s.handlerFinished w worker) ∧
      (s.running = true → (s.handlerFinished w worker).pool.card = s.pool.card) := by
  obtain ⟨hinv, hpool⟩ := remove_spec h hw
  unfold Node.handlerFinished
  dsimp only
  split
  · next hreplaced =>
      obtain ⟨hrunning, hcreated⟩ := hreplaced
      refine ⟨inv_startDispatchWorker hinv hrunning, fun _ => ?_⟩
      have hmem : w ∈ s.pool := (mem_pool h).2 ⟨worker, hw, hcreated, by simp [hpc]⟩
      have hpos : 0 < s.pool.card := Finset.card_pos.2 ⟨w, hmem⟩
      rw [card_pool_startDispatchWorker hinv hrunning, hpool, Finset.card_erase_of_mem hmem]
      omega
  · next hkept =>
      refine ⟨hinv, fun hrunning => ?_⟩
      have hnot : w ∉ s.pool := by
        intro hmem
        obtain ⟨other, hother, hcreated, -⟩ := (mem_pool h).1 hmem
        cases hw.symm.trans hother
        exact hkept ⟨hrunning, hcreated⟩
      rw [hpool, Finset.erase_eq_of_notMem hnot]

/-! ### The steps of the node -/

/-- A stop begins. -/
theorem inv_beginStop (h : Inv s) {refresh : Bool} {caller : Option ℕ}
    (hcaller : s.mayCall caller = true) : Inv (s.beginStop refresh caller) := by
  have hold : ∀ {v : ℕ} {other : Worker}, (s.beginStop refresh caller).workers v = some other →
      ∃ worker, s.workers v = some worker ∧ other.created = worker.created ∧
        other.generation = worker.generation ∧ other.pc = worker.pc ∧
        (other.cancelled = false → worker.cancelled = false ∧
          (s.handlerTasks v = true → caller = some v)) := by
    intro v other hv
    obtain ⟨worker, hworker, rfl⟩ := Option.map_eq_some_iff.1 hv
    refine ⟨worker, hworker, ?_⟩
    split
    · exact ⟨rfl, rfl, rfl, fun hc => by cases hc⟩
    · next hspared =>
        refine ⟨rfl, rfl, rfl, fun hc => ⟨hc, fun htask => ?_⟩⟩
        simpa [htask] using hspared
  constructor
  case fresh =>
    intro v hv
    exact Option.map_eq_none_iff.2 (h.fresh v hv)
  case older =>
    intro v other hv
    obtain ⟨worker, hworker, hcreated, -⟩ := hold hv
    exact hcreated ▸ h.older v worker hworker
  case pending =>
    intro v other hv hpc hcancelled
    obtain ⟨worker, hworker, -, -, hsame, hspared⟩ := hold hv
    obtain ⟨hold, hcall⟩ := hspared hcancelled
    -- A worker that has yet to begin calls nothing.
    obtain ⟨-, -, htask⟩ := h.pending v worker hworker (hsame ▸ hpc) hold
    rw [hcall htask] at hcaller
    simp [Node.mayCall, hworker, ← hsame, hpc, WorkerPc.isHandling] at hcaller
  case sound =>
    intro v other hv
    obtain ⟨worker, hworker, hcreated, hgeneration, hsame, -⟩ := hold hv
    intro q hq
    rw [hcreated, hgeneration]
    exact h.sound v worker hworker q (hsame ▸ hq)
  case queue => rintro ⟨⟩
  case stopped => exact fun _ => rfl

/-- The stop empties the pool. -/
theorem inv_clear (h : Inv s) (hrunning : s.running = false) (lifecycle : Lifecycle) :
    Inv (s.clear lifecycle) where
  fresh := h.fresh
  older := h.older
  pending v other hv hpc hcancelled := by
    have hr := (h.pending v other hv hpc hcancelled).1
    rw [hrunning] at hr
    cases hr
  sound := h.sound
  queue hr := by
    change s.running = true at hr
    rw [hrunning] at hr
    cases hr
  stopped _ := hrunning

/-- **Every step keeps the workers, and the size of the pool.** -/
theorem pool_step {l : Label} (h : Inv s) (hs : step cfg s l = some t) :
    Inv t ∧ ((s.running = true → s.pool.card = cfg.handlerConcurrency) →
      t.running = true → t.pool.card = cfg.handlerConcurrency) := by
  cases l with
  | start =>
      simp only [step] at hs
      split at hs
      · split at hs <;> cases hs
        next hrunning =>
        obtain ⟨hinv, hcard⟩ := startLocked_spec cfg h (Bool.eq_false_of_not_eq_true hrunning)
        exact ⟨hinv, fun _ _ => hcard⟩
      · cases hs
  | beginStop refresh caller =>
      simp only [step] at hs
      split at hs
      · split at hs <;> cases hs
        next hcall =>
        refine ⟨inv_beginStop h (Bool.and_eq_true_iff.1 hcall).2, ?_⟩
        rintro - ⟨⟩
      · cases hs
  | clear =>
      simp only [step] at hs
      split at hs
      · next refresh hstopping =>
          split at hs <;> cases hs
          have hrunning := h.stopped (by simp [hstopping])
          refine ⟨inv_clear h hrunning _, fun _ hr => ?_⟩
          change s.running = true at hr
          rw [hrunning] at hr
          cases hr
      · cases hs
  | restarted failed =>
      simp only [step] at hs
      split at hs
      · next hstarting =>
          have hrunning := h.stopped (by simp [hstarting])
          split at hs <;> cases hs
          · refine ⟨{ h with stopped := fun hidle => absurd rfl hidle }, fun hsize hr => ?_⟩
            exact hsize hr
          · obtain ⟨hinv, hcard⟩ := startLocked_spec cfg h hrunning
            exact ⟨hinv, fun _ _ => hcard⟩
      · cases hs
  | put q =>
      cases hs
      exact ⟨⟨h.fresh, h.older, h.pending, h.sound, h.queue, h.stopped⟩, fun hsize => hsize⟩
  | worker w l =>
      obtain ⟨worker, hw, hs⟩ := Option.bind_eq_some_iff.1 hs
      by_cases hl : l = .handlerFinished
      · subst hl
        simp only [workerStep] at hs
        split at hs
        · next hpc =>
            cases hs
            obtain ⟨hinv, hcard⟩ := handlerFinished_spec h hw hpc
            refine ⟨hinv, fun hsize hr => ?_⟩
            rw [handlerFinished_running] at hr
            rw [hcard hr, hsize hr]
        · cases hs
      · obtain ⟨items, worker', rfl, hcreated, hpc, hremoved', hremoved, hsound⟩ :=
          workerStep_spec h hw hl hs
        refine ⟨h.setWorker hw hcreated hpc hsound items, fun hsize hr => ?_⟩
        rw [pool_setWorker h hw hcreated hpc hsound hremoved hremoved' items]
        exact hsize hr

/-! ### Which workers are started -/

/-- A started worker is of this generation. -/
theorem startDispatchWorkers_new {n : ℕ} (hw : s.workers w = none)
    (ht : (s.startDispatchWorkers n).workers w = some worker) :
    worker.created = s.generation := by
  induction n with
  | zero =>
      rw [show s.startDispatchWorkers 0 = s from rfl, hw] at ht
      cases ht
  | succ n ih =>
      obtain ⟨-, rfl⟩ | ⟨-, ht⟩ := workers_startDispatchWorker ht
      · exact startDispatchWorkers_generation s n
      · exact ih ht

/-- So is one that a start has started, and the node runs then. -/
theorem startLocked_new (hw : s.workers w = none)
    (ht : (s.startLocked cfg).workers w = some worker) :
    (s.startLocked cfg).running = true ∧ worker.created = (s.startLocked cfg).generation := by
  unfold Node.startLocked at ht ⊢
  generalize hu : ({ s with
    running := true
    generation := s.generation + 1
    lifecycle := .idle
    inboundQueue := some (s.generation + 1)
    items := Function.update s.items (s.generation + 1) 0 } : Node) = u at ht ⊢
  have hrunning : u.running = true := by rw [← hu]
  have hnone : u.workers w = none := by
    rw [← hu]
    exact hw
  have hcreated := startDispatchWorkers_new hnone ht
  exact ⟨(startDispatchWorkers_running u _).trans hrunning,
    hcreated.trans (startDispatchWorkers_generation u _).symm⟩

/-- A worker is started with the node, or in the place of one of this generation. -/
theorem started_of_step {l : Label} (h : Inv s) (hs : step cfg s l = some t)
    (hw : s.workers w = none) (ht : t.workers w = some worker) :
    t.running = true ∧ worker.created = t.generation ∧
      (Starts l ∨ s.running = true ∧ ∃ v old, l = .worker v .handlerFinished ∧
        s.workers v = some old ∧ old.created = s.generation) := by
  cases l with
  | start =>
      simp only [step] at hs
      split at hs
      · split at hs <;> cases hs
        obtain ⟨hr, hcreated⟩ := startLocked_new hw ht
        exact ⟨hr, hcreated, Or.inl .start⟩
      · cases hs
  | beginStop refresh caller =>
      simp only [step] at hs
      split at hs
      · split at hs <;> cases hs
        obtain ⟨old, hold, -⟩ := Option.map_eq_some_iff.1 ht
        rw [hw] at hold
        cases hold
      · cases hs
  | clear =>
      simp only [step] at hs
      split at hs
      · split at hs <;> cases hs
        cases hw.symm.trans ht
      · cases hs
  | restarted failed =>
      simp only [step] at hs
      split at hs
      · split at hs
        · cases hs
          cases hw.symm.trans ht
        · next hfailed =>
            cases hs
            obtain ⟨hr, hcreated⟩ := startLocked_new hw ht
            cases failed with
            | false => exact ⟨hr, hcreated, Or.inl .restarted⟩
            | true => exact absurd rfl hfailed
      · cases hs
  | put q =>
      cases hs
      cases hw.symm.trans ht
  | worker v l =>
      obtain ⟨old, hold, hs⟩ := Option.bind_eq_some_iff.1 hs
      have hne : w ≠ v := by
        rintro rfl
        cases hw.symm.trans hold
      by_cases hl : l = .handlerFinished
      · subst hl
        simp only [workerStep] at hs
        split at hs
        · cases hs
          unfold Node.handlerFinished at ht ⊢
          dsimp only at ht ⊢
          split
          · next hreplaced =>
              rw [if_pos hreplaced] at ht
              obtain ⟨hr, hcreated⟩ := hreplaced
              refine ⟨hr, ?_, Or.inr ⟨hr, v, old, rfl, hold, hcreated⟩⟩
              obtain ⟨-, rfl⟩ | ⟨-, ht⟩ := workers_startDispatchWorker ht
              · rfl
              · obtain ⟨rfl, -⟩ | ⟨-, ht⟩ := workers_setWorker ht
                · exact absurd rfl hne
                · cases hw.symm.trans ht
          · next hkept =>
              rw [if_neg hkept] at ht
              obtain ⟨rfl, -⟩ | ⟨-, ht⟩ := workers_setWorker ht
              · exact absurd rfl hne
              · cases hw.symm.trans ht
        · cases hs
      · obtain ⟨items, worker', rfl, -⟩ := workerStep_spec h hold hl hs
        obtain ⟨rfl, -⟩ | ⟨-, ht⟩ := workers_setWorker ht
        · exact absurd rfl hne
        · cases hw.symm.trans ht

/-! ## The law holds -/

/-- **The invariant in every run**, with the size of the pool. -/
theorem inv_of_reachable (hs : Reachable (system cfg) s) :
    Inv s ∧ (s.running = true → s.pool.card = cfg.handlerConcurrency) := by
  refine hs.invariant
    (I := fun s => Inv s ∧ (s.running = true → s.pool.card = cfg.handlerConcurrency)) ?_ ?_
  · intro s hs
    cases hs
    exact ⟨inv_initial, fun hr => by cases hr⟩
  · intro s l t hinv hs
    obtain ⟨ht, hsize⟩ := pool_step hinv.1 hs
    exact ⟨ht, hsize hinv.2⟩

/-- A stopped node starts no worker, and stays stopped until `start()`. -/
theorem stopped_step {l : Label} (h : Inv s) (hstopped : s.Stopped) (hl : l ≠ .start)
    (hs : step cfg s l = some t) :
    t.Stopped ∧ ∀ w, s.workers w = none → t.workers w = none := by
  have hrestarted : ∀ failed, step cfg s (.restarted failed) = none := by
    intro failed
    simp only [step]
    obtain hidle | hstopping := hstopped.lifecycle
    · rw [hidle]
    · rw [hstopping]
  have hnone : ∀ w, s.workers w = none → t.workers w = none := by
    intro w hw
    cases ht : t.workers w with
    | none => rfl
    | some worker =>
        obtain ⟨-, -, hstarts | ⟨hr, -⟩⟩ := started_of_step h hs hw ht
        · cases hstarts with
          | start => exact absurd rfl hl
          | restarted => cases (hrestarted false).symm.trans hs
        · rw [hstopped.running] at hr
          cases hr
  refine ⟨?_, hnone⟩
  cases l with
  | start => exact absurd rfl hl
  | beginStop refresh caller =>
      simp only [step] at hs
      split at hs
      · split at hs <;> cases hs
        next hcall =>
        have hr := (Bool.and_eq_true_iff.1 hcall).1
        rw [hstopped.running] at hr
        cases hr
      · cases hs
  | clear =>
      simp only [step] at hs
      split at hs
      · next refresh hstopping =>
          split at hs <;> cases hs
          refine ⟨hstopped.running, Or.inl ?_⟩
          cases refresh with
          | false => rfl
          | true =>
              have hlifecycle := hstopped.lifecycle
              rw [hstopping] at hlifecycle
              obtain ⟨⟨⟩⟩ | ⟨⟨⟩⟩ := hlifecycle
      · cases hs
  | restarted failed => cases (hrestarted failed).symm.trans hs
  | put q =>
      cases hs
      exact ⟨hstopped.running, hstopped.lifecycle⟩
  | worker w l =>
      obtain ⟨worker, hw, hs⟩ := Option.bind_eq_some_iff.1 hs
      by_cases hfinished : l = .handlerFinished
      · subst hfinished
        simp only [workerStep] at hs
        split at hs
        · cases hs
          refine ⟨handlerFinished_running.trans hstopped.running, ?_⟩
          rw [handlerFinished_lifecycle]
          exact hstopped.lifecycle
        · cases hs
      · obtain ⟨items, worker', rfl, -⟩ := workerStep_spec h hw hfinished hs
        exact ⟨hstopped.running, hstopped.lifecycle⟩

/-- After the beginning of a stop the node is stopped. -/
theorem stopped_of_beginStop {caller : Option ℕ}
    (hs : step cfg s (.beginStop false caller) = some t) : t.Stopped := by
  simp only [step] at hs
  split at hs
  · split at hs <;> cases hs
    exact ⟨rfl, Or.inr rfl⟩
  · cases hs

/-- **The handler pool keeps its size.** In every run, while the node runs, the workers of
its generation that are live, or whose callback has not run, are `handler_concurrency` many;
a worker takes items of the queue of its own generation only, and is replaced only in that
generation.  From `stop()` on no worker is started before the next `start()`. -/
theorem handler_pool_keeps_size (cfg : Config) :
    (∀ s, Reachable (system cfg) s → KeepsPool cfg s) ∧
    (∀ s t caller, step cfg s (.beginStop false caller) = some t → t.Stopped) ∧
    ∀ s t, Reachable (system cfg) s → s.Stopped →
      ReachableWhen ((system cfg).startingAt s) (fun _ l => l ≠ .start) t →
      t.Stopped ∧ ∀ w, s.workers w = none → t.workers w = none := by
  refine ⟨fun s hs => ?_, fun s t caller hs => stopped_of_beginStop hs,
    fun s t hs hstopped ht => ?_⟩
  · obtain ⟨hinv, hsize⟩ := inv_of_reachable hs
    exact {
      size := hsize
      own := fun w worker q hw hq => (hinv.sound w worker hw q hq).1
      started := fun l t w worker hstep hw ht => started_of_step hinv hstep hw ht }
  · have hrun : Inv t ∧ t.Stopped ∧ ∀ w, s.workers w = none → t.workers w = none := by
      refine ht.invariant (I := fun t => Inv t ∧ t.Stopped ∧
        ∀ w, s.workers w = none → t.workers w = none) ?_ ?_
      · rintro u rfl
        exact ⟨(inv_of_reachable hs).1, hstopped, fun _ hw => hw⟩
      · intro u l v hu hl hstep
        obtain ⟨hv, hnone⟩ := stopped_step hu.1 hu.2.1 hl hstep
        exact ⟨(pool_step hu.1 hstep).1, hv, fun w hw => hnone w (hu.2.2 w hw)⟩
    exact hrun.2

end HandlerPool
end Core
end Paqto
