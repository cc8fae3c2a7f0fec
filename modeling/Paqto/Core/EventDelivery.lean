/-
# What becomes of the events of a node

An event that the queue took waits in its order for the one worker of its
lifecycle, which calls every listener of the event once, whatever they raise
short of a cancellation (`events_delivered`).  After `stop()`, and after a
listener has let a cancellation through, nothing more of the lifecycle is
dispatched (`nothing_more_taken`); in between the queue can always be drained
(`events_drained`).
-/

import Paqto.Core.NodeEvents
import Mathlib.Data.List.Infix

namespace Paqto
namespace Core
namespace Events

open Transition

variable {D : Type} {cfg : Config} {s t : Node D} {g : ℕ}

/-! ## One dispatch -/

/-- The listeners are those that were registered for the event when the dispatch began, in
order, and they are called from the first on. -/
structure Delivery.Fits (handlers : Option NodeEventType → List ℕ) (d : Delivery D) : Prop where
  listeners : d.listeners = d.registered (some d.event.type) ++ d.registered none
  registered : ∀ type, d.registered type <+: handlers type
  called : d.called <+: d.listeners
  failed : d.failed.Sublist d.called

/-- A dispatch that has more listeners to call. -/
structure Delivery.Going (handlers : Option NodeEventType → List ℕ) (d : Delivery D)
    (left : List ℕ) : Prop where
  listeners : d.listeners = d.registered (some d.event.type) ++ d.registered none
  registered : ∀ type, d.registered type <+: handlers type
  called : d.called ++ left = d.listeners
  failed : d.failed.Sublist d.called.dropLast

variable {handlers : Option NodeEventType → List ℕ} {d : Delivery D} {left : List ℕ}

/-- A dispatch that goes on has called the first of its listeners. -/
theorem Delivery.Going.fits (h : d.Going handlers left) : d.Fits handlers :=
  ⟨h.listeners, h.registered, ⟨left, h.called⟩, h.failed.trans (List.dropLast_sublist _)⟩

/-- The listener that was called last has failed. -/
theorem Delivery.Going.fails (h : d.Going handlers left) :
    { d with failed := d.failed ++ d.called.getLast?.toList }.Fits handlers := by
  refine ⟨h.listeners, h.registered, ⟨left, h.called⟩, ?_⟩
  change (d.failed ++ d.called.getLast?.toList).Sublist d.called
  cases hcalled : d.called.getLast? with
  | none =>
      rw [Option.toList_none, List.append_nil]
      exact h.failed.trans (List.dropLast_sublist _)
  | some listener =>
      rw [Option.toList_some]
      conv_rhs => rw [← List.dropLast_append_getLast? listener hcalled]
      exact h.failed.append (List.Sublist.refl _)

/-- The next listener is called. -/
theorem Delivery.Fits.call {listener : ℕ} (h : d.Fits handlers)
    (hcalled : d.called ++ listener :: left = d.listeners) :
    { d with called := d.called ++ [listener] }.Going handlers left := by
  refine ⟨h.listeners, h.registered, by simpa using hcalled, ?_⟩
  change d.failed.Sublist (d.called ++ [listener]).dropLast
  rw [List.dropLast_concat]
  exact h.failed

/-- A listener is registered after the dispatch began. -/
theorem Delivery.Fits.mono {handlers' : Option NodeEventType → List ℕ} (h : d.Fits handlers)
    (hmore : ∀ type, handlers type <+: handlers' type) : d.Fits handlers' :=
  { h with registered := fun type => (h.registered type).trans (hmore type) }

/-- Later registrations do not change a dispatch. -/
theorem Delivery.Going.mono {handlers' : Option NodeEventType → List ℕ}
    (h : d.Going handlers left) (hmore : ∀ type, handlers type <+: handlers' type) :
    d.Going handlers' left :=
  { h with registered := fun type => (h.registered type).trans (hmore type) }

/-! ## The invariant -/

/-- The dispatches of a lifecycle: all but the last called every listener, and so did the
last unless it has ended the worker. -/
structure Node.Dispatches (s : Node D) (g : ℕ) : Prop where
  fits : ∀ d ∈ s.deliveries g, d.Fits s.handlers
  going : ∀ d left, s.workers g = .dispatching d left → d.Going s.handlers left
  complete : ∀ d ∈ (s.deliveries g).dropLast, d.called = d.listeners
  alive : s.workers g ≠ .ended → ∀ d ∈ s.deliveries g, d.called = d.listeners

/-- The queue and the worker of a lifecycle. -/
structure Node.Queues (cfg : Config) (s : Node D) (g : ℕ) : Prop where
  fresh : s.generation < g → s.workers g = .absent ∧ s.accepted g = [] ∧ s.deliveries g = []
  inOrder : s.taken g <+: s.accepted g
  /-- A worker that waits is that of the running lifecycle, or is cancelled. -/
  waiting : s.workers g = .waiting ∨ s.workers g = .created →
    g = s.generation ∧ s.queue ≠ none ∧
      (s.running = true ∨ s.cancelled g = true ∧ s.stopping = some false)

/-- **What holds in every run**, of the events in flight and of the workers. -/
structure Inv (cfg : Config) (s : Node D) : Prop where
  dispatches : ∀ g, s.Dispatches g
  queues : ∀ g, s.Queues cfg g
  queue : ∀ q, s.queue = some q →
    s.accepted s.generation = s.taken s.generation ++ q ∧ q.length ≤ cfg.maxEventQueue
  /-- There is a queue from the start to the end of a stop. -/
  present : s.queue = none ↔ s.running = false ∧ s.stopping = none
  stops : s.running = true → s.stopping = none

/-- Nothing is in flight. -/
theorem inv_initial : Inv cfg (initial : Node D) where
  dispatches _ := ⟨by simp [initial], by simp [initial], by simp [initial], by simp [initial]⟩
  queues _ := ⟨fun _ => ⟨rfl, rfl, rfl⟩, List.prefix_refl _, by simp [initial]⟩
  queue _ h := by cases h
  present := by simp [initial]
  stops h := by cases h

/-! ## What a lifecycle has taken -/

/-- What a worker has taken is read from its deliveries and where it stands. -/
theorem taken_of_eq (hdeliveries : t.deliveries g = s.deliveries g)
    (hworkers : t.workers g = s.workers g) : t.taken g = s.taken g := by
  rw [Node.taken, Node.taken, hdeliveries, hworkers]

/-- A worker that is in no dispatch has taken the events it has dispatched. -/
theorem taken_setWorker (s : Node D) (g : ℕ) {pc : WorkerPc D}
    (hpc : ∀ d left, pc ≠ .dispatching d left) :
    (s.setWorker g pc).taken g = (s.deliveries g).map (·.event) := by
  have hself : (s.setWorker g pc).workers g = pc := Function.update_self ..
  rw [Node.taken, hself]
  cases pc with
  | dispatching d left => exact absurd rfl (hpc d left)
  | _ => exact List.append_nil _

/-- At the head of its loop a worker ends, or waits for the next event of its lifecycle. -/
theorem loopHead_cases (s : Node D) (g : ℕ) :
    s.loopHead g = s.setWorker g .ended ∨
      (s.loopHead g = s.setWorker g .waiting ∧ s.running = true ∧ s.generation = g ∧
        s.queue ≠ none) := by
  unfold Node.loopHead
  split
  · rename_i hrunning
    rw [Bool.and_eq_true, decide_eq_true_eq] at hrunning
    split
    · exact .inl rfl
    · rename_i queue hqueue
      exact .inr ⟨rfl, hrunning.1, hrunning.2, by simp [hqueue]⟩
  · exact .inl rfl

/-! ## A step of a worker -/

/-- Only the worker of the lifecycle `g` and the queue have changed. -/
structure WorkerStep (g : ℕ) (s t : Node D) : Prop where
  running : t.running = s.running
  generation : t.generation = s.generation
  handlers : t.handlers = s.handlers
  cancelled : t.cancelled = s.cancelled
  stopping : t.stopping = s.stopping
  accepted : t.accepted = s.accepted
  workers : ∀ i, i ≠ g → t.workers i = s.workers i
  deliveries : ∀ i, i ≠ g → t.deliveries i = s.deliveries i

/-- The queue stays and the events taken with it, or the next event is taken. -/
def TakesNext (g : ℕ) (s t : Node D) : Prop :=
  (t.queue = s.queue ∧ t.taken g = s.taken g) ∨
    ∃ event rest, g = s.generation ∧ s.queue = some (event :: rest) ∧ t.queue = some rest ∧
      t.taken g = s.taken g ++ [event]

/-- **A step of a worker keeps the invariant**, when it takes what comes next and dispatches it to
its listeners, and waits only while its lifecycle lasts. -/
theorem Inv.workerStep (h : Inv cfg s) (hstep : WorkerStep g s t) (htakes : TakesNext g s t)
    (hdispatches : t.Dispatches g) (hg : s.workers g ≠ .absent)
    (hwaiting : t.workers g = .waiting ∨ t.workers g = .created →
      g = s.generation ∧ s.queue ≠ none ∧
        (s.running = true ∨ s.cancelled g = true ∧ s.stopping = some false)) :
    Inv cfg t := by
  have hother : ∀ i, i ≠ g → t.taken i = s.taken i := fun i hi =>
    taken_of_eq (hstep.deliveries i hi) (hstep.workers i hi)
  have hnone : t.queue = none ↔ s.queue = none := by
    rcases htakes with ⟨hqueue, _⟩ | ⟨event, rest, _, hqueue, hrest, _⟩
    · rw [hqueue]
    · simp [hqueue, hrest]
  refine ⟨fun i => ?_, fun i => ?_, fun q hq => ?_, ?_, fun hrunning => ?_⟩
  · by_cases hi : i = g
    · exact hi ▸ hdispatches
    · obtain ⟨hfits, hgoing, hcomplete, halive⟩ := h.dispatches i
      constructor
      · rwa [hstep.deliveries i hi, hstep.handlers]
      · rwa [hstep.workers i hi, hstep.handlers]
      · rwa [hstep.deliveries i hi]
      · rwa [hstep.deliveries i hi, hstep.workers i hi]
  · by_cases hi : i = g
    · subst hi
      refine ⟨fun hlt => ?_, ?_, fun hw => ?_⟩
      · exact absurd ((h.queues i).fresh (hstep.generation ▸ hlt)).1 hg
      · rw [hstep.accepted]
        rcases htakes with ⟨_, htaken⟩ | ⟨event, rest, rfl, hqueue, _, htaken⟩
        · rw [htaken]
          exact (h.queues i).inOrder
        · rw [htaken, (h.queue _ hqueue).1]
          exact (List.prefix_append_right_inj _).2 ⟨rest, rfl⟩
      · rw [hstep.generation, hstep.running, hstep.cancelled, hstep.stopping, ne_eq, hnone]
        exact hwaiting hw
    · refine ⟨fun hlt => ?_, ?_, fun hw => ?_⟩
      · rw [hstep.workers i hi, hstep.accepted, hstep.deliveries i hi]
        exact (h.queues i).fresh (hstep.generation ▸ hlt)
      · rw [hstep.accepted, hother i hi]
        exact (h.queues i).inOrder
      · rw [hstep.workers i hi] at hw
        rw [hstep.generation, hstep.running, hstep.cancelled, hstep.stopping, ne_eq, hnone]
        exact (h.queues i).waiting hw
  · rw [hstep.accepted, hstep.generation]
    rcases htakes with ⟨hqueue, htaken⟩ | ⟨event, rest, rfl, hqueue, hrest, htaken⟩
    · have hgen : t.taken s.generation = s.taken s.generation := by
        by_cases hi : s.generation = g
        · rw [hi, htaken]
        · exact hother _ hi
      rw [hgen]
      exact h.queue q (hqueue ▸ hq)
    · obtain rfl := Option.some.inj (hrest.symm.trans hq)
      obtain ⟨hall, hlength⟩ := h.queue _ hqueue
      rw [htaken, hall, List.append_assoc, List.singleton_append]
      rw [List.length_cons] at hlength
      exact ⟨rfl, by omega⟩
  · rw [hnone, hstep.running, hstep.stopping]
    exact h.present
  · rw [hstep.stopping]
    exact h.stops (hstep.running ▸ hrunning)

/-- A worker that only moves does nothing else. -/
theorem workerStep_setWorker (s : Node D) (g : ℕ) (pc : WorkerPc D) :
    WorkerStep g s (s.setWorker g pc) :=
  ⟨rfl, rfl, rfl, rfl, rfl, rfl, fun _ hi => Function.update_of_ne hi .., fun _ _ => rfl⟩

/-- Nor does one that ends a dispatch. -/
theorem workerStep_record (s : Node D) (g : ℕ) (d : Delivery D) : WorkerStep g s (s.record g d) :=
  ⟨rfl, rfl, rfl, rfl, rfl, rfl, fun _ _ => rfl, fun _ hi => Function.update_of_ne hi ..⟩

/-- Two moves of one worker are a step of it. -/
theorem WorkerStep.trans {u : Node D} (h : WorkerStep g s t) (h' : WorkerStep g t u) :
    WorkerStep g s u where
  running := h'.running.trans h.running
  generation := h'.generation.trans h.generation
  handlers := h'.handlers.trans h.handlers
  cancelled := h'.cancelled.trans h.cancelled
  stopping := h'.stopping.trans h.stopping
  accepted := h'.accepted.trans h.accepted
  workers i hi := (h'.workers i hi).trans (h.workers i hi)
  deliveries i hi := (h'.deliveries i hi).trans (h.deliveries i hi)

/-- What the head of the loop leaves of the worker. -/
structure AtHead (g : ℕ) (s t : Node D) : Prop extends WorkerStep g s t where
  queue : t.queue = s.queue
  recorded : t.deliveries g = s.deliveries g
  worker : t.workers g = .ended ∨ (t.workers g = .waiting ∧ s.running = true ∧
    s.generation = g ∧ s.queue ≠ none)

/-- The head of the loop, from any place. -/
theorem atHead_loopHead (s : Node D) (g : ℕ) : AtHead g s (s.loopHead g) := by
  rcases loopHead_cases s g with heq | ⟨heq, hrunning, hgeneration, hqueue⟩
  · rw [heq]
    exact ⟨workerStep_setWorker .., rfl, rfl, .inl (Function.update_self ..)⟩
  · rw [heq]
    exact ⟨workerStep_setWorker .., rfl, rfl,
      .inr ⟨Function.update_self .., hrunning, hgeneration, hqueue⟩⟩

/-- At the head of its loop a worker has taken what it has dispatched. -/
theorem AtHead.taken (h : AtHead g s t) : t.taken g = (s.deliveries g).map (·.event) := by
  rw [Node.taken, h.recorded]
  rcases h.worker with hended | ⟨hwaiting, -⟩
  · rw [hended, List.append_nil]
  · rw [hwaiting, List.append_nil]

/-- It has dispatched each of them to all its listeners. -/
theorem AtHead.dispatches (h : AtHead g s t) (hfits : ∀ d ∈ s.deliveries g, d.Fits s.handlers)
    (hcomplete : ∀ d ∈ s.deliveries g, d.called = d.listeners) : t.Dispatches g := by
  refine ⟨?_, fun d left hpc => ?_, fun d hd => ?_, fun _ => ?_⟩
  · rwa [h.recorded, h.handlers]
  · rcases h.worker with hended | ⟨hwaiting, -⟩
    · rw [hended] at hpc
      cases hpc
    · rw [hwaiting] at hpc
      cases hpc
  · rw [h.recorded] at hd
    exact hcomplete d ((List.dropLast_sublist _).subset hd)
  · rwa [h.recorded]

/-- It waits only while there is a queue, and the node runs or its `stop()` is about to cancel it.
-/
theorem AtHead.waiting (h : AtHead g s t) (hw : t.workers g = .waiting ∨ t.workers g = .created) :
    g = s.generation ∧ s.queue ≠ none ∧
      (s.running = true ∨ s.cancelled g = true ∧ s.stopping = some false) := by
  rcases h.worker with hended | ⟨-, hrunning, hgeneration, hqueue⟩
  · rw [hended] at hw
    rcases hw with hw | hw <;> cases hw
  · exact ⟨hgeneration.symm, hqueue, .inl hrunning⟩

/-- **The loop of a dispatch**, with the listeners that are left. -/
theorem runListeners_spec {d : Delivery D} {left : List ℕ}
    (hfits : ∀ d ∈ s.deliveries g, d.Fits s.handlers)
    (hcomplete : ∀ d ∈ s.deliveries g, d.called = d.listeners) (hd : d.Fits s.handlers)
    (hcalled : d.called ++ left = d.listeners) :
    WorkerStep g s (s.runListeners g d left) ∧ (s.runListeners g d left).queue = s.queue ∧
      (s.runListeners g d left).taken g = (s.deliveries g).map (·.event) ++ [d.event] ∧
      (s.runListeners g d left).Dispatches g ∧
      ((s.runListeners g d left).workers g = .waiting ∨
        (s.runListeners g d left).workers g = .created →
        g = s.generation ∧ s.queue ≠ none ∧
          (s.running = true ∨ s.cancelled g = true ∧ s.stopping = some false)) := by
  cases left with
  | nil =>
      have hhead := atHead_loopHead (s.record g d) g
      have hrecorded : (s.record g d).deliveries g = s.deliveries g ++ [d] :=
        Function.update_self ..
      have hall : ∀ d' ∈ (s.record g d).deliveries g,
          d'.Fits (s.record g d).handlers ∧ d'.called = d'.listeners := by
        intro d' hd'
        rw [hrecorded, List.mem_append, List.mem_singleton] at hd'
        rcases hd' with hold | rfl
        · exact ⟨hfits d' hold, hcomplete d' hold⟩
        · exact ⟨hd, by rw [← hcalled, List.append_nil]⟩
      refine ⟨(workerStep_record s g d).trans hhead.toWorkerStep, hhead.queue, ?_,
        hhead.dispatches (fun d' hd' => (hall d' hd').1) fun d' hd' => (hall d' hd').2,
        hhead.waiting⟩
      change ((s.record g d).loopHead g).taken g = _
      rw [hhead.taken, hrecorded, List.map_append, List.map_singleton]
  | cons listener left =>
      have hpc : (s.runListeners g d (listener :: left)).workers g =
          .dispatching { d with called := d.called ++ [listener] } left := Function.update_self ..
      refine ⟨workerStep_setWorker .., rfl, ?_, ⟨hfits, fun d' left' hd' => ?_, fun d' hd' => ?_,
        fun _ => hcomplete⟩, fun hw => ?_⟩
      · rw [Node.taken, hpc]
        rfl
      · rw [hpc] at hd'
        cases hd'
        exact hd.call hcalled
      · exact hcomplete d' ((List.dropLast_sublist _).subset hd')
      · rw [hpc] at hw
        rcases hw with hw | hw <;> cases hw

/-- The event of the dispatch that is going on has been taken. -/
theorem taken_of_dispatching {d : Delivery D} {left : List ℕ}
    (h : s.workers g = .dispatching d left) :
    s.taken g = (s.deliveries g).map (·.event) ++ [d.event] := by
  rw [Node.taken, h]

/-- **A listener is done**, and the dispatch goes on. -/
theorem listener_spec (h : s.Dispatches g) {d d' : Delivery D} {left : List ℕ}
    (hpc : s.workers g = .dispatching d left) (hd' : d'.Fits s.handlers)
    (hsame : d'.event = d.event ∧ d'.called = d.called ∧ d'.listeners = d.listeners) :
    WorkerStep g s (s.runListeners g d' left) ∧ (s.runListeners g d' left).queue = s.queue ∧
      (s.runListeners g d' left).taken g = s.taken g ∧ (s.runListeners g d' left).Dispatches g ∧
      ((s.runListeners g d' left).workers g = .waiting ∨
        (s.runListeners g d' left).workers g = .created →
        g = s.generation ∧ s.queue ≠ none ∧
          (s.running = true ∨ s.cancelled g = true ∧ s.stopping = some false)) := by
  have hcalled : d'.called ++ left = d'.listeners := by
    rw [hsame.2.1, hsame.2.2]
    exact (h.going d left hpc).called
  obtain ⟨hstep, hqueue, htaken, hruns, hwaiting⟩ :=
    runListeners_spec h.fits (h.alive (by simp [hpc])) hd' hcalled
  refine ⟨hstep, hqueue, ?_, hruns, hwaiting⟩
  rw [htaken, taken_of_dispatching hpc, hsame.1]

/-- **An event is taken**, and its dispatch begins. -/
theorem take_spec (h : s.Dispatches g) (hpc : s.workers g = .waiting) (event : NodeEvent D)
    (rest : List (NodeEvent D)) :
    WorkerStep g s (s.take g event rest) ∧ (s.take g event rest).queue = some rest ∧
      (s.take g event rest).taken g = s.taken g ++ [event] ∧
      (s.take g event rest).Dispatches g := by
  have hfits : Delivery.Fits s.handlers
      { event, registered := s.handlers, listeners := s.matching event, called := [], failed := [] } :=
    ⟨rfl, fun _ => List.prefix_refl _, List.nil_prefix, List.Sublist.refl _⟩
  have hnone : ([] : List ℕ) ++ s.matching event = s.matching event := rfl
  obtain ⟨hstep, hrest, htaken, hruns, -⟩ :=
    runListeners_spec (s := { s with queue := some rest }) (g := g) h.fits
      (h.alive (by simp [hpc])) hfits hnone
  have htook : s.taken g = (s.deliveries g).map (·.event) := by
    rw [Node.taken, hpc, List.append_nil]
  refine ⟨⟨hstep.running, hstep.generation, hstep.handlers, hstep.cancelled, hstep.stopping,
    hstep.accepted, hstep.workers, hstep.deliveries⟩, hrest, ?_, hruns⟩
  rw [htook]
  exact htaken

/-- A listener returns, and the next one is called. -/
theorem Inv.listener (h : Inv cfg s) {d d' : Delivery D} {left : List ℕ}
    (hpc : s.workers g = .dispatching d left) (hd' : d'.Fits s.handlers)
    (hsame : d'.event = d.event ∧ d'.called = d.called ∧ d'.listeners = d.listeners) :
    Inv cfg (s.runListeners g d' left) := by
  obtain ⟨hstep, hqueue, htaken, hruns, hwaiting⟩ := listener_spec (h.dispatches g) hpc hd' hsame
  exact h.workerStep hstep (.inl ⟨hqueue, htaken⟩) hruns (by simp [hpc]) hwaiting

/-- The worker takes the first event of the queue. -/
theorem Inv.take (h : Inv cfg s) {event : NodeEvent D} {rest : List (NodeEvent D)}
    (hpc : s.workers g = .waiting) (hqueue : s.queue = some (event :: rest)) :
    Inv cfg (s.take g event rest) := by
  obtain ⟨hgeneration, hpresent, hwaits⟩ := (h.queues g).waiting (.inl hpc)
  obtain ⟨hstep, hrest, htaken, hruns⟩ := take_spec (h.dispatches g) hpc event rest
  exact h.workerStep hstep (.inr ⟨event, rest, hgeneration, hqueue, hrest, htaken⟩) hruns
    (by simp [hpc]) fun _ => ⟨hgeneration, hpresent, hwaits⟩

/-! ## Runs -/

/-- `start()` makes a queue and a worker. -/
theorem Inv.start (h : Inv cfg s) (hrunning : s.running = false) (hstopping : s.stopping = none) :
    Inv cfg s.start := by
  have hqueue : s.queue = none := h.present.2 ⟨hrunning, hstopping⟩
  obtain ⟨-, haccepted, hdeliveries⟩ := (h.queues (s.generation + 1)).fresh (Nat.lt_succ_self _)
  have hworker : s.start.workers (s.generation + 1) = .created := Function.update_self ..
  have hother : ∀ i, i ≠ s.generation + 1 → s.start.workers i = s.workers i := fun i hi =>
    Function.update_of_ne hi ..
  have hnew : s.start.taken (s.generation + 1) = [] := by
    rw [Node.taken, hworker]
    change (s.deliveries (s.generation + 1)).map _ ++ [] = []
    rw [hdeliveries]
    rfl
  refine ⟨fun i => ?_, fun i => ?_, fun q hq => ?_, ?_, fun _ => hstopping⟩
  · obtain ⟨hfits, hgoing, hcomplete, halive⟩ := h.dispatches i
    by_cases hi : i = s.generation + 1
    · subst hi
      refine ⟨hfits, fun d left hpc => ?_, hcomplete, fun _ d hd => ?_⟩
      · rw [hworker] at hpc
        cases hpc
      · change d ∈ s.deliveries (s.generation + 1) at hd
        rw [hdeliveries] at hd
        cases hd
    · refine ⟨hfits, ?_, hcomplete, ?_⟩
      · rwa [hother i hi]
      · rwa [hother i hi]
  · by_cases hi : i = s.generation + 1
    · subst hi
      refine ⟨fun hlt => absurd hlt (lt_irrefl _), ?_, fun _ => ⟨rfl, by simp [Node.start, Node.setWorker],
        .inl rfl⟩⟩
      rw [hnew]
      exact List.nil_prefix
    · refine ⟨fun hlt => ?_, ?_, fun hw => ?_⟩
      · rw [hother i hi]
        exact (h.queues i).fresh (Nat.lt_of_succ_lt hlt)
      · rw [taken_of_eq (s := s) (t := s.start) rfl (hother i hi)]
        exact (h.queues i).inOrder
      · rw [hother i hi] at hw
        exact absurd hqueue ((h.queues i).waiting hw).2.1
  · obtain rfl : [] = q := Option.some.inj hq
    change s.accepted (s.generation + 1) = s.start.taken (s.generation + 1) ++ [] ∧ _
    rw [haccepted, hnew]
    exact ⟨rfl, Nat.zero_le _⟩
  · change some ([] : List (NodeEvent D)) = none ↔ true = false ∧ s.stopping = none
    simp

/-- `stop()` cancels the worker, unless one of its listeners has called it. -/
theorem Inv.stop (h : Inv cfg s) (byListener : Bool) (hrunning : s.running = true)
    (hcaller : byListener = true → s.isDispatching s.generation = true) :
    Inv cfg (s.stop byListener) := by
  refine ⟨fun i => ⟨(h.dispatches i).fits, (h.dispatches i).going, (h.dispatches i).complete,
    (h.dispatches i).alive⟩, fun i => ⟨(h.queues i).fresh, (h.queues i).inOrder, fun hw => ?_⟩,
    h.queue, ?_, fun hfalse => by cases hfalse⟩
  · obtain ⟨rfl, hqueue, -⟩ := (h.queues i).waiting hw
    refine ⟨rfl, hqueue, .inr ?_⟩
    cases byListener with
    | false => exact ⟨Function.update_self .., rfl⟩
    | true =>
        have hdispatching := hcaller rfl
        have hworker : s.workers s.generation = .waiting ∨ s.workers s.generation = .created := hw
        unfold Node.isDispatching at hdispatching
        rcases hworker with hw | hw
        · rw [hw] at hdispatching
          cases hdispatching
        · rw [hw] at hdispatching
          cases hdispatching
  · have hpresent : s.queue ≠ none := fun hnone => by
      have hfalse := (h.present.1 hnone).1
      rw [hrunning] at hfalse
      cases hfalse
    change s.queue = none ↔ false = false ∧ some byListener = none
    simp [hpresent]

/-- The worker has ended, and `stop()` drops the queue. -/
theorem Inv.discardQueue (h : Inv cfg s) {byListener : Bool} (hstopping : s.stopping = some byListener)
    (hgathered : s.gathered byListener = true) :
    Inv cfg { s with queue := none, stopping := none } := by
  have hrunning : s.running = false := by
    by_contra hrunning
    rw [h.stops (Bool.eq_true_of_not_eq_false hrunning)] at hstopping
    cases hstopping
  refine ⟨fun i => ⟨(h.dispatches i).fits, (h.dispatches i).going, (h.dispatches i).complete,
    (h.dispatches i).alive⟩, fun i => ⟨(h.queues i).fresh, (h.queues i).inOrder, fun hw => ?_⟩,
    fun q hq => (by cases hq), ⟨fun _ => ⟨hrunning, rfl⟩, fun _ => rfl⟩, fun _ => rfl⟩
  -- the worker of the lifecycle was gathered
  obtain ⟨rfl, -, hwaits⟩ := (h.queues i).waiting hw
  have hfalse : s.stopping = some false := by
    rcases hwaits with htrue | ⟨-, hfalse⟩
    · rw [hrunning] at htrue
      cases htrue
    · exact hfalse
  obtain rfl := Option.some.inj (hstopping.symm.trans hfalse)
  have hworker : s.workers s.generation = .waiting ∨ s.workers s.generation = .created := hw
  rw [Node.gathered, Bool.false_or] at hgathered
  rcases hworker with hw | hw
  · rw [hw] at hgathered
    cases hgathered
  · rw [hw] at hgathered
    cases hgathered

/-- `_emit_event` queues an event, or drops one, by the policy. -/
theorem Inv.emitEvent (h : Inv cfg s) (event : NodeEvent D) : Inv cfg (s.emitEvent cfg event) := by
  unfold Node.emitEvent
  split
  · exact h
  · rename_i queue hqueue
    split
    · rename_i hroom
      obtain ⟨haccepted, -⟩ := h.queue queue hqueue
      refine ⟨fun i => ⟨(h.dispatches i).fits, (h.dispatches i).going, (h.dispatches i).complete,
        (h.dispatches i).alive⟩, fun i => ⟨fun hlt => ?_, ?_, fun hw => ?_⟩, fun q hq => ?_, ?_, h.stops⟩
      · obtain ⟨hworker, hnone, hdeliveries⟩ := (h.queues i).fresh hlt
        exact ⟨hworker, (Function.update_of_ne (Nat.ne_of_gt hlt) ..).trans hnone, hdeliveries⟩
      · change s.taken i <+: Function.update s.accepted s.generation _ i
        by_cases hi : i = s.generation
        · subst hi
          rw [Function.update_self]
          exact (h.queues _).inOrder.trans (List.prefix_append _ _)
        · rw [Function.update_of_ne hi]
          exact (h.queues i).inOrder
      · obtain ⟨hgeneration, -, hwaits⟩ := (h.queues i).waiting hw
        exact ⟨hgeneration, by simp, hwaits⟩
      · obtain rfl : queue ++ [event] = q := Option.some.inj hq
        change Function.update s.accepted s.generation _ s.generation =
          s.taken s.generation ++ (queue ++ [event]) ∧ _
        rw [Function.update_self, haccepted, List.append_assoc]
        refine ⟨rfl, ?_⟩
        rw [List.length_append, List.length_singleton]
        omega
      · change some (queue ++ [event]) = none ↔ _
        rw [← h.present, hqueue]
        simp
    · exact h

/-- A listener is registered. -/
theorem Inv.addHandler (h : Inv cfg s) (type : Option NodeEventType) (listener : ℕ) :
    Inv cfg { s with
      handlers := Function.update s.handlers type (s.handlers type ++ [listener]) } := by
  have hmore : ∀ i, s.handlers i <+:
      Function.update s.handlers type (s.handlers type ++ [listener]) i := by
    intro i
    by_cases hi : i = type
    · subst hi
      rw [Function.update_self]
      exact List.prefix_append _ _
    · rw [Function.update_of_ne hi]
  exact ⟨fun i => ⟨fun d hd => ((h.dispatches i).fits d hd).mono hmore,
    fun d left hpc => ((h.dispatches i).going d left hpc).mono hmore, (h.dispatches i).complete,
    (h.dispatches i).alive⟩, fun i => ⟨(h.queues i).fresh, (h.queues i).inOrder, (h.queues i).waiting⟩,
    h.queue, h.present, h.stops⟩

/-- A worker ends, with the dispatch that a listener has broken off. -/
theorem Inv.escaped (h : Inv cfg s) {d : Delivery D} {left : List ℕ}
    (hpc : s.workers g = .dispatching d left) :
    Inv cfg ((s.record g d).setWorker g .ended) := by
  have hdispatches := h.dispatches g
  have hcomplete := hdispatches.alive (by simp [hpc])
  have hworker : ((s.record g d).setWorker g .ended).workers g = .ended := Function.update_self ..
  have hrecorded : ((s.record g d).setWorker g .ended).deliveries g = s.deliveries g ++ [d] :=
    Function.update_self ..
  refine h.workerStep ((workerStep_record s g d).trans (workerStep_setWorker ..)) (.inl ⟨rfl, ?_⟩) ?_
    (by simp [hpc]) fun hw => ?_
  · rw [Node.taken, hworker, hrecorded, taken_of_dispatching hpc, List.append_nil, List.map_append,
      List.map_singleton]
  · refine ⟨fun d' hd' => ?_, fun d' left' hd' => ?_, fun d' hd' => ?_, fun hne => absurd hworker hne⟩
    · rw [hrecorded, List.mem_append, List.mem_singleton] at hd'
      rcases hd' with hold | rfl
      · exact hdispatches.fits d' hold
      · exact (hdispatches.going d' left hpc).fits
    · rw [hworker] at hd'
      cases hd'
    · rw [hrecorded, List.dropLast_concat] at hd'
      exact hcomplete d' hd'
  · rw [hworker] at hw
    rcases hw with hw | hw <;> cases hw

/-- A worker that is not in a listener goes to the head of its loop, or ends. -/
theorem Inv.idle (h : Inv cfg s) (hpc : s.workers g = .created ∨ s.workers g = .waiting)
    (hhead : AtHead g s t) : Inv cfg t := by
  have hne : s.workers g ≠ .ended ∧ s.workers g ≠ .absent := by
    rcases hpc with hpc | hpc <;> simp [hpc]
  have htaken : s.taken g = (s.deliveries g).map (·.event) := by
    rw [Node.taken]
    rcases hpc with hpc | hpc <;> rw [hpc, List.append_nil]
  exact h.workerStep hhead.toWorkerStep (.inl ⟨hhead.queue, by rw [hhead.taken, htaken]⟩)
    (hhead.dispatches (h.dispatches g).fits ((h.dispatches g).alive hne.1)) hne.2 hhead.waiting

/-- **Every step keeps the invariant.** -/
theorem Inv.step (h : Inv cfg s) {l : Label D} (hs : step cfg s l = some t) : Inv cfg t := by
  cases l with
  | start =>
      simp only [Events.step] at hs
      split at hs <;> cases hs
      rename_i hstart
      rw [Bool.and_eq_true, Bool.not_eq_true', Option.isNone_iff_eq_none] at hstart
      exact h.start hstart.1 hstart.2
  | stop byListener =>
      simp only [Events.step] at hs
      split at hs <;> cases hs
      rename_i hstop
      rw [Bool.and_eq_true, Bool.or_eq_true, Bool.not_eq_true'] at hstop
      refine h.stop byListener hstop.1 fun htrue => ?_
      rw [htrue] at hstop
      exact hstop.2.resolve_left (by simp)
  | discardQueue =>
      obtain ⟨byListener, hstopping, hs⟩ := Option.bind_eq_some_iff.1 hs
      split at hs <;> cases hs
      rename_i hgathered
      exact h.discardQueue hstopping hgathered
  | emit event =>
      cases hs
      exact h.emitEvent event
  | addHandler type listener =>
      cases hs
      exact h.addHandler type listener
  | runWorker g =>
      simp only [Events.step] at hs
      split at hs
      · rename_i hpc
        split at hs <;> cases hs
        exact h.idle (.inl hpc) (atHead_loopHead s g)
      · cases hs
  | take g =>
      simp only [Events.step] at hs
      split at hs
      · rename_i event rest hpc hqueue
        split at hs <;> cases hs
        exact h.take hpc hqueue
      · cases hs
  | listenerReturned g =>
      simp only [Events.step] at hs
      split at hs <;> cases hs
      rename_i delivery left hpc
      exact h.listener hpc ((h.dispatches g).going delivery left hpc).fits ⟨rfl, rfl, rfl⟩
  | listenerFailed g =>
      simp only [Events.step] at hs
      split at hs <;> cases hs
      rename_i delivery left hpc
      exact h.listener hpc ((h.dispatches g).going delivery left hpc).fails ⟨rfl, rfl, rfl⟩
  | listenerEscaped g =>
      simp only [Events.step] at hs
      split at hs <;> cases hs
      rename_i delivery left hpc
      exact h.escaped hpc
  | workerCancelled g =>
      have hended : AtHead g s (s.setWorker g .ended) :=
        ⟨workerStep_setWorker .., rfl, rfl, .inl (Function.update_self ..)⟩
      simp only [Events.step] at hs
      split at hs
      · rename_i hpc
        split at hs <;> cases hs
        exact h.idle (.inl hpc) hended
      · rename_i hpc
        split at hs <;> cases hs
        exact h.idle (.inr hpc) hended
      · cases hs

/-- The invariant holds in every run. -/
theorem inv_of_reachable (h : Reachable (system cfg) s) : Inv cfg s :=
  h.invariant (fun _ hs => hs ▸ inv_initial) fun _ _ _ hI hs => hI.step hs

/-- What becomes of the events. -/
structure Node.Delivers (cfg : Config) (s : Node D) : Prop where
  /-- The worker of a lifecycle takes the events in the order in which they were emitted. -/
  inOrder : ∀ g, s.taken g <+: s.accepted g
  /-- Those of the current lifecycle that were not taken are in the queue, which is bounded. -/
  queued : ∀ q, s.queue = some q →
    s.accepted s.generation = s.taken s.generation ++ q ∧ q.length ≤ cfg.maxEventQueue
  /-- For an event the listeners of its type are called and then those of all types, in
  the order of their registration and each once. -/
  listeners : ∀ g, ∀ d ∈ s.deliveries g, d.Fits s.handlers
  /-- So it is in the dispatch that goes on, and what is left comes after what was called. -/
  current : ∀ g d left, s.workers g = .dispatching d left →
    d.Fits s.handlers ∧ d.called ++ left = d.listeners
  /-- A dispatch has called them all, whichever failed, unless one has ended the worker. -/
  complete : ∀ g, ∀ d ∈ s.deliveries g, d.called = d.listeners ∨
    s.workers g = .ended ∧ (s.deliveries g).getLast? = some d

/-- **Events are delivered in order, to every listener once**, in every run of a node, over
any number of lifecycles and whatever the listeners do. -/
theorem events_delivered (h : Reachable (system cfg) s) : s.Delivers cfg := by
  have hinv := inv_of_reachable h
  refine ⟨fun g => (hinv.queues g).inOrder, hinv.queue, fun g => (hinv.dispatches g).fits,
    fun g d left hd => ?_, fun g d hd => ?_⟩
  · have hgoing := (hinv.dispatches g).going d left hd
    exact ⟨hgoing.fits, hgoing.called⟩
  by_cases hended : s.workers g = .ended
  · cases hlast : (s.deliveries g).getLast? with
    | none =>
        rw [List.getLast?_eq_none_iff] at hlast
        rw [hlast] at hd
        cases hd
    | some last =>
        rw [← List.dropLast_append_getLast? last hlast, List.mem_append, List.mem_singleton] at hd
        rcases hd with hold | rfl
        · exact .inl ((hinv.dispatches g).complete d hold)
        · exact .inr ⟨hended, rfl⟩
  · exact .inl ((hinv.dispatches g).alive hended d hd)

/-! ## When nothing more is taken -/

/-- The lifecycle is over, or its worker is. -/
def Node.Over (s : Node D) (g : ℕ) : Prop :=
  g < s.generation ∨ g = s.generation ∧ (s.running = false ∨ s.workers g = .ended)

/-- A lifecycle that is over has been started. -/
theorem Node.Over.le (h : s.Over g) : g ≤ s.generation := by
  rcases h with hlt | ⟨rfl, -⟩
  · exact hlt.le
  · exact le_rfl

/-- A worker that waits for events has not been stopped. -/
theorem take_eq_none (h : Inv cfg s) (hover : s.Over g) : step cfg s (.take g) = none := by
  simp only [Events.step]
  split
  · rename_i event rest hpc hqueue
    obtain ⟨rfl, -, hwaits⟩ := (h.queues g).waiting (.inl hpc)
    rcases hover with hlt | ⟨-, hstopped | hended⟩
    · exact absurd hlt (lt_irrefl _)
    · rw [hstopped] at hwaits
      rw [if_pos (hwaits.resolve_left (by simp)).1]
    · rw [hpc] at hended
      cases hended
  · rfl

/-- What a step of the worker `i` does to the events that `g` has taken. -/
theorem taken_of_workerStep {i : ℕ} (hstep : WorkerStep i s t) (hself : t.taken i = s.taken i) :
    t.taken g = s.taken g := by
  by_cases hgi : g = i
  · rw [hgi, hself]
  · exact taken_of_eq (hstep.deliveries g hgi) (hstep.workers g hgi)

/-- A lifecycle that is over stays over, whatever another worker does. -/
theorem Node.Over.workerStep {i : ℕ} (hover : s.Over g) (hstep : WorkerStep i s t)
    (hne : s.workers i ≠ .ended) : t.Over g := by
  unfold Node.Over
  rw [hstep.generation, hstep.running]
  rcases hover with hlt | ⟨heq, hstopped | hended⟩
  · exact .inl hlt
  · exact .inr ⟨heq, .inl hstopped⟩
  · have hgi : g ≠ i := by
      rintro rfl
      exact hne hended
    exact .inr ⟨heq, .inr ((hstep.workers g hgi).trans hended)⟩

/-- **A worker that has ended takes nothing more.** -/
theorem over_step (h : Inv cfg s) (hover : s.Over g) {l : Label D} (hs : step cfg s l = some t) :
    t.Over g ∧ t.taken g = s.taken g := by
  have hworker : ∀ {i : ℕ} {u : Node D}, WorkerStep i s u → s.workers i ≠ .ended →
      u.taken i = s.taken i → u.Over g ∧ u.taken g = s.taken g := fun hstep hne hself =>
    ⟨hover.workerStep hstep hne, taken_of_workerStep hstep hself⟩
  have hlistener : ∀ {i : ℕ} {d d' : Delivery D} {left : List ℕ},
      s.workers i = .dispatching d left → d'.Fits s.handlers →
      d'.event = d.event ∧ d'.called = d.called ∧ d'.listeners = d.listeners →
      (s.runListeners i d' left).Over g ∧ (s.runListeners i d' left).taken g = s.taken g := by
    intro i d d' left hpc hfits hsame
    obtain ⟨hstep, -, htaken, -⟩ := listener_spec (h.dispatches i) hpc hfits hsame
    exact hworker hstep (by simp [hpc]) htaken
  have hidle : ∀ {i : ℕ} {u : Node D}, s.workers i = .created ∨ s.workers i = .waiting →
      AtHead i s u → u.Over g ∧ u.taken g = s.taken g := by
    intro i u hpc hhead
    refine hworker hhead.toWorkerStep ?_ ?_
    · rcases hpc with hpc | hpc <;> simp [hpc]
    · rw [hhead.taken, Node.taken]
      rcases hpc with hpc | hpc <;> rw [hpc, List.append_nil]
  cases l with
  | start =>
      simp only [Events.step] at hs
      split at hs <;> cases hs
      have hlt : g < s.generation + 1 := Nat.lt_succ_of_le hover.le
      exact ⟨.inl hlt, taken_of_eq (s := s) (t := s.start) rfl (Function.update_of_ne hlt.ne ..)⟩
  | stop byListener =>
      simp only [Events.step] at hs
      split at hs <;> cases hs
      refine ⟨?_, rfl⟩
      rcases hover with hlt | ⟨heq, -⟩
      · exact .inl hlt
      · exact .inr ⟨heq, .inl rfl⟩
  | discardQueue =>
      obtain ⟨byListener, -, hs⟩ := Option.bind_eq_some_iff.1 hs
      split at hs <;> cases hs
      exact ⟨hover, rfl⟩
  | emit event =>
      cases hs
      unfold Node.emitEvent
      split
      · exact ⟨hover, rfl⟩
      · split
        · exact ⟨hover, rfl⟩
        · exact ⟨hover, rfl⟩
  | addHandler type listener =>
      cases hs
      exact ⟨hover, rfl⟩
  | runWorker i =>
      simp only [Events.step] at hs
      split at hs
      · rename_i hpc
        split at hs <;> cases hs
        exact hidle (.inl hpc) (atHead_loopHead s i)
      · cases hs
  | take i =>
      by_cases hgi : g = i
      · subst hgi
        rw [take_eq_none h hover] at hs
        cases hs
      · simp only [Events.step] at hs
        split at hs
        · rename_i event rest hpc hqueue
          split at hs <;> cases hs
          obtain ⟨hstep, -⟩ := take_spec (h.dispatches i) hpc event rest
          exact ⟨hover.workerStep hstep (by simp [hpc]),
            taken_of_eq (hstep.deliveries g hgi) (hstep.workers g hgi)⟩
        · cases hs
  | listenerReturned i =>
      simp only [Events.step] at hs
      split at hs <;> cases hs
      rename_i delivery left hpc
      exact hlistener hpc ((h.dispatches i).going delivery left hpc).fits ⟨rfl, rfl, rfl⟩
  | listenerFailed i =>
      simp only [Events.step] at hs
      split at hs <;> cases hs
      rename_i delivery left hpc
      exact hlistener hpc ((h.dispatches i).going delivery left hpc).fails ⟨rfl, rfl, rfl⟩
  | listenerEscaped i =>
      simp only [Events.step] at hs
      split at hs <;> cases hs
      rename_i delivery left hpc
      refine hworker ((workerStep_record s i delivery).trans (workerStep_setWorker ..))
        (by simp [hpc]) ?_
      have hrecorded : (s.record i delivery).deliveries i = s.deliveries i ++ [delivery] :=
        Function.update_self ..
      rw [taken_setWorker _ _ (by simp), hrecorded, taken_of_dispatching hpc, List.map_append,
        List.map_singleton]
  | workerCancelled i =>
      have hended : AtHead i s (s.setWorker i .ended) :=
        ⟨workerStep_setWorker .., rfl, rfl, .inl (Function.update_self ..)⟩
      simp only [Events.step] at hs
      split at hs
      · rename_i hpc
        split at hs <;> cases hs
        exact hidle (.inl hpc) hended
      · rename_i hpc
        split at hs <;> cases hs
        exact hidle (.inr hpc) hended
      · cases hs

/-- **Nothing more is dispatched** of a lifecycle that has been stopped, whatever was left
in its queue, and of one whose worker a listener has ended: it is not replaced. -/
theorem nothing_more_taken (h : Reachable (system cfg) s) (hover : s.Over g)
    (ht : Reachable ((system cfg).startingAt s) t) : t.taken g = s.taken g := by
  refine (ht.invariant (I := fun t => Inv cfg t ∧ t.Over g ∧ t.taken g = s.taken g) ?_ ?_).2.2
  · rintro _ rfl
    exact ⟨inv_of_reachable h, hover, rfl⟩
  · rintro u l v ⟨hinv, hu, htaken⟩ hs
    obtain ⟨hv, hsame⟩ := over_step hinv hu hs
    exact ⟨hinv.step hs, hv, hsame.trans htaken⟩

/-! ## The queue can be drained -/

/-- No listener of the running lifecycle lets a cancellation through. -/
def Caught (s : Node D) : Label D → Prop
  | .listenerEscaped g => s.running = false ∨ g ≠ s.generation
  | _ => True

/-- The worker of a running lifecycle is there, and no task has been told to end that
was not created. -/
structure Alive (s : Node D) : Prop where
  worker : s.running = true → s.workers s.generation ≠ .ended ∧ s.workers s.generation ≠ .absent
  uncancelled : s.running = true → s.cancelled s.generation = false
  fresh : ∀ g, s.generation < g → s.cancelled g = false

/-- A step of a worker leaves the worker of the running lifecycle alive, if it does not end it. -/
theorem Alive.workerStep (h : Alive s) (hstep : WorkerStep g s t)
    (hg : s.running = true → g = s.generation →
      t.workers g ≠ .ended ∧ t.workers g ≠ .absent) : Alive t := by
  refine ⟨fun hrunning => ?_, fun hrunning => ?_, fun i hi => ?_⟩
  · rw [hstep.running] at hrunning
    rw [hstep.generation]
    by_cases hgen : s.generation = g
    · exact hgen ▸ hg hrunning hgen.symm
    · rw [hstep.workers _ hgen]
      exact h.worker hrunning
  · rw [hstep.running] at hrunning
    rw [hstep.generation, hstep.cancelled]
    exact h.uncancelled hrunning
  · rw [hstep.generation] at hi
    rw [hstep.cancelled]
    exact h.fresh i hi

/-- While the node runs, the worker waits at the head of its loop. -/
theorem loopHead_running (hrunning : s.running = true) (hg : s.generation = g)
    (hqueue : s.queue ≠ none) : s.loopHead g = s.setWorker g .waiting := by
  unfold Node.loopHead
  rw [hrunning, hg, Bool.true_and, decide_eq_true rfl, if_pos rfl]
  split
  · rename_i hnone
    exact absurd hnone hqueue
  · rfl

/-- While the node runs, a worker calls its next listener, or waits for the next event. -/
theorem runListeners_running (hrunning : s.running = true) (hg : s.generation = g)
    (hqueue : s.queue ≠ none) (d : Delivery D) (left : List ℕ) :
    (left = [] ∧ (s.runListeners g d left).workers g = .waiting) ∨
      ∃ listener rest, left = listener :: rest ∧
        (s.runListeners g d left).workers g =
          .dispatching { d with called := d.called ++ [listener] } rest := by
  cases left with
  | nil =>
      have hhead : (s.record g d).loopHead g = (s.record g d).setWorker g .waiting :=
        loopHead_running hrunning hg hqueue
      exact .inl ⟨rfl, by rw [Node.runListeners, hhead]; exact Function.update_self ..⟩
  | cons listener rest => exact .inr ⟨listener, rest, rfl, Function.update_self ..⟩

/-- A node that runs has an event queue. -/
theorem Inv.queue_ne_none (h : Inv cfg s) (hrunning : s.running = true) : s.queue ≠ none := by
  intro hnone
  rw [(h.present.1 hnone).1] at hrunning
  cases hrunning

/-- Calling the listeners ends no worker of a lifecycle that runs. -/
theorem Alive.runListeners (h : Alive s) {u : Node D} (hu : u.running = s.running ∧ u.generation = s.generation ∧
      (s.running = true → u.queue ≠ none)) (d : Delivery D) (left : List ℕ)
    (hstep : WorkerStep g s (u.runListeners g d left)) : Alive (u.runListeners g d left) := by
  refine h.workerStep hstep fun hrunning hg => ?_
  rcases runListeners_running (hu.1.trans hrunning) (hu.2.1.trans hg.symm) (hu.2.2 hrunning) d left
    with ⟨-, hpc⟩ | ⟨listener, rest, -, hpc⟩
  · simp [hpc]
  · simp [hpc]

/-- No lifecycle runs yet. -/
theorem alive_initial : Alive (initial : Node D) :=
  ⟨fun h => (by cases h), fun h => (by cases h), fun _ _ => rfl⟩

/-- **The worker of a running node stays alive**, as long as what its listeners raise is caught.
-/
theorem alive_step (h : Alive s) (hinv : Inv cfg s) {l : Label D} (hl : Caught s l)
    (hs : step cfg s l = some t) : Alive t := by
  cases l with
  | start =>
      simp only [Events.step] at hs
      split at hs <;> cases hs
      have hworker : s.start.workers (s.generation + 1) = .created := Function.update_self ..
      refine ⟨fun _ => ?_, fun _ => h.fresh _ (Nat.lt_succ_self _), fun g hg =>
        h.fresh g (Nat.lt_of_succ_lt hg)⟩
      change s.start.workers (s.generation + 1) ≠ _ ∧ s.start.workers (s.generation + 1) ≠ _
      simp [hworker]
  | stop byListener =>
      simp only [Events.step] at hs
      split at hs <;> cases hs
      refine ⟨fun hfalse => (by cases hfalse), fun hfalse => (by cases hfalse), fun g hg => ?_⟩
      cases byListener with
      | false => exact (Function.update_of_ne (Nat.ne_of_gt hg) ..).trans (h.fresh g hg)
      | true => exact h.fresh g hg
  | discardQueue =>
      obtain ⟨byListener, -, hs⟩ := Option.bind_eq_some_iff.1 hs
      split at hs <;> cases hs
      exact ⟨h.worker, h.uncancelled, h.fresh⟩
  | emit event =>
      cases hs
      unfold Node.emitEvent
      split
      · exact h
      · split
        · exact ⟨h.worker, h.uncancelled, h.fresh⟩
        · exact h
  | addHandler type listener =>
      cases hs
      exact ⟨h.worker, h.uncancelled, h.fresh⟩
  | runWorker g =>
      simp only [Events.step] at hs
      split at hs
      · rename_i hpc
        split at hs <;> cases hs
        refine h.workerStep (atHead_loopHead s g).toWorkerStep fun hrunning hg => ?_
        rw [loopHead_running hrunning hg.symm (hinv.queue_ne_none hrunning)]
        have hself : (s.setWorker g .waiting).workers g = .waiting := Function.update_self ..
        simp [hself]
      · cases hs
  | take g =>
      simp only [Events.step] at hs
      split at hs
      · rename_i event rest hpc hqueue
        split at hs <;> cases hs
        exact h.runListeners (u := { s with queue := some rest })
          ⟨rfl, rfl, fun _ => Option.some_ne_none _⟩ _ _
          (take_spec (hinv.dispatches g) hpc event rest).1
      · cases hs
  | listenerReturned g =>
      simp only [Events.step] at hs
      split at hs <;> cases hs
      rename_i delivery left hpc
      exact h.runListeners ⟨rfl, rfl, hinv.queue_ne_none⟩ _ _ (listener_spec (hinv.dispatches g) hpc
        ((hinv.dispatches g).going delivery left hpc).fits ⟨rfl, rfl, rfl⟩).1
  | listenerFailed g =>
      simp only [Events.step] at hs
      split at hs <;> cases hs
      rename_i delivery left hpc
      exact h.runListeners ⟨rfl, rfl, hinv.queue_ne_none⟩ _ _ (listener_spec (hinv.dispatches g) hpc
        ((hinv.dispatches g).going delivery left hpc).fails ⟨rfl, rfl, rfl⟩).1
  | listenerEscaped g =>
      simp only [Events.step] at hs
      split at hs <;> cases hs
      rename_i delivery left hpc
      refine h.workerStep ((workerStep_record s g delivery).trans (workerStep_setWorker ..))
        fun hrunning hg => ?_
      rcases hl with hstopped | hne
      · rw [hstopped] at hrunning
        cases hrunning
      · exact absurd hg hne
  | workerCancelled g =>
      have hended : s.cancelled g = true → Alive (s.setWorker g .ended) := fun hcancelled =>
        h.workerStep (workerStep_setWorker ..) fun hrunning hg => by
          rw [hg, h.uncancelled hrunning] at hcancelled
          cases hcancelled
      simp only [Events.step] at hs
      split at hs
      · split at hs <;> cases hs
        rename_i hcancelled
        exact hended hcancelled
      · split at hs <;> cases hs
        rename_i hcancelled
        exact hended hcancelled
      · cases hs

/-- It is alive in every such run. -/
theorem alive_of_reachable (h : ReachableWhen (system cfg) Caught s) : Inv cfg s ∧ Alive s :=
  h.invariant (I := fun s => Inv cfg s ∧ Alive s) (fun _ hs => hs ▸ ⟨inv_initial, alive_initial⟩)
    fun _ _ _ hI hl hs => ⟨hI.1.step hs, alive_step hI.2 hI.1 hl hs⟩

/-- Steps of the worker of a lifecycle whose listeners return. -/
def Drains (g : ℕ) : Label D → Prop
  | .runWorker i | .take i | .listenerReturned i => i = g
  | _ => False

/-- The steps that a worker has left in its dispatch. -/
def WorkerPc.work : WorkerPc D → ℕ
  | .created => 1
  | .dispatching _ left => left.length + 1
  | _ => 0

/-- What the worker of a lifecycle has left to do. -/
def Node.work (s : Node D) (g : ℕ) : ℕ :=
  ((s.queue.getD []).map fun event => (s.matching event).length + 2).sum + (s.workers g).work

/-- A worker that has less left to do in its dispatch has less left to do. -/
theorem work_of_handlers (hqueue : t.queue = s.queue) (hhandlers : t.handlers = s.handlers)
    (hwork : (t.workers g).work < (s.workers g).work) : t.work g < s.work g := by
  have hmatching : t.matching = s.matching := by
    funext event
    rw [Node.matching, Node.matching, hhandlers]
  rw [Node.work, Node.work, hqueue, hmatching]
  omega

/-- Calling the listeners is a step of the worker, takes nothing from the queue, and leaves at
most the listeners to return. -/
theorem runListeners_work (s : Node D) (g : ℕ) (d : Delivery D) (left : List ℕ) :
    WorkerStep g s (s.runListeners g d left) ∧ (s.runListeners g d left).queue = s.queue ∧
      ((s.runListeners g d left).workers g).work ≤ left.length := by
  cases left with
  | nil =>
      have hhead := atHead_loopHead (s.record g d) g
      refine ⟨(workerStep_record s g d).trans hhead.toWorkerStep, hhead.queue, ?_⟩
      change (((s.record g d).loopHead g).workers g).work ≤ 0
      rcases hhead.worker with hpc | ⟨hpc, -⟩
      · rw [hpc]
        rfl
      · rw [hpc]
        rfl
  | cons listener rest =>
      refine ⟨workerStep_setWorker .., rfl, ?_⟩
      have hpc : (s.runListeners g d (listener :: rest)).workers g =
          .dispatching { d with called := d.called ++ [listener] } rest := Function.update_self ..
      rw [hpc]
      rfl

/-- **A step of a worker whose listeners return** takes from its work. -/
theorem drains_step {l : Label D} (hl : Drains g l) (hs : step cfg s l = some t) :
    WorkerStep g s t ∧ t.work g < s.work g := by
  cases l with
  | runWorker i =>
      obtain rfl : i = g := hl
      simp only [Events.step] at hs
      split at hs
      · rename_i hpc
        split at hs <;> cases hs
        have hhead := atHead_loopHead s i
        refine ⟨hhead.toWorkerStep, work_of_handlers hhead.queue hhead.handlers ?_⟩
        have hidle : ((s.loopHead i).workers i).work = 0 := by
          rcases hhead.worker with hended | ⟨hwaiting, -⟩
          · rw [hended]
            rfl
          · rw [hwaiting]
            rfl
        rw [hidle, hpc]
        exact Nat.one_pos
      · cases hs
  | take i =>
      obtain rfl : i = g := hl
      simp only [Events.step] at hs
      split at hs
      · rename_i event rest hpc hqueue
        split at hs <;> cases hs
        obtain ⟨hstep, hrest, hwork⟩ := runListeners_work { s with queue := some rest } i
          { event, registered := s.handlers, listeners := s.matching event, called := [], failed := [] } (s.matching event)
        refine ⟨⟨hstep.running, hstep.generation, hstep.handlers, hstep.cancelled, hstep.stopping,
          hstep.accepted, hstep.workers, hstep.deliveries⟩, ?_⟩
        change (s.take i event rest).queue = some rest at hrest
        change ((s.take i event rest).workers i).work ≤ _ at hwork
        have hmatching : (s.take i event rest).matching = s.matching := by
          funext event
          rw [Node.matching, Node.matching]
          exact congrArg (fun handlers => handlers (some event.type) ++ handlers none) hstep.handlers
        rw [Node.work, Node.work, hrest, hmatching, hqueue, hpc]
        simp only [Option.getD_some, List.map_cons, List.sum_cons]
        omega
      · cases hs
  | listenerReturned i =>
      obtain rfl : i = g := hl
      simp only [Events.step] at hs
      split at hs <;> cases hs
      rename_i delivery left hpc
      obtain ⟨hstep, hqueue, hwork⟩ := runListeners_work s i delivery left
      refine ⟨hstep, work_of_handlers hqueue hstep.handlers ?_⟩
      rw [hpc]
      exact Nat.lt_succ_of_le hwork
  | _ => exact absurd hl (by simp [Drains])

/-- What the runs that drain a queue keep. -/
structure Draining (cfg : Config) (s t : Node D) : Prop where
  inv : Inv cfg t
  alive : Alive t
  running : t.running = true
  generation : t.generation = s.generation
  accepted : t.accepted = s.accepted

/-- A step of the worker keeps what is being drained. -/
theorem Draining.step {u : Node D} (h : Draining cfg s t) {l : Label D}
    (hl : Drains s.generation l) (hs : Events.step cfg t l = some u) : Draining cfg s u := by
  have hstep := (drains_step hl hs).1
  refine ⟨h.inv.step hs, alive_step h.alive h.inv ?_ hs, hstep.running.trans h.running,
    hstep.generation.trans h.generation, hstep.accepted.trans h.accepted⟩
  cases l with
  | listenerEscaped g => exact absurd hl (by simp [Drains])
  | _ => trivial

/-- Where no such step is left the queue is empty. -/
theorem Draining.drained (h : Draining cfg s t)
    (hend : TerminalWhen (system cfg) (fun _ => Drains s.generation) t) :
    t.workers s.generation = .waiting ∧ t.queue = some [] := by
  have hcancelled := h.alive.uncancelled h.running
  obtain ⟨hended, habsent⟩ := h.alive.worker h.running
  rw [h.generation] at hcancelled hended habsent
  cases hpc : t.workers s.generation with
  | absent => exact absurd hpc habsent
  | ended => exact absurd hpc hended
  | created =>
      have hdrains : Drains s.generation (.runWorker s.generation : Label D) := rfl
      have hnone : Events.step cfg t (.runWorker s.generation) = none := hend _ hdrains
      simp [Events.step, hpc, hcancelled] at hnone
  | dispatching d left =>
      have hdrains : Drains s.generation (.listenerReturned s.generation : Label D) := rfl
      have hnone : Events.step cfg t (.listenerReturned s.generation) = none := hend _ hdrains
      simp [Events.step, hpc] at hnone
  | waiting =>
      refine ⟨rfl, ?_⟩
      cases hqueue : t.queue with
      | none => exact absurd hqueue (h.inv.queue_ne_none h.running)
      | some queue =>
          cases queue with
          | nil => rfl
          | cons event rest =>
              have hdrains : Drains s.generation (.take s.generation : Label D) := rfl
              have hnone : Events.step cfg t (.take s.generation) = none := hend _ hdrains
              simp [Events.step, hpc, hqueue, hcancelled] at hnone

/-- **The queue can always be drained**: as long as no listener lets a cancellation through,
the worker of a running node is there, and by its own steps, with listeners that return,
it comes to have called every listener of every event that the queue took. -/
theorem events_drained (h : ReachableWhen (system cfg) Caught s) (hrunning : s.running = true) :
    (s.workers s.generation ≠ .absent ∧ s.workers s.generation ≠ .ended) ∧
    ∃ t, ReachableWhen ((system cfg).startingAt s) (fun _ => Drains s.generation) t ∧
      t.queue = some [] ∧
      (t.deliveries s.generation).map (·.event) = s.accepted s.generation ∧
      ∀ d ∈ t.deliveries s.generation, d.Fits t.handlers ∧ d.called = d.listeners := by
  obtain ⟨hinv, halive⟩ := alive_of_reachable h
  obtain ⟨t, ht, hend⟩ := ReachableWhen.exists_terminal
    (S := (system cfg).startingAt s) (G := fun _ => Drains s.generation)
    (Node.work · s.generation) (fun _ _ _ hl hs => (drains_step hl hs).2) (.init rfl)
  have hdraining : Draining cfg s t := by
    refine ht.invariant (I := Draining cfg s) ?_ fun _ _ _ hI hl hs => hI.step hl hs
    rintro _ rfl
    exact ⟨hinv, halive, hrunning, rfl, rfl⟩
  obtain ⟨hwaiting, hqueue⟩ := hdraining.drained hend
  obtain ⟨hended, habsent⟩ := halive.worker hrunning
  have hall := hdraining.inv.dispatches s.generation
  refine ⟨⟨habsent, hended⟩, t, ht, hqueue, ?_,
    fun d hd => ⟨hall.fits d hd, hall.alive (by simp [hwaiting]) d hd⟩⟩
  obtain ⟨haccepted, -⟩ := hdraining.inv.queue _ hqueue
  rw [hdraining.generation, hdraining.accepted, List.append_nil, Node.taken, hwaiting,
    List.append_nil] at haccepted
  exact haccepted.symm

/-! ## A run with a listener that fails and an event that finds no room -/

/-- A queue of two events. -/
def sampleConfig : Config := ⟨2, Nat.two_pos⟩

/-- The `n`-th event of the sample. -/
def sampleEvent (n : ℕ) : NodeEvent ℕ where
  type := .connected
  localPeerId := ⟨[110], List.cons_ne_nil _ _⟩
  peerId := none
  connectionId := none
  details := n

/-- The first of two listeners fails for the first event. -/
def sampleRun : List (Label ℕ) :=
  [.addHandler (some .connected) 0, .addHandler none 1, .start, .emit (sampleEvent 0),
    .emit (sampleEvent 1), .emit (sampleEvent 2), .runWorker 1, .take 1, .listenerFailed 1,
    .listenerReturned 1, .emit (sampleEvent 3), .take 1]

/-- **A run.**  Two events are taken, one is dropped, and one waits in the queue. -/
theorem events_delivered_sample : ∃ s, Reachable (system sampleConfig) s ∧
    s.taken 1 = [sampleEvent 0, sampleEvent 1] ∧ s.queue = some [sampleEvent 3] ∧
    s.Delivers sampleConfig := by
  have hrun : Reachable (system sampleConfig)
      ((exec (step sampleConfig) (initial : Node ℕ) sampleRun).get rfl) :=
    reachable_of_exec rfl sampleRun (Option.some_get _).symm
  exact ⟨_, hrun, rfl, rfl, events_delivered hrun⟩

/-- A listener stops the node and returns. -/
theorem nothing_more_taken_sample : ∃ s t, Reachable (system sampleConfig) s ∧ s.Over 1 ∧
    s.queue = some [sampleEvent 3] ∧ Reachable ((system sampleConfig).startingAt s) t ∧
    t.workers 1 = .ended ∧ t.taken 1 = s.taken 1 := by
  have hrun : Reachable (system sampleConfig)
      ((exec (step sampleConfig) (initial : Node ℕ) (sampleRun ++ [.stop true])).get rfl) :=
    reachable_of_exec rfl (sampleRun ++ [.stop true]) (Option.some_get _).symm
  have hgoesOn : Reachable ((system sampleConfig).startingAt
      ((exec (step sampleConfig) (initial : Node ℕ) (sampleRun ++ [.stop true])).get rfl))
      ((exec (step sampleConfig) (initial : Node ℕ) (sampleRun ++ [.stop true, .listenerReturned 1,
        .listenerReturned 1])).get rfl) :=
    reachable_of_exec rfl [.listenerReturned 1, .listenerReturned 1] rfl
  have hover : Node.Over
      ((exec (step sampleConfig) (initial : Node ℕ) (sampleRun ++ [.stop true])).get rfl) 1 :=
    .inr ⟨rfl, .inl rfl⟩
  exact ⟨_, _, hrun, hover, rfl, hgoesOn, rfl, nothing_more_taken hrun hover hgoesOn⟩

/-- **A run.**  The worker is alive, and the run goes on until the queue is empty. -/
theorem events_drained_sample : ∃ s, ReachableWhen (system sampleConfig) Caught s ∧
    s.queue = some [sampleEvent 3] ∧
    (s.workers s.generation ≠ .absent ∧ s.workers s.generation ≠ .ended) ∧
    ∃ t, ReachableWhen ((system sampleConfig).startingAt s) (fun _ => Drains s.generation) t ∧
      t.queue = some [] ∧
      (t.deliveries s.generation).map (·.event) = s.accepted s.generation ∧
      ∀ d ∈ t.deliveries s.generation, d.Fits t.handlers ∧ d.called = d.listeners := by
  have hrun : ReachableWhen (system sampleConfig) Caught
      ((exec (step sampleConfig) (initial : Node ℕ) sampleRun).get rfl) := by
    refine reachableWhen_of_exec rfl sampleRun ?_ (Option.some_get _).symm
    intro l hl s
    simp only [sampleRun, List.mem_cons, List.not_mem_nil, or_false] at hl
    rcases hl with rfl | rfl | rfl | rfl | rfl | rfl | rfl | rfl | rfl | rfl | rfl | rfl <;> trivial
  exact ⟨_, hrun, rfl, events_drained hrun rfl⟩

end Events
end Core
end Paqto
