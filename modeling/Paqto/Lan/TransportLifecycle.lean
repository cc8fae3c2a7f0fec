/-
# Nothing crosses a lifecycle of the transport

`create_listener` of `LanTransport` (`lan/transport.py`) beside `connect`, `start` and
`stop` of `Paqto.Lan.Transport`, with a record of the history: how many calls of `stop()`
had begun when a `connect()` or a `create_listener()` was called, and when the stream of
a `connect()` was opened.  Neither of the two suspends before it has looked at
`_started`, and `connect()` not again after its stream is opened.

What is returned or tracked was called for and opened with no `stop()` in between, however
often the transport is stopped and started again (`within_lifecycle`): the generation says
for every pending `connect()` whether its lifecycle is over (`Inv.current`).
-/

import Paqto.Lan.Transport

namespace Paqto
namespace Lan

open Transition

/-- The transport with its listeners and its history. -/
structure RecordedTransport extends LanTransport where
  /-- `_listeners` -/
  listeners : List ℕ
  nextListener : ℕ
  /-- The calls of `stop()` before a call of `connect()`. -/
  calledAfter : ℕ → ℕ
  /-- The calls of `stop()` before a listener was created. -/
  createdAfter : ℕ → ℕ
  /-- The call that a connection was opened for, and the calls of `stop()` before that. -/
  opening : ℕ → Option (ℕ × ℕ)

namespace RecordedTransport

/-- Before the first start. -/
def initial : RecordedTransport where
  toLanTransport := .initial
  listeners := []
  nextListener := 0
  calledAfter := fun _ => 0
  createdAfter := fun _ => 0
  opening := fun _ => none

/-- The calls of a transport. -/
inductive Label
  /-- `create_listener()`; `valid` says that its bind endpoint and settings pass. -/
  | createListener (valid : Bool)
  | transport (l : LanTransport.Label)
  deriving DecidableEq, Repr

/-- `create_listener` -/
def createListener (s : RecordedTransport) : RecordedTransport :=
  { s with
    listeners := s.listeners ++ [s.nextListener]
    nextListener := s.nextListener + 1
    createdAfter := Function.update s.createdAfter s.nextListener s.nextStop }

/-- What a step of the transport does to the listeners and the history. -/
def record (s : RecordedTransport) (l : LanTransport.Label) (t : LanTransport) :
    RecordedTransport :=
  match l with
  | .connect =>
      { s with
        toLanTransport := t
        calledAfter := Function.update s.calledAfter s.nextAttempt s.nextStop }
  | .opened k _ =>
      { s with
        toLanTransport := t
        opening := Function.update s.opening s.nextConnection (some (k, s.nextStop)) }
  | .stop => { s with toLanTransport := t, listeners := [] }
  | _ => { s with toLanTransport := t }

/-- One call, recorded. -/
def step (s : RecordedTransport) : Label → Option RecordedTransport
  | .createListener valid => if s.started && valid then some s.createListener else none
  | .transport l => (s.toLanTransport.step l).map (s.record l)

/-- The runs. -/
def system : System RecordedTransport Label where
  init s := s = initial
  step := step

/-! ## The law -/

/-- **Nothing crosses a lifecycle**, in a state. -/
structure WithinLifecycle (s : RecordedTransport) : Prop where
  /-- Between the call and the return of a connection no `stop()` was called. -/
  returned : ∀ g c, (g, c) ∈ s.returned → ∃ k, s.opening c = some (k, s.calledAfter k)
  /-- A stream that is opened after a `stop()` is closed. -/
  late : ∀ c k n, s.opening c = some (k, n) → s.calledAfter k ≠ n →
    (s.streams c).writerClosed = true ∧ c ∉ s.connections ∧ ∀ g, (g, c) ∉ s.returned
  /-- What is tracked was called for and opened after every `stop()`. -/
  connections : ∀ c ∈ s.connections, ∃ k, s.opening c = some (k, s.nextStop) ∧
    s.calledAfter k = s.nextStop
  listeners : ∀ i ∈ s.listeners, s.createdAfter i = s.nextStop

variable {s t : RecordedTransport}

/-- What holds in every run. -/
structure Inv (s : RecordedTransport) : Prop extends WithinLifecycle s where
  pending : ∀ k g, s.attempts k = some g → k < s.nextAttempt ∧ g ≤ s.generation
  past : ∀ k g, s.attempts k = some g → s.calledAfter k ≤ s.nextStop
  /-- The lifecycle of a pending call is the current one when no `stop()` was called since. -/
  current : ∀ k g, s.attempts k = some g →
    (s.calledAfter k = s.nextStop ↔ s.started = true ∧ g = s.generation)
  fresh : ∀ c k n, s.opening c = some (k, n) → c < s.nextConnection ∧ k < s.nextAttempt
  named : ∀ i ∈ s.listeners, i < s.nextListener

/-- Before the first start. -/
theorem inv_initial : Inv initial where
  returned _ _ h := by cases h
  late _ _ _ h := by cases h
  connections _ h := by cases h
  listeners _ h := by cases h
  pending _ _ h := by cases h
  past _ _ h := by cases h
  current _ _ h := by cases h
  fresh _ _ _ h := by cases h
  named _ h := by cases h

/-- A listener is created. -/
theorem Inv.createListener (h : Inv s) : Inv s.createListener where
  returned := h.returned
  late := h.late
  connections := h.connections
  listeners i hi := by
    change Function.update s.createdAfter s.nextListener s.nextStop i = s.nextStop
    obtain hi | hi := List.mem_append.1 hi
    · have hne : i ≠ s.nextListener := (h.named i hi).ne
      rw [Function.update_of_ne hne]
      exact h.listeners i hi
    · rw [List.mem_singleton.1 hi, Function.update_self]
  pending := h.pending
  past := h.past
  current := h.current
  fresh := h.fresh
  named i hi := by
    change i < s.nextListener + 1
    obtain hi | hi := List.mem_append.1 hi
    · have hlt := h.named i hi
      omega
    · have heq := List.mem_singleton.1 hi
      omega

/-- `stop()` leaves nothing, and every pending call is of an earlier lifecycle. -/
theorem Inv.stop (h : Inv s) : Inv (s.record .stop s.toLanTransport.stop) where
  returned := h.returned
  late c k n hopening hne := by
    obtain ⟨hclosed, -, hreturned⟩ := h.late c k n hopening hne
    exact ⟨hclosed, List.not_mem_nil, hreturned⟩
  connections c hc := by cases hc
  listeners i hi := by cases hi
  pending k g hk := by
    obtain ⟨hlt, hle⟩ := h.pending k g hk
    exact ⟨hlt, Nat.le_succ_of_le hle⟩
  past k g hk := Nat.le_succ_of_le (h.past k g hk)
  current k g hk := by
    have hle := h.past k g hk
    change s.calledAfter k = s.nextStop + 1 ↔ false = true ∧ g = s.generation + 1
    constructor
    · intro heq
      omega
    · rintro ⟨⟨⟩, -⟩
  fresh := h.fresh
  named i hi := by cases hi

/-- `start()` begins a lifecycle that no pending call is of. -/
theorem Inv.start (h : Inv s) : Inv (s.record .start s.toLanTransport.start) := by
  change Inv { s with toLanTransport := s.toLanTransport.start }
  unfold LanTransport.start
  split
  · exact h
  · next hstopped =>
      refine { h with pending := fun k g hk => ?_, current := fun k g hk => ?_ }
      · obtain ⟨hlt, hle⟩ := h.pending k g hk
        exact ⟨hlt, Nat.le_succ_of_le hle⟩
      · obtain ⟨-, hle⟩ := h.pending k g hk
        change s.calledAfter k = s.nextStop ↔ true = true ∧ g = s.generation + 1
        rw [h.current k g hk]
        constructor
        · rintro ⟨hstarted, -⟩
          exact absurd hstarted hstopped
        · rintro ⟨-, heq⟩
          omega

/-- A connection is opened. -/
theorem Inv.connect {u : LanTransport} (h : Inv s) (hu : s.toLanTransport.connect = some u) :
    Inv (s.record .connect u) := by
  obtain ⟨hstarted, ⟨⟩⟩ := Option.ite_none_right_eq_some.1 hu
  have hkept : ∀ {k}, k < s.nextAttempt →
      Function.update s.calledAfter s.nextAttempt s.nextStop k = s.calledAfter k :=
    fun hk => Function.update_of_ne hk.ne ..
  have hcases : ∀ {k g}, Function.update s.attempts s.nextAttempt (some s.generation) k =
      some g → k = s.nextAttempt ∧ g = s.generation ∨ k ≠ s.nextAttempt ∧ s.attempts k = some g := by
    intro k g hk
    by_cases heq : k = s.nextAttempt
    · rw [heq, Function.update_self] at hk
      exact Or.inl ⟨heq, (Option.some.inj hk).symm⟩
    · rw [Function.update_of_ne heq] at hk
      exact Or.inr ⟨heq, hk⟩
  constructor
  case toWithinLifecycle =>
    constructor
    case returned =>
      intro g c hc
      obtain ⟨k, hk⟩ := h.returned g c hc
      refine ⟨k, hk.trans ?_⟩
      change _ = some (k, Function.update s.calledAfter s.nextAttempt s.nextStop k)
      rw [hkept (h.fresh c k _ hk).2]
    case late =>
      intro c k n hopening hne
      refine h.late c k n hopening ?_
      rw [← hkept (h.fresh c k n hopening).2]
      exact hne
    case connections =>
      intro c hc
      obtain ⟨k, hopening, hcalled⟩ := h.connections c hc
      exact ⟨k, hopening, (hkept (h.fresh c k _ hopening).2).trans hcalled⟩
    case listeners => exact h.listeners
  case pending =>
    intro k g hk
    change k < s.nextAttempt + 1 ∧ g ≤ s.generation
    obtain ⟨rfl, rfl⟩ | ⟨-, hk⟩ := hcases hk
    · exact ⟨Nat.lt_succ_self _, Nat.le_refl _⟩
    · obtain ⟨hlt, hle⟩ := h.pending k g hk
      exact ⟨Nat.lt_succ_of_lt hlt, hle⟩
  case past =>
    intro k g hk
    change Function.update s.calledAfter s.nextAttempt s.nextStop k ≤ s.nextStop
    obtain ⟨rfl, -⟩ | ⟨-, hk⟩ := hcases hk
    · rw [Function.update_self]
    · rw [hkept (h.pending k g hk).1]
      exact h.past k g hk
  case current =>
    intro k g hk
    change Function.update s.calledAfter s.nextAttempt s.nextStop k = s.nextStop ↔
      s.started = true ∧ g = s.generation
    obtain ⟨rfl, rfl⟩ | ⟨-, hk⟩ := hcases hk
    · rw [Function.update_self]
      exact ⟨fun _ => ⟨hstarted, rfl⟩, fun _ => rfl⟩
    · rw [hkept (h.pending k g hk).1]
      exact h.current k g hk
  case fresh =>
    intro c k n hopening
    obtain ⟨hc, hk⟩ := h.fresh c k n hopening
    exact ⟨hc, Nat.lt_succ_of_lt hk⟩
  case named => exact h.named

/-- A connection that opens is not the next one. -/
theorem Inv.opening_ne {c : ℕ} {p : ℕ × ℕ} (h : Inv s) (hc : s.opening c = some p) :
    c ≠ s.nextConnection := by
  obtain ⟨k, n⟩ := p
  exact (h.fresh c k n hc).1.ne

/-- Nor is one that was returned. -/
theorem Inv.returned_ne {g c : ℕ} (h : Inv s) (hc : (g, c) ∈ s.returned) :
    c ≠ s.nextConnection := by
  obtain ⟨j, hj⟩ := h.returned g c hc
  exact h.opening_ne hj

/-- Nor is one that is open. -/
theorem Inv.connections_ne {c : ℕ} (h : Inv s) (hc : c ∈ s.connections) :
    c ≠ s.nextConnection := by
  obtain ⟨j, hj, -⟩ := h.connections c hc
  exact h.opening_ne hj

/-- What is known of a stream when another one is opened. -/
theorem Inv.opening_update {c k n : ℕ} {p : ℕ × ℕ} (h : Inv s) (hc : s.opening c = some p) :
    Function.update s.opening s.nextConnection (some (k, n)) c = some p :=
  (Function.update_of_ne (h.opening_ne hc) ..).trans hc

/-- A stream is the one that is opened, or an earlier one. -/
theorem opening_cases {c : ℕ} {p q : ℕ × ℕ}
    (hc : Function.update s.opening s.nextConnection (some p) c = some q) :
    c = s.nextConnection ∧ p = q ∨ c ≠ s.nextConnection ∧ s.opening c = some q := by
  by_cases heq : c = s.nextConnection
  · rw [heq, Function.update_self] at hc
    exact Or.inl ⟨heq, Option.some.inj hc⟩
  · rw [Function.update_of_ne heq] at hc
    exact Or.inr ⟨heq, hc⟩

/-- Another attempt stays. -/
theorem attempts_of_update {k j g : ℕ} (h : Function.update s.attempts k none j = some g) :
    s.attempts j = some g := by
  by_cases heq : j = k
  · rw [heq, Function.update_self] at h
    cases h
  · rwa [Function.update_of_ne heq] at h

/-- The connection that opens is fresh. -/
theorem Inv.fresh_opened {k c j n : ℕ} (h : Inv s) (hk : k < s.nextAttempt)
    (hc : Function.update s.opening s.nextConnection (some (k, s.nextStop)) c = some (j, n)) :
    c < s.nextConnection + 1 ∧ j < s.nextAttempt := by
  obtain ⟨rfl, heq⟩ | ⟨-, hold⟩ := opening_cases hc
  · obtain ⟨rfl, -⟩ := Prod.mk.inj heq
    exact ⟨Nat.lt_succ_self _, hk⟩
  · obtain ⟨hlt, hj⟩ := h.fresh c j n hold
    exact ⟨Nat.lt_succ_of_lt hlt, hj⟩

/-- The stream of a call whose lifecycle is over is closed again. -/
theorem Inv.openedStale {k : ℕ} {streams : ℕ → Stream} (h : Inv s) (hk : k < s.nextAttempt)
    (hnew : (streams s.nextConnection).writerClosed = true)
    (hold : ∀ c, c ≠ s.nextConnection → streams c = s.streams c) :
    Inv { s with
      streams := streams
      nextConnection := s.nextConnection + 1
      attempts := Function.update s.attempts k none
      opening := Function.update s.opening s.nextConnection (some (k, s.nextStop)) } where
  returned i c hc := by
    obtain ⟨j, hj⟩ := h.returned i c hc
    exact ⟨j, h.opening_update hj⟩
  late c j n hopening hne := by
    obtain ⟨rfl, -⟩ | ⟨heq, hopening⟩ := opening_cases hopening
    · exact ⟨hnew, fun hc => h.connections_ne hc rfl, fun i hc => h.returned_ne hc rfl⟩
    · obtain ⟨hclosed, hrest⟩ := h.late c j n hopening hne
      exact ⟨(congrArg Stream.writerClosed (hold c heq)).trans hclosed, hrest⟩
  connections c hc := by
    obtain ⟨j, hj, hcalled⟩ := h.connections c hc
    exact ⟨j, h.opening_update hj, hcalled⟩
  listeners := h.listeners
  pending j i hj := h.pending j i (attempts_of_update hj)
  past j i hj := h.past j i (attempts_of_update hj)
  current j i hj := h.current j i (attempts_of_update hj)
  fresh c j n hc := h.fresh_opened hk hc
  named := h.named

/-- The stream of a call of this lifecycle is tracked and returned. -/
theorem Inv.openedCurrent {k g : ℕ} {streams : ℕ → Stream} {p : ℕ → Bool} (h : Inv s)
    (hk : k < s.nextAttempt) (hcalled : s.calledAfter k = s.nextStop)
    (hold : ∀ c, c ≠ s.nextConnection → streams c = s.streams c) :
    Inv { s with
      streams := streams
      nextConnection := s.nextConnection + 1
      attempts := Function.update s.attempts k none
      connections := s.connections.filter p ++ [s.nextConnection]
      returned := s.returned ++ [(g, s.nextConnection)]
      opening := Function.update s.opening s.nextConnection (some (k, s.nextStop)) } where
  returned i c hc := by
    obtain hc | hc := List.mem_append.1 hc
    · obtain ⟨j, hj⟩ := h.returned i c hc
      exact ⟨j, h.opening_update hj⟩
    · cases List.mem_singleton.1 hc
      refine ⟨k, (Function.update_self ..).trans ?_⟩
      change some (k, s.nextStop) = some (k, s.calledAfter k)
      rw [hcalled]
  late c j n hopening hne := by
    obtain ⟨-, heq⟩ | ⟨heq, hopening⟩ := opening_cases hopening
    · obtain ⟨rfl, rfl⟩ := Prod.mk.inj heq
      exact absurd hcalled hne
    · obtain ⟨hclosed, hconnections, hreturned⟩ := h.late c j n hopening hne
      refine ⟨(congrArg Stream.writerClosed (hold c heq)).trans hclosed, fun hc => ?_,
        fun i hc => ?_⟩
      · obtain hc | hc := List.mem_append.1 hc
        · exact hconnections (List.mem_filter.1 hc).1
        · exact heq (List.mem_singleton.1 hc)
      · obtain hc | hc := List.mem_append.1 hc
        · exact hreturned i hc
        · cases List.mem_singleton.1 hc
          exact heq rfl
  connections c hc := by
    obtain hc | hc := List.mem_append.1 hc
    · obtain ⟨j, hj, hbefore⟩ := h.connections c (List.mem_filter.1 hc).1
      exact ⟨j, h.opening_update hj, hbefore⟩
    · obtain rfl := List.mem_singleton.1 hc
      exact ⟨k, Function.update_self .., hcalled⟩
  listeners := h.listeners
  pending j i hj := h.pending j i (attempts_of_update hj)
  past j i hj := h.past j i (attempts_of_update hj)
  current j i hj := h.current j i (attempts_of_update hj)
  fresh c j n hc := h.fresh_opened hk hc
  named := h.named

/-- The stream of a call is opened. -/
theorem Inv.opened {k : ℕ} {wellFormed : Bool} {u : LanTransport} (h : Inv s)
    (hu : s.toLanTransport.opened k wellFormed = some u) :
    Inv (s.record (.opened k wellFormed) u) := by
  unfold LanTransport.opened at hu
  cases hattempt : s.attempts k with
  | none =>
      rw [hattempt] at hu
      cases hu
  | some g =>
      rw [hattempt] at hu
      dsimp only at hu
      obtain ⟨hlt, -⟩ := h.pending k g hattempt
      split at hu
      · cases hu
        refine h.openedStale hlt ?_ fun c hne => ?_
        · change (Function.update (Function.update s.streams _ _) _ _
            s.nextConnection).writerClosed = true
          rw [Function.update_self]
        · exact (Function.update_of_ne hne ..).trans (Function.update_of_ne hne ..)
      · next hcurrent =>
          cases hu
          have hcalled : s.calledAfter k = s.nextStop := by
            rw [h.current k g hattempt]
            simp only [LanTransport.isStale, Bool.or_eq_true, Bool.not_eq_true', decide_eq_true_eq,
              not_or, ne_eq, not_not, Bool.not_eq_false] at hcurrent
            exact ⟨hcurrent.1.1, hcurrent.1.2.symm⟩
          exact h.openedCurrent hlt hcalled fun c hne => Function.update_of_ne hne ..

/-- A closed writer stays closed, and nothing else changes but what is being closed. -/
theorem Inv.settle {u : LanTransport} (h : Inv s)
    (hstreams : ∀ c, (s.streams c).writerClosed = true → (u.streams c).writerClosed = true)
    (hstarted : u.started = s.started) (hgeneration : u.generation = s.generation)
    (hconnections : u.connections = s.connections)
    (hnextConnection : u.nextConnection = s.nextConnection)
    (hattempts : ∀ k g, u.attempts k = some g → s.attempts k = some g)
    (hnextAttempt : u.nextAttempt = s.nextAttempt) (hnextStop : u.nextStop = s.nextStop)
    (hreturned : u.returned = s.returned) : Inv { s with toLanTransport := u } := by
  obtain ⟨started, generation, connections, streams, nextConnection, attempts, nextAttempt, stops,
    nextStop, returned⟩ := u
  dsimp only at *
  subst hstarted hgeneration hconnections hnextConnection hnextAttempt hnextStop hreturned
  constructor
  case toWithinLifecycle =>
    constructor
    case returned => exact h.returned
    case late =>
      intro c k n hopening hne
      obtain ⟨hclosed, hrest⟩ := h.late c k n hopening hne
      exact ⟨hstreams c hclosed, hrest⟩
    case connections => exact h.connections
    case listeners => exact h.listeners
  case pending => exact fun k g hk => h.pending k g (hattempts k g hk)
  case past => exact fun k g hk => h.past k g (hattempts k g hk)
  case current => exact fun k g hk => h.current k g (hattempts k g hk)
  case fresh => exact h.fresh
  case named => exact h.named

/-- **Every step keeps the invariant.** -/
theorem inv_step {l : Label} (h : Inv s) (hs : s.step l = some t) : Inv t := by
  cases l with
  | createListener valid =>
      obtain ⟨-, ⟨⟩⟩ := Option.ite_none_right_eq_some.1 hs
      exact h.createListener
  | transport l =>
      obtain ⟨u, hu, rfl⟩ := Option.map_eq_some_iff.1 hs
      cases l with
      | start =>
          cases hu
          exact h.start
      | stop =>
          cases hu
          exact h.stop
      | connect => exact h.connect hu
      | opened k wellFormed => exact h.opened hu
      | closeOne i c =>
          change s.toLanTransport.closeOne i c = some u at hu
          unfold LanTransport.closeOne at hu
          split at hu
          · obtain ⟨-, ⟨⟩⟩ := Option.ite_none_right_eq_some.1 hu
            refine h.settle (fun d hd => ?_) rfl rfl rfl rfl (fun _ _ => id) rfl rfl rfl
            change (Function.update s.streams c (s.streams c).close d).writerClosed = true
            by_cases hdc : d = c
            · rw [hdc, Function.update_self]
              rfl
            · rw [Function.update_of_ne hdc]
              exact hd
          · cases hu
      | finish i =>
          change s.toLanTransport.finish i = some u at hu
          unfold LanTransport.finish at hu
          split at hu
          · obtain ⟨-, ⟨⟩⟩ := Option.ite_none_right_eq_some.1 hu
            exact h.settle (fun _ => id) rfl rfl rfl rfl (fun _ _ => id) rfl rfl rfl
          · cases hu
      | failed k =>
          obtain ⟨-, ⟨⟩⟩ := Option.ite_none_left_eq_some.1 hu
          refine h.settle (fun _ => id) rfl rfl rfl rfl (fun j g hj => ?_) rfl rfl rfl
          change Function.update s.attempts k none j = some g at hj
          by_cases hjk : j = k
          · rw [hjk, Function.update_self] at hj
            cases hj
          · rwa [Function.update_of_ne hjk] at hj
      | stream c event =>
          obtain ⟨-, ⟨⟩⟩ := Option.ite_none_right_eq_some.1 hu
          refine h.settle (fun d hd => ?_) rfl rfl rfl rfl (fun _ _ => id) rfl rfl rfl
          change (Function.update s.streams c ((s.streams c).apply event) d).writerClosed = true
          by_cases hdc : d = c
          · rw [hdc, Function.update_self]
            exact Stream.writerClosed_apply (hdc ▸ hd) event
          · rw [Function.update_of_ne hdc]
            exact hd

/-- **The invariant holds in every run.** -/
theorem inv_of_reachable (h : Reachable system s) : Inv s := by
  refine h.invariant (I := Inv) ?_ fun _ _ _ hinv hs => inv_step hinv hs
  rintro s rfl
  exact inv_initial

/-- **No connection crosses a lifecycle of the transport**, in every run: a connection that
`connect()` returns was called for with no `stop()` since, a stream that is opened after a
`stop()` is closed and neither returned nor tracked, and from a `stop()` on nothing older than
it is tracked. -/
theorem within_lifecycle : ∀ s, Reachable system s → WithinLifecycle s :=
  fun _ h => (inv_of_reachable h).toWithinLifecycle

/-- The first stream is opened in the lifecycle after the one it was asked for in. -/
def crossingRun : List Label :=
  [.transport .start, .transport .connect, .createListener true, .transport .stop,
    .transport .start, .transport .connect, .transport (.opened 0 true),
    .transport (.opened 1 true)]

/-- A run with a stop while a connection opens. -/
theorem within_lifecycle_sample : ∃ s, exec step initial crossingRun = some s ∧
    s.returned = [(3, 1)] ∧ s.WithinLifecycle :=
  ⟨_, rfl, rfl, within_lifecycle _ (reachable_of_exec (S := system) rfl crossingRun rfl)⟩

end RecordedTransport
end Lan
end Paqto
