/-
# Reconnect loops follow their policy

`ReconnectPolicy` of `core/config.py` with its delays, and the loops of
`Core.Reconnect` beside the manager of `Core.ConnectionManager`.  `trace` keeps what
each loop did: its sleeps, its attempts, that it gave up because its attempts were
used up or the observation had expired, and that it called `mark_disconnected`.

The manager may take any step of its own between two steps of the node, so that the
connections of a peer come and go as they like.

Arithmetic is that of exact rationals.  For which attempts `multiplier ** attempt` raises
`OverflowError` is the environment's to say, but only a power that is larger than any
`float` may (`Overflow`).  Such a power counts as the maximum, whatever `initial_delay`
makes of it: with a small one the delay is not that of the formula (`not_formula`).
-/

import Paqto.Core.Reconnect
import Paqto.Core.ConnectionManager
import Mathlib.Algebra.Order.Ring.Rat
import Mathlib.Tactic.Linarith
import Mathlib.Tactic.Positivity

namespace Paqto
namespace Core

open Python Transition

/-! ## The policy -/

/-- `ReconnectPolicy`, as `__post_init__` lets it through. -/
structure ReconnectPolicy where
  enabled : Bool
  initialDelay : ℚ
  multiplier : ℚ
  maximumDelay : ℚ
  jitter : ℚ
  maxAttempts : Option ℕ
  initialDelay_pos : 0 < initialDelay
  one_le_multiplier : 1 ≤ multiplier
  initialDelay_le : initialDelay ≤ maximumDelay
  jitter_nonneg : 0 ≤ jitter
  jitter_le_one : jitter ≤ 1
  maxAttempts_pos : ∀ n, maxAttempts = some n → 0 < n

/-- A `random_value` that is let through, or `random.random()`. -/
abbrev Sample := { r : ℚ // 0 ≤ r ∧ r ≤ 1 }

/-- The largest finite `float`. -/
def maxFloat : ℚ := (2 ^ 53 - 1) * 2 ^ 971

/-- The largest float is below the next power of two. -/
theorem maxFloat_lt : maxFloat < 2 ^ 1024 := by
  have hpow : (0 : ℚ) < 2 ^ 971 := by positivity
  calc maxFloat < 2 ^ 53 * 2 ^ 971 := mul_lt_mul_of_pos_right (by norm_num) hpow
    _ = 2 ^ 1024 := (pow_add 2 53 971).symm

/-- For which attempts `multiplier ** attempt` raises `OverflowError`: from one on, and
only where the power is too large. -/
structure Overflow (policy : ReconnectPolicy) where
  raises : ℕ → Bool
  upward : ∀ k l, k ≤ l → raises k = true → raises l = true
  large : ∀ k, raises k = true → maxFloat < policy.multiplier ^ k

/-- Every power that is too large raises. -/
def Overflow.ofFloat (policy : ReconnectPolicy) : Overflow policy where
  raises k := decide (maxFloat < policy.multiplier ^ k)
  upward _ _ hkl hk := decide_eq_true
    ((of_decide_eq_true hk).trans_le (pow_le_pow_right₀ policy.one_le_multiplier hkl))
  large _ hk := of_decide_eq_true hk

namespace ReconnectPolicy

/-- `unbounded_delay` -/
def unboundedDelay (policy : ReconnectPolicy) (overflow : Overflow policy) (attempt : ℕ) : ℚ :=
  if overflow.raises attempt then policy.maximumDelay
  else policy.initialDelay * policy.multiplier ^ attempt

/-- `delay_for_attempt` -/
def delayForAttempt (policy : ReconnectPolicy) (overflow : Overflow policy) (attempt : ℕ)
    (sample : Sample) : ℚ :=
  let delay := min policy.maximumDelay (policy.unboundedDelay overflow attempt)
  if policy.jitter = 0 then delay else delay * (1 + (2 * sample.1 - 1) * policy.jitter)

variable (policy : ReconnectPolicy) (overflow : Overflow policy)

/-- The delay with its jitter in one formula: without jitter the factor is one. -/
theorem delayForAttempt_eq (attempt : ℕ) (sample : Sample) :
    policy.delayForAttempt overflow attempt sample =
      min policy.maximumDelay (policy.unboundedDelay overflow attempt) *
        (1 + (2 * sample.1 - 1) * policy.jitter) := by
  unfold delayForAttempt
  split
  · next h => simp [h]
  · rfl

/-- `maximum_delay` is positive, as it is not below `initial_delay`. -/
theorem maximumDelay_pos : 0 < policy.maximumDelay :=
  policy.initialDelay_pos.trans_le policy.initialDelay_le

/-- The delay before the cap is positive. -/
theorem unboundedDelay_pos (attempt : ℕ) : 0 < policy.unboundedDelay overflow attempt := by
  have hmultiplier := zero_lt_one.trans_le policy.one_le_multiplier
  unfold unboundedDelay
  split
  · exact policy.maximumDelay_pos
  · exact mul_pos policy.initialDelay_pos (pow_pos hmultiplier attempt)

/-- What jitter makes of a delay is between nothing and twice the delay. -/
theorem jitterFactor_mem (sample : Sample) :
    0 ≤ 1 + (2 * sample.1 - 1) * policy.jitter ∧
      1 + (2 * sample.1 - 1) * policy.jitter ≤ 1 + policy.jitter := by
  obtain ⟨r, hr0, hr1⟩ := sample
  have h0 := policy.jitter_nonneg
  have h1 := policy.jitter_le_one
  have hlow : -1 * policy.jitter ≤ (2 * r - 1) * policy.jitter :=
    mul_le_mul_of_nonneg_right (by linarith) h0
  have hhigh : (2 * r - 1) * policy.jitter ≤ 1 * policy.jitter :=
    mul_le_mul_of_nonneg_right (by linarith) h0
  constructor
  · linarith
  · linarith

/-- The delay is not negative, as the jitter is at most one. -/
theorem delayForAttempt_nonneg (attempt : ℕ) (sample : Sample) :
    0 ≤ policy.delayForAttempt overflow attempt sample := by
  rw [delayForAttempt_eq]
  have hdelay : 0 < min policy.maximumDelay (policy.unboundedDelay overflow attempt) :=
    lt_min policy.maximumDelay_pos (policy.unboundedDelay_pos overflow attempt)
  exact mul_nonneg hdelay.le (policy.jitterFactor_mem sample).1

/-- It is within the jitter of the maximum. -/
theorem delayForAttempt_le (attempt : ℕ) (sample : Sample) :
    policy.delayForAttempt overflow attempt sample ≤ policy.maximumDelay * (1 + policy.jitter) := by
  rw [delayForAttempt_eq]
  obtain ⟨hnonneg, hle⟩ := policy.jitterFactor_mem sample
  exact mul_le_mul (min_le_left _ _) hle hnonneg policy.maximumDelay_pos.le

/-- Without jitter delays do not shrink, also from an attempt on that overflows. -/
theorem delayForAttempt_mono (hjitter : policy.jitter = 0) {k l : ℕ} (hkl : k ≤ l)
    (r r' : Sample) :
    policy.delayForAttempt overflow k r ≤ policy.delayForAttempt overflow l r' := by
  have hdelay : ∀ n (r : Sample), policy.delayForAttempt overflow n r =
      min policy.maximumDelay (policy.unboundedDelay overflow n) := fun _ _ => if_pos hjitter
  rw [hdelay, hdelay]
  cases hl : overflow.raises l with
  | true =>
      have hmax : policy.unboundedDelay overflow l = policy.maximumDelay := if_pos hl
      rw [hmax, min_self]
      exact min_le_left _ _
  | false =>
      have hk : overflow.raises k = false := by
        cases hk : overflow.raises k with
        | false => rfl
        | true => exact absurd (overflow.upward k l hkl hk) (by simp [hl])
      have hpow : policy.multiplier ^ k ≤ policy.multiplier ^ l :=
        pow_le_pow_right₀ policy.one_le_multiplier hkl
      have hle : policy.unboundedDelay overflow k ≤ policy.unboundedDelay overflow l := by
        rw [unboundedDelay, unboundedDelay, hk, hl]
        exact mul_le_mul_of_nonneg_left hpow policy.initialDelay_pos.le
      exact min_le_min_left _ hle

/-- **The delays of a policy.** -/
structure Delays : Prop where
  exact : ∀ k (sample : Sample), overflow.raises k = false ∨
      policy.maximumDelay ≤ policy.initialDelay * policy.multiplier ^ k →
    policy.delayForAttempt overflow k sample =
      min policy.maximumDelay (policy.initialDelay * policy.multiplier ^ k) *
        (1 + (2 * sample.1 - 1) * policy.jitter)
  /-- A power that overflows counts as more than the maximum. -/
  saturated : ∀ k (sample : Sample), overflow.raises k = true →
    policy.delayForAttempt overflow k sample =
      policy.maximumDelay * (1 + (2 * sample.1 - 1) * policy.jitter)
  nonneg : ∀ k sample, 0 ≤ policy.delayForAttempt overflow k sample
  le_maximum : ∀ k sample,
    policy.delayForAttempt overflow k sample ≤ policy.maximumDelay * (1 + policy.jitter)
  mono : policy.jitter = 0 → ∀ k l sample sample', k ≤ l →
    policy.delayForAttempt overflow k sample ≤ policy.delayForAttempt overflow l sample'

/-- **The delays of a policy**, with the powers that overflow. -/
theorem delays : policy.Delays overflow where
  exact k sample hk := by
    have hunbounded : min policy.maximumDelay (policy.unboundedDelay overflow k) =
        min policy.maximumDelay (policy.initialDelay * policy.multiplier ^ k) := by
      unfold unboundedDelay
      split
      · next hraises => rw [min_self, min_eq_left (hk.resolve_left (by simp [hraises]))]
      · rfl
    rw [delayForAttempt_eq, hunbounded]
  saturated k sample hk := by
    have hunbounded : policy.unboundedDelay overflow k = policy.maximumDelay := if_pos hk
    rw [delayForAttempt_eq, hunbounded, min_self]
  nonneg := policy.delayForAttempt_nonneg overflow
  le_maximum := policy.delayForAttempt_le overflow
  mono hjitter _ _ sample sample' hkl :=
    policy.delayForAttempt_mono overflow hjitter hkl sample sample'

/-- The check of `initial_delay` for `slow`. -/
theorem slow_initialDelay_pos : (0 : ℚ) < 1 / 2 ^ 1000 := by norm_num

/-- The check of `multiplier` for `slow`. -/
theorem slow_one_le_multiplier : (1 : ℚ) ≤ 2 := one_le_two

/-- The check of `maximum_delay` for `slow`. -/
theorem slow_initialDelay_le : (1 : ℚ) / 2 ^ 1000 ≤ 2 ^ 100 :=
  (div_le_self zero_le_one (one_le_pow₀ one_le_two)).trans (one_le_pow₀ one_le_two)

/-- No jitter. -/
theorem slow_jitter_nonneg : (0 : ℚ) ≤ 0 := le_rfl

/-- No jitter. -/
theorem slow_jitter_le_one : (0 : ℚ) ≤ 1 := zero_le_one

/-- A policy whose delay doubles 1100 times before it reaches the maximum. -/
def slow : ReconnectPolicy where
  enabled := true
  initialDelay := 1 / 2 ^ 1000
  multiplier := 2
  maximumDelay := 2 ^ 100
  jitter := 0
  maxAttempts := none
  initialDelay_pos := slow_initialDelay_pos
  one_le_multiplier := slow_one_le_multiplier
  initialDelay_le := slow_initialDelay_le
  jitter_nonneg := slow_jitter_nonneg
  jitter_le_one := slow_jitter_le_one
  maxAttempts_pos := nofun

/-- The part of the policy that decides whether a loop goes on. -/
def attempts (policy : ReconnectPolicy) : Reconnect.Policy := ⟨policy.enabled, policy.maxAttempts⟩

end ReconnectPolicy

namespace ReconnectLoops

open Reconnect (Loop LoopPc Answer)

variable {E P : Type}

/-! ## What a loop does -/

/-- What a reconnect loop has done. -/
inductive Event
  /-- `_sleep` -/
  | slept (delay : ℚ)
  /-- `_connect_discovered` was called. -/
  | attempted
  /-- Its attempts were used up, or there was no fresh observation. -/
  | gaveUp
  /-- `mark_disconnected` -/
  | marked
  deriving DecidableEq

/-- The node with its manager, and what the loops did. -/
structure State (E : Type) where
  node : Reconnect.Node Str
  manager : ConnectionManager.Manager E
  /-- What each loop has done. -/
  trace : ℕ → List Event

/-- `__init__` -/
def initial : State E := ⟨Reconnect.initial, ConnectionManager.initial, fun _ => []⟩

/-- What happens in one step. -/
inductive Label (E : Type)
  /-- A step of the node; `sample` is what `random.random()` gives in it. -/
  | node (l : Reconnect.Label Str) (sample : Sample)
  /-- A step of the manager. -/
  | manager (l : ConnectionManager.Label E)
  /-- The shared open attempt that a loop waits for is cancelled. -/
  | attemptCancelled (t : ℕ)

/-- The head of the loop gives up. -/
def headEvents (policy : ReconnectPolicy) (s : Reconnect.Node Str) (loop : Loop Str)
    (fresh : Bool) : List Event :=
  if s.running && !s.suppressed loop.peer then
    if policy.maxAttempts.any (· ≤ loop.attempt) || !(s.known loop.peer && fresh) then [.gaveUp]
    else []
  else []

/-- The head of the loop after a failed attempt. -/
def failedEvents (policy : ReconnectPolicy) (s : Reconnect.Node Str) (loop : Loop Str)
    (fresh : Bool) : Answer → List Event
  | .raised => headEvents policy s { loop with attempt := loop.attempt + 1 } fresh
  | _ => []

/-- What a loop does in a step. -/
def loopEvents (policy : ReconnectPolicy) (overflow : Overflow policy) (s : Reconnect.Node Str)
    (loop : Loop Str) (fresh : Bool) (answer : Answer) (sample : Sample) : List Event :=
  match loop.pc with
  | .created => headEvents policy s loop fresh
  | .marking => [.slept (policy.delayForAttempt overflow loop.attempt sample)]
  | .sleeping =>
      if !s.running || s.suppressed loop.peer then []
      else .attempted :: failedEvents policy s loop fresh answer
  | .locking | .opening => failedEvents policy s loop fresh answer
  | .closing => headEvents policy s { loop with attempt := loop.attempt + 1 } fresh
  | .leaving => [.marked]
  | .ended => []

/-- What a loop calls of the manager in a step. -/
def loopMarks (manager : ConnectionManager.Manager E) (loop : Loop Str) :
    ConnectionManager.Manager E :=
  match loop.pc with
  | .marking => manager.markReconnecting loop.peer
  | .leaving => manager.markDisconnected loop.peer
  | _ => manager

/-- One step. -/
def step (policy : ReconnectPolicy) (overflow : Overflow policy) (transport : Str) (s : State E) :
    Label E → Option (State E)
  | .manager l =>
      (ConnectionManager.step transport s.manager l).map fun manager => { s with manager }
  | .attemptCancelled t =>
      (s.node.loops t).bind fun loop =>
        if loop.pc = .opening then
          some { s with node := s.node.setLoop t { loop with pc := .ended } }
        else none
  | .node l sample =>
      (Reconnect.step policy.attempts s.node l).map fun node =>
        match l with
        | .resumeLoop t fresh answer =>
            match s.node.loops t with
            | some loop =>
                if loop.cancelled then { s with node }
                else
                  { node
                    manager := loopMarks s.manager loop
                    trace := Function.update s.trace t
                      (s.trace t ++ loopEvents policy overflow s.node loop fresh answer sample) }
            | none => { s with node }
        | _ => { s with node }

/-- The runs of a node and its manager. -/
def system (E : Type) (policy : ReconnectPolicy) (overflow : Overflow policy) (transport : Str) :
    System (State E) (Label E) where
  init s := s = initial
  step := step policy overflow transport

/-! ## The law -/

/-- The trace of `n` rounds: each attempt after one sleep of the delay that is due. -/
inductive Rounds (policy : ReconnectPolicy) (overflow : Overflow policy) : ℕ → List Event → Prop
  | nil : Rounds policy overflow 0 []
  | round {n : ℕ} {l : List Event} (sample : Sample) (h : Rounds policy overflow n l) :
      Rounds policy overflow (n + 1)
        (l ++ [.slept (policy.delayForAttempt overflow n sample), .attempted])

/-- What may follow the last attempt of a loop. -/
inductive Rest (policy : ReconnectPolicy) (overflow : Overflow policy) (n : ℕ) : List Event → Prop
  | nothing : Rest policy overflow n []
  | asleep (sample : Sample) (hn : ∀ m, policy.maxAttempts = some m → n < m) :
      Rest policy overflow n [.slept (policy.delayForAttempt overflow n sample)]
  | gaveUp : Rest policy overflow n [.gaveUp]
  | marked : Rest policy overflow n [.marked]
  | left : Rest policy overflow n [.gaveUp, .marked]

/-- The step cancels the loop of the peer: `disconnect`, a stop, or a `connect` that has
its connection. -/
inductive Cancels : Reconnect.Label P → P → Prop
  | stop (q : P) : Cancels .beginStop q
  | refresh (q : P) : Cancels .refresh q
  | connect (q : P) : Cancels (.connectDone q) q
  | disconnect (q : P) : Cancels (.disconnect q) q

/-- **Reconnect follows its policy** in a state. -/
structure FollowsPolicy (policy : ReconnectPolicy) (overflow : Overflow policy) (transport : Str)
    (s : State E) : Prop where
  /-- A peer has at most one unfinished loop. -/
  one : ∀ i j loop loop', s.node.loops i = some loop → s.node.loops j = some loop' →
    loop.pc ≠ .ended → loop'.pc ≠ .ended → loop.peer = loop'.peer → i = j
  /-- A loop makes no more than `max_attempts` attempts, each after its sleep. -/
  rounds : ∀ t, ∃ n rounds rest, s.trace t = rounds ++ rest ∧ Rounds policy overflow n rounds ∧
    Rest policy overflow n rest ∧ ∀ m, policy.maxAttempts = some m → n ≤ m
  /-- A loop that gave up is about to mark the peer, or has done so, or was cancelled. -/
  givenUp : ∀ t loop, s.node.loops t = some loop → .gaveUp ∈ s.trace t →
    loop.pc = .leaving ∨ loop.pc = .ended ∧ (loop.cancelled = true ∨ .marked ∈ s.trace t)
  /-- Nothing else cancels a loop. -/
  cancels : ∀ l t i loop loop', step policy overflow transport s l = some t →
    s.node.loops i = some loop → t.node.loops i = some loop' → loop.cancelled = false →
    loop'.cancelled = true → ∃ l' sample, l = .node l' sample ∧ Cancels l' loop.peer
  /-- When a loop marks its peer, the peer is DISCONNECTED unless it has a connection
  or is being closed. -/
  marks : ∀ l t i loop, step policy overflow transport s l = some t →
    s.node.loops i = some loop → t.trace i = s.trace i ++ [.marked] →
    t.manager.state loop.peer = .disconnected ∨ (t.manager.getById loop.peer).2 ≠ none ∨
      t.manager.closingPeers loop.peer = true

/-! ## One loop of a peer -/

section Loops

variable {s t u : Reconnect.Node P} {C : P → Prop}

/-- `_reconnect_tasks` has every unfinished loop. -/
structure Tidy (s : Reconnect.Node P) : Prop where
  fresh : ∀ i loop, s.loops i = some loop → i < s.nextLoop
  owner : ∀ q i, s.reconnectTasks q = some i → ∃ loop, s.loops i = some loop ∧ loop.peer = q
  registered : ∀ i loop, s.loops i = some loop → loop.pc ≠ .ended →
    s.reconnectTasks loop.peer = some i

/-- A loop is where it was, though perhaps cancelled. -/
structure Alike (C : P → Prop) (loop loop' : Loop P) : Prop where
  peer : loop'.peer = loop.peer
  pc : loop'.pc = loop.pc
  attempt : loop'.attempt = loop.attempt
  cancelled : loop'.cancelled = loop.cancelled ∨ loop'.cancelled = true ∧ C loop.peer

/-- A loop is like itself. -/
theorem Alike.refl (C : P → Prop) (loop : Loop P) : Alike C loop loop :=
  ⟨rfl, rfl, rfl, Or.inl rfl⟩

/-- Two moves of a loop. -/
theorem Alike.trans {C : P → Prop} {loop loop' loop'' : Loop P} (h : Alike C loop loop')
    (h' : Alike C loop' loop'') : Alike C loop loop'' where
  peer := h'.peer.trans h.peer
  pc := h'.pc.trans h.pc
  attempt := h'.attempt.trans h.attempt
  cancelled := by
    obtain heq' | ⟨htrue, hC⟩ := h'.cancelled
    · rw [heq']
      exact h.cancelled
    · exact Or.inr ⟨htrue, h.peer ▸ hC⟩

/-- Loops are where they were, or new. -/
structure Kept (C : P → Prop) (s t : Reconnect.Node P) : Prop where
  absent : ∀ i, t.loops i = none → s.loops i = none
  loops : ∀ i loop', t.loops i = some loop' →
    (∃ loop, s.loops i = some loop ∧ Alike C loop loop') ∨
    s.loops i = none ∧ loop'.pc = .created ∧ loop'.attempt = 0

/-- Nothing happened to the loops. -/
theorem Kept.of_eq (h : t.loops = s.loops) : Kept C s t where
  absent _ hi := h ▸ hi
  loops _ loop' hi := Or.inl ⟨loop', h ▸ hi, .refl C loop'⟩

/-- Two changes of the node. -/
theorem Kept.trans (h : Kept C s t) (h' : Kept C t u) : Kept C s u where
  absent i hi := h.absent i (h'.absent i hi)
  loops i loop'' hi := by
    obtain ⟨loop', hl', halike'⟩ | ⟨hnone, hnew⟩ := h'.loops i loop'' hi
    · obtain ⟨loop, hl, halike⟩ | ⟨hnone, hpc, hattempt⟩ := h.loops i loop' hl'
      · exact Or.inl ⟨loop, hl, halike.trans halike'⟩
      · exact Or.inr ⟨hnone, halike'.pc.trans hpc, halike'.attempt.trans hattempt⟩
    · exact Or.inr ⟨h.absent i hnone, hnew⟩

/-- Nothing happened to the loops or their table. -/
theorem Tidy.of_eq (h : Tidy s) (hloops : t.loops = s.loops)
    (htasks : t.reconnectTasks = s.reconnectTasks) (hnext : t.nextLoop = s.nextLoop) : Tidy t where
  fresh := by rw [hloops, hnext]; exact h.fresh
  owner := by rw [hloops, htasks]; exact h.owner
  registered := by rw [hloops, htasks]; exact h.registered

/-- The loops after one of them was set. -/
theorem loops_setLoop {i j : ℕ} {loop other : Loop P}
    (hj : (s.setLoop i loop).loops j = some other) :
    (j = i ∧ other = loop) ∨ (j ≠ i ∧ s.loops j = some other) := by
  change Function.update s.loops i (some loop) j = some other at hj
  by_cases hji : j = i
  · rw [hji, Function.update_self] at hj
    exact Or.inl ⟨hji, (Option.some.inj hj).symm⟩
  · rw [Function.update_of_ne hji] at hj
    exact Or.inr ⟨hji, hj⟩

/-- A loop moves on, or ends. -/
theorem Tidy.setLoop (h : Tidy s) {i : ℕ} {loop loop' : Loop P} (hl : s.loops i = some loop)
    (hpeer : loop'.peer = loop.peer) (hlive : loop'.pc ≠ .ended → loop.pc ≠ .ended) :
    Tidy (s.setLoop i loop') := by
  refine ⟨fun j other hj => ?_, fun q j hq => ?_, fun j other hj he => ?_⟩
  · obtain ⟨rfl, -⟩ | ⟨-, hj⟩ := loops_setLoop hj
    · exact h.fresh _ loop hl
    · exact h.fresh j other hj
  · obtain ⟨other, hj, hq'⟩ := h.owner q j hq
    by_cases hji : j = i
    · subst hji
      cases hl.symm.trans hj
      exact ⟨loop', Function.update_self .., hpeer.trans hq'⟩
    · exact ⟨other, (Function.update_of_ne hji _ _).trans hj, hq'⟩
  · obtain ⟨rfl, rfl⟩ | ⟨-, hj⟩ := loops_setLoop hj
    · rw [hpeer]
      exact h.registered _ loop hl (hlive he)
    · exact h.registered j other hj he

/-- One loop moves. -/
theorem kept_setLoop {i : ℕ} {loop loop' : Loop P} (hl : s.loops i = some loop)
    (halike : Alike C loop loop') : Kept C s (s.setLoop i loop') where
  absent j hj := by
    change Function.update s.loops i (some loop') j = none at hj
    by_cases hji : j = i
    · rw [hji, Function.update_self] at hj
      cases hj
    · rwa [Function.update_of_ne hji] at hj
  loops j other hj := by
    obtain ⟨rfl, rfl⟩ | ⟨-, hj⟩ := loops_setLoop hj
    · exact Or.inl ⟨loop, hl, halike⟩
    · exact Or.inl ⟨other, hj, .refl C other⟩

/-- A call of `cancel()` ends no loop at once. -/
theorem tidy_cancelLoop (h : Tidy s) {q : P} (hC : C q) :
    Tidy (s.cancelLoop q) ∧ Kept C s (s.cancelLoop q) := by
  unfold Reconnect.Node.cancelLoop
  split
  · next i htask =>
      split
      · next loop hl =>
          obtain ⟨loop', hl', hpeer⟩ := h.owner q i htask
          cases hl.symm.trans hl'
          have hcancelled : C loop.peer := hpeer ▸ hC
          exact ⟨h.setLoop hl rfl id, kept_setLoop hl ⟨rfl, rfl, rfl, Or.inr ⟨rfl, hcancelled⟩⟩⟩
      · exact ⟨h, .of_eq rfl⟩
  · exact ⟨h, .of_eq rfl⟩

/-- The loops of a node that has cancelled them. -/
theorem loops_cancelLoops (hC : ∀ q, C q) {i : ℕ} {loop' : Loop P}
    (hi : s.cancelLoops.loops i = some loop') :
    ∃ loop, s.loops i = some loop ∧ Alike C loop loop' := by
  obtain ⟨loop, hl, rfl⟩ := Option.map_eq_some_iff.1 hi
  refine ⟨loop, hl, ?_⟩
  split
  · exact ⟨rfl, rfl, rfl, Or.inr ⟨rfl, hC loop.peer⟩⟩
  · exact .refl C loop

/-- A stop cancels the loops. -/
theorem tidy_beginStop (h : Tidy s) (hC : ∀ q, C q) (refresh : Option (P → Bool)) :
    Tidy (s.beginStop refresh) ∧ Kept C s (s.beginStop refresh) := by
  constructor
  · refine ⟨fun i loop' hi => ?_, fun q i hq => ?_, fun i loop' hi he => ?_⟩
    · obtain ⟨loop, hl, -⟩ := loops_cancelLoops hC hi
      exact h.fresh i loop hl
    · obtain ⟨loop, hl, hp⟩ := h.owner q i hq
      refine ⟨_, Option.map_eq_some_iff.2 ⟨loop, hl, rfl⟩, ?_⟩
      split <;> exact hp
    · obtain ⟨loop, hl, halike⟩ := loops_cancelLoops hC hi
      rw [halike.peer]
      exact h.registered i loop hl (halike.pc ▸ he)
  · refine ⟨fun i hi => Option.map_eq_none_iff.1 hi, fun i loop' hi => ?_⟩
    exact Or.inl (loops_cancelLoops hC hi)

/-- Steps that only touch what the loops do not depend on. -/
theorem tidy_of_eq (h : Tidy s) (hloops : t.loops = s.loops)
    (htasks : t.reconnectTasks = s.reconnectTasks) (hnext : t.nextLoop = s.nextLoop) :
    Tidy t ∧ Kept C s t :=
  ⟨h.of_eq hloops htasks hnext, .of_eq hloops⟩

variable [DecidableEq P] {policy : Reconnect.Policy}

/-- **A loop is started for a peer that has none.** -/
theorem tidy_scheduleReconnect (h : Tidy s) (q : P) (fresh : Bool) :
    Tidy (s.scheduleReconnect policy q fresh) ∧
      Kept C s (s.scheduleReconnect policy q fresh) := by
  unfold Reconnect.Node.scheduleReconnect
  split
  · exact ⟨h, .of_eq rfl⟩
  split
  · exact ⟨h, .of_eq rfl⟩
  split
  · exact ⟨h, .of_eq rfl⟩
  next hidle =>
  have hnone : s.loops s.nextLoop = none := by
    cases hl : s.loops s.nextLoop with
    | none => rfl
    | some loop => exact absurd (h.fresh _ loop hl) (lt_irrefl _)
  have hold : ∀ j loop, Function.update s.loops s.nextLoop (some ⟨q, .created, 0, false⟩) j =
      some loop → (j = s.nextLoop ∧ loop = ⟨q, .created, 0, false⟩) ∨
        (j ≠ s.nextLoop ∧ s.loops j = some loop) := by
    intro j loop hj
    by_cases hji : j = s.nextLoop
    · rw [hji, Function.update_self] at hj
      exact Or.inl ⟨hji, (Option.some.inj hj).symm⟩
    · rw [Function.update_of_ne hji] at hj
      exact Or.inr ⟨hji, hj⟩
  refine ⟨⟨fun j loop hj => ?_, fun q' j hq' => ?_, fun j loop hj he => ?_⟩,
    fun j hj => ?_, fun j loop hj => ?_⟩
  · obtain ⟨rfl, -⟩ | ⟨-, hj⟩ := hold j loop hj
    · exact Nat.lt_succ_self _
    · exact (h.fresh j loop hj).trans (Nat.lt_succ_self _)
  · by_cases hqq : q' = q
    · subst hqq
      simp only [Reconnect.Node.record, Function.update_self] at hq'
      cases hq'
      exact ⟨_, Function.update_self .., rfl⟩
    · simp only [Reconnect.Node.record, Function.update_of_ne hqq] at hq'
      obtain ⟨loop, hl, hpeer⟩ := h.owner q' j hq'
      exact ⟨loop, (Function.update_of_ne (h.fresh j loop hl).ne _ _).trans hl, hpeer⟩
  · obtain ⟨rfl, rfl⟩ | ⟨hne, hj⟩ := hold j loop hj
    · exact Function.update_self ..
    · have htask := h.registered j loop hj he
      by_cases hqq : loop.peer = q
      · rw [hqq] at htask
        simp [Reconnect.Node.isReconnecting, htask, Reconnect.Node.isDone, hj, he] at hidle
      · exact (Function.update_of_ne hqq _ _).trans htask
  · by_cases hji : j = s.nextLoop
    · rw [hji]
      exact hnone
    · simpa [Reconnect.Node.record, Function.update_of_ne hji] using hj
  · obtain ⟨rfl, rfl⟩ | ⟨-, hj⟩ := hold j loop hj
    · exact Or.inr ⟨hnone, rfl, rfl⟩
    · exact Or.inl ⟨loop, hj, .refl C loop⟩

/-- Loops are started for the peers that were found again. -/
theorem tidy_scheduleAll (refresh : P → Bool) (found : List (P × Bool)) {s : Reconnect.Node P}
    (h : Tidy s) : Tidy (s.scheduleAll policy refresh found) ∧
      Kept C s (s.scheduleAll policy refresh found) := by
  induction found generalizing s with
  | nil => exact ⟨h, .of_eq rfl⟩
  | cons peer found ih =>
      obtain ⟨q, fresh⟩ := peer
      unfold Reconnect.Node.scheduleAll
      split
      · have hscheduled : Tidy (s.scheduleReconnect policy q fresh) ∧
            Kept C s (s.scheduleReconnect policy q fresh) := tidy_scheduleReconnect h q fresh
        obtain ⟨htidy, hkept⟩ := hscheduled
        obtain ⟨htidy', hkept'⟩ := ih htidy
        exact ⟨htidy', hkept.trans hkept'⟩
      · exact ih h

/-- Remembering peers touches no loop. -/
theorem rememberAll_eq (found : List P) (s : Reconnect.Node P) :
    (found.foldl Reconnect.Node.remember s).loops = s.loops ∧
      (found.foldl Reconnect.Node.remember s).reconnectTasks = s.reconnectTasks ∧
      (found.foldl Reconnect.Node.remember s).nextLoop = s.nextLoop := by
  induction found generalizing s with
  | nil => exact ⟨rfl, rfl, rfl⟩
  | cons q found ih => exact ih (s.remember q)

/-- **Every step but that of a loop keeps the loops where they are.** -/
theorem tidy_step (h : Tidy s) {l : Reconnect.Label P}
    (hl : ∀ i fresh answer, l ≠ .resumeLoop i fresh answer)
    (hs : Reconnect.step policy s l = some t) : Tidy t ∧ Kept (Cancels l) s t := by
  cases l with
  | start =>
      simp only [Reconnect.step] at hs
      split at hs
      · split at hs <;> cases hs
        exact tidy_of_eq h rfl rfl rfl
      · cases hs
  | callStop =>
      cases hs
      exact tidy_of_eq h rfl rfl rfl
  | beginStop =>
      simp only [Reconnect.step] at hs
      split at hs
      · split at hs <;> cases hs
        · obtain ⟨htidy, hkept⟩ := tidy_beginStop h Cancels.stop none
          exact ⟨htidy.of_eq rfl rfl rfl, hkept.trans (.of_eq rfl)⟩
        · exact tidy_of_eq h rfl rfl rfl
      · cases hs
  | refresh =>
      simp only [Reconnect.step] at hs
      split at hs
      · split at hs <;> cases hs
        exact tidy_beginStop h Cancels.refresh _
      · cases hs
  | clear =>
      have hclear : s.gathered → ∀ lifecycle, Tidy (s.clear lifecycle) ∧
          Kept (Cancels .clear) s (s.clear lifecycle) := by
        intro hgathered lifecycle
        refine ⟨⟨h.fresh, fun q i hq => ?_, fun i loop hi he => ?_⟩, .of_eq rfl⟩
        · cases hq
        exact absurd (hgathered i (h.fresh i loop hi) loop hi (h.registered i loop hi he)) he
      simp only [Reconnect.step] at hs
      split at hs
      · split at hs <;> cases hs
        next hgathered => exact hclear hgathered _
      · split at hs <;> cases hs
        next hgathered => exact hclear hgathered _
      · cases hs
  | restarted failed =>
      simp only [Reconnect.step] at hs
      split at hs
      · split at hs <;> cases hs
        · exact tidy_of_eq h rfl rfl rfl
        · exact tidy_of_eq h rfl rfl rfl
      · cases hs
  | rediscovered found =>
      simp only [Reconnect.step] at hs
      split at hs
      · next peers _ =>
          cases hs
          obtain ⟨hloops, htasks, hnext⟩ := rememberAll_eq (found.map Prod.fst) s
          have hremembered : Tidy ((found.map Prod.fst).foldl Reconnect.Node.remember s) :=
            h.of_eq hloops htasks hnext
          have hscheduled : Tidy (((found.map Prod.fst).foldl Reconnect.Node.remember s).scheduleAll
              policy peers found) ∧ Kept (Cancels (.rediscovered found))
                ((found.map Prod.fst).foldl Reconnect.Node.remember s)
                (((found.map Prod.fst).foldl Reconnect.Node.remember s).scheduleAll policy peers
                  found) := tidy_scheduleAll peers found hremembered
          obtain ⟨htidy, hkept⟩ := hscheduled
          exact ⟨htidy.of_eq rfl rfl rfl, ((Kept.of_eq hloops).trans hkept).trans (.of_eq rfl)⟩
      · cases hs
  | discovered found =>
      cases hs
      obtain ⟨hloops, htasks, hnext⟩ := rememberAll_eq found s
      exact tidy_of_eq h hloops htasks hnext
  | connect q =>
      simp only [Reconnect.step] at hs
      split at hs <;> cases hs
      exact tidy_of_eq h rfl rfl rfl
  | connectDone q =>
      cases hs
      have hremember : Tidy (s.remember q) := h.of_eq rfl rfl rfl
      obtain ⟨htidy, hkept⟩ := tidy_cancelLoop hremember (Cancels.connect q)
      have hfirst : Kept (Cancels (.connectDone q)) s (s.remember q) := .of_eq rfl
      exact ⟨htidy, hfirst.trans hkept⟩
  | disconnect q =>
      cases hs
      have hrecord : Tidy ({ s with suppressed := Function.update s.suppressed q true }.record
          (.disconnected q)) := h.of_eq rfl rfl rfl
      obtain ⟨htidy, hkept⟩ := tidy_cancelLoop hrecord (Cancels.disconnect q)
      have hfirst : Kept (Cancels (.disconnect q)) s
          ({ s with suppressed := Function.update s.suppressed q true }.record
            (.disconnected q)) := .of_eq rfl
      exact ⟨htidy, hfirst.trans hkept⟩
  | dropSession q =>
      cases hs
      exact tidy_of_eq h rfl rfl rfl
  | publish c q =>
      cases hs
      exact tidy_of_eq h rfl rfl rfl
  | endReader c =>
      obtain ⟨q, -, rfl⟩ := Option.map_eq_some_iff.1 hs
      exact tidy_of_eq h rfl rfl rfl
  | connectionEnded c removed fresh =>
      obtain ⟨⟨q, wasCanonical⟩, -, rfl⟩ := Option.map_eq_some_iff.1 hs
      have hended : Tidy { s with endings := Function.update s.endings c none } :=
        h.of_eq rfl rfl rfl
      dsimp only
      split
      · obtain ⟨htidy, hkept⟩ := tidy_scheduleReconnect hended q fresh
        have hfirst : Kept (Cancels (.connectionEnded c removed fresh)) s
            { s with endings := Function.update s.endings c none } := .of_eq rfl
        exact ⟨htidy, hfirst.trans hkept⟩
      · exact tidy_of_eq h rfl rfl rfl
  | resumeLoop i fresh answer => exact absurd rfl (hl i fresh answer)
  | loopFinished i =>
      obtain ⟨loop, hloop, hs⟩ := Option.bind_eq_some_iff.1 hs
      split at hs <;> cases hs
      next hdone =>
        refine ⟨⟨h.fresh, fun q j hq => ?_, fun j other hj he => ?_⟩, .of_eq rfl⟩
        · by_cases hql : q = loop.peer
          · rw [hql] at hq
            simp only [Function.update_self] at hq
            cases hq
          · simp only [Function.update_of_ne hql] at hq
            exact h.owner q j hq
        · have htask := h.registered j other hj he
          by_cases hql : other.peer = loop.peer
          · rw [hql, hdone.2] at htask
            cases htask
            cases hloop.symm.trans hj
            exact absurd hdone.1 he
          · exact (Function.update_of_ne hql ..).trans htask

end Loops

/-! ## The trace of a loop -/

section Trace

variable {policy : ReconnectPolicy} {overflow : Overflow policy}

/-- The attempts so far leave one more. -/
def Below (policy : ReconnectPolicy) (n : ℕ) : Prop := ∀ m, policy.maxAttempts = some m → n < m

/-- At most `max_attempts` attempts. -/
def AtMost (policy : ReconnectPolicy) (n : ℕ) : Prop := ∀ m, policy.maxAttempts = some m → n ≤ m

/-- What a loop has done when it is where it is. -/
def TraceFits (policy : ReconnectPolicy) (overflow : Overflow policy) (loop : Loop Str) (l : List Event) :
    Prop :=
  match loop.pc with
  | .created => loop.attempt = 0 ∧ l = []
  | .marking => Rounds policy overflow loop.attempt l ∧ Below policy loop.attempt
  | .sleeping => ∃ rounds sample, Rounds policy overflow loop.attempt rounds ∧
      l = rounds ++ [.slept (policy.delayForAttempt overflow loop.attempt sample)] ∧
      Below policy loop.attempt
  | .locking | .opening | .closing =>
      Rounds policy overflow (loop.attempt + 1) l ∧ Below policy loop.attempt
  | .leaving => ∃ n rounds, Rounds policy overflow n rounds ∧ AtMost policy n ∧
      (l = rounds ∨ l = rounds ++ [.gaveUp])
  | .ended => ∃ n rounds rest, l = rounds ++ rest ∧ Rounds policy overflow n rounds ∧
      Rest policy overflow n rest ∧ AtMost policy n ∧ (rest = [.gaveUp] → loop.cancelled = true)

/-- One more attempt is within the bound. -/
theorem Below.succ_atMost {n : ℕ} (h : Below policy n) : AtMost policy (n + 1) :=
  fun m hm => h m hm

/-- What is below the bound is within it. -/
theorem Below.atMost {n : ℕ} (h : Below policy n) : AtMost policy n := fun m hm => (h m hm).le

/-- What has been done, in rounds. -/
theorem TraceFits.rounds {loop : Loop Str} {l : List Event}
    (h : TraceFits policy overflow loop l) :
    ∃ n rounds rest, l = rounds ++ rest ∧ Rounds policy overflow n rounds ∧
      Rest policy overflow n rest ∧ AtMost policy n := by
  unfold TraceFits at h
  split at h
  · obtain ⟨-, rfl⟩ := h
    exact ⟨0, [], [], rfl, .nil, .nothing, fun m _ => Nat.zero_le m⟩
  · exact ⟨_, l, [], (List.append_nil l).symm, h.1, .nothing, h.2.atMost⟩
  · obtain ⟨rounds, sample, hrounds, rfl, hbelow⟩ := h
    exact ⟨_, rounds, _, rfl, hrounds, .asleep sample hbelow, hbelow.atMost⟩
  · exact ⟨_, l, [], (List.append_nil l).symm, h.1, .nothing, h.2.succ_atMost⟩
  · exact ⟨_, l, [], (List.append_nil l).symm, h.1, .nothing, h.2.succ_atMost⟩
  · exact ⟨_, l, [], (List.append_nil l).symm, h.1, .nothing, h.2.succ_atMost⟩
  · obtain ⟨n, rounds, hrounds, hmost, rfl | rfl⟩ := h
    · exact ⟨n, l, [], (List.append_nil l).symm, hrounds, .nothing, hmost⟩
    · exact ⟨n, rounds, _, rfl, hrounds, .gaveUp, hmost⟩
  · obtain ⟨n, rounds, rest, hl, hrounds, hrest, hmost, -⟩ := h
    exact ⟨n, rounds, rest, hl, hrounds, hrest, hmost⟩

/-- A loop that is cancelled ends where it is. -/
theorem TraceFits.cancelled {loop : Loop Str} {l : List Event}
    (h : TraceFits policy overflow loop l) (hc : loop.cancelled = true) :
    TraceFits policy overflow { loop with pc := .ended } l := by
  obtain ⟨n, rounds, rest, hl, hrounds, hrest, hmost⟩ := h.rounds
  exact ⟨n, rounds, rest, hl, hrounds, hrest, hmost, fun _ => hc⟩

/-- A cancellation does not change what a loop has done. -/
theorem TraceFits.of_kept {loop loop' : Loop Str} {l : List Event}
    (h : TraceFits policy overflow loop l) (hpc : loop'.pc = loop.pc)
    (hattempt : loop'.attempt = loop.attempt)
    (hc : loop.cancelled = true → loop'.cancelled = true) : TraceFits policy overflow loop' l := by
  unfold TraceFits at h ⊢
  rw [hpc, hattempt]
  split at h
  · exact h
  · exact h
  · exact h
  · exact h
  · exact h
  · exact h
  · exact h
  · obtain ⟨n, rounds, rest, hl, hrounds, hrest, hmost, hgave⟩ := h
    exact ⟨n, rounds, rest, hl, hrounds, hrest, hmost, fun hr => hc (hgave hr)⟩

/-! ## A step of a loop -/

/-- The test of the loop for another attempt. -/
theorem Below.of_not {n : ℕ} (h : ¬policy.maxAttempts.any (· ≤ n) = true) : Below policy n := by
  intro m hm
  rw [hm] at h
  by_contra hle
  exact h (decide_eq_true (Nat.le_of_not_lt hle))

/-- At its head a loop goes on to its next round or leaves. -/
theorem loopHead_spec (s : Reconnect.Node Str) (i : ℕ) (loop : Loop Str) {l : List Event}
    (hrounds : Rounds policy overflow loop.attempt l) (hmost : AtMost policy loop.attempt)
    (fresh : Bool) :
    ∃ pc, s.loopHead policy.attempts i loop fresh = s.setLoop i { loop with pc } ∧
      TraceFits policy overflow { loop with pc } (l ++ headEvents policy s loop fresh) := by
  have hgaveUp : TraceFits policy overflow { loop with pc := .leaving } (l ++ [.gaveUp]) :=
    ⟨loop.attempt, l, hrounds, hmost, Or.inr rfl⟩
  have hleft : TraceFits policy overflow { loop with pc := .leaving } (l ++ []) :=
    ⟨loop.attempt, l, hrounds, hmost, Or.inl (List.append_nil l)⟩
  unfold Reconnect.Node.loopHead headEvents
  by_cases hrunning : (s.running && !s.suppressed loop.peer) = true
  · rw [if_pos hrunning, if_pos hrunning]
    change ∃ pc, (if policy.maxAttempts.any (· ≤ loop.attempt) then _ else _) = _ ∧ _
    by_cases hused : policy.maxAttempts.any (· ≤ loop.attempt) = true
    · rw [if_pos hused, hused, Bool.true_or, if_pos rfl]
      exact ⟨.leaving, rfl, hgaveUp⟩
    · rw [if_neg hused, Bool.eq_false_of_not_eq_true hused, Bool.false_or]
      by_cases hknown : (s.known loop.peer && fresh) = true
      · rw [if_pos hknown, hknown, if_neg (by simp), List.append_nil]
        exact ⟨.marking, rfl, hrounds, .of_not hused⟩
      · rw [if_neg hknown, Bool.eq_false_of_not_eq_true hknown, if_pos (by rfl)]
        exact ⟨.leaving, rfl, hgaveUp⟩
  · rw [if_neg hrunning, if_neg hrunning]
    exact ⟨.leaving, rfl, hleft⟩

/-- What a step of loop `i` leaves of the other loops. -/
structure Resumed (s : Reconnect.Node Str) (i : ℕ) (loop loop' : Loop Str)
    (t : Reconnect.Node Str) : Prop where
  node : ∃ u : Reconnect.Node Str, t = u.setLoop i loop' ∧ u.loops = s.loops ∧
    u.reconnectTasks = s.reconnectTasks ∧ u.nextLoop = s.nextLoop
  peer : loop'.peer = loop.peer
  cancelled : loop'.cancelled = loop.cancelled

/-- A failed attempt ends its round. -/
theorem attemptFailed_spec (s : Reconnect.Node Str) (i : ℕ) (loop : Loop Str) {l : List Event}
    (hrounds : Rounds policy overflow (loop.attempt + 1) l) (hbelow : Below policy loop.attempt)
    (fresh : Bool) :
    ∃ loop', Resumed s i loop loop' (s.attemptFailed policy.attempts i loop fresh) ∧
      TraceFits policy overflow loop'
        (l ++ headEvents policy s { loop with attempt := loop.attempt + 1 } fresh) := by
  have hmost : AtMost policy ({ loop with attempt := loop.attempt + 1 } : Loop Str).attempt :=
    hbelow.succ_atMost
  obtain ⟨pc, heq, hfits⟩ :=
    loopHead_spec s i { loop with attempt := loop.attempt + 1 } hrounds hmost fresh
  exact ⟨_, ⟨⟨s, heq, rfl, rfl, rfl⟩, rfl, rfl⟩, hfits⟩

/-- What the manager returned ends the loop, or its round. -/
theorem loopConnected_spec {s t : Reconnect.Node Str} {i : ℕ} {loop : Loop Str} {l : List Event}
    (hrounds : Rounds policy overflow (loop.attempt + 1) l) (hbelow : Below policy loop.attempt)
    (fresh : Bool) (answer : Answer)
    (hs : s.loopConnected policy.attempts i loop fresh answer = some t) :
    ∃ loop', Resumed s i loop loop' t ∧
      TraceFits policy overflow loop' (l ++ failedEvents policy s loop fresh answer) := by
  cases answer with
  | connection =>
      cases hs
      refine ⟨_, ⟨⟨s.remember loop.peer, rfl, rfl, rfl, rfl⟩, rfl, rfl⟩, ?_⟩
      exact ⟨_, l, [], rfl, hrounds, .nothing, hbelow.succ_atMost, fun h => by cases h⟩
  | sessionGone =>
      cases hs
      refine ⟨_, ⟨⟨s.remember loop.peer, rfl, rfl, rfl, rfl⟩, rfl, rfl⟩, ?_⟩
      change TraceFits policy overflow _ (l ++ [])
      rw [List.append_nil]
      exact ⟨hrounds, hbelow⟩
  | raised =>
      cases hs
      exact attemptFailed_spec s i loop hrounds hbelow fresh
  | «continue» => cases hs

/-- **A loop keeps its rounds.** -/
theorem resumeLoop_spec {s t : Reconnect.Node Str} {i : ℕ} {loop : Loop Str} {l : List Event}
    (hfits : TraceFits policy overflow loop l) {fresh : Bool} {answer : Answer}
    (hs : s.resumeLoop policy.attempts i loop fresh answer = some t) (sample : Sample) :
    ∃ loop', Resumed s i loop loop' t ∧ TraceFits policy overflow loop'
      (l ++ loopEvents policy overflow s loop fresh answer sample) := by
  obtain ⟨q, pc, attempt, cancelled⟩ := loop
  cases pc with
  | created =>
      obtain ⟨rfl, rfl⟩ := hfits
      cases hs
      have hmost : AtMost policy 0 := fun m _ => Nat.zero_le m
      have hnil : Rounds policy overflow 0 [] := .nil
      obtain ⟨pc, heq, hfits⟩ := loopHead_spec s i ⟨q, .created, 0, cancelled⟩ hnil hmost fresh
      exact ⟨_, ⟨⟨s, heq, rfl, rfl, rfl⟩, rfl, rfl⟩, hfits⟩
  | marking =>
      obtain ⟨hrounds, hbelow⟩ := hfits
      cases hs
      exact ⟨_, ⟨⟨s, rfl, rfl, rfl, rfl⟩, rfl, rfl⟩, l, sample, hrounds, rfl, hbelow⟩
  | sleeping =>
      obtain ⟨rounds, sample', hrounds, rfl, hbelow⟩ := hfits
      simp only [Reconnect.Node.resumeLoop] at hs
      unfold loopEvents
      dsimp only
      split at hs
      · next hstop =>
          cases hs
          rw [if_pos hstop, List.append_nil]
          refine ⟨_, ⟨⟨s, rfl, rfl, rfl, rfl⟩, rfl, rfl⟩, ?_⟩
          exact ⟨_, rounds, _, rfl, hrounds, .asleep sample' hbelow, hbelow.atMost,
            fun h => by cases h⟩
      · next hstop =>
          rw [if_neg hstop]
          have hround := Rounds.round sample' hrounds
          have hsplit : ∀ events : List Event,
              rounds ++ [.slept (policy.delayForAttempt overflow attempt sample')] ++
                (.attempted :: events) =
              rounds ++ [.slept (policy.delayForAttempt overflow attempt sample'), .attempted] ++
                events := by
            intro events
            simp
          rw [hsplit]
          cases answer with
          | connection =>
              cases hs
              refine ⟨_, ⟨⟨s.record (.attempted q), rfl, rfl, rfl, rfl⟩, rfl, rfl⟩, ?_⟩
              exact ⟨_, _, [], rfl, hround, .nothing, hbelow.succ_atMost, fun h => by cases h⟩
          | raised =>
              cases hs
              obtain ⟨loop', ⟨⟨u, heq, hu⟩, hpeer, hcancelled⟩, hfits⟩ := attemptFailed_spec
                (s.record (.attempted q)) i ⟨q, .sleeping, attempt, cancelled⟩ hround hbelow fresh
              exact ⟨loop', ⟨⟨u, heq, hu⟩, hpeer, hcancelled⟩, hfits⟩
          | «continue» =>
              cases hs
              refine ⟨_, ⟨⟨s.record (.attempted q), rfl, rfl, rfl, rfl⟩, rfl, rfl⟩, ?_⟩
              change TraceFits policy overflow _ (_ ++ [])
              rw [List.append_nil]
              exact ⟨hround, hbelow⟩
          | sessionGone => cases hs
  | locking =>
      obtain ⟨hrounds, hbelow⟩ := hfits
      cases answer with
      | «continue» =>
          cases hs
          refine ⟨_, ⟨⟨s.record (.attempted q), rfl, rfl, rfl, rfl⟩, rfl, rfl⟩, ?_⟩
          change TraceFits policy overflow _ (l ++ [])
          rw [List.append_nil]
          exact ⟨hrounds, hbelow⟩
      | connection => exact loopConnected_spec hrounds hbelow fresh .connection hs
      | sessionGone => exact loopConnected_spec hrounds hbelow fresh .sessionGone hs
      | raised => exact loopConnected_spec hrounds hbelow fresh .raised hs
  | opening => exact loopConnected_spec hfits.1 hfits.2 fresh answer hs
  | closing =>
      cases hs
      exact attemptFailed_spec s i _ hfits.1 hfits.2 fresh
  | leaving =>
      obtain ⟨n, rounds, hrounds, hmost, rfl | rfl⟩ := hfits
      · cases hs
        refine ⟨_, ⟨⟨s, rfl, rfl, rfl, rfl⟩, rfl, rfl⟩, ?_⟩
        exact ⟨n, l, _, rfl, hrounds, .marked, hmost, fun h => by cases h⟩
      · cases hs
        refine ⟨_, ⟨⟨s, rfl, rfl, rfl, rfl⟩, rfl, rfl⟩, ?_⟩
        exact ⟨n, rounds, _, List.append_assoc .., hrounds, .left, hmost, fun h => by cases h⟩
  | ended => cases hs

/-- A step of the node and its manager. -/
inductive Moved (policy : ReconnectPolicy) (overflow : Overflow policy) (s : State E) :
    Label E → State E → Prop
  | manager (l : ConnectionManager.Label E) (manager : ConnectionManager.Manager E) :
      Moved policy overflow s (.manager l) { s with manager }
  | attemptCancelled {i : ℕ} {loop : Loop Str} (hl : s.node.loops i = some loop)
      (hpc : loop.pc = .opening) :
      Moved policy overflow s (.attemptCancelled i)
        { s with node := s.node.setLoop i { loop with pc := .ended } }
  | node {l : Reconnect.Label Str} {node : Reconnect.Node Str} (sample : Sample)
      (hl : ∀ i fresh answer, l ≠ .resumeLoop i fresh answer)
      (hs : Reconnect.step policy.attempts s.node l = some node) :
      Moved policy overflow s (.node l sample) { s with node }
  | cancelled {i : ℕ} {loop : Loop Str} (fresh : Bool) (answer : Answer) (sample : Sample)
      (hl : s.node.loops i = some loop) (hc : loop.cancelled = true) :
      Moved policy overflow s (.node (.resumeLoop i fresh answer) sample)
        { s with node := s.node.setLoop i { loop with pc := .ended } }
  | resumed {i : ℕ} {loop : Loop Str} {fresh : Bool} {answer : Answer} (sample : Sample)
      {node : Reconnect.Node Str} (hl : s.node.loops i = some loop)
      (hs : s.node.resumeLoop policy.attempts i loop fresh answer = some node) :
      Moved policy overflow s (.node (.resumeLoop i fresh answer) sample)
        { node
          manager := loopMarks s.manager loop
          trace := Function.update s.trace i
            (s.trace i ++ loopEvents policy overflow s.node loop fresh answer sample) }

/-- **What one step does to each loop.** -/
theorem moved_of_step {transport : Str} {s t : State E} {l : Label E}
    (hs : step policy overflow transport s l = some t) : Moved policy overflow s l t := by
  cases l with
  | manager l =>
      obtain ⟨manager, -, rfl⟩ := Option.map_eq_some_iff.1 hs
      exact .manager l manager
  | attemptCancelled i =>
      obtain ⟨loop, hl, hs⟩ := Option.bind_eq_some_iff.1 hs
      split at hs
      · next hpc =>
          cases hs
          exact .attemptCancelled hl hpc
      · cases hs
  | node l sample =>
      obtain ⟨node, hnode, rfl⟩ := Option.map_eq_some_iff.1 hs
      by_cases hl : ∀ i fresh answer, l ≠ .resumeLoop i fresh answer
      · have hmoved : Moved policy overflow s (.node l sample) { s with node } :=
          .node sample hl hnode
        cases l with
        | resumeLoop i fresh answer => exact absurd rfl (hl i fresh answer)
        | _ => exact hmoved
      · push Not at hl
        obtain ⟨i, fresh, answer, rfl⟩ := hl
        obtain ⟨loop, hloop, hnode⟩ := Option.bind_eq_some_iff.1 hnode
        split at hnode
        · cases hnode
        split at hnode
        · next hc =>
            cases hnode
            simp only [hloop]
            rw [if_pos hc]
            exact .cancelled fresh answer sample hloop hc
        · next hc =>
            simp only [hloop]
            rw [if_neg hc]
            exact .resumed sample hloop hnode

/-- Each loop has done what its place says. -/
structure Inv (policy : ReconnectPolicy) (overflow : Overflow policy) (s : State E) : Prop where
  tidy : Tidy s.node
  absent : ∀ i, s.node.loops i = none → s.trace i = []
  fits : ∀ i loop, s.node.loops i = some loop → TraceFits policy overflow loop (s.trace i)

/-- No loop was started. -/
theorem inv_initial : Inv policy overflow (initial : State E) where
  tidy := by constructor <;> (intro _ _ h; cases h)
  absent _ _ := rfl
  fits _ _ h := by cases h

/-- A step of loop `i` alone. -/
theorem Inv.resumed {s t : State E} (h : Inv policy overflow s) {i : ℕ} {loop loop' : Loop Str}
    {l : List Event} (hl : s.node.loops i = some loop)
    (hlive : loop'.pc ≠ .ended → loop.pc ≠ .ended)
    (hresumed : Resumed s.node i loop loop' t.node) (htrace : t.trace = Function.update s.trace i l)
    (hfits : TraceFits policy overflow loop' l) : Inv policy overflow t := by
  obtain ⟨⟨u, heq, hloops, htasks, hnext⟩, hpeer, -⟩ := hresumed
  have htidy : Tidy u := h.tidy.of_eq hloops htasks hnext
  have hul : u.loops i = some loop := hloops ▸ hl
  constructor
  · rw [heq]
    exact htidy.setLoop hul hpeer hlive
  · intro j hj
    rw [heq] at hj
    change Function.update u.loops i (some loop') j = none at hj
    by_cases hji : j = i
    · rw [hji, Function.update_self] at hj
      cases hj
    · rw [Function.update_of_ne hji, hloops] at hj
      rw [htrace, Function.update_of_ne hji]
      exact h.absent j hj
  · intro j other hj
    rw [heq] at hj
    obtain ⟨rfl, rfl⟩ | ⟨hji, hj⟩ := loops_setLoop hj
    · rw [htrace, Function.update_self]
      exact hfits
    · rw [htrace, Function.update_of_ne hji]
      exact h.fits j other (hloops ▸ hj)

/-- **Every step keeps each loop to its policy.** -/
theorem inv_step {transport : Str} {s t : State E} {l : Label E} (h : Inv policy overflow s)
    (hs : step policy overflow transport s l = some t) : Inv policy overflow t := by
  cases moved_of_step hs with
  | manager l manager => exact ⟨h.tidy, h.absent, h.fits⟩
  | @attemptCancelled i loop hl hpc =>
      have hfits := h.fits i loop hl
      have hended : TraceFits policy overflow { loop with pc := .ended } (s.trace i) := by
        unfold TraceFits at hfits
        rw [hpc] at hfits
        exact ⟨_, s.trace i, [], (List.append_nil _).symm, hfits.1, .nothing,
          hfits.2.succ_atMost, fun h => by cases h⟩
      exact h.resumed hl (by simp) ⟨⟨s.node, rfl, rfl, rfl, rfl⟩, rfl, rfl⟩
        (Function.update_eq_self i s.trace).symm hended
  | @node l node sample hl hnode =>
      obtain ⟨htidy, hkept⟩ := tidy_step h.tidy hl hnode
      refine ⟨htidy, fun i hi => h.absent i (hkept.absent i hi), fun i loop' hi => ?_⟩
      obtain ⟨loop, hloop, halike⟩ | ⟨hnone, hpc, hattempt⟩ := hkept.loops i loop' hi
      · refine (h.fits i loop hloop).of_kept halike.pc halike.attempt fun hc => ?_
        obtain heq | ⟨htrue, -⟩ := halike.cancelled
        · exact heq.trans hc
        · exact htrue
      · unfold TraceFits
        rw [hpc]
        exact ⟨hattempt, h.absent i hnone⟩
  | @cancelled i loop fresh answer sample hl hc =>
      exact h.resumed hl (by simp) ⟨⟨s.node, rfl, rfl, rfl, rfl⟩, rfl, rfl⟩
        (Function.update_eq_self i s.trace).symm ((h.fits i loop hl).cancelled hc)
  | @resumed i loop fresh answer sample node hl hnode =>
      obtain ⟨loop', hresumed, hfits⟩ := resumeLoop_spec (h.fits i loop hl) hnode sample
      have hlive : loop.pc ≠ .ended := by
        intro hpc
        obtain ⟨q, pc, attempt, cancelled⟩ := loop
        cases hpc
        cases hnode
      exact h.resumed hl (fun _ => hlive) hresumed rfl hfits

end Trace

/-! ## The law holds -/

section Law

variable {policy : ReconnectPolicy} {overflow : Overflow policy} {transport : Str}

/-- A loop that goes on has not given up. -/
theorem gaveUp_not_mem_rounds {n : ℕ} {l : List Event} (h : Rounds policy overflow n l) :
    .gaveUp ∉ l := by
  induction h with
  | nil => simp
  | round sample h ih => simp [ih]

/-- A loop that gave up leaves, and marks the peer unless it is cancelled. -/
theorem TraceFits.givenUp {loop : Loop Str} {l : List Event}
    (h : TraceFits policy overflow loop l) (hgave : .gaveUp ∈ l) :
    loop.pc = .leaving ∨ loop.pc = .ended ∧ (loop.cancelled = true ∨ .marked ∈ l) := by
  unfold TraceFits at h
  split at h
  · rw [h.2] at hgave
    cases hgave
  · exact absurd hgave (gaveUp_not_mem_rounds h.1)
  · obtain ⟨rounds, sample, hrounds, rfl, -⟩ := h
    simp [gaveUp_not_mem_rounds hrounds] at hgave
  · exact absurd hgave (gaveUp_not_mem_rounds h.1)
  · exact absurd hgave (gaveUp_not_mem_rounds h.1)
  · exact absurd hgave (gaveUp_not_mem_rounds h.1)
  · next hpc => exact Or.inl hpc
  · next hpc =>
      refine Or.inr ⟨hpc, ?_⟩
      obtain ⟨n, rounds, rest, rfl, hrounds, hrest, -, hcancelled⟩ := h
      cases hrest with
      | nothing => simp [gaveUp_not_mem_rounds hrounds] at hgave
      | asleep sample hn => simp [gaveUp_not_mem_rounds hrounds] at hgave
      | gaveUp => exact Or.inl (hcancelled rfl)
      | marked => exact Or.inr (by simp)
      | left => exact Or.inr (by simp)

/-- The head of the loop does not only mark the peer. -/
theorem headEvents_not_marked (s : Reconnect.Node Str) (loop : Loop Str) (fresh : Bool) :
    headEvents policy s loop fresh ≠ [.marked] := by
  unfold headEvents
  split
  · split <;> simp
  · simp

/-- Nor does a failed attempt. -/
theorem failedEvents_not_marked (s : Reconnect.Node Str) (loop : Loop Str) (fresh : Bool)
    (answer : Answer) : failedEvents policy s loop fresh answer ≠ [.marked] := by
  cases answer with
  | raised => exact headEvents_not_marked s _ fresh
  | _ => simp [failedEvents]

/-- Only a loop that leaves calls `mark_disconnected`. -/
theorem pc_of_marked {s : Reconnect.Node Str} {loop : Loop Str} {fresh : Bool} {answer : Answer}
    {sample : Sample}
    (h : loopEvents policy overflow s loop fresh answer sample = [.marked]) :
    loop.pc = .leaving := by
  unfold loopEvents at h
  split at h
  · exact absurd h (headEvents_not_marked s loop fresh)
  · cases h
  · split at h <;> cases h
  · exact absurd h (failedEvents_not_marked s loop fresh answer)
  · exact absurd h (failedEvents_not_marked s loop fresh answer)
  · exact absurd h (headEvents_not_marked s _ fresh)
  · assumption
  · cases h

/-- A peer that `get_by_id` has no connection for is in no entry afterwards. -/
theorem lookup_of_getById {m n : ConnectionManager.Manager E} {p : Str}
    (h : m.getById p = (n, none)) : n.connections.lookup p = none := by
  unfold ConnectionManager.Manager.getById at h
  split at h
  · split at h
    · cases h
      exact AList.lookup_erase _ _
    · cases h
  · next hlookup =>
      cases h
      exact hlookup

/-- `mark_disconnected` does what it says. -/
theorem state_markDisconnected (m : ConnectionManager.Manager E) (p : Str) :
    (m.markDisconnected p).state p = .disconnected ∨
      ((m.markDisconnected p).getById p).2 ≠ none ∨
      (m.markDisconnected p).closingPeers p = true := by
  cases hget : m.getById p with | mk n found =>
  unfold ConnectionManager.Manager.markDisconnected
  rw [hget]
  cases found with
  | none =>
      dsimp only
      split
      · next hclosing => exact Or.inr (Or.inr hclosing)
      · have hnone : (n.setState p .disconnected).getById p =
            (n.setState p .disconnected, none) := by
          have hlookup : n.connections.lookup p = none := lookup_of_getById hget
          have hkept : (n.setState p .disconnected).connections.lookup p = none := hlookup
          simp only [ConnectionManager.Manager.getById, hkept]
        refine Or.inl ?_
        unfold ConnectionManager.Manager.state
        rw [hnone]
        change ((n.states.insert p .disconnected).lookup p).getD .disconnected = .disconnected
        rw [AList.lookup_insert]
        rfl
  | some c =>
      refine Or.inr (Or.inl ?_)
      have hsame : n = m := by
        unfold ConnectionManager.Manager.getById at hget
        split at hget
        · split at hget <;> cases hget
          rfl
        · cases hget
      change (n.getById p).2 ≠ none
      rw [hsame, hget]
      simp

/-- **What holds in every run of the loops.** -/
theorem follows {s : State E} (h : Inv policy overflow s) :
    FollowsPolicy policy overflow transport s where
  one i j loop loop' hi hj hlive hlive' hpeer := by
    have htask := h.tidy.registered i loop hi hlive
    have htask' := h.tidy.registered j loop' hj hlive'
    rw [hpeer, htask'] at htask
    exact (Option.some.inj htask).symm
  rounds i := by
    cases hi : s.node.loops i with
    | none => exact ⟨0, [], [], h.absent i hi, .nil, .nothing, fun m _ => Nat.zero_le m⟩
    | some loop => exact (h.fits i loop hi).rounds
  givenUp i loop hi hgave := (h.fits i loop hi).givenUp hgave
  cancels l t i loop loop' hs hi hi' hc hc' := by
    have hother : ∀ {j : ℕ} {other other' : Loop Str} {u : Reconnect.Node Str},
        u.loops = s.node.loops → s.node.loops j = some other →
        other'.cancelled = other.cancelled → (u.setLoop j other').loops i = some loop' → False := by
      intro j other other' u hloops hj hsame hset
      obtain ⟨rfl, rfl⟩ | ⟨-, hset⟩ := loops_setLoop hset
      · cases hj.symm.trans hi
        simp [hsame, hc] at hc'
      · rw [hloops] at hset
        cases hset.symm.trans hi
        simp [hc] at hc'
    cases moved_of_step hs with
    | manager l manager =>
        cases hi'.symm.trans hi
        simp [hc] at hc'
    | attemptCancelled hl hpc => exact (hother rfl hl (by rfl) hi').elim
    | @node l node sample hl hnode =>
        obtain ⟨-, hkept⟩ := tidy_step h.tidy hl hnode
        obtain ⟨old, hold, halike⟩ | ⟨hnone, -⟩ := hkept.loops i loop' hi'
        · cases hold.symm.trans hi
          obtain heq | ⟨-, hcancels⟩ := halike.cancelled
          · simp [heq, hc] at hc'
          · exact ⟨l, sample, rfl, hcancels⟩
        · rw [hi] at hnone
          cases hnone
    | cancelled fresh answer sample hl hcancelled => exact (hother rfl hl (by rfl) hi').elim
    | @resumed j other fresh answer sample node hl hnode =>
        obtain ⟨other', ⟨⟨u, heq, hloops, -⟩, -, hsame⟩, -⟩ :=
          resumeLoop_spec (h.fits j other hl) hnode sample
        change node.loops i = some loop' at hi'
        rw [heq] at hi'
        exact (hother hloops hl hsame hi').elim
  marks l t i loop hs hi htrace := by
    cases moved_of_step hs with
    | manager l manager => simp at htrace
    | attemptCancelled hl hpc => simp at htrace
    | node sample hl hnode => simp at htrace
    | cancelled fresh answer sample hl hcancelled => simp at htrace
    | @resumed j other fresh answer sample node hl hnode =>
        by_cases hij : i = j
        · subst hij
          cases hl.symm.trans hi
          simp only [Function.update_self, List.append_cancel_left_eq] at htrace
          have hpc := pc_of_marked htrace
          simp only [loopMarks, hpc]
          exact state_markDisconnected s.manager loop.peer
        · simp [Function.update_of_ne hij] at htrace

variable (policy overflow transport)

end Law

end ReconnectLoops

end Core
end Paqto
