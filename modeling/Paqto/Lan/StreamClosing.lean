/-
# Every stream is closed in the end

`close()` of the listener and `stop()` of the transport close what they track, and
each new connection drops from the tracked ones those that report to be closed.
A connection reports that too when the peer has sent EOF or a read has failed, with
its own writer still open; dropped then, nobody but its owner closes it.  In the
runs in which only connections with a closed writer are dropped, every stream is
closed (`streams_closed`).
-/

import Paqto.Lan.ListenerAccepts
import Paqto.Lan.Transport

namespace Paqto
namespace Lan

open Transition

/-- A tracked connection stays tracked, unless it reports to be closed. -/
theorem mem_track {streams : ℕ → Stream} {connections : List ℕ} {b c : ℕ} (hb : b ∈ connections)
    (h : (streams b).isClosed = true → (streams b).writerClosed = true) :
    b ∈ track streams connections c ∨ (streams b).writerClosed = true := by
  cases hclosed : (streams b).isClosed with
  | true => exact .inr (h hclosed)
  | false =>
      exact .inl (List.mem_append_left _ (List.mem_filter.2 ⟨hb, by simp [hclosed]⟩))

/-- The stream is tracked. -/
theorem mem_track_self {streams : ℕ → Stream} {connections : List ℕ} {c : ℕ} :
    c ∈ track streams connections c := List.mem_append_right _ List.mem_cons_self

namespace Listener

variable {cfg : Config} {s t : Listener}

/-- A client that is admitted drops only connections whose writer is closed. -/
def DropsClosedOnly (cfg : Config) (s : Listener) : Label → Prop
  | .client wellFormed => s.closed = false → wellFormed = true →
      (nextWaiter s.calls s.acceptWaiters).1.isSome ∨ s.accepted.length < cfg.maxPendingAccepts →
      ∀ c ∈ s.connections, (s.streams c).isClosed = true → (s.streams c).writerClosed = true
  | _ => True

/-- What is admitted is tracked, to be closed, or closed. -/
structure Tracked (s : Listener) : Prop where
  fresh : ∀ c ∈ s.admitted, c < s.nextConnection
  tracked : ∀ c ∈ s.admitted,
    c ∈ s.connections ∨ c ∈ s.closing ∨ (s.streams c).writerClosed = true
  closed : s.closed = true → s.connections = []
  notClosed : s.closed = false → s.closing = []
  finished : s.finished = true → s.closed = true ∧ s.closing = []

/-- Nothing was accepted yet. -/
theorem tracked_initial : Tracked initial := ⟨nofun, nofun, nofun, fun _ => rfl, nofun⟩

/-- Something happens to one stream. -/
theorem Tracked.setStream (h : Tracked s) {c : ℕ} {stream : Stream}
    (hkeep : (s.streams c).writerClosed = true → stream.writerClosed = true) :
    Tracked (s.setStream c stream) where
  fresh := h.fresh
  tracked b hb := by
    rcases h.tracked b hb with hmem | hmem | hw
    · exact .inl hmem
    · exact .inr (.inl hmem)
    · refine .inr (.inr ?_)
      by_cases hbc : b = c
      · subst hbc
        rw [setStream_self]
        exact hkeep hw
      · rw [setStream_of_ne s hbc]
        exact hw
  closed := h.closed
  notClosed := h.notClosed
  finished := h.finished

/-- A connection is tracked in addition. -/
theorem tracked_track (h : Tracked s) {c : ℕ}
    (hdrop : ∀ b ∈ s.connections, (s.streams b).isClosed = true → (s.streams b).writerClosed = true)
    {b : ℕ} (hb : b ∈ s.admitted ++ [c]) :
    b ∈ track s.streams s.connections c ∨ b ∈ s.closing ∨ (s.streams b).writerClosed = true := by
  rcases List.mem_append.1 hb with hb | hb
  · rcases h.tracked b hb with hmem | hrest
    · rcases mem_track hmem (hdrop b hmem) with hmem | hclosed
      · exact .inl hmem
      · exact .inr (.inr hclosed)
    · exact .inr hrest
  · obtain rfl := List.mem_singleton.1 hb
    exact .inl mem_track_self

/-- A client is accepted. -/
theorem Tracked.acceptClient (h : Tracked s) (hopen : s.closed = false) {c : ℕ}
    (hc : c < s.nextConnection)
    (hdrop : (nextWaiter s.calls s.acceptWaiters).1.isSome ∨
      s.accepted.length < cfg.maxPendingAccepts →
      ∀ b ∈ s.connections, (s.streams b).isClosed = true → (s.streams b).writerClosed = true) :
    Tracked (s.acceptClient cfg c) := by
  have hfresh : ∀ b ∈ s.admitted ++ [c], b < s.nextConnection := by
    intro b hb
    rcases List.mem_append.1 hb with hb | hb
    · exact h.fresh b hb
    · obtain rfl := List.mem_singleton.1 hb
      exact hc
  have hclosed : s.closed ≠ true := by simp [hopen]
  rcases s.acceptClient_cases cfg c with ⟨k, waiters, hnext, heq⟩ |
    ⟨waiters, hnext, ⟨hfull, heq⟩ | ⟨hroom, heq⟩⟩
  · have hall := hdrop (.inl (by rw [hnext]; rfl))
    rw [heq]
    exact ⟨hfresh, fun b hb => tracked_track h hall hb, fun hcl => absurd hcl hclosed,
      h.notClosed, h.finished⟩
  · have hset : Tracked (s.setStream c (s.streams c).close) := h.setStream fun _ => rfl
    rw [heq]
    exact ⟨hset.fresh, hset.tracked, hset.closed, hset.notClosed, hset.finished⟩
  · have hall := hdrop (.inr hroom)
    rw [heq]
    exact ⟨hfresh, fun b hb => tracked_track h hall hb, fun hcl => absurd hcl hclosed,
      h.notClosed, h.finished⟩

/-- A client connects. -/
theorem Tracked.handleClient (h : Tracked s) {wellFormed : Bool}
    (hG : DropsClosedOnly cfg s (.client wellFormed)) :
    Tracked (s.handleClient cfg wellFormed) := by
  have hnew : ∀ t : Listener, t = { s.setStream s.nextConnection .opened with
      nextConnection := s.nextConnection + 1 } → Tracked t := by
    rintro t rfl
    refine ⟨fun c hc => Nat.lt_succ_of_lt (h.fresh c hc), fun c hc => ?_, h.closed,
      h.notClosed, h.finished⟩
    have hne : c ≠ s.nextConnection := Nat.ne_of_lt (h.fresh c hc)
    rcases h.tracked c hc with hmem | hmem | hw
    · exact .inl hmem
    · exact .inr (.inl hmem)
    · exact .inr (.inr ((congrArg Stream.writerClosed (setStream_of_ne s hne _)).trans hw))
  have ht := hnew _ rfl
  unfold Listener.handleClient
  simp only
  split
  · exact ht.setStream fun _ => rfl
  · next hcond =>
      rw [Bool.or_eq_true, not_or, Bool.not_eq_true, Bool.not_eq_true'] at hcond
      obtain ⟨hopen, hwell⟩ := hcond
      refine ht.acceptClient hopen (Nat.lt_succ_self _) fun hroom b hb hb' => ?_
      have hall := hG hopen (by simpa using hwell) hroom b hb
      by_cases hne : b = s.nextConnection
      · subst hne
        exact absurd ((congrArg Stream.isClosed (setStream_self s _ _)).symm.trans hb')
          (by decide)
      · have hsame : (s.setStream s.nextConnection .opened).streams b = s.streams b :=
          setStream_of_ne s hne _
        change ((s.setStream s.nextConnection .opened).streams b).isClosed = true at hb'
        change ((s.setStream s.nextConnection .opened).streams b).writerClosed = true
        rw [hsame] at hb' ⊢
        exact hall hb'

/-- **One step keeps every admitted connection tracked**, if it drops only closed
ones. -/
theorem Tracked.step (h : Tracked s) {l : Label} (hG : DropsClosedOnly cfg s l)
    (hs : Listener.step cfg s l = some t) : Tracked t := by
  cases l with
  | start =>
      simp only [Listener.step] at hs
      split at hs <;> cases hs
      exact ⟨h.fresh, h.tracked, h.closed, h.notClosed, h.finished⟩
  | accept =>
      cases hs
      rcases s.accept_cases with heq | ⟨_, _, _, heq⟩ | ⟨_, heq⟩ <;> rw [heq] <;>
        exact ⟨h.fresh, h.tracked, h.closed, h.notClosed, h.finished⟩
  | resume k =>
      simp only [Listener.step, Listener.resume] at hs
      split at hs
      · obtain ⟨call, -, rfl⟩ := Option.map_eq_some_iff.1 hs
        exact ⟨h.fresh, h.tracked, h.closed, h.notClosed, h.finished⟩
      · cases hs
  | cancel k =>
      simp only [Listener.step, Listener.cancel] at hs
      split at hs <;> cases hs <;> exact ⟨h.fresh, h.tracked, h.closed, h.notClosed, h.finished⟩
  | client wellFormed =>
      cases hs
      exact h.handleClient hG
  | stream c event =>
      simp only [Listener.step] at hs
      split at hs <;> cases hs
      exact h.setStream fun hw => Stream.writerClosed_apply hw event
  | close =>
      simp only [Listener.step] at hs
      split at hs
      · cases hs
      · next hopen =>
          cases hs
          refine ⟨h.fresh, fun c hc => ?_, fun _ => rfl, fun hopen' => (by cases hopen'),
            fun hfin => ?_⟩
          · rcases h.tracked c hc with hmem | hmem | hw
            · exact .inr (.inl hmem)
            · rw [h.notClosed (Bool.eq_false_of_not_eq_true hopen)] at hmem
              cases hmem
            · exact .inr (.inr hw)
          · exact absurd (h.finished hfin).1 hopen
  | closeOne c =>
      simp only [Listener.step] at hs
      split at hs
      case isFalse => cases hs
      rename_i hmem
      cases hs
      have hset : Tracked (s.setStream c (s.streams c).close) := h.setStream fun _ => rfl
      refine ⟨hset.fresh, fun b hb => ?_, hset.closed, fun hopen => ?_, fun hfin => ?_⟩
      · rcases hset.tracked b hb with hb | hb | hw
        · exact .inl hb
        · by_cases hbc : b = c
          · subst hbc
            exact .inr (.inr (congrArg Stream.writerClosed (setStream_self s b _)))
          · exact .inr (.inl ((List.mem_erase_of_ne hbc).2 hb))
        · exact .inr (.inr hw)
      · exact absurd (h.notClosed hopen) (List.ne_nil_of_mem hmem)
      · exact absurd (h.finished hfin).2 (List.ne_nil_of_mem hmem)
  | finish =>
      simp only [Listener.step] at hs
      split at hs
      · next hdone =>
          cases hs
          exact ⟨h.fresh, h.tracked, h.closed, h.notClosed, fun _ => hdone⟩
      · cases hs

end Listener

namespace LanTransport

variable {s t : LanTransport}

/-- The stream that is set. -/
@[simp] theorem setStream_self (s : LanTransport) (c : ℕ) (stream : Stream) :
    (s.setStream c stream).streams c = stream := Function.update_self ..

/-- Other streams stay as they are. -/
theorem setStream_of_ne (s : LanTransport) {b c : ℕ} (h : b ≠ c) (stream : Stream) :
    (s.setStream c stream).streams b = s.streams b := Function.update_of_ne h ..

/-- A new connection drops only connections whose writer is closed. -/
def DropsClosedOnly (s : LanTransport) : Label → Prop
  | .opened k wellFormed => ∀ generation, s.attempts k = some generation →
      s.isStale generation = false → wellFormed = true →
      ∀ c ∈ s.connections, (s.streams c).isClosed = true → (s.streams c).writerClosed = true
  | _ => True

/-- Every connection of the lifecycle that a `stop()` call ended has a closed
writer when the call has finished. -/
def StopsClose (s : LanTransport) : Prop :=
  ∀ i call, s.stops i = some call → call.finished = true →
    ∀ c, (call.lifecycle, c) ∈ s.returned → (s.streams c).writerClosed = true

/-- The `stop()` calls: each ended a lifecycle of its own. -/
structure Stops (s : LanTransport) : Prop where
  fresh : ∀ i, s.nextStop ≤ i → s.stops i = none
  ended : ∀ i call, s.stops i = some call → call.lifecycle < s.generation
  unique : ∀ i j call call', s.stops i = some call → s.stops j = some call' →
    call.lifecycle = call'.lifecycle → i = j
  finished : ∀ i call, s.stops i = some call → call.finished = true → call.closing = []

/-- What was returned is tracked in its own lifecycle, to be closed by the call
that ended it, or closed. -/
structure Tracked (s : LanTransport) : Prop where
  stops : Stops s
  idle : s.started = false → s.connections = []
  fresh : ∀ p ∈ s.returned, p.2 < s.nextConnection
  tracked : ∀ p ∈ s.returned, p.1 = s.generation ∧ p.2 ∈ s.connections ∨
    (∃ i call, s.stops i = some call ∧ call.lifecycle = p.1 ∧ p.2 ∈ call.closing) ∨
    (s.streams p.2).writerClosed = true

/-- Nothing was opened yet. -/
theorem tracked_initial : Tracked initial := ⟨⟨fun _ _ => rfl, nofun, nofun, nofun⟩, fun _ => rfl, nofun, nofun⟩

/-- What a stop has taken is closed. -/
theorem Tracked.stopsClose (h : Tracked s) : StopsClose s := by
  intro i call hi hfin c hc
  rcases h.tracked _ hc with ⟨hcurrent, -⟩ | ⟨j, call', hj, hlife, hmem⟩ | hw
  · exact absurd hcurrent (Nat.ne_of_lt (h.stops.ended i call hi))
  · obtain rfl := h.stops.unique i j call call' hi hj hlife.symm
    obtain rfl := Option.some.inj (hi.symm.trans hj)
    rw [h.stops.finished i call hi hfin] at hmem
    cases hmem
  · exact hw

/-- Something happens to one stream. -/
theorem Tracked.setStream (h : Tracked s) {c : ℕ} {stream : Stream}
    (hkeep : (s.streams c).writerClosed = true → stream.writerClosed = true) :
    Tracked (s.setStream c stream) where
  stops := ⟨h.stops.fresh, h.stops.ended, h.stops.unique, h.stops.finished⟩
  idle := h.idle
  fresh := h.fresh
  tracked p hp := by
    rcases h.tracked p hp with hmem | hmem | hw
    · exact .inl hmem
    · exact .inr (.inl hmem)
    · refine .inr (.inr ?_)
      by_cases hpc : p.2 = c
      · subst hpc
        rw [setStream_self]
        exact hkeep hw
      · rw [setStream_of_ne s hpc]
        exact hw

/-- A `stop()` call goes on. -/
theorem Stops.setStop (h : Stops s) {i : ℕ} {call call' : StopCall} (hi : s.stops i = some call)
    (hlife : call'.lifecycle = call.lifecycle)
    (hfin : call'.finished = true → call'.closing = []) : Stops (s.setStop i call') := by
  have hself : (s.setStop i call').stops i = some call' := Function.update_self ..
  have hne : ∀ j, j ≠ i → (s.setStop i call').stops j = s.stops j := fun j hj =>
    Function.update_of_ne hj ..
  have hold : ∀ j found, (s.setStop i call').stops j = some found →
      ∃ old, s.stops j = some old ∧ old.lifecycle = found.lifecycle := by
    intro j found hj
    by_cases hji : j = i
    · subst hji
      obtain rfl := Option.some.inj (hself.symm.trans hj)
      exact ⟨call, hi, hlife.symm⟩
    · exact ⟨found, (hne j hji).symm.trans hj, rfl⟩
  refine ⟨fun j hj => ?_, fun j found hj => ?_, fun j k found found' hj hk heq => ?_,
    fun j found hj hf => ?_⟩
  · have hji : j ≠ i := by
      rintro rfl
      rw [h.fresh j hj] at hi
      cases hi
    exact (hne j hji).trans (h.fresh j hj)
  · obtain ⟨old, hold, hl⟩ := hold j found hj
    exact hl ▸ h.ended j old hold
  · obtain ⟨old, hj, hl⟩ := hold j found hj
    obtain ⟨old', hk, hl'⟩ := hold k found' hk
    exact h.unique j k old old' hj hk (hl.trans (heq.trans hl'.symm))
  · by_cases hji : j = i
    · subst hji
      obtain rfl := Option.some.inj (hself.symm.trans hj)
      exact hfin hf
    · exact h.finished j found ((hne j hji).symm.trans hj) hf

/-- The transport starts. -/
theorem Tracked.start (h : Tracked s) : Tracked s.start := by
  unfold LanTransport.start
  split
  · exact h
  · next hstarted =>
      have hidle := h.idle (Bool.eq_false_of_not_eq_true hstarted)
      refine ⟨⟨h.stops.fresh, fun i call hi => Nat.lt_succ_of_lt (h.stops.ended i call hi),
        h.stops.unique, h.stops.finished⟩, nofun, h.fresh, fun p hp => ?_⟩
      rcases h.tracked p hp with ⟨-, hmem⟩ | hrest
      · rw [hidle] at hmem
        cases hmem
      · exact .inr hrest

/-- It stops. -/
theorem Tracked.stop (h : Tracked s) : Tracked s.stop := by
  have hself : s.stop.stops s.nextStop = some ⟨s.generation, s.connections, false⟩ :=
    Function.update_self ..
  have hne : ∀ j, j ≠ s.nextStop → s.stop.stops j = s.stops j := fun j hj =>
    Function.update_of_ne hj ..
  have hcases : ∀ j call, s.stop.stops j = some call →
      j = s.nextStop ∧ call = ⟨s.generation, s.connections, false⟩ ∨ s.stops j = some call := by
    intro j call hj
    by_cases hjn : j = s.nextStop
    · subst hjn
      exact .inl ⟨rfl, (Option.some.inj (hself.symm.trans hj)).symm⟩
    · exact .inr ((hne j hjn).symm.trans hj)
  refine ⟨⟨fun j hj => ?_, fun j call hj => ?_, fun j k call call' hj hk heq => ?_,
    fun j call hj hfin => ?_⟩, fun _ => rfl, h.fresh, fun p hp => ?_⟩
  · have hlt : s.nextStop + 1 ≤ j := hj
    exact (hne j (by omega)).trans (h.stops.fresh j (by omega))
  · change call.lifecycle < s.generation + 1
    rcases hcases j call hj with ⟨-, rfl⟩ | hj
    · exact Nat.lt_succ_self _
    · exact Nat.lt_succ_of_lt (h.stops.ended j call hj)
  · rcases hcases j call hj with ⟨rfl, rfl⟩ | hj <;> rcases hcases k call' hk with ⟨rfl, rfl⟩ | hk
    · rfl
    · exact absurd (h.stops.ended k call' hk) (by rw [← heq]; exact lt_irrefl _)
    · exact absurd (h.stops.ended j call hj) (by rw [heq]; exact lt_irrefl _)
    · exact h.stops.unique j k call call' hj hk heq
  · rcases hcases j call hj with ⟨-, rfl⟩ | hj
    · cases hfin
    · exact h.stops.finished j call hj hfin
  · rcases h.tracked p hp with ⟨hcurrent, hmem⟩ | ⟨j, call, hj, hlife, hmem⟩ | hw
    · exact .inr (.inl ⟨s.nextStop, _, hself, hcurrent.symm, hmem⟩)
    · have hjn : j ≠ s.nextStop := by
        rintro rfl
        rw [h.stops.fresh _ le_rfl] at hj
        cases hj
      exact .inr (.inl ⟨j, call, (hne j hjn).trans hj, hlife, hmem⟩)
    · exact .inr (.inr hw)

/-- A stop closes a connection. -/
theorem Tracked.closeOne (h : Tracked s) {i c : ℕ} (hs : s.closeOne i c = some t) : Tracked t := by
  unfold LanTransport.closeOne at hs
  split at hs
  · next call hi =>
      split at hs
      case isFalse => cases hs
      rename_i hmem
      cases hs
      have hset : Tracked (s.setStream c (s.streams c).close) := h.setStream fun _ => rfl
      have hstops : Stops (s.setStop i { call with closing := call.closing.erase c }) := by
        refine h.stops.setStop hi rfl fun hfin => ?_
        exact absurd (h.stops.finished i call hi hfin) (List.ne_nil_of_mem hmem)
      refine ⟨⟨hstops.fresh, hstops.ended, hstops.unique, hstops.finished⟩, h.idle, h.fresh,
        fun p hp => ?_⟩
      rcases hset.tracked p hp with hcur | ⟨j, call', hj, hlife, hp'⟩ | hw
      · exact .inl hcur
      · by_cases hji : j = i
        · subst hji
          obtain rfl := Option.some.inj (hi.symm.trans hj)
          by_cases hpc : p.2 = c
          · refine .inr (.inr ?_)
            rw [hpc]
            exact congrArg Stream.writerClosed (setStream_self s c _)
          · exact .inr (.inl ⟨j, _, Function.update_self .., hlife,
              (List.mem_erase_of_ne hpc).2 hp'⟩)
        · exact .inr (.inl ⟨j, call', (Function.update_of_ne hji ..).trans hj, hlife, hp'⟩)
      · exact .inr (.inr hw)
  · cases hs

/-- A stop is over. -/
theorem Tracked.finish (h : Tracked s) {i : ℕ} (hs : s.finish i = some t) : Tracked t := by
  unfold LanTransport.finish at hs
  split at hs
  · next call hi =>
      split at hs
      case isFalse => cases hs
      rename_i hdone
      cases hs
      have hstops : Stops (s.setStop i { call with finished := true }) :=
        h.stops.setStop hi rfl fun _ => hdone
      refine ⟨hstops, h.idle, h.fresh, fun p hp => ?_⟩
      rcases h.tracked p hp with hcur | ⟨j, call', hj, hlife, hp'⟩ | hw
      · exact .inl hcur
      · by_cases hji : j = i
        · subst hji
          obtain rfl := Option.some.inj (hi.symm.trans hj)
          exact .inr (.inl ⟨j, _, Function.update_self .., hlife, hp'⟩)
        · exact .inr (.inl ⟨j, call', (Function.update_of_ne hji ..).trans hj, hlife, hp'⟩)
      · exact .inr (.inr hw)
  · cases hs

/-- A connection is opened. -/
theorem Tracked.opened (h : Tracked s) {k : ℕ} {wellFormed : Bool}
    (hG : DropsClosedOnly s (.opened k wellFormed)) (hs : s.opened k wellFormed = some t) :
    Tracked t := by
  have hne : ∀ p ∈ s.returned, p.2 ≠ s.nextConnection := fun p hp => Nat.ne_of_lt (h.fresh p hp)
  have hnew : ∀ u : LanTransport, u = { s.setStream s.nextConnection .opened with
      nextConnection := s.nextConnection + 1
      attempts := Function.update s.attempts k none } → Tracked u := by
    rintro u rfl
    refine ⟨⟨h.stops.fresh, h.stops.ended, h.stops.unique, h.stops.finished⟩, h.idle,
      fun p hp => Nat.lt_succ_of_lt (h.fresh p hp), fun p hp => ?_⟩
    rcases h.tracked p hp with hcur | hstop | hw
    · exact .inl hcur
    · exact .inr (.inl hstop)
    · exact .inr (.inr ((congrArg Stream.writerClosed (setStream_of_ne s (hne p hp) _)).trans hw))
  unfold LanTransport.opened at hs
  split at hs
  · cases hs
  · next generation hk =>
      simp only at hs
      split at hs
      · cases hs
        exact (hnew _ rfl).setStream fun _ => rfl
      · next hcond =>
          cases hs
          rw [Bool.or_eq_true, not_or, Bool.not_eq_true, Bool.not_eq_true'] at hcond
          obtain ⟨hfresh, hwell⟩ := hcond
          have hwf : wellFormed = true := by simpa using hwell
          have hdrop := hG generation hk hfresh hwf
          obtain ⟨hstarted, rfl⟩ : s.started = true ∧ s.generation = generation := by
            simpa [isStale] using hfresh
          have ht := hnew _ rfl
          refine ⟨⟨h.stops.fresh, h.stops.ended, h.stops.unique, h.stops.finished⟩,
            fun hoff => ?_, fun p hp => ?_, fun p hp => ?_⟩
          · exact absurd (hstarted.symm.trans hoff) (by decide)
          · rcases List.mem_append.1 hp with hp | hp
            · exact ht.fresh p hp
            · obtain rfl := List.mem_singleton.1 hp
              exact Nat.lt_succ_self _
          · rcases List.mem_append.1 hp with hp | hp
            · rcases ht.tracked p hp with ⟨hcur, hmem⟩ | hstop | hw
              · have hsame := setStream_of_ne s (hne p hp) .opened
                rcases mem_track hmem (hdrop p.2 hmem) with hmem | hw
                · exact .inl ⟨hcur, hmem⟩
                · exact .inr (.inr ((congrArg Stream.writerClosed hsame).trans hw))
              · exact .inr (.inl hstop)
              · exact .inr (.inr hw)
            · obtain rfl := List.mem_singleton.1 hp
              exact .inl ⟨rfl, mem_track_self⟩

/-- **One step keeps every returned connection tracked**, if it drops only closed
ones. -/
theorem Tracked.step (h : Tracked s) {l : Label} (hG : DropsClosedOnly s l)
    (hs : LanTransport.step s l = some t) : Tracked t := by
  have hframe : Stops s := h.stops
  cases l with
  | start =>
      cases hs
      exact h.start
  | stop =>
      cases hs
      exact h.stop
  | closeOne i c => exact h.closeOne hs
  | finish i => exact h.finish hs
  | connect =>
      simp only [LanTransport.step, LanTransport.connect] at hs
      split at hs <;> cases hs
      exact ⟨⟨hframe.fresh, hframe.ended, hframe.unique, hframe.finished⟩, h.idle, h.fresh, h.tracked⟩
  | opened k wellFormed => exact h.opened hG hs
  | failed k =>
      simp only [LanTransport.step] at hs
      split at hs <;> cases hs
      exact ⟨⟨hframe.fresh, hframe.ended, hframe.unique, hframe.finished⟩, h.idle, h.fresh, h.tracked⟩
  | stream c event =>
      simp only [LanTransport.step] at hs
      split at hs <;> cases hs
      exact h.setStream fun hw => Stream.writerClosed_apply hw event

end LanTransport

/-- **Every stream is closed in the end**, in the runs in which a new connection
drops from the tracked ones only those whose writer is closed: when `close()` has
finished, those of all connections that the listener admitted; when a `stop()` has
finished, those of all connections that `connect()` returned in the lifecycle it
ended. -/
theorem streams_closed (cfg : Listener.Config) :
    (∀ s : Listener, ReachableWhen (Listener.system cfg) (Listener.DropsClosedOnly cfg) s →
      s.finished = true → ∀ c ∈ s.admitted, (s.streams c).writerClosed = true) ∧
      ∀ s : LanTransport, ReachableWhen LanTransport.system LanTransport.DropsClosedOnly s →
        s.StopsClose := by
  refine ⟨fun s h hfin c hc => ?_, fun s h => ?_⟩
  · have ht : Listener.Tracked s := by
      refine h.invariant (fun s hs => ?_) fun s l t hI hG hs => hI.step hG hs
      obtain rfl := hs
      exact Listener.tracked_initial
    obtain ⟨hclosed, hnone⟩ := ht.finished hfin
    rcases ht.tracked c hc with hmem | hmem | hw
    · rw [ht.closed hclosed] at hmem
      cases hmem
    · rw [hnone] at hmem
      cases hmem
    · exact hw
  · have ht : LanTransport.Tracked s := by
      refine h.invariant (fun s hs => ?_) fun s l t hI hG hs => hI.step hG hs
      obtain rfl := hs
      exact LanTransport.tracked_initial
    exact ht.stopsClose

namespace LanTransport

/-- The first peer sends EOF before the second connection is opened. -/
def dropRun : List Label :=
  [.start, .connect, .opened 0 true, .stream 0 .eof, .connect, .opened 1 true, .stop,
    .closeOne 0 1, .finish 0]

end LanTransport

namespace Listener

/-- The first peer sends EOF before the second client connects. -/
def dropRun : List Label :=
  [.start, .accept, .client true, .stream 0 .eof, .client true, .close, .closeOne 1, .finish]

end Listener

/-- **Two runs.**  A connection that is half-closed when the listener closes, or when the
transport stops, is closed. -/
theorem streams_closed_sample :
    (∃ s, exec (Listener.step Listener.sampleConfig) Listener.initial
      [.start, .accept, .client true, .stream 0 .eof, .close, .closeOne 0, .finish] = some s ∧
        s.admitted = [0] ∧ (s.streams 0).writerClosed = true) ∧
    ∃ s, exec LanTransport.step LanTransport.initial
      [.start, .connect, .opened 0 true, .stream 0 .eof, .stop, .closeOne 0 0, .finish 0] = some s ∧
        s.returned = [(1, 0)] ∧ s.StopsClose := by
  have hlistening := ReachableWhen.exec (S := Listener.system Listener.sampleConfig)
    (G := Listener.DropsClosedOnly Listener.sampleConfig) (.init rfl) [.start, .accept]
    (by simp [Listener.DropsClosedOnly]) rfl
  have hadmitted := ReachableWhen.step (Listener.Label.client true) hlistening
    (by rintro _ _ _ c ⟨⟩) rfl
  have hclosed := hadmitted.exec [.stream 0 .eof, .close, .closeOne 0, .finish]
    (by simp [Listener.DropsClosedOnly]) rfl
  have hconnect := ReachableWhen.exec (S := LanTransport.system)
    (G := LanTransport.DropsClosedOnly) (.init rfl) [.start, .connect]
    (by simp [LanTransport.DropsClosedOnly]) rfl
  have hopened := ReachableWhen.step (LanTransport.Label.opened 0 true) hconnect
    (by rintro _ _ _ _ c ⟨⟩) rfl
  have hstopped := hopened.exec [.stream 0 .eof, .stop, .closeOne 0 0, .finish 0]
    (by simp [LanTransport.DropsClosedOnly]) rfl
  exact ⟨⟨_, rfl, rfl, (streams_closed Listener.sampleConfig).1 _ hclosed rfl 0
      List.mem_cons_self⟩,
    _, rfl, rfl, (streams_closed Listener.sampleConfig).2 _ hstopped⟩

/-- A connection that was dropped after EOF is not closed, by the listener or by
the transport. -/
theorem not_streams_closed :
    (¬ ∀ s, Reachable (Listener.system Listener.sampleConfig) s → s.finished = true →
      ∀ c ∈ s.admitted, (s.streams c).writerClosed = true) ∧
      ¬ ∀ s, Reachable LanTransport.system s → s.StopsClose := by
  constructor
  · intro hall
    obtain ⟨s, hs⟩ : ∃ s, exec (Listener.step Listener.sampleConfig) Listener.initial
      Listener.dropRun = some s := ⟨_, rfl⟩
    have hclosed := hall s (reachable_of_exec rfl Listener.dropRun hs)
    cases hs
    exact absurd (hclosed rfl 0 List.mem_cons_self) (by decide)
  · intro hall
    obtain ⟨s, hs⟩ : ∃ s, exec LanTransport.step LanTransport.initial LanTransport.dropRun = some s :=
      ⟨_, rfl⟩
    have hclosed := hall s (reachable_of_exec rfl LanTransport.dropRun hs)
    cases hs
    exact absurd (hclosed 0 _ rfl rfl 0 List.mem_cons_self) (by decide)

end Lan
end Paqto
