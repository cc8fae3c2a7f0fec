/-
# When a caller of `_queue_frame` waits for ever

The drain at the end of the writer wakes callers that are blocked in `put`.
They run afterwards, find room, and insert their frames into a queue that
nobody reads any more (`lost_waiter`).

A channel is drained for the last time by the writer's `finally`, by
`_fail_all_outbound` where the writer will not begin any more, or by the cleanup of
`_close_outbound_channel`.  `LeavesNobody` is about the state before that drain: nobody
is inside `put` then, and nobody enters the queue afterwards.  In the runs that meet it
every drained channel is silent, which gives (iii); after every step that violates it a
waiter can be lost (`frame_waiters`).
-/

import Paqto.Core.OutboundChannelInvariant
import Mathlib.Order.Interval.Finset.Nat
import Mathlib.Data.Finset.Card

namespace Paqto
namespace Core
namespace OutboundChannel

open Transition

/-- A queue of one frame: frame 0 is in `send_frame`, frame 1 is queued and
caller 2 is blocked when `send_frame` fails.  The drain fails frame 1 and wakes
caller 2, whose frame then stays in the queue. -/
theorem lost_waiter : ∃ cfg s, Reachable (system cfg) s ∧ ¬ s.NoLostWaiter := by
  have hrun : Reachable (system ⟨.wait, 1⟩) _ := reachable_of_exec rfl
    [.queueFrame, .startWriter, .queueFrame, .queueFrame, .sendRaises, .closeReturns,
      .resumePut 2, .outboundFinished, .resumeFuture 0, .resumeFuture 1] rfl
  refine ⟨_, _, hrun, fun h => h ⟨rfl, rfl, by decide⟩ ?_ 2 (Or.inr (Or.inr rfl))⟩
  rintro (_ | _ | _ | c) <;> rfl

/-- Nobody waits for room. -/
theorem Channel.NobodyInPut.putters {s : Channel} (hput : s.NobodyInPut) (h : Inv s) :
    s.putters = [] :=
  List.eq_nil_iff_forall_not_mem.2 fun c hc => (hput c).1 ((h.queued.blocked_iff c).2 hc)

/-- A drain puts nobody into `put`. -/
theorem failItems_noPut {s : Channel} {items : List ℕ} (hp : s.putters = [])
    (h : s.NobodyInPut) : (s.failItems items).NobodyInPut := by
  induction items generalizing s with
  | nil => exact h
  | cons i items ih =>
      have hw : ({ s with items } : Channel).wakeupNext = { s with items } := by
        simp [Channel.wakeupNext, hp]
      simp only [Channel.failItems, hw]
      refine ih ?_ fun d => ?_
      · unfold Channel.resolve
        split <;> exact hp
      · unfold Channel.resolve Channel.setCaller
        split
        · simp only [Function.update_apply]
          split
          · exact ⟨by simp, by simp⟩
          · exact h d
        · exact h d

/-- The drain ends no caller that is inside `put`. -/
theorem failItems_inPut {s : Channel} {items : List ℕ} {c : ℕ}
    (h : s.callers c = .blocked ∨ s.callers c = .woken) :
    (s.failItems items).callers c = .blocked ∨ (s.failItems items).callers c = .woken := by
  induction items generalizing s with
  | nil => exact h
  | cons i items ih =>
      refine ih ?_
      have hw : ({ s with items } : Channel).wakeupNext.callers c = .blocked ∨
          ({ s with items } : Channel).wakeupNext.callers c = .woken := by
        unfold Channel.wakeupNext Channel.setCaller
        split
        · exact h
        · simp only [Function.update_apply]
          split
          · exact Or.inr rfl
          · exact h
      unfold Channel.resolve Channel.setCaller
      split
      · rename_i hi
        simp only [Function.update_apply]
        split
        · rename_i hc
          subst hc
          rw [hi] at hw
          simp at hw
        · exact hw
      · exact hw

/-- A drain queues nobody. -/
theorem failItems_notQueued {s : Channel} {items : List ℕ} {c : ℕ} (h : s.callers c ≠ .queued) :
    (s.failItems items).callers c ≠ .queued := by
  induction items generalizing s with
  | nil => exact h
  | cons i items ih =>
      refine ih ?_
      have hw : ({ s with items } : Channel).wakeupNext.callers c ≠ .queued := by
        unfold Channel.wakeupNext Channel.setCaller
        split
        · exact h
        · simp only [Function.update_apply]
          split
          · simp
          · exact h
      unfold Channel.resolve Channel.setCaller
      split
      · simp only [Function.update_apply]
        split
        · simp
        · exact hw
      · exact hw

/-- The future of a resolved frame is done. -/
theorem resolve_notQueued (s : Channel) (c : ℕ) (o : Outcome) :
    (s.resolve c o).callers c ≠ .queued := by
  unfold Channel.resolve
  split
  · simp [Channel.setCaller]
  · assumption

/-- A send that is resolved brings nobody inside `put`. -/
theorem resolve_noPut {s : Channel} (h : s.NobodyInPut) (i : ℕ) (o : Outcome) :
    (s.resolve i o).NobodyInPut := by
  intro c
  unfold Channel.resolve Channel.setCaller
  split
  · simp only [Function.update_apply]
    split
    · exact ⟨by simp, by simp⟩
    · exact h c
  · exact h c

/-- **`_fail_all_outbound` leaves nobody waiting** on a channel when nobody is
inside `put`. -/
theorem silent_stop {s : Channel} (h : Inv s) (hreg : s.registered = true)
    (hput : s.NobodyInPut) :
    ({ s.cancelWriter with running := false }.failCurrent.failOutboundQueue).Silent := by
  have hinv := inv_step h ((StepSpec.stop hreg : StepSpec ⟨.wait, 0⟩ s .stop _))
  have hp := hput.putters h
  have hcurrent : ({ s.cancelWriter with running := false }.failCurrent).NobodyInPut := by
    unfold Channel.failCurrent
    split
    · exact resolve_noPut (s := { s.cancelWriter with running := false }) hput _ _
    · exact resolve_noPut (s := { s.cancelWriter with running := false }) hput _ _
    · exact hput
  have hputters : ({ s.cancelWriter with running := false }.failCurrent).putters = [] := by
    unfold Channel.failCurrent
    split
    · exact (resolve_putters _ _).trans hp
    · exact (resolve_putters _ _).trans hp
    · exact hp
  rintro c (hb | hb | hb)
  · exact (failItems_noPut hputters hcurrent c).1 hb
  · exact (failItems_noPut hputters hcurrent c).2 hb
  · have hq := hinv.queued.queued c hb
    rw [Channel.failOutboundQueue_items, Channel.failOutboundQueue_writer,
      Channel.failCurrent_writer] at hq
    cases hw : s.writer with
    | sending d =>
        have hcd : c = d := by simpa [Channel.cancelWriter, hw, WriterPc.current] using hq
        refine failItems_notQueued ?_ hb
        simp only [Channel.failCurrent, Channel.cancelWriter, hw, hcd]
        exact resolve_notQueued _ _ _
    | created | getting | finished => simp [Channel.cancelWriter, hw, WriterPc.current] at hq
    | closing d => simp [Channel.cancelWriter, hw, WriterPc.current] at hq

/-- The queue was drained for the last time: by the `finally` of a writer that had begun,
by the stop of a writer that will not begin any more, or by the last cleanup. -/
def Channel.Drained (s : Channel) : Prop :=
  (s.begun = true ∧ s.writer = .finished) ∨
    (s.begun = false ∧ s.cancelRequested = true ∧ s.registered = true) ∨ s.Retired

section Drained

variable {cfg : Config} {s t : Channel} {l : Label}

/-- It reads only some of the fields. -/
theorem Channel.Drained.congr (h : t.Drained) (hw : t.writer = s.writer)
    (hr : t.registered = s.registered) (hc : t.closer = s.closer) (hb : t.begun = s.begun)
    (hcancel : t.cancelRequested = s.cancelRequested) : s.Drained := by
  unfold Channel.Drained Channel.Retired at h ⊢
  rwa [hw, hr, hc, hb, hcancel] at h

/-- The writer of a drained channel does nothing any more. -/
theorem Channel.Drained.writer (h : s.Drained) (hinv : Inv s) :
    s.writer = .created ∨ s.writer = .finished := by
  rcases h with ⟨-, hw⟩ | ⟨hb, -⟩ | ⟨hw, -⟩
  · exact .inr hw
  · exact (hinv.unbegun hb).imp_right And.left
  · exact .inr hw

/-- A channel in the table whose writer is done was drained. -/
theorem drained_of_finished (hinv : Inv s) (hreg : s.registered = true)
    (hw : s.writer = .finished) : s.Drained := by
  rcases hb : s.begun
  · rcases hinv.unbegun hb with hc | ⟨-, hcancel⟩
    · exact absurd (hc.symm.trans hw) (by simp)
    · exact .inr (.inl ⟨hb, hcancel, hreg⟩)
  · exact .inl ⟨hb, hw⟩

/-- A queue that is drained while nobody is inside `put` leaves nobody waiting. -/
theorem silent_of_drained (hinv : Inv t) (hw : t.writer = .finished) (hitems : t.items = [])
    (hput : t.NobodyInPut) : t.Silent := by
  rintro c (hb | hb | hb)
  · exact (hput c).1 hb
  · exact (hput c).2 hb
  · have hq := hinv.queued.queued c hb
    simp [hitems, hw, WriterPc.current] at hq

/-- A writer that holds no frame and has nothing to drain leaves nobody waiting. -/
theorem Channel.NothingToDrain.silent (h : s.NothingToDrain) (hinv : Inv s)
    (hcurrent : s.writer.current = none) : s.Silent := by
  rintro c (hc | hc | hc)
  · exact (h.1 c).1 hc
  · exact (h.1 c).2 hc
  · have hq := hinv.queued.queued c hc
    simp only [hcurrent, Option.toList_none, List.not_mem_nil, or_false] at hq
    exact h.2 c hq hc

/-- The `finally` of the writer. -/
theorem silent_exitWriter (hinv : Inv s.exitWriter) (hp : s.putters = [])
    (hput : s.NobodyInPut) : s.exitWriter.Silent :=
  silent_of_drained hinv rfl (Channel.failOutboundQueue_items s) (failItems_noPut hp hput)

/-- The `while` of the writer leaves a silent channel where it ends. -/
theorem silent_runWriter (hinv : Inv s.runWriter) (hp : s.mayGoOn = false → s.putters = [])
    (hput : s.mayGoOn = false → s.NobodyInPut) (ht : s.runWriter.Drained) :
    s.runWriter.Silent := by
  rcases hgo : s.mayGoOn
  · rw [s.runWriter_exit hgo] at hinv ⊢
    exact silent_exitWriter hinv (hp hgo) (hput hgo)
  · have hw := ht.writer hinv
    unfold Channel.runWriter at hw
    rw [if_pos hgo] at hw
    split at hw <;> simp [Channel.sendNext] at hw

/-- **A drained channel is silent**: the step that drains it for the last time leaves
nobody waiting, and nobody begins to wait on it later. -/
theorem silent_step (hinv : Inv s) (hold : s.Drained → s.Silent) (hG : LeavesNobody cfg s l)
    (hs : StepSpec cfg s l t) (ht : t.Drained) : t.Silent := by
  have hinv' := inv_step hinv hs
  by_cases hd : s.Drained
  · refine (hold hd).step hinv hs fun hl => ?_
    subst hl
    rcases hd with ⟨-, hw⟩ | ⟨hb, hcancel, hreg⟩ | ⟨hw, -⟩
    · exact .inr (.inl hw)
    · rcases hinv.unbegun hb with hw | ⟨hw, -⟩
      · exact .inr (.inr (hG hreg hw hcancel))
      · exact .inr (.inl hw)
    · exact .inr (.inl hw)
  have hend : ∀ c o, s.NobodyInPut → (s.endSend c o).NobodyInPut ∧ (s.endSend c o).putters = [] :=
    fun _ _ hput => ⟨resolve_noPut hput _ _, (resolve_putters _ _).trans (hput.putters hinv)⟩
  cases hs with
  | refused | accepted | parked | insert | parkAgain | returns | raises | leavePutters
  | leavePut | leaveFuture | connectionClosed | stopUnregistered =>
      exact absurd (ht.congr rfl rfl rfl rfl rfl) hd
  | passOn =>
      refine absurd (ht.congr ?_ ?_ ?_ ?_ ?_) hd <;> simp [Channel.setCaller]
  | startWriter =>
      exact silent_runWriter hinv' (fun hno => (hG hno).putters hinv) hG ht
  | @sendReturns c =>
      have hput := fun hno => hend c .sent (hG ((s.endSend_mayGoOn c .sent).symm.trans hno))
      exact silent_runWriter hinv' (fun hno => (hput hno).2) (fun hno => (hput hno).1) ht
  | get | sendRaises =>
      rcases ht.writer hinv' with hw | hw <;> simp [Channel.sendNext] at hw
  | closeReturns => exact silent_exitWriter hinv' (hG.putters hinv) hG
  | cancelledIdle hw =>
      have hput : s.NobodyInPut := hG (by rcases hw with hw | ⟨c, hw⟩ <;> simp [hw])
      exact silent_exitWriter hinv' (hput.putters hinv) hput
  | @cancelledSending c hw =>
      have hput := hend c .error (hG (by simp [hw]))
      exact silent_exitWriter hinv' hput.2 hput.1
  | cancelledUnstarted hw hcancel =>
      -- The writer had neither begun nor been stopped, so its channel still has a cleanup.
      rcases ht with ⟨hb, -⟩ | ⟨hb, -, hreg⟩ | ⟨-, hreg, hclose⟩
      · exact absurd hw (hinv.begun hb)
      · exact absurd (.inr (.inl ⟨hb, hcancel, hreg⟩)) hd
      · rcases hinv.owned with ho | ho | ho
        · exact absurd ho (by simpa using hreg)
        · exact absurd (hw.symm.trans ho) (by simp)
        · exact absurd ho hclose
  | closeOutboundChannel =>
      rcases ht with hb | ⟨-, -, hreg⟩ | ⟨-, -, hclose⟩
      · exact absurd (.inl hb) hd
      · cases hreg
      · exact absurd rfl hclose
  | cleanup hc hw =>
      exact silent_of_drained hinv' (by simpa using hw) (Channel.failOutboundQueue_items s)
        (failItems_noPut (hG.putters hinv) hG)
  | cleanupCancelled hc hw =>
      rcases hb : s.begun
      · exact ((hG hb).silent hinv (by rw [hw]; rfl)).congr rfl
      · exact absurd (.inl ⟨hb, hw⟩) hd
  | outboundFinished hreg hw => exact absurd (drained_of_finished hinv hreg hw) hd
  | stop hreg =>
      rcases hw : s.writer
      case created => exact silent_stop hinv hreg (hG hreg hw)
      case finished => exact absurd (drained_of_finished hinv hreg hw) hd
      all_goals
        rcases ht.writer hinv' with hw' | hw' <;> simp [Channel.cancelWriter, hw] at hw'

/-- Before its last cleanup has run: the writer has drained the queue, or it has not begun
and there is nothing to drain. -/
def Channel.HasDrained (s : Channel) : Prop :=
  if s.begun then s.writer = .finished else s.NothingToDrain

/-- Nobody waits once the queue was drained. -/
theorem Channel.HasDrained.silent (h : s.HasDrained) (hinv : Inv s)
    (hdrained : s.Drained → s.Silent) : s.Silent := by
  unfold Channel.HasDrained at h
  split at h
  · next hb => exact hdrained (.inl ⟨hb, h⟩)
  · next hb =>
      refine h.silent hinv ?_
      rcases hinv.unbegun (by simpa using hb) with hw | ⟨hw, -⟩ <;> rw [hw] <;> rfl

end Drained

/-- The callers that go on by themselves. -/
def Settles (s : Channel) : Label → Prop
  | .resumePut c | .resumeFuture c => c < s.nextCaller
  | _ => False

/-- How many callers can go on by themselves. -/
def Channel.resumable (s : Channel) : ℕ :=
  ((Finset.range s.nextCaller).filter fun c => (s.callers c).canResume).card

/-- A caller that goes on is no longer one that can. -/
theorem resumable_setCaller {s t : Channel} {c : ℕ} (pc : CallerPc) (hc : c < s.nextCaller)
    (hold : (s.callers c).canResume = true) (hpc : pc.canResume = false)
    (hn : t.nextCaller = s.nextCaller) (ht : t.callers = Function.update s.callers c pc) :
    t.resumable < s.resumable := by
  refine Finset.card_lt_card ((Finset.ssubset_iff_of_subset fun d hd => ?_).2 ⟨c, ?_, ?_⟩)
  · simp only [Finset.mem_filter, hn, ht, Function.update_apply] at hd ⊢
    refine ⟨hd.1, ?_⟩
    have hcan := hd.2
    split at hcan
    · rw [hpc] at hcan
      cases hcan
    · exact hcan
  · simp [hc, hold]
  · simp [ht, hpc]

/-- Each such step leaves fewer callers to go on. -/
theorem settles_step {cfg : Config} {s t : Channel} {l : Label} (hG : Settles s l)
    (hs : StepSpec cfg s l t) :
    t.resumable < s.resumable ∧ (s.Retired → t.Retired) ∧
      ∀ c, (s.callers c).IsWaiting → (t.callers c).IsWaiting := by
  have hupdate : ∀ {c : ℕ} {pc : CallerPc} {u : Channel}, u.callers = Function.update s.callers c pc →
      (pc.IsWaiting ∨ ¬ (s.callers c).IsWaiting) →
      ∀ d, (s.callers d).IsWaiting → (u.callers d).IsWaiting := by
    intro c pc u hu hpc d hd
    rw [hu, Function.update_apply]
    split
    · rename_i hdc
      subst hdc
      exact hpc.resolve_right fun hn => hn hd
    · exact hd
  cases hs with
  | insert hc =>
      exact ⟨resumable_setCaller .queued hG (by simp [hc, CallerPc.canResume]) rfl rfl rfl,
        id, hupdate rfl (Or.inl (Or.inr (Or.inr rfl)))⟩
  | parkAgain hc =>
      exact ⟨resumable_setCaller .blocked hG (by simp [hc, CallerPc.canResume]) rfl rfl rfl,
        id, hupdate rfl (Or.inl (Or.inl rfl))⟩
  | returns hc =>
      exact ⟨resumable_setCaller .returned hG (by simp [hc, CallerPc.canResume]) rfl rfl rfl,
        id, hupdate rfl (Or.inr (by simp [hc, CallerPc.IsWaiting]))⟩
  | raises hc =>
      exact ⟨resumable_setCaller .raised hG (by simp [hc, CallerPc.canResume]) rfl rfl rfl,
        id, hupdate rfl (Or.inr (by simp [hc, CallerPc.IsWaiting]))⟩
  | _ => exact absurd hG id

/-! ## A step that leaves somebody behind -/

section Lost

variable {cfg : Config} {s t : Channel} {l : Label}

/-- The callers run on until nobody can. -/
theorem exists_lost (cfg : Config) (hinv : Inv s) (hr : s.Retired) {c : ℕ} (hc : (s.callers c).IsWaiting) :
    ∃ t, Reachable ((system cfg).startingAt s) t ∧ ¬ t.NoLostWaiter := by
  obtain ⟨t, ht, hterm⟩ := ReachableWhen.exists_terminal
    (S := (system cfg).startingAt s) (G := Settles) Channel.resumable
    (fun _ _ _ hG hs => (settles_step hG (stepSpec_of_step hs)).1) (ReachableWhen.init rfl)
  have hwait : Inv t ∧ t.Retired ∧ (t.callers c).IsWaiting := by
    refine ht.invariant (I := fun t => Inv t ∧ t.Retired ∧ (t.callers c).IsWaiting) ?_ ?_
    · rintro _ rfl
      exact ⟨hinv, hr, hc⟩
    · intro u l v hu hG hs
      obtain ⟨_, hret, hw⟩ := settles_step hG (stepSpec_of_step hs)
      exact ⟨inv_step hu.1 (stepSpec_of_step hs), hret hu.2.1, hw c hu.2.2⟩
  refine ⟨t, ht.reachable, fun hlost => hlost hwait.2.1 (fun d => ?_) c hwait.2.2⟩
  have hput := hterm (.resumePut d)
  have hfut := hterm (.resumeFuture d)
  simp only [Settles, System.startingAt, system, step] at hput hfut
  cases hd : t.callers d with
  | woken =>
      have hlt : d < t.nextCaller := hwait.1.queued.called (by simp [hd])
      have hnone := hput hlt
      rw [if_pos hd] at hnone
      split at hnone <;> cases hnone
  | resolved o =>
      have hlt : d < t.nextCaller := hwait.1.queued.called (by simp [hd])
      have hnone := hfut hlt
      rw [hd] at hnone
      cases o <;> cases hnone
  | _ => rfl

/-- A channel whose writer is done can be retired as it is: it leaves the table, or its
cleanup is cancelled. -/
theorem lost_of_finished (cfg : Config) (hinv : Inv s) (hw : s.writer = .finished) {c : ℕ}
    (hc : (s.callers c).IsWaiting) :
    ∃ u, Reachable ((system cfg).startingAt s) u ∧ ¬ u.NoLostWaiter := by
  have hrun : ∀ {l v}, step cfg s l = some v → v.Retired → v.callers = s.callers →
      ∃ u, Reachable ((system cfg).startingAt s) u ∧ ¬ u.NoLostWaiter := by
    intro l v hv hret hcallers
    obtain ⟨u, hu, hlost⟩ := exists_lost cfg (inv_step hinv (stepSpec_of_step hv)) hret
      (c := c) (by rw [hcallers]; exact hc)
    exact ⟨u, Reachable.of_step (S := system cfg) hv hu, hlost⟩
  by_cases hreg : s.registered = true
  · have hv : step cfg s .outboundFinished = some { s with registered := false } := by
      simp [step, hreg, hw]
    exact hrun hv ⟨hw, rfl, by simp [hinv.unclosed hreg]⟩ rfl
  · have hreg : s.registered = false := by simpa using hreg
    by_cases hclose : s.closer = .waiting
    · have hv : step cfg s .cleanupCancelled = some { s with closer := .ended } := by
        simp [step, hclose, hw]
      exact hrun hv ⟨hw, hreg, by simp⟩ rfl
    · exact exists_lost cfg hinv ⟨hw, hreg, hclose⟩ hc

/-- A writer that was cancelled before it began is done without a drain. -/
theorem lost_of_unstarted (cfg : Config) (hinv : Inv s) (hw : s.writer = .created)
    (hcancel : s.cancelRequested = true) {c : ℕ} (hc : (s.callers c).IsWaiting) :
    ∃ u, Reachable ((system cfg).startingAt s) u ∧ ¬ u.NoLostWaiter := by
  have hv : step cfg s .writerCancelled = some { s with writer := .finished } := by
    simp only [step, hcancel, hw]
    rfl
  obtain ⟨u, hu, hlost⟩ := lost_of_finished cfg
    (inv_step hinv (stepSpec_of_step hv)) rfl (c := c) hc
  exact ⟨u, Reachable.of_step (S := system cfg) (l := .writerCancelled) hv hu, hlost⟩

/-- The drain of the writer leaves who is inside `put`. -/
theorem exitWriter_waiting (hput : ¬ s.NobodyInPut) :
    ∃ c, (s.exitWriter.callers c).IsWaiting := by
  simp only [Channel.NobodyInPut, not_forall, not_and_or, not_not] at hput
  obtain ⟨c, hc⟩ := hput
  exact ⟨c, (failItems_inPut hc).imp_right .inl⟩

/-- Who is inside `put` stays there while another's future is resolved. -/
theorem endSend_inPut {c : ℕ} {o : Outcome} (hput : ¬ s.NobodyInPut) :
    ¬ (s.endSend c o).NobodyInPut := by
  refine mt (fun h d => ?_) hput
  have hd := h d
  simp only [Channel.endSend, Channel.resolve] at hd
  split at hd
  · rename_i hq
    by_cases hdc : d = c
    · subst hdc
      simp [hq]
    · simpa [Channel.setCaller, Function.update_of_ne hdc] using hd
  · exact hd

/-- **A step that violates the condition can lose a waiter.** -/
theorem lost_of_not_leavesNobody (hinv : Inv s) (hG : ¬ LeavesNobody cfg s l)
    (hs : StepSpec cfg s l t) :
    ∃ u, Reachable ((system cfg).startingAt t) u ∧ ¬ u.NoLostWaiter := by
  have hinv' := inv_step hinv hs
  have hexit : ∀ {u : Channel}, t = u.exitWriter → ¬ u.NobodyInPut →
      ∃ u, Reachable ((system cfg).startingAt t) u ∧ ¬ u.NoLostWaiter := by
    rintro u rfl hput
    obtain ⟨c, hc⟩ := exitWriter_waiting hput
    exact lost_of_finished cfg hinv' rfl hc
  cases hs with
  | refused hno =>
      simp only [LeavesNobody, Classical.not_imp] at hG
      obtain ⟨hreg, hw, -, hin⟩ := hG
      rcases hno with hno | hno | hno
      · exact absurd hreg (by simp [hno])
      · exact absurd (hw.symm.trans hno) (by simp)
      · exact absurd hno hin
  | accepted | parked =>
      simp only [LeavesNobody, Classical.not_imp] at hG
      obtain ⟨-, hw, hcancel, -⟩ := hG
      refine lost_of_unstarted cfg hinv' hw hcancel (c := s.nextCaller) ?_
      simp [Channel.putNowait, Channel.park, Channel.setCaller, CallerPc.IsWaiting]
  | startWriter =>
      simp only [LeavesNobody, Classical.not_imp] at hG
      exact hexit (Channel.runWriter_exit _ hG.1) hG.2
  | @sendReturns c =>
      simp only [LeavesNobody, Classical.not_imp] at hG
      exact hexit (Channel.runWriter_exit _ ((s.endSend_mayGoOn c .sent).trans hG.1))
        (endSend_inPut hG.2)
  | closeReturns => exact hexit rfl hG
  | cancelledUnstarted hw => exact absurd (fun hno => absurd hw hno) hG
  | cancelledIdle =>
      simp only [LeavesNobody, Classical.not_imp] at hG
      exact hexit rfl hG.2
  | cancelledSending =>
      simp only [LeavesNobody, Classical.not_imp] at hG
      exact hexit rfl (endSend_inPut hG.2)
  | cleanup hc hw =>
      obtain ⟨c, hc⟩ := exitWriter_waiting hG
      exact lost_of_finished cfg hinv' (by simpa using hw) (c := c) hc
  | cleanupCancelled hc hw =>
      simp only [LeavesNobody, Channel.NothingToDrain, Channel.NobodyInPut, Classical.not_imp,
        not_and_or, not_forall, not_not] at hG
      obtain ⟨-, ⟨c, hc⟩ | ⟨c, -, hc⟩⟩ := hG
      · exact lost_of_finished cfg hinv' hw (c := c) (hc.imp_right .inl)
      · exact lost_of_finished cfg hinv' hw (c := c) (.inr (.inr hc))
  | stop hreg =>
      simp only [LeavesNobody, Classical.not_imp] at hG
      obtain ⟨-, hw, hput⟩ := hG
      simp only [Channel.NobodyInPut, not_forall, not_and_or, not_not] at hput
      obtain ⟨c, hc⟩ := hput
      have hcurrent : ({ s.cancelWriter with running := false }.failCurrent).callers =
          s.callers := by
        simp [Channel.failCurrent, Channel.cancelWriter, hw]
      refine lost_of_unstarted cfg hinv' (by simpa [Channel.cancelWriter] using hw)
        (by simp [Channel.cancelWriter, hw]) (c := c) ?_
      exact (failItems_inPut (by rwa [hcurrent])).imp_right .inl
  | stopUnregistered hreg =>
      simp only [LeavesNobody, Classical.not_imp] at hG
      exact absurd hG.1 (by simp [hreg])
  | _ => exact absurd trivial hG

end Lost

/-- **The outbound channel.**  In every run frames go to `send_frame` in order
and a caller returns only after its own frame was sent.  No waiter is lost in
the runs whose steps leave nobody behind, and after a step that leaves somebody
behind a waiter can be lost. -/
theorem frame_waiters (cfg : Config) :
    (∀ s, Reachable (system cfg) s → s.InOrder ∧ s.ReturnsAreSent) ∧
      (∀ s, ReachableWhen (system cfg) (LeavesNobody cfg) s → s.NoLostWaiter) ∧
      ∀ s l t, Reachable (system cfg) s → step cfg s l = some t → ¬ LeavesNobody cfg s l →
        ∃ u, Reachable ((system cfg).startingAt t) u ∧ ¬ u.NoLostWaiter := by
  refine ⟨fun s hs => ?_, fun s hs hret _ => ?_, fun s l t hs ht hG => ?_⟩
  · have h := inv_of_reachable hs
    exact ⟨h.inOrder, h.queued.returned⟩
  · have hsilent : Inv s ∧ (s.Drained → s.Silent) := by
      refine hs.invariant (I := fun s => Inv s ∧ (s.Drained → s.Silent)) ?_
        fun u l v hu hG hst => ?_
      · rintro _ rfl
        exact ⟨Inv.initial, fun hd => by simp [Channel.Drained, Channel.Retired, initial] at hd⟩
      · have hsp := stepSpec_of_step hst
        exact ⟨inv_step hu.1 hsp, silent_step hu.1 hu.2 hG hsp⟩
    exact hsilent.2 (.inr (.inr hret))
  · exact lost_of_not_leavesNobody (inv_of_reachable hs) hG (stepSpec_of_step ht)

end OutboundChannel
end Core
end Paqto
