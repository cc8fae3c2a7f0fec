/-
# The invariant of an outbound channel

`Queued held hand s` is what holds of the queue, its callers and the record of what
has happened, while `send_frame` holds the frame `held`; the operations of the
queue keep it one by one.  `Inv` is the case of the frame the writer is in
fact sending, and gives (i) and (ii) in every state of a run.
-/

import Paqto.Core.OutboundChannel

namespace Paqto
namespace Core
namespace OutboundChannel

open Transition

/-- What each step does, with its guards. -/
inductive StepSpec (cfg : Config) (s : Channel) : Label → Channel → Prop
  | refused (hno : s.registered = false ∨ s.writer = .finished ∨ s.Refuses cfg) :
      StepSpec cfg s .queueFrame
        ({ s with nextCaller := s.nextCaller + 1 }.setCaller s.nextCaller .raised)
  | accepted (hreg : s.registered = true) (hw : s.writer ≠ .finished) (hin : ¬ s.Refuses cfg) :
      StepSpec cfg s .queueFrame
        ({ s with nextCaller := s.nextCaller + 1 }.putNowait s.nextCaller)
  | parked (hreg : s.registered = true) (hw : s.writer ≠ .finished) (hin : ¬ s.Refuses cfg) :
      StepSpec cfg s .queueFrame ({ s with nextCaller := s.nextCaller + 1 }.park s.nextCaller)
  | insert {c : ℕ} (hc : s.callers c = .woken) : StepSpec cfg s (.resumePut c) (s.putNowait c)
  | parkAgain {c : ℕ} (hc : s.callers c = .woken) : StepSpec cfg s (.resumePut c) (s.park c)
  | returns {c : ℕ} (hc : s.callers c = .resolved .sent) :
      StepSpec cfg s (.resumeFuture c) (s.setCaller c .returned)
  | raises {c : ℕ} (hc : s.callers c = .resolved .error) :
      StepSpec cfg s (.resumeFuture c) (s.setCaller c .raised)
  | leavePutters {c : ℕ} (hc : s.callers c = .blocked) :
      StepSpec cfg s (.cancelCaller c)
        { s.setCaller c .raised with putters := s.putters.erase c }
  | passOn {c : ℕ} (hc : s.callers c = .woken) :
      StepSpec cfg s (.cancelCaller c) (s.setCaller c .raised).wakeupNext
  | leavePut {c : ℕ} (hc : s.callers c = .woken) :
      StepSpec cfg s (.cancelCaller c) (s.setCaller c .raised)
  | leaveFuture {c : ℕ} (hc : s.callers c = .queued ∨ ∃ o, s.callers c = .resolved o) :
      StepSpec cfg s (.cancelCaller c) (s.setCaller c .raised)
  | startWriter (hw : s.writer = .created) :
      StepSpec cfg s .startWriter { s with begun := true }.runWriter
  | get {i : ℕ} {items : List ℕ} (hi : s.items = i :: items) (hw : s.writer = .getting) :
      StepSpec cfg s .get (s.sendNext i items)
  | sendReturns {c : ℕ} (hw : s.writer = .sending c) :
      StepSpec cfg s .sendReturns (s.endSend c .sent).runWriter
  | sendRaises {c : ℕ} (hw : s.writer = .sending c) :
      StepSpec cfg s .sendRaises
        { s.endSend c .error with writer := .closing c, isClosed := true }
  | closeReturns {c : ℕ} (hw : s.writer = .closing c) :
      StepSpec cfg s .closeReturns s.exitWriter
  | cancelledUnstarted (hw : s.writer = .created) (hcancel : s.cancelRequested = true) :
      StepSpec cfg s .writerCancelled { s with writer := .finished }
  | cancelledIdle (hw : s.writer = .getting ∨ ∃ c, s.writer = .closing c) :
      StepSpec cfg s .writerCancelled s.exitWriter
  | cancelledSending {c : ℕ} (hw : s.writer = .sending c) :
      StepSpec cfg s .writerCancelled (s.endSend c .error).exitWriter
  | connectionClosed : StepSpec cfg s .connectionClosed { s with isClosed := true }
  | closeOutboundChannel (hreg : s.registered = true) :
      StepSpec cfg s .closeOutboundChannel
        { s.cancelWriter with registered := false, closer := .waiting }
  | cleanup (hc : s.closer = .waiting) (hw : s.writer = .finished) :
      StepSpec cfg s .cleanup { s.failOutboundQueue with closer := .ended }
  | cleanupCancelled (hc : s.closer = .waiting) (hw : s.writer = .finished) :
      StepSpec cfg s .cleanupCancelled { s with closer := .ended }
  | outboundFinished (hreg : s.registered = true) (hw : s.writer = .finished) :
      StepSpec cfg s .outboundFinished { s with registered := false }
  | stop (hreg : s.registered = true) :
      StepSpec cfg s .stop { s.cancelWriter with running := false }.failCurrent.failOutboundQueue
  | stopUnregistered (hreg : s.registered = false) :
      StepSpec cfg s .stop { s with running := false }

/-- **What a step does**, as a relation. -/
theorem stepSpec_of_step {cfg : Config} {s t : Channel} {l : Label} (h : step cfg s l = some t) :
    StepSpec cfg s l t := by
  cases l with
  | queueFrame =>
      simp only [step] at h
      split at h
      · rename_i hno
        cases h
        simp only [Bool.or_eq_true, Bool.not_eq_true', decide_eq_true_eq] at hno
        exact .refused (by unfold Channel.Refuses; tauto)
      · rename_i hreg
        simp only [Bool.or_eq_true, Bool.not_eq_true', decide_eq_true_eq, not_or,
          Bool.not_eq_false, Bool.not_eq_true] at hreg
        split at h
        · rename_i hroom
          cases h
          exact .accepted hreg.1.1 hreg.1.2 (by simp [Channel.Refuses, hreg.2, hroom])
        · rename_i hfull
          split at h <;> rename_i hpolicy <;> cases h
          · exact .parked hreg.1.1 hreg.1.2 (by simp [Channel.Refuses, hreg.2, hpolicy])
          · exact .refused (.inr (.inr (.inr ⟨not_lt.1 hfull, hpolicy⟩)))
  | resumePut c =>
      simp only [step] at h
      split at h
      · rename_i hc
        split at h <;> cases h
        · exact .insert hc
        · exact .parkAgain hc
      · cases h
  | resumeFuture c =>
      simp only [step] at h
      split at h <;> rename_i hc <;> cases h
      · exact .returns hc
      · exact .raises hc
  | cancelCaller c =>
      simp only [step] at h
      split at h
      · rename_i hc
        cases h
        exact .leavePutters hc
      · rename_i hc
        split at h <;> cases h
        · exact .passOn hc
        · exact .leavePut hc
      · rename_i hc
        cases h
        exact .leaveFuture (Or.inl hc)
      · rename_i o hc
        cases h
        exact .leaveFuture (Or.inr ⟨o, hc⟩)
      · cases h
  | startWriter =>
      simp only [step] at h
      split at h <;> cases h
      rename_i hw
      exact .startWriter hw.1
  | get =>
      simp only [step] at h
      split at h
      · rename_i hi
        split at h <;> cases h
        rename_i hw
        exact .get hi hw.1
      · cases h
  | sendReturns =>
      simp only [step] at h
      split at h
      · rename_i hw
        split at h <;> cases h
        exact .sendReturns hw
      · cases h
  | sendRaises =>
      simp only [step] at h
      split at h
      · rename_i hw
        split at h <;> cases h
        exact .sendRaises hw
      · cases h
  | closeReturns =>
      simp only [step] at h
      split at h
      · rename_i hw
        split at h <;> cases h
        exact .closeReturns hw
      · cases h
  | writerCancelled =>
      simp only [step] at h
      split at h
      · rename_i hcancel
        split at h <;> rename_i hw <;> cases h
        · exact .cancelledUnstarted hw hcancel
        · exact .cancelledIdle (Or.inl hw)
        · exact .cancelledIdle (Or.inr ⟨_, hw⟩)
        · exact .cancelledSending hw
      · cases h
  | connectionClosed =>
      cases h
      exact .connectionClosed
  | closeOutboundChannel =>
      simp only [step] at h
      split at h <;> cases h
      rename_i hreg
      exact .closeOutboundChannel hreg
  | cleanup =>
      simp only [step] at h
      split at h <;> cases h
      rename_i hc
      exact .cleanup hc.1 hc.2
  | cleanupCancelled =>
      simp only [step] at h
      split at h <;> cases h
      rename_i hc
      exact .cleanupCancelled hc.1 hc.2
  | outboundFinished =>
      simp only [step] at h
      split at h <;> cases h
      rename_i hc
      exact .outboundFinished hc.1 hc.2
  | stop =>
      simp only [step] at h
      split at h
      · split at h <;> rename_i hreg <;> cases h
        · exact .stop hreg
        · exact .stopUnregistered (by simpa using hreg)
      · cases h

/-- The frames of the queue, of the writer and in hand belong to callers that wait for them. -/
structure Queued (held : Option ℕ) (hand : List ℕ) (s : Channel) : Prop where
  blocked_iff : ∀ c, s.callers c = .blocked ↔ c ∈ s.putters
  putters_nodup : s.putters.Nodup
  queued : ∀ c, s.callers c = .queued → c ∈ s.items ∨ c ∈ hand
  fresh : ∀ c, s.nextCaller ≤ c → s.callers c = .notCalled
  inserted : ∀ c ∈ s.inserted,
    s.callers c ≠ .notCalled ∧ s.callers c ≠ .blocked ∧ s.callers c ≠ .woken
  inserted_nodup : s.inserted.Nodup
  taken : ∃ taken, s.inserted = taken ++ s.items ∧ s.started.Sublist taken
  started : s.started = s.ended ++ held.toList
  resolved : ∀ c, s.callers c = .resolved .sent → c ∈ s.delivered
  returned : ∀ c, s.callers c = .returned → c ∈ s.delivered

section Queued

variable {held : Option ℕ} {hand : List ℕ} {s : Channel}

/-- Nothing is queued. -/
theorem queued_initial : Queued none [] initial where
  blocked_iff := by simp [initial]
  putters_nodup := List.nodup_nil
  queued := by simp [initial]
  fresh := fun _ _ => rfl
  inserted := by simp [initial]
  inserted_nodup := List.nodup_nil
  taken := ⟨[], rfl, List.Sublist.refl _⟩
  started := rfl
  resolved := by simp [initial]
  returned := by simp [initial]

/-- A caller that is not in the queue ends, or sees its future done. -/
theorem Queued.setCaller {c : ℕ} {pc : CallerPc} (h : Queued held hand s)
    (hc : c ∉ s.putters) (hlt : c < s.nextCaller)
    (hpc : pc = .raised ∨ pc = .resolved .error ∨
      (pc = .resolved .sent ∨ pc = .returned) ∧ c ∈ s.delivered) :
    Queued held hand (s.setCaller c pc) := by
  have hne : pc ≠ .blocked ∧ pc ≠ .queued ∧ pc ≠ .notCalled ∧ pc ≠ .woken := by
    rcases hpc with rfl | rfl | ⟨rfl | rfl, _⟩ <;> decide
  have hdel : pc = .resolved .sent ∨ pc = .returned → c ∈ s.delivered := by
    rintro (rfl | rfl) <;> simpa using hpc
  obtain ⟨hb, hn, hq, hf, hi, hin, ht, hst, hr, hrt⟩ := h
  refine ⟨fun d => ?_, hn, fun d hd => ?_, fun d hd => ?_, fun d hd => ?_, hin, ht, hst,
    fun d hd => ?_, fun d hd => ?_⟩
  all_goals
    simp only [Channel.setCaller, Function.update_apply] at *
    split at * <;> rename_i hdc
  · subst hdc
    exact ⟨fun hp => absurd hp hne.1, fun hp => absurd hp hc⟩
  · exact hb d
  · exact absurd hd hne.2.1
  · exact hq d hd
  · subst hdc
    omega
  · exact hf d hd
  · exact ⟨hne.2.2.1, hne.1, hne.2.2.2⟩
  · exact hi d hd
  · subst hdc
    exact hdel (Or.inl hd)
  · exact hr d hd
  · subst hdc
    exact hdel (Or.inr hd)
  · exact hrt d hd

/-- `Queue.put_nowait` of a caller that is not in the queue yet. -/
theorem Queued.putNowait {c : ℕ} (h : Queued held hand s) (hc : c ∉ s.putters)
    (hin : c ∉ s.inserted) (hlt : c < s.nextCaller) : Queued held hand (s.putNowait c) := by
  obtain ⟨hb, hn, hq, hf, hi, hnd, ⟨taken, ht, hsub⟩, hst, hr, hrt⟩ := h
  refine ⟨fun d => ?_, hn, fun d hd => ?_, fun d hd => ?_, fun d hd => ?_, ?_,
    ⟨taken, by simp [Channel.putNowait, ht], hsub⟩, hst, fun d hd => ?_, fun d hd => ?_⟩
  all_goals try
    simp only [Channel.putNowait, Channel.setCaller, Function.update_apply] at *
    split at * <;> rename_i hdc
  · subst hdc
    simp [hc]
  · exact hb d
  · subst hdc
    simp
  · exact (hq d hd).imp (fun hm => List.mem_append_left _ hm) id
  · subst hdc
    omega
  · exact hf d hd
  · simp
  · refine hi d ?_
    simpa [hdc] using hd
  · refine List.Nodup.append hnd (by simp) ?_
    simpa using hin
  · cases hd
  · exact hr d hd
  · cases hd
  · exact hrt d hd

/-- `Queue.put` parks a caller that is not in the queue yet. -/
theorem Queued.park {c : ℕ} (h : Queued held hand s) (hc : c ∉ s.putters)
    (hin : c ∉ s.inserted) (hlt : c < s.nextCaller) : Queued held hand (s.park c) := by
  obtain ⟨hb, hn, hq, hf, hi, hnd, ht, hst, hr, hrt⟩ := h
  refine ⟨fun d => ?_, ?_, fun d hd => ?_, fun d hd => ?_, fun d hd => ?_, hnd, ht, hst,
    fun d hd => ?_, fun d hd => ?_⟩
  all_goals try
    simp only [Channel.park, Channel.setCaller, Function.update_apply] at *
    split at * <;> rename_i hdc
  · subst hdc
    simp
  · simp [hb d, hdc]
  · refine List.Nodup.append hn (by simp) ?_
    simpa using hc
  · cases hd
  · exact hq d hd
  · subst hdc
    omega
  · exact hf d hd
  · subst hdc
    exact absurd hd hin
  · exact hi d hd
  · cases hd
  · exact hr d hd
  · cases hd
  · exact hrt d hd

/-- A waiting caller is woken up. -/
theorem Queued.wakeupNext (h : Queued held hand s) : Queued held hand s.wakeupNext := by
  unfold Channel.wakeupNext
  split
  · exact h
  · rename_i p putters hp
    obtain ⟨hb, hn, hq, hf, hi, hnd, ht, hst, hr, hrt⟩ := h
    rw [hp, List.nodup_cons] at hn
    have hpb : s.callers p = .blocked := (hb p).2 (by simp [hp])
    refine ⟨fun d => ?_, hn.2, fun d hd => ?_, fun d hd => ?_, fun d hd => ?_, hnd, ht, hst,
      fun d hd => ?_, fun d hd => ?_⟩
    all_goals
      simp only [Channel.setCaller, Function.update_apply] at *
      split at * <;> rename_i hdc
    · subst hdc
      simp [hn.1]
    · simp [hb d, hp, hdc]
    · cases hd
    · exact hq d hd
    · subst hdc
      rw [hf d hd] at hpb
      cases hpb
    · exact hf d hd
    · subst hdc
      exact absurd hpb (hi d hd).2.1
    · exact hi d hd
    · cases hd
    · exact hr d hd
    · cases hd
    · exact hrt d hd

/-- More frames may be in hand. -/
theorem Queued.weaken {hand' : List ℕ} (h : Queued held hand s) (hsub : hand ⊆ hand') :
    Queued held hand' s :=
  { h with queued := fun c hc => (h.queued c hc).imp_right fun hm => hsub hm }

/-- A caller that was called has a number. -/
theorem Queued.called {c : ℕ} (h : Queued held hand s) (hc : s.callers c ≠ .notCalled) :
    c < s.nextCaller := by
  by_contra hlt
  exact hc (h.fresh c (by omega))

/-- A frame is taken in hand. -/
theorem Queued.getNowait {i : ℕ} {items : List ℕ} (h : Queued held hand s)
    (hi : s.items = i :: items) : Queued held (i :: hand) { s with items } := by
  obtain ⟨hb, hn, hq, hf, hin, hnd, ⟨taken, ht, hsub⟩, hst, hr, hrt⟩ := h
  refine ⟨hb, hn, fun d hd => ?_, hf, hin, hnd, ⟨taken ++ [i], ?_, ?_⟩, hst, hr, hrt⟩
  · have hm := hq d hd
    rw [hi] at hm
    simp only [List.mem_cons] at hm ⊢
    tauto
  · simpa [hi] using ht
  · exact hsub.trans (List.sublist_append_left _ _)

/-- `send_frame` begins with the first item. -/
theorem Queued.sendHead {i : ℕ} {items : List ℕ} (h : Queued none [] s)
    (hi : s.items = i :: items) :
    Queued (some i) [i] { s with items, started := s.started ++ [i] } := by
  obtain ⟨hb, hn, hq, hf, hin, hnd, ⟨taken, ht, hsub⟩, hst, hr, hrt⟩ := h
  refine ⟨hb, hn, fun d hd => ?_, hf, hin, hnd, ⟨taken ++ [i], ?_, ?_⟩, ?_, hr, hrt⟩
  · have hm := hq d hd
    rw [hi] at hm
    simp only [List.mem_cons, List.not_mem_nil, or_false] at hm ⊢
    tauto
  · simpa [hi] using ht
  · exact hsub.append_right [i]
  · simpa using hst

/-- The future of a frame that is out of the queue is resolved. -/
theorem Queued.resolve {c : ℕ} {o : Outcome} (h : Queued held (c :: hand) s)
    (ho : o = .sent → c ∈ s.delivered) : Queued held hand (s.resolve c o) := by
  have hdrop : ∀ u : Channel, Queued held (c :: hand) u → u.callers c ≠ .queued →
      Queued held hand u := by
    rintro u ⟨hb, hn, hq, hf, hin, hnd, ht, hst, hr, hrt⟩ hc
    refine ⟨hb, hn, fun d hd => ?_, hf, hin, hnd, ht, hst, hr, hrt⟩
    rcases hq d hd with hm | hm
    · exact Or.inl hm
    · rcases List.mem_cons.1 hm with rfl | hm
      · exact absurd hd hc
      · exact Or.inr hm
  unfold Channel.resolve
  split
  · rename_i hc
    refine hdrop _ (h.setCaller ?_ (h.called (by simp [hc])) ?_) (by simp [Channel.setCaller])
    · rw [← h.blocked_iff, hc]
      decide
    · cases o
      · exact Or.inr (Or.inr ⟨Or.inl rfl, ho rfl⟩)
      · exact Or.inr (Or.inl rfl)
  · rename_i hc
    exact hdrop _ h hc

/-- A second error for a frame changes nothing of this. -/
theorem Queued.resolveAgain {c : ℕ} (h : Queued held hand s) :
    Queued held hand (s.resolve c .error) :=
  (h.weaken (List.subset_cons_self c hand)).resolve fun ho => by cases ho

/-- The number of a new call. -/
theorem Queued.next (h : Queued held hand s) :
    Queued held hand { s with nextCaller := s.nextCaller + 1 } :=
  { h with fresh := fun c hc => h.fresh c (Nat.le_of_succ_le hc) }

/-- A caller gives up its place among the putters. -/
theorem Queued.erase {c : ℕ} (h : Queued held hand s) (hc : s.callers c = .blocked) :
    Queued held hand { s.setCaller c .raised with putters := s.putters.erase c } := by
  have hlt := h.called (c := c) (by simp [hc])
  obtain ⟨hb, hn, hq, hf, hi, hnd, ht, hst, hr, hrt⟩ := h
  refine ⟨fun d => ?_, hn.erase c, fun d hd => ?_, fun d hd => ?_, fun d hd => ?_, hnd, ht, hst,
    fun d hd => ?_, fun d hd => ?_⟩
  all_goals
    simp only [Channel.setCaller, Function.update_apply] at *
    split at * <;> rename_i hdc
  · subst hdc
    simp [hn.mem_erase_iff]
  · rw [hb d, hn.mem_erase_iff]
    exact (and_iff_right hdc).symm
  · cases hd
  · exact hq d hd
  · subst hdc
    omega
  · exact hf d hd
  · simp
  · exact hi d hd
  · cases hd
  · exact hr d hd
  · cases hd
  · exact hrt d hd

/-- What the queue does not look at may change. -/
theorem Queued.congr {u : Channel} (h : Queued held hand s) (hitems : u.items = s.items)
    (hputters : u.putters = s.putters) (hcallers : u.callers = s.callers)
    (hnext : u.nextCaller = s.nextCaller) (hinserted : u.inserted = s.inserted)
    (hstarted : u.started = s.started) (hended : u.ended = s.ended)
    (hdelivered : u.delivered = s.delivered) : Queued held hand u := by
  obtain ⟨hb, hn, hq, hf, hin, hnd, ht, hst, hr, hrt⟩ := h
  constructor <;> simp only [hitems, hputters, hcallers, hnext, hinserted, hstarted, hended,
    hdelivered] <;> assumption

/-- The queued frames are failed. -/
theorem Queued.failItems {items : List ℕ} (h : Queued held hand s) (hi : s.items = items) :
    Queued held hand (s.failItems items) := by
  induction items generalizing s with
  | nil => exact h
  | cons i items ih =>
      exact ih ((h.getNowait hi).wakeupNext.resolve fun ho => by cases ho) (by simp)

/-- `_fail_outbound_queue` -/
theorem Queued.failOutboundQueue (h : Queued held hand s) :
    Queued held hand s.failOutboundQueue := h.failItems rfl

/-- The writer ends. -/
theorem Queued.exitWriter (h : Queued none [] s) : Queued none [] s.exitWriter :=
  h.failOutboundQueue.congr rfl rfl rfl rfl rfl rfl rfl rfl

/-- The writer takes the next frame. -/
theorem Queued.sendNext {i : ℕ} {items : List ℕ} (h : Queued none [] s)
    (hi : s.items = i :: items) : Queued (some i) [i] (s.sendNext i items) := by
  refine (h.sendHead hi).wakeupNext.congr ?_ ?_ ?_ ?_ ?_ ?_ ?_ ?_ <;>
    simp only [Channel.sendNext, Channel.wakeupNext] <;> split <;> rfl

/-- `send_frame` of the frame in hand ends, and its future is resolved. -/
theorem Queued.endSend {c : ℕ} (h : Queued (some c) [c] s) (o : Outcome) :
    Queued none [] (s.endSend c o) := by
  have hdel : Queued none [c] { s with
      ended := s.ended ++ [c]
      delivered := if o = .sent then s.delivered ++ [c] else s.delivered } := by
    obtain ⟨hb, hn, hq, hf, hin, hnd, ht, hst, hr, hrt⟩ := h
    refine ⟨hb, hn, hq, hf, hin, hnd, ht, by simpa using hst, fun d hd => ?_, fun d hd => ?_⟩
    · dsimp only
      split
      · exact List.mem_append_left _ (hr d hd)
      · exact hr d hd
    · dsimp only
      split
      · exact List.mem_append_left _ (hrt d hd)
      · exact hrt d hd
  have hres := hdel.resolve (c := c) (o := o) (by rintro rfl; simp)
  by_cases hc : s.callers c = .queued <;>
    refine hres.congr ?_ ?_ ?_ ?_ ?_ ?_ ?_ ?_ <;>
    simp [Channel.endSend, Channel.resolve, hc, Channel.setCaller]

end Queued

/-- The invariant of a run. -/
structure Inv (s : Channel) : Prop where
  queued : Queued s.writer.current s.writer.current.toList s
  /-- A writer that has not begun is there, or was cancelled. -/
  unbegun : s.begun = false → s.writer = .created ∨ s.writer = .finished ∧ s.cancelRequested = true
  begun : s.begun = true → s.writer ≠ .created
  /-- A channel out of the table has no writer any more, or one that is being
  cancelled by the cleanup that waits for it. -/
  owned : s.registered = true ∨ s.writer = .finished ∨ s.closer = .waiting
  unclosed : s.registered = true → s.closer = .none

/-- Nobody has called. -/
theorem Inv.initial : Inv initial where
  queued := queued_initial
  unbegun := fun _ => .inl rfl
  begun := fun h => by cases h
  owned := .inl rfl
  unclosed := fun _ => rfl

/-- The writer goes on where it holds no frame. -/
theorem Queued.runWriter {s : Channel} (h : Queued none [] s) :
    Queued s.runWriter.writer.current s.runWriter.writer.current.toList s.runWriter := by
  unfold Channel.runWriter
  split
  · split
    · exact h.congr rfl rfl rfl rfl rfl rfl rfl rfl
    · rename_i hi
      exact h.sendNext hi
  · exact h.exitWriter

/-- A writer that has run is past its creation. -/
theorem runWriter_ne_created (s : Channel) : s.runWriter.writer ≠ .created := by
  unfold Channel.runWriter
  split
  · split <;> simp [Channel.sendNext]
  · simp

/-- A step of a caller. -/
theorem Inv.ofCallers {s t : Channel} (h : Inv s) (hw : t.writer = s.writer)
    (hr : t.registered = s.registered) (hc : t.closer = s.closer) (hb : t.begun = s.begun)
    (hcancel : t.cancelRequested = s.cancelRequested)
    (hq : Queued s.writer.current s.writer.current.toList t) : Inv t where
  queued := hw ▸ hq
  unbegun := by rw [hb, hw, hcancel]; exact h.unbegun
  begun := by rw [hb, hw]; exact h.begun
  owned := by rw [hw, hr, hc]; exact h.owned
  unclosed := by rw [hr, hc]; exact h.unclosed

/-- A step of the writer. -/
theorem Inv.ofWriter {s t : Channel} (h : Inv s) (hw : s.writer ≠ .finished)
    (hr : t.registered = s.registered) (hc : t.closer = s.closer)
    (hb : t.begun = true) (hw' : t.writer ≠ .created)
    (hq : Queued t.writer.current t.writer.current.toList t) : Inv t where
  queued := hq
  unbegun := fun hno => by rw [hb] at hno; cases hno
  begun := fun _ => hw'
  owned := by
    rw [hr, hc]
    exact h.owned.imp_right fun ho => Or.inr (ho.resolve_left hw)
  unclosed := by rw [hr, hc]; exact h.unclosed

/-- A writer that does anything has begun. -/
theorem Inv.hasBegun {s : Channel} (h : Inv s) (hnew : s.writer ≠ .created)
    (hw : s.writer ≠ .finished) : s.begun = true := by
  rcases hb : s.begun
  · rcases h.unbegun hb with hc | ⟨hf, -⟩
    · exact absurd hc hnew
    · exact absurd hf hw
  · rfl

/-- **Every step keeps the invariant.** -/
theorem inv_step {cfg : Config} {s t : Channel} {l : Label} (h : Inv s)
    (hs : StepSpec cfg s l t) : Inv t := by
  have hq := h.queued
  have hfresh : s.callers s.nextCaller = .notCalled := hq.fresh _ le_rfl
  have hput : ∀ c, s.callers c ≠ .blocked → c ∉ s.putters := fun c hc hm =>
    hc ((hq.blocked_iff c).2 hm)
  cases hs with
  | refused =>
      exact h.ofCallers rfl rfl rfl rfl rfl (hq.next.setCaller (hput _ (by simp [hfresh]))
        (Nat.lt_succ_self _) (Or.inl rfl))
  | accepted =>
      exact h.ofCallers rfl rfl rfl rfl rfl (hq.next.putNowait (hput _ (by simp [hfresh]))
        (fun hm => (hq.inserted _ hm).1 hfresh) (Nat.lt_succ_self _))
  | parked =>
      exact h.ofCallers rfl rfl rfl rfl rfl (hq.next.park (hput _ (by simp [hfresh]))
        (fun hm => (hq.inserted _ hm).1 hfresh) (Nat.lt_succ_self _))
  | @insert c hc =>
      exact h.ofCallers rfl rfl rfl rfl rfl (hq.putNowait (hput c (by simp [hc]))
        (fun hm => (hq.inserted c hm).2.2 hc) (hq.called (by simp [hc])))
  | @parkAgain c hc =>
      exact h.ofCallers rfl rfl rfl rfl rfl (hq.park (hput c (by simp [hc]))
        (fun hm => (hq.inserted c hm).2.2 hc) (hq.called (by simp [hc])))
  | @returns c hc =>
      exact h.ofCallers rfl rfl rfl rfl rfl (hq.setCaller (hput c (by simp [hc]))
        (hq.called (by simp [hc])) (Or.inr (Or.inr ⟨Or.inr rfl, hq.resolved c hc⟩)))
  | @raises c hc | @leavePut c hc =>
      exact h.ofCallers rfl rfl rfl rfl rfl (hq.setCaller (hput c (by simp [hc]))
        (hq.called (by simp [hc])) (Or.inl rfl))
  | @leavePutters c hc => exact h.ofCallers rfl rfl rfl rfl rfl (hq.erase hc)
  | @passOn c hc =>
      exact h.ofCallers (by simp [Channel.setCaller]) (by simp [Channel.setCaller])
        (by simp [Channel.setCaller]) (by simp [Channel.setCaller]) (by simp [Channel.setCaller])
        (hq.setCaller (hput c (by simp [hc])) (hq.called (by simp [hc])) (Or.inl rfl)).wakeupNext
  | @leaveFuture c hc =>
      have hne : s.callers c ≠ .blocked ∧ s.callers c ≠ .notCalled := by
        rcases hc with hc | ⟨o, hc⟩ <;> simp [hc]
      exact h.ofCallers rfl rfl rfl rfl rfl (hq.setCaller (hput c hne.1) (hq.called hne.2) (Or.inl rfl))
  | startWriter hw =>
      rw [hw] at hq
      have hq' : Queued none [] { s with begun := true } :=
        hq.congr rfl rfl rfl rfl rfl rfl rfl rfl
      exact h.ofWriter (by simp [hw]) (by simp) (by simp) (by simp) (runWriter_ne_created _)
        hq'.runWriter
  | @get i items hi hw =>
      have hb := h.hasBegun (by simp [hw]) (by simp [hw])
      rw [hw] at hq
      exact h.ofWriter (by simp [hw]) (by simp) (by simp) (by simp [hb])
        (by simp [Channel.sendNext]) (hq.sendNext hi)
  | @sendReturns c hw =>
      have hb := h.hasBegun (by simp [hw]) (by simp [hw])
      rw [hw] at hq
      exact h.ofWriter (by simp [hw]) (by simp) (by simp) (by simp [hb]) (runWriter_ne_created _)
        (hq.endSend .sent).runWriter
  | @sendRaises c hw =>
      have hb := h.hasBegun (by simp [hw]) (by simp [hw])
      rw [hw] at hq
      exact h.ofWriter (by simp [hw]) (by simp) (by simp) (by simp [hb]) (by simp)
        ((hq.endSend .error).congr rfl rfl rfl rfl rfl rfl rfl rfl)
  | @closeReturns c hw =>
      have hb := h.hasBegun (by simp [hw]) (by simp [hw])
      rw [hw] at hq
      exact h.ofWriter (by simp [hw]) (by simp) (by simp) (by simp [hb]) (by simp) hq.exitWriter
  | cancelledUnstarted hw hcancel =>
      have hb : s.begun = false := by
        rcases hb : s.begun
        · rfl
        · exact absurd hw (h.begun hb)
      rw [hw] at hq
      refine ⟨hq.congr rfl rfl rfl rfl rfl rfl rfl rfl, fun _ => .inr ⟨rfl, hcancel⟩,
        fun hno => ?_, .inr (.inl rfl), h.unclosed⟩
      rw [hb] at hno
      cases hno
  | cancelledIdle hw =>
      have hne : s.writer ≠ .created ∧ s.writer ≠ .finished := by
        rcases hw with hw | ⟨c, hw⟩ <;> simp [hw]
      have hq' : Queued none [] s := by rcases hw with hw | ⟨c, hw⟩ <;> rwa [hw] at hq
      exact h.ofWriter hne.2 (by simp) (by simp) (by simp [h.hasBegun hne.1 hne.2]) (by simp)
        hq'.exitWriter
  | @cancelledSending c hw =>
      have hb := h.hasBegun (by simp [hw]) (by simp [hw])
      rw [hw] at hq
      exact h.ofWriter (by simp [hw]) (by simp) (by simp) (by simp [hb]) (by simp)
        (hq.endSend .error).exitWriter
  | connectionClosed =>
      exact h.ofCallers rfl rfl rfl rfl rfl (hq.congr rfl rfl rfl rfl rfl rfl rfl rfl)
  | closeOutboundChannel hreg =>
      refine ⟨hq.congr rfl rfl rfl rfl rfl rfl rfl rfl, fun hb => ?_, h.begun, .inr (.inr rfl),
        by simp⟩
      exact (h.unbegun hb).imp_right fun hf => ⟨hf.1, by simp [Channel.cancelWriter, hf.2]⟩
  | cleanup hc hw =>
      refine ⟨?_, ?_, ?_, .inr (.inl (by simpa using hw)), fun hreg => ?_⟩
      · simp only [Channel.failOutboundQueue_writer]
        exact hq.failOutboundQueue.congr rfl rfl rfl rfl rfl rfl rfl rfl
      · simpa using h.unbegun
      · simpa using h.begun
      · rw [h.unclosed (by simpa using hreg)] at hc
        cases hc
  | cleanupCancelled hc hw =>
      refine ⟨hq.congr rfl rfl rfl rfl rfl rfl rfl rfl, h.unbegun, h.begun, .inr (.inl hw),
        fun hreg => ?_⟩
      rw [h.unclosed hreg] at hc
      cases hc
  | outboundFinished hreg hw =>
      exact ⟨hq.congr rfl rfl rfl rfl rfl rfl rfl rfl, h.unbegun, h.begun, .inr (.inl hw),
        by simp⟩
  | stop hreg =>
      have hfail : Queued s.writer.current s.writer.current.toList
          { s.cancelWriter with running := false }.failCurrent := by
        have hc : Queued s.writer.current s.writer.current.toList
            { s.cancelWriter with running := false } :=
          hq.congr rfl rfl rfl rfl rfl rfl rfl rfl
        unfold Channel.failCurrent
        split
        · exact hc.resolveAgain
        · exact hc.resolveAgain
        · exact hc
      refine ⟨by simpa [Channel.cancelWriter] using hfail.failOutboundQueue, fun hb => ?_, ?_, ?_, ?_⟩
      · refine (h.unbegun (by simpa [Channel.cancelWriter] using hb)).imp ?_ fun hf => ?_
        · exact fun hw => by simpa [Channel.cancelWriter] using hw
        · simp [Channel.cancelWriter, hf]
      · simpa [Channel.cancelWriter] using h.begun
      · simpa [Channel.cancelWriter] using h.owned
      · simpa [Channel.cancelWriter] using h.unclosed
  | stopUnregistered hreg =>
      exact h.ofCallers rfl rfl rfl rfl rfl (hq.congr rfl rfl rfl rfl rfl rfl rfl rfl)

/-- **The invariant holds in every run.** -/
theorem inv_of_reachable {cfg : Config} {s : Channel} (h : Reachable (system cfg) s) : Inv s := by
  refine h.invariant (I := Inv) ?_ fun _ _ _ hi hs => inv_step hi (stepSpec_of_step hs)
  rintro _ rfl
  exact Inv.initial

/-- **(i)** holds in every state. -/
theorem Inv.inOrder {s : Channel} (h : Inv s) : s.InOrder := by
  obtain ⟨taken, ht, hsub⟩ := h.queued.taken
  refine ⟨?_, h.queued.inserted_nodup, h.queued.started⟩
  rw [ht]
  exact hsub.trans (List.sublist_append_left _ _)

/-! ## Silent channels -/

/-- Nobody waits on the channel. -/
def Channel.Silent (s : Channel) : Prop := ∀ c, ¬ (s.callers c).IsWaiting

section Silent

variable {s t : Channel}

/-- It reads the callers only. -/
theorem Channel.Silent.congr (h : s.Silent) (ht : t.callers = s.callers) : t.Silent := by
  intro c
  rw [ht]
  exact h c

/-- A caller moves, and does not wait. -/
theorem Channel.Silent.setCaller (h : s.Silent) {c : ℕ} {pc : CallerPc}
    (ht : t.callers = Function.update s.callers c pc) (hpc : ¬ pc.IsWaiting) : t.Silent := by
  intro d
  rw [ht, Function.update_apply]
  split
  · exact hpc
  · exact h d

/-- Nobody waits for the frame. -/
theorem Channel.Silent.resolve (h : s.Silent) (c : ℕ) (o : Outcome) :
    (s.resolve c o).callers = s.callers := by
  unfold Channel.resolve
  rw [if_neg fun hq => h c (.inr (.inr hq))]

/-- Nobody is woken up. -/
theorem wakeupNext_of_nil (hp : s.putters = []) : s.wakeupNext = s := by
  simp [Channel.wakeupNext, hp]

/-- A send that is resolved leaves the putters alone. -/
theorem resolve_putters (c : ℕ) (o : Outcome) : (s.resolve c o).putters = s.putters := by
  unfold Channel.resolve
  split <;> rfl

/-- Nobody waits for a failed frame. -/
theorem Channel.Silent.failItems (items : List ℕ) {s : Channel} (h : s.Silent)
    (hp : s.putters = []) : (s.failItems items).callers = s.callers := by
  induction items generalizing s with
  | nil => rfl
  | cons i items ih =>
      have hw : ({ s with items } : Channel).wakeupNext = { s with items } :=
        wakeupNext_of_nil hp
      have hres : (({ s with items } : Channel).resolve i .error).callers = s.callers :=
        Channel.Silent.resolve (s := { s with items }) h i .error
      unfold Channel.failItems
      rw [hw, ih (h.congr hres) ((resolve_putters i .error).trans hp), hres]

/-- The writer runs, and nobody notices. -/
theorem Channel.Silent.runWriter (h : s.Silent) (hp : s.putters = []) :
    s.runWriter.callers = s.callers := by
  unfold Channel.runWriter
  split
  · split
    · rfl
    · next i items _ =>
        have hw : ({ s with items } : Channel).wakeupNext = { s with items } :=
          wakeupNext_of_nil hp
        rw [Channel.sendNext, hw]
  · exact h.failItems s.items hp

/-- A send is over, and nobody notices. -/
theorem Channel.Silent.endSend (h : s.Silent) (c : ℕ) (o : Outcome) :
    (s.endSend c o).callers = s.callers := h.resolve c o

/-- **Nobody begins to wait but by a call** on a channel in use. -/
theorem Channel.Silent.step {cfg : Config} {l : Label} (h : s.Silent) (hinv : Inv s)
    (hs : StepSpec cfg s l t)
    (hl : l = .queueFrame → s.registered = false ∨ s.writer = .finished ∨ s.Refuses cfg) :
    t.Silent := by
  have hp : s.putters = [] := List.eq_nil_iff_forall_not_mem.2 fun c hc =>
    h c (.inl ((hinv.queued.blocked_iff c).2 hc))
  have hend : ∀ c o, (s.endSend c o).Silent := fun c o => h.congr (h.endSend c o)
  have hendp : ∀ c o, (s.endSend c o).putters = [] := fun c o => (resolve_putters c o).trans hp
  cases hs with
  | refused => exact h.setCaller rfl (by simp [CallerPc.IsWaiting])
  | accepted hreg hw hin | parked hreg hw hin =>
      rcases hl rfl with hno | hno | hno
      · rw [hreg] at hno
        cases hno
      · exact absurd hno hw
      · exact absurd hno hin
  | insert hc | parkAgain hc => exact absurd (.inr (.inl hc)) (h _)
  | returns => exact h.setCaller rfl (by simp [CallerPc.IsWaiting])
  | raises | leavePutters | leavePut | leaveFuture =>
      exact h.setCaller rfl (by simp [CallerPc.IsWaiting])
  | passOn hc => exact absurd (.inr (.inl hc)) (h _)
  | startWriter =>
      exact h.congr (Channel.Silent.runWriter (s := { s with begun := true }) h hp)
  | @get i items =>
      have hw : ({ s with items } : Channel).wakeupNext = { s with items } := wakeupNext_of_nil hp
      exact h.congr (by rw [Channel.sendNext, hw])
  | @sendReturns c =>
      exact (hend c .sent).congr ((hend c .sent).runWriter (hendp c .sent))
  | @sendRaises c => exact (hend c .error).congr rfl
  | closeReturns | cancelledIdle => exact h.congr (h.failItems s.items hp)
  | cancelledUnstarted => exact h.congr rfl
  | @cancelledSending c =>
      exact (hend c .error).congr ((hend c .error).failItems _ (hendp c .error))
  | connectionClosed | closeOutboundChannel | cleanupCancelled | outboundFinished |
    stopUnregistered => exact h.congr rfl
  | cleanup => exact h.congr (h.failItems s.items hp)
  | stop =>
      have hcurrent : ({ s.cancelWriter with running := false }.failCurrent).callers =
          s.callers := by
        unfold Channel.failCurrent
        split
        · exact Channel.Silent.resolve (s := { s.cancelWriter with running := false }) h _ _
        · exact Channel.Silent.resolve (s := { s.cancelWriter with running := false }) h _ _
        · rfl
      have hputters : ({ s.cancelWriter with running := false }.failCurrent).putters = [] := by
        unfold Channel.failCurrent
        split
        · exact (resolve_putters _ _).trans hp
        · exact (resolve_putters _ _).trans hp
        · exact hp
      exact h.congr (((h.congr hcurrent).failItems _ hputters).trans hcurrent)

end Silent

end OutboundChannel
end Core
end Paqto
