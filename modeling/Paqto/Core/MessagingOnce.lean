/-
# What a node queues and passes on once

Every call puts its frame into one outbound queue once, every receipt its ACK,
and every message is passed to the handlers once, in every run of a node and
whatever the remote ends send (`once_of_reachable`).
-/

import Paqto.Core.MessagingMoves

namespace Paqto
namespace Core
namespace Messaging

open Transition Python Correlation

variable {F P : Type} [PyFloat F] {cfg : Config F P} {s t : Node F P} {c k r : ℕ}
  {session : ProtocolSession F} {receipt : Receipt F P}

/-! ## Messages for the handlers -/

/-- The receipts whose messages wait for a dispatch worker, and those of which
the handlers have been told. -/
def Node.passedOn (s : Node F P) : List ℕ := s.inboundQueue.getD [] ++ s.handled

/-- No message is passed on that was not, but for `r`, which is new to the handlers. -/
def PassesOn (s t : Node F P) : Prop :=
  t.passedOn.Subperm s.passedOn ∨
    ∃ r, ¬ Dispatched s.receipts r ∧ t.passedOn.Perm (r :: s.passedOn)

omit [PyFloat F] in
/-- Nothing is passed on. -/
theorem passesOn_of_eq (hqueue : t.inboundQueue = s.inboundQueue) (hhandled : t.handled = s.handled) :
    PassesOn s t := by
  left
  rw [Node.passedOn, Node.passedOn, hqueue, hhandled]

omit [PyFloat F] in
/-- A receipt is passed on that was not. -/
theorem passesOn_of_puts (h : Puts r s t) (hhandled : t.handled = s.handled)
    (hr : ¬ Dispatched s.receipts r) : PassesOn s t := by
  rcases h with hsame | ⟨queue, hqueue, hput⟩
  · exact passesOn_of_eq hsame hhandled
  · refine .inr ⟨r, hr, ?_⟩
    rw [Node.passedOn, Node.passedOn, hqueue, hput, hhandled, Option.getD_some, Option.getD_some,
      List.append_assoc]
    exact List.perm_middle

omit [PyFloat F] in
/-- A receipt that a reader holds was not passed on. -/
theorem not_dispatched_of_holds (h : Holds s.receipts c session r receipt) :
    ¬ Dispatched s.receipts r := by
  rintro ⟨found, hfound, hout, _⟩
  obtain rfl := Option.some.inj (h.found.symm.trans hfound)
  have hundelivered := h.undelivered
  rw [hout] at hundelivered
  cases hundelivered

/-- **What a step passes on.** -/
theorem passesOn_step {E : Evidence} (h : Inv cfg E none s) {l : Label P}
    (hs : step cfg s l = some t) : PassesOn s t := by
  cases l with
  | receive c frame =>
      simp only [step] at hs
      split at hs <;> cases hs
      rename_i session _
      rcases receive_filed cfg s c session frame with ⟨_, _, haccepts⟩ | ⟨hgoes, hqueue, _⟩
      · refine passesOn_of_puts haccepts.puts haccepts.handled ?_
        rintro ⟨found, hfound, _⟩
        rw [h.receiptsFresh _ le_rfl] at hfound
        cases hfound
      · exact passesOn_of_eq hqueue hgoes.handled
  | ackWritten c =>
      simp only [step] at hs
      split at hs
      · rename_i session r hpc
        split at hs
        · obtain ⟨receipt, hr, rfl⟩ := Option.map_eq_some_iff.1 hs
          have hfits := h.tasks c (by simp)
          rw [hpc] at hfits
          obtain ⟨_, hold, _⟩ := hfits
          exact passesOn_of_puts puts_deliver (GoesOn.deliver hr).handled (not_dispatched_of_holds hold)
        · cases hs
      · cases hs
  | enqueue c =>
      simp only [step] at hs
      split at hs
      · rename_i session r queue hpc hqueue
        split at hs
        · obtain ⟨receipt, hr, rfl⟩ := Option.map_eq_some_iff.1 hs
          have hfits := h.tasks c (by simp)
          rw [hpc] at hfits
          obtain ⟨_, hold, _⟩ := hfits
          exact passesOn_of_puts (.inr ⟨queue, hqueue, continueReading_inboundQueue⟩)
            ((GoesOn.putInbound hr queue).trans .continueReading).handled
            (not_dispatched_of_holds hold)
        · cases hs
      · cases hs
  | start =>
      simp only [step] at hs
      split at hs <;> cases hs
      rename_i hstart
      rw [Bool.and_eq_true, Option.isNone_iff_eq_none] at hstart
      left
      rw [Node.passedOn, Node.passedOn, hstart.2]
      rfl
  | discardQueue =>
      simp only [step] at hs
      split at hs <;> cases hs
      exact .inl (List.sublist_append_right _ _).subperm
  | dispatch =>
      simp only [step] at hs
      split at hs <;> cases hs
      rename_i r queue hqueue
      left
      rw [Node.passedOn, Node.passedOn, hqueue, Option.getD_some, Option.getD_some,
        ← List.append_assoc]
      exact (List.perm_append_singleton r _).subperm
  | negotiated c exchange =>
      simp only [step] at hs
      split at hs <;> cases hs
      exact passesOn_of_eq (negotiated_inboundQueue exchange) (GoesOn.negotiated exchange).handled
  | startReader c =>
      simp only [step] at hs
      split at hs
      · exact passesOn_of_eq (startReader_inboundQueue hs) (GoesOn.startReader hs).handled
      · cases hs
  | pongWritten c =>
      simp only [step] at hs
      split at hs <;> cases hs
      rename_i session _
      have hgoes : GoesOn c s (s.continueReading c session) := .continueReading
      exact passesOn_of_eq continueReading_inboundQueue hgoes.handled
  | accepted c =>
      simp only [step] at hs
      split at hs
      · split at hs <;> cases hs
        exact passesOn_of_eq rfl rfl
      · cases hs
  | queueAck c =>
      simp only [step] at hs
      split at hs
      · obtain ⟨_, _, rfl⟩ := Option.map_eq_some_iff.1 hs
        exact passesOn_of_eq rfl rfl
      · cases hs
  | stop | queuePong c | endTask c | ping c pingId | transmit c =>
      simp only [step] at hs
      split at hs <;> cases hs
      exact passesOn_of_eq rfl rfl
  | retire c | close c | dropOutbound c | startCall args =>
      cases hs
      exact passesOn_of_eq rfl rfl
  | connected k c =>
      obtain ⟨call, _, hs⟩ := bind_call hs
      split at hs <;> cases hs
      have hkeeps : KeepsReaders k call s (s.connected cfg k call c) := .connected
      exact passesOn_of_eq hkeeps.inboundQueue hkeeps.handled
  | frameWritten k =>
      obtain ⟨call, _, hs⟩ := bind_call hs
      split at hs
      · split at hs <;> cases hs
        have hkeeps : KeepsReaders k call s (s.frameWritten cfg k call) := .frameWritten
        exact passesOn_of_eq hkeeps.inboundQueue hkeeps.handled
      · cases hs
  | resumeAck k =>
      obtain ⟨call, _, hs⟩ := bind_call hs
      split at hs <;> cases hs
      · have hkeeps : KeepsReaders k { call with acked := true } s
            (s.afterAck cfg k { call with acked := true }) := .afterAck
        exact passesOn_of_eq hkeeps.inboundQueue hkeeps.handled
      · exact passesOn_of_eq rfl rfl
  | queueFrame k | resumeReply k | cancelFuture k | interrupt k e =>
      obtain ⟨call, _, hs⟩ := bind_call hs
      split at hs <;> cases hs
      all_goals exact passesOn_of_eq rfl rfl

/-- What is passed on was dispatched. -/
theorem dispatched_of_passedOn {E : Evidence} (h : Inv cfg E none s) (hr : r ∈ s.passedOn) :
    Dispatched s.receipts r := by
  rcases List.mem_append.1 hr with hqueue | hhandled
  · cases hq : s.inboundQueue with
    | none => simp [hq] at hqueue
    | some queue => exact h.inbound queue hq r (by simpa [hq] using hqueue)
  · exact h.handled r hhandled

/-- **Nothing is passed on twice.** -/
theorem nodup_passedOn_step {E : Evidence} (h : Inv cfg E none s) {l : Label P}
    (hs : step cfg s l = some t) (hnodup : s.passedOn.Nodup) : t.passedOn.Nodup := by
  rcases passesOn_step h hs with hsub | ⟨r, hr, hperm⟩
  · obtain ⟨l, hperm, hsub⟩ := hsub
    exact hperm.nodup_iff.1 (hsub.nodup hnodup)
  · exact hperm.nodup_iff.2 (List.nodup_cons.2 ⟨fun hmem => hr (dispatched_of_passedOn h hmem), hnodup⟩)

/-! ## Frames of the outbound queues -/

/-- Two frames with one origin are frames of the heartbeat. -/
def OwnOrigin (f g : OutboundFrame) : Prop := f.origin = g.origin → f.origin = .heartbeat

/-- The frames of a connection: those that were sent, and those in its queue. -/
def Node.frames (s : Node F P) (c : ℕ) : List OutboundFrame := s.sent c ++ s.outbound c

/-- Nothing of these origins is queued for the connection yet. -/
def Node.Unqueued (s : Node F P) (c : ℕ) (f : OutboundFrame) : Prop :=
  f.origin = .heartbeat ∨ ∀ g ∈ s.frames c, g.origin ≠ f.origin

/-- The frames stay, some are dropped, or one is queued. -/
def Queues (s t : Node F P) : Prop :=
  (∀ c, (t.frames c).Sublist (s.frames c)) ∨
    ∃ c f, s.Unqueued c f ∧ (∀ d, t.frames d = if d = c then s.frames c ++ [f] else s.frames d)

omit [PyFloat F] in
/-- Nothing is queued. -/
theorem queues_of_eq (houtbound : t.outbound = s.outbound) (hsent : t.sent = s.sent) :
    Queues s t := by
  left
  intro c
  rw [Node.frames, Node.frames, houtbound, hsent]

omit [PyFloat F] in
/-- A frame is queued that was not. -/
theorem queues_of_push {f : OutboundFrame} (hf : s.Unqueued c f)
    (houtbound : t.outbound = Function.update s.outbound c (s.outbound c ++ [f]))
    (hsent : t.sent = s.sent) : Queues s t := by
  refine .inr ⟨c, f, hf, fun d => ?_⟩
  rw [Node.frames, houtbound, hsent]
  split
  · rename_i hdc
    rw [hdc, Function.update_self, ← List.append_assoc, Node.frames]
  · rename_i hdc
    rw [Function.update_of_ne hdc, Node.frames]

/-- A call whose frame is not yet queued, and receipts whose ACK is not. -/
structure Once (s : Node F P) : Prop where
  queueing : ∀ k call frame, s.calls k = some call → call.pc = .queueing frame →
    call.frameQueued = false
  acknowledging : ∀ c session r frame receipt, s.tasks c = .acknowledging session r frame →
    s.receipts r = some receipt → receipt.ackQueued = false
  frames : ∀ c, (s.frames c).Pairwise OwnOrigin
  passedOn : s.passedOn.Nodup

/-- **What a step queues.** -/
theorem queues_step {E : Evidence} (h : Inv cfg E none s) (honce : Once s) {l : Label P}
    (hs : step cfg s l = some t) : Queues s t := by
  by_cases hl : l.moves = false
  · obtain ⟨_, hgoes, _⟩ := goesOn_step hs hl
    exact queues_of_eq hgoes.outbound hgoes.sent
  · cases l with
    | receive c frame =>
        simp only [step] at hs
        split at hs <;> cases hs
        rename_i session _
        rcases receive_filed cfg s c session frame with ⟨_, _, haccepts⟩ | ⟨hgoes, _⟩
        · exact queues_of_eq haccepts.outbound haccepts.sent
        · exact queues_of_eq hgoes.outbound hgoes.sent
    | queuePong c =>
        simp only [step] at hs
        split at hs <;> cases hs
        exact queues_of_push (.inl rfl) rfl rfl
    | ping c pingId =>
        simp only [step] at hs
        split at hs <;> cases hs
        exact queues_of_push (.inl rfl) rfl rfl
    | queueAck c =>
        simp only [step] at hs
        split at hs
        · rename_i session r frame hpc
          obtain ⟨receipt, hr, rfl⟩ := Option.map_eq_some_iff.1 hs
          refine queues_of_push (.inr fun g hg horigin => ?_) rfl rfl
          -- the ACK of this receipt would have been queued
          have hfits := h.frames c g (List.mem_append.1 hg).symm
          unfold FrameFits at hfits
          rw [horigin] at hfits
          obtain ⟨found, _, hfound, _, hack, _⟩ := hfits
          rw [honce.acknowledging c session r frame found hpc hfound] at hack
          cases hack
        · cases hs
    | queueFrame k =>
        obtain ⟨call, hk, hs⟩ := bind_call hs
        split at hs <;> cases hs
        rename_i frame c hpc _
        refine queues_of_push (.inr fun g hg horigin => ?_) rfl rfl
        have hfits := h.frames c g (List.mem_append.1 hg).symm
        unfold FrameFits at hfits
        rw [horigin] at hfits
        obtain ⟨found, _, hfound, _, hqueued, _⟩ := hfits
        rw [honce.queueing k found frame hfound (by
          obtain rfl := Option.some.inj (hk.symm.trans hfound)
          exact hpc)] at hqueued
        cases hqueued
    | transmit c =>
        simp only [step] at hs
        split at hs <;> cases hs
        rename_i f frames hout
        left
        intro d
        by_cases hdc : d = c
        · subst hdc
          simp [Node.frames, hout]
        · simp [Node.frames, hdc]
    | dropOutbound c =>
        cases hs
        left
        intro d
        by_cases hdc : d = c
        · subst hdc
          simp [Node.frames]
        · simp [Node.frames, hdc]
    | dispatch =>
        simp only [step] at hs
        split at hs <;> cases hs
        exact queues_of_eq rfl rfl
    | _ => exact absurd rfl hl

/-- **No frame is queued twice.** -/
theorem pairwise_frames_step {E : Evidence} (h : Inv cfg E none s) (honce : Once s) {l : Label P}
    (hs : step cfg s l = some t) (c : ℕ) : (t.frames c).Pairwise OwnOrigin := by
  rcases queues_step h honce hs with hsub | ⟨d, f, hf, hframes⟩
  · exact (honce.frames c).sublist (hsub c)
  · rw [hframes c]
    split
    · refine List.pairwise_append.2 ⟨honce.frames d, List.pairwise_singleton _ _, ?_⟩
      intro g hg f' hf'
      rw [List.mem_singleton] at hf'
      subst hf'
      intro horigin
      rcases hf with hbeat | hnone
      · exact horigin.trans hbeat
      · exact absurd horigin (hnone g hg)
    · exact honce.frames c

/-- A call that is about to queue its frame has not done so. -/
theorem queueing_unqueued {E : Evidence} (h : Inv cfg E none s) (honce : Once s) {l : Label P}
    (hs : step cfg s l = some t) {call' : Call F P} {frame : Bytes} (hk : t.calls k = some call')
    (hpc : call'.pc = .queueing frame) : call'.frameQueued = false := by
  rcases calls_step hs with hsame | ⟨args, rfl, rfl⟩ | ⟨i, call, hi, hgoes⟩
  · exact honce.queueing k call' frame (hsame ▸ hk) hpc
  · change Function.update s.calls s.nextCall _ k = some call' at hk
    rw [Function.update_apply] at hk
    split at hk
    · obtain rfl := Option.some.inj hk
      rfl
    · exact honce.queueing k call' frame hk hpc
  · by_cases hki : k = i
    · subst hki
      obtain ⟨hconnecting, hqueued⟩ := hgoes.queueing call' frame hk hpc
      exact hqueued.trans ((h.calls k call hi).early (.inl hconnecting)).1
    · exact honce.queueing k call' frame (hgoes.calls k hki ▸ hk) hpc

/-- The ACK of a receipt whose reader is about to queue it is not queued. -/
theorem acknowledging_unqueued {E E' : Evidence} (h : Inv cfg E none s) (honce : Once s)
    (h' : Inv cfg E' none t) {l : Label P} (hs : step cfg s l = some t) {frame : Bytes}
    (ht : t.tasks c = .acknowledging session r frame) (hr : t.receipts r = some receipt) :
    receipt.ackQueued = false := by
  by_contra hack
  replace hack := Bool.eq_true_of_not_eq_false hack
  have hold : ∀ old, s.receipts r = some old → old.ackQueued = true → False := by
    intro old hold hqueued
    rcases acknowledging_step hs ht with hsame | rfl
    · rw [honce.acknowledging c session r frame old hsame hold] at hqueued
      cases hqueued
    · rw [h.receiptsFresh _ le_rfl] at hold
      cases hold
  rcases step_effect hs with hreader | ⟨d, session', i, frame', old, hd, hi, rfl⟩ | ⟨_, hcall⟩ |
    ⟨args, rfl⟩
  · obtain ⟨old, hfound, hqueued⟩ := hreader.acks r receipt hr hack
    exact hold old hfound hqueued
  · -- the reader of `d` has queued the ACK of its receipt, and waits for its write
    by_cases hri : r = i
    · subst hri
      have hfits := h.tasks d (by simp)
      rw [hd] at hfits
      obtain ⟨held, hheld, _⟩ := hfits
      have hfits' := h'.tasks c (by simp)
      rw [ht] at hfits'
      obtain ⟨mine, hmine, _⟩ := hfits'
      have hconnection : c = d := by
        have hnew := hmine.found
        change Function.update s.receipts r _ r = some mine at hnew
        rw [Function.update_self] at hnew
        obtain rfl := Option.some.inj (hheld.found.symm.trans hi)
        rw [← hmine.connection, ← hheld.connection, ← Option.some.inj hnew]
      subst hconnection
      change Function.update s.tasks c _ c = _ at ht
      rw [Function.update_self] at ht
      cases ht
    · change Function.update s.receipts i _ r = some receipt at hr
      rw [Function.update_of_ne hri] at hr
      exact hold receipt hr hack
  · rw [hcall.receipts] at hr
    exact hold receipt hr hack
  · exact hold receipt hr hack

/-- **One step queues, sends and passes on nothing twice.** -/
theorem Once.step {E E' : Evidence} (honce : Once s) (h : Inv cfg E none s)
    (h' : Inv cfg E' none t) {l : Label P} (hs : step cfg s l = some t) : Once t where
  queueing _ _ _ hk hpc := queueing_unqueued h honce hs hk hpc
  acknowledging _ _ _ _ _ ht hr := acknowledging_unqueued h honce h' hs ht hr
  frames := pairwise_frames_step h honce hs
  passedOn := nodup_passedOn_step h hs honce.passedOn

/-- **Each frame once, in every run.** -/
theorem once_of_reachable (h : Reachable (system cfg) s) : Once s := by
  refine (h.invariant (I := fun s => Inv cfg .any none s ∧ Once s) ?_ ?_).2
  · rintro _ rfl
    refine ⟨inv_of_reachable (.init rfl), ?_, ?_, fun c => List.Pairwise.nil, List.nodup_nil⟩
    · intro k call frame hk
      cases hk
    · intro c session r frame receipt hc
      cases hc
  · rintro s l t ⟨hinv, honce⟩ hs
    have hinv' := inv_step hinv hs
      ⟨fun _ _ _ _ _ _ => trivial, fun _ _ _ _ _ _ _ _ _ _ _ => trivial⟩
    exact ⟨hinv', honce.step hinv hinv' hs⟩

end Messaging
end Core
end Paqto
