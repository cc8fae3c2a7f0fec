/-
# The attempts in `_in_flight`

In every run, closing calls included, an entry of `_in_flight` is an attempt for its
peer that is not done and has not been cancelled: a closing call takes the entry out
before it cancels the task (`registered_of_reachable`).
-/

import Paqto.Core.ManagerFlights

namespace Paqto
namespace Core
namespace ConnectionManager

open Transition Python

variable {E : Type}

/-- The attempts that a closing call waits for. -/
def CloserPc.tasks : CloserPc → List ℕ
  | gathering _ a _ | gatheringCancelled _ a => [a]
  | gatheringAll tasks _ _ | gatheringAllCancelled tasks => tasks
  | _ => []

namespace Manager

variable {s t u : Manager E} {transport : Str} {a k : ℕ} {p : Str}

/-- What the tables of attempts and closing calls refer to. -/
structure Registered (s : Manager E) : Prop where
  flight : ∀ p a, s.inFlight.lookup p = some a →
    (s.attempts a).peer = some p ∧ s.cancelled a = false
  /-- What a closing call waits for is out of the table for good. -/
  gathered : ∀ k, ∀ a ∈ (s.closers k).tasks,
    s.attempts a ≠ .absent ∧ ∀ p, s.inFlight.lookup p ≠ some a
  fresh : ∀ a, s.attempts a = .absent → s.cancelled a = false
  joined : ∀ k a o, s.callers k = .done (some a) o → ∃ p, s.attempts a = .done p o

/-- They are empty. -/
theorem registered_initial : (initial : Manager E).Registered where
  flight p a h := by simp [initial] at h
  gathered k a h := by cases h
  fresh _ _ := rfl
  joined k a o h := by cases h

/-- Entries of the table go, and attempts outside it are cancelled. -/
theorem Registered.shed (h : s.Registered) (hattempts : t.attempts = s.attempts)
    (hcallers : t.callers = s.callers) (hclosers : t.closers = s.closers)
    (hin : ∀ p a, t.inFlight.lookup p = some a → s.inFlight.lookup p = some a)
    (hcancelled : ∀ a, t.cancelled a = true → s.cancelled a = true ∨
      s.attempts a ≠ .absent ∧ ∀ p, t.inFlight.lookup p ≠ some a) : t.Registered where
  flight p a ha := by
    obtain ⟨hpeer, hnot⟩ := h.flight p a (hin p a ha)
    refine ⟨hattempts ▸ hpeer, Bool.eq_false_iff.2 fun hc => ?_⟩
    rcases hcancelled a hc with hold | ⟨-, hout⟩
    · rw [hnot] at hold
      cases hold
    · exact hout p ha
  gathered k a ha := by
    obtain ⟨habsent, hout⟩ := h.gathered k a (hclosers ▸ ha)
    exact ⟨hattempts ▸ habsent, fun p hp => hout p (hin p a hp)⟩
  fresh a ha := by
    rw [hattempts] at ha
    refine Bool.eq_false_iff.2 fun hc => ?_
    rcases hcancelled a hc with hold | ⟨habsent, -⟩
    · rw [h.fresh a ha] at hold
      cases hold
    · exact habsent ha
  joined k a o hk := hattempts ▸ h.joined k a o (hcallers ▸ hk)

/-- Nothing of them changes. -/
theorem Rests.registered (hr : s.Rests t) (h : s.Registered) (hclosers : t.closers = s.closers) :
    t.Registered :=
  h.shed hr.attempts hr.callers hclosers (fun _ _ hp => hr.inFlight ▸ hp)
    fun b hb => Or.inl (hr.cancelled b hb)

/-- A caller moves. -/
theorem Registered.setCaller (h : s.Registered) {pc : CallerPc E}
    (hpc : ∀ a o, pc = .done (some a) o → ∃ p, s.attempts a = .done p o) :
    (s.setCaller k pc).Registered :=
  { h with
    joined := fun i a o hi => by
      by_cases hik : i = k
      · simp only [Manager.setCaller, hik, Function.update_self] at hi
        exact hpc a o hi
      · simp only [Manager.setCaller, Function.update_of_ne hik] at hi
        exact h.joined i a o hi }

/-- A closing call moves. -/
theorem Registered.setCloser (h : s.Registered) {pc : CloserPc}
    (hpc : ∀ a ∈ pc.tasks, s.attempts a ≠ .absent ∧ ∀ p, s.inFlight.lookup p ≠ some a) :
    (s.setCloser k pc).Registered :=
  { h with
    gathered := fun i a hi => by
      by_cases hik : i = k
      · simp only [Manager.setCloser, hik, Function.update_self] at hi
        exact hpc a hi
      · simp only [Manager.setCloser, Function.update_of_ne hik] at hi
        exact h.gathered i a hi }

/-! ## Attempts -/

/-- One attempt goes on, or ends. -/
theorem AttemptStep.registered (hstep : s.AttemptStep t a p) (h : s.Registered)
    (ha : (s.attempts a).peer = some p) (hclosers : t.closers = s.closers) : t.Registered where
  flight q b hb := by
    have hold : s.inFlight.lookup q = some b ∧ ((t.attempts b).peer = some q) := by
      rcases hstep.flight with ⟨hpeer, hfl⟩ | ⟨⟨o, hdone⟩, hfl⟩
      · rw [hfl] at hb
        refine ⟨hb, ?_⟩
        by_cases hba : b = a
        · subst hba
          rw [hpeer, ← ha]
          exact (h.flight q b hb).1
        · rw [hstep.others b hba]
          exact (h.flight q b hb).1
      · have hlookup : s.inFlight.lookup q = some b := by
          rw [hfl] at hb
          split at hb
          · exact lookup_of_erase hb
          · exact hb
        have hba : b ≠ a := by
          rintro rfl
          have hqp : q = p := Option.some.inj ((h.flight q b hlookup).1.symm.trans ha)
          subst hqp
          rw [hfl, if_pos hlookup, AList.lookup_erase] at hb
          cases hb
        rw [hstep.others b hba]
        exact ⟨hlookup, (h.flight q b hlookup).1⟩
    refine ⟨hold.2, Bool.eq_false_iff.2 fun hc => ?_⟩
    have hcancelled := hstep.cancelled b hc
    rw [(h.flight q b hold.1).2] at hcancelled
    cases hcancelled
  gathered k b hb := by
    obtain ⟨habsent, hout⟩ := h.gathered k b (hclosers ▸ hb)
    refine ⟨?_, fun q hq => ?_⟩
    · by_cases hba : b = a
      · subst hba
        rcases hstep.flight with ⟨hpeer, _⟩ | ⟨⟨o, hdone⟩, _⟩
        · intro habs
          rw [habs] at hpeer
          cases hpeer
        · rw [hdone]
          nofun
      · rwa [hstep.others b hba]
    · rcases hstep.flight with ⟨_, hfl⟩ | ⟨_, hfl⟩ <;> rw [hfl] at hq
      · exact hout q hq
      · split at hq
        · exact hout q (lookup_of_erase hq)
        · exact hout q hq
  fresh b hb := by
    have hba : b ≠ a := by
      rintro rfl
      rcases hstep.flight with ⟨hpeer, _⟩ | ⟨⟨o, hdone⟩, _⟩
      · rw [hb] at hpeer
        cases hpeer
      · rw [hb] at hdone
        cases hdone
    rw [hstep.others b hba] at hb
    refine Bool.eq_false_iff.2 fun hc => ?_
    have hcancelled := hstep.cancelled b hc
    rw [h.fresh b hb] at hcancelled
    cases hcancelled
  joined k b o hk := by
    rw [hstep.callers] at hk
    obtain ⟨q, hq⟩ := h.joined k b o hk
    have hba : b ≠ a := by
      rintro rfl
      rw [hq] at ha
      cases ha
    exact ⟨q, (hstep.others b hba).trans hq⟩

/-- A task that was cancelled before it was run is in no table. -/
theorem Registered.unstarted (h : s.Registered) {o : Except (Failure E) ℕ}
    (ha : (s.attempts a).peer = some p) (hout : ∀ q, s.inFlight.lookup q ≠ some a) :
    (s.setAttempt a (.done p o)).Registered where
  flight q b hb := by
    have hba : b ≠ a := by
      rintro rfl
      exact hout q hb
    simp only [setAttempt, Function.update_of_ne hba]
    exact h.flight q b hb
  gathered k b hb := by
    obtain ⟨habsent, hnot⟩ := h.gathered k b hb
    refine ⟨?_, hnot⟩
    by_cases hba : b = a
    · subst hba
      simp [setAttempt]
    · simpa [setAttempt, Function.update_of_ne hba] using habsent
  fresh b hb := by
    have hba : b ≠ a := by
      rintro rfl
      simp [setAttempt] at hb
    exact h.fresh b (by simpa [setAttempt, Function.update_of_ne hba] using hb)
  joined k b o' hk := by
    obtain ⟨q, hq⟩ := h.joined k b o' hk
    have hba : b ≠ a := by
      rintro rfl
      rw [hq] at ha
      cases ha
    exact ⟨q, by simpa [setAttempt, Function.update_of_ne hba] using hq⟩

/-- An attempt goes on. -/
theorem Registered.resumeAttempt (h : s.Registered) {answer : Answer E}
    (ht : s.resumeAttempt a answer = some t) : t.Registered := by
  have hclosers := (held_resumeAttempt ht).closers
  obtain ⟨p, ha, hstep | ⟨hcancelled, -, rfl⟩⟩ := attemptStep_resumeAttempt ht
  · exact hstep.registered h ha hclosers
  · have htold := (rests_told s a).registered h rfl
    refine htold.unstarted ha fun q hq => ?_
    rw [(h.flight q a hq).2] at hcancelled
    cases hcancelled

/-- A new attempt. -/
theorem Registered.created (h : s.Registered) {prepare : Bool} {states : PeerDict ConnectionState}
    (ha : s.attempts a = .absent) :
    ({ s with inFlight := s.inFlight.insert p a, states := states }.setAttempt a
      (.created p prepare)).Registered where
  flight q b hb := by
    by_cases hqp : q = p
    · subst hqp
      simp only [setAttempt, AList.lookup_insert] at hb
      cases hb
      exact ⟨by simp [setAttempt, AttemptPc.peer], h.fresh _ ha⟩
    · simp only [setAttempt, AList.lookup_insert_ne hqp] at hb
      have hba : b ≠ a := by
        rintro rfl
        have hpeer := (h.flight q b hb).1
        rw [ha] at hpeer
        cases hpeer
      simpa [setAttempt, Function.update_of_ne hba] using h.flight q b hb
  gathered k b hb := by
    obtain ⟨habsent, hnot⟩ := h.gathered k b hb
    have hba : b ≠ a := by
      rintro rfl
      exact habsent ha
    refine ⟨by simpa [setAttempt, Function.update_of_ne hba] using habsent, fun q hq => ?_⟩
    by_cases hqp : q = p
    · subst hqp
      simp only [setAttempt, AList.lookup_insert] at hq
      exact hba (Option.some.inj hq).symm
    · simp only [setAttempt, AList.lookup_insert_ne hqp] at hq
      exact hnot q hq
  fresh b hb := by
    have hba : b ≠ a := by
      rintro rfl
      simp [setAttempt] at hb
    exact h.fresh b (by simpa [setAttempt, Function.update_of_ne hba] using hb)
  joined k b o hk := by
    obtain ⟨q, hq⟩ := h.joined k b o hk
    have hba : b ≠ a := by
      rintro rfl
      rw [ha] at hq
      cases hq
    exact ⟨q, by simpa [setAttempt, Function.update_of_ne hba] using hq⟩

/-- A caller starts an attempt, or joins one. -/
theorem Registered.connect (h : s.Registered) {endpoint : Endpoint} {prepare reconnecting : Bool}
    (ht : s.connect transport k a p endpoint prepare reconnecting = some t) : t.Registered := by
  unfold Manager.connect at ht
  split at ht
  · cases ht
    exact h.setCaller nofun
  · split at ht
    · cases ht
      exact h.setCaller nofun
    · have hget := (s.rests_getById p).registered h (s.held_getById p).closers
      split at ht <;> rename_i heq <;> rw [heq] at hget
      · cases ht
        exact hget.setCaller nofun
      · split at ht
        · cases ht
          exact hget.setCaller nofun
        · split at ht
          · rename_i ha
            cases ht
            exact (hget.created ha).setCaller nofun
          · cases ht

/-! ## Closing calls -/

/-- Gathered attempts are cancelled. -/
theorem Registered.cancelTasks (h : s.Registered) {tasks : List ℕ}
    (htasks : ∀ a ∈ tasks, s.attempts a ≠ .absent ∧ ∀ p, s.inFlight.lookup p ≠ some a) :
    (s.cancelTasks tasks).Registered := by
  refine h.shed rfl rfl rfl (fun _ _ => id) fun b hb => ?_
  simp only [Manager.cancelTasks, Bool.or_eq_true, Bool.and_eq_true, decide_eq_true_eq] at hb
  rcases hb with hb | ⟨hb, -⟩
  · exact Or.inl hb
  · exact Or.inr (htasks b hb)

/-- The end of `close_peer`. -/
theorem Registered.endClosePeer (h : s.Registered) : (s.endClosePeer k p).Registered := by
  unfold Manager.endClosePeer
  refine Registered.setCloser ?_ (by nofun)
  split
  · exact h.shed rfl rfl rfl (fun _ _ => id) fun _ => Or.inl
  · exact h.shed rfl rfl rfl (fun _ _ => id) fun _ => Or.inl

/-- `close_peer` has gathered the attempt. -/
theorem Registered.closeGathered (h : s.Registered) {connection : Option ℕ} :
    (s.closeGathered k p connection).Registered := by
  unfold Manager.closeGathered
  split
  · refine Registered.setCloser ?_ (by nofun)
    exact h.shed rfl rfl rfl (fun _ _ => id) fun _ => Or.inl
  · exact h.endClosePeer

/-- `close_peer` begins. -/
theorem Registered.closePeer (h : s.Registered) : (s.closePeer k p).Registered := by
  have hpop : ({ s with
      closingPeers := Function.update s.closingPeers p true
      inFlight := s.inFlight.erase p
      connections := s.connections.erase p }.setState p .closing : Manager E).Registered :=
    h.shed rfl rfl rfl (fun _ _ => lookup_of_erase) fun _ => Or.inl
  unfold Manager.closePeer
  dsimp only
  split
  · rename_i b hb
    have hpeer := (h.flight p b hb).1
    have hout : s.attempts b ≠ .absent ∧ ∀ q, (s.inFlight.erase p).lookup q ≠ some b := by
      refine ⟨fun habs => ?_, fun q hq => ?_⟩
      · rw [habs] at hpeer
        cases hpeer
      · have hqp : q = p :=
          Option.some.inj ((h.flight q b (lookup_of_erase hq)).1.symm.trans hpeer)
        rw [hqp, AList.lookup_erase] at hq
        cases hq
    have honly : ∀ c ∈ [b], s.attempts c ≠ .absent ∧
        ∀ q, (s.inFlight.erase p).lookup q ≠ some c := by
      intro c hc
      rw [List.mem_singleton] at hc
      exact hc ▸ hout
    exact (hpop.cancelTasks honly).setCloser honly
  · exact hpop.closeGathered

/-- The end of `close_all`. -/
theorem Registered.endCloseAll (h : s.Registered) {peers : List Str} :
    (s.endCloseAll k peers).Registered := by
  unfold Manager.endCloseAll
  refine Registered.setCloser ?_ (by nofun)
  exact h.shed rfl rfl rfl (fun _ _ => id) fun _ => Or.inl

/-- `close_all` has gathered the attempts. -/
theorem Registered.closeAllGathered (h : s.Registered) {connections : List ℕ} {peers : List Str} :
    (s.closeAllGathered k connections peers).Registered := by
  unfold Manager.closeAllGathered
  split
  · exact h.endCloseAll
  · refine Registered.setCloser ?_ (by nofun)
    exact h.shed rfl rfl rfl (fun _ _ => id) fun _ => Or.inl

/-- A value is that of a key. -/
theorem mem_values {α : Type} {d : PeerDict α} {x : α} (h : x ∈ values d) :
    ∃ p, d.lookup p = some x := by
  obtain ⟨⟨p, y⟩, hy, rfl⟩ := List.mem_map.1 h
  exact ⟨p, AList.mem_lookup_iff.2 hy⟩

/-- `close_all` begins. -/
theorem Registered.closeAll (h : s.Registered) : (s.closeAll k).Registered := by
  have hclear : ∀ states : PeerDict ConnectionState, ({ s with
      closing := true, states := states, inFlight := ∅, connections := ∅ } : Manager E).Registered :=
    fun _ => h.shed rfl rfl rfl (fun _ _ hp => by cases hp) fun _ => Or.inl
  have htasks : ∀ b ∈ values s.inFlight, s.attempts b ≠ .absent ∧
      ∀ q : Str, (∅ : PeerDict ℕ).lookup q ≠ some b := by
    intro b hb
    obtain ⟨q, hq⟩ := mem_values hb
    have hpeer := (h.flight q b hq).1
    refine ⟨fun habs => ?_, nofun⟩
    rw [habs] at hpeer
    cases hpeer
  unfold Manager.closeAll
  dsimp only
  split
  · exact ((hclear _).cancelTasks htasks).closeAllGathered
  · exact ((hclear _).cancelTasks htasks).setCloser htasks

/-- A closing call goes on. -/
theorem Registered.resumeCloser (h : s.Registered) (ht : s.resumeCloser k = some t) :
    t.Registered := by
  unfold Manager.resumeCloser at ht
  split at ht
  · split at ht <;> cases ht
    exact h.closeGathered
  · split at ht <;> cases ht
    exact h.endClosePeer
  · cases ht
    exact h.endClosePeer
  · split at ht <;> cases ht
    exact h.closeAllGathered
  · split at ht <;> cases ht
    exact h.setCloser (by nofun)
  · cases ht
    exact h.endCloseAll
  · cases ht

/-- A closing call is cancelled. -/
theorem Registered.cancelCloser (h : s.Registered) (ht : s.cancelCloser k = some t) :
    t.Registered := by
  have hgathered := h.gathered k
  unfold Manager.cancelCloser at ht
  split at ht <;> rename_i hk <;> cases ht
  all_goals rw [hk] at hgathered
  · exact (h.cancelTasks hgathered).setCloser hgathered
  · exact h.endClosePeer
  · exact (h.cancelTasks hgathered).setCloser hgathered
  · exact h.setCloser (by nofun)

end Manager

variable {transport : Str} {s t : Manager E}

/-- **Every step keeps the registry.** -/
theorem registered_step {l : Label E} (h : s.Registered) (ht : step transport s l = some t) :
    t.Registered := by
  cases l with
  | connect k a p endpoint prepare reconnecting =>
      simp only [step] at ht
      split at ht
      · exact h.connect ht
      · cases ht
  | resumeCaller k =>
      simp only [step] at ht
      split at ht
      · split at ht <;> cases ht
        rename_i p o ha
        refine h.setCaller fun b o' hb => ?_
        cases hb
        exact ⟨p, ha⟩
      · cases ht
  | cancelCaller k =>
      simp only [step] at ht
      split at ht <;> cases ht
      exact h.setCaller fun _ _ hb => by cases hb
  | attempt a answer => exact h.resumeAttempt ht
  | adopt p c => cases ht; exact (s.rests_adopt p c).registered h (s.held_adopt p c).closers
  | connectionLost p c =>
      cases ht
      exact (s.rests_connectionLost p c).registered h (s.held_connectionLost p c).closers
  | markReconnecting p =>
      cases ht
      exact (s.rests_markReconnecting p).registered h (s.held_markReconnecting p).closers
  | markDisconnected p =>
      cases ht
      exact (s.rests_markDisconnected p).registered h (s.held_markDisconnected p).closers
  | getById p => cases ht; exact (s.rests_getById p).registered h (s.held_getById p).closers
  | closes c => cases ht; exact h.shed rfl rfl rfl (fun _ _ => id) fun _ => Or.inl
  | closePeer k p =>
      simp only [step] at ht
      split at ht <;> cases ht
      exact h.closePeer
  | closeAll k =>
      simp only [step] at ht
      split at ht <;> cases ht
      exact h.closeAll
  | resumeCloser k => exact h.resumeCloser ht
  | cancelCloser k => exact h.cancelCloser ht

/-- **The table of attempts**, in every run. -/
theorem registered_of_reachable (h : Reachable (system E transport) s) : s.Registered := by
  refine h.invariant (I := Manager.Registered) ?_ fun _ _ _ hi hs => registered_step hi hs
  rintro _ rfl
  exact Manager.registered_initial

end ConnectionManager
end Core
end Paqto
