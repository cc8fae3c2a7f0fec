/-
# Single-flight connects

While no closing call is made, the unfinished attempts of a manager are the
ones in `_in_flight`, so there is at most one for a peer; its callers share
what it returns or raises, and none of them can cancel it.
-/

import Paqto.Core.ManagerFence

namespace Paqto
namespace Core
namespace ConnectionManager

open Transition Python

variable {E : Type}

/-- What an attempt has failed with, or will. -/
def AttemptPc.failure : AttemptPc E → Option (Failure E)
  | cleaning _ _ e | done _ (.error e) => some e
  | _ => none

namespace Manager

variable {s t u : Manager E} {transport : Str} {a : ℕ} {p : Str}

/-! ## What a step of an attempt may do -/

/-- `get_by_id` leaves the attempts alone. -/
@[simp] theorem getById_attempts (s : Manager E) (p : Str) :
    (s.getById p).1.attempts = s.attempts := by
  unfold getById
  split
  · split <;> rfl
  · rfl

/-- It leaves the callers alone. -/
@[simp] theorem getById_callers (s : Manager E) (p : Str) :
    (s.getById p).1.callers = s.callers := by
  unfold getById
  split
  · split <;> rfl
  · rfl

/-- It cancels nothing. -/
@[simp] theorem getById_cancelled (s : Manager E) (p : Str) :
    (s.getById p).1.cancelled = s.cancelled := by
  unfold getById
  split
  · split <;> rfl
  · rfl

/-- It leaves the flights alone. -/
@[simp] theorem getById_inFlight (s : Manager E) (p : Str) :
    (s.getById p).1.inFlight = s.inFlight := by
  unfold getById
  split
  · split <;> rfl
  · rfl

/-- The attempts and their callers stay where they are. -/
structure Rests (s t : Manager E) : Prop where
  attempts : t.attempts = s.attempts
  callers : t.callers = s.callers
  cancelled : ∀ b, t.cancelled b = true → s.cancelled b = true
  inFlight : t.inFlight = s.inFlight

/-- Nothing happens. -/
theorem Rests.refl (s : Manager E) : s.Rests s := ⟨rfl, rfl, fun _ => id, rfl⟩

/-- One after the other. -/
theorem Rests.trans (h : s.Rests t) (h' : t.Rests u) : s.Rests u where
  attempts := h'.attempts.trans h.attempts
  callers := h'.callers.trans h.callers
  cancelled b hb := h.cancelled b (h'.cancelled b hb)
  inFlight := h'.inFlight.trans h.inFlight

/-- `get_by_id` leaves the attempts and their callers alone. -/
theorem rests_getById (s : Manager E) (p : Str) : s.Rests (s.getById p).1 :=
  ⟨s.getById_attempts p, s.getById_callers p, fun b hb => by simpa using hb, s.getById_inFlight p⟩

/-- So does `connection_lost`. -/
theorem rests_connectionLost (s : Manager E) (p : Str) (c : ℕ) :
    s.Rests (s.connectionLost p c) := by
  unfold connectionLost
  split
  · dsimp only
    split <;> exact ⟨rfl, rfl, fun _ => id, rfl⟩
  · exact .refl s

/-- So does `adopt`. -/
theorem rests_adopt (s : Manager E) (p : Str) (c : ℕ) : s.Rests (s.adopt p c) := by
  unfold adopt
  split
  · exact .refl s
  · exact ⟨rfl, rfl, fun _ => id, rfl⟩

/-- So does `mark_reconnecting`. -/
theorem rests_markReconnecting (s : Manager E) (p : Str) : s.Rests (s.markReconnecting p) := by
  have hget := s.rests_getById p
  unfold markReconnecting
  split
  · exact .refl s
  · split <;> rename_i heq <;> rw [heq] at hget
    · exact hget.trans ⟨rfl, rfl, fun _ => id, rfl⟩
    · exact hget

/-- So does `mark_disconnected`. -/
theorem rests_markDisconnected (s : Manager E) (p : Str) : s.Rests (s.markDisconnected p) := by
  have hget := s.rests_getById p
  unfold markDisconnected
  split <;> rename_i heq <;> rw [heq] at hget
  · split
    · exact hget
    · exact hget.trans ⟨rfl, rfl, fun _ => id, rfl⟩
  · exact hget

/-- The attempt is told of its cancellation. -/
theorem rests_told (s : Manager E) (a : ℕ) :
    s.Rests { s with cancelled := Function.update s.cancelled a false } :=
  ⟨rfl, rfl, fun b hb => by
    by_cases hba : b = a
    · simp [hba] at hb
    · simpa [Function.update_of_ne hba] using hb, rfl⟩

/-- A step of the attempt `a` for `p`: it goes on, or it ends and leaves
`_in_flight`. -/
structure AttemptStep (s t : Manager E) (a : ℕ) (p : Str) : Prop where
  others : ∀ b, b ≠ a → t.attempts b = s.attempts b
  callers : t.callers = s.callers
  cancelled : ∀ b, t.cancelled b = true → s.cancelled b = true
  flight : (t.attempts a).peer = some p ∧ t.inFlight = s.inFlight ∨
    (∃ o, t.attempts a = .done p o) ∧
      t.inFlight = if s.inFlight.lookup p = some a then s.inFlight.erase p else s.inFlight
  failure : (t.attempts a).failure = some .cancelled →
    s.cancelled a = true ∨ (s.attempts a).failure = some .cancelled

/-- An attempt moves. -/
theorem attemptStep_setAttempt (h : s.Rests u) {pc : AttemptPc E} (hp : pc.peer = some p)
    (hfailure : pc.failure = some .cancelled →
      s.cancelled a = true ∨ (s.attempts a).failure = some .cancelled) :
    s.AttemptStep (u.setAttempt a pc) a p where
  others b hb := by simp [setAttempt, hb, h.attempts]
  callers := h.callers
  cancelled := h.cancelled
  flight := .inl ⟨by simpa [setAttempt] using hp, h.inFlight⟩
  failure hf := hfailure (by simpa [setAttempt] using hf)

/-- An attempt ends. -/
theorem attemptStep_endAttempt (h : s.Rests u) {outcome : Except (Failure E) ℕ}
    (hfailure : outcome = .error .cancelled →
      s.cancelled a = true ∨ (s.attempts a).failure = some .cancelled) :
    s.AttemptStep (u.endAttempt a p outcome) a p := by
  have hend : ∀ v : Manager E, v.attempts = s.attempts → v.callers = s.callers →
      (∀ b, v.cancelled b = true → s.cancelled b = true) →
      v.inFlight = (if s.inFlight.lookup p = some a then s.inFlight.erase p else s.inFlight) →
        s.AttemptStep (v.setAttempt a (.done p outcome)) a p := by
    intro v hattempts hcallers hcancelled hinFlight
    refine ⟨fun b hb => by simp [setAttempt, hb, hattempts], hcallers, hcancelled,
      .inr ⟨⟨outcome, by simp [setAttempt]⟩, hinFlight⟩, fun hf => ?_⟩
    simp only [setAttempt, Function.update_self] at hf
    cases outcome with
    | ok c => cases hf
    | error e => exact hfailure (congrArg _ (Option.some.inj hf))
  have hpop : ({ u with
      inFlight := if u.inFlight.lookup p = some a then u.inFlight.erase p
        else u.inFlight } : Manager E).inFlight =
      if s.inFlight.lookup p = some a then s.inFlight.erase p else s.inFlight := by
    simp only [h.inFlight]
  unfold endAttempt
  dsimp only at hpop ⊢
  split
  · exact hend _ h.attempts h.callers h.cancelled hpop
  · have hget := rests_getById { u with
      inFlight := if u.inFlight.lookup p = some a then u.inFlight.erase p else u.inFlight } p
    split <;> rename_i heq <;> rw [heq] at hget
    · exact hend _ (hget.attempts.trans h.attempts) (hget.callers.trans h.callers)
        (fun b hb => h.cancelled b (hget.cancelled b hb)) (hget.inFlight.trans hpop)
    · exact hend _ (hget.attempts.trans h.attempts) (hget.callers.trans h.callers)
        (fun b hb => h.cancelled b (hget.cancelled b hb)) (hget.inFlight.trans hpop)

/-- An attempt fails. -/
theorem attemptStep_failAttempt (h : s.Rests u) {opened : ℕ} {e : Failure E}
    (hfailure : e = .cancelled →
      s.cancelled a = true ∨ (s.attempts a).failure = some .cancelled) :
    s.AttemptStep (u.failAttempt a p opened e) a p := by
  unfold failAttempt
  split
  · exact attemptStep_endAttempt h fun he => hfailure (by cases he; rfl)
  · refine attemptStep_setAttempt ?_ ?_ ?_
    · exact h.trans ⟨rfl, rfl, fun _ => id, rfl⟩
    · rfl
    · exact fun he => hfailure (Option.some.inj he)

/-- An attempt installs its connection. -/
theorem attemptStep_install (h : s.Rests u) {opened selected : ℕ} :
    s.AttemptStep (u.install a p opened selected) a p := by
  unfold install
  split
  · exact attemptStep_failAttempt h (by rintro ⟨⟩)
  · dsimp only
    split
    · refine attemptStep_setAttempt ?_ ?_ ?_
      · exact h.trans ⟨rfl, rfl, fun _ => id, rfl⟩
      · rfl
      · rintro ⟨⟩
    · refine attemptStep_endAttempt ?_ ?_
      · exact h.trans ⟨rfl, rfl, fun _ => id, rfl⟩
      · rintro ⟨⟩

/-- An attempt is past its preparation. -/
theorem attemptStep_select (h : s.Rests u) {opened : ℕ} {replacement : Option ℕ} :
    s.AttemptStep (u.select a p opened replacement) a p := by
  unfold select
  dsimp only
  split
  · refine attemptStep_setAttempt ?_ ?_ ?_
    · exact h.trans ⟨rfl, rfl, fun _ => id, rfl⟩
    · rfl
    · rintro ⟨⟩
  · exact attemptStep_install h

/-- An attempt goes on or ends, or was cancelled before it has begun. -/
theorem attemptStep_resumeAttempt {answer : Answer E} (ht : s.resumeAttempt a answer = some t) :
    ∃ p, (s.attempts a).peer = some p ∧
      (s.AttemptStep t a p ∨ s.cancelled a = true ∧ (∃ prepare, s.attempts a = .created p prepare) ∧
        t = { s with cancelled := Function.update s.cancelled a false }.setAttempt a
          (.done p (.error .cancelled))) := by
  have htold := s.rests_told a
  simp only [resumeAttempt] at ht
  split at ht
  · split at ht <;> cases ht
    rename_i p _ ha _
    exact ⟨p, by rw [ha]; rfl, .inl (attemptStep_setAttempt (.refl s) rfl (by rintro ⟨⟩))⟩
  · rename_i p _ ha
    split at ht <;> cases ht
    exact ⟨p, by rw [ha]; rfl, .inr ⟨‹_›, ⟨_, ha⟩, rfl⟩⟩
  · rename_i p _ c ha
    split at ht <;> cases ht
    · exact ⟨p, by rw [ha]; rfl, .inl (attemptStep_setAttempt htold rfl (by rintro ⟨⟩))⟩
    · exact ⟨p, by rw [ha]; rfl, .inl (attemptStep_select htold)⟩
  · rename_i p _ ha
    cases ht
    exact ⟨p, by rw [ha]; rfl, .inl (attemptStep_endAttempt htold (by rintro ⟨⟩))⟩
  · rename_i p _ _ ha
    cases ht
    exact ⟨p, by rw [ha]; rfl, .inl (attemptStep_select htold)⟩
  · rename_i p _ _ ha
    cases ht
    exact ⟨p, by rw [ha]; rfl, .inl (attemptStep_install htold)⟩
  · rename_i p _ _ ha
    cases ht
    exact ⟨p, by rw [ha]; rfl, .inl (attemptStep_endAttempt htold (by rintro ⟨⟩))⟩
  · rename_i p _ e ha
    cases ht
    exact ⟨p, by rw [ha]; rfl, .inl (attemptStep_endAttempt htold fun he => .inr (by
      rw [ha]
      cases he
      rfl))⟩
  · rename_i pc e hpc
    split at ht
    · cases ht
    · rename_i hcancel
      have hfailure : e = .cancelled → s.cancelled a = true := by
        rintro rfl
        simpa [Failure.isCancelled] using hcancel
      split at ht <;> cases ht <;> rename_i ha <;> refine ⟨_, by rw [ha]; rfl, .inl ?_⟩
      · exact attemptStep_endAttempt htold fun he => .inl (hfailure (by cases he; rfl))
      · exact attemptStep_failAttempt htold fun he => .inl (hfailure he)
      · exact attemptStep_failAttempt htold fun he => .inl (hfailure he)
      · exact attemptStep_failAttempt htold fun he => .inl (hfailure he)
      · exact attemptStep_endAttempt htold fun he => .inr (by
          rw [ha]
          cases he
          rfl)
  · cases ht

/-! ## What runs without closing calls keep -/

/-- The attempts and the callers of a manager that is not being closed. -/
structure Flown (s : Manager E) : Prop where
  isOpen : ∀ p, s.isClosing p = false
  cancelled : ∀ a, s.cancelled a = false
  failure : ∀ a, (s.attempts a).failure ≠ some .cancelled
  inFlight : ∀ p a, (s.attempts a).peer = some p ↔ s.inFlight.lookup p = some a
  waiting : ∀ k a, s.callers k = .waiting a → (s.attempts a).peer ≠ none ∨
    ∃ p o, s.attempts a = .done p o
  joined : ∀ k a o, s.callers k = .done (some a) o → ∃ p, s.attempts a = .done p o

/-- There is no attempt yet. -/
theorem flown_initial : (initial : Manager E).Flown where
  isOpen _ := rfl
  cancelled _ := rfl
  failure _ := by rintro ⟨⟩
  inFlight p a := by simp [initial, AttemptPc.peer]
  waiting _ _ h := by cases h
  joined _ _ _ h := by cases h

/-- Where the flights are left alone they stay as they were. -/
theorem Rests.flown (h : s.Rests t) (hs : s.Flown) (hopen : ∀ p, t.isClosing p = s.isClosing p) :
    t.Flown where
  isOpen p := (hopen p).trans (hs.isOpen p)
  cancelled a := by
    cases hc : t.cancelled a with
    | false => rfl
    | true =>
        have hold := h.cancelled a hc
        rw [hs.cancelled a] at hold
        cases hold
  failure a := h.attempts ▸ hs.failure a
  inFlight p a := by
    rw [h.attempts, h.inFlight]
    exact hs.inFlight p a
  waiting k a hk := h.attempts ▸ hs.waiting k a (h.callers ▸ hk)
  joined k a o hk := h.attempts ▸ hs.joined k a o (h.callers ▸ hk)

/-- A step of an attempt. -/
theorem AttemptStep.flown (h : s.AttemptStep t a p) (hs : s.Flown)
    (ha : (s.attempts a).peer = some p) (hopen : ∀ p, t.isClosing p = s.isClosing p) :
    t.Flown where
  isOpen q := (hopen q).trans (hs.isOpen q)
  cancelled b := by
    cases hc : t.cancelled b with
    | false => rfl
    | true =>
        have hold := h.cancelled b hc
        rw [hs.cancelled b] at hold
        cases hold
  failure b hf := by
    by_cases hba : b = a
    · subst hba
      rcases h.failure hf with hc | hold
      · rw [hs.cancelled b] at hc
        cases hc
      · exact hs.failure b hold
    · rw [h.others b hba] at hf
      exact hs.failure b hf
  inFlight q b := by
    have hin := (hs.inFlight p a).1 ha
    by_cases hba : b = a
    · subst hba
      rcases h.flight with ⟨hpeer, hfl⟩ | ⟨⟨o, hdone⟩, hfl⟩
      · rw [hpeer, hfl, ← ha]
        exact hs.inFlight q b
      · rw [hdone, hfl, if_pos hin]
        simp only [AttemptPc.peer, reduceCtorEq, false_iff]
        intro hq
        by_cases hqp : q = p
        · subst hqp
          rw [AList.lookup_erase] at hq
          cases hq
        · rw [AList.lookup_erase_ne hqp] at hq
          exact hqp (Option.some.inj (((hs.inFlight q b).2 hq).symm.trans ha))
    · rw [h.others b hba, hs.inFlight q b]
      rcases h.flight with ⟨_, hfl⟩ | ⟨_, hfl⟩
      · rw [hfl]
      · rw [hfl, if_pos hin]
        by_cases hqp : q = p
        · subst hqp
          rw [AList.lookup_erase, hin]
          simp [Ne.symm hba]
        · rw [AList.lookup_erase_ne hqp]
  waiting k b hk := by
    rw [h.callers] at hk
    by_cases hba : b = a
    · subst hba
      rcases h.flight with ⟨hpeer, _⟩ | ⟨⟨o, hdone⟩, _⟩
      · exact .inl (by rw [hpeer]; rintro ⟨⟩)
      · exact .inr ⟨p, o, hdone⟩
    · rw [h.others b hba]
      exact hs.waiting k b hk
  joined k b o hk := by
    rw [h.callers] at hk
    obtain ⟨q, hq⟩ := hs.joined k b o hk
    have hba : b ≠ a := by
      rintro rfl
      rw [hq] at ha
      cases ha
    exact ⟨q, (h.others b hba).trans hq⟩

/-- An attempt goes on. -/
theorem Flown.resumeAttempt (hs : s.Flown) {answer : Answer E}
    (ht : s.resumeAttempt a answer = some t) : t.Flown := by
  obtain ⟨p, ha, hstep | ⟨hcancelled, _⟩⟩ := attemptStep_resumeAttempt ht
  · exact hstep.flown hs ha (held_resumeAttempt ht).isClosing
  · rw [hs.cancelled a] at hcancelled
    cases hcancelled

/-- A caller moves to the attempt it has joined. -/
theorem Flown.setCaller (hs : s.Flown) {k : ℕ} {pc : CallerPc E}
    (hwaiting : ∀ a, pc = .waiting a → (s.attempts a).peer ≠ none ∨ ∃ p o, s.attempts a = .done p o)
    (hjoined : ∀ a o, pc = .done (some a) o → ∃ p, s.attempts a = .done p o) :
    (s.setCaller k pc).Flown :=
  { hs with
    waiting := fun i a hi => by
      by_cases hik : i = k
      · simp only [Manager.setCaller, hik, Function.update_self] at hi
        exact hwaiting a hi
      · simp only [Manager.setCaller, Function.update_of_ne hik] at hi
        exact hs.waiting i a hi
    joined := fun i a o hi => by
      by_cases hik : i = k
      · simp only [Manager.setCaller, hik, Function.update_self] at hi
        exact hjoined a o hi
      · simp only [Manager.setCaller, Function.update_of_ne hik] at hi
        exact hs.joined i a o hi }

/-- A new attempt. -/
theorem Flown.created (hs : s.Flown) {prepare : Bool} {states : PeerDict ConnectionState}
    (ha : s.attempts a = .absent) (hin : s.inFlight.lookup p = none) :
    ({ s with inFlight := s.inFlight.insert p a, states := states }.setAttempt a
      (.created p prepare)).Flown where
  isOpen := hs.isOpen
  cancelled := hs.cancelled
  failure b hf := by
    by_cases hba : b = a
    · simp [setAttempt, hba, AttemptPc.failure] at hf
    · simp only [setAttempt, Function.update_of_ne hba] at hf
      exact hs.failure b hf
  inFlight q b := by
    by_cases hba : b = a
    · subst hba
      have hnone : s.inFlight.lookup q ≠ some b := fun hq => by
        have hpeer := (hs.inFlight q b).2 hq
        rw [ha] at hpeer
        cases hpeer
      by_cases hqp : q = p
      · subst hqp
        simp [setAttempt, AttemptPc.peer]
      · simp [setAttempt, AttemptPc.peer, AList.lookup_insert_ne hqp, Ne.symm hqp, hnone]
    · simp only [setAttempt, Function.update_of_ne hba]
      by_cases hqp : q = p
      · subst hqp
        rw [hs.inFlight q b, hin, AList.lookup_insert]
        simp [Ne.symm hba]
      · rw [AList.lookup_insert_ne hqp]
        exact hs.inFlight q b
  waiting k b hk := by
    by_cases hba : b = a
    · exact .inl (by simp [setAttempt, hba, AttemptPc.peer])
    · simp only [setAttempt, Function.update_of_ne hba]
      exact hs.waiting k b hk
  joined k b o hk := by
    obtain ⟨q, hq⟩ := hs.joined k b o hk
    have hba : b ≠ a := by
      rintro rfl
      rw [ha] at hq
      cases hq
    exact ⟨q, by simpa [setAttempt, hba] using hq⟩

/-- A caller starts an attempt, or joins one. -/
theorem Flown.connect (hs : s.Flown) {k : ℕ} {endpoint : Endpoint} {prepare reconnecting : Bool}
    (ht : s.connect transport k a p endpoint prepare reconnecting = some t) : t.Flown := by
  unfold Manager.connect at ht
  split at ht
  · cases ht
    exact hs.setCaller (fun _ h => by cases h) fun _ _ h => by cases h
  · split at ht
    · cases ht
      exact hs.setCaller (fun _ h => by cases h) fun _ _ h => by cases h
    · have hget := (s.rests_getById p).flown hs (s.held_getById p).isClosing
      split at ht <;> rename_i heq <;> rw [heq] at hget
      · cases ht
        exact hget.setCaller (fun _ h => by cases h) fun _ _ h => by cases h
      · split at ht
        · rename_i b hb
          cases ht
          refine hget.setCaller (fun c h => ?_) fun _ _ h => by cases h
          cases h
          exact .inl (by rw [(hget.inFlight p b).2 hb]; rintro ⟨⟩)
        · rename_i hin
          split at ht
          · rename_i ha
            cases ht
            refine (hget.created ha hin).setCaller (fun c h => ?_) fun _ _ h => by cases h
            cases h
            exact .inl (by simp [setAttempt, AttemptPc.peer])
          · cases ht

end Manager

variable {transport : Str} {s t : Manager E}

/-- **Every step but those of closing calls** keeps the flights. -/
theorem flown_step {l : Label E} (hl : l.isCloser = false) (hs : s.Flown)
    (ht : step transport s l = some t) : t.Flown := by
  have hopen := (held_step hl ht).isClosing
  cases l with
  | connect k a p endpoint prepare reconnecting =>
      simp only [step] at ht
      split at ht
      · exact hs.connect ht
      · cases ht
  | resumeCaller k =>
      simp only [step] at ht
      split at ht
      · split at ht <;> cases ht
        rename_i p o ha
        refine hs.setCaller (fun _ h => by cases h) fun b o' h => ?_
        cases h
        exact ⟨p, ha⟩
      · cases ht
  | cancelCaller k =>
      simp only [step] at ht
      split at ht <;> cases ht
      exact hs.setCaller (fun _ h => by cases h) fun _ _ h => by cases h
  | attempt a answer => exact hs.resumeAttempt ht
  | adopt p c =>
      cases ht
      exact (s.rests_adopt p c).flown hs hopen
  | connectionLost p c =>
      cases ht
      exact (s.rests_connectionLost p c).flown hs hopen
  | markReconnecting p =>
      cases ht
      exact (s.rests_markReconnecting p).flown hs hopen
  | markDisconnected p =>
      cases ht
      exact (s.rests_markDisconnected p).flown hs hopen
  | getById p =>
      cases ht
      exact (s.rests_getById p).flown hs hopen
  | closes c =>
      cases ht
      exact Manager.Rests.flown (s := s) ⟨rfl, rfl, fun _ => id, rfl⟩ hs hopen
  | closePeer k p | closeAll k | resumeCloser k | cancelCloser k => cases hl

/-- **It holds in every run without closing calls.** -/
theorem flown_of_reachableWhen
    (h : ReachableWhen (system E transport) (fun _ l => l.isCloser = false) s) : s.Flown :=
  h.invariant (I := Manager.Flown) (by rintro _ rfl; exact Manager.flown_initial)
    fun _ _ _ hI hG hs => flown_step hG hI hs

/-! ## Single flight -/

/-- **Single flight** in the state `s`. -/
structure SingleFlight (transport : Str) (s : Manager E) : Prop where
  /-- The unfinished attempts are the registered ones, one for a peer. -/
  registered : ∀ p a, (s.attempts a).peer = some p ↔ s.inFlight.lookup p = some a
  single : ∀ p a b, (s.attempts a).peer = some p → (s.attempts b).peer = some p → a = b
  /-- To cancel a caller moves nothing else, and no attempt is ever cancelled. -/
  shielded : ∀ k t, step transport s (.cancelCaller k) = some t →
    ∃ a, s.callers k = .waiting a ∧ t = s.setCaller k (.cancelled a)
  uncancelled : ∀ a, s.cancelled a = false ∧ ∀ p, s.attempts a ≠ .done p (.error .cancelled)
  /-- What a caller got is what its attempt returned or raised. -/
  outcome : ∀ k a o, s.callers k = .done (some a) o → ∃ p, s.attempts a = .done p o
  /-- A caller waits for an unfinished attempt, or gets what it returned or
  raised with its next step. -/
  resumed : ∀ k a, s.callers k = .waiting a → (∃ p, (s.attempts a).peer = some p) ∨
    ∃ p o, s.attempts a = .done p o ∧
      step transport s (.resumeCaller k) = some (s.setCaller k (.done (some a) o))
  /-- A call with an open canonical connection returns it and starts nothing. -/
  reused : ∀ k a p endpoint prepare reconnecting c, s.callers k = .absent →
    (Manager.validateTarget transport p endpoint : Option (Failure E)) = none → s.connections.lookup p = some c →
      s.isClosed c = false →
        step transport s (.connect k a p endpoint prepare reconnecting) =
          some (s.setCaller k (.done none (.ok c)))
  /-- A call without one joins the attempt of the peer, or starts it. -/
  joins : ∀ k a p endpoint prepare reconnecting, s.callers k = .absent → s.attempts a = .absent →
    (Manager.validateTarget transport p endpoint : Option (Failure E)) = none →
      (∀ c, s.connections.lookup p = some c → s.isClosed c = true) →
        ∃ t b, step transport s (.connect k a p endpoint prepare reconnecting) = some t ∧
          t.callers k = .waiting b ∧ t.inFlight.lookup p = some b ∧
            (s.inFlight.lookup p = some b ∨ s.inFlight.lookup p = none ∧ b = a)
  /-- Whether an attempt can go on with an answer is a matter of its own place,
  whatever the other attempts do. -/
  independent : ∀ a answer (u : Manager E), u.attempts a = s.attempts a →
    u.cancelled a = s.cancelled a →
      (step transport u (.attempt a answer)).isSome = (step transport s (.attempt a answer)).isSome
  lively : ∀ a p, (s.attempts a).peer = some p →
    ∃ answer, (step transport s (.attempt a answer)).isSome = true

/-- The answers that an attempt at `pc` can be resumed with. -/
def AttemptPc.takes (pc : AttemptPc E) (cancelled : Bool) (answer : Answer E) : Bool :=
  match pc, answer with
  | created _ _, .start => !cancelled
  | created _ _, .raises e => e.isCancelled && cancelled
  | connecting _ _, .opened _ | connecting _ _, .timeout | preparing _ _, .prepared _
  | closingOpened _ _ _, .closed | closingPrevious _ _ _, .closed | cleaning _ _ _, .closed =>
      true
  | connecting _ _, .raises e | preparing _ _, .raises e | closingOpened _ _ _, .raises e
  | closingPrevious _ _ _, .raises e | cleaning _ _ _, .raises e => !e.isCancelled || cancelled
  | _, _ => false

/-- An attempt goes on when it takes the answer. -/
theorem isSome_resumeAttempt (s : Manager E) (a : ℕ) (answer : Answer E) :
    (s.resumeAttempt a answer).isSome = (s.attempts a).takes (s.cancelled a) answer := by
  unfold Manager.resumeAttempt
  cases s.attempts a <;> cases answer <;> cases s.cancelled a <;> try rfl
  case connecting.opened.false prepare _ => cases prepare <;> rfl
  case connecting.opened.true prepare _ => cases prepare <;> rfl
  all_goals
    rename_i e
    cases e <;> rfl

/-- An unfinished attempt takes an answer to what it awaits. -/
theorem exists_takes {pc : AttemptPc E} {p : Str} (hp : pc.peer = some p) (cancelled : Bool) :
    ∃ answer, pc.takes cancelled answer = true := by
  cases pc with
  | absent | done _ _ => cases hp
  | created q prepare =>
      cases cancelled with
      | false => exact ⟨.start, rfl⟩
      | true => exact ⟨.raises .cancelled, rfl⟩
  | connecting q prepare => exact ⟨.timeout, rfl⟩
  | preparing q c => exact ⟨.prepared none, rfl⟩
  | closingOpened q c d => exact ⟨.closed, rfl⟩
  | closingPrevious q c d => exact ⟨.closed, rfl⟩
  | cleaning q c e => exact ⟨.closed, rfl⟩

/-- After a failure a caller starts an attempt of its own. -/
theorem connect_of_closed (hs : s.Flown) {k a : ℕ} {p : Str} {endpoint : Endpoint}
    {prepare reconnecting : Bool} (ha : s.attempts a = .absent)
    (hvalid : (Manager.validateTarget transport p endpoint : Option (Failure E)) = none)
    (hclosed : ∀ c, s.connections.lookup p = some c → s.isClosed c = true) :
    ∃ t b, s.connect transport k a p endpoint prepare reconnecting = some t ∧
      t.callers k = .waiting b ∧ t.inFlight.lookup p = some b ∧
        (s.inFlight.lookup p = some b ∨ s.inFlight.lookup p = none ∧ b = a) := by
  have hget : (s.getById p).2 = none := by
    unfold Manager.getById
    split
    · rename_i c hc
      rw [if_pos (hclosed c hc)]
    · rfl
  have hrests := s.rests_getById p
  unfold Manager.connect
  simp only [hvalid, hs.isOpen p, Bool.false_eq_true, if_false]
  split <;> rename_i heq <;> rw [heq] at hget hrests
  · cases hget
  · split
    · rename_i b hb
      rw [hrests.inFlight] at hb
      refine ⟨_, b, rfl, by simp [Manager.setCaller], ?_, .inl hb⟩
      exact hrests.inFlight ▸ hb
    · rename_i hin
      have habs := (congrFun hrests.attempts a).trans ha
      dsimp only at habs
      simp only [habs]
      refine ⟨_, a, rfl, by simp [Manager.setCaller], ?_, .inr ⟨hrests.inFlight ▸ hin, rfl⟩⟩
      simp [Manager.setCaller, Manager.setAttempt, Manager.setState]

/-- **Connects are single-flight** in every run without closing calls. -/
theorem single_flight {transport : Str} {s : Manager E}
    (h : ReachableWhen (system E transport) (fun _ l => l.isCloser = false) s) :
    SingleFlight transport s := by
  have hs := flown_of_reachableWhen h
  refine ⟨hs.inFlight, fun p a b ha hb => ?_, fun k t ht => ?_, fun a => ⟨hs.cancelled a, ?_⟩,
    hs.joined, fun k a hk => ?_, fun k a p endpoint prepare reconnecting c hk hvalid hc hopen => ?_,
    fun k a p endpoint prepare reconnecting hk ha hvalid hclosed => ?_,
    fun a answer u ha hc => ?_, fun a p ha => ?_⟩
  · have hin := (hs.inFlight p a).1 ha
    rw [(hs.inFlight p b).1 hb] at hin
    exact (Option.some.inj hin).symm
  · simp only [step] at ht
    split at ht <;> cases ht
    exact ⟨_, ‹_›, rfl⟩
  · intro p hdone
    exact hs.failure a (by rw [hdone]; rfl)
  · rcases hs.waiting k a hk with hp | ⟨p, o, ha⟩
    · exact .inl (Option.ne_none_iff_exists'.1 hp)
    · refine .inr ⟨p, o, ha, ?_⟩
      simp only [step, hk, ha]
  · simp only [step, hk, Manager.connect, hvalid, hs.isOpen p, Bool.false_eq_true, if_false,
      Manager.getById, hc, hopen]
  · simp only [step, hk]
    exact connect_of_closed hs ha hvalid hclosed
  · simp only [step]
    rw [isSome_resumeAttempt, isSome_resumeAttempt, ha, hc]
  · obtain ⟨answer, hanswer⟩ := exists_takes ha (s.cancelled a)
    exact ⟨answer, (isSome_resumeAttempt s a answer).trans hanswer⟩

/-- Two callers of one attempt, of which one is cancelled, and an inbound
connection that is adopted while it is being prepared. -/
theorem single_flight_sample : ∃ s : Manager Unit,
    exec (step (ofChars "lan".toList)) initial
      [.connect 0 0 [98] ⟨ofChars "lan".toList, [49]⟩ true false, .attempt 0 .start,
        .connect 1 1 [98] ⟨ofChars "lan".toList, [49]⟩ true false, .cancelCaller 0,
        .attempt 0 (.opened 5), .adopt [98] 6, .attempt 0 (.prepared none),
        .attempt 0 .closed, .resumeCaller 1] = some s ∧
      SingleFlight (ofChars "lan".toList) s :=
  ⟨_, rfl, single_flight (reachableWhen_of_exec (S := system Unit (ofChars "lan".toList)) rfl
    [.connect 0 0 [98] ⟨ofChars "lan".toList, [49]⟩ true false, .attempt 0 .start,
      .connect 1 1 [98] ⟨ofChars "lan".toList, [49]⟩ true false, .cancelCaller 0,
      .attempt 0 (.opened 5), .adopt [98] 6, .attempt 0 (.prepared none),
      .attempt 0 .closed, .resumeCaller 1] (by simp [Label.isCloser]) rfl)⟩

end ConnectionManager
end Core
end Paqto
