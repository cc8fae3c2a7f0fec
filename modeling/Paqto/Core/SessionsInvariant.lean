/-
# What every run keeps of the sessions

In every reachable state the tables fit the tasks (`sound_of_reachable`): the
attempts in flight are the ones that `_in_flight` has, a READY session is one
whose negotiation is over, and a connection is published at most once.
-/

import Paqto.Core.SessionsMoves

namespace Paqto
namespace Core
namespace Sessions

open Transition Python

variable {F : Type}

namespace Node

variable {s t : Node F}

/-! ## What an attempt keeps -/

section attemptMove

variable {a : ℕ} {p : Str}

/-- A connection that is past its set-up stays so. -/
theorem AttemptMove.past_of_past (h : s.AttemptMove t a p) {c : ℕ} (hc : s.Past c) : t.Past c := by
  by_cases hca : c = a
  · subst hca
    rcases h.past with hp | ⟨hp, _⟩
    · exact .inl hp
    · rw [Past, hp] at hc
      rw [Past, h.readers]
      exact .inr (hc.resolve_left (by simp [AttemptPc.isPast]))
  · rwa [Past, h.others c hca, h.readers]

/-- An attempt selects only what is past its set-up. -/
theorem AttemptMove.past_of_selected (h : s.AttemptMove t a p) {c : ℕ}
    (hc : (t.attempts a).selected = some c) : t.Past c := by
  rcases h.selected c hc with rfl | hpast
  · refine .inl (h.past.resolve_right fun hp => ?_)
    rw [hp.2] at hc
    cases hc
  · exact h.past_of_past hpast

/-- A step of an attempt keeps what is sound. -/
theorem AttemptMove.sound (h : s.AttemptMove t a p) (hs : s.Sound none)
    (ha : (s.attempts a).peer = some p) : t.Sound none where
  tables := h.tables hs.tables
  past c r hr := by
    rcases h.ready c r hr with hr | ⟨rfl, _, hp⟩
    · exact .inr (h.past_of_past (hs.past_of_ready hr))
    · exact .inr (.inl hp)
  ended c hc := by
    rw [h.readers] at hc
    refine Option.eq_none_iff_forall_ne_some.2 fun r hr => ?_
    rcases h.ready c r hr with hr | ⟨rfl, hneg, _⟩
    · rw [hs.ended c hc] at hr
      cases hr
    · rw [hs.outgoing c p (.inr hneg)] at hc
      cases hc
  outgoing b q hb := by
    rw [h.readers]
    by_cases hba : b = a
    · subst hba
      rcases h.past with hp | ⟨hp, _⟩
      · rcases hb with hb | hb <;> rw [hb] at hp <;> cases hp
      · exact hs.outgoing b p (.inl hp)
    · rw [h.others b hba] at hb
      exact hs.outgoing b q hb
  incoming c hc := by
    rw [h.readers] at hc
    have habs := hs.incoming c hc
    have hca : c ≠ a := by
      rintro rfl
      rw [habs] at ha
      cases ha
    rw [h.others c hca, habs]
  manager q c hc := by
    rcases h.manager q c hc with hc | ⟨_, hc, _⟩
    · exact h.past_of_past (hs.manager q c hc)
    · exact h.past_of_selected hc
  selected b c hc := by
    by_cases hba : b = a
    · subst hba
      exact h.past_of_selected hc
    · rw [h.others b hba] at hc
      exact h.past_of_past (hs.selected b c hc)
  retiring b q r hr := by
    by_cases hba : b = a
    · subst hba
      obtain ⟨hp, hready⟩ := h.retiring q r hr
      exact ⟨h.past_of_past hp, hready⟩
    · rw [h.others b hba] at hr
      obtain ⟨hp, hready⟩ := hs.retiring b q r hr
      refine ⟨h.past_of_past hp, Option.eq_none_iff_forall_ne_some.2 fun x hx => ?_⟩
      rcases h.ready _ x hx with hx | ⟨hc, hneg, _⟩
      · rw [hready] at hx
        cases hx
      · rw [hc] at hp
        exact hs.not_past_of_negotiating hneg hp
  failing b q hb := by
    by_cases hba : b = a
    · subst hba
      exact h.failing q hb
    · rw [h.others b hba] at hb
      exact h.closed b (hs.failing b q hb)
  gathering k q b c hk := h.past_of_past (hs.gathering k q b c (h.callers ▸ hk))
  fresh k hk := h.callers ▸ hs.fresh k (h.nextCaller ▸ hk)

/-- It keeps one attempt in flight for each peer. -/
theorem AttemptMove.flights (h : s.AttemptMove t a p) (hs : s.Flights)
    (ha : (s.attempts a).peer = some p) : t.Flights where
  inFlight q b := by
    rw [h.cancelled]
    by_cases hba : b = a
    · subst hba
      rcases h.flight with ⟨hpeer, hin⟩ | ⟨hpeer, hin⟩
      · rw [hin, hpeer, ← ha]
        exact hs.inFlight q b
      · rw [hin, hpeer]
        have hnone : ∀ q, s.inFlight q = some b → q = p := fun q hq =>
          Option.some.inj (((hs.inFlight q b).1 hq).1.symm.trans ha)
        simp only [reduceCtorEq, false_and, iff_false]
        split
        · by_cases hq : q = p
          · simp [hq]
          · rw [Function.update_of_ne hq]
            exact fun hb => hq (hnone q hb)
        · rename_i hne
          exact fun hb => hne (hnone q hb ▸ hb)
    · rw [h.others b hba, ← hs.inFlight q b]
      rcases h.flight with ⟨_, hin⟩ | ⟨_, hin⟩
      · rw [hin]
      · rw [hin]
        split
        · rename_i hin'
          by_cases hq : q = p
          · subst hq
            simp [hin', Ne.symm hba]
          · rw [Function.update_of_ne hq]
        · rfl
  cancelled b hb := by
    rw [h.cancelled]
    by_cases hba : b = a
    · subst hba
      rcases h.past with hp | ⟨_, hp⟩
      · rw [hb] at hp
        cases hp
      · rw [hb] at hp
        cases hp
    · exact hs.cancelled b (h.others b hba ▸ hb)
  returned b c hb := by
    rw [h.cancelled]
    by_cases hba : b = a
    · subst hba
      exact h.returned c hb
    · exact hs.returned b c (h.others b hba ▸ hb)
  closing q hq := by
    have hnone := hs.closing q (h.closingPeers ▸ hq)
    rcases h.flight with ⟨_, hin⟩ | ⟨_, hin⟩
    · rw [hin, hnone]
    · rw [hin]
      split
      · by_cases hqp : q = p
        · simp [hqp]
        · rwa [Function.update_of_ne hqp]
      · exact hnone

end attemptMove

/-! ## What the task of a connection keeps -/

section readerMove

variable {c : ℕ}

/-- A step of a reader takes nothing back. -/
theorem ReaderMove.past_of_past (h : s.ReaderMove t c) {d : ℕ} (hd : s.Past d) : t.Past d := by
  by_cases hdc : d = c
  · subst hdc
    rcases h.past with hp | ⟨hr, ha, _⟩
    · exact .inr hp
    · rw [Past, hr, ha] at hd
      simp [AttemptPc.isPast, ReaderPc.isPast] at hd
  · rwa [Past, h.others d hdc, h.attempts]

/-- A step of a reader keeps what is sound. -/
theorem ReaderMove.sound (h : s.ReaderMove t c) (hs : s.Sound none) : t.Sound none where
  tables := h.tables hs.tables
  past d r hr := by
    rcases h.ready d r hr with hr | ⟨rfl, hneg, hp⟩
    · exact .inr (h.past_of_past (hs.past_of_ready hr))
    · refine .inr (.inr (h.past.resolve_right fun ha => ?_))
      rw [ha.1] at hneg
      cases hneg
  ended d hd := by
    by_cases hdc : d = c
    · subst hdc
      exact h.ended hd
    · rw [h.others d hdc] at hd
      refine Option.eq_none_iff_forall_ne_some.2 fun r hr => ?_
      have := (h.ready d r hr).resolve_right fun hq => hdc hq.1
      rw [hs.ended d hd] at this
      cases this
  outgoing a p ha := by
    rw [h.attempts] at ha
    have habs := hs.outgoing a p ha
    have hac : a ≠ c := by
      rintro rfl
      have := h.present.resolve_left (not_not.2 habs)
      rcases ha with ha | ha <;> rw [this] at ha <;> cases ha
    rw [h.others a hac, habs]
  incoming d hd := by
    rw [h.attempts]
    by_cases hdc : d = c
    · subst hdc
      exact (h.incoming hd).elim (hs.incoming d) id
    · rw [h.others d hdc] at hd
      exact hs.incoming d hd
  manager q d hd := by
    rcases h.manager q d hd with hd | ⟨rfl, hp, _⟩
    · exact h.past_of_past (hs.manager q d hd)
    · exact .inr hp
  selected b d hd := h.past_of_past (hs.selected b d (h.attempts ▸ hd))
  retiring b q r hr := by
    obtain ⟨hp, hready⟩ := hs.retiring b q r (h.attempts ▸ hr)
    refine ⟨h.past_of_past hp, Option.eq_none_iff_forall_ne_some.2 fun x hx => ?_⟩
    rcases h.ready _ x hx with hx | ⟨hd, hneg, _⟩
    · rw [hready] at hx
      cases hx
    · rw [hd, Past, hneg, hs.incoming c (hneg ▸ rfl)] at hp
      simp [AttemptPc.isPast, ReaderPc.isPast] at hp
  failing b q hb := h.closed b (hs.failing b q (h.attempts ▸ hb))
  gathering k q b d hk := h.past_of_past (hs.gathering k q b d (h.callers ▸ hk))
  fresh k hk := h.callers ▸ hs.fresh k (h.nextCaller ▸ hk)

/-- The peer of an attempt that has not been cancelled is not being closed. -/
theorem Flights.closingPeers_eq_false (h : s.Flights) {a : ℕ} {p : Str}
    (hp : (s.attempts a).peer = some p) (hcancelled : s.cancelled a = false) :
    s.closingPeers p = false := by
  cases hq : s.closingPeers p with
  | false => rfl
  | true =>
      have hnone := h.closing p hq
      rw [(h.inFlight p a).2 ⟨hp, hcancelled⟩] at hnone
      cases hnone

/-- The attempts in flight depend on four components only. -/
theorem Flights.congr (h : s.Flights) (hattempts : t.attempts = s.attempts)
    (hinFlight : t.inFlight = s.inFlight) (hcancelled : t.cancelled = s.cancelled)
    (hclosing : t.closingPeers = s.closingPeers) : t.Flights where
  inFlight p a := by
    rw [hattempts, hinFlight, hcancelled]
    exact h.inFlight p a
  cancelled a ha := by
    rw [hcancelled]
    exact h.cancelled a (hattempts ▸ ha)
  returned a c ha := by
    rw [hcancelled]
    exact h.returned a c (hattempts ▸ ha)
  closing p hp := by
    rw [hinFlight]
    exact h.closing p (hclosing ▸ hp)

/-- It starts and ends no attempt. -/
theorem ReaderMove.flights (h : s.ReaderMove t c) (hs : s.Flights) : t.Flights :=
  hs.congr h.attempts h.inFlight h.cancelled h.closingPeers

end readerMove

/-- A step of a closing call keeps what is sound. -/
theorem Settles.sound (h : s.Settles t) (hs : s.Sound none) : t.Sound none where
  tables := h.tables hs.tables
  past c r hr := .inr (h.past.2 (hs.past_of_ready (h.ready c r hr)))
  ended c hc := h.ready_eq_none (hs.ended c (h.readers ▸ hc))
  outgoing a p ha := h.readers ▸ hs.outgoing a p (h.attempts ▸ ha)
  incoming c hc := h.attempts ▸ hs.incoming c (h.readers ▸ hc)
  manager p c hc := h.past.2 (hs.manager p c (h.manager p c hc))
  selected a c hc := h.past.2 (hs.selected a c (h.attempts ▸ hc))
  retiring a p r hr := by
    obtain ⟨hp, hready⟩ := hs.retiring a p r (h.attempts ▸ hr)
    exact ⟨h.past.2 hp, h.ready_eq_none hready⟩
  failing a p ha := h.closed a (hs.failing a p (h.attempts ▸ ha))
  gathering k p a c hk := h.past.2 (hs.gathering k p a c (h.callers ▸ hk))
  fresh k hk := h.callers ▸ hs.fresh k (h.nextCaller ▸ hk)

/-- A step that leaves the manager alone. -/
theorem Quiet.flights (h : s.Quiet t) (hs : s.Flights) : t.Flights :=
  hs.congr h.attempts h.inFlight h.cancelled h.closingPeers

/-! ## Callers -/

section callers

/-- A caller moves; what a closing call of it has gathered is past its set-up. -/
theorem Sound.setCaller (h : s.Sound none) {k : ℕ} {pc : CallerPc} (hk : k < s.nextCaller)
    (hpc : ∀ p a c, pc = .closingPeer (.gathering p a (some c)) → s.Past c) :
    (s.setCaller k pc).Sound none :=
  { h with
    gathering := fun l p a c hl => by
      by_cases hlk : l = k
      · subst hlk
        rw [setCaller_self] at hl
        exact hpc p a c hl
      · rw [setCaller_of_ne hlk] at hl
        exact h.gathering l p a c hl
    fresh := fun l hl => by
      have hlk : l ≠ k := fun he => by
        subst he
        exact absurd hk (Nat.not_lt.2 hl)
      rw [setCaller_of_ne hlk]
      exact h.fresh l hl }

/-- A reader is started for a session. -/
theorem Sound.ensureReader (h : s.Sound none) {c : ℕ} {session : ProtocolSession F}
    (hc : s.tables.sessionFor c = some session) : (s.ensureReader c session).Sound none := by
  obtain ⟨r, hr, _⟩ := Option.map_eq_some_iff.1 hc
  have hset : s.readers c = .absent → (s.setReader c (.reading session)).Sound none := by
    intro habs
    have hattempt : (s.attempts c).isPast = true :=
      (h.past_of_ready hr).resolve_right (by rw [habs]; simp [ReaderPc.isPast])
    have hpast : ∀ d, s.Past d → (s.setReader c (.reading session)).Past d := by
      intro d hd
      by_cases hdc : d = c
      · subst hdc
        exact .inl hattempt
      · rwa [Past, setReader_of_ne hdc]
    refine { h with
      past := fun d x hx => .inr (hpast d (h.past_of_ready hx))
      ended := fun d hd => ?_
      outgoing := fun a p ha => ?_
      incoming := fun d hd => ?_
      manager := fun p d hd => hpast d (h.manager p d hd)
      selected := fun a d hd => hpast d (h.selected a d hd)
      retiring := fun a p x hx => ?_
      gathering := fun k p a d hd => hpast d (h.gathering k p a d hd) }
    · by_cases hdc : d = c
      · subst hdc
        rw [setReader_self] at hd
        cases hd
      · rw [setReader_of_ne hdc] at hd
        exact h.ended d hd
    · have hac : a ≠ c := by
        rintro rfl
        rcases ha with ha | ha <;> rw [show s.attempts a = _ from ha] at hattempt <;> cases hattempt
      rw [setReader_of_ne hac]
      exact h.outgoing a p ha
    · by_cases hdc : d = c
      · subst hdc
        rw [setReader_self] at hd
        cases hd
      · rw [setReader_of_ne hdc] at hd
        exact h.incoming d hd
    · obtain ⟨hp, hready⟩ := h.retiring a p x hx
      exact ⟨hpast _ hp, hready⟩
  unfold Node.ensureReader
  split
  · exact hset ‹_›
  · rename_i hend
    rw [h.ended c (hend ▸ rfl)] at hr
    cases hr
  · exact h

/-- A closing call puts its mark up and cancels the attempt. -/
theorem settles_fence (s : Node F) (p : Str) {cancelled : ℕ → Bool}
    (hcancels : ∀ a, s.cancelled a = true → cancelled a = true) :
    s.Settles { s with
      closingPeers := Function.update s.closingPeers p true
      inFlight := Function.update s.inFlight p none
      manager := Function.update s.manager p none
      cancelled := cancelled } :=
  { Settles.refl s with
    manager := fun q c hc => by
      by_cases hq : q = p
      · simp [hq] at hc
      · simpa [hq] using hc
    cancels := hcancels }

/-- The close of a connection is quiet for the manager. -/
theorem quiet_closeFor (s : Node F) (setup : Bool) (p : Str) (c : ℕ) :
    s.Quiet (s.closeFor setup p c) := by
  unfold closeFor
  split
  · exact s.quiet_closeInSetup p c
  · exact s.quiet_closeConnection c

/-- A closing call takes its mark down. -/
theorem settles_endClosePeer (s : Node F) (p : Str) : s.Settles (s.endClosePeer p) :=
  { Settles.refl s with }

/-- It ends no attempt. -/
theorem Flights.endClosePeer (h : s.Flights) (p : Str) : (s.endClosePeer p).Flights :=
  { h with
    closing := fun q hq => by
      simp only [Node.endClosePeer] at hq
      by_cases hqp : q = p
      · simp [hqp] at hq
      · exact h.closing q (by rwa [Function.update_of_ne hqp] at hq) }

/-- A closing call goes on after its attempt has ended. -/
theorem settles_closeGathered (s : Node F) (setup : Bool) (p : Str) (connection : Option ℕ) :
    s.Settles (s.closeGathered setup p connection).1 := by
  unfold closeGathered
  split
  · exact (s.quiet_closeFor setup p _).toSettles
  · exact s.settles_endClosePeer p

/-- A closing call begins. -/
theorem settles_closePeer (s : Node F) (setup : Bool) (p : Str) :
    s.Settles (s.closePeer setup p).1 := by
  unfold closePeer
  dsimp only
  split
  · rename_i a ha
    refine s.settles_fence p fun b hb => ?_
    by_cases hba : b = a <;> simp [hba, hb]
  · exact (s.settles_fence p fun _ => id).trans (settles_closeGathered _ setup p _)

/-- A closing call goes on. -/
theorem settles_resumeClosePeer {setup : Bool} {closer : CloserPc} {x : Node F × Option CloserPc}
    (h : s.resumeClosePeer setup closer = some x) : s.Settles x.1 := by
  unfold resumeClosePeer at h
  split at h
  · split at h <;> cases h
    exact s.settles_closeGathered setup _ _
  · split at h <;> cases h
    exact s.settles_endClosePeer _
  · cases h
    exact s.settles_endClosePeer _

/-- The connection that a closer will close is one the manager had. -/
theorem gathering_of_closePeer {setup : Bool} {p q : Str} {a c : ℕ}
    (h : (s.closePeer setup p).2 = some (.gathering q a (some c))) :
    q = p ∧ s.inFlight p = some a ∧ s.manager p = some c := by
  unfold closePeer at h
  dsimp only at h
  split at h
  · rename_i b hb
    simp only [Option.some.injEq, CloserPc.gathering.injEq] at h
    obtain ⟨rfl, rfl, hc⟩ := h
    exact ⟨rfl, hb, hc⟩
  · unfold closeGathered at h
    split at h <;> cases h

/-- After its first await a closing call only closes the connection. -/
theorem gathering_of_resumeClosePeer {setup : Bool} {closer pc : CloserPc} {t : Node F}
    (h : s.resumeClosePeer setup closer = some (t, some pc)) : ∃ p, pc = .closing p := by
  unfold resumeClosePeer at h
  split at h
  · split at h
    · unfold closeGathered at h
      split at h <;> cases h
      exact ⟨_, rfl⟩
    · cases h
  · split at h <;> cases h
  · cases h

/-- A closing call that goes on starts no attempt. -/
theorem Flights.resumeClosePeer (h : s.Flights) {setup : Bool} {closer : CloserPc}
    {x : Node F × Option CloserPc} (hx : s.resumeClosePeer setup closer = some x) :
    x.1.Flights := by
  unfold Node.resumeClosePeer at hx
  split at hx
  · split at hx <;> cases hx
    unfold closeGathered
    split
    · exact (s.quiet_closeFor setup _ _).flights h
    · exact h.endClosePeer _
  · split at hx <;> cases hx
    exact h.endClosePeer _
  · cases hx
    exact h.endClosePeer _

/-- Nor does one that begins. -/
theorem Flights.closePeer (h : s.Flights) (setup : Bool) (p : Str) :
    (s.closePeer setup p).1.Flights := by
  have hclear : ∀ q a, Function.update s.inFlight p none q = some a ↔
      q ≠ p ∧ s.inFlight q = some a := by
    intro q a
    by_cases hq : q = p <;> simp [hq]
  have hclosing : ∀ q, Function.update s.closingPeers p true q = true →
      Function.update s.inFlight p none q = none := by
    intro q hq
    by_cases hqp : q = p
    · simp [hqp]
    · rw [Function.update_of_ne hqp] at hq ⊢
      exact h.closing q hq
  unfold Node.closePeer
  dsimp only
  split
  · rename_i a ha
    have hflight := (h.inFlight p a).1 ha
    have hother : ∀ b pc, pc.peer = none → s.attempts b = pc → s.cancelled b = false →
        Function.update s.cancelled a true b = false := by
      intro b pc hpc hb hcancel
      have hba : b ≠ a := by
        rintro rfl
        rw [hb, hpc] at hflight
        cases hflight.1
      rwa [Function.update_of_ne hba]
    refine ⟨fun q b => ?_, fun b hb => hother b _ rfl hb (h.cancelled b hb),
      fun b c hb => hother b _ rfl hb (h.returned b c hb), hclosing⟩
    · rw [hclear, h.inFlight q b]
      by_cases hba : b = a
      · subst hba
        simp only [Function.update_self, Bool.true_eq_false, and_false, iff_false]
        rintro ⟨hq, hpeer, _⟩
        exact hq (Option.some.inj (hpeer.symm.trans hflight.1))
      · simp only [Function.update_of_ne hba, ne_eq, and_iff_right_iff_imp]
        rintro ⟨hpeer, hcancel⟩ rfl
        have := (h.inFlight q b).2 ⟨hpeer, hcancel⟩
        rw [ha] at this
        exact hba (Option.some.inj this).symm
  · rename_i hnone
    have hfence : ({ s with
        closingPeers := Function.update s.closingPeers p true
        inFlight := Function.update s.inFlight p none
        manager := Function.update s.manager p none } : Node F).Flights := by
      refine ⟨fun q b => ?_, h.cancelled, h.returned, hclosing⟩
      rw [hclear, h.inFlight q b]
      simp only [ne_eq, and_iff_right_iff_imp]
      rintro hb rfl
      rw [(h.inFlight q b).2 hb] at hnone
      cases hnone
    unfold closeGathered
    split
    · exact (quiet_closeFor _ setup p _).flights hfence
    · exact hfence.endClosePeer p

/-- A new attempt. -/
def startAttempt (s : Node F) (p : Str) (a : ℕ) : Node F :=
  { s with inFlight := Function.update s.inFlight p (some a) }.setAttempt a (.connecting p)

/-- An attempt is started that was never there. -/
theorem Sound.startAttempt (h : s.Sound none) {p : Str} {a : ℕ} (ha : s.attempts a = .absent)
    (hr : s.readers a = .absent) : (s.startAttempt p a).Sound none := by
  have hpast : ∀ c, s.Past c → (s.startAttempt p a).Past c := by
    intro c hc
    by_cases hca : c = a
    · subst hca
      rw [Past, ha, hr] at hc
      simp [AttemptPc.isPast, ReaderPc.isPast] at hc
    · rwa [Past, Node.startAttempt, setAttempt_of_ne hca]
  have hold : ∀ {b pc}, pc.isPast = true → (s.startAttempt p a).attempts b = pc →
      s.attempts b = pc := by
    intro b pc hpc hb
    by_cases hba : b = a
    · subst hba
      rw [Node.startAttempt, setAttempt_self] at hb
      rw [← hb] at hpc
      cases hpc
    · rwa [Node.startAttempt, setAttempt_of_ne hba] at hb
  refine { h with
    past := fun c r hc => .inr (hpast c (h.past_of_ready hc))
    outgoing := fun b q hb => ?_
    incoming := fun c hc => ?_
    manager := fun q c hc => hpast c (h.manager q c hc)
    selected := fun b c hb => ?_
    retiring := fun b q r hb => ?_
    failing := fun b q hb => h.failing b q (hold rfl hb)
    gathering := fun k q b c hk => hpast c (h.gathering k q b c hk) }
  · by_cases hba : b = a
    · exact hba ▸ hr
    · rw [Node.startAttempt, setAttempt_of_ne hba] at hb
      exact h.outgoing b q hb
  · have hca : c ≠ a := by
      rintro rfl
      rw [show (s.startAttempt p c).readers c = .absent from hr] at hc
      cases hc
    rw [Node.startAttempt, setAttempt_of_ne hca]
    exact h.incoming c hc
  · cases hpc : (s.startAttempt p a).attempts b <;> rw [hpc] at hb <;> cases hb
    all_goals exact hpast c (h.selected b c (by rw [hold rfl hpc, AttemptPc.selected]))
  · obtain ⟨hp, hready⟩ := h.retiring b q r (hold rfl hb)
    exact ⟨hpast _ hp, hready⟩

/-- It is the only one of its peer, and no closing call is under way. -/
theorem Flights.startAttempt (h : s.Flights) {p : Str} {a : ℕ} (ha : s.attempts a = .absent)
    (hin : s.inFlight p = none) (hclosing : s.closingPeers p = false) :
    (s.startAttempt p a).Flights where
  inFlight q b := by
    have hupdate : (s.startAttempt p a).inFlight = Function.update s.inFlight p (some a) := rfl
    rw [hupdate]
    by_cases hba : b = a
    · subst hba
      rw [Node.startAttempt, setAttempt_self]
      have hcancel : s.cancelled b = false := h.cancelled b ha
      by_cases hq : q = p
      · subst hq
        simp [AttemptPc.peer, setAttempt, hcancel]
      · rw [Function.update_of_ne hq]
        have hnone : s.inFlight q ≠ some b := fun hb => by
          have := (h.inFlight q b).1 hb
          rw [ha] at this
          cases this.1
        simp [AttemptPc.peer, hnone, Ne.symm hq]
    · rw [Node.startAttempt, setAttempt_of_ne hba]
      by_cases hq : q = p
      · subst hq
        have hnone : ¬ ((s.attempts b).peer = some q ∧ s.cancelled b = false) := fun hb => by
          rw [(h.inFlight q b).2 hb] at hin
          cases hin
        simpa [Ne.symm hba, setAttempt] using hnone
      · rw [Function.update_of_ne hq]
        exact h.inFlight q b
  cancelled b hb := by
    by_cases hba : b = a
    · exact hba ▸ h.cancelled a ha
    · rw [Node.startAttempt, setAttempt_of_ne hba] at hb
      exact h.cancelled b hb
  returned b c hb := by
    have hba : b ≠ a := by
      rintro rfl
      rw [Node.startAttempt, setAttempt_self] at hb
      cases hb
    rw [Node.startAttempt, setAttempt_of_ne hba] at hb
    exact h.returned b c hb
  closing q hq := by
    have hqp : q ≠ p := by
      rintro rfl
      rw [show s.closingPeers q = true from hq] at hclosing
      cases hclosing
    show Function.update s.inFlight p (some a) q = none
    rw [Function.update_of_ne hqp]
    exact h.closing q hq

/-- A caller moves. -/
theorem Flights.setCaller (h : s.Flights) (k : ℕ) (pc : CallerPc) : (s.setCaller k pc).Flights :=
  h.congr rfl rfl rfl rfl

/-- A reader is started. -/
theorem Flights.ensureReader (h : s.Flights) (c : ℕ) (session : ProtocolSession F) :
    (s.ensureReader c session).Flights := by
  unfold Node.ensureReader
  split
  · exact h.congr rfl rfl rfl rfl
  · exact h.congr rfl rfl rfl rfl
  · exact h

/-- A reader is no caller. -/
theorem ensureReader_nextCaller (s : Node F) (c : ℕ) (session : ProtocolSession F) :
    (s.ensureReader c session).nextCaller = s.nextCaller := by
  unfold ensureReader
  split <;> rfl

/-- A connection is handed to its caller. -/
theorem sound_handOver (h : s.Sound none) (hf : s.Flights) {k c : ℕ} {p : Str}
    (hk : k < s.nextCaller) : (s.handOver k p c).Sound none ∧ (s.handOver k p c).Flights := by
  unfold handOver
  split
  · rename_i session hsession
    exact ⟨(h.ensureReader hsession).setCaller (by rwa [ensureReader_nextCaller])
      (fun q a d hq => by cases hq), (hf.ensureReader c session).setCaller k _⟩
  · have hsettles := s.settles_closePeer true p
    have hflights := hf.closePeer true p
    have hgathering : ∀ q a d, (s.closePeer true p).2 = some (.gathering q a (some d)) →
        q = p ∧ s.inFlight p = some a ∧ s.manager p = some d := fun _ _ _ => gathering_of_closePeer
    generalize s.closePeer true p = x at hsettles hflights hgathering
    have hlt : k < x.1.nextCaller := hsettles.nextCaller ▸ hk
    obtain ⟨t, _ | closer⟩ := x
    · exact ⟨(hsettles.sound h).setCaller hlt (fun q a d hq => by cases hq),
        hflights.setCaller k _⟩
    · refine ⟨(hsettles.sound h).setCaller hlt (fun q a d hq => ?_), hflights.setCaller k _⟩
      cases hq
      exact hsettles.past.2 (h.manager p d (hgathering q a d rfl).2.2)

/-- The number of a caller is used up. -/
theorem Sound.nextCaller (h : s.Sound none) :
    ({ s with nextCaller := s.nextCaller + 1 } : Node F).Sound none :=
  { h with fresh := fun k hk => h.fresh k (Nat.le_of_succ_le hk) }

/-- **A caller connects**: it gets the registered connection, joins the attempt or starts one. -/
theorem sound_connect (h : s.Sound none) (hf : s.Flights) {p : Str} {a : ℕ}
    (hs : s.connect p a = some t) : t.Sound none ∧ t.Flights := by
  have hnext := h.nextCaller
  have hfnext : ({ s with nextCaller := s.nextCaller + 1 } : Node F).Flights :=
    hf.congr rfl rfl rfl rfl
  have hk : s.nextCaller < ({ s with nextCaller := s.nextCaller + 1 } : Node F).nextCaller :=
    Nat.lt_succ_self _
  have hset : ∀ {u : Node F} {pc : CallerPc}, u.Sound none → u.Flights →
      s.nextCaller < u.nextCaller → (∀ q b c, pc ≠ .closingPeer (.gathering q b c)) →
      (u.setCaller s.nextCaller pc).Sound none ∧ (u.setCaller s.nextCaller pc).Flights :=
    fun hu hfu hlt hpc => ⟨hu.setCaller hlt fun q b c hq => absurd hq (hpc q b _),
      hfu.setCaller _ _⟩
  simp only [connect] at hs
  split at hs
  · cases hs
    exact hset hnext hfnext hk fun q b c hq => by cases hq
  · split at hs
    · cases hs
      exact hset hnext hfnext hk fun q b c hq => by cases hq
    · rename_i hclosing
      split at hs
      · cases hs
        exact sound_handOver hnext hfnext hk
      · have hquiet := quiet_forgetClosed ({ s with nextCaller := s.nextCaller + 1 } : Node F) p
        have hforget := hquiet.toSettles.sound hnext
        have hfforget := hquiet.flights hfnext
        generalize forgetClosed _ p = u at hs hquiet hforget hfforget
        have hlt : s.nextCaller < u.nextCaller := hquiet.nextCaller ▸ hk
        unfold joinAttempt at hs
        split at hs
        · cases hs
          exact hset hforget hfforget hlt fun q b c hq => by cases hq
        · rename_i hin
          split at hs
          · rename_i ha hr
            cases hs
            refine hset (hforget.startAttempt ha hr) (hfforget.startAttempt ha hin ?_) hlt
              fun q b c hq => by cases hq
            rw [hquiet.closingPeers]
            simpa using hclosing
          · cases hs

/-- The callers that are there have been numbered. -/
theorem Sound.lt_nextCaller (h : s.Sound none) {k : ℕ} {pc : CallerPc} (hk : s.callers k = pc)
    (hpc : pc ≠ .absent) : k < s.nextCaller :=
  Nat.lt_of_not_le fun hle => hpc (hk ▸ h.fresh k hle)

/-- A caller goes on. -/
theorem sound_resumeCaller (h : s.Sound none) (hf : s.Flights) {peerId : Str} {k : ℕ}
    (hs : step peerId s (.resumeCaller k) = some t) : t.Sound none ∧ t.Flights := by
  simp only [step] at hs
  split at hs
  · rename_i p a hk
    have hlt := h.lt_nextCaller hk (by rintro ⟨⟩)
    split at hs <;> cases hs
    · exact sound_handOver h hf hlt
    · exact ⟨h.setCaller hlt (fun q b c hq => by cases hq), hf.setCaller k _⟩
  · rename_i closer hk
    have hlt := h.lt_nextCaller hk (by rintro ⟨⟩)
    obtain ⟨⟨u, pc⟩, hu, ht⟩ := Option.map_eq_some_iff.1 hs
    have hsettles := settles_resumeClosePeer hu
    have hflights : u.Flights := hf.resumeClosePeer hu
    have hltu : k < u.nextCaller := hsettles.nextCaller ▸ hlt
    cases pc with
    | none =>
        subst ht
        exact ⟨(hsettles.sound h).setCaller hltu (fun q b c hq => by cases hq),
          hflights.setCaller k _⟩
    | some pc =>
        subst ht
        obtain ⟨q, rfl⟩ := gathering_of_resumeClosePeer hu
        exact ⟨(hsettles.sound h).setCaller hltu (fun q b c hq => by cases hq),
          hflights.setCaller k _⟩
  · cases hs

/-- A caller is cancelled. -/
theorem sound_cancelCaller (h : s.Sound none) (hf : s.Flights) {peerId : Str} {k : ℕ}
    (hs : step peerId s (.cancelCaller k) = some t) : t.Sound none ∧ t.Flights := by
  simp only [step] at hs
  split at hs <;> cases hs
  · rename_i p a hk
    exact ⟨h.setCaller (h.lt_nextCaller hk (by rintro ⟨⟩)) (fun q b c hq => by cases hq),
      hf.setCaller k _⟩
  · rename_i p a connection hk
    exact ⟨h.setCaller (h.lt_nextCaller hk (by rintro ⟨⟩)) (fun q b c hq => by cases hq),
      hf.setCaller k _⟩
  · rename_i p hk
    have hlt := h.lt_nextCaller hk (by rintro ⟨⟩)
    exact ⟨((s.settles_endClosePeer p).sound h).setCaller hlt (fun q b c hq => by cases hq),
      (hf.endClosePeer p).setCaller k _⟩

/-! ## `disconnect` -/

/-- A `disconnect()` moves. -/
theorem quiet_setDisconnect (s : Node F) (d : ℕ) (pc : DisconnectPc) :
    s.Quiet (s.setDisconnect d pc) := { Quiet.refl s with }

/-- The number of a `disconnect()` is used up. -/
theorem quiet_nextDisconnect (s : Node F) :
    s.Quiet { s with nextDisconnect := s.nextDisconnect + 1 } := { Quiet.refl s with }

/-- A call of `disconnect()` moves no other task. -/
theorem settles_disconnect (s : Node F) (p : Str) : s.Settles (s.disconnect p) := by
  have hnext := s.quiet_nextDisconnect.toSettles
  unfold disconnect
  dsimp only
  split
  · exact (hnext.trans (quiet_beginRetire _ _).toSettles).trans (quiet_setDisconnect _ _ _).toSettles
  · have hclose := hnext.trans (settles_closePeer _ false p)
    split <;> rename_i heq <;> rw [heq] at hclose <;>
      exact hclose.trans (quiet_setDisconnect _ _ _).toSettles

/-- A `disconnect()` goes on. -/
theorem settles_resumeDisconnect {peerId : Str} {d : ℕ}
    (hs : step peerId s (.resumeDisconnect d) = some t) : s.Settles t := by
  simp only [step] at hs
  split at hs
  · rename_i p _
    have hclose := s.settles_closePeer false p
    split at hs <;> rename_i heq <;> cases hs <;> rw [heq] at hclose <;>
      exact hclose.trans (quiet_setDisconnect _ d _).toSettles
  · obtain ⟨⟨u, pc⟩, hu, ht⟩ := Option.map_eq_some_iff.1 hs
    have hclose := settles_resumeClosePeer hu
    cases pc <;> subst ht <;> exact hclose.trans (quiet_setDisconnect _ d _).toSettles
  · cases hs

/-- `disconnect()` starts no attempt. -/
theorem Flights.disconnect (h : s.Flights) (p : Str) : (s.disconnect p).Flights := by
  have hnext := s.quiet_nextDisconnect.flights h
  unfold Node.disconnect
  dsimp only
  split
  · exact (quiet_setDisconnect _ _ _).flights ((quiet_beginRetire _ _).flights hnext)
  · have hclose := hnext.closePeer false p
    split <;> rename_i heq <;> rw [heq] at hclose <;>
      exact (quiet_setDisconnect _ _ _).flights hclose

/-- Nor when it goes on. -/
theorem Flights.resumeDisconnect (h : s.Flights) {peerId : Str} {d : ℕ}
    (hs : step peerId s (.resumeDisconnect d) = some t) : t.Flights := by
  simp only [step] at hs
  split at hs
  · rename_i p _
    have hclose := h.closePeer false p
    split at hs <;> rename_i heq <;> cases hs <;> rw [heq] at hclose <;>
      exact (quiet_setDisconnect _ d _).flights hclose
  · obtain ⟨⟨u, pc⟩, hu, ht⟩ := Option.map_eq_some_iff.1 hs
    have hclose : u.Flights := h.resumeClosePeer hu
    cases pc <;> subst ht <;> exact (quiet_setDisconnect _ d _).flights hclose
  · cases hs

/-! ## The steps that leave the tables alone -/

section tables

variable {peerId : Str} {a : ℕ}

/-- A failed attempt leaves the session tables. -/
theorem tables_failAttempt (s : Node F) (a : ℕ) (p : Str) :
    (s.failAttempt a p).tables = s.tables := by
  unfold failAttempt
  split <;> rfl

/-- So does one that is installed. -/
theorem tables_install (s : Node F) (a : ℕ) (p : Str) (selected : ℕ) :
    (s.install a p selected).tables = s.tables := by
  unfold install
  split
  · exact s.tables_failAttempt a p
  · dsimp only
    split <;> rfl

/-- So does the end of an attempt in the manager. -/
theorem tables_resumeAttempt (hs : step peerId s (.resumeAttempt a) = some t) :
    t.tables = s.tables := by
  have hretire : ∀ r, (s.endRetire r).tables = s.tables := by
    intro r
    unfold endRetire connectionLost
    split
    · split <;> rfl
    · rfl
  simp only [step] at hs
  split at hs
  · cases hs
  · split at hs <;> cases hs <;> first
      | rfl
      | exact s.tables_install a _ _
      | exact hretire _

/-- So does the close of a connection. -/
theorem tables_closeFor (s : Node F) (setup : Bool) (p : Str) (c : ℕ) :
    (s.closeFor setup p c).tables = s.tables := by
  unfold closeFor
  split <;> rfl

/-- So does a closing call after its attempt has ended. -/
theorem tables_closeGathered (s : Node F) (setup : Bool) (p : Str) (connection : Option ℕ) :
    (s.closeGathered setup p connection).1.tables = s.tables := by
  unfold closeGathered
  split
  · exact s.tables_closeFor setup p _
  · rfl

/-- So does one that begins. -/
theorem tables_closePeer (s : Node F) (setup : Bool) (p : Str) :
    (s.closePeer setup p).1.tables = s.tables := by
  unfold closePeer
  dsimp only
  split
  · rfl
  · exact tables_closeGathered _ setup p _

/-- So does one that goes on. -/
theorem tables_resumeClosePeer {setup : Bool} {closer : CloserPc} {x : Node F × Option CloserPc}
    (h : s.resumeClosePeer setup closer = some x) : x.1.tables = s.tables := by
  unfold resumeClosePeer at h
  split at h
  · split at h <;> cases h
    exact s.tables_closeGathered setup _ _
  · split at h <;> cases h
    rfl
  · cases h
    rfl

/-- So does a connection that is handed out. -/
theorem tables_handOver (s : Node F) (k : ℕ) (p : Str) (c : ℕ) :
    (s.handOver k p c).tables = s.tables := by
  unfold handOver
  split
  · unfold ensureReader
    split <;> rfl
  · have htables := s.tables_closePeer true p
    split <;> rename_i heq <;> rw [heq] at htables <;> exact htables

/-- So does a caller that connects. -/
theorem tables_connect {p : Str} {b : ℕ} (ht : s.connect p b = some t) : t.tables = s.tables := by
  simp only [connect] at ht
  split at ht
  · cases ht
    rfl
  · split at ht
    · cases ht
      rfl
    · split at ht
      · cases ht
        exact tables_handOver _ _ p _
      · unfold joinAttempt at ht
        split at ht
        · cases ht
          rfl
        · split at ht <;> cases ht
          rfl

/-- So does one that goes on. -/
theorem tables_resumeCaller {k : ℕ} (ht : step peerId s (.resumeCaller k) = some t) :
    t.tables = s.tables := by
  simp only [step] at ht
  split at ht
  · split at ht <;> cases ht
    · exact s.tables_handOver k _ _
    · rfl
  · obtain ⟨⟨u, pc⟩, hu, ht⟩ := Option.map_eq_some_iff.1 ht
    have htables : u.tables = s.tables := tables_resumeClosePeer hu
    cases pc <;> subst ht <;> exact htables
  · cases ht

/-- So does a `disconnect()` that goes on: it has taken the session before its first await. -/
theorem tables_resumeDisconnect {d : ℕ} (ht : step peerId s (.resumeDisconnect d) = some t) :
    t.tables = s.tables := by
  simp only [step] at ht
  split at ht
  · have htables := s.tables_closePeer false ‹_›
    split at ht <;> rename_i heq <;> cases ht <;> rw [heq] at htables <;> exact htables
  · obtain ⟨⟨u, pc⟩, hu, ht⟩ := Option.map_eq_some_iff.1 ht
    have htables : u.tables = s.tables := tables_resumeClosePeer hu
    cases pc <;> subst ht <;> exact htables
  · cases ht

end tables

end callers

end Node

/-! ## Runs -/

variable {peerId : Str} {s t : Node F}

/-- **One step keeps the facts about tables and tasks.** -/
theorem sound_step {l : Label F} (h : s.Sound none) (hf : s.Flights)
    (hs : step peerId s l = some t) : t.Sound none ∧ t.Flights := by
  have hattempt : ∀ {a}, (∃ p, (s.attempts a).peer = some p ∧ s.AttemptMove t a p) →
      t.Sound none ∧ t.Flights := fun ⟨p, ha, hmove⟩ => ⟨hmove.sound h ha, hmove.flights hf ha⟩
  have hreader : ∀ {c}, s.ReaderMove t c → t.Sound none ∧ t.Flights :=
    fun hmove => ⟨hmove.sound h, hmove.flights hf⟩
  cases l with
  | accept c =>
      simp only [step] at hs
      split at hs <;> cases hs
      rename_i ha hr
      refine hreader (c := c) ⟨id, fun _ _ => .inl, fun _ => id, rfl, rfl, rfl, rfl, rfl, rfl,
        fun d hd => Node.setReader_of_ne hd, .inr ⟨hr, ha, Node.setReader_self⟩, .inr ha,
        fun _ => .inr ha, fun hover => ?_, fun _ _ => .inl⟩
      rw [Node.setReader_self] at hover
      cases hover
  | connect p a => exact Node.sound_connect h hf hs
  | opened a =>
      simp only [step] at hs
      split at hs
      · rename_i p ha
        split at hs <;> cases hs
        exact hattempt ⟨p, Node.peer_of_attempt ha rfl, Node.attemptMove_opened ha⟩
      · cases hs
  | attemptFails a => exact hattempt (Node.attemptMove_fails hs)
  | attemptNegotiated a session =>
      simp only [step] at hs
      split at hs
      · rename_i p ha
        split at hs <;> cases hs
        rename_i hcond
        exact hattempt ⟨p, Node.peer_of_attempt ha rfl,
          Node.attemptMove_negotiated h ha hcond.1⟩
      · cases hs
  | attemptCancelled a => exact hattempt (Node.attemptMove_cancelled hs)
  | resumeAttempt a => exact hattempt (Node.attemptMove_resume h hs)
  | incomingFails c =>
      simp only [step] at hs
      split at hs <;> cases hs
      rename_i hc
      exact hreader (Node.readerMove_endIncoming (.refl s) (by rw [hc]; rintro ⟨⟩))
  | incomingNegotiated c session =>
      simp only [step] at hs
      split at hs <;> cases hs
      exact hreader (Node.readerMove_negotiated h ‹_›)
  | resumeReader c => exact hreader (Node.readerMove_resume h hs)
  | readerEnds c => exact hreader (Node.readerMove_readerEnds hs)
  | resumeCaller k => exact Node.sound_resumeCaller h hf hs
  | cancelCaller k => exact Node.sound_cancelCaller h hf hs
  | disconnect p =>
      cases hs
      exact ⟨(s.settles_disconnect p).sound h, hf.disconnect p⟩
  | resumeDisconnect d =>
      exact ⟨(Node.settles_resumeDisconnect hs).sound h, hf.resumeDisconnect hs⟩
  | connectionState p =>
      cases hs
      exact ⟨(s.quiet_forgetClosed p).toSettles.sound h, (s.quiet_forgetClosed p).flights hf⟩
  | close c =>
      cases hs
      exact ⟨(s.quiet_closeConnection c).toSettles.sound h, (s.quiet_closeConnection c).flights hf⟩

/-- Nobody has called anything. -/
theorem sound_initial : (initial : Node F).Sound none where
  tables := .empty
  past _ _ h := by cases h
  ended _ h := by cases h
  outgoing _ _ h := by rcases h with h | h <;> cases h
  incoming _ h := by cases h
  manager _ _ h := by cases h
  selected _ _ h := by cases h
  retiring _ _ _ h := by cases h
  failing _ _ h := by cases h
  gathering _ _ _ _ h := by cases h
  fresh _ _ := rfl

/-- No attempt is in flight. -/
theorem flights_initial : (initial : Node F).Flights where
  inFlight _ _ := by simp [initial, AttemptPc.peer]
  cancelled _ _ := rfl
  returned _ _ _ := rfl
  closing _ h := by cases h

/-- **In every run** the tables fit the tasks. -/
theorem sound_of_reachable (h : Reachable (system F peerId) s) : s.Sound none ∧ s.Flights :=
  h.invariant (I := fun s => s.Sound none ∧ s.Flights)
    (by rintro _ rfl; exact ⟨sound_initial, flights_initial⟩)
    fun _ _ _ hI hs => sound_step hI.1 hI.2 hs

/-! ## The fence of `close_peer` -/

/-- The manager has no connection of a peer that is being closed. -/
def Node.Fenced (s : Node F) : Prop := ∀ p, s.closingPeers p = true → s.manager p = none

namespace Node

/-- Fences only fall, and the manager only forgets. -/
theorem Fenced.mono (h : s.Fenced)
    (hclosing : ∀ p, t.closingPeers p = true → s.closingPeers p = true)
    (hmanager : ∀ p c, t.manager p = some c → s.manager p = some c) : t.Fenced := by
  intro p hp
  refine Option.eq_none_iff_forall_ne_some.2 fun c hc => ?_
  have hold := hmanager p c hc
  rw [h p (hclosing p hp)] at hold
  cases hold

/-- What leaves the manager alone keeps the fence. -/
theorem Fenced.quiet (h : s.Fenced) (hs : s.Quiet t) : t.Fenced :=
  h.mono (fun _ hp => hs.closingPeers ▸ hp) hs.manager

/-- An attempt keeps the fence. -/
theorem AttemptMove.fenced {a : ℕ} {p : Str} (hmove : s.AttemptMove t a p) (h : s.Fenced) :
    t.Fenced := by
  intro q hq
  rw [hmove.closingPeers] at hq
  refine Option.eq_none_iff_forall_ne_some.2 fun c hc => ?_
  rcases hmove.manager q c hc with hold | ⟨rfl, _, hclosing, _⟩
  · rw [h q hq] at hold
    cases hold
  · rw [hq] at hclosing
    cases hclosing

/-- A reader keeps it. -/
theorem ReaderMove.fenced {c : ℕ} (hmove : s.ReaderMove t c) (h : s.Fenced) : t.Fenced := by
  intro q hq
  rw [hmove.closingPeers] at hq
  refine Option.eq_none_iff_forall_ne_some.2 fun d hd => ?_
  rcases hmove.manager q d hd with hold | ⟨_, _, hclosing⟩
  · rw [h q hq] at hold
    cases hold
  · rw [hq] at hclosing
    cases hclosing

/-- The end of a closing call keeps it for the others. -/
theorem Fenced.endClosePeer (h : s.Fenced) (p : Str) : (s.endClosePeer p).Fenced :=
  h.mono (fun q hq => by
    simp only [Node.endClosePeer] at hq
    by_cases hqp : q = p
    · simp [hqp] at hq
    · rwa [Function.update_of_ne hqp] at hq) fun _ _ => id

/-- A closing call keeps it after its attempt has ended. -/
theorem Fenced.closeGathered (h : s.Fenced) (setup : Bool) (p : Str) (connection : Option ℕ) :
    (s.closeGathered setup p connection).1.Fenced := by
  unfold Node.closeGathered
  split
  · exact h.quiet (s.quiet_closeFor setup p _)
  · exact h.endClosePeer p

/-- A closing call that begins keeps it. -/
theorem Fenced.closePeer (h : s.Fenced) (setup : Bool) (p : Str) :
    (s.closePeer setup p).1.Fenced := by
  have hfence : ∀ cancelled, ({ s with
      closingPeers := Function.update s.closingPeers p true
      inFlight := Function.update s.inFlight p none
      manager := Function.update s.manager p none
      cancelled := cancelled } : Node F).Fenced := by
    intro cancelled q hq
    by_cases hqp : q = p
    · simp [hqp]
    · simp only [Function.update_of_ne hqp] at hq ⊢
      exact h q hq
  unfold Node.closePeer
  dsimp only
  split
  · exact hfence _
  · exact (hfence s.cancelled).closeGathered setup p _

/-- One that goes on keeps it. -/
theorem Fenced.resumeClosePeer (h : s.Fenced) {setup : Bool} {closer : CloserPc}
    {x : Node F × Option CloserPc} (hx : s.resumeClosePeer setup closer = some x) :
    x.1.Fenced := by
  unfold Node.resumeClosePeer at hx
  split at hx
  · split at hx <;> cases hx
    exact h.closeGathered setup _ _
  · split at hx <;> cases hx
    exact h.endClosePeer _
  · cases hx
    exact h.endClosePeer _

/-- A connection that is handed out keeps it. -/
theorem Fenced.handOver (h : s.Fenced) (k : ℕ) (p : Str) (c : ℕ) : (s.handOver k p c).Fenced := by
  unfold Node.handOver
  split
  · unfold Node.ensureReader
    split <;> exact h
  · have hclose := h.closePeer true p
    split <;> rename_i heq <;> rw [heq] at hclose <;> exact hclose

/-- A caller that connects keeps it. -/
theorem Fenced.connect (h : s.Fenced) {p : Str} {a : ℕ} (ht : s.connect p a = some t) :
    t.Fenced := by
  have hnext : ({ s with nextCaller := s.nextCaller + 1 } : Node F).Fenced := h
  simp only [Node.connect] at ht
  split at ht
  · cases ht
    exact h
  · split at ht
    · cases ht
      exact h
    · split at ht
      · cases ht
        exact hnext.handOver _ p _
      · have hforget := hnext.quiet (quiet_forgetClosed _ p)
        unfold joinAttempt at ht
        split at ht
        · cases ht
          exact hforget
        · split at ht <;> cases ht
          exact hforget

/-- A `disconnect()` that goes on keeps it. -/
theorem Fenced.resumeDisconnect (h : s.Fenced) {peerId : Str} {d : ℕ}
    (ht : step peerId s (.resumeDisconnect d) = some t) : t.Fenced := by
  simp only [step] at ht
  split at ht
  · have hclose := h.closePeer false ‹_›
    split at ht <;> rename_i heq <;> cases ht <;> rw [heq] at hclose <;> exact hclose
  · obtain ⟨⟨u, pc⟩, hu, ht⟩ := Option.map_eq_some_iff.1 ht
    have hclose : u.Fenced := h.resumeClosePeer hu
    cases pc <;> subst ht <;> exact hclose
  · cases ht

/-- One that begins keeps it. -/
theorem Fenced.disconnect (h : s.Fenced) (p : Str) : (s.disconnect p).Fenced := by
  have hnext := h.quiet s.quiet_nextDisconnect
  unfold Node.disconnect
  dsimp only
  split
  · exact (hnext.quiet (quiet_beginRetire _ _)).quiet (quiet_setDisconnect _ _ _)
  · have hclose := hnext.closePeer false p
    split <;> rename_i heq <;> rw [heq] at hclose <;> exact hclose

/-- A caller that goes on keeps it. -/
theorem Fenced.resumeCaller (h : s.Fenced) {peerId : Str} {k : ℕ}
    (ht : step peerId s (.resumeCaller k) = some t) : t.Fenced := by
  simp only [step] at ht
  split at ht
  · split at ht <;> cases ht
    · exact h.handOver k _ _
    · exact h
  · obtain ⟨⟨u, pc⟩, hu, ht⟩ := Option.map_eq_some_iff.1 ht
    have hclose : u.Fenced := h.resumeClosePeer hu
    cases pc <;> subst ht <;> exact hclose
  · cases ht

end Node

/-- **Every step keeps the fence.** -/
theorem fenced_step {l : Label F} (h : s.Fenced) (hs : s.Sound none)
    (ht : step peerId s l = some t) : t.Fenced := by
  cases l with
  | accept c =>
      simp only [step] at ht
      split at ht <;> cases ht
      exact h
  | connect p a => exact h.connect ht
  | opened a =>
      simp only [step] at ht
      split at ht
      · rename_i p ha
        split at ht <;> cases ht
        exact h
      · cases ht
  | attemptFails a =>
      obtain ⟨p, _, hmove⟩ := Node.attemptMove_fails ht
      exact hmove.fenced h
  | attemptNegotiated a session =>
      simp only [step] at ht
      split at ht
      · rename_i p ha
        split at ht <;> cases ht
        rename_i hcond
        exact (Node.attemptMove_negotiated hs ha hcond.1).fenced h
      · cases ht
  | attemptCancelled a =>
      obtain ⟨p, _, hmove⟩ := Node.attemptMove_cancelled ht
      exact hmove.fenced h
  | resumeAttempt a =>
      obtain ⟨p, _, hmove⟩ := Node.attemptMove_resume hs ht
      exact hmove.fenced h
  | incomingFails c =>
      simp only [step] at ht
      split at ht <;> cases ht
      exact h
  | incomingNegotiated c session =>
      simp only [step] at ht
      split at ht <;> cases ht
      exact (Node.readerMove_negotiated hs ‹_›).fenced h
  | resumeReader c => exact (Node.readerMove_resume hs ht).fenced h
  | readerEnds c => exact (Node.readerMove_readerEnds ht).fenced h
  | resumeCaller k => exact h.resumeCaller ht
  | cancelCaller k =>
      simp only [step] at ht
      split at ht <;> cases ht
      · exact h
      · exact h
      · exact h.endClosePeer _
  | disconnect p =>
      cases ht
      exact h.disconnect p
  | resumeDisconnect d => exact h.resumeDisconnect ht
  | connectionState p =>
      cases ht
      exact h.quiet (s.quiet_forgetClosed p)
  | close c =>
      cases ht
      exact h

/-- The fence holds in every run. -/
theorem fenced_of_reachable (h : Reachable (system F peerId) s) : s.Fenced := by
  have hall := h.invariant (I := fun s => s.Fenced ∧ s.Sound none ∧ s.Flights)
    (by rintro _ rfl; exact ⟨fun _ _ => rfl, sound_initial, flights_initial⟩)
    fun _ _ _ hI hs => ⟨fenced_step hI.1 hI.2.1 hs, sound_step hI.2.1 hI.2.2 hs⟩
  exact hall.1

end Sessions
end Core
end Paqto
