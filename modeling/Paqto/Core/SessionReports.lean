/-
# One `DISCONNECTED` event a session

A session ends in the tables once: taken by `disconnect`, by its own reader, or by the
selection of another connection.  `disconnect` reports the sessions it takes, the reader
its own, and also any connection that the manager still has (`removed`); so a session is
reported twice, or though it has lost, when a reader gets to `connection_lost` before
`close_peer` or `adopt` has changed the manager (`Misreports`).

In runs without such a step every connection has at most one event, and one that has lost
has none (`session_events`).
-/

import Paqto.Core.SessionEvents

namespace Paqto
namespace Core
namespace Sessions

open Transition Python

variable {F : Type} {peerId : Str}

namespace Observed

variable {s : Observed F} {t : Node F} {c d : ℕ} {Guarded : Prop}

/-- No `disconnect` has taken the session of the connection, and no selection. -/
def Spared (s : Observed F) (c : ℕ) : Prop := s.lost c = false ∧ ∀ d, s.taken d ≠ some c

/-- How the events agree with the places of the tasks.  In `Guarded` runs a reader has
reported nobody else's session. -/
structure Inv (Guarded : Prop) (s : Observed F) : Prop where
  sound : s.node.Sound none
  flights : s.node.Flights
  past : ∀ c, .connected c ∈ s.events → s.node.Past c
  ready : ∀ c, s.node.tables.ready c ≠ none → .connected c ∈ s.events
  once : ∀ c, s.events.count (.connected c) ≤ 1
  lost : ∀ c, s.lost c = true →
    s.node.tables.ready c = none ∧ s.node.Past c ∧ ∀ d, s.taken d ≠ some c
  reading : ∀ c session, s.node.readers c = .reading session → .connected c ∈ s.events
  ending : ∀ c session, s.node.readers c = .ending session →
    .connected c ∈ s.events ∧ (s.wasCanonical c = true → s.Spared c)
  report : ∀ c, s.report c = true →
    s.node.readers c = .closing ∧ .connected c ∈ s.events ∧ (Guarded → s.Spared c)
  unused : ∀ d, s.node.nextDisconnect ≤ d → s.taken d = none ∧ s.node.disconnects d = .absent
  taken : ∀ d c, s.taken d = some c → .connected c ∈ s.events ∧ s.node.tables.ready c = none ∧
    ((∃ p, s.node.disconnects d = .retiring p) ∨ .disconnected c true ∈ s.events)
  takenOnce : ∀ d e c, s.taken d = some c → s.taken e = some c → d = e
  pending : ∀ d c p, s.taken d = some c → s.node.disconnects d = .retiring p →
    .disconnected c true ∉ s.events
  explicit : ∀ c, .disconnected c true ∈ s.events → ∃ d, s.taken d = some c
  explicitOnce : ∀ c, s.events.count (.disconnected c true) ≤ 1
  implicit : ∀ c, .disconnected c false ∈ s.events →
    s.node.readers c = .ended ∧ .connected c ∈ s.events ∧ (Guarded → s.Spared c)
  implicitOnce : ∀ c, s.events.count (.disconnected c false) ≤ 1

/-- Nothing was reported yet. -/
theorem inv_initial : Inv Guarded (initial : Observed F) where
  sound := sound_initial
  flights := flights_initial
  past _ h := by cases h
  ready _ h := absurd rfl h
  once _ := Nat.zero_le 1
  lost _ h := by cases h
  reading _ _ h := by cases h
  ending _ _ h := by cases h
  report _ h := by cases h
  unused _ _ := ⟨rfl, rfl⟩
  taken _ _ h := by cases h
  takenOnce _ _ _ h := by cases h
  pending _ _ _ h := by cases h
  explicit _ h := by cases h
  explicitOnce _ := Nat.zero_le 1
  implicit _ h := by cases h
  implicitOnce _ := Nat.zero_le 1

/-- The task of a connection that is over has no session. -/
theorem Inv.ready_eq_none (h : s.Inv Guarded) (hc : (s.node.readers c).isOver = true) :
    s.node.tables.ready c = none := h.sound.ended c hc

/-- A step that ends no session: one may be published, and one may lose. -/
theorem Inv.bystands (h : s.Inv Guarded) {o : Option ℕ} {lost : ℕ → Bool}
    (ht : Node.Bystands o s.node t) (hcalls : s.node.SameCalls t) (hsound : t.Sound none)
    (hflights : t.Flights) (hfresh : ∀ c, o = some c → ¬ s.node.Past c ∧ t.Past c)
    (hlost : ∀ c, lost c = true →
      s.lost c = true ∨ (s.node.tables.ready c ≠ none ∨ ¬ s.node.Past c) ∧
        t.tables.ready c = none ∧ t.Past c) :
    Inv Guarded { s with
      node := t
      events := s.events ++ (o.map Event.connected).toList
      lost } := by
  have hmem : ∀ e, e ∈ s.events ++ (o.map Event.connected).toList ↔
      e ∈ s.events ∨ ∃ c, o = some c ∧ e = .connected c := by
    intro e
    cases o with
    | none => simp
    | some c => simp
  have hkeep : ∀ {e}, e ∈ s.events → e ∈ s.events ++ (o.map Event.connected).toList :=
    fun he => List.mem_append_left _ he
  have hother : ∀ c b, .disconnected c b ∈ s.events ++ (o.map Event.connected).toList →
      .disconnected c b ∈ s.events := by
    intro c b he
    rcases (hmem _).1 he with he | ⟨_, -, he⟩
    · exact he
    · cases he
  have hcount : ∀ c b, (s.events ++ (o.map Event.connected).toList).count (.disconnected c b) =
      s.events.count (.disconnected c b) := by
    intro c b
    cases o with
    | none => simp
    | some c' => simp
  -- what is over has been published, and cannot lose
  have hspared : ∀ c, .connected c ∈ s.events → s.node.tables.ready c = none → s.Spared c →
      lost c = false ∧ ∀ d, s.taken d ≠ some c := by
    intro c hc hnone hs
    refine ⟨?_, hs.2⟩
    by_contra hl
    rcases hlost c (by simpa using hl) with hl | ⟨hl | hl, -⟩
    · rw [hs.1] at hl
      cases hl
    · exact hl hnone
    · exact hl (h.past c hc)
  -- a session does not come back
  have hgone : ∀ c, s.node.Past c → s.node.tables.ready c = none → t.tables.ready c = none := by
    intro c hc hnone
    by_contra hsome
    rcases ht.ready c hsome with hr | hr
    · exact hr hnone
    · exact (hfresh c hr).1 hc
  constructor
  case sound => exact hsound
  case flights => exact hflights
  case past =>
    intro c hc
    rcases (hmem _).1 hc with hc | ⟨d, hd, hc⟩
    · exact ht.past c (h.past c hc)
    · cases hc
      exact (hfresh c hd).2
  case ready =>
    intro c hc
    rcases ht.ready c hc with hc | hc
    · exact hkeep (h.ready c hc)
    · exact (hmem _).2 (Or.inr ⟨c, hc, rfl⟩)
  case once =>
    intro c
    rw [List.count_append]
    have honce := h.once c
    cases o with
    | none => simpa using honce
    | some d =>
        by_cases hcd : d = c
        · have hnot : .connected c ∉ s.events := fun hc => (hfresh d rfl).1 (hcd ▸ h.past c hc)
          rw [List.count_eq_zero.2 hnot]
          simp [hcd]
        · simpa [hcd] using honce
  case lost =>
    intro c hl
    rcases hlost c hl with hl | hl
    · obtain ⟨hnone, hpast, hfree⟩ := h.lost c hl
      exact ⟨hgone c hpast hnone, ht.past c hpast, hfree⟩
    · obtain ⟨hold, hnone, hpast⟩ := hl
      refine ⟨hnone, hpast, fun d hd => ?_⟩
      obtain ⟨hconnected, hgone, -⟩ := h.taken d c hd
      rcases hold with hold | hold
      · exact hold hgone
      · exact hold (h.past c hconnected)
  case reading =>
    intro c session hc
    rcases ht.reading c session hc with hc | hc | hc
    · exact hkeep (h.reading c session hc)
    · exact hkeep (h.ready c hc)
    · exact (hmem _).2 (Or.inr ⟨c, hc, rfl⟩)
  case ending =>
    intro c session hc
    have hold := ht.ending c session hc
    obtain ⟨hconnected, hcanonical⟩ := h.ending c session hold
    refine ⟨hkeep hconnected, fun hw => ?_⟩
    exact hspared c hconnected (h.ready_eq_none (by rw [hold]; rfl)) (hcanonical hw)
  case report =>
    intro c hc
    obtain ⟨hclosing, hconnected, hs⟩ := h.report c hc
    refine ⟨ht.closing c hclosing, hkeep hconnected, fun hg => ?_⟩
    exact hspared c hconnected (h.ready_eq_none (by rw [hclosing]; rfl)) (hs hg)
  case unused =>
    intro d hd
    rw [hcalls.2] at hd
    obtain ⟨htaken, habsent⟩ := h.unused d hd
    exact ⟨htaken, hcalls.1 ▸ habsent⟩
  case taken =>
    intro d c hc
    obtain ⟨hconnected, hnone, hcall⟩ := h.taken d c hc
    exact ⟨hkeep hconnected, hgone c (h.past c hconnected) hnone,
      hcall.imp (fun hp => hcalls.1 ▸ hp) hkeep⟩
  case takenOnce => exact h.takenOnce
  case pending =>
    intro d c p hc hp he
    exact h.pending d c p hc (hcalls.1 ▸ hp) (hother c true he)
  case explicit => exact fun c he => h.explicit c (hother c true he)
  case explicitOnce =>
    intro c
    rw [hcount]
    exact h.explicitOnce c
  case implicit =>
    intro c he
    obtain ⟨hended, hconnected, hs⟩ := h.implicit c (hother c false he)
    refine ⟨ht.ended c hended, hkeep hconnected, fun hg => ?_⟩
    exact hspared c hconnected (h.ready_eq_none (by rw [hended]; rfl)) (hs hg)
  case implicitOnce =>
    intro c
    rw [hcount]
    exact h.implicitOnce c

/-! ## The reader that ends -/

/-- It reads only some of the fields. -/
theorem Spared.of_eq {u : Observed F} (h : s.Spared c) (hlost : u.lost = s.lost)
    (htaken : u.taken = s.taken) : u.Spared c := ⟨hlost ▸ h.1, fun d => htaken ▸ h.2 d⟩

/-- A canonical connection has not been taken and has not lost. -/
theorem Inv.spared_of_canonical (h : s.Inv Guarded) {p : Str}
    (hc : s.node.tables.peerConnections p = some c) : s.Spared c := by
  obtain ⟨r, hr, -⟩ := h.sound.tables.ready hc
  refine ⟨?_, fun d hd => ?_⟩
  · by_contra hl
    rw [(h.lost c (by simpa using hl)).1] at hr
    cases hr
  · rw [(h.taken d c hd).2.1] at hr
    cases hr

/-- The parts of the invariant that the step of a reader leaves alone. -/
theorem Inv.readerStep (h : s.Inv Guarded) {events : List Event} {wasCanonical report : ℕ → Bool}
    (hmove : s.node.ReaderMove t c) (hcalls : s.node.SameCalls t)
    (hpc : s.node.readers c ≠ .negotiating)
    (hevents : ∀ e, e ∈ events ↔ e ∈ s.events ∨ e = .disconnected c false ∧ e ∈ events)
    (hconnected : ∀ d, events.count (.connected d) = s.events.count (.connected d))
    (hexplicit : ∀ d, events.count (.disconnected d true) =
      s.events.count (.disconnected d true))
    (hreading : ∀ session, t.readers c ≠ .reading session)
    (hending : ∀ d session, t.readers d = .ending session → .connected d ∈ s.events ∧
      (wasCanonical d = true → s.Spared d))
    (hreport : ∀ d, report d = true →
      t.readers d = .closing ∧ .connected d ∈ s.events ∧ (Guarded → s.Spared d))
    (himplicit : ∀ d, .disconnected d false ∈ events →
      t.readers d = .ended ∧ .connected d ∈ s.events ∧ (Guarded → s.Spared d))
    (himplicitOnce : ∀ d, events.count (.disconnected d false) ≤ 1) :
    Inv Guarded { s with node := t, events, wasCanonical, report } := by
  have hkeep : ∀ {e}, e ∈ s.events → e ∈ events := fun he => (hevents _).2 (Or.inl he)
  have hgone : ∀ d, s.node.tables.ready d = none → t.tables.ready d = none := by
    intro d hnone
    refine Option.eq_none_iff_forall_ne_some.2 fun r hr => ?_
    rcases hmove.ready d r hr with hr | ⟨-, hneg, -⟩
    · rw [hnone] at hr
      cases hr
    · exact hpc hneg
  have hback : ∀ d, .connected d ∈ events → .connected d ∈ s.events := by
    intro d hd
    rcases (hevents _).1 hd with hd | ⟨hd, -⟩
    · exact hd
    · cases hd
  have hbackExplicit : ∀ d, .disconnected d true ∈ events → .disconnected d true ∈ s.events := by
    intro d hd
    rcases (hevents _).1 hd with hd | ⟨hd, -⟩
    · exact hd
    · cases hd
  constructor
  case sound => exact hmove.sound h.sound
  case flights => exact hmove.flights h.flights
  case past => exact fun d hd => hmove.past_of_past (h.past d (hback d hd))
  case ready => exact fun d hd => hkeep (h.ready d fun hnone => hd (hgone d hnone))
  case once =>
    intro d
    rw [hconnected]
    exact h.once d
  case lost =>
    intro d hd
    obtain ⟨hnone, hpast, hfree⟩ := h.lost d hd
    exact ⟨hgone d hnone, hmove.past_of_past hpast, hfree⟩
  case reading =>
    intro d session hd
    by_cases hdc : d = c
    · rw [hdc] at hd
      exact absurd hd (hreading session)
    · refine hkeep (h.reading d session ?_)
      rwa [← hmove.others d hdc]
  case ending =>
    intro d session hd
    obtain ⟨hcon, hs⟩ := hending d session hd
    exact ⟨hkeep hcon, hs⟩
  case report =>
    intro d hd
    obtain ⟨hclosing, hcon, hs⟩ := hreport d hd
    exact ⟨hclosing, hkeep hcon, hs⟩
  case unused =>
    intro d hd
    rw [hcalls.2] at hd
    obtain ⟨htaken, habsent⟩ := h.unused d hd
    exact ⟨htaken, hcalls.1 ▸ habsent⟩
  case taken =>
    intro d e he
    obtain ⟨hcon, hnone, hcall⟩ := h.taken d e he
    exact ⟨hkeep hcon, hgone e hnone, hcall.imp (fun hp => hcalls.1 ▸ hp) hkeep⟩
  case takenOnce => exact h.takenOnce
  case pending => exact fun d e p he hp hin => h.pending d e p he (hcalls.1 ▸ hp) (hbackExplicit e hin)
  case explicit => exact fun d hd => h.explicit d (hbackExplicit d hd)
  case explicitOnce =>
    intro d
    rw [hexplicit]
    exact h.explicitOnce d
  case implicit =>
    intro d hd
    obtain ⟨hended, hcon, hs⟩ := himplicit d hd
    exact ⟨hended, hkeep hcon, hs⟩
  case implicitOnce => exact himplicitOnce

/-- The reader of the connection gets to `connection_lost` while the manager still has it,
though its session was taken by `disconnect` or has lost. -/
def Misreports (s : Observed F) (l : Label F) : Prop :=
  ∃ c session, l = .resumeReader c ∧ s.node.readers c = .ending session ∧
    s.node.manager session.peerId = some c ∧ (s.lost c = true ∨ ∃ d, s.taken d = some c)

/-- The end of a session begins. -/
theorem Inv.readerEnds (h : s.Inv Guarded) (ht : Sessions.step peerId s.node (.readerEnds c) = some t) :
    Inv Guarded { s.beginEnd c with node := t } := by
  have hmove := Node.readerMove_readerEnds ht
  have hcalls : s.node.SameCalls t := sameCalls_step rfl ht
  simp only [Sessions.step] at ht
  split at ht <;> cases ht
  rename_i session hc
  have hother : ∀ d, s.node.readers d = .closing ∨ s.node.readers d = .ended → d ≠ c := by
    rintro d hd rfl
    rw [hc] at hd
    rcases hd with hd | hd <;> cases hd
  simp only [beginEnd, hc]
  refine h.readerStep hmove hcalls (by rw [hc]; rintro ⟨⟩) (fun e => ?_) (fun _ => rfl)
    (fun _ => rfl) (fun session' hd => ?_) (fun d session' hd => ?_) (fun d hd => ?_)
    (fun d hd => ?_) h.implicitOnce
  · exact ⟨Or.inl, fun he => he.elim id fun he => he.2⟩
  · rw [Node.setReader_self] at hd
    cases hd
  · by_cases hdc : d = c
    · rw [hdc]
      refine ⟨h.reading c session hc, fun hw => ?_⟩
      rw [Function.update_self] at hw
      exact h.spared_of_canonical (of_decide_eq_true hw)
    · rw [Node.setReader_of_ne hdc] at hd
      rw [Function.update_of_ne hdc]
      exact h.ending d session' hd
  · obtain ⟨hclosing, hrest⟩ := h.report d hd
    refine ⟨?_, hrest⟩
    rwa [Node.setReader_of_ne (hother d (Or.inl hclosing))]
  · obtain ⟨hended, hrest⟩ := h.implicit d hd
    refine ⟨?_, hrest⟩
    rwa [Node.setReader_of_ne (hother d (Or.inr hended))]

/-- `connection_lost`: the reader reports its own session, or one that the manager has. -/
theorem Inv.connectionLost (h : s.Inv Guarded) {session : ProtocolSession F}
    (hc : s.node.readers c = .ending session)
    (hG : Guarded → ¬ s.Misreports (.resumeReader c))
    (ht : Sessions.step peerId s.node (.resumeReader c) = some t) :
    Inv Guarded { s.resumeEnd c with node := t } := by
  have hmove := Node.readerMove_resume h.sound ht
  have hcalls : s.node.SameCalls t := sameCalls_step rfl ht
  have hpc : t.readers c = .closing := by
    simp only [Sessions.step, hc] at ht
    cases ht
    exact Node.setReader_self
  have hother : ∀ d, s.node.readers d = .closing ∨ s.node.readers d = .ended → d ≠ c := by
    rintro d hd rfl
    rw [hc] at hd
    rcases hd with hd | hd <;> cases hd
  simp only [resumeEnd, hc]
  refine h.readerStep hmove hcalls (by rw [hc]; rintro ⟨⟩) (fun e => ?_) (fun _ => rfl)
    (fun _ => rfl) (fun session' hd => ?_) (fun d session' hd => ?_) (fun d hd => ?_)
    (fun d hd => ?_) h.implicitOnce
  · exact ⟨Or.inl, fun he => he.elim id fun he => he.2⟩
  · cases hpc.symm.trans hd
  · have hdc : d ≠ c := by
      rintro rfl
      cases hpc.symm.trans hd
    rw [hmove.others d hdc] at hd
    exact h.ending d session' hd
  · by_cases hdc : d = c
    · rw [hdc] at hd ⊢
      obtain ⟨hconnected, hcanonical⟩ := h.ending c session hc
      refine ⟨hpc, hconnected, fun hg => ?_⟩
      rw [Function.update_self, Bool.or_eq_true] at hd
      rcases hd with hd | hd
      · exact hcanonical hd
      · have hnot := hG hg
        refine ⟨?_, fun d hd' => hnot ⟨c, session, rfl, hc, of_decide_eq_true hd, Or.inr ⟨d, hd'⟩⟩⟩
        by_contra hl
        exact hnot ⟨c, session, rfl, hc, of_decide_eq_true hd, Or.inl (by simpa using hl)⟩
    · rw [Function.update_of_ne hdc] at hd
      rw [hmove.others d hdc]
      exact h.report d hd
  · obtain ⟨hended, hrest⟩ := h.implicit d hd
    rw [hmove.others d (hother d (Or.inr hended))]
    exact ⟨hended, hrest⟩

/-- `close()` of `_connection_ended` has returned. -/
theorem Inv.ended (h : s.Inv Guarded) (hc : s.node.readers c = .closing)
    (ht : Sessions.step peerId s.node (.resumeReader c) = some t) :
    Inv Guarded { s.resumeEnd c with node := t } := by
  have hmove := Node.readerMove_resume h.sound ht
  have hcalls : s.node.SameCalls t := sameCalls_step rfl ht
  have hpc : t.readers c = .ended := by
    simp only [Sessions.step, hc] at ht
    cases ht
    exact Node.setReader_self
  have hnot : .disconnected c false ∉ s.events := fun he => by
    have hended := (h.implicit c he).1
    cases hc.symm.trans hended
  have hneg : s.node.readers c ≠ .negotiating := by
    rw [hc]
    rintro ⟨⟩
  have hreading : ∀ session, t.readers c ≠ .reading session := fun session hd => by
    cases hpc.symm.trans hd
  have hending : ∀ d session, t.readers d = .ending session → .connected d ∈ s.events ∧
      (s.wasCanonical d = true → s.Spared d) := by
    intro d session hd
    have hdc : d ≠ c := by
      rintro rfl
      cases hpc.symm.trans hd
    rw [hmove.others d hdc] at hd
    exact h.ending d session hd
  have himplicit : ∀ d, .disconnected d false ∈ s.events →
      t.readers d = .ended ∧ .connected d ∈ s.events ∧ (Guarded → s.Spared d) := by
    intro d hd
    obtain ⟨hended, hrest⟩ := h.implicit d hd
    have hdc : d ≠ c := by
      rintro rfl
      exact hnot hd
    rw [hmove.others d hdc]
    exact ⟨hended, hrest⟩
  have hreport : ∀ d, d ≠ c → s.report d = true →
      t.readers d = .closing ∧ .connected d ∈ s.events ∧ (Guarded → s.Spared d) := by
    intro d hdc hd
    rw [hmove.others d hdc]
    exact h.report d hd
  simp only [resumeEnd, hc]
  cases hreported : s.report c with
  | false =>
      refine h.readerStep hmove hcalls hneg (fun e => ?_) (fun _ => rfl) (fun _ => rfl) hreading
        hending (fun d hd => ?_) himplicit h.implicitOnce
      · exact ⟨Or.inl, fun he => he.elim id fun he => he.2⟩
      · refine hreport d ?_ hd
        rintro rfl
        have hd' : s.report d = true := hd
        rw [hreported] at hd'
        cases hd'
  | true =>
      obtain ⟨-, hconnected, hs⟩ := h.report c hreported
      refine h.readerStep hmove hcalls hneg (fun e => ?_) (fun d => ?_) (fun d => ?_) hreading
        hending (fun d hd => ?_) (fun d hd => ?_) fun d => ?_
      · simp only [if_true, List.mem_append, List.mem_singleton]
        constructor
        · rintro (he | he)
          · exact Or.inl he
          · exact Or.inr ⟨he, Or.inr he⟩
        · rintro (he | he)
          · exact Or.inl he
          · exact he.2
      · simp
      · simp
      · simp only [if_true] at hd
        by_cases hdc : d = c
        · rw [hdc, Function.update_self] at hd
          cases hd
        · rw [Function.update_of_ne hdc] at hd
          exact hreport d hdc hd
      · simp only [if_true, List.mem_append, List.mem_singleton, Event.disconnected.injEq,
          and_true] at hd
        rcases hd with hd | rfl
        · exact himplicit d hd
        · exact ⟨hpc, hconnected, hs⟩
      · simp only [if_true, List.count_append]
        by_cases hdc : d = c
        · rw [hdc, List.count_eq_zero.2 hnot]
          simp
        · have hne : Event.disconnected c false ≠ .disconnected d false := fun he => by
            cases he
            exact hdc rfl
          simpa [hne] using h.implicitOnce d

/-! ## `disconnect` -/

/-- A new call stands in the place of its first suspension. -/
theorem disconnect_calls (s : Node F) (p : Str) :
    (s.disconnect p).nextDisconnect = s.nextDisconnect + 1 ∧
      (∀ e, e ≠ s.nextDisconnect → (s.disconnect p).disconnects e = s.disconnects e) ∧
      (∀ c, s.tables.peerConnections p = some c →
        (s.disconnect p).disconnects s.nextDisconnect = .retiring p ∧
          (s.disconnect p).tables = s.tables.deactivateSession c) := by
  unfold Node.disconnect
  dsimp only
  split
  · rename_i c hc
    refine ⟨rfl, fun e he => ?_, fun c' hc' => ?_⟩
    · simp [Node.setDisconnect, Node.beginRetire, he]
    · cases hc.symm.trans hc'
      exact ⟨by simp [Node.setDisconnect], rfl⟩
  · rename_i hnone
    have hclose := Node.sameCalls_closePeer { s with nextDisconnect := s.nextDisconnect + 1 } false p
    split <;> rename_i heq <;> rw [heq] at hclose
    · refine ⟨hclose.2, fun e he => ?_, fun c hc => by rw [hnone] at hc; cases hc⟩
      simpa [Node.setDisconnect, he] using congrFun hclose.1 e
    · refine ⟨hclose.2, fun e he => ?_, fun c hc => by rw [hnone] at hc; cases hc⟩
      simpa [Node.setDisconnect, he] using congrFun hclose.1 e

/-- `disconnect` is called. -/
theorem Inv.disconnect (h : s.Inv Guarded) (p : Str) :
    Inv Guarded { s with
      node := s.node.disconnect p
      taken := Function.update s.taken s.node.nextDisconnect
        (s.node.tables.peerConnections p) } := by
  have hsettles := s.node.settles_disconnect p
  obtain ⟨hnext, hothers, hnew⟩ := disconnect_calls s.node p
  have hready : ∀ c, s.node.tables.peerConnections p = some c → s.node.tables.ready c ≠ none := by
    intro c hc
    obtain ⟨r, hr, -⟩ := h.sound.tables.ready hc
    rw [hr]
    exact Option.some_ne_none r
  have hspared : ∀ c, s.node.tables.ready c = none → s.Spared c → s.lost c = false ∧
      ∀ d, Function.update s.taken s.node.nextDisconnect (s.node.tables.peerConnections p) d ≠
        some c := by
    intro c hnone hs
    refine ⟨hs.1, fun d hd => ?_⟩
    by_cases hdn : d = s.node.nextDisconnect
    · rw [hdn, Function.update_self] at hd
      exact hready c hd hnone
    · rw [Function.update_of_ne hdn] at hd
      exact hs.2 d hd
  have htaken : ∀ d c, Function.update s.taken s.node.nextDisconnect
      (s.node.tables.peerConnections p) d = some c →
        d = s.node.nextDisconnect ∧ s.node.tables.peerConnections p = some c ∨
          d ≠ s.node.nextDisconnect ∧ s.taken d = some c := by
    intro d c hd
    by_cases hdn : d = s.node.nextDisconnect
    · rw [hdn, Function.update_self] at hd
      exact Or.inl ⟨hdn, hd⟩
    · rw [Function.update_of_ne hdn] at hd
      exact Or.inr ⟨hdn, hd⟩
  have hnever : ∀ c, s.node.tables.peerConnections p = some c →
      .disconnected c true ∉ s.events := by
    intro c hc he
    obtain ⟨d, hd⟩ := h.explicit c he
    exact hready c hc (h.taken d c hd).2.1
  constructor
  case sound => exact hsettles.sound h.sound
  case flights => exact h.flights.disconnect p
  case past => exact fun c hc => hsettles.past.2 (h.past c hc)
  case ready => exact fun c hc => h.ready c fun hnone => hc (hsettles.ready_eq_none hnone)
  case once => exact h.once
  case lost =>
    intro c hc
    obtain ⟨hnone, hpast, hfree⟩ := h.lost c hc
    refine ⟨hsettles.ready_eq_none hnone, hsettles.past.2 hpast, fun d hd => ?_⟩
    rcases htaken d c hd with ⟨-, hp⟩ | ⟨-, hd⟩
    · exact hready c hp hnone
    · exact hfree d hd
  case reading => exact fun c session hc => h.reading c session (hsettles.readers ▸ hc)
  case ending =>
    intro c session hc
    have hold : s.node.readers c = .ending session := hsettles.readers ▸ hc
    obtain ⟨hconnected, hs⟩ := h.ending c session hold
    exact ⟨hconnected, fun hw => hspared c (h.ready_eq_none (by rw [hold]; rfl)) (hs hw)⟩
  case report =>
    intro c hc
    obtain ⟨hclosing, hconnected, hs⟩ := h.report c hc
    refine ⟨hsettles.readers ▸ hclosing, hconnected, fun hg => ?_⟩
    exact hspared c (h.ready_eq_none (by rw [hclosing]; rfl)) (hs hg)
  case unused =>
    intro d hd
    have hlt : s.node.nextDisconnect < d := by
      have hle : s.node.nextDisconnect + 1 ≤ d := hnext ▸ hd
      omega
    obtain ⟨hnone, habsent⟩ := h.unused d hlt.le
    exact ⟨(Function.update_of_ne hlt.ne' _ _).trans hnone, (hothers d hlt.ne').trans habsent⟩
  case taken =>
    intro d c hd
    rcases htaken d c hd with ⟨rfl, hc⟩ | ⟨hdn, hd⟩
    · obtain ⟨hpc, htables⟩ := hnew c hc
      refine ⟨h.ready c (hready c hc), ?_, Or.inl ⟨p, hpc⟩⟩
      rw [htables]
      exact SessionTables.deactivateSession_ready_self
    · obtain ⟨hconnected, hnone, hcall⟩ := h.taken d c hd
      refine ⟨hconnected, hsettles.ready_eq_none hnone, hcall.imp_left fun hp => ?_⟩
      rw [hothers d hdn]
      exact hp
  case takenOnce =>
    intro d e c hd he
    rcases htaken d c hd with ⟨rfl, hc⟩ | ⟨-, hd⟩
    · rcases htaken e c he with ⟨rfl, -⟩ | ⟨-, he⟩
      · rfl
      · exact absurd (h.taken e c he).2.1 (hready c hc)
    · rcases htaken e c he with ⟨rfl, hc⟩ | ⟨-, he⟩
      · exact absurd (h.taken d c hd).2.1 (hready c hc)
      · exact h.takenOnce d e c hd he
  case pending =>
    intro d c q hd hq
    rcases htaken d c hd with ⟨-, hc⟩ | ⟨hdn, hd⟩
    · exact hnever c hc
    · exact h.pending d c q hd ((hothers d hdn).symm.trans hq)
  case explicit =>
    intro c hc
    obtain ⟨d, hd⟩ := h.explicit c hc
    refine ⟨d, ?_⟩
    have hdn : d ≠ s.node.nextDisconnect := by
      rintro rfl
      rw [(h.unused _ le_rfl).1] at hd
      cases hd
    exact (Function.update_of_ne hdn _ _).trans hd
  case explicitOnce => exact h.explicitOnce
  case implicit =>
    intro c hc
    obtain ⟨hended, hconnected, hs⟩ := h.implicit c hc
    refine ⟨hsettles.readers ▸ hended, hconnected, fun hg => ?_⟩
    exact hspared c (h.ready_eq_none (by rw [hended]; rfl)) (hs hg)
  case implicitOnce => exact h.implicitOnce

/-- A call that goes on has left the place before its event. -/
theorem resumeDisconnect_calls {s : Node F}
    (ht : Sessions.step peerId s (.resumeDisconnect d) = some t) :
    t.nextDisconnect = s.nextDisconnect ∧ (∀ e, e ≠ d → t.disconnects e = s.disconnects e) ∧
      (∀ p, t.disconnects d ≠ .retiring p) ∧ t.disconnects d ≠ .absent ∧
      s.disconnects d ≠ .absent := by
  have hset : ∀ {u : Node F} {pc : DisconnectPc}, s.SameCalls u → (∀ p, pc ≠ .retiring p) →
      pc ≠ .absent → s.disconnects d ≠ .absent →
      (u.setDisconnect d pc).nextDisconnect = s.nextDisconnect ∧
        (∀ e, e ≠ d → (u.setDisconnect d pc).disconnects e = s.disconnects e) ∧
        (∀ p, (u.setDisconnect d pc).disconnects d ≠ .retiring p) ∧
        (u.setDisconnect d pc).disconnects d ≠ .absent ∧ s.disconnects d ≠ .absent := by
    intro u pc hu hretiring habsent hd
    refine ⟨hu.2, fun e he => ?_, fun p => ?_, ?_, hd⟩
    · simpa [Node.setDisconnect, he] using congrFun hu.1 e
    · simpa [Node.setDisconnect] using hretiring p
    · simpa [Node.setDisconnect] using habsent
  simp only [Sessions.step] at ht
  split at ht
  · rename_i p hd
    have hclose := s.sameCalls_closePeer false p
    have hpc : s.disconnects d ≠ .absent := by
      rw [hd]
      rintro ⟨⟩
    split at ht <;> rename_i heq <;> cases ht <;> rw [heq] at hclose
    · exact hset hclose (fun _ => by rintro ⟨⟩) (by rintro ⟨⟩) hpc
    · exact hset hclose (fun _ => by rintro ⟨⟩) (by rintro ⟨⟩) hpc
  · rename_i closer hd
    have hpc : s.disconnects d ≠ .absent := by
      rw [hd]
      rintro ⟨⟩
    obtain ⟨⟨u, pc⟩, hu, ht⟩ := Option.map_eq_some_iff.1 ht
    have hclose : s.SameCalls u := Node.sameCalls_resumeClosePeer hu
    cases pc with
    | none =>
        subst ht
        exact hset hclose (fun _ => by rintro ⟨⟩) (by rintro ⟨⟩) hpc
    | some closer =>
        subst ht
        exact hset hclose (fun _ => by rintro ⟨⟩) (by rintro ⟨⟩) hpc
  · cases ht

/-- A call of `disconnect` that goes on reports the connection it has taken. -/
theorem resumeDisconnect_eq (s : Observed F) (d : ℕ) : ∃ o : Option ℕ,
    s.resumeDisconnect d =
        { s with events := s.events ++ (o.map (Event.disconnected · true)).toList } ∧
      (∀ c, o = some c → s.taken d = some c ∧ ∃ p, s.node.disconnects d = .retiring p) ∧
      ∀ p c, s.node.disconnects d = .retiring p → s.taken d = some c → o = some c := by
  unfold resumeDisconnect
  split
  · rename_i p hd
    exact ⟨s.taken d, rfl, fun c hc => ⟨hc, p, hd⟩, fun _ c _ hc => hc⟩
  · rename_i hnot
    refine ⟨none, by simp, fun c hc => ?_, fun p c hp _ => absurd hp (hnot p)⟩
    cases hc

/-- A call of `disconnect` goes on. -/
theorem Inv.resumeDisconnect (h : s.Inv Guarded)
    (ht : Sessions.step peerId s.node (.resumeDisconnect d) = some t) :
    Inv Guarded { s.resumeDisconnect d with node := t } := by
  have hsettles := Node.settles_resumeDisconnect ht
  obtain ⟨hnext, hothers, hgone, hpresent, hpresent'⟩ := resumeDisconnect_calls ht
  obtain ⟨o, heq, htold, htells⟩ := s.resumeDisconnect_eq d
  have hmem : ∀ e, e ∈ s.events ++ (o.map (Event.disconnected · true)).toList ↔
      e ∈ s.events ∨ ∃ c, o = some c ∧ e = .disconnected c true := by
    intro e
    cases o with
    | none => simp
    | some c => simp
  have hkeep : ∀ {e}, e ∈ s.events → e ∈ s.events ++ (o.map (Event.disconnected · true)).toList :=
    fun he => List.mem_append_left _ he
  have hconnected : ∀ c, .connected c ∈ s.events ++ (o.map (Event.disconnected · true)).toList →
      .connected c ∈ s.events := by
    intro c hc
    rcases (hmem _).1 hc with hc | ⟨_, -, hc⟩
    · exact hc
    · cases hc
  rw [heq]
  constructor
  case sound => exact hsettles.sound h.sound
  case flights => exact h.flights.resumeDisconnect ht
  case past => exact fun c hc => hsettles.past.2 (h.past c (hconnected c hc))
  case ready => exact fun c hc => hkeep (h.ready c fun hnone => hc (hsettles.ready_eq_none hnone))
  case once =>
    intro c
    have honce := h.once c
    cases o with
    | none => simpa using honce
    | some x => simpa using honce
  case lost =>
    intro c hc
    obtain ⟨hnone, hpast, hfree⟩ := h.lost c hc
    exact ⟨hsettles.ready_eq_none hnone, hsettles.past.2 hpast, hfree⟩
  case reading => exact fun c session hc => hkeep (h.reading c session (hsettles.readers ▸ hc))
  case ending =>
    intro c session hc
    obtain ⟨hcon, hs⟩ := h.ending c session (hsettles.readers ▸ hc)
    exact ⟨hkeep hcon, hs⟩
  case report =>
    intro c hc
    obtain ⟨hclosing, hcon, hs⟩ := h.report c hc
    exact ⟨hsettles.readers ▸ hclosing, hkeep hcon, hs⟩
  case unused =>
    intro e he
    obtain ⟨hnone, habsent⟩ := h.unused e (hnext ▸ he)
    have hed : e ≠ d := by
      rintro rfl
      exact hpresent' habsent
    exact ⟨hnone, (hothers e hed).trans habsent⟩
  case taken =>
    intro e c he
    obtain ⟨hcon, hnone, hcall⟩ := h.taken e c he
    refine ⟨hkeep hcon, hsettles.ready_eq_none hnone, ?_⟩
    by_cases hed : e = d
    · rcases hcall with ⟨p, hp⟩ | hin
      · have ho : o = some c := htells p c (hed ▸ hp) (hed ▸ he)
        exact Or.inr ((hmem _).2 (Or.inr ⟨c, ho, rfl⟩))
      · exact Or.inr (hkeep hin)
    · rcases hcall with ⟨p, hp⟩ | hin
      · exact Or.inl ⟨p, (hothers e hed).trans hp⟩
      · exact Or.inr (hkeep hin)
  case takenOnce => exact h.takenOnce
  case pending =>
    intro e c p he hp hin
    have hed : e ≠ d := by
      rintro rfl
      exact hgone p hp
    rcases (hmem _).1 hin with hin | ⟨x, ho, hx⟩
    · exact h.pending e c p he ((hothers e hed).symm.trans hp) hin
    · cases hx
      exact hed (h.takenOnce e d c he (htold c ho).1)
  case explicit =>
    intro c hin
    rcases (hmem _).1 hin with hin | ⟨x, ho, hx⟩
    · exact h.explicit c hin
    · cases hx
      exact ⟨d, (htold c ho).1⟩
  case explicitOnce =>
    intro c
    rw [List.count_append]
    have honce := h.explicitOnce c
    cases ho : o with
    | none => simpa using honce
    | some x =>
        by_cases hxc : x = c
        · obtain ⟨htaken, p, hp⟩ := htold x ho
          rw [hxc] at htaken
          rw [List.count_eq_zero.2 (h.pending d c p htaken hp)]
          simp [hxc]
        · simpa [hxc] using honce
  case implicit =>
    intro c hin
    rcases (hmem _).1 hin with hin | ⟨_, -, hx⟩
    · obtain ⟨hended, hcon, hs⟩ := h.implicit c hin
      exact ⟨hsettles.readers ▸ hended, hkeep hcon, hs⟩
    · cases hx
  case implicitOnce =>
    intro c
    have honce := h.implicitOnce c
    cases o with
    | none => simpa using honce
    | some x => simpa using honce

/-! ## Every step -/

/-- A step that observes nothing, or a selection. -/
theorem Inv.chooses (h : s.Inv Guarded) {l : Label F} (hchooses : Node.Chooses peerId s.node l t)
    (hcalls : s.node.SameCalls t) (hsound : t.Sound none ∧ t.Flights) :
    Inv Guarded { s.select peerId l with node := t } := by
  refine h.bystands hchooses.bystands hcalls hsound.1 hsound.2 hchooses.fresh fun c hc => ?_
  have hl : s.lost c = true ∨
      ((selection peerId s.node l).bind fun r => r.2.loser) = some c := by
    simpa [select] using hc
  exact hl.imp_right (hchooses.loser c)

/-- A step that reports nothing. -/
theorem Inv.silent (h : s.Inv Guarded) (ht : Node.Bystands none s.node t)
    (hcalls : s.node.SameCalls t) (hsound : t.Sound none ∧ t.Flights) :
    Inv Guarded { s with node := t } := by
  have hlost : ∀ c, s.lost c = true →
      s.lost c = true ∨ (s.node.tables.ready c ≠ none ∨ ¬ s.node.Past c) ∧
        t.tables.ready c = none ∧ t.Past c := fun c => Or.inl
  have hkept := h.bystands ht hcalls hsound.1 hsound.2 (fun c hc => by cases hc) hlost
  simpa using hkept

/-- **One step keeps the events and the places in agreement.** -/
theorem Inv.step {u : Observed F} {l : Label F} (h : s.Inv Guarded)
    (hG : Guarded → ¬ s.Misreports l) (hu : (observedSystem F peerId).step s l = some u) :
    u.Inv Guarded := by
  obtain ⟨t, ht, rfl⟩ := Option.map_eq_some_iff.1 hu
  have hsound := sound_step h.sound h.flights ht
  have hsilent : l.isSilent = true → Inv Guarded { s with node := t } := by
    intro hl
    have hdisconnect : l.isDisconnect = false := by
      cases l <;> first
        | rfl
        | cases hl
    exact h.silent (bystands_step h.sound hl ht) (sameCalls_step hdisconnect ht) hsound
  cases l with
  | attemptNegotiated a session =>
      have hcalls : s.node.SameCalls t := sameCalls_step rfl ht
      refine h.chooses ?_ hcalls hsound
      simp only [Sessions.step] at ht
      split at ht
      · rename_i p ha
        split at ht <;> cases ht
        rename_i hcond
        exact Node.chooses_attemptNegotiated h.sound ha hcond.1
      · cases ht
  | incomingNegotiated c session =>
      have hcalls : s.node.SameCalls t := sameCalls_step rfl ht
      refine h.chooses ?_ hcalls hsound
      simp only [Sessions.step] at ht
      split at ht <;> cases ht
      exact Node.chooses_incomingNegotiated h.sound ‹_›
  | readerEnds c => exact h.readerEnds ht
  | resumeReader c =>
      by_cases hincoming : (s.node.readers c).isIncoming = true
      · have hsame : s.resumeEnd c = s := by
          unfold resumeEnd
          split
          · rename_i heq
            rw [heq] at hincoming
            cases hincoming
          · rename_i heq
            rw [heq] at hincoming
            cases hincoming
          · rfl
        have hobserve : s.observe peerId (.resumeReader c) = s := hsame
        rw [hobserve]
        exact h.silent (Node.bystands_resumeReader h.sound hincoming ht) (sameCalls_step rfl ht)
          hsound
      · cases hc : s.node.readers c with
        | ending session => exact h.connectionLost hc hG ht
        | closing => exact h.ended hc ht
        | absent | reading _ | ended =>
            simp only [Sessions.step, hc] at ht
            cases ht
        | negotiating | retiring _ _ | closingLoser _ _ | retiringPrevious _ _
          | closingPrevious _ =>
            rw [hc] at hincoming
            exact absurd rfl hincoming
  | disconnect p =>
      cases ht
      exact h.disconnect p
  | resumeDisconnect d => exact h.resumeDisconnect ht
  | accept c => exact hsilent rfl
  | connect p a => exact hsilent rfl
  | opened a => exact hsilent rfl
  | attemptFails a => exact hsilent rfl
  | attemptCancelled a => exact hsilent rfl
  | resumeAttempt a => exact hsilent rfl
  | incomingFails c => exact hsilent rfl
  | resumeCaller k => exact hsilent rfl
  | cancelCaller k => exact hsilent rfl
  | connectionState p => exact hsilent rfl
  | close c => exact hsilent rfl

end Observed

/-! ## Runs -/

variable {s t : Observed F}

/-- **What holds in every run.** -/
theorem inv_of_reachable (h : Reachable (observedSystem F peerId) s) : s.Inv False := by
  refine Reachable.invariant (I := Observed.Inv False) ?_ ?_ h
  · rintro _ rfl
    exact Observed.inv_initial
  · exact fun s l u hs hu => hs.step (fun hf => hf.elim) hu

/-- **What holds in the runs that meet the condition.** -/
theorem inv_of_reachableWhen
    (h : ReachableWhen (observedSystem F peerId) (fun s l => ¬ s.Misreports l) s) :
    s.Inv True := by
  refine ReachableWhen.invariant (I := Observed.Inv True) ?_ ?_ h
  · rintro _ rfl
    exact Observed.inv_initial
  · exact fun s l u hs hl hu => hs.step (fun _ => hl) hu

/-- The `DISCONNECTED` events of a connection. -/
def Observed.reports (s : Observed F) (c : ℕ) : ℕ :=
  s.events.count (.disconnected c true) + s.events.count (.disconnected c false)

/-- A connection is reported at most once. -/
theorem reports_le_one (h : s.Inv True) (c : ℕ) : s.reports c ≤ 1 := by
  have hexplicit := h.explicitOnce c
  have himplicit := h.implicitOnce c
  unfold Observed.reports
  by_cases hin : .disconnected c false ∈ s.events
  · have hnot : .disconnected c true ∉ s.events := by
      intro he
      obtain ⟨d, hd⟩ := h.explicit c he
      exact ((h.implicit c hin).2.2 trivial).2 d hd
    rw [List.count_eq_zero.2 hnot]
    omega
  · rw [List.count_eq_zero.2 hin]
    omega

/-- One that has lost is not reported. -/
theorem not_mem_of_lost (h : s.Inv True) {c : ℕ} (hc : s.lost c = true) (b : Bool) :
    .disconnected c b ∉ s.events := by
  intro hin
  cases b with
  | false =>
      have hs := ((h.implicit c hin).2.2 trivial).1
      rw [hc] at hs
      cases hs
  | true =>
      obtain ⟨d, hd⟩ := h.explicit c hin
      exact (h.lost c hc).2.2 d hd

/-- What was reported as disconnected was connected. -/
theorem connected_of_disconnected {Guarded : Prop} (h : s.Inv Guarded) {c : ℕ} {b : Bool}
    (hin : .disconnected c b ∈ s.events) : .connected c ∈ s.events := by
  cases b with
  | false => exact (h.implicit c hin).2.1
  | true =>
      obtain ⟨d, hd⟩ := h.explicit c hin
      exact (h.taken d c hd).1

/-- The two steps after one that misreports: the reader reports, and so does the call that has
taken the session. -/
theorem reports_of_misreports {l : Label F} (h : Reachable (observedSystem F peerId) s)
    (hl : s.Misreports l) (ht : (observedSystem F peerId).step s l = some t) :
    ∃ u, Reachable ((observedSystem F peerId).startingAt t) u ∧ ∃ c, 2 ≤ u.reports c ∨
      u.lost c = true ∧ .disconnected c false ∈ u.events := by
  obtain ⟨c, session, rfl, hc, hmanager, hwhy⟩ := hl
  have hinv := inv_of_reachable h
  have hreach : Reachable ((observedSystem F peerId).startingAt t) t := .init rfl
  obtain ⟨n, hn, rfl⟩ := Option.map_eq_some_iff.1 ht
  have hcalls : s.node.SameCalls n := sameCalls_step rfl hn
  have hclosing : n.readers c = .closing := by
    simp only [step, hc] at hn
    cases hn
    exact Node.setReader_self
  have hreport : (s.wasCanonical c || decide (s.node.manager session.peerId = some c)) = true := by
    simp [hmanager]
  have hobserve : s.observe peerId (.resumeReader c) =
      { s with report := Function.update s.report c true } := by
    simp only [Observed.observe, Observed.resumeEnd, hc, hreport]
  dsimp only at hreach ⊢
  rw [hobserve] at hreach ⊢
  -- the event of the reader
  have hnext : (observedSystem F peerId).step
      { s with node := n, report := Function.update s.report c true } (.resumeReader c) =
        some { s with
          node := n.setReader c .ended
          report := Function.update (Function.update s.report c true) c false
          events := s.events ++ [.disconnected c false] } := by
    simp only [observedSystem, step, hclosing, Option.map_some, Observed.observe,
      Observed.resumeEnd, Function.update_self, if_true]
  have hreach' := hreach.next _ hnext
  rcases hwhy with hlost | ⟨d, hd⟩
  · exact ⟨_, hreach', c, Or.inr ⟨hlost, by simp⟩⟩
  · have hcount : 1 ≤ (s.events ++ [Event.disconnected c false]).count (Event.disconnected c false) := by
      simp
    rcases (hinv.taken d c hd).2.2 with ⟨p, hp⟩ | hin
    · -- the event of `disconnect`
      have hpc : (n.setReader c .ended).disconnects d = .retiring p := by
        rw [← hp, ← hcalls.1]
        rfl
      obtain ⟨m, hm⟩ : ∃ m, step peerId (n.setReader c .ended) (.resumeDisconnect d) = some m := by
        simp only [step, hpc]
        split
        · exact ⟨_, rfl⟩
        · exact ⟨_, rfl⟩
      have hlast : (observedSystem F peerId).step
          { s with
            node := n.setReader c .ended
            report := Function.update (Function.update s.report c true) c false
            events := s.events ++ [.disconnected c false] } (.resumeDisconnect d) =
          some { s with
            node := m
            report := Function.update (Function.update s.report c true) c false
            events := s.events ++ [.disconnected c false] ++ [.disconnected c true] } := by
        simp only [observedSystem, hm, Option.map_some, Observed.observe,
          Observed.resumeDisconnect, hpc, hd, Option.toList_some]
      refine ⟨_, hreach'.next _ hlast, c, Or.inl ?_⟩
      simp only [Observed.reports, List.count_append, List.count_singleton_self]
      omega
    · refine ⟨_, hreach', c, Or.inl ?_⟩
      have hpos : 1 ≤ s.events.count (.disconnected c true) := List.one_le_count_iff.2 hin
      simp only [Observed.reports, List.count_append, List.count_singleton_self]
      omega

/-- **At most one `DISCONNECTED` event a session.**  In every run a connection has at most one
`CONNECTED` event, and no `DISCONNECTED` event before it.  Where no reader finds its connection
in the manager after `disconnect` has taken its session or another connection has replaced it,
**it has at most one `DISCONNECTED` event, and none if it has lost**; after such a step the run
can go on to two, or to one of a connection that has lost. -/
theorem session_events (F : Type) (peerId : Str) :
    (∀ s : Observed F, Reachable (observedSystem F peerId) s → ∀ c,
        s.events.count (.connected c) ≤ 1 ∧
          ∀ b, .disconnected c b ∈ s.events → .connected c ∈ s.events) ∧
      (∀ s : Observed F, ReachableWhen (observedSystem F peerId) (fun s l => ¬ s.Misreports l) s →
        ∀ c, s.reports c ≤ 1 ∧ (s.lost c = true → ∀ b, .disconnected c b ∉ s.events)) ∧
      ∀ (s t : Observed F) l, Reachable (observedSystem F peerId) s → s.Misreports l →
        (observedSystem F peerId).step s l = some t →
        ∃ u, Reachable ((observedSystem F peerId).startingAt t) u ∧ ∃ c, 2 ≤ u.reports c ∨
          u.lost c = true ∧ .disconnected c false ∈ u.events := by
  refine ⟨fun s h c => ?_, fun s h c => ?_, fun s t l h hl ht => reports_of_misreports h hl ht⟩
  · have hinv := inv_of_reachable h
    exact ⟨hinv.once c, fun b hb => connected_of_disconnected hinv hb⟩
  · have hinv := inv_of_reachableWhen h
    exact ⟨reports_le_one hinv c, fun hc b => not_mem_of_lost hinv hc b⟩

/-- A session of the node `b` with `a`. -/
def sessionWithA : ProtocolSession Unit where
  peerId := ofChars ['a']
  version := 1
  serializerId := ofChars ['j']
  capabilities := []
  maxMessageSize := 1
  peerIdAuthenticated := false
  metadata := []

/-- `b` connects to `a`, and its caller starts the reader. -/
def connectA : List (Label Unit) :=
  [.connect (ofChars ['a']) 0, .opened 0, .attemptNegotiated 0 sessionWithA, .resumeCaller 0]

/-- Nothing was taken and nothing has lost. -/
theorem not_misreports {s : Observed F} (l : Label F) (hlost : ∀ c, s.lost c = false)
    (htaken : ∀ d, s.taken d = none) : ¬ s.Misreports l := by
  rintro ⟨c, -, -, -, -, hc | ⟨d, hd⟩⟩
  · rw [hlost c] at hc
    cases hc
  · rw [htaken d] at hd
    cases hd

/-- The remote end closes, and the reader reports it, once. -/
theorem session_events_sample : ∃ s : Observed Unit,
    .disconnected 0 false ∈ s.events ∧ .connected 0 ∈ s.events ∧
      s.events.count (.connected 0) ≤ 1 ∧ s.reports 0 ≤ 1 := by
  have hinit : ReachableWhen (observedSystem Unit (ofChars ['b'])) (fun s l => ¬ s.Misreports l)
      Observed.initial := .init rfl
  have hopened := hinit.step (.connect (ofChars ['a']) 0) (not_misreports _ (fun _ => rfl) fun _ => rfl) rfl
    |>.step (.opened 0) (not_misreports _ (fun _ => rfl) fun _ => rfl) rfl
    |>.step (.attemptNegotiated 0 sessionWithA) (not_misreports _ (fun _ => rfl) fun _ => rfl) rfl
    |>.step (.resumeCaller 0) (not_misreports _ (fun _ => rfl) fun _ => rfl) rfl
  have hended := hopened.step (.readerEnds 0) (not_misreports _ (fun _ => rfl) fun _ => rfl) rfl
    |>.step (.resumeReader 0) (not_misreports _ (fun _ => rfl) fun _ => rfl) rfl
    |>.step (.resumeReader 0) (not_misreports _ (fun _ => rfl) fun _ => rfl) rfl
  have hrun := (session_events Unit (ofChars ['b'])).1 _ hended.reachable 0
  exact ⟨_, by decide, hrun.2 false (by decide), hrun.1,
    ((session_events Unit (ofChars ['b'])).2.1 _ hended 0).1⟩

/-- The remote end closes while `disconnect` stops the writer; and an inbound connection replaces
the one that was opened, the reader of which ends before `adopt`. -/
theorem not_session_events :
    (¬ ∀ s, Reachable (observedSystem Unit (ofChars ['b'])) s → ∀ c, s.reports c ≤ 1) ∧
      ¬ ∀ s, Reachable (observedSystem Unit (ofChars ['b'])) s → ∀ c, s.lost c = true →
        ∀ b, .disconnected c b ∉ s.events := by
  constructor
  · intro h
    exact absurd (h _ (reachable_of_exec rfl (connectA ++ [.disconnect (ofChars ['a']), .readerEnds 0,
      .resumeReader 0, .resumeReader 0, .resumeDisconnect 0]) rfl) 0) (by decide)
  · intro h
    exact h _ (reachable_of_exec rfl (connectA ++ [.accept 1, .incomingNegotiated 1 sessionWithA,
      .resumeReader 1, .readerEnds 0, .resumeReader 0, .resumeReader 0]) rfl) 0 rfl false (by decide)

end Sessions
end Core
end Paqto
