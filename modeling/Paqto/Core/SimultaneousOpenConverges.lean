/-
# Simultaneous open converges

A state with no step left is the wanted one (`simultaneous_open_converges`), in every run in
which X does not overtake the caller of `b`: its attempt has returned Y, the hello on X
completes, Y loses, and only then does the caller resume.  It finds no session, closes what
the manager has of the peer and raises; from there on no state is the wanted one.
-/

import Paqto.Core.SimultaneousOpenSteps

namespace Paqto
namespace Core

open Transition Python SessionTables

namespace Sessions

variable {F : Type}

namespace SimultaneousOpen
namespace Pair

variable {P : Pair F} {s t : State F}

/-! ## The invariant -/

/-- Each node is in one of its phases. -/
structure Inv (P : Pair F) (s : State F) : Prop where
  a : InvA (P.peerId .a) (P.peerId .b) (P.connection .a) (P.connection .b) (P.caller .a) (s .a)
  b : InvB (P.peerId .b) (P.peerId .a) (P.connection .a) (P.connection .b) (P.caller .b) (s .b)

/-- A prefers the connection that it opens. -/
theorem outbound (P : Pair F) : preferredDirection (P.peerId .a) (P.peerId .b) = .outbound :=
  if_pos P.lt

/-- B prefers the one that it accepts: the same. -/
theorem inbound (P : Pair F) : preferredDirection (P.peerId .b) (P.peerId .a) = .inbound :=
  if_neg (List.lt_asymm P.lt)

/-- The two peers have different ids. -/
theorem peerId_ne (P : Pair F) : P.peerId .a ≠ P.peerId .b := by
  intro heq
  have hlt := P.lt
  rw [heq] at hlt
  exact List.lt_irrefl _ hlt

/-- A step of the pair is a step of one node. -/
theorem node_step {e : Side} {event : Event} (hs : P.step s (e, event) = some t) :
    ∃ l u, P.label s e event = some l ∧ Sessions.step (P.peerId e) (s e) l = some u ∧
      t = Function.update s e u := by
  obtain ⟨l, hl, hs⟩ := Option.bind_eq_some_iff.1 hs
  obtain ⟨u, hu, rfl⟩ := Option.map_eq_some_iff.1 hs
  exact ⟨l, u, hl, hu, rfl⟩

/-- What a node is when it has called `connect()`. -/
theorem shows_of_started {e : Side} {u v : Node F} {x y : ℕ}
    (hu : Reachable (Sessions.system F (P.peerId e)) u) (hnew : P.Unconnected u e)
    (hx : ∃ c, x = P.connection c) (hy : ∃ c, y = P.connection c)
    (hs : Sessions.step (P.peerId e) u (.connect (P.peerId e.other) (P.connection e)) = some v) :
    Shows (P.peerId e) (P.peerId e.other) x y (P.connection e) (P.caller e) v
      ⟨.connecting (P.peerId e.other), .waiting (P.peerId e.other) (P.connection e), .absent,
        .absent, none, none, false⟩ := by
  obtain ⟨hsound, -⟩ := sound_of_reachable hu
  obtain ⟨cx, rfl⟩ := hx
  obtain ⟨cy, rfl⟩ := hy
  simp only [Sessions.step, Node.connect, Node.connectionForPeer, hnew.peerConnections,
    Option.filter_none, hnew.closingPeers, Bool.false_eq_true, if_false, hnew.manager,
    Node.joinAttempt, Node.forgetClosed, hnew.inFlight, hnew.attempts, hnew.readers,
    Option.some.injEq] at hs
  subst hs
  exact {
    tables := hsound.tables
    winner := fun r hr => by
      cases (hnew.ready cx).symm.trans hr
    loser := fun r hr => by
      cases (hnew.ready cy).symm.trans hr
    canonical := fun c hc => by
      cases hnew.peerConnections.symm.trans hc
    isOpen := hnew.isClosed cx
    closingPeers := hnew.closingPeers
    cancelled := ⟨hnew.cancelled cx, hnew.cancelled cy⟩
    attempt := Function.update_self ..
    caller := by
      rw [← hnew.caller]
      exact Function.update_self ..
    readerX := hnew.readers cx
    readerY := hnew.readers cy
    canonicalIs := hnew.peerConnections
    manager := hnew.manager
    closed := hnew.isClosed cy
    unopened := fun c hc hne => by
      refine (Function.update_of_ne hne ..).trans ?_
      obtain rfl | rfl := hc
      · exact hnew.attempts cx
      · exact hnew.attempts cy }

/-- The invariant holds at the beginning. -/
theorem inv_of_started (h : P.Started s) : P.Inv s := by
  refine ⟨?_, ?_⟩
  · obtain ⟨u, hu, hnew, hs⟩ := h .a
    exact ⟨_, shows_of_started hu hnew ⟨.a, rfl⟩ ⟨.b, rfl⟩ hs, Or.inl rfl,
      @PhaseA.opening F _ _ _ _ .absent none false (Or.inl rfl) (Or.inl rfl)⟩
  · obtain ⟨u, hu, hnew, hs⟩ := h .b
    exact ⟨_, shows_of_started hu hnew ⟨.a, rfl⟩ ⟨.b, rfl⟩ hs, .opening (Or.inl rfl) (Or.inl rfl)⟩

/-- The winner is open at both ends. -/
theorem Inv.isOpen (h : P.Inv s) (e : Side) : (s e).isClosed (P.connection .a) = false := by
  cases e with
  | a =>
      obtain ⟨v, hv, -⟩ := h.a
      exact hv.isOpen
  | b =>
      obtain ⟨v, hv, -⟩ := h.b
      exact hv.isOpen

/-- No attempt is cancelled. -/
theorem Inv.not_cancelled (h : P.Inv s) (e : Side) :
    (s e).cancelled (P.connection e) = false := by
  cases e with
  | a =>
      obtain ⟨v, hv, -⟩ := h.a
      exact hv.cancelled.1
  | b =>
      obtain ⟨v, hv, -⟩ := h.b
      exact hv.cancelled.2

/-- A step of A. -/
theorem Inv.invA {event : Event} {l : Label F} {u : Node F} (h : P.Inv s)
    (hl : P.label s .a event = some l) (hu : Sessions.step (P.peerId .a) (s .a) l = some u) :
    InvA (P.peerId .a) (P.peerId .b) (P.connection .a) (P.connection .b) (P.caller .a) u := by
  have hxy := P.distinct
  have hme := P.peerId_ne.symm
  cases event with
  | opened =>
      cases hl
      exact h.a.opened hu
  | accept =>
      cases hl
      exact h.a.accept hxy hu
  | attemptNegotiated =>
      obtain ⟨-, ⟨⟩⟩ := Option.ite_none_left_eq_some.1 hl
      exact h.a.attemptNegotiated hme hxy P.outbound hu
  | attemptCancelled =>
      cases hl
      simp [Sessions.step, h.not_cancelled .a] at hu
  | resumeAttempt =>
      cases hl
      exact h.a.resumeAttempt hxy hu
  | incomingNegotiated =>
      obtain ⟨-, ⟨⟩⟩ := Option.ite_none_left_eq_some.1 hl
      exact h.a.incomingNegotiated hme hxy P.outbound (P.session_peerId .a .b) hu
  | resumeReader c =>
      cases hl
      refine h.a.resumeReader hxy ?_ hu
      cases c with
      | a => exact Or.inl rfl
      | b => exact Or.inr rfl
  | readerEnds c =>
      obtain ⟨hclosed, ⟨⟩⟩ := Option.ite_none_right_eq_some.1 hl
      cases c with
      | a => simp [h.isOpen] at hclosed
      | b => exact h.a.readerEnds hxy hu
  | resumeCaller =>
      cases hl
      exact h.a.resumeCaller hxy hu
  | remoteClosed c =>
      obtain ⟨hclosed, ⟨⟩⟩ := Option.ite_none_right_eq_some.1 hl
      cases c with
      | a => simp [h.isOpen] at hclosed
      | b =>
          cases hu
          exact h.a.close hxy

/-- A step of B, in which the resumption does not overtake the hello. -/
theorem Inv.invB {event : Event} {l : Label F} {u : Node F} (h : P.Inv s)
    (hguard : ¬ P.Overtakes s (.b, event)) (hl : P.label s .b event = some l)
    (hu : Sessions.step (P.peerId .b) (s .b) l = some u) :
    InvB (P.peerId .b) (P.peerId .a) (P.connection .a) (P.connection .b) (P.caller .b) u := by
  have hxy := P.distinct
  have hme := P.peerId_ne
  cases event with
  | opened =>
      cases hl
      exact h.b.opened hu
  | accept =>
      cases hl
      exact h.b.accept hxy hu
  | attemptNegotiated =>
      obtain ⟨-, ⟨⟩⟩ := Option.ite_none_left_eq_some.1 hl
      exact h.b.attemptNegotiated hme hxy P.inbound hu
  | attemptCancelled =>
      cases hl
      simp [Sessions.step, h.not_cancelled .b] at hu
  | resumeAttempt =>
      cases hl
      exact h.b.resumeAttempt hu
  | incomingNegotiated =>
      obtain ⟨-, ⟨⟩⟩ := Option.ite_none_left_eq_some.1 hl
      exact h.b.incomingNegotiated hme hxy P.inbound (P.session_peerId .b .a)
        (fun hboth => hguard ⟨rfl, hboth.1, hboth.2⟩) hu
  | resumeReader c =>
      cases hl
      cases c with
      | a => exact h.b.resumeReaderX hxy hu
      | b => exact h.b.resumeReaderY hxy hu
  | readerEnds c =>
      obtain ⟨hclosed, ⟨⟩⟩ := Option.ite_none_right_eq_some.1 hl
      cases c with
      | a => simp [h.isOpen] at hclosed
      | b => exact h.b.readerEnds hxy hu
  | resumeCaller =>
      cases hl
      exact h.b.resumeCaller hxy hu
  | remoteClosed c =>
      obtain ⟨hclosed, ⟨⟩⟩ := Option.ite_none_right_eq_some.1 hl
      cases c with
      | a => simp [h.isOpen] at hclosed
      | b =>
          cases hu
          exact h.b.close hxy

/-- **Every step keeps the invariant**, unless it overtakes. -/
theorem inv_step {l : Side × Event} (h : P.Inv s) (hguard : ¬ P.Overtakes s l)
    (hs : P.step s l = some t) : P.Inv t := by
  obtain ⟨e, event⟩ := l
  obtain ⟨l, u, hl, hu, rfl⟩ := node_step hs
  cases e with
  | a => exact ⟨h.invA hl hu, h.b⟩
  | b => exact ⟨h.a, h.invB hguard hl hu⟩

/-! ## No step is left -/

/-- What the other node allows cannot be done. -/
theorem Terminal.stuck (h : P.Terminal s) {e : Side} {v : Event} {l : Label F}
    (hl : P.label s e v = some l) : Sessions.step (P.peerId e) (s e) l = none := by
  have hnone := h (e, v)
  simpa [Pair.step, hl] using hnone

/-- At the end no attempt is connecting. -/
theorem Terminal.not_connecting (h : P.Terminal s) (hinv : P.Inv s) (e : Side) :
    ((s e).attempts (P.connection e)).isConnecting = false := by
  have hstuck := h.stuck (e := e) (v := .opened) rfl
  have hcancelled := hinv.not_cancelled e
  cases hattempt : (s e).attempts (P.connection e) with
  | connecting q =>
      simp only [Sessions.step, hattempt, hcancelled] at hstuck
      cases hstuck
  | _ => rfl

/-- Nothing is left to be accepted. -/
theorem Terminal.accepted (h : P.Terminal s) {e : Side}
    (hunopened : (s e).attempts (P.connection e.other) = .absent) :
    ((s e).readers (P.connection e.other)).isAbsent = false := by
  have hstuck := h.stuck (e := e) (v := .accept) rfl
  cases hreader : (s e).readers (P.connection e.other) with
  | absent =>
      simp only [Sessions.step, hunopened, hreader] at hstuck
      cases hstuck
  | _ => rfl

/-- No hello is left to complete. -/
theorem Terminal.not_negotiating (h : P.Terminal s) (hinv : P.Inv s) (e : Side) :
    (s e).readers (P.connection e.other) ≠ .negotiating := by
  intro hreader
  have hlabel : P.label s e .incomingNegotiated =
      some (.incomingNegotiated (P.connection e.other) (P.session e e.other)) := by
    simp [label, h.not_connecting hinv e.other]
  have hstuck := h.stuck hlabel
  simp only [Sessions.step, hreader] at hstuck
  cases hstuck

/-- Nor is one in its handshake when the other end has accepted. -/
theorem Terminal.attempt_not_negotiating (h : P.Terminal s) (hinv : P.Inv s) {e : Side}
    (haccepted : ((s e.other).readers (P.connection e)).isAbsent = false) :
    (s e).attempts (P.connection e) ≠ .negotiating (P.peerId e.other) := by
  intro hattempt
  have hlabel : P.label s e .attemptNegotiated =
      some (.attemptNegotiated (P.connection e) (P.session e e)) := by
    simp [label, haccepted]
  have hstuck := h.stuck hlabel
  simp [Sessions.step, hattempt, hinv.not_cancelled e, P.session_peerId] at hstuck

/-- The reader of a closed connection has ended. -/
theorem Terminal.reads (h : P.Terminal s) {e c : Side} {q : Str} {closed : Bool}
    {pc : ReaderPc F} (hreads : Reads q closed pc) (hpc : (s e).readers (P.connection c) = pc)
    (hreading : pc.isReading → closed) : closed = true := by
  cases hreads with
  | reading => exact hreading rfl
  | ending =>
      have hstuck := h.stuck (e := e) (v := .resumeReader c) rfl
      simp only [Sessions.step, hpc] at hstuck
      cases hstuck
  | closing hclosed => exact hclosed
  | ended hclosed => exact hclosed

/-- What the node that opens X is in the end. -/
theorem Terminal.endA (h : P.Terminal s) (hinv : P.Inv s) :
    (s .a).tables.peerConnections (P.peerId .b) = some (P.connection .a) ∧
      (s .a).isClosed (P.connection .b) = true ∧
      (s .a).callers (P.caller .a) = .returned (P.connection .a) := by
  obtain ⟨v, hv, hreads, hphase⟩ := hinv.a
  obtain ⟨w, hw, -⟩ := hinv.b
  have hresume := h.stuck (e := .a) (v := .resumeAttempt) rfl
  have hcaller := h.stuck (e := .a) (v := .resumeCaller) rfl
  simp only [Sessions.step, hv.attempt, hv.cancelled.1] at hresume
  simp only [Sessions.step, hv.caller] at hcaller
  have hunopened := hv.unopened _ (Or.inr rfl) P.distinct.symm
  have haccepted : ((s .b).readers (P.connection .a)).isAbsent = false :=
    h.accepted (e := .b) (hw.unopened _ (Or.inl rfl) P.distinct)
  cases hphase with
  | opening hattempt =>
      obtain rfl | rfl := hattempt
      · have hconnecting := h.not_connecting hinv .a
        rw [hv.attempt] at hconnecting
        cases hconnecting
      · exact absurd hv.attempt (h.attempt_not_negotiating hinv haccepted)
  | retiring => cases hresume
  | closingLoser => cases hresume
  | closingPrevious => cases hresume
  | returned =>
      simp only [hv.attempt] at hcaller
      cases hcaller
  | @handedOut session ry closed hreading =>
      refine ⟨hv.canonicalIs, hv.closed.trans ?_, hv.caller⟩
      obtain habsent | hnegotiating | hreads := hreads
      · have hy : ((s .a).readers (P.connection .b)).isAbsent = false :=
          h.accepted (e := .a) hunopened
        rw [hv.readerY, habsent] at hy
        cases hy
      · exact absurd (hv.readerY.trans hnegotiating) (h.not_negotiating hinv .a)
      · exact h.reads (e := .a) (c := .b) hreads hv.readerY hreading

/-- What the node that opens Y is in the end. -/
theorem Terminal.endB (h : P.Terminal s) (hinv : P.Inv s) :
    (s .b).tables.peerConnections (P.peerId .a) = some (P.connection .a) ∧
      (s .b).isClosed (P.connection .b) = true ∧
      ∃ c, (s .b).callers (P.caller .b) = .returned c := by
  obtain ⟨v, hv, hphase⟩ := hinv.b
  obtain ⟨w, hw, -⟩ := hinv.a
  have hresume := h.stuck (e := .b) (v := .resumeAttempt) rfl
  have hcaller := h.stuck (e := .b) (v := .resumeCaller) rfl
  have hreader := h.stuck (e := .b) (v := .resumeReader .a) rfl
  simp only [Sessions.step, hv.attempt, hv.cancelled.2] at hresume
  simp only [Sessions.step, hv.caller] at hcaller
  simp only [Sessions.step, hv.readerX] at hreader
  have hunopened := hv.unopened _ (Or.inl rfl) P.distinct
  have haccepted : ((s .a).readers (P.connection .b)).isAbsent = false :=
    h.accepted (e := .a) (hw.unopened _ (Or.inr rfl) P.distinct.symm)
  have hopening : ∀ {attempt : AttemptPc}, (s .b).attempts (P.connection .b) = attempt →
      ¬ (attempt = .connecting (P.peerId .a) ∨ attempt = .negotiating (P.peerId .a)) := by
    rintro _ hattempt (rfl | rfl)
    · have hconnecting := h.not_connecting hinv .b
      rw [hattempt] at hconnecting
      cases hconnecting
    · exact h.attempt_not_negotiating (e := .b) hinv haccepted hattempt
  have hwaiting : ∀ {rx : ReaderPc F}, (s .b).readers (P.connection .a) = rx →
      ¬ (rx = .absent ∨ rx = .negotiating) := by
    rintro _ hrx (rfl | rfl)
    · have hx : ((s .b).readers (P.connection .a)).isAbsent = false :=
        h.accepted (e := .b) hunopened
      rw [hrx] at hx
      cases hx
    · exact h.not_negotiating hinv .b hrx
  cases hphase with
  | opening hattempt => exact absurd hattempt (hopening hv.attempt)
  | losing hattempt => exact absurd hattempt (hopening hv.attempt)
  | lost hattempt =>
      obtain rfl | rfl := hattempt
      · cases hresume
      · simp only [hv.attempt] at hcaller
        cases hcaller
  | handedWinner => exact ⟨hv.canonicalIs, hv.closed, _, hv.caller⟩
  | returned =>
      simp only [hv.attempt] at hcaller
      cases hcaller
  | handedOut hrx => exact absurd hrx (hwaiting hv.readerX)
  | retiring => cases hreader
  | closingLoser => cases hreader
  | retiringPrevious => cases hreader
  | closingPrevious => cases hreader
  | replaced hreads hreading =>
      exact ⟨hv.canonicalIs,
        hv.closed.trans (h.reads (e := .b) (c := .b) hreads hv.readerY hreading), _,
        hv.caller⟩

/-- **At the end both read the same connection.** -/
theorem Terminal.converged (h : P.Terminal s) (hinv : P.Inv s) : P.Converged s := by
  obtain ⟨hcanonicalA, hclosedA, hreturnedA⟩ := h.endA hinv
  obtain ⟨hcanonicalB, hclosedB, hreturnedB⟩ := h.endB hinv
  obtain ⟨v, hv, -⟩ := hinv.a
  obtain ⟨w, hw, -⟩ := hinv.b
  refine ⟨?_, ?_, hinv.isOpen, ?_, ?_⟩
  · rintro (_ | _)
    · exact hcanonicalA
    · exact hcanonicalB
  · rintro (_ | _)
    · obtain ⟨r, hr, hp⟩ := hv.ready_winner hcanonicalA
      exact ⟨r.session, by simp [sessionFor, hr], hp⟩
    · obtain ⟨r, hr, hp⟩ := hw.ready_winner hcanonicalB
      exact ⟨r.session, by simp [sessionFor, hr], hp⟩
  · rintro (_ | _)
    · exact hclosedA
    · exact hclosedB
  · rintro (_ | _)
    · exact ⟨_, hreturnedA⟩
    · exact hreturnedB

/-! ## X overtakes the caller -/

end Pair

/-- Y has lost its session, and the caller has yet to look for it, or has not found it. -/
structure Overtaken (p : Str) (y k : ℕ) (s : Node F) : Prop where
  attempt : s.attempts y = .returned y
  ready : s.tables.ready y = none
  caller : s.callers k = .waiting p y ∨ (∃ closer, s.callers k = .closingPeer closer) ∨
    s.callers k = .raised

section overtaken

variable {me p : Str} {x y k : ℕ} {s t : Node F}

/-- A reader moves after it was overtaken. -/
theorem Overtaken.readerMove {c : ℕ} (h : Overtaken p y k s) (hmove : s.ReaderMove t c)
    (hc : c = y → s.readers c ≠ .negotiating) : Overtaken p y k t where
  attempt := hmove.attempts ▸ h.attempt
  ready := by
    refine Option.eq_none_iff_forall_ne_some.2 fun r hr => ?_
    obtain hr | ⟨rfl, hnegotiating, -⟩ := hmove.ready y r hr
    · rw [h.ready] at hr
      cases hr
    · exact hc rfl hnegotiating
  caller := hmove.callers ▸ h.caller

/-- The caller gives up after it was overtaken. -/
theorem Overtaken.settles {u : Node F} (h : Overtaken p y k s) (hsettles : s.Settles u)
    {pc : CallerPc} (hpc : (∃ closer, pc = .closingPeer closer) ∨ pc = .raised) :
    Overtaken p y k (u.setCaller k pc) where
  attempt := (congrFun hsettles.attempts y).trans h.attempt
  ready := by
    refine Option.eq_none_iff_forall_ne_some.2 fun r hr => ?_
    cases h.ready.symm.trans (hsettles.ready y r hr)
  caller := by
    rw [Node.setCaller_self]
    exact Or.inr hpc

/-- The caller finds no session. -/
theorem Overtaken.resumeCaller (h : Overtaken p y k s)
    (hs : step me s (.resumeCaller k) = some t) : Overtaken p y k t := by
  simp only [step] at hs
  obtain hcaller | ⟨closer, hcaller⟩ | hcaller := h.caller
  · have hsession : s.tables.sessionFor y = none := by simp [sessionFor, h.ready]
    have hsettles := s.settles_closePeer true p
    simp only [hcaller, h.attempt, Option.some.injEq, Node.handOver, hsession] at hs
    subst hs
    split
    · next u closer hu =>
        rw [hu] at hsettles
        exact h.settles hsettles (Or.inl ⟨closer, rfl⟩)
    · next u hu =>
        rw [hu] at hsettles
        exact h.settles hsettles (Or.inr rfl)
  · simp only [hcaller] at hs
    obtain ⟨⟨u, closer⟩, hr, rfl⟩ := Option.map_eq_some_iff.1 hs
    have hsettles := s.settles_resumeClosePeer hr
    cases closer with
    | some closer => exact h.settles hsettles (Or.inl ⟨closer, rfl⟩)
    | none => exact h.settles hsettles (Or.inr rfl)
  · simp only [hcaller] at hs
    cases hs

end overtaken

namespace Pair

variable {P : Pair F} {s t : State F}

/-- Both nodes keep their tables. -/
def Sound (s : State F) : Prop := ∀ e, (s e).Sound none ∧ (s e).Flights

/-- Nothing is lost at the beginning. -/
theorem sound_of_started (h : P.Started s) : Sound s := by
  intro e
  obtain ⟨u, hu, -, hs⟩ := h e
  exact sound_of_reachable (hu.next (.connect (P.peerId e.other) (P.connection e)) hs)

/-- A step keeps what is sound. -/
theorem Sound.step {l : Side × Event} (h : Sound s) (hs : P.step s l = some t) : Sound t := by
  obtain ⟨e, event⟩ := l
  obtain ⟨l, u, -, hu, rfl⟩ := node_step hs
  intro d
  by_cases hd : d = e
  · subst hd
    rw [Function.update_self]
    exact sound_step (h d).1 (h d).2 hu
  · rw [Function.update_of_ne hd]
    exact h d

/-- The caller of `b` has been overtaken. -/
def Lost (P : Pair F) (s : State F) : Prop :=
  Overtaken (P.peerId .a) (P.connection .b) (P.caller .b) (s .b)

/-- What was lost stays lost. -/
theorem Lost.step {l : Side × Event} (h : P.Lost s) (hsound : Sound s)
    (hs : P.step s l = some t) : P.Lost t := by
  obtain ⟨e, event⟩ := l
  obtain ⟨l, u, hl, hu, rfl⟩ := node_step hs
  cases e with
  | a => exact h
  | b =>
      have hattempt := h.attempt
      change Overtaken _ _ _ u
      cases event with
      | opened =>
          cases hl
          simp only [Sessions.step, hattempt] at hu
          cases hu
      | accept =>
          cases hl
          simp only [Sessions.step] at hu
          split at hu
          · cases hu
            exact ⟨h.attempt, h.ready, h.caller⟩
          · cases hu
      | attemptNegotiated =>
          obtain ⟨-, ⟨⟩⟩ := Option.ite_none_left_eq_some.1 hl
          simp only [Sessions.step, hattempt] at hu
          cases hu
      | attemptCancelled =>
          cases hl
          simp only [Sessions.step, hattempt] at hu
          split at hu <;> cases hu
      | resumeAttempt =>
          cases hl
          simp only [Sessions.step, hattempt] at hu
          split at hu <;> cases hu
      | incomingNegotiated =>
          obtain ⟨-, ⟨⟩⟩ := Option.ite_none_left_eq_some.1 hl
          simp only [Sessions.step] at hu
          split at hu
          · next hnegotiating =>
              cases hu
              exact h.readerMove (Node.readerMove_negotiated (hsound .b).1 hnegotiating)
                fun heq => absurd heq P.distinct
          · cases hu
      | resumeReader c =>
          cases hl
          refine h.readerMove (Node.readerMove_resume (hsound .b).1 hu) fun heq hnegotiating => ?_
          simp only [Sessions.step, hnegotiating] at hu
          cases hu
      | readerEnds c =>
          obtain ⟨-, ⟨⟩⟩ := Option.ite_none_right_eq_some.1 hl
          refine h.readerMove (Node.readerMove_readerEnds hu) fun heq hnegotiating => ?_
          simp only [Sessions.step, hnegotiating] at hu
          cases hu
      | resumeCaller =>
          cases hl
          exact h.resumeCaller hu
      | remoteClosed c =>
          obtain ⟨-, ⟨⟩⟩ := Option.ite_none_right_eq_some.1 hl
          cases hu
          exact ⟨h.attempt, h.ready, h.caller⟩

/-- **The step that overtakes the caller** takes the session of Y. -/
theorem Inv.lost {l : Side × Event} (h : P.Inv s) (hsound : Sound s) (hl : P.Overtakes s l)
    (hs : P.step s l = some t) : P.Lost t := by
  obtain ⟨rfl, hattempt, hcaller⟩ := hl
  obtain ⟨l, u, hl, hu, rfl⟩ := node_step hs
  obtain ⟨-, ⟨⟩⟩ := Option.ite_none_left_eq_some.1 hl
  have hready := h.b.overtaken P.peerId_ne P.distinct P.inbound (P.session_peerId .b .a) hattempt
    hcaller hu
  change Overtaken _ _ _ u
  simp only [Sessions.step] at hu
  split at hu
  · next hnegotiating =>
      cases hu
      have hmove : (s .b).ReaderMove ((s .b).incomingNegotiated (P.peerId .b) (P.connection .a)
          (P.session .b .a)) (P.connection .a) :=
        Node.readerMove_negotiated (hsound .b).1 hnegotiating
      exact ⟨hmove.attempts ▸ hattempt, hready, Or.inl (hmove.callers ▸ hcaller)⟩
  · cases hu

/-- A pair that has lost its connection has not converged. -/
theorem Lost.not_converged (h : P.Lost s) : ¬ P.Converged s := by
  intro hconverged
  obtain ⟨c, hc⟩ := hconverged.returned .b
  obtain hcaller | ⟨closer, hcaller⟩ | hcaller := h.caller
  · cases hcaller.symm.trans hc
  · cases hcaller.symm.trans hc
  · cases hcaller.symm.trans hc

/-! ## The law holds -/

/-- **The invariant holds** in the runs that meet the condition. -/
theorem inv_of_reachableWhen (h : ReachableWhen P.system (fun s l => ¬ P.Overtakes s l) s) :
    P.Inv s :=
  h.invariant (fun _ => inv_of_started) fun _ _ _ hinv hguard hs => inv_step hinv hguard hs

/-- In any other run the invariant holds, or the connection is lost. -/
theorem inv_or_lost (h : Reachable P.system s) : Sound s ∧ (P.Inv s ∨ P.Lost s) := by
  refine h.invariant (I := fun s => Sound s ∧ (P.Inv s ∨ P.Lost s)) ?_ ?_
  · exact fun s hs => ⟨sound_of_started hs, Or.inl (inv_of_started hs)⟩
  · rintro s l t ⟨hsound, hinv⟩ hs
    refine ⟨hsound.step hs, ?_⟩
    obtain hinv | hlost := hinv
    · by_cases hl : P.Overtakes s l
      · exact Or.inr (hinv.lost hsound hl hs)
      · exact Or.inl (inv_step hinv hl hs)
    · exact Or.inr (hlost.step hsound hs)

/-- **Simultaneous open converges** in every run in which X does not overtake the caller of
`b`: when no step is left, X is canonical, READY and open at both nodes, Y is closed, and both
calls have returned.  In a run in which it does, no later state is like that. -/
theorem simultaneous_open_converges (P : Pair F) :
    (∀ s, ReachableWhen P.system (fun s l => ¬ P.Overtakes s l) s → P.Terminal s →
      P.Converged s) ∧
    ∀ s l t u, Reachable P.system s → P.Overtakes s l → P.step s l = some t →
      Reachable (P.system.startingAt t) u → ¬ P.Converged u := by
  refine ⟨fun s hs hterminal => hterminal.converged (inv_of_reachableWhen hs),
    fun s l t u hs hl ht hu => ?_⟩
  obtain ⟨hsound, hinv⟩ := inv_or_lost hs
  have hlost : P.Lost t := by
    obtain hinv | hlost := hinv
    · exact hinv.lost hsound hl ht
    · exact hlost.step hsound ht
  have hrun : Sound u ∧ P.Lost u := by
    refine hu.invariant (I := fun u => Sound u ∧ P.Lost u) ?_ ?_
    · rintro _ rfl
      exact ⟨hsound.step ht, hlost⟩
    · rintro v l w ⟨hv, hlost⟩ hs
      exact ⟨hv.step hs, hlost.step hv hs⟩
  exact hrun.2.not_converged

/-! ## Two runs -/

/-- A session with a peer. -/
def sampleSession (p : Str) : ProtocolSession Unit where
  peerId := p
  version := 1
  serializerId := ofChars ['j']
  capabilities := []
  maxMessageSize := 1
  peerIdAuthenticated := false
  metadata := []

/-- The ids of the two. -/
def sampleId : Side → Str
  | .a => ofChars ['a']
  | .b => ofChars ['b']

/-- The connections that they open. -/
def sampleConnection : Side → ℕ
  | .a => 0
  | .b => 1

/-- A has the smaller id. -/
theorem sampleId_lt : sampleId .a < sampleId .b := by decide

/-- There are two of them. -/
theorem sampleConnection_ne : sampleConnection .a ≠ sampleConnection .b := by decide

/-- The two peers. -/
def samplePair : Pair Unit where
  peerId := sampleId
  lt := sampleId_lt
  connection := sampleConnection
  distinct := sampleConnection_ne
  caller := fun _ => 0
  session := fun e _ => sampleSession (sampleId e.other)
  session_peerId := fun _ _ => rfl

/-- Both nodes have been started, and have called `connect()`. -/
def sampleStart : State Unit := fun e =>
  (Sessions.step (sampleId e) initial
    (.connect (sampleId e.other) (sampleConnection e))).getD initial

/-- Both have called `connect`. -/
theorem started_sample : samplePair.Started sampleStart := by
  intro e
  refine ⟨initial, .init rfl, ?_, ?_⟩
  · constructor <;> intros <;> rfl
  · cases e <;> rfl

/-- Every event. -/
def events : List Event :=
  [.opened, .accept, .attemptNegotiated, .attemptCancelled, .resumeAttempt, .incomingNegotiated,
    .resumeReader .a, .resumeReader .b, .readerEnds .a, .readerEnds .b, .resumeCaller,
    .remoteClosed .a, .remoteClosed .b]

/-- Every event is one of the list. -/
theorem mem_events (v : Event) : v ∈ events := by
  cases v with
  | resumeReader c => cases c <;> decide
  | readerEnds c => cases c <;> decide
  | remoteClosed c => cases c <;> decide
  | _ => decide

/-- No step is left, as a test. -/
def isTerminal (P : Pair F) (s : State F) : Bool :=
  events.all fun v => (P.step s (.a, v)).isNone && (P.step s (.b, v)).isNone

/-- The check decides it. -/
theorem terminal_of_isTerminal (h : P.isTerminal s) : P.Terminal s := by
  rintro ⟨e, v⟩
  have hv := List.all_eq_true.1 h v (mem_events v)
  rw [Bool.and_eq_true, Option.isNone_iff_eq_none, Option.isNone_iff_eq_none] at hv
  cases e with
  | a => exact hv.1
  | b => exact hv.2

/-- `b` has X before its own attempt is opened. -/
def sampleRun : List (Side × Event) :=
  [(.a, .attemptNegotiated), (.a, .resumeCaller), (.b, .opened), (.a, .accept),
    (.b, .attemptNegotiated), (.b, .resumeAttempt), (.b, .resumeCaller), (.a, .incomingNegotiated),
    (.a, .resumeReader .b)]

/-- A run of the two to its end. -/
theorem simultaneous_open_converges_sample : ∃ s, samplePair.Converged s := by
  obtain ⟨u, hu, hattempt, t, ht, s, hs, hterminal⟩ : ∃ u,
      exec samplePair.step sampleStart [(.a, .opened), (.b, .accept)] = some u ∧
      (u .b).attempts 1 = .connecting (sampleId .a) ∧
      ∃ t, samplePair.step u (.b, .incomingNegotiated) = some t ∧
      ∃ s, exec samplePair.step t sampleRun = some s ∧ samplePair.isTerminal s :=
    ⟨_, rfl, rfl, _, rfl, _, rfl, rfl⟩
  have hguard : ∀ l, l ≠ (.b, .incomingNegotiated) → ∀ s, ¬ samplePair.Overtakes s l :=
    fun l hl s hover => hl hover.1
  have hopened : ∀ l ∈ [(Side.a, Event.opened), (.b, .accept)], l ≠ (.b, .incomingNegotiated) := by
    decide
  have hrest : ∀ l ∈ sampleRun, l ≠ (.b, .incomingNegotiated) := by decide
  have hbefore : ¬ samplePair.Overtakes u (.b, .incomingNegotiated) := by
    intro hover
    cases hattempt.symm.trans hover.2.1
  have hrun := reachableWhen_of_exec (S := samplePair.system)
    (G := fun s l => ¬ samplePair.Overtakes s l) started_sample [(.a, .opened), (.b, .accept)]
    (fun l hl => hguard l (hopened l hl)) hu
  have hnegotiated := ReachableWhen.step (Side.b, Event.incomingNegotiated) hrun hbefore ht
  have hend := hnegotiated.exec sampleRun (fun l hl => hguard l (hrest l hl)) hs
  exact ⟨s, (simultaneous_open_converges samplePair).1 s hend (terminal_of_isTerminal hterminal)⟩

/-- The hello on X completes at `b` while its caller has yet to resume. -/
def overtakingRun : List (Side × Event) :=
  [(.a, .opened), (.b, .opened), (.b, .accept), (.a, .accept), (.a, .attemptNegotiated),
    (.a, .incomingNegotiated), (.a, .resumeReader .b), (.a, .resumeCaller),
    (.b, .attemptNegotiated), (.b, .incomingNegotiated), (.b, .resumeReader .a),
    (.b, .resumeCaller), (.b, .resumeCaller), (.b, .resumeReader .a)]

/-- X overtakes the caller of `b`, and the call raises. -/
theorem not_simultaneous_open_converges : ¬ ∀ (P : Pair Unit) s,
    Reachable P.system s → P.Terminal s → P.Converged s := by
  intro h
  have hrun : (exec samplePair.step sampleStart overtakingRun).any fun s =>
      samplePair.isTerminal s && decide ((s .b).callers 0 = .raised) := rfl
  obtain ⟨s, hs, hcheck⟩ := (Option.any_eq_true ..).1 hrun
  obtain ⟨hterminal, hraised⟩ := Bool.and_eq_true_iff.1 hcheck
  have hreachable := reachable_of_exec (S := samplePair.system) started_sample overtakingRun hs
  obtain ⟨c, hc⟩ := (h samplePair s hreachable (terminal_of_isTerminal hterminal)).returned .b
  cases (of_decide_eq_true hraised).symm.trans hc

end Pair
end SimultaneousOpen
end Sessions
end Core
end Paqto
