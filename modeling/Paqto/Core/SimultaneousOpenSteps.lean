/-
# The steps of a simultaneous open

What each event does to the phases of `Paqto.Core.SimultaneousOpenPhases`, first at the node
that opens X, then at the node that opens Y.  There the hello on X is not to complete while
the caller has yet to take Y over (`PhaseB.returned`): Y would lose its session, and the
caller would find none.
-/

import Paqto.Core.SimultaneousOpenPhases

namespace Paqto
namespace Core

open Transition Python SessionTables

namespace Sessions

variable {F : Type}

namespace SimultaneousOpen

variable {me p : Str} {x y k : ℕ} {s t : Node F}

/-- The winner is another one. -/
theorem filter_winner (hxy : x ≠ y) : (some x).filter (· ≠ y) = some x := by
  simp [Option.filter_some, hxy]

/-- The manager that has nothing or Y forgets Y. -/
theorem filter_manager {manager : Option ℕ} (h : manager = none ∨ manager = some y) :
    manager.filter (· ≠ y) = none ∨ manager.filter (· ≠ y) = some y := by
  obtain rfl | rfl := h
  · exact Or.inl rfl
  · exact Or.inl (by simp)

/-! ## Installing -/

section install

variable {own : ℕ} {v : View F}

/-- The attempt installs a connection where the manager had no other. -/
theorem Shows.install (h : Shows me p x y own k s v) (selected : ℕ)
    (hprevious : v.manager.filter (· ≠ selected) = none) :
    Shows me p x y own k (s.install own p selected)
      { v with attempt := .returned selected, manager := some selected } := by
  unfold Node.install
  rw [if_neg (by simp [h.closingPeers])]
  dsimp only
  rw [h.manager, hprevious]
  exact (h.setManager (some selected)).endAttempt (.returned selected)

/-- It installs the winner over the connection that lost. -/
theorem Shows.install_over (h : Shows me p x y own k s v) (hxy : x ≠ y)
    (hprevious : v.manager = some y) :
    Shows me p x y own k (s.install own p x)
      { v with attempt := .closingPrevious p x, manager := some x, closed := true } := by
  have hfilter : (some y).filter (· ≠ x) = some y := by simp [Option.filter_some, hxy.symm]
  unfold Node.install
  rw [if_neg (by simp [h.closingPeers])]
  dsimp only
  rw [h.manager, hprevious, hfilter]
  exact ((h.setManager (some x)).closeInSetup hxy p).setAttempt (.closingPrevious p x)

/-- A loser that has no session has nothing to be forgotten. -/
theorem Shows.retireOf (h : Shows me p x y own k s v) (hy : v.canonical ≠ some y) :
    s.retireOf y = ⟨y, none⟩ := by
  have hready : s.tables.ready y = none := h.ready_loser_eq_none (h.canonicalIs ▸ hy)
  simp [Node.retireOf, sessionFor, hready]

/-- The end of the task of Y. -/
theorem Shows.endIncoming (h : Shows me p x y own k s v) (hxy : x ≠ y) :
    Shows me p x y own k (s.endIncoming y)
      { v with canonical := v.canonical.filter (· ≠ y), closed := true, readerY := .closing } :=
  (h.deactivateLoser.closeConnection hxy).setReaderY hxy .closing

/-- The reader of the winner starts. -/
theorem Shows.startReadingX (h : Shows me p x y own k s v) (hxy : x ≠ y)
    (hcanonical : v.canonical = some x) {session : ProtocolSession F} (hp : session.peerId = p) :
    Shows me p x y own k (s.startReading x session) { v with readerX := .reading session } := by
  unfold Node.startReading
  rw [hp, h.canonicalIs, if_pos hcanonical]
  exact h.setReaderX hxy (.reading session)

/-- The reader of the other connection starts. -/
theorem Shows.startReadingY (h : Shows me p x y own k s v) (hxy : x ≠ y)
    (hcanonical : v.canonical = some y) {session : ProtocolSession F} (hp : session.peerId = p) :
    Shows me p x y own k (s.startReading y session) { v with readerY := .reading session } := by
  unfold Node.startReading
  rw [hp, h.canonicalIs, if_pos hcanonical]
  exact h.setReaderY hxy (.reading session)

/-- The manager takes over the winner. -/
theorem Shows.adoptX (h : Shows me p x y own k s v) (hxy : x ≠ y)
    (hcanonical : v.canonical = some x) {session : ProtocolSession F} (hp : session.peerId = p)
    {loser : Option ℕ} (hprevious : v.manager.filter (fun m => m ≠ x ∧ some m ≠ loser) = none) :
    Shows me p x y own k (s.adopt x session loser)
      { v with manager := some x, readerX := .reading session } := by
  unfold Node.adopt
  rw [hp, if_neg (by simp [h.closingPeers])]
  dsimp only
  rw [h.manager, hprevious]
  exact (h.setManager (some x)).startReadingX hxy hcanonical hp

/-- It takes it over from the connection that lost. -/
theorem Shows.adoptX_over (h : Shows me p x y own k s v) (hxy : x ≠ y)
    (hcanonical : v.canonical = some x) {session : ProtocolSession F} (hp : session.peerId = p)
    (hmanager : v.manager = some y) :
    Shows me p x y own k (s.adopt x session none)
      { v with manager := some x, readerX := .retiringPrevious session ⟨y, none⟩ } := by
  have hprevious : (some y).filter (fun m => m ≠ x ∧ some m ≠ none) = some y := by
    simp [Option.filter_some, hxy.symm]
  have hadopted := h.setManager (some x)
  have hretire := hadopted.retireOf (by simpa [hcanonical] using hxy)
  have hretired := hadopted.deactivateLoser.setReaderX hxy
    (.retiringPrevious session ⟨y, none⟩)
  have hfilter : v.canonical.filter (· ≠ y) = v.canonical := by
    rw [hcanonical]
    exact filter_winner hxy
  simp only [hfilter] at hretired
  unfold Node.adopt
  rw [hp, if_neg (by simp [h.closingPeers])]
  dsimp only
  rw [h.manager, hmanager, hprevious]
  dsimp only
  rw [hretire]
  exact hretired

/-- The manager takes over the other connection. -/
theorem Shows.adoptY (h : Shows me p x y own k s v) (hxy : x ≠ y)
    (hcanonical : v.canonical = some y) {session : ProtocolSession F} (hp : session.peerId = p)
    (hmanager : v.manager = none ∨ v.manager = some y) :
    Shows me p x y own k (s.adopt y session none)
      { v with manager := some y, readerY := .reading session } := by
  have hprevious : v.manager.filter (fun m => m ≠ y ∧ some m ≠ none) = none := by
    obtain hm | hm := hmanager
    · rw [hm]
      rfl
    · rw [hm]
      simp
  unfold Node.adopt
  rw [hp, if_neg (by simp [h.closingPeers])]
  dsimp only
  rw [h.manager, hprevious]
  exact (h.setManager (some y)).startReadingY hxy hcanonical hp

/-- The caller takes a connection over whose reader it starts. -/
theorem Shows.handOverX (h : Shows me p x y own k s v) (hxy : x ≠ y)
    (hcanonical : v.canonical = some x) (habsent : v.readerX = .absent) :
    ∃ session, Shows me p x y own k (s.handOver k p x)
      { v with readerX := .reading session, caller := .returned x } := by
  obtain ⟨r, hr, -⟩ := h.ready_winner (h.canonicalIs.trans hcanonical)
  refine ⟨r.session, ?_⟩
  simp only [Node.handOver, sessionFor, hr, Option.map_some, Node.ensureReader,
    h.readerX.trans habsent]
  exact (h.setReaderX hxy (.reading r.session)).setCaller (.returned x)

/-- The other connection is handed to its caller, who reads it. -/
theorem Shows.handOverY (h : Shows me p x y own k s v) (hxy : x ≠ y)
    (hcanonical : v.canonical = some y) (habsent : v.readerY = .absent) :
    ∃ session, session.peerId = p ∧ Shows me p x y own k (s.handOver k p y)
      { v with readerY := .reading session, caller := .returned y } := by
  obtain ⟨r, hr, hp⟩ := h.tables.ready (h.canonicalIs.trans hcanonical)
  refine ⟨r.session, hp, ?_⟩
  simp only [Node.handOver, sessionFor, hr, Option.map_some, Node.ensureReader,
    h.readerY.trans habsent]
  exact (h.setReaderY hxy (.reading r.session)).setCaller (.returned y)

/-- The reader of the connection reads already. -/
theorem Shows.handOverReading (h : Shows me p x y own k s v) (hcanonical : v.canonical = some x)
    {session : ProtocolSession F} (hreading : v.readerX = .reading session) :
    Shows me p x y own k (s.handOver k p x) { v with caller := .returned x } := by
  obtain ⟨r, hr, -⟩ := h.ready_winner (h.canonicalIs.trans hcanonical)
  simp only [Node.handOver, sessionFor, hr, Option.map_some, Node.ensureReader,
    h.readerX.trans hreading]
  exact h.setCaller (.returned x)

/-- A reader that does not read is not the canonical one. -/
theorem canonicalOf_eq_none {pc : ReaderPc F} (h : pc.isReading = false) :
    canonicalOf y pc = none :=
  if_neg (by simp [h])

/-- The other connection is the only one that may be. -/
theorem filter_canonicalOf (pc : ReaderPc F) : (canonicalOf y pc).filter (· ≠ y) = none := by
  unfold canonicalOf
  split <;> simp

end install

/-! ## The node that opens X -/

/-- What holds at the node that opens X. -/
def InvA (me p : Str) (x y k : ℕ) (s : Node F) : Prop :=
  ∃ v, Shows me p x y x k s v ∧
    (v.readerY = .absent ∨ v.readerY = .negotiating ∨ Reads p v.closed v.readerY) ∧
    PhaseA p x y v

/-- The reader of Y does not read, before and after. -/
theorem PhaseA.setReaderY {v : View F} (h : PhaseA p x y v) (hold : v.readerY.isReading = false)
    {pc : ReaderPc F} (hnew : pc.isReading = false) :
    PhaseA p x y { v with readerY := pc } := by
  have hreading : ∀ {closed : Bool}, pc.isReading → closed := by
    intro closed hr
    rw [hnew] at hr
    cases hr
  cases h with
  | @opening attempt ry manager closed hattempt hmanager =>
      have hsame : canonicalOf y ry = canonicalOf y pc :=
        (canonicalOf_eq_none hold).trans (canonicalOf_eq_none hnew).symm
      dsimp only
      rw [hsame]
      exact .opening hattempt hmanager
  | retiring hmanager => exact .retiring hmanager
  | closingLoser hmanager => exact .closingLoser hmanager
  | closingPrevious => exact .closingPrevious
  | returned => exact .returned hreading
  | handedOut => exact .handedOut hreading

/-- The session of Y leaves the tables. -/
theorem PhaseA.unpublish {v : View F} (h : PhaseA p x y v) (hxy : x ≠ y) {pc : ReaderPc F}
    (hnew : pc.isReading = false) :
    PhaseA p x y { v with canonical := v.canonical.filter (· ≠ y), readerY := pc } := by
  have hreading : ∀ {closed : Bool}, pc.isReading → closed := by
    intro closed hr
    rw [hnew] at hr
    cases hr
  cases h with
  | opening hattempt hmanager =>
      dsimp only
      rw [filter_canonicalOf, ← canonicalOf_eq_none hnew]
      exact .opening hattempt hmanager
  | retiring hmanager =>
      simp only [filter_winner hxy]
      exact .retiring hmanager
  | closingLoser hmanager =>
      simp only [filter_winner hxy]
      exact .closingLoser hmanager
  | closingPrevious =>
      simp only [filter_winner hxy]
      exact .closingPrevious
  | returned =>
      simp only [filter_winner hxy]
      exact .returned hreading
  | handedOut =>
      simp only [filter_winner hxy]
      exact .handedOut hreading

/-- The manager forgets Y. -/
theorem PhaseA.forget {v : View F} (h : PhaseA p x y v) (hxy : x ≠ y) :
    PhaseA p x y { v with manager := v.manager.filter (· ≠ y) } := by
  cases h with
  | opening hattempt hmanager => exact .opening hattempt (filter_manager hmanager)
  | retiring hmanager => exact .retiring (filter_manager hmanager)
  | closingLoser hmanager => exact .closingLoser (filter_manager hmanager)
  | closingPrevious =>
      simp only [filter_winner hxy]
      exact .closingPrevious
  | returned hreading =>
      simp only [filter_winner hxy]
      exact .returned hreading
  | handedOut hreading =>
      simp only [filter_winner hxy]
      exact .handedOut hreading

/-- The attempt of A has opened its connection. -/
theorem InvA.opened (h : InvA me p x y k s) (hs : step me s (.opened x) = some t) :
    InvA me p x y k t := by
  obtain ⟨v, hv, hreads, hphase⟩ := h
  simp only [step, hv.attempt, hv.cancelled.1] at hs
  cases hphase with
  | opening hattempt hmanager =>
      obtain rfl | rfl := hattempt
      · cases hs
        exact ⟨_, hv.setAttempt _, hreads, .opening (Or.inr rfl) hmanager⟩
      · cases hs
  | _ => cases hs

/-- A accepts the connection of B. -/
theorem InvA.accept (h : InvA me p x y k s) (hxy : x ≠ y)
    (hs : step me s (.accept y) = some t) : InvA me p x y k t := by
  obtain ⟨v, hv, hreads, hphase⟩ := h
  simp only [step] at hs
  split at hs
  · next habsent =>
      cases hs
      have hreader := hv.readerY.symm.trans habsent
      exact ⟨_, hv.setReaderY hxy .negotiating, Or.inr (Or.inl rfl),
        hphase.setReaderY (hreader ▸ rfl) rfl⟩
  · cases hs

/-- The attempt of A is past its handshake: its connection wins. -/
theorem InvA.attemptNegotiated (h : InvA me p x y k s) (hme : p ≠ me) (hxy : x ≠ y)
    (hdirection : preferredDirection me p = .outbound) {session : ProtocolSession F}
    (hs : step me s (.attemptNegotiated x session) = some t) : InvA me p x y k t := by
  obtain ⟨v, hv, hreads, hphase⟩ := h
  simp only [step, hv.attempt, hv.cancelled.1] at hs
  cases hphase with
  | opening hattempt hmanager =>
      obtain rfl | rfl := hattempt
      · cases hs
      · rename_i ry manager closed
        simp only [true_and, Option.ite_none_right_eq_some, Option.some.injEq] at hs
        obtain ⟨hp, rfl⟩ := hs
        have hx : s.tables.peerConnections p ≠ some x := by
          rw [hv.canonicalIs]
          unfold canonicalOf
          split <;> simp [hxy.symm]
        obtain ⟨u, hu, hkeeps, hcanonical⟩ := select_winner hv.toKeeps hme hxy hx hp
        have hpublished := hv.setTables hkeeps hcanonical
        rw [hdirection] at hu
        unfold Node.attemptNegotiated
        rw [hu]
        simp only [if_true]
        split
        · next loser hloser =>
            obtain ⟨hy, -⟩ := Option.filter_eq_some_iff.1 hloser
            obtain rfl : loser = y := by
              rw [hv.canonicalIs] at hy
              unfold canonicalOf at hy
              split at hy
              · exact (Option.some.inj hy).symm
              · cases hy
            have hretire := hpublished.retireOf (by simpa using hxy)
            rw [hretire]
            have hretired := hpublished.deactivateLoser
            refine ⟨_, hretired.setAttempt _, hreads, ?_⟩
            simp only [filter_winner hxy]
            exact .retiring hmanager
        · next hclosed =>
            have hreading : ry.isReading → closed := by
              intro hr
              have hy : s.tables.peerConnections p = some y := by
                rw [hv.canonicalIs]
                simp [canonicalOf, hr]
              rw [hy] at hclosed
              simpa [Option.filter_some, hv.closed] using hclosed
            obtain rfl | rfl := hmanager
            · exact ⟨_, hpublished.install x rfl, hreads, .returned hreading⟩
            · refine ⟨_, hpublished.install_over hxy rfl, ?_, .closingPrevious⟩
              exact hreads.imp_right (Or.imp_right Reads.close)
  | _ => cases hs

/-- The attempt of A goes on. -/
theorem InvA.resumeAttempt (h : InvA me p x y k s) (hxy : x ≠ y)
    (hs : step me s (.resumeAttempt x) = some t) : InvA me p x y k t := by
  obtain ⟨v, hv, hreads, hphase⟩ := h
  simp only [step, hv.attempt, hv.cancelled.1] at hs
  cases hphase with
  | opening hattempt =>
      obtain rfl | rfl := hattempt
      · cases hs
      · cases hs
  | retiring hmanager =>
      cases hs
      refine ⟨_, (hv.closeInSetup hxy p).setAttempt _, ?_, .closingLoser hmanager⟩
      exact hreads.imp_right (Or.imp_right Reads.close)
  | closingLoser hmanager =>
      cases hs
      obtain rfl | rfl := hmanager
      · exact ⟨_, hv.install x rfl, hreads, .returned fun _ => rfl⟩
      · exact ⟨_, hv.install_over hxy rfl, hreads, .closingPrevious⟩
  | closingPrevious =>
      cases hs
      exact ⟨_, hv.endAttempt _, hreads, .returned fun _ => rfl⟩
  | returned => cases hs
  | handedOut => cases hs

/-- The connection of B is past its handshake at A: it loses, if the other is canonical. -/
theorem InvA.incomingNegotiated (h : InvA me p x y k s) (hme : p ≠ me) (hxy : x ≠ y)
    (hdirection : preferredDirection me p = .outbound) {session : ProtocolSession F}
    (hp : session.peerId = p) (hs : step me s (.incomingNegotiated y session) = some t) :
    InvA me p x y k t := by
  obtain ⟨v, hv, -, hphase⟩ := h
  have hinbound : Direction.inbound ≠ preferredDirection me p := by simp [hdirection]
  simp only [step] at hs
  split at hs
  · next hnegotiating =>
      cases hs
      have hreader := hv.readerY.symm.trans hnegotiating
      have hloses : v.canonical = some x → InvA me p x y k (s.incomingNegotiated me y session) := by
        intro hx
        have hu := select_loser hv.toKeeps hme hxy (hv.canonicalIs.trans hx) hp hinbound
        unfold Node.incomingNegotiated
        rw [hu]
        simp only [hxy, if_false]
        exact ⟨_, hv.endIncoming hxy, Or.inr (Or.inr (.closing rfl)),
          (hphase.unpublish hxy rfl).close⟩
      cases hphase with
      | opening hattempt hmanager =>
          cases hreader
          obtain ⟨u, hu, hkeeps, hcanonical⟩ :=
            select_first hv.toKeeps hme hxy hv.canonicalIs hp hinbound
          unfold Node.incomingNegotiated
          rw [hu]
          simp only [if_true]
          exact ⟨_, (hv.setTables hkeeps hcanonical).adoptY hxy rfl hp hmanager,
            Or.inr (Or.inr (.reading hp)), .opening hattempt (Or.inr rfl)⟩
      | _ => exact hloses rfl
  · cases hs

/-- A reader of A goes on. -/
theorem InvA.resumeReader (h : InvA me p x y k s) (hxy : x ≠ y) {c : ℕ} (hc : c = x ∨ c = y)
    (hs : step me s (.resumeReader c) = some t) : InvA me p x y k t := by
  obtain ⟨v, hv, hreads, hphase⟩ := h
  simp only [step] at hs
  obtain rfl | rfl := hc
  · rw [hv.readerX] at hs
    cases hphase <;> cases hs
  · rw [hv.readerY] at hs
    obtain habsent | hnegotiating | hreads := hreads
    · rw [habsent] at hs
      cases hs
    · rw [hnegotiating] at hs
      cases hs
    · generalize hreader : v.readerY = pc at hs hreads
      cases hreads with
      | reading => cases hs
      | ending hp =>
          cases hs
          rw [hp]
          have hold : v.readerY.isReading = false := by
            rw [hreader]
            rfl
          exact ⟨_, (hv.connectionLost.closeConnection hxy).setReaderY hxy .closing,
            Or.inr (Or.inr (.closing rfl)), ((hphase.forget hxy).setReaderY hold rfl).close⟩
      | closing hclosed =>
          cases hs
          have hold : v.readerY.isReading = false := by
            rw [hreader]
            rfl
          exact ⟨_, hv.setReaderY hxy .ended, Or.inr (Or.inr (.ended hclosed)),
            hphase.setReaderY hold rfl⟩
      | ended => cases hs

/-- A reader of the connection that lost ends. -/
theorem InvA.readerEnds (h : InvA me p x y k s) (hxy : x ≠ y)
    (hs : step me s (.readerEnds y) = some t) : InvA me p x y k t := by
  obtain ⟨v, hv, hreads, hphase⟩ := h
  simp only [step] at hs
  split at hs
  · next session hreading =>
      cases hs
      have hreader := hv.readerY.symm.trans hreading
      have hp : session.peerId = p := by
        rw [hreader] at hreads
        obtain ⟨⟨⟩⟩ | ⟨⟨⟩⟩ | hreads := hreads
        cases hreads with
        | reading hp => exact hp
      exact ⟨_, hv.deactivateLoser.setReaderY hxy (.ending session),
        Or.inr (Or.inr (.ending hp)), hphase.unpublish hxy rfl⟩
  · cases hs

/-- The caller of A goes on. -/
theorem InvA.resumeCaller (h : InvA me p x y k s) (hxy : x ≠ y)
    (hs : step me s (.resumeCaller k) = some t) : InvA me p x y k t := by
  obtain ⟨v, hv, hreads, hphase⟩ := h
  simp only [step, hv.caller] at hs
  cases hphase with
  | opening hattempt =>
      simp only [hv.attempt] at hs
      obtain rfl | rfl := hattempt
      · cases hs
      · cases hs
  | retiring =>
      simp only [hv.attempt] at hs
      cases hs
  | closingLoser =>
      simp only [hv.attempt] at hs
      cases hs
  | closingPrevious =>
      simp only [hv.attempt] at hs
      cases hs
  | returned hreading =>
      simp only [hv.attempt, Option.some.injEq] at hs
      subst hs
      obtain ⟨session, hv⟩ := hv.handOverX hxy rfl rfl
      exact ⟨_, hv, hreads, .handedOut hreading⟩
  | handedOut => cases hs

/-- The connection that lost is closed from outside. -/
theorem InvA.close (h : InvA me p x y k s) (hxy : x ≠ y) :
    InvA me p x y k (s.closeConnection y) := by
  obtain ⟨v, hv, hreads, hphase⟩ := h
  exact ⟨_, hv.closeConnection hxy, hreads.imp_right (Or.imp_right Reads.close), hphase.close⟩

/-! ## The node that opens Y -/

/-- What holds at the node that opens Y. -/
def InvB (me p : Str) (x y k : ℕ) (s : Node F) : Prop :=
  ∃ v, Shows me p x y y k s v ∧ PhaseB p x y v

/-- B accepts the connection of A. -/
theorem PhaseB.setReaderX {v : View F} (h : PhaseB p x y v) (hold : v.readerX = .absent) :
    PhaseB p x y { v with readerX := .negotiating } := by
  cases h with
  | opening hattempt => exact .opening hattempt (Or.inr rfl)
  | returned => exact .returned (Or.inr rfl)
  | handedOut _ hreads hmanager => exact .handedOut (Or.inr rfl) hreads hmanager
  | _ => cases hold

/-- The reader of Y does not read, before and after. -/
theorem PhaseB.setReaderY {v : View F} (h : PhaseB p x y v) (hold : v.readerY.isReading = false)
    (habsent : v.readerY ≠ .absent) {pc : ReaderPc F} (hnew : pc.isReading = false)
    (hreads : Reads p v.closed pc) : PhaseB p x y { v with readerY := pc } := by
  cases h with
  | @handedOut rx ry manager closed hreader _ hmanager =>
      have hsame : canonicalOf y ry = canonicalOf y pc :=
        (canonicalOf_eq_none hold).trans (canonicalOf_eq_none hnew).symm
      dsimp only
      rw [hsame]
      exact .handedOut hreader hreads hmanager
  | retiring hp _ hmanager => exact .retiring hp hreads hmanager
  | closingLoser hp _ hmanager => exact .closingLoser hp hreads hmanager
  | retiringPrevious hp => exact .retiringPrevious hp hreads
  | closingPrevious hp => exact .closingPrevious hp hreads
  | replaced =>
      refine .replaced hreads fun hr => ?_
      rw [hnew] at hr
      cases hr
  | _ => exact absurd rfl habsent

/-- The session of Y leaves the tables. -/
theorem PhaseB.unpublish {v : View F} (h : PhaseB p x y v) (hxy : x ≠ y)
    (habsent : v.readerY ≠ .absent) {session : ProtocolSession F} (hp : session.peerId = p) :
    PhaseB p x y
      { v with canonical := v.canonical.filter (· ≠ y), readerY := .ending session } := by
  have hreads : ∀ {closed : Bool}, Reads p closed (.ending session) := .ending hp
  cases h with
  | handedOut hreader _ hmanager =>
      dsimp only
      rw [filter_canonicalOf]
      exact .handedOut hreader hreads hmanager
  | retiring hp _ hmanager =>
      simp only [filter_winner hxy]
      exact .retiring hp hreads hmanager
  | closingLoser hp _ hmanager =>
      simp only [filter_winner hxy]
      exact .closingLoser hp hreads hmanager
  | retiringPrevious hp =>
      simp only [filter_winner hxy]
      exact .retiringPrevious hp hreads
  | closingPrevious hp =>
      simp only [filter_winner hxy]
      exact .closingPrevious hp hreads
  | replaced =>
      simp only [filter_winner hxy]
      refine .replaced hreads fun hr => by cases hr
  | _ => exact absurd rfl habsent

/-- The manager forgets Y. -/
theorem PhaseB.forget {v : View F} (h : PhaseB p x y v) (hxy : x ≠ y)
    (habsent : v.readerY ≠ .absent) :
    PhaseB p x y { v with manager := v.manager.filter (· ≠ y) } := by
  cases h with
  | handedOut hreader hreads hmanager => exact .handedOut hreader hreads (filter_manager hmanager)
  | retiring hp hreads hmanager => exact .retiring hp hreads (filter_manager hmanager)
  | closingLoser hp hreads hmanager => exact .closingLoser hp hreads (filter_manager hmanager)
  | retiringPrevious hp hreads =>
      simp only [filter_winner hxy]
      exact .retiringPrevious hp hreads
  | closingPrevious hp hreads =>
      simp only [filter_winner hxy]
      exact .closingPrevious hp hreads
  | replaced hreads hreading =>
      simp only [filter_winner hxy]
      exact .replaced hreads hreading
  | _ => exact absurd rfl habsent

/-- A reader that has begun to read. -/
theorem PhaseB.reads {v : View F} (h : PhaseB p x y v) (habsent : v.readerY ≠ .absent) :
    Reads p v.closed v.readerY := by
  cases h with
  | handedOut _ hreads => exact hreads
  | retiring _ hreads => exact hreads
  | closingLoser _ hreads => exact hreads
  | retiringPrevious _ hreads => exact hreads
  | closingPrevious _ hreads => exact hreads
  | replaced hreads => exact hreads
  | _ => exact absurd rfl habsent

/-- The attempt of B has opened its connection. -/
theorem InvB.opened (h : InvB me p x y k s) (hs : step me s (.opened y) = some t) :
    InvB me p x y k t := by
  obtain ⟨v, hv, hphase⟩ := h
  simp only [step, hv.attempt, hv.cancelled.2] at hs
  cases hphase with
  | opening hattempt hreader =>
      obtain rfl | rfl := hattempt
      · cases hs
        exact ⟨_, hv.setAttempt _, .opening (Or.inr rfl) hreader⟩
      · cases hs
  | losing hattempt =>
      obtain rfl | rfl := hattempt
      · cases hs
        exact ⟨_, hv.setAttempt _, .losing (Or.inr rfl)⟩
      · cases hs
  | lost hattempt => obtain rfl | rfl := hattempt <;> cases hs
  | _ => cases hs

/-- B accepts the connection of A. -/
theorem InvB.accept (h : InvB me p x y k s) (hxy : x ≠ y)
    (hs : step me s (.accept x) = some t) : InvB me p x y k t := by
  obtain ⟨v, hv, hphase⟩ := h
  simp only [step] at hs
  split at hs
  · next habsent =>
      cases hs
      exact ⟨_, hv.setReaderX hxy .negotiating,
        hphase.setReaderX (hv.readerX.symm.trans habsent)⟩
  · cases hs

/-- The attempt of B is past its handshake. -/
theorem InvB.attemptNegotiated (h : InvB me p x y k s) (hme : p ≠ me) (hxy : x ≠ y)
    (hdirection : preferredDirection me p = .inbound) {session : ProtocolSession F}
    (hs : step me s (.attemptNegotiated y session) = some t) : InvB me p x y k t := by
  obtain ⟨v, hv, hphase⟩ := h
  have houtbound : Direction.outbound ≠ preferredDirection me p := by simp [hdirection]
  simp only [step, hv.attempt, hv.cancelled.2] at hs
  cases hphase with
  | opening hattempt hreader =>
      obtain rfl | rfl := hattempt
      · cases hs
      · simp only [true_and, Option.ite_none_right_eq_some, Option.some.injEq] at hs
        obtain ⟨hp, rfl⟩ := hs
        obtain ⟨u, hu, hkeeps, hcanonical⟩ :=
          select_first hv.toKeeps hme hxy hv.canonicalIs hp houtbound
        unfold Node.attemptNegotiated
        rw [hu]
        simp only [if_true]
        exact ⟨_, (hv.setTables hkeeps hcanonical).install y rfl, .returned hreader⟩
  | @losing attempt reading closed hattempt =>
      obtain rfl | rfl := hattempt
      · cases hs
      · simp only [true_and, Option.ite_none_right_eq_some, Option.some.injEq] at hs
        obtain ⟨hp, rfl⟩ := hs
        have hu := select_loser hv.toKeeps hme hxy hv.canonicalIs hp houtbound
        have hprevious : (some x).filter (· ≠ x) = none := by simp
        unfold Node.attemptNegotiated
        rw [hu]
        simp only [hxy, if_false, hv.closed]
        split
        · next hclosed =>
            cases hclosed
            exact ⟨_, hv.install x hprevious, .lost (Or.inr rfl)⟩
        · exact ⟨_, (hv.closeInSetup hxy p).setAttempt _, .lost (Or.inl rfl)⟩
  | lost hattempt => obtain rfl | rfl := hattempt <;> cases hs
  | _ => cases hs

/-- The attempt of B goes on. -/
theorem InvB.resumeAttempt (h : InvB me p x y k s)
    (hs : step me s (.resumeAttempt y) = some t) : InvB me p x y k t := by
  obtain ⟨v, hv, hphase⟩ := h
  simp only [step, hv.attempt, hv.cancelled.2] at hs
  cases hphase with
  | opening hattempt => obtain rfl | rfl := hattempt <;> cases hs
  | losing hattempt => obtain rfl | rfl := hattempt <;> cases hs
  | lost hattempt =>
      obtain rfl | rfl := hattempt
      · cases hs
        exact ⟨_, hv.install x (by simp), .lost (Or.inr rfl)⟩
      · cases hs
  | _ => cases hs

/-- What the hello on X does where X is incoming. -/
inductive Replaces (x y : ℕ) (session : ProtocolSession F) (v : View F) : View F → Prop
  | retiring : v.canonical = some y →
      Replaces x y session v
        { v with canonical := some x, readerX := .retiring session ⟨y, none⟩ }
  | adopted : (v.canonical = some y → v.closed) → v.manager = none →
      Replaces x y session v
        { v with canonical := some x, manager := some x, readerX := .reading session }
  | retiringPrevious : v.manager = some y →
      Replaces x y session v
        { v with
          canonical := some x
          manager := some x
          readerX := .retiringPrevious session ⟨y, none⟩ }

/-- The winner is canonical then. -/
theorem Replaces.canonical {session : ProtocolSession F} {v w : View F}
    (h : Replaces x y session v w) : w.canonical = some x := by
  cases h <;> rfl

/-- **X takes the place of Y**, or of nothing. -/
theorem Shows.incomingWinner {own : ℕ} {v : View F} (h : Shows me p x y own k s v) (hme : p ≠ me)
    (hxy : x ≠ y) (hdirection : preferredDirection me p = .inbound)
    (hcanonical : v.canonical = none ∨ v.canonical = some y)
    (hmanager : v.manager = none ∨ v.manager = some y) {session : ProtocolSession F}
    (hp : session.peerId = p) :
    ∃ w, Shows me p x y own k (s.incomingNegotiated me x session) w ∧
      Replaces x y session v w := by
  have hx : s.tables.peerConnections p ≠ some x := by
    rw [h.canonicalIs]
    obtain hnone | hy := hcanonical
    · simp [hnone]
    · simpa [hy] using hxy.symm
  obtain ⟨u, hu, hkeeps, hpeer⟩ := select_winner h.toKeeps hme hxy hx hp
  have hpublished := h.setTables hkeeps hpeer
  rw [hdirection, h.canonicalIs] at hu
  unfold Node.incomingNegotiated
  rw [hu]
  simp only [if_true]
  split
  · next loser hloser =>
      obtain ⟨hy, -⟩ := Option.filter_eq_some_iff.1 hloser
      have hretired := hpublished.deactivateLoser
      simp only [filter_winner hxy] at hretired
      obtain hnone | hcanonical := hcanonical
      · rw [hnone] at hy
        cases hy
      · obtain rfl : y = loser := Option.some.inj (hcanonical.symm.trans hy)
        rw [hpublished.retireOf (by simpa using hxy)]
        exact ⟨_, hretired.setReaderX hxy _, .retiring hcanonical⟩
  · next hfree =>
      obtain hnone | hy := hmanager
      · refine ⟨_, hpublished.adoptX hxy rfl hp ?_, .adopted (fun hcanonical => ?_) hnone⟩
        · rw [hnone]
          rfl
        · rw [hcanonical] at hfree
          simpa [Option.filter_some, h.closed] using hfree
      · exact ⟨_, hpublished.adoptX_over hxy rfl hp hy, .retiringPrevious hy⟩

/-- The hello on X completes, and the caller has taken Y over if the attempt has returned it. -/
theorem InvB.incomingNegotiated (h : InvB me p x y k s) (hme : p ≠ me) (hxy : x ≠ y)
    (hdirection : preferredDirection me p = .inbound) {session : ProtocolSession F}
    (hp : session.peerId = p)
    (hguard : ¬ (s.attempts y = .returned y ∧ s.callers k = .waiting p y))
    (hs : step me s (.incomingNegotiated x session) = some t) : InvB me p x y k t := by
  obtain ⟨v, hv, hphase⟩ := h
  simp only [step] at hs
  split at hs
  · next hnegotiating =>
      cases hs
      have hreader := hv.readerX.symm.trans hnegotiating
      cases hphase with
      | opening hattempt =>
          obtain ⟨w, hw, hreplaces⟩ :=
            hv.incomingWinner hme hxy hdirection (Or.inl rfl) (Or.inl rfl) hp
          refine ⟨w, hw, ?_⟩
          cases hreplaces with
          | retiring hy => cases hy
          | adopted => exact .losing hattempt
          | retiringPrevious hy => cases hy
      | returned => exact absurd ⟨hv.attempt, hv.caller⟩ hguard
      | @handedOut rx ry manager closed _ hreads hmanager =>
          have hcanonical : canonicalOf y ry = none ∨ canonicalOf y ry = some y := by
            unfold canonicalOf
            split
            · exact Or.inr rfl
            · exact Or.inl rfl
          obtain ⟨w, hw, hreplaces⟩ :=
            hv.incomingWinner hme hxy hdirection hcanonical hmanager hp
          refine ⟨w, hw, ?_⟩
          cases hreplaces with
          | retiring => exact .retiring hp hreads hmanager
          | adopted hclosed =>
              refine .replaced hreads fun hreading => hclosed ?_
              exact if_pos hreading
          | retiringPrevious => exact .retiringPrevious hp hreads
      | _ => cases hreader
  · cases hs

/-- **X overtakes the caller**: Y loses the session that the caller will look for. -/
theorem InvB.overtaken (h : InvB me p x y k s) (hme : p ≠ me) (hxy : x ≠ y)
    (hdirection : preferredDirection me p = .inbound) {session : ProtocolSession F}
    (hp : session.peerId = p) (hattempt : s.attempts y = .returned y)
    (hcaller : s.callers k = .waiting p y)
    (hs : step me s (.incomingNegotiated x session) = some t) : t.tables.ready y = none := by
  obtain ⟨v, hv, hphase⟩ := h
  have hattempt := hv.attempt.symm.trans hattempt
  have hcaller := hv.caller.symm.trans hcaller
  simp only [step] at hs
  split at hs
  · cases hs
    cases hphase with
    | returned =>
        obtain ⟨w, hw, hreplaces⟩ :=
          hv.incomingWinner hme hxy hdirection (Or.inr rfl) (Or.inr rfl) hp
        refine hw.ready_loser_eq_none ?_
        rw [hw.canonicalIs, hreplaces.canonical]
        simpa using hxy
    | opening hopening =>
        obtain rfl | rfl := hopening
        · cases hattempt
        · cases hattempt
    | losing hopening =>
        obtain rfl | rfl := hopening
        · cases hattempt
        · cases hattempt
    | lost hlost =>
        obtain rfl | rfl := hlost
        · cases hattempt
        · exact absurd (AttemptPc.returned.inj hattempt) hxy
    | _ => cases hcaller
  · cases hs

/-- The reader of the winner goes on at B. -/
theorem InvB.resumeReaderX (h : InvB me p x y k s) (hxy : x ≠ y)
    (hs : step me s (.resumeReader x) = some t) : InvB me p x y k t := by
  obtain ⟨v, hv, hphase⟩ := h
  simp only [step, hv.readerX] at hs
  cases hphase with
  | opening _ hreader => obtain rfl | rfl := hreader <;> cases hs
  | returned hreader => obtain rfl | rfl := hreader <;> cases hs
  | handedOut hreader => obtain rfl | rfl := hreader <;> cases hs
  | @retiring session _ _ _ hp hreads hmanager =>
      cases hs
      exact ⟨_, (hv.closeConnection hxy).setReaderX hxy (.closingLoser session y),
        .closingLoser hp hreads.close hmanager⟩
  | closingLoser hp hreads hmanager =>
      cases hs
      refine ⟨_, hv.adoptX hxy rfl hp ?_, .replaced hreads fun _ => rfl⟩
      obtain rfl | rfl := hmanager
      · rfl
      · simp
  | @retiringPrevious session _ _ hp hreads =>
      cases hs
      exact ⟨_, (hv.closeConnection hxy).setReaderX hxy (.closingPrevious session),
        .closingPrevious hp hreads.close⟩
  | closingPrevious hp hreads =>
      cases hs
      exact ⟨_, hv.startReadingX hxy rfl hp, .replaced hreads fun _ => rfl⟩
  | _ => cases hs

/-- The reader of the connection that lost goes on at B. -/
theorem InvB.resumeReaderY (h : InvB me p x y k s) (hxy : x ≠ y)
    (hs : step me s (.resumeReader y) = some t) : InvB me p x y k t := by
  obtain ⟨v, hv, hphase⟩ := h
  simp only [step, hv.readerY] at hs
  have habsent : v.readerY ≠ .absent := by
    intro habsent
    rw [habsent] at hs
    cases hs
  have hreads := hphase.reads habsent
  generalize hreader : v.readerY = pc at hs hreads
  cases hreads with
  | reading => cases hs
  | ending hp =>
      cases hs
      rw [hp]
      have hold : v.readerY.isReading = false := by
        rw [hreader]
        rfl
      exact ⟨_, (hv.connectionLost.closeConnection hxy).setReaderY hxy .closing,
        ((hphase.forget hxy habsent).close).setReaderY hold habsent rfl (.closing rfl)⟩
  | closing hclosed =>
      cases hs
      have hold : v.readerY.isReading = false := by
        rw [hreader]
        rfl
      exact ⟨_, hv.setReaderY hxy .ended,
        hphase.setReaderY hold habsent rfl (.ended hclosed)⟩
  | ended => cases hs

/-- It ends. -/
theorem InvB.readerEnds (h : InvB me p x y k s) (hxy : x ≠ y)
    (hs : step me s (.readerEnds y) = some t) : InvB me p x y k t := by
  obtain ⟨v, hv, hphase⟩ := h
  simp only [step] at hs
  split at hs
  · next session hreading =>
      cases hs
      have hreader := hv.readerY.symm.trans hreading
      have habsent : v.readerY ≠ .absent := by
        rw [hreader]
        rintro ⟨⟩
      have hreads := hphase.reads habsent
      rw [hreader] at hreads
      cases hreads with
      | reading hp =>
          exact ⟨_, hv.deactivateLoser.setReaderY hxy (.ending session),
            hphase.unpublish hxy habsent hp⟩
  · cases hs

/-- The caller of B goes on. -/
theorem InvB.resumeCaller (h : InvB me p x y k s) (hxy : x ≠ y)
    (hs : step me s (.resumeCaller k) = some t) : InvB me p x y k t := by
  obtain ⟨v, hv, hphase⟩ := h
  simp only [step, hv.caller] at hs
  cases hphase with
  | opening hattempt =>
      simp only [hv.attempt] at hs
      obtain rfl | rfl := hattempt <;> cases hs
  | losing hattempt =>
      simp only [hv.attempt] at hs
      obtain rfl | rfl := hattempt <;> cases hs
  | lost hattempt =>
      simp only [hv.attempt] at hs
      obtain rfl | rfl := hattempt
      · cases hs
      · cases hs
        exact ⟨_, hv.handOverReading rfl rfl, .handedWinner⟩
  | returned hreader =>
      simp only [hv.attempt, Option.some.injEq] at hs
      subst hs
      obtain ⟨session, hp, hv⟩ := hv.handOverY hxy rfl rfl
      exact ⟨_, hv, .handedOut hreader (.reading hp) (Or.inr rfl)⟩
  | _ => cases hs

/-- The connection that lost is closed from outside. -/
theorem InvB.close (h : InvB me p x y k s) (hxy : x ≠ y) :
    InvB me p x y k (s.closeConnection y) := by
  obtain ⟨v, hv, hphase⟩ := h
  exact ⟨_, hv.closeConnection hxy, hphase.close⟩

end SimultaneousOpen
end Sessions
end Core
end Paqto
