/-
# The phases of a simultaneous open

Each node of `Paqto.Core.SimultaneousOpen` goes through a few phases: what its attempt, its
caller and the two readers do, what it has as the canonical connection and in the manager,
and whether Y is closed.  `PhaseA` lists those of the node that opens X, `PhaseB` those of
the node that opens Y, as long as X has not overtaken its caller.

X wins every selection (`select_winner`) and Y loses to an open X (`select_loser`), so Y
is closed on the way and X never is.
-/

import Paqto.Core.SimultaneousOpen

namespace Paqto
namespace Core

open Transition Python SessionTables

namespace Sessions

variable {F : Type}

/-- The reader reads. -/
def ReaderPc.isReading : ReaderPc F → Bool
  | .reading _ => true
  | _ => false

namespace SimultaneousOpen

variable {me p : Str} {x y : ℕ} {s t : Node F}

/-! ## The tables -/

/-- What a node keeps in every phase; the connection `x` wins. -/
structure Keeps (me p : Str) (x y : ℕ) (s : Node F) : Prop where
  tables : s.tables.WellFormed
  winner : ∀ r, s.tables.ready x = some r →
    r.session.peerId = p ∧ r.direction = preferredDirection me p
  loser : ∀ r, s.tables.ready y = some r →
    r.session.peerId = p ∧ r.direction ≠ preferredDirection me p
  canonical : ∀ c, s.tables.peerConnections p = some c → c = x ∨ c = y
  isOpen : s.isClosed x = false
  closingPeers : s.closingPeers p = false
  cancelled : s.cancelled x = false ∧ s.cancelled y = false

/-- It reads only some of the fields. -/
theorem Keeps.congr (h : Keeps me p x y s) (htables : t.tables = s.tables)
    (hopen : t.isClosed x = false) (hclosing : t.closingPeers = s.closingPeers)
    (hcancelled : t.cancelled = s.cancelled) : Keeps me p x y t where
  tables := htables ▸ h.tables
  winner := htables ▸ h.winner
  loser := htables ▸ h.loser
  canonical := htables ▸ h.canonical
  isOpen := hopen
  closingPeers := hclosing ▸ h.closingPeers
  cancelled := hcancelled ▸ h.cancelled

/-- The winner has a session when it is canonical. -/
theorem Keeps.ready_winner (h : Keeps me p x y s) (hx : s.tables.peerConnections p = some x) :
    ∃ r, s.tables.ready x = some r ∧ r.session.peerId = p :=
  h.tables.ready hx

/-- The other connection has none unless it is canonical. -/
theorem Keeps.ready_loser_eq_none (h : Keeps me p x y s)
    (hy : s.tables.peerConnections p ≠ some y) : s.tables.ready y = none := by
  refine Option.eq_none_iff_forall_ne_some.2 fun r hr => hy ?_
  rw [← (h.loser r hr).1]
  exact h.tables.canonical hr

/-- Nor has the winner. -/
theorem Keeps.ready_winner_eq_none (h : Keeps me p x y s)
    (hx : s.tables.peerConnections p ≠ some x) : s.tables.ready x = none := by
  refine Option.eq_none_iff_forall_ne_some.2 fun r hr => hx ?_
  rw [← (h.winner r hr).1]
  exact h.tables.canonical hr

/-- A session leaves the tables. -/
theorem Keeps.deactivateSession (h : Keeps me p x y s) (c : ℕ) :
    Keeps me p x y { s with tables := s.tables.deactivateSession c } where
  tables := h.tables.deactivateSession c
  winner r hr := h.winner r (ready_of_deactivateSession hr)
  loser r hr := h.loser r (ready_of_deactivateSession hr)
  canonical d hd := h.canonical d (peerConnections_of_deactivateSession hd)
  isOpen := h.isOpen
  closingPeers := h.closingPeers
  cancelled := h.cancelled

/-- **X wins every selection.** -/
theorem select_winner (h : Keeps me p x y s) (hme : p ≠ me) (hxy : x ≠ y)
    (hx : s.tables.peerConnections p ≠ some x) {session : ProtocolSession F}
    (hp : session.peerId = p) :
    ∃ u, s.tables.selectReadyConnection me s.isClosed x session (preferredDirection me p) =
        some (u, ⟨x, (s.tables.peerConnections p).filter fun e => !s.isClosed e⟩) ∧
      Keeps me p x y { s with tables := u } ∧ u.peerConnections p = some x := by
  have hnew := h.ready_winner_eq_none hx
  have hselects : ∃ u, s.tables.selectReadyConnection me s.isClosed x session
      (preferredDirection me p) =
        some (u, ⟨x, (s.tables.peerConnections p).filter fun e => !s.isClosed e⟩) := by
    unfold selectReadyConnection
    rw [hp, if_neg hme]
    cases hopen : (s.tables.peerConnections p).filter fun e => !s.isClosed e with
    | none => exact ⟨_, rfl⟩
    | some e =>
        obtain ⟨he, -⟩ := Option.filter_eq_some_iff.1 hopen
        obtain rfl | rfl := h.canonical e he
        · exact absurd he hx
        · simp only [hxy.symm, if_false]
          rw [if_pos ⟨trivial, fun r hr => (h.loser r hr).2⟩]
          exact ⟨_, rfl⟩
  obtain ⟨u, hu⟩ := hselects
  obtain ⟨hwf, hready, hsub⟩ : u.WellFormed ∧
      u.ready x = some ⟨session, preferredDirection me p⟩ ∧
      ∀ d r, d ≠ x → u.ready d = some r → s.tables.ready d = some r := by
    generalize hsel : (⟨x, (s.tables.peerConnections p).filter fun e => !s.isClosed e⟩ :
      Selection) = sel at hu
    have hkind := selects_of_selectReadyConnection h.tables hnew hu
    cases hkind with
    | first _ hwf hready hsub => exact ⟨hwf, hready, hsub⟩
    | replaced _ _ _ hwf hready _ hsub => exact ⟨hwf, hready, hsub⟩
    | kept _ _ hne => exact absurd (congrArg Selection.selected hsel).symm hne
  have hpeer : u.peerConnections p = some x := by
    rw [← hp]
    exact hwf.canonical hready
  refine ⟨u, hu, ?_, hpeer⟩
  exact {
    tables := hwf
    winner := fun r hr => by
      cases hready.symm.trans hr
      exact ⟨hp, rfl⟩
    loser := fun r hr => h.loser r (hsub y r hxy.symm hr)
    canonical := fun c hc => Or.inl (Option.some.inj (hc.symm.trans hpeer))
    isOpen := h.isOpen
    closingPeers := h.closingPeers
    cancelled := h.cancelled }

/-- **Y loses to an open X.** -/
theorem select_loser (h : Keeps me p x y s) (hme : p ≠ me) (hxy : x ≠ y)
    (hx : s.tables.peerConnections p = some x) {session : ProtocolSession F}
    (hp : session.peerId = p) {direction : Direction}
    (hdirection : direction ≠ preferredDirection me p) :
    s.tables.selectReadyConnection me s.isClosed y session direction =
      some (s.tables, ⟨x, some y⟩) := by
  unfold selectReadyConnection
  rw [hp, if_neg hme, hx]
  simp [Option.filter_some, h.isOpen, hxy, hdirection]

/-- Y is published when there is nothing else. -/
theorem select_first (h : Keeps me p x y s) (hme : p ≠ me) (hxy : x ≠ y)
    (hnone : s.tables.peerConnections p = none) {session : ProtocolSession F}
    (hp : session.peerId = p) {direction : Direction}
    (hdirection : direction ≠ preferredDirection me p) :
    ∃ u, s.tables.selectReadyConnection me s.isClosed y session direction =
        some (u, ⟨y, none⟩) ∧
      Keeps me p x y { s with tables := u } ∧ u.peerConnections p = some y := by
  have hnew : s.tables.ready y = none := by
    refine h.ready_loser_eq_none ?_
    rw [hnone]
    exact Option.some_ne_none y |>.symm
  have hdrop : s.tables.dropClosed s.isClosed p = s.tables := by rw [dropClosed, hnone]
  refine ⟨s.tables.registerSession y session direction, ?_, ?_, ?_⟩
  · unfold selectReadyConnection
    rw [hp, if_neg hme, hnone]
    simp only [Option.filter_none, hdrop]
  · exact {
      tables := h.tables.registerSession hnew (hp ▸ hnone) direction
      winner := fun r hr => by
        obtain hr | ⟨heq, -⟩ := ready_of_registerSession hr
        · exact h.winner r hr
        · exact absurd heq hxy
      loser := fun r hr => by
        obtain hr | ⟨-, rfl⟩ := ready_of_registerSession hr
        · rw [hnew] at hr
          cases hr
        · exact ⟨hp, hdirection⟩
      canonical := fun c hc => by
        have hc : (Function.update s.tables.peerConnections session.peerId (some y)) p =
          some c := hc
        rw [hp, Function.update_self] at hc
        exact Or.inr (Option.some.inj hc).symm
      isOpen := h.isOpen
      closingPeers := h.closingPeers
      cancelled := h.cancelled }
  · simp [registerSession, hp]

/-! ## What a node shows -/

/-- What the phases are about. -/
structure View (F : Type) where
  /-- The attempt of the own connection. -/
  attempt : AttemptPc
  caller : CallerPc
  readerX : ReaderPc F
  readerY : ReaderPc F
  canonical : Option ℕ
  manager : Option ℕ
  /-- `is_closed` of Y -/
  closed : Bool

/-- The node that has opened `own` shows the view. -/
structure Shows (me p : Str) (x y own k : ℕ) (s : Node F) (v : View F) : Prop
    extends Keeps me p x y s where
  attempt : s.attempts own = v.attempt
  caller : s.callers k = v.caller
  readerX : s.readers x = v.readerX
  readerY : s.readers y = v.readerY
  canonicalIs : s.tables.peerConnections p = v.canonical
  manager : s.manager p = v.manager
  closed : s.isClosed y = v.closed
  /-- The connection of the other node has no attempt. -/
  unopened : ∀ c, c = x ∨ c = y → c ≠ own → s.attempts c = .absent

section shows

variable {own k : ℕ} {v : View F}

/-- The attempt moves. -/
theorem Shows.setAttempt (h : Shows me p x y own k s v) (pc : AttemptPc) :
    Shows me p x y own k (s.setAttempt own pc) { v with attempt := pc } where
  toKeeps := h.toKeeps.congr rfl h.isOpen rfl rfl
  attempt := Node.setAttempt_self
  caller := h.caller
  readerX := h.readerX
  readerY := h.readerY
  canonicalIs := h.canonicalIs
  manager := h.manager
  closed := h.closed
  unopened c hc hne := (Node.setAttempt_of_ne hne).trans (h.unopened c hc hne)

/-- The caller moves. -/
theorem Shows.setCaller (h : Shows me p x y own k s v) (pc : CallerPc) :
    Shows me p x y own k (s.setCaller k pc) { v with caller := pc } where
  toKeeps := h.toKeeps.congr rfl h.isOpen rfl rfl
  attempt := h.attempt
  caller := Node.setCaller_self
  readerX := h.readerX
  readerY := h.readerY
  canonicalIs := h.canonicalIs
  manager := h.manager
  closed := h.closed
  unopened := h.unopened

/-- The reader of the winner moves. -/
theorem Shows.setReaderX (h : Shows me p x y own k s v) (hxy : x ≠ y) (pc : ReaderPc F) :
    Shows me p x y own k (s.setReader x pc) { v with readerX := pc } where
  toKeeps := h.toKeeps.congr rfl h.isOpen rfl rfl
  attempt := h.attempt
  caller := h.caller
  readerX := Node.setReader_self
  readerY := (Node.setReader_of_ne hxy.symm).trans h.readerY
  canonicalIs := h.canonicalIs
  manager := h.manager
  closed := h.closed
  unopened := h.unopened

/-- The reader of the other connection moves. -/
theorem Shows.setReaderY (h : Shows me p x y own k s v) (hxy : x ≠ y) (pc : ReaderPc F) :
    Shows me p x y own k (s.setReader y pc) { v with readerY := pc } where
  toKeeps := h.toKeeps.congr rfl h.isOpen rfl rfl
  attempt := h.attempt
  caller := h.caller
  readerX := (Node.setReader_of_ne hxy).trans h.readerX
  readerY := Node.setReader_self
  canonicalIs := h.canonicalIs
  manager := h.manager
  closed := h.closed
  unopened := h.unopened

/-- The other connection is closed. -/
theorem Shows.closeConnection (h : Shows me p x y own k s v) (hxy : x ≠ y) :
    Shows me p x y own k (s.closeConnection y) { v with closed := true } where
  toKeeps := h.toKeeps.congr rfl ((Function.update_of_ne hxy ..).trans h.isOpen) rfl rfl
  attempt := h.attempt
  caller := h.caller
  readerX := h.readerX
  readerY := h.readerY
  canonicalIs := h.canonicalIs
  manager := h.manager
  closed := Function.update_self ..
  unopened := h.unopened

/-- It is closed in a set-up. -/
theorem Shows.closeInSetup (h : Shows me p x y own k s v) (hxy : x ≠ y) (q : Str) :
    Shows me p x y own k (s.closeInSetup q y) { v with closed := true } where
  toKeeps := (h.closeConnection hxy).toKeeps.congr rfl (h.closeConnection hxy).isOpen rfl rfl
  attempt := h.attempt
  caller := h.caller
  readerX := h.readerX
  readerY := h.readerY
  canonicalIs := h.canonicalIs
  manager := h.manager
  closed := Function.update_self ..
  unopened := h.unopened

/-- The session tables change. -/
theorem Shows.setTables (h : Shows me p x y own k s v) {u : SessionTables F}
    (hu : Keeps me p x y { s with tables := u }) {canonical : Option ℕ}
    (hcanonical : u.peerConnections p = canonical) :
    Shows me p x y own k { s with tables := u } { v with canonical } where
  toKeeps := hu
  attempt := h.attempt
  caller := h.caller
  readerX := h.readerX
  readerY := h.readerY
  canonicalIs := hcanonical
  manager := h.manager
  closed := h.closed
  unopened := h.unopened

/-- The entry of the manager changes. -/
theorem Shows.setManager (h : Shows me p x y own k s v) (manager : Option ℕ) :
    Shows me p x y own k { s with manager := Function.update s.manager p manager }
      { v with manager } where
  toKeeps := h.toKeeps.congr rfl h.isOpen rfl rfl
  attempt := h.attempt
  caller := h.caller
  readerX := h.readerX
  readerY := h.readerY
  canonicalIs := h.canonicalIs
  manager := Function.update_self ..
  closed := h.closed
  unopened := h.unopened

/-- The attempt ends. -/
theorem Shows.endAttempt (h : Shows me p x y own k s v) (pc : AttemptPc) :
    Shows me p x y own k (s.endAttempt own p pc) { v with attempt := pc } where
  toKeeps := h.toKeeps.congr rfl h.isOpen rfl rfl
  attempt := Node.setAttempt_self
  caller := h.caller
  readerX := h.readerX
  readerY := h.readerY
  canonicalIs := h.canonicalIs
  manager := h.manager
  closed := h.closed
  unopened c hc hne := (Node.setAttempt_of_ne hne).trans (h.unopened c hc hne)

/-- Y leaves the tables. -/
theorem Shows.deactivateLoser (h : Shows me p x y own k s v) :
    Shows me p x y own k { s with tables := s.tables.deactivateSession y }
      { v with canonical := v.canonical.filter (· ≠ y) } :=
  h.setTables (h.toKeeps.deactivateSession y)
    ((h.tables.peerConnections_deactivateSession y p).trans (h.canonicalIs ▸ rfl))

/-- `connection_lost` of Y. -/
theorem Shows.connectionLost (h : Shows me p x y own k s v) :
    Shows me p x y own k (s.connectionLost p y)
      { v with manager := v.manager.filter (· ≠ y) } := by
  unfold Node.connectionLost
  split
  · next hy =>
      have hfilter : v.manager.filter (· ≠ y) = none := by
        rw [← h.manager, hy]
        simp
      rw [hfilter]
      exact h.setManager none
  · next hy =>
      have hfilter : v.manager.filter (· ≠ y) = v.manager := by
        rw [← h.manager]
        cases hm : s.manager p with
        | none => rfl
        | some c =>
            have hne : c ≠ y := by
              rintro rfl
              exact hy hm
            simp [Option.filter_some, hne]
      rw [hfilter]
      exact h

end shows

/-! ## The phases -/

/-- A reader of Y that has begun to read; Y is closed once it ends. -/
inductive Reads (p : Str) (closed : Bool) : ReaderPc F → Prop
  | reading {session : ProtocolSession F} : session.peerId = p → Reads p closed (.reading session)
  | ending {session : ProtocolSession F} : session.peerId = p → Reads p closed (.ending session)
  | closing : closed = true → Reads p closed .closing
  | ended : closed = true → Reads p closed .ended

/-- The canonical connection while X is not published. -/
def canonicalOf (y : ℕ) (pc : ReaderPc F) : Option ℕ :=
  if pc.isReading then some y else none

/-- The phases of the node that opens X. -/
inductive PhaseA (p : Str) (x y : ℕ) : View F → Prop
  | opening {attempt : AttemptPc} {ry : ReaderPc F} {manager : Option ℕ} {closed : Bool} :
      attempt = .connecting p ∨ attempt = .negotiating p → manager = none ∨ manager = some y →
      PhaseA p x y ⟨attempt, .waiting p x, .absent, ry, canonicalOf y ry, manager, closed⟩
  | retiring {ry : ReaderPc F} {manager : Option ℕ} {closed : Bool} :
      manager = none ∨ manager = some y →
      PhaseA p x y ⟨.retiring p ⟨y, none⟩, .waiting p x, .absent, ry, some x, manager, closed⟩
  | closingLoser {ry : ReaderPc F} {manager : Option ℕ} :
      manager = none ∨ manager = some y →
      PhaseA p x y ⟨.closingLoser p, .waiting p x, .absent, ry, some x, manager, true⟩
  | closingPrevious {ry : ReaderPc F} :
      PhaseA p x y ⟨.closingPrevious p x, .waiting p x, .absent, ry, some x, some x, true⟩
  | returned {ry : ReaderPc F} {closed : Bool} : (ry.isReading → closed) →
      PhaseA p x y ⟨.returned x, .waiting p x, .absent, ry, some x, some x, closed⟩
  | handedOut {session : ProtocolSession F} {ry : ReaderPc F} {closed : Bool} :
      (ry.isReading → closed) →
      PhaseA p x y ⟨.returned x, .returned x, .reading session, ry, some x, some x, closed⟩

/-- The phases of the node that opens Y. -/
inductive PhaseB (p : Str) (x y : ℕ) : View F → Prop
  | opening {attempt : AttemptPc} {rx : ReaderPc F} {closed : Bool} :
      attempt = .connecting p ∨ attempt = .negotiating p → rx = .absent ∨ rx = .negotiating →
      PhaseB p x y ⟨attempt, .waiting p y, rx, .absent, none, none, closed⟩
  | losing {attempt : AttemptPc} {session : ProtocolSession F} {closed : Bool} :
      attempt = .connecting p ∨ attempt = .negotiating p →
      PhaseB p x y ⟨attempt, .waiting p y, .reading session, .absent, some x, some x, closed⟩
  | lost {attempt : AttemptPc} {session : ProtocolSession F} :
      attempt = .closingOpened p x ∨ attempt = .returned x →
      PhaseB p x y ⟨attempt, .waiting p y, .reading session, .absent, some x, some x, true⟩
  | handedWinner {session : ProtocolSession F} :
      PhaseB p x y ⟨.returned x, .returned x, .reading session, .absent, some x, some x, true⟩
  | returned {rx : ReaderPc F} {closed : Bool} : rx = .absent ∨ rx = .negotiating →
      PhaseB p x y ⟨.returned y, .waiting p y, rx, .absent, some y, some y, closed⟩
  | handedOut {rx ry : ReaderPc F} {manager : Option ℕ} {closed : Bool} :
      rx = .absent ∨ rx = .negotiating → Reads p closed ry → manager = none ∨ manager = some y →
      PhaseB p x y ⟨.returned y, .returned y, rx, ry, canonicalOf y ry, manager, closed⟩
  | retiring {session : ProtocolSession F} {ry : ReaderPc F} {manager : Option ℕ}
      {closed : Bool} :
      session.peerId = p → Reads p closed ry → manager = none ∨ manager = some y →
      PhaseB p x y
        ⟨.returned y, .returned y, .retiring session ⟨y, none⟩, ry, some x, manager, closed⟩
  | closingLoser {session : ProtocolSession F} {ry : ReaderPc F} {manager : Option ℕ} :
      session.peerId = p → Reads p true ry → manager = none ∨ manager = some y →
      PhaseB p x y ⟨.returned y, .returned y, .closingLoser session y, ry, some x, manager, true⟩
  | retiringPrevious {session : ProtocolSession F} {ry : ReaderPc F} {closed : Bool} :
      session.peerId = p → Reads p closed ry →
      PhaseB p x y
        ⟨.returned y, .returned y, .retiringPrevious session ⟨y, none⟩, ry, some x, some x, closed⟩
  | closingPrevious {session : ProtocolSession F} {ry : ReaderPc F} :
      session.peerId = p → Reads p true ry →
      PhaseB p x y ⟨.returned y, .returned y, .closingPrevious session, ry, some x, some x, true⟩
  | replaced {session : ProtocolSession F} {ry : ReaderPc F} {closed : Bool} :
      Reads p closed ry → (ry.isReading → closed) →
      PhaseB p x y ⟨.returned y, .returned y, .reading session, ry, some x, some x, closed⟩

/-- The other connection is closed. -/
theorem Reads.close {closed : Bool} {pc : ReaderPc F} (h : Reads p closed pc) :
    Reads p true pc := by
  cases h with
  | reading hp => exact .reading hp
  | ending hp => exact .ending hp
  | closing => exact .closing rfl
  | ended => exact .ended rfl

/-- The other connection is closed. -/
theorem PhaseA.close {v : View F} (h : PhaseA p x y v) :
    PhaseA p x y { v with closed := true } := by
  cases h with
  | opening hattempt hmanager => exact .opening hattempt hmanager
  | retiring hmanager => exact .retiring hmanager
  | closingLoser hmanager => exact .closingLoser hmanager
  | closingPrevious => exact .closingPrevious
  | returned => exact .returned fun _ => rfl
  | handedOut => exact .handedOut fun _ => rfl

/-- The other connection is closed. -/
theorem PhaseB.close {v : View F} (h : PhaseB p x y v) :
    PhaseB p x y { v with closed := true } := by
  cases h with
  | opening hattempt hreader => exact .opening hattempt hreader
  | losing hattempt => exact .losing hattempt
  | lost hattempt => exact .lost hattempt
  | handedWinner => exact .handedWinner
  | returned hreader => exact .returned hreader
  | handedOut hreader hreads hmanager => exact .handedOut hreader hreads.close hmanager
  | retiring hp hreads hmanager => exact .retiring hp hreads.close hmanager
  | closingLoser hp hreads hmanager => exact .closingLoser hp hreads hmanager
  | retiringPrevious hp hreads => exact .retiringPrevious hp hreads.close
  | closingPrevious hp hreads => exact .closingPrevious hp hreads
  | replaced hreads => exact .replaced hreads.close fun _ => rfl

end SimultaneousOpen
end Sessions
end Core
end Paqto
