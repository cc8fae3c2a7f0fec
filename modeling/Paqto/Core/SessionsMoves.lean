/-
# Moves of the tasks of a node

A step of the sessions is a move of an attempt, of the task of a connection or
of a caller.  What a move of an attempt (`AttemptMove`) and of the task of a
connection (`ReaderMove`) may do is said once, and every step of theirs is one;
the facts about the tables that make it so are `Node.Sound`.
-/

import Paqto.Core.Sessions

namespace Paqto
namespace Core
namespace Sessions

open Transition Python
open SessionTables (Selects selects_of_selectReadyConnection ready_of_deactivateSession)

variable {F : Type}

/-- The peer of an attempt that is not done. -/
def AttemptPc.peer : AttemptPc → Option Str
  | connecting p | negotiating p | retiring p _ | closingLoser p | closingOpened p _
  | closingPrevious p _ | failing p => some p
  | _ => none

/-- The attempt has been negotiated, or is over. -/
def AttemptPc.isPast : AttemptPc → Bool
  | absent | connecting _ | negotiating _ => false
  | _ => true

/-- The connection that the attempt goes on with, when it may not be its own. -/
def AttemptPc.selected : AttemptPc → Option ℕ
  | closingOpened _ c | closingPrevious _ c | returned c => some c
  | _ => none

/-- The connection `c` is the one that the attempt `a` goes on with. -/
def AttemptPc.leadsTo (pc : AttemptPc) (a c : ℕ) : Bool :=
  match pc with
  | retiring _ _ | closingLoser _ => c = a
  | closingOpened _ d | closingPrevious _ d | returned d => c = d
  | _ => false

/-- The reader is past the handshake of its connection. -/
def ReaderPc.isPast : ReaderPc F → Bool
  | absent | negotiating => false
  | _ => true

/-- In `_run_incoming_connection`, before `_read_connection`. -/
def ReaderPc.isIncoming : ReaderPc F → Bool
  | negotiating | retiring _ _ | closingLoser _ _ | retiringPrevious _ _ | closingPrevious _ =>
      true
  | _ => false

/-- The session was deactivated by its own task. -/
def ReaderPc.isOver : ReaderPc F → Bool
  | ending _ | closing | ended => true
  | _ => false

/-- The task is not done. -/
def ReaderPc.isActive : ReaderPc F → Bool
  | absent | ended => false
  | _ => true

/-- A task that is done has deactivated its session. -/
theorem ReaderPc.isOver_of_isPast {pc : ReaderPc F} (hp : pc.isPast = true)
    (ha : pc.isActive = false) : pc.isOver = true := by
  cases pc <;> simp [ReaderPc.isPast, ReaderPc.isActive, ReaderPc.isOver] at hp ha ⊢

/-- The negotiation of the connection is over. -/
def Node.Past (s : Node F) (c : ℕ) : Prop :=
  (s.attempts c).isPast = true ∨ (s.readers c).isPast = true

/-- **The attempts in flight.** -/
structure Node.Flights (s : Node F) : Prop where
  inFlight : ∀ p a, s.inFlight p = some a ↔ (s.attempts a).peer = some p ∧ s.cancelled a = false
  cancelled : ∀ a, s.attempts a = .absent → s.cancelled a = false
  returned : ∀ a c, s.attempts a = .returned c → s.cancelled a = false
  closing : ∀ p, s.closingPeers p = true → s.inFlight p = none

/-- **What holds between the tables and the tasks**; the connection `free` is
being published. -/
structure Node.Sound (free : Option ℕ) (s : Node F) : Prop where
  tables : s.tables.WellFormed
  past : ∀ c r, s.tables.ready c = some r → free = some c ∨ s.Past c
  ended : ∀ c, (s.readers c).isOver = true → s.tables.ready c = none
  outgoing : ∀ a p, s.attempts a = .connecting p ∨ s.attempts a = .negotiating p →
    s.readers a = .absent
  incoming : ∀ c, (s.readers c).isIncoming = true → s.attempts c = .absent
  manager : ∀ p c, s.manager p = some c → s.Past c
  selected : ∀ a c, (s.attempts a).selected = some c → s.Past c
  retiring : ∀ a p r, s.attempts a = .retiring p r →
    s.Past r.connection ∧ s.tables.ready r.connection = none
  failing : ∀ a p, s.attempts a = .failing p → s.isClosed a = true
  gathering : ∀ k p a c, s.callers k = .closingPeer (.gathering p a (some c)) → s.Past c
  fresh : ∀ k, s.nextCaller ≤ k → s.callers k = .absent

namespace Node

variable {s t : Node F}

/-- Where the attempt stands after its move. -/
@[simp] theorem setAttempt_self {a : ℕ} {pc : AttemptPc} : (s.setAttempt a pc).attempts a = pc := by
  simp [setAttempt]

/-- The other attempts stay where they are. -/
theorem setAttempt_of_ne {a b : ℕ} {pc : AttemptPc} (h : b ≠ a) :
    (s.setAttempt a pc).attempts b = s.attempts b := by
  simp [setAttempt, h]

/-- Where the reader stands after its move. -/
@[simp] theorem setReader_self {c : ℕ} {pc : ReaderPc F} : (s.setReader c pc).readers c = pc := by
  simp [setReader]

/-- The other readers stay where they are. -/
theorem setReader_of_ne {c d : ℕ} {pc : ReaderPc F} (h : d ≠ c) :
    (s.setReader c pc).readers d = s.readers d := by
  simp [setReader, h]

/-- Where the caller stands after its move. -/
@[simp] theorem setCaller_self {k : ℕ} {pc : CallerPc} : (s.setCaller k pc).callers k = pc := by
  simp [setCaller]

/-- The other callers stay where they are. -/
theorem setCaller_of_ne {k l : ℕ} {pc : CallerPc} (h : l ≠ k) :
    (s.setCaller k pc).callers l = s.callers l := by
  simp [setCaller, h]

/-! ## What a task does on its way -/

/-- Sessions leave the tables, connections close and the manager forgets; every
task stays where it is. -/
structure Settles (s t : Node F) : Prop where
  tables : s.tables.WellFormed → t.tables.WellFormed
  ready : ∀ c r, t.tables.ready c = some r → s.tables.ready c = some r
  closed : ∀ c, s.isClosed c = true → t.isClosed c = true
  manager : ∀ p c, t.manager p = some c → s.manager p = some c
  attempts : t.attempts = s.attempts
  readers : t.readers = s.readers
  callers : t.callers = s.callers
  nextCaller : t.nextCaller = s.nextCaller
  cancels : ∀ a, s.cancelled a = true → t.cancelled a = true

/-- No attempt is started, cancelled or fenced off either. -/
structure Quiet (s t : Node F) : Prop extends s.Settles t where
  inFlight : t.inFlight = s.inFlight
  cancelled : t.cancelled = s.cancelled
  closingPeers : t.closingPeers = s.closingPeers

/-- Nothing happens. -/
theorem Settles.refl (s : Node F) : s.Settles s :=
  ⟨id, fun _ _ => id, fun _ => id, fun _ _ => id, rfl, rfl, rfl, rfl, fun _ => id⟩

/-- Two steps of closing calls. -/
theorem Settles.trans {u : Node F} (h : s.Settles t) (h' : t.Settles u) : s.Settles u where
  tables hs := h'.tables (h.tables hs)
  ready c r hr := h.ready c r (h'.ready c r hr)
  closed c hc := h'.closed c (h.closed c hc)
  manager p c hc := h.manager p c (h'.manager p c hc)
  attempts := h'.attempts.trans h.attempts
  readers := h'.readers.trans h.readers
  callers := h'.callers.trans h.callers
  nextCaller := h'.nextCaller.trans h.nextCaller
  cancels a ha := h'.cancels a (h.cancels a ha)

/-- Nothing happens. -/
theorem Quiet.refl (s : Node F) : s.Quiet s := { Settles.refl s with
  inFlight := rfl, cancelled := rfl, closingPeers := rfl }

/-- Two quiet steps. -/
theorem Quiet.trans {u : Node F} (h : s.Quiet t) (h' : t.Quiet u) : s.Quiet u where
  toSettles := h.toSettles.trans h'.toSettles
  inFlight := h'.inFlight.trans h.inFlight
  cancelled := h'.cancelled.trans h.cancelled
  closingPeers := h'.closingPeers.trans h.closingPeers

/-- `close()` of a connection is quiet. -/
theorem quiet_closeConnection (s : Node F) (c : ℕ) : s.Quiet (s.closeConnection c) :=
  { Quiet.refl s with
    closed := fun d hd => by by_cases h : d = c <;> simp [closeConnection, h, hd] }

/-- So is the close of a connection in a set-up. -/
theorem quiet_closeInSetup (s : Node F) (p : Str) (c : ℕ) : s.Quiet (s.closeInSetup p c) :=
  { s.quiet_closeConnection c with }

/-- So is the retirement of a loser, up to its first await. -/
theorem quiet_beginRetire (s : Node F) (c : ℕ) : s.Quiet (s.beginRetire c) :=
  { Quiet.refl s with
    tables := fun h => h.deactivateSession c
    ready := fun _ _ => ready_of_deactivateSession }

/-- `connection_lost` installs nothing. -/
theorem quiet_connectionLost (s : Node F) (p : Str) (c : ℕ) : s.Quiet (s.connectionLost p c) := by
  unfold connectionLost
  split
  · exact { Quiet.refl s with
      manager := fun q d hd => by
        by_cases hq : q = p
        · simp [hq] at hd
        · simpa [hq] using hd }
  · exact .refl s

/-- The retirement of a loser, from there on. -/
theorem quiet_endRetire (s : Node F) (r : Retire) : s.Quiet (s.endRetire r) := by
  unfold endRetire
  split
  · exact s.quiet_connectionLost _ _
  · exact .refl s

/-- A closed connection is forgotten. -/
theorem quiet_forgetClosed (s : Node F) (p : Str) : s.Quiet (s.forgetClosed p) :=
  { Quiet.refl s with
    manager := fun q d hd => by
      simp only [forgetClosed] at hd
      split at hd
      · by_cases hq : q = p
        · simp [hq] at hd
        · simpa [hq] using hd
      · exact hd }

/-- A closing call publishes no session. -/
theorem Settles.ready_eq_none (h : s.Settles t) {c : ℕ} (hc : s.tables.ready c = none) :
    t.tables.ready c = none := by
  refine Option.eq_none_iff_forall_ne_some.2 fun r hr => ?_
  rw [h.ready c r hr] at hc
  cases hc

/-- It moves no set-up. -/
theorem Settles.past (h : s.Settles t) {c : ℕ} : t.Past c ↔ s.Past c := by
  rw [Past, Past, h.attempts, h.readers]

/-! ## Moves of an attempt -/

/-- What a step of the attempt `a` for `p` may do. -/
structure AttemptMove (s t : Node F) (a : ℕ) (p : Str) : Prop where
  tables : s.tables.WellFormed → t.tables.WellFormed
  ready : ∀ c r, t.tables.ready c = some r →
    s.tables.ready c = some r ∨
      c = a ∧ s.attempts a = .negotiating p ∧ (t.attempts a).isPast = true
  closed : ∀ c, s.isClosed c = true → t.isClosed c = true
  readers : t.readers = s.readers
  callers : t.callers = s.callers
  nextCaller : t.nextCaller = s.nextCaller
  cancelled : t.cancelled = s.cancelled
  closingPeers : t.closingPeers = s.closingPeers
  others : ∀ b, b ≠ a → t.attempts b = s.attempts b
  past : (t.attempts a).isPast = true ∨
    s.attempts a = .connecting p ∧ t.attempts a = .negotiating p
  flight : (t.attempts a).peer = some p ∧ t.inFlight = s.inFlight ∨
    (t.attempts a).peer = none ∧
      t.inFlight = if s.inFlight p = some a then Function.update s.inFlight p none else s.inFlight
  manager : ∀ q c, t.manager q = some c →
    s.manager q = some c ∨
      q = p ∧ (t.attempts a).selected = some c ∧ s.closingPeers p = false ∧ s.cancelled a = false
  selected : ∀ c, (t.attempts a).selected = some c → c = a ∨ s.Past c
  retiring : ∀ q r, t.attempts a = .retiring q r →
    s.Past r.connection ∧ t.tables.ready r.connection = none
  failing : ∀ q, t.attempts a = .failing q → t.isClosed a = true
  returned : ∀ c, t.attempts a = .returned c → s.cancelled a = false

/-- The attempt goes on. -/
theorem attemptMove_setAttempt {u : Node F} {a : ℕ} {p : Str} {pc : AttemptPc} (h : s.Quiet u)
    (hpc : pc.isPast = true) (hpeer : pc.peer = some p)
    (hselected : ∀ c, pc.selected = some c → c = a ∨ s.Past c)
    (hretiring : ∀ q r, pc = .retiring q r →
      s.Past r.connection ∧ u.tables.ready r.connection = none)
    (hfailing : ∀ q, pc = .failing q → u.isClosed a = true) :
    s.AttemptMove (u.setAttempt a pc) a p where
  tables := h.tables
  ready c r hr := .inl (h.ready c r hr)
  closed := h.closed
  readers := h.readers
  callers := h.callers
  nextCaller := h.nextCaller
  cancelled := h.cancelled
  closingPeers := h.closingPeers
  others b hb := (setAttempt_of_ne hb).trans (congrFun h.attempts b)
  past := .inl (by rwa [setAttempt_self])
  flight := .inl ⟨by rwa [setAttempt_self], h.inFlight⟩
  manager q c hc := .inl (h.manager q c hc)
  selected c hc := hselected c (by rwa [setAttempt_self] at hc)
  retiring q r hr := hretiring q r (by rwa [setAttempt_self] at hr)
  failing q hq := hfailing q (by rwa [setAttempt_self] at hq)
  returned c hc := by
    rw [setAttempt_self] at hc
    rw [hc] at hpeer
    cases hpeer

/-- The attempt is over; it has selected a connection or has raised. -/
theorem attemptMove_endAttempt {u : Node F} {a : ℕ} {p : Str} {pc : AttemptPc} (h : s.Quiet u)
    (hpc : pc.isPast = true) (hpeer : pc.peer = none)
    (hselected : ∀ c, pc.selected = some c → c = a ∨ s.Past c)
    (hreturned : ∀ c, pc = .returned c → s.cancelled a = false) :
    s.AttemptMove (u.endAttempt a p pc) a p where
  tables := h.tables
  ready c r hr := .inl (h.ready c r hr)
  closed := h.closed
  readers := h.readers
  callers := h.callers
  nextCaller := h.nextCaller
  cancelled := h.cancelled
  closingPeers := h.closingPeers
  others b hb := (setAttempt_of_ne hb).trans (congrFun h.attempts b)
  past := .inl (by rwa [endAttempt, setAttempt_self])
  flight := .inr ⟨by rwa [endAttempt, setAttempt_self], by
    simp only [endAttempt, setAttempt, h.inFlight]⟩
  manager q c hc := .inl (h.manager q c hc)
  selected c hc := hselected c (by rwa [endAttempt, setAttempt_self] at hc)
  retiring q r hr := by
    rw [endAttempt, setAttempt_self] at hr
    rw [hr] at hpeer
    cases hpeer
  failing q hq := by
    rw [endAttempt, setAttempt_self] at hq
    rw [hq] at hpeer
    cases hpeer
  returned c hc := hreturned c (by rwa [endAttempt, setAttempt_self] at hc)

/-- A step of an attempt, and then a quiet one. -/
theorem AttemptMove.quiet {u : Node F} {a : ℕ} {p : Str} (h : s.AttemptMove t a p)
    (h' : t.Quiet u) : s.AttemptMove u a p where
  tables hs := h'.tables (h.tables hs)
  ready c r hr := h'.attempts ▸ h.ready c r (h'.ready c r hr)
  closed c hc := h'.closed c (h.closed c hc)
  readers := h'.readers.trans h.readers
  callers := h'.callers.trans h.callers
  nextCaller := h'.nextCaller.trans h.nextCaller
  cancelled := h'.cancelled.trans h.cancelled
  closingPeers := h'.closingPeers.trans h.closingPeers
  others b hb := (congrFun h'.attempts b).trans (h.others b hb)
  past := h'.attempts ▸ h.past
  flight := h'.attempts ▸ h'.inFlight ▸ h.flight
  manager q c hc := h'.attempts ▸ h.manager q c (h'.manager q c hc)
  selected := h'.attempts ▸ h.selected
  retiring q r hr := by
    rw [h'.attempts] at hr
    obtain ⟨hpast, hready⟩ := h.retiring q r hr
    exact ⟨hpast, h'.ready_eq_none hready⟩
  failing q hq := h'.closed a (h.failing q (h'.attempts ▸ hq))
  returned := h'.attempts ▸ h.returned

/-- An attempt raises. -/
theorem attemptMove_raiseAttempt (s : Node F) (a : ℕ) (p : Str) :
    s.AttemptMove (s.raiseAttempt a p) a p :=
  (attemptMove_endAttempt (.refl s) rfl rfl (fun c hc => by cases hc) fun c hc => by
    cases hc).quiet (quiet_forgetClosed _ p)

/-- An attempt fails, and closes what it has opened. -/
theorem attemptMove_failAttempt (s : Node F) (a : ℕ) (p : Str) :
    s.AttemptMove (s.failAttempt a p) a p := by
  unfold failAttempt
  split
  · exact s.attemptMove_raiseAttempt a p
  · exact attemptMove_setAttempt (s.quiet_closeInSetup p a) rfl rfl (fun c hc => by cases hc)
      (fun q r h => by cases h) fun _ _ => by simp [closeInSetup, closeConnection]

/-- An attempt installs a connection and moves. -/
theorem AttemptMove.installed {a : ℕ} {p : Str} {selected : ℕ}
    (h : { s with manager := Function.update s.manager p (some selected) }.AttemptMove t a p)
    (hsel : (t.attempts a).selected = some selected) (hclosing : s.closingPeers p = false)
    (hcancelled : s.cancelled a = false) : s.AttemptMove t a p :=
  { h with
    manager := fun q c hc => by
      rcases h.manager q c hc with hc | hc
      · by_cases hq : q = p
        · subst hq
          simp only [Function.update_self] at hc
          exact .inr ⟨rfl, hsel.trans hc, hclosing, hcancelled⟩
        · simp only [Function.update_of_ne hq] at hc
          exact .inl hc
      · exact .inr hc }

/-- **An attempt installs what it has selected.** -/
theorem attemptMove_install {a : ℕ} {p : Str} {selected : ℕ}
    (hsel : selected = a ∨ s.Past selected) (hcancelled : s.cancelled a = false) :
    s.AttemptMove (s.install a p selected) a p := by
  unfold install
  split
  · exact s.attemptMove_failAttempt a p
  · rename_i hopen
    have hclosing : s.closingPeers p = false := by simpa using hopen
    have hselected : ∀ c, some selected = some c → c = a ∨ s.Past c := fun c hc => by
      cases hc
      exact hsel
    dsimp only
    split
    · exact AttemptMove.installed
        (attemptMove_setAttempt (quiet_closeInSetup _ p _) rfl rfl hselected
          (fun q r h => by cases h) fun q h => by cases h)
        (by rw [setAttempt_self, AttemptPc.selected]) hclosing hcancelled
    · exact AttemptMove.installed
        (attemptMove_endAttempt (.refl _) rfl rfl hselected fun _ _ => hcancelled)
        (by rw [endAttempt, setAttempt_self, AttemptPc.selected]) hclosing hcancelled

/-- The attempt publishes its own connection first. -/
theorem AttemptMove.published {a : ℕ} {p : Str} {u : SessionTables F}
    (h : { s with tables := u }.AttemptMove t a p) (hu : u.WellFormed)
    (hready : ∀ c r, c ≠ a → u.ready c = some r → s.tables.ready c = some r)
    (hpc : s.attempts a = .negotiating p) : s.AttemptMove t a p :=
  { h with
    tables := fun _ => h.tables hu
    ready := fun c r hr => by
      by_cases hc : c = a
      · refine .inr ⟨hc, hpc, h.past.resolve_right fun hp => ?_⟩
        rw [show s.attempts a = .connecting p from hp.1] at hpc
        cases hpc
      · exact .inl (hready c r hc ((h.ready c r hr).resolve_right fun hp => hc hp.1))
    retiring := h.retiring }

/-! ## Steps of an attempt -/

section attempts

variable {peerId : Str} {a : ℕ} {p : Str}

/-- A connection with a session is past its set-up. -/
theorem Sound.past_of_ready (h : s.Sound none) {c : ℕ} {r : ReadySession F}
    (hr : s.tables.ready c = some r) : s.Past c := (h.past c r hr).resolve_left (by simp)

/-- So is a canonical one. -/
theorem Sound.past_of_canonical (h : s.Sound none) {c : ℕ}
    (hp : s.tables.peerConnections p = some c) : s.Past c := by
  obtain ⟨r, hr, _⟩ := h.tables.ready hp
  exact h.past_of_ready hr

/-- A connection that is not past its set-up has no session. -/
theorem Sound.ready_eq_none (h : s.Sound none) {c : ℕ} (hc : ¬ s.Past c) :
    s.tables.ready c = none :=
  Option.eq_none_iff_forall_ne_some.2 fun _ hr => hc (h.past_of_ready hr)

/-- A connection in its handshake is not past its set-up. -/
theorem Sound.not_past_of_negotiating (h : s.Sound none) (ha : s.attempts a = .negotiating p) :
    ¬ s.Past a := by
  rw [Past, ha, h.outgoing a p (.inr ha)]
  simp [AttemptPc.isPast, ReaderPc.isPast]

/-- The transport has opened a connection. -/
theorem attemptMove_opened (ha : s.attempts a = .connecting p) :
    s.AttemptMove (s.setAttempt a (.negotiating p)) a p where
  tables := id
  ready _ _ := .inl
  closed _ := id
  readers := rfl
  callers := rfl
  nextCaller := rfl
  cancelled := rfl
  closingPeers := rfl
  others _ := setAttempt_of_ne
  past := .inr ⟨ha, setAttempt_self⟩
  flight := .inl ⟨by rw [setAttempt_self, AttemptPc.peer], rfl⟩
  manager _ _ := .inl
  selected c hc := by
    rw [setAttempt_self] at hc
    cases hc
  retiring q r hr := by
    rw [setAttempt_self] at hr
    cases hr
  failing q hq := by
    rw [setAttempt_self] at hq
    cases hq
  returned c hc := by
    rw [setAttempt_self] at hc
    cases hc

/-- **An attempt is past its handshake**: its connection is selected, or another one. -/
theorem attemptMove_negotiated (h : s.Sound none) {session : ProtocolSession F}
    (ha : s.attempts a = .negotiating p) (hcancelled : s.cancelled a = false) :
    s.AttemptMove (s.attemptNegotiated peerId a p session) a p := by
  have hready := h.ready_eq_none (h.not_past_of_negotiating ha)
  unfold attemptNegotiated
  split
  · exact s.attemptMove_failAttempt a p
  · rename_i u sel hsel
    cases selects_of_selectReadyConnection h.tables hready hsel with
    | first _ hwf _ hother =>
        simp only [if_true]
        exact AttemptMove.published (attemptMove_install (.inl rfl) hcancelled) hwf hother ha
    | replaced he hopen hne hwf _ hloser hother =>
        simp only [if_true]
        refine AttemptMove.published (attemptMove_setAttempt (quiet_beginRetire _ _) rfl rfl
          (fun c hc => by cases hc) (fun q r hr => ?_) fun q hq => by cases hq) hwf hother ha
        cases hr
        exact ⟨h.past_of_canonical he, by simp [beginRetire, retireOf]⟩
    | kept he hopen hne =>
        simp only [if_neg hne]
        have hpast := h.past_of_canonical he
        split
        · exact attemptMove_install (.inr hpast) hcancelled
        · refine attemptMove_setAttempt (quiet_closeInSetup _ p a) rfl rfl (fun c hc => ?_)
            (fun q r hr => by cases hr) fun q hq => by cases hq
          cases hc
          exact .inr hpast

/-- The peer that an attempt is for. -/
theorem peer_of_attempt {pc : AttemptPc} (ha : s.attempts a = pc) (hp : pc.peer = some p) :
    (s.attempts a).peer = some p := ha ▸ hp

/-- What `resumeAttempt` does. -/
theorem attemptMove_resume (h : s.Sound none)
    (hs : step peerId s (.resumeAttempt a) = some t) :
    ∃ p, (s.attempts a).peer = some p ∧ s.AttemptMove t a p := by
  simp only [step] at hs
  split at hs
  · cases hs
  · rename_i hcancel
    have hcancelled : s.cancelled a = false := by simpa using hcancel
    split at hs <;> cases hs
    · rename_i p r ha
      exact ⟨p, peer_of_attempt ha rfl, attemptMove_setAttempt
        ((s.quiet_endRetire _).trans (quiet_closeInSetup _ p _)) rfl rfl (fun c hc => by cases hc)
        (fun q r hr => by cases hr) fun q hq => by cases hq⟩
    · rename_i p ha
      exact ⟨p, peer_of_attempt ha rfl, attemptMove_install (.inl rfl) hcancelled⟩
    · rename_i p c ha
      exact ⟨p, peer_of_attempt ha rfl,
        attemptMove_install (.inr (h.selected a c (ha ▸ rfl))) hcancelled⟩
    · rename_i p c ha
      refine ⟨p, peer_of_attempt ha rfl, attemptMove_endAttempt (.refl s) rfl rfl (fun d hd => ?_)
        fun _ _ => hcancelled⟩
      cases hd
      exact .inr (h.selected a c (ha ▸ rfl))
    · rename_i p ha
      exact ⟨p, peer_of_attempt ha rfl, s.attemptMove_raiseAttempt a p⟩

/-- An attempt is cancelled. -/
theorem attemptMove_cancelled (hs : step peerId s (.attemptCancelled a) = some t) :
    ∃ p, (s.attempts a).peer = some p ∧ s.AttemptMove t a p := by
  simp only [step] at hs
  split at hs
  · split at hs <;> cases hs
    · rename_i p ha
      exact ⟨p, peer_of_attempt ha rfl, s.attemptMove_raiseAttempt a p⟩
    · rename_i p ha
      exact ⟨p, peer_of_attempt ha rfl, s.attemptMove_raiseAttempt a p⟩
    · rename_i p ha
      exact ⟨p, peer_of_attempt ha rfl, s.attemptMove_failAttempt a p⟩
    · rename_i p r ha
      exact ⟨p, peer_of_attempt ha rfl, s.attemptMove_failAttempt a p⟩
    · rename_i p ha
      exact ⟨p, peer_of_attempt ha rfl, s.attemptMove_failAttempt a p⟩
    · rename_i p c ha
      exact ⟨p, peer_of_attempt ha rfl, s.attemptMove_failAttempt a p⟩
    · rename_i p c ha
      exact ⟨p, peer_of_attempt ha rfl, s.attemptMove_failAttempt a p⟩
  · cases hs

/-- An attempt fails. -/
theorem attemptMove_fails (hs : step peerId s (.attemptFails a) = some t) :
    ∃ p, (s.attempts a).peer = some p ∧ s.AttemptMove t a p := by
  simp only [step] at hs
  split at hs
  · cases hs
  · split at hs <;> cases hs <;> rename_i p ha
    · exact ⟨p, peer_of_attempt ha rfl, s.attemptMove_raiseAttempt a p⟩
    · exact ⟨p, peer_of_attempt ha rfl, s.attemptMove_failAttempt a p⟩

end attempts

/-! ## Moves of the task of a connection -/

/-- What a step of the task of the connection `c` may do. -/
structure ReaderMove (s t : Node F) (c : ℕ) : Prop where
  tables : s.tables.WellFormed → t.tables.WellFormed
  ready : ∀ d r, t.tables.ready d = some r →
    s.tables.ready d = some r ∨ d = c ∧ s.readers c = .negotiating ∧ (t.readers c).isActive = true
  closed : ∀ d, s.isClosed d = true → t.isClosed d = true
  attempts : t.attempts = s.attempts
  callers : t.callers = s.callers
  nextCaller : t.nextCaller = s.nextCaller
  inFlight : t.inFlight = s.inFlight
  cancelled : t.cancelled = s.cancelled
  closingPeers : t.closingPeers = s.closingPeers
  others : ∀ d, d ≠ c → t.readers d = s.readers d
  past : (t.readers c).isPast = true ∨
    s.readers c = .absent ∧ s.attempts c = .absent ∧ t.readers c = .negotiating
  present : s.readers c ≠ .absent ∨ s.attempts c = .absent
  incoming : (t.readers c).isIncoming = true →
    (s.readers c).isIncoming = true ∨ s.attempts c = .absent
  ended : (t.readers c).isOver = true → t.tables.ready c = none
  manager : ∀ q d, t.manager q = some d →
    s.manager q = some d ∨ d = c ∧ (t.readers c).isPast = true ∧ s.closingPeers q = false

section readers

variable {peerId : Str} {c : ℕ}

/-- A reader moves after a quiet step. -/
theorem readerMove_setReader {u : Node F} {pc : ReaderPc F} (h : s.Quiet u)
    (hpc : pc.isPast = true) (hpresent : s.readers c ≠ .absent)
    (hincoming : pc.isIncoming = true → (s.readers c).isIncoming = true)
    (hover : pc.isOver = true → u.tables.ready c = none) : s.ReaderMove (u.setReader c pc) c where
  tables := h.tables
  ready d r hr := .inl (h.ready d r hr)
  closed := h.closed
  attempts := h.attempts
  callers := h.callers
  nextCaller := h.nextCaller
  inFlight := h.inFlight
  cancelled := h.cancelled
  closingPeers := h.closingPeers
  others d hd := (setReader_of_ne hd).trans (congrFun h.readers d)
  past := .inl (by rwa [setReader_self])
  present := .inl hpresent
  incoming hc := .inl (hincoming (by rwa [setReader_self] at hc))
  ended hc := hover (by rwa [setReader_self] at hc)
  manager q d hd := .inl (h.manager q d hd)

/-- An incoming set-up ends. -/
theorem readerMove_endIncoming {u : Node F} (h : s.Quiet u) (hpresent : s.readers c ≠ .absent) :
    s.ReaderMove (u.endIncoming c) c :=
  readerMove_setReader
    ((h.trans (u.quiet_beginRetire c)).trans (quiet_closeConnection (u.beginRetire c) c)) rfl
    hpresent (fun hc => by cases hc) fun _ => by simp [closeConnection]

/-- The reader starts, or the set-up ends. -/
theorem readerMove_startReading {session : ProtocolSession F} (hpresent : s.readers c ≠ .absent) :
    s.ReaderMove (s.startReading c session) c := by
  unfold startReading
  split
  · exact readerMove_setReader (.refl s) rfl hpresent (fun hc => by cases hc)
      fun hc => by cases hc
  · exact readerMove_endIncoming (s.quiet_connectionLost _ c) hpresent

/-- An incoming connection is installed, and its reader moves. -/
theorem ReaderMove.installed {p : Str}
    (h : { s with manager := Function.update s.manager p (some c) }.ReaderMove t c)
    (hpresent : s.readers c ≠ .absent) (hclosing : s.closingPeers p = false) :
    s.ReaderMove t c :=
  { h with
    manager := fun q d hd => by
      rcases h.manager q d hd with hd | hd
      · by_cases hq : q = p
        · subst hq
          simp only [Function.update_self, Option.some.injEq] at hd
          exact .inr ⟨hd.symm, h.past.resolve_right fun hp => hpresent hp.1, hclosing⟩
        · simp only [Function.update_of_ne hq] at hd
          exact .inl hd
      · exact .inr hd }

/-- **`adopt`** installs an incoming connection, or ends its set-up. -/
theorem readerMove_adopt {session : ProtocolSession F} {loser : Option ℕ}
    (hincoming : (s.readers c).isIncoming = true) : s.ReaderMove (s.adopt c session loser) c := by
  have hpresent : s.readers c ≠ .absent := fun h => by
    rw [h] at hincoming
    cases hincoming
  unfold adopt
  split
  · exact readerMove_endIncoming (.refl s) hpresent
  · rename_i hopen
    have hclosing : s.closingPeers session.peerId = false := by simpa using hopen
    dsimp only
    split
    · exact ReaderMove.installed (readerMove_setReader (quiet_beginRetire _ _) rfl hpresent
        (fun _ => hincoming) fun hc => by cases hc) hpresent hclosing
    · exact ReaderMove.installed (readerMove_startReading hpresent) hpresent hclosing

/-- The task publishes its own connection first. -/
theorem ReaderMove.published {u : SessionTables F} (h : { s with tables := u }.ReaderMove t c)
    (hu : u.WellFormed)
    (hready : ∀ d r, d ≠ c → u.ready d = some r → s.tables.ready d = some r)
    (hpc : s.readers c = .negotiating) : s.ReaderMove t c := by
  have hpast : (t.readers c).isPast = true := h.past.resolve_right fun hp => by
    rw [show s.readers c = .absent from hp.1] at hpc
    cases hpc
  refine { h with tables := fun _ => h.tables hu, ready := fun d r hr => ?_ }
  by_cases hd : d = c
  · subst hd
    refine .inr ⟨rfl, hpc, ?_⟩
    cases hact : (t.readers d).isActive with
    | true => rfl
    | false =>
        rw [h.ended (ReaderPc.isOver_of_isPast hpast hact)] at hr
        cases hr
  · exact .inl (hready d r hd ((h.ready d r hr).resolve_right fun hp => hd hp.1))

/-- **An incoming connection is past its handshake.** -/
theorem readerMove_negotiated (h : s.Sound none) {session : ProtocolSession F}
    (hc : s.readers c = .negotiating) :
    s.ReaderMove (s.incomingNegotiated peerId c session) c := by
  have hpresent : s.readers c ≠ .absent := by
    rw [hc]
    rintro ⟨⟩
  have hincoming : (s.readers c).isIncoming = true := by
    rw [hc]
    rfl
  have hready : s.tables.ready c = none := h.ready_eq_none (by
    rw [Past, hc, h.incoming c hincoming]
    simp [AttemptPc.isPast, ReaderPc.isPast])
  unfold incomingNegotiated
  split
  · exact readerMove_endIncoming (.refl s) hpresent
  · rename_i u sel hsel
    cases selects_of_selectReadyConnection h.tables hready hsel with
    | first _ hwf _ hother =>
        simp only [if_true]
        exact ReaderMove.published (readerMove_adopt hincoming) hwf hother hc
    | replaced he hopen hne hwf _ hloser hother =>
        simp only [if_true]
        exact ReaderMove.published (readerMove_setReader (quiet_beginRetire _ _) rfl hpresent
          (fun _ => hincoming) fun hq => by cases hq) hwf hother hc
    | kept he hopen hne =>
        simp only [if_neg hne]
        exact readerMove_endIncoming (.refl s) hpresent

/-- A reader goes on. -/
theorem readerMove_resume (h : s.Sound none) (hs : step peerId s (.resumeReader c) = some t) :
    s.ReaderMove t c := by
  simp only [step] at hs
  split at hs <;> cases hs <;> rename_i hc
  all_goals have hpresent : s.readers c ≠ .absent := by rw [hc]; rintro ⟨⟩
  · exact readerMove_setReader ((s.quiet_endRetire _).trans (quiet_closeConnection _ _)) rfl
      hpresent (fun _ => hc ▸ rfl) fun hq => by cases hq
  · exact readerMove_adopt (hc ▸ rfl)
  · exact readerMove_setReader ((s.quiet_endRetire _).trans (quiet_closeConnection _ _)) rfl
      hpresent (fun _ => hc ▸ rfl) fun hq => by cases hq
  · exact readerMove_startReading hpresent
  · exact readerMove_setReader ((s.quiet_connectionLost _ c).trans (quiet_closeConnection _ _)) rfl
      hpresent (fun hq => by cases hq) fun _ =>
        (s.quiet_connectionLost _ c).ready_eq_none (h.ended c (hc ▸ rfl))
  · exact readerMove_setReader (.refl s) rfl hpresent (fun hq => by cases hq) fun _ =>
      h.ended c (hc ▸ rfl)

/-- A reader ends. -/
theorem readerMove_readerEnds (hs : step peerId s (.readerEnds c) = some t) :
    s.ReaderMove t c := by
  simp only [step] at hs
  split at hs <;> cases hs
  rename_i hc
  refine readerMove_setReader (s.quiet_beginRetire c) rfl (by rw [hc]; rintro ⟨⟩)
    (fun hq => by cases hq) fun _ => ?_
  simp

end readers

end Node
end Sessions
end Core
end Paqto
