/-
# A connection that is handed out has a session

`_connect_discovered` (`core/node.py`) gets a connection from the manager and
then asks for its session.  The node deactivates a session before the manager
forgets its connection, and a caller resumes after its attempt is done, so the
session may be gone.  It is there in every run in which no session is taken from
a connection that can still be handed out (`handed_out_with_session`).
-/

import Paqto.Core.Negotiation
import Paqto.Core.SessionsInvariant

namespace Paqto
namespace Core
namespace Sessions

open Transition Python
open SessionTables (selects_of_selectReadyConnection)

variable {F : Type}

/-- The step enters the branch of `_connect_discovered` for a connection
without a session. -/
def HandsOutNone (s : Node F) : Label F → Prop
  | .connect p _ => s.connectionForPeer p = none ∧ s.closingPeers p = false ∧
      ∃ c, s.manager p = some c ∧ s.isClosed c = false ∧ s.tables.sessionFor c = none
  | .resumeCaller k => ∃ p a c, s.callers k = .waiting p a ∧ s.attempts a = .returned c ∧
      s.tables.sessionFor c = none
  | _ => False

/-- Nobody is handed the connection `c` after a step to `t`: the manager does
not keep it open, and no attempt that goes on with it has a caller. -/
structure Node.Spares (s t : Node F) (c : ℕ) : Prop where
  manager : ∀ p, s.manager p = some c → t.manager p = some c → t.isClosed c = true
  waiting : ∀ k p a, s.callers k = .waiting p a → s.cancelled a = false →
    (s.attempts a).leadsTo a c = false

/-- The connection that the attempt `a` is about to install. -/
def AttemptPc.installs (pc : AttemptPc) (a c : ℕ) : Bool :=
  match pc with
  | closingLoser _ => c = a
  | closingOpened _ d => c = d
  | _ => false

/-- An attempt leads to the connection that it has selected. -/
theorem AttemptPc.leadsTo_of_selected {pc : AttemptPc} {a c : ℕ} (h : pc.selected = some c) :
    pc.leadsTo a c = true := by
  cases pc <;> cases h <;> simp [leadsTo]

/-- No step takes the session from a connection that can be handed out, or
makes a connection without a session one that can be: by joining the attempt
that goes on with it, by installing it, or by adopting it in the place of
another one. -/
structure KeepsSessions (peerId : Str) (s : Node F) (l : Label F) : Prop where
  drops : ∀ t c, step peerId s l = some t → s.tables.ready c ≠ none → t.tables.ready c = none →
    s.Spares t c
  joins : ∀ p b, l = .connect p b → s.connectionForPeer p = none →
    (∀ c, s.manager p = some c → s.isClosed c = true) →
      ∀ a c, s.inFlight p = some a → (s.attempts a).leadsTo a c = true →
        s.tables.ready c ≠ none
  installs : ∀ a, l = .resumeAttempt a → ∀ c, (s.attempts a).installs a c = true →
    s.isClosed c = false → s.tables.ready c ≠ none
  adopts : ∀ c, l = .resumeReader c → ∀ session loser m, s.readers c = .closingLoser session loser →
    s.manager session.peerId = some m → m ≠ c → m ≠ loser → s.isClosed c = false →
      s.tables.ready c ≠ none

/-- **A connection that can be handed out has a session.** -/
structure Node.HandsOut (s : Node F) : Prop where
  manager : ∀ p c, s.manager p = some c → s.isClosed c = false → s.tables.ready c ≠ none
  waiting : ∀ k p a c, s.callers k = .waiting p a → s.cancelled a = false →
    (s.attempts a).leadsTo a c = true → s.tables.ready c ≠ none

namespace Node

variable {peerId : Str} {s t : Node F}

/-- Nothing is handed out at the beginning. -/
theorem handsOut_initial : (initial : Node F).HandsOut where
  manager _ _ h := by cases h
  waiting _ _ _ _ h := by cases h

/-- The rule for one step: what can be handed out after it could be before, or
has a session. -/
theorem HandsOut.of_step (h : s.HandsOut) (hclosed : ∀ c, s.isClosed c = true → t.isClosed c = true)
    (hdrops : ∀ c, s.tables.ready c ≠ none → t.tables.ready c = none → s.Spares t c)
    (hmanager : ∀ p c, t.manager p = some c → t.isClosed c = false →
      s.manager p = some c ∨ t.tables.ready c ≠ none)
    (hwaiting : ∀ k p a c, t.callers k = .waiting p a → t.cancelled a = false →
      (t.attempts a).leadsTo a c = true →
        s.callers k = .waiting p a ∧ s.cancelled a = false ∧ (s.attempts a).leadsTo a c = true ∨
          t.tables.ready c ≠ none) : t.HandsOut where
  manager p c hc hopen hnone := by
    have hold := (hmanager p c hc hopen).resolve_right (not_not.2 hnone)
    have hready : s.tables.ready c ≠ none := h.manager p c hold (by
      cases hs : s.isClosed c with
      | false => rfl
      | true =>
          rw [hclosed c hs] at hopen
          cases hopen)
    rw [(hdrops c hready hnone).manager p hold hc] at hopen
    cases hopen
  waiting k p a c hk hcancel hlead hnone := by
    obtain ⟨hk, hcancel, hlead⟩ :=
      (hwaiting k p a c hk hcancel hlead).resolve_right (not_not.2 hnone)
    have hready := h.waiting k p a c hk hcancel hlead
    rw [(hdrops c hready hnone).waiting k p a hk hcancel] at hlead
    cases hlead

/-- A step that only takes away from what can be handed out. -/
theorem HandsOut.settles (h : s.HandsOut) (hs : s.Settles t)
    (hdrops : ∀ c, s.tables.ready c ≠ none → t.tables.ready c = none → s.Spares t c) :
    t.HandsOut := by
  refine h.of_step hs.closed hdrops (fun p c hc _ => .inl (hs.manager p c hc))
    fun k p a c hk hcancel hlead => .inl ⟨hs.callers ▸ hk, ?_, hs.attempts ▸ hlead⟩
  cases hold : s.cancelled a with
  | false => rfl
  | true =>
      rw [hs.cancels a hold] at hcancel
      cases hcancel

/-- The tables stay as they are. -/
theorem HandsOut.settles_of_eq (h : s.HandsOut) (hs : s.Settles t) (ht : t.tables = s.tables) :
    t.HandsOut :=
  h.settles hs fun _ hready hnone => absurd (ht ▸ hnone) hready

/-! ## Steps of an attempt -/

section attempts

variable {a : ℕ} {p : Str}

/-- An attempt that has failed leads to nothing. -/
theorem leadsTo_failAttempt (s : Node F) (a b c : ℕ) (p : Str) :
    ((s.failAttempt a p).attempts a).leadsTo b c = false := by
  unfold failAttempt
  split
  · simp [raiseAttempt, forgetClosed, endAttempt, setAttempt, AttemptPc.leadsTo]
  · simp [AttemptPc.leadsTo]

/-- One that installs leads to what it has selected. -/
theorem leadsTo_install {b c selected : ℕ}
    (h : ((s.install a p selected).attempts a).leadsTo b c = true) : c = selected := by
  unfold install at h
  split at h
  · rw [leadsTo_failAttempt] at h
    cases h
  · dsimp only at h
    split at h <;> simpa [endAttempt, AttemptPc.leadsTo] using h

/-- One that goes on led there before. -/
theorem leadsTo_resumeAttempt {c : ℕ} (hs : step peerId s (.resumeAttempt a) = some t)
    (hlead : (t.attempts a).leadsTo a c = true) : (s.attempts a).leadsTo a c = true := by
  simp only [step] at hs
  split at hs
  · cases hs
  · split at hs <;> cases hs <;> rename_i ha <;> rw [ha]
    · simpa [AttemptPc.leadsTo] using hlead
    · simpa [AttemptPc.leadsTo] using leadsTo_install hlead
    · simpa [AttemptPc.leadsTo] using leadsTo_install hlead
    · simpa [endAttempt, AttemptPc.leadsTo] using hlead
    · simp [raiseAttempt, forgetClosed, endAttempt, setAttempt, AttemptPc.leadsTo] at hlead

/-- What the attempt goes on with after its negotiation has a session. -/
theorem ready_of_attemptNegotiated (h : s.Sound none) {session : ProtocolSession F}
    (ha : s.attempts a = .negotiating p) {c : ℕ}
    (hlead : ((s.attemptNegotiated peerId a p session).attempts a).leadsTo a c = true) :
    (s.attemptNegotiated peerId a p session).tables.ready c ≠ none := by
  have hready := h.ready_eq_none (h.not_past_of_negotiating ha)
  unfold attemptNegotiated at hlead ⊢
  split
  · rename_i hsel
    rw [hsel] at hlead
    simp only at hlead
    rw [leadsTo_failAttempt] at hlead
    cases hlead
  · rename_i u sel hsel
    rw [hsel] at hlead
    simp only at hlead
    cases selects_of_selectReadyConnection h.tables hready hsel with
    | first _ _ hself _ =>
        simp only [if_true] at hlead ⊢
        rw [tables_install, leadsTo_install hlead]
        simp [hself]
    | replaced _ _ hne _ hself _ _ =>
        simp only [if_true] at hlead ⊢
        have hc : c = a := by simpa [AttemptPc.leadsTo] using hlead
        subst hc
        show (SessionTables.deactivateSession _ _).ready c ≠ none
        rw [SessionTables.deactivateSession_ready_ne hne.symm, hself]
        simp
    | @kept e he hopen hne =>
        obtain ⟨r, hr, _⟩ := h.tables.ready he
        simp only [if_neg hne] at hlead ⊢
        split at hlead
        · rename_i hclosed
          rw [if_pos hclosed, tables_install, leadsTo_install hlead]
          simp [hr]
        · rename_i hclosed
          have hc : c = e := by simpa [AttemptPc.leadsTo] using hlead
          rw [if_neg hclosed, hc]
          simp [setAttempt, closeInSetup, closeConnection, hr]

/-- A step of an attempt, given what it installs and goes on with. -/
theorem AttemptMove.handsOut (hmove : s.AttemptMove t a p) (h : s.HandsOut)
    (hdrops : ∀ c, s.tables.ready c ≠ none → t.tables.ready c = none → s.Spares t c)
    (hinstalls : ∀ c, (t.attempts a).selected = some c → t.manager p = some c →
      t.isClosed c = false → s.manager p = some c ∨ t.tables.ready c ≠ none)
    (hleads : ∀ c, (t.attempts a).leadsTo a c = true →
      (s.attempts a).leadsTo a c = true ∨ t.tables.ready c ≠ none) : t.HandsOut := by
  refine h.of_step hmove.closed hdrops (fun q c hc hopen => ?_) fun k q b c hk hcancel hlead => ?_
  · rcases hmove.manager q c hc with hold | ⟨rfl, hsel, _⟩
    · exact .inl hold
    · exact hinstalls c hsel hc hopen
  · rw [hmove.callers] at hk
    rw [hmove.cancelled] at hcancel
    by_cases hba : b = a
    · subst hba
      exact (hleads c hlead).imp_left fun hold => ⟨hk, hcancel, hold⟩
    · rw [hmove.others b hba] at hlead
      exact .inl ⟨hk, hcancel, hlead⟩

/-- An attempt fails. -/
theorem HandsOut.failAttempt (h : s.HandsOut) (a : ℕ) (p : Str) : (s.failAttempt a p).HandsOut := by
  refine (s.attemptMove_failAttempt a p).handsOut h (fun c hready hnone => ?_) (fun c hsel => ?_)
    fun c hlead => ?_
  · rw [tables_failAttempt] at hnone
    exact absurd hnone hready
  · unfold Node.failAttempt at hsel
    split at hsel
    · simp [Node.raiseAttempt, forgetClosed, endAttempt, setAttempt, AttemptPc.selected] at hsel
    · simp [AttemptPc.selected] at hsel
  · rw [leadsTo_failAttempt] at hlead
    cases hlead

/-- An attempt raises before it has opened anything. -/
theorem HandsOut.raiseAttempt (h : s.HandsOut) (a : ℕ) (p : Str) :
    (s.raiseAttempt a p).HandsOut := by
  refine (s.attemptMove_raiseAttempt a p).handsOut h (fun c hready hnone => absurd hnone hready)
    (fun c hsel => ?_) fun c hlead => ?_
  · simp [Node.raiseAttempt, forgetClosed, endAttempt, setAttempt, AttemptPc.selected] at hsel
  · simp [Node.raiseAttempt, forgetClosed, endAttempt, setAttempt, AttemptPc.leadsTo] at hlead

/-- An attempt goes on. -/
theorem HandsOut.resumeAttempt (h : s.HandsOut) (hs : s.Sound none)
    (hG : KeepsSessions peerId s (.resumeAttempt a))
    (ht : step peerId s (.resumeAttempt a) = some t) : t.HandsOut := by
  obtain ⟨q, hq, hmove⟩ := attemptMove_resume hs ht
  refine hmove.handsOut h (fun c => hG.drops t c ht) (fun c hsel hmanager hopen => ?_)
    fun c hlead => .inl (leadsTo_resumeAttempt ht hlead)
  have hold : s.isClosed c = false := by
    cases hc : s.isClosed c with
    | false => rfl
    | true =>
        rw [hmove.closed c hc] at hopen
        cases hopen
  rw [tables_resumeAttempt ht]
  have hinstall : ∀ d, t = s.install a q d → c = d := fun d he => by
    rw [he] at hsel
    unfold install at hsel
    split at hsel
    · unfold Node.failAttempt at hsel
      split at hsel
      · simp [Node.raiseAttempt, forgetClosed, endAttempt, setAttempt, AttemptPc.selected] at hsel
      · simp [AttemptPc.selected] at hsel
    · dsimp only at hsel
      split at hsel <;> simpa [endAttempt, AttemptPc.selected, eq_comm] using hsel
  simp only [step] at ht
  split at ht
  · cases ht
  · split at ht <;> cases ht <;> rename_i ha <;> rw [ha] at hq <;> cases hq
    · simp [AttemptPc.selected] at hsel
    · obtain rfl := hinstall a rfl
      exact .inr (hG.installs c rfl c (by simp [ha, AttemptPc.installs]) hold)
    · obtain rfl := hinstall _ rfl
      exact .inr (hG.installs a rfl c (by simp [ha, AttemptPc.installs]) hold)
    · exact .inl hmanager
    · simp [Node.raiseAttempt, forgetClosed, endAttempt, setAttempt, AttemptPc.selected] at hsel

/-- An attempt is past its handshake. -/
theorem HandsOut.attemptNegotiated (h : s.HandsOut) (hs : s.Sound none)
    {session : ProtocolSession F} (ha : s.attempts a = .negotiating p)
    (hcancelled : s.cancelled a = false) (hdrops : ∀ c, s.tables.ready c ≠ none →
      (s.attemptNegotiated peerId a p session).tables.ready c = none →
        s.Spares (s.attemptNegotiated peerId a p session) c) :
    (s.attemptNegotiated peerId a p session).HandsOut := by
  have hmove : s.AttemptMove (s.attemptNegotiated peerId a p session) a p :=
    attemptMove_negotiated hs ha hcancelled
  refine hmove.handsOut h hdrops (fun c hsel _ _ => .inr ?_) fun c hlead =>
    .inr (ready_of_attemptNegotiated hs ha hlead)
  exact ready_of_attemptNegotiated hs ha (AttemptPc.leadsTo_of_selected hsel)

/-- An attempt has opened its connection. -/
theorem HandsOut.opened (h : s.HandsOut) (ha : s.attempts a = .connecting p) :
    (s.setAttempt a (.negotiating p)).HandsOut := by
  refine (attemptMove_opened ha).handsOut h (fun c hready hnone => absurd hnone hready)
    (fun c hsel => ?_) fun c hlead => ?_
  · simp [AttemptPc.selected] at hsel
  · simp [AttemptPc.leadsTo] at hlead

/-- An attempt is cancelled. -/
theorem HandsOut.attemptCancelled (h : s.HandsOut)
    (ht : step peerId s (.attemptCancelled a) = some t) : t.HandsOut := by
  simp only [step] at ht
  split at ht
  · split at ht <;> cases ht <;> first
      | exact h.failAttempt a _
      | exact h.raiseAttempt a _
  · cases ht

/-- An attempt fails where it stands. -/
theorem HandsOut.attemptFails (h : s.HandsOut)
    (ht : step peerId s (.attemptFails a) = some t) : t.HandsOut := by
  simp only [step] at ht
  split at ht
  · cases ht
  · split at ht <;> cases ht
    · exact h.raiseAttempt a _
    · exact h.failAttempt a _

end attempts

/-! ## Readers -/

section readers

variable {c : ℕ}

/-- A reader moves, and drops no session that is about to be handed out. -/
theorem ReaderMove.handsOut (hmove : s.ReaderMove t c) (h : s.HandsOut)
    (hdrops : ∀ d, s.tables.ready d ≠ none → t.tables.ready d = none → s.Spares t d)
    (hadopts : ∀ p, t.manager p = some c → t.isClosed c = false →
      s.manager p = some c ∨ t.tables.ready c ≠ none) : t.HandsOut := by
  refine h.of_step hmove.closed hdrops (fun q d hd hopen => ?_) fun k q b d hk hcancel hlead =>
    .inl ⟨hmove.callers ▸ hk, hmove.cancelled ▸ hcancel, hmove.attempts ▸ hlead⟩
  rcases hmove.manager q d hd with hold | ⟨rfl, _⟩
  · exact .inl hold
  · exact hadopts q hd hopen

/-- A step of the task that leaves the entries of the manager alone. -/
theorem ReaderMove.handsOut_of_manager (hmove : s.ReaderMove t c) (h : s.HandsOut)
    (hdrops : ∀ d, s.tables.ready d ≠ none → t.tables.ready d = none → s.Spares t d)
    (hmanager : ∀ p, t.manager p = some c → s.manager p = some c) : t.HandsOut :=
  hmove.handsOut h hdrops fun p hp _ => .inl (hmanager p hp)

/-- The connection is closed. -/
theorem isClosed_endIncoming (s : Node F) (c : ℕ) : (s.endIncoming c).isClosed c = true := by
  simp [endIncoming, setReader, closeConnection]

/-- An adopted connection that stays open has a session, if it had one where
another one is retired. -/
theorem ready_of_adopt (h : s.tables.WellFormed) {session : ProtocolSession F} {loser : Option ℕ}
    (hopen : (s.adopt c session loser).isClosed c = false)
    (hready : ∀ m, s.manager session.peerId = some m → m ≠ c → some m ≠ loser →
      s.tables.ready c ≠ none) : (s.adopt c session loser).tables.ready c ≠ none := by
  unfold adopt at hopen ⊢
  split
  · rename_i hclosing
    rw [if_pos hclosing, isClosed_endIncoming] at hopen
    cases hopen
  · rename_i hclosing
    rw [if_neg hclosing] at hopen
    dsimp only at hopen ⊢
    split
    · rename_i m hm
      obtain ⟨hm, hne⟩ := Option.filter_eq_some_iff.1 hm
      have hne : m ≠ c ∧ some m ≠ loser := by simpa using hne
      show (SessionTables.deactivateSession _ _).ready c ≠ none
      rw [SessionTables.deactivateSession_ready_ne hne.1.symm]
      exact hready m hm hne.1 hne.2
    · rename_i hnone
      rw [hnone] at hopen
      unfold startReading at hopen ⊢
      split
      · rename_i hcan
        obtain ⟨r, hr, _⟩ := h.ready (by exact hcan)
        simpa [setReader] using fun hnone => by rw [hr] at hnone; cases hnone
      · rename_i hcan
        rw [if_neg hcan, isClosed_endIncoming] at hopen
        cases hopen

/-- An incoming connection ends. -/
theorem HandsOut.endIncoming (h : s.HandsOut) {u : Node F} (hquiet : s.Quiet u)
    (hpresent : s.readers c ≠ .absent)
    (hdrops : ∀ d, s.tables.ready d ≠ none → (u.endIncoming c).tables.ready d = none →
      s.Spares (u.endIncoming c) d) : (u.endIncoming c).HandsOut :=
  (readerMove_endIncoming hquiet hpresent).handsOut_of_manager h hdrops
    fun p hp => hquiet.manager p c hp

/-- An incoming connection is past its handshake. -/
theorem HandsOut.incomingNegotiated (h : s.HandsOut) (hs : s.Sound none)
    {session : ProtocolSession F} (hc : s.readers c = .negotiating)
    (hdrops : ∀ d, s.tables.ready d ≠ none →
      (s.incomingNegotiated peerId c session).tables.ready d = none →
        s.Spares (s.incomingNegotiated peerId c session) d) :
    (s.incomingNegotiated peerId c session).HandsOut := by
  have hmove : s.ReaderMove (s.incomingNegotiated peerId c session) c :=
    readerMove_negotiated hs hc
  have hready : s.tables.ready c = none := hs.ready_eq_none (by
    rw [Past, hc, hs.incoming c (by rw [hc]; rfl)]
    simp [AttemptPc.isPast, ReaderPc.isPast])
  unfold Node.incomingNegotiated at hmove hdrops ⊢
  split at hmove
  · rename_i hsel
    rw [hsel] at hdrops
    exact hmove.handsOut_of_manager h hdrops fun _ => id
  · rename_i u sel hsel
    rw [hsel] at hdrops
    dsimp only at hmove hdrops ⊢
    cases selects_of_selectReadyConnection hs.tables hready hsel with
    | first _ hwf hself _ =>
        simp only [if_true] at hmove hdrops ⊢
        refine hmove.handsOut h hdrops fun p hp hopen => .inr ?_
        exact ready_of_adopt hwf hopen fun m _ _ _ hnone => by
          rw [show u.ready c = none from hnone] at hself
          cases hself
    | replaced _ _ _ _ _ _ _ =>
        simp only [if_true] at hmove hdrops ⊢
        exact hmove.handsOut_of_manager h hdrops fun _ => id
    | kept _ _ hne =>
        simp only [if_neg hne] at hmove hdrops ⊢
        exact hmove.handsOut_of_manager h hdrops fun _ => id

/-- A reader goes on. -/
theorem HandsOut.resumeReader (h : s.HandsOut) (hs : s.Sound none)
    (hG : KeepsSessions peerId s (.resumeReader c))
    (ht : step peerId s (.resumeReader c) = some t) : t.HandsOut := by
  have hmove := readerMove_resume hs ht
  have hdrops := fun c => hG.drops t c ht
  simp only [step] at ht
  split at ht <;> cases ht
  · exact hmove.handsOut_of_manager h hdrops fun p hp =>
      (s.quiet_endRetire _).manager p c hp
  · rename_i session loser hc
    refine hmove.handsOut h hdrops fun p hp hopen => .inr ?_
    refine ready_of_adopt hs.tables hopen fun m hm hne hloser => ?_
    have hold : s.isClosed c = false := by
      cases hc : s.isClosed c with
      | false => rfl
      | true =>
          rw [hmove.closed c hc] at hopen
          cases hopen
    exact hG.adopts c rfl session loser m hc hm hne (fun he => hloser (congrArg some he)) hold
  · exact hmove.handsOut_of_manager h hdrops fun p hp =>
      (s.quiet_endRetire _).manager p c hp
  · refine hmove.handsOut_of_manager h hdrops fun p hp => ?_
    unfold startReading at hp
    split at hp
    · exact hp
    · exact (s.quiet_connectionLost _ c).manager p c hp
  · exact hmove.handsOut_of_manager h hdrops fun p hp =>
      (s.quiet_connectionLost _ c).manager p c hp
  · exact hmove.handsOut_of_manager h hdrops fun _ => id

end readers

/-! ## Callers -/

/-- A caller stops to wait. -/
theorem HandsOut.setCaller (h : s.HandsOut) {k : ℕ} {pc : CallerPc}
    (hpc : ∀ p a c, pc = .waiting p a → s.cancelled a = false →
      (s.attempts a).leadsTo a c = true → s.tables.ready c ≠ none) :
    (s.setCaller k pc).HandsOut where
  manager := h.manager
  waiting l p a c hl hcancel hlead := by
    by_cases hlk : l = k
    · subst hlk
      rw [setCaller_self] at hl
      exact hpc p a c hl hcancel hlead
    · rw [setCaller_of_ne hlk] at hl
      exact h.waiting l p a c hl hcancel hlead

/-- It reads only some of the fields. -/
theorem HandsOut.congr (h : s.HandsOut) (htables : t.tables = s.tables)
    (hmanager : t.manager = s.manager) (hclosed : t.isClosed = s.isClosed)
    (hcallers : t.callers = s.callers) (hcancelled : t.cancelled = s.cancelled)
    (hattempts : t.attempts = s.attempts) : t.HandsOut where
  manager p c := by
    rw [hmanager, hclosed, htables]
    exact h.manager p c
  waiting k p a c := by
    rw [hcallers, hcancelled, hattempts, htables]
    exact h.waiting k p a c

/-- A reader is started. -/
theorem HandsOut.ensureReader (h : s.HandsOut) (c : ℕ) (session : ProtocolSession F) :
    (s.ensureReader c session).HandsOut := by
  unfold Node.ensureReader
  split
  · exact h.congr rfl rfl rfl rfl rfl rfl
  · exact h.congr rfl rfl rfl rfl rfl rfl
  · exact h

/-- A closing call begins. -/
theorem HandsOut.closePeer (h : s.HandsOut) (setup : Bool) (p : Str) :
    (s.closePeer setup p).1.HandsOut :=
  h.settles_of_eq (s.settles_closePeer setup p) (s.tables_closePeer setup p)

/-- A connection is handed to its caller. -/
theorem HandsOut.handOver (h : s.HandsOut) (k : ℕ) (p : Str) (c : ℕ) :
    (s.handOver k p c).HandsOut := by
  unfold Node.handOver
  split
  · exact (h.ensureReader c _).setCaller fun q a d hq => by cases hq
  · have hclose := h.closePeer true p
    split <;> rename_i heq <;> rw [heq] at hclose <;>
      exact hclose.setCaller fun q a d hq => by cases hq

/-- An attempt is started. -/
theorem HandsOut.startAttempt (h : s.HandsOut) (p : Str) (b : ℕ) :
    (s.startAttempt p b).HandsOut where
  manager := h.manager
  waiting k q a c hk hcancel hlead := by
    by_cases hab : a = b
    · subst hab
      rw [Node.startAttempt, setAttempt_self] at hlead
      cases hlead
    · rw [Node.startAttempt, setAttempt_of_ne hab] at hlead
      exact h.waiting k q a c hk hcancel hlead

/-- A caller connects. -/
theorem HandsOut.connect (h : s.HandsOut) {p : Str} {b : ℕ}
    (hG : KeepsSessions peerId s (.connect p b)) (ht : s.connect p b = some t) : t.HandsOut := by
  have hnext : ({ s with nextCaller := s.nextCaller + 1 } : Node F).HandsOut :=
    h.congr rfl rfl rfl rfl rfl rfl
  simp only [Node.connect] at ht
  split at ht
  · cases ht
    exact hnext.setCaller fun q a d hq => by cases hq
  · rename_i hcan
    split at ht
    · cases ht
      exact hnext.setCaller fun q a d hq => by cases hq
    · split at ht
      · cases ht
        exact hnext.handOver _ p _
      · rename_i hmanager
        have hclosed : ∀ c, s.manager p = some c → s.isClosed c = true := fun c hc => by
          simpa [hc] using hmanager
        have hquiet := quiet_forgetClosed ({ s with nextCaller := s.nextCaller + 1 } : Node F) p
        have hforget := hnext.settles_of_eq hquiet.toSettles rfl
        unfold joinAttempt at ht
        split at ht
        · rename_i a hin
          cases ht
          refine hforget.setCaller fun q a' c hq hcancel hlead => ?_
          cases hq
          exact hG.joins p b rfl hcan hclosed a c hin hlead
        · split at ht
          · rename_i ha hr
            cases ht
            refine (hforget.startAttempt p b).setCaller fun q a c hq hcancel hlead => ?_
            cases hq
            rw [Node.startAttempt, setAttempt_self] at hlead
            cases hlead
          · cases ht

/-- A caller goes on. -/
theorem HandsOut.resumeCaller (h : s.HandsOut) {k : ℕ}
    (ht : step peerId s (.resumeCaller k) = some t) : t.HandsOut := by
  simp only [step] at ht
  split at ht
  · split at ht <;> cases ht
    · exact h.handOver k _ _
    · exact h.setCaller fun q a d hq => by cases hq
  · obtain ⟨⟨u, pc⟩, hu, rfl⟩ := Option.map_eq_some_iff.1 ht
    have hclose : u.HandsOut :=
      h.settles_of_eq (settles_resumeClosePeer hu) (tables_resumeClosePeer hu)
    cases pc <;> exact hclose.setCaller fun q a d hq => by cases hq
  · cases ht

/-- A caller is cancelled. -/
theorem HandsOut.cancelCaller (h : s.HandsOut) {k : ℕ}
    (ht : step peerId s (.cancelCaller k) = some t) : t.HandsOut := by
  simp only [step] at ht
  split at ht <;> cases ht
  · exact h.setCaller fun q a d hq => by cases hq
  · exact h.setCaller fun q a d hq => by cases hq
  · rename_i p hk
    exact (h.settles_of_eq (s.settles_endClosePeer p) rfl).setCaller fun q a d hq => by cases hq

end Node

/-! ## Runs -/

section runs

variable {peerId : Str} {s t : Node F}

/-- **One step keeps the sessions of what can be handed out**, if it meets the
condition. -/
theorem handsOut_step {l : Label F} (h : s.HandsOut) (hs : s.Sound none)
    (hG : KeepsSessions peerId s l) (ht : step peerId s l = some t) : t.HandsOut := by
  have hdrops := fun c => hG.drops t c ht
  cases l with
  | accept c =>
      simp only [step] at ht
      split at ht <;> cases ht
      exact h.congr rfl rfl rfl rfl rfl rfl
  | connect p a => exact h.connect hG ht
  | opened a =>
      simp only [step] at ht
      split at ht
      · rename_i p ha
        split at ht <;> cases ht
        exact h.opened ha
      · cases ht
  | attemptFails a => exact h.attemptFails ht
  | attemptNegotiated a session =>
      simp only [step] at ht
      split at ht
      · rename_i p ha
        split at ht <;> cases ht
        rename_i hcond
        exact h.attemptNegotiated hs ha hcond.1 hdrops
      · cases ht
  | attemptCancelled a => exact h.attemptCancelled ht
  | resumeAttempt a => exact h.resumeAttempt hs hG ht
  | incomingFails c =>
      simp only [step] at ht
      split at ht <;> cases ht
      rename_i hc
      exact h.endIncoming (.refl s) (by rw [hc]; rintro ⟨⟩) hdrops
  | incomingNegotiated c session =>
      simp only [step] at ht
      split at ht <;> cases ht
      exact h.incomingNegotiated hs ‹_› hdrops
  | resumeReader c => exact h.resumeReader hs hG ht
  | readerEnds c =>
      have hmove := Node.readerMove_readerEnds ht
      simp only [step] at ht
      split at ht <;> cases ht
      exact hmove.handsOut_of_manager h hdrops fun _ => id
  | resumeCaller k => exact h.resumeCaller ht
  | cancelCaller k => exact h.cancelCaller ht
  | disconnect p =>
      cases ht
      exact h.settles (s.settles_disconnect p) hdrops
  | resumeDisconnect d => exact h.settles (Node.settles_resumeDisconnect ht) hdrops
  | connectionState p =>
      cases ht
      exact h.settles_of_eq (s.quiet_forgetClosed p).toSettles rfl
  | close c =>
      cases ht
      exact h.settles_of_eq (s.quiet_closeConnection c).toSettles rfl

/-- **No connection without a session is handed out** where the invariant holds. -/
theorem not_handsOutNone (h : s.HandsOut) (hf : s.Flights) (l : Label F) :
    ¬ HandsOutNone s l := by
  have hnone : ∀ {c}, s.tables.sessionFor c = none → s.tables.ready c = none := fun hc => by
    simpa [SessionTables.sessionFor] using hc
  cases l <;> simp only [HandsOutNone, not_false_eq_true]
  · rintro ⟨_, _, c, hc, hopen, hsession⟩
    exact h.manager _ c hc hopen (hnone hsession)
  · rintro ⟨p, a, c, hk, ha, hsession⟩
    exact h.waiting _ p a c hk (hf.returned a c ha) (by simp [ha, AttemptPc.leadsTo]) (hnone hsession)

/-- It holds in the runs that meet the condition. -/
theorem handsOut_of_reachableWhen
    (h : ReachableWhen (system F peerId) (KeepsSessions peerId) s) : s.HandsOut := by
  have hall := h.invariant (I := fun s => s.HandsOut ∧ s.Sound none ∧ s.Flights)
    (by rintro _ rfl; exact ⟨Node.handsOut_initial, sound_initial, flights_initial⟩)
    fun s l t hI hG hs => ⟨handsOut_step hI.1 hI.2.1 hG hs, sound_step hI.2.1 hI.2.2 hs⟩
  exact hall.1

/-! ## Runs that meet the condition in all but one step -/

/-- A run from `s` enters the branch. -/
def CanHandOutNone (peerId : Str) (s : Node F) : Prop :=
  ∃ t l, Reachable ((system F peerId).startingAt s) t ∧ HandsOutNone t l

/-- A step after which one can be handed out. -/
theorem CanHandOutNone.of_step {l : Label F} (ht : step peerId s l = some t)
    (h : CanHandOutNone peerId t) : CanHandOutNone peerId s := by
  obtain ⟨u, l', hu, hnone⟩ := h
  have hstart : Reachable ((system F peerId).startingAt s) s := ReachableWhen.init rfl
  have hfirst : Reachable ((system F peerId).startingAt s) t := hstart.next l ht
  refine ⟨u, l', ?_, hnone⟩
  clear hnone
  induction hu with
  | init he => exact he ▸ hfirst
  | step m _ _ hs ih => exact ih.next m hs

/-- The manager holds a connection without a session open. -/
theorem canHandOutNone_of_manager (h : s.Sound none) (hfence : s.Fenced) {p : Str} {c : ℕ}
    (hc : s.manager p = some c) (hopen : s.isClosed c = false) (hready : s.tables.ready c = none) :
    CanHandOutNone peerId s := by
  have hsession : s.tables.sessionFor c = none := by simp [SessionTables.sessionFor, hready]
  have hclosing : s.closingPeers p = false := by
    cases hp : s.closingPeers p with
    | false => rfl
    | true =>
        rw [hfence p hp] at hc
        cases hc
  cases hcan : s.connectionForPeer p with
  | none => exact ⟨s, .connect p 0, .init rfl, hcan, hclosing, c, hc, hopen, hsession⟩
  | some w =>
      -- the canonical connection may be closed by its remote end
      obtain ⟨hw, _⟩ := Option.filter_eq_some_iff.1 hcan
      obtain ⟨r, hr, _⟩ := h.tables.ready hw
      have hne : c ≠ w := by
        rintro rfl
        rw [hr] at hready
        cases hready
      refine CanHandOutNone.of_step (l := .close w) rfl ⟨_, .connect p 0, .init rfl, ?_, hclosing, c,
        hc, ?_, hsession⟩
      · simp [Node.connectionForPeer, Node.closeConnection, hw, Option.filter_some]
      · simpa [Node.closeConnection, hne] using hopen

/-- How far an attempt is from its end. -/
def AttemptPc.rank : AttemptPc → ℕ
  | retiring _ _ => 3
  | closingLoser _ | closingOpened _ _ => 2
  | closingPrevious _ _ => 1
  | _ => 0

/-- An attempt that has decided for `c` goes on with it. -/
theorem exists_resumeAttempt (peerId : Str) (hf : s.Flights) {a c : ℕ} (hcancel : s.cancelled a = false)
    (hlead : (s.attempts a).leadsTo a c = true) (hend : s.attempts a ≠ .returned c) :
    ∃ t, step peerId s (.resumeAttempt a) = some t ∧ (t.attempts a).leadsTo a c = true ∧
      (t.attempts a).rank < (s.attempts a).rank := by
  have hinstall : ∀ p d, (s.attempts a).peer = some p → (s.attempts a).rank = 2 → d = c →
      ((s.install a p d).attempts a).leadsTo a c = true ∧
        ((s.install a p d).attempts a).rank < (s.attempts a).rank := by
    rintro p d hp hrank rfl
    have hclosing := hf.closingPeers_eq_false hp hcancel
    rw [hrank]
    unfold Node.install
    simp only [hclosing, Bool.false_eq_true, if_false]
    split <;> simp [Node.endAttempt, AttemptPc.leadsTo, AttemptPc.rank]
  cases ha : s.attempts a with
  | retiring p r =>
      refine ⟨_, by simp only [step, hcancel, Bool.false_eq_true, if_false, ha]; rfl, ?_, ?_⟩
      · rw [ha] at hlead
        simpa [AttemptPc.leadsTo] using hlead
      · simp [AttemptPc.rank]
  | closingLoser p =>
      have hc : a = c := by
        rw [ha] at hlead
        simpa [AttemptPc.leadsTo, eq_comm] using hlead
      have := hinstall p a (by rw [ha, AttemptPc.peer]) (by rw [ha, AttemptPc.rank]) hc
      exact ⟨_, by simp only [step, hcancel, Bool.false_eq_true, if_false, ha], ha ▸ this⟩
  | closingOpened p d =>
      have hc : d = c := by
        rw [ha] at hlead
        simpa [AttemptPc.leadsTo, eq_comm] using hlead
      have := hinstall p d (by rw [ha, AttemptPc.peer]) (by rw [ha, AttemptPc.rank]) hc
      exact ⟨_, by simp only [step, hcancel, Bool.false_eq_true, if_false, ha], ha ▸ this⟩
  | closingPrevious p d =>
      refine ⟨_, by simp only [step, hcancel, Bool.false_eq_true, if_false, ha]; rfl, ?_, ?_⟩
      · rw [ha] at hlead
        simpa [Node.endAttempt, AttemptPc.leadsTo] using hlead
      · simp [Node.endAttempt, AttemptPc.rank]
  | returned d =>
      rw [ha] at hlead hend
      exact absurd (by simpa [AttemptPc.leadsTo, eq_comm] using hlead) hend
  | absent | connecting | negotiating | failing | raised =>
      rw [ha] at hlead
      cases hlead

/-- A caller waits for an attempt that has decided for a connection without a
session. -/
theorem canHandOutNone_of_waiting (h : s.Sound none) (hf : s.Flights) {k a c : ℕ} {p : Str}
    (hk : s.callers k = .waiting p a) (hcancel : s.cancelled a = false)
    (hlead : (s.attempts a).leadsTo a c = true) (hready : s.tables.ready c = none) :
    CanHandOutNone peerId s := by
  induction hn : (s.attempts a).rank using Nat.strong_induction_on generalizing s with
  | _ n ih =>
      by_cases hend : s.attempts a = .returned c
      · exact ⟨s, .resumeCaller k, .init rfl, p, a, c, hk, hend,
          by simp [SessionTables.sessionFor, hready]⟩
      · obtain ⟨t, ht, hlead', hrank⟩ := exists_resumeAttempt peerId hf hcancel hlead hend
        obtain ⟨q, _, hmove⟩ := Node.attemptMove_resume h ht
        obtain ⟨hsound, hflights⟩ := sound_step h hf ht
        refine CanHandOutNone.of_step ht (ih _ (hn ▸ hrank) hsound hflights (hmove.callers ▸ hk)
          (hmove.cancelled ▸ hcancel) hlead' ?_ rfl)
        rw [Node.tables_resumeAttempt ht]
        exact hready

/-- A step that takes a session away moves no attempt that is decided. -/
theorem drop_keeps (h : s.Sound none) {l : Label F} (ht : step peerId s l = some t) {c : ℕ}
    (hready : s.tables.ready c ≠ none) (hnone : t.tables.ready c = none) :
    t.callers = s.callers ∧ t.cancelled = s.cancelled ∧
      ∀ a d, (s.attempts a).leadsTo a d = true → (t.attempts a).leadsTo a d = true := by
  have hsame : ∀ {u : Node F}, u.tables = s.tables → u.tables.ready c = none → False :=
    fun hu hr => hready (hu ▸ hr)
  have hreader : ∀ {d}, s.ReaderMove t d → t.callers = s.callers ∧ t.cancelled = s.cancelled ∧
      ∀ a d, (s.attempts a).leadsTo a d = true → (t.attempts a).leadsTo a d = true :=
    fun hmove => ⟨hmove.callers, hmove.cancelled, fun a d hd => hmove.attempts ▸ hd⟩
  cases l with
  | incomingFails d =>
      simp only [step] at ht
      split at ht <;> cases ht
      rename_i hd
      exact hreader (Node.readerMove_endIncoming (.refl s) (by rw [hd]; rintro ⟨⟩))
  | incomingNegotiated d session =>
      simp only [step] at ht
      split at ht <;> cases ht
      exact hreader (Node.readerMove_negotiated h ‹_›)
  | resumeReader d => exact hreader (Node.readerMove_resume h ht)
  | readerEnds d => exact hreader (Node.readerMove_readerEnds ht)
  | attemptNegotiated b session =>
      simp only [step] at ht
      split at ht
      · rename_i p hb
        split at ht <;> cases ht
        rename_i hcond
        have hmove : s.AttemptMove (s.attemptNegotiated peerId b p session) b p :=
          Node.attemptMove_negotiated h hb hcond.1
        refine ⟨hmove.callers, hmove.cancelled, fun a d hd => ?_⟩
        have hab : a ≠ b := by
          rintro rfl
          rw [hb] at hd
          cases hd
        rwa [hmove.others a hab]
      · cases ht
  | disconnect p =>
      cases ht
      unfold Node.disconnect at hnone ⊢
      dsimp only at hnone ⊢
      split
      · exact ⟨rfl, rfl, fun _ _ => id⟩
      · rename_i hcan
        rw [hcan] at hnone
        have htables := Node.tables_closePeer { s with nextDisconnect := s.nextDisconnect + 1 } false p
        dsimp only at hnone
        split at hnone <;> rename_i heq <;> rw [heq] at htables <;> exact (hsame htables hnone).elim
  | accept d =>
      simp only [step] at ht
      split at ht <;> cases ht
      exact (hsame rfl hnone).elim
  | connect p b => exact (hsame (Node.tables_connect ht) hnone).elim
  | opened b =>
      simp only [step] at ht
      split at ht
      · split at ht <;> cases ht
        exact (hsame rfl hnone).elim
      · cases ht
  | attemptFails b =>
      simp only [step] at ht
      split at ht
      · cases ht
      · split at ht <;> cases ht
        · exact (hsame rfl hnone).elim
        · exact (hsame (s.tables_failAttempt b _) hnone).elim
  | attemptCancelled b =>
      simp only [step] at ht
      split at ht
      · split at ht <;> cases ht <;> first
          | exact (hsame (s.tables_failAttempt b _) hnone).elim
          | exact (hsame (u := s.raiseAttempt b _) rfl hnone).elim
      · cases ht
  | resumeAttempt b => exact (hsame (Node.tables_resumeAttempt ht) hnone).elim
  | resumeCaller k => exact (hsame (Node.tables_resumeCaller ht) hnone).elim
  | cancelCaller k =>
      simp only [step] at ht
      split at ht <;> cases ht <;> exact (hsame rfl hnone).elim
  | resumeDisconnect d => exact (hsame (Node.tables_resumeDisconnect ht) hnone).elim
  | connectionState p =>
      cases ht
      exact (hsame rfl hnone).elim
  | close d =>
      cases ht
      exact (hsame rfl hnone).elim

/-- `_open_connection` installs what it goes on with. -/
theorem Node.install_manager (s : Node F) {a c : ℕ} {p : Str} (hclosing : s.closingPeers p = false)
    (hopen : s.isClosed c = false) :
    (s.install a p c).manager p = some c ∧ (s.install a p c).isClosed c = false ∧
      (s.install a p c).tables = s.tables := by
  unfold Node.install
  simp only [hclosing, Bool.false_eq_true, if_false]
  split
  · rename_i previous hprevious
    have hne : c ≠ previous :=
      (of_decide_eq_true (Option.filter_eq_some_iff.1 hprevious).2).symm
    simp [Node.setAttempt, Node.closeInSetup, Node.closeConnection, hne, hopen]
  · simp [Node.endAttempt, Node.setAttempt, hopen]

/-- **What is handed out has a session** in every run whose steps keep the
sessions of what can be handed out: no step enters the branch that closes the
peer and raises.  A step that does not can be followed by one that enters it. -/
theorem handed_out_with_session (F : Type) (peerId : Str) :
    (∀ s l, ReachableWhen (system F peerId) (KeepsSessions peerId) s → ¬ HandsOutNone s l) ∧
      ∀ s l t, Reachable (system F peerId) s → ¬ KeepsSessions peerId s l →
        step peerId s l = some t → CanHandOutNone peerId t := by
  refine ⟨fun s l h => not_handsOutNone (handsOut_of_reachableWhen h)
    (sound_of_reachable h.reachable).2 l, fun s l t hs hG ht => ?_⟩
  by_contra hno
  refine hG ?_
  obtain ⟨hsound, hflights⟩ := sound_of_reachable hs
  have hfence := fenced_of_reachable hs
  obtain ⟨hsound', hflights'⟩ := sound_step hsound hflights ht
  have hfence' := fenced_step hfence hsound ht
  have hmanager : ∀ {p c}, t.manager p = some c → t.tables.ready c = none →
      t.isClosed c = true := by
    intro p c hc hready
    cases hopen : t.isClosed c with
    | true => rfl
    | false => exact absurd (canHandOutNone_of_manager hsound' hfence' hc hopen hready) hno
  refine ⟨fun u c hu hready hnone => ?_, fun p b hl hcan hclosed a c hin hlead hready => ?_,
    fun a hl c hinst hopen hready => ?_, fun c hl session loser m hc hm hmc hml hopen hready => ?_⟩
  · obtain rfl := Option.some.inj (ht.symm.trans hu)
    obtain ⟨hcallers, hcancelled, hleads⟩ := drop_keeps hsound ht hready hnone
    refine ⟨fun p _ hc => hmanager hc hnone, fun k p a hk hcancel => ?_⟩
    cases hlead : (s.attempts a).leadsTo a c with
    | false => rfl
    | true =>
        exact absurd (canHandOutNone_of_waiting hsound' hflights' (hcallers ▸ hk)
          (hcancelled ▸ hcancel) (hleads a c hlead) hnone) hno
  · subst hl
    obtain ⟨hpeer, hcancel⟩ := (hflights.inFlight p a).1 hin
    have hclosing := hflights.closingPeers_eq_false hpeer hcancel
    have hfilter : (s.manager p).filter (fun c => !s.isClosed c) = none := by
      refine Option.filter_eq_none_iff.2 fun m hm => ?_
      simp [hclosed m hm]
    simp only [step, Node.connect, hcan, hclosing, Bool.false_eq_true, if_false, hfilter,
      Node.joinAttempt, Node.forgetClosed, hin, Option.some.injEq] at ht
    refine hno (canHandOutNone_of_waiting hsound' hflights' (k := s.nextCaller) (a := a) (c := c)
      (p := p) ?_ ?_ ?_ ?_) <;> subst ht
    · simp [Node.setCaller]
    · exact hcancel
    · exact hlead
    · exact hready
  · subst hl
    have hcancel : s.cancelled a = false := by
      cases hq : s.cancelled a with
      | false => rfl
      | true => simp [step, hq] at ht
    obtain ⟨p, hp, rfl⟩ : ∃ p, (s.attempts a).peer = some p ∧ t = s.install a p c := by
      simp only [step, hcancel, Bool.false_eq_true, if_false] at ht
      cases ha : s.attempts a <;> simp only [ha, AttemptPc.installs, Bool.false_eq_true,
        decide_eq_true_eq] at hinst
      · rename_i p
        simp only [ha, Option.some.injEq] at ht
        refine ⟨p, by simp [AttemptPc.peer], ?_⟩
        rw [hinst, ht]
      · rename_i p d
        simp only [ha, Option.some.injEq] at ht
        refine ⟨p, by simp [AttemptPc.peer], ?_⟩
        rw [hinst, ht]
    have hclosing := hflights.closingPeers_eq_false hp hcancel
    obtain ⟨hm, hopen', htables⟩ := s.install_manager (a := a) hclosing hopen
    rw [hmanager hm (htables ▸ hready)] at hopen'
    cases hopen'
  · subst hl
    have hclosing : s.closingPeers session.peerId = false := by
      cases hq : s.closingPeers session.peerId with
      | false => rfl
      | true =>
          rw [hfence _ hq] at hm
          cases hm
    have hfilter : (s.manager session.peerId).filter (fun m => m ≠ c ∧ some m ≠ some loser) =
        some m := by
      simp [hm, Option.filter_some, hmc, hml]
    simp only [step, hc, Option.some.injEq, Node.adopt, hclosing, Bool.false_eq_true, if_false,
      hfilter] at ht
    subst ht
    have hnone : (s.tables.deactivateSession m).ready c = none := by
      rw [SessionTables.deactivateSession_ready_ne hmc.symm]
      exact hready
    have hclosed : s.isClosed c = true :=
      hmanager (p := session.peerId) (by simp [Node.setReader, Node.beginRetire]) hnone
    rw [hopen] at hclosed
    cases hclosed

/-- A session ends, and `connect()` is called before the manager forgets its
connection. -/
theorem not_handed_out_with_session : ¬ ∀ s l,
    Reachable (system SampleFloat sampleA.peerId) s → ¬ HandsOutNone s l := by
  intro h
  refine h _ (.connect sampleB.peerId 1)
    (reachable_of_exec (S := system SampleFloat sampleA.peerId) rfl
      [.connect sampleB.peerId 0, .opened 0,
        .attemptNegotiated 0 (sessionOf sampleA sampleB ⟨false, none⟩), .resumeCaller 0,
        .readerEnds 0] rfl) ⟨rfl, rfl, 0, rfl, rfl, rfl⟩

end runs

end Sessions
end Core
end Paqto
