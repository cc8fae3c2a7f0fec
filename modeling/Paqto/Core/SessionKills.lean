/-
# What outgoing setup closes

`_open_connection` closes the connection that the manager had when it installs
the one that `prepare` has selected, and `_connect_discovered` closes by the
id of the peer.  Either may meet the connection of a session that became READY
in between: the selection is as old as the awaits after it, and so is the
result a caller is resumed with.

The runs without a step that makes such a connection the one to be closed
(`SparesSession`) close no live session; after any other step, one can be
closed.
-/

import Paqto.Core.Negotiation
import Paqto.Core.SessionsInvariant

namespace Paqto
namespace Core
namespace Sessions

open Transition Python
open SessionTables (selects_of_selectReadyConnection)

variable {F : Type}

/-- The step is not one of a `disconnect()`. -/
def WithoutDisconnect : Label F → Prop
  | .disconnect _ | .resumeDisconnect _ => False
  | _ => True

/-- The connection `c` is what the attempt `a` goes on with, and it has yet to
install it. -/
def AttemptPc.awaits (pc : AttemptPc) (a c : ℕ) : Bool :=
  match pc with
  | retiring _ _ | closingLoser _ => c = a
  | closingOpened _ d => c = d
  | _ => false

/-- No inbound task adopts a session while an attempt that has decided for
another connection is in flight, and no caller closes the peer of an attempt
whose connection has no session while the peer has a live one that the manager
holds, or that is the connection of the attempt in flight. -/
structure SparesSession (peerId : Str) (s : Node F) (l : Label F) : Prop where
  first : ∀ c session tables, l = .incomingNegotiated c session → s.readers c = .negotiating →
    s.isClosed c = false → s.closingPeers session.peerId = false →
      s.tables.selectReadyConnection peerId s.isClosed c session .inbound =
          some (tables, ⟨c, none⟩) →
        ∀ a d, s.inFlight session.peerId = some a → (s.attempts a).awaits a d = false
  replacing : ∀ c session loser, l = .resumeReader c →
    s.readers c = .closingLoser session loser → s.closingPeers session.peerId = false →
      s.connectionForPeer session.peerId = some c →
        ∀ a d, s.inFlight session.peerId = some a → (s.attempts a).awaits a d = true → d = c
  closing : ∀ k p a c d, l = .resumeCaller k → s.callers k = .waiting p a →
    s.attempts a = .returned c → s.tables.sessionFor c = none → s.connectionForPeer p = some d →
      s.manager p ≠ some d ∧ s.inFlight p ≠ some d

/-- **No close that is under way will meet a live session.** -/
structure Node.Spared (s : Node F) : Prop where
  killed : s.killed = []
  cancelled : ∀ a p, (s.attempts a).peer = some p → s.cancelled a = true →
    s.connectionForPeer p ≠ some a
  awaits : ∀ a p c m, (s.attempts a).peer = some p → s.cancelled a = false →
    (s.attempts a).awaits a c = true → s.manager p = some m → m ≠ c →
      s.connectionForPeer p ≠ some m
  gathering : ∀ k p a c, s.callers k = .closingPeer (.gathering p a (some c)) →
    s.connectionForPeer p ≠ some c

namespace Node

variable {peerId : Str} {s t : Node F}

/-- `connection_for_peer` gives the canonical connection while it is open. -/
theorem connectionForPeer_eq_some {p : Str} {c : ℕ} : s.connectionForPeer p = some c ↔
    s.tables.peerConnections p = some c ∧ s.isClosed c = false := by
  rw [connectionForPeer, Option.filter_eq_some_iff]
  simp

/-- The canonical connection of a peer was it before the step, if its session
was there. -/
theorem connectionForPeer_of_ready {p : Str} {c : ℕ} (hs : s.tables.WellFormed)
    (ht : t.tables.WellFormed)
    (hready : ∀ r, t.tables.ready c = some r → s.tables.ready c = some r)
    (hclosed : s.isClosed c = true → t.isClosed c = true)
    (h : t.connectionForPeer p = some c) : s.connectionForPeer p = some c := by
  obtain ⟨hcan, hopen⟩ := connectionForPeer_eq_some.1 h
  obtain ⟨r, hr, rfl⟩ := ht.ready hcan
  refine connectionForPeer_eq_some.2 ⟨hs.canonical (hready r hr), ?_⟩
  cases hold : s.isClosed c with
  | false => rfl
  | true =>
      rw [hclosed hold] at hopen
      cases hopen

/-- A closing call brings up no live session. -/
theorem Settles.connectionForPeer (h : s.Settles t) (hs : s.tables.WellFormed) {p : Str} {c : ℕ}
    (hc : t.connectionForPeer p = some c) : s.connectionForPeer p = some c :=
  connectionForPeer_of_ready hs (h.tables hs) (h.ready c) (h.closed c) hc

/-- No session was killed. -/
theorem spared_initial : (initial : Node F).Spared where
  killed := rfl
  cancelled _ _ h := by cases h
  awaits _ _ _ _ h := by cases h
  gathering _ _ _ _ h := by cases h

/-! ## Moves -/

/-- A step of the attempt `a`. -/
theorem AttemptMove.spared {a : ℕ} {p : Str} (hmove : s.AttemptMove t a p) (h : s.Spared)
    (hs : s.Sound none) (hf : s.Flights) (ha : (s.attempts a).peer = some p)
    (hkilled : t.killed = s.killed)
    (hpublished : s.attempts a = .negotiating p → s.cancelled a = true → t.tables = s.tables)
    (hawaits : ∀ c m, (t.attempts a).awaits a c = true → s.cancelled a = false →
      t.manager p = some m → m ≠ c → t.connectionForPeer p ≠ some m) : t.Spared := by
  have hsound := hmove.sound hs ha
  have hlive : ∀ {q c}, (c = a → s.attempts a ≠ .negotiating p) →
      t.connectionForPeer q = some c → s.connectionForPeer q = some c := by
    intro q c hne
    refine connectionForPeer_of_ready hs.tables hsound.tables (fun r hr => ?_) (hmove.closed c)
    exact (hmove.ready c r hr).resolve_right fun hp => hne hp.1 hp.2.1
  have hpast : ∀ {c}, s.Past c → c = a → s.attempts a ≠ .negotiating p := by
    rintro c hc rfl hneg
    exact hs.not_past_of_negotiating hneg hc
  have hpeer : ∀ {q}, (t.attempts a).peer = some q → q = p := by
    intro q hq
    rcases hmove.flight with ⟨hflight, _⟩ | ⟨hflight, _⟩ <;> rw [hq] at hflight <;> cases hflight
    rfl
  refine ⟨hkilled.trans h.killed, fun b q hq hcancel hc => ?_, fun b q c m hq hcancel hb hm hne => ?_,
    fun k q b c hk hc => ?_⟩
  · rw [hmove.cancelled] at hcancel
    by_cases hba : b = a
    · subst hba
      obtain rfl := hpeer hq
      refine h.cancelled b q ha hcancel ?_
      by_cases hneg : s.attempts b = .negotiating q
      · have htables := hpublished hneg hcancel
        exact connectionForPeer_of_ready hs.tables hsound.tables (fun r hr => htables ▸ hr)
          (hmove.closed b) hc
      · exact hlive (fun _ => hneg) hc
    · rw [hmove.others b hba] at hq
      exact h.cancelled b q hq hcancel (hlive (fun he => absurd he hba) hc)
  · rw [hmove.cancelled] at hcancel
    by_cases hba : b = a
    · subst hba
      obtain rfl := hpeer hq
      exact hawaits c m hb hcancel hm hne
    · rw [hmove.others b hba] at hq hb
      have hold : s.manager q = some m := by
        rcases hmove.manager q m hm with hold | ⟨rfl, _, _, hcancelled⟩
        · exact hold
        · have hin := (hf.inFlight q b).2 ⟨hq, hcancel⟩
          rw [(hf.inFlight q a).2 ⟨ha, hcancelled⟩] at hin
          exact absurd (Option.some.inj hin).symm hba
      exact fun hc => h.awaits b q c m hq hcancel hb hold hne
        (hlive (hpast (hs.manager q m hold)) hc)
  · rw [hmove.callers] at hk
    exact h.gathering k q b c hk (hlive (hpast (hs.gathering k q b c hk)) hc)

/-- A step of the task of the connection `c`. -/
theorem ReaderMove.spared {c : ℕ} (hmove : s.ReaderMove t c) (h : s.Spared) (hs : s.Sound none)
    (hf : s.Flights) (hkilled : t.killed = s.killed)
    (hadopts : ∀ p a d, t.manager p = some c → t.connectionForPeer p = some c →
      s.inFlight p = some a → (s.attempts a).awaits a d = true → s.manager p = some c ∨ d = c) :
    t.Spared := by
  have hlive : ∀ {q d}, (d = c → s.readers c ≠ .negotiating) →
      t.connectionForPeer q = some d → s.connectionForPeer q = some d := by
    intro q d hne
    refine connectionForPeer_of_ready hs.tables (hmove.sound hs).tables (fun r hr => ?_)
      (hmove.closed d)
    exact (hmove.ready d r hr).resolve_right fun hp => hne hp.1 hp.2.1
  have hpast : ∀ {d}, s.Past d → d = c → s.readers c ≠ .negotiating := by
    rintro d hd rfl hneg
    rw [Past, hneg, hs.incoming d (hneg ▸ rfl)] at hd
    simp [AttemptPc.isPast, ReaderPc.isPast] at hd
  refine ⟨hkilled.trans h.killed, fun b q hq hcancel hc => ?_, fun b q d m hq hcancel hb hm hne => ?_,
    fun k q b d hk hd => ?_⟩
  · rw [hmove.attempts] at hq
    rw [hmove.cancelled] at hcancel
    refine h.cancelled b q hq hcancel (hlive ?_ hc)
    rintro rfl hneg
    rw [hs.incoming b (hneg ▸ rfl)] at hq
    cases hq
  · rw [hmove.attempts] at hq hb
    rw [hmove.cancelled] at hcancel
    have hold : t.connectionForPeer q = some m → s.manager q = some m := by
      intro hc
      rcases hmove.manager q m hm with hold | ⟨rfl, _⟩
      · exact hold
      · exact (hadopts q b d hm hc ((hf.inFlight q b).2 ⟨hq, hcancel⟩) hb).resolve_right
          fun he => hne he.symm
    exact fun hc => h.awaits b q d m hq hcancel hb (hold hc) hne
      (hlive (hpast (hs.manager q m (hold hc))) hc)
  · rw [hmove.callers] at hk
    exact h.gathering k q b d hk (hlive (hpast (hs.gathering k q b d hk)) hd)

/-- A step that only takes away, and cancels no attempt with a live connection. -/
theorem Settles.spared (hset : s.Settles t) (h : s.Spared) (hs : s.Sound none)
    (hkilled : t.killed = s.killed)
    (hcancels : ∀ a p, (s.attempts a).peer = some p → t.cancelled a = true →
      s.cancelled a = true ∨ s.connectionForPeer p ≠ some a) : t.Spared where
  killed := hkilled.trans h.killed
  cancelled a p hp hcancel hc := by
    rw [hset.attempts] at hp
    have hlive := hset.connectionForPeer hs.tables hc
    exact (hcancels a p hp hcancel).elim (fun hold => h.cancelled a p hp hold hlive) (· hlive)
  awaits a p c m hp hcancel ha hm hne hc := by
    rw [hset.attempts] at hp ha
    have hold : s.cancelled a = false := by
      cases hold : s.cancelled a with
      | false => rfl
      | true =>
          rw [hset.cancels a hold] at hcancel
          cases hcancel
    exact h.awaits a p c m hp hold ha (hset.manager p m hm) hne (hset.connectionForPeer hs.tables hc)
  gathering k p a c hk hc :=
    h.gathering k p a c (hset.callers ▸ hk) (hset.connectionForPeer hs.tables hc)

/-- A quiet step that kills nothing. -/
theorem Quiet.spared (hquiet : s.Quiet t) (h : s.Spared) (hs : s.Sound none)
    (hkilled : t.killed = s.killed) : t.Spared :=
  hquiet.toSettles.spared h hs hkilled fun _ _ _ hc => .inl (hquiet.cancelled ▸ hc)

/-! ## What is closed -/

/-- A connection that is not the live one may be closed. -/
theorem killed_closeInSetup {p : Str} {c : ℕ} (h : s.connectionForPeer p ≠ some c) :
    (s.closeInSetup p c).killed = s.killed := by
  simp [closeInSetup, h]

/-- An attempt closes what it has opened, which is not the live one. -/
theorem killed_failAttempt {a : ℕ} {p : Str} (h : s.connectionForPeer p ≠ some a) :
    (s.failAttempt a p).killed = s.killed := by
  unfold failAttempt
  split
  · rfl
  · exact killed_closeInSetup h

/-- An attempt closes what it replaces, which is not the live one. -/
theorem killed_install {a c : ℕ} {p : Str} (hclosing : s.closingPeers p = false)
    (h : ∀ m, s.manager p = some m → m ≠ c → s.connectionForPeer p ≠ some m) :
    (s.install a p c).killed = s.killed := by
  unfold install
  simp only [hclosing, Bool.false_eq_true, if_false]
  split
  · rename_i m hm
    obtain ⟨hm, hne⟩ := Option.filter_eq_some_iff.1 hm
    exact killed_closeInSetup (h m hm (of_decide_eq_true hne))
  · rfl

/-- The connection of an attempt that is being negotiated is not canonical. -/
theorem Sound.not_live_of_negotiating (h : s.Sound none) {a : ℕ} {p : Str}
    (ha : s.attempts a = .negotiating p) : s.connectionForPeer p ≠ some a := fun hc =>
  h.not_past_of_negotiating ha (h.past_of_canonical (connectionForPeer_eq_some.1 hc).1)

/-- **A set-up of an attempt kills no session**, when it is for the peer that answered. -/
theorem killed_attemptNegotiated (h : s.Sound none) (hf : s.Flights) {a : ℕ} {p : Str}
    {session : ProtocolSession F} (ha : s.attempts a = .negotiating p)
    (hcancelled : s.cancelled a = false) (hpeer : session.peerId = p) :
    (s.attemptNegotiated peerId a p session).killed = s.killed := by
  have hready := h.ready_eq_none (h.not_past_of_negotiating ha)
  have hclosing := hf.closingPeers_eq_false (by rw [ha, AttemptPc.peer]) hcancelled
  unfold attemptNegotiated
  split
  · exact killed_failAttempt (h.not_live_of_negotiating ha)
  · rename_i u sel hsel
    cases selects_of_selectReadyConnection h.tables hready hsel with
    | first _ hwf hself _ =>
        simp only [if_true]
        -- what is canonical now is the connection of the attempt
        refine killed_install (s := { s with tables := u }) hclosing fun m _ hne hc => hne ?_
        have hcan := hwf.canonical hself
        rw [show ({ session := session, direction := Direction.outbound } :
          ReadySession F).session.peerId = p from hpeer] at hcan
        exact Option.some.inj ((connectionForPeer_eq_some.1 hc).1.symm.trans hcan)
    | replaced _ _ _ _ _ _ _ =>
        simp only [if_true]
        rfl
    | kept he hopen hne =>
        simp only [if_neg hne]
        split
        · refine killed_install hclosing fun m _ hmne hc => hmne ?_
          rw [hpeer] at he
          exact Option.some.inj ((connectionForPeer_eq_some.1 hc).1.symm.trans he)
        · exact killed_closeInSetup (h.not_live_of_negotiating ha)

/-! ## Steps of an attempt -/

section attempts

variable {a : ℕ} {p : Str}

/-- An attempt that fails waits for no retirement. -/
theorem awaits_failAttempt (s : Node F) (a b c : ℕ) (p : Str) :
    ((s.failAttempt a p).attempts a).awaits b c = false := by
  unfold failAttempt
  split
  · simp [raiseAttempt, forgetClosed, endAttempt, setAttempt, AttemptPc.awaits]
  · simp [AttemptPc.awaits]

/-- Nor does one that installs. -/
theorem awaits_install (s : Node F) (a b c selected : ℕ) (p : Str) :
    ((s.install a p selected).attempts a).awaits b c = false := by
  unfold install
  split
  · exact s.awaits_failAttempt a b c p
  · dsimp only
    split <;> simp [endAttempt, AttemptPc.awaits]

/-- The canonical connection after the negotiation of an attempt is the one it
goes on with. -/
theorem live_of_attemptNegotiated (h : s.Sound none) {session : ProtocolSession F}
    (ha : s.attempts a = .negotiating p) (hpeer : session.peerId = p) {c m : ℕ}
    (hawaits : ((s.attemptNegotiated peerId a p session).attempts a).awaits a c = true)
    (hm : (s.attemptNegotiated peerId a p session).connectionForPeer p = some m) : m = c := by
  have hready := h.ready_eq_none (h.not_past_of_negotiating ha)
  have hcan := (connectionForPeer_eq_some.1 hm).1
  unfold attemptNegotiated at hawaits hcan
  split at hawaits
  · rw [awaits_failAttempt] at hawaits
    cases hawaits
  · rename_i u sel hsel
    rw [hsel] at hcan
    dsimp only at hawaits hcan
    cases selects_of_selectReadyConnection h.tables hready hsel with
    | first _ _ _ _ =>
        simp only [if_true] at hawaits
        rw [awaits_install] at hawaits
        cases hawaits
    | @replaced _ e _ _ hne hwf hself _ _ =>
        simp only [if_true] at hawaits hcan
        have hc : c = a := by simpa [AttemptPc.awaits] using hawaits
        have hown : (u.deactivateSession e).peerConnections p = some a := by
          have hself' := (hwf.deactivateSession e).canonical (c := a)
            (by rw [SessionTables.deactivateSession_ready_ne hne.symm]; exact hself)
          rw [← hpeer]
          exact hself'
        rw [hc]
        exact Option.some.inj (hcan.symm.trans hown)
    | @kept e he _ hne =>
        simp only [if_neg hne] at hawaits hcan
        rw [hpeer] at he
        split at hawaits
        · rw [awaits_install] at hawaits
          cases hawaits
        · rename_i hopen
          rw [if_neg hopen] at hcan
          have hc : c = e := by simpa [AttemptPc.awaits] using hawaits
          rw [hc]
          exact Option.some.inj (hcan.symm.trans he)

/-- An attempt is past its handshake. -/
theorem Spared.attemptNegotiated (h : s.Spared) (hs : s.Sound none) (hf : s.Flights)
    {session : ProtocolSession F} (ha : s.attempts a = .negotiating p)
    (hcancelled : s.cancelled a = false) (hpeer : session.peerId = p) :
    (s.attemptNegotiated peerId a p session).Spared := by
  refine (attemptMove_negotiated hs ha hcancelled).spared h hs hf (peer_of_attempt ha rfl)
    (killed_attemptNegotiated hs hf ha hcancelled hpeer) (fun _ hcancel => ?_)
    fun c m hawaits _ _ hne hm => hne (live_of_attemptNegotiated hs ha hpeer hawaits hm)
  rw [hcancelled] at hcancel
  cases hcancel

/-- An attempt fails, and its connection is not the live one. -/
theorem Spared.failAttempt (h : s.Spared) (hs : s.Sound none) (hf : s.Flights)
    (ha : (s.attempts a).peer = some p) (hlive : s.connectionForPeer p ≠ some a) :
    (s.failAttempt a p).Spared :=
  (s.attemptMove_failAttempt a p).spared h hs hf ha (killed_failAttempt hlive)
    (fun _ _ => s.tables_failAttempt a p) fun c m hawaits => by
      rw [awaits_failAttempt] at hawaits
      cases hawaits

/-- An attempt raises before it has opened anything. -/
theorem Spared.raiseAttempt (h : s.Spared) (hs : s.Sound none) (hf : s.Flights)
    (ha : (s.attempts a).peer = some p) : (s.raiseAttempt a p).Spared :=
  (s.attemptMove_raiseAttempt a p).spared h hs hf ha rfl (fun _ _ => rfl) fun c m hawaits => by
    simp [Node.raiseAttempt, forgetClosed, endAttempt, setAttempt, AttemptPc.awaits] at hawaits

/-- An attempt fails where it stands. -/
theorem Spared.attemptFails (h : s.Spared) (hs : s.Sound none) (hf : s.Flights)
    (ht : step peerId s (.attemptFails a) = some t) : t.Spared := by
  simp only [step] at ht
  split at ht
  · cases ht
  · split at ht <;> cases ht <;> rename_i ha
    · exact h.raiseAttempt hs hf (peer_of_attempt ha rfl)
    · exact h.failAttempt hs hf (peer_of_attempt ha rfl) (hs.not_live_of_negotiating ha)

/-- An attempt is cancelled. -/
theorem Spared.attemptCancelled (h : s.Spared) (hs : s.Sound none) (hf : s.Flights)
    (ht : step peerId s (.attemptCancelled a) = some t) : t.Spared := by
  simp only [step] at ht
  split at ht
  · rename_i hcancelled
    have hfail : ∀ p, (s.attempts a).peer = some p → (s.failAttempt a p).Spared := fun p ha =>
      h.failAttempt hs hf ha (h.cancelled a p ha hcancelled)
    split at ht <;> cases ht <;> rename_i ha <;> first
      | exact h.raiseAttempt hs hf (peer_of_attempt ha rfl)
      | exact hfail _ (peer_of_attempt ha rfl)
  · cases ht

/-- An attempt goes on. -/
theorem Spared.resumeAttempt (h : s.Spared) (hs : s.Sound none) (hf : s.Flights)
    (ht : step peerId s (.resumeAttempt a) = some t) : t.Spared := by
  obtain ⟨p, hp, hmove⟩ := attemptMove_resume hs ht
  have hcancelled : s.cancelled a = false := by
    cases hc : s.cancelled a with
    | false => rfl
    | true => simp [step, hc] at ht
  have hclosing := hf.closingPeers_eq_false hp hcancelled
  have htables := tables_resumeAttempt ht
  have hinstall : ∀ c, (s.attempts a).awaits a c = true → t = s.install a p c →
      t.killed = s.killed ∧ ∀ d, (t.attempts a).awaits a d = false := by
    rintro c hc rfl
    exact ⟨killed_install hclosing fun m hm hne => h.awaits a p c m hp hcancelled hc hm hne,
      fun d => awaits_install s a a d c p⟩
  have hkeep : t.killed = s.killed ∧
      ∀ d, (t.attempts a).awaits a d = true → (s.attempts a).awaits a d = true := by
    simp only [step, hcancelled, Bool.false_eq_true, if_false] at ht
    split at ht <;> cases ht <;> rename_i ha <;> rw [ha] at hp hinstall ⊢ <;> cases hp
    · rename_i r
      refine ⟨?_, fun d hd => by simpa [AttemptPc.awaits] using hd⟩
      have hnone := (hs.retiring a p r ha).2
      have hkilled : (s.endRetire r).killed = s.killed := by
        unfold endRetire connectionLost
        split
        · split <;> rfl
        · rfl
      have htables : (s.endRetire r).tables = s.tables := htables
      refine (killed_closeInSetup fun hc => ?_).trans hkilled
      have hcan := (connectionForPeer_eq_some.1 hc).1
      rw [htables] at hcan
      obtain ⟨x, hx, _⟩ := hs.tables.ready hcan
      rw [hnone] at hx
      cases hx
    · obtain ⟨hkilled, hnone⟩ := hinstall a (by simp [AttemptPc.awaits]) rfl
      exact ⟨hkilled, fun d hd => by rw [hnone d] at hd; cases hd⟩
    · rename_i c
      obtain ⟨hkilled, hnone⟩ := hinstall c (by simp [AttemptPc.awaits]) rfl
      exact ⟨hkilled, fun d hd => by rw [hnone d] at hd; cases hd⟩
    · exact ⟨rfl, fun d hd => by simp [endAttempt, AttemptPc.awaits] at hd⟩
    · exact ⟨rfl, fun d hd => by
        simp [Node.raiseAttempt, forgetClosed, endAttempt, setAttempt, AttemptPc.awaits] at hd⟩
  refine hmove.spared h hs hf hp hkeep.1 (fun _ _ => htables) fun c m hc _ hm hne hlive => ?_
  have hold : s.connectionForPeer p = some m :=
    connectionForPeer_of_ready hs.tables (hmove.sound hs hp).tables (fun r hr => htables ▸ hr)
      (hmove.closed m) hlive
  rcases hmove.manager p m hm with hmanager | ⟨_, hsel, _⟩
  · exact h.awaits a p c m hp hcancelled (hkeep.2 c hc) hmanager hne hold
  · cases hpc : t.attempts a <;> rw [hpc] at hc hsel <;> simp [AttemptPc.awaits] at hc <;>
      simp [AttemptPc.selected] at hsel
    exact hne (hsel.symm.trans hc.symm)

end attempts

/-! ## Readers -/

section readers

variable {c : ℕ}

/-- The retirement of a loser kills no live session. -/
theorem killed_endRetire (s : Node F) (r : Retire) : (s.endRetire r).killed = s.killed := by
  unfold endRetire connectionLost
  split
  · split <;> rfl
  · rfl

/-- Nor does the start of a reader. -/
theorem killed_startReading (s : Node F) (c : ℕ) (session : ProtocolSession F) :
    (s.startReading c session).killed = s.killed := by
  unfold startReading
  split
  · rfl
  · unfold connectionLost
    split <;> rfl

/-- Nor does `adopt`. -/
theorem killed_adopt (s : Node F) (c : ℕ) (session : ProtocolSession F) (loser : Option ℕ) :
    (s.adopt c session loser).killed = s.killed := by
  unfold adopt
  split
  · rfl
  · dsimp only
    split
    · rfl
    · exact killed_startReading _ c session

/-- `adopt` changes the entry of one peer. -/
theorem manager_adopt {session : ProtocolSession F} {loser : Option ℕ} {p : Str} {d : ℕ}
    (h : (s.adopt c session loser).manager p = some d) :
    s.manager p = some d ∨ p = session.peerId ∧ s.closingPeers p = false := by
  have hstart : ∀ u : Node F, (u.startReading c session).manager p = some d →
      u.manager p = some d := by
    intro u hu
    unfold startReading at hu
    split at hu
    · exact hu
    · exact (u.quiet_connectionLost _ c).manager p d hu
  unfold adopt at h
  split at h
  · exact .inl h
  · rename_i hclosing
    by_cases hp : p = session.peerId
    · exact .inr ⟨hp, by rw [hp]; simpa using hclosing⟩
    · refine .inl ?_
      dsimp only at h
      split at h
      · simpa [setReader, beginRetire, hp] using h
      · simpa [hp] using hstart _ h

/-- An incoming connection is past its handshake. -/
theorem Spared.incomingNegotiated (h : s.Spared) (hs : s.Sound none) (hf : s.Flights)
    {session : ProtocolSession F} (hc : s.readers c = .negotiating)
    (hG : SparesSession peerId s (.incomingNegotiated c session)) :
    (s.incomingNegotiated peerId c session).Spared := by
  have hmove : s.ReaderMove (s.incomingNegotiated peerId c session) c :=
    readerMove_negotiated hs hc
  have hready : s.tables.ready c = none := hs.ready_eq_none (by
    rw [Past, hc, hs.incoming c (by rw [hc]; rfl)]
    simp [AttemptPc.isPast, ReaderPc.isPast])
  unfold Node.incomingNegotiated at hmove ⊢
  split at hmove
  · rename_i hsel
    exact hmove.spared h hs hf rfl fun p a d hp _ _ _ => .inl hp
  · rename_i u sel hsel
    dsimp only at hmove ⊢
    cases selects_of_selectReadyConnection hs.tables hready hsel with
    | first _ _ _ _ =>
        simp only [if_true] at hmove ⊢
        refine hmove.spared h hs hf (killed_adopt _ c session none) fun p a d hp hlive hin hd => ?_
        rcases manager_adopt hp with hold | ⟨rfl, hclosing⟩
        · exact .inl hold
        · have hopen : s.isClosed c = false := by
            cases hold : s.isClosed c with
            | false => rfl
            | true =>
                have hopen := (connectionForPeer_eq_some.1 hlive).2
                rw [hmove.closed c hold] at hopen
                cases hopen
          rw [hG.first c session u rfl hc hopen hclosing hsel a d hin] at hd
          cases hd
    | replaced _ _ _ _ _ _ _ =>
        simp only [if_true] at hmove ⊢
        exact hmove.spared h hs hf rfl fun p a d hp _ _ _ => .inl hp
    | kept _ _ hne =>
        simp only [if_neg hne] at hmove ⊢
        exact hmove.spared h hs hf rfl fun p a d hp _ _ _ => .inl hp

/-- A reader goes on. -/
theorem Spared.resumeReader (h : s.Spared) (hs : s.Sound none) (hf : s.Flights)
    (hG : SparesSession peerId s (.resumeReader c))
    (ht : step peerId s (.resumeReader c) = some t) : t.Spared := by
  have hmove := readerMove_resume hs ht
  have hlive : ∀ {p}, s.readers c ≠ .negotiating → t.connectionForPeer p = some c →
      s.connectionForPeer p = some c := fun hne =>
    connectionForPeer_of_ready hs.tables (hmove.sound hs).tables
      (fun r hr => (hmove.ready c r hr).resolve_right fun hp => hne hp.2.1) (hmove.closed c)
  simp only [step] at ht
  split at ht <;> cases ht <;> rename_i hc
  · exact hmove.spared h hs hf (s.killed_endRetire _) fun p a d hp _ _ _ =>
      .inl ((s.quiet_endRetire _).manager p c hp)
  · rename_i session loser
    refine hmove.spared h hs hf (s.killed_adopt c session _) fun p a d hp hl hin hd => ?_
    rcases manager_adopt hp with hold | ⟨rfl, hclosing⟩
    · exact .inl hold
    · exact .inr (hG.replacing c session loser rfl hc hclosing
        (hlive (by rw [hc]; rintro ⟨⟩) hl) a d hin hd)
  · exact hmove.spared h hs hf (s.killed_endRetire _) fun p a d hp _ _ _ =>
      .inl ((s.quiet_endRetire _).manager p c hp)
  · rename_i session
    refine hmove.spared h hs hf (s.killed_startReading c session) fun p a d hp _ _ _ => .inl ?_
    unfold startReading at hp
    split at hp
    · exact hp
    · exact (s.quiet_connectionLost _ c).manager p c hp
  · refine hmove.spared h hs hf ?_ fun p a d hp _ _ _ =>
      .inl ((s.quiet_connectionLost _ c).manager p c hp)
    simp only [setReader, closeConnection, connectionLost]
    split <;> rfl
  · exact hmove.spared h hs hf rfl fun p a d hp _ _ _ => .inl hp

end readers

/-! ## Callers -/

/-- A caller moves, and what it is about to close is not live. -/
theorem Spared.setCaller (h : s.Spared) {k : ℕ} {pc : CallerPc}
    (hpc : ∀ p a c, pc = .closingPeer (.gathering p a (some c)) → s.connectionForPeer p ≠ some c) :
    (s.setCaller k pc).Spared :=
  { h with
    gathering := fun l p a c hl => by
      by_cases hlk : l = k
      · subst hlk
        rw [setCaller_self] at hl
        exact hpc p a c hl
      · rw [setCaller_of_ne hlk] at hl
        exact h.gathering l p a c hl }

/-- `close_peer` may close only what the peer does not live on. -/
theorem Spared.closePeer (h : s.Spared) (hs : s.Sound none) (hf : s.Flights) {p : Str}
    (hlive : ∀ c, s.connectionForPeer p = some c → s.manager p ≠ some c ∧ s.inFlight p ≠ some c) :
    (s.closePeer true p).1.Spared := by
  refine (s.settles_closePeer true p).spared h hs ?_ fun a q hq hcancel => ?_
  · unfold Node.closePeer
    dsimp only
    split
    · rfl
    · unfold closeGathered
      split
      · rename_i c hc
        exact killed_closeInSetup (p := p) fun hl => (hlive c hl).1 hc
      · rfl
  · unfold Node.closePeer at hcancel
    dsimp only at hcancel
    split at hcancel
    · rename_i b hb
      by_cases hab : a = b
      · subst hab
        have hqp : q = p := Option.some.inj (hq.symm.trans ((hf.inFlight p a).1 hb).1)
        subst hqp
        exact .inr fun hl => (hlive a hl).2 hb
      · simp only [Function.update_of_ne hab] at hcancel
        exact .inl hcancel
    · unfold closeGathered at hcancel
      split at hcancel <;> exact .inl hcancel

/-- A reader is started. -/
theorem Spared.ensureReader (h : s.Spared) (c : ℕ) (session : ProtocolSession F) :
    (s.ensureReader c session).Spared := by
  unfold Node.ensureReader
  split
  · exact { h with }
  · exact { h with }
  · exact h

/-- A connection is handed to its caller, or closed where it has no session. -/
theorem Spared.handOver (h : s.Spared) (hs : s.Sound none) (hf : s.Flights) (k : ℕ) {p : Str}
    {c : ℕ} (hlive : s.tables.sessionFor c = none → ∀ d, s.connectionForPeer p = some d →
      s.manager p ≠ some d ∧ s.inFlight p ≠ some d) : (s.handOver k p c).Spared := by
  unfold Node.handOver
  split
  · exact (h.ensureReader c _).setCaller fun q a d hq => by cases hq
  · rename_i hsession
    have hclose := h.closePeer hs hf (hlive hsession)
    have hsettles := s.settles_closePeer true p
    have hgathering : ∀ q a d, (s.closePeer true p).2 = some (.gathering q a (some d)) →
        q = p ∧ s.inFlight p = some a ∧ s.manager p = some d := fun _ _ _ => gathering_of_closePeer
    generalize s.closePeer true p = x at hclose hsettles hgathering
    obtain ⟨t, _ | closer⟩ := x
    · exact hclose.setCaller fun q a d hq => by cases hq
    · refine hclose.setCaller fun q a d hq hd => ?_
      cases hq
      obtain ⟨rfl, _, hm⟩ := hgathering q a d rfl
      exact (hlive hsession d (hsettles.connectionForPeer hs.tables hd)).1 hm

/-- An attempt is started. -/
theorem Spared.startAttempt (h : s.Spared) {p : Str} {b : ℕ} (hf : s.Flights)
    (hb : s.attempts b = .absent) : (s.startAttempt p b).Spared where
  killed := h.killed
  cancelled a q hq hcancel := by
    by_cases hab : a = b
    · subst hab
      rw [show (s.startAttempt p a).cancelled a = false from hf.cancelled a hb] at hcancel
      cases hcancel
    · rw [Node.startAttempt, setAttempt_of_ne hab] at hq
      exact h.cancelled a q hq hcancel
  awaits a q c m hq hcancel hc := by
    by_cases hab : a = b
    · subst hab
      rw [Node.startAttempt, setAttempt_self] at hc
      cases hc
    · rw [Node.startAttempt, setAttempt_of_ne hab] at hq hc
      exact h.awaits a q c m hq hcancel hc
  gathering := h.gathering

/-- A caller connects. -/
theorem Spared.connect (h : s.Spared) (hs : s.Sound none) (hf : s.Flights) {p : Str} {b : ℕ}
    (ht : s.connect p b = some t) : t.Spared := by
  have hnext : ({ s with nextCaller := s.nextCaller + 1 } : Node F).Spared := { h with }
  have hfnext : ({ s with nextCaller := s.nextCaller + 1 } : Node F).Flights :=
    hf.congr rfl rfl rfl rfl
  simp only [Node.connect] at ht
  split at ht
  · cases ht
    exact hnext.setCaller fun q a d hq => by cases hq
  · rename_i hcan
    split at ht
    · cases ht
      exact hnext.setCaller fun q a d hq => by cases hq
    · split at ht
      · cases ht
        refine hnext.handOver hs.nextCaller hfnext _ fun _ d hd => ?_
        rw [show s.connectionForPeer p = some d from hd] at hcan
        cases hcan
      · have hquiet := quiet_forgetClosed ({ s with nextCaller := s.nextCaller + 1 } : Node F) p
        have hforget := hquiet.spared hnext hs.nextCaller rfl
        have hfforget := hquiet.flights hfnext
        generalize forgetClosed _ p = u at ht hforget hfforget
        unfold joinAttempt at ht
        split at ht
        · cases ht
          exact hforget.setCaller fun q a d hq => by cases hq
        · split at ht
          · rename_i ha _
            cases ht
            exact (hforget.startAttempt hfforget ha).setCaller fun q a d hq => by cases hq
          · cases ht

/-- A closing call closes what it has gathered, which is not the live one. -/
theorem killed_resumeClosePeer {closer : CloserPc} {x : Node F × Option CloserPc}
    (hgathering : ∀ p a c, closer = .gathering p a (some c) → s.connectionForPeer p ≠ some c)
    (hx : s.resumeClosePeer true closer = some x) : x.1.killed = s.killed := by
  unfold resumeClosePeer at hx
  split at hx
  · rename_i q a connection
    split at hx <;> cases hx
    unfold closeGathered
    split
    · rename_i c
      exact killed_closeInSetup (hgathering q a c rfl)
    · rfl
  · split at hx <;> cases hx
    rfl
  · cases hx
    rfl

/-- It cancels no further attempt. -/
theorem cancelled_resumeClosePeer {setup : Bool} {closer : CloserPc} {x : Node F × Option CloserPc}
    (hx : s.resumeClosePeer setup closer = some x) : x.1.cancelled = s.cancelled := by
  unfold resumeClosePeer at hx
  split at hx
  · split at hx <;> cases hx
    unfold closeGathered closeFor
    split
    · split <;> rfl
    · rfl
  · split at hx <;> cases hx
    rfl
  · cases hx
    rfl

/-- A caller goes on. -/
theorem Spared.resumeCaller (h : s.Spared) (hs : s.Sound none) (hf : s.Flights) {k : ℕ}
    (hG : SparesSession peerId s (.resumeCaller k))
    (ht : step peerId s (.resumeCaller k) = some t) : t.Spared := by
  simp only [step] at ht
  split at ht
  · rename_i p a hk
    split at ht <;> cases ht
    · rename_i c ha
      exact h.handOver hs hf k fun hsession d hd => hG.closing k p a c d rfl hk ha hsession hd
    · exact h.setCaller fun q a d hq => by cases hq
  · rename_i closer hk
    obtain ⟨⟨u, pc⟩, hu, ht⟩ := Option.map_eq_some_iff.1 ht
    have hclose : u.Spared :=
      (settles_resumeClosePeer hu).spared h hs
        (killed_resumeClosePeer (fun p a c hc => h.gathering k p a c (hc ▸ hk)) hu)
        fun _ _ _ hc => .inl (cancelled_resumeClosePeer hu ▸ hc)
    cases pc with
    | none =>
        subst ht
        exact hclose.setCaller fun q a d hq => by cases hq
    | some pc =>
        subst ht
        obtain ⟨q, rfl⟩ := gathering_of_resumeClosePeer hu
        exact hclose.setCaller fun q a d hq => by cases hq
  · cases ht

/-- A caller is cancelled. -/
theorem Spared.cancelCaller (h : s.Spared) {k : ℕ}
    (ht : step peerId s (.cancelCaller k) = some t) : t.Spared := by
  simp only [step] at ht
  split at ht <;> cases ht
  · exact h.setCaller fun q a d hq => by cases hq
  · exact h.setCaller fun q a d hq => by cases hq
  · refine Spared.setCaller ?_ fun q a d hq => by cases hq
    exact { h with }

end Node

/-! ## Runs -/

variable {peerId : Str} {s t : Node F}

/-- **One step meets no live session**, if it meets the condition. -/
theorem spared_step {l : Label F} (h : s.Spared) (hs : s.Sound none) (hf : s.Flights)
    (hl : WithoutDisconnect l) (hG : SparesSession peerId s l) (ht : step peerId s l = some t) :
    t.Spared := by
  cases l with
  | accept c =>
      simp only [step] at ht
      split at ht <;> cases ht
      exact { h with }
  | connect p a => exact h.connect hs hf ht
  | opened a =>
      simp only [step] at ht
      split at ht
      · rename_i p ha
        split at ht <;> cases ht
        refine (Node.attemptMove_opened ha).spared h hs hf (Node.peer_of_attempt ha rfl) rfl
          (fun _ _ => rfl) fun c m hc => ?_
        rw [Node.setAttempt_self] at hc
        cases hc
      · cases ht
  | attemptFails a => exact h.attemptFails hs hf ht
  | attemptNegotiated a session =>
      simp only [step] at ht
      split at ht
      · rename_i p ha
        split at ht <;> cases ht
        rename_i hcond
        exact h.attemptNegotiated hs hf ha hcond.1 hcond.2
      · cases ht
  | attemptCancelled a => exact h.attemptCancelled hs hf ht
  | resumeAttempt a => exact h.resumeAttempt hs hf ht
  | incomingFails c =>
      simp only [step] at ht
      split at ht <;> cases ht
      rename_i hc
      exact (Node.readerMove_endIncoming (.refl s) (by rw [hc]; rintro ⟨⟩)).spared h hs hf rfl
        fun p a d hp _ _ _ => .inl hp
  | incomingNegotiated c session =>
      simp only [step] at ht
      split at ht <;> cases ht
      exact h.incomingNegotiated hs hf ‹_› hG
  | resumeReader c => exact h.resumeReader hs hf hG ht
  | readerEnds c =>
      have hmove := Node.readerMove_readerEnds ht
      simp only [step] at ht
      split at ht <;> cases ht
      exact hmove.spared h hs hf rfl fun p a d hp _ _ _ => .inl hp
  | resumeCaller k => exact h.resumeCaller hs hf hG ht
  | cancelCaller k => exact h.cancelCaller ht
  | disconnect p => cases hl
  | resumeDisconnect d => cases hl
  | connectionState p =>
      cases ht
      exact (s.quiet_forgetClosed p).spared h hs rfl
  | close c =>
      cases ht
      exact (s.quiet_closeConnection c).spared h hs rfl

/-- **No session is killed** in the runs that meet the condition. -/
theorem spared_of_reachableWhen
    (h : ReachableWhen (system F peerId)
      (fun s l => WithoutDisconnect l ∧ SparesSession peerId s l) s) : s.Spared := by
  have hall := h.invariant (I := fun s => s.Spared ∧ s.Sound none ∧ s.Flights)
    (by rintro _ rfl; exact ⟨Node.spared_initial, sound_initial, flights_initial⟩)
    fun s l t hI hG hs =>
      ⟨spared_step hI.1 hI.2.1 hI.2.2 hG.1 hG.2 hs, sound_step hI.2.1 hI.2.2 hs⟩
  exact hall.1

/-! ## Runs that meet the condition in all but one step -/

/-- A run from `s` without `disconnect()` closes a live session. -/
def CanKill (peerId : Str) (s : Node F) : Prop :=
  ∃ t, ReachableWhen ((system F peerId).startingAt s) (fun _ l => WithoutDisconnect l) t ∧
    t.killed ≠ []

/-- A session was killed. -/
theorem CanKill.of_killed (h : s.killed ≠ []) : CanKill peerId s := ⟨s, .init rfl, h⟩

/-- A step after which one can be killed. -/
theorem CanKill.of_step {l : Label F} (hl : WithoutDisconnect l) (ht : step peerId s l = some t)
    (h : CanKill peerId t) : CanKill peerId s := by
  obtain ⟨u, hu, hkilled⟩ := h
  refine ⟨u, ?_, hkilled⟩
  clear hkilled
  induction hu with
  | init he => exact he ▸ .step l (.init rfl) hl ht
  | step m _ hm hs ih => exact .step m ih hm hs

namespace Node

/-- The live connection is closed. -/
theorem killed_closeInSetup_of_live {p : Str} {c : ℕ} (h : s.connectionForPeer p = some c) :
    (s.closeInSetup p c).killed ≠ [] := by
  simp [closeInSetup, h]

/-- The live connection is replaced and closed. -/
theorem killed_install_of_live {a c m : ℕ} {p : Str} (hclosing : s.closingPeers p = false)
    (hm : s.manager p = some m) (hne : m ≠ c) (hlive : s.connectionForPeer p = some m) :
    (s.install a p c).killed ≠ [] := by
  have hfilter : (s.manager p).filter (· ≠ c) = some m := by
    simp [hm, Option.filter_some, hne]
  unfold install
  simp only [hclosing, Bool.false_eq_true, if_false, hfilter]
  exact killed_closeInSetup_of_live hlive

/-- The live connection is closed with the attempt that failed. -/
theorem killed_failAttempt_of_live {a : ℕ} {p : Str} (h : s.connectionForPeer p = some a) :
    (s.failAttempt a p).killed ≠ [] := by
  unfold failAttempt
  rw [if_neg (by rw [(connectionForPeer_eq_some.1 h).2]; simp)]
  exact killed_closeInSetup_of_live h

/-- A retired connection is not the live one. -/
theorem connectionForPeer_endRetire {r : Retire} {p q : Str} {m : ℕ}
    (hready : s.tables.ready r.connection = none) (hs : s.tables.WellFormed)
    (hm : s.manager p = some m) (hlive : s.connectionForPeer p = some m) :
    ((s.endRetire r).closeInSetup q r.connection).manager p = some m ∧
      ((s.endRetire r).closeInSetup q r.connection).connectionForPeer p = some m := by
  obtain ⟨hcan, hopen⟩ := connectionForPeer_eq_some.1 hlive
  have hne : m ≠ r.connection := by
    rintro rfl
    obtain ⟨x, hx, _⟩ := hs.ready hcan
    rw [hready] at hx
    cases hx
  have hretire : (s.endRetire r).manager p = some m ∧ (s.endRetire r).isClosed = s.isClosed ∧
      (s.endRetire r).tables = s.tables := by
    unfold endRetire connectionLost
    split
    · rename_i q' _
      split
      · rename_i hq
        refine ⟨?_, rfl, rfl⟩
        by_cases hpq : p = q'
        · subst hpq
          exact absurd (Option.some.inj (hm.symm.trans hq)) hne
        · simpa [hpq] using hm
      · exact ⟨hm, rfl, rfl⟩
    · exact ⟨hm, rfl, rfl⟩
  refine ⟨hretire.1, connectionForPeer_eq_some.2 ⟨?_, ?_⟩⟩
  · show (s.endRetire r).tables.peerConnections p = some m
    rw [hretire.2.2]
    exact hcan
  · simp only [closeInSetup, closeConnection, Function.update_of_ne hne]
    rw [hretire.2.1]
    exact hopen

end Node

/-- The manager holds the live connection of a peer whose attempt has decided
for another one. -/
theorem canKill_of_awaits (hs : s.Sound none) (hf : s.Flights) {a c m : ℕ} {p : Str}
    (hp : (s.attempts a).peer = some p) (hcancelled : s.cancelled a = false)
    (hawaits : (s.attempts a).awaits a c = true) (hm : s.manager p = some m) (hne : m ≠ c)
    (hlive : s.connectionForPeer p = some m) : CanKill peerId s := by
  have hclosing := hf.closingPeers_eq_false hp hcancelled
  cases ha : s.attempts a <;> rw [ha] at hp hawaits <;> simp [AttemptPc.awaits] at hawaits <;>
    cases hp
  · rename_i r
    have hc : c = a := hawaits
    subst hc
    obtain ⟨hm', hlive'⟩ := Node.connectionForPeer_endRetire (q := p) (hs.retiring c p r ha).2
      hs.tables hm hlive
    refine .of_step (l := .resumeAttempt c) trivial
      (by simp only [step, hcancelled, Bool.false_eq_true, if_false, ha]; rfl) ?_
    refine .of_step (l := .resumeAttempt c) trivial (by
      simp only [step, Node.setAttempt_self]
      rw [if_neg]
      simpa [Node.setAttempt, Node.closeInSetup, Node.closeConnection,
        (s.quiet_endRetire r).cancelled] using hcancelled) ?_
    refine .of_killed (Node.killed_install_of_live ?_ hm' hne hlive')
    simpa [Node.setAttempt, Node.closeInSetup, Node.closeConnection,
        (s.quiet_endRetire r).closingPeers] using hclosing
  · have hc : c = a := hawaits
    subst hc
    exact .of_step (l := .resumeAttempt c) trivial
      (by simp only [step, hcancelled, Bool.false_eq_true, if_false, ha]; rfl)
      (.of_killed (Node.killed_install_of_live hclosing hm hne hlive))
  · rename_i d
    have hc : c = d := hawaits
    subst hc
    exact .of_step (l := .resumeAttempt a) trivial
      (by simp only [step, hcancelled, Bool.false_eq_true, if_false, ha]; rfl)
      (.of_killed (Node.killed_install_of_live hclosing hm hne hlive))

/-- A cancelled attempt ends, and closes its own connection only. -/
theorem exists_attemptCancelled (peerId : Str) {b d : ℕ} {p : Str} (hp : (s.attempts b).peer = some p)
    (hcancelled : s.cancelled b = true) (hne : b ≠ d) (hlive : s.connectionForPeer p = some d) :
    ∃ t, step peerId s (.attemptCancelled b) = some t ∧ t.callers = s.callers ∧
      t.cancelled = s.cancelled ∧ t.connectionForPeer p = some d ∧
        (t.attemptDone b = true ∨
          s.attempts b ≠ .failing p ∧ t.attempts b = .failing p) := by
  obtain ⟨hcan, hopen⟩ := Node.connectionForPeer_eq_some.1 hlive
  have hraise : (s.raiseAttempt b p).callers = s.callers ∧
      (s.raiseAttempt b p).cancelled = s.cancelled ∧
        (s.raiseAttempt b p).connectionForPeer p = some d ∧
          (s.raiseAttempt b p).attemptDone b = true := by
    refine ⟨rfl, rfl, hlive, ?_⟩
    simp [Node.attemptDone, Node.raiseAttempt, Node.forgetClosed, Node.endAttempt, Node.setAttempt]
  have hfail : (s.failAttempt b p).callers = s.callers ∧
      (s.failAttempt b p).cancelled = s.cancelled ∧
        (s.failAttempt b p).connectionForPeer p = some d ∧
          ((s.failAttempt b p).attemptDone b = true ∨
            (s.failAttempt b p).attempts b = .failing p) := by
    unfold Node.failAttempt
    split
    · exact ⟨hraise.1, hraise.2.1, hraise.2.2.1, .inl hraise.2.2.2⟩
    · refine ⟨rfl, rfl, Node.connectionForPeer_eq_some.2 ⟨hcan, ?_⟩, .inr (by simp)⟩
      simpa [Node.setAttempt, Node.closeInSetup, Node.closeConnection, hne.symm] using hopen
  cases hb : s.attempts b <;> rw [hb] at hp <;> cases hp
  case connecting | failing =>
    exact ⟨_, by simp only [step, hcancelled, if_true, hb], hraise.1, hraise.2.1,
      hraise.2.2.1, .inl hraise.2.2.2⟩
  all_goals
    exact ⟨_, by simp only [step, hcancelled, if_true, hb], hfail.1, hfail.2.1, hfail.2.2.1,
      hfail.2.2.2.imp id fun h => ⟨by rintro ⟨⟩, h⟩⟩

/-- A caller is about to close the live connection by the id of its peer. -/
theorem canKill_of_gathering {k b d : ℕ} {p : Str}
    (hk : s.callers k = .closingPeer (.gathering p b (some d)))
    (hb : s.attemptDone b = true ∨ (s.attempts b).peer = some p ∧ s.cancelled b = true)
    (hne : b ≠ d) (hlive : s.connectionForPeer p = some d) : CanKill peerId s := by
  have hdone : ∀ u : Node F, u.callers k = .closingPeer (.gathering p b (some d)) →
      u.attemptDone b = true → u.connectionForPeer p = some d → CanKill peerId u := by
    intro u hk hb hlive
    refine .of_step (l := .resumeCaller k) trivial
      (t := (u.closeInSetup p d).setCaller k (.closingPeer (.closing p))) ?_
      (.of_killed (Node.killed_closeInSetup_of_live hlive))
    simp [step, hk, Node.resumeClosePeer, hb, Node.closeGathered, Node.closeFor]
  have hfailing : ∀ u : Node F, u.callers k = .closingPeer (.gathering p b (some d)) →
      u.attempts b = .failing p → u.cancelled b = true → u.connectionForPeer p = some d →
        CanKill peerId u := by
    intro u hk hb hcancelled hlive
    obtain ⟨t, ht, hcallers, _, hlive', hend⟩ := exists_attemptCancelled peerId
      (by rw [hb, AttemptPc.peer]) hcancelled hne hlive
    exact .of_step (l := .attemptCancelled b) trivial ht (hdone t (hcallers ▸ hk) (hend.resolve_right fun h => h.1 hb) hlive')
  rcases hb with hb | ⟨hp, hcancelled⟩
  · exact hdone s hk hb hlive
  · obtain ⟨t, ht, hcallers, hcancel, hlive', hend⟩ := exists_attemptCancelled peerId
      hp hcancelled hne hlive
    refine .of_step (l := .attemptCancelled b) trivial ht ?_
    rcases hend with hend | ⟨_, hend⟩
    · exact hdone t (hcallers ▸ hk) hend hlive'
    · exact hfailing t (hcallers ▸ hk) hend (hcancel ▸ hcancelled) hlive'

/-- A cancelled attempt closes its own connection, and the peer lives on it. -/
theorem canKill_of_cancelled {b : ℕ} {p : Str} (hs : s.Sound none)
    (hp : (s.attempts b).peer = some p) (hcancelled : s.cancelled b = true)
    (hlive : s.connectionForPeer p = some b) : CanKill peerId s := by
  obtain ⟨hcan, hopen⟩ := Node.connectionForPeer_eq_some.1 hlive
  have hpast := hs.past_of_canonical hcan
  have hconnecting : ∀ q, s.attempts b ≠ .connecting q := fun q hb => by
    rw [Node.Past, hb, hs.outgoing b q (.inl hb)] at hpast
    simp [AttemptPc.isPast, ReaderPc.isPast] at hpast
  have hnegotiating : ∀ q, s.attempts b ≠ .negotiating q := fun q hb =>
    hs.not_past_of_negotiating hb hpast
  have hfailing : s.attempts b ≠ .failing p := fun hb => by
    rw [hs.failing b p hb] at hopen
    cases hopen
  refine .of_step (l := .attemptCancelled b) trivial (t := s.failAttempt b p) ?_
    (.of_killed (Node.killed_failAttempt_of_live hlive))
  cases hb : s.attempts b <;> rw [hb] at hp <;> cases hp
  all_goals first
    | exact absurd hb (hconnecting p)
    | exact absurd hb (hnegotiating p)
    | exact absurd hb hfailing
    | simp only [step, hcancelled, if_true, hb]

/-- A caller whose connection has no session closes a peer that has a live
one. -/
theorem canKill_of_handOver (hf : s.Flights) {k c d : ℕ} {p : Str}
    (hs : (s.handOver k p c).Sound none) (hsession : s.tables.sessionFor c = none) (hlive : s.connectionForPeer p = some d)
    (hd : s.manager p = some d ∨ s.inFlight p = some d) :
    CanKill peerId (s.handOver k p c) := by
  unfold Node.handOver Node.closePeer at hs ⊢
  simp only [hsession] at hs ⊢
  cases hin : s.inFlight p with
  | none =>
      rw [hin] at hd
      simp only [hd.resolve_right (by rintro ⟨⟩), Node.closeGathered, Node.closeFor, if_true]
      exact .of_killed (Node.killed_closeInSetup_of_live
        (Node.connectionForPeer_eq_some.2 (Node.connectionForPeer_eq_some.1 hlive)))
  | some b =>
      obtain ⟨hp, hcancelled⟩ := (hf.inFlight p b).1 hin
      rw [hin] at hs
      by_cases hbd : b = d
      · subst hbd
        exact canKill_of_cancelled hs hp (by simp [Node.setCaller])
          (Node.connectionForPeer_eq_some.2 (Node.connectionForPeer_eq_some.1 hlive))
      · have hm : s.manager p = some d :=
          hd.resolve_right fun h => hbd (Option.some.inj (hin.symm.trans h))
        simp only [hm]
        refine canKill_of_gathering (k := k) (b := b) (d := d) (p := p) (by simp)
          (.inr ⟨hp, by simp [Node.setCaller]⟩) hbd
          (Node.connectionForPeer_eq_some.2 (Node.connectionForPeer_eq_some.1 hlive))

/-- A live connection that is adopted stays the live one, and the manager holds
it. -/
theorem Node.live_of_adopt (loser : Option ℕ) (hs : s.tables.WellFormed) {c : ℕ}
    {session : ProtocolSession F} (hclosing : s.closingPeers session.peerId = false)
    (hlive : s.connectionForPeer session.peerId = some c) :
    (s.adopt c session loser).manager session.peerId = some c ∧
      (s.adopt c session loser).connectionForPeer session.peerId = some c := by
  obtain ⟨hcan, hopen⟩ := Node.connectionForPeer_eq_some.1 hlive
  unfold Node.adopt
  simp only [hclosing, Bool.false_eq_true, if_false]
  split
  · rename_i m hm
    have hne : m ≠ c ∧ some m ≠ loser := of_decide_eq_true (Option.filter_eq_some_iff.1 hm).2
    refine ⟨by simp [Node.setReader, Node.beginRetire], Node.connectionForPeer_eq_some.2 ⟨?_, hopen⟩⟩
    show (s.tables.deactivateSession m).peerConnections session.peerId = some c
    rw [hs.peerConnections_deactivateSession, hcan]
    simp [Option.filter_some, hne.1.symm]
  · unfold Node.startReading
    rw [if_pos (by exact hcan)]
    exact ⟨by simp [Node.setReader], Node.connectionForPeer_eq_some.2 ⟨hcan, hopen⟩⟩

/-- What an attempt goes on with has been negotiated. -/
theorem Node.Sound.past_of_awaits (hs : s.Sound none) {a d : ℕ}
    (hd : (s.attempts a).awaits a d = true) : s.Past d := by
  cases ha : s.attempts a <;> rw [ha] at hd <;> simp [AttemptPc.awaits] at hd <;> subst hd
  · exact .inl (by rw [ha]; rfl)
  · exact .inl (by rw [ha]; rfl)
  · exact hs.selected a d (by rw [ha, AttemptPc.selected])

/-- **Outgoing setup kills no live session** in every run without
`disconnect()` whose steps all meet the condition.  After a step that does not,
a live session can be killed. -/
theorem live_session_spared (F : Type) (peerId : Str) :
    (∀ s, ReachableWhen (system F peerId)
        (fun s l => WithoutDisconnect l ∧ SparesSession peerId s l) s → s.killed = []) ∧
      ∀ s l t, ReachableWhen (system F peerId) (fun _ l => WithoutDisconnect l) s →
        WithoutDisconnect l → ¬ SparesSession peerId s l → step peerId s l = some t →
          CanKill peerId t := by
  refine ⟨fun s h => (spared_of_reachableWhen h).killed, fun s l t hs hl hG ht => ?_⟩
  by_contra hno
  refine hG ?_
  obtain ⟨hsound, hflights⟩ := sound_of_reachable hs.reachable
  obtain ⟨hsound', hflights'⟩ := sound_step hsound hflights ht
  have hadopted : ∀ {c a d p}, s.ReaderMove t c → s.inFlight p = some a →
      (s.attempts a).awaits a d = true → t.manager p = some c →
        t.connectionForPeer p = some c → c ≠ d → CanKill peerId t := by
    intro c a d p hmove hin hd hm hlive hne
    rw [← hmove.inFlight] at hin
    obtain ⟨hp, hcancelled⟩ := (hflights'.inFlight p a).1 hin
    rw [← hmove.attempts] at hd
    exact canKill_of_awaits hsound' hflights' hp hcancelled hd hm hne hlive
  refine ⟨fun c session tables he hc hopen hclosing hsel a d hin => ?_,
    fun c session loser he hc hclosing hlive a d hin hd => ?_,
    fun k p a c d he hk ha hsession hlive => ?_⟩
  · subst he
    cases hd : (s.attempts a).awaits a d with
    | false => rfl
    | true =>
        have hready : s.tables.ready c = none := hsound.ready_eq_none (by
          rw [Node.Past, hc, hsound.incoming c (by rw [hc]; rfl)]
          simp [AttemptPc.isPast, ReaderPc.isPast])
        have hne : c ≠ d := by
          rintro rfl
          have hpast := hsound.past_of_awaits hd
          rw [Node.Past, hc, hsound.incoming c (by rw [hc]; rfl)] at hpast
          simp [AttemptPc.isPast, ReaderPc.isPast] at hpast
        obtain ⟨hwf, hcan⟩ : tables.WellFormed ∧
            tables.peerConnections session.peerId = some c := by
          cases selects_of_selectReadyConnection hsound.tables hready hsel with
          | first _ hwf hself _ => exact ⟨hwf, hwf.canonical hself⟩
        obtain ⟨hm, hlive⟩ := Node.live_of_adopt (s := { s with tables := tables }) none
          hwf hclosing (Node.connectionForPeer_eq_some.2 ⟨hcan, hopen⟩)
        have hmove : s.ReaderMove t c := by
          simp only [step, hc, Option.some.injEq] at ht
          exact ht ▸ Node.readerMove_negotiated hsound hc
        have hadopt : t = ({ s with tables := tables } : Node F).adopt c session none := by
          simp only [step, hc, Node.incomingNegotiated, hsel, if_true, Option.some.injEq] at ht
          exact ht.symm
        rw [← hadopt] at hm hlive
        exact absurd (hadopted hmove hin hd hm hlive hne) hno
  · subst he
    have hmove : s.ReaderMove t c := Node.readerMove_resume hsound ht
    by_contra hne
    obtain ⟨hm, hlive'⟩ := Node.live_of_adopt (some loser) hsound.tables hclosing hlive
    simp only [step, hc, Option.some.injEq] at ht
    rw [ht] at hm hlive'
    exact hno (hadopted hmove hin hd hm hlive' fun he => hne he.symm)
  · subst he
    simp only [step, hk, ha, Option.some.injEq] at ht
    subst ht
    by_contra hd
    refine hno (canKill_of_handOver hflights hsound' hsession hlive ?_)
    by_contra hcon
    exact hd ⟨fun h => hcon (.inl h), fun h => hcon (.inr h)⟩

/-- The connection of an attempt is chosen over an inbound one and ends; the
next inbound session is adopted before the attempt installs its own
connection. -/
theorem live_session_killed : ¬ ∀ s,
    ReachableWhen (system SampleFloat sampleA.peerId) (fun _ l => WithoutDisconnect l) s →
      s.killed = [] := by
  intro h
  have hrun := h _ (reachableWhen_of_exec (S := system SampleFloat sampleA.peerId) rfl
    [.connect sampleB.peerId 0, .opened 0, .accept 1, .accept 2,
      .incomingNegotiated 1 (sessionOf sampleA sampleB ⟨false, none⟩),
      .attemptNegotiated 0 (sessionOf sampleA sampleB ⟨false, none⟩), .close 0,
      .incomingNegotiated 2 (sessionOf sampleA sampleB ⟨false, none⟩), .resumeAttempt 0,
      .resumeAttempt 0] (by simp [WithoutDisconnect]) rfl)
  exact absurd hrun (by decide)

end Sessions
end Core
end Paqto
