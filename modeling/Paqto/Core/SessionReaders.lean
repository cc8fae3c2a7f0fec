/-
# Every READY session is read

The session of an outgoing connection is published by the shared attempt, its
reader is started by whichever caller of `connect()` resumes afterwards
(`_ensure_reader` in `core/node.py`).  A canonical connection is read, or a
caller is on its way to start its reader, in every run in which nobody's
attempt publishes and the last caller of a published one is not cancelled
(`every_session_read`); any other run can go on to a session nobody reads.
-/

import Paqto.Core.Negotiation
import Paqto.Core.SessionsInvariant

namespace Paqto
namespace Core
namespace Sessions

open Transition Python
open SessionTables (selects_of_selectReadyConnection)

variable {F : Type}

/-- A caller waits for an attempt that goes on with `c`. -/
def Node.OnItsWay (s : Node F) (c : ℕ) : Prop :=
  ∃ k p a, s.callers k = .waiting p a ∧ (s.attempts a).leadsTo a c = true

/-- **Every READY session is read**, or its reader is about to be started. -/
def Node.EverySessionRead (s : Node F) : Prop :=
  ∀ p c, s.connectionForPeer p = some c → (s.readers c).isActive = true ∨ s.OnItsWay c

/-- The negotiation of the attempt `a` makes its own open connection the
canonical one. -/
def Node.Publishes (s : Node F) (peerId : Str) (a : ℕ) (session : ProtocolSession F) : Prop :=
  s.isClosed a = false ∧
    ∃ u loser, s.tables.selectReadyConnection peerId s.isClosed a session .outbound =
      some (u, ⟨a, loser⟩)

/-- No attempt publishes its connection while nobody waits for it, and the last
caller that waits for a published, open and unread connection is not
cancelled. -/
def KeepsReaders (peerId : Str) (s : Node F) : Label F → Prop
  | .attemptNegotiated a session =>
      s.Publishes peerId a session → ∃ k p, s.callers k = .waiting p a
  | .cancelCaller k => ∀ p a, s.callers k = .waiting p a → (s.tables.sessionFor a).isSome →
      s.isClosed a = false → (s.readers a).isActive = false →
        ∃ l, l ≠ k ∧ ∃ q, s.callers l = .waiting q a
  | _ => True

/-- A caller waits for the attempt that has published `c`. -/
def Node.Carried (s : Node F) (c : ℕ) : Prop :=
  (s.attempts c).leadsTo c c = true ∧ ∃ k p, s.callers k = .waiting p c

/-- An open READY session is read, or its own attempt has a caller. -/
def Node.Served (s : Node F) : Prop :=
  ∀ c r, s.tables.ready c = some r → s.isClosed c = false →
    (s.readers c).isActive = true ∨ s.Carried c

namespace Node

variable {peerId : Str} {s t : Node F}

/-- Every READY session is read, or about to be. -/
theorem Served.everySessionRead (h : s.Served) (hs : s.Sound none) : s.EverySessionRead := by
  intro p c hc
  obtain ⟨hcan, hopen⟩ := Option.filter_eq_some_iff.1 hc
  obtain ⟨r, hr, _⟩ := hs.tables.ready hcan
  rcases h c r hr (by simpa using hopen) with hact | ⟨hlead, k, q, hk⟩
  · exact .inl hact
  · exact .inr ⟨k, q, c, hk, hlead⟩

/-- There is no session yet. -/
theorem served_initial : (initial : Node F).Served := fun _ _ hr => by cases hr

/-- Nothing is published, and nobody stops to read or to wait for a session
that stays. -/
theorem Served.mono (h : s.Served)
    (hready : ∀ c r, t.tables.ready c = some r → s.tables.ready c = some r)
    (hclosed : ∀ c, s.isClosed c = true → t.isClosed c = true)
    (hactive : ∀ c, (s.readers c).isActive = true → (t.readers c).isActive = true)
    (hcarried : ∀ c r, t.tables.ready c = some r → s.Carried c →
      (t.readers c).isActive = true ∨ t.Carried c) : t.Served := by
  intro c r hr hopen
  have hold : s.isClosed c = false := by
    cases hc : s.isClosed c with
    | false => rfl
    | true => rw [hclosed c hc] at hopen; cases hopen
  rcases h c r (hready c r hr) hold with hact | hcar
  · exact .inl (hactive c hact)
  · exact hcarried c r hr hcar

/-- A caller settles. -/
theorem Settles.served (h : s.Settles t) (hs : s.Served) : t.Served :=
  hs.mono h.ready h.closed (fun c hc => h.readers ▸ hc) fun c _ _ hcar => .inr (by
    rwa [Carried, h.attempts, h.callers])

/-! ## Steps of an attempt -/

section attempts

variable {a : ℕ} {p : Str}

/-- The attempt goes on with its own connection, or has closed it. -/
def KeepsOwn (t : Node F) (a : ℕ) : Prop :=
  (t.attempts a).leadsTo a a = true ∨ t.isClosed a = true

/-- The connection is closed. -/
theorem isClosed_failAttempt (s : Node F) (a : ℕ) (p : Str) :
    (s.failAttempt a p).isClosed a = true := by
  unfold failAttempt
  split
  · assumption
  · simp [setAttempt, closeInSetup, closeConnection]

/-- The attempt installs its own connection. -/
theorem keepsOwn_install (s : Node F) (a : ℕ) (p : Str) : (s.install a p a).KeepsOwn a := by
  unfold install
  split
  · exact .inr (s.isClosed_failAttempt a p)
  · dsimp only
    split
    · exact .inl (by simp [AttemptPc.leadsTo])
    · exact .inl (by simp [endAttempt, AttemptPc.leadsTo])

/-- An attempt moves, and keeps its connection or has none. -/
theorem AttemptMove.served (h : s.AttemptMove t a p) (hs : s.Served)
    (hlead : (s.attempts a).leadsTo a a = true → t.KeepsOwn a)
    (hneg : s.attempts a = .negotiating p → t.isClosed a = true ∨
      (t.attempts a).leadsTo a a = true ∧ ∃ k q, s.callers k = .waiting q a) : t.Served := by
  intro c r hr hopen
  have hold : s.isClosed c = false := by
    cases hc : s.isClosed c with
    | false => rfl
    | true => rw [h.closed c hc] at hopen; cases hopen
  rw [h.readers, Carried, h.callers]
  by_cases hca : c = a
  · subst hca
    rcases h.ready c r hr with hready | ⟨_, hpc, _⟩
    · rcases hs c r hready hold with hact | ⟨hlead', hk⟩
      · exact .inl hact
      · exact .inr ⟨(hlead hlead').resolve_right (by simp [hopen]), hk⟩
    · exact .inr ((hneg hpc).resolve_left (by simp [hopen]))
  · have hready := (h.ready c r hr).resolve_right fun hp => hca hp.1
    rw [h.others c hca]
    exact hs c r hready hold

/-- An attempt goes on. -/
theorem Served.resumeAttempt (h : s.Served) (hs : s.Sound none)
    (ht : step peerId s (.resumeAttempt a) = some t) : t.Served := by
  obtain ⟨p, _, hmove⟩ := attemptMove_resume hs ht
  simp only [step] at ht
  split at ht
  · cases ht
  · split at ht <;> cases ht
    · rename_i q r ha
      exact hmove.served h (fun _ => .inl (by simp [AttemptPc.leadsTo])) fun hneg => by
        rw [ha] at hneg
        cases hneg
    · rename_i q ha
      exact hmove.served h (fun _ => s.keepsOwn_install a q) fun hneg => by
        rw [ha] at hneg
        cases hneg
    · rename_i q c ha
      refine hmove.served h (fun hlead => ?_) fun hneg => by
        rw [ha] at hneg
        cases hneg
      rw [ha] at hlead
      obtain rfl : a = c := by simpa [AttemptPc.leadsTo] using hlead
      exact s.keepsOwn_install a q
    · rename_i q c ha
      refine hmove.served h (fun hlead => .inl ?_) fun hneg => by
        rw [ha] at hneg
        cases hneg
      rw [ha] at hlead
      simpa [endAttempt, AttemptPc.leadsTo] using hlead
    · rename_i q ha
      refine hmove.served h (fun hlead => ?_) fun hneg => by
        rw [ha] at hneg
        cases hneg
      rw [ha] at hlead
      cases hlead

/-- An attempt fails. -/
theorem Served.failAttempt (h : s.Served) (a : ℕ) (p : Str) : (s.failAttempt a p).Served :=
  (s.attemptMove_failAttempt a p).served h (fun _ => .inr (s.isClosed_failAttempt a p))
    fun _ => .inl (s.isClosed_failAttempt a p)

/-- An attempt raises before it has a session. -/
theorem Served.raiseAttempt (h : s.Served) (ha : (s.attempts a).leadsTo a a = false)
    (hneg : s.attempts a ≠ .negotiating p) : (s.raiseAttempt a p).Served :=
  (s.attemptMove_raiseAttempt a p).served h
    (fun hlead => by
      rw [ha] at hlead
      cases hlead)
    fun hpc => absurd hpc hneg

/-- An attempt is cancelled. -/
theorem Served.attemptCancelled (h : s.Served)
    (ht : step peerId s (.attemptCancelled a) = some t) : t.Served := by
  simp only [step] at ht
  split at ht
  · split at ht <;> cases ht <;> rename_i ha <;>
      first
        | exact h.failAttempt a _
        | exact h.raiseAttempt (by rw [ha]; rfl) (by rw [ha]; rintro ⟨⟩)
  · cases ht

/-- An attempt fails where it stands. -/
theorem Served.attemptFails (h : s.Served)
    (ht : step peerId s (.attemptFails a) = some t) : t.Served := by
  simp only [step] at ht
  split at ht
  · cases ht
  · split at ht <;> cases ht <;> rename_i ha
    · exact h.raiseAttempt (by rw [ha]; rfl) (by rw [ha]; rintro ⟨⟩)
    · exact h.failAttempt a _

/-- The attempt that publishes its connection has a caller. -/
theorem Served.attemptNegotiated (h : s.Served) (hs : s.Sound none)
    {session : ProtocolSession F} (ha : s.attempts a = .negotiating p)
    (hcancelled : s.cancelled a = false)
    (hG : KeepsReaders peerId s (.attemptNegotiated a session)) :
    (s.attemptNegotiated peerId a p session).Served := by
  have hmove : s.AttemptMove (s.attemptNegotiated peerId a p session) a p :=
    attemptMove_negotiated hs ha hcancelled
  have hnotLead : (s.attempts a).leadsTo a a = true →
      (s.attemptNegotiated peerId a p session).KeepsOwn a := fun hlead => by
    rw [ha] at hlead
    cases hlead
  refine hmove.served h hnotLead fun _ => ?_
  have hready := hs.ready_eq_none (hs.not_past_of_negotiating ha)
  cases hopen : s.isClosed a with
  | true => exact .inl (hmove.closed a hopen)
  | false =>
      have hwaits : ∀ u loser, s.tables.selectReadyConnection peerId s.isClosed a session
          .outbound = some (u, ⟨a, loser⟩) → ∃ k q, s.callers k = .waiting q a :=
        fun u loser hsel => hG ⟨hopen, u, loser, hsel⟩
      unfold Node.attemptNegotiated
      split
      · exact .inl (s.isClosed_failAttempt a p)
      · rename_i u sel hsel
        cases selects_of_selectReadyConnection hs.tables hready hsel with
        | first _ _ _ _ =>
            simp only [if_true]
            have hkeeps := keepsOwn_install { s with tables := u } a p
            exact hkeeps.symm.imp_right fun hlead => ⟨hlead, hwaits u _ hsel⟩
        | replaced _ _ _ _ _ _ _ =>
            simp only [if_true]
            exact .inr ⟨by simp [AttemptPc.leadsTo], hwaits u _ hsel⟩
        | kept _ _ hne =>
            simp only [if_neg hne, hopen]
            exact .inl (by simp [setAttempt, closeInSetup, closeConnection])

end attempts

/-! ## Readers and callers -/

/-- A reader moves. -/
theorem ReaderMove.served {c : ℕ} (h : s.ReaderMove t c) (hs : s.Served) : t.Served := by
  intro d r hr hopen
  have hold : s.isClosed d = false := by
    cases hc : s.isClosed d with
    | false => rfl
    | true => rw [h.closed d hc] at hopen; cases hopen
  by_cases hdc : d = c
  · subst hdc
    refine .inl ?_
    -- the task of the connection deactivates its session before it ends
    cases hact : (t.readers d).isActive with
    | true => rfl
    | false =>
        exfalso
        rcases h.past with hp | ⟨_, _, hp⟩
        · rw [h.ended (ReaderPc.isOver_of_isPast hp hact)] at hr
          cases hr
        · rw [hp] at hact
          cases hact
  · have hready := (h.ready d r hr).resolve_right fun hp => hdc hp.1
    rw [h.others d hdc, Carried, h.attempts, h.callers]
    exact hs d r hready hold

/-- A caller that is not needed, or that no attempt carries a session for, may
do something else. -/
theorem Served.setCaller (h : s.Served) {k : ℕ} {pc : CallerPc}
    (hk : ∀ p c r, s.callers k = .waiting p c → s.tables.ready c = some r → s.isClosed c = false →
      (s.attempts c).leadsTo c c = true →
        (s.readers c).isActive = true ∨ ∃ l, l ≠ k ∧ ∃ q, s.callers l = .waiting q c) :
    (s.setCaller k pc).Served := by
  intro c r hr hopen
  rcases h c r hr hopen with hact | ⟨hlead, l, q, hl⟩
  · exact .inl hact
  · by_cases hlk : l = k
    · subst hlk
      rcases hk q c r hl hr hopen hlead with hact | ⟨l', hne, q', hl'⟩
      · exact .inl hact
      · exact .inr ⟨hlead, l', q', by rwa [setCaller_of_ne hne]⟩
    · exact .inr ⟨hlead, l, q, by rwa [setCaller_of_ne hlk]⟩

/-- The reader is active. -/
theorem ensureReader_isActive (s : Node F) (c : ℕ) (session : ProtocolSession F) :
    ((s.ensureReader c session).readers c).isActive = true := by
  unfold ensureReader
  split
  · simp [ReaderPc.isActive]
  · simp [ReaderPc.isActive]
  · rename_i habs hend
    cases hc : s.readers c <;> simp_all [ReaderPc.isActive]

/-- Other readers stay active. -/
theorem isActive_ensureReader {c d : ℕ} {session : ProtocolSession F}
    (h : (s.readers d).isActive = true) :
    ((s.ensureReader c session).readers d).isActive = true := by
  by_cases hdc : d = c
  · exact hdc ▸ s.ensureReader_isActive c session
  · unfold ensureReader
    split
    · rwa [setReader_of_ne hdc]
    · rwa [setReader_of_ne hdc]
    · exact h

/-- The start of a reader leaves the rest alone. -/
theorem ensureReader_eq (s : Node F) (c : ℕ) (session : ProtocolSession F) :
    (s.ensureReader c session).tables = s.tables ∧
      (s.ensureReader c session).isClosed = s.isClosed ∧
      (s.ensureReader c session).attempts = s.attempts ∧
      (s.ensureReader c session).callers = s.callers := by
  unfold ensureReader
  split <;> exact ⟨rfl, rfl, rfl, rfl⟩

/-- A reader is started. -/
theorem Served.ensureReader (h : s.Served) (c : ℕ) (session : ProtocolSession F) :
    (s.ensureReader c session).Served := by
  obtain ⟨htables, hclosed, hattempts, hcallers⟩ := s.ensureReader_eq c session
  refine h.mono (fun d r hr => htables ▸ hr) (fun d hd => hclosed ▸ hd)
    (fun d => isActive_ensureReader) fun d _ _ hcar => .inr ?_
  rwa [Carried, hattempts, hcallers]

/-- A caller goes on with what its attempt has returned. -/
theorem Served.handOver (h : s.Served) {k c : ℕ} {p : Str}
    (hk : ∀ q a, s.callers k = .waiting q a → s.attempts a = .returned c) :
    (s.handOver k p c).Served := by
  have hown : ∀ {q a}, s.callers k = .waiting q a → (s.attempts a).leadsTo a a = true →
      a = c := by
    intro q a hq hlead
    rw [hk q a hq] at hlead
    simpa [AttemptPc.leadsTo] using hlead
  unfold Node.handOver
  split
  · rename_i session hsession
    obtain ⟨htables, hclosed, hattempts, hcallers⟩ := s.ensureReader_eq c session
    refine (h.ensureReader c session).setCaller fun q a r hq _ _ hlead => .inl ?_
    rw [hcallers] at hq
    rw [hattempts] at hlead
    obtain rfl := hown hq hlead
    exact s.ensureReader_isActive a session
  · rename_i hsession
    have hsettles := s.settles_closePeer true p
    have hserved := hsettles.served h
    have hset : ∀ pc, ((s.closePeer true p).1.setCaller k pc).Served := fun pc =>
      hserved.setCaller fun q a r hq hr _ hlead => by
        rw [hsettles.callers] at hq
        rw [hsettles.attempts] at hlead
        obtain rfl := hown hq hlead
        rw [SessionTables.sessionFor, hsettles.ready a r hr] at hsession
        cases hsession
    split <;> rename_i heq
    · simpa only [heq] using hset _
    · simpa only [heq] using hset _

/-- A caller connects. -/
theorem Served.connect (h : s.Served) (hs : s.Sound none) {p : Str} {a : ℕ}
    (ht : s.connect p a = some t) : t.Served := by
  have hnext : ({ s with nextCaller := s.nextCaller + 1 } : Node F).Served := h
  have habs : ∀ q c, s.callers s.nextCaller ≠ .waiting q c := fun q c hq => by
    rw [hs.fresh _ (Nat.le_refl _)] at hq
    cases hq
  have hset : ∀ {u : Node F} {pc : CallerPc}, u.Served → u.callers = s.callers →
      (u.setCaller s.nextCaller pc).Served := fun hu hcallers =>
    hu.setCaller fun q c _ hq => absurd (hcallers ▸ hq) (habs q c)
  simp only [Node.connect] at ht
  split at ht
  · cases ht
    exact hset hnext rfl
  · split at ht
    · cases ht
      exact hset hnext rfl
    · split at ht
      · cases ht
        exact hnext.handOver fun q c hq => absurd hq (habs q c)
      · have hquiet := quiet_forgetClosed ({ s with nextCaller := s.nextCaller + 1 } : Node F) p
        have hforget := hquiet.toSettles.served hnext
        have hsound := hquiet.toSettles.sound hs.nextCaller
        generalize forgetClosed _ p = u at ht hquiet hforget hsound
        have hcallers : u.callers = s.callers := hquiet.callers
        unfold joinAttempt at ht
        split at ht
        · cases ht
          exact hset hforget hcallers
        · split at ht
          · rename_i ha hr
            cases ht
            refine hset (u := u.startAttempt p a) (hforget.mono (fun _ _ => id) (fun _ => id)
              (fun _ => id) fun c r hready hcar => .inr ⟨?_, hcar.2⟩) hcallers
            have hca : c ≠ a := by
              rintro rfl
              have hpast := hsound.past_of_ready (show u.tables.ready c = some r from hready)
              rw [Past, ha, hr] at hpast
              simp [AttemptPc.isPast, ReaderPc.isPast] at hpast
            rw [startAttempt, setAttempt_of_ne hca]
            exact hcar.1
          · cases ht

/-- A caller goes on. -/
theorem Served.resumeCaller (h : s.Served) {k : ℕ}
    (ht : step peerId s (.resumeCaller k) = some t) : t.Served := by
  simp only [step] at ht
  split at ht
  · rename_i p a hk
    have hsame : ∀ q b, s.callers k = .waiting q b → b = a := fun q b hq => by
      rw [hk] at hq
      cases hq
      rfl
    split at ht <;> cases ht <;> rename_i ha
    · exact h.handOver fun q b hq => hsame q b hq ▸ ha
    · refine h.setCaller fun q b r hq _ _ hlead => ?_
      rw [hsame q b hq, ha] at hlead
      cases hlead
  · rename_i closer hk
    obtain ⟨⟨u, pc⟩, hu, rfl⟩ := Option.map_eq_some_iff.1 ht
    have hsettles := settles_resumeClosePeer hu
    have hset : ∀ pc, (u.setCaller k pc).Served := fun pc =>
      (hsettles.served h).setCaller fun q c r hq => by
        rw [hsettles.callers, hk] at hq
        cases hq
    cases pc <;> exact hset _
  · cases ht

/-- A caller is cancelled, and leaves nothing unread. -/
theorem Served.cancelCaller (h : s.Served) {k : ℕ} (hG : KeepsReaders peerId s (.cancelCaller k))
    (ht : step peerId s (.cancelCaller k) = some t) : t.Served := by
  simp only [step] at ht
  split at ht <;> cases ht
  · refine h.setCaller fun q c r hq hr hopen _ => ?_
    cases hact : (s.readers c).isActive with
    | true => exact .inl rfl
    | false => exact .inr (hG q c hq (by simp [SessionTables.sessionFor, hr]) hopen hact)
  · rename_i hk
    refine h.setCaller fun q c r hq => ?_
    rw [hk] at hq
    cases hq
  · rename_i p hk
    refine ((s.settles_endClosePeer p).served h).setCaller fun q c r hq => ?_
    rw [(s.settles_endClosePeer p).callers, hk] at hq
    cases hq

end Node

/-! ## Runs -/

section runs

variable {peerId : Str} {s t : Node F}

/-- **One step keeps the readers**, if it meets the condition. -/
theorem served_step {l : Label F} (h : s.Served) (hs : s.Sound none)
    (hG : KeepsReaders peerId s l) (ht : step peerId s l = some t) : t.Served := by
  cases l with
  | accept c =>
      simp only [step] at ht
      split at ht <;> cases ht
      rename_i ha hr
      refine h.mono (fun _ _ => id) (fun _ => id) (fun d hd => ?_) fun c _ _ hcar => .inr hcar
      by_cases hdc : d = c
      · subst hdc
        simp [ReaderPc.isActive]
      · rwa [Node.setReader_of_ne hdc]
  | connect p a => exact h.connect hs ht
  | opened a =>
      simp only [step] at ht
      split at ht
      · rename_i p ha
        split at ht <;> cases ht
        refine (Node.attemptMove_opened ha).served h (fun hlead => ?_) fun hneg => ?_
        · rw [ha] at hlead
          cases hlead
        · rw [ha] at hneg
          cases hneg
      · cases ht
  | attemptFails a => exact h.attemptFails ht
  | attemptNegotiated a session =>
      simp only [step] at ht
      split at ht
      · rename_i p ha
        split at ht <;> cases ht
        rename_i hcond
        exact h.attemptNegotiated hs ha hcond.1 hG
      · cases ht
  | attemptCancelled a => exact h.attemptCancelled ht
  | resumeAttempt a => exact h.resumeAttempt hs ht
  | incomingFails c =>
      simp only [step] at ht
      split at ht <;> cases ht
      rename_i hc
      exact (Node.readerMove_endIncoming (.refl s) (by rw [hc]; rintro ⟨⟩)).served h
  | incomingNegotiated c session =>
      simp only [step] at ht
      split at ht <;> cases ht
      exact (Node.readerMove_negotiated hs ‹_›).served h
  | resumeReader c => exact (Node.readerMove_resume hs ht).served h
  | readerEnds c => exact (Node.readerMove_readerEnds ht).served h
  | resumeCaller k => exact h.resumeCaller ht
  | cancelCaller k => exact h.cancelCaller hG ht
  | disconnect p =>
      cases ht
      exact (s.settles_disconnect p).served h
  | resumeDisconnect d => exact (Node.settles_resumeDisconnect ht).served h
  | connectionState p =>
      cases ht
      exact (s.quiet_forgetClosed p).toSettles.served h
  | close c =>
      cases ht
      exact (s.quiet_closeConnection c).toSettles.served h

/-- **Every session is served** in the runs that meet the condition. -/
theorem served_of_reachableWhen
    (h : ReachableWhen (system F peerId) (KeepsReaders peerId) s) : s.Served := by
  have hall := h.invariant (I := fun s => s.Served ∧ s.Sound none ∧ s.Flights)
    (by rintro _ rfl; exact ⟨Node.served_initial, sound_initial, flights_initial⟩)
    fun s l t hI hG hs => ⟨served_step hI.1 hI.2.1 hG hs, sound_step hI.2.1 hI.2.2 hs⟩
  exact hall.1

/-! ## Runs that meet the condition in all but one step -/

/-- All callers that wait may be cancelled, one after the other. -/
theorem exists_no_caller (peerId : Str) (h : s.Sound none) : ∃ t,
    Reachable ((system F peerId).startingAt s) t ∧ t.tables = s.tables ∧
      t.isClosed = s.isClosed ∧ t.readers = s.readers ∧
      ∀ k p a, t.callers k ≠ .waiting p a := by
  have hfirst : ∀ n, ∃ t, Reachable ((system F peerId).startingAt s) t ∧ t.tables = s.tables ∧
      t.isClosed = s.isClosed ∧ t.readers = s.readers ∧
      (∀ k, k < n → ∀ p a, t.callers k ≠ .waiting p a) ∧
      ∀ k, n ≤ k → t.callers k = s.callers k := by
    intro n
    induction n with
    | zero =>
        exact ⟨s, .init rfl, rfl, rfl, rfl, fun k hk => absurd hk (Nat.not_lt_zero k),
          fun _ _ => rfl⟩
    | succ n ih =>
        obtain ⟨t, ht, htables, hclosed, hreaders, hbelow, habove⟩ := ih
        by_cases hwait : ∃ p a, t.callers n = .waiting p a
        · obtain ⟨p, a, hn⟩ := hwait
          have hstep : ((system F peerId).startingAt s).step t (.cancelCaller n) =
              some (t.setCaller n .cancelled) := by
            simp only [System.startingAt, system, step, hn]
          refine ⟨_, ht.next _ hstep, htables, hclosed, hreaders, fun k hk q b => ?_,
            fun k hk => ?_⟩
          · by_cases hkn : k = n
            · subst hkn
              rw [Node.setCaller_self]
              rintro ⟨⟩
            · rw [Node.setCaller_of_ne hkn]
              exact hbelow k (by omega) q b
          · rw [Node.setCaller_of_ne (by omega)]
            exact habove k (by omega)
        · refine ⟨t, ht, htables, hclosed, hreaders, fun k hk q b hq => ?_,
            fun k hk => habove k (by omega)⟩
          by_cases hkn : k = n
          · exact hwait ⟨q, b, hkn ▸ hq⟩
          · exact hbelow k (by omega) q b hq
  obtain ⟨t, ht, htables, hclosed, hreaders, hbelow, habove⟩ := hfirst s.nextCaller
  refine ⟨t, ht, htables, hclosed, hreaders, fun k p a hk => ?_⟩
  by_cases hlt : k < s.nextCaller
  · exact hbelow k hlt p a hk
  · rw [habove k (by omega), h.fresh k (by omega)] at hk
    cases hk

/-- An open session without a reader can lose all that could start one. -/
theorem exists_unread (h : s.Sound none) {c : ℕ} {r : ReadySession F}
    (hr : s.tables.ready c = some r) (hopen : s.isClosed c = false)
    (hactive : (s.readers c).isActive = false) :
    ∃ t, Reachable ((system F peerId).startingAt s) t ∧ ¬ t.EverySessionRead := by
  obtain ⟨t, ht, htables, hclosed, hreaders, hnone⟩ := exists_no_caller peerId h
  refine ⟨t, ht, fun hread => ?_⟩
  have hcan : t.connectionForPeer r.session.peerId = some c := by
    rw [Node.connectionForPeer, htables, hclosed, h.tables.canonical hr]
    simp [hopen]
  rcases hread _ c hcan with hact | ⟨k, p, a, hk, _⟩
  · rw [hreaders, hactive] at hact
    cases hact
  · exact hnone k p a hk

/-- What a publishing attempt leaves. -/
theorem ready_attemptNegotiated (h : s.Sound none) (hf : s.Flights) {a : ℕ} {p : Str}
    {session : ProtocolSession F} (ha : s.attempts a = .negotiating p)
    (hcancelled : s.cancelled a = false) (hpub : s.Publishes peerId a session) :
    (∃ r, (s.attemptNegotiated peerId a p session).tables.ready a = some r) ∧
      (s.attemptNegotiated peerId a p session).isClosed a = false := by
  obtain ⟨hopen, u, loser, hsel⟩ := hpub
  have hclosing : s.closingPeers p = false := by
    cases hc : s.closingPeers p with
    | false => rfl
    | true =>
        have hnone := hf.closing p hc
        rw [(hf.inFlight p a).2 ⟨by rw [ha, AttemptPc.peer], hcancelled⟩] at hnone
        cases hnone
  have hready := h.ready_eq_none (h.not_past_of_negotiating ha)
  have hselects := selects_of_selectReadyConnection h.tables hready hsel
  generalize hsel' : (⟨a, loser⟩ : SessionTables.Selection) = sel at hselects
  unfold Node.attemptNegotiated
  rw [hsel]
  cases hselects with
  | first _ _ hself _ =>
      cases hsel'
      simp only [if_true, Node.install, hclosing, Bool.false_eq_true, if_false]
      split
      · rename_i previous hprevious
        have hne : previous ≠ a := by
          have := (Option.filter_eq_some_iff.1 hprevious).2
          simpa using this
        exact ⟨⟨_, hself⟩, by
          simpa [Node.setAttempt, Node.closeInSetup, Node.closeConnection, Ne.symm hne] using hopen⟩
      · exact ⟨⟨_, hself⟩, hopen⟩
  | replaced _ _ hne _ hself _ _ =>
      cases hsel'
      simp only [if_true]
      refine ⟨⟨⟨session, .outbound⟩, ?_⟩, hopen⟩
      show (SessionTables.deactivateSession _ _).ready a = _
      rw [SessionTables.deactivateSession_ready_ne hne.symm]
      exact hself
  | kept _ _ hne =>
      cases hsel'
      exact absurd rfl hne

/-- **Every READY session is read** in every run whose steps keep readers; a
step that does not can be followed by a state in which nobody reads, or is on
the way to read, a canonical open connection. -/
theorem every_session_read (F : Type) (peerId : Str) :
    (∀ s, ReachableWhen (system F peerId) (KeepsReaders peerId) s → s.EverySessionRead) ∧
      ∀ s l t, Reachable (system F peerId) s → ¬ KeepsReaders peerId s l →
        step peerId s l = some t →
          ∃ u, Reachable ((system F peerId).startingAt t) u ∧ ¬ u.EverySessionRead := by
  refine ⟨fun s h => (served_of_reachableWhen h).everySessionRead
    (sound_of_reachable h.reachable).1, fun s l t hs hG ht => ?_⟩
  obtain ⟨hsound, hflights⟩ := sound_of_reachable hs
  have hsound' := (sound_step hsound hflights ht).1
  unfold KeepsReaders at hG
  split at hG
  · rename_i a session
    have hpub := Classical.not_imp.1 hG
    simp only [step] at ht
    split at ht
    · rename_i p ha
      split at ht <;> cases ht
      rename_i hcond
      obtain ⟨⟨r, hr⟩, hopen⟩ :=
        ready_attemptNegotiated hsound hflights ha hcond.1 hpub.1
      refine exists_unread hsound' hr hopen ?_
      rw [(Node.attemptMove_negotiated hsound ha hcond.1).readers, hsound.outgoing a p (.inr ha)]
      rfl
    · cases ht
  · rename_i k
    simp only [not_forall] at hG
    obtain ⟨p, a, hk, hready, hopen, hactive, _⟩ := hG
    simp only [step, hk, Option.some.injEq] at ht
    subst ht
    obtain ⟨session, hsession⟩ := Option.isSome_iff_exists.1 hready
    obtain ⟨r, hr, _⟩ := Option.map_eq_some_iff.1 hsession
    exact exists_unread hsound' (c := a) hr hopen hactive
  · exact absurd trivial hG

/-- The only caller of `connect()` is cancelled before the handshake ends. -/
theorem not_every_session_read :
    ¬ ∀ s, Reachable (system SampleFloat sampleA.peerId) s → s.EverySessionRead := by
  intro h
  have hrun := h _ (reachable_of_exec (S := system SampleFloat sampleA.peerId) rfl
    [.connect sampleB.peerId 0, .cancelCaller 0, .opened 0,
      .attemptNegotiated 0 (sessionOf sampleA sampleB ⟨false, none⟩)] rfl)
  rcases hrun sampleB.peerId 0 rfl with hact | ⟨k, p, a, hk, _⟩
  · cases hact
  · have hcallers : Function.update (Function.update (fun _ => CallerPc.absent) 0
        (.waiting sampleB.peerId 0)) 0 .cancelled k = .waiting p a := hk
    by_cases hk0 : k = 0 <;> simp [hk0] at hcallers

end runs

end Sessions
end Core
end Paqto
