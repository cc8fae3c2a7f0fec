/-
# The events of a session

The sessions of a node with the events that `_register_session`, `disconnect` and
`_connection_ended` of `core/node.py` emit, and the local variables that decide them:
`connection` in `disconnect`, `was_canonical` and `removed` in `_connection_ended`.
The event queue does not overflow.

`Bystands` says what a step that ends no session does to the readers and the sessions.
-/

import Paqto.Core.SessionsInvariant

namespace Paqto
namespace Core
namespace Sessions

open Transition Python
open SessionTables (selects_of_selectReadyConnection)

/-- `NodeEvent`, of the types `CONNECTED` and `DISCONNECTED`; the reason
`explicit_disconnect` is in the metadata or not. -/
inductive Event
  | connected (c : ℕ)
  | disconnected (c : ℕ) (explicit : Bool)
  deriving DecidableEq, Repr

/-- The node, with the events that were emitted and the calls of `disconnect`. -/
structure Observed (F : Type) where
  node : Node F
  events : List Event
  /-- `was_canonical` in `_connection_ended` -/
  wasCanonical : ℕ → Bool
  /-- `was_canonical or removed` in `_connection_ended` -/
  report : ℕ → Bool
  /-- `connection` in a call of `disconnect` -/
  taken : ℕ → Option ℕ
  /-- The connection was the loser of a duplicate selection. -/
  lost : ℕ → Bool

variable {F : Type}

/-- What `_select_ready_connection` returns in the step, and the connection it is called
for. -/
def selection (peerId : Str) (s : Node F) : Label F → Option (ℕ × SessionTables.Selection)
  | .attemptNegotiated a session =>
      (s.tables.selectReadyConnection peerId s.isClosed a session .outbound).map fun r => (a, r.2)
  | .incomingNegotiated c session =>
      (s.tables.selectReadyConnection peerId s.isClosed c session .inbound).map fun r => (c, r.2)
  | _ => none

/-- The connection that the step publishes. -/
def published (peerId : Str) (s : Node F) (l : Label F) : Option ℕ :=
  (selection peerId s l).bind fun r => if r.2.selected = r.1 then some r.1 else none

namespace Observed

/-- Before the first event. -/
def initial : Observed F where
  node := Sessions.initial
  events := []
  wasCanonical := fun _ => false
  report := fun _ => false
  taken := fun _ => none
  lost := fun _ => false

/-- `_select_ready_connection`: the loser, and the event of `_register_session`. -/
def select (s : Observed F) (peerId : Str) (l : Label F) : Observed F :=
  { s with
    events := s.events ++ ((published peerId s.node l).map Event.connected).toList
    lost := fun c => s.lost c ||
      ((selection peerId s.node l).bind fun r => r.2.loser) = some c }

/-- `was_canonical` -/
def beginEnd (s : Observed F) (c : ℕ) : Observed F :=
  match s.node.readers c with
  | .reading session =>
      { s with
        wasCanonical := Function.update s.wasCanonical c
          (s.node.tables.peerConnections session.peerId = some c) }
  | _ => s

/-- `removed`, and the event after `close()`. -/
def resumeEnd (s : Observed F) (c : ℕ) : Observed F :=
  match s.node.readers c with
  | .ending session =>
      { s with
        report := Function.update s.report c
          (s.wasCanonical c || s.node.manager session.peerId = some c) }
  | .closing =>
      if s.report c then
        { s with
          events := s.events ++ [.disconnected c false]
          report := Function.update s.report c false }
      else s
  | _ => s

/-- The event of `disconnect`. -/
def resumeDisconnect (s : Observed F) (d : ℕ) : Observed F :=
  match s.node.disconnects d with
  | .retiring _ =>
      { s with events := s.events ++ ((s.taken d).map (Event.disconnected · true)).toList }
  | _ => s

/-- What is observed of a step, before it is taken. -/
def observe (s : Observed F) (peerId : Str) : Label F → Observed F
  | .attemptNegotiated a session => s.select peerId (.attemptNegotiated a session)
  | .incomingNegotiated c session => s.select peerId (.incomingNegotiated c session)
  | .readerEnds c => s.beginEnd c
  | .resumeReader c => s.resumeEnd c
  | .disconnect p =>
      { s with
        taken := Function.update s.taken s.node.nextDisconnect (s.node.tables.peerConnections p) }
  | .resumeDisconnect d => s.resumeDisconnect d
  | _ => s

end Observed

/-- The runs of a node with its events. -/
def observedSystem (F : Type) (peerId : Str) : System (Observed F) (Label F) where
  init s := s = Observed.initial
  step s l := (step peerId s.node l).map fun t => { s.observe peerId l with node := t }

/-! ## Steps that end no session -/

namespace Node

variable {s t u : Node F} {peerId : Str}

/-- Sessions only go, apart from the one that is published, and no reader gets to its end. -/
structure Bystands (published : Option ℕ) (s t : Node F) : Prop where
  ready : ∀ c, t.tables.ready c ≠ none → s.tables.ready c ≠ none ∨ published = some c
  past : ∀ c, s.Past c → t.Past c
  ended : ∀ c, s.readers c = .ended → t.readers c = .ended
  closing : ∀ c, s.readers c = .closing → t.readers c = .closing
  ending : ∀ c session, t.readers c = .ending session → s.readers c = .ending session
  reading : ∀ c session, t.readers c = .reading session →
    s.readers c = .reading session ∨ s.tables.ready c ≠ none ∨ published = some c

/-- A caller that settles emits nothing. -/
theorem Settles.bystands (h : s.Settles t) : Bystands none s t where
  ready c hc := by
    obtain ⟨r, hr⟩ := Option.ne_none_iff_exists'.1 hc
    rw [h.ready c r hr]
    exact Or.inl (Option.some_ne_none r)
  past _ := h.past.2
  ended _ hc := h.readers ▸ hc
  closing _ hc := h.readers ▸ hc
  ending _ _ hc := h.readers ▸ hc
  reading _ _ hc := Or.inl (h.readers ▸ hc)

/-- Nor does an attempt that leaves the tables alone. -/
theorem AttemptMove.bystands {a : ℕ} {p : Str} (h : s.AttemptMove t a p)
    (htables : t.tables = s.tables) : Bystands none s t where
  ready _ hc := Or.inl (htables ▸ hc)
  past _ := h.past_of_past
  ended _ hc := h.readers ▸ hc
  closing _ hc := h.readers ▸ hc
  ending _ _ hc := h.readers ▸ hc
  reading _ _ hc := Or.inl (h.readers ▸ hc)

/-- The task of the connection `c`, in a place before `_read_connection`. -/
theorem ReaderMove.bystands {c : ℕ} {published : Option ℕ} (h : s.ReaderMove t c)
    (hc : (s.readers c).isIncoming = true)
    (hready : ∀ d, t.tables.ready d ≠ none → s.tables.ready d ≠ none ∨ published = some d)
    (hending : ∀ session, t.readers c ≠ .ending session)
    (hreading : ∀ session, t.readers c = .reading session →
      s.tables.ready c ≠ none ∨ published = some c) : Bystands published s t where
  ready := hready
  past _ := h.past_of_past
  ended d hd := by
    by_cases hdc : d = c
    · rw [hdc] at hd
      rw [hd] at hc
      cases hc
    · rw [h.others d hdc, hd]
  closing d hd := by
    by_cases hdc : d = c
    · rw [hdc] at hd
      rw [hd] at hc
      cases hc
    · rw [h.others d hdc, hd]
  ending d session hd := by
    by_cases hdc : d = c
    · rw [hdc] at hd
      exact absurd hd (hending session)
    · rwa [← h.others d hdc]
  reading d session hd := by
    by_cases hdc : d = c
    · rw [hdc] at hd ⊢
      exact Or.inr (hreading session hd)
    · exact Or.inl (by rwa [← h.others d hdc])

/-- Nor does the start of a reader. -/
theorem bystands_ensureReader {c : ℕ} {session : ProtocolSession F} (hs : s.Sound none)
    (hready : s.tables.ready c ≠ none) : Bystands none s (s.ensureReader c session) := by
  have hset : (s.readers c = .absent ∨ s.readers c = .ended) →
      Bystands none s (s.setReader c (.reading session)) := by
    intro hpc
    have habsent : s.readers c ≠ .ended := fun hended =>
      hready (hs.ended c (by rw [hended]; rfl))
    have hother : ∀ d, s.readers d = .ended ∨ s.readers d = .closing → d ≠ c := by
      rintro d hd rfl
      rcases hpc with hpc | hpc
      · rw [hpc] at hd
        rcases hd with hd | hd <;> cases hd
      · exact habsent hpc
    refine ⟨fun _ => Or.inl, fun d hd => ?_, fun d hd => ?_, fun d hd => ?_,
      fun d session' hd => ?_, fun d session' hd => ?_⟩
    · by_cases hdc : d = c
      · rw [hdc]
        exact Or.inr (by rw [setReader_self]; rfl)
      · rw [Past, setReader_of_ne hdc]
        exact hd
    · rw [setReader_of_ne (hother d (Or.inl hd)), hd]
    · rw [setReader_of_ne (hother d (Or.inr hd)), hd]
    · by_cases hdc : d = c
      · rw [hdc, setReader_self] at hd
        cases hd
      · rwa [setReader_of_ne hdc] at hd
    · by_cases hdc : d = c
      · rw [hdc]
        exact Or.inr (Or.inl hready)
      · rw [setReader_of_ne hdc] at hd
        exact Or.inl hd
  unfold ensureReader
  split
  · exact hset (Or.inl ‹_›)
  · exact hset (Or.inr ‹_›)
  · exact (Settles.refl s).bystands

/-- A change of the callers, the attempts of nobody else and the disconnects. -/
theorem Bystands.of_eq {published : Option ℕ} (h : Bystands published s t)
    (htables : u.tables = t.tables) (hreaders : u.readers = t.readers)
    (hattempts : ∀ c, (t.attempts c).isPast = true → (u.attempts c).isPast = true) :
    Bystands published s u where
  ready c hc := h.ready c (htables ▸ hc)
  past c hc := (h.past c hc).imp (hattempts c) fun hp => hreaders ▸ hp
  ended c hc := hreaders ▸ h.ended c hc
  closing c hc := hreaders ▸ h.closing c hc
  ending c session hc := h.ending c session (hreaders ▸ hc)
  reading c session hc := h.reading c session (hreaders ▸ hc)

/-- Nor does the hand-over of a connection. -/
theorem bystands_handOver (hs : s.Sound none) (k : ℕ) (p : Str) (c : ℕ) :
    Bystands none s (s.handOver k p c) := by
  unfold handOver
  split
  · rename_i session hsession
    have hready : s.tables.ready c ≠ none := by
      intro hnone
      rw [SessionTables.sessionFor, hnone] at hsession
      cases hsession
    exact (bystands_ensureReader hs hready).of_eq rfl rfl fun _ => id
  · have hclose := (s.settles_closePeer true p).bystands
    split <;> rename_i heq <;> rw [heq] at hclose
    · exact hclose.of_eq rfl rfl fun _ => id
    · exact hclose.of_eq rfl rfl fun _ => id

/-- Nor does `connect`. -/
theorem bystands_connect (hs : s.Sound none) {p : Str} {a : ℕ} (ht : s.connect p a = some t) :
    Bystands none s t := by
  have hrefl := (Settles.refl s).bystands
  simp only [connect] at ht
  split at ht
  · cases ht
    exact hrefl.of_eq rfl rfl fun _ => id
  · split at ht
    · cases ht
      exact hrefl.of_eq rfl rfl fun _ => id
    · split at ht
      · cases ht
        have hover := bystands_handOver hs.nextCaller s.nextCaller p ‹ℕ›
        exact ⟨hover.ready, hover.past, hover.ended, hover.closing, hover.ending, hover.reading⟩
      · unfold joinAttempt at ht
        split at ht
        · cases ht
          exact hrefl.of_eq rfl rfl fun _ => id
        · split at ht <;> cases ht
          rename_i habsent _
          refine hrefl.of_eq rfl rfl fun c hc => ?_
          have hca : c ≠ a := by
            rintro rfl
            have habs : s.attempts c = .absent := habsent
            rw [habs] at hc
            cases hc
          simpa [setCaller, setAttempt, forgetClosed, hca] using hc

/-- Nor does a caller that goes on. -/
theorem bystands_resumeCaller (hs : s.Sound none) {k : ℕ}
    (ht : step peerId s (.resumeCaller k) = some t) : Bystands none s t := by
  simp only [step] at ht
  split at ht
  · split at ht <;> cases ht
    · exact bystands_handOver hs k _ _
    · exact (Settles.refl s).bystands.of_eq rfl rfl fun _ => id
  · obtain ⟨⟨u, pc⟩, hu, ht⟩ := Option.map_eq_some_iff.1 ht
    have hclose : Bystands none s u := (settles_resumeClosePeer hu).bystands
    cases pc <;> subst ht <;> exact hclose.of_eq rfl rfl fun _ => id
  · cases ht

/-- Nor does one that is cancelled. -/
theorem bystands_cancelCaller {k : ℕ} (ht : step peerId s (.cancelCaller k) = some t) :
    Bystands none s t := by
  have hrefl := (Settles.refl s).bystands
  simp only [step] at ht
  split at ht <;> cases ht
  · exact hrefl.of_eq rfl rfl fun _ => id
  · exact hrefl.of_eq rfl rfl fun _ => id
  · exact hrefl.of_eq rfl rfl fun _ => id

/-! ## Selections -/

/-- The reader is in `close()`. -/
theorem endIncoming_readers (s : Node F) (c : ℕ) : (s.endIncoming c).readers c = .closing :=
  setReader_self

/-- The task reads only a canonical connection. -/
theorem startReading_readers (s : Node F) (c : ℕ) (session : ProtocolSession F) :
    (s.startReading c session).readers c = .closing ∨
      (s.startReading c session).readers c = .reading session ∧
        s.tables.peerConnections session.peerId = some c := by
  unfold startReading
  split
  · exact Or.inr ⟨setReader_self, ‹_›⟩
  · exact Or.inl (endIncoming_readers _ c)

/-- Where the reader stands after `adopt`. -/
theorem adopt_readers (s : Node F) (c : ℕ) (session : ProtocolSession F) (loser : Option ℕ) :
    (s.adopt c session loser).readers c = .closing ∨
      (∃ r, (s.adopt c session loser).readers c = .retiringPrevious session r) ∨
      (s.adopt c session loser).readers c = .reading session ∧
        s.tables.peerConnections session.peerId = some c := by
  unfold adopt
  split
  · exact Or.inl (endIncoming_readers s c)
  · dsimp only
    split
    · exact Or.inr (Or.inl ⟨_, setReader_self⟩)
    · rcases startReading_readers
        { s with manager := Function.update s.manager session.peerId (some c) } c session with h | h
      · exact Or.inl h
      · exact Or.inr (Or.inr h)

/-- What selection publishes and refuses: a connection that was not negotiated before. -/
structure Chooses (peerId : Str) (s : Node F) (l : Label F) (t : Node F) : Prop where
  bystands : Bystands (published peerId s l) s t
  fresh : ∀ c, published peerId s l = some c → ¬ s.Past c ∧ t.Past c
  loser : ∀ c, ((selection peerId s l).bind fun r => r.2.loser) = some c →
    (s.tables.ready c ≠ none ∨ ¬ s.Past c) ∧ t.tables.ready c = none ∧ t.Past c

/-- A connection that selection does not take on. -/
theorem chooses_none {l : Label F} (hselection : selection peerId s l = none)
    (hbystands : Bystands none s t) : Chooses peerId s l t := by
  have hpublished : published peerId s l = none := by
    rw [published, hselection]
    rfl
  refine ⟨hpublished ▸ hbystands, fun c hc => ?_, fun c hc => ?_⟩
  · rw [hpublished] at hc
    cases hc
  · rw [hselection] at hc
    cases hc

/-- A connection that was not negotiated before is selected, or gives way to a canonical one. -/
theorem chooses_some (h : s.Sound none) {l : Label F} {c : ℕ} {sel : SessionTables.Selection}
    (hselection : selection peerId s l = some (c, sel)) (hfresh : ¬ s.Past c) (hpast : t.Past c)
    (hmono : ∀ d, s.Past d → t.Past d)
    (hbystands : Bystands (if sel.selected = c then some c else none) s t)
    (hloser : ∀ d, sel.loser = some d →
      t.tables.ready d = none ∧ (d = c ∨ ∃ p, s.tables.peerConnections p = some d)) :
    Chooses peerId s l t := by
  have hpublished : published peerId s l = if sel.selected = c then some c else none := by
    rw [published, hselection]
    rfl
  refine ⟨hpublished ▸ hbystands, fun d hd => ?_, fun d hd => ?_⟩
  · rw [hpublished] at hd
    obtain ⟨-, hd⟩ := Option.ite_none_right_eq_some.1 hd
    obtain rfl := Option.some.inj hd
    exact ⟨hfresh, hpast⟩
  · rw [hselection] at hd
    obtain ⟨hnone, rfl | ⟨p, hp⟩⟩ := hloser d hd
    · exact ⟨Or.inr hfresh, hnone, hpast⟩
    · obtain ⟨r, hr, -⟩ := h.tables.ready hp
      exact ⟨Or.inl (by rw [hr]; exact Option.some_ne_none r), hnone,
        hmono d (h.past_of_canonical hp)⟩

/-- An attempt past its handshake chooses among duplicates. -/
theorem chooses_attemptNegotiated (h : s.Sound none) {a : ℕ} {p : Str}
    {session : ProtocolSession F} (ha : s.attempts a = .negotiating p)
    (hcancelled : s.cancelled a = false) :
    Chooses peerId s (.attemptNegotiated a session) (s.attemptNegotiated peerId a p session) := by
  have hfresh := h.not_past_of_negotiating ha
  have hmove : s.AttemptMove (s.attemptNegotiated peerId a p session) a p :=
    attemptMove_negotiated h ha hcancelled
  have hpast : (s.attemptNegotiated peerId a p session).Past a :=
    Or.inl (hmove.past.resolve_right fun hp => by rw [ha] at hp; cases hp.1)
  have hready := h.ready_eq_none hfresh
  have hbystands : ∀ o, (∀ c, (s.attemptNegotiated peerId a p session).tables.ready c ≠ none →
      s.tables.ready c ≠ none ∨ o = some c) →
        Bystands o s (s.attemptNegotiated peerId a p session) := by
    intro o ho
    refine ⟨ho, fun _ => hmove.past_of_past, fun c hc => ?_, fun c hc => ?_, fun c session' hc => ?_,
      fun c session' hc => Or.inl ?_⟩
    · exact hmove.readers ▸ hc
    · exact hmove.readers ▸ hc
    · exact hmove.readers ▸ hc
    · exact hmove.readers ▸ hc
  have hown : Bystands (some a) s (s.attemptNegotiated peerId a p session) := by
    refine hbystands (some a) fun c hc => ?_
    obtain ⟨r, hr⟩ := Option.ne_none_iff_exists'.1 hc
    rcases hmove.ready c r hr with hold | ⟨rfl, -⟩
    · rw [hold]
      exact Or.inl (Option.some_ne_none r)
    · exact Or.inr rfl
  cases hsel : s.tables.selectReadyConnection peerId s.isClosed a session .outbound with
  | none =>
      have hselection : selection peerId s (.attemptNegotiated a session) = none := by
        rw [selection, hsel]
        rfl
      refine chooses_none hselection (hbystands none fun c hc => Or.inl ?_)
      rwa [attemptNegotiated, hsel, tables_failAttempt] at hc
  | some r =>
      obtain ⟨u, sel⟩ := r
      have hselection : selection peerId s (.attemptNegotiated a session) = some (a, sel) := by
        rw [selection, hsel]
        rfl
      refine chooses_some h hselection hfresh hpast (fun _ => hmove.past_of_past) ?_ fun d hd => ?_
      · split
        · exact hown
        · next hne =>
            cases selects_of_selectReadyConnection h.tables hready hsel with
            | first => exact absurd rfl hne
            | replaced => exact absurd rfl hne
            | kept =>
                have htables : (s.attemptNegotiated peerId a p session).tables = s.tables := by
                  rw [attemptNegotiated, hsel]
                  simp only [if_neg hne]
                  split
                  · exact tables_install _ a p _
                  · rfl
                exact hbystands none fun c hc => Or.inl (htables ▸ hc)
      · cases selects_of_selectReadyConnection h.tables hready hsel with
        | first => cases hd
        | replaced he =>
            obtain rfl := Option.some.inj hd
            refine ⟨?_, Or.inr ⟨_, he⟩⟩
            rw [attemptNegotiated, hsel]
            simp [beginRetire, setAttempt]
        | kept he hopen hne =>
            obtain rfl := Option.some.inj hd
            refine ⟨?_, Or.inl rfl⟩
            rw [attemptNegotiated, hsel]
            simp only [if_neg hne]
            split
            · rw [tables_install]
              exact hready
            · exact hready

/-- So does an incoming connection. -/
theorem chooses_incomingNegotiated (h : s.Sound none) {c : ℕ} {session : ProtocolSession F}
    (hc : s.readers c = .negotiating) :
    Chooses peerId s (.incomingNegotiated c session) (s.incomingNegotiated peerId c session) := by
  have hincoming : (s.readers c).isIncoming = true := by
    rw [hc]
    rfl
  have hfresh : ¬ s.Past c := by
    rw [Past, hc, h.incoming c hincoming]
    simp [AttemptPc.isPast, ReaderPc.isPast]
  have hmove : s.ReaderMove (s.incomingNegotiated peerId c session) c :=
    readerMove_negotiated h hc
  have hpast : (s.incomingNegotiated peerId c session).Past c :=
    Or.inr (hmove.past.resolve_right fun hp => by rw [hc] at hp; cases hp.1)
  have hready := h.ready_eq_none hfresh
  have hend : ∀ {v : Node F}, v.tables = s.tables →
      s.incomingNegotiated peerId c session = v.endIncoming c →
        Bystands none s (s.incomingNegotiated peerId c session) := by
    intro v hv heq
    refine hmove.bystands hincoming (fun d hd => Or.inl ?_) (fun session' hd => ?_)
      fun session' hd => ?_
    · intro hnone
      refine hd ?_
      rw [heq]
      have hsettles := ((v.quiet_beginRetire c).trans (quiet_closeConnection _ c)).toSettles
      exact hsettles.ready_eq_none (hv ▸ hnone)
    · rw [heq, endIncoming_readers] at hd
      cases hd
    · rw [heq, endIncoming_readers] at hd
      cases hd
  have hown : (∀ session', (s.incomingNegotiated peerId c session).readers c ≠ .ending session') →
      Bystands (some c) s (s.incomingNegotiated peerId c session) := by
    intro hending
    refine hmove.bystands hincoming (fun d hd => ?_) hending fun _ _ => Or.inr rfl
    obtain ⟨r, hr⟩ := Option.ne_none_iff_exists'.1 hd
    rcases hmove.ready d r hr with hold | ⟨rfl, -⟩
    · rw [hold]
      exact Or.inl (Option.some_ne_none r)
    · exact Or.inr rfl
  cases hsel : s.tables.selectReadyConnection peerId s.isClosed c session .inbound with
  | none =>
      have hselection : selection peerId s (.incomingNegotiated c session) = none := by
        rw [selection, hsel]
        rfl
      exact chooses_none hselection (hend rfl (by rw [incomingNegotiated, hsel]))
  | some r =>
      obtain ⟨u, sel⟩ := r
      have hselection : selection peerId s (.incomingNegotiated c session) = some (c, sel) := by
        rw [selection, hsel]
        rfl
      refine chooses_some h hselection hfresh hpast (fun _ => hmove.past_of_past) ?_ fun d hd => ?_
      · cases selects_of_selectReadyConnection h.tables hready hsel with
        | first =>
            rw [if_pos rfl]
            refine hown fun session' hd => ?_
            rw [incomingNegotiated, hsel] at hd
            simp only [if_true] at hd
            rcases adopt_readers { s with tables := u } c session none with hr | ⟨r, hr⟩ | ⟨hr, -⟩
            · cases hr.symm.trans hd
            · cases hr.symm.trans hd
            · cases hr.symm.trans hd
        | replaced =>
            rw [if_pos rfl]
            refine hown fun session' hd => ?_
            rw [incomingNegotiated, hsel] at hd
            simp only [if_true, setReader_self] at hd
            cases hd
        | kept he hopen hne =>
            rw [if_neg hne]
            refine hend rfl ?_
            rw [incomingNegotiated, hsel]
            simp only [if_neg hne]
      · cases selects_of_selectReadyConnection h.tables hready hsel with
        | first => cases hd
        | replaced he =>
            obtain rfl := Option.some.inj hd
            refine ⟨?_, Or.inr ⟨_, he⟩⟩
            rw [incomingNegotiated, hsel]
            simp [beginRetire, setReader]
        | kept he hopen hne =>
            obtain rfl := Option.some.inj hd
            refine ⟨?_, Or.inl rfl⟩
            rw [incomingNegotiated, hsel]
            simp [if_neg hne, endIncoming, closeConnection, setReader]

/-- The task of a connection before `_read_connection`. -/
theorem bystands_resumeReader (h : s.Sound none) {c : ℕ} (hc : (s.readers c).isIncoming = true)
    (ht : step peerId s (.resumeReader c) = some t) : Bystands none s t := by
  have hmove := readerMove_resume h ht
  have hready : ∀ d, t.tables.ready d ≠ none → s.tables.ready d ≠ none ∨ none = some d := by
    intro d hd
    obtain ⟨r, hr⟩ := Option.ne_none_iff_exists'.1 hd
    rcases hmove.ready d r hr with hold | ⟨-, hneg, -⟩
    · rw [hold]
      exact Or.inl (Option.some_ne_none r)
    · simp only [step, hneg] at ht
      cases ht
  have hpc : ∀ session', (t.readers c = .ending session' → False) ∧
      (t.readers c = .reading session' → s.tables.ready c ≠ none) := by
    have hcanonical : ∀ {q : Str}, s.tables.peerConnections q = some c →
        s.tables.ready c ≠ none := by
      intro q hq
      obtain ⟨r, hr, -⟩ := h.tables.ready hq
      rw [hr]
      exact Option.some_ne_none r
    intro session'
    simp only [step] at ht
    split at ht <;> cases ht <;> rename_i hpc
    · rw [setReader_self]
      exact ⟨by rintro ⟨⟩, by rintro ⟨⟩⟩
    · rename_i session loser
      rcases adopt_readers s c session (some loser) with hr | ⟨r, hr⟩ | ⟨hr, hq⟩
      · rw [hr]
        exact ⟨by rintro ⟨⟩, by rintro ⟨⟩⟩
      · rw [hr]
        exact ⟨by rintro ⟨⟩, by rintro ⟨⟩⟩
      · rw [hr]
        exact ⟨by rintro ⟨⟩, fun _ => hcanonical hq⟩
    · rw [setReader_self]
      exact ⟨by rintro ⟨⟩, by rintro ⟨⟩⟩
    · rename_i session
      rcases startReading_readers s c session with hr | ⟨hr, hq⟩
      · rw [hr]
        exact ⟨by rintro ⟨⟩, by rintro ⟨⟩⟩
      · rw [hr]
        exact ⟨by rintro ⟨⟩, fun _ => hcanonical hq⟩
    · rw [hpc] at hc
      cases hc
    · rw [hpc] at hc
      cases hc
  exact hmove.bystands hc hready (fun session' hd => (hpc session').1 hd)
    fun session' hd => Or.inl ((hpc session').2 hd)

end Node

/-! ## The steps of the other labels -/

variable {peerId : Str} {s t : Node F}

/-- The labels that observe nothing. -/
def Label.isSilent : Label F → Bool
  | .attemptNegotiated _ _ | .incomingNegotiated _ _ | .resumeReader _ | .readerEnds _
  | .disconnect _ | .resumeDisconnect _ => false
  | _ => true

/-- **A silent step emits nothing**, and ends no session. -/
theorem bystands_step {l : Label F} (hs : s.Sound none) (hl : l.isSilent = true)
    (ht : step peerId s l = some t) : Node.Bystands none s t := by
  cases l with
  | accept c =>
      simp only [step] at ht
      split at ht <;> cases ht
      rename_i ha hr
      have hother : ∀ d, s.readers d ≠ .absent → d ≠ c := by
        rintro d hd rfl
        exact hd hr
      refine ⟨fun _ => Or.inl, fun d hd => ?_, fun d hd => ?_, fun d hd => ?_,
        fun d session hd => ?_, fun d session hd => Or.inl ?_⟩
      · have hdc : d ≠ c := by
          rintro rfl
          rw [Node.Past, ha, hr] at hd
          simp [AttemptPc.isPast, ReaderPc.isPast] at hd
        rw [Node.Past, Node.setReader_of_ne hdc]
        exact hd
      · rw [Node.setReader_of_ne (hother d (by rw [hd]; rintro ⟨⟩)), hd]
      · rw [Node.setReader_of_ne (hother d (by rw [hd]; rintro ⟨⟩)), hd]
      · by_cases hdc : d = c
        · rw [hdc, Node.setReader_self] at hd
          cases hd
        · rwa [Node.setReader_of_ne hdc] at hd
      · by_cases hdc : d = c
        · rw [hdc, Node.setReader_self] at hd
          cases hd
        · rwa [Node.setReader_of_ne hdc] at hd
  | connect p a => exact Node.bystands_connect hs ht
  | opened a =>
      simp only [step] at ht
      split at ht
      · rename_i p ha
        split at ht <;> cases ht
        exact (Node.attemptMove_opened ha).bystands rfl
      · cases ht
  | attemptFails a =>
      obtain ⟨p, -, hmove⟩ := Node.attemptMove_fails ht
      refine hmove.bystands ?_
      simp only [step] at ht
      split at ht
      · cases ht
      · split at ht <;> cases ht
        · rfl
        · exact s.tables_failAttempt a _
  | attemptCancelled a =>
      obtain ⟨p, -, hmove⟩ := Node.attemptMove_cancelled ht
      refine hmove.bystands ?_
      simp only [step] at ht
      split at ht
      · split at ht <;> cases ht <;> first
          | rfl
          | exact s.tables_failAttempt a _
      · cases ht
  | resumeAttempt a =>
      obtain ⟨p, -, hmove⟩ := Node.attemptMove_resume hs ht
      exact hmove.bystands (Node.tables_resumeAttempt ht)
  | incomingFails c =>
      simp only [step] at ht
      split at ht <;> cases ht
      rename_i hc
      have hmove : s.ReaderMove (s.endIncoming c) c :=
        Node.readerMove_endIncoming (.refl s) (by rw [hc]; rintro ⟨⟩)
      refine hmove.bystands (by rw [hc]; rfl) (fun d hd => ?_) (fun session hd => ?_)
        fun session hd => ?_
      · obtain ⟨r, hr⟩ := Option.ne_none_iff_exists'.1 hd
        rcases hmove.ready d r hr with hold | ⟨rfl, -, hactive⟩
        · rw [hold]
          exact Or.inl (Option.some_ne_none r)
        · have hover := hmove.ended (by rw [Node.endIncoming_readers]; rfl)
          exact absurd hover hd
      · rw [Node.endIncoming_readers] at hd
        cases hd
      · rw [Node.endIncoming_readers] at hd
        cases hd
  | resumeCaller k => exact Node.bystands_resumeCaller hs ht
  | cancelCaller k => exact Node.bystands_cancelCaller ht
  | connectionState p =>
      cases ht
      exact (s.quiet_forgetClosed p).toSettles.bystands
  | close c =>
      cases ht
      exact (s.quiet_closeConnection c).toSettles.bystands
  | _ => cases hl

/-! ## The calls of `disconnect` -/

namespace Node

/-- The calls of `disconnect` stay where they are. -/
def SameCalls (s t : Node F) : Prop :=
  t.disconnects = s.disconnects ∧ t.nextDisconnect = s.nextDisconnect

/-- One after the other. -/
theorem SameCalls.trans {u : Node F} (h : s.SameCalls t) (h' : t.SameCalls u) : s.SameCalls u :=
  ⟨h'.1.trans h.1, h'.2.trans h.2⟩

/-- An attempt that fails calls no `disconnect`. -/
theorem sameCalls_failAttempt (s : Node F) (a : ℕ) (p : Str) : s.SameCalls (s.failAttempt a p) := by
  unfold failAttempt
  split <;> exact ⟨rfl, rfl⟩

/-- Nor does one that installs. -/
theorem sameCalls_install (s : Node F) (a : ℕ) (p : Str) (selected : ℕ) :
    s.SameCalls (s.install a p selected) := by
  unfold install
  split
  · exact s.sameCalls_failAttempt a p
  · dsimp only
    split <;> exact ⟨rfl, rfl⟩

/-- Nor does one past its handshake. -/
theorem sameCalls_attemptNegotiated (s : Node F) (peerId : Str) (a : ℕ) (p : Str)
    (session : ProtocolSession F) : s.SameCalls (s.attemptNegotiated peerId a p session) := by
  unfold attemptNegotiated
  split
  · exact s.sameCalls_failAttempt a p
  · rename_i tables selection _
    have hinstall := fun c => sameCalls_install { s with tables } a p c
    dsimp only
    split
    · split
      · exact ⟨rfl, rfl⟩
      · exact hinstall a
    · split
      · exact hinstall _
      · exact ⟨rfl, rfl⟩

/-- Nor does `connection_lost`. -/
theorem sameCalls_connectionLost (s : Node F) (p : Str) (c : ℕ) :
    s.SameCalls (s.connectionLost p c) := by
  unfold connectionLost
  split <;> exact ⟨rfl, rfl⟩

/-- Nor does the retirement of a connection. -/
theorem sameCalls_endRetire (s : Node F) (r : Retire) : s.SameCalls (s.endRetire r) := by
  unfold endRetire
  split
  · exact s.sameCalls_connectionLost _ _
  · exact ⟨rfl, rfl⟩

/-- Nor does a reader that starts. -/
theorem sameCalls_startReading (s : Node F) (c : ℕ) (session : ProtocolSession F) :
    s.SameCalls (s.startReading c session) := by
  unfold startReading
  split
  · exact ⟨rfl, rfl⟩
  · exact s.sameCalls_connectionLost _ _

/-- Nor does `adopt`. -/
theorem sameCalls_adopt (s : Node F) (c : ℕ) (session : ProtocolSession F) (loser : Option ℕ) :
    s.SameCalls (s.adopt c session loser) := by
  unfold adopt
  split
  · exact ⟨rfl, rfl⟩
  · dsimp only
    split
    · exact ⟨rfl, rfl⟩
    · exact sameCalls_startReading _ c session

/-- Nor does an incoming connection past its handshake. -/
theorem sameCalls_incomingNegotiated (s : Node F) (peerId : Str) (c : ℕ)
    (session : ProtocolSession F) : s.SameCalls (s.incomingNegotiated peerId c session) := by
  unfold incomingNegotiated
  split
  · exact ⟨rfl, rfl⟩
  · dsimp only
    split
    · split
      · exact ⟨rfl, rfl⟩
      · exact sameCalls_adopt _ c session none
    · exact ⟨rfl, rfl⟩

/-- Nor does a closing call that has gathered its attempt. -/
theorem sameCalls_closeGathered (s : Node F) (setup : Bool) (p : Str) (connection : Option ℕ) :
    s.SameCalls (s.closeGathered setup p connection).1 := by
  unfold closeGathered closeFor
  split
  · split <;> exact ⟨rfl, rfl⟩
  · exact ⟨rfl, rfl⟩

/-- Nor does one that begins. -/
theorem sameCalls_closePeer (s : Node F) (setup : Bool) (p : Str) :
    s.SameCalls (s.closePeer setup p).1 := by
  unfold closePeer
  dsimp only
  split
  · exact ⟨rfl, rfl⟩
  · exact sameCalls_closeGathered _ setup p _

/-- Nor does one that goes on. -/
theorem sameCalls_resumeClosePeer {setup : Bool} {closer : CloserPc} {x : Node F × Option CloserPc}
    (h : s.resumeClosePeer setup closer = some x) : s.SameCalls x.1 := by
  unfold resumeClosePeer at h
  split at h
  · split at h <;> cases h
    exact s.sameCalls_closeGathered setup _ _
  · split at h <;> cases h
    exact ⟨rfl, rfl⟩
  · cases h
    exact ⟨rfl, rfl⟩

/-- Nor does the hand-over of a connection. -/
theorem sameCalls_handOver (s : Node F) (k : ℕ) (p : Str) (c : ℕ) :
    s.SameCalls (s.handOver k p c) := by
  unfold handOver ensureReader
  split
  · split <;> exact ⟨rfl, rfl⟩
  · have hclose := s.sameCalls_closePeer true p
    split <;> rename_i heq <;> rw [heq] at hclose
    · exact hclose.trans ⟨rfl, rfl⟩
    · exact hclose.trans ⟨rfl, rfl⟩

/-- Nor does `connect`. -/
theorem sameCalls_connect {p : Str} {a : ℕ} (ht : s.connect p a = some t) : s.SameCalls t := by
  simp only [connect] at ht
  split at ht
  · cases ht
    exact ⟨rfl, rfl⟩
  · split at ht
    · cases ht
      exact ⟨rfl, rfl⟩
    · split at ht
      · cases ht
        exact sameCalls_handOver { s with nextCaller := s.nextCaller + 1 } _ p _
      · unfold joinAttempt at ht
        split at ht
        · cases ht
          exact ⟨rfl, rfl⟩
        · split at ht <;> cases ht
          exact ⟨rfl, rfl⟩

end Node

/-- The labels of `disconnect`. -/
def Label.isDisconnect : Label F → Bool
  | .disconnect _ | .resumeDisconnect _ => true
  | _ => false

/-- No step but those of `disconnect` touches its calls. -/
theorem sameCalls_step {l : Label F} (hl : l.isDisconnect = false)
    (ht : step peerId s l = some t) : s.SameCalls t := by
  cases l with
  | accept c =>
      simp only [step] at ht
      split at ht <;> cases ht
      exact ⟨rfl, rfl⟩
  | connect p a => exact Node.sameCalls_connect ht
  | opened a =>
      simp only [step] at ht
      split at ht
      · split at ht <;> cases ht
        exact ⟨rfl, rfl⟩
      · cases ht
  | attemptFails a =>
      simp only [step] at ht
      split at ht
      · cases ht
      · split at ht <;> cases ht
        · exact ⟨rfl, rfl⟩
        · exact s.sameCalls_failAttempt a _
  | attemptNegotiated a session =>
      simp only [step] at ht
      split at ht
      · split at ht <;> cases ht
        exact s.sameCalls_attemptNegotiated peerId a _ session
      · cases ht
  | attemptCancelled a =>
      simp only [step] at ht
      split at ht
      · split at ht <;> cases ht <;> first
          | exact ⟨rfl, rfl⟩
          | exact s.sameCalls_failAttempt a _
      · cases ht
  | resumeAttempt a =>
      simp only [step] at ht
      split at ht
      · cases ht
      · split at ht <;> cases ht
        · exact s.sameCalls_endRetire _
        · exact s.sameCalls_install a _ _
        · exact s.sameCalls_install a _ _
        · exact ⟨rfl, rfl⟩
        · exact ⟨rfl, rfl⟩
  | incomingFails c =>
      simp only [step] at ht
      split at ht <;> cases ht
      exact ⟨rfl, rfl⟩
  | incomingNegotiated c session =>
      simp only [step] at ht
      split at ht <;> cases ht
      exact s.sameCalls_incomingNegotiated peerId c session
  | resumeReader c =>
      simp only [step] at ht
      split at ht <;> cases ht
      · exact s.sameCalls_endRetire _
      · exact s.sameCalls_adopt c _ _
      · exact s.sameCalls_endRetire _
      · exact s.sameCalls_startReading c _
      · exact s.sameCalls_connectionLost _ c
      · exact ⟨rfl, rfl⟩
  | readerEnds c =>
      simp only [step] at ht
      split at ht <;> cases ht
      exact ⟨rfl, rfl⟩
  | resumeCaller k =>
      simp only [step] at ht
      split at ht
      · split at ht <;> cases ht
        · exact s.sameCalls_handOver k _ _
        · exact ⟨rfl, rfl⟩
      · obtain ⟨⟨u, pc⟩, hu, ht⟩ := Option.map_eq_some_iff.1 ht
        have hclose : s.SameCalls u := Node.sameCalls_resumeClosePeer hu
        cases pc <;> subst ht <;> exact hclose.trans ⟨rfl, rfl⟩
      · cases ht
  | cancelCaller k =>
      simp only [step] at ht
      split at ht <;> cases ht <;> exact ⟨rfl, rfl⟩
  | connectionState p =>
      cases ht
      exact ⟨rfl, rfl⟩
  | close c =>
      cases ht
      exact ⟨rfl, rfl⟩
  | disconnect p => cases hl
  | resumeDisconnect d => cases hl

end Sessions
end Core
end Paqto
