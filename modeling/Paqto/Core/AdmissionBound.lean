/-
# The limit holds, and what it does not count

A connection is inserted only below the limit, so the sets stay below it, and one that is
refused stays out of them.  What may be removed is a connection that has no session, or
none any more (`Inv.retired`); so the sessions stay counted, with two exceptions: an attempt
that fails while it retires the connection it has replaced takes its own connection out of
the set and leaves its session in the tables; and an attempt whose handshake ends after
`stop()` has emptied the sets publishes a session that is in none, and the next `start()`
finds it.
-/

import Paqto.Core.Admission

namespace Paqto
namespace Core
namespace Admission

open Transition Python
open SessionTables (selects_of_selectReadyConnection ready_of_deactivateSession)

variable {F : Type} {cfg : Config} {s t : Node F} {c : ℕ}

/-- The connection is not the one of a session any more. -/
def Node.Retired (s : Node F) (c : ℕ) : Prop :=
  s.tables.ready c = none ∧ (s.stages c).isPast = true

/-- `CountsSessions` by the sessions. -/
def Node.Counts (s : Node F) : Prop :=
  ∀ c, s.tables.ready c ≠ none → s.isClosed c = false → c ∈ s.incoming ∪ s.outgoing

/-- **What holds in every run**, of the two sets, the stages of the connections and the session
tables. -/
structure Inv (cfg : Config) (s : Node F) : Prop where
  wf : s.tables.WellFormed
  bound : s.activeConnectionCount ≤ cfg.maxConnections
  idle : s.running = true → s.stop = .idle
  past : ∀ c, s.tables.ready c ≠ none → (s.stages c).isPast = true
  admitted : ∀ c, c ∈ s.incoming ∪ s.outgoing → s.stages c ≠ .absent ∧ s.stages c ≠ .refused
  attempt : ∀ c, (s.stages c).isAttempt = true → c ∉ s.incoming
  incoming : ∀ c, s.stages c = .negotiating .incoming → s.cancelled c = false → c ∈ s.incoming
  outgoing : ∀ c p, s.stop ≠ .closing → s.stages c = .negotiating (.outgoing p) →
    s.cancelled c = false → c ∈ s.outgoing
  retired : ∀ c d, (s.stages d).retires = some c → s.Retired c
  disconnected : ∀ k c, s.disconnects k = some c → s.Retired c
  refused : ∀ c, s.stages c = .refused → (s.closeCalled c = true ∨ s.isClosed c = true) ∧
    s.negotiated c = false ∧ s.counted c = false
  absent : ∀ c, s.stages c = .absent → s.negotiated c = false ∧ s.counted c = false

/-- The first part of the law: the bound, and what becomes of a refused connection. -/
theorem Inv.limited (h : Inv cfg s) : s.Limited cfg where
  bound := h.bound
  closed c hc := (h.refused c hc).1
  unnegotiated c hc := (h.refused c hc).2.1
  uncounted c hc := (h.refused c hc).2.2

/-- The canonical connections are those of the sessions. -/
theorem Inv.countsSessions_iff (h : Inv cfg s) : s.CountsSessions ↔ s.Counts := by
  constructor
  · intro hcounts c hc hopen
    obtain ⟨r, hr⟩ := Option.ne_none_iff_exists'.1 hc
    exact hcounts _ c (h.wf.canonical hr) hopen
  · intro hcounts p c hp hopen
    obtain ⟨r, hr, -⟩ := h.wf.ready hp
    exact hcounts c (by simp [hr]) hopen

/-- Nothing is admitted yet. -/
theorem inv_initial : Inv cfg (initial : Node F) where
  wf := .empty
  bound := Nat.zero_le _
  idle h := by cases h
  past _ h := absurd rfl h
  admitted _ h := by simp [initial] at h
  attempt _ h := by cases h
  incoming _ h := by cases h
  outgoing _ _ _ h := by cases h
  retired _ _ h := by cases h
  disconnected _ _ h := by cases h
  refused _ h := by cases h
  absent _ _ := ⟨rfl, rfl⟩

/-! ## The moves a step is made of -/

/-- A session is taken down. -/
theorem Inv.deactivate (h : Inv cfg s) (c : ℕ) : Inv cfg (s.deactivate c) := by
  have hready : ∀ d, (s.tables.deactivateSession c).ready d ≠ none → s.tables.ready d ≠ none := by
    intro d hd
    obtain ⟨r, hr⟩ := Option.ne_none_iff_exists'.1 hd
    simp [ready_of_deactivateSession hr]
  have hnone : ∀ d, s.Retired d → (s.deactivate c).Retired d := by
    intro d hd
    refine ⟨?_, hd.2⟩
    by_contra hne
    exact hready d hne hd.1
  exact { h with
    wf := h.wf.deactivateSession c
    past := fun d hd => h.past d (hready d hd)
    retired := fun d e he => hnone d (h.retired d e he)
    disconnected := fun k d hd => hnone d (h.disconnected k d hd) }

/-- The sessions that are left stay counted. -/
theorem Node.Counts.deactivate (h : s.Counts) (c : ℕ) : (s.deactivate c).Counts := by
  intro d hd hopen
  obtain ⟨r, hr⟩ := Option.ne_none_iff_exists'.1 hd
  exact h d (by simp [ready_of_deactivateSession hr]) hopen

/-- What is removed is past its handshake. -/
theorem Inv.discardIncoming (h : Inv cfg s) (hc : (s.stages c).isPast = true) :
    Inv cfg (s.discardIncoming c) := by
  have hsub : s.incoming.erase c ∪ s.outgoing ⊆ s.incoming ∪ s.outgoing :=
    Finset.union_subset_union (Finset.erase_subset c s.incoming) subset_rfl
  refine { h with
    bound := (Finset.card_le_card hsub).trans h.bound
    admitted := fun d hd => h.admitted d (hsub hd)
    attempt := fun d hd hmem => h.attempt d hd (Finset.mem_of_mem_erase hmem)
    incoming := fun d hd hcancelled => ?_ }
  change s.stages d = _ at hd
  refine Finset.mem_erase.2 ⟨fun hdc => ?_, h.incoming d hd hcancelled⟩
  rw [← hdc, hd] at hc
  cases hc

/-- The same for an outgoing connection. -/
theorem Inv.discardOutgoing (h : Inv cfg s) (hc : (s.stages c).isPast = true) :
    Inv cfg (s.discardOutgoing c) := by
  have hsub : s.incoming ∪ s.outgoing.erase c ⊆ s.incoming ∪ s.outgoing :=
    Finset.union_subset_union subset_rfl (Finset.erase_subset c s.outgoing)
  refine { h with
    bound := (Finset.card_le_card hsub).trans h.bound
    admitted := fun d hd => h.admitted d (hsub hd)
    outgoing := fun d p hstop hd hcancelled => ?_ }
  change s.stages d = _ at hd
  refine Finset.mem_erase.2 ⟨fun hdc => ?_, h.outgoing d p hstop hd hcancelled⟩
  rw [← hdc, hd] at hc
  cases hc

/-- The connection leaves both sets. -/
theorem Inv.discard (h : Inv cfg s) (hc : (s.stages c).isPast = true) : Inv cfg (s.discard c) :=
  (h.discardIncoming hc).discardOutgoing hc

/-- A connection without a session, or one that is closed, need not be counted. -/
theorem Node.Counts.of_erase (h : s.Counts) (hc : s.tables.ready c = none ∨ s.isClosed c = true)
    (htables : t.tables = s.tables) (hclosed : t.isClosed = s.isClosed)
    (hsets : ∀ d, d ≠ c → d ∈ s.incoming ∪ s.outgoing → d ∈ t.incoming ∪ t.outgoing) :
    t.Counts := by
  intro d hd hopen
  rw [htables] at hd
  rw [hclosed] at hopen
  refine hsets d (fun hdc => ?_) (h d hd hopen)
  subst hdc
  rcases hc with hnone | hisClosed
  · exact hd hnone
  · simp [hisClosed] at hopen

/-- The other connections stay in the sets, and this one need not be in one. -/
theorem Node.Counts.discardIncoming (h : s.Counts)
    (hc : s.tables.ready c = none ∨ s.isClosed c = true) : (s.discardIncoming c).Counts := by
  refine h.of_erase hc rfl rfl fun d hd hmem => ?_
  simp only [Node.discardIncoming, Finset.mem_union, Finset.mem_erase] at hmem ⊢
  tauto

/-- The same for an outgoing connection. -/
theorem Node.Counts.discardOutgoing (h : s.Counts)
    (hc : s.tables.ready c = none ∨ s.isClosed c = true) : (s.discardOutgoing c).Counts := by
  refine h.of_erase hc rfl rfl fun d hd hmem => ?_
  simp only [Node.discardOutgoing, Finset.mem_union, Finset.mem_erase] at hmem ⊢
  tauto

/-- A connection without a session leaves both sets. -/
theorem Node.Counts.discard (h : s.Counts) (hc : s.tables.ready c = none) : (s.discard c).Counts :=
  (h.discardIncoming (Or.inl hc)).discardOutgoing (Or.inl hc)

/-- Some connections close. -/
theorem Inv.of_closes (h : Inv cfg s) {closeCalled isClosed : ℕ → Bool}
    (hcalled : ∀ d, s.closeCalled d = true → closeCalled d = true)
    (hclosed : ∀ d, s.isClosed d = true → isClosed d = true) :
    Inv cfg { s with closeCalled, isClosed } :=
  { h with
    refused := fun d hd =>
      ⟨(h.refused d hd).1.imp (hcalled d) (hclosed d), (h.refused d hd).2⟩ }

/-- A closed connection need not be counted. -/
theorem Node.Counts.of_closes (h : s.Counts) {closeCalled isClosed : ℕ → Bool}
    (hclosed : ∀ d, s.isClosed d = true → isClosed d = true) :
    ({ s with closeCalled, isClosed } : Node F).Counts := by
  intro d hd hopen
  refine h d hd ?_
  cases hs : s.isClosed d with
  | false => rfl
  | true => exact absurd (hclosed d hs) (by simpa using hopen)

/-- A closed connection stays closed. -/
theorem isClosed_mono (s : Node F) (c : ℕ) {b : Bool} (hb : s.isClosed c = true → b = true) (d : ℕ)
    (hd : s.isClosed d = true) : Function.update s.isClosed c b d = true := by
  by_cases hdc : d = c
  · subst hdc
    rw [Function.update_self]
    exact hb hd
  · rwa [Function.update_of_ne hdc]

/-- `close()` of a connection. -/
theorem Inv.closeConnection (h : Inv cfg s) (c : ℕ) : Inv cfg (s.closeConnection cfg c) := by
  refine h.of_closes (fun d hd => ?_) (isClosed_mono s c fun hc => by simp [hc])
  by_cases hdc : d = c
  · rw [hdc, Function.update_self]
  · rwa [Function.update_of_ne hdc]

/-- `close()` uncounts nothing. -/
theorem Node.Counts.closeConnection (h : s.Counts) (c : ℕ) : (s.closeConnection cfg c).Counts :=
  h.of_closes (isClosed_mono s c fun hc => by simp [hc])

/-- The `finally` of `_open_connection`. -/
theorem Inv.finallyOpen (h : Inv cfg s) (c : ℕ) : Inv cfg (s.finallyOpen cfg c) := by
  unfold Node.finallyOpen
  split
  · exact h
  · exact h.closeConnection c

/-- It uncounts nothing. -/
theorem Node.Counts.finallyOpen (h : s.Counts) (c : ℕ) : (s.finallyOpen cfg c).Counts := by
  unfold Node.finallyOpen
  split
  · exact h
  · exact h.closeConnection c

/-- A routine goes on after the handshake. -/
theorem Inv.setStage (h : Inv cfg s) {stage : Stage F} (hpast : stage.isPast = true)
    (hattempt : stage.isAttempt = true → c ∉ s.incoming)
    (hretires : ∀ d, stage.retires = some d → s.Retired d) : Inv cfg (s.setStage c stage) := by
  have hstages : ∀ d, (s.setStage c stage).stages d = if d = c then stage else s.stages d := by
    intro d
    simp only [Node.setStage, Function.update_apply]
  have hkeep : ∀ d, (s.stages d).isPast = true → ((s.setStage c stage).stages d).isPast = true := by
    intro d hd
    rw [hstages]
    split
    · exact hpast
    · exact hd
  have hretired : ∀ d, s.Retired d → (s.setStage c stage).Retired d :=
    fun d hd => ⟨hd.1, hkeep d hd.2⟩
  refine { h with
    past := fun d hd => hkeep d (h.past d hd)
    admitted := fun d hd => ?_
    attempt := fun d hd => ?_
    incoming := fun d hd => ?_
    outgoing := fun d p hstop hd => ?_
    retired := fun d e he => ?_
    disconnected := fun k d hd => hretired d (h.disconnected k d hd)
    refused := fun d hd => ?_
    absent := fun d hd => ?_ }
  · rw [hstages]
    split
    · exact ⟨fun he => by simp [he, Stage.isPast] at hpast,
        fun he => by simp [he, Stage.isPast] at hpast⟩
    · exact h.admitted d hd
  · rw [hstages] at hd
    split at hd
    · next hdc => exact hdc ▸ hattempt hd
    · exact h.attempt d hd
  · rw [hstages] at hd
    split at hd
    · simp [hd, Stage.isPast] at hpast
    · exact h.incoming d hd
  · rw [hstages] at hd
    split at hd
    · simp [hd, Stage.isPast] at hpast
    · exact h.outgoing d p hstop hd
  · rw [hstages] at he
    split at he
    · exact hretired d (hretires d he)
    · exact hretired d (h.retired d e he)
  · rw [hstages] at hd
    split at hd
    · simp [hd, Stage.isPast] at hpast
    · exact h.refused d hd
  · rw [hstages] at hd
    split at hd
    · simp [hd, Stage.isPast] at hpast
    · exact h.absent d hd

/-- The routine of a connection is over. -/
theorem Inv.setEnded (h : Inv cfg s) : Inv cfg (s.setStage c .ended) :=
  h.setStage rfl (fun he => by cases he) (fun _ he => by cases he)

/-- Where a routine stands does not matter to the sets. -/
theorem Node.Counts.setStage (h : s.Counts) (c : ℕ) (stage : Stage F) :
    (s.setStage c stage).Counts := h

/-- A routine that was moved past the handshake is past it. -/
theorem isPast_setStage {stage : Stage F} (hpast : stage.isPast = true) :
    ((s.setStage c stage).stages c).isPast = true := by
  simp [Node.setStage, hpast]

/-! ## The routines -/

/-- **A set-up fails**, and its clean-up runs. -/
theorem Inv.fail (h : Inv cfg s) (c : ℕ) (kind : Kind) : Inv cfg (s.fail cfg c kind) := by
  have hended : Inv cfg (s.setStage c .ended) := h.setEnded
  have hpast : ((s.setStage c .ended).stages c).isPast = true := isPast_setStage rfl
  cases kind with
  | incoming => exact ((hended.deactivate c).discardIncoming hpast).closeConnection c
  | outgoing p => exact (hended.discardOutgoing hpast).finallyOpen c

/-- The clean-up of an incoming set-up takes down the session before it discards the connection.
-/
theorem Node.Counts.failIncoming (h : s.Counts) (c : ℕ) : (s.fail cfg c .incoming).Counts := by
  have hready : ((s.setStage c .ended).deactivate c).tables.ready c = none :=
    SessionTables.deactivateSession_ready_self
  exact (((h.setStage c .ended).deactivate c).discardIncoming (Or.inl hready)).closeConnection c

/-- An attempt may give up what has no session, or does not stay open. -/
theorem Node.Counts.failOutgoing (h : s.Counts) {p : Str}
    (hc : s.tables.ready c = none ∨ s.isClosed c = true ∨ cfg.closesAtOnce c = true) :
    (s.fail cfg c (.outgoing p)).Counts := by
  by_cases hgone : s.tables.ready c = none ∨ s.isClosed c = true
  · exact ((h.setStage c .ended).discardOutgoing hgone).finallyOpen c
  · obtain ⟨-, hopen⟩ := not_or.1 hgone
    have honce : cfg.closesAtOnce c = true := by tauto
    have hclosed :
        (Function.update s.isClosed c (s.isClosed c || cfg.closesAtOnce c)) c = true := by
      rw [Function.update_self, honce, Bool.or_true]
    have hcounts : (((s.setStage c .ended).closeConnection cfg c).discardOutgoing c).Counts :=
      ((h.setStage c .ended).closeConnection c).discardOutgoing (Or.inr hclosed)
    have heq : s.fail cfg c (.outgoing p) =
        ((s.setStage c .ended).closeConnection cfg c).discardOutgoing c := if_neg hopen
    rwa [heq]

/-- **Selection publishes a session**, in the place of another one or of none. -/
theorem Inv.publish (h : Inv cfg s) (hc : (s.stages c).isPast = false) {u : SessionTables F}
    (hu : u.WellFormed)
    (hsub : ∀ d r, d ≠ c → u.ready d = some r → s.tables.ready d = some r) {stage : Stage F}
    (hpast : stage.isPast = true) (hattempt : stage.isAttempt = true → c ∉ s.incoming)
    (hretires : ∀ d, stage.retires = some d → u.ready d = none ∧ (s.stages d).isPast = true) :
    Inv cfg ({ s with tables := u }.setStage c stage) := by
  have hended : Inv cfg (s.setStage c .ended) := h.setEnded
  have hkeep : ∀ d, (s.stages d).isPast = true → ((s.setStage c .ended).stages d).isPast = true := by
    intro d hd
    have hdc : d ≠ c := by
      intro hdc
      simp [hdc, hc] at hd
    simp only [Node.setStage, Function.update_of_ne hdc]
    exact hd
  have hretired : ∀ d, s.Retired d →
      ({ s.setStage c .ended with tables := u } : Node F).Retired d := by
    intro d hd
    refine ⟨Option.eq_none_iff_forall_ne_some.2 fun r hr => ?_, hkeep d hd.2⟩
    have hdc : d ≠ c := by
      intro hdc
      simp [hdc, Node.Retired, hc] at hd
    simpa [hd.1] using hsub d r hdc hr
  have hpublished : Inv cfg { s.setStage c .ended with tables := u } := by
    refine { hended with
      wf := hu
      past := fun d hd => ?_
      retired := fun d e he => ?_
      disconnected := fun k d hd => hretired d (h.disconnected k d hd) }
    · by_cases hdc : d = c
      · rw [hdc]
        exact isPast_setStage rfl
      · obtain ⟨r, hr⟩ := Option.ne_none_iff_exists'.1 hd
        exact hkeep d (h.past d (by simp [hsub d r hdc hr]))
    · by_cases hec : e = c
      · simp [Node.setStage, hec, Stage.retires] at he
      · simp only [Node.setStage, Function.update_of_ne hec] at he
        exact hretired d (h.retired d e he)
  have hset := hpublished.setStage (c := c) hpast hattempt fun d hd =>
    ⟨(hretires d hd).1, hkeep d (hretires d hd).2⟩
  simpa [Node.setStage] using hset

/-- A session is published whose connection is counted, or closed. -/
theorem Node.Counts.publish (h : s.Counts) {u : SessionTables F}
    (hsub : ∀ d r, d ≠ c → u.ready d = some r → s.tables.ready d = some r)
    (hc : s.isClosed c = false → c ∈ s.incoming ∪ s.outgoing) (stage : Stage F) :
    ({ s with tables := u }.setStage c stage).Counts := by
  intro d hd hopen
  by_cases hdc : d = c
  · subst hdc
    exact hc hopen
  · obtain ⟨r, hr⟩ := Option.ne_none_iff_exists'.1 hd
    exact h d (by simp [hsub d r hdc hr]) hopen

/-- A set-up that has selected is past its handshake. -/
theorem isPast_settled (session : ProtocolSession F) (kind : Kind) :
    (Stage.settled session kind).isPast = true := by
  cases kind <;> rfl

/-- A connection that is not past its handshake has no session. -/
theorem Inv.ready_eq_none (h : Inv cfg s) (hc : (s.stages c).isPast = false) :
    s.tables.ready c = none := by
  by_contra hne
  have hpast := h.past c hne
  rw [hc] at hpast
  cases hpast

/-- A connection that is settled belongs to the attempt it belonged to. -/
theorem Inv.not_mem_incoming_of_settled (h : Inv cfg s) {kind : Kind} {session : ProtocolSession F}
    (hkind : ∀ p, kind = .outgoing p → (s.stages c).isAttempt = true)
    (hsettled : (Stage.settled session kind).isAttempt = true) : c ∉ s.incoming := by
  cases kind with
  | incoming => cases hsettled
  | outgoing p => exact h.attempt c (hkind p rfl)

/-- What a set-up publishes is counted, if it is open. -/
def Node.SelectsCounted (cfg : Config) (s : Node F) (c : ℕ) (session : ProtocolSession F)
    (direction : Direction) : Prop :=
  ∀ tables loser, s.tables.selectReadyConnection cfg.peerId s.isClosed c session direction =
    some (tables, ⟨c, loser⟩) → s.isClosed c = false → c ∈ s.incoming ∪ s.outgoing

/-- A set-up selects its connection or gives it up. -/
theorem select_spec (h : Inv cfg s) {kind : Kind} (hc : s.stages c = .negotiating kind)
    (session : ProtocolSession F) :
    Inv cfg (s.select cfg c kind session) ∧
      (s.SelectsCounted cfg c session kind.direction → s.Counts →
        (s.select cfg c kind session).Counts) := by
  have hpast : (s.stages c).isPast = false := by rw [hc]; rfl
  have hready := h.ready_eq_none hpast
  have hkind : ∀ p, kind = .outgoing p → (s.stages c).isAttempt = true := by
    rintro p rfl
    rw [hc]
    rfl
  have hfail : Inv cfg (s.fail cfg c kind) ∧ (s.Counts → (s.fail cfg c kind).Counts) := by
    refine ⟨h.fail c kind, fun hcounts => ?_⟩
    cases kind with
    | incoming => exact hcounts.failIncoming c
    | outgoing p => exact hcounts.failOutgoing (Or.inl hready)
  unfold Node.select
  cases hselect : s.tables.selectReadyConnection cfg.peerId s.isClosed c session
      kind.direction with
  | none => exact hfail.imp_right fun hcounts _ => hcounts
  | some result =>
      obtain ⟨u, selection⟩ := result
      dsimp only
      cases selects_of_selectReadyConnection h.wf hready hselect with
      | first _ hu _ hsub =>
          rw [if_pos rfl]
          refine ⟨h.publish hpast hu hsub (isPast_settled session kind)
            (h.not_mem_incoming_of_settled hkind) fun d hd => ?_, fun hmem hcounts =>
              hcounts.publish hsub (hmem u none hselect) _⟩
          cases kind <;> cases hd
      | @replaced _ e he hopen hne hu _ hnone hsub =>
          rw [if_pos rfl]
          obtain ⟨r, hr, -⟩ := h.wf.ready he
          have hsub' : ∀ d r, d ≠ c → (u.deactivateSession e).ready d = some r →
              s.tables.ready d = some r :=
            fun d r hd hr => hsub d r hd (ready_of_deactivateSession hr)
          refine ⟨h.publish hpast (hu.deactivateSession e) hsub' rfl (fun hattempt => ?_)
            fun d hd => ?_, fun hmem hcounts =>
              hcounts.publish hsub' (hmem u (some e) hselect) _⟩
          · cases kind with
            | incoming => cases hattempt
            | outgoing p => exact h.attempt c (hkind p rfl)
          · cases hd
            exact ⟨SessionTables.deactivateSession_ready_self, h.past e (by simp [hr])⟩
      | kept he hopen hne =>
          rw [if_neg hne]
          exact hfail.imp_right fun hcounts _ => hcounts

/-- **A replaced connection is retired**: its session is gone, so that it may leave the sets. -/
theorem endRetire_spec (h : Inv cfg s) {d : ℕ} (hd : s.Retired d) :
    Inv cfg (s.endRetire cfg d) ∧ (s.Counts → (s.endRetire cfg d).Counts) :=
  ⟨(h.discard hd.2).closeConnection d, fun hcounts => (hcounts.discard hd.1).closeConnection d⟩

/-- What a routine awaits returns: no session is given up. -/
theorem resume_spec (h : Inv cfg s) (hs : s.resume cfg c = some t) :
    Inv cfg t ∧ (s.Counts → t.Counts) := by
  unfold Node.resume at hs
  split at hs
  · next kind session loser hc =>
      cases hs
      have hretired : s.Retired loser := h.retired loser c (by rw [hc]; rfl)
      obtain ⟨hinv, hcounts⟩ := endRetire_spec h hretired
      refine ⟨hinv.setStage rfl (fun hattempt hmem => ?_) fun d hd => ?_, hcounts⟩
      · have hold : (s.stages c).isAttempt = true := by
          rw [hc]
          cases kind with
          | incoming => cases hattempt
          | outgoing p => rfl
        exact h.attempt c hold (Finset.mem_of_mem_erase hmem)
      · cases hd
        exact hretired
  · next kind session loser hc =>
      cases hs
      have hkind : ∀ p, kind = .outgoing p → (s.stages c).isAttempt = true := by
        rintro p rfl
        rw [hc]
        rfl
      refine ⟨h.setStage (isPast_settled session kind) (h.not_mem_incoming_of_settled hkind)
        fun d hd => ?_, fun hcounts => hcounts⟩
      cases kind <;> cases hd
  · next session previous hc =>
      cases hs
      have hretired : s.Retired previous := h.retired previous c (by rw [hc]; rfl)
      obtain ⟨hinv, hcounts⟩ := endRetire_spec h hretired
      refine ⟨hinv.setStage rfl (fun hattempt => ?_) fun d hd => ?_, hcounts⟩
      · cases hattempt
      · cases hd
        exact hretired
  · cases hs
    refine ⟨h.setStage rfl (fun hattempt => ?_) fun d hd => ?_, fun hcounts => hcounts⟩
    · cases hattempt
    · cases hd
  · split at hs
    · cases hs
      refine ⟨h.setStage rfl (fun hattempt => ?_) fun d hd => ?_, fun hcounts => hcounts⟩
      · cases hattempt
      · cases hd
    · cases hs
      exact ⟨h.fail c .incoming, fun hcounts => hcounts.failIncoming c⟩
  · cases hs

/-- An attempt that does not abandon its connection gives up what need not be counted. -/
theorem gone_of_not_abandons (h : Inv cfg s) {p : Str} {session : ProtocolSession F} {loser : ℕ}
    {pc : RetirePc} (hc : s.stages c = .retiring (.outgoing p) session loser pc)
    (hkeeps : ¬ Abandons cfg s c) :
    s.tables.ready c = none ∨ s.isClosed c = true ∨ cfg.closesAtOnce c = true := by
  by_contra hnot
  obtain ⟨hready, hopen, honce⟩ := not_or.1 hnot |>.imp_right not_or.1
  obtain ⟨r, hr⟩ := Option.ne_none_iff_exists'.1 hready
  exact hkeeps ⟨⟨p, session, loser, pc, hc⟩, ⟨_, h.wf.canonical hr⟩,
    Bool.eq_false_of_not_eq_true hopen, Bool.eq_false_of_not_eq_true honce⟩

/-- What a routine awaits raises. -/
theorem raise_spec (h : Inv cfg s) (hs : s.raise cfg c = some t) :
    Inv cfg t ∧ (¬ Abandons cfg s c → s.Counts → t.Counts) := by
  unfold Node.raise at hs
  split at hs
  · next kind hc =>
      cases hs
      refine ⟨h.fail c kind, fun _ hcounts => ?_⟩
      cases kind with
      | incoming => exact hcounts.failIncoming c
      | outgoing p => exact hcounts.failOutgoing (Or.inl (h.ready_eq_none (by rw [hc]; rfl)))
  · next kind session loser pc hc =>
      cases hs
      refine ⟨h.fail c kind, fun hkeeps hcounts => ?_⟩
      cases kind with
      | incoming => exact hcounts.failIncoming c
      | outgoing p => exact hcounts.failOutgoing (gone_of_not_abandons h hc hkeeps)
  · cases hs
    exact ⟨h.fail c .incoming, fun _ hcounts => hcounts.failIncoming c⟩
  · cases hs
    exact ⟨h.fail c .incoming, fun _ hcounts => hcounts.failIncoming c⟩
  · cases hs
    exact ⟨h.fail c .incoming, fun _ hcounts => hcounts.failIncoming c⟩
  · cases hs
    exact ⟨h.setEnded.finallyOpen c, fun _ hcounts => (hcounts.setStage c .ended).finallyOpen c⟩
  · cases hs

/-! ## Admission -/

/-- A connection that nobody has opened is in no set. -/
theorem Inv.absent_not_mem (h : Inv cfg s) (hc : s.stages c = .absent) :
    c ∉ s.incoming ∪ s.outgoing := fun hmem => (h.admitted c hmem).1 hc

/-- It is none of those that are past the handshake. -/
theorem Inv.ne_of_absent (h : s.stages c = .absent) {d : ℕ} (hd : (s.stages d).isPast = true) :
    d ≠ c := by
  rintro rfl
  rw [h] at hd
  cases hd

/-- Nor is it retired. -/
theorem retired_of_absent (hc : s.stages c = .absent) {d : ℕ} (hd : s.Retired d)
    (stage : Stage F) : (s.setStage c stage).Retired d := by
  refine ⟨hd.1, ?_⟩
  simp only [Node.setStage, Function.update_of_ne (Inv.ne_of_absent hc hd.2)]
  exact hd.2

/-- A connection is refused. -/
theorem Inv.refuse (h : Inv cfg s) (hc : s.stages c = .absent)
    (hclosed : s.closeCalled c = true ∨ s.isClosed c = true) :
    Inv cfg (s.setStage c .refused) := by
  have hstages : ∀ d, d ≠ c → (s.setStage c .refused).stages d = s.stages d :=
    fun d hd => Function.update_of_ne hd ..
  have hself : (s.setStage c .refused).stages c = .refused := Function.update_self ..
  refine { h with
    past := fun d hd => ?_
    admitted := fun d hd => ?_
    attempt := fun d hd => ?_
    incoming := fun d hd => ?_
    outgoing := fun d p hstop hd => ?_
    retired := fun d e he => ?_
    disconnected := fun k d hd => retired_of_absent hc (h.disconnected k d hd) _
    refused := fun d hd => ?_
    absent := fun d hd => ?_ }
  · have hpast := h.past d hd
    rw [hstages d (Inv.ne_of_absent hc hpast)]
    exact hpast
  · have hdc : d ≠ c := by
      rintro rfl
      exact h.absent_not_mem hc hd
    rw [hstages d hdc]
    exact h.admitted d hd
  · by_cases hdc : d = c
    · rw [hdc, hself] at hd
      cases hd
    · rw [hstages d hdc] at hd
      exact h.attempt d hd
  · by_cases hdc : d = c
    · rw [hdc, hself] at hd
      cases hd
    · rw [hstages d hdc] at hd
      exact h.incoming d hd
  · by_cases hdc : d = c
    · rw [hdc, hself] at hd
      cases hd
    · rw [hstages d hdc] at hd
      exact h.outgoing d p hstop hd
  · by_cases hec : e = c
    · rw [hec, hself] at he
      cases he
    · rw [hstages e hec] at he
      exact retired_of_absent hc (h.retired d e he) _
  · by_cases hdc : d = c
    · rw [hdc]
      exact ⟨hclosed, h.absent c hc⟩
    · rw [hstages d hdc] at hd
      exact h.refused d hd
  · by_cases hdc : d = c
    · rw [hdc, hself] at hd
      cases hd
    · rw [hstages d hdc] at hd
      exact h.absent d hd

/-- A connection enters one of the sets. -/
theorem Inv.admitConnection (h : Inv cfg s) (hc : s.stages c = .absent) {kind : Kind}
    {incoming outgoing : Finset ℕ} (hin : ∀ d, d ≠ c → (d ∈ incoming ↔ d ∈ s.incoming))
    (hout : ∀ d, d ≠ c → (d ∈ outgoing ↔ d ∈ s.outgoing)) (hkind : c ∈ incoming ↔ kind = .incoming)
    (hattempt : ∀ p, kind = .outgoing p → c ∈ outgoing)
    (hbound : (incoming ∪ outgoing).card ≤ cfg.maxConnections) :
    Inv cfg ({ s with incoming, outgoing }.admitConnection c kind) := by
  have hstages : ∀ d, d ≠ c →
      ({ s with incoming, outgoing }.admitConnection c kind).stages d = s.stages d :=
    fun d hd => Function.update_of_ne hd ..
  have hself : ({ s with incoming, outgoing }.admitConnection c kind).stages c =
      .negotiating kind := Function.update_self ..
  refine {
    wf := h.wf
    bound := hbound
    idle := h.idle
    past := fun d hd => ?_
    admitted := fun d hd => ?_
    attempt := fun d hd => ?_
    incoming := fun d hd hcancelled => ?_
    outgoing := fun d p hstop hd hcancelled => ?_
    retired := fun d e he => ?_
    disconnected := fun k d hd => retired_of_absent hc (h.disconnected k d hd) _
    refused := fun d hd => ?_
    absent := fun d hd => ?_ }
  · have hpast := h.past d hd
    rw [hstages d (Inv.ne_of_absent hc hpast)]
    exact hpast
  · by_cases hdc : d = c
    · rw [hdc, hself]
      exact ⟨fun he => (by cases he), fun he => (by cases he)⟩
    · rw [hstages d hdc]
      refine h.admitted d ?_
      change d ∈ incoming ∪ outgoing at hd
      rw [Finset.mem_union, hin d hdc, hout d hdc] at hd
      exact Finset.mem_union.2 hd
  · by_cases hdc : d = c
    · rw [hdc, hself] at hd
      rw [hdc]
      change c ∉ incoming
      rw [hkind]
      rintro rfl
      cases hd
    · rw [hstages d hdc] at hd
      change d ∉ incoming
      rw [hin d hdc]
      exact h.attempt d hd
  · by_cases hdc : d = c
    · rw [hdc, hself] at hd
      rw [hdc]
      cases hd
      exact hkind.2 rfl
    · rw [hstages d hdc] at hd
      exact (hin d hdc).2 (h.incoming d hd hcancelled)
  · by_cases hdc : d = c
    · rw [hdc, hself] at hd
      rw [hdc]
      cases hd
      exact hattempt p rfl
    · rw [hstages d hdc] at hd
      exact (hout d hdc).2 (h.outgoing d p hstop hd hcancelled)
  · by_cases hec : e = c
    · rw [hec, hself] at he
      cases he
    · rw [hstages e hec] at he
      exact retired_of_absent hc (h.retired d e he) _
  · by_cases hdc : d = c
    · rw [hdc, hself] at hd
      cases hd
    · rw [hstages d hdc] at hd
      simp only [Node.admitConnection, Node.setStage, Function.update_of_ne hdc]
      exact h.refused d hd
  · by_cases hdc : d = c
    · rw [hdc, hself] at hd
      cases hd
    · rw [hstages d hdc] at hd
      simp only [Node.admitConnection, Node.setStage, Function.update_of_ne hdc]
      exact h.absent d hd

/-- What is added to the sets uncounts nothing. -/
theorem Node.Counts.of_subset (h : s.Counts) (htables : t.tables = s.tables)
    (hclosed : ∀ d, s.isClosed d = true → t.isClosed d = true)
    (hsub : s.incoming ∪ s.outgoing ⊆ t.incoming ∪ t.outgoing) : t.Counts := by
  intro d hd hopen
  rw [htables] at hd
  refine hsub (h d hd ?_)
  cases hs : s.isClosed d with
  | false => rfl
  | true => exact absurd (hclosed d hs) (by simp [hopen])

/-- Membership of the others. -/
theorem mem_insert_iff_of_ne {c d : ℕ} (hdc : d ≠ c) (l : Finset ℕ) : d ∈ insert c l ↔ d ∈ l := by
  rw [Finset.mem_insert]
  exact or_iff_right hdc

/-- **An accepted connection** is counted below the limit, and refused at it. -/
theorem accept_spec (h : Inv cfg s) (hc : s.stages c = .absent) :
    Inv cfg (s.accept cfg c) ∧ (s.Counts → (s.accept cfg c).Counts) := by
  unfold Node.accept
  split
  · have hcalled : (s.closeConnection cfg c).closeCalled c = true := Function.update_self ..
    exact ⟨(h.closeConnection c).refuse hc (Or.inl hcalled), fun hcounts =>
      (hcounts.closeConnection c).setStage c .refused⟩
  · next hlimit =>
      have hnot : c ∉ s.incoming := fun hmem =>
        h.absent_not_mem hc (Finset.mem_union_left _ hmem)
      have hbound : (insert c s.incoming ∪ s.outgoing).card ≤ cfg.maxConnections := by
        rw [Finset.insert_union]
        have hcard := Finset.card_insert_le c (s.incoming ∪ s.outgoing)
        have hlt : s.activeConnectionCount < cfg.maxConnections := Nat.lt_of_not_le hlimit
        unfold Node.activeConnectionCount at hlt
        omega
      refine ⟨h.admitConnection hc (fun d hd => mem_insert_iff_of_ne hd _) (fun _ _ => Iff.rfl)
        (by simp) (fun p hp => by cases hp) hbound, fun hcounts => ?_⟩
      exact hcounts.of_subset rfl (fun _ hd => hd)
        (Finset.union_subset_union (Finset.subset_insert c s.incoming) subset_rfl)

/-- **An opened connection** likewise. -/
theorem opened_spec (h : Inv cfg s) (hc : s.stages c = .absent) (p : Str) :
    Inv cfg (s.opened cfg c p) ∧ (s.Counts → (s.opened cfg c p).Counts) := by
  have hnotin : c ∉ s.incoming := fun hmem => h.absent_not_mem hc (Finset.mem_union_left _ hmem)
  have hnotout : c ∉ s.outgoing := fun hmem => h.absent_not_mem hc (Finset.mem_union_right _ hmem)
  unfold Node.opened
  split
  · have hclosed : (s.finallyOpen cfg c).closeCalled c = true ∨
        (s.finallyOpen cfg c).isClosed c = true := by
      unfold Node.finallyOpen
      split
      · next hclosed => exact Or.inr hclosed
      · exact Or.inl (Function.update_self ..)
    have hstage : (s.finallyOpen cfg c).stages c = .absent := by
      unfold Node.finallyOpen
      split <;> exact hc
    exact ⟨(h.finallyOpen c).refuse hstage hclosed, fun hcounts =>
      (hcounts.finallyOpen c).setStage c .refused⟩
  · next hlimit =>
      have hbound : (s.incoming ∪ insert c s.outgoing).card ≤ cfg.maxConnections := by
        rw [Finset.union_insert]
        have hcard := Finset.card_insert_le c (s.incoming ∪ s.outgoing)
        have hlt : s.activeConnectionCount < cfg.maxConnections :=
          Nat.lt_of_not_le fun hle => hlimit ⟨hnotout, hle⟩
        unfold Node.activeConnectionCount at hlt
        omega
      refine ⟨h.admitConnection hc (fun _ _ => Iff.rfl) (fun d hd => mem_insert_iff_of_ne hd _)
        (by simp [hnotin]) (fun _ _ => Finset.mem_insert_self ..) hbound, fun hcounts => ?_⟩
      exact hcounts.of_subset rfl (fun _ hd => hd)
        (Finset.union_subset_union subset_rfl (Finset.subset_insert c s.outgoing))

/-! ## `stop()` -/

/-- `stop()` empties the tables and the sets. -/
theorem inv_beginStop (h : Inv cfg s) : Inv cfg s.beginStop where
  wf := .empty
  bound := Nat.zero_le _
  idle hr := by cases hr
  past _ hd := absurd rfl hd
  admitted _ hd := by simp [Node.beginStop] at hd
  attempt _ _ := Finset.notMem_empty _
  incoming d hd hcancelled := by
    change s.stages d = _ at hd
    change (s.cancelled d || (s.stages d).isReader) = false at hcancelled
    simp [hd, Stage.isReader] at hcancelled
  outgoing _ _ hstop := absurd rfl hstop
  retired d e he := ⟨rfl, (h.retired d e he).2⟩
  disconnected k d hd := ⟨rfl, (h.disconnected k d hd).2⟩
  refused := h.refused
  absent := h.absent

/-- `close_all` cancels the open attempts. -/
theorem inv_closeAll (h : Inv cfg s) (hstop : s.stop = .closing) : Inv cfg s.closeAll :=
  { h with
    idle := fun hr => by
      have hidle := h.idle hr
      rw [hstop] at hidle
      cases hidle
    incoming := fun d hd hcancelled => h.incoming d hd (Bool.or_eq_false_iff.1 hcancelled).1
    outgoing := fun d p _ hd hcancelled => by
      change s.stages d = _ at hd
      have hattempt := (Bool.or_eq_false_iff.1 hcancelled).2
      simp [hd, Stage.isAttempt] at hattempt }

/-! ## The steps -/

/-- **Every step keeps the invariant.** -/
theorem inv_step {l : Label F} (h : Inv cfg s) (hs : step cfg s l = some t) : Inv cfg t := by
  cases l with
  | start =>
      simp only [step] at hs
      split at hs
      · next hidle =>
          split at hs <;> cases hs
          exact { h with idle := fun _ => hidle }
      · cases hs
  | beginStop =>
      simp only [step] at hs
      split at hs <;> cases hs
      exact inv_beginStop h
  | closeAll =>
      simp only [step] at hs
      split at hs
      · next hstop =>
          cases hs
          exact inv_closeAll h hstop
      · cases hs
  | stopped =>
      simp only [step] at hs
      split at hs
      · next hstop =>
          cases hs
          exact { h with
            idle := fun _ => rfl
            outgoing := fun d p _ => h.outgoing d p (by simp [hstop]) }
      · cases hs
  | accept c =>
      simp only [step] at hs
      split at hs
      · next hc =>
          split at hs <;> cases hs
          exact (accept_spec h hc).1
      · cases hs
  | opened c p =>
      simp only [step] at hs
      split at hs
      · next hc =>
          cases hs
          exact (opened_spec h hc p).1
      · cases hs
  | negotiated c session =>
      simp only [step] at hs
      split at hs
      · cases hs
      split at hs
      · next hc =>
          cases hs
          exact (select_spec h hc session).1
      · next p hc =>
          split at hs <;> cases hs
          exact (select_spec h hc session).1
      · cases hs
  | resume c =>
      simp only [step] at hs
      split at hs
      · cases hs
      · exact (resume_spec h hs).1
  | adopted c previous =>
      simp only [step] at hs
      split at hs
      · cases hs
      split at hs
      · cases hs
        exact h.setStage rfl (fun he => by cases he) fun _ he => by cases he
      · next session m hc =>
          split at hs <;> cases hs
          next hm =>
          have hpast : (s.stages m).isPast = true := (Bool.and_eq_true_iff.1 hm).1
          refine (h.deactivate m).setStage rfl (fun he => by cases he) fun d hd => ?_
          cases hd
          exact ⟨SessionTables.deactivateSession_ready_self, hpast⟩
      · cases hs
  | raises c => exact (raise_spec h hs).1
  | startReader c =>
      simp only [step] at hs
      split at hs
      · cases hs
        exact h.setStage rfl (fun he => by cases he) fun _ he => by cases he
      · cases hs
  | readerEnds c =>
      simp only [step] at hs
      split at hs
      · cases hs
        exact (h.setEnded.deactivate c).discard (isPast_setStage rfl)
      · cases hs
  | cancel c =>
      simp only [step] at hs
      split at hs <;> cases hs
      have hmono : ∀ d, Function.update s.cancelled c true d = false → s.cancelled d = false := by
        intro d hd
        by_cases hdc : d = c
        · simp [hdc] at hd
        · rwa [Function.update_of_ne hdc] at hd
      exact { h with
        incoming := fun d hd hcancelled => h.incoming d hd (hmono d hcancelled)
        outgoing := fun d p hstop hd hcancelled => h.outgoing d p hstop hd (hmono d hcancelled) }
  | disconnect k p =>
      simp only [step] at hs
      split at hs
      · cases hs
        unfold Node.disconnect
        split
        · next c hcanonical =>
            have hdeactivated := h.deactivate c
            refine { hdeactivated with disconnected := fun j d hd => ?_ }
            change Function.update s.disconnects k (some c) j = some d at hd
            by_cases hjk : j = k
            · rw [hjk, Function.update_self] at hd
              cases hd
              obtain ⟨r, hr, -⟩ := h.wf.ready hcanonical
              exact ⟨SessionTables.deactivateSession_ready_self, h.past c (by simp [hr])⟩
            · rw [Function.update_of_ne hjk] at hd
              exact hdeactivated.disconnected j d hd
        · exact h
      · cases hs
  | resumeDisconnect k =>
      obtain ⟨c, hc, rfl⟩ := Option.map_eq_some_iff.1 hs
      have hdiscarded := h.discard (h.disconnected k c hc).2
      refine { hdiscarded with disconnected := fun j d hd => ?_ }
      change Function.update s.disconnects k none j = some d at hd
      by_cases hjk : j = k
      · rw [hjk, Function.update_self] at hd
        cases hd
      · rw [Function.update_of_ne hjk] at hd
        exact hdiscarded.disconnected j d hd
  | close c =>
      cases hs
      exact h.closeConnection c
  | closes c =>
      cases hs
      exact h.of_closes (fun _ hd => hd) (isClosed_mono s c fun _ => rfl)

/-! ### Whether the node runs -/

/-- The `finally` of `_open_connection` starts nothing. -/
@[simp] theorem running_finallyOpen (s : Node F) (c : ℕ) :
    (s.finallyOpen cfg c).running = s.running := by
  unfold Node.finallyOpen
  split <;> rfl

/-- Nor does a clean-up. -/
@[simp] theorem running_fail (s : Node F) (c : ℕ) (kind : Kind) :
    (s.fail cfg c kind).running = s.running := by
  cases kind with
  | incoming => rfl
  | outgoing p => exact running_finallyOpen ..

/-- Nor a selection. -/
theorem running_select (s : Node F) (c : ℕ) (kind : Kind) (session : ProtocolSession F) :
    (s.select cfg c kind session).running = s.running := by
  unfold Node.select
  split
  · exact running_fail ..
  · split
    · split <;> rfl
    · exact running_fail ..

/-- Nor a routine that goes on. -/
theorem running_resume (hs : s.resume cfg c = some t) : t.running = s.running := by
  unfold Node.resume at hs
  split at hs
  · cases hs
    rfl
  · cases hs
    rfl
  · cases hs
    rfl
  · cases hs
    rfl
  · split at hs <;> cases hs
    · rfl
    · exact running_fail ..
  · cases hs

/-- Nor one that raises. -/
theorem running_raise (hs : s.raise cfg c = some t) : t.running = s.running := by
  unfold Node.raise at hs
  split at hs
  · cases hs
    exact running_fail ..
  · cases hs
    exact running_fail ..
  · cases hs
    exact running_fail ..
  · cases hs
    exact running_fail ..
  · cases hs
    exact running_fail ..
  · cases hs
    exact running_finallyOpen ..
  · cases hs

/-- Nor an accepted connection. -/
theorem running_accept (s : Node F) (c : ℕ) : (s.accept cfg c).running = s.running := by
  unfold Node.accept
  split <;> rfl

/-- Nor an opened one. -/
theorem running_opened (s : Node F) (c : ℕ) (p : Str) :
    (s.opened cfg c p).running = s.running := by
  unfold Node.opened
  split
  · exact running_finallyOpen ..
  · rfl

/-- Nor `disconnect()`. -/
theorem running_disconnect (s : Node F) (k : ℕ) (p : Str) :
    (s.disconnect k p).running = s.running := by
  unfold Node.disconnect
  split <;> rfl

/-- Only `start()` makes a node run. -/
theorem running_of_step {l : Label F} (hl : l ≠ .start) (hs : step cfg s l = some t)
    (hrunning : t.running = true) : s.running = true := by
  cases l with
  | start => exact absurd rfl hl
  | accept c =>
      simp only [step] at hs
      split at hs
      · split at hs <;> cases hs
        rwa [running_accept] at hrunning
      · cases hs
  | opened c p =>
      simp only [step] at hs
      split at hs <;> cases hs
      rwa [running_opened] at hrunning
  | negotiated c session =>
      simp only [step] at hs
      split at hs
      · cases hs
      split at hs
      · cases hs
        rwa [running_select] at hrunning
      · split at hs <;> cases hs
        rwa [running_select] at hrunning
      · cases hs
  | resume c =>
      simp only [step] at hs
      split at hs
      · cases hs
      · exact running_resume hs ▸ hrunning
  | adopted c previous =>
      simp only [step] at hs
      split at hs
      · cases hs
      split at hs
      · cases hs
        exact hrunning
      · split at hs <;> cases hs
        exact hrunning
      · cases hs
  | raises c => exact running_raise hs ▸ hrunning
  | disconnect k p =>
      simp only [step] at hs
      split at hs <;> cases hs
      rwa [running_disconnect] at hrunning
  | resumeDisconnect k =>
      obtain ⟨c, -, rfl⟩ := Option.map_eq_some_iff.1 hs
      exact hrunning
  | close c =>
      cases hs
      exact hrunning
  | closes c =>
      cases hs
      exact hrunning
  | beginStop =>
      simp only [step] at hs
      split at hs <;> cases hs
      cases hrunning
  | closeAll | stopped | startReader c | readerEnds c | cancel c =>
      simp only [step] at hs
      split at hs <;> cases hs
      exact hrunning

/-- A connection that is admitted for a handshake is counted, or the node is being stopped. -/
theorem Inv.mem_or_closing (h : Inv cfg s) {kind : Kind} (hc : s.stages c = .negotiating kind)
    (hcancelled : s.cancelled c = false) :
    c ∈ s.incoming ∪ s.outgoing ∨ s.stop = .closing ∧ c ∉ s.outgoing ∧ ∃ p, kind = .outgoing p := by
  cases kind with
  | incoming => exact .inl (Finset.mem_union_left _ (h.incoming c hc hcancelled))
  | outgoing p =>
      by_cases hmem : c ∈ s.outgoing
      · exact .inl (Finset.mem_union_right _ hmem)
      · refine .inr ⟨?_, hmem, p, rfl⟩
        by_contra hstop
        exact hmem (h.outgoing c p hstop hc hcancelled)

/-- A set-up that is not late leaves the sessions counted. -/
theorem counts_select (h : Inv cfg s) (hcounts : s.Counts) {kind : Kind}
    (hc : s.stages c = .negotiating kind) (hcancelled : s.cancelled c = false)
    {session : ProtocolSession F} (hG : ¬ PublishesLate cfg s c session) :
    (s.select cfg c kind session).Counts := by
  refine (select_spec h hc session).2 (fun tables loser hselect hopen => ?_) hcounts
  obtain hmem | ⟨hstop, hmem, p, rfl⟩ := h.mem_or_closing hc hcancelled
  · exact hmem
  · exact absurd ⟨hstop, hmem, hopen, ⟨p, hc⟩, tables, loser, hselect⟩ hG

/-- **Every step that keeps the sessions keeps them counted.** -/
theorem counts_step {l : Label F} (h : Inv cfg s) (hold : s.Counts) (hG : KeepsSessions cfg s l)
    (hs : step cfg s l = some t) : t.Counts := by
  cases l with
  | start =>
      simp only [step] at hs
      split at hs
      · split at hs <;> cases hs
        exact hold
      · cases hs
  | beginStop =>
      simp only [step] at hs
      split at hs <;> cases hs
      exact fun d hd => absurd rfl hd
  | accept c =>
      simp only [step] at hs
      split at hs
      · next hc =>
          split at hs <;> cases hs
          exact (accept_spec h hc).2 hold
      · cases hs
  | opened c p =>
      simp only [step] at hs
      split at hs
      · next hc =>
          cases hs
          exact (opened_spec h hc p).2 hold
      · cases hs
  | negotiated c session =>
      simp only [step] at hs
      split at hs
      · cases hs
      next hcancelled =>
      have hlive : s.cancelled c = false := Bool.eq_false_of_not_eq_true hcancelled
      split at hs
      · next hc =>
          cases hs
          exact counts_select h hold hc hlive hG
      · next p hc =>
          split at hs <;> cases hs
          exact counts_select h hold hc hlive hG
      · cases hs
  | resume c =>
      simp only [step] at hs
      split at hs
      · cases hs
      · exact (resume_spec h hs).2 hold
  | adopted c previous =>
      simp only [step] at hs
      split at hs
      · cases hs
      split at hs
      · cases hs
        exact hold.setStage _ _
      · split at hs <;> cases hs
        exact (hold.deactivate _).setStage _ _
      · cases hs
  | raises c => exact (raise_spec h hs).2 hG hold
  | startReader c =>
      simp only [step] at hs
      split at hs <;> cases hs
      exact hold.setStage _ _
  | readerEnds c =>
      simp only [step] at hs
      split at hs <;> cases hs
      exact ((hold.setStage c .ended).deactivate c).discard
        SessionTables.deactivateSession_ready_self
  | disconnect k p =>
      simp only [step] at hs
      split at hs <;> cases hs
      unfold Node.disconnect
      split
      · exact hold.deactivate _
      · exact hold
  | resumeDisconnect k =>
      obtain ⟨c, hc, rfl⟩ := Option.map_eq_some_iff.1 hs
      exact hold.discard (h.disconnected k c hc).1
  | close c =>
      cases hs
      exact hold.closeConnection c
  | closes c =>
      cases hs
      exact hold.of_closes (isClosed_mono s c fun _ => rfl)
  | closeAll | stopped | cancel c =>
      simp only [step] at hs
      split at hs <;> cases hs
      exact hold

/-! ## The law holds -/

/-- A step that gives a session up leaves it in the tables of a running node. -/
theorem not_counts_of_abandons (h : Inv cfg s) (habandons : Abandons cfg s c)
    (hs : s.raise cfg c = some t) : ¬ t.CountsSessions := by
  obtain ⟨⟨p, session, loser, pc, hc⟩, ⟨q, hq⟩, hopen, honce⟩ := habandons
  simp only [Node.raise, hc] at hs
  cases hs
  have hnot : ¬ s.isClosed c = true := by simp [hopen]
  have heq : s.fail cfg c (.outgoing p) =
      ((s.setStage c .ended).discardOutgoing c).closeConnection cfg c := if_neg hnot
  rw [heq]
  intro hcounts
  have hclosed : (Function.update s.isClosed c (s.isClosed c || cfg.closesAtOnce c)) c = false := by
    rw [Function.update_self, hopen, honce]
    rfl
  have hmem := hcounts q c hq hclosed
  obtain hin | hout := Finset.mem_union.1 hmem
  · exact h.attempt c (by rw [hc]; rfl) hin
  · exact Finset.notMem_erase c _ hout

/-- A late session is in the tables, and its connection in no set. -/
theorem not_counts_of_publishesLate (h : Inv cfg s) {session : ProtocolSession F}
    (hlate : PublishesLate cfg s c session) (hs : step cfg s (.negotiated c session) = some t) :
    ¬ t.CountsSessions := by
  obtain ⟨-, hout, hopen, ⟨p, hc⟩, u, loser, hselect⟩ := hlate
  have hin : c ∉ s.incoming := h.attempt c (by rw [hc]; rfl)
  have hready := h.ready_eq_none (c := c) (by rw [hc]; rfl)
  have ht : t = s.select cfg c (.outgoing p) session := by
    simp only [step, hc] at hs
    split at hs
    · cases hs
    · split at hs <;> cases hs
      rfl
  -- the session that the new tables have
  have hpublished : ∃ r, t.tables.ready c = some r ∧ t.tables.WellFormed ∧
      t.isClosed = s.isClosed ∧ t.incoming = s.incoming ∧ t.outgoing = s.outgoing := by
    rw [ht]
    unfold Node.select
    rw [show (Kind.outgoing p).direction = .outbound from rfl, hselect]
    dsimp only
    rw [if_pos rfl]
    cases selects_of_selectReadyConnection h.wf hready hselect with
    | first _ hu hr => exact ⟨_, hr, hu, rfl, rfl, rfl⟩
    | @replaced _ e _ _ hne hu hr =>
        exact ⟨_, (SessionTables.deactivateSession_ready_ne hne.symm).trans hr,
          hu.deactivateSession e, rfl, rfl, rfl⟩
    | kept _ _ hne => exact absurd rfl hne
  obtain ⟨r, hr, hwf, hclosed, hincoming, houtgoing⟩ := hpublished
  intro hcounts
  have hmem := hcounts _ c (hwf.canonical hr) (hclosed ▸ hopen)
  rw [hincoming, houtgoing, Finset.mem_union] at hmem
  exact hmem.elim hin hout

/-- The invariant holds in every run. -/
theorem inv_of_reachable (h : Reachable (system F cfg) s) : Inv cfg s := by
  refine h.invariant (I := Inv cfg) (fun s hs => ?_) fun _ _ _ h hs => inv_step h hs
  cases hs
  exact inv_initial

/-- What holds in the runs that give no session up, and publish none late. -/
theorem counts_of_keepsSessions (h : ReachableWhen (system F cfg) (KeepsSessions cfg) s) :
    Inv cfg s ∧ s.Counts := by
  refine h.invariant (I := fun s => Inv cfg s ∧ s.Counts) (fun s hs => ?_) ?_
  · cases hs
    exact ⟨inv_initial, fun d hd => absurd rfl hd⟩
  · intro s l t hinv hG hs
    exact ⟨inv_step hinv.1 hs, counts_step hinv.1 hinv.2 hG hs⟩

/-- A session that is not counted stays so until the node runs. -/
theorem runs_uncounted (hcounts : ¬ t.CountsSessions) :
    ∃ u, Reachable ((system F cfg).startingAt t) u ∧ u.running = true ∧ ¬ u.CountsSessions := by
  have hinit : Reachable ((system F cfg).startingAt t) t := .init rfl
  cases hrunning : t.running with
  | true => exact ⟨t, hinit, hrunning, hcounts⟩
  | false =>
      obtain ⟨u, hu, hidle, hstopped, hsame⟩ : ∃ u, Reachable ((system F cfg).startingAt t) u ∧
          u.stop = .idle ∧ u.running = false ∧ (u.CountsSessions ↔ t.CountsSessions) := by
        cases hstop : t.stop with
        | idle => exact ⟨t, hinit, hstop, hrunning, Iff.rfl⟩
        | closing =>
            have hstep : step cfg t .closeAll = some t.closeAll := by simp only [step, hstop]
            exact ⟨_, (hinit.next .closeAll hstep).next .stopped rfl, rfl, hrunning, Iff.rfl⟩
        | gathering =>
            have hstep : step cfg t .stopped = some { t with stop := .idle } := by
              simp only [step, hstop]
            exact ⟨_, hinit.next .stopped hstep, rfl, hrunning, Iff.rfl⟩
      have hstart : step cfg u .start = some { u with running := true } := by
        simp [step, hidle, hstopped]
      exact ⟨_, hu.next .start hstart, rfl, fun h => hcounts (hsame.1 h)⟩

/-- **Admission is bounded.** In every run the sets stay within `max_connections`, and a
connection that was refused is closed and was never negotiated or counted.  As long as no
attempt gives up a session it has published, or publishes one while the node is being
stopped, every open canonical connection is counted; a step that does not keep to this leaves
one that is not, and with it the node runs, or the run goes on to where it does. -/
theorem connections_admitted (F : Type) (cfg : Config) :
    (∀ s, Reachable (system F cfg) s → s.Limited cfg) ∧
    (∀ s, ReachableWhen (system F cfg) (KeepsSessions cfg) s → s.CountsSessions) ∧
    ∀ s l t, Reachable (system F cfg) s → step cfg s l = some t → ¬ KeepsSessions cfg s l →
      ¬ t.CountsSessions ∧
        ∃ u, Reachable ((system F cfg).startingAt t) u ∧ u.running = true ∧ ¬ u.CountsSessions := by
  refine ⟨fun s hs => (inv_of_reachable hs).limited, fun s hs => ?_, fun s l t hs hstep hG => ?_⟩
  · obtain ⟨hinv, hcounts⟩ := counts_of_keepsSessions hs
    exact hinv.countsSessions_iff.2 hcounts
  · have hinv := inv_of_reachable hs
    have hcounts : ¬ t.CountsSessions := by
      cases l with
      | raises c => exact not_counts_of_abandons hinv (Classical.not_not.1 hG) hstep
      | negotiated c session =>
          exact not_counts_of_publishesLate hinv (Classical.not_not.1 hG) hstep
      | _ => exact absurd trivial hG
    exact ⟨hcounts, runs_uncounted hcounts⟩

/-! ## A session that is not counted -/

/-- Node `[1]`, whose connections take their time to close. -/
def sampleConfig : Config where
  peerId := [1]
  maxConnections := 8
  closesAtOnce := fun _ => false

/-- What the handshake with `[2]` gives. -/
def sampleSession : ProtocolSession Unit where
  peerId := [2]
  version := 1
  serializerId := [106]
  capabilities := []
  maxMessageSize := 1024
  peerIdAuthenticated := false
  metadata := []

/-- 0 is accepted from `[2]`, 1 is opened to it and replaces 0, whose `close()` raises. -/
def abandoningRun : List (Label Unit) :=
  [.start, .accept 0, .negotiated 0 sampleSession, .opened 1 [2], .negotiated 1 sampleSession,
    .resume 1, .raises 1]

/-- An open canonical connection of a running node is in neither set. -/
theorem not_connections_admitted :
    ¬ ∀ (cfg : Config) (s : Node Unit), Reachable (system Unit cfg) s → s.Limited cfg ∧
      (s.running = true → s.CountsSessions) := by
  intro h
  obtain ⟨-, hcounts⟩ := h sampleConfig _
    (reachable_of_exec (S := system Unit sampleConfig) rfl abandoningRun rfl)
  have hmem := hcounts rfl [2] 1 rfl rfl
  cases hmem

end Admission
end Core
end Paqto
