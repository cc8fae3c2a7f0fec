/-
# What a set-up keeps, place by place

`Phase` says, for each place of a set-up, which entries of the tables its connection
cannot have there.  Every step but the registration of the session only removes
entries (`Reduces`), so what is gone stays gone.  The two conditions on runs,
`FailsWithdrawn` and `ClosesContained`, are those under which a set-up that fails
leaves nothing behind, and a session that ends is reported.
-/

import Paqto.Core.SessionSetup

namespace Paqto
namespace Core
namespace SessionSetup

open Transition Python

variable {F : Type}

/-- The connection has no session, no writer and no correlation. -/
structure Node.Unpublished (s : Node F) (c : ℕ) : Prop where
  ready : s.tables.ready c = none
  channel : s.channels c = false
  request : ∀ id, s.pendingRequests id ≠ some c
  acknowledgement : ∀ id, s.pendingAcknowledgements id ≠ some c

/-- The connection is closed and in no table. -/
structure Node.Released (s : Node F) (c : ℕ) : Prop where
  unpublished : s.Unpublished c
  canonical : ∀ p, s.tables.peerConnections p ≠ some c
  incoming : s.incomingConnections c = false
  outgoing : s.outgoingConnections c = false
  closed : s.isClosed c = true

/-- The clean-up of a set-up that fails. -/
inductive Cleanup
  /-- The `finally` of `_run_incoming_connection`. -/
  | incoming
  /-- The `except` of `_prepare_outgoing_connection` and the `finally` of
  `_open_connection`. -/
  | preparing
  /-- The `finally` of `_open_connection` alone. -/
  | opening

/-- The clean-up that a set-up of this kind runs. -/
def Kind.cleanup : Kind → Cleanup
  | incoming => .incoming
  | outgoing _ => .preparing

/-- The set-up that fails in a step, when `_select_ready_connection` has run for it. -/
def cleanupOf (s : Node F) : Label F → Option (ℕ × Cleanup)
  | .fails c =>
      match s.setups c with
      | .retiring kind _ _ _ => some (c, kind.cleanup)
      | .retiringPrevious _ _ _ => some (c, .incoming)
      | .closingPrevious => some (c, .opening)
      | _ => none
  | .resume c =>
      match s.setups c with
      | .installing .incoming session _ =>
          if s.closingPeers session.peerId then some (c, .incoming) else none
      | .installing (.outgoing p) _ _ => if s.closingPeers p then some (c, .opening) else none
      | .checking session =>
          if s.tables.peerConnections session.peerId = some c then none else some (c, .incoming)
      | _ => none
  | _ => none

/-- What the clean-up does not remove has been removed by somebody else. -/
def Node.Withdrawn (s : Node F) (c : ℕ) : Cleanup → Prop
  | .incoming => s.channels c = false
  | .preparing => s.Unpublished c
  | .opening => s.Unpublished c ∧ s.outgoingConnections c = false

/-- The set-up that fails in the step finds its connection withdrawn. -/
def FailsWithdrawn (s : Node F) (l : Label F) : Prop :=
  ∀ c cleanup, cleanupOf s l = some (c, cleanup) → s.Withdrawn c cleanup

/-- `close()` does not raise at the end of a session that is to be reported. -/
def ClosesContained (s : Node F) (l : Label F) : Prop :=
  ∀ c session, l = .fails c → s.setups c ≠ .closing session true

/-! ## Steps that only remove -/

/-- What `t` holds of the connection, `s` holds too. -/
structure Less (s t : Node F) (c : ℕ) : Prop where
  ready : s.tables.ready c = none → t.tables.ready c = none
  channel : s.channels c = false → t.channels c = false
  incoming : s.incomingConnections c = false → t.incomingConnections c = false
  outgoing : s.outgoingConnections c = false → t.outgoingConnections c = false
  request : ∀ id, t.pendingRequests id = some c → s.pendingRequests id = some c
  acknowledgement : ∀ id, t.pendingAcknowledgements id = some c →
    s.pendingAcknowledgements id = some c
  closed : s.isClosed c = true → t.isClosed c = true
  disconnected : c ∈ s.disconnected → c ∈ t.disconnected

/-- Everything that `t` holds for a connection, `s` holds too. -/
structure Reduces (s t : Node F) : Prop where
  setups : t.setups = s.setups
  wellFormed : s.tables.WellFormed → t.tables.WellFormed
  less : ∀ c, Less s t c

section Reduces

variable {s t u : Node F} {c : ℕ}

/-- Nothing is given up. -/
theorem Less.refl (s : Node F) (c : ℕ) : Less s s c := ⟨id, id, id, id, fun _ => id, fun _ => id, id, id⟩

/-- More is given up. -/
theorem Less.trans (h : Less s t c) (h' : Less t u c) : Less s u c where
  ready := h'.ready ∘ h.ready
  channel := h'.channel ∘ h.channel
  incoming := h'.incoming ∘ h.incoming
  outgoing := h'.outgoing ∘ h.outgoing
  request id := h.request id ∘ h'.request id
  acknowledgement id := h.acknowledgement id ∘ h'.acknowledgement id
  closed := h'.closed ∘ h.closed
  disconnected := h'.disconnected ∘ h.disconnected

/-- Nothing is given up. -/
theorem Reduces.refl (s : Node F) : Reduces s s := ⟨rfl, id, Less.refl s⟩

/-- More is given up. -/
theorem Reduces.trans (h : Reduces s t) (h' : Reduces t u) : Reduces s u where
  setups := h'.setups.trans h.setups
  wellFormed := h'.wellFormed ∘ h.wellFormed
  less c := (h.less c).trans (h'.less c)

/-- `_deactivate_session` only takes out. -/
theorem reduces_deactivate (s : Node F) (c : ℕ) : Reduces s (s.deactivate c) := by
  refine ⟨rfl, fun h => h.deactivateSession c, fun d => { Less.refl s d with ready := fun h => ?_ }⟩
  refine Option.eq_none_iff_forall_ne_some.2 fun r hr => ?_
  rw [SessionTables.ready_of_deactivateSession hr] at h
  cases h

/-- Pending correlations of the connection are failed. -/
theorem reduces_failPending (s : Node F) (c : ℕ) : Reduces s (s.failPending c) :=
  ⟨rfl, id, fun d => { Less.refl s d with
    request := fun _ h => (Option.filter_eq_some_iff.1 h).1
    acknowledgement := fun _ h => (Option.filter_eq_some_iff.1 h).1 }⟩

/-- What was false stays so. -/
theorem update_false {f : ℕ → Bool} {c d : ℕ} (h : f d = false) :
    Function.update f c false d = false := by
  rw [Function.update_apply]
  split
  · rfl
  · exact h

/-- `_close_outbound_channel` only takes out. -/
theorem reduces_closeOutboundChannel (s : Node F) (c : ℕ) :
    Reduces s (s.closeOutboundChannel c) :=
  ⟨rfl, id, fun d => { Less.refl s d with channel := update_false }⟩

/-- The connection leaves `_incoming_connections`. -/
theorem reduces_discardIncoming (s : Node F) (c : ℕ) : Reduces s (s.discardIncoming c) :=
  ⟨rfl, id, fun d => { Less.refl s d with incoming := update_false }⟩

/-- The connection leaves `_outgoing_connections`. -/
theorem reduces_discardOutgoing (s : Node F) (c : ℕ) : Reduces s (s.discardOutgoing c) :=
  ⟨rfl, id, fun d => { Less.refl s d with outgoing := update_false }⟩

/-- `close()` registers nothing. -/
theorem reduces_closeConnection (s : Node F) (c : ℕ) : Reduces s (s.closeConnection c) := by
  refine ⟨rfl, id, fun d => { Less.refl s d with closed := fun h => ?_ }⟩
  simp only [Node.closeConnection, Function.update_apply]
  split
  · rfl
  · exact h

/-- `connection_lost` only takes out. -/
theorem reduces_connectionLost (s : Node F) (p : Str) (c : ℕ) :
    Reduces s (s.connectionLost p c) := by
  unfold Node.connectionLost
  split
  · exact ⟨rfl, id, fun d => { Less.refl s d with }⟩
  · exact Reduces.refl s

/-- The loser is retired, up to the close of its channel. -/
theorem reduces_beginRetire (s : Node F) (c : ℕ) : Reduces s (s.beginRetire c) :=
  (reduces_deactivate s c).trans (reduces_failPending _ c)

/-- The loser is retired, from there on. -/
theorem reduces_endRetire (s : Node F) (r : Retire) : Reduces s (s.endRetire r) := by
  have h := ((reduces_closeOutboundChannel s r.connection).trans
    (reduces_discardIncoming _ r.connection)).trans (reduces_discardOutgoing _ r.connection)
  unfold Node.endRetire
  refine h.trans (Reduces.trans ?_ (reduces_closeConnection _ r.connection))
  split
  · exact reduces_connectionLost _ _ _
  · exact Reduces.refl _

/-- The `finally` of `_run_incoming_connection`. -/
theorem reduces_finallyIncoming (s : Node F) (c : ℕ) : Reduces s (s.finallyIncoming c) :=
  (((reduces_deactivate s c).trans (reduces_discardIncoming _ c)).trans
    (reduces_failPending _ c)).trans (reduces_closeConnection _ c)

end Reduces

/-! ## The places of a set-up -/

/-- The connection is not in the table of the other kind. -/
def Node.OfKind (s : Node F) (c : ℕ) : Kind → Prop
  | .incoming => s.outgoingConnections c = false
  | .outgoing _ => s.incomingConnections c = false

/-- What holds of a connection whose routine stands at a place.  A failed set-up has
released its connection in `Clean` runs, and the end of a session that is to be
reported is reported in `Contained` runs. -/
def Node.Phase (Clean Contained : Prop) (s : Node F) (c : ℕ) : SetupPc F → Prop
  | .absent =>
      s.Unpublished c ∧ s.incomingConnections c = false ∧ s.outgoingConnections c = false
  | .negotiating kind => s.Unpublished c ∧ s.OfKind c kind
  | .retiring kind _ _ _ | .installing kind _ _ => s.OfKind c kind
  | .retiringPrevious _ _ _ | .checking _ => s.OfKind c .incoming
  | .closingPrevious => s.incomingConnections c = false
  | .losing _ _ => s.Released c
  | .failing | .failed => Clean → s.Released c
  | .ended true => Contained → c ∈ s.disconnected
  | _ => True

/-- **What holds in every run** of each set-up, with the clean-ups withdrawing and the closes
contained. -/
structure Inv (Clean Contained : Prop) (s : Node F) : Prop where
  wellFormed : s.tables.WellFormed
  phase : ∀ c, s.Phase Clean Contained c (s.setups c)

section Phase

variable {Clean Contained : Prop} {s t u : Node F} {c : ℕ} {pc : SetupPc F}

/-- What was not published is not. -/
theorem Node.Unpublished.less (h : s.Unpublished c) (hl : Less s t c) : t.Unpublished c where
  ready := hl.ready h.ready
  channel := hl.channel h.channel
  request id hid := h.request id (hl.request id hid)
  acknowledgement id hid := h.acknowledgement id (hl.acknowledgement id hid)

/-- A connection without a session is nobody's canonical one. -/
theorem Node.Unpublished.canonical (h : s.Unpublished c) (hwf : s.tables.WellFormed) (p : Str) :
    s.tables.peerConnections p ≠ some c := by
  intro hp
  obtain ⟨r, hr, -⟩ := hwf.ready hp
  rw [h.ready] at hr
  cases hr

/-- What was released stays released. -/
theorem Node.Released.less (h : s.Released c) (hl : Less s t c) (hwf : t.tables.WellFormed) :
    t.Released c where
  unpublished := h.unpublished.less hl
  canonical := (h.unpublished.less hl).canonical hwf
  incoming := hl.incoming h.incoming
  outgoing := hl.outgoing h.outgoing
  closed := hl.closed h.closed

/-- A set-up stays of its kind. -/
theorem Node.OfKind.less {kind : Kind} (h : s.OfKind c kind) (hl : Less s t c) :
    t.OfKind c kind := by
  cases kind with
  | incoming => exact hl.outgoing h
  | outgoing p => exact hl.incoming h

/-- A set-up stays in its phase when others give up what they hold. -/
theorem Node.Phase.less (h : s.Phase Clean Contained c pc) (hl : Less s t c) (hwf : t.tables.WellFormed) :
    t.Phase Clean Contained c pc := by
  cases pc with
  | absent => exact ⟨h.1.less hl, hl.incoming h.2.1, hl.outgoing h.2.2⟩
  | negotiating kind => exact ⟨h.1.less hl, h.2.less hl⟩
  | retiring kind session loser pc => exact Node.OfKind.less h hl
  | installing kind session loser => exact Node.OfKind.less h hl
  | retiringPrevious session previous pc => exact hl.outgoing h
  | checking session => exact hl.outgoing h
  | closingPrevious => exact hl.incoming h
  | losing kind winner => exact Node.Released.less h hl hwf
  | failing => exact fun hc => (h hc).less hl hwf
  | failed => exact fun hc => (h hc).less hl hwf
  | ended report =>
      cases report with
      | false => trivial
      | true => exact fun hc => hl.disconnected (h hc)
  | _ => trivial

/-- A step of one routine. -/
theorem Inv.act (h : Inv Clean Contained s) (hsetups : u.setups = s.setups) (hwf : u.tables.WellFormed)
    (hother : ∀ d, d ≠ c → Less s u d) (hphase : u.Phase Clean Contained c pc) :
    Inv Clean Contained (u.setSetup c pc) := by
  refine ⟨hwf, fun d => ?_⟩
  by_cases hd : d = c
  · subst hd
    simp only [Node.setSetup, Function.update_self]
    exact hphase.less { Less.refl u d with } hwf
  · simp only [Node.setSetup, Function.update_of_ne hd, hsetups]
    exact (h.phase d).less { hother d hd with } hwf

/-- A set-up gives something up and moves. -/
theorem Inv.actReduces (h : Inv Clean Contained s) (hr : Reduces s u) (hphase : u.Phase Clean Contained c pc) :
    Inv Clean Contained (u.setSetup c pc) :=
  h.act hr.setups (hr.wellFormed h.wellFormed) (fun d _ => hr.less d) hphase

/-- Something is given up, and no set-up moves. -/
theorem Inv.reduces (h : Inv Clean Contained s) (hr : Reduces s t) : Inv Clean Contained t := by
  refine ⟨hr.wellFormed h.wellFormed, fun d => ?_⟩
  rw [hr.setups]
  exact (h.phase d).less (hr.less d) (hr.wellFormed h.wellFormed)

/-! ## Failures -/

/-- Nothing is pending for the connection any more. -/
theorem not_failPending (s : Node F) (c : ℕ) (id : Str) :
    (s.failPending c).pendingRequests id ≠ some c ∧
      (s.failPending c).pendingAcknowledgements id ≠ some c := by
  refine ⟨fun h => ?_, fun h => ?_⟩
  · simpa using (Option.filter_eq_some_iff.1 h).2
  · simpa using (Option.filter_eq_some_iff.1 h).2

/-- `_run_incoming_connection` leaves the outbound channel, and nothing else. -/
theorem released_finallyIncoming (hwf : s.tables.WellFormed)
    (hout : s.outgoingConnections c = false) :
    (s.finallyIncoming c).Released c ↔ s.channels c = false := by
  refine ⟨fun h => h.unpublished.channel, fun hch => ?_⟩
  have hun : (s.finallyIncoming c).Unpublished c :=
    ⟨SessionTables.deactivateSession_ready_self, hch,
      fun id => (not_failPending _ c id).1, fun id => (not_failPending _ c id).2⟩
  exact ⟨hun, hun.canonical ((reduces_finallyIncoming s c).wellFormed hwf),
    Function.update_self .., hout, Function.update_self ..⟩

/-- Where a set-up stands is nothing it holds. -/
theorem released_setSetup {d : ℕ} : (s.setSetup d pc).Released c ↔ s.Released c := by
  constructor
  · rintro ⟨⟨hr, hch, hreq, hack⟩, hp, hin, hout, hcl⟩
    exact ⟨⟨hr, hch, hreq, hack⟩, hp, hin, hout, hcl⟩
  · rintro ⟨⟨hr, hch, hreq, hack⟩, hp, hin, hout, hcl⟩
    exact ⟨⟨hr, hch, hreq, hack⟩, hp, hin, hout, hcl⟩

/-- `_open_connection` closes its connection, and no more. -/
theorem released_finallyOpen (hwf : s.tables.WellFormed)
    (hin : s.incomingConnections c = false) :
    (s.finallyOpen c).Released c ↔ s.Unpublished c ∧ s.outgoingConnections c = false := by
  unfold Node.finallyOpen
  split
  · rename_i hclosed
    rw [released_setSetup]
    exact ⟨fun h => ⟨h.unpublished, h.outgoing⟩,
      fun h => ⟨h.1, h.1.canonical hwf, hin, h.2, hclosed⟩⟩
  · rw [released_setSetup]
    constructor
    · rintro ⟨⟨hr, hch, hreq, hack⟩, -, -, hout, -⟩
      exact ⟨⟨hr, hch, hreq, hack⟩, hout⟩
    · rintro ⟨⟨hr, hch, hreq, hack⟩, hout⟩
      have hun : s.Unpublished c := ⟨hr, hch, hreq, hack⟩
      exact ⟨⟨hr, hch, hreq, hack⟩, hun.canonical hwf, hin, hout, Function.update_self ..⟩

/-- A failed set-up has released everything if its clean-up withdrew it. -/
theorem released_fail (hwf : s.tables.WellFormed) {kind : Kind} (hkind : s.OfKind c kind) :
    (s.fail c kind).Released c ↔ s.Withdrawn c kind.cleanup := by
  cases kind with
  | incoming =>
      rw [Node.fail, released_setSetup]
      exact released_finallyIncoming hwf hkind
  | outgoing p =>
      rw [Node.fail, released_finallyOpen (s := s.discardOutgoing c) hwf hkind]
      constructor
      · rintro ⟨⟨hr, hch, hreq, hack⟩, -⟩
        exact ⟨hr, hch, hreq, hack⟩
      · rintro ⟨hr, hch, hreq, hack⟩
        exact ⟨⟨hr, hch, hreq, hack⟩, Function.update_self ..⟩

/-- A set-up that fails is closing its connection, or has failed. -/
theorem setups_finallyOpen (s : Node F) (c : ℕ) :
    (s.finallyOpen c).setups c = .failing ∨ (s.finallyOpen c).setups c = .failed := by
  unfold Node.finallyOpen
  split
  · exact Or.inr (Function.update_self ..)
  · exact Or.inl (Function.update_self ..)

/-- The same for both kinds. -/
theorem setups_fail (s : Node F) (c : ℕ) (kind : Kind) :
    (s.fail c kind).setups c = .failing ∨ (s.fail c kind).setups c = .failed := by
  cases kind with
  | incoming => exact Or.inl (Function.update_self ..)
  | outgoing p => exact setups_finallyOpen _ c

/-- The `finally` of `_open_connection`. -/
theorem inv_finallyOpen (h : Inv Clean Contained s)
    (hreleased : Clean → (s.finallyOpen c).Released c) : Inv Clean Contained (s.finallyOpen c) := by
  unfold Node.finallyOpen at hreleased ⊢
  split
  · rename_i hclosed
    rw [if_pos hclosed, released_setSetup] at hreleased
    exact h.actReduces (Reduces.refl s) hreleased
  · rename_i hclosed
    rw [if_neg hclosed, released_setSetup] at hreleased
    exact h.actReduces (reduces_closeConnection s c) hreleased

/-- **A set-up fails.** -/
theorem inv_fail (h : Inv Clean Contained s) {kind : Kind} (hkind : s.OfKind c kind)
    (hclean : Clean → s.Withdrawn c kind.cleanup) : Inv Clean Contained (s.fail c kind) := by
  have hreleased : Clean → (s.fail c kind).Released c := fun hc =>
    (released_fail h.wellFormed hkind).2 (hclean hc)
  cases kind with
  | incoming =>
      rw [Node.fail, released_setSetup] at hreleased
      exact h.actReduces (reduces_finallyIncoming s c) hreleased
  | outgoing p => exact inv_finallyOpen (h.reduces (reduces_discardOutgoing s c)) hreleased

/-! ## Steps -/

/-- The set-up registers its session, or finds out that it cannot. -/
theorem inv_negotiated {peerId : Str} {kind : Kind} {session : ProtocolSession F}
    (h : Inv Clean Contained s) (hun : s.Unpublished c) (hkind : s.OfKind c kind) :
    Inv Clean Contained (s.negotiated peerId c kind session) := by
  unfold Node.negotiated
  split
  · refine inv_fail h hkind fun _ => ?_
    cases kind with
    | incoming => exact hun.channel
    | outgoing p => exact hun
  · rename_i tables selection hselect
    have hkindOf : ∀ {u : Node F}, u.incomingConnections = s.incomingConnections →
        u.outgoingConnections = s.outgoingConnections → u.OfKind c kind := by
      intro u hin hout
      cases kind with
      | incoming => exact (congrFun hout c).trans hkind
      | outgoing p => exact (congrFun hin c).trans hkind
    have hregister : tables.WellFormed → (∀ d r, d ≠ c → tables.ready d = some r →
        s.tables.ready d = some r) → ∀ d, d ≠ c →
        Less s (({ s with tables }).ensureOutboundChannel c) d := by
      intro hwf hready d hd
      refine { Less.refl s d with ready := fun hnone => ?_, channel := fun hfalse => ?_ }
      · refine Option.eq_none_iff_forall_ne_some.2 fun r hr => ?_
        rw [hready d r hd hr] at hnone
        cases hnone
      · simpa [Node.ensureOutboundChannel, Function.update_of_ne hd] using hfalse
    cases SessionTables.selects_of_selectReadyConnection h.wellFormed hun.ready hselect with
    | first hclosed hwf hready hothers =>
        rw [if_pos rfl]
        exact h.act rfl hwf (hregister hwf hothers) (hkindOf rfl rfl)
    | @replaced _ e he hopen hne hwf hready hgone hothers =>
        rw [if_pos rfl]
        have hr := reduces_beginRetire (({ s with tables }).ensureOutboundChannel c) e
        exact h.act hr.setups (hr.wellFormed hwf)
          (fun d hd => (hregister hwf hothers d hd).trans (hr.less d))
          (Node.OfKind.less (hkindOf (u := ({ s with tables }).ensureOutboundChannel c) rfl rfl)
            (hr.less c))
    | @kept e he hopen hne =>
        rw [if_neg hne]
        cases kind with
        | incoming =>
            exact h.actReduces (reduces_finallyIncoming s c)
              ((released_finallyIncoming h.wellFormed hkind).2 hun.channel)
        | outgoing p =>
            have hr := (reduces_discardOutgoing s c).trans (reduces_closeConnection _ c)
            have hun' := hun.less (hr.less c)
            exact h.actReduces hr ⟨hun', hun'.canonical h.wellFormed, hkind,
              Function.update_self .., Function.update_self ..⟩

/-- The table of the manager is nothing that a set-up holds. -/
theorem reduces_manager (s : Node F) (manager : Str → Option ℕ) :
    Reduces s { s with manager } := ⟨rfl, id, fun d => { Less.refl s d with }⟩

/-- **`adopt`**: the incoming connection is installed, or its set-up fails. -/
theorem inv_adopt {session : ProtocolSession F} {loser : Option ℕ} (h : Inv Clean Contained s)
    (hkind : s.OfKind c .incoming)
    (hclean : s.closingPeers session.peerId = true → Clean → s.channels c = false) :
    Inv Clean Contained (s.adopt c session loser) := by
  unfold Node.adopt
  split
  · rename_i hclosing
    exact inv_fail h hkind (hclean hclosing)
  · have hm := reduces_manager s (Function.update s.manager session.peerId (some c))
    split
    · rename_i previous _
      have hr := hm.trans (reduces_beginRetire _ previous)
      exact h.actReduces hr (Node.OfKind.less hkind (hr.less c))
    · exact h.actReduces hm (Node.OfKind.less hkind (hm.less c))

/-- **An outgoing connection is installed**, or its set-up fails. -/
theorem inv_install {p : Str} (h : Inv Clean Contained s) (hkind : s.OfKind c (.outgoing p))
    (hclean : s.closingPeers p = true → Clean →
      s.Unpublished c ∧ s.outgoingConnections c = false) :
    Inv Clean Contained (s.install c p) := by
  unfold Node.install
  split
  · rename_i hclosing
    exact inv_finallyOpen h fun hc =>
      (released_finallyOpen h.wellFormed hkind).2 (hclean hclosing hc)
  · have hm := reduces_manager s (Function.update s.manager p (some c))
    split
    · rename_i previous _
      have hr := hm.trans (reduces_closeConnection _ previous)
      exact h.actReduces hr (hr.less c |>.incoming hkind)
    · exact h.actReduces hm trivial

/-- The connection that won is installed for the one that lost. -/
theorem inv_installWinner {p : Str} {winner : ℕ} (h : Inv Clean Contained s) (hreleased : s.Released c) :
    Inv Clean Contained (s.installWinner c p winner) := by
  unfold Node.installWinner
  split
  · exact h.actReduces (Reduces.refl s) fun _ => hreleased
  · have hm := reduces_manager s (Function.update s.manager p (some winner))
    split
    · rename_i previous _
      have hr := hm.trans (reduces_closeConnection _ previous)
      exact h.actReduces hr fun _ => hreleased.less (hr.less c) (hr.wellFormed h.wellFormed)
    · exact h.actReduces hm fun _ => hreleased.less (hm.less c) (hm.wellFormed h.wellFormed)

/-- **The reader starts**, or the set-up ends. -/
theorem inv_startReading {session : ProtocolSession F} (h : Inv Clean Contained s)
    (hkind : s.OfKind c .incoming)
    (hclean : s.tables.peerConnections session.peerId ≠ some c → Clean → s.channels c = false) :
    Inv Clean Contained (s.startReading c session) := by
  unfold Node.startReading
  split
  · exact h.actReduces (Reduces.refl s) trivial
  · rename_i hlost
    have hr := reduces_connectionLost s session.peerId c
    exact inv_fail (h.reduces hr) (Node.OfKind.less hkind (hr.less c))
      fun hc => (hr.less c).channel (hclean hlost hc)

/-- The end of a reader, up to the close of its channel. -/
theorem reduces_beginEnd (s : Node F) (c : ℕ) :
    Reduces s ((((s.deactivate c).discardIncoming c).discardOutgoing c).failPending c) :=
  (((reduces_deactivate s c).trans (reduces_discardIncoming _ c)).trans
    (reduces_discardOutgoing _ c)).trans (reduces_failPending _ c)

/-- The end of a reader, from there on. -/
theorem reduces_endConnection (s : Node F) (c : ℕ) (p : Str) :
    Reduces s (((s.closeOutboundChannel c).connectionLost p c).closeConnection c) :=
  ((reduces_closeOutboundChannel s c).trans (reduces_connectionLost _ p c)).trans
    (reduces_closeConnection _ c)

/-- The end of a session is reported. -/
theorem reduces_reportEnd (s : Node F) (c : ℕ) (session : ProtocolSession F) (report : Bool) :
    Reduces s (s.reportEnd c session report) := by
  unfold Node.reportEnd
  split
  · exact ⟨rfl, id, fun d => { Less.refl s d with
      disconnected := fun hd => List.mem_append_left _ hd }⟩
  · exact Reduces.refl s

/-- **A set-up goes on.** -/
theorem inv_resume (h : Inv Clean Contained s) (hclean : Clean → FailsWithdrawn s (.resume c))
    (hs : s.resume c = some t) : Inv Clean Contained t := by
  have hphase := h.phase c
  unfold Node.resume at hs
  split at hs <;> rename_i hpc <;> try cases hs
  all_goals rw [hpc] at hphase
  · exact h.actReduces (reduces_endRetire s _)
      (Node.OfKind.less hphase ((reduces_endRetire s _).less c))
  · exact h.actReduces (Reduces.refl s) hphase
  · exact inv_adopt h hphase fun hclosing hc =>
      hclean hc c .incoming (by simp [cleanupOf, hpc, hclosing])
  · exact inv_install h hphase fun hclosing hc =>
      hclean hc c .opening (by simp [cleanupOf, hpc, hclosing])
  · have hkind : s.OfKind c .incoming := hphase
    exact h.actReduces (reduces_endRetire s _) (hkind.less ((reduces_endRetire s _).less c))
  · exact h.actReduces (Reduces.refl s) hphase
  · exact inv_startReading h hphase fun hlost hc =>
      hclean hc c .incoming (by simp [cleanupOf, hpc, hlost])
  · exact h.actReduces (Reduces.refl s) trivial
  · exact h.actReduces (Reduces.refl s) fun _ => hphase
  · exact inv_installWinner h hphase
  · exact h.actReduces (Reduces.refl s) hphase
  · exact h.actReduces (reduces_endConnection s c _) trivial
  · rename_i session report
    refine h.actReduces (reduces_reportEnd s c session report) ?_
    cases report with
    | false => trivial
    | true => exact fun _ => List.mem_append_right _ (List.mem_singleton_self c)

/-- **A set-up raises.** -/
theorem inv_raise (h : Inv Clean Contained s) (hclean : Clean → FailsWithdrawn s (.fails c))
    (hcontained : Contained → ClosesContained s (.fails c))
    (hs : s.raise c = some t) : Inv Clean Contained t := by
  have hphase := h.phase c
  unfold Node.raise at hs
  split at hs <;> rename_i hpc <;> try cases hs
  all_goals rw [hpc] at hphase
  · rename_i kind
    refine inv_fail h hphase.2 fun _ => ?_
    cases kind with
    | incoming => exact hphase.1.channel
    | outgoing p => exact hphase.1
  · exact inv_fail h hphase fun hc => hclean hc c _ (by simp [cleanupOf, hpc])
  · exact inv_fail h hphase fun hc => hclean hc c _ (by simp [cleanupOf, hpc, Kind.cleanup])
  · exact inv_finallyOpen h fun hc => (released_finallyOpen h.wellFormed hphase).2
      (hclean hc c .opening (by simp [cleanupOf, hpc]))
  · exact h.actReduces (Reduces.refl s) fun _ => hphase
  · exact h.actReduces (Reduces.refl s) hphase
  · rename_i session report
    refine h.actReduces (Reduces.refl s) ?_
    cases report with
    | false => trivial
    | true => exact fun hc => absurd hpc (hcontained hc c session rfl)

/-- A correlation is registered for a connection with a session. -/
theorem inv_register (h : Inv Clean Contained s) (hsetups : t.setups = s.setups) (htables : t.tables = s.tables)
    (hready : s.tables.ready c ≠ none) (hin : t.incomingConnections = s.incomingConnections)
    (hout : t.outgoingConnections = s.outgoingConnections)
    (hdisc : ∀ {d}, d ∈ s.disconnected → d ∈ t.disconnected)
    (hother : ∀ d, d ≠ c → Less s t d) : Inv Clean Contained t := by
  have hwf : t.tables.WellFormed := htables ▸ h.wellFormed
  refine ⟨hwf, fun d => ?_⟩
  rw [hsetups]
  by_cases hd : d = c
  · subst hd
    have hphase := h.phase d
    have hkindOf : ∀ kind, s.OfKind d kind → t.OfKind d kind := by
      intro kind hk
      cases kind with
      | incoming => exact (congrFun hout d).trans hk
      | outgoing p => exact (congrFun hin d).trans hk
    cases hpc : s.setups d <;> rw [hpc] at hphase
    case absent => exact absurd hphase.1.ready hready
    case negotiating kind => exact absurd hphase.1.ready hready
    case retiring kind session loser pc => exact hkindOf kind hphase
    case installing kind session loser => exact hkindOf kind hphase
    case retiringPrevious session previous pc => exact hkindOf .incoming hphase
    case checking session => exact hkindOf .incoming hphase
    case closingPrevious => exact (congrFun hin d).trans hphase
    case losing kind winner => exact absurd (Node.Released.unpublished hphase).ready hready
    case failing => exact fun hc => absurd (hphase hc).unpublished.ready hready
    case failed => exact fun hc => absurd (hphase hc).unpublished.ready hready
    case ended report =>
      cases report with
      | false => trivial
      | true => exact fun hc => hdisc (hphase hc)
    all_goals trivial
  · exact (h.phase d).less (hother d hd) hwf

/-- **Every step keeps the invariant.** -/
theorem inv_step {peerId : Str} {l : Label F} (h : Inv Clean Contained s)
    (hclean : Clean → FailsWithdrawn s l) (hcontained : Contained → ClosesContained s l)
    (hs : step peerId s l = some t) : Inv Clean Contained t := by
  cases l with
  | accept c =>
      simp only [step] at hs
      split at hs <;> cases hs
      rename_i hpc
      have hphase := h.phase c
      rw [hpc] at hphase
      refine h.act rfl h.wellFormed (fun d hd => { Less.refl s d with incoming := fun hin => ?_ })
        ⟨⟨hphase.1.ready, hphase.1.channel, hphase.1.request, hphase.1.acknowledgement⟩, hphase.2.2⟩
      simpa [Function.update_of_ne hd] using hin
  | opened c p =>
      simp only [step] at hs
      split at hs <;> cases hs
      rename_i hpc
      have hphase := h.phase c
      rw [hpc] at hphase
      refine h.act rfl h.wellFormed (fun d hd => { Less.refl s d with outgoing := fun hout => ?_ })
        ⟨⟨hphase.1.ready, hphase.1.channel, hphase.1.request, hphase.1.acknowledgement⟩, hphase.2.1⟩
      simpa [Function.update_of_ne hd] using hout
  | negotiated c session =>
      have hphase := h.phase c
      simp only [step] at hs
      split at hs
      · rename_i hpc
        rw [hpc] at hphase
        cases hs
        exact inv_negotiated h hphase.1 hphase.2
      · rename_i p hpc
        rw [hpc] at hphase
        split at hs <;> cases hs
        exact inv_negotiated h hphase.1 hphase.2
      · cases hs
  | resume c => exact inv_resume h hclean hs
  | fails c => exact inv_raise h hclean hcontained hs
  | startReader c =>
      simp only [step] at hs
      split at hs <;> cases hs
      exact h.actReduces (Reduces.refl s) trivial
  | readerEnds c =>
      simp only [step] at hs
      split at hs <;> cases hs
      exact h.actReduces (reduces_beginEnd s c) trivial
  | registerRequest id c =>
      simp only [step] at hs
      split at hs <;> cases hs
      rename_i hguard
      rw [Bool.and_eq_true, Option.isSome_iff_ne_none] at hguard
      refine inv_register h rfl rfl hguard.1 rfl rfl (fun hd => hd) fun d hd =>
        { Less.refl s d with request := fun id' hid => ?_ }
      simp only [Function.update_apply] at hid
      split at hid
      · exact absurd (Option.some.inj hid).symm hd
      · exact hid
  | registerAcknowledgement id c =>
      simp only [step] at hs
      split at hs <;> cases hs
      rename_i hguard
      rw [Bool.and_eq_true, Option.isSome_iff_ne_none] at hguard
      refine inv_register h rfl rfl hguard.1 rfl rfl (fun hd => hd) fun d hd =>
        { Less.refl s d with acknowledgement := fun id' hid => ?_ }
      simp only [Function.update_apply] at hid
      split at hid
      · exact absurd (Option.some.inj hid).symm hd
      · exact hid
  | resolveRequest id =>
      cases hs
      refine h.reduces ⟨rfl, fun hwf => hwf, fun d =>
        { Less.refl s d with request := fun id' hid => ?_ }⟩
      simp only [Function.update_apply] at hid
      split at hid
      · cases hid
      · exact hid
  | resolveAcknowledgement id =>
      cases hs
      refine h.reduces ⟨rfl, fun hwf => hwf, fun d =>
        { Less.refl s d with acknowledgement := fun id' hid => ?_ }⟩
      simp only [Function.update_apply] at hid
      split at hid
      · cases hid
      · exact hid
  | deactivate c => cases hs; exact h.reduces (reduces_deactivate s c)
  | failPending c => cases hs; exact h.reduces (reduces_failPending s c)
  | closeOutboundChannel c => cases hs; exact h.reduces (reduces_closeOutboundChannel s c)
  | discard c =>
      cases hs
      exact h.reduces ((reduces_discardIncoming s c).trans (reduces_discardOutgoing _ c))
  | connectionLost p c => cases hs; exact h.reduces (reduces_connectionLost s p c)
  | close c => cases hs; exact h.reduces (reduces_closeConnection s c)
  | closePeer p =>
      cases hs
      exact h.reduces ⟨rfl, fun hwf => hwf, fun d => { Less.refl s d with }⟩
  | endClosePeer p =>
      cases hs
      exact h.reduces ⟨rfl, fun hwf => hwf, fun d => { Less.refl s d with }⟩

/-- No connection is there. -/
theorem inv_initial : Inv Clean Contained (initial : Node F) where
  wellFormed := SessionTables.WellFormed.empty
  phase _ := ⟨⟨rfl, rfl, nofun, nofun⟩, rfl, rfl⟩

end Phase

end SessionSetup
end Core
end Paqto
