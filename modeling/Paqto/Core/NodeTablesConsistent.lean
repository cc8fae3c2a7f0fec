/-
# The session tables stay consistent

In every state the first three tables have the same keys, each the address of the
connection stored under it, and `_peer_connections` is the index of the sessions by
peer id.  So no lookup fails and `_connection_for_reply` never finds two
connections (`tables_consistent`).

The `SessionTables` of the other models have one table by connection.  Over every run
the tables of the node are those of such a table that takes the same steps
(`tables_refine`).
-/

import Paqto.Core.NodeTables

namespace Paqto
namespace Core
namespace NodeTables

open Python Transition

variable {F : Type} {peerId : Str} {s : NodeTables F} {c key : ℕ}

/-! ## The invariant -/

/-- The connection is READY: its key is in the tables, with a session. -/
def Ready (s : NodeTables F) (c : ℕ) (session : ProtocolSession F) : Prop :=
  ∃ key, s.ids.get? c = some key ∧ s.sessionConnections.get? key = some c ∧
    s.sessions.get? key = some session

/-- What holds in every run of the tables. -/
structure Inv (peerId : Str) (s : NodeTables F) : Prop where
  fresh : ∀ c key, s.ids.get? c = some key → c < s.nextConnection
  /-- Living connections have different addresses. -/
  distinct : ∀ c d key, s.ids.get? c = some key → s.ids.get? d = some key → c = d
  keyed : ∀ key c, s.sessionConnections.get? key = some c → s.ids.get? c = some key
  sessions : ∀ key, s.sessions.get? key = none ↔ s.sessionConnections.get? key = none
  directions : ∀ key, s.sessionDirections.get? key = none ↔ s.sessionConnections.get? key = none
  peers : ∀ p c, s.peerConnections.get? p = some c ↔ ∃ session, s.Ready c session ∧ session.peerId = p
  remote : ∀ c session, s.Ready c session → session.peerId ≠ peerId
  chosen : ∀ key c, s.sessionConnections.get? key = some c → s.selected c = true

/-- They are empty. -/
theorem inv_initial : Inv peerId (initial : NodeTables F) where
  fresh := nofun
  distinct := nofun
  keyed := nofun
  sessions _ := iff_of_true rfl rfl
  directions _ := iff_of_true rfl rfl
  peers p c := by
    refine iff_of_false nofun ?_
    rintro ⟨_, ⟨_, h, _⟩, _⟩
    cases h
  remote := by
    rintro c session ⟨_, h, _⟩
    cases h
  chosen := nofun

/-- A living connection is the only one under its address. -/
theorem Inv.eq_of_key (h : Inv peerId s) {d : ℕ} (hc : s.ids.get? c = some key)
    (hd : s.sessionConnections.get? key = some d) : d = c :=
  h.distinct d c key (h.keyed key d hd) hc

/-- The session under the address of a living connection is its own. -/
theorem Inv.ready_of_session (h : Inv peerId s) (hc : s.ids.get? c = some key)
    {session : ProtocolSession F} (hs : s.sessions.get? key = some session) : s.Ready c session := by
  obtain ⟨d, hd⟩ : ∃ d, s.sessionConnections.get? key = some d := by
    rw [← Option.ne_none_iff_exists', ne_eq, ← h.sessions, hs]
    simp
  obtain rfl := h.eq_of_key hc hd
  exact ⟨key, hc, hd, hs⟩

/-- A READY connection has one session. -/
theorem Ready.unique {session session' : ProtocolSession F} (h : s.Ready c session)
    (h' : s.Ready c session') : session = session' := by
  obtain ⟨key, hid, -, hs⟩ := h
  obtain ⟨key', hid', -, hs'⟩ := h'
  obtain rfl := Option.some.inj (hid.symm.trans hid')
  exact Option.some.inj (hs.symm.trans hs')

/-- **At most one session a peer.** -/
theorem Inv.eq_of_peerId (h : Inv peerId s) {d : ℕ} {session session' : ProtocolSession F}
    (hc : s.Ready c session) (hd : s.Ready d session') (heq : session.peerId = session'.peerId) :
    c = d := by
  have hpc := (h.peers session'.peerId c).2 ⟨session, hc, heq⟩
  have hpd := (h.peers session'.peerId d).2 ⟨session', hd, rfl⟩
  exact Option.some.inj (hpc.symm.trans hpd)

/-! ## Deactivation -/

/-- `_deactivate_session` keeps the ids. -/
@[simp] theorem deactivateSession_ids (s : NodeTables F) (key c : ℕ) :
    (s.deactivateSession key c).ids = s.ids := by
  unfold deactivateSession
  split
  · split <;> rfl
  · rfl

/-- It drops the session. -/
@[simp] theorem deactivateSession_sessions (s : NodeTables F) (key c : ℕ) :
    (s.deactivateSession key c).sessions = s.sessions.erase key := by
  unfold deactivateSession
  split
  · split <;> rfl
  · rfl

/-- It drops the connection of the session. -/
@[simp] theorem deactivateSession_sessionConnections (s : NodeTables F) (key c : ℕ) :
    (s.deactivateSession key c).sessionConnections = s.sessionConnections.erase key := by
  unfold deactivateSession
  split
  · split <;> rfl
  · rfl

/-- It drops its direction. -/
@[simp] theorem deactivateSession_sessionDirections (s : NodeTables F) (key c : ℕ) :
    (s.deactivateSession key c).sessionDirections = s.sessionDirections.erase key := by
  unfold deactivateSession
  split
  · split <;> rfl
  · rfl

/-- It keeps the selections. -/
@[simp] theorem deactivateSession_selected (s : NodeTables F) (key c : ℕ) :
    (s.deactivateSession key c).selected = s.selected := by
  unfold deactivateSession
  split
  · split <;> rfl
  · rfl

/-- It keeps the counter. -/
@[simp] theorem deactivateSession_nextConnection (s : NodeTables F) (key c : ℕ) :
    (s.deactivateSession key c).nextConnection = s.nextConnection := by
  unfold deactivateSession
  split
  · split <;> rfl
  · rfl

/-- The other connections stay READY, and no others. -/
theorem ready_deactivateSession (h : Inv peerId s) (hc : s.ids.get? c = some key) {d : ℕ}
    {session : ProtocolSession F} :
    (s.deactivateSession key c).Ready d session ↔ d ≠ c ∧ s.Ready d session := by
  unfold Ready
  simp only [deactivateSession_ids, deactivateSession_sessionConnections,
    deactivateSession_sessions, Dict.get?_erase]
  constructor
  · rintro ⟨k, hid, hconn, hs⟩
    by_cases hk : k = key
    · rw [if_pos hk] at hconn
      cases hconn
    · rw [if_neg hk] at hconn hs
      refine ⟨?_, k, hid, hconn, hs⟩
      rintro rfl
      exact hk (Option.some.inj (hid.symm.trans hc))
  · rintro ⟨hne, k, hid, hconn, hs⟩
    have hk : k ≠ key := by
      rintro rfl
      exact hne (h.eq_of_key hc hconn)
    exact ⟨k, hid, by rw [if_neg hk, hconn], by rw [if_neg hk, hs]⟩

/-- It drops the canonical entry of its connection only. -/
theorem peerConnections_deactivateSession (h : Inv peerId s) (hc : s.ids.get? c = some key)
    (p : Str) (d : ℕ) :
    (s.deactivateSession key c).peerConnections.get? p = some d ↔
      d ≠ c ∧ s.peerConnections.get? p = some d := by
  unfold deactivateSession
  cases hs : s.sessions.get? key with
  | none =>
      refine ⟨fun hp => ⟨?_, hp⟩, And.right⟩
      rintro rfl
      obtain ⟨session, ⟨k, hid, -, hk⟩, -⟩ := (h.peers p d).1 hp
      obtain rfl := Option.some.inj (hc.symm.trans hid)
      rw [hs] at hk
      cases hk
  | some session =>
      have hready := h.ready_of_session hc hs
      have hpeer := (h.peers session.peerId c).2 ⟨session, hready, rfl⟩
      simp only [hpeer, if_true, Dict.get?_erase]
      by_cases hp : p = session.peerId
      · subst hp
        rw [if_pos rfl, hpeer]
        refine iff_of_false (by rintro ⟨⟩) ?_
        rintro ⟨hne, heq⟩
        exact hne (Option.some.inj heq).symm
      · rw [if_neg hp]
        refine ⟨fun hd => ⟨?_, hd⟩, And.right⟩
        rintro rfl
        obtain ⟨session', hready', hp'⟩ := (h.peers p d).1 hd
        obtain rfl := hready.unique hready'
        exact hp hp'.symm

/-- A peer has no canonical connection when that was deactivated. -/
theorem peerConnections_deactivated (h : Inv peerId s) (hc : s.ids.get? c = some key) {p : Str}
    (hp : s.peerConnections.get? p = some c) :
    (s.deactivateSession key c).peerConnections.get? p = none := by
  rw [← Option.not_isSome_iff_eq_none, Option.isSome_iff_exists]
  rintro ⟨d, hd⟩
  obtain ⟨hne, hold⟩ := (peerConnections_deactivateSession h hc p d).1 hd
  exact hne (Option.some.inj (hold.symm.trans hp))

/-- **Deactivation keeps the tables consistent.** -/
theorem Inv.deactivateSession (h : Inv peerId s) (hc : s.ids.get? c = some key) :
    Inv peerId (s.deactivateSession key c) where
  fresh := by simpa using h.fresh
  distinct := by simpa using h.distinct
  keyed k d hd := by
    rw [deactivateSession_sessionConnections, Dict.get?_erase] at hd
    split at hd
    · cases hd
    · rw [deactivateSession_ids]
      exact h.keyed k d hd
  sessions k := by
    simp only [deactivateSession_sessions, deactivateSession_sessionConnections, Dict.get?_erase]
    split
    · exact iff_of_true rfl rfl
    · exact h.sessions k
  directions k := by
    simp only [deactivateSession_sessionDirections, deactivateSession_sessionConnections,
      Dict.get?_erase]
    split
    · exact iff_of_true rfl rfl
    · exact h.directions k
  peers p d := by
    simp only [peerConnections_deactivateSession h hc, ready_deactivateSession h hc, h.peers,
      and_assoc, exists_and_left]
  remote d session hd := h.remote d session ((ready_deactivateSession h hc).1 hd).2
  chosen k d hd := by
    rw [deactivateSession_sessionConnections, Dict.get?_erase] at hd
    split at hd
    · cases hd
    · rw [deactivateSession_selected]
      exact h.chosen k d hd

/-! ## Registration -/

/-- The new connection is READY, and the others stay so. -/
theorem ready_registerSession (h : Inv peerId s) (hc : s.ids.get? c = some key)
    {session session' : ProtocolSession F} {direction : Direction} {d : ℕ} :
    (s.registerSession key c session direction).Ready d session' ↔
      d = c ∧ session' = session ∨ d ≠ c ∧ s.Ready d session' := by
  simp only [Ready, registerSession, Dict.get?_set]
  constructor
  · rintro ⟨k, hid, hconn, hs⟩
    by_cases hk : k = key
    · rw [if_pos hk] at hconn hs
      exact .inl ⟨(Option.some.inj hconn).symm, (Option.some.inj hs).symm⟩
    · rw [if_neg hk] at hconn hs
      refine .inr ⟨?_, k, hid, hconn, hs⟩
      rintro rfl
      exact hk (Option.some.inj (hid.symm.trans hc))
  · rintro (⟨rfl, rfl⟩ | ⟨hne, k, hid, hconn, hs⟩)
    · exact ⟨key, hc, if_pos rfl, if_pos rfl⟩
    · have hk : k ≠ key := by
        rintro rfl
        exact hne (h.eq_of_key hc hconn)
      exact ⟨k, hid, by rw [if_neg hk, hconn], by rw [if_neg hk, hs]⟩

/-- **Registration keeps the tables consistent**: of a connection that was selected
now, for a peer without a canonical connection. -/
theorem Inv.registerSession (h : Inv peerId s) (hc : s.ids.get? c = some key)
    (hnew : s.sessionConnections.get? key = none) (hselected : s.selected c = true)
    {session : ProtocolSession F} (hremote : session.peerId ≠ peerId)
    (hpeer : s.peerConnections.get? session.peerId = none) (direction : Direction) :
    Inv peerId (s.registerSession key c session direction) where
  fresh := h.fresh
  distinct := h.distinct
  keyed k d hd := by
    change (s.sessionConnections.set key c).get? k = some d at hd
    rw [Dict.get?_set] at hd
    split at hd
    · next hk =>
        obtain rfl := Option.some.inj hd
        exact hk ▸ hc
    · exact h.keyed k d hd
  sessions k := by
    change (s.sessions.set key session).get? k = none ↔ (s.sessionConnections.set key c).get? k = none
    rw [Dict.get?_set, Dict.get?_set]
    split
    · exact iff_of_false (Option.some_ne_none _) (Option.some_ne_none _)
    · exact h.sessions k
  directions k := by
    change (s.sessionDirections.set key direction).get? k = none ↔
      (s.sessionConnections.set key c).get? k = none
    rw [Dict.get?_set, Dict.get?_set]
    split
    · exact iff_of_false (Option.some_ne_none _) (Option.some_ne_none _)
    · exact h.directions k
  peers p d := by
    change (s.peerConnections.set session.peerId c).get? p = some d ↔ _
    have hnone : ∀ session', ¬ s.Ready c session' := by
      rintro session' ⟨k, hid, hconn, -⟩
      obtain rfl := Option.some.inj (hc.symm.trans hid)
      rw [hnew] at hconn
      cases hconn
    simp only [ready_registerSession h hc, Dict.get?_set]
    split
    · next hp =>
        subst hp
        rw [Option.some.injEq]
        constructor
        · rintro rfl
          exact ⟨session, .inl ⟨rfl, rfl⟩, rfl⟩
        · rintro ⟨session', ⟨rfl, -⟩ | ⟨-, hd⟩, heq⟩
          · rfl
          · rw [(h.peers session.peerId d).2 ⟨session', hd, heq⟩] at hpeer
            cases hpeer
    · next hp =>
        rw [h.peers]
        constructor
        · rintro ⟨session', hd, heq⟩
          refine ⟨session', .inr ⟨?_, hd⟩, heq⟩
          rintro rfl
          exact hnone session' hd
        · rintro ⟨session', ⟨-, rfl⟩ | ⟨-, hd⟩, heq⟩
          · exact absurd heq.symm hp
          · exact ⟨session', hd, heq⟩
  remote d session' hd := by
    rcases (ready_registerSession h hc).1 hd with ⟨-, rfl⟩ | ⟨-, hd⟩
    · exact hremote
    · exact h.remote d session' hd
  chosen k d hd := by
    change (s.sessionConnections.set key c).get? k = some d at hd
    rw [Dict.get?_set] at hd
    split at hd
    · obtain rfl := Option.some.inj hd
      exact hselected
    · exact h.chosen k d hd

/-! ## Selection -/

/-- The canonical connection that selection finds, if it is open. -/
theorem openExisting_spec (h : Inv peerId s) (isClosed : ℕ → Bool) (remote : Str) :
    Inv peerId (s.openExisting isClosed remote).1 ∧
      (s.openExisting isClosed remote).1.ids = s.ids ∧
      (s.openExisting isClosed remote).1.selected = s.selected ∧
      (∀ k, s.sessionConnections.get? k = none →
        (s.openExisting isClosed remote).1.sessionConnections.get? k = none) ∧
      (s.openExisting isClosed remote).1.peerConnections.get? remote =
        (s.openExisting isClosed remote).2 := by
  unfold openExisting
  cases hp : s.peerConnections.get? remote with
  | none => exact ⟨h, rfl, rfl, fun _ hk => hk, hp⟩
  | some existing =>
      obtain ⟨session, ⟨key, hid, -, -⟩, -⟩ := (h.peers remote existing).1 hp
      simp only [hid, Option.elim_some]
      cases isClosed existing with
      | false => exact ⟨h, rfl, rfl, fun _ hk => hk, hp⟩
      | true =>
          refine ⟨h.deactivateSession hid, by simp, by simp, fun k hk => ?_, ?_⟩
          · simp only [if_true, deactivateSession_sessionConnections, Dict.get?_erase, hk, ite_self]
          · exact peerConnections_deactivated h hid hp

/-- **Selection keeps the tables consistent**, and its lookups do not fail. -/
theorem selectReadyConnection_spec (h : Inv peerId s) (isClosed : ℕ → Bool)
    (hc : s.ids.get? c = some key) (hnew : s.sessionConnections.get? key = none)
    (hselected : s.selected c = true) (session : ProtocolSession F) (direction : Direction) :
    s.selectReadyConnection peerId isClosed key c session direction = .error .peerIdentityMismatch ∨
      ∃ u sel, s.selectReadyConnection peerId isClosed key c session direction = .ok (u, sel) ∧
        Inv peerId u := by
  unfold selectReadyConnection
  split
  · exact .inl rfl
  · next hremote =>
      obtain ⟨ht, hids, hsel, hnone, hpeer⟩ := openExisting_spec h isClosed session.peerId
      refine .inr ?_
      rw [← hids] at hc
      rw [← hsel] at hselected
      split
      · next t hopen =>
          rw [hopen] at ht hc hselected hpeer hnone
          exact ⟨_, _, rfl, ht.registerSession hc (hnone key hnew) hselected hremote hpeer direction⟩
      · next t existing hopen =>
          rw [hopen] at ht hc hselected hpeer hnone
          split
          · exact ⟨_, _, rfl, ht⟩
          · next hne =>
              obtain ⟨found, hready, hfound⟩ := (ht.peers session.peerId existing).1 hpeer
              obtain ⟨k, hid, hconn, -⟩ := hready
              obtain ⟨existingDirection, hdir⟩ : ∃ d, t.sessionDirections.get? k = some d := by
                rw [← Option.ne_none_iff_exists', ne_eq, ht.directions, hconn]
                simp
              simp only [hid, Option.bind_some, hdir, Option.map_some]
              split
              · refine ⟨_, _, rfl, Inv.registerSession (ht.deactivateSession hid) ?_ ?_ ?_ hremote ?_ _⟩
                · rw [deactivateSession_ids]
                  exact hc
                · rw [deactivateSession_sessionConnections, Dict.get?_erase, hnone key hnew, ite_self]
                · rw [deactivateSession_selected]
                  exact hselected
                · exact peerConnections_deactivated ht hid hpeer
              · exact ⟨_, _, rfl, ht⟩

/-! ## Runs -/

/-- `disconnect` -/
theorem Inv.disconnect (h : Inv peerId s) (remote : Str) : Inv peerId (s.disconnect remote) := by
  unfold NodeTables.disconnect
  cases hp : s.peerConnections.get? remote with
  | none => exact h
  | some c =>
      obtain ⟨session, ⟨key, hid, -, -⟩, -⟩ := (h.peers remote c).1 hp
      simp only [hid, Option.elim_some]
      exact h.deactivateSession hid

/-- Connections come and go; those in the tables keep their address. -/
theorem Inv.withIds (h : Inv peerId s) {ids : Dict ℕ ℕ} {n : ℕ}
    (hfresh : ∀ c key, ids.get? c = some key → c < n)
    (hdistinct : ∀ c d key, ids.get? c = some key → ids.get? d = some key → c = d)
    (hkeep : ∀ key c, s.sessionConnections.get? key = some c → ids.get? c = some key) :
    Inv peerId { s with ids, nextConnection := n } := by
  have hready : ∀ d session, ({ s with ids, nextConnection := n } : NodeTables F).Ready d session ↔
      s.Ready d session := by
    refine fun d session => ⟨?_, ?_⟩
    · rintro ⟨k, -, hconn, hsession⟩
      exact ⟨k, h.keyed k d hconn, hconn, hsession⟩
    · rintro ⟨k, -, hconn, hsession⟩
      exact ⟨k, hkeep k d hconn, hconn, hsession⟩
  refine ⟨hfresh, hdistinct, hkeep, h.sessions, h.directions, fun p d => ?_, fun d session hd => ?_,
    h.chosen⟩
  · simp only [hready]
    exact h.peers p d
  · exact h.remote d session ((hready d session).1 hd)

/-- Selection runs for the connection. -/
theorem Inv.setSelected (h : Inv peerId s) (c : ℕ) :
    Inv peerId { s with selected := Function.update s.selected c true } := by
  refine ⟨h.fresh, h.distinct, h.keyed, h.sessions, h.directions, h.peers, h.remote,
    fun k d hd => ?_⟩
  change Function.update s.selected c true d = true
  rw [Function.update_apply]
  split
  · rfl
  · exact h.chosen k d hd

/-- **Every step keeps the tables consistent.** -/
theorem Inv.step (h : Inv peerId s) {l : Label F} {t : NodeTables F}
    (hs : NodeTables.step peerId s l = some t) : Inv peerId t := by
  cases l with
  | opened id =>
      simp only [NodeTables.step] at hs
      split at hs
      · cases hs
      · next hfree =>
          cases hs
          have hget : ∀ d, (s.ids.set s.nextConnection id).get? d =
              if d = s.nextConnection then some id else s.ids.get? d := fun d => Dict.get?_set ..
          have hne : ∀ d k, s.ids.get? d = some k → k ≠ id := by
            rintro d k hd rfl
            exact hfree (List.mem_map.2 ⟨_, (s.ids.mem_items_iff).2 hd, rfl⟩)
          refine h.withIds (fun d k hd => ?_) (fun d e k hd he => ?_) fun k d hd => ?_
          · rw [hget] at hd
            split at hd
            · next heq => exact heq ▸ Nat.lt_succ_self _
            · exact Nat.lt_succ_of_lt (h.fresh d k hd)
          · rw [hget] at hd he
            split at hd <;> split at he
            · next hdn hen => rw [hdn, hen]
            · exact absurd (Option.some.inj hd).symm (hne e k he)
            · exact absurd (Option.some.inj he).symm (hne d k hd)
            · exact h.distinct d e k hd he
          · have hid := h.keyed k d hd
            rw [hget, if_neg (Nat.ne_of_lt (h.fresh d k hid)), hid]
  | freed c =>
      simp only [NodeTables.step] at hs
      split at hs
      · cases hs
      · next hheld =>
          cases hs
          have hnot : ∀ k, s.sessionConnections.get? k ≠ some c := by
            intro k hk
            refine hheld ?_
            have hmem : c ∈ s.sessionConnections.items.map Prod.snd :=
              List.mem_map.2 ⟨_, (s.sessionConnections.mem_items_iff).2 hk, rfl⟩
            simp [holds, hmem]
          have hget : ∀ d, (s.ids.erase c).get? d = if d = c then none else s.ids.get? d :=
            fun d => Dict.get?_erase ..
          have hof : ∀ d k, (s.ids.erase c).get? d = some k → s.ids.get? d = some k := by
            intro d k hd
            rw [hget] at hd
            split at hd
            · cases hd
            · exact hd
          refine h.withIds (fun d k hd => h.fresh d k (hof d k hd))
            (fun d e k hd he => h.distinct d e k (hof d k hd) (hof e k he)) fun k d hd => ?_
          rw [hget, if_neg ?_, h.keyed k d hd]
          rintro rfl
          exact hnot k hd
  | select c session direction isClosed =>
      simp only [NodeTables.step] at hs
      split at hs
      · cases hs
      · next key hid =>
          split at hs
          · cases hs
          · next hsel =>
              have ht := h.setSelected c
              have hnew : s.sessionConnections.get? key = none := by
                rw [← Option.not_isSome_iff_eq_none, Option.isSome_iff_exists]
                rintro ⟨d, hd⟩
                obtain rfl := h.eq_of_key hid hd
                exact hsel (h.chosen key d hd)
              rcases selectReadyConnection_spec ht isClosed hid hnew (Function.update_self ..) session
                direction with herr | ⟨u, sel, hok, hu⟩
              · rw [herr] at hs
                exact Option.some.inj hs ▸ ht
              · rw [hok] at hs
                exact Option.some.inj hs ▸ hu
  | deactivate c =>
      obtain ⟨key, hid, rfl⟩ := Option.map_eq_some_iff.1 hs
      exact h.deactivateSession hid
  | disconnect remote =>
      cases hs
      exact h.disconnect remote
  | stop =>
      cases hs
      refine ⟨h.fresh, h.distinct, fun k d hd => (by cases hd), fun _ => iff_of_true rfl rfl,
        fun _ => iff_of_true rfl rfl, fun p d => iff_of_false (fun hd => by cases hd) ?_, ?_,
        fun k d hd => (by cases hd)⟩
      · rintro ⟨_, ⟨_, _, hconn, _⟩, _⟩
        cases hconn
      · rintro d session ⟨_, _, hconn, _⟩
        cases hconn

/-! ## Replies -/

/-- What the list comprehension keeps. -/
def isCandidate (s : NodeTables F) (isClosed : ℕ → Bool) (sender : Str) (item : ℕ × ℕ) : Bool :=
  !isClosed item.2 && (s.sessions.get? item.1).any fun session => session.peerId = sender

/-- The candidates of a sender. -/
theorem candidates_eq (isClosed : ℕ → Bool) (sender : Str) {items : List (ℕ × ℕ)}
    (h : ∀ item ∈ items, s.sessions.get? item.1 ≠ none) :
    s.candidates isClosed sender items =
      .ok ((items.filter (s.isCandidate isClosed sender)).map Prod.snd) := by
  induction items with
  | nil => rfl
  | cons item items ih =>
      obtain ⟨key, c⟩ := item
      have hrest := ih fun item hi => h item (List.mem_cons_of_mem _ hi)
      obtain ⟨session, hs⟩ := Option.ne_none_iff_exists'.1 (h (key, c) List.mem_cons_self)
      rw [candidates, hrest, hs]
      by_cases hclosed : isClosed c = true
      · rw [if_pos hclosed, List.filter_cons_of_neg (by simp [isCandidate, hclosed])]
      · rw [if_neg hclosed]
        by_cases hp : session.peerId = sender
        · rw [List.filter_cons_of_pos (by simp [isCandidate, hclosed, hs, hp])]
          simp [Except.map, hp]
        · rw [List.filter_cons_of_neg (by simp [isCandidate, hs, hp])]
          simp [Except.map, hp]

/-- Two candidates are one. -/
theorem Inv.eq_of_isCandidate (h : Inv peerId s) {isClosed : ℕ → Bool} {sender : Str}
    {item item' : ℕ × ℕ} (hi : item ∈ s.sessionConnections.items)
    (hi' : item' ∈ s.sessionConnections.items)
    (hc : s.isCandidate isClosed sender item = true)
    (hc' : s.isCandidate isClosed sender item' = true) : item.2 = item'.2 := by
  have hready : ∀ item ∈ s.sessionConnections.items, s.isCandidate isClosed sender item = true →
      ∃ session, s.Ready item.2 session ∧ session.peerId = sender := by
    rintro ⟨key, c⟩ hmem hcand
    rw [isCandidate, Bool.and_eq_true, Option.any_eq_true] at hcand
    obtain ⟨-, session, hs, hp⟩ := hcand
    have hconn := (s.sessionConnections.mem_items_iff).1 hmem
    exact ⟨session, ⟨key, h.keyed key c hconn, hconn, hs⟩, by simpa using hp⟩
  obtain ⟨session, hr, hp⟩ := hready item hi hc
  obtain ⟨session', hr', hp'⟩ := hready item' hi' hc'
  exact h.eq_of_peerId hr hr' (hp.trans hp'.symm)

/-- **A reply finds one connection or none.** -/
theorem Inv.connectionForReply (h : Inv peerId s) (context : Option ℕ) (isClosed : ℕ → Bool)
    (sender : Str) :
    (∃ c, s.connectionForReply context isClosed sender = .ok c) ∨
      s.connectionForReply context isClosed sender = .error (.noConnection sender) := by
  cases context with
  | some c => exact .inl ⟨c, rfl⟩
  | none =>
      have hlookup : ∀ item ∈ s.sessionConnections.items, s.sessions.get? item.1 ≠ none := by
        rintro ⟨key, c⟩ hmem hnone
        rw [h.sessions, (s.sessionConnections.mem_items_iff).1 hmem] at hnone
        cases hnone
      rw [NodeTables.connectionForReply, candidates_eq isClosed sender hlookup]
      have hnodup : (s.sessionConnections.items.filter (s.isCandidate isClosed sender)).Nodup :=
        (List.Nodup.of_map _ s.sessionConnections.nodup).filter _
      have hone : ∀ item ∈ s.sessionConnections.items.filter (s.isCandidate isClosed sender),
          ∀ item' ∈ s.sessionConnections.items.filter (s.isCandidate isClosed sender),
            item = item' := by
        intro item hi item' hi'
        obtain ⟨hm, hc⟩ := List.mem_filter.1 hi
        obtain ⟨hm', hc'⟩ := List.mem_filter.1 hi'
        have hsnd := h.eq_of_isCandidate hm hm' hc hc'
        have hk := h.keyed item.1 item.2 ((s.sessionConnections.mem_items_iff).1 hm)
        have hk' := h.keyed item'.1 item'.2 ((s.sessionConnections.mem_items_iff).1 hm')
        rw [hsnd] at hk
        exact Prod.ext (Option.some.inj (hk.symm.trans hk')) hsnd
      cases hl : s.sessionConnections.items.filter (s.isCandidate isClosed sender) with
      | nil => exact .inr rfl
      | cons item rest =>
          cases rest with
          | nil => exact .inl ⟨item.2, rfl⟩
          | cons item' rest =>
              rw [hl] at hnodup hone
              have heq := hone item List.mem_cons_self item'
                (List.mem_cons_of_mem _ List.mem_cons_self)
              rw [heq] at hnodup
              exact absurd List.mem_cons_self (List.nodup_cons.1 hnodup).1

/-! ## One table -/

/-- The three tables by connection as one. -/
def merged (s : NodeTables F) : SessionTables F where
  ready c := (s.ids.get? c).bind fun key => (s.sessions.get? key).bind fun session =>
    (s.sessionDirections.get? key).map fun direction => ⟨session, direction⟩
  peerConnections := s.peerConnections.get?

/-- Two living connections have different keys. -/
theorem Inv.key_ne (h : Inv peerId s) {d k : ℕ} (hc : s.ids.get? c = some key)
    (hd : s.ids.get? d = some k) (hne : d ≠ c) : k ≠ key := by
  rintro rfl
  exact hne (h.distinct d c k hd hc)

/-- The direction that selection looks up. -/
theorem Inv.merged_ready (h : Inv peerId s) {session : ProtocolSession F}
    (hc : s.Ready c session) : ∃ key direction, s.ids.get? c = some key ∧
      s.sessionDirections.get? key = some direction ∧
        s.merged.ready c = some ⟨session, direction⟩ := by
  obtain ⟨key, hid, hconn, hs⟩ := hc
  obtain ⟨direction, hdir⟩ : ∃ d, s.sessionDirections.get? key = some d := by
    rw [← Option.ne_none_iff_exists', ne_eq, h.directions, hconn]
    simp
  exact ⟨key, direction, hid, hdir, by simp [merged, hid, hs, hdir]⟩

/-- The merged tables are well formed. -/
theorem Inv.merged_wellFormed (h : Inv peerId s) : s.merged.WellFormed where
  canonical := by
    intro c r hr
    obtain ⟨key, hid, hr⟩ := Option.bind_eq_some_iff.1 hr
    obtain ⟨session, hs, hr⟩ := Option.bind_eq_some_iff.1 hr
    obtain ⟨direction, -, rfl⟩ := Option.map_eq_some_iff.1 hr
    exact (h.peers session.peerId c).2 ⟨session, h.ready_of_session hid hs, rfl⟩
  ready := by
    intro p c hp
    obtain ⟨session, hready, heq⟩ := (h.peers p c).1 hp
    obtain ⟨key, direction, -, -, hr⟩ := h.merged_ready hready
    exact ⟨_, hr, heq⟩

/-- **Registering refines** the merged tables. -/
theorem merged_registerSession (h : Inv peerId s) (hc : s.ids.get? c = some key)
    (session : ProtocolSession F) (direction : Direction) :
    (s.registerSession key c session direction).merged =
      s.merged.registerSession c session direction := by
  refine SessionTables.ext (funext fun d => ?_) (funext fun p => ?_)
  · simp only [merged, registerSession, SessionTables.registerSession, Dict.get?_set]
    by_cases hd : d = c
    · subst hd
      simp [hc]
    · rw [Function.update_of_ne hd]
      cases hk : s.ids.get? d with
      | none => rfl
      | some k => simp [h.key_ne hc hk hd]
  · simp only [merged, registerSession, SessionTables.registerSession, Dict.get?_set]
    rw [Function.update_apply]

/-- **Deactivating refines** the merged tables. -/
theorem merged_deactivateSession (h : Inv peerId s) (hc : s.ids.get? c = some key) :
    (s.deactivateSession key c).merged = s.merged.deactivateSession c := by
  refine SessionTables.ext (funext fun d => ?_) (funext fun p => ?_)
  · simp only [merged, deactivateSession_ids, deactivateSession_sessions,
      deactivateSession_sessionDirections, SessionTables.deactivateSession, Dict.get?_erase]
    by_cases hd : d = c
    · subst hd
      simp [hc]
    · rw [Function.update_of_ne hd]
      cases hk : s.ids.get? d with
      | none => rfl
      | some k => simp [h.key_ne hc hk hd]
  · refine Option.ext fun d => ?_
    rw [h.merged_wellFormed.peerConnections_deactivateSession, Option.filter_eq_some_iff,
      decide_eq_true_eq, and_comm]
    exact peerConnections_deactivateSession h hc p d

/-- **Selection over the four tables is selection over the merged ones.** -/
theorem merged_selectReadyConnection (h : Inv peerId s) (isClosed : ℕ → Bool)
    (hc : s.ids.get? c = some key) (session : ProtocolSession F) (direction : Direction) :
    (s.selectReadyConnection peerId isClosed key c session direction).toOption.map
        (fun r => (r.1.merged, r.2)) =
      s.merged.selectReadyConnection peerId isClosed c session direction := by
  unfold selectReadyConnection SessionTables.selectReadyConnection
  split
  · rfl
  · have hpeers : s.merged.peerConnections session.peerId =
        s.peerConnections.get? session.peerId := rfl
    rw [hpeers]
    cases hp : s.peerConnections.get? session.peerId with
    | none =>
        have hopen : s.openExisting isClosed session.peerId = (s, none) := by
          rw [openExisting, hp]
        simp only [hopen, Option.filter_none, SessionTables.dropClosed, hpeers, hp]
        rw [← merged_registerSession h hc]
        rfl
    | some existing =>
        obtain ⟨found, hready, -⟩ := (h.peers _ existing).1 hp
        obtain ⟨k, existingDirection, hid, hdir, hmerged⟩ := h.merged_ready hready
        have ht := h.deactivateSession hid
        have hc' : (s.deactivateSession k existing).ids.get? c = some key := by
          rw [deactivateSession_ids]
          exact hc
        cases hclosed : isClosed existing with
        | true =>
            have hopen : s.openExisting isClosed session.peerId =
                (s.deactivateSession k existing, none) := by
              simp only [openExisting, hp, hclosed, if_true, hid, Option.elim_some]
            have hfilter : (some existing).filter (fun e => !isClosed e) = none := by
              simp [hclosed]
            simp only [hopen, hfilter, SessionTables.dropClosed, hpeers, hp, hclosed, if_true]
            rw [← merged_deactivateSession h hid, ← merged_registerSession ht hc']
            rfl
        | false =>
            have hopen : s.openExisting isClosed session.peerId = (s, some existing) := by
              simp only [openExisting, hp, hclosed, Bool.false_eq_true, if_false]
            have hfilter : (some existing).filter (fun e => !isClosed e) = some existing := by
              simp [hclosed]
            simp only [hopen, hfilter]
            by_cases hself : existing = c
            · rw [if_pos hself, if_pos hself]
              rfl
            · simp only [if_neg hself, hid, Option.bind_some, hdir, Option.map_some, hmerged,
                Option.mem_def, Option.some.injEq, forall_eq']
              split
              · rw [← merged_deactivateSession h hid, ← merged_registerSession ht hc']
                rfl
              · rfl

/-! ## The tables of a node -/

/-- The tables of the node `peerId` are consistent. -/
structure Consistent (peerId : Str) (s : NodeTables F) : Prop where
  /-- `_sessions`, `_session_connections` and `_session_directions` have the same keys. -/
  keys : ∀ key, ((s.sessions.get? key).isSome ↔ (s.sessionConnections.get? key).isSome) ∧
    ((s.sessionDirections.get? key).isSome ↔ (s.sessionConnections.get? key).isSome)
  /-- Every key is the `id` of the connection under it. -/
  keyed : ∀ key c, s.sessionConnections.get? key = some c → s.ids.get? c = some key
  peers : ∀ p c, s.peerConnections.get? p = some c ↔
    ∃ key session, s.ids.get? c = some key ∧ s.sessions.get? key = some session ∧ session.peerId = p
  unique : ∀ key key' session session', s.sessions.get? key = some session →
    s.sessions.get? key' = some session' → session.peerId = session'.peerId → key = key'
  remote : ∀ key session, s.sessions.get? key = some session → session.peerId ≠ peerId
  /-- `self._session_directions[id(existing)]` does not fail. -/
  select : ∀ isClosed key c session direction,
    s.selectReadyConnection peerId isClosed key c session direction ≠ .error .keyError
  /-- `self._sessions[key]` does not fail, and there are never two candidates. -/
  reply : ∀ context isClosed sender,
    (∃ c, s.connectionForReply context isClosed sender = .ok c) ∨
      s.connectionForReply context isClosed sender = .error (.noConnection sender)

/-- The selection raises nothing. -/
theorem Inv.selectReadyConnection_ne (h : Inv peerId s) (isClosed : ℕ → Bool) (key c : ℕ)
    (session : ProtocolSession F) (direction : Direction) :
    s.selectReadyConnection peerId isClosed key c session direction ≠ .error .keyError := by
  unfold selectReadyConnection
  split
  · rintro ⟨⟩
  · obtain ⟨ht, -, -, -, hpeer⟩ := openExisting_spec h isClosed session.peerId
    split
    · rintro ⟨⟩
    · next t existing hopen =>
        rw [hopen] at ht hpeer
        split
        · rintro ⟨⟩
        · obtain ⟨found, ⟨k, hid, hconn, -⟩, -⟩ := (ht.peers session.peerId existing).1 hpeer
          obtain ⟨existingDirection, hdir⟩ : ∃ d, t.sessionDirections.get? k = some d := by
            rw [← Option.ne_none_iff_exists', ne_eq, ht.directions, hconn]
            simp
          simp only [hid, Option.bind_some, hdir, Option.map_some]
          split <;> rintro ⟨⟩

/-- A session is that of the connection under its key. -/
theorem Inv.ready_of_key (h : Inv peerId s) {session : ProtocolSession F}
    (hs : s.sessions.get? key = some session) : ∃ c, s.ids.get? c = some key ∧ s.Ready c session := by
  obtain ⟨c, hc⟩ : ∃ c, s.sessionConnections.get? key = some c := by
    rw [← Option.ne_none_iff_exists', ne_eq, ← h.sessions, hs]
    simp
  exact ⟨c, h.keyed key c hc, key, h.keyed key c hc, hc, hs⟩

/-- What the invariant says. -/
theorem Inv.consistent (h : Inv peerId s) : Consistent peerId s where
  keys key := by
    rw [Option.isSome_iff_ne_none, Option.isSome_iff_ne_none, Option.isSome_iff_ne_none]
    exact ⟨not_congr (h.sessions key), not_congr (h.directions key)⟩
  keyed := h.keyed
  peers p c := by
    rw [h.peers]
    constructor
    · rintro ⟨session, ⟨key, hid, -, hs⟩, hp⟩
      exact ⟨key, session, hid, hs, hp⟩
    · rintro ⟨key, session, hid, hs, hp⟩
      exact ⟨session, h.ready_of_session hid hs, hp⟩
  unique key key' session session' hs hs' heq := by
    obtain ⟨c, hid, hc⟩ := h.ready_of_key hs
    obtain ⟨d, hid', hd⟩ := h.ready_of_key hs'
    obtain rfl := h.eq_of_peerId hc hd heq
    exact Option.some.inj (hid.symm.trans hid')
  remote key session hs := by
    obtain ⟨c, -, hc⟩ := h.ready_of_key hs
    exact h.remote c session hc
  select := h.selectReadyConnection_ne
  reply := h.connectionForReply

/-- **The session tables stay consistent** in every state that a node reaches: the
three tables by connection have the same keys, each the `id` of its connection;
`_peer_connections` maps a peer to the connection with a session of that peer; there
is at most one session a peer and none of the node itself; no lookup fails, and
`_connection_for_reply` never finds two connections. -/
theorem tables_consistent (h : Reachable (system F peerId) s) : Consistent peerId s := by
  have hinv : Inv peerId s := by
    refine h.invariant (fun t ht => ?_) fun t l u hI hs => hI.step hs
    obtain rfl := ht
    exact inv_initial
  exact hinv.consistent

/-- A session with the peer `b`. -/
def sampleSession : ProtocolSession Unit where
  peerId := ofChars ['b']
  version := 1
  serializerId := ofChars ['j']
  capabilities := []
  maxMessageSize := 1
  peerIdAuthenticated := false
  metadata := []

/-- An inbound connection of `b` is replaced by an outbound one; then the first is
freed, and a third connection gets its address. -/
def sampleRun : List (Label Unit) :=
  [.opened 7, .select 0 sampleSession .inbound fun _ => false, .opened 9,
    .select 1 sampleSession .outbound fun _ => false, .deactivate 0, .freed 0, .opened 7]

/-- A run with two connections of one peer. -/
theorem tables_consistent_sample : ∃ s : NodeTables Unit,
    exec (step (ofChars ['a'])) initial sampleRun = some s ∧
      s.peerConnections.get? (ofChars ['b']) = some 1 ∧ Consistent (ofChars ['a']) s :=
  ⟨_, rfl, rfl, tables_consistent (reachable_of_exec rfl sampleRun rfl)⟩

/-! ## The runs of one table -/

/-- What a step does to one table by connection. -/
def mergedStep (peerId : Str) (t : SessionTables F) : Label F → SessionTables F
  | .opened _ | .freed _ => t
  | .select c session direction isClosed =>
      match t.selectReadyConnection peerId isClosed c session direction with
      | none => t
      | some (u, _) => u
  | .deactivate c => t.deactivateSession c
  | .disconnect remote =>
      match t.peerConnections remote with
      | none => t
      | some c => t.deactivateSession c
  | .stop => .empty

/-- An address without a session may come or go. -/
theorem merged_withIds {ids : Dict ℕ ℕ} {n : ℕ}
    (hids : ∀ d, ids.get? d ≠ s.ids.get? d →
      (∀ key, s.ids.get? d = some key → s.sessions.get? key = none) ∧
        ∀ key, ids.get? d = some key → s.sessions.get? key = none) :
    merged { s with ids, nextConnection := n } = s.merged := by
  refine SessionTables.ext (funext fun d => ?_) rfl
  simp only [merged]
  by_cases hd : ids.get? d = s.ids.get? d
  · rw [hd]
  · obtain ⟨hold, hnew⟩ := hids d hd
    have hnone : ∀ key? : Option ℕ, (∀ key, key? = some key → s.sessions.get? key = none) →
        (key?.bind fun key => (s.sessions.get? key).bind fun session =>
          (s.sessionDirections.get? key).map fun direction =>
            (⟨session, direction⟩ : ReadySession F)) = none := by
      intro key? hkey
      cases key? with
      | none => rfl
      | some key =>
          rw [Option.bind_some, hkey key rfl]
          rfl
    rw [hnone _ hold, hnone _ hnew]

/-- A living connection that no table holds has no session. -/
theorem Inv.sessions_eq_none (h : Inv peerId s) (hc : s.ids.get? c = some key)
    (hheld : ¬ s.holds c = true) : s.sessions.get? key = none := by
  refine Option.eq_none_iff_forall_ne_some.2 fun session hs => hheld ?_
  obtain ⟨k, hk, hconn, -⟩ := h.ready_of_session hc hs
  have hmem : c ∈ s.sessionConnections.items.map Prod.snd :=
    List.mem_map.2 ⟨_, (s.sessionConnections.mem_items_iff).2 hconn, rfl⟩
  simp [holds, hmem]

/-- **A step of the node's tables is that of one table.** -/
theorem merged_step (h : Inv peerId s) {l : Label F} {t : NodeTables F}
    (hs : step peerId s l = some t) : t.merged = mergedStep peerId s.merged l := by
  cases l with
  | opened id =>
      simp only [step] at hs
      split at hs
      · cases hs
      · next hfree =>
          cases hs
          refine merged_withIds fun d hd => ?_
          rw [Dict.get?_set] at hd ⊢
          split at hd
          · next heq =>
              rw [if_pos heq]
              refine ⟨fun key hkey => absurd (h.fresh d key hkey) (heq ▸ lt_irrefl _), fun key hkey => ?_⟩
              obtain rfl := Option.some.inj hkey
              refine Option.eq_none_iff_forall_ne_some.2 fun session hs => hfree ?_
              obtain ⟨c, hc⟩ : ∃ c, s.sessionConnections.get? id = some c := by
                rw [← Option.ne_none_iff_exists', ne_eq, ← h.sessions, hs]
                simp
              exact List.mem_map.2 ⟨_, (s.ids.mem_items_iff).2 (h.keyed id c hc), rfl⟩
          · exact absurd rfl hd
  | freed c =>
      simp only [step] at hs
      split at hs
      · cases hs
      · next hheld =>
          cases hs
          refine merged_withIds fun d hd => ?_
          rw [Dict.get?_erase] at hd ⊢
          split at hd
          · next heq =>
              rw [if_pos heq]
              exact ⟨fun key hkey => h.sessions_eq_none (heq ▸ hkey) hheld, fun key hkey => by cases hkey⟩
          · exact absurd rfl hd
  | select c session direction isClosed =>
      simp only [step] at hs
      split at hs
      · cases hs
      · next key hid =>
          split at hs
          · cases hs
          · next hsel =>
              have hselect := merged_selectReadyConnection (h.setSelected c) isClosed hid session direction
              rw [mergedStep, ← show merged { s with selected := Function.update s.selected c true } =
                s.merged from rfl, ← hselect]
              split at hs
              · next hresult =>
                  cases hs
                  rw [hresult]
                  rfl
              · next u _ hresult =>
                  cases hs
                  rw [hresult]
                  rfl
  | deactivate c =>
      obtain ⟨key, hid, rfl⟩ := Option.map_eq_some_iff.1 hs
      exact merged_deactivateSession h hid
  | disconnect remote =>
      cases hs
      rw [disconnect, mergedStep, show s.merged.peerConnections remote = s.peerConnections.get? remote
        from rfl]
      cases hp : s.peerConnections.get? remote with
      | none => rfl
      | some c =>
          obtain ⟨session, ⟨key, hid, -, -⟩, -⟩ := (h.peers remote c).1 hp
          dsimp only
          rw [hid]
          exact merged_deactivateSession h hid
  | stop =>
      cases hs
      refine SessionTables.ext (funext fun d => ?_) rfl
      simp only [merged, clear]
      cases s.ids.get? d <;> rfl

/-- **The tables of a node are one table by connection**: over every run, however addresses
are used again, they hold the sessions that one table would after the same steps, and the
next selection among duplicates comes out as that of the one table. -/
theorem tables_refine {ls : List (Label F)} (hs : exec (step peerId) initial ls = some s) :
    s.merged = ls.foldl (mergedStep peerId) .empty ∧
      ∀ isClosed key c session direction, s.ids.get? c = some key →
        (s.selectReadyConnection peerId isClosed key c session direction).toOption.map
            (fun r => (r.1.merged, r.2)) =
          (ls.foldl (mergedStep peerId) .empty).selectReadyConnection peerId isClosed c session
            direction := by
  have hrun : ∀ {ls : List (Label F)} {s t : NodeTables F}, Inv peerId s →
      exec (step peerId) s ls = some t → Inv peerId t ∧ t.merged = ls.foldl (mergedStep peerId) s.merged := by
    intro ls
    induction ls with
    | nil =>
        intro s t h ht
        obtain rfl := Option.some.inj ht
        exact ⟨h, rfl⟩
    | cons l ls ih =>
        intro s t h ht
        obtain ⟨u, hu, ht⟩ := Option.bind_eq_some_iff.1 ht
        rw [List.foldl_cons, ← merged_step h hu]
        exact ih (h.step hu) ht
  obtain ⟨hinv, hmerged⟩ := hrun inv_initial hs
  have hempty : s.merged = ls.foldl (mergedStep peerId) .empty := hmerged
  refine ⟨hempty, fun isClosed key c session direction hid => ?_⟩
  rw [← hempty]
  exact merged_selectReadyConnection hinv isClosed hid session direction

/-- **A run.**  A third connection has the address of the first, and the second is the
canonical one. -/
theorem tables_refine_sample : ∃ s : NodeTables Unit,
    exec (step (ofChars ['a'])) initial sampleRun = some s ∧ s.ids.get? 2 = some 7 ∧
      (sampleRun.foldl (mergedStep (ofChars ['a'])) .empty).peerConnections (ofChars ['b']) = some 1 := by
  have hrun : exec (step (F := Unit) (ofChars ['a'])) initial sampleRun = some _ := rfl
  refine ⟨_, hrun, rfl, ?_⟩
  rw [← (tables_refine hrun).1]
  rfl

end NodeTables
end Core
end Paqto
