/-
# READY sessions and duplicate selection

The session tables of `PaqtoNode` (`core/node.py`) with `_register_session`,
`_deactivate_session` and `_select_ready_connection`.

A connection is named by a number.  `_sessions`, `_session_connections` and
`_session_directions` always have the same keys, so they are one table here.
Peer ids are compared as Python compares strings, by code points.
-/

import Paqto.Core.Protocol
import Mathlib.Order.Defs.LinearOrder

namespace Paqto
namespace Core

open Python

/-- `_ConnectionDirection` -/
inductive Direction
  | inbound
  | outbound
  deriving DecidableEq, Repr

/-- A session with its direction. -/
structure ReadySession (F : Type) where
  session : ProtocolSession F
  direction : Direction

/-- `_sessions`, `_session_directions` and `_peer_connections`. -/
@[ext] structure SessionTables (F : Type) where
  ready : ℕ → Option (ReadySession F)
  /-- `_peer_connections` -/
  peerConnections : Str → Option ℕ

variable {F : Type}

namespace SessionTables

/-- No session. -/
def empty : SessionTables F where
  ready := fun _ => none
  peerConnections := fun _ => none

/-- `session_for` -/
def sessionFor (t : SessionTables F) (c : ℕ) : Option (ProtocolSession F) :=
  (t.ready c).map (·.session)

/-- `_register_session` -/
def registerSession (t : SessionTables F) (c : ℕ) (session : ProtocolSession F)
    (direction : Direction) : SessionTables F where
  ready := Function.update t.ready c (some ⟨session, direction⟩)
  peerConnections := Function.update t.peerConnections session.peerId (some c)

/-- `_deactivate_session` -/
def deactivateSession (t : SessionTables F) (c : ℕ) : SessionTables F where
  ready := Function.update t.ready c none
  peerConnections :=
    match t.sessionFor c with
    | some session =>
        if t.peerConnections session.peerId = some c then
          Function.update t.peerConnections session.peerId none
        else t.peerConnections
    | none => t.peerConnections

/-- The direction the node of `peerId` prefers for a session with a peer. -/
def preferredDirection (peerId remote : Str) : Direction :=
  if peerId < remote then .outbound else .inbound

/-- What `_select_ready_connection` returns. -/
structure Selection where
  selected : ℕ
  loser : Option ℕ
  deriving DecidableEq, Repr

/-- The canonical connection of a peer, after a closed one was dropped. -/
def dropClosed (t : SessionTables F) (isClosed : ℕ → Bool) (remote : Str) : SessionTables F :=
  match t.peerConnections remote with
  | some existing => if isClosed existing then t.deactivateSession existing else t
  | none => t

/-- `_select_ready_connection`; `none` when the remote peer claims the local
id. -/
def selectReadyConnection (t : SessionTables F) (peerId : Str) (isClosed : ℕ → Bool) (c : ℕ)
    (session : ProtocolSession F) (direction : Direction) :
    Option (SessionTables F × Selection) :=
  if session.peerId = peerId then none
  else
    match (t.peerConnections session.peerId).filter fun existing => !isClosed existing with
    | none =>
        let t := t.dropClosed isClosed session.peerId
        some (t.registerSession c session direction, ⟨c, none⟩)
    | some existing =>
        if existing = c then some (t, ⟨c, none⟩)
        else if direction = preferredDirection peerId session.peerId ∧
            ∀ ready ∈ t.ready existing,
              ready.direction ≠ preferredDirection peerId session.peerId then
          some ((t.deactivateSession existing).registerSession c session direction,
            ⟨c, some existing⟩)
        else some (t, ⟨existing, some c⟩)

section lemmas

variable {t : SessionTables F} {c d : ℕ}

/-- The connection has no session then. -/
@[simp] theorem deactivateSession_ready_self : (t.deactivateSession c).ready c = none := by
  simp [deactivateSession]

/-- Other connections keep theirs. -/
theorem deactivateSession_ready_ne (h : d ≠ c) :
    (t.deactivateSession c).ready d = t.ready d := by
  simp [deactivateSession, h]

/-- Deactivation only removes. -/
theorem ready_of_deactivateSession {r : ReadySession F}
    (h : (t.deactivateSession c).ready d = some r) : t.ready d = some r := by
  by_cases hd : d = c
  · subst hd
    simp at h
  · rwa [deactivateSession_ready_ne hd] at h

/-- No entry is added. -/
theorem peerConnections_of_deactivateSession {p : Str}
    (h : (t.deactivateSession c).peerConnections p = some d) : t.peerConnections p = some d := by
  cases hs : t.sessionFor c with
  | none => simpa [deactivateSession, hs] using h
  | some session =>
      simp only [deactivateSession, hs] at h
      split at h
      · by_cases hp : p = session.peerId
        · rw [hp, Function.update_self] at h
          cases h
        · rwa [Function.update_of_ne hp] at h
      · exact h

/-- No session is added. -/
theorem ready_of_dropClosed {isClosed : ℕ → Bool} {remote : Str} {r : ReadySession F}
    (h : (t.dropClosed isClosed remote).ready d = some r) : t.ready d = some r := by
  unfold dropClosed at h
  split at h
  · split at h
    · exact ready_of_deactivateSession h
    · exact h
  · exact h

/-- A session is the new one, or was there. -/
theorem ready_of_registerSession {session : ProtocolSession F} {direction : Direction}
    {r : ReadySession F} (h : (t.registerSession c session direction).ready d = some r) :
    t.ready d = some r ∨ d = c ∧ r = ⟨session, direction⟩ := by
  by_cases hd : d = c
  · subst hd
    exact .inr ⟨rfl, by simpa [registerSession, eq_comm] using h⟩
  · exact .inl (by simpa [registerSession, hd] using h)

/-- **What selection publishes.**  A session in the tables after a selection was
there before or is the one of the selected connection, and its peer is not the
local one. -/
theorem ready_of_selectReadyConnection {peerId : Str} {isClosed : ℕ → Bool}
    {session : ProtocolSession F} {direction : Direction} {u : SessionTables F} {sel : Selection}
    (h : t.selectReadyConnection peerId isClosed c session direction = some (u, sel)) :
    session.peerId ≠ peerId ∧ ∀ d r, u.ready d = some r →
      t.ready d = some r ∨ d = c ∧ r = ⟨session, direction⟩ := by
  unfold selectReadyConnection at h
  split at h
  · cases h
  · rename_i hself
    refine ⟨hself, fun d r hr => ?_⟩
    split at h
    · cases h
      rcases ready_of_registerSession hr with hr | hr
      · exact .inl (ready_of_dropClosed hr)
      · exact .inr hr
    · split at h
      · cases h
        exact .inl hr
      · split at h
        · cases h
          rcases ready_of_registerSession hr with hr | hr
          · exact .inl (ready_of_deactivateSession hr)
          · exact .inr hr
        · cases h
          exact .inl hr

end lemmas

/-- The connection of a READY session is the canonical one of its peer, and a
canonical connection has a READY session. -/
structure WellFormed (t : SessionTables F) : Prop where
  canonical : ∀ {c r}, t.ready c = some r → t.peerConnections r.session.peerId = some c
  ready : ∀ {p c}, t.peerConnections p = some c → ∃ r, t.ready c = some r ∧ r.session.peerId = p

section wellFormed

variable {t : SessionTables F} {c : ℕ}

/-- No session. -/
theorem WellFormed.empty : (empty : SessionTables F).WellFormed where
  canonical h := by cases h
  ready h := by cases h

/-- Only the entry of the connection is dropped. -/
theorem WellFormed.peerConnections_deactivateSession (h : t.WellFormed) (c : ℕ) (p : Str) :
    (t.deactivateSession c).peerConnections p = (t.peerConnections p).filter (· ≠ c) := by
  cases hp : t.peerConnections p with
  | none =>
      simp only [SessionTables.deactivateSession, Option.filter_none]
      cases hs : t.sessionFor c with
      | none => exact hp
      | some session =>
          by_cases hc : t.peerConnections session.peerId = some c
          · by_cases hpeer : p = session.peerId
            · simp [hc, hpeer]
            · simp [hc, Function.update_of_ne hpeer, hp]
          · simp [hc, hp]
  | some d =>
      obtain ⟨r, hr, rfl⟩ := h.ready hp
      by_cases hd : d = c
      · subst hd
        simp [SessionTables.deactivateSession, sessionFor, hr, hp, Option.filter_some]
      · have hkeep : (t.deactivateSession c).peerConnections r.session.peerId = some d := by
          simp only [SessionTables.deactivateSession]
          cases hs : t.sessionFor c with
          | none => exact hp
          | some session =>
              by_cases hc : t.peerConnections session.peerId = some c
              · have hpeer : r.session.peerId ≠ session.peerId := fun he =>
                  hd (Option.some.inj (hp.symm.trans (he ▸ hc)))
                simp [hc, Function.update_of_ne hpeer, hp]
              · simp [hc, hp]
        simp [hkeep, hd, Option.filter_some]

/-- A session is deactivated. -/
theorem WellFormed.deactivateSession (h : t.WellFormed) (c : ℕ) :
    (t.deactivateSession c).WellFormed where
  canonical {d r} hd := by
    have hne : d ≠ c := fun he => by simp [he] at hd
    rw [h.peerConnections_deactivateSession, h.canonical (ready_of_deactivateSession hd)]
    simp [hne]
  ready {p d} hd := by
    rw [h.peerConnections_deactivateSession, Option.filter_eq_some_iff] at hd
    obtain ⟨r, hr, hrp⟩ := h.ready hd.1
    exact ⟨r, by rwa [deactivateSession_ready_ne (by simpa using hd.2)], hrp⟩

/-- A session is registered for a peer without one. -/
theorem WellFormed.registerSession (h : t.WellFormed) {session : ProtocolSession F}
    (hc : t.ready c = none) (hp : t.peerConnections session.peerId = none)
    (direction : Direction) : (t.registerSession c session direction).WellFormed where
  canonical {d r} hd := by
    by_cases hdc : d = c
    · subst hdc
      simp only [SessionTables.registerSession, Function.update_self, Option.some.injEq] at hd ⊢
      subst hd
      simp
    · simp only [SessionTables.registerSession, Function.update_of_ne hdc] at hd ⊢
      have hne : r.session.peerId ≠ session.peerId := fun he => by
        have := h.canonical hd
        rw [he, hp] at this
        cases this
      rw [Function.update_of_ne hne]
      exact h.canonical hd
  ready {p d} hd := by
    by_cases hpeer : p = session.peerId
    · subst hpeer
      simp only [SessionTables.registerSession, Function.update_self, Option.some.injEq] at hd
      subst hd
      exact ⟨⟨session, direction⟩, by simp [SessionTables.registerSession], rfl⟩
    · simp only [SessionTables.registerSession, Function.update_of_ne hpeer] at hd
      obtain ⟨r, hr, hrp⟩ := h.ready hd
      have hne : d ≠ c := fun he => by
        rw [he, hc] at hr
        cases hr
      exact ⟨r, by simpa [SessionTables.registerSession, hne] using hr, hrp⟩

/-- What `_select_ready_connection` does with a connection that has no session
yet: it publishes the session, in the place of a canonical connection or of
none, or keeps the canonical connection. -/
inductive Selects (t : SessionTables F) (isClosed : ℕ → Bool) (c : ℕ)
    (session : ProtocolSession F) (direction : Direction) : SessionTables F → Selection → Prop
  | first {u : SessionTables F} :
      (∀ e, t.peerConnections session.peerId = some e → isClosed e = true) →
      u.WellFormed → u.ready c = some ⟨session, direction⟩ →
      (∀ d r, d ≠ c → u.ready d = some r → t.ready d = some r) →
      Selects t isClosed c session direction u ⟨c, none⟩
  | replaced {u : SessionTables F} {e : ℕ} :
      t.peerConnections session.peerId = some e → isClosed e = false → e ≠ c →
      u.WellFormed → u.ready c = some ⟨session, direction⟩ → u.ready e = none →
      (∀ d r, d ≠ c → u.ready d = some r → t.ready d = some r) →
      Selects t isClosed c session direction u ⟨c, some e⟩
  | kept {e : ℕ} :
      t.peerConnections session.peerId = some e → isClosed e = false → e ≠ c →
      Selects t isClosed c session direction t ⟨e, some c⟩

/-- Closed connections are dropped. -/
theorem dropClosed_wellFormed (h : t.WellFormed) (isClosed : ℕ → Bool) (remote : Str) :
    (t.dropClosed isClosed remote).WellFormed := by
  unfold dropClosed
  split
  · split
    · exact h.deactivateSession _
    · exact h
  · exact h

/-- **What the selection does.** -/
theorem selects_of_selectReadyConnection (h : t.WellFormed) (hc : t.ready c = none)
    {peerId : Str} {isClosed : ℕ → Bool} {session : ProtocolSession F} {direction : Direction}
    {u : SessionTables F} {sel : Selection}
    (hs : t.selectReadyConnection peerId isClosed c session direction = some (u, sel)) :
    Selects t isClosed c session direction u sel := by
  have hregister : ∀ {v : SessionTables F}, (∀ d r, v.ready d = some r → t.ready d = some r) →
      ∀ d r, d ≠ c → (v.registerSession c session direction).ready d = some r →
        t.ready d = some r := by
    intro v hv d r hd hr
    rcases ready_of_registerSession hr with hr | ⟨rfl, _⟩
    · exact hv d r hr
    · exact absurd rfl hd
  unfold selectReadyConnection at hs
  split at hs
  · cases hs
  · split at hs
    · rename_i hnone
      cases hs
      have hclosed : ∀ e, t.peerConnections session.peerId = some e → isClosed e = true := by
        intro e he
        simpa [he] using hnone
      have hpeer : (t.dropClosed isClosed session.peerId).peerConnections session.peerId =
          none := by
        unfold dropClosed
        split
        · rename_i e he
          rw [if_pos (hclosed e he)]
          obtain ⟨r, hr, hrp⟩ := h.ready he
          simp [deactivateSession, sessionFor, hr, hrp, he]
        · assumption
      have hnew : (t.dropClosed isClosed session.peerId).ready c = none := by
        refine Option.eq_none_iff_forall_ne_some.2 fun r hr => ?_
        rw [ready_of_dropClosed hr] at hc
        cases hc
      exact .first hclosed
        ((dropClosed_wellFormed h _ _).registerSession hnew hpeer direction)
        (by simp [registerSession]) (hregister fun _ _ => ready_of_dropClosed)
    · rename_i e he
      obtain ⟨he, hopen⟩ := Option.filter_eq_some_iff.1 he
      have hopen : isClosed e = false := by simpa using hopen
      obtain ⟨r, hr, hrp⟩ := h.ready he
      have hne : e ≠ c := fun hec => by
        rw [hec, hc] at hr
        cases hr
      rw [if_neg hne] at hs
      split at hs
      · cases hs
        have hpeer : (t.deactivateSession e).peerConnections session.peerId = none := by
          simp [deactivateSession, sessionFor, hr, hrp, he]
        refine .replaced he hopen hne ((h.deactivateSession e).registerSession ?_ hpeer direction)
          (by simp [registerSession]) ?_ (hregister fun _ _ => ready_of_deactivateSession)
        · rwa [deactivateSession_ready_ne hne.symm]
        · simp [registerSession, hne]
      · cases hs
        exact .kept he hopen hne

end wellFormed

end SessionTables
end Core
end Paqto
