/-
# The states of the peers

`_states` beside `_connections`: a peer with a canonical connection is `CONNECTED`, or
`CLOSED` where an overlapping `close_all` has ended after the connection was made
(`kept_of_reachable`).  An attempt that ends with an exception leaves its peer at rest:
until an operation changes an entry of the peer, `state` is `DISCONNECTED` or `CLOSED`
when no open connection is there (`atRest_resumeAttempt`, `AtRest.state`).
-/

import Paqto.Core.ManagerFence

namespace Paqto
namespace Core
namespace ConnectionManager

open Transition Python

variable {E : Type}

namespace Manager

variable {s t : Manager E} {transport : Str} {a k o selected : ℕ} {p : Str}

/-- A peer with a connection is reported as connected, or as closed. -/
def Kept (s : Manager E) : Prop :=
  ∀ p c, s.connections.lookup p = some c →
    s.states.lookup p = some .connected ∨ s.states.lookup p = some .closed

/-- There is no connection yet. -/
theorem kept_initial : (initial : Manager E).Kept := fun p c h => by simp [initial] at h

/-- A change of the other fields. -/
theorem Kept.of_eq (h : s.Kept) (hconnections : t.connections = s.connections)
    (hstates : t.states = s.states) : t.Kept := fun p c hc => by
  rw [hstates]
  exact h p c (hconnections ▸ hc)

/-- A connection goes, and the state of its peer may be set. -/
theorem Kept.dropped (h : s.Kept) (hp : t.connections.lookup p = none)
    (hothers : ∀ q, q ≠ p → t.connections.lookup q = s.connections.lookup q ∧
      t.states.lookup q = s.states.lookup q) : t.Kept := fun q c hc => by
  have hq : q ≠ p := by
    rintro rfl
    rw [hp] at hc
    cases hc
  rw [(hothers q hq).2]
  exact h q c ((hothers q hq).1 ▸ hc)

/-- A state is set that agrees with the connection. -/
theorem Kept.setState (h : s.Kept) {state : ConnectionState}
    (hp : s.connections.lookup p = none ∨ state = .connected ∨ state = .closed) :
    (s.setState p state).Kept := fun q c hc => by
  by_cases hq : q = p
  · subst hq
    simp only [Manager.setState, AList.lookup_insert]
    rcases hp with hp | rfl | rfl
    · simp only [Manager.setState, hp] at hc
      cases hc
    · exact Or.inl rfl
    · exact Or.inr rfl
  · simp only [Manager.setState, AList.lookup_insert_ne hq]
    exact h q c hc

/-- A connection becomes the canonical one. -/
theorem Kept.adopted (h : s.Kept) (c : ℕ) :
    ({ s with connections := s.connections.insert p c }.setState p .connected).Kept :=
  fun q d hd => by
    by_cases hq : q = p
    · subst hq
      exact Or.inl (by simp [Manager.setState])
    · simp only [Manager.setState, AList.lookup_insert_ne hq] at hd ⊢
      exact h q d hd

/-- `get_by_id` answers that there is none: then none is left. -/
theorem lookup_getById_of_none (h : (s.getById p).2 = none) :
    (s.getById p).1.connections.lookup p = none := by
  unfold getById at h ⊢
  split
  · split
    · simp
    · simp_all
  · assumption

/-- It answers with the connection that is there. -/
theorem lookup_getById_of_some {c : ℕ} (h : (s.getById p).2 = some c) :
    s.connections.lookup p = some c ∧ (s.getById p).1 = s := by
  unfold getById at h ⊢
  split at h <;> rename_i hc
  · split at h
    · cases h
    · cases h
      simp_all
  · cases h

/-- `get_by_id` -/
theorem Kept.getById (h : s.Kept) (p : Str) : (s.getById p).1.Kept := by
  unfold Manager.getById
  split
  · split
    · refine h.dropped (p := p) (by simp) fun q hq => ⟨by simp [hq], ?_⟩
      dsimp only
      split
      · simp [hq]
      · rfl
    · exact h
  · exact h

/-- `connection_lost` -/
theorem Kept.connectionLost (h : s.Kept) (p : Str) (c : ℕ) : (s.connectionLost p c).Kept := by
  have herase : ({ s with connections := s.connections.erase p } : Manager E).Kept :=
    h.dropped (p := p) (by simp) fun q hq => ⟨by simp [hq], rfl⟩
  unfold Manager.connectionLost
  split
  · dsimp only
    split
    · exact herase
    · exact herase.setState (Or.inl (by simp))
  · exact h

/-- `adopt` -/
theorem Kept.adopt (h : s.Kept) (p : Str) (c : ℕ) : (s.adopt p c).Kept := by
  unfold Manager.adopt
  split
  · exact h
  · exact h.adopted c

/-- `mark_reconnecting` -/
theorem Kept.markReconnecting (h : s.Kept) (p : Str) : (s.markReconnecting p).Kept := by
  have hget := h.getById p
  have hnone := lookup_getById_of_none (s := s) (p := p)
  unfold Manager.markReconnecting
  split
  · exact h
  · split <;> rename_i heq <;> rw [heq] at hget hnone
    · exact hget.setState (Or.inl (hnone rfl))
    · exact hget

/-- `mark_disconnected` -/
theorem Kept.markDisconnected (h : s.Kept) (p : Str) : (s.markDisconnected p).Kept := by
  have hget := h.getById p
  have hnone := lookup_getById_of_none (s := s) (p := p)
  unfold Manager.markDisconnected
  split <;> rename_i heq <;> rw [heq] at hget hnone
  · split
    · exact hget
    · exact hget.setState (Or.inl (hnone rfl))
  · exact hget

/-- `connect` -/
theorem Kept.connect (h : s.Kept) {endpoint : Endpoint} {prepare reconnecting : Bool}
    (ht : s.connect transport k a p endpoint prepare reconnecting = some t) : t.Kept := by
  unfold Manager.connect at ht
  split at ht
  · cases ht
    exact h
  · split at ht
    · cases ht
      exact h
    · have hget := h.getById p
      have hnone := lookup_getById_of_none (s := s) (p := p)
      split at ht <;> rename_i heq <;> rw [heq] at hget hnone
      · cases ht
        exact hget
      · split at ht
        · cases ht
          exact hget
        · split at ht <;> cases ht
          exact hget.setState (Or.inl (hnone rfl))

/-! ## Closing calls -/

/-- The end of `close_peer`. -/
theorem Kept.endClosePeer (h : s.Kept) : (s.endClosePeer k p).Kept := by
  unfold Manager.endClosePeer
  dsimp only
  split
  · exact h.setState (Or.inr (Or.inr rfl))
  · exact h

/-- `close_peer` has gathered the attempt. -/
theorem Kept.closeGathered (h : s.Kept) {connection : Option ℕ} :
    (s.closeGathered k p connection).Kept := by
  unfold Manager.closeGathered
  split
  · exact h
  · exact h.endClosePeer

/-- `close_peer` begins. -/
theorem Kept.closePeer (h : s.Kept) : (s.closePeer k p).Kept := by
  have hpop : ({ s with
      closingPeers := Function.update s.closingPeers p true
      inFlight := s.inFlight.erase p
      connections := s.connections.erase p }.setState p .closing : Manager E).Kept :=
    h.dropped (p := p) (by simp [Manager.setState]) fun q hq => by simp [Manager.setState, hq]
  unfold Manager.closePeer
  dsimp only
  split
  · exact hpop
  · exact hpop.closeGathered

/-- The states that `close_all` sets are `CLOSED` or as they were. -/
theorem lookup_foldl_insert (state : ConnectionState) (peers : List Str)
    (states : PeerDict ConnectionState) (q : Str) :
    (peers.foldl (fun states p => states.insert p state) states).lookup q = some state ∨
      (peers.foldl (fun states p => states.insert p state) states).lookup q =
        states.lookup q := by
  induction peers generalizing states with
  | nil => exact Or.inr rfl
  | cons p peers ih =>
      rcases ih (states.insert p state) with hset | hsame
      · exact Or.inl hset
      · rw [List.foldl_cons, hsame]
        by_cases hq : q = p
        · subst hq
          exact Or.inl (AList.lookup_insert states)
        · exact Or.inr (AList.lookup_insert_ne hq)

/-- The state that is set for every peer of a list. -/
theorem lookup_foldl_of_mem (state : ConnectionState) {peers : List Str} {p : Str}
    (hp : p ∈ peers) (states : PeerDict ConnectionState) :
    (peers.foldl (fun states p => states.insert p state) states).lookup p = some state := by
  induction peers generalizing states with
  | nil => cases hp
  | cons q peers ih =>
      rw [List.foldl_cons]
      by_cases hlater : p ∈ peers
      · exact ih hlater _
      · obtain rfl : p = q := (List.mem_cons.1 hp).resolve_right hlater
        rcases lookup_foldl_insert state peers (states.insert p state) p with h | h
        · exact h
        · exact h.trans (AList.lookup_insert states)

/-- The end of `close_all`. -/
theorem Kept.endCloseAll (h : s.Kept) {peers : List Str} : (s.endCloseAll k peers).Kept :=
  fun q c hc => by
    rcases lookup_foldl_insert .closed peers s.states q with hset | hsame
    · exact Or.inr hset
    · have hstate : (s.endCloseAll k peers).states.lookup q = s.states.lookup q := hsame
      rw [hstate]
      exact h q c hc

/-- `close_all` has gathered the attempts. -/
theorem Kept.closeAllGathered (h : s.Kept) {connections : List ℕ} {peers : List Str} :
    (s.closeAllGathered k connections peers).Kept := by
  unfold Manager.closeAllGathered
  split
  · exact h.endCloseAll
  · exact h

/-- `close_all` begins. -/
theorem kept_closeAll (s : Manager E) (k : ℕ) : (s.closeAll k).Kept := by
  have hempty : ∀ t : Manager E, t.connections = ∅ → t.Kept := fun t ht q c hc => by
    rw [ht] at hc
    cases hc
  unfold closeAll
  dsimp only
  split
  · exact (hempty _ rfl).closeAllGathered
  · exact hempty _ rfl

/-- A closing call goes on. -/
theorem Kept.resumeCloser (h : s.Kept) (ht : s.resumeCloser k = some t) : t.Kept := by
  unfold Manager.resumeCloser at ht
  split at ht
  · split at ht <;> cases ht
    exact h.closeGathered
  · split at ht <;> cases ht
    exact h.endClosePeer
  · cases ht
    exact h.endClosePeer
  · split at ht <;> cases ht
    exact h.closeAllGathered
  · split at ht <;> cases ht
    exact h
  · cases ht
    exact h.endCloseAll
  · cases ht

/-- A closing call is cancelled. -/
theorem Kept.cancelCloser (h : s.Kept) (ht : s.cancelCloser k = some t) : t.Kept := by
  unfold Manager.cancelCloser at ht
  split at ht <;> cases ht
  · exact h
  · exact h.endClosePeer
  · exact h
  · exact h

/-! ## Attempts -/

/-- What `_states` and `_connections` hold of a peer after a failed attempt. -/
def AtRest (s : Manager E) (p : Str) : Prop :=
  s.states.lookup p = some .disconnected ∨ s.states.lookup p = some .closed ∨
    s.states.lookup p = some .connected ∧ s.connections.lookup p ≠ none

/-- **`state` of a peer at rest.** -/
theorem AtRest.state (h : s.AtRest p) (hnone : (s.getById p).2 = none) :
    s.state p = .disconnected ∨ s.state p = .closed := by
  unfold Manager.state
  rw [hnone]
  dsimp only
  unfold getById at hnone ⊢
  split at hnone <;> rename_i hc
  · split at hnone
    · rename_i hclosed
      simp only [if_pos hclosed]
      rcases h with h | h | ⟨h, -⟩ <;> simp [h]
    · cases hnone
  · dsimp only
    rcases h with h | h | ⟨-, h⟩
    · simp [h]
    · simp [h]
    · exact absurd hc h

/-- The manager after a step of the attempt: if the attempt has failed with it, its peer
is at rest. -/
structure Settles (t : Manager E) (a : ℕ) : Prop where
  kept : t.Kept
  failed : ∀ p e, t.attempts a = .done p (.error e) → t.AtRest p

/-- An attempt moves. -/
theorem settles_setAttempt (h : s.Kept) {pc : AttemptPc E} (hpc : pc.isDone = false) :
    (s.setAttempt a pc).Settles a where
  kept := h
  failed p e hdone := by
    have hpc' : pc = .done p (.error e) := by simpa [setAttempt] using hdone
    rw [hpc'] at hpc
    cases hpc

/-- An attempt ends. -/
theorem settles_endAttempt (h : s.Kept) (outcome : Except (Failure E) ℕ) :
    (s.endAttempt a p outcome).Settles a := by
  have hpop : ({ s with
      inFlight := if s.inFlight.lookup p = some a then s.inFlight.erase p
        else s.inFlight } : Manager E).Kept := h
  have hget := hpop.getById p
  unfold endAttempt
  dsimp only
  split
  · refine ⟨h, fun q e hdone => ?_⟩
    simp [setAttempt] at hdone
  · split <;> rename_i heq
    · have hnone := lookup_getById_of_none (congrArg Prod.snd heq)
      rw [heq] at hget hnone
      refine ⟨hget.setState (Or.inl hnone), fun q e hdone => ?_⟩
      obtain ⟨rfl, -⟩ : p = q ∧ _ := by simpa [setAttempt] using hdone
      simp only [AtRest, setAttempt, setState, AList.lookup_insert]
      split
      · exact Or.inr (Or.inl rfl)
      · exact Or.inl rfl
    · have hsome := lookup_getById_of_some (congrArg Prod.snd heq)
      rw [heq] at hsome hget
      refine ⟨hget, fun q e hdone => ?_⟩
      obtain ⟨rfl, -⟩ : p = q ∧ _ := by simpa [setAttempt] using hdone
      obtain ⟨hc, rfl⟩ := hsome
      rcases h p _ hc with hstate | hstate
      · exact Or.inr (Or.inr ⟨hstate, fun hn => by simp_all [setAttempt]⟩)
      · exact Or.inr (Or.inl hstate)

/-- An attempt fails. -/
theorem settles_failAttempt (h : s.Kept) (e : Failure E) :
    (s.failAttempt a p o e).Settles a := by
  unfold failAttempt
  split
  · exact settles_endAttempt h _
  · refine settles_setAttempt ?_ rfl
    exact h

/-- An attempt installs its connection. -/
theorem settles_install (h : s.Kept) : (s.install a p o selected).Settles a := by
  unfold install
  split
  · exact settles_failAttempt h _
  · dsimp only
    split
    · refine settles_setAttempt ?_ rfl
      exact h.adopted selected
    · exact settles_endAttempt (h.adopted selected) _

/-- An attempt is past its preparation. -/
theorem settles_select (h : s.Kept) (replacement : Option ℕ) :
    (s.select a p o replacement).Settles a := by
  unfold select
  dsimp only
  split
  · refine settles_setAttempt ?_ rfl
    exact h
  · exact settles_install h

/-- The task of the attempt has not been run. -/
def Unrun (s : Manager E) (a : ℕ) : Prop := ∃ p prepare, s.attempts a = .created p prepare

/-- **A step of an attempt**: if the attempt fails with it, its peer is at rest. -/
theorem settles_resumeAttempt {answer : Answer E} (h : s.Kept)
    (ht : s.resumeAttempt a answer = some t) : t.Kept ∧ (s.Unrun a ∨ t.Settles a) := by
  have htold : ({ s with cancelled := Function.update s.cancelled a false } : Manager E).Kept := h
  have hrun : t.Settles a → t.Kept ∧ (s.Unrun a ∨ t.Settles a) := fun hs => ⟨hs.kept, Or.inr hs⟩
  unfold resumeAttempt at ht
  dsimp only at ht
  split at ht
  · split at ht <;> cases ht
    exact hrun (settles_setAttempt h rfl)
  · rename_i p prepare ha
    split at ht <;> cases ht
    exact ⟨h, Or.inl ⟨p, prepare, ha⟩⟩
  · split at ht <;> cases ht
    · exact hrun (settles_setAttempt htold rfl)
    · exact hrun (settles_select htold _)
  · cases ht
    exact hrun (settles_endAttempt htold _)
  · cases ht
    exact hrun (settles_select htold _)
  · cases ht
    exact hrun (settles_install htold)
  · cases ht
    exact hrun (settles_endAttempt htold _)
  · cases ht
    exact hrun (settles_endAttempt htold _)
  · split at ht
    · cases ht
    · split at ht <;> cases ht
      · exact hrun (settles_endAttempt htold _)
      · exact hrun (settles_failAttempt htold _)
      · exact hrun (settles_failAttempt htold _)
      · exact hrun (settles_failAttempt htold _)
      · exact hrun (settles_endAttempt htold _)
  · cases ht

end Manager

variable {transport : Str} {s t : Manager E}

/-- **Every step keeps the states.** -/
theorem kept_step {l : Label E} (h : s.Kept) (ht : step transport s l = some t) : t.Kept := by
  cases l with
  | connect k a p endpoint prepare reconnecting =>
      simp only [step] at ht
      split at ht
      · exact h.connect ht
      · cases ht
  | resumeCaller k =>
      simp only [step] at ht
      split at ht
      · split at ht <;> cases ht
        exact h
      · cases ht
  | cancelCaller k =>
      simp only [step] at ht
      split at ht <;> cases ht
      exact h
  | attempt a answer => exact (Manager.settles_resumeAttempt h ht).1
  | adopt p c => cases ht; exact h.adopt p c
  | connectionLost p c => cases ht; exact h.connectionLost p c
  | markReconnecting p => cases ht; exact h.markReconnecting p
  | markDisconnected p => cases ht; exact h.markDisconnected p
  | getById p => cases ht; exact h.getById p
  | closes c => cases ht; exact h
  | closePeer k p =>
      simp only [step] at ht
      split at ht <;> cases ht
      exact h.closePeer
  | closeAll k =>
      simp only [step] at ht
      split at ht <;> cases ht
      exact Manager.kept_closeAll s k
  | resumeCloser k => exact h.resumeCloser ht
  | cancelCloser k => exact h.cancelCloser ht

/-- **The state of a peer with a canonical connection**, in every run. -/
theorem kept_of_reachable (h : Reachable (system E transport) s) : s.Kept :=
  Reachable.invariant (I := Manager.Kept) (by rintro _ rfl; exact Manager.kept_initial)
    (fun _ _ _ hi hs => kept_step hi hs) h

/-- The step leaves the entries of the peer in `_states` and `_connections` as they are. -/
def LeavesEntries (transport : Str) (p : Str) (s : Manager E) (l : Label E) : Prop :=
  ∀ t, step transport s l = some t → t.states.lookup p = s.states.lookup p ∧
    t.connections.lookup p = s.connections.lookup p

/-- A peer stays at rest until an operation changes an entry of it. -/
theorem Manager.AtRest.run {u : Manager E} {p : Str} (h : t.AtRest p)
    (hu : ReachableWhen ((system E transport).startingAt t) (LeavesEntries transport p) u) :
    u.AtRest p := by
  refine hu.invariant (I := fun u => u.AtRest p) ?_ fun s l v hs hl hv => ?_
  · rintro _ rfl
    exact h
  · obtain ⟨hstates, hconnections⟩ := hl v hv
    simpa only [Manager.AtRest, hstates, hconnections] using hs

end ConnectionManager
end Core
end Paqto
