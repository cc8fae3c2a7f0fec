/-
# The reported states are truthful

`_states` is written apart from `_connections` and `_in_flight`.  `Truthful` says how the
entries of one peer agree, and every step keeps it for every peer
(`truthful_of_reachable`): so `state` is `CONNECTED` exactly for an open canonical
connection and `CONNECTING` only for an attempt in flight.

A closing call leaves its peers `CLOSED` when no attempt that it has cancelled gets to
its install with the mark of the call taken down by another call (`reported_states`).
An attempt may get there late, or in spite of its cancellation.
-/

import Paqto.Core.OpenAttempts

namespace Paqto
namespace Core
namespace ConnectionManager

open Transition Python

variable {E : Type}

/-- The attempt waits for `close()` of the connection it has replaced. -/
def AttemptPc.hasInstalled : AttemptPc E → Bool
  | closingPrevious _ _ _ => true
  | _ => false

namespace Manager

variable {s t u : Manager E} {transport : Str} {a k o selected : ℕ} {p q : Str}

/-- How the entries of one peer agree. -/
structure Truthful (s : Manager E) (p : Str) : Prop where
  connected : s.states.lookup p = some .connected → s.connections.lookup p ≠ none
  connecting : s.states.lookup p = some .connecting →
    ∃ a, s.inFlight.lookup p = some a ∧ (s.attempts a).hasInstalled = false
  fenced : s.isClosing p = true → s.connections.lookup p = none ∧ s.inFlight.lookup p = none

/-- Nothing is reported, and nothing is there. -/
theorem truthful_initial (p : Str) : (initial : Manager E).Truthful p where
  connected h := by simp [initial] at h
  connecting h := by simp [initial] at h
  fenced h := by simp [initial, isClosing] at h

/-- The entries of the other peers stay. -/
structure Elsewhere (s t : Manager E) (p : Str) : Prop where
  connections : ∀ q, q ≠ p → t.connections.lookup q = s.connections.lookup q
  states : ∀ q, q ≠ p → t.states.lookup q = s.states.lookup q
  inFlight : ∀ q, q ≠ p → t.inFlight.lookup q = s.inFlight.lookup q

/-- What changes none of the three tables. -/
theorem elsewhere_of_eq (hconnections : t.connections = s.connections)
    (hstates : t.states = s.states) (hinFlight : t.inFlight = s.inFlight) : s.Elsewhere t p :=
  ⟨fun _ _ => by rw [hconnections], fun _ _ => by rw [hstates], fun _ _ => by rw [hinFlight]⟩

/-- Two steps for one peer. -/
theorem Elsewhere.trans (h : s.Elsewhere t p) (h' : t.Elsewhere u p) : s.Elsewhere u p :=
  ⟨fun q hq => (h'.connections q hq).trans (h.connections q hq),
    fun q hq => (h'.states q hq).trans (h.states q hq),
    fun q hq => (h'.inFlight q hq).trans (h.inFlight q hq)⟩

/-- A state is set for this peer only. -/
theorem elsewhere_setState (s : Manager E) (p : Str) (state : ConnectionState) :
    s.Elsewhere (s.setState p state) p :=
  ⟨fun _ _ => rfl, fun _ hq => by simp [setState, hq], fun _ _ => rfl⟩

/-- `get_by_id` is about this peer only. -/
theorem elsewhere_getById (s : Manager E) (p : Str) : s.Elsewhere (s.getById p).1 p := by
  unfold getById
  split
  · split
    · refine ⟨fun q hq => by simp [hq], fun q hq => ?_, fun _ _ => rfl⟩
      dsimp only
      split
      · simp [hq]
      · rfl
    · exact elsewhere_of_eq rfl rfl rfl
  · exact elsewhere_of_eq rfl rfl rfl

/-- What the entries of a peer say depends on nothing else. -/
theorem Truthful.congr (h : s.Truthful p) (hconnections : t.connections.lookup p = s.connections.lookup p)
    (hstates : t.states.lookup p = s.states.lookup p)
    (hinFlight : t.inFlight.lookup p = s.inFlight.lookup p)
    (hclosing : t.isClosing p = true → s.isClosing p = true)
    (hattempts : ∀ a, s.inFlight.lookup p = some a → (s.attempts a).hasInstalled = false →
      (t.attempts a).hasInstalled = false) : t.Truthful p where
  connected hc := by
    rw [hconnections]
    exact h.connected (hstates ▸ hc)
  connecting hc := by
    obtain ⟨a, ha, hnot⟩ := h.connecting (hstates ▸ hc)
    exact ⟨a, hinFlight ▸ ha, hattempts a ha hnot⟩
  fenced hc := by
    rw [hconnections, hinFlight]
    exact h.fenced (hclosing hc)

/-- What is reported is read from three tables, the marks and the attempts. -/
theorem Truthful.of_eq (h : s.Truthful p) (hconnections : t.connections = s.connections)
    (hstates : t.states = s.states) (hinFlight : t.inFlight = s.inFlight)
    (hclosing : t.isClosing p = true → s.isClosing p = true) (hattempts : t.attempts = s.attempts) :
    t.Truthful p :=
  h.congr (by rw [hconnections]) (by rw [hstates]) (by rw [hinFlight]) hclosing
    fun _ _ hnot => hattempts ▸ hnot

/-- The state of a peer is set to one that says nothing about its entries. -/
theorem Truthful.setState (h : s.Truthful p) (state : ConnectionState)
    (hstate : state ≠ .connected ∧ state ≠ .connecting) : (s.setState p state).Truthful p where
  connected hc := by
    simp only [Manager.setState, AList.lookup_insert, Option.some.injEq] at hc
    exact absurd hc hstate.1
  connecting hc := by
    simp only [Manager.setState, AList.lookup_insert, Option.some.injEq] at hc
    exact absurd hc hstate.2
  fenced := h.fenced

/-- `get_by_id` takes down no mark. -/
theorem isClosing_getById (s : Manager E) (p q : Str) :
    (s.getById p).1.isClosing q = s.isClosing q := by
  unfold getById isClosing
  split
  · split <;> rfl
  · rfl

/-- `get_by_id` forgets a closed connection and reports it. -/
theorem Truthful.getById (h : s.Truthful p) : (s.getById p).1.Truthful p := by
  unfold Manager.getById
  split
  · split
    · refine ⟨fun hc => ?_, fun hc => ?_, fun hc => ?_⟩
      · dsimp only at hc
        split at hc
        · simp at hc
        · rename_i hnot
          exact absurd hc hnot
      · dsimp only at hc
        split at hc
        · simp at hc
        · exact h.connecting hc
      · exact ⟨by simp, (h.fenced hc).2⟩
    · exact h
  · exact h

/-- `adopt` reports what it installs. -/
theorem Truthful.adopt (h : s.Truthful p) (c : ℕ) : (s.adopt p c).Truthful p := by
  unfold Manager.adopt
  split
  · exact h
  · rename_i hopen
    refine ⟨fun _ => by simp [Manager.setState], fun hc => ?_, fun hc => absurd hc hopen⟩
    simp [Manager.setState] at hc

/-- `connection_lost` reports what it takes out. -/
theorem Truthful.connectionLost (h : s.Truthful p) (c : ℕ) : (s.connectionLost p c).Truthful p := by
  unfold Manager.connectionLost
  split
  · rename_i hc
    dsimp only
    split
    · -- no connection is held of a peer that is being closed
      rename_i hclosing
      rw [(h.fenced hclosing).1] at hc
      cases hc
    · rename_i hopen
      refine ⟨fun hs => ?_, fun hs => ?_, fun hs => absurd hs hopen⟩
      · simp [Manager.setState] at hs
      · simp [Manager.setState] at hs
  · exact h

/-- `mark_reconnecting` reports only where no connection is. -/
theorem Truthful.markReconnecting (h : s.Truthful p) : (s.markReconnecting p).Truthful p := by
  have hget := h.getById
  unfold Manager.markReconnecting
  split
  · exact h
  · split <;> rename_i heq <;> rw [heq] at hget
    · exact hget.setState _ (by decide)
    · exact hget

/-- `mark_disconnected` likewise. -/
theorem Truthful.markDisconnected (h : s.Truthful p) : (s.markDisconnected p).Truthful p := by
  have hget := h.getById
  unfold Manager.markDisconnected
  split <;> rename_i heq <;> rw [heq] at hget
  · split
    · exact hget
    · exact hget.setState _ (by decide)
  · exact hget

/-- `adopt` is about this peer only. -/
theorem elsewhere_adopt (s : Manager E) (p : Str) (c : ℕ) : s.Elsewhere (s.adopt p c) p := by
  unfold adopt
  split
  · exact elsewhere_of_eq rfl rfl rfl
  · exact ⟨fun q hq => by simp [setState, hq], fun q hq => by simp [setState, hq], fun _ _ => rfl⟩

/-- So is `connection_lost`. -/
theorem elsewhere_connectionLost (s : Manager E) (p : Str) (c : ℕ) :
    s.Elsewhere (s.connectionLost p c) p := by
  have herase : s.Elsewhere { s with connections := s.connections.erase p } p :=
    ⟨fun q hq => by simp [hq], fun _ _ => rfl, fun _ _ => rfl⟩
  unfold connectionLost
  split
  · dsimp only
    split
    · exact herase
    · exact herase.trans (elsewhere_setState _ p _)
  · exact elsewhere_of_eq rfl rfl rfl

/-- So is `mark_reconnecting`. -/
theorem elsewhere_markReconnecting (s : Manager E) (p : Str) :
    s.Elsewhere (s.markReconnecting p) p := by
  have hget := s.elsewhere_getById p
  unfold markReconnecting
  split
  · exact elsewhere_of_eq rfl rfl rfl
  · split <;> rename_i heq <;> rw [heq] at hget
    · exact hget.trans (elsewhere_setState _ p _)
    · exact hget

/-- So is `mark_disconnected`. -/
theorem elsewhere_markDisconnected (s : Manager E) (p : Str) :
    s.Elsewhere (s.markDisconnected p) p := by
  have hget := s.elsewhere_getById p
  unfold markDisconnected
  split <;> rename_i heq <;> rw [heq] at hget
  · split
    · exact hget
    · exact hget.trans (elsewhere_setState _ p _)
  · exact hget

/-! ## `connect` -/

/-- So is `connect`. -/
theorem elsewhere_connect {endpoint : Endpoint} {prepare reconnecting : Bool}
    (ht : s.connect transport k a p endpoint prepare reconnecting = some t) :
    s.Elsewhere t p := by
  unfold connect at ht
  split at ht
  · cases ht
    exact elsewhere_of_eq rfl rfl rfl
  · split at ht
    · cases ht
      exact elsewhere_of_eq rfl rfl rfl
    · have hget := s.elsewhere_getById p
      split at ht <;> rename_i heq <;> rw [heq] at hget
      · cases ht
        exact hget.trans (elsewhere_of_eq rfl rfl rfl)
      · split at ht
        · cases ht
          exact hget.trans (elsewhere_of_eq rfl rfl rfl)
        · split at ht <;> cases ht
          refine hget.trans ⟨fun _ _ => rfl, fun q hq => ?_, fun q hq => ?_⟩
          · simp [setCaller, setAttempt, setState, hq]
          · simp [setCaller, setAttempt, setState, hq]

/-- `connect` reports the attempt that it starts. -/
theorem Truthful.connect (h : s.Truthful p) {endpoint : Endpoint} {prepare reconnecting : Bool}
    (ht : s.connect transport k a p endpoint prepare reconnecting = some t) : t.Truthful p := by
  unfold Manager.connect at ht
  split at ht
  · cases ht
    exact h.of_eq rfl rfl rfl id rfl
  · split at ht
    · cases ht
      exact h.of_eq rfl rfl rfl id rfl
    · rename_i hopen
      have hget := h.getById
      have hsame := s.isClosing_getById p p
      split at ht <;> rename_i heq <;> rw [heq] at hget hsame
      · cases ht
        exact hget.of_eq rfl rfl rfl id rfl
      · split at ht
        · cases ht
          exact hget.of_eq rfl rfl rfl id rfl
        · split at ht <;> cases ht
          refine ⟨fun hc => ?_, fun _ => ⟨a, ?_, ?_⟩, fun hc => absurd (hsame ▸ hc) hopen⟩
          · cases reconnecting <;> simp [setCaller, setAttempt, Manager.setState] at hc
          · simp [setCaller, setAttempt, Manager.setState]
          · simp [setCaller, setAttempt, AttemptPc.hasInstalled]

/-! ## Attempts -/

/-- An attempt moves, before it has installed or after its state was set. -/
theorem Truthful.setAttempt (h : s.Truthful p) {pc : AttemptPc E}
    (hpc : pc.hasInstalled = false ∨ s.states.lookup p ≠ some .connecting) :
    (s.setAttempt a pc).Truthful p where
  connected := h.connected
  connecting hc := by
    rcases hpc with hpc | hpc
    · obtain ⟨b, hb, hnot⟩ := h.connecting hc
      refine ⟨b, hb, ?_⟩
      by_cases hba : b = a
      · simpa [Manager.setAttempt, hba] using hpc
      · simpa [Manager.setAttempt, Function.update_of_ne hba] using hnot
    · exact absurd hc hpc
  fenced := h.fenced

/-- The end of an attempt that has failed. -/
theorem Truthful.endFailed (hk : s.Kept) {pc : AttemptPc E}
    (hfenced : s.isClosing p = true → s.connections.lookup p = none ∧ s.inFlight.lookup p = none) :
    (match s.getById p with
      | (t, none) =>
          (t.setState p (if t.isClosing p then .closed else .disconnected)).setAttempt a pc
      | (t, some _) => t.setAttempt a pc : Manager E).Truthful p := by
  have hinFlight := s.getById_inFlight p
  have hclosing := s.isClosing_getById p p
  rcases heq : s.getById p with ⟨t, _ | c⟩
  · have hnone := lookup_getById_of_none (congrArg Prod.snd heq)
    rw [heq] at hinFlight hclosing hnone
    refine ⟨fun hc => ?_, fun hc => ?_, fun hc => ⟨hnone, ?_⟩⟩
    · simp only [Manager.setAttempt, Manager.setState, AList.lookup_insert] at hc
      split at hc <;> cases hc
    · simp only [Manager.setAttempt, Manager.setState, AList.lookup_insert] at hc
      split at hc <;> cases hc
    · have hsame : t.inFlight = s.inFlight := hinFlight
      simp only [Manager.setAttempt, Manager.setState, hsame]
      exact (hfenced (hclosing ▸ hc)).2
  · obtain ⟨hc, hsame⟩ := lookup_getById_of_some (congrArg Prod.snd heq)
    rw [heq] at hsame
    have hts : t = s := hsame
    rw [hts]
    refine ⟨fun _ => ?_, fun hs => ?_, hfenced⟩
    · simp only [Manager.setAttempt, hc]
      rintro ⟨⟩
    · have hstate : s.states.lookup p = some .connecting := hs
      rcases hk p c hc with hkept | hkept
      · rw [hstate] at hkept
        cases hkept
      · rw [hstate] at hkept
        cases hkept

/-- An attempt leaves `_in_flight`, where it was one that has installed or failed. -/
theorem Truthful.endAttempt (h : s.Truthful p) (hk : s.Kept) {outcome : Except (Failure E) ℕ}
    (hok : ∀ c, outcome = .ok c → s.states.lookup p = some .connecting →
      s.inFlight.lookup p ≠ some a) : (s.endAttempt a p outcome).Truthful p := by
  have hpop : ∀ b, s.inFlight.lookup p = some b → b ≠ a →
      (if s.inFlight.lookup p = some a then s.inFlight.erase p else s.inFlight).lookup p = some b := by
    intro b hb hba
    rw [if_neg (by rw [hb, Option.some.injEq]; exact hba), hb]
  have hnone : s.inFlight.lookup p = none →
      (if s.inFlight.lookup p = some a then s.inFlight.erase p else s.inFlight).lookup p = none := by
    intro hp
    rw [if_neg (by rw [hp]; rintro ⟨⟩), hp]
  unfold Manager.endAttempt
  dsimp only
  split
  · rename_i c
    refine ⟨h.connected, fun hc => ?_, fun hc => ⟨(h.fenced hc).1, hnone (h.fenced hc).2⟩⟩
    obtain ⟨b, hb, hnot⟩ := h.connecting hc
    have hba : b ≠ a := by
      rintro rfl
      exact hok c rfl hc hb
    exact ⟨b, hpop b hb hba, by simpa [Manager.setAttempt, Function.update_of_ne hba] using hnot⟩
  · have hkpop : ({ s with
        inFlight := if s.inFlight.lookup p = some a then s.inFlight.erase p
          else s.inFlight } : Manager E).Kept := hk
    have hfenced : ({ s with
        inFlight := if s.inFlight.lookup p = some a then s.inFlight.erase p
          else s.inFlight } : Manager E).isClosing p = true → s.connections.lookup p = none ∧
        (if s.inFlight.lookup p = some a then s.inFlight.erase p
          else s.inFlight).lookup p = none :=
      fun hc => ⟨(h.fenced hc).1, hnone (h.fenced hc).2⟩
    exact Truthful.endFailed hkpop hfenced

/-- An attempt that fails reports what is left. -/
theorem Truthful.failAttempt (h : s.Truthful p) (hk : s.Kept) (e : Failure E) :
    (s.failAttempt a p o e).Truthful p := by
  unfold Manager.failAttempt
  split
  · exact h.endAttempt hk (by rintro c ⟨⟩)
  · refine Truthful.setAttempt ?_ (Or.inl rfl)
    exact h.of_eq rfl rfl rfl id rfl

/-- An attempt reports what it installs. -/
theorem Truthful.install (h : s.Truthful p) (hk : s.Kept) :
    (s.install a p o selected).Truthful p := by
  unfold Manager.install
  split
  · exact h.failAttempt hk _
  · rename_i hopen
    have hset : ({ s with connections := s.connections.insert p selected }.setState p
        .connected).Truthful p := by
      refine ⟨fun _ => by simp [Manager.setState], fun hc => ?_, fun hc => absurd hc hopen⟩
      simp [Manager.setState] at hc
    dsimp only
    split
    · rename_i previous _
      have hcalled : (({ s with connections := s.connections.insert p selected }.setState p
          .connected).callClose previous).Truthful p := hset.of_eq rfl rfl rfl id rfl
      exact hcalled.setAttempt (Or.inr (by simp [callClose, Manager.setState]))
    · exact hset.endAttempt (hk.adopted selected) fun c _ hc => by simp [Manager.setState] at hc

/-- An attempt whose connection was selected. -/
theorem Truthful.select (h : s.Truthful p) (hk : s.Kept) (replacement : Option ℕ) :
    (s.select a p o replacement).Truthful p := by
  unfold Manager.select
  dsimp only
  split
  · refine Truthful.setAttempt ?_ (Or.inl rfl)
    exact h.of_eq rfl rfl rfl id rfl
  · exact h.install hk

/-- **A step of an attempt is reported.** -/
theorem Truthful.resumeAttempt (h : s.Truthful p) (hk : s.Kept)
    (ha : (s.attempts a).peer = some p) {answer : Answer E}
    (ht : s.resumeAttempt a answer = some t) : t.Truthful p := by
  have htold : ({ s with cancelled := Function.update s.cancelled a false } : Manager E).Truthful p :=
    h.of_eq rfl rfl rfl id rfl
  have hktold : ({ s with cancelled := Function.update s.cancelled a false } : Manager E).Kept := hk
  unfold Manager.resumeAttempt at ht
  dsimp only at ht
  split at ht <;> rename_i hpc
  · split at ht <;> cases ht
    exact h.setAttempt (Or.inl rfl)
  · split at ht <;> cases ht
    exact htold.setAttempt (Or.inl rfl)
  all_goals try (rw [hpc] at ha; cases ha)
  · split at ht <;> cases ht
    · exact htold.setAttempt (Or.inl rfl)
    · exact htold.select hktold _
  · cases ht
    exact htold.endAttempt hktold (by rintro c ⟨⟩)
  · cases ht
    exact htold.select hktold _
  · cases ht
    exact htold.install hktold
  · cases ht
    refine htold.endAttempt hktold fun c _ hc hin => ?_
    -- the state was set to `CONNECTED` with the install
    obtain ⟨b, hb, hnot⟩ := htold.connecting hc
    obtain rfl := Option.some.inj (hb.symm.trans hin)
    simp only [hpc] at hnot
    cases hnot
  · cases ht
    exact htold.endAttempt hktold (by rintro c ⟨⟩)
  · split at ht
    · cases ht
    · split at ht <;> cases ht <;> rename_i hpc' <;> rw [hpc'] at ha <;> cases ha
      · exact htold.endAttempt hktold (by rintro c ⟨⟩)
      · exact htold.failAttempt hktold _
      · exact htold.failAttempt hktold _
      · exact htold.failAttempt hktold _
      · exact htold.endAttempt hktold (by rintro c ⟨⟩)
  · cases ht

/-- The end of an attempt is about its peer only. -/
theorem elsewhere_endAttempt (s : Manager E) (a : ℕ) (p : Str) (outcome : Except (Failure E) ℕ) :
    s.Elsewhere (s.endAttempt a p outcome) p := by
  have hpop : s.Elsewhere { s with
      inFlight := if s.inFlight.lookup p = some a then s.inFlight.erase p else s.inFlight } p := by
    refine ⟨fun _ _ => rfl, fun _ _ => rfl, fun q hq => ?_⟩
    dsimp only
    split
    · simp [hq]
    · rfl
  have hget := hpop.trans (elsewhere_getById _ p)
  unfold endAttempt
  dsimp only
  split
  · exact hpop.trans (elsewhere_of_eq rfl rfl rfl)
  · split <;> rename_i heq <;> rw [heq] at hget
    · exact hget.trans ((elsewhere_setState _ p _).trans (elsewhere_of_eq rfl rfl rfl))
    · exact hget.trans (elsewhere_of_eq rfl rfl rfl)

/-- So is its failure. -/
theorem elsewhere_failAttempt (s : Manager E) (a : ℕ) (p : Str) (o : ℕ) (e : Failure E) :
    s.Elsewhere (s.failAttempt a p o e) p := by
  unfold failAttempt
  split
  · exact s.elsewhere_endAttempt a p _
  · exact elsewhere_of_eq rfl rfl rfl

/-- So is its installation. -/
theorem elsewhere_install (s : Manager E) (a : ℕ) (p : Str) (o selected : ℕ) :
    s.Elsewhere (s.install a p o selected) p := by
  have hset : s.Elsewhere ({ s with connections := s.connections.insert p selected }.setState p
      .connected) p :=
    ⟨fun q hq => by simp [setState, hq], fun q hq => by simp [setState, hq], fun _ _ => rfl⟩
  unfold install
  split
  · exact s.elsewhere_failAttempt a p o _
  · dsimp only
    split
    · exact hset.trans (elsewhere_of_eq rfl rfl rfl)
    · exact hset.trans (elsewhere_endAttempt _ a p _)

/-- So is the selection. -/
theorem elsewhere_select (s : Manager E) (a : ℕ) (p : Str) (o : ℕ) (replacement : Option ℕ) :
    s.Elsewhere (s.select a p o replacement) p := by
  unfold select
  dsimp only
  split
  · exact elsewhere_of_eq rfl rfl rfl
  · exact s.elsewhere_install a p o _

/-- So is whatever it does. -/
theorem elsewhere_resumeAttempt {answer : Answer E} (ha : (s.attempts a).peer = some p)
    (ht : s.resumeAttempt a answer = some t) : s.Elsewhere t p := by
  have htold : s.Elsewhere { s with cancelled := Function.update s.cancelled a false } p :=
    elsewhere_of_eq rfl rfl rfl
  unfold resumeAttempt at ht
  dsimp only at ht
  split at ht <;> rename_i hpc
  · split at ht <;> cases ht
    exact elsewhere_of_eq rfl rfl rfl
  · split at ht <;> cases ht
    exact elsewhere_of_eq rfl rfl rfl
  all_goals try (rw [hpc] at ha; cases ha)
  · split at ht <;> cases ht
    · exact elsewhere_of_eq rfl rfl rfl
    · exact htold.trans (elsewhere_select _ a p _ _)
  · cases ht
    exact htold.trans (elsewhere_endAttempt _ a p _)
  · cases ht
    exact htold.trans (elsewhere_select _ a p _ _)
  · cases ht
    exact htold.trans (elsewhere_install _ a p _ _)
  · cases ht
    exact htold.trans (elsewhere_endAttempt _ a p _)
  · cases ht
    exact htold.trans (elsewhere_endAttempt _ a p _)
  · split at ht
    · cases ht
    · split at ht <;> cases ht <;> rename_i hpc' <;> rw [hpc'] at ha <;> cases ha
      · exact htold.trans (elsewhere_endAttempt _ a p _)
      · exact htold.trans (elsewhere_failAttempt _ a p _ _)
      · exact htold.trans (elsewhere_failAttempt _ a p _ _)
      · exact htold.trans (elsewhere_failAttempt _ a p _ _)
      · exact htold.trans (elsewhere_endAttempt _ a p _)
  · cases ht

/-! ## Closing calls -/

/-- `close_peer` takes its mark down. -/
theorem Truthful.endClosePeer (h : s.Truthful q) : (s.endClosePeer k p).Truthful q := by
  have hlower : ({ s with
      closingPeers := Function.update s.closingPeers p false } : Manager E).Truthful q := by
    refine h.congr rfl rfl rfl (fun hc => ?_) fun _ _ => id
    by_cases hq : q = p
    · subst hq
      simp only [isClosing, Function.update_self, Bool.or_false] at hc
      simp [isClosing, hc]
    · simpa [isClosing, Function.update_of_ne hq] using hc
  unfold Manager.endClosePeer
  dsimp only
  split
  · rename_i hgone
    by_cases hq : q = p
    · subst hq
      have hset := hlower.setState .closed (by decide)
      exact hset.of_eq rfl rfl rfl id rfl
    · have hset := elsewhere_setState
        { s with closingPeers := Function.update s.closingPeers p false } p .closed
      exact hlower.congr (hset.connections q hq) (hset.states q hq) (hset.inFlight q hq) id
        fun _ _ => id
  · exact hlower.of_eq rfl rfl rfl id rfl

/-- `close_peer` goes on after its attempt has ended. -/
theorem Truthful.closeGathered (h : s.Truthful q) {connection : Option ℕ} :
    (s.closeGathered k p connection).Truthful q := by
  unfold Manager.closeGathered
  split
  · exact h.of_eq rfl rfl rfl id rfl
  · exact h.endClosePeer

/-- `close_peer` begins, and reports that it is closing. -/
theorem Truthful.closePeer (h : s.Truthful q) : (s.closePeer k p).Truthful q := by
  have hpop : ({ s with
      closingPeers := Function.update s.closingPeers p true
      inFlight := s.inFlight.erase p
      connections := s.connections.erase p }.setState p .closing : Manager E).Truthful q := by
    by_cases hq : q = p
    · subst hq
      refine ⟨fun hc => ?_, fun hc => ?_, fun _ => ?_⟩
      · simp [Manager.setState] at hc
      · simp [Manager.setState] at hc
      · simp [Manager.setState]
    · refine h.congr ?_ ?_ ?_ (fun hc => ?_) fun _ _ => id
      · simp [Manager.setState, hq]
      · simp [Manager.setState, hq]
      · simp [Manager.setState, hq]
      · simpa [Manager.setState, isClosing, Function.update_of_ne hq] using hc
  unfold Manager.closePeer
  dsimp only
  split
  · exact hpop.of_eq rfl rfl rfl id rfl
  · exact hpop.closeGathered

/-- `close_all` takes its marks down. -/
theorem Truthful.endCloseAll (h : s.Truthful q) {peers : List Str} :
    (s.endCloseAll k peers).Truthful q := by
  have hstates : (s.endCloseAll k peers).states.lookup q = some .closed ∨
      (s.endCloseAll k peers).states.lookup q = s.states.lookup q :=
    lookup_foldl_insert .closed peers s.states q
  refine ⟨fun hc => ?_, fun hc => ?_, fun hc => ?_⟩
  · rcases hstates with hset | hsame
    · rw [hset] at hc
      cases hc
    · exact h.connected (hsame ▸ hc)
  · rcases hstates with hset | hsame
    · rw [hset] at hc
      cases hc
    · exact h.connecting (hsame ▸ hc)
  · simp [Manager.endCloseAll, isClosing, setCloser] at hc

/-- `close_all` goes on after the attempts have ended. -/
theorem Truthful.closeAllGathered (h : s.Truthful q) {connections : List ℕ} {peers : List Str} :
    (s.closeAllGathered k connections peers).Truthful q := by
  unfold Manager.closeAllGathered
  split
  · exact h.endCloseAll
  · exact h.of_eq rfl rfl rfl id rfl

/-- Every peer with a state is covered, and set to `CLOSING`. -/
theorem lookup_closing {peers : List Str} {states : PeerDict ConnectionState}
    (hpeers : ∀ p, states.lookup p ≠ none → p ∈ peers) (q : Str) :
    (peers.foldl (fun states p => states.insert p .closing) states).lookup q = some .closing ∨
      (peers.foldl (fun states p => states.insert p .closing) states).lookup q = none := by
  by_cases hq : q ∈ peers
  · exact Or.inl (lookup_foldl_of_mem .closing hq states)
  · rcases lookup_foldl_insert .closing peers states q with h | h
    · exact Or.inl h
    · refine Or.inr (h.trans ?_)
      by_contra hsome
      exact hq (hpeers q hsome)

/-- `close_all` is about every peer that has a state. -/
theorem mem_peers_of_lookup (s : Manager E) (p : Str) (hp : s.states.lookup p ≠ none) :
    p ∈ (s.states.keys ++ s.connections.keys ++ s.inFlight.keys).dedup := by
  have hmem : p ∈ s.states.keys := by
    rw [← AList.mem_keys, ← AList.lookup_isSome, Option.isSome_iff_ne_none]
    exact hp
  simp [hmem]

/-- `close_all` begins, and reports that every peer is closing. -/
theorem truthful_closeAll (s : Manager E) (k : ℕ) (q : Str) : (s.closeAll k).Truthful q := by
  have hclear : ({ s with
      closing := true
      states := (s.states.keys ++ s.connections.keys ++ s.inFlight.keys).dedup.foldl
        (fun states p => states.insert p .closing) s.states
      inFlight := ∅
      connections := ∅ }.cancelTasks (values s.inFlight)).Truthful q := by
    have hstates := lookup_closing (s.mem_peers_of_lookup) q
    refine ⟨fun hc => ?_, fun hc => ?_, fun _ => ⟨rfl, rfl⟩⟩
    · rcases hstates with h | h <;> cases h.symm.trans hc
    · rcases hstates with h | h <;> cases h.symm.trans hc
  unfold closeAll
  dsimp only
  split
  · exact hclear.closeAllGathered
  · exact hclear.of_eq rfl rfl rfl id rfl

/-- A closing call goes on. -/
theorem Truthful.resumeCloser (h : s.Truthful q) (ht : s.resumeCloser k = some t) :
    t.Truthful q := by
  unfold Manager.resumeCloser at ht
  split at ht
  · split at ht <;> cases ht
    exact h.closeGathered
  · split at ht <;> cases ht
    exact h.endClosePeer
  · cases ht
    exact h.endClosePeer
  · split at ht <;> cases ht
    exact h.closeAllGathered
  · split at ht <;> cases ht
    exact h.of_eq rfl rfl rfl id rfl
  · cases ht
    exact h.endCloseAll
  · cases ht

/-- A closing call is cancelled. -/
theorem Truthful.cancelCloser (h : s.Truthful q) (ht : s.cancelCloser k = some t) :
    t.Truthful q := by
  unfold Manager.cancelCloser at ht
  split at ht <;> cases ht
  · exact h.of_eq rfl rfl rfl id rfl
  · exact h.endClosePeer
  · exact h.of_eq rfl rfl rfl id rfl
  · exact h.of_eq rfl rfl rfl id rfl

/-! ## Every step -/

/-- A step that is about the peer `p`, for any other peer. -/
theorem Truthful.elsewhere (h : s.Truthful q) (he : s.Elsewhere t p) (hq : q ≠ p)
    (hclosing : t.isClosing q = s.isClosing q)
    (hattempts : ∀ a, s.inFlight.lookup q = some a → t.attempts a = s.attempts a) :
    t.Truthful q :=
  h.congr (he.connections q hq) (he.states q hq) (he.inFlight q hq) (fun hc => hclosing ▸ hc)
    fun a ha hnot => hattempts a ha ▸ hnot

end Manager

variable {transport : Str} {s t : Manager E}

/-- **Every step is reported.** -/
theorem truthful_step {l : Label E} {q : Str} (hk : s.Kept) (hr : s.Registered)
    (h : s.Truthful q) (ht : step transport s l = some t) : t.Truthful q := by
  have hpeer : ∀ b, s.inFlight.lookup q = some b → (s.attempts b).peer = some q :=
    fun b hb => (hr.flight q b hb).1
  cases l with
  | connect k a p endpoint prepare reconnecting =>
      simp only [step] at ht
      split at ht
      · by_cases hq : q = p
        · subst hq
          exact h.connect ht
        · refine h.elsewhere (Manager.elsewhere_connect ht) hq
            ((Manager.held_connect ht).isClosing q) fun b hb => ?_
          obtain ⟨-, hsame | ⟨habsent, hnew⟩⟩ := Manager.connect_attempts ht
          · rw [hsame]
          · have hba : b ≠ a := by
              rintro rfl
              have hp := hpeer b hb
              rw [habsent] at hp
              cases hp
            rw [hnew, Function.update_of_ne hba]
      · cases ht
  | resumeCaller k =>
      simp only [step] at ht
      split at ht
      · split at ht <;> cases ht
        exact h.of_eq rfl rfl rfl id rfl
      · cases ht
  | cancelCaller k =>
      simp only [step] at ht
      split at ht <;> cases ht
      exact h.of_eq rfl rfl rfl id rfl
  | attempt a answer =>
      have hresume : s.resumeAttempt a answer = some t := ht
      obtain ⟨p, ha, -⟩ := Manager.attemptStep_resumeAttempt hresume
      by_cases hq : q = p
      · subst hq
        exact h.resumeAttempt hk ha hresume
      · refine h.elsewhere (Manager.elsewhere_resumeAttempt ha hresume) hq
          ((Manager.held_resumeAttempt hresume).isClosing q) fun b hb => ?_
        have hba : b ≠ a := by
          rintro rfl
          exact hq (Option.some.inj ((hpeer b hb).symm.trans ha))
        exact Manager.others_resumeAttempt hba hresume
  | adopt p c =>
      cases ht
      by_cases hq : q = p
      · subst hq
        exact h.adopt c
      · refine h.elsewhere (Manager.elsewhere_adopt s p c) hq ((s.held_adopt p c).isClosing q) ?_
        exact fun _ _ => congrFun (s.rests_adopt p c).attempts _
  | connectionLost p c =>
      cases ht
      by_cases hq : q = p
      · subst hq
        exact h.connectionLost c
      · refine h.elsewhere (Manager.elsewhere_connectionLost s p c) hq
          ((s.held_connectionLost p c).isClosing q) ?_
        exact fun _ _ => congrFun (s.rests_connectionLost p c).attempts _
  | markReconnecting p =>
      cases ht
      by_cases hq : q = p
      · subst hq
        exact h.markReconnecting
      · refine h.elsewhere (Manager.elsewhere_markReconnecting s p) hq
          ((s.held_markReconnecting p).isClosing q) ?_
        exact fun _ _ => congrFun (s.rests_markReconnecting p).attempts _
  | markDisconnected p =>
      cases ht
      by_cases hq : q = p
      · subst hq
        exact h.markDisconnected
      · refine h.elsewhere (Manager.elsewhere_markDisconnected s p) hq
          ((s.held_markDisconnected p).isClosing q) ?_
        exact fun _ _ => congrFun (s.rests_markDisconnected p).attempts _
  | getById p =>
      cases ht
      by_cases hq : q = p
      · subst hq
        exact h.getById
      · refine h.elsewhere (s.elsewhere_getById p) hq (s.isClosing_getById p q) ?_
        exact fun _ _ => congrFun (s.rests_getById p).attempts _
  | closes c => cases ht; exact h.of_eq rfl rfl rfl id rfl
  | closePeer k p =>
      simp only [step] at ht
      split at ht <;> cases ht
      exact h.closePeer
  | closeAll k =>
      simp only [step] at ht
      split at ht <;> cases ht
      exact s.truthful_closeAll k q
  | resumeCloser k => exact h.resumeCloser ht
  | cancelCloser k => exact h.cancelCloser ht

/-- **The tables agree on every peer**, in every run. -/
theorem truthful_of_reachable (h : Reachable (system E transport) s) (p : Str) :
    s.Truthful p := by
  have hall : s.Kept ∧ s.Registered ∧ ∀ p, s.Truthful p := by
    refine Reachable.invariant
      (I := fun s : Manager E => s.Kept ∧ s.Registered ∧ ∀ p, s.Truthful p) ?_ ?_ h
    · rintro _ rfl
      exact ⟨Manager.kept_initial, Manager.registered_initial, Manager.truthful_initial⟩
    · rintro s l t ⟨hk, hr, hs⟩ ht
      exact ⟨kept_step hk ht, registered_step hr ht, fun p => truthful_step hk hr (hs p) ht⟩
  exact hall.2.2 p

namespace Manager

variable {p : Str}

/-- `state` is `CONNECTED` for an open canonical connection only. -/
theorem state_eq_connected (h : s.Truthful p) :
    s.state p = .connected ↔ ∃ c, s.connections.lookup p = some c ∧ s.isClosed c = false := by
  have hget := h.getById
  constructor
  · intro hstate
    rcases heq : (s.getById p).2 with _ | c
    · have hnone := lookup_getById_of_none heq
      rw [Manager.state, heq] at hstate
      rcases hlookup : (s.getById p).1.states.lookup p with _ | state
      · rw [hlookup] at hstate
        cases hstate
      · rw [hlookup] at hstate
        have hconnected : state = .connected := hstate
        exact absurd hnone (hget.connected (hconnected ▸ hlookup))
    · obtain ⟨hc, -⟩ := lookup_getById_of_some heq
      refine ⟨c, hc, ?_⟩
      unfold Manager.getById at heq
      rw [hc] at heq
      dsimp only at heq
      split at heq
      · cases heq
      · rename_i hopen
        exact Bool.eq_false_iff.2 hopen
  · rintro ⟨c, hc, hopen⟩
    simp [Manager.state, Manager.getById, hc, hopen]

/-- `state` is `CONNECTING` only for an attempt in flight. -/
theorem lookup_of_connecting (h : s.Truthful p) (hstate : s.state p = .connecting) :
    ∃ a, s.inFlight.lookup p = some a := by
  have hget := h.getById
  rcases heq : (s.getById p).2 with _ | c
  · rw [Manager.state, heq] at hstate
    rcases hlookup : (s.getById p).1.states.lookup p with _ | state
    · rw [hlookup] at hstate
      cases hstate
    · rw [hlookup] at hstate
      have hconnecting : state = .connecting := hstate
      obtain ⟨a, ha, -⟩ := hget.connecting (hconnecting ▸ hlookup)
      exact ⟨a, by rwa [getById_inFlight] at ha⟩
  · rw [Manager.state, heq] at hstate
    cases hstate

/-- Without a connection `state` reads the table. -/
theorem state_of_lookup {state : ConnectionState} (hc : s.connections.lookup p = none)
    (hstate : s.states.lookup p = some state) : s.state p = state := by
  simp [Manager.state, Manager.getById, hc, hstate]

end Manager

end ConnectionManager
end Core
end Paqto
