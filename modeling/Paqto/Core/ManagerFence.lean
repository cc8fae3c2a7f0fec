/-
# The fence of a closing manager

While `close_peer(p)` or `close_all()` runs, `_closing_peers` or `_closing` is
to keep every install and every new attempt for `p` out.  Both are shared by
the calls that overlap: the first call to finish takes down the fence of the
others (`KeepsFence` says when it does not).
-/

import Mathlib.Data.List.Dedup
import Paqto.Core.ConnectionManager

namespace Paqto
namespace Core
namespace ConnectionManager

open Transition Python

variable {E : Type}

/-- The call closes `p`, and has not finished. -/
def CloserPc.closes : CloserPc → Str → Prop
  | gathering q _ _, p | gatheringCancelled q _, p | closing q _, p => q = p
  | gatheringAll _ _ _, _ | gatheringAllCancelled _, _ | closingAll _ _, _ => True
  | absent, _ | finished, _ => False

/-- The step installs a connection or starts an attempt for a peer that is
being closed. -/
def BreaksFence (transport : Str) (s : Manager E) (l : Label E) : Prop :=
  ∃ t k p, step transport s l = some t ∧ (s.closers k).closes p ∧
    ((∃ c, t.connections.lookup p = some c ∧ s.connections.lookup p ≠ some c) ∨
      ∃ a, t.inFlight.lookup p = some a ∧ s.inFlight.lookup p ≠ some a)

/-- The step takes the call `k` of `close_peer(p)` through its `finally`. -/
def EndsClosePeer (s : Manager E) : Label E → ℕ → Str → Prop
  | .closePeer i q, k, p =>
      i = k ∧ q = p ∧ s.inFlight.lookup p = none ∧ s.connections.lookup p = none
  | .resumeCloser i, k, p =>
      i = k ∧ ((∃ a, s.closers k = .gathering p a none ∨ s.closers k = .gatheringCancelled p a) ∨
        ∃ c, s.closers k = .closing p c)
  | .cancelCloser i, k, p => i = k ∧ ∃ c, s.closers k = .closing p c
  | _, _, _ => False

/-- The step takes the call `k` of `close_all()` to its end. -/
def EndsCloseAll (s : Manager E) : Label E → ℕ → Prop
  | .closeAll i, k => i = k ∧ s.inFlight.entries = [] ∧ s.connections.entries = []
  | .resumeCloser i, k =>
      i = k ∧ ((∃ tasks peers, s.closers k = .gatheringAll tasks [] peers) ∨
        ∃ connections peers, s.closers k = .closingAll connections peers)
  | _, _ => False

/-- A call that ends leaves the fence of every other one that still runs:
`close_peer(p)` is the last call that closes `p`, unless `_closing` is set, and
`close_all()` is the last call. -/
structure KeepsFence (s : Manager E) (l : Label E) : Prop where
  peer : ∀ k p, EndsClosePeer s l k p → s.closing = false →
    ∀ i, i ≠ k → ¬ (s.closers i).closes p
  all : ∀ k, EndsCloseAll s l k → ∀ i p, i ≠ k → ¬ (s.closers i).closes p

namespace Manager

variable {s t u : Manager E} {transport : Str}

/-- **The fence stands** for every call that runs. -/
def Fenced (s : Manager E) : Prop := ∀ k p, (s.closers k).closes p → s.isClosing p = true

/-- No closing call is open at the beginning. -/
theorem fenced_initial : (initial : Manager E).Fenced := fun _ _ h => h.elim

/-- A step that is none of a closing call: it leaves the fence, and behind it
things only go. -/
structure Held (s t : Manager E) : Prop where
  closers : t.closers = s.closers
  closing : t.closing = s.closing
  closingPeers : t.closingPeers = s.closingPeers
  connections : ∀ p c, s.isClosing p = true → t.connections.lookup p = some c →
    s.connections.lookup p = some c
  inFlight : ∀ p a, s.isClosing p = true → t.inFlight.lookup p = some a →
    s.inFlight.lookup p = some a

/-- Nothing happens. -/
theorem Held.refl (s : Manager E) : s.Held s := ⟨rfl, rfl, rfl, fun _ _ _ => id, fun _ _ _ => id⟩

/-- The same peers are being closed. -/
theorem Held.isClosing (h : s.Held t) (p : Str) : t.isClosing p = s.isClosing p := by
  rw [Manager.isClosing, Manager.isClosing, h.closing, h.closingPeers]

/-- One after the other. -/
theorem Held.trans (h : s.Held t) (h' : t.Held u) : s.Held u where
  closers := h'.closers.trans h.closers
  closing := h'.closing.trans h.closing
  closingPeers := h'.closingPeers.trans h.closingPeers
  connections p c hp hc := h.connections p c hp (h'.connections p c (h.isClosing p ▸ hp) hc)
  inFlight p a hp ha := h.inFlight p a hp (h'.inFlight p a (h.isClosing p ▸ hp) ha)

/-- **The fence stands** where nothing of a closing call changes. -/
theorem Held.fenced (h : s.Held t) (hs : s.Fenced) : t.Fenced := fun k p hk => by
  rw [h.isClosing]
  exact hs k p (h.closers ▸ hk)

/-- What is found after an entry was taken out was there before. -/
theorem lookup_of_erase {α : Type} {d : PeerDict α} {p q : Str} {x : α}
    (h : (d.erase q).lookup p = some x) : d.lookup p = some x := by
  by_cases hpq : p = q
  · subst hpq
    rw [AList.lookup_erase] at h
    cases h
  · rwa [AList.lookup_erase_ne hpq] at h

/-- `get_by_id` drops a connection at most. -/
theorem held_getById (s : Manager E) (p : Str) : s.Held (s.getById p).1 := by
  unfold getById
  split
  · split
    · exact { Held.refl s with connections := fun _ _ _ => lookup_of_erase }
    · exact .refl s
  · exact .refl s

/-- Behind the fence nothing is put in. -/
theorem held_insert {p : Str} (hp : s.isClosing p = false) {connections inFlight : PeerDict ℕ}
    {states : PeerDict ConnectionState} {isClosed : ℕ → Bool} {attempts : ℕ → AttemptPc E}
    {closeCalled cancelled : ℕ → Bool} {callers : ℕ → CallerPc E}
    (hconnections : ∀ q, q ≠ p → connections.lookup q = s.connections.lookup q)
    (hinFlight : ∀ q, q ≠ p → inFlight.lookup q = s.inFlight.lookup q) :
    s.Held { s with
      connections, inFlight, states, isClosed, closeCalled, attempts, cancelled, callers } := by
  have hne : ∀ q, s.isClosing q = true → q ≠ p := by
    rintro q hq rfl
    rw [hp] at hq
    cases hq
  exact ⟨rfl, rfl, rfl, fun q c hq hc => (hconnections q (hne q hq)).symm.trans hc,
    fun q a hq ha => (hinFlight q (hne q hq)).symm.trans ha⟩

/-- An attempt ends. -/
theorem held_endAttempt (s : Manager E) (a : ℕ) (p : Str) (outcome : Except (Failure E) ℕ) :
    s.Held (s.endAttempt a p outcome) := by
  have hpop : s.Held { s with
      inFlight := if s.inFlight.lookup p = some a then s.inFlight.erase p else s.inFlight } := by
    refine { Held.refl s with inFlight := fun q b _ hb => ?_ }
    dsimp only at hb
    split at hb
    · exact lookup_of_erase hb
    · exact hb
  unfold endAttempt
  dsimp only
  split
  · exact hpop.trans { Held.refl _ with }
  · have hget := hpop.trans (held_getById _ p)
    split <;> rename_i heq <;> rw [heq] at hget
    · exact hget.trans { Held.refl _ with }
    · exact hget.trans { Held.refl _ with }

/-- An attempt fails. -/
theorem held_failAttempt (s : Manager E) (a : ℕ) (p : Str) (opened : ℕ) (e : Failure E) :
    s.Held (s.failAttempt a p opened e) := by
  unfold failAttempt
  split
  · exact s.held_endAttempt a p _
  · exact { Held.refl s with }

/-- An attempt installs its connection, if the peer is not being closed. -/
theorem held_install (s : Manager E) (a : ℕ) (p : Str) (opened selected : ℕ) :
    s.Held (s.install a p opened selected) := by
  unfold install
  split
  · exact s.held_failAttempt a p opened _
  · rename_i hp
    have hput : s.Held
        ({ s with connections := s.connections.insert p selected }.setState p .connected) :=
      held_insert (by simpa using hp) (fun q hq => AList.lookup_insert_ne hq) fun _ _ => rfl
    dsimp only
    split
    · exact hput.trans { Held.refl _ with }
    · exact hput.trans (held_endAttempt _ a p _)

/-- An attempt is past its preparation. -/
theorem held_select (s : Manager E) (a : ℕ) (p : Str) (opened : ℕ) (replacement : Option ℕ) :
    s.Held (s.select a p opened replacement) := by
  unfold select
  dsimp only
  split
  · exact { Held.refl s with }
  · exact s.held_install a p opened _

/-- An attempt goes on. -/
theorem held_resumeAttempt {a : ℕ} {answer : Answer E} (ht : s.resumeAttempt a answer = some t) :
    s.Held t := by
  have htold : s.Held { s with cancelled := Function.update s.cancelled a false } :=
    { Held.refl s with }
  simp only [resumeAttempt] at ht
  split at ht
  · split at ht <;> cases ht
    exact { Held.refl s with }
  · split at ht <;> cases ht
    exact { Held.refl s with }
  · split at ht <;> cases ht
    · exact { Held.refl s with }
    · exact htold.trans (held_select _ a _ _ _)
  · cases ht
    exact htold.trans (held_endAttempt _ a _ _)
  · cases ht
    exact htold.trans (held_select _ a _ _ _)
  · cases ht
    exact htold.trans (held_install _ a _ _ _)
  · cases ht
    exact htold.trans (held_endAttempt _ a _ _)
  · cases ht
    exact htold.trans (held_endAttempt _ a _ _)
  · split at ht
    · cases ht
    · split at ht <;> cases ht <;> first
        | exact htold.trans (held_endAttempt _ a _ _)
        | exact htold.trans (held_failAttempt _ a _ _ _)
  · cases ht

/-- `connect` starts an attempt, or joins one. -/
theorem held_connect {k a : ℕ} {p : Str} {endpoint : Endpoint} {prepare reconnecting : Bool}
    (ht : s.connect transport k a p endpoint prepare reconnecting = some t) : s.Held t := by
  unfold connect at ht
  split at ht
  · cases ht
    exact { Held.refl s with }
  · split at ht
    · cases ht
      exact { Held.refl s with }
    · rename_i hp
      have hget := s.held_getById p
      split at ht <;> rename_i heq <;> rw [heq] at hget
      · cases ht
        exact hget.trans { Held.refl _ with }
      · split at ht
        · cases ht
          exact hget.trans { Held.refl _ with }
        · split at ht
          · cases ht
            have hnot : s.isClosing p = false := by simpa using hp
            exact hget.trans (held_insert (hget.isClosing p ▸ hnot) (fun _ _ => rfl)
              fun q hq => AList.lookup_insert_ne hq)
          · cases ht

/-- `adopt` refuses the connection of a peer that is being closed. -/
theorem held_adopt (s : Manager E) (p : Str) (c : ℕ) : s.Held (s.adopt p c) := by
  unfold adopt
  split
  · exact .refl s
  · rename_i hp
    exact held_insert (by simpa using hp) (fun q hq => AList.lookup_insert_ne hq) fun _ _ => rfl

/-- `connection_lost` drops a connection at most. -/
theorem held_connectionLost (s : Manager E) (p : Str) (c : ℕ) : s.Held (s.connectionLost p c) := by
  have hpop : s.Held { s with connections := s.connections.erase p } :=
    { Held.refl s with connections := fun _ _ _ => lookup_of_erase }
  unfold connectionLost
  split
  · dsimp only
    split
    · exact hpop
    · exact hpop.trans { Held.refl _ with }
  · exact .refl s

/-- `mark_reconnecting` changes a state. -/
theorem held_markReconnecting (s : Manager E) (p : Str) : s.Held (s.markReconnecting p) := by
  have hget := s.held_getById p
  unfold markReconnecting
  split
  · exact .refl s
  · split <;> rename_i heq <;> rw [heq] at hget
    · exact hget.trans { Held.refl _ with }
    · exact hget

/-- So does `mark_disconnected`. -/
theorem held_markDisconnected (s : Manager E) (p : Str) : s.Held (s.markDisconnected p) := by
  have hget := s.held_getById p
  unfold markDisconnected
  split <;> rename_i heq <;> rw [heq] at hget
  · split
    · exact hget
    · exact hget.trans { Held.refl _ with }
  · exact hget

/-! ## Closing calls -/

/-- A step of a closing call: entries only go. -/
structure Sheds (s t : Manager E) : Prop where
  connections : ∀ p c, t.connections.lookup p = some c → s.connections.lookup p = some c
  inFlight : ∀ p a, t.inFlight.lookup p = some a → s.inFlight.lookup p = some a

/-- Nothing is given up. -/
theorem Sheds.refl (s : Manager E) : s.Sheds s := ⟨fun _ _ => id, fun _ _ => id⟩

/-- The tables of connections and attempts stay as they are. -/
theorem sheds_of_eq (hconnections : t.connections = s.connections)
    (hinFlight : t.inFlight = s.inFlight) : s.Sheds t :=
  ⟨fun _ _ h => hconnections ▸ h, fun _ _ h => hinFlight ▸ h⟩

/-- One after the other. -/
theorem Sheds.trans (h : s.Sheds t) (h' : t.Sheds u) : s.Sheds u :=
  ⟨fun p c hc => h.connections p c (h'.connections p c hc),
    fun p a ha => h.inFlight p a (h'.inFlight p a ha)⟩

/-- The end of `close_peer`. -/
theorem sheds_endClosePeer (s : Manager E) (k : ℕ) (p : Str) : s.Sheds (s.endClosePeer k p) := by
  unfold endClosePeer
  dsimp only
  split <;> exact sheds_of_eq rfl rfl

/-- `close_peer` has gathered the attempt. -/
theorem sheds_closeGathered (s : Manager E) (k : ℕ) (p : Str) (connection : Option ℕ) :
    s.Sheds (s.closeGathered k p connection) := by
  unfold closeGathered
  split
  · exact sheds_of_eq rfl rfl
  · exact s.sheds_endClosePeer k p

/-- `close_peer` begins. -/
theorem sheds_closePeer (s : Manager E) (k : ℕ) (p : Str) : s.Sheds (s.closePeer k p) := by
  have hpop : ∀ t : Manager E, t.connections = s.connections.erase p →
      t.inFlight = s.inFlight.erase p → s.Sheds t := fun t hc ha =>
    ⟨fun _ _ h => lookup_of_erase (hc ▸ h), fun _ _ h => lookup_of_erase (ha ▸ h)⟩
  unfold closePeer
  dsimp only
  split
  · exact hpop _ rfl rfl
  · exact (hpop _ rfl rfl).trans (sheds_closeGathered _ k p _)

/-- `close_all` has gathered the attempts. -/
theorem sheds_closeAllGathered (s : Manager E) (k : ℕ) (connections : List ℕ) (peers : List Str) :
    s.Sheds (s.closeAllGathered k connections peers) := by
  unfold closeAllGathered
  split <;> exact sheds_of_eq rfl rfl

/-- `close_all` begins. -/
theorem sheds_closeAll (s : Manager E) (k : ℕ) : s.Sheds (s.closeAll k) := by
  have hclear : ∀ t : Manager E, t.connections = ∅ → t.inFlight = ∅ → s.Sheds t :=
    fun t hc ha => ⟨fun p c h => (by rw [hc] at h; cases h),
      fun p a h => (by rw [ha] at h; cases h)⟩
  unfold closeAll
  dsimp only
  split
  · exact (hclear _ rfl rfl).trans (sheds_closeAllGathered _ k _ _)
  · exact hclear _ rfl rfl

/-- A closing call goes on. -/
theorem sheds_resumeCloser {k : ℕ} (ht : s.resumeCloser k = some t) : s.Sheds t := by
  unfold resumeCloser at ht
  split at ht
  · split at ht <;> cases ht
    exact s.sheds_closeGathered k _ _
  · split at ht <;> cases ht
    exact s.sheds_endClosePeer k _
  · cases ht
    exact s.sheds_endClosePeer k _
  · split at ht <;> cases ht
    exact s.sheds_closeAllGathered k _ _
  · split at ht <;> cases ht
    exact sheds_of_eq rfl rfl
  · cases ht
    exact sheds_of_eq rfl rfl
  · cases ht

/-- A closing call is cancelled. -/
theorem sheds_cancelCloser {k : ℕ} (ht : s.cancelCloser k = some t) : s.Sheds t := by
  unfold cancelCloser at ht
  split at ht <;> cases ht
  · exact sheds_of_eq rfl rfl
  · exact s.sheds_endClosePeer k _
  · exact sheds_of_eq rfl rfl
  · exact sheds_of_eq rfl rfl

/-- A call goes on and its fence stands; so do the others. -/
theorem Fenced.setCloser (h : s.Fenced) {k : ℕ} {pc : CloserPc}
    (hpc : ∀ p, pc.closes p → s.isClosing p = true) : (s.setCloser k pc).Fenced := by
  intro i p hi
  by_cases hik : i = k
  · subst hik
    simp only [Manager.setCloser, Function.update_self] at hi
    exact hpc p hi
  · simp only [Manager.setCloser, Function.update_of_ne hik] at hi
    exact h i p hi

/-- The mark of a peer is taken down by the last call that closes it. -/
theorem Fenced.endClosePeer (h : s.Fenced) {k : ℕ} {p : Str}
    (hlast : s.closing = false → ∀ i, i ≠ k → ¬ (s.closers i).closes p) :
    (s.endClosePeer k p).Fenced := by
  have hlower : ∀ i q, i ≠ k → (s.closers i).closes q →
      (s.closing || Function.update s.closingPeers p false q) = true := by
    intro i q hik hi
    have hstands := h i q hi
    rw [Manager.isClosing, Bool.or_eq_true] at hstands
    cases hclosing : s.closing with
    | true => rfl
    | false =>
        rw [hclosing] at hstands
        have hqp : q ≠ p := by
          rintro rfl
          exact hlast hclosing i hik hi
        simpa [hqp] using hstands
  intro i q hi
  have hik : i ≠ k := by
    rintro rfl
    simp [Manager.endClosePeer, Manager.setCloser, CloserPc.closes] at hi
  unfold Manager.endClosePeer at hi ⊢
  simp only [Manager.setCloser, Function.update_of_ne hik] at hi
  dsimp only at hi ⊢
  split at hi <;> rename_i hnone
  · rw [if_pos hnone]
    exact hlower i q hik hi
  · rw [if_neg hnone]
    exact hlower i q hik hi

/-- `close_all` is over, and no other closing call is open. -/
theorem fenced_endCloseAll {k : ℕ} {peers : List Str}
    (hlast : ∀ i p, i ≠ k → ¬ (s.closers i).closes p) : (s.endCloseAll k peers).Fenced := by
  intro i q hi
  by_cases hik : i = k
  · subst hik
    simp [Manager.endCloseAll, Manager.setCloser, CloserPc.closes] at hi
  · simp only [Manager.endCloseAll, Manager.setCloser, Function.update_of_ne hik] at hi
    exact absurd hi (hlast i q hik)

/-- `close_peer` puts the mark up before it gathers anything. -/
theorem Fenced.closePeer (h : s.Fenced) {k : ℕ} {p : Str}
    (hG : KeepsFence s (.closePeer k p)) : (s.closePeer k p).Fenced := by
  have hraise : ∀ t : Manager E, t.closers = s.closers → t.closing = s.closing →
      t.closingPeers = Function.update s.closingPeers p true →
        t.Fenced ∧ t.isClosing p = true := by
    intro t hclosers hclosing hpeers
    refine ⟨fun i q hi => ?_, by simp [isClosing, hpeers]⟩
    have hstands := h i q (hclosers ▸ hi)
    rw [isClosing, hclosing, hpeers]
    by_cases hq : q = p
    · simp [hq]
    · simpa [isClosing, hq] using hstands
  have hpc : ∀ {t : Manager E} {pc : CloserPc}, t.closers = s.closers → t.closing = s.closing →
      t.closingPeers = Function.update s.closingPeers p true → (∀ q, pc.closes q → q = p) →
        (t.setCloser k pc).Fenced := by
    intro t pc hclosers hclosing hpeers hq
    obtain ⟨hfenced, hp⟩ := hraise t hclosers hclosing hpeers
    exact hfenced.setCloser fun q hc => hq q hc ▸ hp
  unfold Manager.closePeer
  dsimp only
  split
  · exact hpc rfl rfl rfl fun q hq => hq.symm
  · rename_i hin
    unfold closeGathered
    split
    · exact hpc rfl rfl rfl fun q hq => hq.symm
    · rename_i hcan
      refine Fenced.endClosePeer ?_ ?_
      · refine (hraise _ ?_ ?_ ?_).1 <;> rfl
      · exact hG.peer k p ⟨rfl, rfl, hin, hcan⟩

/-- So does `close_all`. -/
theorem fenced_closeAll {k : ℕ} (hG : KeepsFence s (.closeAll k)) :
    (s.closeAll k).Fenced := by
  have hraise : ∀ (t : Manager E) (pc : CloserPc), t.closing = true → (t.setCloser k pc).Fenced :=
    fun t pc ht i p _ => by simp [isClosing, Manager.setCloser, ht]
  unfold Manager.closeAll
  dsimp only
  split
  · rename_i htasks
    unfold closeAllGathered
    split
    · rename_i hconnections
      refine fenced_endCloseAll fun i p hik => hG.all k ⟨rfl, ?_, ?_⟩ i p hik
      · simpa [values] using htasks
      · simpa [values] using (List.dedup_eq_nil _).1 hconnections
    · exact hraise _ _ rfl
  · exact hraise _ _ rfl

/-- A closing call goes on. -/
theorem Fenced.resumeCloser (h : s.Fenced) {k : ℕ} (hG : KeepsFence s (.resumeCloser k))
    (ht : s.resumeCloser k = some t) : t.Fenced := by
  have hpeer : ∀ p, EndsClosePeer s (.resumeCloser k) k p → (s.endClosePeer k p).Fenced :=
    fun p hends => h.endClosePeer (hG.peer k p hends)
  unfold Manager.resumeCloser at ht
  split at ht
  · rename_i p a connection hk
    split at ht <;> cases ht
    unfold closeGathered
    split
    · exact Fenced.setCloser (fun i q hi => h i q hi) fun q hq => hq ▸ h k p (by rw [hk]; rfl)
    · exact hpeer p ⟨rfl, .inl ⟨a, .inl hk⟩⟩
  · rename_i p a hk
    split at ht <;> cases ht
    exact hpeer p ⟨rfl, .inl ⟨a, .inr hk⟩⟩
  · rename_i p c hk
    cases ht
    exact hpeer p ⟨rfl, .inr ⟨c, hk⟩⟩
  · rename_i tasks connections peers hk
    split at ht <;> cases ht
    unfold closeAllGathered
    split
    · rename_i hnone
      subst hnone
      exact fenced_endCloseAll (hG.all k ⟨rfl, .inl ⟨tasks, peers, hk⟩⟩)
    · exact Fenced.setCloser (fun i q hi => h i q hi) fun q _ => h k q (by rw [hk]; trivial)
  · split at ht <;> cases ht
    exact h.setCloser fun q hq => hq.elim
  · rename_i connections peers hk
    cases ht
    exact fenced_endCloseAll (hG.all k ⟨rfl, .inr ⟨connections, peers, hk⟩⟩)
  · cases ht

/-- A closing call is cancelled. -/
theorem Fenced.cancelCloser (h : s.Fenced) {k : ℕ} (hG : KeepsFence s (.cancelCloser k))
    (ht : s.cancelCloser k = some t) : t.Fenced := by
  unfold Manager.cancelCloser at ht
  split at ht <;> cases ht <;> rename_i hk
  · rename_i p a _
    exact Fenced.setCloser (fun i q hi => h i q hi) fun q hq => hq ▸ h k p (by rw [hk]; rfl)
  · rename_i p c
    exact h.endClosePeer (hG.peer k p ⟨rfl, c, hk⟩)
  · exact Fenced.setCloser (fun i q hi => h i q hi) fun q _ => h k q (by rw [hk]; trivial)
  · exact Fenced.setCloser (fun i q hi => h i q hi) fun q _ => h k q (by rw [hk]; trivial)

end Manager

/-! ## Runs -/

variable {transport : Str} {s t : Manager E}

/-- The labels of the closing calls. -/
def Label.isCloser : Label E → Bool
  | .closePeer _ _ | .closeAll _ | .resumeCloser _ | .cancelCloser _ => true
  | _ => false

/-- No other step changes anything of a closing call. -/
theorem held_step {l : Label E} (hl : l.isCloser = false) (ht : step transport s l = some t) :
    s.Held t := by
  cases l with
  | connect k a p endpoint prepare reconnecting =>
      simp only [step] at ht
      split at ht
      · exact Manager.held_connect ht
      · cases ht
  | resumeCaller k =>
      simp only [step] at ht
      split at ht
      · split at ht <;> cases ht
        exact { Manager.Held.refl s with }
      · cases ht
  | cancelCaller k =>
      simp only [step] at ht
      split at ht <;> cases ht
      exact { Manager.Held.refl s with }
  | attempt a answer => exact Manager.held_resumeAttempt ht
  | adopt p c =>
      cases ht
      exact s.held_adopt p c
  | connectionLost p c =>
      cases ht
      exact s.held_connectionLost p c
  | markReconnecting p =>
      cases ht
      exact s.held_markReconnecting p
  | markDisconnected p =>
      cases ht
      exact s.held_markDisconnected p
  | getById p =>
      cases ht
      exact s.held_getById p
  | closes c =>
      cases ht
      exact { Manager.Held.refl s with }
  | closePeer k p | closeAll k | resumeCloser k | cancelCloser k => cases hl

/-- A step of a closing call adds no connection and no attempt. -/
theorem sheds_step {l : Label E} (hl : l.isCloser = true) (ht : step transport s l = some t) :
    s.Sheds t := by
  cases l with
  | closePeer k p =>
      simp only [step] at ht
      split at ht <;> cases ht
      exact s.sheds_closePeer k p
  | closeAll k =>
      simp only [step] at ht
      split at ht <;> cases ht
      exact s.sheds_closeAll k
  | resumeCloser k => exact Manager.sheds_resumeCloser ht
  | cancelCloser k => exact Manager.sheds_cancelCloser ht
  | _ => cases hl

/-- **One step leaves the fences standing**, if it meets the condition. -/
theorem fenced_step {l : Label E} (h : s.Fenced) (hG : KeepsFence s l)
    (ht : step transport s l = some t) : t.Fenced := by
  cases hl : l.isCloser with
  | false => exact (held_step hl ht).fenced h
  | true =>
      cases l with
      | closePeer k p =>
          simp only [step] at ht
          split at ht <;> cases ht
          exact h.closePeer hG
      | closeAll k =>
          simp only [step] at ht
          split at ht <;> cases ht
          exact Manager.fenced_closeAll hG
      | resumeCloser k => exact h.resumeCloser hG ht
      | cancelCloser k => exact h.cancelCloser hG ht
      | _ => cases hl

/-- Behind a standing fence nothing is installed or started. -/
theorem not_breaksFence (h : s.Fenced) (l : Label E) : ¬ BreaksFence transport s l := by
  rintro ⟨t, k, p, ht, hk, hput⟩
  have hp := h k p hk
  cases hl : l.isCloser with
  | false =>
      have hheld := held_step hl ht
      rcases hput with ⟨c, hc, hne⟩ | ⟨a, ha, hne⟩
      · exact hne (hheld.connections p c hp hc)
      · exact hne (hheld.inFlight p a hp ha)
  | true =>
      have hsheds := sheds_step hl ht
      rcases hput with ⟨c, hc, hne⟩ | ⟨a, ha, hne⟩
      · exact hne (hsheds.connections p c hc)
      · exact hne (hsheds.inFlight p a ha)

/-- **The fence stands** in the runs that meet the condition. -/
theorem fenced_of_reachableWhen (h : ReachableWhen (system E transport) KeepsFence s) :
    s.Fenced :=
  h.invariant (by rintro _ rfl; exact Manager.fenced_initial) fun _ _ _ hI hG hs =>
    fenced_step hI hG hs

/-! ## Runs that meet the condition in all but one step -/

/-- A run from `s` breaks a fence. -/
def CanBreakFence (transport : Str) (s : Manager E) : Prop :=
  ∃ t l, Reachable ((system E transport).startingAt s) t ∧ BreaksFence transport t l

/-- A call runs without its fence: the next inbound connection is installed. -/
theorem breaksFence_of_closes {k : ℕ} {p : Str} (hk : (s.closers k).closes p)
    (hp : s.isClosing p = false) : CanBreakFence transport s := by
  obtain ⟨c, hc⟩ : ∃ c, s.connections.lookup p ≠ some c := by
    cases hold : s.connections.lookup p with
    | none => exact ⟨0, by rintro ⟨⟩⟩
    | some c => exact ⟨c + 1, by simp⟩
  refine ⟨s, .adopt p c, .init rfl, s.adopt p c, k, p, rfl, hk, .inl ⟨c, ?_, hc⟩⟩
  simp [Manager.adopt, hp, Manager.setState]

/-- `close_peer(p)` has ended while `_closing` is not set. -/
theorem closes_of_endsClosePeer {l : Label E} {k i : ℕ} {p : Str} (hends : EndsClosePeer s l k p)
    (hclosing : s.closing = false) (hik : i ≠ k) (hi : (s.closers i).closes p)
    (ht : step transport s l = some t) : (t.closers i).closes p ∧ t.isClosing p = false := by
  have hend : ∀ u : Manager E, u.closers = s.closers → u.closing = false →
      ((u.endClosePeer k p).closers i).closes p ∧ (u.endClosePeer k p).isClosing p = false := by
    intro u hclosers hu
    unfold Manager.endClosePeer
    dsimp only
    split <;> simpa [Manager.setCloser, Manager.setState, Manager.isClosing, hik, hclosers, hu]
      using hi
  cases l with
  | closePeer j q =>
      obtain ⟨rfl, rfl, hin, hcan⟩ := hends
      simp only [step] at ht
      split at ht <;> cases ht
      simp only [Manager.closePeer, hin, hcan, Manager.closeGathered]
      exact hend _ rfl hclosing
  | resumeCloser j =>
      obtain ⟨rfl, ⟨a, hk | hk⟩ | ⟨c, hk⟩⟩ := hends
      · simp only [step, Manager.resumeCloser, hk, Manager.closeGathered] at ht
        split at ht <;> cases ht
        exact hend s rfl hclosing
      · simp only [step, Manager.resumeCloser, hk] at ht
        split at ht <;> cases ht
        exact hend s rfl hclosing
      · simp only [step, Manager.resumeCloser, hk] at ht
        cases ht
        exact hend s rfl hclosing
  | cancelCloser j =>
      obtain ⟨rfl, c, hk⟩ := hends
      simp only [step, Manager.cancelCloser, hk] at ht
      cases ht
      exact hend s rfl hclosing
  | _ => exact hends.elim

/-- `close_all()` has ended. -/
theorem closes_of_endsCloseAll {l : Label E} {k i : ℕ} {p : Str} (hends : EndsCloseAll s l k)
    (hik : i ≠ k) (hi : (s.closers i).closes p) (ht : step transport s l = some t) :
    (t.closers i).closes p ∧ t.isClosing p = false := by
  have hend : ∀ (u : Manager E) peers, u.closers = s.closers →
      ((u.endCloseAll k peers).closers i).closes p ∧
        (u.endCloseAll k peers).isClosing p = false := by
    intro u peers hclosers
    simpa [Manager.endCloseAll, Manager.setCloser, Manager.isClosing, hik, hclosers] using hi
  cases l with
  | closeAll j =>
      obtain ⟨rfl, hin, hcan⟩ := hends
      simp only [step] at ht
      split at ht <;> cases ht
      simp only [Manager.closeAll, Manager.values, hin, hcan, List.map_nil, if_true,
        Manager.closeAllGathered, List.dedup_nil]
      exact hend _ _ rfl
  | resumeCloser j =>
      obtain ⟨rfl, ⟨tasks, peers, hk⟩ | ⟨connections, peers, hk⟩⟩ := hends
      · simp only [step, Manager.resumeCloser, hk, Manager.closeAllGathered, if_true] at ht
        split at ht <;> cases ht
        exact hend s peers rfl
      · simp only [step, Manager.resumeCloser, hk] at ht
        cases ht
        exact hend s peers rfl
  | _ => exact hends.elim

/-- **Closing is a fence** in every run in which a closing call that ends
leaves the fence of the others: while `close_peer(p)` or `close_all()` runs, no
connection is installed and no attempt is started for `p`.  After a step that
does not, a fence can be broken. -/
theorem closing_is_a_fence (E : Type) (transport : Str) :
    (∀ (s : Manager E) l, ReachableWhen (system E transport) KeepsFence s →
        ¬ BreaksFence transport s l) ∧
      ∀ (s : Manager E) l t, Reachable (system E transport) s → ¬ KeepsFence s l →
        step transport s l = some t → CanBreakFence transport t := by
  refine ⟨fun s l h => not_breaksFence (fenced_of_reachableWhen h) l, fun s l t _ hG ht => ?_⟩
  by_contra hno
  refine hG ⟨fun k p hends hclosing i hik hi => ?_, fun k hends i p hik hi => ?_⟩
  · obtain ⟨hcloses, hdown⟩ := closes_of_endsClosePeer hends hclosing hik hi ht
    exact hno (breaksFence_of_closes hcloses hdown)
  · obtain ⟨hcloses, hdown⟩ := closes_of_endsCloseAll hends hik hi ht
    exact hno (breaksFence_of_closes hcloses hdown)

/-- A second `close_peer` of the same peer finds nothing to wait for and takes
the fence down while the first one waits for `close()`. -/
theorem closing_is_no_fence : ¬ ∀ (s : Manager Unit) l,
    Reachable (system Unit (ofChars "lan".toList)) s →
      ¬ BreaksFence (ofChars "lan".toList) s l := by
  intro h
  let p := ofChars "b".toList
  refine h _ (.connect 0 0 p ⟨ofChars "lan".toList, ofChars "b:1".toList⟩ true false)
    (reachable_of_exec (S := system Unit (ofChars "lan".toList)) rfl
      [.adopt p 0, .closePeer 0 p, .closePeer 1 p] rfl)
    ⟨_, 0, p, rfl, rfl, .inr ⟨0, rfl, by decide⟩⟩

end ConnectionManager
end Core
end Paqto
