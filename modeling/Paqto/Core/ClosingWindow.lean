/-
# What a closing call leaves

A closing call takes the connections and the attempts of the peers it covers out of the
tables.  Until it finishes only an attempt can put something back: one that was cancelled
and still gets to its install, where the mark of the call has been taken down by another
call that has finished (`FenceUp` says when it has not).

With the marks up, a covered peer is `CLOSED` when the call finishes
(`state_of_finishes`).  `reported_states` is the whole law of the reported states.
-/

import Paqto.Core.ReportedStates

namespace Paqto
namespace Core
namespace ConnectionManager

open Transition Python

variable {E : Type}

/-- The call closes `p`: it is the peer of `close_peer`, or in the set of `close_all`.
What `close_all` still knows of its set when it is cancelled is nothing. -/
def CloserPc.covers : CloserPc → Str → Prop
  | gathering q _ _, p | gatheringCancelled q _, p | closing q _, p => q = p
  | gatheringAll _ _ peers, p | closingAll _ peers, p => p ∈ peers
  | gatheringAllCancelled _, _ | finished, _ => True
  | absent, _ => False

/-- `close_all` was cancelled in one of its `gather`s. -/
def CloserPc.isGatheringAllCancelled : CloserPc → Bool
  | gatheringAllCancelled _ => true
  | _ => false

/-- `connect`, `adopt`, `mark_reconnecting` and `mark_disconnected` of `p` -/
def Touches (p : Str) : Label E → Prop
  | .connect _ _ q _ _ _ | .adopt q _ | .markReconnecting q | .markDisconnected q => q = p
  | _ => False

/-- The call `k` begins, and covers `p`. -/
def Begins (s : Manager E) (k : ℕ) (p : Str) : Label E → Prop
  | .closePeer i q => i = k ∧ q = p
  | .closeAll i =>
      i = k ∧ (s.states.lookup p ≠ none ∨ s.connections.lookup p ≠ none ∨
        s.inFlight.lookup p ≠ none)
  | _ => False

/-- The attempt gets to its install with this answer. -/
def Manager.reachesInstall (s : Manager E) (a : ℕ) (answer : Answer E) : Bool :=
  match s.attempts a, answer with
  | .connecting _ prepare, .opened _ => !prepare
  | .preparing _ opened, .prepared replacement =>
      replacement.getD opened = opened || s.isClosed opened
  | .closingOpened _ _ _, .closed => true
  | _, _ => false

/-- An attempt for `p` that gets to its install finds a mark up. -/
def FenceUp (p : Str) (s : Manager E) (l : Label E) : Prop :=
  ∀ a answer, l = .attempt a answer → (s.attempts a).peer = some p →
    s.reachesInstall a answer = true → s.isClosing p = true

namespace Manager

variable {s t u : Manager E} {transport : Str} {a k o selected : ℕ} {p q : Str}

/-! ## Attempts that do not install -/

/-- `get_by_id` drops a connection at most. -/
theorem sheds_getById (s : Manager E) (p : Str) : s.Sheds (s.getById p).1 := by
  unfold getById
  split
  · split
    · exact ⟨fun _ _ => lookup_of_erase, fun _ _ => id⟩
    · exact .refl s
  · exact .refl s

/-- An attempt ends. -/
theorem sheds_endAttempt (s : Manager E) (a : ℕ) (p : Str) (outcome : Except (Failure E) ℕ) :
    s.Sheds (s.endAttempt a p outcome) := by
  have hpop : s.Sheds { s with
      inFlight := if s.inFlight.lookup p = some a then s.inFlight.erase p else s.inFlight } := by
    refine ⟨fun _ _ => id, fun q b hb => ?_⟩
    dsimp only at hb
    split at hb
    · exact lookup_of_erase hb
    · exact hb
  have hget := hpop.trans (sheds_getById _ p)
  unfold endAttempt
  dsimp only
  split
  · exact hpop.trans (sheds_of_eq rfl rfl)
  · split <;> rename_i heq <;> rw [heq] at hget
    · exact hget.trans (sheds_of_eq rfl rfl)
    · exact hget.trans (sheds_of_eq rfl rfl)

/-- An attempt fails. -/
theorem sheds_failAttempt (s : Manager E) (a : ℕ) (p : Str) (o : ℕ) (e : Failure E) :
    s.Sheds (s.failAttempt a p o e) := by
  unfold failAttempt
  split
  · exact s.sheds_endAttempt a p _
  · exact sheds_of_eq rfl rfl

/-- Short of its install an attempt only takes entries out. -/
theorem sheds_resumeAttempt {answer : Answer E} (hnot : s.reachesInstall a answer = false)
    (ht : s.resumeAttempt a answer = some t) : s.Sheds t := by
  have htold : s.Sheds { s with cancelled := Function.update s.cancelled a false } :=
    sheds_of_eq rfl rfl
  unfold resumeAttempt at ht
  dsimp only at ht
  split at ht <;> rename_i hpc
  · split at ht <;> cases ht
    exact sheds_of_eq rfl rfl
  · split at ht <;> cases ht
    exact sheds_of_eq rfl rfl
  · simp only [reachesInstall, hpc, Bool.not_eq_false'] at hnot
    rw [if_pos hnot] at ht
    cases ht
    exact sheds_of_eq rfl rfl
  · cases ht
    exact htold.trans (sheds_endAttempt _ a _ _)
  · rename_i opened replacement
    simp only [reachesInstall, hpc, Bool.or_eq_false_iff, decide_eq_false_iff_not] at hnot
    cases ht
    unfold select
    dsimp only
    rw [if_pos ⟨hnot.1, hnot.2⟩]
    exact sheds_of_eq rfl rfl
  · simp [reachesInstall, hpc] at hnot
  · cases ht
    exact htold.trans (sheds_endAttempt _ a _ _)
  · cases ht
    exact htold.trans (sheds_endAttempt _ a _ _)
  · split at ht
    · cases ht
    · split at ht <;> cases ht
      · exact htold.trans (sheds_endAttempt _ a _ _)
      · exact htold.trans (sheds_failAttempt _ a _ _ _)
      · exact htold.trans (sheds_failAttempt _ a _ _ _)
      · exact htold.trans (sheds_failAttempt _ a _ _ _)
      · exact htold.trans (sheds_endAttempt _ a _ _)
  · cases ht

/-! ## The call, while it runs -/

/-- A call that covers `p` has taken out what it has found. -/
structure Emptied (s : Manager E) (k : ℕ) (p : Str) : Prop where
  connections : s.connections.lookup p = none
  inFlight : s.inFlight.lookup p = none
  covers : (s.closers k).covers p

/-- What was emptied stays empty where entries only go. -/
theorem Emptied.none_of_sheds (h : s.Emptied k p) (ht : s.Sheds t) :
    t.connections.lookup p = none ∧ t.inFlight.lookup p = none := by
  constructor
  · by_contra hsome
    obtain ⟨c, hc⟩ := Option.ne_none_iff_exists'.1 hsome
    have hs := ht.connections p c hc
    rw [h.connections] at hs
    cases hs
  · by_contra hsome
    obtain ⟨b, hb⟩ := Option.ne_none_iff_exists'.1 hsome
    have hs := ht.inFlight p b hb
    rw [h.inFlight] at hs
    cases hs

/-- The window goes on where entries only go. -/
theorem Emptied.sheds (h : s.Emptied k p) (ht : s.Sheds t)
    (hclosers : t.closers k = s.closers k) : t.Emptied k p :=
  ⟨(h.none_of_sheds ht).1, (h.none_of_sheds ht).2, hclosers ▸ h.covers⟩

/-- The closing call has begun. -/
theorem Emptied.ne_absent (h : s.Emptied k p) : s.closers k ≠ .absent := by
  intro habsent
  have hcovers := h.covers
  rw [habsent] at hcovers
  exact hcovers

/-- The call leaves `p` closed if it has finished. -/
def LeavesClosed (s : Manager E) (k : ℕ) (p : Str) : Prop :=
  s.closers k = .finished → s.connections.lookup p = none ∧ s.states.lookup p = some .closed

/-- When it is over the peer is CLOSED. -/
theorem LeavesClosed.state (h : s.LeavesClosed k p) (hk : s.closers k = .finished) :
    s.state p = .closed := state_of_lookup (h hk).1 (h hk).2

/-- The end of `close_peer`. -/
theorem emptied_endClosePeer (hc : s.connections.lookup p = none)
    (hin : s.inFlight.lookup p = none) :
    (s.endClosePeer k p).Emptied k p ∧ (s.endClosePeer k p).LeavesClosed k p := by
  have hgone : (s.connections.lookup p).isNone ∧ (s.inFlight.lookup p).isNone := by
    rw [hc, hin]
    exact ⟨rfl, rfl⟩
  simp only [endClosePeer, hgone, and_self, if_true]
  refine ⟨⟨hc, hin, ?_⟩, fun _ => ⟨hc, ?_⟩⟩
  · simp [setCloser, CloserPc.covers]
  · simp [setCloser, setState]

/-- `close_peer` has gathered the attempt. -/
theorem emptied_closeGathered (hc : s.connections.lookup p = none)
    (hin : s.inFlight.lookup p = none) (connection : Option ℕ) :
    (s.closeGathered k p connection).Emptied k p ∧
      (s.closeGathered k p connection).LeavesClosed k p := by
  unfold closeGathered
  split
  · refine ⟨⟨hc, hin, ?_⟩, fun hk => ?_⟩
    · simp [setCloser, CloserPc.covers]
    · simp [setCloser] at hk
  · exact emptied_endClosePeer hc hin

/-- **`close_peer` empties the tables of its peer.** -/
theorem emptied_closePeer (s : Manager E) (k : ℕ) (p : Str) :
    (s.closePeer k p).Emptied k p ∧ (s.closePeer k p).LeavesClosed k p := by
  unfold closePeer
  dsimp only
  split
  · refine ⟨⟨?_, ?_, ?_⟩, fun hk => ?_⟩
    · simp [setCloser, cancelTasks, setState]
    · simp [setCloser, cancelTasks, setState]
    · simp [setCloser, CloserPc.covers]
    · simp [setCloser] at hk
  · exact emptied_closeGathered (by simp [setState]) (by simp [setState]) _

/-- Every peer of the list is set. -/
theorem emptied_endCloseAll (hc : s.connections.lookup p = none)
    (hin : s.inFlight.lookup p = none) {peers : List Str} (hp : p ∈ peers) :
    (s.endCloseAll k peers).Emptied k p ∧ (s.endCloseAll k peers).LeavesClosed k p :=
  ⟨⟨hc, hin, by simp [endCloseAll, setCloser, CloserPc.covers]⟩,
    fun _ => ⟨hc, lookup_foldl_of_mem .closed hp s.states⟩⟩

/-- `close_all` has gathered the attempts. -/
theorem emptied_closeAllGathered (hc : s.connections.lookup p = none)
    (hin : s.inFlight.lookup p = none) (connections : List ℕ) {peers : List Str}
    (hp : p ∈ peers) :
    (s.closeAllGathered k connections peers).Emptied k p ∧
      (s.closeAllGathered k connections peers).LeavesClosed k p := by
  unfold closeAllGathered
  split
  · exact emptied_endCloseAll hc hin hp
  · refine ⟨⟨hc, hin, ?_⟩, fun hk => ?_⟩
    · simpa [setCloser, CloserPc.covers] using hp
    · simp [setCloser] at hk

/-- **`close_all` empties the tables of all peers.** -/
theorem emptied_closeAll (s : Manager E) (k : ℕ) (hp : s.states.lookup p ≠ none ∨
    s.connections.lookup p ≠ none ∨ s.inFlight.lookup p ≠ none) :
    (s.closeAll k).Emptied k p ∧ (s.closeAll k).LeavesClosed k p := by
  have hmem : p ∈ (s.states.keys ++ s.connections.keys ++ s.inFlight.keys).dedup := by
    simp only [← Option.isSome_iff_ne_none, AList.lookup_isSome, AList.mem_keys] at hp
    simpa [or_assoc] using hp
  unfold closeAll
  dsimp only
  split
  · exact emptied_closeAllGathered rfl rfl _ hmem
  · refine ⟨⟨rfl, rfl, ?_⟩, fun hk => ?_⟩
    · simpa [setCloser, CloserPc.covers] using hmem
    · simp [setCloser] at hk

/-- The call goes on, and is not a `close_all` that was cancelled. -/
theorem Emptied.resumeCloser (h : s.Emptied k p) (ht : s.resumeCloser k = some t) :
    t.Emptied k p ∧ ((s.closers k).isGatheringAllCancelled = false → t.LeavesClosed k p) := by
  have hcovers := h.covers
  cases hk : s.closers k with
  | gathering q a connection =>
      simp only [Manager.resumeCloser, hk] at ht
      obtain rfl : q = p := by rwa [hk] at hcovers
      split at ht <;> cases ht
      exact (emptied_closeGathered h.connections h.inFlight _).imp_right fun hl _ => hl
  | gatheringCancelled q a =>
      simp only [Manager.resumeCloser, hk] at ht
      obtain rfl : q = p := by rwa [hk] at hcovers
      split at ht <;> cases ht
      exact (emptied_endClosePeer h.connections h.inFlight).imp_right fun hl _ => hl
  | closing q c =>
      simp only [Manager.resumeCloser, hk] at ht
      obtain rfl : q = p := by rwa [hk] at hcovers
      cases ht
      exact (emptied_endClosePeer h.connections h.inFlight).imp_right fun hl _ => hl
  | gatheringAll tasks connections peers =>
      simp only [Manager.resumeCloser, hk] at ht
      have hp : p ∈ peers := by rwa [hk] at hcovers
      split at ht <;> cases ht
      exact (emptied_closeAllGathered h.connections h.inFlight _ hp).imp_right fun hl _ => hl
  | gatheringAllCancelled tasks =>
      simp only [Manager.resumeCloser, hk] at ht
      split at ht <;> cases ht
      refine ⟨⟨h.connections, h.inFlight, ?_⟩, by rintro ⟨⟩⟩
      simp [setCloser, CloserPc.covers]
  | closingAll connections peers =>
      simp only [Manager.resumeCloser, hk] at ht
      have hp : p ∈ peers := by rwa [hk] at hcovers
      cases ht
      exact (emptied_endCloseAll h.connections h.inFlight hp).imp_right fun hl _ => hl
  | absent | finished =>
      simp only [Manager.resumeCloser, hk] at ht
      cases ht

/-- The closing call is cancelled. -/
theorem Emptied.cancelCloser (h : s.Emptied k p) (ht : s.cancelCloser k = some t) :
    t.Emptied k p ∧ t.LeavesClosed k p := by
  have hcovers := h.covers
  unfold Manager.cancelCloser at ht
  split at ht <;> cases ht <;> rename_i hk <;> rw [hk] at hcovers
  · obtain rfl := hcovers
    refine ⟨⟨h.connections, h.inFlight, ?_⟩, fun hf => ?_⟩
    · simp [setCloser, CloserPc.covers]
    · simp [setCloser] at hf
  · obtain rfl := hcovers
    exact emptied_endClosePeer h.connections h.inFlight
  · refine ⟨⟨h.connections, h.inFlight, ?_⟩, fun hf => ?_⟩
    · simp [setCloser, CloserPc.covers]
    · simp [setCloser] at hf
  · refine ⟨⟨h.connections, h.inFlight, ?_⟩, fun hf => ?_⟩
    · simp [setCloser, CloserPc.covers]
    · simp [setCloser] at hf

/-! ## The other closing calls -/

/-- Other closing calls stay where they are. -/
theorem closers_endClosePeer (s : Manager E) {i : ℕ} (hik : k ≠ i) (p : Str) :
    (s.endClosePeer i p).closers k = s.closers k := by
  unfold endClosePeer
  dsimp only
  split <;> simp [setCloser, setState, hik]

/-- Other closing calls stay where they are. -/
theorem closers_closeGathered (s : Manager E) {i : ℕ} (hik : k ≠ i) (p : Str)
    (connection : Option ℕ) : (s.closeGathered i p connection).closers k = s.closers k := by
  unfold closeGathered
  split
  · simp [setCloser, callClose, hik]
  · exact s.closers_endClosePeer hik p

/-- Other closing calls stay where they are. -/
theorem closers_closePeer (s : Manager E) {i : ℕ} (hik : k ≠ i) (p : Str) :
    (s.closePeer i p).closers k = s.closers k := by
  unfold closePeer
  dsimp only
  split
  · simp [setCloser, cancelTasks, setState, hik]
  · exact closers_closeGathered _ hik p _

/-- Other closing calls stay where they are. -/
theorem closers_closeAllGathered (s : Manager E) {i : ℕ} (hik : k ≠ i) (connections : List ℕ)
    (peers : List Str) : (s.closeAllGathered i connections peers).closers k = s.closers k := by
  unfold closeAllGathered
  split <;> simp [endCloseAll, setCloser, hik]

/-- Other closing calls stay where they are. -/
theorem closers_closeAll (s : Manager E) {i : ℕ} (hik : k ≠ i) :
    (s.closeAll i).closers k = s.closers k := by
  unfold closeAll
  dsimp only
  split
  · exact closers_closeAllGathered _ hik _ _
  · simp [setCloser, cancelTasks, hik]

/-- Other closing calls stay where they are. -/
theorem closers_resumeCloser {i : ℕ} (hik : k ≠ i) (ht : s.resumeCloser i = some t) :
    t.closers k = s.closers k := by
  unfold resumeCloser at ht
  split at ht
  · split at ht <;> cases ht
    exact s.closers_closeGathered hik _ _
  · split at ht <;> cases ht
    exact s.closers_endClosePeer hik _
  · cases ht
    exact s.closers_endClosePeer hik _
  · split at ht <;> cases ht
    exact s.closers_closeAllGathered hik _ _
  · split at ht <;> cases ht
    simp [setCloser, hik]
  · cases ht
    simp [endCloseAll, setCloser, hik]
  · cases ht

/-- Other closing calls stay where they are. -/
theorem closers_cancelCloser {i : ℕ} (hik : k ≠ i) (ht : s.cancelCloser i = some t) :
    t.closers k = s.closers k := by
  unfold cancelCloser at ht
  split at ht <;> cases ht
  · simp [setCloser, cancelTasks, hik]
  · exact s.closers_endClosePeer hik _
  · simp [setCloser, cancelTasks, hik]
  · simp [setCloser, hik]

end Manager

/-! ## Runs -/

variable {transport : Str} {s t : Manager E} {k : ℕ} {p : Str}

/-- A call that has begun goes on in its own steps only. -/
theorem closers_of_step {l : Label E} (hk : s.closers k ≠ .absent)
    (ht : step transport s l = some t) :
    (l = .resumeCloser k ∨ l = .cancelCloser k) ∨ t.closers k = s.closers k := by
  cases hl : l.isCloser with
  | false => exact Or.inr (congrFun (held_step hl ht).closers k)
  | true =>
      cases l with
      | closePeer i q =>
          simp only [step] at ht
          split at ht <;> cases ht
          rename_i habsent
          have hik : k ≠ i := fun hik => hk (hik ▸ habsent)
          exact Or.inr (s.closers_closePeer hik q)
      | closeAll i =>
          simp only [step] at ht
          split at ht <;> cases ht
          rename_i habsent
          have hik : k ≠ i := fun hik => hk (hik ▸ habsent)
          exact Or.inr (s.closers_closeAll hik)
      | resumeCloser i =>
          by_cases hik : k = i
          · exact Or.inl (Or.inl (hik ▸ rfl))
          · exact Or.inr (Manager.closers_resumeCloser hik ht)
      | cancelCloser i =>
          by_cases hik : k = i
          · exact Or.inl (Or.inr (hik ▸ rfl))
          · exact Or.inr (Manager.closers_cancelCloser hik ht)
      | _ => cases hl

/-- A label that is none of a closing call and does not touch `p` puts nothing in for it. -/
theorem none_of_held {l : Label E} (hl : l.isCloser = false) (hquiet : ¬ Touches p l)
    (hup : FenceUp p s l) (h : s.Emptied k p)
    (ht : step transport s l = some t) : t.Emptied k p := by
  have hheld := held_step hl ht
  have hcovers : (t.closers k).covers p := hheld.closers ▸ h.covers
  have helse : ∀ {q}, s.Elsewhere t q → p ≠ q → t.Emptied k p := fun he hq =>
    ⟨(he.connections p hq).trans h.connections, (he.inFlight p hq).trans h.inFlight, hcovers⟩
  have hsame : t.connections = s.connections → t.inFlight = s.inFlight → t.Emptied k p :=
    fun hc hin => h.sheds (Manager.sheds_of_eq hc hin) (congrFun hheld.closers k)
  cases l with
  | connect k a q endpoint prepare reconnecting =>
      simp only [step] at ht
      split at ht
      · exact helse (Manager.elsewhere_connect ht) fun hq => hquiet hq.symm
      · cases ht
  | resumeCaller k =>
      simp only [step] at ht
      split at ht
      · split at ht <;> cases ht
        exact hsame rfl rfl
      · cases ht
  | cancelCaller k =>
      simp only [step] at ht
      split at ht <;> cases ht
      exact hsame rfl rfl
  | attempt a answer =>
      have hresume : s.resumeAttempt a answer = some t := ht
      obtain ⟨q, ha, -⟩ := Manager.attemptStep_resumeAttempt hresume
      by_cases hq : p = q
      · subst hq
        cases hinstall : s.reachesInstall a answer with
        | false =>
            have hsheds := Manager.sheds_resumeAttempt hinstall hresume
            exact h.sheds hsheds (congrFun hheld.closers k)
        | true =>
            -- the fence is up: it raises, and takes entries out
            have hclosing := hup a answer rfl ha hinstall
            refine ⟨?_, ?_, hcovers⟩
            · by_contra hsome
              obtain ⟨c, hc⟩ := Option.ne_none_iff_exists'.1 hsome
              exact absurd (hheld.connections p c hclosing hc) (by rw [h.connections]; rintro ⟨⟩)
            · by_contra hsome
              obtain ⟨b, hb⟩ := Option.ne_none_iff_exists'.1 hsome
              exact absurd (hheld.inFlight p b hclosing hb) (by rw [h.inFlight]; rintro ⟨⟩)
      · exact helse (Manager.elsewhere_resumeAttempt ha hresume) hq
  | adopt q c =>
      cases ht
      exact helse (Manager.elsewhere_adopt s q c) fun hq => hquiet hq.symm
  | connectionLost q c =>
      cases ht
      by_cases hq : p = q
      · subst hq
        refine hsame ?_ ?_ <;> simp [Manager.connectionLost, h.connections]
      · exact helse (Manager.elsewhere_connectionLost s q c) hq
  | markReconnecting q =>
      cases ht
      exact helse (Manager.elsewhere_markReconnecting s q) fun hq => hquiet hq.symm
  | markDisconnected q =>
      cases ht
      exact helse (Manager.elsewhere_markDisconnected s q) fun hq => hquiet hq.symm
  | getById q =>
      cases ht
      exact h.sheds (s.sheds_getById q) (congrFun hheld.closers k)
  | closes c =>
      cases ht
      exact hsame rfl rfl
  | closePeer k p | closeAll k | resumeCloser k | cancelCloser k => cases hl

/-- **One step of a run in which the call `k` covers `p`.** -/
theorem emptied_step {l : Label E} (hquiet : ¬ Touches p l) (hup : FenceUp p s l)
    (h : s.Emptied k p) (ht : step transport s l = some t) : t.Emptied k p := by
  cases hl : l.isCloser with
  | false => exact none_of_held hl hquiet hup h ht
  | true =>
      rcases closers_of_step h.ne_absent ht with (rfl | rfl) | hother
      · exact (h.resumeCloser ht).1
      · exact (h.cancelCloser ht).1
      · exact h.sheds (sheds_step hl ht) hother

/-- The step in which the call finishes. -/
theorem state_of_finishes {l : Label E} (h : s.Emptied k p)
    (hrunning : s.closers k ≠ .finished)
    (hrun : (s.closers k).isGatheringAllCancelled = false)
    (ht : step transport s l = some t) (hk : t.closers k = .finished) : t.state p = .closed := by
  rcases closers_of_step h.ne_absent ht with (rfl | rfl) | hother
  · exact ((h.resumeCloser ht).2 hrun).state hk
  · exact (h.cancelCloser ht).2.state hk
  · exact absurd (hother ▸ hk) hrunning

/-- The first step of the call. -/
theorem emptied_of_begins {l : Label E} (hl : Begins s k p l) (ht : step transport s l = some t) :
    t.Emptied k p ∧ t.LeavesClosed k p := by
  cases l with
  | closePeer i q =>
      obtain ⟨rfl, rfl⟩ := hl
      simp only [step] at ht
      split at ht <;> cases ht
      exact s.emptied_closePeer i q
  | closeAll i =>
      obtain ⟨rfl, hp⟩ := hl
      simp only [step] at ht
      split at ht <;> cases ht
      exact s.emptied_closeAll i hp
  | _ => exact hl.elim

/-- While the call runs nothing touches `p`, and a mark is up whenever an attempt for `p` gets
to its install. -/
def Undisturbed (p : Str) (s : Manager E) (l : Label E) : Prop := ¬ Touches p l ∧ FenceUp p s l

/-- **The tables stay empty** as long as nothing disturbs the call. -/
theorem emptied_of_reachableWhen {s₀ : Manager E} (h₀ : s₀.Emptied k p)
    (h : ReachableWhen ((system E transport).startingAt s₀) (Undisturbed p) s) :
    s.Emptied k p := by
  refine ReachableWhen.invariant (I := fun s : Manager E => s.Emptied k p) ?_ ?_ h
  · rintro _ rfl
    exact h₀
  · intro s l t hs hl ht
    exact emptied_step hl.1 hl.2 hs ht

/-- **The reported states are truthful.**  In every run `state` is `CONNECTED` exactly for an
open canonical connection, and `CONNECTING` only for an attempt in flight.  A closing call
leaves every peer it covers `CLOSED` that nothing touches while it runs, **if each attempt for
the peer that gets to its install meanwhile finds a mark up**: the call that finishes in its
first step, and the one that goes on to finish. -/
theorem reported_states (E : Type) (transport : Str) :
    (∀ s : Manager E, Reachable (system E transport) s → ∀ p,
        (s.state p = .connected ↔ ∃ c, s.connections.lookup p = some c ∧ s.isClosed c = false) ∧
          (s.state p = .connecting → ∃ a, s.inFlight.lookup p = some a)) ∧
      ∀ (s₀ s₁ : Manager E) k p l₀, Reachable (system E transport) s₀ → Begins s₀ k p l₀ →
        step transport s₀ l₀ = some s₁ →
        (s₁.closers k = .finished → s₁.state p = .closed) ∧
          ∀ s l t, ReachableWhen ((system E transport).startingAt s₁) (Undisturbed p) s →
            Undisturbed p s l → s.closers k ≠ .finished →
            (s.closers k).isGatheringAllCancelled = false → step transport s l = some t →
            t.closers k = .finished → t.state p = .closed := by
  refine ⟨fun s h p => ?_, fun s₀ s₁ k p l₀ _ hl₀ h₁ => ?_⟩
  · have hp := truthful_of_reachable h p
    exact ⟨Manager.state_eq_connected hp, Manager.lookup_of_connecting hp⟩
  · obtain ⟨hemptied, hclosed⟩ := emptied_of_begins hl₀ h₁
    refine ⟨fun hk => hclosed.state hk, fun s l t hs _ hrunning hrun ht hk => ?_⟩
    exact state_of_finishes (emptied_of_reachableWhen hemptied hs) hrunning hrun ht hk

/-- `close_peer` waits for `close()` of the connection it has found: the peer is then
`CLOSED`, and was `CONNECTED` before. -/
theorem reported_states_sample : ∃ s t : Manager Unit,
    step (ofChars "lan".toList) s (.resumeCloser 0) = some t ∧ t.state [98] = .closed := by
  refine ⟨(initial.adopt [98] 5).closePeer 0 [98], _, rfl, ?_⟩
  refine ((reported_states Unit (ofChars "lan".toList)).2 (initial.adopt [98] 5) _ 0 [98]
    (.closePeer 0 [98]) ?_ ⟨rfl, rfl⟩ rfl).2 _ (.resumeCloser 0) _ (.init rfl) ⟨id, ?_⟩ ?_ rfl rfl rfl
  · exact reachable_of_exec rfl [.adopt [98] 5] rfl
  · rintro _ _ ⟨⟩
  · rintro ⟨⟩

/-- A second `close_peer` of the peer takes the mark down while the first one waits for an
attempt that is late: the attempt installs its connection, and the first call finishes. -/
theorem not_reported_states : ¬ ∀ (s₀ s₁ s t : Manager Unit) k p l₀ l,
    Reachable (system Unit (ofChars "lan".toList)) s₀ → Begins s₀ k p l₀ →
    step (ofChars "lan".toList) s₀ l₀ = some s₁ →
    ReachableWhen ((system Unit (ofChars "lan".toList)).startingAt s₁) (fun _ l => ¬ Touches p l) s →
    ¬ Touches p l → s.closers k ≠ .finished → (s.closers k).isGatheringAllCancelled = false →
    step (ofChars "lan".toList) s l = some t → t.closers k = .finished → t.state p = .closed := by
  intro h
  have hconnected := h _ _ _ _ 0 [98] (.closePeer 0 [98]) (.resumeCloser 0)
    (reachable_of_exec rfl
      [.connect 0 0 [98] ⟨ofChars "lan".toList, [49]⟩ false false, .attempt 0 .start] rfl)
    ⟨rfl, rfl⟩ rfl
    (reachableWhen_of_exec rfl [.closePeer 1 [98], .attempt 0 (.opened 5)]
      (by
        intro l hl s
        simp only [List.mem_cons, List.not_mem_nil, or_false] at hl
        rcases hl with rfl | rfl
        · exact id
        · exact id) rfl)
    id (by rintro ⟨⟩) rfl rfl rfl
  cases hconnected

end ConnectionManager
end Core
end Paqto
