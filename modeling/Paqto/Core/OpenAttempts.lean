/-
# What an open attempt leaves behind

A manager with the history of its attempts (`Traced`): the connection that an attempt
opened, the one it installed, and the first exception it met.  `Fits` says how the
place of an attempt and its history agree, and `open_attempts` reads off what holds
when the attempt has ended: it is out of `_in_flight`, its connection is installed,
closed or being closed, its callers get the first exception, and the peer of a failed
attempt is not left in between.

A failed attempt may have installed a connection over an open one.  It has done so
when `close()` of the connection it replaced raised or was cancelled, and only then.
-/

import Paqto.Core.ManagerRegistry
import Paqto.Core.PeerStates

namespace Paqto
namespace Core
namespace ConnectionManager

open Transition Python

variable {E : Type}

/-- A manager with what its attempts have opened, installed and failed with. -/
structure Traced (E : Type) where
  manager : Manager E
  /-- The connection that `transport.connect` returned. -/
  opened : ℕ → Option ℕ
  /-- The connection the attempt installed, and whether over an open one. -/
  installed : ℕ → Option (ℕ × Bool)
  firstError : ℕ → Option (Failure E)

/-- The connection that the transport has opened. -/
def Answer.connection : Answer E → Option ℕ
  | opened c => some c
  | _ => none

/-- The failure that an answer brings. -/
def Answer.failure : Answer E → Option (Failure E)
  | timeout => some .timedOut
  | raises e => some e
  | _ => none

/-- The connection that an attempt has installed, or returned. -/
def AttemptPc.selected : AttemptPc E → Option ℕ
  | closingPrevious _ _ selected | done _ (.ok selected) => some selected
  | _ => none

/-- Another connection is the open canonical one. -/
def Manager.replaces (s : Manager E) (a selected : ℕ) : Bool :=
  ((s.attempts a).peer.bind s.connections.lookup).any fun c => c ≠ selected && !s.isClosed c

/-- `close()` was called on the connection, or it is closed. -/
def Manager.Disposed (s : Manager E) (c : ℕ) : Prop := s.isClosed c = true ∨ s.closeCalled c = true

namespace Traced

/-- Nothing has happened. -/
def initial : Traced E where
  manager := ConnectionManager.initial
  opened := fun _ => none
  installed := fun _ => none
  firstError := fun _ => none

/-- The history goes on with a step of an attempt. -/
def after (s : Traced E) (t : Manager E) : Label E → Traced E
  | .attempt a answer =>
      { manager := t
        opened := Function.update s.opened a (answer.connection.or (s.opened a))
        installed := Function.update s.installed a ((s.installed a).or
          ((t.attempts a).selected.map fun c => (c, s.manager.replaces a c)))
        firstError := Function.update s.firstError a ((s.firstError a).or
          (answer.failure.or (t.attempts a).failure)) }
  | _ => { s with manager := t }

end Traced

/-- The runs of a manager with what its attempts did. -/
def tracedSystem (E : Type) (transport : Str) : System (Traced E) (Label E) where
  init s := s = Traced.initial
  step s l := (step transport s.manager l).map fun t => s.after t l

/-- How the place of an attempt agrees with what it has opened and installed and met.
No failed attempt has installed anything over an open connection in `Contained` runs. -/
def Fits (Contained : Prop) (s : Manager E) (opened : Option ℕ) (installed : Option (ℕ × Bool))
    (firstError : Option (Failure E)) : AttemptPc E → Prop
  | .absent | .created _ _ | .connecting _ _ =>
      opened = none ∧ installed = none ∧ firstError = none
  | .preparing _ c => opened = some c ∧ installed = none ∧ firstError = none
  | .closingOpened _ c _ =>
      opened = some c ∧ installed = none ∧ firstError = none ∧ s.Disposed c
  | .closingPrevious _ c selected =>
      opened = some c ∧ (∃ b, installed = some (selected, b)) ∧ firstError = none ∧
        (c = selected ∨ s.Disposed c)
  | .cleaning _ c e =>
      opened = some c ∧ firstError = some e ∧ s.Disposed c ∧
        (Contained → ∀ d, installed ≠ some (d, true))
  | .done _ (.ok selected) =>
      (∃ b, installed = some (selected, b)) ∧ ∀ c, opened = some c → c = selected ∨ s.Disposed c
  | .done _ (.error e) =>
      firstError = some e ∧ (∀ c, opened = some c → s.Disposed c) ∧
        (Contained → ∀ d, installed ≠ some (d, true))

/-- Where each attempt stands fits what it has done. -/
def Traced.Fitting (Contained : Prop) (s : Traced E) : Prop :=
  ∀ a, Fits Contained s.manager (s.opened a) (s.installed a) (s.firstError a)
    (s.manager.attempts a)

/-- `close()` of an open connection that an attempt has replaced neither raises nor is
cancelled. -/
def ReplacesQuietly (s : Traced E) (l : Label E) : Prop :=
  ∀ a e p opened selected, l = .attempt a (.raises e) →
    s.manager.attempts a = .closingPrevious p opened selected →
    s.installed a ≠ some (selected, true)

/-! ## Steps of others -/

namespace Manager

variable {s t u : Manager E} {transport : Str} {a k c : ℕ} {p : Str}

/-- The attempts stay, and what is closed stays closed. -/
structure Idle (s t : Manager E) : Prop where
  attempts : t.attempts = s.attempts
  disposed : ∀ c, s.Disposed c → t.Disposed c

/-- Two steps that move no attempt. -/
theorem Idle.trans (h : s.Idle t) (h' : t.Idle u) : s.Idle u :=
  ⟨h'.attempts.trans h.attempts, fun c hc => h'.disposed c (h.disposed c hc)⟩

/-- A change of the other fields. -/
theorem idle_of_eq (hattempts : t.attempts = s.attempts) (hclosed : t.isClosed = s.isClosed)
    (hcalled : t.closeCalled = s.closeCalled) : s.Idle t :=
  ⟨hattempts, fun c hc => by rwa [Disposed, hclosed, hcalled]⟩

/-- `get_by_id` moves no attempt. -/
theorem idle_getById (s : Manager E) (p : Str) : s.Idle (s.getById p).1 := by
  unfold getById
  split
  · split <;> exact idle_of_eq rfl rfl rfl
  · exact idle_of_eq rfl rfl rfl

/-- Nor does `connection_lost`. -/
theorem idle_connectionLost (s : Manager E) (p : Str) (c : ℕ) :
    s.Idle (s.connectionLost p c) := by
  unfold connectionLost
  split
  · dsimp only
    split <;> exact idle_of_eq rfl rfl rfl
  · exact idle_of_eq rfl rfl rfl

/-- Nor does `adopt`. -/
theorem idle_adopt (s : Manager E) (p : Str) (c : ℕ) : s.Idle (s.adopt p c) := by
  unfold adopt
  split <;> exact idle_of_eq rfl rfl rfl

/-- Nor does `mark_reconnecting`. -/
theorem idle_markReconnecting (s : Manager E) (p : Str) : s.Idle (s.markReconnecting p) := by
  have hget := s.idle_getById p
  unfold markReconnecting
  split
  · exact idle_of_eq rfl rfl rfl
  · split <;> rename_i heq <;> rw [heq] at hget
    · exact hget.trans (idle_of_eq rfl rfl rfl)
    · exact hget

/-- Nor does `mark_disconnected`. -/
theorem idle_markDisconnected (s : Manager E) (p : Str) : s.Idle (s.markDisconnected p) := by
  have hget := s.idle_getById p
  unfold markDisconnected
  split <;> rename_i heq <;> rw [heq] at hget
  · split
    · exact hget
    · exact hget.trans (idle_of_eq rfl rfl rfl)
  · exact hget

/-- Nor does a call of `close()`. -/
theorem idle_callClose (s : Manager E) (c : ℕ) : s.Idle (s.callClose c) := by
  refine ⟨rfl, fun d hd => hd.imp_right fun hcalled => ?_⟩
  simp only [callClose, Function.update_apply]
  split
  · rfl
  · exact hcalled

/-- Nor does the end of `close_peer`. -/
theorem idle_endClosePeer (s : Manager E) (k : ℕ) (p : Str) : s.Idle (s.endClosePeer k p) := by
  unfold endClosePeer
  dsimp only
  split <;> exact idle_of_eq rfl rfl rfl

/-- Nor does `close_peer` after it has waited for the attempt. -/
theorem idle_closeGathered (s : Manager E) (k : ℕ) (p : Str) (connection : Option ℕ) :
    s.Idle (s.closeGathered k p connection) := by
  unfold closeGathered
  split
  · exact (s.idle_callClose _).trans (idle_of_eq rfl rfl rfl)
  · exact s.idle_endClosePeer k p

/-- `close_peer` cancels an attempt, and moves none. -/
theorem idle_closePeer (s : Manager E) (k : ℕ) (p : Str) : s.Idle (s.closePeer k p) := by
  unfold closePeer
  dsimp only
  split
  · exact idle_of_eq rfl rfl rfl
  · have hpop : s.Idle ({ s with
        closingPeers := Function.update s.closingPeers p true
        inFlight := s.inFlight.erase p
        connections := s.connections.erase p }.setState p .closing) := idle_of_eq rfl rfl rfl
    exact hpop.trans (idle_closeGathered _ k p _)

/-- Nor does `close_all` after it has waited for the attempts. -/
theorem idle_closeAllGathered (s : Manager E) (k : ℕ) (connections : List ℕ) (peers : List Str) :
    s.Idle (s.closeAllGathered k connections peers) := by
  unfold closeAllGathered
  split
  · exact idle_of_eq rfl rfl rfl
  · exact ⟨rfl, fun d hd => hd.imp_right fun hcalled => by simp [setCloser, hcalled]⟩

/-- `close_all` cancels attempts, and moves none. -/
theorem idle_closeAll (s : Manager E) (k : ℕ) : s.Idle (s.closeAll k) := by
  unfold closeAll
  dsimp only
  split
  · have hclear : s.Idle ({ s with
        closing := true
        states := (s.states.keys ++ s.connections.keys ++ s.inFlight.keys).dedup.foldl
          (fun states p => states.insert p .closing) s.states
        inFlight := ∅
        connections := ∅ }.cancelTasks (values s.inFlight)) := idle_of_eq rfl rfl rfl
    exact hclear.trans (idle_closeAllGathered _ k _ _)
  · exact idle_of_eq rfl rfl rfl

/-- A closing call that goes on moves no attempt. -/
theorem idle_resumeCloser (ht : s.resumeCloser k = some t) : s.Idle t := by
  unfold resumeCloser at ht
  split at ht
  · split at ht <;> cases ht
    exact s.idle_closeGathered k _ _
  · split at ht <;> cases ht
    exact s.idle_endClosePeer k _
  · cases ht
    exact s.idle_endClosePeer k _
  · split at ht <;> cases ht
    exact s.idle_closeAllGathered k _ _
  · split at ht <;> cases ht
    exact idle_of_eq rfl rfl rfl
  · cases ht
    exact idle_of_eq rfl rfl rfl
  · cases ht

/-- Nor does one that is cancelled. -/
theorem idle_cancelCloser (ht : s.cancelCloser k = some t) : s.Idle t := by
  unfold cancelCloser at ht
  split at ht <;> cases ht
  · exact idle_of_eq rfl rfl rfl
  · exact s.idle_endClosePeer k _
  · exact idle_of_eq rfl rfl rfl
  · exact idle_of_eq rfl rfl rfl

/-! ## The attempt that goes on -/

/-- Where an attempt stands after its move. -/
@[simp] theorem setAttempt_attempts (s : Manager E) (a : ℕ) (pc : AttemptPc E) :
    (s.setAttempt a pc).attempts a = pc := by
  simp [setAttempt]

/-- Where an attempt stands says nothing about closed connections. -/
@[simp] theorem disposed_setAttempt (s : Manager E) (a : ℕ) (pc : AttemptPc E) (c : ℕ) :
    (s.setAttempt a pc).Disposed c ↔ s.Disposed c := Iff.rfl

/-- An attempt that has ended is done. -/
@[simp] theorem endAttempt_attempts (s : Manager E) (a : ℕ) (p : Str)
    (outcome : Except (Failure E) ℕ) : (s.endAttempt a p outcome).attempts a = .done p outcome := by
  unfold endAttempt
  dsimp only
  split
  · simp
  · split <;> simp

/-- A connection whose `close()` was called is disposed of. -/
theorem disposed_callClose (s : Manager E) (c : ℕ) : (s.callClose c).Disposed c :=
  Or.inr (by simp [callClose])

/-- What is closed before the `finally` is closed after it. -/
theorem disposed_endAttempt (outcome : Except (Failure E) ℕ) (hc : s.Disposed c) :
    (s.endAttempt a p outcome).Disposed c := by
  have hpop : s.Idle { s with
      inFlight := if s.inFlight.lookup p = some a then s.inFlight.erase p else s.inFlight } :=
    idle_of_eq rfl rfl rfl
  have hget := (hpop.trans (idle_getById _ p)).disposed c hc
  unfold endAttempt
  dsimp only
  split
  · exact hc
  · split <;> rename_i heq <;> rw [heq] at hget
    · exact hget
    · exact hget

/-- A connection that was disposed of stays so when an attempt fails, -/
theorem disposed_failAttempt (o : ℕ) (e : Failure E) (hc : s.Disposed c) :
    (s.failAttempt a p o e).Disposed c := by
  unfold failAttempt
  split
  · exact disposed_endAttempt _ hc
  · exact (s.idle_callClose o).disposed c hc

/-- when one installs its connection, -/
theorem disposed_install (o selected : ℕ) (hc : s.Disposed c) :
    (s.install a p o selected).Disposed c := by
  unfold install
  split
  · exact disposed_failAttempt _ _ hc
  · dsimp only
    split
    · exact (idle_callClose _ _).disposed c hc
    · exact disposed_endAttempt _ hc

/-- when one has its connection prepared, -/
theorem disposed_select (o : ℕ) (replacement : Option ℕ) (hc : s.Disposed c) :
    (s.select a p o replacement).Disposed c := by
  unfold select
  dsimp only
  split
  · exact (s.idle_callClose o).disposed c hc
  · exact disposed_install _ _ hc

/-- and whatever else an attempt does. -/
theorem disposed_resumeAttempt {answer : Answer E} (hc : s.Disposed c)
    (ht : s.resumeAttempt a answer = some t) : t.Disposed c := by
  unfold resumeAttempt at ht
  dsimp only at ht
  split at ht
  · split at ht <;> cases ht
    exact hc
  · split at ht <;> cases ht
    exact hc
  · split at ht <;> cases ht
    · exact hc
    · exact disposed_select _ _ hc
  · cases ht
    exact disposed_endAttempt _ hc
  · cases ht
    exact disposed_select _ _ hc
  · cases ht
    exact disposed_install _ _ hc
  · cases ht
    exact disposed_endAttempt _ hc
  · cases ht
    exact disposed_endAttempt _ hc
  · split at ht
    · cases ht
    · split at ht <;> cases ht
      · exact disposed_endAttempt _ hc
      · exact disposed_failAttempt _ _ hc
      · exact disposed_failAttempt _ _ hc
      · exact disposed_failAttempt _ _ hc
      · exact disposed_endAttempt _ hc
  · cases ht

/-- `Fits`, with what the place of the attempt adds to its history. -/
def Follows (Contained : Prop) (t : Manager E) (a : ℕ) (replaces : ℕ → Bool) (opened : Option ℕ)
    (installed : Option (ℕ × Bool)) (firstError : Option (Failure E)) : Prop :=
  Fits Contained t opened
    (installed.or ((t.attempts a).selected.map fun c => (c, replaces c)))
    (firstError.or (t.attempts a).failure) (t.attempts a)

variable {Contained : Prop} {replaces : ℕ → Bool} {opened : Option ℕ} {o selected : ℕ}
  {installed : Option (ℕ × Bool)} {firstError : Option (Failure E)} {e : Failure E}

/-- An attempt ends with its first error, and has disposed of what it opened. -/
theorem follows_endAttempt_error (hopened : ∀ c, opened = some c → s.Disposed c)
    (herror : firstError.or (some e) = some e)
    (hspared : Contained → ∀ d, installed ≠ some (d, true)) :
    (s.endAttempt a p (.error e)).Follows Contained a replaces opened installed firstError := by
  unfold Follows
  rw [endAttempt_attempts]
  refine ⟨herror, fun c hc => disposed_endAttempt _ (hopened c hc), ?_⟩
  simpa [AttemptPc.selected] using hspared

/-- An attempt ends with the connection that it installed. -/
theorem follows_endAttempt_ok (hopened : ∀ c, opened = some c → c = selected ∨ s.Disposed c)
    (hinstalled : ∀ d b, installed = some (d, b) → d = selected) :
    (s.endAttempt a p (.ok selected)).Follows Contained a replaces opened installed firstError := by
  unfold Follows
  rw [endAttempt_attempts]
  refine ⟨?_, fun c hc => (hopened c hc).imp_right (disposed_endAttempt _)⟩
  cases hi : installed with
  | none => exact ⟨replaces selected, rfl⟩
  | some d => exact ⟨d.2, by rw [← hinstalled d.1 d.2 hi]; rfl⟩

/-- An attempt fails, and cleans up what it has opened. -/
theorem follows_failAttempt (herror : firstError.or (some e) = some e)
    (hspared : Contained → ∀ d, installed ≠ some (d, true)) :
    (s.failAttempt a p o e).Follows Contained a replaces (some o) installed firstError := by
  unfold failAttempt
  split
  · rename_i hclosed
    refine follows_endAttempt_error (fun c hc => ?_) herror hspared
    cases hc
    exact Or.inl hclosed
  · unfold Follows
    rw [setAttempt_attempts]
    exact ⟨rfl, herror, disposed_callClose s o, by simpa [AttemptPc.selected] using hspared⟩

/-- An attempt installs the connection that was selected. -/
theorem follows_install (hopened : o = selected ∨ s.Disposed o) :
    (s.install a p o selected).Follows Contained a replaces (some o) none none := by
  unfold install
  split
  · exact follows_failAttempt rfl fun _ _ => nofun
  · dsimp only
    split
    · unfold Follows
      rw [setAttempt_attempts]
      refine ⟨rfl, ⟨replaces selected, rfl⟩, rfl, hopened.imp_right fun hd => ?_⟩
      exact (idle_callClose _ _).disposed o hd
    · refine follows_endAttempt_ok (fun c hc => ?_) nofun
      cases hc
      exact hopened

/-- An attempt is told which connection was selected. -/
theorem follows_select (replacement : Option ℕ) :
    (s.select a p o replacement).Follows Contained a replaces (some o) none none := by
  unfold select
  dsimp only
  split
  · unfold Follows
    rw [setAttempt_attempts]
    exact ⟨rfl, rfl, rfl, disposed_callClose s o⟩
  · rename_i hsel
    refine follows_install ?_
    by_cases hsame : replacement.getD o = o
    · exact Or.inl hsame.symm
    · exact Or.inr (Or.inl (by simpa [hsame] using hsel))

/-- **What one step of an attempt adds to its history.** -/
theorem follows_resumeAttempt {answer : Answer E}
    (h : Fits Contained s opened installed firstError (s.attempts a))
    (hquiet : Contained → ∀ e p o selected, answer = .raises e →
      s.attempts a = .closingPrevious p o selected → installed ≠ some (selected, true))
    (ht : s.resumeAttempt a answer = some t) :
    t.Follows Contained a replaces (answer.connection.or opened) installed
      (firstError.or answer.failure) := by
  unfold resumeAttempt at ht
  dsimp only at ht
  split at ht
  · -- `created`, run
    rename_i ha
    rw [ha] at h
    obtain ⟨rfl, rfl, rfl⟩ := h
    split at ht <;> cases ht
    unfold Follows
    rw [setAttempt_attempts]
    exact ⟨rfl, rfl, rfl⟩
  · -- `created`, cancelled
    rename_i ha
    rw [ha] at h
    obtain ⟨rfl, rfl, rfl⟩ := h
    split at ht <;> cases ht
    unfold Follows
    rw [setAttempt_attempts]
    exact ⟨rfl, nofun, fun _ _ => nofun⟩
  · rename_i ha
    rw [ha] at h
    obtain ⟨rfl, rfl, rfl⟩ := h
    split at ht <;> cases ht
    · unfold Follows
      rw [setAttempt_attempts]
      exact ⟨rfl, rfl, rfl⟩
    · exact follows_select none
  · rename_i ha
    rw [ha] at h
    obtain ⟨rfl, rfl, rfl⟩ := h
    cases ht
    exact follows_endAttempt_error nofun rfl fun _ _ => nofun
  · rename_i ha
    rw [ha] at h
    obtain ⟨rfl, rfl, rfl⟩ := h
    cases ht
    exact follows_select _
  · rename_i ha
    rw [ha] at h
    obtain ⟨rfl, rfl, rfl, hdisposed⟩ := h
    cases ht
    exact follows_install (Or.inr hdisposed)
  · rename_i ha
    rw [ha] at h
    obtain ⟨rfl, ⟨b, rfl⟩, rfl, hopened⟩ := h
    cases ht
    refine follows_endAttempt_ok (fun c hc => ?_) fun d b' hd => ?_
    · cases hc
      exact hopened
    · cases hd
      rfl
  · rename_i ha
    rw [ha] at h
    obtain ⟨rfl, rfl, hdisposed, hspared⟩ := h
    cases ht
    refine follows_endAttempt_error (fun c hc => ?_) rfl hspared
    cases hc
    exact hdisposed
  · -- what the attempt awaits has raised
    rename_i e hcreated
    split at ht
    · cases ht
    · split at ht <;> rename_i ha
      · rw [ha] at h
        obtain ⟨rfl, rfl, rfl⟩ := h
        cases ht
        exact follows_endAttempt_error nofun rfl fun _ _ => nofun
      · rw [ha] at h
        obtain ⟨rfl, rfl, rfl⟩ := h
        cases ht
        exact follows_failAttempt rfl fun _ _ => nofun
      · rw [ha] at h
        obtain ⟨rfl, rfl, rfl, hdisposed⟩ := h
        cases ht
        exact follows_failAttempt rfl fun _ _ => nofun
      · rw [ha] at h
        obtain ⟨rfl, ⟨b, rfl⟩, rfl, hopened⟩ := h
        cases ht
        refine follows_failAttempt rfl fun hc d hd => ?_
        cases hd
        exact hquiet hc e _ _ _ rfl ha rfl
      · rw [ha] at h
        obtain ⟨rfl, rfl, hdisposed, hspared⟩ := h
        cases ht
        refine follows_endAttempt_error (fun c hc => ?_) rfl hspared
        cases hc
        exact hdisposed
      · cases ht
  · cases ht

/-! ## Runs with their history -/

/-- An attempt moves no other one. -/
theorem others_resumeAttempt {answer : Answer E} {b : ℕ} (hb : b ≠ a)
    (ht : s.resumeAttempt a answer = some t) : t.attempts b = s.attempts b := by
  obtain ⟨p, -, hstep | ⟨-, -, rfl⟩⟩ := attemptStep_resumeAttempt ht
  · exact hstep.others b hb
  · simp [setAttempt, Function.update_of_ne hb]

/-- A call of `connect` leaves the attempts alone, or creates one. -/
theorem connect_attempts {endpoint : Endpoint} {prepare reconnecting : Bool}
    (ht : s.connect transport k a p endpoint prepare reconnecting = some t) :
    (∀ c, s.Disposed c → t.Disposed c) ∧ (t.attempts = s.attempts ∨
      s.attempts a = .absent ∧
        t.attempts = Function.update s.attempts a (.created p prepare)) := by
  unfold connect at ht
  split at ht
  · cases ht
    exact ⟨fun _ => id, Or.inl rfl⟩
  · split at ht
    · cases ht
      exact ⟨fun _ => id, Or.inl rfl⟩
    · have hget := s.idle_getById p
      split at ht <;> rename_i heq <;> rw [heq] at hget
      · cases ht
        exact ⟨hget.disposed, Or.inl hget.attempts⟩
      · split at ht
        · cases ht
          exact ⟨hget.disposed, Or.inl hget.attempts⟩
        · split at ht
          · rename_i ha
            cases ht
            refine ⟨hget.disposed, Or.inr ⟨hget.attempts ▸ ha, ?_⟩⟩
            rw [← hget.attempts]
            rfl
          · cases ht

end Manager

variable {transport : Str} {Contained : Prop}

/-- What is disposed of stays so. -/
theorem Fits.mono {s t : Manager E} {opened : Option ℕ} {installed : Option (ℕ × Bool)}
    {firstError : Option (Failure E)} {pc : AttemptPc E}
    (h : Fits Contained s opened installed firstError pc)
    (hdisposed : ∀ c, s.Disposed c → t.Disposed c) :
    Fits Contained t opened installed firstError pc := by
  cases pc with
  | absent | created _ _ | connecting _ _ | preparing _ _ => exact h
  | closingOpened p o selected =>
      obtain ⟨ho, hi, he, hd⟩ := h
      exact ⟨ho, hi, he, hdisposed _ hd⟩
  | closingPrevious p o selected =>
      obtain ⟨ho, hi, he, hd⟩ := h
      exact ⟨ho, hi, he, hd.imp_right (hdisposed _)⟩
  | cleaning p o e =>
      obtain ⟨ho, he, hd, hspared⟩ := h
      exact ⟨ho, he, hdisposed _ hd, hspared⟩
  | done p outcome =>
      cases outcome with
      | ok selected =>
          obtain ⟨hi, hd⟩ := h
          exact ⟨hi, fun c hc => (hd c hc).imp_right (hdisposed c)⟩
      | error e =>
          obtain ⟨he, hd, hspared⟩ := h
          exact ⟨he, fun c hc => hdisposed c (hd c hc), hspared⟩

/-- A step that moves no attempt. -/
theorem Manager.Idle.fitting {s : Traced E} {t : Manager E} (hidle : s.manager.Idle t)
    (h : s.Fitting Contained) : ({ s with manager := t } : Traced E).Fitting Contained := by
  intro a
  have hfits := (h a).mono hidle.disposed
  rwa [← hidle.attempts] at hfits

/-- **A step of an attempt** fits what it does. -/
theorem fitting_attempt {s : Traced E} {t : Manager E} {a : ℕ} {answer : Answer E}
    (h : s.Fitting Contained) (hquiet : Contained → ReplacesQuietly s (.attempt a answer))
    (ht : s.manager.resumeAttempt a answer = some t) :
    (s.after t (.attempt a answer)).Fitting Contained := by
  intro b
  by_cases hb : b = a
  · subst hb
    have hfollows : t.Follows Contained b (s.manager.replaces b)
        (answer.connection.or (s.opened b)) (s.installed b)
        ((s.firstError b).or answer.failure) := by
      refine Manager.follows_resumeAttempt (h b) (fun hc e p o selected he hpc => ?_) ht
      subst he
      exact hquiet hc b e p o selected rfl hpc
    simpa [Traced.after, Manager.Follows, Option.or_assoc] using hfollows
  · have hfits := (h b).mono (t := t) fun c hc => Manager.disposed_resumeAttempt hc ht
    rw [← Manager.others_resumeAttempt hb ht] at hfits
    simpa [Traced.after, Function.update_of_ne hb] using hfits

/-- **One step, as the attempts see it**: it leaves them alone, it creates one, or it
resumes one. -/
theorem step_cases {s t : Manager E} {l : Label E} (ht : step transport s l = some t) :
    ((∀ u : Traced E, u.after t l = { u with manager := t }) ∧ (s.Idle t ∨
        ∃ a p prepare, s.attempts a = .absent ∧
          t.attempts = Function.update s.attempts a (.created p prepare) ∧
          ∀ c, s.Disposed c → t.Disposed c)) ∨
      ∃ a answer, l = .attempt a answer ∧ s.resumeAttempt a answer = some t := by
  cases l with
  | attempt a answer => exact Or.inr ⟨a, answer, rfl, ht⟩
  | connect k a p endpoint prepare reconnecting =>
      refine Or.inl ⟨fun _ => rfl, ?_⟩
      simp only [step] at ht
      split at ht
      · obtain ⟨hdisposed, hsame | ⟨habsent, hnew⟩⟩ := Manager.connect_attempts ht
        · exact Or.inl ⟨hsame, hdisposed⟩
        · exact Or.inr ⟨a, p, prepare, habsent, hnew, hdisposed⟩
      · cases ht
  | resumeCaller k =>
      refine Or.inl ⟨fun _ => rfl, Or.inl ?_⟩
      simp only [step] at ht
      split at ht
      · split at ht <;> cases ht
        exact Manager.idle_of_eq rfl rfl rfl
      · cases ht
  | cancelCaller k =>
      refine Or.inl ⟨fun _ => rfl, Or.inl ?_⟩
      simp only [step] at ht
      split at ht <;> cases ht
      exact Manager.idle_of_eq rfl rfl rfl
  | adopt p c => cases ht; exact Or.inl ⟨fun _ => rfl, Or.inl (s.idle_adopt p c)⟩
  | connectionLost p c =>
      cases ht
      exact Or.inl ⟨fun _ => rfl, Or.inl (s.idle_connectionLost p c)⟩
  | markReconnecting p =>
      cases ht
      exact Or.inl ⟨fun _ => rfl, Or.inl (s.idle_markReconnecting p)⟩
  | markDisconnected p =>
      cases ht
      exact Or.inl ⟨fun _ => rfl, Or.inl (s.idle_markDisconnected p)⟩
  | getById p => cases ht; exact Or.inl ⟨fun _ => rfl, Or.inl (s.idle_getById p)⟩
  | closes c =>
      cases ht
      refine Or.inl ⟨fun _ => rfl, Or.inl ⟨rfl, fun d hd => hd.imp_left fun hclosed => ?_⟩⟩
      simp only [Function.update_apply]
      split
      · rfl
      · exact hclosed
  | closePeer k p =>
      refine Or.inl ⟨fun _ => rfl, Or.inl ?_⟩
      simp only [step] at ht
      split at ht <;> cases ht
      exact s.idle_closePeer k p
  | closeAll k =>
      refine Or.inl ⟨fun _ => rfl, Or.inl ?_⟩
      simp only [step] at ht
      split at ht <;> cases ht
      exact s.idle_closeAll k
  | resumeCloser k => exact Or.inl ⟨fun _ => rfl, Or.inl (Manager.idle_resumeCloser ht)⟩
  | cancelCloser k => exact Or.inl ⟨fun _ => rfl, Or.inl (Manager.idle_cancelCloser ht)⟩

/-- **Every step fits.** -/
theorem fitting_step {s u : Traced E} {l : Label E} (h : s.Fitting Contained)
    (hquiet : Contained → ReplacesQuietly s l)
    (hu : (tracedSystem E transport).step s l = some u) : u.Fitting Contained := by
  obtain ⟨t, ht, rfl⟩ := Option.map_eq_some_iff.1 hu
  obtain ⟨hafter, hidle | ⟨a, p, prepare, habsent, hnew, hdisposed⟩⟩ | ⟨a, answer, rfl, hresume⟩ :=
    step_cases ht
  · rw [hafter]
    exact hidle.fitting h
  · rw [hafter]
    intro b
    have hfits := h b
    by_cases hb : b = a
    · subst hb
      have hcreated : t.attempts b = .created p prepare := by simp [hnew]
      rw [habsent] at hfits
      change Fits Contained t _ _ _ (t.attempts b)
      rw [hcreated]
      exact hfits
    · simpa [hnew, Function.update_of_ne hb] using hfits.mono hdisposed
  · exact fitting_attempt h hquiet hresume

/-- No attempt was started. -/
theorem fitting_initial : (Traced.initial : Traced E).Fitting Contained :=
  fun _ => ⟨rfl, rfl, rfl⟩

/-- **The places of the attempts and their history agree**, in every run. -/
theorem fitting_of_reachable {s : Traced E} (h : Reachable (tracedSystem E transport) s) :
    s.Fitting False :=
  Reachable.invariant (I := Traced.Fitting False) (by rintro _ rfl; exact fitting_initial)
    (fun _ _ _ hi hu => fitting_step hi False.elim hu) h

/-- It fits in every run whose replacements are quiet. -/
theorem fitting_of_reachableWhen {s : Traced E}
    (h : ReachableWhen (tracedSystem E transport) ReplacesQuietly s) : s.Fitting True :=
  h.invariant (I := Traced.Fitting True) (by rintro _ rfl; exact fitting_initial)
    fun _ _ _ hi hG hu => fitting_step hi (fun _ => hG) hu

/-- The manager after a step. -/
@[simp] theorem Traced.after_manager (s : Traced E) (t : Manager E) (l : Label E) :
    (s.after t l).manager = t := by
  cases l <;> rfl

/-- The history does not change what the manager does. -/
theorem reachable_manager {s : Traced E} (h : Reachable (tracedSystem E transport) s) :
    Reachable (system E transport) s.manager := by
  refine h.invariant (I := fun s => Reachable (system E transport) s.manager) ?_ ?_
  · rintro _ rfl
    exact .init rfl
  · intro s l u hs hu
    obtain ⟨t, ht, rfl⟩ := Option.map_eq_some_iff.1 hu
    rw [Traced.after_manager]
    exact hs.next l ht

/-! ## A replaced connection whose `close()` raises -/

/-- An attempt that fails cleans up, or has ended. -/
theorem Manager.failAttempt_attempts (s : Manager E) (a : ℕ) (p : Str) (o : ℕ) (e : Failure E) :
    (s.failAttempt a p o e).attempts a = .cleaning p o e ∨
      (s.failAttempt a p o e).attempts a = .done p (.error e) := by
  unfold failAttempt
  split
  · exact Or.inr (by simp)
  · exact Or.inl (by simp)

/-- The attempt has failed, or cleans up, and has installed `x`. -/
def Traced.Doomed (a : ℕ) (x : ℕ × Bool) (s : Traced E) : Prop :=
  (s.manager.attempts a).failure ≠ none ∧ s.installed a = some x

/-- An attempt that has failed does not recover. -/
theorem Manager.failure_resumeAttempt {s t : Manager E} {a : ℕ} {answer : Answer E}
    (ha : (s.attempts a).failure ≠ none) (ht : s.resumeAttempt a answer = some t) :
    (t.attempts a).failure ≠ none := by
  cases hpc : s.attempts a with
  | absent | created _ _ | connecting _ _ | preparing _ _ | closingOpened _ _ _
  | closingPrevious _ _ _ => exact absurd (by rw [hpc]; rfl) ha
  | cleaning p o e =>
      cases answer with
      | start | opened _ | timeout | prepared _ => simp [resumeAttempt, hpc] at ht
      | closed =>
          simp only [resumeAttempt, hpc, Option.some.injEq] at ht
          simp [← ht, AttemptPc.failure]
      | raises e' =>
          simp only [resumeAttempt, hpc] at ht
          split at ht <;> cases ht
          simp [AttemptPc.failure]
  | done p outcome =>
      cases answer with
      | start | opened _ | timeout | prepared _ | closed => simp [resumeAttempt, hpc] at ht
      | raises e' =>
          simp only [resumeAttempt, hpc] at ht
          split at ht <;> cases ht

/-- **An attempt that has failed after it installed its connection** ends with its error. -/
theorem Traced.Doomed.step {s u : Traced E} {a : ℕ} {x : ℕ × Bool} {l : Label E}
    (h : s.Doomed a x) (hu : (tracedSystem E transport).step s l = some u) : u.Doomed a x := by
  obtain ⟨t, ht, rfl⟩ := Option.map_eq_some_iff.1 hu
  obtain ⟨hfailed, hinstalled⟩ := h
  obtain ⟨hafter, hidle | ⟨b, p, prepare, habsent, hnew, -⟩⟩ | ⟨b, answer, rfl, hresume⟩ :=
    step_cases ht
  · rw [hafter]
    exact ⟨by rwa [← hidle.attempts] at hfailed, hinstalled⟩
  · have hb : a ≠ b := by
      rintro rfl
      exact hfailed (by rw [habsent]; rfl)
    rw [hafter]
    refine ⟨?_, hinstalled⟩
    simpa [hnew, Function.update_of_ne hb] using hfailed
  · by_cases hb : a = b
    · subst hb
      refine ⟨Manager.failure_resumeAttempt hfailed hresume, ?_⟩
      simp [Traced.after, hinstalled]
    · refine ⟨?_, by simpa [Traced.after, Function.update_of_ne hb] using hinstalled⟩
      rw [Traced.after_manager, Manager.others_resumeAttempt hb hresume]
      exact hfailed

/-- **It fails and has installed its connection over an open one**, however the run
goes on. -/
theorem doomed_of_raises {s t u : Traced E} {a o selected : ℕ} {p : Str} {e : Failure E}
    (ha : s.manager.attempts a = .closingPrevious p o selected)
    (hinstalled : s.installed a = some (selected, true))
    (ht : (tracedSystem E transport).step s (.attempt a (.raises e)) = some t)
    (hu : Reachable ((tracedSystem E transport).startingAt t) u) :
    u.Doomed a (selected, true) := by
  refine Reachable.invariant (I := Traced.Doomed a (selected, true)) ?_
    (fun v l w hi hs => ?_) hu
  swap
  · have hw : (tracedSystem E transport).step v l = some w := hs
    exact hi.step hw
  rintro _ rfl
  obtain ⟨m, hm, rfl⟩ := Option.map_eq_some_iff.1 ht
  refine ⟨?_, by simp [Traced.after, hinstalled]⟩
  simp only [step, Manager.resumeAttempt, ha] at hm
  split at hm <;> cases hm
  rcases Manager.failAttempt_attempts
    { s.manager with cancelled := Function.update s.manager.cancelled a false } a p o e with h | h
  · rw [Traced.after_manager, h]
    rintro ⟨⟩
  · rw [Traced.after_manager, h]
    rintro ⟨⟩

/-! ## The end of an attempt -/

/-- What holds when an attempt has ended. -/
structure Traced.Settled (s : Traced E) (a : ℕ) (outcome : Except (Failure E) ℕ) : Prop where
  unregistered : ∀ p, s.manager.inFlight.lookup p ≠ some a
  /-- What it opened is what it installed and returned, or is closed or being closed. -/
  opened : ∀ c, s.opened a = some c →
    (outcome = .ok c ∧ ∃ b, s.installed a = some (c, b)) ∨ s.manager.Disposed c
  firstError : ∀ e, outcome = .error e → s.firstError a = some e
  callers : ∀ k o, s.manager.callers k = .done (some a) o → o = outcome

/-- What an attempt that is done has left. -/
theorem settled_of_reachable {s : Traced E} (h : Reachable (tracedSystem E transport) s)
    {a : ℕ} {p : Str} {outcome : Except (Failure E) ℕ}
    (ha : s.manager.attempts a = .done p outcome) : s.Settled a outcome := by
  have hregistered := registered_of_reachable (reachable_manager h)
  have hfits := fitting_of_reachable h a
  rw [ha] at hfits
  refine ⟨fun q hq => ?_, fun c hc => ?_, fun e he => ?_, fun k o hk => ?_⟩
  · have hpeer := (hregistered.flight q a hq).1
    rw [ha] at hpeer
    cases hpeer
  · cases outcome with
    | ok selected =>
        obtain ⟨⟨b, hb⟩, hopened⟩ := hfits
        rcases hopened c hc with rfl | hdisposed
        · exact Or.inl ⟨rfl, b, hb⟩
        · exact Or.inr hdisposed
    | error e =>
        obtain ⟨-, hopened, -⟩ := hfits
        exact Or.inr (hopened c hc)
  · subst he
    exact hfits.1
  · obtain ⟨q, hq⟩ := hregistered.joined k a o hk
    rw [ha] at hq
    cases hq
    rfl

/-- An attempt that is done with an error has installed nothing that it replaced another one with.
-/
theorem spared_of_reachableWhen {s : Traced E}
    (h : ReachableWhen (tracedSystem E transport) ReplacesQuietly s) {a d : ℕ} {p : Str}
    {e : Failure E} (ha : s.manager.attempts a = .done p (.error e)) :
    s.installed a ≠ some (d, true) := by
  have hfits := fitting_of_reachableWhen h a
  rw [ha] at hfits
  exact hfits.2.2 trivial d

/-- The peer of an attempt that has failed, at the end and for as long as no operation
changes an entry of it. -/
theorem state_of_failed {s t u : Manager E} {a : ℕ} {p : Str} {answer : Answer E} {e : Failure E}
    (h : Reachable (system E transport) s) (hrun : ¬ s.Unrun a)
    (ht : step transport s (.attempt a answer) = some t)
    (ha : t.attempts a = .done p (.error e))
    (hu : ReachableWhen ((system E transport).startingAt t) (LeavesEntries transport p) u)
    (hnone : (u.getById p).2 = none) :
    u.state p = .disconnected ∨ u.state p = .closed := by
  obtain ⟨-, hunrun | hsettles⟩ := Manager.settles_resumeAttempt (kept_of_reachable h) ht
  · exact absurd hunrun hrun
  · exact ((hsettles.failed p e ha).run hu).state hnone

/-- **Open attempts clean up.**  In every run: an attempt that has ended is out of
`_in_flight`, what it opened is installed and returned, closed or being closed, and its
callers get the first exception it met; and the peer of an attempt that has failed is
`DISCONNECTED` or `CLOSED` when there is no open connection to it, until an operation
changes an entry of it.  **A failed attempt installs nothing over an open connection**
unless `close()` of the connection it has replaced raises or is cancelled, and then it
has done so. -/
theorem open_attempts (E : Type) (transport : Str) :
    (∀ s : Traced E, Reachable (tracedSystem E transport) s → ∀ a p outcome,
        s.manager.attempts a = .done p outcome → s.Settled a outcome) ∧
      (∀ (s t u : Manager E) a p answer e, Reachable (system E transport) s → ¬ s.Unrun a →
        step transport s (.attempt a answer) = some t → t.attempts a = .done p (.error e) →
        ReachableWhen ((system E transport).startingAt t) (LeavesEntries transport p) u →
        (u.getById p).2 = none → u.state p = .disconnected ∨ u.state p = .closed) ∧
      (∀ s : Traced E, ReachableWhen (tracedSystem E transport) ReplacesQuietly s → ∀ a p e,
        s.manager.attempts a = .done p (.error e) → ∀ d, s.installed a ≠ some (d, true)) ∧
      ∀ (s t u : Traced E) l, Reachable (tracedSystem E transport) s → ¬ ReplacesQuietly s l →
        (tracedSystem E transport).step s l = some t →
        Reachable ((tracedSystem E transport).startingAt t) u →
        ∃ a d, u.installed a = some (d, true) ∧
          ∀ p outcome, u.manager.attempts a = .done p outcome → ∃ e, outcome = .error e := by
  refine ⟨fun s h a p outcome ha => settled_of_reachable h ha,
    fun s t u a p answer e h hrun ht ha hu hnone => state_of_failed h hrun ht ha hu hnone,
    fun s h a p e ha d => spared_of_reachableWhen h ha, fun s t u l _ hl ht hu => ?_⟩
  simp only [ReplacesQuietly, not_forall, ne_eq, not_not] at hl
  obtain ⟨a, e, p, o, selected, rfl, ha, hinstalled⟩ := hl
  obtain ⟨hfailed, hover⟩ := doomed_of_raises ha hinstalled ht hu
  refine ⟨a, selected, hover, fun q outcome hdone => ?_⟩
  rw [hdone] at hfailed
  cases outcome with
  | ok c => exact absurd rfl hfailed
  | error e' => exact ⟨e', rfl⟩

/-- `prepare` raises, and so does `close()` of the connection: the caller gets what
`prepare` has raised. -/
theorem open_attempts_sample : ∃ s : Traced Bool,
    exec (tracedSystem Bool (ofChars "lan".toList)).step Traced.initial
      [.connect 0 0 [98] ⟨ofChars "lan".toList, [49]⟩ true false, .attempt 0 .start,
        .attempt 0 (.opened 5), .attempt 0 (.raises (.raised true)),
        .attempt 0 (.raises (.raised false)), .resumeCaller 0] = some s ∧
      s.manager.callers 0 = .done (some 0) (.error (.raised true)) ∧
      s.Settled 0 (.error (.raised true)) :=
  ⟨_, rfl, rfl, (open_attempts Bool (ofChars "lan".toList)).1 _ (reachable_of_exec rfl
    [.connect 0 0 [98] ⟨ofChars "lan".toList, [49]⟩ true false, .attempt 0 .start,
      .attempt 0 (.opened 5), .attempt 0 (.raises (.raised true)),
      .attempt 0 (.raises (.raised false)), .resumeCaller 0] rfl) 0 [98] _ rfl⟩

/-- An inbound connection is adopted while the attempt prepares its own, and its
`close()` raises once it has been replaced. -/
theorem not_open_attempts : ¬ ∀ s : Traced Unit,
    Reachable (tracedSystem Unit (ofChars "lan".toList)) s → ∀ a p e,
      s.manager.attempts a = .done p (.error e) → ∀ d, s.installed a ≠ some (d, true) := by
  intro h
  refine h _ (reachable_of_exec rfl
    [.connect 0 0 [98] ⟨ofChars "lan".toList, [49]⟩ true false, .attempt 0 .start,
      .attempt 0 (.opened 5), .adopt [98] 6, .attempt 0 (.prepared none),
      .attempt 0 (.raises (.raised ())), .attempt 0 .closed] rfl) 0 [98] (.raised ()) rfl 5 rfl

end ConnectionManager
end Core
end Paqto
