/-
# When `close()` raises

`close()` is called in the middle of `_retire_replaced_connection` and of
`_connection_ended`.  `close_contained` says what an exception of it takes along: the
set-up of the connection that has just won, and the event and the reconnect of a
session that ends.  Where the connection that loses is the one being set up, the
exception stays with it.  Event and reconnect are only reported together (`reports_step`).
-/

import Paqto.Core.SetupRelease

namespace Paqto
namespace Core
namespace SessionSetup

open Transition Python

variable {F : Type} {peerId : Str} {s t : Node F} {c : ℕ}

/-- The connection is open, canonical and READY, and its set-up has not failed. -/
structure Node.Standing (s : Node F) (c : ℕ) : Prop where
  isOpen : s.isClosed c = false
  ready : ∃ r, s.tables.ready c = some r ∧ s.tables.peerConnections r.session.peerId = some c
  failing : s.setups c ≠ .failing
  failed : s.setups c ≠ .failed

/-- The routine of the connection is in `close()` of the one that lost the duplicate
selection: the connection that won. -/
def winnerOf (s : Node F) (c : ℕ) : Option ℕ :=
  match s.setups c with
  | .retiring _ _ _ .closing => some c
  | .losing _ winner => some winner
  | _ => none

/-- The `finally` of `_open_connection` leaves its connection closed. -/
theorem closed_finallyOpen (s : Node F) (c : ℕ) : (s.finallyOpen c).isClosed c = true := by
  unfold Node.finallyOpen
  split
  · assumption
  · exact Function.update_self ..

/-- So does every set-up that fails. -/
theorem closed_fail (s : Node F) (c : ℕ) (kind : Kind) : (s.fail c kind).isClosed c = true := by
  cases kind with
  | incoming => exact Function.update_self ..
  | outgoing p => exact closed_finallyOpen _ c

/-- **(i)** The winner stands after the exception exactly when the set-up that ends is
not its own. -/
theorem standing_iff {winner : ℕ} (hwinner : winnerOf s c = some winner)
    (hstands : s.Standing winner) (hs : s.raise c = some t) : t.Standing winner ↔ winner ≠ c := by
  unfold winnerOf at hwinner
  split at hwinner <;> rename_i hpc <;> cases hwinner
  · simp only [Node.raise, hpc] at hs
    cases hs
    refine ⟨fun h => ?_, fun h => absurd rfl h⟩
    have hopen := h.isOpen
    rw [closed_fail] at hopen
    cases hopen
  · simp only [Node.raise, hpc] at hs
    cases hs
    refine ⟨fun h hc => ?_, fun h => ?_⟩
    · subst hc
      exact h.failed (Function.update_self ..)
    · have hsetup : (s.setSetup c .failed).setups winner = s.setups winner :=
        Function.update_of_ne h ..
      exact ⟨hstands.isOpen, hstands.ready, hsetup ▸ hstands.failing, hsetup ▸ hstands.failed⟩

/-- The routine of a winner whose own set-up does not end is left alone. -/
theorem setups_of_raise {winner : ℕ} (hwinner : winnerOf s c = some winner) (hother : winner ≠ c)
    (hs : s.raise c = some t) : t.setups winner = s.setups winner := by
  unfold winnerOf at hwinner
  split at hwinner <;> rename_i hpc <;> cases hwinner
  · exact absurd rfl hother
  · simp only [Node.raise, hpc] at hs
    cases hs
    exact Function.update_of_ne hother ..

/-- **(ii)** The exception takes the event and the reconnect along. -/
theorem reported_iff {session : ProtocolSession F} {report : Bool}
    (hpc : s.setups c = .closing session report) (hs : s.raise c = some t) :
    (t.disconnected = (s.reportEnd c session report).disconnected ∧
      t.reconnects = (s.reportEnd c session report).reconnects) ↔ report = false := by
  simp only [Node.raise, hpc] at hs
  cases hs
  cases report with
  | false => exact ⟨fun _ => rfl, fun _ => ⟨rfl, rfl⟩⟩
  | true =>
      refine ⟨fun h => absurd h.1 ?_, fun h => by cases h⟩
      simp [Node.reportEnd, Node.setSetup]

/-- A session that ended is reported, when no `close()` of such a session raised. -/
theorem inv_of_closesContained (h : ReachableWhen (system F peerId) ClosesContained s) :
    Inv False True s := by
  refine h.invariant (I := Inv False True) ?_ fun _ _ _ hi hG hs =>
    inv_step hi nofun (fun _ => hG) hs
  rintro _ rfl
  exact inv_initial

/-! ## Events and reconnects -/

/-- The events of ended sessions, and the reconnects that go with them. -/
def Node.reports (s : Node F) : List ℕ × List Str := (s.disconnected, s.reconnects)

/-- Where a set-up stands is nothing it reports. -/
@[simp] theorem reports_setSetup (s : Node F) (c : ℕ) (pc : SetupPc F) :
    (s.setSetup c pc).reports = s.reports := rfl

/-- `connection_lost` reports nothing. -/
@[simp] theorem reports_connectionLost (s : Node F) (p : Str) (c : ℕ) :
    (s.connectionLost p c).reports = s.reports := by
  unfold Node.connectionLost
  split <;> rfl

/-- Nor does the retirement of a connection. -/
@[simp] theorem reports_endRetire (s : Node F) (r : Retire) :
    (s.endRetire r).reports = s.reports := by
  unfold Node.endRetire
  cases r.peer with
  | none => rfl
  | some p => exact reports_connectionLost _ p r.connection

/-- Nor does the `finally` of `_open_connection`. -/
@[simp] theorem reports_finallyOpen (s : Node F) (c : ℕ) :
    (s.finallyOpen c).reports = s.reports := by
  unfold Node.finallyOpen
  split <;> rfl

/-- Nor does a set-up that fails. -/
@[simp] theorem reports_fail (s : Node F) (c : ℕ) (kind : Kind) :
    (s.fail c kind).reports = s.reports := by
  cases kind with
  | incoming => rfl
  | outgoing p => exact reports_finallyOpen _ c

/-- Nor does the choice among duplicates. -/
theorem reports_negotiated (s : Node F) (c : ℕ) (kind : Kind) (session : ProtocolSession F) :
    (s.negotiated peerId c kind session).reports = s.reports := by
  unfold Node.negotiated
  split
  · exact reports_fail s c kind
  · split
    · dsimp only
      split <;> rfl
    · cases kind <;> rfl

/-- Nor does the manager when it takes over an incoming connection. -/
theorem reports_adopt (s : Node F) (c : ℕ) (session : ProtocolSession F) (loser : Option ℕ) :
    (s.adopt c session loser).reports = s.reports := by
  unfold Node.adopt
  split
  · exact reports_fail s c .incoming
  · dsimp only
    split <;> rfl

/-- Nor does it when it installs an outgoing one. -/
theorem reports_install (s : Node F) (c : ℕ) (p : Str) :
    (s.install c p).reports = s.reports := by
  unfold Node.install
  split
  · exact reports_finallyOpen s c
  · dsimp only
    split <;> rfl

/-- Nor when it installs the one that won. -/
theorem reports_installWinner (s : Node F) (c : ℕ) (p : Str) (winner : ℕ) :
    (s.installWinner c p winner).reports = s.reports := by
  unfold Node.installWinner
  split
  · rfl
  · dsimp only
    split <;> rfl

/-- Nor does a reader that starts. -/
theorem reports_startReading (s : Node F) (c : ℕ) (session : ProtocolSession F) :
    (s.startReading c session).reports = s.reports := by
  unfold Node.startReading
  split
  · rfl
  · exact (reports_fail _ c .incoming).trans (reports_connectionLost s session.peerId c)

/-- The session is over, with its event and the reconnect of its peer. -/
def EndReported (s t : Node F) (c : ℕ) (session : ProtocolSession F) : Prop :=
  s.setups c = .closing session true ∧
    t.reports = (s.disconnected ++ [c], s.reconnects ++ [session.peerId])

/-- **The end of a session is reported as a whole**: its event and its reconnect. -/
theorem reports_resume (hs : s.resume c = some t) :
    t.reports = s.reports ∨ ∃ session, EndReported s t c session := by
  unfold Node.resume at hs
  split at hs <;> rename_i hpc <;> cases hs
  · exact Or.inl (reports_endRetire s _)
  · exact Or.inl rfl
  · exact Or.inl (reports_adopt s c _ _)
  · exact Or.inl (reports_install s c _)
  · exact Or.inl (reports_endRetire s _)
  · exact Or.inl rfl
  · exact Or.inl (reports_startReading s c _)
  · exact Or.inl rfl
  · exact Or.inl rfl
  · exact Or.inl (reports_installWinner s c _ _)
  · exact Or.inl rfl
  · exact Or.inl (reports_connectionLost _ _ c)
  · rename_i session report
    cases report with
    | false => exact Or.inl rfl
    | true => exact Or.inr ⟨session, hpc, rfl⟩

/-- A set-up that raises reports nothing. -/
theorem reports_raise (hs : s.raise c = some t) : t.reports = s.reports := by
  unfold Node.raise at hs
  split at hs <;> cases hs
  · exact reports_fail s c _
  · exact reports_fail s c _
  · exact reports_fail s c .incoming
  · exact reports_finallyOpen s c
  all_goals rfl

/-- **What is reported in a step** is the end of a session, or nothing. -/
theorem reports_step {l : Label F} (hs : step peerId s l = some t) :
    t.reports = s.reports ∨ ∃ c session, l = .resume c ∧ EndReported s t c session := by
  cases l with
  | resume c =>
      exact (reports_resume hs).imp_right fun ⟨session, h⟩ => ⟨c, session, rfl, h⟩
  | fails c => exact Or.inl (reports_raise hs)
  | negotiated c session =>
      refine Or.inl ?_
      simp only [step] at hs
      split at hs
      · cases hs
        exact reports_negotiated s c _ session
      · split at hs <;> cases hs
        exact reports_negotiated s c _ session
      · cases hs
  | connectionLost p c =>
      cases hs
      exact Or.inl (reports_connectionLost s p c)
  | accept | opened | startReader | readerEnds | registerRequest | registerAcknowledgement =>
      refine Or.inl ?_
      simp only [step] at hs
      split at hs <;> cases hs
      rfl
  | resolveRequest | resolveAcknowledgement | deactivate | failPending | closeOutboundChannel
  | discard | close | closePeer | endClosePeer =>
      cases hs
      exact Or.inl rfl

/-- **A failing `close()` is contained** exactly where the connection that lost is the
one being set up, and the routine of the winner then goes on as it was; and where the
session that ends has nothing to report: it was neither canonical nor the manager's.  In a
run whose other ends of sessions close without an exception every session that was canonical
is reported, and no event is reported without the reconnect of its peer. -/
theorem close_contained (peerId : Str) :
    (∀ (s t : Node F) (c winner : ℕ), Reachable (system F peerId) s →
      winnerOf s c = some winner → s.Standing winner → step peerId s (.fails c) = some t →
      (t.Standing winner ↔ winner ≠ c) ∧ (winner ≠ c → t.setups winner = s.setups winner)) ∧
    (∀ (s t : Node F) (c : ℕ) (session : ProtocolSession F) (report : Bool),
      Reachable (system F peerId) s → s.setups c = .closing session report →
      step peerId s (.fails c) = some t →
      ((t.disconnected = (s.reportEnd c session report).disconnected ∧
        t.reconnects = (s.reportEnd c session report).reconnects) ↔ report = false)) ∧
    (∀ s : Node F, ReachableWhen (system F peerId) ClosesContained s → ∀ c,
      s.setups c = .ended true → c ∈ s.disconnected) ∧
    ∀ (s t : Node F) (l : Label F), Reachable (system F peerId) s → step peerId s l = some t →
      t.reports = s.reports ∨ ∃ c session, l = .resume c ∧ EndReported s t c session := by
  refine ⟨fun s t c winner _ hwinner hstands hs => ⟨standing_iff hwinner hstands hs,
      fun hother => setups_of_raise hwinner hother hs⟩,
    fun s t c session report _ hpc hs => reported_iff hpc hs, fun s h c hc => ?_,
    fun s t l _ hs => reports_step hs⟩
  have hphase := (inv_of_closesContained h).phase c
  rw [hc] at hphase
  exact hphase trivial

/-! ## Three closes -/

/-- The new connection of `failingRun` stands when it waits for `close()` of the one it
has replaced. -/
theorem failingRun_stands : ∃ s : Node SampleFloat,
    Reachable (system SampleFloat sampleB.peerId) s ∧ winnerOf s 1 = some 1 ∧ s.Standing 1 ∧
      ∃ t, step sampleB.peerId s (.fails 1) = some t := by
  have hrun : Reachable (system SampleFloat sampleB.peerId) _ :=
    reachable_of_exec rfl failingRun rfl
  exact ⟨_, hrun, rfl, ⟨rfl, ⟨_, rfl, rfl⟩, nofun, nofun⟩, _, rfl⟩

/-- `b` reads 0, and its session ends. -/
def endingRun : List (Label SampleFloat) :=
  [.accept 0, .negotiated 0 sampleSession, .resume 0, .resume 0, .readerEnds 0, .resume 0]

/-- It ends, and `close()` returns. -/
theorem endingRun_reported : ∃ s : Node SampleFloat,
    ReachableWhen (system SampleFloat sampleB.peerId) ClosesContained s ∧
      s.setups 0 = .ended true := by
  refine ⟨_, reachableWhen_of_exec rfl (endingRun ++ [.resume 0]) (fun l hl s c session he => ?_)
    rfl, rfl⟩
  subst he
  simp [endingRun] at hl

/-- The exception takes the new connection along, and the event of the session that
ends; where `close()` returns, the event is reported with the reconnect. -/
theorem close_contained_sample :
    (∃ s t : Node SampleFloat, s.Standing 1 ∧ step sampleB.peerId s (.fails 1) = some t ∧
      ¬ t.Standing 1) ∧
    (∃ s t : Node SampleFloat, step sampleB.peerId s (.fails 0) = some t ∧
      ¬ (t.disconnected = (s.reportEnd 0 sampleSession true).disconnected ∧
        t.reconnects = (s.reportEnd 0 sampleSession true).reconnects)) ∧
    (∃ s : Node SampleFloat, s.setups 0 = .ended true ∧ 0 ∈ s.disconnected) ∧
    ∃ s t : Node SampleFloat, ∃ session, step sampleB.peerId s (.resume 0) = some t ∧
      EndReported s t 0 session := by
  obtain ⟨s, hs, hwinner, hstands, t, ht⟩ := failingRun_stands
  have hrun : Reachable (system SampleFloat sampleB.peerId) _ :=
    reachable_of_exec rfl endingRun rfl
  refine ⟨⟨s, t, hstands, ht, fun h => ?_⟩, ?_, ?_, ?_⟩
  · exact ((close_contained sampleB.peerId).1 s t 1 1 hs hwinner hstands ht).1.1 h rfl
  · have hiff := (close_contained sampleB.peerId).2.1 _ _ 0 sampleSession true hrun rfl rfl
    refine ⟨_, _, ?_, fun h => Bool.noConfusion (hiff.1 h)⟩
    rfl
  · obtain ⟨u, hu, hended⟩ := endingRun_reported
    exact ⟨u, hended, (close_contained sampleB.peerId).2.2.1 u hu 0 hended⟩
  · obtain hnothing | ⟨c, session, hl, hended⟩ :=
      (close_contained sampleB.peerId).2.2.2 _ _ (.resume 0) hrun rfl
    · cases hnothing
    · cases hl
      exact ⟨_, _, session, rfl, hended⟩

/-- `close()` of the connection that lost takes the one that won along. -/
theorem not_close_contained : ¬ ((∀ (peerId : Str) (s t : Node SampleFloat) (c winner : ℕ),
      Reachable (system SampleFloat peerId) s → winnerOf s c = some winner → s.Standing winner →
      step peerId s (.fails c) = some t → t.Standing winner) ∧
    ∀ (peerId : Str) (s t : Node SampleFloat) (c : ℕ) (session : ProtocolSession SampleFloat)
      (report : Bool), Reachable (system SampleFloat peerId) s →
      s.setups c = .closing session report → step peerId s (.fails c) = some t →
      t.disconnected = (s.reportEnd c session report).disconnected ∧
        t.reconnects = (s.reportEnd c session report).reconnects) := by
  rintro ⟨h, -⟩
  obtain ⟨s, hs, hwinner, hstands, t, ht⟩ := failingRun_stands
  exact (standing_iff hwinner hstands ht).1 (h sampleB.peerId s t 1 1 hs hwinner hstands ht) rfl

end SessionSetup
end Core
end Paqto
