/-
# What a failed set-up leaves behind

The clean-up of `_run_incoming_connection` leaves the outbound channel, and that of
`_prepare_outgoing_connection` and `_open_connection` everything that a session has.
`setup_releases` says that a failed set-up has released its connection in the runs in
which somebody else has removed what the clean-up leaves, and in no other.
-/

import Paqto.Core.InboundOrder
import Paqto.Core.SetupInvariant

namespace Paqto
namespace Core
namespace SessionSetup

open Transition Python

variable {F : Type} {peerId : Str} {s t : Node F}

/-- What holds in every run. -/
theorem inv_of_reachable (h : Reachable (system F peerId) s) : Inv False False s := by
  refine h.invariant (I := Inv False False) ?_ fun _ _ _ hi hs => inv_step hi nofun nofun hs
  rintro _ rfl
  exact inv_initial

/-- What holds where failed set-ups have withdrawn their session. -/
theorem inv_of_failsWithdrawn (h : ReachableWhen (system F peerId) FailsWithdrawn s) :
    Inv True False s := by
  refine h.invariant (I := Inv True False) ?_ fun _ _ _ hi hG hs =>
    inv_step hi (fun _ => hG) nofun hs
  rintro _ rfl
  exact inv_initial

/-- The connection of a set-up that fails is released exactly when it was withdrawn. -/
theorem released_iff_withdrawn (h : Inv False False s) {l : Label F} (hs : step peerId s l = some t)
    {c : ℕ} {cleanup : Cleanup} (hc : cleanupOf s l = some (c, cleanup)) :
    (t.setups c = .failing ∨ t.setups c = .failed) ∧ (t.Released c ↔ s.Withdrawn c cleanup) := by
  have hphase := fun d => h.phase d
  cases l with
  | fails d =>
      replace hs : s.raise d = some t := hs
      simp only [cleanupOf] at hc
      simp only [Node.raise] at hs
      have hd := hphase d
      split at hc <;> rename_i hpc <;> cases hc
      all_goals
        rw [hpc] at hd hs
        cases hs
      · exact ⟨setups_fail s c _, released_fail h.wellFormed hd⟩
      · exact ⟨setups_fail s c _, released_fail h.wellFormed hd⟩
      · exact ⟨setups_finallyOpen s c, released_finallyOpen h.wellFormed hd⟩
  | resume d =>
      replace hs : s.resume d = some t := hs
      simp only [cleanupOf] at hc
      simp only [Node.resume] at hs
      have hd := hphase d
      split at hc
      · rename_i hpc
        split at hc <;> cases hc
        rename_i hclosing
        rw [hpc] at hd hs
        cases hs
        rw [Node.adopt, if_pos hclosing]
        exact ⟨setups_fail s c _, released_fail h.wellFormed hd⟩
      · rename_i hpc
        split at hc <;> cases hc
        rename_i hclosing
        rw [hpc] at hd hs
        cases hs
        rw [Node.install, if_pos hclosing]
        exact ⟨setups_finallyOpen s c, released_finallyOpen h.wellFormed hd⟩
      · rename_i session hpc
        split at hc <;> cases hc
        rename_i hlost
        rw [hpc] at hd hs
        cases hs
        rw [Node.startReading, if_neg hlost]
        have hr := reduces_connectionLost s session.peerId c
        have hkind : s.OfKind c .incoming := hd
        have hchannel : (s.connectionLost session.peerId c).channels = s.channels := by
          unfold Node.connectionLost
          split <;> rfl
        refine ⟨setups_fail _ c _, ?_⟩
        rw [released_fail (hr.wellFormed h.wellFormed) (hkind.less (hr.less c))]
        exact iff_of_eq (congrArg (· = false) (congrFun hchannel c))
      · cases hc
  | _ => cases hc

/-- **A failed set-up releases its connection** in every run in which each set-up
that fails after the selection finds its connection withdrawn by others; and a
set-up that fails otherwise never does. -/
theorem setup_releases (peerId : Str) :
    (∀ s : Node F, ReachableWhen (system F peerId) FailsWithdrawn s → ∀ c,
      s.setups c = .failed → s.Released c) ∧
    ∀ (s t : Node F) (l : Label F), Reachable (system F peerId) s → step peerId s l = some t →
      ∀ c cleanup, cleanupOf s l = some (c, cleanup) →
      ∀ u, u = t ∨ t.resume c = some u → u.setups c = .failed →
        (u.Released c ↔ s.Withdrawn c cleanup) := by
  refine ⟨fun s h c hc => ?_, fun s t l h hs c cleanup hcleanup u hu hfailed => ?_⟩
  · have hphase := (inv_of_failsWithdrawn h).phase c
    rw [hc] at hphase
    exact hphase trivial
  · obtain ⟨hsetup, hiff⟩ := released_iff_withdrawn (inv_of_reachable h) hs hcleanup
    rcases hu with rfl | hu
    · exact hiff
    · rcases hsetup with hpc | hpc <;> simp only [Node.resume, hpc] at hu <;> cases hu
      rw [released_setSetup]
      exact hiff

/-! ## Two set-ups that fail -/

/-- The session of `b` with `a`. -/
def sampleSession : ProtocolSession SampleFloat := InboundDispatch.sampleSession

/-- `b` has opened 0 to `a` and accepts 1 from `a`, which replaces 0; `close()` of 0
raises. -/
def failingRun : List (Label SampleFloat) :=
  [.opened 0 sampleA.peerId, .negotiated 0 sampleSession, .resume 0, .accept 1,
    .negotiated 1 sampleSession, .resume 1]

/-- The handshake of a connection fails. -/
theorem negotiation_fails : ∃ s : Node SampleFloat,
    ReachableWhen (system SampleFloat sampleB.peerId) FailsWithdrawn s ∧ s.setups 0 = .failed := by
  refine ⟨_, .step (.resume 0) (.step (.fails 0) (.step (.accept 0) (.init rfl) nofun rfl)
    ?_ rfl) ?_ rfl, rfl⟩
  · intro c cleanup hc
    cases hc
  · intro c cleanup hc
    cases hc

/-- The writer of 1 outlives its set-up. -/
theorem setup_releases_sample :
    (∃ s : Node SampleFloat, s.setups 0 = .failed ∧ s.Released 0) ∧
      ∃ s : Node SampleFloat, s.setups 1 = .failed ∧ ¬ s.Released 1 := by
  obtain ⟨s, hs, hfailed⟩ := negotiation_fails
  refine ⟨⟨s, hfailed, (setup_releases sampleB.peerId).1 s hs 0 hfailed⟩, ?_⟩
  have hrun : Reachable (system SampleFloat sampleB.peerId) _ :=
    reachable_of_exec rfl failingRun rfl
  have hiff := (setup_releases sampleB.peerId).2 _ _ (.fails 1) hrun rfl 1 .incoming rfl _
    (Or.inr rfl) rfl
  refine ⟨_, ?_, fun hreleased => Bool.noConfusion (hiff.1 hreleased)⟩
  rfl

/-- The connection of a failed set-up keeps its outbound channel. -/
theorem not_setup_releases : ¬ ∀ (peerId : Str) (s : Node SampleFloat),
    Reachable (system SampleFloat peerId) s → ∀ c, s.setups c = .failed → s.Released c := by
  intro h
  have hrun : Reachable (system SampleFloat sampleB.peerId) _ :=
    reachable_of_exec rfl (failingRun ++ [.fails 1, .resume 1]) rfl
  have hreleased := h sampleB.peerId _ hrun 1 rfl
  exact Bool.noConfusion hreleased.unpublished.channel

end SessionSetup
end Core
end Paqto
