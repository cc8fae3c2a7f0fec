/-
# Runs of a refined system

When the states of a system are mapped to those of a simpler one so that each
step is a step there, or none, its runs are mapped to runs.
-/

import Paqto.Transition.System

namespace Paqto
namespace Transition

variable {σ ι τ κ : Type*} {S : System σ ι} {T : System τ κ} {G : σ → ι → Prop} {H : τ → κ → Prop}

/-- **The refinement rule**, with an invariant of the refined system. -/
theorem ReachableWhen.refines (f : σ → τ) {I : σ → Prop}
    (hinit : ∀ s, S.init s → I s ∧ T.init (f s))
    (hstep : ∀ s l t, I s → G s l → S.step s l = some t →
      I t ∧ (f t = f s ∨ ∃ m, H (f s) m ∧ T.step (f s) m = some (f t)))
    {s : σ} (h : ReachableWhen S G s) : I s ∧ ReachableWhen T H (f s) := by
  induction h with
  | init h =>
      obtain ⟨hI, hT⟩ := hinit _ h
      exact ⟨hI, .init hT⟩
  | step l _ hG hs ih =>
      obtain ⟨hI, hsame | ⟨m, hm, ht⟩⟩ := hstep _ l _ ih.1 hG hs
      · exact ⟨hI, hsame ▸ ih.2⟩
      · exact ⟨hI, .step m ih.2 hm ht⟩

end Transition
end Paqto
