/-
# Labelled transition systems with executable steps

A system is a predicate on initial states and a partial step function: all the
nondeterminism of a run (which task the scheduler resumes, what the
environment answers) is in the label, so that a run is a list of labels and
`exec` evaluates it.

A property of *every run whose steps all meet a condition* is a property of
the states of `ReachableWhen`; `Reachable` is the case of the empty condition.
Invariants are proved once per step (`ReachableWhen.invariant`) and the runs a
counterexample needs are lists of labels (`reachable_of_exec`).
-/

import Mathlib.Logic.Relation
import Mathlib.Order.WellFounded

namespace Paqto
namespace Transition

variable {σ ι : Type*}

/-- Initial states and a partial step function over labels. -/
structure System (σ ι : Type*) where
  init : σ → Prop
  step : σ → ι → Option σ

/-- The states of the runs in which every step, taken from `s` under the label
`l`, meets `G s l`. -/
inductive ReachableWhen (S : System σ ι) (G : σ → ι → Prop) : σ → Prop
  | init {s : σ} : S.init s → ReachableWhen S G s
  | step {s t : σ} (l : ι) : ReachableWhen S G s → G s l → S.step s l = some t →
      ReachableWhen S G t

/-- The states of all runs. -/
def Reachable (S : System σ ι) : σ → Prop := ReachableWhen S fun _ _ => True

/-- Evaluate a list of labels from a state. -/
def exec (step : σ → ι → Option σ) : σ → List ι → Option σ
  | s, [] => some s
  | s, l :: ls => (step s l).bind fun t => exec step t ls

/-- No step. -/
@[simp] theorem exec_nil (step : σ → ι → Option σ) (s : σ) : exec step s [] = some s := rfl

/-- One more step. -/
@[simp] theorem exec_cons (step : σ → ι → Option σ) (s : σ) (l : ι) (ls : List ι) :
    exec step s (l :: ls) = (step s l).bind fun t => exec step t ls := rfl

variable {S : System σ ι} {G : σ → ι → Prop}

/-- **The invariant rule.**  What holds initially and is preserved by every
step that meets the condition holds in every state of such a run. -/
theorem ReachableWhen.invariant {I : σ → Prop} (hinit : ∀ s, S.init s → I s)
    (hstep : ∀ s l t, I s → G s l → S.step s l = some t → I t) {s : σ}
    (h : ReachableWhen S G s) : I s := by
  induction h with
  | init h => exact hinit _ h
  | step l _ hG hs ih => exact hstep _ l _ ih hG hs

/-- The invariant rule over all runs. -/
theorem Reachable.invariant {I : σ → Prop} (hinit : ∀ s, S.init s → I s)
    (hstep : ∀ s l t, I s → S.step s l = some t → I t) {s : σ} (h : Reachable S s) : I s :=
  ReachableWhen.invariant hinit (fun s l t hI _ hs => hstep s l t hI hs) h

/-- A condition that is implied step by step may be weakened. -/
theorem ReachableWhen.mono {G' : σ → ι → Prop} (hG : ∀ s l, G s l → G' s l) {s : σ}
    (h : ReachableWhen S G s) : ReachableWhen S G' s := by
  induction h with
  | init h => exact .init h
  | step l _ hg hs ih => exact .step l ih (hG _ l hg) hs

/-- A run whose steps meet a condition is a run. -/
theorem ReachableWhen.reachable {s : σ} (h : ReachableWhen S G s) : Reachable S s :=
  h.mono fun _ _ _ => trivial

/-- One more step of an unconditioned run. -/
theorem Reachable.next {s t : σ} (h : Reachable S s) (l : ι) (hs : S.step s l = some t) :
    Reachable S t := ReachableWhen.step l h trivial hs

/-- A run goes on with labels that all meet the condition. -/
theorem ReachableWhen.exec {s t : σ} (h : ReachableWhen S G s) (ls : List ι)
    (hG : ∀ l ∈ ls, ∀ s, G s l) (hs : exec S.step s ls = some t) : ReachableWhen S G t := by
  induction ls generalizing s with
  | nil => exact Option.some.inj hs ▸ h
  | cons l ls ih =>
      obtain ⟨u, hu, ht⟩ := Option.bind_eq_some_iff.1 hs
      exact ih (.step l h (hG l List.mem_cons_self s) hu)
        (fun m hm => hG m (List.mem_cons_of_mem l hm)) ht

/-- A run given by its labels, all of which meet a condition. -/
theorem reachableWhen_of_exec {s t : σ} (h : S.init s) (ls : List ι)
    (hG : ∀ l ∈ ls, ∀ s, G s l) (hs : exec S.step s ls = some t) : ReachableWhen S G t :=
  ReachableWhen.exec (.init h) ls hG hs

/-- A list of labels that evaluates ends in a reachable state. -/
theorem Reachable.exec {s t : σ} (h : Reachable S s) {ls : List ι}
    (hs : exec S.step s ls = some t) : Reachable S t := by
  induction ls generalizing s with
  | nil => exact Option.some.inj hs ▸ h
  | cons l ls ih =>
      obtain ⟨u, hu, ht⟩ := Option.bind_eq_some_iff.1 hs
      exact ih (h.next l hu) ht

/-- A run given by its labels, from an initial state. -/
theorem reachable_of_exec {s t : σ} (h : S.init s) (ls : List ι)
    (hs : exec S.step s ls = some t) : Reachable S t :=
  Reachable.exec (ReachableWhen.init h) hs

/-- The same steps from one given state. -/
def System.startingAt (S : System σ ι) (s : σ) : System σ ι := { S with init := fun t => t = s }

/-- A run that goes on from a reachable state. -/
theorem Reachable.trans {s t : σ} (h : Reachable S s) (ht : ReachableWhen (S.startingAt s) G t) :
    Reachable S t := by
  induction ht with
  | init he => exact he ▸ h
  | step l _ _ hs ih => exact ih.next l hs

/-- A run from the next state is a run from this one. -/
theorem Reachable.of_step {s t u : σ} {l : ι} (hs : S.step s l = some t)
    (h : Reachable (S.startingAt t) u) : Reachable (S.startingAt s) u :=
  Reachable.trans (S := S.startingAt s) (Reachable.next (ReachableWhen.init rfl) l hs) h

/-- No step that meets the condition is left. -/
def TerminalWhen (S : System σ ι) (G : σ → ι → Prop) (s : σ) : Prop :=
  ∀ l, G s l → S.step s l = none

/-- **A measured system runs to an end.**  When every step that meets the
condition decreases a natural number, some state where no such step is left can
be reached from any state of a run. -/
theorem ReachableWhen.exists_terminal (μ : σ → ℕ)
    (hμ : ∀ s l t, G s l → S.step s l = some t → μ t < μ s) {s : σ} (h : ReachableWhen S G s) :
    ∃ t, ReachableWhen S G t ∧ TerminalWhen S G t := by
  induction hn : μ s using Nat.strong_induction_on generalizing s with
  | _ n ih =>
      by_cases hs : TerminalWhen S G s
      · exact ⟨s, h, hs⟩
      · simp only [TerminalWhen, not_forall, ← ne_eq, Option.ne_none_iff_exists'] at hs
        obtain ⟨l, hl, t, ht⟩ := hs
        exact ih (μ t) (hn ▸ hμ s l t hl ht) (.step l h hl ht) rfl

/-- **Ranked relations have no cycle.** -/
theorem not_transGen_of_rank {r : σ → σ → Prop} (rank : σ → ℕ)
    (h : ∀ x y, r x y → rank y < rank x) (x : σ) : ¬ Relation.TransGen r x x := by
  intro hx
  have hlt : ∀ y, Relation.TransGen r x y → rank y < rank x := by
    intro y hy
    induction hy with
    | single hxy => exact h _ _ hxy
    | tail _ hyz ih => exact (h _ _ hyz).trans ih
  exact (hlt x hx).false

end Transition
end Paqto
