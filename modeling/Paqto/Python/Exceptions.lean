/-
# Exceptions

A computation changes a state and returns a value or raises an exception; the state is
kept when it raises.  `handle` is `try … except …`: the handlers say which exceptions they
take.  `ensure` is `try … finally …`: what the cleanup raises takes the place of what the
body raised.

`Spec P f Q E` says of `f`, from a state of `P`, that it returns in a state of `Q` or raises
in a state of `E`, with one rule for each way to build a computation.
-/

import Mathlib.Logic.Basic

namespace Paqto
namespace Python

/-- A computation over states `σ` that may raise `ε`. -/
def Computation (σ ε α : Type) : Type := σ → Except ε α × σ

namespace Computation

variable {σ ε α β : Type}

/-- How the outcome of a computation goes on. -/
def next (f : α → Computation σ ε β) : Except ε α × σ → Except ε β × σ
  | (.ok a, s) => f a s
  | (.error e, s) => (.error e, s)

instance : Monad (Computation σ ε) where
  pure a s := (.ok a, s)
  bind f g s := next g (f s)

/-- `raise` -/
def raise (e : ε) : Computation σ ε α := fun s => (.error e, s)

/-- The state. -/
def read : Computation σ ε σ := fun s => (.ok s, s)

/-- A change of the state. -/
def modify (f : σ → σ) : Computation σ ε Unit := fun s => (.ok (), f s)

/-- What handlers make of an outcome. -/
def rescue (handlers : ε → Option (Computation σ ε α)) : Except ε α × σ → Except ε α × σ
  | (.ok a, s) => (.ok a, s)
  | (.error e, s) =>
      match handlers e with
      | some h => h s
      | none => (.error e, s)

/-- `try body except …` -/
def handle (body : Computation σ ε α) (handlers : ε → Option (Computation σ ε α)) :
    Computation σ ε α :=
  fun s => rescue handlers (body s)

/-- The outcome of a cleanup, after that of the body. -/
def settle (body : Except ε α) : Except ε Unit × σ → Except ε α × σ
  | (.ok _, s) => (body, s)
  | (.error e, s) => (.error e, s)

/-- `try body finally cleanup` -/
def ensure (body : Computation σ ε α) (cleanup : Computation σ ε Unit) : Computation σ ε α :=
  fun s => settle (body s).1 (cleanup (body s).2)

/-! ## Specifications -/

/-- An outcome is a return in `Q` or a raise in `E`. -/
def Outcome (Q : α → σ → Prop) (E : ε → σ → Prop) : Except ε α × σ → Prop
  | (.ok a, s) => Q a s
  | (.error e, s) => E e s

/-- **From a state of `P` the computation returns in `Q` or raises in `E`.** -/
def Spec (P : σ → Prop) (f : Computation σ ε α) (Q : α → σ → Prop) (E : ε → σ → Prop) : Prop :=
  ∀ s, P s → Outcome Q E (f s)

variable {P P' : σ → Prop} {Q G : α → σ → Prop} {R : β → σ → Prop} {E F : ε → σ → Prop}
  {f : Computation σ ε α}

/-- Weaker conditions after. -/
theorem Outcome.mono {o : Except ε α × σ} (h : Outcome Q E o) (hQ : ∀ a s, Q a s → G a s)
    (hE : ∀ e s, E e s → F e s) : Outcome G F o := by
  obtain ⟨r, s⟩ := o
  cases r with
  | ok a => exact hQ a s h
  | error e => exact hE e s h

/-- **The rule of consequence.** -/
theorem Spec.mono (h : Spec P f Q E) (hP : ∀ s, P' s → P s) (hQ : ∀ a s, Q a s → G a s)
    (hE : ∀ e s, E e s → F e s) : Spec P' f G F :=
  fun s hs => (h s (hP s hs)).mono hQ hE

/-- `return` -/
theorem spec_pure {a : α} (h : ∀ s, P s → Q a s) : Spec P (pure a) Q E :=
  fun s hs => h s hs

/-- `raise` -/
theorem spec_raise {e : ε} (h : ∀ s, P s → E e s) : Spec P (raise e : Computation σ ε α) Q E :=
  fun s hs => h s hs

/-- A change of the state. -/
theorem spec_modify {g : σ → σ} {Q : Unit → σ → Prop} (h : ∀ s, P s → Q () (g s)) :
    Spec P (modify g) Q E :=
  fun s hs => h s hs

/-- **One after the other.** -/
theorem spec_bind {g : α → Computation σ ε β} (hf : Spec P f Q E)
    (hg : ∀ a, Spec (Q a) (g a) R E) : Spec P (f >>= g) R E := by
  intro s hs
  have h := hf s hs
  change Outcome R E (next g (f s))
  generalize f s = o at h
  obtain ⟨r, t⟩ := o
  cases r with
  | ok a => exact hg a t h
  | error e => exact h

/-- What is read of the state may be used for the rest. -/
theorem spec_read {g : σ → Computation σ ε β} (hg : ∀ s, P s → Outcome R E (g s s)) :
    Spec P (read >>= g) R E :=
  fun s hs => hg s hs

/-- **`try`/`except`** -/
theorem spec_handle {handlers : ε → Option (Computation σ ε α)} (hf : Spec P f Q F)
    (hhandled : ∀ e h, handlers e = some h → Spec (F e) h Q E)
    (hnone : ∀ e s, handlers e = none → F e s → E e s) : Spec P (handle f handlers) Q E := by
  intro s hs
  have h := hf s hs
  change Outcome Q E (rescue handlers (f s))
  generalize f s = o at h
  obtain ⟨r, t⟩ := o
  cases r with
  | ok a => exact h
  | error e =>
      cases heq : handlers e with
      | some c =>
          simp only [rescue, heq]
          exact hhandled e c heq t h
      | none =>
          simp only [rescue, heq]
          exact hnone e t heq h

/-- The cleanup runs after a return and after an exception. -/
theorem spec_ensure {cleanup : Computation σ ε Unit} (hf : Spec P f G F)
    (hreturned : ∀ a, Spec (G a) cleanup (fun _ => Q a) E)
    (hraised : ∀ e, Spec (F e) cleanup (fun _ => E e) E) : Spec P (ensure f cleanup) Q E := by
  intro s hs
  have h := hf s hs
  change Outcome Q E (settle (f s).1 (cleanup (f s).2))
  generalize f s = o at h
  obtain ⟨r, t⟩ := o
  cases r with
  | ok a =>
      have hcleanup := hreturned a t h
      change Outcome Q E (settle (.ok a) (cleanup t))
      generalize cleanup t = u at hcleanup
      obtain ⟨q, u⟩ := u
      cases q <;> exact hcleanup
  | error e =>
      have hcleanup := hraised e t h
      change Outcome Q E (settle (.error e) (cleanup t))
      generalize cleanup t = u at hcleanup
      obtain ⟨q, u⟩ := u
      cases q <;> exact hcleanup

end Computation

end Python
end Paqto
