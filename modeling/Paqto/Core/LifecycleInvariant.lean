/-
# Steps and invariant of the lifecycle lock

`StepSpec` says once what each step of `Transition.System` `system` does to a
node's lifecycle state; `Inv` ties the lock, its waiters and the program points
of the lifecycle tasks together and is preserved by every step (`inv_step`),
one lemma for each primitive the steps are made of.
-/

import Paqto.Core.Lifecycle

namespace Paqto
namespace Core

open Transition

namespace Lifecycle

/-- What one step does, case by case. -/
inductive StepSpec (handlers : ℕ) (s : Lifecycle) : Label → Lifecycle → Prop
  | callOutside {call : LifecycleCall} :
      StepSpec handlers s (.call none call) (s.begin none call)
  | callOwned {w : ℕ} {call : LifecycleCall} {cancelled : Bool} :
      s.owned w = some ⟨.working, cancelled⟩ →
      StepSpec handlers s (.call (some w) call)
        { s.begin (some w) call with
          owned := Function.update s.owned w (some ⟨.awaiting s.nextTask, cancelled⟩) }
  | sweep {l : ℕ} {t : LifecycleTask} {waiters : List ℕ} :
      s.lockHolder = none → s.lockWaiters = l :: waiters → s.lifecycle l = some t →
      s.sweeps t = true →
      StepSpec handlers s (.acquireLock l)
        ({ s with lockHolder := some l, lockWaiters := waiters }.beginStop l t)
  | starting {l : ℕ} {t : LifecycleTask} {waiters : List ℕ} :
      s.lockHolder = none → s.lockWaiters = l :: waiters → s.lifecycle l = some t →
      s.sweeps t = false →
      StepSpec handlers s (.acquireLock l)
        ({ s with lockHolder := some l, lockWaiters := waiters }.setLifecyclePc l t .starting)
  | refuse {l : ℕ} {t : LifecycleTask} {waiters : List ℕ} :
      s.lockHolder = none → s.lockWaiters = l :: waiters → s.lifecycle l = some t →
      s.sweeps t = false →
      StepSpec handlers s (.acquireLock l)
        ({ s with lockHolder := some l, lockWaiters := waiters }.release l t)
  | cleanupDone {l : ℕ} {t : LifecycleTask} {tasks : List ℕ} :
      s.lifecycle l = some t → t.pc = .closing tasks →
      StepSpec handlers s (.cleanupDone l) (s.setLifecyclePc l t (.gathering tasks))
  | tasksDone {l : ℕ} {t : LifecycleTask} {tasks : List ℕ} :
      s.lifecycle l = some t → t.pc = .gathering tasks →
      (∀ w ∈ tasks, (s.owned w).any (·.pc = .finished)) →
      StepSpec handlers s (.tasksDone l) { s.setLifecyclePc l t .services with tables := [] }
  | servicesDone {l : ℕ} {t : LifecycleTask} {failed : Bool} :
      s.lifecycle l = some t → t.pc = .services →
      StepSpec handlers s (.servicesDone l failed) (s.setLifecyclePc l t .starting)
  | stopDone {l : ℕ} {t : LifecycleTask} {failed : Bool} :
      s.lifecycle l = some t → t.pc = .services →
      StepSpec handlers s (.servicesDone l failed) (s.release l t)
  | startFailed {l : ℕ} {t : LifecycleTask} :
      s.lifecycle l = some t → t.pc = .starting →
      StepSpec handlers s (.startDone l true) (s.release l t)
  | restarted {l : ℕ} {t : LifecycleTask} :
      s.lifecycle l = some t → t.pc = .starting →
      StepSpec handlers s (.startDone l false)
        ({ s.spawnOwned (handlers + 2) with running := true }.setLifecyclePc l t .discovering)
  | started {l : ℕ} {t : LifecycleTask} :
      s.lifecycle l = some t → t.pc = .starting →
      StepSpec handlers s (.startDone l false)
        ({ s.spawnOwned (handlers + 2) with running := true }.release l t)
  | discoverDone {l : ℕ} {t : LifecycleTask} {reconnects : ℕ} :
      s.lifecycle l = some t → t.pc = .discovering →
      StepSpec handlers s (.discoverDone l reconnects) ((s.spawnOwned reconnects).release l t)
  | resumeCaller {w l : ℕ} {t : LifecycleTask} {cancelled : Bool} :
      s.owned w = some ⟨.awaiting l, cancelled⟩ → s.lifecycle l = some t → t.pc = .done →
      StepSpec handlers s (.resumeCaller w)
        { s with owned := Function.update s.owned w (some ⟨.working, cancelled⟩) }
  | spawn : StepSpec handlers s .spawn s.spawnOne
  | finish {w : ℕ} {cancelled : Bool} :
      s.owned w = some ⟨.working, cancelled⟩ →
      StepSpec handlers s (.finish w)
        { s with
          owned := Function.update s.owned w (some ⟨.finished, cancelled⟩)
          tables := s.tables.erase w }

/-- **What a step does**, as a relation. -/
theorem step_spec {handlers : ℕ} {s u : Lifecycle} {label : Label}
    (h : step handlers s label = some u) : StepSpec handlers s label u := by
  cases label with
  | call caller call =>
      cases caller with
      | none =>
          simp only [step] at h
          split at h
          · cases h
          · exact Option.some.inj h ▸ .callOutside
      | some w =>
          simp only [step] at h
          split at h
          · rename_i cancelled hw
            split at h
            · cases h
            · exact Option.some.inj h ▸ .callOwned hw
          · cases h
  | acquireLock l =>
      simp only [step] at h
      split at h
      · rename_i w waiters t hh hw hl
        split at h
        · cases h
        · rename_i hwl
          obtain rfl : w = l := not_not.1 hwl
          split at h
          · rename_i hs
            exact Option.some.inj h ▸ .sweep hh hw hl hs
          · rename_i hs
            have hs' : s.sweeps t = false := Bool.eq_false_iff.2 hs
            split at h
            · exact Option.some.inj h ▸ .starting hh hw hl hs'
            · exact Option.some.inj h ▸ .refuse hh hw hl hs'
      · cases h
  | cleanupDone l =>
      simp only [step] at h
      split at h
      · rename_i t hl
        split at h
        · rename_i tasks hpc
          exact Option.some.inj h ▸ .cleanupDone hl hpc
        · cases h
      · cases h
  | tasksDone l =>
      simp only [step] at h
      split at h
      · rename_i t hl
        split at h
        · rename_i tasks hpc
          split at h
          · rename_i hdone
            exact Option.some.inj h ▸ .tasksDone hl hpc hdone
          · cases h
        · cases h
      · cases h
  | servicesDone l failed =>
      simp only [step] at h
      split at h
      · rename_i t hl
        split at h
        · cases h
        · rename_i hpc
          split at h
          · exact Option.some.inj h ▸ .servicesDone hl (not_not.1 hpc)
          · exact Option.some.inj h ▸ .stopDone hl (not_not.1 hpc)
      · cases h
  | startDone l failed =>
      simp only [step] at h
      split at h
      · rename_i t hl
        split at h
        · cases h
        · rename_i hpc
          cases failed with
          | true => exact Option.some.inj h ▸ .startFailed hl (not_not.1 hpc)
          | false =>
              simp only [Bool.false_eq_true, if_false] at h
              split at h
              · exact Option.some.inj h ▸ .restarted hl (not_not.1 hpc)
              · exact Option.some.inj h ▸ .started hl (not_not.1 hpc)
      · cases h
  | discoverDone l reconnects =>
      simp only [step] at h
      split at h
      · rename_i t hl
        split at h
        · cases h
        · rename_i hpc
          exact Option.some.inj h ▸ .discoverDone hl (not_not.1 hpc)
      · cases h
  | resumeCaller w =>
      simp only [step] at h
      split at h
      · rename_i l cancelled hw
        split at h
        · rename_i hl
          obtain ⟨t, ht, hpc⟩ := (Option.any_eq_true _ _).1 hl
          exact Option.some.inj h ▸ .resumeCaller hw ht (of_decide_eq_true hpc)
        · cases h
      · cases h
  | spawn => exact Option.some.inj h ▸ .spawn
  | finish w =>
      simp only [step] at h
      split at h
      · rename_i cancelled hw
        exact Option.some.inj h ▸ .finish hw
      · cases h

/-- The lock, the identities of tasks and the program points fit together. -/
structure Inv (s : Lifecycle) : Prop where
  fresh : ∀ i, s.nextTask ≤ i → s.lifecycle i = none ∧ s.owned i = none
  apart : ∀ i t, s.lifecycle i = some t → s.owned i = none
  nodup : s.lockWaiters.Nodup
  waiters : ∀ l ∈ s.lockWaiters, ∃ t, s.lifecycle l = some t ∧ t.pc = .queued
  holder : ∀ l, s.lockHolder = some l →
    ∃ t, s.lifecycle l = some t ∧ t.pc ≠ .queued ∧ t.pc ≠ .done
  active : ∀ l t, s.lifecycle l = some t → t.pc ≠ .queued → t.pc ≠ .done →
    s.lockHolder = some l
  awaited : ∀ w o l, s.owned w = some o → o.pc = .awaiting l →
    ∃ t, s.lifecycle l = some t ∧ t.skipTask = some w

/-- There is no task yet. -/
theorem inv_initial : Inv initial := by
  constructor <;> simp [initial]

/-- A task is created. -/
theorem inv_spawnOne {s : Lifecycle} (h : Inv s) : Inv s.spawnOne := by
  obtain ⟨fresh, apart, nodup, waiters, holder, active, awaited⟩ := h
  have hn := fresh s.nextTask le_rfl
  constructor <;> simp only [spawnOne, Function.update_apply] <;> grind

/-- Tasks are created. -/
theorem inv_spawnOwned {s : Lifecycle} (h : Inv s) (n : ℕ) : Inv (s.spawnOwned n) := by
  induction n generalizing s with
  | zero => exact h
  | succ n ih => exact ih (inv_spawnOne h)

/-- A lifecycle call begins. -/
theorem inv_begin {s : Lifecycle} (h : Inv s) (caller : Option ℕ) (call : LifecycleCall) :
    Inv (s.begin caller call) := by
  obtain ⟨fresh, apart, nodup, waiters, holder, active, awaited⟩ := h
  have hn := fresh s.nextTask le_rfl
  have hnot : s.nextTask ∉ s.lockWaiters := fun hm => by
    obtain ⟨t, ht, _⟩ := waiters _ hm
    simp [hn.1] at ht
  constructor <;> simp only [begin, Function.update_apply]
  case nodup =>
    refine List.nodup_append.2 ⟨nodup, by simp, ?_⟩
    rintro a ha b hb rfl
    exact hnot (List.mem_singleton.1 hb ▸ ha)
  case waiters =>
    intro l hl
    rcases List.mem_append.1 hl with hl | hl
    · have hne : l ≠ s.nextTask := fun he => hnot (he ▸ hl)
      simpa only [if_neg hne] using waiters l hl
    · simp [List.mem_singleton.1 hl]
  all_goals grind

/-- The caller of a lifecycle call enters `_await_lifecycle_task`. -/
theorem inv_await {s : Lifecycle} (h : Inv s) {w : ℕ} {o : OwnedTask} (hw : s.owned w = some o)
    (call : LifecycleCall) :
    Inv { s.begin (some w) call with
      owned := Function.update s.owned w (some ⟨.awaiting s.nextTask, o.cancelled⟩) } := by
  have hn := h.fresh s.nextTask le_rfl
  obtain ⟨fresh, apart, nodup, waiters, holder, active, awaited⟩ := inv_begin h (some w) call
  refine ⟨?_, ?_, nodup, waiters, holder, active, ?_⟩ <;>
    simp only [begin, Function.update_apply] at *
  case refine_3 =>
    intro v p l hv hp
    by_cases hvw : v = w
    · simp only [if_pos hvw, Option.some.injEq] at hv
      subst hv
      obtain rfl := OwnedPc.awaiting.inj hp
      exact ⟨_, if_pos rfl, by rw [hvw]⟩
    · rw [if_neg hvw] at hv
      exact awaited v p l hv hp
  all_goals grind

/-- The lock passes to its first waiter, which goes on to another point. -/
theorem inv_acquire {s : Lifecycle} (h : Inv s) {l : ℕ} {waiters : List ℕ} {t : LifecycleTask}
    (hw : s.lockWaiters = l :: waiters) (hl : s.lifecycle l = some t) (hh : s.lockHolder = none)
    {pc : LifecyclePc} (hq : pc ≠ .queued) (hd : pc ≠ .done) :
    Inv ({ s with lockHolder := some l, lockWaiters := waiters }.setLifecyclePc l t pc) := by
  obtain ⟨fresh, apart, nodup, queued, holder, active, awaited⟩ := h
  rw [hw, List.nodup_cons] at nodup
  constructor <;> simp only [setLifecyclePc, Function.update_apply]
  case nodup => exact nodup.2
  case waiters =>
    intro q hq'
    have hne : q ≠ l := fun he => nodup.1 (he ▸ hq')
    simpa only [if_neg hne] using queued q (hw ▸ List.mem_cons_of_mem _ hq')
  all_goals grind

/-- The task that holds the lock goes on to another point. -/
theorem inv_setLifecyclePc {s : Lifecycle} (h : Inv s) {l : ℕ} {t : LifecycleTask}
    (hl : s.lifecycle l = some t) {pc : LifecyclePc} (hq : t.pc ≠ .queued) (hd : t.pc ≠ .done)
    (hq' : pc ≠ .queued) (hd' : pc ≠ .done) : Inv (s.setLifecyclePc l t pc) := by
  obtain ⟨fresh, apart, nodup, waiters, holder, active, awaited⟩ := h
  constructor <;> simp only [setLifecyclePc, Function.update_apply]
  case waiters =>
    intro q hqw
    obtain ⟨u, hu, hpc⟩ := waiters q hqw
    have hne : q ≠ l := by rintro rfl; exact hq (Option.some.inj (hl.symm.trans hu) ▸ hpc)
    exact ⟨u, by rw [if_neg hne]; exact hu, hpc⟩
  all_goals grind

/-- The task that holds the lock ends. -/
theorem inv_release {s : Lifecycle} (h : Inv s) {l : ℕ} {t : LifecycleTask}
    (hl : s.lifecycle l = some t) (hq : t.pc ≠ .queued) (hd : t.pc ≠ .done) :
    Inv (s.release l t) := by
  have hh := h.active l t hl hq hd
  obtain ⟨fresh, apart, nodup, waiters, holder, active, awaited⟩ := h
  constructor <;> simp only [release, setLifecyclePc, Function.update_apply]
  case waiters =>
    intro q hqw
    obtain ⟨u, hu, hpc⟩ := waiters q hqw
    have hne : q ≠ l := by rintro rfl; exact hq (Option.some.inj (hl.symm.trans hu) ▸ hpc)
    exact ⟨u, by rw [if_neg hne]; exact hu, hpc⟩
  all_goals grind

/-- Cancelling tasks moves none of them. -/
theorem inv_cancelTasks {s : Lifecycle} (h : Inv s) (tasks : List ℕ) :
    Inv (s.cancelTasks tasks) := by
  obtain ⟨fresh, apart, nodup, waiters, holder, active, awaited⟩ := h
  refine ⟨?_, ?_, nodup, waiters, holder, active, ?_⟩ <;> simp only [cancelTasks]
  case refine_3 =>
    intro w o l hw ho
    split at hw
    · obtain ⟨o', ho', rfl⟩ := Option.map_eq_some_iff.1 hw
      exact awaited w o' l ho' ho
    · exact awaited w o l hw ho
  all_goals grind

/-- A node-owned task that is not entering a lifecycle call goes on. -/
theorem inv_setOwned {s : Lifecycle} (h : Inv s) {w : ℕ} {o o' : OwnedTask}
    (hw : s.owned w = some o) (ho : ∀ l, o'.pc ≠ .awaiting l) :
    Inv { s with owned := Function.update s.owned w (some o') } := by
  obtain ⟨fresh, apart, nodup, waiters, holder, active, awaited⟩ := h
  refine ⟨?_, ?_, nodup, waiters, holder, active, ?_⟩ <;>
    simp only [Function.update_apply] <;> grind

/-- `_running` is set. -/
theorem inv_running {s : Lifecycle} (h : Inv s) (b : Bool) : Inv { s with running := b } :=
  ⟨h.fresh, h.apart, h.nodup, h.waiters, h.holder, h.active, h.awaited⟩

/-- The tables of tasks change. -/
theorem inv_tables {s : Lifecycle} (h : Inv s) (tables : List ℕ) :
    Inv { s with tables := tables } :=
  ⟨h.fresh, h.apart, h.nodup, h.waiters, h.holder, h.active, h.awaited⟩

/-- Lifecycle calls stay where they are. -/
theorem spawnOwned_lifecycle (s : Lifecycle) (n : ℕ) :
    (s.spawnOwned n).lifecycle = s.lifecycle := by
  induction n generalizing s with
  | zero => rfl
  | succ n ih => exact ih s.spawnOne

/-- **Every step keeps the invariant.** -/
theorem inv_step {handlers : ℕ} {s u : Lifecycle} {label : Label} (h : Inv s)
    (hs : StepSpec handlers s label u) : Inv u := by
  cases hs with
  | callOutside => exact inv_begin h none _
  | callOwned hw => exact inv_await h hw _
  | sweep hh hw hl _ =>
      exact inv_cancelTasks (inv_running (inv_acquire h hw hl hh (by simp) (by simp)) false) _
  | starting hh hw hl _ => exact inv_acquire h hw hl hh (by simp) (by simp)
  | @refuse l t waiters hh hw hl _ =>
      have ha : Inv (setLifecyclePc _ l t .services) := inv_acquire h hw hl hh (by simp) (by simp)
      have hr := inv_release ha (Function.update_self ..) (by simp) (by simp)
      simpa only [release, setLifecyclePc, Function.update_idem] using hr
  | cleanupDone hl hpc =>
      exact inv_setLifecyclePc h hl (by simp [hpc]) (by simp [hpc]) (by simp) (by simp)
  | tasksDone hl hpc _ =>
      exact inv_tables
        (inv_setLifecyclePc h hl (by simp [hpc]) (by simp [hpc]) (by simp) (by simp)) []
  | servicesDone hl hpc =>
      exact inv_setLifecyclePc h hl (by simp [hpc]) (by simp [hpc]) (by simp) (by simp)
  | stopDone hl hpc => exact inv_release h hl (by simp [hpc]) (by simp [hpc])
  | startFailed hl hpc => exact inv_release h hl (by simp [hpc]) (by simp [hpc])
  | restarted hl hpc =>
      have hsp := inv_running (inv_spawnOwned h (handlers + 2)) true
      exact inv_setLifecyclePc hsp ((congrFun (spawnOwned_lifecycle ..) _).trans hl)
        (by simp [hpc]) (by simp [hpc]) (by simp) (by simp)
  | started hl hpc =>
      have hsp := inv_running (inv_spawnOwned h (handlers + 2)) true
      exact inv_release hsp ((congrFun (spawnOwned_lifecycle ..) _).trans hl)
        (by simp [hpc]) (by simp [hpc])
  | @discoverDone l t reconnects hl hpc =>
      exact inv_release (inv_spawnOwned h reconnects)
        ((congrFun (spawnOwned_lifecycle ..) _).trans hl) (by simp [hpc]) (by simp [hpc])
  | resumeCaller hw _ _ => exact inv_setOwned h hw (by simp)
  | spawn => exact inv_spawnOne h
  | finish hw => exact inv_tables (inv_setOwned h hw (by simp)) _

/-- **The invariant holds in every run.** -/
theorem inv_reachable {handlers : ℕ} {s : Lifecycle} (h : Reachable (system handlers) s) :
    Inv s :=
  h.invariant (I := Inv) (by rintro s rfl; exact inv_initial)
    fun _ _ _ hi hs => inv_step hi (step_spec hs)

end Lifecycle
end Core
end Paqto
