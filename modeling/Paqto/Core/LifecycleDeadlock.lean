/-
# When lifecycle calls deadlock each other

`_stop_locked` gathers every node-owned task except its direct caller, and a
node-owned task that has called `stop()` or `network_changed()` itself does not
end before its own lifecycle task, which waits for the lock.  Two such calls
from two dispatch workers deadlock (`stop_stop_deadlock`).

`CallsApart` is exactly what prevents it.  While every step meets it, no task
that is gathered waits for an unfinished lifecycle task (`clear_step`), so the
wait-for relation is ranked and has no cycle; and from any step that violates
it the deadlock is at most one further step away
(`deadlock_of_not_callsApart`).
-/

import Paqto.Core.LifecycleInvariant

namespace Paqto
namespace Core

open Transition

namespace Lifecycle

/-- A task is blocked by a lifecycle call that has not ended. -/
theorem blocked_iff {s : Lifecycle} {w : ℕ} :
    s.blocked w = true ↔ ∃ o l t, s.owned w = some o ∧ o.pc = .awaiting l ∧
      s.lifecycle l = some t ∧ t.pc ≠ .done := by
  unfold blocked
  rcases hw : s.owned w with _ | ⟨pc, cancelled⟩
  · simp
  · cases pc <;> simp [Option.any_eq_true]

/-- A task is blocked no more than before when it awaits no other lifecycle
task than before and no finished lifecycle task is unfinished again. -/
theorem blocked_mono {s u : Lifecycle} {w : ℕ} (h : Inv s) (hw : u.blocked w = true)
    (hpc : ∀ o l, u.owned w = some o → o.pc = .awaiting l →
      ∃ o', s.owned w = some o' ∧ o'.pc = .awaiting l)
    (hdone : ∀ l t t', s.lifecycle l = some t → t.pc = .done → u.lifecycle l = some t' →
      t'.pc = .done) : s.blocked w = true := by
  obtain ⟨o, l, t, ho, hol, hl, hd⟩ := blocked_iff.1 hw
  obtain ⟨o', ho', hol'⟩ := hpc o l ho hol
  obtain ⟨t', ht', _⟩ := h.awaited w o' l ho' hol'
  exact blocked_iff.2 ⟨o', l, t', ho', hol', ht', fun he => hd (hdone l t' t ht' he hl)⟩

/-- A new task awaits nothing. -/
theorem spawnOwned_awaiting {s : Lifecycle} {n w l : ℕ} {o : OwnedTask}
    (hw : (s.spawnOwned n).owned w = some o) (ho : o.pc = .awaiting l) : s.owned w = some o := by
  induction n generalizing s with
  | zero => exact hw
  | succ n ih =>
      have h := ih hw
      simp only [spawnOne, Function.update_apply] at h
      grind

/-- **Only its own lifecycle call makes a task wait.** -/
theorem blocked_step {handlers : ℕ} {s u : Lifecycle} {label : Label} (h : Inv s)
    (hs : StepSpec handlers s label u) {w : ℕ} (hw : u.blocked w = true) :
    s.blocked w = true ∨ ∃ call, label = .call (some w) call := by
  cases hs with
  | @callOwned v call cancelled hv =>
      rcases eq_or_ne w v with rfl | hne
      · exact Or.inr ⟨call, rfl⟩
      · refine Or.inl (blocked_mono h hw (fun o l ho hl => ?_) (fun l t t' hl hd hl' => ?_))
        · exact ⟨o, by simpa only [Function.update_of_ne hne] using ho, hl⟩
        · have hn := h.fresh s.nextTask le_rfl
          simp only [begin, Function.update_apply] at hl'
          grind
  | callOutside =>
      refine Or.inl (blocked_mono h hw (fun o l ho hl => ⟨o, ho, hl⟩) (fun l t t' hl hd hl' => ?_))
      have hn := h.fresh s.nextTask le_rfl
      simp only [begin, Function.update_apply] at hl'
      grind
  | @sweep l t waiters hh hw' hl hsw =>
      obtain ⟨u, hu, hq⟩ := h.waiters l (hw' ▸ List.mem_cons_self)
      refine Or.inl (blocked_mono h hw (fun o q ho hq => ?_) (fun q t t' hq hd hq' => ?_))
      · simp only [beginStop, setLifecyclePc, cancelTasks] at ho
        split at ho
        · obtain ⟨o', ho', rfl⟩ := Option.map_eq_some_iff.1 ho
          exact ⟨o', ho', hq⟩
        · exact ⟨o, ho, hq⟩
      · simp only [beginStop, setLifecyclePc, cancelTasks, Function.update_apply] at hq'
        grind
  | starting hh hw' hl _ | refuse hh hw' hl _ =>
      obtain ⟨u, hu, hq⟩ := h.waiters _ (hw' ▸ List.mem_cons_self)
      refine Or.inl (blocked_mono h hw (fun o q ho hq => ⟨o, ho, hq⟩) (fun q t t' hq hd hq' => ?_))
      simp only [release, setLifecyclePc, Function.update_apply] at hq'
      grind
  | cleanupDone | tasksDone | servicesDone | stopDone | startFailed =>
      refine Or.inl (blocked_mono h hw (fun o q ho hq => ⟨o, ho, hq⟩) (fun q t t' hq hd hq' => ?_))
      simp only [release, setLifecyclePc, Function.update_apply] at hq'
      grind
  | restarted | started | discoverDone =>
      refine Or.inl (blocked_mono h hw (fun o q ho hq => ⟨o, spawnOwned_awaiting ho hq, hq⟩)
        (fun q t t' hq hd hq' => ?_))
      simp only [release, setLifecyclePc, Function.update_apply, spawnOwned_lifecycle] at hq'
      grind
  | resumeCaller | finish =>
      refine Or.inl (blocked_mono h hw (fun o q ho hq => ?_) (fun q t t' hq hd hq' => ?_))
      · simp only [Function.update_apply] at ho
        grind
      · grind
  | spawn =>
      exact Or.inl (blocked_mono h hw
        (fun o q ho hq => ⟨o, spawnOwned_awaiting (n := 1) ho hq, hq⟩) (by grind [spawnOne]))

/-- **Only `_stop_locked` decides whom to gather.** -/
theorem waitSet_step {handlers : ℕ} {s u : Lifecycle} {label : Label}
    (hs : StepSpec handlers s label u) {l w : ℕ} {t : LifecycleTask}
    (hl : u.lifecycle l = some t) (hw : w ∈ t.pc.waitSet) :
    (∃ t', s.lifecycle l = some t' ∧ w ∈ t'.pc.waitSet) ∨
      label = .acquireLock l ∧ ∃ t', s.lifecycle l = some t' ∧ s.sweeps t' = true ∧
        w ∈ s.gatherSet t' := by
  cases hs with
  | @sweep q t' waiters hh hw' hl' hsw =>
      simp only [beginStop, setLifecyclePc, cancelTasks, Function.update_apply] at hl
      split at hl
      · rename_i hlq
        subst hlq
        obtain rfl := Option.some.inj hl
        exact Or.inr ⟨rfl, t', hl', hsw, hw⟩
      · exact Or.inl ⟨t, hl, hw⟩
  | restarted | started | discoverDone =>
      simp only [release, setLifecyclePc, Function.update_apply, spawnOwned_lifecycle] at hl
      grind [LifecyclePc.waitSet]
  | spawn | resumeCaller | finish => exact Or.inl ⟨t, hl, hw⟩
  | _ =>
      simp only [begin, setLifecyclePc, release, Function.update_apply] at hl
      grind [LifecyclePc.waitSet]

/-- No task that a `_stop_locked` has cancelled and gathers, or is going to
gather, waits for an unfinished lifecycle task. -/
def Clear (s : Lifecycle) : Prop :=
  ∀ l t w, s.lifecycle l = some t → w ∈ t.pc.waitSet → s.blocked w = false

/-- A step in which no call waits for itself. -/
theorem clear_step {handlers : ℕ} {s u : Lifecycle} {label : Label} (h : Inv s) (hc : Clear s)
    (hG : CallsApart s label) (hs : StepSpec handlers s label u) : Clear u := by
  intro l t w hl hw
  by_contra hb
  rw [Bool.not_eq_false] at hb
  rcases blocked_step h hs hb with hb' | ⟨call, rfl⟩
  · rcases waitSet_step hs hl hw with ⟨t', hl', hw'⟩ | ⟨rfl, t', hl', hsw, hw'⟩
    · simp [hc l t' w hl' hw'] at hb'
    · simp [hG t' hl' hsw w hw'] at hb'
  · rcases waitSet_step hs hl hw with ⟨t', hl', hw'⟩ | ⟨hlabel, _⟩
    · exact hG l t' hl' hw'
    · cases hlabel

/-- **No call waits for itself** in such runs. -/
theorem clear_reachable {handlers : ℕ} {s : Lifecycle}
    (h : ReachableWhen (system handlers) CallsApart s) : Inv s ∧ Clear s := by
  refine h.invariant (I := fun s => Inv s ∧ Clear s) ?_ ?_
  · rintro s rfl
    exact ⟨inv_initial, fun l t w hl _ => by cases hl⟩
  · rintro s l u ⟨hi, hc⟩ hG hs
    exact ⟨inv_step hi (step_spec hs), clear_step hi hc hG (step_spec hs)⟩

/-- How many tasks a task can still be waiting behind: a node-owned task that
waits, a lifecycle task queued on the lock, the task that holds it, the rest. -/
def waitRank (s : Lifecycle) (x : ℕ) : ℕ :=
  match s.lifecycle x with
  | some t => if t.pc = .queued then 2 else 1
  | none => if s.blocked x then 3 else 0

/-- The rank of an owned task. -/
theorem waitRank_owned {s : Lifecycle} (h : Inv s) {w : ℕ} {o : OwnedTask}
    (hw : s.owned w = some o) : s.waitRank w = if s.blocked w then 3 else 0 := by
  have hl : s.lifecycle w = none := by
    rcases hl : s.lifecycle w with _ | t
    · rfl
    · simp [h.apart w t hl] at hw
  rw [waitRank, hl]

/-- Where no gathered task waits, every edge of the wait-for graph goes down. -/
theorem waitRank_lt {s : Lifecycle} (h : Inv s) (hc : Clear s) {x y : ℕ}
    (hxy : WaitsFor s x y) : s.waitRank y < s.waitRank x := by
  cases hxy with
  | @gather t tasks o hl hpc hw ho _ =>
      have hb := hc x t y hl (by rw [hpc]; exact hw)
      rw [waitRank_owned h ho, hb]
      simp [waitRank, hl, hpc]
  | @await o t ho hol hl hd =>
      have hb : s.blocked x = true := blocked_iff.2 ⟨o, y, t, ho, hol, hl, hd⟩
      have hy : s.waitRank y ≤ 2 := by
        rw [waitRank, hl]
        dsimp only
        split <;> omega
      rw [waitRank_owned h ho, hb]
      exact Nat.lt_succ_of_le hy
  | @lock t hl hpc hh =>
      obtain ⟨u, hu, hq, _⟩ := h.holder y hh
      simp [waitRank, hl, hpc, hu, hq]

/-- A deadlock closes a cycle: the holder, a gathered task, a queued task. -/
theorem Deadlock.cycle {s : Lifecycle} (h : Deadlock s) :
    ∃ x, Relation.TransGen (WaitsFor s) x x := by
  obtain ⟨l, w, q, t, tasks, o, u, hh, hl, hpc, hw, ho, hq, hu, hqd⟩ := h
  have hlw : WaitsFor s l w := .gather hl hpc hw ho (by simp [hq])
  have hwq : WaitsFor s w q := .await ho hq hu (by simp [hqd])
  have hql : WaitsFor s q l := .lock hu hqd hh
  exact ⟨l, (Relation.TransGen.single hlw).tail hwq |>.tail hql⟩

/-- **Waiting has no cycle.** -/
theorem lifecycle_waits_acyclic {handlers : ℕ} {s : Lifecycle}
    (h : ReachableWhen (system handlers) CallsApart s) (x : ℕ) :
    ¬ Relation.TransGen (WaitsFor s) x x := by
  obtain ⟨hi, hc⟩ := clear_reachable h
  exact not_transGen_of_rank s.waitRank (fun _ _ => waitRank_lt hi hc) x

/-- A gathered task that waits for a queued task deadlocks as soon as the
cleanup of the connections is done. -/
theorem deadlock_of_waitSet {handlers : ℕ} {s : Lifecycle} (h : Inv s) {l w q : ℕ}
    {t u : LifecycleTask} {o : OwnedTask} (hl : s.lifecycle l = some t) (hw : w ∈ t.pc.waitSet)
    (ho : s.owned w = some o) (hq : o.pc = .awaiting q) (hu : s.lifecycle q = some u)
    (hqd : u.pc = .queued) : ∃ ls v, exec (step handlers) s ls = some v ∧ Deadlock v := by
  rcases hpc : t.pc with _ | tasks | tasks | _ | _ | _ | _ <;>
    simp only [hpc, LifecyclePc.waitSet, List.not_mem_nil] at hw
  · have hh := h.active l t hl (by simp [hpc]) (by simp [hpc])
    have hne : q ≠ l := by rintro rfl; simp_all
    refine ⟨[.cleanupDone l], s.setLifecyclePc l t (.gathering tasks), ?_, ?_⟩
    · simp [step, hl, hpc]
    · exact ⟨l, w, q, _, tasks, o, u, hh, Function.update_self .., rfl, hw, ho, hq,
        (Function.update_of_ne hne ..).trans hu, hqd⟩
  · have hh := h.active l t hl (by simp [hpc]) (by simp [hpc])
    exact ⟨[], s, rfl, l, w, q, t, tasks, o, u, hh, hl, hpc, hw, ho, hq, hu, hqd⟩

/-- **The condition is exact.**  From a step that violates it, the deadlock is
reached at the latest when the connections are closed. -/
theorem deadlock_of_not_callsApart {handlers : ℕ} {s u : Lifecycle} {label : Label} (h : Inv s)
    (hs : step handlers s label = some u) (hG : ¬ CallsApart s label) :
    ∃ ls v, exec (step handlers) u ls = some v ∧ Deadlock v := by
  have hu := inv_step h (step_spec hs)
  cases step_spec hs with
  | @callOwned w call cancelled hw =>
      simp only [CallsApart, not_forall, not_not] at hG
      obtain ⟨l, t, hl, hwl⟩ := hG
      have hne : l ≠ s.nextTask := by
        rintro rfl
        simp [(h.fresh s.nextTask le_rfl).1] at hl
      exact deadlock_of_waitSet hu ((Function.update_of_ne hne ..).trans hl) hwl
        (Function.update_self ..) rfl (Function.update_self ..) rfl
  | @sweep l t waiters hh hw hl hsw =>
      simp only [CallsApart, not_forall, Bool.not_eq_false] at hG
      obtain ⟨t', ht', _, w, hwg, hb⟩ := hG
      obtain rfl : t = t' := Option.some.inj (hl.symm.trans ht')
      obtain ⟨o, q, v, ho, hq, hv, hvd⟩ := blocked_iff.1 hb
      have hskip : some w ≠ t.skipTask := by simpa [gatherSet] using (List.mem_filter.1 hwg).2
      have hne : q ≠ l := by
        rintro rfl
        obtain ⟨t'', ht'', hs''⟩ := h.awaited w o q ho hq
        exact hskip (Option.some.inj (hl.symm.trans ht'') ▸ hs''.symm)
      have hvq : v.pc = .queued := by
        by_contra hn
        simp [h.active q v hv hn hvd] at hh
      refine deadlock_of_waitSet (o := { o with cancelled := true }) hu (Function.update_self ..)
        hwg ?_ hq ((Function.update_of_ne hne ..).trans hv) hvq
      · exact (if_pos hwg).trans (by rw [ho]; rfl)
  | starting _ _ hl hs' | refuse _ _ hl hs' =>
      refine absurd (fun t ht hsw => ?_) hG
      obtain rfl := Option.some.inj (hl.symm.trans ht)
      simp [hs'] at hsw
  | _ => exact absurd trivial hG

/-- **Two dispatch workers that call `stop()` deadlock.**  The first lifecycle
task holds the lock and gathers the second worker, whose own lifecycle task is
queued on the lock. -/
theorem stop_stop_deadlock : ∃ s, Reachable (system 2) s ∧ Deadlock s := by
  refine ⟨_, reachable_of_exec rfl [.call none .start, .acquireLock 0, .startDone 0 false,
    .call (some 1) .stop, .call (some 2) .stop, .acquireLock 5, .cleanupDone 5] rfl, ?_⟩
  exact ⟨5, 2, 6, _, _, _, _, rfl, rfl, rfl, by decide, rfl, rfl, rfl, rfl⟩

/-- **Lifecycle calls deadlock exactly when they meet.**  In every run whose
steps keep lifecycle calls apart the wait-for graph is acyclic, so no deadlock
is ever reached; a run with a step that does not can be continued to one. -/
theorem lifecycle_deadlock_free (handlers : ℕ) :
    (∀ s, ReachableWhen (system handlers) CallsApart s →
      ¬ Deadlock s ∧ ∀ x, ¬ Relation.TransGen (WaitsFor s) x x) ∧
    ∀ s label u, Reachable (system handlers) s → step handlers s label = some u →
      ¬ CallsApart s label → ∃ ls v, exec (step handlers) u ls = some v ∧ Deadlock v := by
  refine ⟨fun s h => ⟨fun hd => ?_, lifecycle_waits_acyclic h⟩,
    fun s label u h hs hG => deadlock_of_not_callsApart (inv_reachable h) hs hG⟩
  obtain ⟨x, hx⟩ := hd.cycle
  exact lifecycle_waits_acyclic h x hx

end Lifecycle
end Core
end Paqto
