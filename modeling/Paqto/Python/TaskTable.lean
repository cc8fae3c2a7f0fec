/-
# Tasks kept in a dict

Tasks of an event loop, and a dict that has some of them under keys.  A task has a
done-callback, which the loop runs some time after the task has ended.

A task is tracked when the dict has it under its own key until it ends or is cancelled
(`Tracked`).  Storing a task keeps this when the key is free or its task has ended
(`Tracked.ensure`), and so does taking out a task that has ended or been cancelled
(`Tracked.pop`).  A callback that pops its key without a look at what is there takes out
no other task as long as none is stored under its key before it has run (`Alone`).
-/

import Paqto.Python.Dict
import Mathlib.Logic.Function.Basic

namespace Paqto
namespace Python

/-! ## Tasks -/

/-- What has happened to a task. -/
structure TaskStatus where
  started : Bool
  done : Bool
  /-- Its done-callback has run. -/
  calledBack : Bool
  /-- `cancel()` was called before it was done. -/
  cancelled : Bool
  deriving DecidableEq, Repr

namespace TaskStatus

/-- A task that has not begun. -/
def created : TaskStatus := ⟨false, false, false, false⟩

/-- The task begins. -/
def begin (x : TaskStatus) : TaskStatus := { x with started := true }

/-- The task ends. -/
def finish (x : TaskStatus) : TaskStatus := { x with done := true }

/-- Its callback runs. -/
def callBack (x : TaskStatus) : TaskStatus := { x with calledBack := true }

/-- `cancel()` of a task that is done does nothing. -/
def cancel (x : TaskStatus) : TaskStatus := { x with cancelled := x.cancelled || !x.done }

/-- The task has neither ended nor been cancelled. -/
def active (x : TaskStatus) : Bool := !x.done && !x.cancelled

/-- What was true of a task stays true. -/
structure Before (x y : TaskStatus) : Prop where
  started : x.started = true → y.started = true
  done : x.done = true → y.done = true
  calledBack : x.calledBack = true → y.calledBack = true
  cancelled : x.cancelled = true → y.cancelled = true

/-- A status comes before itself. -/
theorem Before.refl (x : TaskStatus) : Before x x := ⟨id, id, id, id⟩

/-- Two changes of a status. -/
theorem Before.trans {x y z : TaskStatus} (h : Before x y) (h' : Before y z) : Before x z :=
  ⟨h'.started ∘ h.started, h'.done ∘ h.done, h'.calledBack ∘ h.calledBack,
    h'.cancelled ∘ h.cancelled⟩

/-- A task begins. -/
theorem before_begin (x : TaskStatus) : Before x x.begin := ⟨fun _ => rfl, id, id, id⟩

/-- A task ends. -/
theorem before_finish (x : TaskStatus) : Before x x.finish := ⟨id, fun _ => rfl, id, id⟩

/-- Its callback runs. -/
theorem before_callBack (x : TaskStatus) : Before x x.callBack := ⟨id, id, fun _ => rfl, id⟩

/-- A task is cancelled. -/
theorem before_cancel (x : TaskStatus) : Before x x.cancel :=
  ⟨id, id, id, fun h => by rw [cancel, h, Bool.true_or]⟩

/-- A task is active until it is done or cancelled. -/
theorem active_iff {x : TaskStatus} : x.active = true ↔ x.done = false ∧ x.cancelled = false := by
  rw [active, Bool.and_eq_true, Bool.not_eq_true', Bool.not_eq_true']

/-- A cancelled task is not active. -/
theorem active_cancel (x : TaskStatus) : x.cancel.active = false := by
  rw [active, cancel, Bool.not_or, Bool.not_not]
  cases x.done with
  | true => rfl
  | false => exact Bool.and_false _

/-- A task that is not done was not done before. -/
theorem Before.done_eq_false {x y : TaskStatus} (h : Before x y) (hy : y.done = false) :
    x.done = false :=
  Bool.eq_false_iff.2 fun hx => absurd (hy.symm.trans (h.done hx)) Bool.false_ne_true

/-- A task does not become active again. -/
theorem Before.active {x y : TaskStatus} (h : Before x y) (hy : y.active = true) :
    x.active = true := by
  obtain ⟨hdone, hcancelled⟩ := active_iff.1 hy
  refine active_iff.2 ⟨h.done_eq_false hdone, Bool.eq_false_iff.2 fun hx => ?_⟩
  rw [h.cancelled hx] at hcancelled
  cases hcancelled

end TaskStatus

/-- A task, the key it was stored under and what its coroutine refers to. -/
structure Task (κ ρ : Type) where
  key : κ
  subject : ρ
  status : TaskStatus

/-! ## The table -/

/-- All tasks, and the dict.  What the dict has under a key is a task of that key. -/
structure TaskTable (κ ρ : Type) [DecidableEq κ] where
  entries : Dict κ ℕ
  tasks : ℕ → Option (Task κ ρ)
  next : ℕ
  fresh : ∀ t, next ≤ t → tasks t = none
  keyed : ∀ key t, entries.get? key = some t → ∃ x, tasks t = some x ∧ x.key = key

namespace TaskTable

variable {κ ρ : Type} [DecidableEq κ]

/-- The tasks that are there have been numbered. -/
theorem lt_next (T : TaskTable κ ρ) {t : ℕ} {x : Task κ ρ} (h : T.tasks t = some x) :
    t < T.next := by
  by_contra hle
  rw [T.fresh t (by omega)] at h
  cases h

/-- No task. -/
def empty : TaskTable κ ρ where
  entries := .empty
  tasks := fun _ => none
  next := 0
  fresh := fun _ _ => rfl
  keyed := fun _ _ h => by cases h

/-- `not task.done()` -/
def isUnfinished (T : TaskTable κ ρ) (t : ℕ) : Bool := (T.tasks t).any fun x => !x.status.done

/-- The task is neither done nor cancelled. -/
def isActive (T : TaskTable κ ρ) (t : ℕ) : Bool := (T.tasks t).any fun x => x.status.active

/-- `task is not None and not task.done()` for `task = table.get(key)`. -/
def isRunning (T : TaskTable κ ρ) (key : κ) : Bool := (T.entries.get? key).any T.isUnfinished

/-- A new task is stored under its key. -/
def create (T : TaskTable κ ρ) (key : κ) (subject : ρ) : TaskTable κ ρ where
  entries := T.entries.set key T.next
  tasks := Function.update T.tasks T.next (some ⟨key, subject, .created⟩)
  next := T.next + 1
  fresh := by
    intro t ht
    rw [Function.update_of_ne (by omega)]
    exact T.fresh t (by omega)
  keyed := by
    intro key' t h
    rw [Dict.get?_set] at h
    split at h
    · next heq =>
        obtain rfl := Option.some.inj h
        exact ⟨_, Function.update_self .., heq.symm⟩
    · obtain ⟨x, hx, hkey⟩ := T.keyed key' t h
      refine ⟨x, ?_, hkey⟩
      rw [Function.update_of_ne (Nat.ne_of_lt (T.lt_next hx))]
      exact hx

/-- A task is created unless the key has one that is not done. -/
def ensure (T : TaskTable κ ρ) (key : κ) (subject : ρ) : TaskTable κ ρ :=
  if T.isRunning key then T else T.create key subject

/-- Tasks go on. -/
def update (T : TaskTable κ ρ) (f : ℕ → TaskStatus → TaskStatus) : TaskTable κ ρ where
  entries := T.entries
  tasks := fun t => (T.tasks t).map fun x => { x with status := f t x.status }
  next := T.next
  fresh := fun t ht => by rw [T.fresh t ht]; rfl
  keyed := by
    intro key t h
    obtain ⟨x, hx, hkey⟩ := T.keyed key t h
    exact ⟨_, Option.map_eq_some_iff.2 ⟨x, hx, rfl⟩, hkey⟩

/-- One task goes on. -/
def updateTask (T : TaskTable κ ρ) (t : ℕ) (f : TaskStatus → TaskStatus) : TaskTable κ ρ :=
  T.update fun u x => if u = t then f x else x

/-- `table.pop(key, None)` -/
def pop (T : TaskTable κ ρ) (key : κ) : TaskTable κ ρ where
  entries := T.entries.erase key
  tasks := T.tasks
  next := T.next
  fresh := T.fresh
  keyed := by
    intro key' t h
    rw [Dict.get?_erase] at h
    split at h
    · cases h
    · exact T.keyed key' t h

/-- `if table.get(key) is task: table.pop(key, None)` -/
def popOwn (T : TaskTable κ ρ) (key : κ) (t : ℕ) : TaskTable κ ρ :=
  if T.entries.get? key = some t then T.pop key else T

/-- `task.cancel()`, unless it is the current task. -/
def cancelOther (T : TaskTable κ ρ) (t : ℕ) (current : Option ℕ) : TaskTable κ ρ :=
  if current = some t then T else T.updateTask t .cancel

/-- `task = table.pop(key, None)`, and the task is cancelled unless it is the current one. -/
def popCancel (T : TaskTable κ ρ) (key : κ) (current : Option ℕ) : TaskTable κ ρ :=
  match T.entries.get? key with
  | none => T
  | some t => (T.pop key).cancelOther t current

/-- Tasks are cancelled. -/
def cancelAll (T : TaskTable κ ρ) (ts : List ℕ) : TaskTable κ ρ :=
  T.update fun t x => if t ∈ ts then x.cancel else x

/-- `dict.clear()` -/
def clear (T : TaskTable κ ρ) : TaskTable κ ρ where
  entries := .empty
  tasks := T.tasks
  next := T.next
  fresh := T.fresh
  keyed := fun _ _ h => by cases h

section Rules

variable {T T' : TaskTable κ ρ} {key : κ}

/-- The entry of a task that was created. -/
theorem get?_create (T : TaskTable κ ρ) (key key' : κ) (subject : ρ) :
    (T.create key subject).entries.get? key' =
      if key' = key then some T.next else T.entries.get? key' :=
  Dict.get?_set ..

/-- The entries after a `pop`. -/
theorem get?_pop (T : TaskTable κ ρ) (key key' : κ) :
    (T.pop key).entries.get? key' = if key' = key then none else T.entries.get? key' :=
  Dict.get?_erase ..

/-- A task after one is created is the new one, or was there before. -/
theorem create_cases {subject : ρ} {t : ℕ} {x : Task κ ρ}
    (h : (T.create key subject).tasks t = some x) :
    t = T.next ∧ x = ⟨key, subject, .created⟩ ∨ t ≠ T.next ∧ T.tasks t = some x := by
  change Function.update T.tasks T.next _ t = some x at h
  by_cases ht : t = T.next
  · subst ht
    rw [Function.update_self] at h
    exact Or.inl ⟨rfl, (Option.some.inj h).symm⟩
  · rw [Function.update_of_ne ht] at h
    exact Or.inr ⟨ht, h⟩

/-- The task that was created. -/
theorem tasks_create_self {subject : ρ} :
    (T.create key subject).tasks T.next = some ⟨key, subject, .created⟩ :=
  Function.update_self ..

/-- The other tasks. -/
theorem tasks_create {t : ℕ} {x : Task κ ρ} {subject : ρ} (h : T.tasks t = some x) :
    (T.create key subject).tasks t = some x :=
  (Function.update_of_ne (Nat.ne_of_lt (T.lt_next h)) _ _).trans h

/-- A task that was there stays as it was. -/
theorem tasks_ensure {t : ℕ} {x : Task κ ρ} {subject : ρ} (h : T.tasks t = some x) :
    (T.ensure key subject).tasks t = some x := by
  unfold ensure
  split
  · exact h
  · exact tasks_create h

/-- Read from the task. -/
theorem isActive_of {t : ℕ} {x : Task κ ρ} (h : T.tasks t = some x) :
    T.isActive t = x.status.active := by
  rw [isActive, h, Option.any_some]

/-- Read from the task. -/
theorem isUnfinished_of {t : ℕ} {x : Task κ ρ} (h : T.tasks t = some x) :
    T.isUnfinished t = !x.status.done := by
  rw [isUnfinished, h, Option.any_some]

/-- A cancellation leaves the entries. -/
theorem entries_cancelOther {t : ℕ} {current : Option ℕ} :
    (T.cancelOther t current).entries = T.entries := by
  unfold cancelOther
  split <;> rfl

/-! ## What goes on -/

/-- Tasks go on, entries are taken out, and no task is created. -/
structure Evolves (T T' : TaskTable κ ρ) : Prop where
  entries : ∀ key t, T'.entries.get? key = some t → T.entries.get? key = some t
  tasks : ∀ t y, T'.tasks t = some y → ∃ x, T.tasks t = some x ∧ x.key = y.key ∧
    x.subject = y.subject ∧ x.status.Before y.status

/-- Nothing happens. -/
theorem Evolves.refl (T : TaskTable κ ρ) : Evolves T T :=
  ⟨fun _ _ h => h, fun _ y h => ⟨y, h, rfl, rfl, .refl _⟩⟩

/-- Two changes of a table. -/
theorem Evolves.trans {T'' : TaskTable κ ρ} (h : Evolves T T') (h' : Evolves T' T'') :
    Evolves T T'' := by
  refine ⟨fun key t ht => h.entries key t (h'.entries key t ht), fun t z hz => ?_⟩
  obtain ⟨y, hy, hkey, hsubject, hbefore⟩ := h'.tasks t z hz
  obtain ⟨x, hx, hkey', hsubject', hbefore'⟩ := h.tasks t y hy
  exact ⟨x, hx, hkey'.trans hkey, hsubject'.trans hsubject, hbefore'.trans hbefore⟩

/-- Tasks go on. -/
theorem evolves_update {f : ℕ → TaskStatus → TaskStatus}
    (hf : ∀ t x, TaskStatus.Before x (f t x)) :
    Evolves T (T.update f) := by
  refine ⟨fun _ _ h => h, fun t y hy => ?_⟩
  obtain ⟨x, hx, rfl⟩ := Option.map_eq_some_iff.1 hy
  exact ⟨x, hx, rfl, rfl, hf t _⟩

/-- One task goes on. -/
theorem evolves_updateTask {t : ℕ} {f : TaskStatus → TaskStatus}
    (hf : ∀ x, TaskStatus.Before x (f x)) : Evolves T (T.updateTask t f) := by
  refine evolves_update fun u x => ?_
  split
  · exact hf x
  · exact .refl x

/-- Tasks are cancelled. -/
theorem evolves_cancelAll (ts : List ℕ) : Evolves T (T.cancelAll ts) := by
  refine evolves_update fun u x => ?_
  split
  · exact x.before_cancel
  · exact .refl x

/-- An entry is taken out. -/
theorem evolves_pop : Evolves T (T.pop key) := by
  refine ⟨fun key' t h => ?_, (Evolves.refl T).tasks⟩
  rw [get?_pop] at h
  split at h
  · cases h
  · exact h

/-- An entry is taken out by its own task. -/
theorem evolves_popOwn {t : ℕ} : Evolves T (T.popOwn key t) := by
  unfold popOwn
  split
  · exact evolves_pop
  · exact .refl T

/-- A task is cancelled by another one. -/
theorem evolves_cancelOther {t : ℕ} {current : Option ℕ} :
    Evolves T (T.cancelOther t current) := by
  unfold cancelOther
  split
  · exact .refl T
  · exact evolves_updateTask TaskStatus.before_cancel

/-- An entry is taken out, and its task cancelled. -/
theorem evolves_popCancel {current : Option ℕ} : Evolves T (T.popCancel key current) := by
  unfold popCancel
  split
  · exact .refl T
  · exact evolves_pop.trans evolves_cancelOther

/-- All entries are taken out. -/
theorem evolves_clear : Evolves T T.clear := by
  refine ⟨fun key t h => ?_, (Evolves.refl T).tasks⟩
  have hnone : none = some t := (Dict.get?_empty key).symm.trans h
  cases hnone

/-- No task becomes active. -/
theorem Evolves.isActive (h : Evolves T T') {t : ℕ} (ht : T'.isActive t = true) :
    T.isActive t = true := by
  obtain ⟨y, hy, hactive⟩ := (Option.any_eq_true _ _).1 ht
  obtain ⟨x, hx, -, -, hbefore⟩ := h.tasks t y hy
  rw [isActive_of hx]
  exact hbefore.active hactive

/-- What becomes of a task. -/
theorem tasks_update {t : ℕ} {x : Task κ ρ} (h : T.tasks t = some x)
    (f : ℕ → TaskStatus → TaskStatus) :
    (T.update f).tasks t = some { x with status := f t x.status } :=
  Option.map_eq_some_iff.2 ⟨x, h, rfl⟩

/-- What becomes of the task. -/
theorem tasks_updateTask {t : ℕ} {x : Task κ ρ} (h : T.tasks t = some x)
    (f : TaskStatus → TaskStatus) :
    (T.updateTask t f).tasks t = some { x with status := f x.status } := by
  rw [updateTask, tasks_update h, if_pos rfl]

/-- The other tasks are left alone. -/
theorem tasks_cancelOther {t u : ℕ} {x : Task κ ρ} {current : Option ℕ} (h : T.tasks t = some x)
    (hne : t ≠ u) : (T.cancelOther u current).tasks t = some x := by
  unfold cancelOther
  split
  · exact h
  · rw [updateTask, tasks_update h, if_neg hne]

/-- What one task does is independent of its entry. -/
theorem updateTask_popOwn {t : ℕ} (T : TaskTable κ ρ) (key : κ) (f : TaskStatus → TaskStatus) :
    (T.popOwn key t).updateTask t f = (T.updateTask t f).popOwn key t := by
  unfold popOwn
  change _ = if T.entries.get? key = some t then _ else _
  split <;> rfl

/-- **A callback that compares takes out no other task.** -/
theorem get?_popOwn {key' : κ} {t u : ℕ} (h : T.entries.get? key' = some u) (hne : u ≠ t) :
    (T.popOwn key t).entries.get? key' = some u := by
  unfold popOwn
  split
  · next hkey =>
      rw [get?_pop, if_neg]
      · exact h
      · rintro rfl
        exact hne (Option.some.inj (h.symm.trans hkey))
  · exact h

/-- A task that is cancelled is not active, and neither is the current one if it was not. -/
theorem isActive_cancelOther {t : ℕ} {current : Option ℕ}
    (h : current = some t → T.isActive t = false) : (T.cancelOther t current).isActive t = false := by
  unfold cancelOther
  split
  · next hcurrent => exact h hcurrent
  · cases hx : T.tasks t with
    | none =>
        refine Bool.eq_false_iff.2 fun hactive => ?_
        have hold := (evolves_updateTask TaskStatus.before_cancel).isActive hactive
        rw [isActive, hx] at hold
        cases hold
    | some x => rw [isActive_of (tasks_updateTask hx _), TaskStatus.active_cancel]

/-! ## Tracked tasks -/

/-- **Every task that has neither ended nor been cancelled is stored** under its key. -/
def Tracked (T : TaskTable κ ρ) : Prop :=
  ∀ t x, T.tasks t = some x → x.status.active = true → T.entries.get? x.key = some t

/-- There is no task to track. -/
theorem tracked_empty : (empty : TaskTable κ ρ).Tracked := fun _ _ h => by cases h

/-- **A task may take the place of one that is done.** -/
theorem Tracked.create {subject : ρ} (h : T.Tracked) (hkey : T.isRunning key = false) :
    (T.create key subject).Tracked := by
  intro t x hx hactive
  rw [get?_create]
  obtain ⟨rfl, rfl⟩ | ⟨-, hold⟩ := create_cases hx
  · exact if_pos rfl
  · have hstored := h t x hold hactive
    rw [if_neg, hstored]
    rintro rfl
    rw [isRunning, hstored, Option.any_some, isUnfinished_of hold,
      (TaskStatus.active_iff.1 hactive).1] at hkey
    cases hkey

/-- A task is created where none runs. -/
theorem Tracked.ensure {subject : ρ} (h : T.Tracked) : (T.ensure key subject).Tracked := by
  unfold TaskTable.ensure
  split
  · exact h
  · next hkey => exact h.create (Bool.eq_false_iff.2 hkey)

/-- What is taken out has ended or been cancelled. -/
theorem Tracked.evolves (h : T.Tracked) (hT : Evolves T T')
    (hout : ∀ key t, T.entries.get? key = some t →
      T'.entries.get? key = some t ∨ T'.isActive t = false) : T'.Tracked := by
  intro t y hy hactive
  obtain ⟨x, hx, hkey, -, hbefore⟩ := hT.tasks t y hy
  have hstored := h t x hx (hbefore.active hactive)
  rw [hkey] at hstored
  obtain hstored | hinactive := hout _ _ hstored
  · exact hstored
  · rw [isActive_of hy, hactive] at hinactive
    cases hinactive

/-- Tasks go on. -/
theorem Tracked.update {f : ℕ → TaskStatus → TaskStatus} (h : T.Tracked)
    (hf : ∀ t x, TaskStatus.Before x (f t x)) : (T.update f).Tracked :=
  h.evolves (evolves_update hf) fun _ _ ht => Or.inl ht

/-- One task goes on. -/
theorem Tracked.updateTask {t : ℕ} {f : TaskStatus → TaskStatus} (h : T.Tracked)
    (hf : ∀ x, TaskStatus.Before x (f x)) : (T.updateTask t f).Tracked :=
  h.evolves (evolves_updateTask hf) fun _ _ ht => Or.inl ht

/-- Tasks are cancelled. -/
theorem Tracked.cancelAll (h : T.Tracked) (ts : List ℕ) : (T.cancelAll ts).Tracked :=
  h.evolves (evolves_cancelAll ts) fun _ _ ht => Or.inl ht

/-- A task is cancelled by another one. -/
theorem Tracked.cancelOther {t : ℕ} {current : Option ℕ} (h : T.Tracked) :
    (T.cancelOther t current).Tracked := by
  refine h.evolves evolves_cancelOther fun _ _ ht => Or.inl ?_
  unfold TaskTable.cancelOther
  split
  · exact ht
  · exact ht

/-- An entry is taken out whose task is not active. -/
theorem Tracked.pop (h : T.Tracked)
    (hkey : ∀ t, T.entries.get? key = some t → T.isActive t = false) : (T.pop key).Tracked := by
  refine h.evolves evolves_pop fun key' t ht => ?_
  rw [get?_pop]
  by_cases heq : key' = key
  · exact Or.inr (hkey t (heq ▸ ht))
  · exact Or.inl ((if_neg heq).trans ht)

/-- A task that is not active takes its entry out. -/
theorem Tracked.popOwn {t : ℕ} (h : T.Tracked) (ht : T.isActive t = false) :
    (T.popOwn key t).Tracked := by
  unfold TaskTable.popOwn
  split
  · next hkey =>
      refine h.pop fun u hu => ?_
      obtain rfl := Option.some.inj (hkey.symm.trans hu)
      exact ht
  · exact h

/-- **What is taken out and cancelled may have been active**, unless it is the current task. -/
theorem Tracked.popCancel {current : Option ℕ} (h : T.Tracked)
    (hcurrent : ∀ t, T.entries.get? key = some t → current = some t → T.isActive t = false) :
    (T.popCancel key current).Tracked := by
  refine h.evolves evolves_popCancel fun key' t ht => ?_
  unfold TaskTable.popCancel
  split
  · exact Or.inl ht
  · next u hu =>
      by_cases heq : key' = key
      · obtain rfl := Option.some.inj (hu.symm.trans (heq ▸ ht))
        exact Or.inr (isActive_cancelOther (hcurrent u hu))
      · left
        rw [entries_cancelOther, get?_pop, if_neg heq]
        exact ht

/-- All entries are taken out when no task is active. -/
theorem Tracked.clear (h : T.Tracked)
    (hall : ∀ key t, T.entries.get? key = some t → T.isActive t = false) : T.clear.Tracked :=
  h.evolves evolves_clear fun key t ht => Or.inr (hall key t ht)

/-! ## Callbacks that do not compare -/

/-- No other task is stored under a key before the callback of a task of that key has run. -/
def Alone (T : TaskTable κ ρ) (key : κ) : Prop :=
  ∀ t x, T.tasks t = some x → x.key = key → x.status.calledBack = false →
    ∀ u, T.entries.get? key = some u → u = t

/-- No task of the key comes up. -/
theorem Alone.evolves (h : T.Alone key) (hT : Evolves T T') : T'.Alone key := by
  intro t y hy hkey hwaits u hu
  obtain ⟨x, hx, hsame, -, hbefore⟩ := hT.tasks t y hy
  refine h t x hx (hsame.trans hkey) (Bool.eq_false_iff.2 fun hcalled => ?_) u (hT.entries _ _ hu)
  rw [hbefore.calledBack hcalled] at hwaits
  cases hwaits

/-- The callbacks of all earlier tasks of the key have run. -/
def CalledBack (T : TaskTable κ ρ) (key : κ) : Prop :=
  ∀ t x, T.tasks t = some x → x.key = key → x.status.calledBack = true

/-- The first task of a key, or one whose predecessors have been called back, is alone. -/
theorem CalledBack.alone_create {subject : ρ} (h : T.CalledBack key) :
    (T.create key subject).Alone key := by
  intro t x hx hkey hwaits u hu
  rw [get?_create, if_pos rfl] at hu
  obtain rfl := Option.some.inj hu
  obtain ⟨rfl, -⟩ | ⟨-, hold⟩ := create_cases hx
  · rfl
  · rw [h t x hold hkey] at hwaits
    cases hwaits

/-- A task of another key. -/
theorem Alone.create {subject : ρ} {key' : κ} (h : T.Alone key) (hne : key ≠ key') :
    (T.create key' subject).Alone key := by
  intro t x hx hkey hwaits u hu
  rw [get?_create, if_neg hne] at hu
  obtain ⟨-, rfl⟩ | ⟨-, hold⟩ := create_cases hx
  · exact absurd hkey.symm hne
  · exact h t x hold hkey hwaits u hu

/-- A task of another key. -/
theorem Alone.ensure {subject : ρ} {key' : κ} (h : T.Alone key) (hne : key ≠ key') :
    (T.ensure key' subject).Alone key := by
  unfold TaskTable.ensure
  split
  · exact h
  · exact h.create hne

end Rules

end TaskTable

end Python
end Paqto
