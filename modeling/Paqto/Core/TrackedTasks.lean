/-
# Every live task is in its table

A connection task that ends leaves its entry to its callback, and `_reader_finished` pops the
key without a look at what is there.  When a new connection has got the address of the old one
in between, the callback takes out the task of the new connection, which `stop()` then neither
cancels nor waits for (`not_tasks_tracked`).  The callbacks of the other tables compare.

`Kept` says of each step what it must not do: create a connection task while a callback of
its key is still to run, clear a table that has a live task, and take a task out from inside
itself.  In the runs that meet it every live task is in its table, and any other run can go on
to a live task that is in none (`tasks_tracked`).
-/

import Paqto.Core.TaskTables

namespace Paqto
namespace Core
namespace TaskTables

open Python Transition

variable {F : Type} {config : Config}

/-- **The tables of a node keep its tasks.** -/
structure Supervised (F : Type) (config : Config) (s : Node) : Prop where
  /-- A task is stored under its key until it ends or is cancelled. -/
  tracked : s.tables.Tracked
  /-- A task that is found under the address of a connection is done, or is its own. -/
  own : ∀ c key slot t x, s.ids.get? c = some key → slot.address = some key →
    s.tables.entries.get? slot = some t → s.tables.tasks t = some x → x.status.done = false →
    x.subject = some c
  /-- A callback takes out no other task. -/
  callbacks : ∀ t s', step config s (.callback t : Label F) = some s' → ∀ slot u,
    s.tables.entries.get? slot = some u → u ≠ t → s'.tables.entries.get? slot = some u
  /-- `stop()` cancels every task but the one that has called it, and waits for it. -/
  stopped : ∀ skip s', step config s (.stop skip : Label F) = some s' → ∀ t,
    s.tables.isActive t = true → skip ≠ some t →
      (∃ x, s'.tables.tasks t = some x ∧ x.status.cancelled = true) ∧
      ∀ u v, ReachableWhen ((system F config).startingAt s') (fun _ l => l ≠ .clear) u →
        step config u (.clear : Label F) = some v → u.tables.isUnfinished t = false

/-- When a connection task is created, the callbacks of the earlier ones of its key have run. -/
def Node.Vacant (s : Node) (c : ℕ) : Prop :=
  ∀ key, s.ids.get? c = some key → s.tables.isRunning (.reader key) = false →
    s.tables.CalledBack (.reader key)

/-- The task that is taken out is not the one that takes it out. -/
def Node.FromOutside (s : Node) (slot : ℕ → Slot) (c : ℕ) (current : Option ℕ) : Prop :=
  ∀ key t, s.ids.get? c = some key → s.tables.entries.get? (slot key) = some t →
    current = some t → s.tables.isActive t = false

/-- What a step must meet. -/
def Kept (s : Node) : Label F → Prop
  | .ensureIncomingTask c | .connectDiscovered c _ _ _ => s.Vacant c
  | .cancelHeartbeat c current => s.FromOutside .heartbeat c current
  | .closeOutboundChannel c current => s.FromOutside .outbound c current
  | .clear => ∀ slot t, s.tables.entries.get? slot = some t → s.tables.isActive t = false
  | _ => True

/-! ## The invariant -/

/-- What holds in every run of the tables of tasks. -/
structure Inv (s : Node) : Prop where
  tracked : s.tables.Tracked
  alone : ∀ key, s.tables.Alone (.reader key)
  /-- The connection of a task that is not done has the address in its key. -/
  addressed : ∀ t x, s.tables.tasks t = some x → x.status.done = false → ∀ key,
    x.key.address = some key → ∃ c, x.subject = some c ∧ s.ids.get? c = some key
  distinct : ∀ c c' key, s.ids.get? c = some key → s.ids.get? c' = some key → c = c'
  unused : ∀ c, s.nextConnection ≤ c → s.ids.get? c = none

/-- Before the first task. -/
theorem inv_initial : Inv initial where
  tracked := TaskTable.tracked_empty
  alone := fun _ _ _ h => by cases h
  addressed := fun _ _ h => by cases h
  distinct := fun _ _ _ h => by cases h
  unused := fun _ _ => rfl

/-- A step that creates no task. -/
theorem Inv.evolves {s s' : Node} (h : Inv s) (hids : s'.ids = s.ids)
    (hnext : s'.nextConnection = s.nextConnection) (hT : s.tables.Evolves s'.tables)
    (htracked : s'.tables.Tracked) : Inv s' where
  tracked := htracked
  alone := fun key => (h.alone key).evolves hT
  addressed := by
    intro t y hy hdone key haddress
    obtain ⟨x, hx, hkey, hsubject, hbefore⟩ := hT.tasks t y hy
    rw [hids, ← hsubject]
    rw [← hkey] at haddress
    exact h.addressed t x hx (hbefore.done_eq_false hdone) key haddress
  distinct := hids ▸ h.distinct
  unused := hnext ▸ hids ▸ h.unused

/-- A step that leaves the tables as they are. -/
theorem Inv.congr {s s' : Node} (h : Inv s) (hids : s'.ids = s.ids)
    (hnext : s'.nextConnection = s.nextConnection) (htables : s'.tables = s.tables) : Inv s' :=
  h.evolves hids hnext (htables ▸ .refl _) (htables ▸ h.tracked)

/-- A task is created, with a connection that has the address in its key. -/
theorem Inv.create {s : Node} (h : Inv s) {slot : Slot} {subject : Option ℕ}
    (hrunning : s.tables.isRunning slot = false)
    (hreader : ∀ key, slot = .reader key → s.tables.CalledBack slot)
    (hsubject : ∀ key, slot.address = some key →
      ∃ c, subject = some c ∧ s.ids.get? c = some key) :
    Inv { s with tables := s.tables.create slot subject } where
  tracked := h.tracked.create hrunning
  alone := by
    intro key
    by_cases hslot : slot = .reader key
    · subst hslot
      exact (hreader key rfl).alone_create
    · exact (h.alone key).create (Ne.symm hslot)
  addressed := by
    intro t x hx hdone key haddress
    obtain ⟨-, rfl⟩ | ⟨-, hold⟩ := TaskTable.create_cases hx
    · exact hsubject key haddress
    · exact h.addressed t x hold hdone key haddress
  distinct := h.distinct
  unused := h.unused

/-- The same, of a table whose callbacks compare. -/
theorem Inv.ensure {s : Node} (h : Inv s) {slot : Slot} {subject : Option ℕ}
    (hreader : ∀ key, slot ≠ .reader key)
    (hsubject : ∀ key, slot.address = some key →
      ∃ c, subject = some c ∧ s.ids.get? c = some key) :
    Inv { s with tables := s.tables.ensure slot subject } := by
  unfold TaskTable.ensure
  split
  · exact h
  · next hrunning =>
      exact h.create (Bool.eq_false_iff.2 hrunning) (fun key hslot => absurd hslot (hreader key))
        hsubject

/-! ## Steps that create a task -/

/-- A task is entered for a connection whose last one has been called back. -/
theorem Inv.registerConnectionTask {s : Node} (h : Inv s) {key c : ℕ}
    (hid : s.ids.get? c = some key) (hrunning : s.tables.isRunning (.reader key) = false)
    (hcalled : s.tables.CalledBack (.reader key)) : Inv (s.registerConnectionTask key c) := by
  refine h.create hrunning (fun _ _ => hcalled) fun key' haddress => ⟨c, rfl, ?_⟩
  obtain rfl := Option.some.inj haddress
  exact hid

/-- `_ensure_heartbeat` -/
theorem Inv.ensureHeartbeat {s : Node} (h : Inv s) {key c : ℕ} (hid : s.ids.get? c = some key)
    (session : ProtocolSession F) : Inv (s.ensureHeartbeat config key c session) := by
  unfold Node.ensureHeartbeat
  split
  · exact h
  · refine h.ensure (fun _ => by rintro ⟨⟩) fun key' haddress => ⟨c, rfl, ?_⟩
    obtain rfl := Option.some.inj haddress
    exact hid

/-- `_ensure_outbound_channel` -/
theorem Inv.ensureOutboundChannel {s : Node} (h : Inv s) {key c : ℕ}
    (hid : s.ids.get? c = some key) : Inv (s.ensureOutboundChannel key c) := by
  refine h.ensure (fun _ => by rintro ⟨⟩) fun key' haddress => ⟨c, rfl, ?_⟩
  obtain rfl := Option.some.inj haddress
  exact hid

/-- `_ensure_reader` -/
theorem Inv.ensureReader {s : Node} (h : Inv s) {key c : ℕ} (hid : s.ids.get? c = some key)
    (hkept : s.tables.isRunning (.reader key) = false → s.tables.CalledBack (.reader key))
    (session : ProtocolSession F) : Inv (s.ensureReader config key c session) := by
  unfold Node.ensureReader
  split
  · exact h
  · next hrunning =>
      have hrunning := Bool.eq_false_iff.2 hrunning
      have hregistered := h.registerConnectionTask hid hrunning (hkept hrunning)
      exact hregistered.ensureHeartbeat hid session

/-- The task of an incoming connection. -/
theorem Inv.ensureIncomingTask {s : Node} (h : Inv s) {key c : ℕ} (hid : s.ids.get? c = some key)
    (hkept : s.tables.isRunning (.reader key) = false → s.tables.CalledBack (.reader key)) :
    Inv (s.ensureIncomingTask key c) := by
  unfold Node.ensureIncomingTask
  split
  · exact h
  · next hrunning =>
      have hrunning := Bool.eq_false_iff.2 hrunning
      exact h.registerConnectionTask hid hrunning (hkept hrunning)

/-- `_schedule_reconnect` -/
theorem Inv.scheduleReconnect {s : Node} (h : Inv s) (peerId : Str) :
    Inv (s.scheduleReconnect config peerId) := by
  unfold Node.scheduleReconnect
  split
  · exact h
  · split
    · exact h
    · exact h.ensure (fun _ => by rintro ⟨⟩) fun key haddress => by cases haddress

/-! ## Steps that end, cancel or take out a task -/

/-- `_cancel_reconnect` -/
theorem Inv.cancelReconnect {s : Node} (h : Inv s) (peerId : Str) (current : Option ℕ) :
    Inv (s.cancelReconnect peerId current) := by
  unfold Node.cancelReconnect
  split
  · exact h
  · exact h.evolves rfl rfl TaskTable.evolves_cancelOther h.tracked.cancelOther

/-- An entry is taken out with its task cancelled, or with a task that is over. -/
theorem Inv.popCancel {s : Node} (h : Inv s) {slot : Slot} {current : Option ℕ}
    (hkept : ∀ t, s.tables.entries.get? slot = some t → current = some t →
      s.tables.isActive t = false) :
    Inv { s with tables := s.tables.popCancel slot current } :=
  h.evolves rfl rfl TaskTable.evolves_popCancel (h.tracked.popCancel hkept)

/-- A task moves on. -/
theorem Inv.updateTask {s : Node} (h : Inv s) (t : ℕ) {f : TaskStatus → TaskStatus}
    (hf : ∀ x, TaskStatus.Before x (f x)) :
    Inv { s with tables := s.tables.updateTask t f } :=
  h.evolves rfl rfl (TaskTable.evolves_updateTask hf) (h.tracked.updateTask hf)

/-- A task that is over is not active. -/
theorem isActive_done {s : Node} {t : ℕ} {x : Task Slot (Option ℕ)}
    (hx : s.tables.tasks t = some x) (hdone : x.status.done = true) :
    s.tables.isActive t = false := by
  rw [TaskTable.isActive_of hx, TaskStatus.active, hdone, Bool.not_true, Bool.false_and]

/-- A task ends. -/
theorem Inv.finish {s : Node} (h : Inv s) {t : ℕ} {x : Task Slot (Option ℕ)}
    (hx : s.tables.tasks t = some x) :
    Inv { s.left t x.key with tables := (s.left t x.key).tables.updateTask t .finish } := by
  have hupdated := h.updateTask t TaskStatus.before_finish
  cases hkey : x.key with
  | heartbeat key =>
      change Inv { s with tables := (s.tables.popOwn (.heartbeat key) t).updateTask t .finish }
      rw [TaskTable.updateTask_popOwn]
      have hdone := isActive_done (s := { s with tables := s.tables.updateTask t .finish })
        (TaskTable.tasks_updateTask hx _) rfl
      exact hupdated.evolves rfl rfl TaskTable.evolves_popOwn (hupdated.tracked.popOwn hdone)
  | reader key => exact hupdated
  | outbound key => exact hupdated
  | reconnect peerId => exact hupdated

/-- A callback that compares. -/
theorem Inv.popOwn {s : Node} (h : Inv s) {slot : Slot} {t : ℕ}
    (ht : s.tables.isActive t = false) : Inv { s with tables := s.tables.popOwn slot t } :=
  h.evolves rfl rfl TaskTable.evolves_popOwn (h.tracked.popOwn ht)

/-- The callback of a task runs. -/
theorem Inv.finished {s : Node} (h : Inv s) {t : ℕ} {x : Task Slot (Option ℕ)}
    (hx : s.tables.tasks t = some x) (hdone : x.status.done = true)
    (hwaits : x.status.calledBack = false) :
    Inv ({ s with tables := s.tables.updateTask t .callBack }.finished t x.key) := by
  have hupdated := h.updateTask t TaskStatus.before_callBack
  have hinactive := isActive_done (s := { s with tables := s.tables.updateTask t .callBack })
    (TaskTable.tasks_updateTask hx _) hdone
  cases hkey : x.key with
  | reader key =>
      refine hupdated.evolves rfl rfl TaskTable.evolves_pop (hupdated.tracked.pop fun u hu => ?_)
      obtain rfl := h.alone key t x hx hkey hwaits u hu
      exact hinactive
  | outbound key => exact hupdated.popOwn hinactive
  | heartbeat key => exact hupdated.popOwn hinactive
  | reconnect peerId => exact hupdated.popOwn hinactive

/-- `_stop_locked` up to its first suspension. -/
theorem Inv.stopLocked {s : Node} (h : Inv s) (skip : Option ℕ) : Inv (s.stopLocked skip) :=
  h.evolves rfl rfl (TaskTable.evolves_cancelAll _) (h.tracked.cancelAll _)

/-- The tables are emptied when no task of theirs is active. -/
theorem Inv.clearTables {s : Node} (h : Inv s)
    (hkept : ∀ slot t, s.tables.entries.get? slot = some t → s.tables.isActive t = false) :
    Inv s.clearTables :=
  h.evolves rfl rfl TaskTable.evolves_clear (h.tracked.clear hkept)

/-! ## Connections -/

/-- A connection is made at an address that nobody has. -/
theorem Inv.opened {s : Node} (h : Inv s) {key : ℕ} (hkey : key ∉ s.ids.values) :
    Inv { s with ids := s.ids.set s.nextConnection key, nextConnection := s.nextConnection + 1 } where
  tracked := h.tracked
  alone := h.alone
  addressed := by
    intro t x hx hdone key' haddress
    obtain ⟨c, hc, hid⟩ := h.addressed t x hx hdone key' haddress
    refine ⟨c, hc, ?_⟩
    change (s.ids.set s.nextConnection key).get? c = some key'
    rw [Dict.get?_set, if_neg]
    · exact hid
    · rintro rfl
      rw [h.unused _ (Nat.le_refl _)] at hid
      cases hid
  distinct := by
    intro c c' key' hc hc'
    have hold : ∀ c'', s.ids.get? c'' ≠ some key := fun c'' hid =>
      hkey (s.ids.mem_values.2 ⟨c'', hid⟩)
    change (s.ids.set s.nextConnection key).get? c = some key' at hc
    change (s.ids.set s.nextConnection key).get? c' = some key' at hc'
    rw [Dict.get?_set] at hc hc'
    split at hc
    · obtain rfl := Option.some.inj hc
      split at hc'
      · omega
      · exact absurd hc' (hold c')
    · split at hc'
      · obtain rfl := Option.some.inj hc'
        exact absurd hc (hold c)
      · exact h.distinct c c' key' hc hc'
  unused := by
    intro c hc
    change (s.ids.set s.nextConnection key).get? c = none
    change s.nextConnection + 1 ≤ c at hc
    rw [Dict.get?_set, if_neg (by omega)]
    exact h.unused c (by omega)

/-- A connection that nothing refers to has no active task. -/
theorem not_refersTo {s : Node} {c t : ℕ} {x : Task Slot (Option ℕ)} (h : s.refersTo c = false)
    (hx : s.tables.tasks t = some x) (hdone : x.status.done = false) : x.subject ≠ some c := by
  intro hsubject
  have hall := List.any_eq_false.1 h t (List.mem_range.2 (s.tables.lt_next hx))
  rw [hx, Option.any_some, hdone, hsubject] at hall
  exact hall (by simp)

/-- **A connection goes once no task that is not done refers to it.** -/
theorem Inv.released {s : Node} (h : Inv s) {c : ℕ} (hc : s.refersTo c = false) :
    Inv { s with ids := s.ids.erase c } where
  tracked := h.tracked
  alone := h.alone
  addressed := by
    intro t x hx hdone key haddress
    obtain ⟨c', hc', hid⟩ := h.addressed t x hx hdone key haddress
    refine ⟨c', hc', ?_⟩
    change (s.ids.erase c).get? c' = some key
    rw [Dict.get?_erase, if_neg]
    · exact hid
    · rintro rfl
      exact not_refersTo hc hx hdone hc'
  distinct := by
    intro c₁ c₂ key h₁ h₂
    have hold : ∀ c', (s.ids.erase c).get? c' = some key → s.ids.get? c' = some key := by
      intro c' hc'
      rw [Dict.get?_erase] at hc'
      split at hc'
      · cases hc'
      · exact hc'
    exact h.distinct c₁ c₂ key (hold c₁ h₁) (hold c₂ h₂)
  unused := by
    intro c' hc'
    change (s.ids.erase c).get? c' = none
    rw [Dict.get?_erase]
    split
    · rfl
    · exact h.unused c' hc'

/-! ## Steps and runs -/

/-- **Every step keeps the invariant**, when it is one that keeps the tables. -/
theorem Inv.step {s s' : Node} {l : Label F} (h : Inv s) (hkept : Kept s l)
    (hs : step config s l = some s') : Inv s' := by
  cases l with
  | surroundings new =>
      obtain rfl := Option.some.inj hs
      exact h.congr rfl rfl rfl
  | opened key =>
      obtain ⟨hkey, hs⟩ := Option.ite_none_left_eq_some.1 hs
      obtain rfl := Option.some.inj hs
      exact h.opened hkey
  | released c =>
      obtain ⟨hc, hs⟩ := Option.ite_none_left_eq_some.1 hs
      obtain rfl := Option.some.inj hs
      exact h.released (Bool.eq_false_iff.2 hc)
  | ensureIncomingTask c =>
      obtain ⟨key, hid, rfl⟩ := Option.map_eq_some_iff.1 hs
      exact h.ensureIncomingTask hid (hkept key hid)
  | connectDiscovered c session peerId current =>
      obtain ⟨-, hs⟩ := Option.ite_none_right_eq_some.1 hs
      obtain ⟨key, hid, rfl⟩ := Option.map_eq_some_iff.1 hs
      exact (h.ensureReader hid (hkept key hid) session).cancelReconnect peerId current
  | ensureOutboundChannel c =>
      obtain ⟨key, hid, rfl⟩ := Option.map_eq_some_iff.1 hs
      exact h.ensureOutboundChannel hid
  | ensureHeartbeat c session =>
      obtain ⟨key, hid, rfl⟩ := Option.map_eq_some_iff.1 hs
      exact h.ensureHeartbeat hid session
  | cancelHeartbeat c current =>
      obtain ⟨-, hs⟩ := Option.ite_none_right_eq_some.1 hs
      obtain ⟨key, hid, rfl⟩ := Option.map_eq_some_iff.1 hs
      exact h.popCancel fun t => hkept key t hid
  | closeOutboundChannel c current =>
      obtain ⟨-, hs⟩ := Option.ite_none_right_eq_some.1 hs
      obtain ⟨key, hid, rfl⟩ := Option.map_eq_some_iff.1 hs
      exact h.popCancel fun t => hkept key t hid
  | scheduleReconnect peerId =>
      obtain rfl := Option.some.inj hs
      exact h.scheduleReconnect peerId
  | disconnect peerId current =>
      obtain ⟨-, hs⟩ := Option.ite_none_right_eq_some.1 hs
      obtain rfl := Option.some.inj hs
      exact h.cancelReconnect peerId current
  | begin t =>
      obtain ⟨-, hs⟩ := Option.ite_none_right_eq_some.1 hs
      obtain rfl := Option.some.inj hs
      exact h.updateTask t TaskStatus.before_begin
  | finish t =>
      rw [TaskTables.step] at hs
      split at hs
      · cases hs
      · next x hx =>
          obtain ⟨-, hs⟩ := Option.ite_none_left_eq_some.1 hs
          obtain rfl := Option.some.inj hs
          split
          · exact h.finish hx
          · exact h.updateTask t TaskStatus.before_finish
  | callback t =>
      rw [TaskTables.step] at hs
      split at hs
      · cases hs
      · next x hx =>
          obtain ⟨hwaits, hs⟩ := Option.ite_none_right_eq_some.1 hs
          obtain rfl := Option.some.inj hs
          rw [Bool.and_eq_true, Bool.not_eq_true'] at hwaits
          exact h.finished hx hwaits.1 hwaits.2
  | stop skip =>
      obtain ⟨-, hs⟩ := Option.ite_none_right_eq_some.1 hs
      obtain rfl := Option.some.inj hs
      exact h.stopLocked skip
  | clear =>
      rw [TaskTables.step] at hs
      split at hs
      · cases hs
      · obtain ⟨-, hs⟩ := Option.ite_none_left_eq_some.1 hs
        obtain rfl := Option.some.inj hs
        exact h.clearTables hkept
  | start =>
      obtain ⟨-, hs⟩ := Option.ite_none_left_eq_some.1 hs
      obtain rfl := Option.some.inj hs
      exact h.congr rfl rfl rfl

/-- **The invariant of the runs that meet the condition.** -/
theorem inv_run {s : Node} (h : ReachableWhen (system F config) Kept s) : Inv s :=
  h.invariant (fun _ hinit => hinit ▸ inv_initial) fun _ _ _ hInv hkept hs => hInv.step hkept hs

/-! ## What `stop()` waits for -/

/-- The node runs or stops as before. -/
structure SameLifecycle (s s' : Node) : Prop where
  running : s'.running = s.running
  stopping : s'.stopping = s.stopping

/-- One after the other. -/
theorem SameLifecycle.trans {s s' s'' : Node} (h : SameLifecycle s s')
    (h' : SameLifecycle s' s'') : SameLifecycle s s'' :=
  ⟨h'.running.trans h.running, h'.stopping.trans h.stopping⟩

/-- A heartbeat leaves the lifecycle alone. -/
theorem sameLifecycle_ensureHeartbeat (config : Config) (s : Node) (key c : ℕ) (session : ProtocolSession F) :
    SameLifecycle s (s.ensureHeartbeat config key c session) := by
  unfold Node.ensureHeartbeat
  split <;> exact ⟨rfl, rfl⟩

/-- So does a reader. -/
theorem sameLifecycle_ensureReader (s : Node) (key c : ℕ) (session : ProtocolSession F) :
    SameLifecycle s (s.ensureReader config key c session) := by
  unfold Node.ensureReader
  split
  · exact ⟨rfl, rfl⟩
  · have hsame := sameLifecycle_ensureHeartbeat config (s.registerConnectionTask key c) key c session
    exact ⟨hsame.running, hsame.stopping⟩

/-- So does the task of an incoming connection. -/
theorem sameLifecycle_ensureIncomingTask (s : Node) (key c : ℕ) :
    SameLifecycle s (s.ensureIncomingTask key c) := by
  unfold Node.ensureIncomingTask
  split <;> exact ⟨rfl, rfl⟩

/-- So does a reconnect loop. -/
theorem sameLifecycle_scheduleReconnect (s : Node) (peerId : Str) :
    SameLifecycle s (s.scheduleReconnect config peerId) := by
  unfold Node.scheduleReconnect
  split
  · exact ⟨rfl, rfl⟩
  · split <;> exact ⟨rfl, rfl⟩

/-- So does its end. -/
theorem sameLifecycle_cancelReconnect (s : Node) (peerId : Str) (current : Option ℕ) :
    SameLifecycle s (s.cancelReconnect peerId current) := by
  unfold Node.cancelReconnect
  split <;> exact ⟨rfl, rfl⟩

/-- So does a task that ends. -/
theorem sameLifecycle_left (s : Node) (t : ℕ) (slot : Slot) : SameLifecycle s (s.left t slot) := by
  cases slot <;> exact ⟨rfl, rfl⟩

/-- So does its callback. -/
theorem sameLifecycle_finished (s : Node) (t : ℕ) (slot : Slot) :
    SameLifecycle s (s.finished t slot) := by
  cases slot <;> exact ⟨rfl, rfl⟩

/-- Only a call of `stop()` or `start()` and the end of `stop()` make a node run or stop. -/
theorem sameLifecycle_step {s s' : Node} {l : Label F} (hs : step config s l = some s')
    (hstop : ∀ skip, l ≠ .stop skip) (hclear : l ≠ .clear) (hstart : l ≠ .start) :
    SameLifecycle s s' := by
  cases l with
  | stop skip => exact absurd rfl (hstop skip)
  | clear => exact absurd rfl hclear
  | start => exact absurd rfl hstart
  | surroundings new =>
      obtain rfl := Option.some.inj hs
      exact ⟨rfl, rfl⟩
  | opened key =>
      obtain ⟨-, hs⟩ := Option.ite_none_left_eq_some.1 hs
      obtain rfl := Option.some.inj hs
      exact ⟨rfl, rfl⟩
  | released c =>
      obtain ⟨-, hs⟩ := Option.ite_none_left_eq_some.1 hs
      obtain rfl := Option.some.inj hs
      exact ⟨rfl, rfl⟩
  | ensureIncomingTask c =>
      obtain ⟨key, -, rfl⟩ := Option.map_eq_some_iff.1 hs
      exact sameLifecycle_ensureIncomingTask s key c
  | connectDiscovered c session peerId current =>
      obtain ⟨-, hs⟩ := Option.ite_none_right_eq_some.1 hs
      obtain ⟨key, -, rfl⟩ := Option.map_eq_some_iff.1 hs
      exact (sameLifecycle_ensureReader s key c session).trans
        (sameLifecycle_cancelReconnect _ peerId current)
  | ensureOutboundChannel c =>
      obtain ⟨key, -, rfl⟩ := Option.map_eq_some_iff.1 hs
      exact ⟨rfl, rfl⟩
  | ensureHeartbeat c session =>
      obtain ⟨key, -, rfl⟩ := Option.map_eq_some_iff.1 hs
      exact sameLifecycle_ensureHeartbeat config s key c session
  | cancelHeartbeat c current =>
      obtain ⟨-, hs⟩ := Option.ite_none_right_eq_some.1 hs
      obtain ⟨key, -, rfl⟩ := Option.map_eq_some_iff.1 hs
      exact ⟨rfl, rfl⟩
  | closeOutboundChannel c current =>
      obtain ⟨-, hs⟩ := Option.ite_none_right_eq_some.1 hs
      obtain ⟨key, -, rfl⟩ := Option.map_eq_some_iff.1 hs
      exact ⟨rfl, rfl⟩
  | scheduleReconnect peerId =>
      obtain rfl := Option.some.inj hs
      exact sameLifecycle_scheduleReconnect s peerId
  | disconnect peerId current =>
      obtain ⟨-, hs⟩ := Option.ite_none_right_eq_some.1 hs
      obtain rfl := Option.some.inj hs
      exact sameLifecycle_cancelReconnect s peerId current
  | begin t =>
      obtain ⟨-, hs⟩ := Option.ite_none_right_eq_some.1 hs
      obtain rfl := Option.some.inj hs
      exact ⟨rfl, rfl⟩
  | finish t =>
      rw [step] at hs
      split at hs
      · cases hs
      · next x hx =>
          obtain ⟨-, hs⟩ := Option.ite_none_left_eq_some.1 hs
          obtain rfl := Option.some.inj hs
          split
          · exact (sameLifecycle_left s t x.key).trans ⟨rfl, rfl⟩
          · exact ⟨rfl, rfl⟩
  | callback t =>
      rw [step] at hs
      split at hs
      · cases hs
      · next x hx =>
          obtain ⟨-, hs⟩ := Option.ite_none_right_eq_some.1 hs
          obtain rfl := Option.some.inj hs
          have hsame := sameLifecycle_finished
            { s with tables := s.tables.updateTask t .callBack } t x.key
          exact ⟨hsame.running, hsame.stopping⟩

/-- `_stop_locked` waits for the tasks `ts`. -/
structure Stops (ts : List ℕ) (s : Node) : Prop where
  running : s.running = false
  stopping : s.stopping = some ts

/-- Until it clears the tables, `_stop_locked` waits for the same tasks. -/
theorem Stops.step {ts : List ℕ} {s s' : Node} {l : Label F} (h : Stops ts s)
    (hclear : l ≠ .clear) (hs : step config s l = some s') : Stops ts s' := by
  have hstop : ∀ skip, l ≠ .stop skip := by
    rintro skip rfl
    obtain ⟨hruns, -⟩ := Option.ite_none_right_eq_some.1 hs
    rw [h.running] at hruns
    cases hruns
  have hstart : l ≠ .start := by
    rintro rfl
    obtain ⟨hidle, -⟩ := Option.ite_none_left_eq_some.1 hs
    rw [h.stopping, h.running] at hidle
    exact hidle rfl
  have hsame := sameLifecycle_step hs hstop hclear hstart
  exact ⟨hsame.running.trans h.running, hsame.stopping.trans h.stopping⟩

/-- **The tasks that a stop has gathered stay gathered** until it empties the tables. -/
theorem stops_run {ts : List ℕ} {s u : Node} (h : Stops ts s)
    (hu : ReachableWhen ((system F config).startingAt s) (fun _ l => l ≠ .clear) u) :
    Stops ts u :=
  hu.invariant (fun _ hinit => hinit ▸ h) fun _ _ _ hstops hclear hs => hstops.step hclear hs

/-- **`stop()` cancels what the tables have, and waits for it.** -/
theorem stop_waits {s s' : Node} {skip : Option ℕ} {t : ℕ} {key : Slot}
    (hs : step config s (.stop skip : Label F) = some s')
    (hstored : s.tables.entries.get? key = some t) (hactive : s.tables.isActive t = true)
    (hskip : skip ≠ some t) :
    (∃ x, s'.tables.tasks t = some x ∧ x.status.cancelled = true) ∧
      ∀ u v, ReachableWhen ((system F config).startingAt s') (fun _ l => l ≠ .clear) u →
        step config u (.clear : Label F) = some v → u.tables.isUnfinished t = false := by
  obtain ⟨-, hs⟩ := Option.ite_none_right_eq_some.1 hs
  obtain rfl := Option.some.inj hs
  have hgathered : t ∈ s.gathered skip :=
    List.mem_filter.2 ⟨(Dict.mem_values _).2 ⟨key, hstored⟩, decide_eq_true hskip⟩
  refine ⟨?_, fun u v hu hv => ?_⟩
  · obtain ⟨x, hx, hx'⟩ := (Option.any_eq_true _ _).1 hactive
    have hdone := (TaskStatus.active_iff.1 hx').1
    refine ⟨_, TaskTable.tasks_update hx fun u y => if u ∈ s.gathered skip then y.cancel else y, ?_⟩
    rw [if_pos hgathered, TaskStatus.cancel, hdone, Bool.not_false, Bool.or_true]
  · have hstops : Stops (s.gathered skip) u := stops_run ⟨rfl, rfl⟩ hu
    rw [step, hstops.stopping] at hv
    obtain ⟨hended, -⟩ := Option.ite_none_left_eq_some.1 hv
    exact Bool.eq_false_iff.2 (List.any_eq_false.1 (Bool.eq_false_iff.2 hended) t hgathered)

/-- A callback takes out no other task. -/
theorem Inv.callback {s s' : Node} (h : Inv s) {t u : ℕ} {slot : Slot}
    (hs : TaskTables.step config s (.callback t : Label F) = some s')
    (hu : s.tables.entries.get? slot = some u) (hne : u ≠ t) :
    s'.tables.entries.get? slot = some u := by
  rw [TaskTables.step] at hs
  split at hs
  · cases hs
  · next x hx =>
      obtain ⟨hwaits, hs⟩ := Option.ite_none_right_eq_some.1 hs
      obtain rfl := Option.some.inj hs
      rw [Bool.and_eq_true, Bool.not_eq_true'] at hwaits
      cases hkey : x.key with
      | reader key =>
          change ((s.tables.updateTask t .callBack).pop (.reader key)).entries.get? slot = some u
          rw [TaskTable.get?_pop, if_neg]
          · exact hu
          · rintro rfl
            exact hne (h.alone key t x hx hkey hwaits.2 u hu)
      | outbound key => exact TaskTable.get?_popOwn hu hne
      | heartbeat key => exact TaskTable.get?_popOwn hu hne
      | reconnect peerId => exact TaskTable.get?_popOwn hu hne

/-- What the invariant says of the tables. -/
theorem Inv.supervised {s : Node} (h : Inv s) : Supervised F config s where
  tracked := h.tracked
  own := by
    intro c key slot t x hid haddress hstored hx hdone
    obtain ⟨y, hy, hkey⟩ := s.tables.keyed slot t hstored
    obtain rfl := Option.some.inj (hx.symm.trans hy)
    rw [← hkey] at haddress
    obtain ⟨c', hc', hid'⟩ := h.addressed t x hx hdone key haddress
    rw [hc', h.distinct c c' key hid hid']
  callbacks := fun t s' hs slot u hu hne => h.callback hs hu hne
  stopped := by
    intro skip s' hs t hactive hskip
    obtain ⟨x, hx, hx'⟩ := (Option.any_eq_true _ _).1 hactive
    exact stop_waits hs (h.tracked t x hx hx') hactive hskip

/-! ## What the condition leaves out -/

/-- An active task without an entry is not tracked. -/
theorem not_tracked_of {s : Node} {t : ℕ} {x : Task Slot (Option ℕ)}
    (hx : s.tables.tasks t = some x) (hactive : x.status.active = true)
    (hnone : s.tables.entries.get? x.key = none) : ¬ s.tables.Tracked := by
  intro h
  rw [h t x hx hactive] at hnone
  cases hnone

/-- The callback of a connection task takes out the task that has taken its place. -/
theorem callback_loses (F : Type) (config : Config) {s : Node} {t u key : ℕ} {x y : Task Slot (Option ℕ)}
    (hx : s.tables.tasks t = some x) (hxkey : x.key = .reader key) (hdone : x.status.done = true)
    (hwaits : x.status.calledBack = false) (hy : s.tables.tasks u = some y)
    (hykey : y.key = .reader key) (hactive : y.status.active = true) :
    ∃ v, step config s (.callback t : Label F) = some v ∧ ¬ v.tables.Tracked := by
  have hne : u ≠ t := by
    rintro rfl
    obtain rfl := Option.some.inj (hx.symm.trans hy)
    rw [(TaskStatus.active_iff.1 hactive).1] at hdone
    cases hdone
  refine ⟨{ s with tables := s.tables.updateTask t .callBack }.readerFinished key, ?_, ?_⟩
  · rw [step, hx]
    simp only [hdone, hwaits, hxkey, Bool.not_false, Bool.and_true, if_true, Node.finished]
  · have hkept := TaskTable.tasks_update hy fun v z => if v = t then z.callBack else z
    refine not_tracked_of hkept ?_ ?_
    · rw [if_neg hne]
      exact hactive
    · change ((s.tables.updateTask t .callBack).pop (.reader key)).entries.get? y.key = none
      rw [hykey, TaskTable.get?_pop, if_pos rfl]

/-- So it does when it has yet to end. -/
theorem successor_lost {s : Node} {t u key : ℕ} {x y : Task Slot (Option ℕ)}
    (hx : s.tables.tasks t = some x) (hxkey : x.key = .reader key)
    (hinactive : x.status.active = false) (hwaits : x.status.calledBack = false)
    (hy : s.tables.tasks u = some y) (hykey : y.key = .reader key)
    (hactive : y.status.active = true) :
    ∃ v, Reachable ((system F config).startingAt s) v ∧ ¬ v.tables.Tracked := by
  have hstart : Reachable ((system F config).startingAt s) s := .init rfl
  by_cases hdone : x.status.done = true
  · obtain ⟨v, hv, hlost⟩ := callback_loses F config hx hxkey hdone hwaits hy hykey
      hactive
    exact ⟨v, hstart.next (.callback t) hv, hlost⟩
  · have hdone : x.status.done = false := Bool.eq_false_iff.2 hdone
    have hcancelled : x.status.cancelled = true := by
      rw [TaskStatus.active, hdone, Bool.not_false, Bool.true_and, Bool.not_eq_false'] at hinactive
      exact hinactive
    have hne : u ≠ t := by
      rintro rfl
      obtain rfl := Option.some.inj (hx.symm.trans hy)
      rw [hinactive] at hactive
      cases hactive
    have hfinish : step config s (.finish t : Label F) =
        some { s with tables := s.tables.updateTask t .finish } := by
      rw [step, hx]
      simp only [hdone, hcancelled, hxkey, Node.left, ite_self, Bool.not_true, Bool.and_false,
        Bool.or_self, Bool.false_eq_true, if_false]
    have hkept := TaskTable.tasks_update hy fun v z => if v = t then z.finish else z
    rw [if_neg hne] at hkept
    obtain ⟨v, hv, hlost⟩ := callback_loses F config
      (s := { s with tables := s.tables.updateTask t .finish })
      (TaskTable.tasks_updateTask hx .finish) hxkey rfl hwaits hkept hykey hactive
    exact ⟨v, (hstart.next (.finish t) hfinish).next (.callback t) hv, hlost⟩

/-- `_ensure_heartbeat` keeps the other tasks. -/
theorem tasks_ensureHeartbeat {s : Node} {t key c : ℕ} {x : Task Slot (Option ℕ)}
    (hx : s.tables.tasks t = some x) (session : ProtocolSession F) :
    (s.ensureHeartbeat config key c session).tables.tasks t = some x := by
  unfold Node.ensureHeartbeat
  split
  · exact hx
  · exact TaskTable.tasks_ensure hx

/-- `_cancel_reconnect` keeps the task of a reader. -/
theorem tasks_cancelReconnect {s : Node} {t key : ℕ} {x : Task Slot (Option ℕ)}
    (hx : s.tables.tasks t = some x) (hkey : x.key = .reader key) (peerId : Str)
    (current : Option ℕ) : (s.cancelReconnect peerId current).tables.tasks t = some x := by
  unfold Node.cancelReconnect
  split
  · exact hx
  · next u hu =>
      refine TaskTable.tasks_cancelOther hx ?_
      rintro rfl
      obtain ⟨y, hy, hykey⟩ := s.tables.keyed _ t hu
      obtain rfl := Option.some.inj (hx.symm.trans hy)
      rw [hkey] at hykey
      cases hykey

/-- A connection task that is created too early gets lost, whatever else the step does. -/
theorem created_lost {s s' : Node} (h : Inv s) {key c : ℕ} (hid : s.ids.get? c = some key)
    (hvacant : ¬ s.Vacant c)
    (hkeep : s.tables.isRunning (.reader key) = false → ∀ t x,
      (s.registerConnectionTask key c).tables.tasks t = some x → x.key = .reader key →
        s'.tables.tasks t = some x) :
    ∃ v, Reachable ((system F config).startingAt s') v ∧ ¬ v.tables.Tracked := by
  unfold Node.Vacant TaskTable.CalledBack at hvacant
  push Not at hvacant
  obtain ⟨key', hid', hrunning, t, x, hx, hxkey, hwaits⟩ := hvacant
  obtain rfl := Option.some.inj (hid.symm.trans hid')
  have hinactive : x.status.active = false := by
    refine Bool.eq_false_iff.2 fun hactive => ?_
    have hstored := h.tracked t x hx hactive
    rw [hxkey] at hstored
    rw [TaskTable.isRunning, hstored, Option.any_some, TaskTable.isUnfinished_of hx,
      (TaskStatus.active_iff.1 hactive).1] at hrunning
    cases hrunning
  exact successor_lost (hkeep hrunning t x (TaskTable.tasks_create hx) hxkey) hxkey hinactive
    (Bool.eq_false_iff.2 hwaits) (hkeep hrunning _ _ TaskTable.tasks_create_self rfl) rfl rfl

/-- A task that takes itself out is lost. -/
theorem popped_lost {s : Node} {key c : ℕ} {slot : ℕ → Slot} {current : Option ℕ}
    (hid : s.ids.get? c = some key) (h : ¬ s.FromOutside slot c current) :
    ¬ (s.tables.popCancel (slot key) current).Tracked := by
  unfold Node.FromOutside at h
  push Not at h
  obtain ⟨key', t, hid', hstored, hcurrent, hactive⟩ := h
  obtain rfl := Option.some.inj (hid.symm.trans hid')
  obtain ⟨x, hx, hkey⟩ := s.tables.keyed _ t hstored
  have hactive : x.status.active = true := by
    rw [← TaskTable.isActive_of hx]
    exact Bool.eq_true_of_not_eq_false hactive
  rw [TaskTable.popCancel, hstored]
  refine not_tracked_of (x := x) (t := t)
    (s := { s with tables := (s.tables.pop (slot key)).cancelOther t current }) ?_ hactive ?_
  · rw [TaskTable.cancelOther, if_pos hcurrent]
    exact hx
  · rw [TaskTable.entries_cancelOther, TaskTable.get?_pop, if_pos hkey]

/-- A live task that is in a table when the tables are cleared is lost. -/
theorem cleared_lost {s : Node}
    (h : ¬ ∀ slot t, s.tables.entries.get? slot = some t → s.tables.isActive t = false) :
    ¬ s.clearTables.tables.Tracked := by
  push Not at h
  obtain ⟨slot, t, hstored, hactive⟩ := h
  obtain ⟨x, hx, -⟩ := s.tables.keyed slot t hstored
  rw [TaskTable.isActive_of hx] at hactive
  exact not_tracked_of hx (Bool.eq_true_of_not_eq_false hactive) (Dict.get?_empty _)

/-- **A step that does not meet the condition loses a live task.** -/
theorem Inv.unkept {s s' : Node} {l : Label F} (h : Inv s)
    (hs : TaskTables.step config s l = some s') (hl : ¬ Kept s l) :
    ∃ v, Reachable ((system F config).startingAt s') v ∧ ¬ v.tables.Tracked := by
  have hstart : Reachable ((system F config).startingAt s') s' := .init rfl
  cases l with
  | ensureIncomingTask c =>
      obtain ⟨key, hid, rfl⟩ := Option.map_eq_some_iff.1 hs
      refine created_lost h hid hl fun hrunning t x hx _ => ?_
      rw [Node.ensureIncomingTask, if_neg (Bool.eq_false_iff.1 hrunning)]
      exact hx
  | connectDiscovered c session peerId current =>
      obtain ⟨-, hs⟩ := Option.ite_none_right_eq_some.1 hs
      obtain ⟨key, hid, rfl⟩ := Option.map_eq_some_iff.1 hs
      refine created_lost h hid hl fun hrunning t x hx hkey => ?_
      rw [Node.connectDiscovered, Node.ensureReader, if_neg (Bool.eq_false_iff.1 hrunning)]
      exact tasks_cancelReconnect (tasks_ensureHeartbeat hx session) hkey peerId current
  | cancelHeartbeat c current =>
      obtain ⟨-, hs⟩ := Option.ite_none_right_eq_some.1 hs
      obtain ⟨key, hid, rfl⟩ := Option.map_eq_some_iff.1 hs
      exact ⟨_, hstart, popped_lost hid hl⟩
  | closeOutboundChannel c current =>
      obtain ⟨-, hs⟩ := Option.ite_none_right_eq_some.1 hs
      obtain ⟨key, hid, rfl⟩ := Option.map_eq_some_iff.1 hs
      exact ⟨_, hstart, popped_lost hid hl⟩
  | clear =>
      rw [TaskTables.step] at hs
      split at hs
      · cases hs
      · obtain ⟨-, hs⟩ := Option.ite_none_left_eq_some.1 hs
        obtain rfl := Option.some.inj hs
        exact ⟨_, hstart, cleared_lost hl⟩
  | _ => exact absurd trivial hl

/-! ## The law -/

/-- **Every live task is in its table.**  In every run whose steps meet `Kept` the tables keep
the tasks of the node; a step that does not meet it can be followed by a live task that is in no
table. -/
theorem tasks_tracked (F : Type) (config : Config) :
    (∀ s, ReachableWhen (system F config) Kept s → Supervised F config s) ∧
    ∀ s l s', ReachableWhen (system F config) Kept s → step config s l = some s' →
      ¬ Kept s (l : Label F) → ∃ u, Reachable ((system F config).startingAt s') u ∧
        ¬ Supervised F config u := by
  refine ⟨fun s h => (inv_run h).supervised, fun s l s' h hs hl => ?_⟩
  obtain ⟨u, hu, hlost⟩ := (inv_run h).unkept hs hl
  exact ⟨u, hu, fun hsupervised => hlost hsupervised.tracked⟩

/-- A connection comes in, its task begins, and `stop()` is called. -/
def supervisedRun : List (Label Unit) :=
  [.start, .opened 7, .ensureIncomingTask 0, .begin 0, .stop none]

/-- A connection comes in and ends, and another one gets its address. -/
def endedRun : List (Label Unit) :=
  [.start, .opened 7, .ensureIncomingTask 0, .begin 0, .finish 0, .released 0, .opened 7]

/-- **Two runs.**  The task of a connection is stored until `stop()` has cancelled it; and the
task of a connection that comes in before the callback of an earlier one has run gets lost. -/
theorem tasks_tracked_sample :
    (∃ s, exec (step (F := Unit) ⟨true, true⟩) initial supervisedRun = some s ∧
      s.tables.entries.get? (.reader 7) = some 0 ∧ Supervised Unit ⟨true, true⟩ s) ∧
    ∃ s s', exec (step ⟨true, true⟩) initial endedRun = some s ∧
      step ⟨true, true⟩ s (.ensureIncomingTask 1 : Label Unit) = some s' ∧
      ∃ u, Reachable ((system Unit ⟨true, true⟩).startingAt s') u ∧
        ¬ Supervised Unit ⟨true, true⟩ u := by
  have hopened := ReachableWhen.exec (S := system Unit ⟨true, true⟩) (G := Kept) (.init rfl)
    [.start, .opened 7] (by simp [Kept]) rfl
  have hcreated := ReachableWhen.step (Label.ensureIncomingTask 0) hopened
    (fun _ _ _ _ x hx => by cases hx) rfl
  have hstopped := hcreated.exec [.begin 0, .stop none] (by simp [Kept]) rfl
  have hended := hcreated.exec [.begin 0, .finish 0, .released 0, .opened 7] (by simp [Kept]) rfl
  refine ⟨⟨_, rfl, rfl, (tasks_tracked Unit ⟨true, true⟩).1 _ hstopped⟩, _, _, rfl, rfl,
    (tasks_tracked Unit ⟨true, true⟩).2 _ (.ensureIncomingTask 1) _ hended rfl fun hkept => ?_⟩
  cases hkept 7 rfl rfl 0 _ rfl rfl

/-! ## An address that is used again -/

/-- A connection comes in and ends, another one gets its address and comes in, and then the
callback of the first one runs. -/
def reusedAddress : List (Label Unit) :=
  [.start, .opened 7, .ensureIncomingTask 0, .begin 0, .finish 0, .released 0, .opened 7,
    .ensureIncomingTask 1, .callback 0]

/-- **The task of a live connection is in no table** of a running node, and `stop()` neither
cancels it nor waits for it. -/
theorem not_tasks_tracked : ∃ s, Reachable (system Unit ⟨true, true⟩) s ∧ s.running = true ∧
    s.ids.get? 1 = some 7 ∧ s.tables.isActive 1 = true ∧
    s.tables.entries.get? (.reader 7) = none ∧ s.gathered none = [] ∧
    ¬ Supervised Unit ⟨true, true⟩ s := by
  have hruns : (exec (step ⟨true, true⟩) initial reusedAddress).map (fun s =>
      (s.running, s.ids.get? 1, (s.tables.tasks 1).map Task.key, s.tables.isActive 1,
        s.tables.entries.get? (.reader 7), s.gathered none)) =
      some (true, some 7, some (.reader 7), true, none, []) := rfl
  obtain ⟨s, hs, hfields⟩ := Option.map_eq_some_iff.1 hruns
  simp only [Prod.mk.injEq] at hfields
  obtain ⟨hrunning, hid, hkey, hactive, hnone, hgathered⟩ := hfields
  refine ⟨s, reachable_of_exec rfl reusedAddress hs, hrunning, hid, hactive, hnone, hgathered,
    fun hsupervised => ?_⟩
  obtain ⟨x, hx, hkey⟩ := Option.map_eq_some_iff.1 hkey
  rw [TaskTable.isActive_of hx] at hactive
  rw [← hkey] at hnone
  exact not_tracked_of hx hactive hnone hsupervised.tracked

end TaskTables
end Core
end Paqto
