/-
# What holds of heartbeat tasks

Per task: its session, as long as it is registered, is the canonical one of its
connection, its table entry is there, and no future that it needs is cancelled;
where it is over under a registered session, the connection is closed.  Between
tasks: one at work for each connection, and a future of its own for each ping.

The invariant is kept by every step in which a ping that is sent fits into the
outbound queue, or waits for room, and in which `close()` after a failed write or a
missed PONG does close (`KeepsBeating`).
-/

import Paqto.Core.Heartbeat

namespace Paqto
namespace Core
namespace Heartbeat

open Python Transition

variable {cfg : Config} {s t : Node}

/-! ## The invariant -/

/-- The ping whose future the task still needs. -/
def Pc.awaits : Pc → Option Ping
  | .closing _ => none
  | pc => pc.ping

/-- The task is done, or will be when it runs. -/
def Pc.isOver : Pc → Bool
  | .failed _ | .done _ => true
  | _ => false

/-- What holds of each task; a session that is registered is canonical. -/
structure TaskInv (s : Node) (i : ℕ) (task : HeartbeatTask) : Prop where
  registered : s.registered task.connection = true
  session : ∀ session, s.sessions task.connection = some session → task.session = session
  live : task.pc.finished = false → s.sessions task.connection ≠ none →
    s.heartbeatTasks task.connection = some i ∧ task.cancelRequested = false
  future : ∀ ping, task.pc.ping = some ping → ping.future < s.nextFuture
  uncancelled : ∀ ping, task.pc.awaits = some ping → s.sessions task.connection ≠ none →
    s.futures ping.future ≠ .cancelled
  closed : task.pc.isOver = true → s.sessions task.connection ≠ none →
    s.isClosed task.connection = true

/-- What holds in every run of the heartbeats. -/
structure Inv (s : Node) : Prop where
  halted : s.stopping = true → s.running = false
  readers : ∀ c ∈ s.readers, s.registered c = true
  canonical : ∀ c session, s.sessions c = some session →
    s.peerConnections session.peerId = some c ∧ s.running = true ∧ s.registered c = true
  peers : ∀ peerId c, s.peerConnections peerId = some c →
    ∃ session, s.sessions c = some session ∧ session.peerId = peerId
  task : ∀ i task, s.tasks i = some task → TaskInv s i task
  fresh : ∀ i, s.nextTask ≤ i → s.tasks i = none
  freshFuture : ∀ f, s.nextFuture ≤ f → s.futures f = .pending
  entry : ∀ c i, s.heartbeatTasks c = some i → ∃ task, s.tasks i = some task ∧ task.connection = c
  unique : ∀ i j task task', s.tasks i = some task → s.tasks j = some task' →
    task.connection = task'.connection → task.pc.finished = false → task'.pc.finished = false → i = j
  futures : ∀ i j task task' ping ping', s.tasks i = some task → s.tasks j = some task' →
    task.pc.ping = some ping → task'.pc.ping = some ping' → ping.future = ping'.future → i = j
  pending : ∀ id p, s.pendingHeartbeats.get? id = some p →
    ∃ i task, s.tasks i = some task ∧ task.connection = p.connection ∧
      task.pc.ping = some ⟨id, p.future⟩
  supervised : ∀ c session, c ∈ s.readers → s.sessions c = some session →
    session.heartbeat = true → ∃ i task, s.tasks i = some task ∧ task.connection = c
  channel : ∀ c, s.sessions c ≠ none →
    s.isClosed c = true ∨ ∃ channel, s.channels c = some channel ∧ channel.closing = false
  frames : ∀ c channel i, s.channels c = some channel → some i ∈ channel.frames →
    ∃ task, s.tasks i = some task ∧ task.connection = c

/-- Before the first session. -/
theorem inv_initial (now : ℚ) : Inv (initial now) where
  halted h := by cases h
  readers _ h := by cases h
  canonical _ _ h := by cases h
  peers _ _ h := by cases h
  task _ _ h := by cases h
  fresh _ _ := rfl
  freshFuture _ _ := rfl
  entry _ _ h := by cases h
  unique _ _ _ _ h := by cases h
  futures _ _ _ _ _ _ h := by cases h
  pending _ _ h := by cases h
  supervised _ _ h := by cases h
  channel _ h := absurd rfl h
  frames _ _ _ h := by cases h

/-- A task that awaits a PONG has a PING. -/
theorem Pc.ping_of_awaits {pc : Pc} {ping : Ping} (h : pc.awaits = some ping) :
    pc.ping = some ping := by
  cases pc <;> first | exact h | cases h

/-- A task with a PING has not finished. -/
theorem Pc.finished_of_ping {pc : Pc} {ping : Ping} (h : pc.ping = some ping) :
    pc.finished = false := by
  cases pc <;> first | rfl | cases h

/-- A finished task is over. -/
theorem Pc.isOver_of_finished {pc : Pc} (h : pc.finished = true) : pc.isOver = true := by
  cases pc <;> first | rfl | cases h

/-- A task keeps what it has when nothing that concerns it gets worse. -/
theorem TaskInv.mono {i : ℕ} {task : HeartbeatTask} (h : TaskInv s i task)
    (hregistered : s.registered task.connection = true → t.registered task.connection = true)
    (hsession : t.sessions task.connection = none ∨
      t.sessions task.connection = s.sessions task.connection ∧
        t.heartbeatTasks task.connection = s.heartbeatTasks task.connection)
    (hnext : s.nextFuture ≤ t.nextFuture)
    (hfutures : ∀ ping, task.pc.awaits = some ping → t.sessions task.connection ≠ none →
      t.futures ping.future = .cancelled → s.futures ping.future = .cancelled)
    (hclosed : s.isClosed task.connection = true → t.isClosed task.connection = true) :
    TaskInv t i task := by
  rcases hsession with hnone | ⟨hsession, htable⟩
  · refine ⟨hregistered h.registered, fun session hs => ?_, fun _ hs => absurd hnone hs,
      fun ping hp => (h.future ping hp).trans_le hnext, fun _ _ hs => absurd hnone hs,
      fun _ hs => absurd hnone hs⟩
    rw [hnone] at hs
    cases hs
  · refine ⟨hregistered h.registered, fun session hs => h.session session (hsession ▸ hs),
      fun hun hs => htable ▸ h.live hun (hsession ▸ hs),
      fun ping hp => (h.future ping hp).trans_le hnext, fun ping hp hs hcancelled => ?_,
      fun hover hs => hclosed (h.closed hover (hsession ▸ hs))⟩
    exact h.uncancelled ping hp (hsession ▸ hs) (hfutures ping hp hs hcancelled)

/-- A step that changes no table and no task. -/
theorem Inv.of_eq (h : Inv s) (hsessions : t.sessions = s.sessions)
    (hpeers : t.peerConnections = s.peerConnections) (hrunning : t.running = s.running)
    (hstopping : t.stopping = s.stopping) (hregistered : t.registered = s.registered)
    (htasks : t.tasks = s.tasks) (hnextTask : t.nextTask = s.nextTask) (htable : t.heartbeatTasks = s.heartbeatTasks)
    (hfutures : t.futures = s.futures) (hnextFuture : t.nextFuture = s.nextFuture)
    (hpending : t.pendingHeartbeats = s.pendingHeartbeats) (hreaders : t.readers = s.readers)
    (hclosed : ∀ c, s.isClosed c = true → t.isClosed c = true)
    (hchannels : t.channels = s.channels) : Inv t where
  halted := by
    rw [hstopping, hrunning]
    exact h.halted
  readers := by
    rw [hreaders, hregistered]
    exact h.readers
  canonical c session hs := by
    rw [hsessions] at hs
    obtain ⟨hp, hr, hreg⟩ := h.canonical c session hs
    exact ⟨hpeers ▸ hp, hrunning.trans hr, hregistered ▸ hreg⟩
  peers peerId c hp := by
    rw [hsessions]
    exact h.peers peerId c (hpeers ▸ hp)
  task i task ht := by
    refine (h.task i task (htasks ▸ ht)).mono (fun hreg => hregistered ▸ hreg)
      (.inr ⟨by rw [hsessions], by rw [htable]⟩) hnextFuture.ge (fun ping _ _ hf => hfutures ▸ hf)
      (hclosed _)
  fresh i hi := by
    rw [htasks]
    exact h.fresh i (hnextTask ▸ hi)
  freshFuture f hf := by
    rw [hfutures]
    exact h.freshFuture f (hnextFuture ▸ hf)
  entry := by
    rw [htasks, htable]
    exact h.entry
  unique := by
    rw [htasks]
    exact h.unique
  futures := by
    rw [htasks]
    exact h.futures
  pending := by
    rw [htasks, hpending]
    exact h.pending
  supervised := by
    rw [htasks, hreaders, hsessions]
    exact h.supervised
  channel c hs := by
    rw [hsessions] at hs
    rw [hchannels]
    exact (h.channel c hs).imp_left (hclosed c)
  frames := by
    rw [htasks, hchannels]
    exact h.frames

/-! ## Changes of one task -/

/-- The task that is set. -/
theorem setTask_self (s : Node) (i : ℕ) (task : HeartbeatTask) :
    (s.setTask i task).tasks i = some task := Function.update_self ..

/-- Other tasks stay as they are. -/
theorem setTask_of_ne {i j : ℕ} (hne : j ≠ i) (task : HeartbeatTask) :
    (s.setTask i task).tasks j = s.tasks j := Function.update_of_ne hne ..

/-- A task after one is set is that one, or was there before. -/
theorem setTask_cases {i j : ℕ} {task task' : HeartbeatTask}
    (h : (s.setTask i task).tasks j = some task') :
    j = i ∧ task' = task ∨ j ≠ i ∧ s.tasks j = some task' := by
  by_cases hji : j = i
  · subst hji
    exact .inl ⟨rfl, (Option.some.inj ((setTask_self ..).symm.trans h)).symm⟩
  · exact .inr ⟨hji, (setTask_of_ne hji task).symm.trans h⟩

/-- Every task is there after one is set, and of the same connection. -/
theorem exists_setTask (task : HeartbeatTask) {i j : ℕ} {task' old : HeartbeatTask}
    (ht : s.tasks i = some old) (hconnection : task.connection = old.connection)
    (hj : s.tasks j = some task') :
    ∃ task'', (s.setTask i task).tasks j = some task'' ∧
      task''.connection = task'.connection := by
  by_cases hji : j = i
  · subst hji
    obtain rfl := Option.some.inj (ht.symm.trans hj)
    exact ⟨task, setTask_self .., hconnection⟩
  · exact ⟨task', (setTask_of_ne hji task).trans hj, rfl⟩

/-- The ping of a task after one is set is new, or was there before. -/
theorem setTask_ping {i j next : ℕ} {task task' old : HeartbeatTask} {ping : Ping}
    (ht : s.tasks i = some old)
    (hping : ∀ ping, task.pc.ping = some ping →
      old.pc.ping = some ping ∨ ping.future = s.nextFuture ∧ s.nextFuture < next)
    (hj : (s.setTask i task).tasks j = some task') (hp : task'.pc.ping = some ping) :
    (∃ old, s.tasks j = some old ∧ old.pc.ping = some ping) ∨
      j = i ∧ ping.future = s.nextFuture := by
  obtain ⟨rfl, rfl⟩ | ⟨-, hj⟩ := setTask_cases hj
  · obtain hp | ⟨hf, -⟩ := hping ping hp
    · exact .inl ⟨old, ht, hp⟩
    · exact .inr ⟨rfl, hf⟩
  · exact .inl ⟨task', hj, hp⟩

/-- The state of a task changes, and perhaps it registers a new ping; the entries of
its old ping go with it. -/
theorem Inv.setPing (h : Inv s) {i : ℕ} {task : HeartbeatTask} (ht : s.tasks i = some task)
    (hun : task.pc.finished = false) {pc : Pc} {entries : Dict Str PendingHeartbeat} {next : ℕ}
    (hnext : s.nextFuture ≤ next)
    (hentry : ∀ id p, entries.get? id = some p →
      s.pendingHeartbeats.get? id = some p ∧
          (task.pc.ping = some ⟨id, p.future⟩ → pc.ping = some ⟨id, p.future⟩) ∨
        p.connection = task.connection ∧ pc.ping = some ⟨id, p.future⟩)
    (hping : ∀ ping, pc.ping = some ping →
      task.pc.ping = some ping ∨ ping.future = s.nextFuture ∧ s.nextFuture < next)
    (hawaits : ∀ ping, pc.awaits = some ping →
      task.pc.awaits = some ping ∨ ping.future = s.nextFuture)
    (hover : pc.isOver = true → s.sessions task.connection ≠ none →
      s.isClosed task.connection = true) :
    Inv ({ s with pendingHeartbeats := entries, nextFuture := next }.setTask i { task with pc }) where
  halted := h.halted
  readers := h.readers
  canonical := h.canonical
  peers := h.peers
  task j task' hj := by
    obtain ⟨rfl, rfl⟩ | ⟨-, hj⟩ := setTask_cases hj
    · have hi := h.task j task ht
      refine ⟨hi.registered, hi.session, fun _ => hi.live hun, fun ping hp => ?_,
        fun ping hp hs => ?_, hover⟩
      · obtain hp | ⟨hf, hlt⟩ := hping ping hp
        · exact (hi.future ping hp).trans_le hnext
        · exact hf ▸ hlt
      · obtain hp | hf := hawaits ping hp
        · exact hi.uncancelled ping hp hs
        · change s.futures ping.future ≠ .cancelled
          rw [h.freshFuture ping.future hf.ge]
          nofun
    · have hj := h.task j task' hj
      exact ⟨hj.registered, hj.session, hj.live, fun ping hp => (hj.future ping hp).trans_le hnext,
        hj.uncancelled, hj.closed⟩
  fresh j hj := by
    have hji : j ≠ i := by
      rintro rfl
      rw [h.fresh j hj] at ht
      cases ht
    exact (setTask_of_ne hji _).trans (h.fresh j hj)
  freshFuture f hf := h.freshFuture f (hnext.trans hf)
  entry c j hc := by
    obtain ⟨task', hj, hconn⟩ := h.entry c j hc
    obtain ⟨task'', hj', hconn'⟩ := exists_setTask { task with pc } ht rfl hj
    exact ⟨task'', hj', hconn'.trans hconn⟩
  unique j k task' task'' hj hk hc hunj hunk := by
    have hold : ∀ {l task'}, (s.setTask i { task with pc }).tasks l = some task' →
        task'.pc.finished = false →
        ∃ old, s.tasks l = some old ∧ old.connection = task'.connection ∧
          old.pc.finished = false := by
      intro l task' hl hunl
      obtain ⟨rfl, rfl⟩ | ⟨-, hl⟩ := setTask_cases hl
      · exact ⟨task, ht, rfl, hun⟩
      · exact ⟨task', hl, rfl, hunl⟩
    obtain ⟨old, hold1, hc1, hun1⟩ := hold hj hunj
    obtain ⟨old', hold2, hc2, hun2⟩ := hold hk hunk
    exact h.unique j k old old' hold1 hold2 (hc1.trans (hc.trans hc2.symm)) hun1 hun2
  futures j k task' task'' ping ping' hj hk hp hp' hf := by
    obtain ⟨old, hold1, hp1⟩ | ⟨rfl, hnew⟩ := setTask_ping ht hping hj hp
    · obtain ⟨old', hold2, hp2⟩ | ⟨rfl, hnew⟩ := setTask_ping ht hping hk hp'
      · exact h.futures j k old old' ping ping' hold1 hold2 hp1 hp2 hf
      · exact absurd (hf.trans hnew) ((h.task j old hold1).future ping hp1).ne
    · obtain ⟨old', hold2, hp2⟩ | ⟨rfl, -⟩ := setTask_ping ht hping hk hp'
      · exact absurd (hf.symm.trans hnew) ((h.task k old' hold2).future ping' hp2).ne
      · rfl
  pending id p hid := by
    obtain ⟨hid, hkeep⟩ | ⟨hc, hp⟩ := hentry id p hid
    · obtain ⟨j, task', hj, hc, hp⟩ := h.pending id p hid
      by_cases hji : j = i
      · subst hji
        obtain rfl := Option.some.inj (ht.symm.trans hj)
        exact ⟨j, _, setTask_self .., hc, hkeep hp⟩
      · exact ⟨j, task', (setTask_of_ne hji _).trans hj, hc, hp⟩
    · exact ⟨i, _, setTask_self .., hc.symm, hp⟩
  supervised c session hc hs hb := by
    obtain ⟨j, task', hj, hconn⟩ := h.supervised c session hc hs hb
    obtain ⟨task'', hj', hconn'⟩ := exists_setTask { task with pc } ht rfl hj
    exact ⟨j, task'', hj', hconn'.trans hconn⟩
  channel := h.channel
  frames c channel j hc hm := by
    obtain ⟨task', hj, hconn⟩ := h.frames c channel j hc hm
    obtain ⟨task'', hj', hconn'⟩ := exists_setTask { task with pc } ht rfl hj
    exact ⟨task'', hj', hconn'.trans hconn⟩

/-- The task goes on within its round, or ends it when no entry is left of its ping. -/
theorem Inv.setPc (h : Inv s) {i : ℕ} {task : HeartbeatTask} (ht : s.tasks i = some task)
    (hun : task.pc.finished = false) (pc : Pc)
    (hentry : ∀ id p, s.pendingHeartbeats.get? id = some p → task.pc.ping = some ⟨id, p.future⟩ →
      pc.ping = some ⟨id, p.future⟩)
    (hping : ∀ ping, pc.ping = some ping → task.pc.ping = some ping)
    (hawaits : ∀ ping, pc.awaits = some ping → task.pc.awaits = some ping)
    (hover : pc.isOver = true → s.sessions task.connection ≠ none →
      s.isClosed task.connection = true) :
    Inv (s.setTask i { task with pc }) :=
  h.setPing ht hun le_rfl (fun id p hid => .inl ⟨hid, hentry id p hid⟩)
    (fun ping hp => .inl (hping ping hp)) (fun ping hp => .inl (hawaits ping hp)) hover

/-- Futures that no task needs are cancelled, and tasks that are done leave the table. -/
theorem Inv.release (h : Inv s) (futures : ℕ → Future) (table : ℕ → Option ℕ)
    (hfutures : ∀ f, futures f = s.futures f ∨ f < s.nextFuture ∧
      ∀ i task ping, s.tasks i = some task → task.pc.awaits = some ping → ping.future = f →
        s.sessions task.connection = none)
    (htable : ∀ i task, s.tasks i = some task → task.pc.finished = false →
      s.sessions task.connection ≠ none → table task.connection = s.heartbeatTasks task.connection)
    (hsub : ∀ c i, table c = some i → s.heartbeatTasks c = some i) :
    Inv { s with futures, heartbeatTasks := table } where
  halted := h.halted
  readers := h.readers
  canonical := h.canonical
  peers := h.peers
  task i task ht := by
    have hi := h.task i task ht
    refine ⟨hi.registered, hi.session, fun hun hs => ?_, hi.future, fun ping hp hs => ?_, hi.closed⟩
    · change table task.connection = some i ∧ _
      rw [htable i task ht hun hs]
      exact hi.live hun hs
    · change futures ping.future ≠ .cancelled
      rcases hfutures ping.future with heq | ⟨-, hnone⟩
      · rw [heq]
        exact hi.uncancelled ping hp hs
      · exact absurd (hnone i task ping ht hp rfl) hs
  fresh := h.fresh
  freshFuture f hf := by
    rcases hfutures f with heq | ⟨hlt, -⟩
    · exact heq.trans (h.freshFuture f hf)
    · exact absurd hlt (Nat.not_lt.2 hf)
  entry c i hc := h.entry c i (hsub c i hc)
  unique := h.unique
  futures := h.futures
  pending := h.pending
  supervised := h.supervised
  channel := h.channel
  frames := h.frames

/-- Entries are popped. -/
theorem Inv.popEntries (h : Inv s) {entries : Dict Str PendingHeartbeat}
    (hentries : ∀ id p, entries.get? id = some p → s.pendingHeartbeats.get? id = some p) :
    Inv { s with pendingHeartbeats := entries } :=
  { h with
    task := fun i task ht =>
      have hi := h.task i task ht
      ⟨hi.registered, hi.session, hi.live, hi.future, hi.uncancelled, hi.closed⟩
    pending := fun id p hid => h.pending id p (hentries id p hid) }

/-! ## The end of a round and of a task -/

/-- A future is cancelled only while it is pending. -/
theorem cancelFutures_apply (s : Node) (l : List ℕ) (f : ℕ) :
    (s.cancelFutures l).futures f = s.futures f ∨ f ∈ l ∧ s.futures f = .pending := by
  change (if f ∈ l ∧ s.futures f = .pending then Future.cancelled else s.futures f) = _ ∨ _
  split
  · rename_i h
    exact .inr h
  · exact .inl rfl

/-- **`dropPing`** touches the pending heartbeats and the future of the PING. -/
theorem dropPing_spec (s : Node) (c : ℕ) (ping : Ping) :
    ∃ entries futures, s.dropPing c ping =
        { s with pendingHeartbeats := entries, futures := futures } ∧
      (∀ id p, entries.get? id = some p → s.pendingHeartbeats.get? id = some p ∧
        (p.connection = c → ping ≠ ⟨id, p.future⟩)) ∧
      ∀ f, futures f = s.futures f ∨ f = ping.future ∧ s.futures f = .pending := by
  have hfutures : ∀ u : Node, u.futures = s.futures → ∀ f,
      (u.cancelFutures [ping.future]).futures f = s.futures f ∨
        f = ping.future ∧ s.futures f = .pending := by
    intro u hu f
    rw [← hu]
    exact (cancelFutures_apply u [ping.future] f).imp_right (And.imp_left List.mem_singleton.1)
  unfold Node.dropPing
  split
  · rename_i hmine
    refine ⟨_, _, rfl, fun id p hid => ?_, hfutures _ rfl⟩
    rw [Dict.get?_erase] at hid
    split at hid
    · cases hid
    · rename_i hne
      refine ⟨hid, ?_⟩
      rintro - rfl
      exact hne rfl
  · rename_i hother
    refine ⟨_, _, rfl, fun id p hid => ⟨hid, ?_⟩, hfutures _ rfl⟩
    rintro rfl rfl
    exact hother hid

/-- **`endRound`** touches the pending heartbeats and the future of the round. -/
theorem endRound_spec (s : Node) (task : HeartbeatTask) :
    ∃ entries futures, s.endRound task =
        { s with pendingHeartbeats := entries, futures := futures } ∧
      (∀ id p, entries.get? id = some p → s.pendingHeartbeats.get? id = some p) ∧
      ∀ f, futures f = s.futures f ∨ ∃ ping, task.pc.ping = some ping ∧ f = ping.future := by
  unfold Node.endRound
  cases task.pc.ping with
  | none => exact ⟨_, _, rfl, fun _ _ hid => hid, fun _ => .inl rfl⟩
  | some ping =>
      obtain ⟨entries, futures, heq, hentries, hfutures⟩ := dropPing_spec s task.connection ping
      exact ⟨entries, futures, heq, fun id p hid => (hentries id p hid).1,
        fun f => (hfutures f).imp_right fun hf => ⟨ping, rfl, hf.1⟩⟩

/-- **`_fail_pending_for_connection`** drops the PINGs of the connection. -/
theorem failHeartbeatsForConnection_spec (s : Node) (c : ℕ) :
    ∃ entries futures, s.failHeartbeatsForConnection c =
        { s with pendingHeartbeats := entries, futures := futures } ∧
      (∀ id p, entries.get? id = some p →
        s.pendingHeartbeats.get? id = some p ∧ p.connection ≠ c) ∧
      ∀ f, futures f = s.futures f ∨
        ∃ id p, s.pendingHeartbeats.get? id = some p ∧ p.connection = c ∧ p.future = f := by
  refine ⟨_, _, rfl, fun id p hid => ?_, fun f => ?_⟩
  · rw [Dict.get?_filter, Option.filter_eq_some_iff] at hid
    exact ⟨hid.1, of_decide_eq_true hid.2⟩
  · refine (cancelFutures_apply s _ f).imp_right fun ⟨hmem, _⟩ => ?_
    obtain ⟨p, hp, rfl⟩ := List.mem_map.1 hmem
    obtain ⟨hvalue, hc⟩ := List.mem_filter.1 hp
    obtain ⟨id, hid⟩ := (Dict.mem_values _).1 hvalue
    exact ⟨id, p, hid, of_decide_eq_true hc, rfl⟩

/-- **`finish`** ends a task and drops its PING. -/
theorem finish_spec (s : Node) (i : ℕ) (task : HeartbeatTask) (ending : Ending) :
    ∃ entries futures table, s.finish i task ending =
        { s with
          pendingHeartbeats := entries, futures := futures, heartbeatTasks := table,
          tasks := Function.update s.tasks i (some { task with pc := .done ending }) } ∧
      (∀ id p, entries.get? id = some p →
        s.pendingHeartbeats.get? id = some p ∧ p.connection ≠ task.connection) ∧
      (∀ f, futures f = s.futures f ∨ (∃ ping, task.pc.ping = some ping ∧ f = ping.future) ∨
        ∃ id p, s.pendingHeartbeats.get? id = some p ∧ p.connection = task.connection ∧
          p.future = f) ∧
      (∀ c, c ≠ task.connection → table c = s.heartbeatTasks c) ∧
      ∀ c j, table c = some j → s.heartbeatTasks c = some j := by
  obtain ⟨entries, futures, heq, hentries, hfutures⟩ := endRound_spec s task
  obtain ⟨entries', futures', heq', hentries', hfutures'⟩ :=
    failHeartbeatsForConnection_spec { s with pendingHeartbeats := entries, futures := futures }
      task.connection
  have hentry : ∀ id p, entries'.get? id = some p →
      s.pendingHeartbeats.get? id = some p ∧ p.connection ≠ task.connection := fun id p hid =>
    ⟨hentries id p (hentries' id p hid).1, (hentries' id p hid).2⟩
  have hfuture : ∀ f, futures' f = s.futures f ∨
      (∃ ping, task.pc.ping = some ping ∧ f = ping.future) ∨
      ∃ id p, s.pendingHeartbeats.get? id = some p ∧ p.connection = task.connection ∧
        p.future = f := by
    intro f
    rcases hfutures' f with hf | ⟨id, p, hid, hc, hp⟩
    · change futures' f = futures f at hf
      rw [hf]
      exact (hfutures f).imp_right .inl
    · exact .inr (.inr ⟨id, p, hentries id p hid, hc, hp⟩)
  unfold Node.finish
  rw [heq]
  simp only
  rw [heq']
  split
  · refine ⟨entries', futures', Function.update s.heartbeatTasks task.connection none, rfl, hentry,
      hfuture, fun c hc => Function.update_of_ne hc .., fun c j hc => ?_⟩
    rw [Function.update_apply] at hc
    split at hc
    · cases hc
    · exact hc
  · exact ⟨entries', futures', _, rfl, hentry, hfuture, fun _ _ => rfl, fun _ _ hc => hc⟩

/-- **A task ends.** -/
theorem Inv.finish (h : Inv s) {i : ℕ} {task : HeartbeatTask} (ht : s.tasks i = some task)
    (hun : task.pc.finished = false) (pc : Pc) (hpc : pc.ping = none ∨ pc.ping = task.pc.ping)
    (ending : Ending)
    (hclosed : s.sessions task.connection ≠ none → s.isClosed task.connection = true) :
    Inv (s.finish i { task with pc } ending) := by
  obtain ⟨entries, futures, table, heq, hentries, hfutures, htable, hsub⟩ :=
    finish_spec s i { task with pc } ending
  have hdone : Inv ({ s with pendingHeartbeats := entries }.setTask i
      { task with pc := .done ending }) := by
    refine h.setPing ht hun le_rfl (fun id p hid => ?_) (fun _ hp => ?_) (fun _ hp => ?_) fun _ => hclosed
    · obtain ⟨hold, hne⟩ := hentries id p hid
      refine .inl ⟨hold, fun hp => ?_⟩
      obtain ⟨j, task', hj, hc, hp'⟩ := h.pending id p hold
      obtain rfl := h.futures i j task task' _ _ ht hj hp hp' rfl
      obtain rfl := Option.some.inj (ht.symm.trans hj)
      exact absurd hc.symm hne
    · cases hp
    · cases hp
  -- The futures that are cancelled are those of the task.
  have hmine : ∀ f, futures f = s.futures f ∨ ∃ ping, task.pc.ping = some ping ∧ ping.future = f := by
    intro f
    rcases hfutures f with hf | ⟨ping, hp, rfl⟩ | ⟨id, p, hid, hc, rfl⟩
    · exact .inl hf
    · rcases hpc with hnone | hsame
      · change pc.ping = some ping at hp
        rw [hnone] at hp
        cases hp
      · exact .inr ⟨ping, hsame.symm.trans hp, rfl⟩
    · obtain ⟨j, task', hj, hc', hp'⟩ := h.pending id p hid
      obtain rfl := h.unique i j task task' ht hj (hc.symm.trans hc'.symm) hun
        (Pc.finished_of_ping hp')
      obtain rfl := Option.some.inj (ht.symm.trans hj)
      exact .inr ⟨_, hp', rfl⟩
  rw [heq]
  refine hdone.release futures table (fun f => ?_) (fun j task' hj hunj hs => ?_) hsub
  · rcases hmine f with hf | ⟨ping, hp, rfl⟩
    · exact .inl hf
    · refine .inr ⟨(h.task i task ht).future ping hp, fun j task' ping' hj hp' hf => ?_⟩
      obtain ⟨-, rfl⟩ | ⟨hne, hj⟩ := setTask_cases hj
      · cases hp'
      · exact absurd (h.futures i j task task' ping ping' ht hj hp (Pc.ping_of_awaits hp') hf.symm).symm
          hne
  · obtain ⟨-, rfl⟩ | ⟨hne, hj⟩ := setTask_cases hj
    · cases hunj
    · refine htable _ fun hc => hne ?_
      exact h.unique j i task' task hj ht hc hunj hun

/-- A connection is closed. -/
theorem Inv.close (h : Inv s) (c : ℕ) (closes : Bool) : Inv (s.close c closes) := by
  refine h.of_eq rfl rfl rfl rfl rfl rfl rfl rfl rfl rfl rfl rfl (fun c' hc' => ?_) rfl
  change Function.update s.isClosed c _ c' = true
  rw [Function.update_apply]
  split
  · rename_i heq
    rw [← heq, hc', Bool.true_or]
  · exact hc'

/-- Where the loop ends with its session registered, the connection is closed. -/
theorem Inv.loopEnds (h : Inv s) {i : ℕ} {task : HeartbeatTask} (ht : s.tasks i = some task)
    {ending : Ending} (hends : s.loopEnds task = some ending)
    (hs : s.sessions task.connection ≠ none) : s.isClosed task.connection = true := by
  obtain ⟨session, hsession⟩ := Option.ne_none_iff_exists'.1 hs
  obtain ⟨hpeer, hrunning, -⟩ := h.canonical _ session hsession
  have hmine := (h.task i task ht).session session hsession
  unfold Node.loopEnds at hends
  rw [hrunning, Bool.not_true, if_neg Bool.false_ne_true, hmine] at hends
  by_contra hopen
  rw [if_neg hopen, if_neg (not_not.2 hpeer)] at hends
  cases hends

/-- A task is at the head of its loop. -/
theorem Inv.loopHead (h : Inv s) {i : ℕ} {task : HeartbeatTask} (ht : s.tasks i = some task)
    (hun : task.pc.finished = false) {pc : Pc} (hpc : pc.ping = none)
    (hentry : ∀ id p, s.pendingHeartbeats.get? id = some p → task.pc.ping ≠ some ⟨id, p.future⟩) :
    Inv (s.loopHead cfg i { task with pc }) := by
  unfold Node.loopHead
  split
  · rename_i ending hends
    exact h.finish ht hun pc (.inl hpc) ending fun hs => h.loopEnds ht hends hs
  · refine h.setPc ht hun _ (fun id p hid hp => absurd hp (hentry id p hid)) (fun _ hp => ?_)
      (fun _ hp => ?_) fun hover => ?_
    · cases hp
    · cases hp
    · cases hover

/-- The frames of a channel move, or grow by those of its own tasks. -/
theorem Inv.putChannel (h : Inv s) {c : ℕ} (channel : Channel) (hc : s.channels c = some channel)
    (items : List (Option ℕ)) (current : Option (Option ℕ))
    (hframes : ∀ i, some i ∈ current.toList ++ items →
      ∃ task, s.tasks i = some task ∧ task.connection = c) :
    Inv { s with channels := Function.update s.channels c (some ⟨items, current, channel.closing⟩) } :=
  { h with
    task := fun i task ht =>
      have hi := h.task i task ht
      ⟨hi.registered, hi.session, hi.live, hi.future, hi.uncancelled, hi.closed⟩
    channel := by
      intro c' hs
      refine (h.channel c' hs).imp_right fun ⟨channel', hc', hopen⟩ => ?_
      by_cases hcc : c' = c
      · subst hcc
        obtain rfl := Option.some.inj (hc.symm.trans hc')
        exact ⟨_, Function.update_self .., hopen⟩
      · exact ⟨channel', (Function.update_of_ne hcc ..).trans hc', hopen⟩
    frames := by
      intro c' channel' i hc' hi
      change Function.update s.channels c _ c' = _ at hc'
      rw [Function.update_apply] at hc'
      split at hc'
      · rename_i hcc
        obtain rfl := Option.some.inj hc'
        rw [hcc]
        exact hframes i hi
      · exact h.frames c' channel' i hc' hi }

/-- A PING is put into the queue. -/
theorem Inv.putPing {i : ℕ} {task : HeartbeatTask} {ping : Ping} {now : ℚ}
    (h : Inv (s.setTask i { task with pc := .queued ping now })) {channel : Channel}
    (hc : s.channels task.connection = some channel)
    (hframes : ∀ j, some j ∈ channel.frames →
      ∃ task', s.tasks j = some task' ∧ task'.connection = task.connection) :
    Inv (s.putPing i task channel ping now) := by
  refine h.putChannel channel hc _ _ fun j hj => ?_
  rw [← List.append_assoc] at hj
  rcases List.mem_append.1 hj with hj | hj
  · obtain ⟨task', hj', hconn⟩ := hframes j hj
    by_cases hji : j = i
    · subst hji
      exact ⟨_, Function.update_self .., rfl⟩
    · exact ⟨task', (Function.update_of_ne hji ..).trans hj', hconn⟩
  · obtain rfl := Option.some.inj (List.mem_singleton.1 hj)
    exact ⟨_, Function.update_self .., rfl⟩

/-- The task runs on and sends a ping. -/
def Pings (cfg : Config) (s : Node) (task : HeartbeatTask) : Prop :=
  (∃ wakeUp, task.pc = .sleeping wakeUp ∧ wakeUp ≤ s.now) ∧ task.cancelRequested = false ∧
    s.loopEnds task = none ∧ s.active cfg task.connection = false

/-- A ping that is sent fits into the queue, or waits for room; and `close()` after a
failed write or a missed PONG closes the connection, in the writer at once. -/
def KeepsBeating (cfg : Config) (s : Node) : Label → Prop
  | .beat i _ closes => ∀ task, s.tasks i = some task →
      (Pings cfg s task → cfg.outboundBackpressure = .wait ∨
        ∀ channel, s.channels task.connection = some channel →
          channel.items.length < cfg.maxOutboundQueue) ∧
      ∀ ping, task.pc = .closing ping → closes = true
  | .sendFails _ closes => closes = true
  | _ => True

/-- A task sends a PING. -/
theorem Inv.sendPing (h : Inv s) {i : ℕ} {task : HeartbeatTask} (ht : s.tasks i = some task)
    (hpc : task.pc.ping = none) (hun : task.pc.finished = false) (hloop : s.loopEnds task = none)
    (hroom : cfg.outboundBackpressure = .wait ∨
      ∀ channel, s.channels task.connection = some channel →
        channel.items.length < cfg.maxOutboundQueue) (pingId : Str) :
    Inv (s.sendPing cfg i task pingId) ∧
      ∃ task', (s.sendPing cfg i task pingId).tasks i = some task' ∧ task'.pc.finished = false := by
  have hopen : s.isClosed task.connection = false ∧
      s.peerConnections task.session.peerId = some task.connection := by
    unfold Node.loopEnds at hloop
    split at hloop
    · cases hloop
    · split at hloop
      · cases hloop
      · rename_i hopen
        split at hloop
        · cases hloop
        · rename_i hpeer
          exact ⟨Bool.eq_false_iff.2 hopen, not_not.1 hpeer⟩
  obtain ⟨session, hsession, -⟩ := h.peers _ _ hopen.2
  obtain ⟨channel, hchannel, -⟩ : ∃ channel, s.channels task.connection = some channel ∧
      channel.closing = false := by
    rcases h.channel task.connection (by rw [hsession]; nofun) with hclosed | hex
    · rw [hopen.1] at hclosed
      cases hclosed
    · exact hex
  let u : Node := { s with
    pendingHeartbeats := s.pendingHeartbeats.set pingId ⟨s.nextFuture, task.connection⟩
    nextFuture := s.nextFuture + 1 }
  have hnew : ∀ pc : Pc, pc.ping = some ⟨pingId, s.nextFuture⟩ → pc.isOver = false →
      Inv (u.setTask i { task with pc }) := by
    intro pc hping hover
    refine h.setPing ht hun (Nat.le_succ _) (fun id p hid => ?_) (fun ping hp => ?_)
      (fun ping hp => ?_) fun ho => ?_
    · rw [Dict.get?_set] at hid
      split at hid
      · rename_i heq
        obtain rfl := Option.some.inj hid
        exact .inr ⟨rfl, by rw [hping, heq]⟩
      · refine .inl ⟨hid, fun hp => ?_⟩
        rw [hpc] at hp
        cases hp
    · obtain rfl := Option.some.inj (hping.symm.trans hp)
      exact .inr ⟨rfl, Nat.lt_succ_self _⟩
    · obtain rfl := Option.some.inj (hping.symm.trans (Pc.ping_of_awaits hp))
      exact .inr rfl
    · rw [hover] at ho
      cases ho
  have hqueue : s.sendPing cfg i task pingId =
      u.queuePing cfg i task ⟨pingId, s.nextFuture⟩ := rfl
  have hclosed : ¬ u.isClosed task.connection = true := Bool.eq_false_iff.1 hopen.1
  have hc : u.channels task.connection = some channel := hchannel
  rw [hqueue]
  unfold Node.queuePing
  simp only [hc, if_neg hclosed]
  split
  · refine ⟨?_, _, Function.update_self .., rfl⟩
    have hput : Inv (u.setTask i { task with pc := .queued ⟨pingId, s.nextFuture⟩ s.now }) :=
      hnew _ rfl rfl
    exact hput.putPing hc fun j hj => h.frames _ channel j hchannel hj
  · rename_i hfull
    rcases hroom with hwait | hroom
    · simp only [hwait]
      exact ⟨hnew _ rfl rfl, _, Function.update_self .., rfl⟩
    · exact absurd (hroom channel hchannel) hfull

/-- A task that ends has missed a PONG, or its session is gone, or the connection is closed. -/
def EndsWell (s t : Node) (i : ℕ) (task : HeartbeatTask) : Prop :=
  ∀ task' ending, t.tasks i = some task' → task'.pc = .done ending →
    s.sessions task.connection ≠ none → s.isClosed task.connection = true ∨ ending = .pongMissed

/-- **A task runs.** -/
theorem Inv.beat (h : Inv s) {i : ℕ} {task : HeartbeatTask} (ht : s.tasks i = some task)
    {pingId : Str} {closes : Bool} (hG : KeepsBeating cfg s (.beat i pingId closes))
    (hstep : s.beat cfg i task pingId closes = some t) : Inv t ∧ EndsWell s t i task := by
  have hi := h.task i task ht
  obtain ⟨hroom, hcloses⟩ := hG task ht
  -- A task that is not done after the step does not end in it.
  have hgoes : ∀ {u : Node} {task' : HeartbeatTask}, u.tasks i = some task' →
      task'.pc.finished = false → EndsWell s u i task := by
    intro u task' hu hun task'' ending hu' hdone
    obtain rfl := Option.some.inj (hu.symm.trans hu')
    rw [hdone] at hun
    cases hun
  have hfinish : ∀ ending, (s.sessions task.connection ≠ none → s.isClosed task.connection = true) →
      Inv (s.finish i task ending) ∧ EndsWell s (s.finish i task ending) i task := by
    intro ending hclosed
    by_cases hun : task.pc.finished = false
    · exact ⟨h.finish ht hun task.pc (.inr rfl) ending hclosed,
        fun _ _ _ _ hs => .inl (hclosed hs)⟩
    · unfold Node.beat at hstep
      rw [if_pos (Bool.eq_true_of_not_eq_false hun)] at hstep
      cases hstep
  have hhead : ∀ {u : Node} {pc : Pc}, Inv u → u.tasks i = some task → u.sessions = s.sessions →
      u.isClosed = s.isClosed → task.pc.finished = false → pc.ping = none →
      (∀ id p, u.pendingHeartbeats.get? id = some p → task.pc.ping ≠ some ⟨id, p.future⟩) →
      Inv (u.loopHead cfg i { task with pc }) ∧
        EndsWell s (u.loopHead cfg i { task with pc }) i task := by
    intro u pc hu htu hsessions hisClosed hun hpc hentry
    refine ⟨hu.loopHead htu hun hpc hentry, ?_⟩
    intro task' ending htask' hdone hs
    have hends : ∀ e, u.loopEnds task = some e → s.isClosed task.connection = true := by
      intro e he
      rw [← hisClosed]
      exact hu.loopEnds htu he (hsessions ▸ hs)
    unfold Node.loopHead at htask'
    split at htask'
    · rename_i e he
      exact .inl (hends e he)
    · rw [setTask_self] at htask'
      obtain rfl := Option.some.inj htask'
      cases hdone
  unfold Node.beat at hstep
  split at hstep
  · cases hstep
  · rename_i hun
    rw [Bool.not_eq_true] at hun
    split at hstep
    · rename_i hcancelled
      obtain rfl := Option.some.inj hstep
      refine hfinish .cancelled fun hs => ?_
      rw [(hi.live hun hs).2] at hcancelled
      cases hcancelled
    · rename_i hactive
      rw [Bool.not_eq_true] at hactive
      obtain ⟨c, session, pc, cancelRequested⟩ := task
      cases pc with
      | created =>
          obtain rfl := Option.some.inj hstep
          exact hhead h ht rfl rfl hun rfl fun _ _ _ hp => by cases hp
      | sleeping wakeUp =>
          simp only at hstep
          split at hstep
          · cases hstep
          · rename_i hawake
            split at hstep
            · rename_i ending hends
              obtain rfl := Option.some.inj hstep
              exact hfinish ending fun hs => h.loopEnds ht hends hs
            · rename_i hloop
              split at hstep
              · obtain rfl := Option.some.inj hstep
                exact hhead h ht rfl rfl hun rfl fun _ _ _ hp => by cases hp
              · rename_i hidle
                obtain rfl := Option.some.inj hstep
                obtain ⟨hinv, task', htask', hun'⟩ := h.sendPing ht rfl hun hloop
                  (hroom ⟨⟨wakeUp, rfl, not_lt.1 hawake⟩, hactive, hloop, Bool.eq_false_iff.2 hidle⟩)
                  pingId
                exact ⟨hinv, hgoes htask' hun'⟩
      | putting ping now =>
          simp only at hstep
          split at hstep
          · cases hstep
          · rename_i channel hc
            split at hstep
            · obtain rfl := Option.some.inj hstep
              have hqueued := h.setPc ht hun (.queued ping now) (fun _ _ _ hp => hp)
                (fun _ hp => hp) (fun _ hp => hp) (fun ho => by cases ho)
              refine ⟨hqueued.putPing hc fun j hj => h.frames _ channel j hc hj, ?_⟩
              exact hgoes (setTask_self ..) rfl
            · cases hstep
      | queued ping now => cases hstep
      | written ping now =>
          obtain rfl := Option.some.inj hstep
          refine ⟨h.setPc ht hun _ (fun _ _ _ hp => hp) (fun _ hp => hp) (fun _ hp => hp)
            (fun ho => by cases ho), hgoes (setTask_self ..) rfl⟩
      | failed ping =>
          obtain rfl := Option.some.inj hstep
          exact hfinish .frameFailed fun hs => hi.closed rfl hs
      | waiting ping deadline =>
          simp only at hstep
          split at hstep
          · rename_i hresolved
            obtain rfl := Option.some.inj hstep
            obtain ⟨entries, futures, heq, hentries, hfutures⟩ := dropPing_spec s c ping
            have hdropped : Inv { s with pendingHeartbeats := entries, futures := futures } := by
              refine (h.popEntries fun id p hid => (hentries id p hid).1).release futures
                s.heartbeatTasks (fun f => ?_) (fun _ _ _ _ _ => rfl) fun _ _ hc => hc
              rcases hfutures f with hf | ⟨rfl, hpending⟩
              · exact .inl hf
              · rw [hresolved] at hpending
                cases hpending
            rw [heq]
            refine hhead hdropped ht rfl rfl hun rfl fun id p hid hp => ?_
            obtain ⟨hold, hne⟩ := hentries id p hid
            obtain ⟨j, task', hj, hc, hp'⟩ := h.pending id p hold
            obtain rfl := h.futures i j _ task' _ _ ht hj hp hp' rfl
            obtain rfl := Option.some.inj (ht.symm.trans hj)
            exact hne hc.symm (Option.some.inj hp)
          · rename_i hcancelled
            obtain rfl := Option.some.inj hstep
            refine hfinish .cancelled fun hs => absurd hcancelled (hi.uncancelled ping rfl hs)
          · split at hstep
            · cases hstep
            · obtain rfl := Option.some.inj hstep
              have hclosing := h.setPc ht hun (.closing ping) (fun _ _ _ hp => hp)
                (fun _ hp => hp) (fun _ hp => by cases hp) (fun ho => by cases ho)
              have hreleased := hclosing.release (s.cancelFutures [ping.future]).futures
                s.heartbeatTasks (fun f => ?_) (fun _ _ _ _ _ => rfl) fun _ _ hc => hc
              · exact ⟨hreleased.close c closes, hgoes (setTask_self ..) rfl⟩
              · refine (cancelFutures_apply s [ping.future] f).imp_right fun ⟨hf, _⟩ => ?_
                obtain rfl := List.mem_singleton.1 hf
                refine ⟨hi.future ping rfl, fun j task' ping' hj hp' hf => ?_⟩
                by_cases hji : j = i
                · subst hji
                  obtain rfl := Option.some.inj ((setTask_self ..).symm.trans hj)
                  cases hp'
                · change Function.update s.tasks i _ j = _ at hj
                  rw [Function.update_of_ne hji] at hj
                  exact absurd (h.futures j i task' _ ping' ping hj ht (Pc.ping_of_awaits hp') rfl hf)
                    hji
      | closing ping =>
          obtain rfl := Option.some.inj hstep
          obtain rfl := hcloses ping rfl
          refine ⟨(h.close c true).finish ht hun (.closing ping) (.inr rfl) .pongMissed fun _ => ?_,
            fun task' ending htask' hdone _ => ?_⟩
          · change Function.update s.isClosed c (s.isClosed c || true) c = true
            rw [Function.update_self, Bool.or_true]
          · obtain rfl := Option.some.inj ((setTask_self ..).symm.trans htask')
            exact .inr (Pc.done.inj hdone).symm
      | done ending => cases hstep

/-! ## Changes of all tasks -/

/-- The change of a task keeps its round. -/
structure KeepsRound (s : Node) (task task' : HeartbeatTask) : Prop where
  connection : task'.connection = task.connection
  session : task'.session = task.session
  ping : task'.pc.ping = task.pc.ping
  awaits : task'.pc.awaits = task.pc.awaits
  finished : task'.pc.finished = task.pc.finished
  cancel : s.sessions task.connection ≠ none → task'.cancelRequested = task.cancelRequested
  isOver : task'.pc.isOver = true → task.pc.isOver = true ∨
    (s.sessions task.connection ≠ none → s.isClosed task.connection = true)

/-- Tasks move without a change of their round. -/
theorem Inv.mapTasks (h : Inv s) (f : ℕ → HeartbeatTask → HeartbeatTask)
    (hf : ∀ i task, s.tasks i = some task → KeepsRound s task (f i task)) :
    Inv { s with tasks := fun i => (s.tasks i).map (f i) } := by
  have hold : ∀ i task', (s.tasks i).map (f i) = some task' →
      ∃ task, s.tasks i = some task ∧ task' = f i task ∧ KeepsRound s task task' := by
    intro i task' hi
    obtain ⟨task, ht, rfl⟩ := Option.map_eq_some_iff.1 hi
    exact ⟨task, ht, rfl, hf i task ht⟩
  have hnew : ∀ i task, s.tasks i = some task → ∃ task',
      (s.tasks i).map (f i) = some task' ∧ KeepsRound s task task' := by
    intro i task ht
    exact ⟨f i task, by rw [ht]; rfl, hf i task ht⟩
  refine ⟨h.halted, h.readers, h.canonical, h.peers, fun i task' hi => ?_, fun i hi => ?_, h.freshFuture,
    fun c i hc => ?_, fun i j task task' hi hj hc huni hunj => ?_,
    fun i j task task' ping ping' hi hj hp hp' heq => ?_, fun id p hid => ?_,
    fun c session hc hs hb => ?_, h.channel, fun c channel i hc hm => ?_⟩
  · obtain ⟨task, ht, -, hk⟩ := hold i task' hi
    have hi := h.task i task ht
    refine ⟨?_, fun session hs => ?_, fun hun hs => ?_, fun ping hp => ?_, fun ping hp hs => ?_,
      fun hover hs => ?_⟩
    · rw [hk.connection]
      exact hi.registered
    · rw [hk.connection] at hs
      rw [hk.session]
      exact hi.session session hs
    · rw [hk.finished] at hun
      rw [hk.connection] at hs ⊢
      rw [hk.cancel hs]
      exact hi.live hun hs
    · exact hi.future ping (hk.ping.symm.trans hp)
    · rw [hk.connection] at hs
      exact hi.uncancelled ping (hk.awaits.symm.trans hp) hs
    · rw [hk.connection] at hs ⊢
      rcases hk.isOver hover with hold | hclosed
      · exact hi.closed hold hs
      · exact hclosed hs
  · change (s.tasks i).map (f i) = none
    rw [h.fresh i hi]
    rfl
  · obtain ⟨task, ht, hconn⟩ := h.entry c i hc
    obtain ⟨task', ht', hk⟩ := hnew i task ht
    exact ⟨task', ht', hk.connection.trans hconn⟩
  · obtain ⟨old, hold1, -, hk1⟩ := hold i task hi
    obtain ⟨old', hold2, -, hk2⟩ := hold j task' hj
    refine h.unique i j old old' hold1 hold2 ?_ (hk1.finished.symm.trans huni)
      (hk2.finished.symm.trans hunj)
    exact hk1.connection.symm.trans (hc.trans hk2.connection)
  · obtain ⟨old, hold1, -, hk1⟩ := hold i task hi
    obtain ⟨old', hold2, -, hk2⟩ := hold j task' hj
    exact h.futures i j old old' ping ping' hold1 hold2 (hk1.ping.symm.trans hp)
      (hk2.ping.symm.trans hp') heq
  · obtain ⟨i, task, ht, hc, hp⟩ := h.pending id p hid
    obtain ⟨task', ht', hk⟩ := hnew i task ht
    exact ⟨i, task', ht', hk.connection.trans hc, hk.ping.trans hp⟩
  · obtain ⟨i, task, ht, hconn⟩ := h.supervised c session hc hs hb
    obtain ⟨task', ht', hk⟩ := hnew i task ht
    exact ⟨i, task', ht', hk.connection.trans hconn⟩
  · obtain ⟨task, ht, hconn⟩ := h.frames c channel i hc hm
    obtain ⟨task', ht', hk⟩ := hnew i task ht
    exact ⟨task', ht', hk.connection.trans hconn⟩

/-- Frames fail whose tasks have lost their session, or have a closed connection. -/
theorem Inv.failFrames (h : Inv s) {frames : List (Option ℕ)}
    (hframes : ∀ i task, s.tasks i = some task → some i ∈ frames →
      s.sessions task.connection ≠ none → s.isClosed task.connection = true) :
    Inv (s.failFrames frames) := by
  refine h.mapTasks _ fun i task ht => ?_
  split
  · rename_i hmem
    have hclosed := hframes i task ht hmem
    obtain ⟨c, session, pc, cancelRequested⟩ := task
    cases pc <;> exact ⟨rfl, rfl, rfl, rfl, rfl, fun _ => rfl, fun _ => .inr hclosed⟩
  · exact ⟨rfl, rfl, rfl, rfl, rfl, fun _ => rfl, .inl⟩

/-- The frame of a writer is written. -/
theorem Inv.frameWritten (h : Inv s) (frame : Option ℕ) : Inv (s.frameWritten frame) := by
  refine h.mapTasks _ fun i task _ => ?_
  split
  · rename_i ping hpc
    split
    · refine ⟨rfl, rfl, ?_, ?_, ?_, fun _ => rfl, nofun⟩
      · rw [hpc]
        rfl
      · rw [hpc]
        rfl
      · rw [hpc]
        rfl
    · exact ⟨rfl, rfl, rfl, rfl, rfl, fun _ => rfl, .inl⟩
  · exact ⟨rfl, rfl, rfl, rfl, rfl, fun _ => rfl, .inl⟩

/-- Tasks without a session are cancelled. -/
theorem Inv.cancelTasks (h : Inv s) (selected : ℕ → HeartbeatTask → Bool)
    (hselected : ∀ i task, s.tasks i = some task → selected i task = true →
      s.sessions task.connection = none) : Inv (s.cancelTasks selected) := by
  refine h.mapTasks _ fun i task ht => ⟨rfl, rfl, rfl, rfl, rfl, fun hs => ?_, .inl⟩
  have hnot : selected i task = false :=
    Bool.eq_false_iff.2 fun htrue => hs (hselected i task ht htrue)
  change (task.cancelRequested || selected i task) = task.cancelRequested
  rw [hnot, Bool.or_false]

/-! ## Sessions -/

/-- A session is registered, with its task. -/
theorem Inv.registerSession (h : Inv s) {c : ℕ} {session : Session} (hrunning : s.running = true)
    (hnew : s.registered c = false) (hpeer : s.peerConnections session.peerId = none) :
    Inv (s.registerSession c session) := by
  have hregistered : ∀ c', s.registered c' = true →
      c' ≠ c ∧ (s.registerSession c session).registered c' = true := by
    intro c' hc'
    have hne : c' ≠ c := by
      rintro rfl
      rw [hnew] at hc'
      cases hc'
    exact ⟨hne, (Function.update_of_ne hne ..).trans hc'⟩
  have hsession : ∀ c', c' ≠ c → (s.registerSession c session).sessions c' = s.sessions c' :=
    fun c' hc' => Function.update_of_ne hc' ..
  have hself : (s.registerSession c session).sessions c = some session := Function.update_self ..
  have hothers : ∀ c' session', c' ≠ c → s.sessions c' = some session' →
      session'.peerId ≠ session.peerId := by
    intro c' session' _ hs heq
    have hp := (h.canonical c' session' hs).1
    rw [heq, hpeer] at hp
    cases hp
  refine ⟨h.halted, fun c' hc' => (hregistered c' (h.readers c' hc')).2, fun c' session' hs => ?_,
    fun peerId c' hp => ?_, fun i task ht => ?_, h.fresh, h.freshFuture, h.entry, h.unique, h.futures,
    h.pending, fun c' session' hc' hs hb => ?_, fun c' hs => ?_, fun c' channel i hc' hm => ?_⟩
  · by_cases hc : c' = c
    · subst hc
      obtain rfl := Option.some.inj (hself.symm.trans hs)
      exact ⟨Function.update_self .., hrunning, Function.update_self ..⟩
    · have hold : s.sessions c' = some session' := (hsession c' hc).symm.trans hs
      obtain ⟨hp, -, hr⟩ := h.canonical c' session' hold
      exact ⟨(Function.update_of_ne (hothers c' session' hc hold) ..).trans hp, hrunning,
        (hregistered c' hr).2⟩
  · change Function.update s.peerConnections session.peerId (some c) peerId = some c' at hp
    rw [Function.update_apply] at hp
    split at hp
    · rename_i heq
      obtain rfl := Option.some.inj hp
      exact ⟨session, hself, heq.symm⟩
    · obtain ⟨session', hs, hid⟩ := h.peers peerId c' hp
      exact ⟨session', (hsession c' (hregistered c' (h.canonical c' session' hs).2.2).1).trans hs, hid⟩
  · have hi := h.task i task ht
    obtain ⟨hne, hr⟩ := hregistered _ hi.registered
    exact hi.mono (fun _ => hr) (.inr ⟨hsession _ hne, rfl⟩) le_rfl (fun _ _ _ hf => hf) id
  · have hne := (hregistered c' (h.readers c' hc')).1
    exact h.supervised c' session' hc' ((hsession c' hne).symm.trans hs) hb
  · by_cases hc : c' = c
    · subst hc
      exact .inr ⟨_, Function.update_self .., rfl⟩
    · rw [hsession c' hc] at hs
      exact (h.channel c' hs).imp_right fun ⟨channel, hch, hopen⟩ =>
        ⟨channel, (Function.update_of_ne hc ..).trans hch, hopen⟩
  · change Function.update s.channels c _ c' = _ at hc'
    rw [Function.update_apply] at hc'
    split at hc'
    · obtain rfl := Option.some.inj hc'
      cases hm
    · exact h.frames c' channel i hc' hm

/-- Sessions go, and with them their place among the canonical ones. -/
theorem Inv.dropSessions (h : Inv s) {sessions : ℕ → Option Session}
    {peerConnections : Str → Option ℕ} (hsub : ∀ c, sessions c = none ∨ sessions c = s.sessions c)
    (hkeep : ∀ c session, sessions c = some session → peerConnections session.peerId = some c)
    (hpeers : ∀ peerId c, peerConnections peerId = some c →
      s.peerConnections peerId = some c ∧ sessions c = s.sessions c)
    (lastReceivedActivity : ℕ → Option ℚ) :
    Inv { s with sessions, peerConnections, lastReceivedActivity } := by
  have hold : ∀ c session, sessions c = some session → s.sessions c = some session := by
    intro c session hs
    rcases hsub c with hnone | hsame
    · rw [hnone] at hs
      cases hs
    · exact hsame.symm.trans hs
  refine ⟨h.halted, h.readers, fun c session hs => ?_, fun peerId c hp => ?_, fun i task ht => ?_, h.fresh,
    h.freshFuture, h.entry, h.unique, h.futures, h.pending, fun c session hc hs hb => ?_, fun c hs => ?_,
    h.frames⟩
  · exact ⟨hkeep c session hs, (h.canonical c session (hold c session hs)).2⟩
  · obtain ⟨hp, hs⟩ := hpeers peerId c hp
    change ∃ session, sessions c = some session ∧ _
    rw [hs]
    exact h.peers peerId c hp
  · exact (h.task i task ht).mono id ((hsub _).imp_right fun hs => ⟨hs, rfl⟩) le_rfl
      (fun _ _ _ hf => hf) id
  · exact h.supervised c session hc (hold c session hs) hb
  · obtain ⟨session, hs⟩ := Option.ne_none_iff_exists'.1 hs
    exact h.channel c (by rw [hold c session hs]; nofun)

/-- Only the connection's own place goes. -/
theorem Inv.deactivateSession_peers (h : Inv s) (c : ℕ) (peerId : Str) :
    (s.deactivateSession c).peerConnections peerId =
      if s.peerConnections peerId = some c then none else s.peerConnections peerId := by
  have hmine : s.peerConnections peerId = some c → ∃ session, s.sessions c = some session ∧
      session.peerId = peerId := h.peers peerId c
  unfold Node.deactivateSession
  cases hs : s.sessions c with
  | none =>
      rw [if_neg]
      intro hp
      obtain ⟨session, hs', -⟩ := hmine hp
      rw [hs] at hs'
      cases hs'
  | some session =>
      have hp := (h.canonical c session hs).1
      simp only [if_pos hp, Function.update_apply]
      by_cases heq : peerId = session.peerId
      · rw [if_pos heq, heq, if_pos hp]
      · rw [if_neg heq, if_neg]
        intro hp'
        obtain ⟨session', hs', hid⟩ := hmine hp'
        obtain rfl := Option.some.inj (hs.symm.trans hs')
        exact heq hid.symm

/-- A session is deactivated. -/
theorem Inv.deactivateSession (h : Inv s) (c : ℕ) : Inv (s.deactivateSession c) := by
  have hself : (s.deactivateSession c).sessions c = none := Function.update_self ..
  have hother : ∀ c', c' ≠ c → (s.deactivateSession c).sessions c' = s.sessions c' :=
    fun c' hc' => Function.update_of_ne hc' ..
  have hpeers := h.deactivateSession_peers c
  refine h.dropSessions (fun c' => ?_) (fun c' session hs => ?_) (fun peerId c' hp => ?_) _
  · by_cases hc : c' = c
    · exact .inl (hc ▸ hself)
    · exact .inr (hother c' hc)
  · have hne : c' ≠ c := by
      rintro rfl
      have hnone := hself.symm.trans hs
      cases hnone
    have hp := (h.canonical c' session ((hother c' hne).symm.trans hs)).1
    refine (hpeers session.peerId).trans ?_
    rw [if_neg, hp]
    intro hp'
    exact hne (Option.some.inj (hp.symm.trans hp'))
  · have hold := (hpeers peerId).symm.trans hp
    split at hold
    · cases hold
    · rename_i hne
      refine ⟨hold, hother c' ?_⟩
      rintro rfl
      exact hne hold

/-- A connection is supervised by a task that has not finished. -/
theorem supervised_iff (s : Node) (c : ℕ) : s.supervised c = true ↔
    ∃ i task, s.heartbeatTasks c = some i ∧ s.tasks i = some task ∧ task.pc.finished = false := by
  unfold Node.supervised
  cases htable : s.heartbeatTasks c with
  | none => simp
  | some i => cases ht : s.tasks i <;> simp [ht]

/-- A new task is another one. -/
theorem Inv.tasks_createTask (h : Inv s) {i : ℕ} {task : HeartbeatTask} (new : HeartbeatTask)
    (ht : s.tasks i = some task) : (s.setTask s.nextTask new).tasks i = some task := by
  refine (setTask_of_ne ?_ new).trans ht
  rintro rfl
  rw [h.fresh _ le_rfl] at ht
  cases ht

/-- No task of a connection without supervision is at work. -/
theorem Inv.finished_of_supervised (h : Inv s) {c i : ℕ} {session : Session} {task : HeartbeatTask}
    (hs : s.sessions c = some session) (hnone : s.supervised c = false)
    (ht : s.tasks i = some task) (hc : task.connection = c) : task.pc.finished = true := by
  by_contra hun
  rw [Bool.not_eq_true] at hun
  have htable := ((h.task i task ht).live hun (by rw [hc, hs]; nofun)).1
  rw [hc] at htable
  rw [(supervised_iff s c).2 ⟨i, task, htable, ht, hun⟩] at hnone
  cases hnone

/-- A connection without a task at work gets one. -/
theorem Inv.createTask (h : Inv s) {c : ℕ} {session : Session} (hs : s.sessions c = some session)
    (hnone : s.supervised c = false) (lastReceivedActivity : ℕ → Option ℚ) :
    Inv { s.setTask s.nextTask ⟨c, session, .created, false⟩ with
      readers := c :: s.readers
      lastReceivedActivity := lastReceivedActivity
      heartbeatTasks := Function.update s.heartbeatTasks c (some s.nextTask)
      nextTask := s.nextTask + 1 } where
  halted := h.halted
  readers c' hc' := by
    obtain ⟨-, -, hregistered⟩ := h.canonical c session hs
    obtain rfl | hc' := List.mem_cons.1 hc'
    · exact hregistered
    · exact h.readers c' hc'
  canonical := h.canonical
  peers := h.peers
  task i task ht := by
    obtain ⟨-, -, hregistered⟩ := h.canonical c session hs
    obtain ⟨rfl, rfl⟩ | ⟨-, hold⟩ := setTask_cases ht
    · refine ⟨hregistered, fun session' hs' => Option.some.inj (hs.symm.trans hs'),
        fun _ _ => ⟨Function.update_self .., rfl⟩, fun _ hp => ?_, fun _ hp => ?_, fun ho => ?_⟩
      · cases hp
      · cases hp
      · cases ho
    · have hi := h.task i task hold
      refine ⟨hi.registered, hi.session, fun hun hs' => ?_, hi.future, hi.uncancelled, hi.closed⟩
      have hne : task.connection ≠ c := fun hc => by
        rw [h.finished_of_supervised hs hnone hold hc] at hun
        cases hun
      obtain ⟨htable, hcancel⟩ := hi.live hun hs'
      exact ⟨(Function.update_of_ne hne ..).trans htable, hcancel⟩
  fresh i hi := by
    have hi' : s.nextTask + 1 ≤ i := hi
    exact (setTask_of_ne (by omega) _).trans (h.fresh i (by omega))
  freshFuture := h.freshFuture
  entry c' i hc' := by
    change Function.update s.heartbeatTasks c _ c' = _ at hc'
    rw [Function.update_apply] at hc'
    split at hc'
    · next heq =>
        obtain rfl := Option.some.inj hc'
        exact ⟨_, setTask_self .., heq.symm⟩
    · obtain ⟨task, ht, hconn⟩ := h.entry c' i hc'
      exact ⟨task, h.tasks_createTask _ ht, hconn⟩
  unique i j task task' hi hj hc huni hunj := by
    obtain ⟨rfl, rfl⟩ | ⟨-, hi⟩ := setTask_cases hi
    · obtain ⟨rfl, -⟩ | ⟨-, hj⟩ := setTask_cases hj
      · rfl
      · rw [h.finished_of_supervised hs hnone hj hc.symm] at hunj
        cases hunj
    · obtain ⟨rfl, rfl⟩ | ⟨-, hj⟩ := setTask_cases hj
      · rw [h.finished_of_supervised hs hnone hi hc] at huni
        cases huni
      · exact h.unique i j task task' hi hj hc huni hunj
  futures i j task task' ping ping' hi hj hp hp' heq := by
    obtain ⟨rfl, rfl⟩ | ⟨-, hi⟩ := setTask_cases hi
    · cases hp
    · obtain ⟨rfl, rfl⟩ | ⟨-, hj⟩ := setTask_cases hj
      · cases hp'
      · exact h.futures i j task task' ping ping' hi hj hp hp' heq
  pending id p hid := by
    obtain ⟨i, task, ht, hc, hp⟩ := h.pending id p hid
    exact ⟨i, task, h.tasks_createTask _ ht, hc, hp⟩
  supervised c' session' hc' hs' hb := by
    obtain rfl | hc' := List.mem_cons.1 hc'
    · exact ⟨_, _, setTask_self .., rfl⟩
    · obtain ⟨i, task, ht, hc⟩ := h.supervised c' session' hc' hs' hb
      exact ⟨i, task, h.tasks_createTask _ ht, hc⟩
  channel := h.channel
  frames c' channel i hc' hm := by
    obtain ⟨task, ht, hconn⟩ := h.frames c' channel i hc' hm
    exact ⟨task, h.tasks_createTask _ ht, hconn⟩

/-- **A reader starts, and its supervision.** -/
theorem Inv.read (h : Inv s) {c : ℕ} {session : Session} (hs : s.sessions c = some session) :
    Inv ({ s with readers := c :: s.readers }.ensureHeartbeat c session) := by
  obtain ⟨hpeer, -, hregistered⟩ := h.canonical c session hs
  let u : Node := { s with readers := c :: s.readers }
  have hu : (session.heartbeat = true → ∃ i task, s.tasks i = some task ∧ task.connection = c) →
      Inv u := by
    intro hex
    refine { h with
      readers := fun c' hc' => ?_
      task := fun i task ht => (h.task i task ht).mono id (.inr ⟨rfl, rfl⟩) le_rfl
        (fun _ _ _ hf => hf) id
      supervised := fun c' session' hc' hs' hb => ?_ }
    · rcases List.mem_cons.1 hc' with rfl | hc'
      · exact hregistered
      · exact h.readers c' hc'
    · rcases List.mem_cons.1 hc' with rfl | hc'
      · obtain rfl := Option.some.inj (hs.symm.trans hs')
        exact hex hb
      · exact h.supervised c' session' hc' hs' hb
  unfold Node.ensureHeartbeat
  split
  · rename_i hnone
    refine hu fun hb => ?_
    rw [hb, Bool.not_true, Bool.false_or, decide_eq_true_eq] at hnone
    exact absurd hpeer hnone
  · split
    · rename_i hsupervised
      obtain ⟨i, task, htable, ht, -⟩ := (supervised_iff _ c).1 hsupervised
      obtain ⟨task', ht', hconn⟩ := h.entry c i htable
      exact hu fun _ => ⟨i, task', ht', hconn⟩
    · rename_i hnot
      exact h.createTask hs (Bool.eq_false_iff.2 hnot) _

/-! ## Readers, writers and stop -/

/-- A PONG pops its entry, and resolves its future. -/
theorem Inv.resolveHeartbeat (h : Inv s) (c : ℕ) (pingId : Str) :
    Inv (s.resolveHeartbeat c pingId) := by
  unfold Node.resolveHeartbeat
  split
  · exact h
  · rename_i p hp
    split
    · have hpopped : Inv { s with pendingHeartbeats := s.pendingHeartbeats.erase pingId } := by
        refine h.popEntries fun id p hid => ?_
        rw [Dict.get?_erase] at hid
        split at hid
        · cases hid
        · exact hid
      obtain ⟨i, task, ht, -, hping⟩ := h.pending pingId p hp
      have hlt := (h.task i task ht).future _ hping
      have hfutures : ∀ f, (if s.futures p.future = .pending then
          Function.update s.futures p.future .resolved else s.futures) f = s.futures f ∨
          f = p.future ∧ (if s.futures p.future = .pending then
            Function.update s.futures p.future .resolved else s.futures) f = .resolved := by
        intro f
        split
        · by_cases hf : f = p.future
          · subst hf
            exact .inr ⟨rfl, Function.update_self ..⟩
          · exact .inl (Function.update_of_ne hf ..)
        · exact .inl rfl
      exact { hpopped with
        task := fun j task' hj =>
          have hj := hpopped.task j task' hj
          hj.mono id (.inr ⟨rfl, rfl⟩) le_rfl (fun ping _ _ hcancelled => by
            rcases hfutures ping.future with hf | ⟨-, hf⟩
            · exact hf.symm.trans hcancelled
            · cases hf.symm.trans hcancelled) id
        freshFuture := fun f hf => by
          rcases hfutures f with heq | ⟨rfl, -⟩
          · exact heq.trans (h.freshFuture f hf)
          · exact absurd hlt (Nat.not_lt.2 hf) }
    · exact h

/-- Entries of a connection without a session are failed. -/
theorem Inv.failHeartbeatsForConnection (h : Inv s) {c : ℕ} (hs : s.sessions c = none) :
    Inv (s.failHeartbeatsForConnection c) := by
  obtain ⟨entries, futures, heq, hentries, hfutures⟩ := failHeartbeatsForConnection_spec s c
  rw [heq]
  refine (h.popEntries fun id p hid => (hentries id p hid).1).release futures s.heartbeatTasks
    (fun f => ?_) (fun _ _ _ _ _ => rfl) fun _ _ hc => hc
  refine (hfutures f).imp_right fun ⟨id, p, hid, hc, hf⟩ => ?_
  obtain ⟨i, task, ht, hconn, hping⟩ := h.pending id p hid
  refine ⟨hf ▸ (h.task i task ht).future _ hping, fun j task' ping hj hp hpf => ?_⟩
  obtain rfl := h.futures i j task task' _ ping ht hj hping (Pc.ping_of_awaits hp)
    (hf.trans hpf.symm)
  obtain rfl := Option.some.inj (ht.symm.trans hj)
  change s.sessions task.connection = none
  rw [hconn, hc]
  exact hs

/-- The task of a connection without a session is cancelled. -/
theorem Inv.cancelHeartbeat (h : Inv s) {c : ℕ} (hs : s.sessions c = none) :
    Inv (s.cancelHeartbeat c) := by
  have hcancelled : Inv (s.cancelTasks fun i _ => s.heartbeatTasks c = some i) := by
    refine h.cancelTasks _ fun i task ht hi => ?_
    obtain ⟨task', ht', hconn⟩ := h.entry c i (of_decide_eq_true hi)
    obtain rfl := Option.some.inj (ht.symm.trans ht')
    rw [hconn]
    exact hs
  refine hcancelled.release s.futures _ (fun _ => .inl rfl) (fun i task _ _ hsession => ?_)
    fun c' i hc' => ?_
  · refine Function.update_of_ne ?_ ..
    rintro rfl
    exact hsession hs
  · rw [Function.update_apply] at hc'
    split at hc'
    · cases hc'
    · exact hc'

/-- A writer goes, whose connection is closed or has no session. -/
theorem Inv.dropChannel (h : Inv s) {c : ℕ}
    (hc : s.sessions c ≠ none → s.isClosed c = true) :
    Inv ({ s with channels := Function.update s.channels c none }.failFrames
      ((s.channels c).elim [] Channel.frames)) := by
  have hdropped : Inv { s with channels := Function.update s.channels c none } :=
    { h with
      task := fun i task ht =>
        have hi := h.task i task ht
        ⟨hi.registered, hi.session, hi.live, hi.future, hi.uncancelled, hi.closed⟩
      channel := fun c' hs => by
        by_cases hcc : c' = c
        · exact .inl (hcc ▸ hc (hcc ▸ hs))
        · exact (h.channel c' hs).imp_right fun ⟨channel, hch, hopen⟩ =>
            ⟨channel, (Function.update_of_ne hcc ..).trans hch, hopen⟩
      frames := fun c' channel i hc' hm => by
        change Function.update s.channels c none c' = _ at hc'
        rw [Function.update_apply] at hc'
        split at hc'
        · cases hc'
        · exact h.frames c' channel i hc' hm }
  refine hdropped.failFrames fun i task ht hm hs => ?_
  cases hch : s.channels c with
  | none =>
      rw [hch] at hm
      cases hm
  | some channel =>
      rw [hch] at hm
      obtain ⟨task', ht', hconn⟩ := h.frames c channel i hch hm
      obtain rfl := Option.some.inj (ht.symm.trans ht')
      rw [hconn] at hs ⊢
      exact hc hs

/-- A failed write closes the connection. -/
theorem Inv.sendFails (h : Inv s) {c : ℕ} {items : List (Option ℕ)} {frame : Option ℕ}
    (hc : s.channels c = some ⟨items, some frame, false⟩) :
    Inv (({ s with
      channels := Function.update s.channels c
        (some ⟨items, none, true⟩) }.failFrames [frame]).close c true) := by
  have hclosed := h.close c true
  have hself : (s.close c true).isClosed c = true := by
    change Function.update s.isClosed c (s.isClosed c || true) c = true
    rw [Function.update_self, Bool.or_true]
  have hput : Inv { s.close c true with
      channels := Function.update s.channels c (some ⟨items, none, true⟩) } :=
    { hclosed with
      task := fun i task ht =>
        have hi := hclosed.task i task ht
        ⟨hi.registered, hi.session, hi.live, hi.future, hi.uncancelled, hi.closed⟩
      channel := fun c' hs => by
        by_cases hcc : c' = c
        · exact .inl (hcc ▸ hself)
        · exact (hclosed.channel c' hs).imp_right fun ⟨channel, hch, hopen⟩ =>
            ⟨channel, (Function.update_of_ne hcc ..).trans hch, hopen⟩
      frames := fun c' channel i hc' hm => by
        change Function.update s.channels c _ c' = _ at hc'
        rw [Function.update_apply] at hc'
        split at hc'
        · rename_i hcc
          obtain rfl := Option.some.inj hc'
          obtain ⟨task, ht, hconn⟩ := h.frames c _ i hc (List.mem_cons_of_mem _ hm)
          exact ⟨task, ht, hconn.trans hcc.symm⟩
        · exact h.frames c' channel i hc' hm }
  refine hput.failFrames fun i task ht hm _ => ?_
  obtain ⟨task', ht', hconn⟩ := h.frames c _ i hc (List.mem_cons.2 (.inl (List.mem_singleton.1 hm)))
  obtain rfl := Option.some.inj (ht.symm.trans ht')
  rw [hconn]
  exact hself

/-- The node stops. -/
theorem Inv.stop (h : Inv s) : Inv s.stop := by
  have hfresh : ∀ f, s.nextFuture ≤ f → s.failAllHeartbeats.futures f = .pending := by
    intro f hf
    rcases cancelFutures_apply s (s.pendingHeartbeats.values.map (·.future)) f with heq | ⟨hmem, -⟩
    · exact heq.trans (h.freshFuture f hf)
    · obtain ⟨p, hp, rfl⟩ := List.mem_map.1 hmem
      obtain ⟨id, hid⟩ := (Dict.mem_values _).1 hp
      obtain ⟨i, task, ht, -, hping⟩ := h.pending id p hid
      exact absurd ((h.task i task ht).future _ hping) (Nat.not_lt.2 hf)
  -- The tables are cleared; the tasks follow.
  have hcleared : Inv { s.failAllHeartbeats with
      running := false
      stopping := true
      channels := fun _ => none
      sessions := fun _ => none
      peerConnections := fun _ => none
      lastReceivedActivity := fun _ => none } := by
    exact {
      halted := fun _ => rfl
      readers := h.readers
      canonical := fun _ _ hs => by cases hs
      peers := fun _ _ hp => by cases hp
      task := fun i task ht =>
        (h.task i task ht).mono id (.inl rfl) le_rfl (fun _ _ hs => absurd rfl hs) id
      fresh := h.fresh
      freshFuture := hfresh
      entry := h.entry
      unique := h.unique
      futures := h.futures
      pending := fun _ _ hid => by cases hid
      supervised := fun _ _ _ hs => by cases hs
      channel := fun _ hs => absurd rfl hs
      frames := fun _ _ _ hc => by cases hc }
  have hcancelled := hcleared.cancelTasks
    (fun i task => s.heartbeatTasks task.connection = some i) fun _ _ _ _ => rfl
  refine hcancelled.mapTasks (fun i task =>
    if some i ∈ (s.channels task.connection).elim [] Channel.frames then
      { task with pc := task.pc.failFrame } else task) fun i task ht => ?_
  split
  · obtain ⟨c, session, pc, cancelRequested⟩ := task
    cases pc <;> exact ⟨rfl, rfl, rfl, rfl, rfl, fun _ => rfl, fun _ => .inr fun hs => absurd rfl hs⟩
  · exact ⟨rfl, rfl, rfl, rfl, rfl, fun _ => rfl, .inl⟩

/-- **The invariant is kept** by every step that meets the condition. -/
theorem Inv.step (h : Inv s) {l : Label} (hG : KeepsBeating cfg s l)
    (hstep : s.step cfg l = some t) : Inv t := by
  have hsame : ∀ (now : ℚ) (lastReceivedActivity : ℕ → Option ℚ),
      Inv { s with now, lastReceivedActivity } := fun _ _ =>
    h.of_eq rfl rfl rfl rfl rfl rfl rfl rfl rfl rfl rfl rfl (fun _ hc => hc) rfl
  cases l with
  | time now =>
      simp only [Node.step] at hstep
      split at hstep
      · obtain rfl := Option.some.inj hstep
        exact hsame now s.lastReceivedActivity
      · cases hstep
  | closed c =>
      obtain rfl := Option.some.inj hstep
      exact h.close c true
  | register c session =>
      simp only [Node.step] at hstep
      split at hstep
      · rename_i hc
        obtain rfl := Option.some.inj hstep
        exact h.registerSession hc.1 hc.2.1 hc.2.2
      · cases hstep
  | deactivate c =>
      obtain rfl := Option.some.inj hstep
      exact h.deactivateSession c
  | read c =>
      simp only [Node.step] at hstep
      split at hstep
      · cases hstep
      · rename_i session hs
        split at hstep
        · cases hstep
        · obtain rfl := Option.some.inj hstep
          exact h.read hs
  | received c =>
      simp only [Node.step] at hstep
      split at hstep
      · obtain rfl := Option.some.inj hstep
        exact hsame s.now _
      · cases hstep
  | pong c pingId =>
      simp only [Node.step] at hstep
      split at hstep
      · obtain rfl := Option.some.inj hstep
        exact (hsame s.now _).resolveHeartbeat c pingId
      · cases hstep
  | readEnds c =>
      simp only [Node.step] at hstep
      split at hstep
      · obtain rfl := Option.some.inj hstep
        have hleft : Inv { s with readers := s.readers.filter (· ≠ c) } :=
          { h with
            readers := fun c' hc' => h.readers c' (List.mem_filter.1 hc').1
            task := fun i task ht => (h.task i task ht).mono id (.inr ⟨rfl, rfl⟩) le_rfl
              (fun _ _ _ hf => hf) id
            supervised := fun c' session hc' => h.supervised c' session (List.mem_filter.1 hc').1 }
        exact hleft.deactivateSession c
      · cases hstep
  | cancelHeartbeat c =>
      simp only [Node.step] at hstep
      split at hstep
      · rename_i hs
        obtain rfl := Option.some.inj hstep
        exact h.cancelHeartbeat hs
      · cases hstep
  | heartbeatCancelled c =>
      simp only [Node.step] at hstep
      split at hstep
      · rename_i hs
        obtain rfl := Option.some.inj hstep
        exact (hsame s.now _).failHeartbeatsForConnection hs
      · cases hstep
  | beat i pingId closes =>
      obtain ⟨task, ht, hbeat⟩ := Option.bind_eq_some_iff.1 hstep
      exact (h.beat ht hG hbeat).1
  | enqueue c =>
      simp only [Node.step] at hstep
      split at hstep
      · cases hstep
      · rename_i channel hc
        split at hstep
        · obtain rfl := Option.some.inj hstep
          refine h.putChannel channel hc _ _ fun i hi => h.frames c channel i hc ?_
          rw [← List.append_assoc] at hi
          rcases List.mem_append.1 hi with hi | hi
          · exact hi
          · cases List.mem_singleton.1 hi
        · cases hstep
  | writerTakes c =>
      simp only [Node.step] at hstep
      split at hstep
      · rename_i frame items hc
        obtain rfl := Option.some.inj hstep
        exact h.putChannel ⟨frame :: items, none, false⟩ hc _ _ fun i hi => h.frames c _ i hc hi
      · cases hstep
  | writerSent c =>
      simp only [Node.step] at hstep
      split at hstep
      · rename_i items frame hc
        obtain rfl := Option.some.inj hstep
        have htaken := h.putChannel ⟨items, some frame, false⟩ hc items none
          fun i hi => h.frames c _ i hc (List.mem_cons_of_mem _ hi)
        exact htaken.frameWritten frame
      · cases hstep
  | sendFails c closes =>
      obtain rfl : closes = true := hG
      simp only [Node.step] at hstep
      split at hstep
      · rename_i items frame hc
        obtain rfl := Option.some.inj hstep
        exact h.sendFails hc
      · cases hstep
  | writerEnds c closes =>
      simp only [Node.step] at hstep
      split at hstep
      · cases hstep
      · rename_i channel hc
        have hdrop := fun hclosed => h.dropChannel (c := c) hclosed
        rw [hc] at hdrop
        split at hstep
        · rename_i hclosing
          obtain rfl := Option.some.inj hstep
          refine (hdrop fun hs => ?_).close c closes
          rcases h.channel c hs with hclosed | ⟨channel', hc', hopen⟩
          · exact hclosed
          · obtain rfl := Option.some.inj (hc.symm.trans hc')
            rw [hopen] at hclosing
            cases hclosing
        · split at hstep
          · rename_i hends
            obtain rfl := Option.some.inj hstep
            refine hdrop fun hs => ?_
            rcases hends.2 with hclosed | hstopped
            · exact hclosed
            · obtain ⟨session, hs⟩ := Option.ne_none_iff_exists'.1 hs
              rw [(h.canonical c session hs).2.1] at hstopped
              cases hstopped
          · cases hstep
  | closeOutbound c =>
      simp only [Node.step] at hstep
      split at hstep
      · rename_i hs
        obtain rfl := Option.some.inj hstep
        exact h.dropChannel fun hsome => absurd hs hsome
      · cases hstep
  | stop =>
      simp only [Node.step] at hstep
      split at hstep
      · obtain rfl := Option.some.inj hstep
        exact h.stop
      · cases hstep
  | stopEnds =>
      simp only [Node.step] at hstep
      split at hstep
      · rename_i hstopping
        obtain rfl := Option.some.inj hstep
        have hnone : ∀ c, s.sessions c = none := by
          intro c
          by_contra hs
          obtain ⟨session, hs⟩ := Option.ne_none_iff_exists'.1 hs
          have hrunning := (h.canonical c session hs).2.1
          rw [h.halted hstopping] at hrunning
          cases hrunning
        have hcleared := h.release s.futures (fun _ => none) (fun _ => .inl rfl)
          (fun _ task _ _ hs => absurd (hnone _) hs) fun _ _ hc => by cases hc
        exact { hcleared with
          halted := nofun
          task := fun i task ht => (hcleared.task i task ht).mono id (.inr ⟨rfl, rfl⟩) le_rfl
            (fun _ _ _ hf => hf) id }
      · cases hstep
  | start =>
      simp only [Node.step] at hstep
      split at hstep
      · rename_i hstart
        rw [Bool.and_eq_true, Bool.not_eq_true', Bool.not_eq_true'] at hstart
        obtain rfl := Option.some.inj hstep
        exact { h with
          halted := fun hs => by
            rw [hstart.2] at hs
            cases hs
          canonical := fun c session hs => by
            obtain ⟨hp, -, hr⟩ := h.canonical c session hs
            exact ⟨hp, rfl, hr⟩
          task := fun i task ht => (h.task i task ht).mono id (.inr ⟨rfl, rfl⟩) le_rfl
            (fun _ _ _ hf => hf) id }
      · cases hstep

/-- **The invariant holds** in the runs that meet the condition. -/
theorem inv_of_reachable (h : ReachableWhen (system cfg) (KeepsBeating cfg) s) : Inv s := by
  refine ReachableWhen.invariant (I := Inv) ?_ (fun _ _ _ hi hG hs => hi.step hG hs) h
  rintro _ ⟨now, rfl⟩
  exact inv_initial now

end Heartbeat
end Core
end Paqto
