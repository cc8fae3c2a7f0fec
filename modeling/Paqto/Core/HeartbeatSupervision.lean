/-
# Heartbeat supervision ends with its session

A heartbeat task that ends while its session is canonical has closed the connection,
or finds it closed, in every run in which a ping that is to be sent fits into the
outbound queue, or waits for room, and in which `close()` of a connection whose write or
PONG has failed does close it (`heartbeats_supervised`).  Without room, and with the
policy that rejects, `_queue_frame` raises in the task, and nothing starts another one.
-/

import Paqto.Core.HeartbeatInvariant

namespace Paqto
namespace Core
namespace Heartbeat

open Python Transition

variable {cfg : Config} {s t : Node}

/-! ## What a step leaves alone -/

/-- Sessions and other tasks stay, and no future gets a result. -/
structure Frame (s t : Node) (i c : ℕ) : Prop where
  sessions : t.sessions = s.sessions
  self : ∀ task, t.tasks i = some task → task.connection = c
  tasks : ∀ j, j ≠ i → t.tasks j = s.tasks j
  futures : ∀ f, t.futures f = .resolved → s.futures f = .resolved

/-- A future that is cancelled is not resolved. -/
theorem cancelFutures_resolved {l : List ℕ} {f : ℕ}
    (h : (s.cancelFutures l).futures f = .resolved) : s.futures f = .resolved := by
  change (if f ∈ l ∧ s.futures f = .pending then Future.cancelled else s.futures f) = _ at h
  split at h
  · cases h
  · exact h

/-- Nor is that of a PING that is dropped. -/
theorem dropPing_resolved {c : ℕ} {ping : Ping} {f : ℕ}
    (h : (s.dropPing c ping).futures f = .resolved) : s.futures f = .resolved := by
  unfold Node.dropPing at h
  split at h
  · exact cancelFutures_resolved (s := { s with
      pendingHeartbeats := s.pendingHeartbeats.erase ping.id }) h
  · exact cancelFutures_resolved h

/-- A task keeps its connection. -/
theorem setTask_connection {task task' : HeartbeatTask} {i : ℕ}
    (h : (s.setTask i task).tasks i = some task') : task'.connection = task.connection := by
  obtain rfl := Option.some.inj ((setTask_self s i task).symm.trans h)
  rfl

/-- A task moves, and nothing else. -/
theorem setTask_frame (s : Node) (i : ℕ) (task : HeartbeatTask) :
    Frame s (s.setTask i task) i task.connection :=
  ⟨rfl, fun _ => setTask_connection, fun _ hj => Function.update_of_ne hj .., fun _ hf => hf⟩

/-- A task ends. -/
theorem finish_frame (s : Node) (i : ℕ) (task : HeartbeatTask) (ending : Ending) :
    Frame s (s.finish i task ending) i task.connection := by
  obtain ⟨entries, futures, table, heq, -⟩ := finish_spec s i task ending
  refine ⟨by rw [heq], fun task' ht => ?_, fun j hj => ?_, fun f hf => ?_⟩
  · obtain rfl := Option.some.inj ((setTask_self ..).symm.trans ht)
    rfl
  · rw [heq]
    exact Function.update_of_ne hj ..
  · have hfailed : ((s.endRound task).failHeartbeatsForConnection task.connection).futures f =
        .resolved := by
      unfold Node.finish at hf
      dsimp only at hf
      split at hf
      · exact hf
      · exact hf
    have hround := cancelFutures_resolved (s := s.endRound task) hfailed
    unfold Node.endRound at hround
    split at hround
    · exact hround
    · exact dropPing_resolved hround

/-- A task is at the head of its loop. -/
theorem loopHead_frame (cfg : Config) (s : Node) (i : ℕ) (task : HeartbeatTask) :
    Frame s (s.loopHead cfg i task) i task.connection := by
  unfold Node.loopHead
  split
  · exact finish_frame s i task _
  · exact setTask_frame s i { task with pc := _ }

/-- A task sends its PING. -/
theorem sendPing_frame (cfg : Config) (s : Node) (i : ℕ) (task : HeartbeatTask) (pingId : Str) :
    Frame s (s.sendPing cfg i task pingId) i task.connection := by
  let u : Node := { s with
    pendingHeartbeats := s.pendingHeartbeats.set pingId ⟨s.nextFuture, task.connection⟩
    nextFuture := s.nextFuture + 1 }
  have hu : ∀ {t : Node}, Frame u t i task.connection → Frame s t i task.connection :=
    fun h => ⟨h.sessions, h.self, h.tasks, h.futures⟩
  refine hu ?_
  change Frame u (u.queuePing cfg i task ⟨pingId, s.nextFuture⟩) i task.connection
  unfold Node.queuePing
  dsimp only
  split
  · exact finish_frame u i { task with pc := _ } _
  · split
    · exact finish_frame u i { task with pc := _ } _
    · split
      · have hset := setTask_frame u i { task with pc := .queued ⟨pingId, s.nextFuture⟩ s.now }
        exact ⟨hset.sessions, hset.self, hset.tasks, hset.futures⟩
      · split
        · exact setTask_frame u i { task with pc := _ }
        · exact finish_frame u i { task with pc := _ } _

/-- **A step of a task touches nothing else.** -/
theorem beat_frame {i : ℕ} {task : HeartbeatTask} {pingId : Str} {closes : Bool}
    (hstep : s.beat cfg i task pingId closes = some t) : Frame s t i task.connection := by
  unfold Node.beat at hstep
  split at hstep
  · cases hstep
  · split at hstep
    · exact Option.some.inj hstep ▸ finish_frame s i task _
    · split at hstep
      · exact Option.some.inj hstep ▸ loopHead_frame cfg s i task
      · split at hstep
        · cases hstep
        · split at hstep
          · exact Option.some.inj hstep ▸ finish_frame s i task _
          · split at hstep
            · exact Option.some.inj hstep ▸ loopHead_frame cfg s i task
            · exact Option.some.inj hstep ▸ sendPing_frame cfg s i task pingId
      · rename_i ping now _
        split at hstep
        · cases hstep
        · split at hstep
          · obtain rfl := Option.some.inj hstep
            have hset := setTask_frame s i { task with pc := .queued ping now }
            exact ⟨hset.sessions, hset.self, hset.tasks, hset.futures⟩
          · cases hstep
      · cases hstep
      · exact Option.some.inj hstep ▸ setTask_frame s i { task with pc := _ }
      · exact Option.some.inj hstep ▸ finish_frame s i task _
      · rename_i ping deadline _
        split at hstep
        · obtain rfl := Option.some.inj hstep
          obtain ⟨entries, futures, heq, -⟩ := dropPing_spec s task.connection ping
          have hloop := loopHead_frame cfg (s.dropPing task.connection ping) i { task with pc := .created }
          exact ⟨hloop.sessions.trans (by rw [heq]), hloop.self,
            fun j hj => (hloop.tasks j hj).trans (by rw [heq]),
            fun f hf => dropPing_resolved (hloop.futures f hf)⟩
        · exact Option.some.inj hstep ▸ finish_frame s i task _
        · split at hstep
          · cases hstep
          · obtain rfl := Option.some.inj hstep
            have hset := setTask_frame (s.cancelFutures [ping.future]) i { task with pc := .closing ping }
            exact ⟨hset.sessions, hset.self, hset.tasks,
              fun f hf => cancelFutures_resolved (hset.futures f hf)⟩
      · obtain rfl := Option.some.inj hstep
        have hfinish := finish_frame (s.close task.connection closes) i task .pongMissed
        exact ⟨hfinish.sessions, hfinish.self, hfinish.tasks, hfinish.futures⟩
      · cases hstep

/-- No task ends, and no future gets a result. -/
structure Quiet (s t : Node) : Prop where
  tasks : ∀ i task', t.tasks i = some task' → task'.pc.finished = true →
    ∃ task, s.tasks i = some task ∧ task.pc.finished = true
  futures : ∀ f, t.futures f = .resolved → s.futures f = .resolved

/-- The tasks stay as they are. -/
theorem Quiet.of_eq (htasks : t.tasks = s.tasks)
    (hfutures : ∀ f, t.futures f = .resolved → s.futures f = .resolved) : Quiet s t :=
  ⟨fun _ task' ht hfin => ⟨task', htasks ▸ ht, hfin⟩, hfutures⟩

/-- One after the other. -/
theorem Quiet.trans {u : Node} (h : Quiet s t) (h' : Quiet t u) : Quiet s u where
  tasks _ task' ht hfin := by
    obtain ⟨task, ht, hfin⟩ := h'.tasks _ task' ht hfin
    exact h.tasks _ task ht hfin
  futures f hf := h.futures f (h'.futures f hf)

/-- Tasks move, and none of them ends. -/
theorem quiet_map (s : Node) (f : ℕ → HeartbeatTask → HeartbeatTask)
    (hf : ∀ i task, (f i task).pc.finished = task.pc.finished) :
    Quiet s { s with tasks := fun i => (s.tasks i).map (f i) } := by
  refine ⟨fun i task' ht hfin => ?_, fun _ hf => hf⟩
  obtain ⟨task, hold, rfl⟩ := Option.map_eq_some_iff.1 ht
  exact ⟨task, hold, (hf i task).symm.trans hfin⟩

/-- A task whose frame failed has not finished. -/
theorem failFrame_finished (pc : Pc) : pc.failFrame.finished = pc.finished := by
  cases pc <;> rfl

/-- Frames fail. -/
theorem quiet_failFrames (s : Node) (frames : List (Option ℕ)) : Quiet s (s.failFrames frames) := by
  refine quiet_map s _ fun _ task => ?_
  split
  · exact failFrame_finished task.pc
  · rfl

/-- A frame is written. -/
theorem quiet_frameWritten (s : Node) (frame : Option ℕ) : Quiet s (s.frameWritten frame) := by
  refine quiet_map s _ fun _ task => ?_
  split
  · rename_i ping hpc
    split
    · rw [hpc]
      rfl
    · rfl
  · rfl

/-- Tasks are cancelled. -/
theorem quiet_cancelTasks (s : Node) (selected : ℕ → HeartbeatTask → Bool) :
    Quiet s (s.cancelTasks selected) := quiet_map s _ fun _ _ => rfl

/-- A task is created. -/
theorem quiet_ensureHeartbeat (s : Node) (c : ℕ) (session : Session) :
    Quiet s (s.ensureHeartbeat c session) := by
  unfold Node.ensureHeartbeat
  split
  · exact .of_eq rfl fun _ hf => hf
  · split
    · exact .of_eq rfl fun _ hf => hf
    · refine ⟨fun i task' ht hfin => ?_, fun _ hf => hf⟩
      change Function.update s.tasks s.nextTask _ i = _ at ht
      rw [Function.update_apply] at ht
      split at ht
      · obtain rfl := Option.some.inj ht
        cases hfin
      · exact ⟨task', ht, hfin⟩

/-- Only a task that runs ends, and only a PONG resolves a future. -/
theorem step_quiet {l : Label} (hstep : s.step cfg l = some t)
    (hbeat : ∀ i pingId closes, l ≠ .beat i pingId closes) (hpong : ∀ c pingId, l ≠ .pong c pingId) :
    Quiet s t := by
  cases l with
  | beat i pingId closes => exact absurd rfl (hbeat i pingId closes)
  | pong c pingId => exact absurd rfl (hpong c pingId)
  | closed c | deactivate c =>
      obtain rfl := Option.some.inj hstep
      exact .of_eq rfl fun _ hf => hf
  | time | register | received | readEnds | enqueue | stopEnds | start =>
      simp only [Node.step] at hstep
      repeat' split at hstep
      all_goals first
        | exact Option.some.inj hstep ▸ .of_eq rfl fun _ hf => hf
        | cases hstep
  | writerTakes c =>
      simp only [Node.step] at hstep
      split at hstep
      · obtain rfl := Option.some.inj hstep
        exact .of_eq rfl fun _ hf => hf
      · cases hstep
  | read c =>
      simp only [Node.step] at hstep
      split at hstep
      · cases hstep
      · split at hstep
        · cases hstep
        · obtain rfl := Option.some.inj hstep
          have hread : Quiet s { s with readers := c :: s.readers } := .of_eq rfl fun _ hf => hf
          exact hread.trans (quiet_ensureHeartbeat _ c _)
  | cancelHeartbeat c =>
      simp only [Node.step] at hstep
      split at hstep
      · obtain rfl := Option.some.inj hstep
        have hcancel := quiet_cancelTasks s fun i _ => s.heartbeatTasks c = some i
        exact ⟨hcancel.tasks, hcancel.futures⟩
      · cases hstep
  | heartbeatCancelled c =>
      simp only [Node.step] at hstep
      split at hstep
      · obtain rfl := Option.some.inj hstep
        exact .of_eq rfl fun _ hf => cancelFutures_resolved (s := { s with
          lastReceivedActivity := Function.update s.lastReceivedActivity c none }) hf
      · cases hstep
  | writerSent c =>
      simp only [Node.step] at hstep
      split at hstep
      · rename_i items frame _
        obtain rfl := Option.some.inj hstep
        have hwritten := quiet_frameWritten s frame
        exact ⟨hwritten.tasks, hwritten.futures⟩
      · cases hstep
  | sendFails c closes =>
      simp only [Node.step] at hstep
      split at hstep
      · rename_i items frame _
        obtain rfl := Option.some.inj hstep
        have hfail := quiet_failFrames s [frame]
        exact ⟨hfail.tasks, hfail.futures⟩
      · cases hstep
  | writerEnds c closes =>
      simp only [Node.step] at hstep
      split at hstep
      · cases hstep
      · rename_i channel hc
        have hfail := quiet_failFrames s channel.frames
        split at hstep
        · obtain rfl := Option.some.inj hstep
          exact ⟨hfail.tasks, hfail.futures⟩
        · split at hstep
          · obtain rfl := Option.some.inj hstep
            exact ⟨hfail.tasks, hfail.futures⟩
          · cases hstep
  | closeOutbound c =>
      simp only [Node.step] at hstep
      split at hstep
      · obtain rfl := Option.some.inj hstep
        have hfail := quiet_failFrames s ((s.channels c).elim [] Channel.frames)
        exact ⟨hfail.tasks, hfail.futures⟩
      · cases hstep
  | stop =>
      simp only [Node.step] at hstep
      split at hstep
      · obtain rfl := Option.some.inj hstep
        have hcancel := quiet_cancelTasks s fun i task => s.heartbeatTasks task.connection = some i
        have hfail := quiet_map (s.cancelTasks fun i task => s.heartbeatTasks task.connection = some i)
          (fun i task => if some i ∈ (s.channels task.connection).elim [] Channel.frames then
            { task with pc := task.pc.failFrame } else task) fun i task => by
              split
              · exact failFrame_finished task.pc
              · rfl
        exact ⟨(hcancel.trans hfail).tasks, fun _ hf => cancelFutures_resolved hf⟩
      · cases hstep

/-! ## Supervision -/

/-- The session is registered, READY and canonical on an open connection. -/
structure OpenCanonical (s : Node) (c : ℕ) (session : Session) : Prop where
  registered : s.sessions c = some session
  canonical : s.peerConnections session.peerId = some c
  isOpen : s.isClosed c = false

/-- **Supervision does not silently stop**, in the runs whose steps meet `G`. -/
structure Supervised (cfg : Config) (G : Node → Label → Prop) (s : Node) : Prop where
  /-- A read session has its task, which is not done. -/
  task : s.running = true → ∀ c session, OpenCanonical s c session → session.heartbeat = true →
    c ∈ s.readers → ∃ i task, s.heartbeatTasks c = some i ∧ s.tasks i = some task ∧
      task.connection = c ∧ task.pc.finished = false
  /-- A connection has at most one outstanding ping. -/
  onePing : ∀ id id' p p', s.pendingHeartbeats.get? id = some p →
    s.pendingHeartbeats.get? id' = some p' → p.connection = p'.connection → id = id'
  /-- A task that ends while its session is canonical in a running node leaves the connection
  closed; it has closed it for a missed PONG, or has met it closed. -/
  ends : ∀ l t, G s l → s.step cfg l = some t → ∀ i task task' ending session,
    s.tasks i = some task → task.pc.finished = false → t.tasks i = some task' →
    task'.pc = .done ending → t.running = true → t.sessions task.connection = some session →
    t.peerConnections session.peerId = some task.connection →
    t.isClosed task.connection = true ∧
      (s.isClosed task.connection = false → ending = .pongMissed)
  /-- Only a PONG read on the connection that sent the ping resolves it. -/
  pong : ∀ l t, G s l → s.step cfg l = some t → ∀ f, s.futures f = .pending →
    t.futures f = .resolved → ∃ c pingId i task, l = .pong c pingId ∧ c ∈ s.readers ∧
      s.tasks i = some task ∧ task.connection = c ∧ task.pc.ping = some ⟨pingId, f⟩

/-- A step that ends a task is the step of the task. -/
theorem beat_of_ends {l : Label} (hstep : s.step cfg l = some t) {i : ℕ} {task task' : HeartbeatTask}
    (ht : s.tasks i = some task) (hun : task.pc.finished = false) (ht' : t.tasks i = some task')
    (hfin : task'.pc.finished = true) : ∃ pingId closes, l = .beat i pingId closes := by
  have hnot : (∃ old, s.tasks i = some old ∧ old.pc.finished = true) → False := by
    rintro ⟨old, hold, hfin⟩
    obtain rfl := Option.some.inj (ht.symm.trans hold)
    rw [hun] at hfin
    cases hfin
  by_cases hbeat : ∃ j pingId closes, l = .beat j pingId closes
  · obtain ⟨j, pingId, closes, rfl⟩ := hbeat
    by_cases hji : j = i
    · exact ⟨pingId, closes, by rw [hji]⟩
    · obtain ⟨task'', -, hb⟩ := Option.bind_eq_some_iff.1 hstep
      have hsame := (beat_frame hb).tasks i fun hij => hji hij.symm
      exact (hnot ⟨task', hsame ▸ ht', hfin⟩).elim
  · by_cases hpong : ∃ c pingId, l = .pong c pingId
    · obtain ⟨c, pingId, rfl⟩ := hpong
      simp only [Node.step] at hstep
      split at hstep
      · obtain rfl := Option.some.inj hstep
        unfold Node.resolveHeartbeat at ht'
        repeat' split at ht'
        all_goals exact (hnot ⟨task', ht', hfin⟩).elim
      · cases hstep
    · have hquiet := step_quiet hstep (fun j pingId closes hl => hbeat ⟨j, pingId, closes, hl⟩)
        fun c pingId hl => hpong ⟨c, pingId, hl⟩
      exact (hnot (hquiet.tasks i task' ht' hfin)).elim

/-- **Heartbeat supervision.**  In every run in which a ping that is sent fits into the
queue, or waits for room, and in which `close()` after a failed write or a missed PONG
does close: a read session that negotiated heartbeats has its task, with one outstanding
ping at most; a task that ends under a canonical session has closed the connection; and
a PONG resolves only a ping of its own connection. -/
theorem heartbeats_supervised (h : ReachableWhen (system cfg) (KeepsBeating cfg) s) :
    Supervised cfg (KeepsBeating cfg) s := by
  have hinv := inv_of_reachable h
  refine ⟨fun _ c session hopen hb hc => ?_, fun id id' p p' hid hid' hconn => ?_,
    fun l t hG hstep i task task' ending session ht hun ht' hdone _ hs _ => ?_,
    fun l t hG hstep f hpending hresolved => ?_⟩
  · obtain ⟨i, task, ht, rfl⟩ := hinv.supervised c session hc hopen.registered hb
    have hi := hinv.task i task ht
    have hs : s.sessions task.connection ≠ none := by
      rw [hopen.registered]
      nofun
    have hun : task.pc.finished = false := by
      by_contra hfin
      have hclosed := hi.closed (Pc.isOver_of_finished (Bool.eq_true_of_not_eq_false hfin)) hs
      rw [hopen.isOpen] at hclosed
      cases hclosed
    exact ⟨i, task, (hi.live hun hs).1, ht, rfl, hun⟩
  · obtain ⟨i, task, ht, hc, hp⟩ := hinv.pending id p hid
    obtain ⟨j, task', ht', hc', hp'⟩ := hinv.pending id' p' hid'
    obtain rfl := hinv.unique i j task task' ht ht' (hc.trans (hconn.trans hc'.symm))
      (Pc.finished_of_ping hp) (Pc.finished_of_ping hp')
    obtain rfl := Option.some.inj (ht.symm.trans ht')
    exact congrArg Ping.id (Option.some.inj (hp.symm.trans hp'))
  · obtain ⟨pingId, closes, rfl⟩ := beat_of_ends hstep ht hun ht' (by rw [hdone]; rfl)
    obtain ⟨task'', ht'', hb⟩ := Option.bind_eq_some_iff.1 hstep
    obtain rfl := Option.some.inj (ht.symm.trans ht'')
    have hs' : s.sessions task.connection ≠ none := by
      rw [← (beat_frame hb).sessions, hs]
      nofun
    obtain ⟨hinv', hends⟩ := hinv.beat ht hG hb
    have hconn : task'.connection = task.connection := (beat_frame hb).self task' ht'
    refine ⟨?_, fun hopen => ?_⟩
    · rw [← hconn]
      refine (hinv'.task i task' ht').closed (by rw [hdone]; rfl) ?_
      rw [hconn, hs]
      nofun
    · rcases hends task' ending ht' hdone hs' with hclosed | hmissed
      · rw [hopen] at hclosed
        cases hclosed
      · exact hmissed
  · by_cases hpong : ∃ c pingId, l = .pong c pingId
    · obtain ⟨c, pingId, rfl⟩ := hpong
      simp only [Node.step] at hstep
      split at hstep
      · rename_i hc
        obtain rfl := Option.some.inj hstep
        unfold Node.resolveHeartbeat at hresolved
        split at hresolved
        · rw [hpending] at hresolved
          cases hresolved
        · rename_i p hp
          split at hresolved
          · rename_i hmine
            obtain ⟨i, task, ht, hconn, hping⟩ := hinv.pending pingId p hp
            have hf : f = p.future := by
              by_contra hne
              dsimp only at hresolved
              split at hresolved
              · rw [Function.update_of_ne hne, hpending] at hresolved
                cases hresolved
              · rw [hpending] at hresolved
                cases hresolved
            exact ⟨c, pingId, i, task, rfl, hc, ht, hconn.trans hmine, hf ▸ hping⟩
          · rw [hpending] at hresolved
            cases hresolved
      · cases hstep
    · have hsame : s.futures f = .resolved := by
        by_cases hbeat : ∃ j pingId closes, l = .beat j pingId closes
        · obtain ⟨j, pingId, closes, rfl⟩ := hbeat
          obtain ⟨task, -, hb⟩ := Option.bind_eq_some_iff.1 hstep
          exact (beat_frame hb).futures f hresolved
        · exact (step_quiet hstep (fun j pingId closes hl => hbeat ⟨j, pingId, closes, hl⟩)
            fun c pingId hl => hpong ⟨c, pingId, hl⟩).futures f hresolved
      rw [hpending] at hsame
      cases hsame

/-! ## Two runs -/

/-- A PING after a second of silence, ten seconds for its PONG. -/
def sampleConfig (policy : BackpressurePolicy) : Config := ⟨1, 10, policy, 1⟩

/-- A session with peer `b` that negotiated heartbeats. -/
def sampleSession : Session := ⟨ofChars ['b'], true⟩

/-- The session is read, a PING is sent after a second, and its PONG read. -/
def sampleRun : List Label :=
  [.register 0 sampleSession, .read 0, .beat 0 [] true, .time 1, .beat 0 [] true, .writerTakes 0,
    .writerSent 0, .beat 0 [] true, .pong 0 [], .beat 0 [] true]

/-- The run meets the condition. -/
theorem sampleRun_keepsBeating :
    ∀ l ∈ sampleRun, ∀ s, KeepsBeating (sampleConfig .wait) s l := by
  have hbeat : ∀ i pingId s, KeepsBeating (sampleConfig .wait) s (.beat i pingId true) :=
    fun _ _ _ _ _ => ⟨fun _ => .inl rfl, fun _ _ => rfl⟩
  intro l hl s
  simp only [sampleRun, List.mem_cons, List.not_mem_nil, or_false] at hl
  rcases hl with rfl | rfl | rfl | rfl | rfl | rfl | rfl | rfl | rfl | rfl
  all_goals first
    | exact hbeat 0 [] s
    | trivial

/-- The task sleeps again after its PONG. -/
theorem heartbeats_supervised_sample :
    ∃ s, exec (Node.step (sampleConfig .wait)) (initial 0) sampleRun = some s ∧
      (s.tasks 0).map (·.pc) = some (.sleeping 2) ∧
      Supervised (sampleConfig .wait) (KeepsBeating (sampleConfig .wait)) s := by
  have hrun : (exec (Node.step (sampleConfig .wait)) (initial 0) sampleRun).map
      (fun s => (s.tasks 0).map (·.pc)) = some (some (.sleeping 2)) := by
    decide +kernel
  obtain ⟨s, hs, hpc⟩ := Option.map_eq_some_iff.1 hrun
  exact ⟨s, hs, hpc, heartbeats_supervised
    (reachableWhen_of_exec ⟨0, rfl⟩ sampleRun sampleRun_keepsBeating hs)⟩

/-- The outbound queue is full when the PING is due. -/
def fullRun : List Label :=
  [.register 0 sampleSession, .read 0, .beat 0 [] true, .enqueue 0, .writerTakes 0, .enqueue 0,
    .time 1, .beat 0 [] true]

/-- **Supervision stops silently** when the outbound queue is full and rejects: the session
is open, canonical and read, and has no task. -/
theorem not_heartbeats_supervised :
    ¬ ∀ s, Reachable (system (sampleConfig .reject)) s →
      Supervised (sampleConfig .reject) (fun _ _ => True) s := by
  intro hall
  have hrun : (exec (Node.step (sampleConfig .reject)) (initial 0) fullRun).map (fun s =>
      decide (s.running = true ∧ s.sessions 0 = some sampleSession ∧
        s.peerConnections sampleSession.peerId = some 0 ∧ s.isClosed 0 = false ∧ s.readers = [0] ∧
        s.heartbeatTasks 0 = none)) = some true := by
    decide +kernel
  obtain ⟨s, hs, hview⟩ := Option.map_eq_some_iff.1 hrun
  obtain ⟨hrunning, hsession, hpeer, hopen, hreaders, hnone⟩ := of_decide_eq_true hview
  have hsup := hall s (reachable_of_exec ⟨0, rfl⟩ fullRun hs)
  obtain ⟨i, task, htable, -⟩ := hsup.task hrunning 0 sampleSession ⟨hsession, hpeer, hopen⟩ rfl
    (by simp [hreaders])
  rw [hnone] at htable
  cases htable

end Heartbeat
end Core
end Paqto
