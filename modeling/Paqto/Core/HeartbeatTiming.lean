/-
# What heartbeat tasks know of the time

A heartbeat task looks for activity when its sleep is over, so a frame that arrives
just after the sleep began puts the PING off to the end of the next one.  `Pc.Heard`
says for each place of a task how far the clock can be from the last activity of its
connection, and every step keeps it for every task of a registered session (`Clocked`).

Time is the environment's.  `OnTime` says how late a timer may be served, how long a
PING may stay in the outbound queue (`_queue_frame` has no timeout of its own), and how
long one that was written may be unanswered before the task gives it up (`Delays`); what
is ready to run otherwise is done before time passes.
-/

import Paqto.Core.HeartbeatSupervision
import Mathlib.Tactic.Linarith

namespace Paqto
namespace Core
namespace Heartbeat

open Python Transition

/-- How long the environment takes. -/
structure Delays where
  /-- A timer is served at most so late. -/
  lateness : ℚ
  /-- A PING is written, and its task resumed, at most so long after it was made. -/
  queueing : ℚ
  /-- A PING that was written is answered, or given up, after so long at most. -/
  answer : ℚ
  lateness_nonneg : 0 ≤ lateness
  queueing_nonneg : 0 ≤ queueing
  answer_nonneg : 0 ≤ answer

/-- How long after the last activity the sleep ends after which the next PING is made. -/
def Delays.due (delays : Delays) (cfg : Config) : ℚ :=
  cfg.heartbeatInterval + max cfg.heartbeatInterval delays.queueing

/-- Two intervals may pass before the next PING is made. -/
theorem Delays.two_mul_le_due (delays : Delays) (cfg : Config) :
    2 * cfg.heartbeatInterval ≤ delays.due cfg := by
  unfold Delays.due
  linarith [le_max_left cfg.heartbeatInterval delays.queueing]

/-- A PONG may have been read since the last PING was queued. -/
theorem Delays.queueing_add_le_due (delays : Delays) (cfg : Config) :
    delays.queueing + cfg.heartbeatInterval ≤ delays.due cfg := by
  unfold Delays.due
  linarith [le_max_right cfg.heartbeatInterval delays.queueing]

variable {cfg : Config} {delays : Delays} {s t : Node}

/-! ## Time -/

/-- The clock may go on to `now`, as far as the task is concerned. -/
def Pc.allows (cfg : Config) (delays : Delays) (futures : ℕ → Future) (now : ℚ) : Pc → Prop
  | .sleeping wakeUp => now ≤ wakeUp + delays.lateness
  | .putting _ made | .queued _ made | .written _ made => now ≤ made + delays.queueing
  | .waiting ping deadline =>
      futures ping.future = .pending ∧ now ≤ deadline - cfg.heartbeatTimeout + delays.answer
  | .closing _ | .failed _ | .done _ => True
  | .created => False

/-- When time passes, every sleep was served at most `lateness` after its end, every
PING was written and its task resumed at most `queueing` after it was made, and answered or
given up at most `answer` later; and no task was left that is new or has its PONG. -/
def OnTime (cfg : Config) (delays : Delays) (s : Node) : Label → Prop
  | .time now => s.now < now → ∀ i task, s.tasks i = some task →
      s.heartbeatTasks task.connection = some i → task.pc.allows cfg delays s.futures now
  | _ => True

/-- The runs of a node that beats, on time. -/
def Timely (cfg : Config) (delays : Delays) (s : Node) (l : Label) : Prop :=
  KeepsBeating cfg s l ∧ OnTime cfg delays s l

/-! ## What a task knows of the last activity -/

/-- How far the clock is from the last activity `a` of the connection, by the place of
its task. -/
def Pc.Heard (cfg : Config) (delays : Delays) (a : ℚ) (s : Node) : Pc → Prop
  | .created => a = s.now
  | .sleeping wakeUp => wakeUp ≤ a + delays.due cfg ∧ s.now ≤ wakeUp + delays.lateness
  | .putting ping made | .queued ping made | .written ping made =>
      made ≤ a + delays.due cfg + delays.lateness ∧ made ≤ s.now ∧
        s.now ≤ made + delays.queueing ∧ (s.futures ping.future = .resolved → made ≤ a)
  | .waiting ping deadline =>
      (s.futures ping.future = .pending →
        deadline ≤
            a + delays.due cfg + delays.lateness + delays.queueing + cfg.heartbeatTimeout ∧
          s.now ≤ deadline - cfg.heartbeatTimeout + delays.answer) ∧
        (s.futures ping.future = .resolved → s.now ≤ a + delays.queueing)
  | .closing _ => cfg.heartbeatTimeout ≤ delays.answer
  | .failed _ | .done _ => True

/-- The activity of a registered session is known, and its tasks go by it. -/
structure Clocked (cfg : Config) (delays : Delays) (s : Node) : Prop where
  activity : ∀ c, s.sessions c ≠ none → ∃ a, s.lastReceivedActivity c = some a ∧ a ≤ s.now
  heard : ∀ i task a, s.tasks i = some task → s.sessions task.connection ≠ none →
    s.lastReceivedActivity task.connection = some a → task.pc.Heard cfg delays a s

/-- No future gets a result or is new, and neither is the clock. -/
structure Calm (s t : Node) : Prop where
  now : t.now = s.now
  pending : ∀ f, t.futures f = .pending → s.futures f = .pending
  resolved : ∀ f, t.futures f = .resolved → s.futures f = .resolved

/-- The time and the futures stay as they are. -/
theorem Calm.of_eq (hnow : t.now = s.now) (hfutures : t.futures = s.futures) : Calm s t :=
  ⟨hnow, fun _ hf => hfutures ▸ hf, fun _ hf => hfutures ▸ hf⟩

/-- One after the other. -/
theorem Calm.trans {u : Node} (h : Calm s t) (h' : Calm t u) : Calm s u :=
  ⟨h'.now.trans h.now, fun f hf => h.pending f (h'.pending f hf),
    fun f hf => h.resolved f (h'.resolved f hf)⟩

/-- Futures are cancelled. -/
theorem calm_cancelFutures (s : Node) (l : List ℕ) : Calm s (s.cancelFutures l) := by
  refine ⟨rfl, fun f hf => ?_, fun f hf => cancelFutures_resolved hf⟩
  change (if f ∈ l ∧ s.futures f = .pending then Future.cancelled else s.futures f) = _ at hf
  split at hf
  · cases hf
  · exact hf

/-- What was heard stays true when nothing is heard. -/
theorem Pc.Heard.calm {pc : Pc} {a : ℚ} (h : pc.Heard cfg delays a s) (hcalm : Calm s t) :
    pc.Heard cfg delays a t := by
  cases pc with
  | created => exact h.trans hcalm.now.symm
  | sleeping wakeUp => exact ⟨h.1, hcalm.now ▸ h.2⟩
  | putting ping made | queued ping made | written ping made =>
      obtain ⟨hdue, hmade, hwritten, hpong⟩ := h
      exact ⟨hdue, hcalm.now ▸ hmade, hcalm.now ▸ hwritten, fun hf => hpong (hcalm.resolved _ hf)⟩
  | waiting ping deadline =>
      refine ⟨fun hf => ?_, fun hf => hcalm.now ▸ h.2 (hcalm.resolved _ hf)⟩
      rw [hcalm.now]
      exact h.1 (hcalm.pending _ hf)
  | closing ping => exact h
  | failed ping | done ending => trivial

/-- A frame that is read now is heard by the task. -/
theorem Pc.Heard.heardNow {pc : Pc} {a : ℚ} (h : pc.Heard cfg delays a s) (ha : a ≤ s.now) :
    pc.Heard cfg delays s.now s := by
  cases pc with
  | created => rfl
  | sleeping wakeUp => exact ⟨by linarith [h.1], h.2⟩
  | putting ping made | queued ping made | written ping made =>
      obtain ⟨hdue, hmade, hwritten, -⟩ := h
      exact ⟨by linarith, hmade, hwritten, fun _ => hmade⟩
  | waiting ping deadline =>
      refine ⟨fun hf => ?_, fun _ => le_add_of_nonneg_right delays.queueing_nonneg⟩
      obtain ⟨hdeadline, hnow⟩ := h.1 hf
      exact ⟨by linarith, hnow⟩
  | closing ping => exact h
  | failed ping | done ending => trivial

/-! ## Steps that are not the tasks' -/

/-- The place of the task is the old one, or it has been told that its frame was
written or has failed. -/
def Pc.Told (old new : Pc) : Prop :=
  new = old ∨ ∃ ping made, old = .queued ping made ∧ (new = .written ping made ∨ new = .failed ping)

/-- A task that was told of its frame has heard as much. -/
theorem Pc.Heard.told {old new : Pc} {a : ℚ} (h : old.Heard cfg delays a s)
    (htold : old.Told new) : new.Heard cfg delays a s := by
  rcases htold with rfl | ⟨ping, made, rfl, rfl | rfl⟩
  · exact h
  · exact h
  · trivial

/-- The step leaves each task where it was, or tells it about its frame. -/
def TasksTold (s t : Node) : Prop :=
  ∀ i task', t.tasks i = some task' → ∃ task, s.tasks i = some task ∧
    task.connection = task'.connection ∧ task.pc.Told task'.pc

/-- The tasks stay as they are. -/
theorem TasksTold.of_eq (h : t.tasks = s.tasks) : TasksTold s t :=
  fun _ task' ht => ⟨task', h ▸ ht, rfl, .inl rfl⟩

/-- Tasks are told something. -/
theorem TasksTold.map (f : ℕ → HeartbeatTask → HeartbeatTask)
    (hconnection : ∀ i (task : HeartbeatTask), (f i task).connection = task.connection)
    (hpc : ∀ i (task : HeartbeatTask), task.pc.Told (f i task).pc)
    (h : t.tasks = fun i => (s.tasks i).map (f i)) : TasksTold s t := by
  intro i task' ht
  rw [h] at ht
  obtain ⟨task, hold, rfl⟩ := Option.map_eq_some_iff.1 ht
  exact ⟨task, hold, (hconnection i task).symm, hpc i task⟩

/-- A task is told that its frame has failed. -/
theorem failFrame_told (pc : Pc) : pc.Told pc.failFrame := by
  cases pc with
  | queued ping made => exact .inr ⟨ping, made, rfl, .inr rfl⟩
  | _ => exact .inl rfl

/-- **A step that runs no task and lets no time pass.**  What is registered after it
was so before, and the activity of a connection stays or is now. -/
theorem Clocked.kept (h : Clocked cfg delays s) (hcalm : Calm s t)
    (hsessions : ∀ c, t.sessions c ≠ none → s.sessions c ≠ none ∧
      (t.lastReceivedActivity c = s.lastReceivedActivity c ∨ t.lastReceivedActivity c = some s.now))
    (htasks : TasksTold s t) : Clocked cfg delays t where
  activity c hc := by
    obtain ⟨hs, hsame | hnow⟩ := hsessions c hc
    · rw [hsame, hcalm.now]
      exact h.activity c hs
    · exact ⟨s.now, hnow, le_of_eq hcalm.now.symm⟩
  heard i task' a ht hc ha := by
    obtain ⟨task, hold, hconnection, htold⟩ := htasks i task' ht
    rw [← hconnection] at hc ha
    obtain ⟨hs, hactivity⟩ := hsessions _ hc
    obtain ⟨b, hb, hle⟩ := h.activity _ hs
    have hheard := h.heard i task b hold hs hb
    rcases hactivity with hsame | hnow
    · obtain rfl := Option.some.inj (hb.symm.trans (hsame.symm.trans ha))
      exact (hheard.told htold).calm hcalm
    · obtain rfl := Option.some.inj (hnow.symm.trans ha)
      exact ((hheard.heardNow hle).told htold).calm hcalm

/-- Tasks are told that their frames have failed. -/
theorem tasksTold_failFrames (s : Node) (frames : List (Option ℕ)) :
    TasksTold s (s.failFrames frames) := by
  refine .map _ (fun i task => ?_) (fun i task => ?_) rfl
  · split <;> rfl
  · split
    · exact failFrame_told task.pc
    · exact .inl rfl

/-- A task is told that its frame was written. -/
theorem tasksTold_frameWritten (s : Node) (frame : Option ℕ) : TasksTold s (s.frameWritten frame) := by
  refine .map _ (fun i task => ?_) (fun i task => ?_) rfl
  · split
    · split <;> rfl
    · rfl
  · split
    · rename_i ping made hpc
      split
      · exact .inr ⟨ping, made, hpc, .inl rfl⟩
      · exact .inl rfl
    · exact .inl rfl

/-- A stop tells the tasks. -/
theorem tasksTold_stop (s : Node) : TasksTold s s.stop := by
  intro i task' ht
  obtain ⟨task, hcancelled, rfl⟩ := Option.map_eq_some_iff.1 ht
  obtain ⟨old, hold, rfl⟩ := Option.map_eq_some_iff.1 hcancelled
  refine ⟨old, hold, ?_, ?_⟩
  · split <;> rfl
  · split
    · exact failFrame_told old.pc
    · exact .inl rfl

/-- What is still registered after a session is taken out. -/
theorem deactivateSession_registered (s : Node) (c : ℕ) {d : ℕ}
    (hd : (s.deactivateSession c).sessions d ≠ none) :
    s.sessions d ≠ none ∧ (s.deactivateSession c).lastReceivedActivity d = s.lastReceivedActivity d := by
  change Function.update s.sessions c none d ≠ none at hd
  by_cases hdc : d = c
  · rw [hdc, Function.update_self] at hd
    exact absurd rfl hd
  · rw [Function.update_of_ne hdc] at hd
    exact ⟨hd, Function.update_of_ne hdc ..⟩

/-- **What neither runs a task, reads a PONG, registers nor starts anything.** -/
theorem Clocked.other (h : Clocked cfg delays s) {l : Label}
    (hstep : s.step cfg l = some t) (hbeat : ∀ i pingId closes, l ≠ .beat i pingId closes)
    (hpong : ∀ c pingId, l ≠ .pong c pingId) (htime : ∀ now, l ≠ .time now)
    (hregister : ∀ c session, l ≠ .register c session) (hread : ∀ c, l ≠ .read c) :
    Clocked cfg delays t := by
  have hsame : ∀ {u : Node}, u.now = s.now → u.futures = s.futures → TasksTold s u →
      u.sessions = s.sessions → u.lastReceivedActivity = s.lastReceivedActivity →
      Clocked cfg delays u := fun hnow hfutures htasks hsessions hactivity =>
    h.kept (.of_eq hnow hfutures) (fun c hc => ⟨hsessions ▸ hc, .inl (by rw [hactivity])⟩) htasks
  cases l with
  | beat i pingId closes => exact absurd rfl (hbeat i pingId closes)
  | pong c pingId => exact absurd rfl (hpong c pingId)
  | time now => exact absurd rfl (htime now)
  | register c session => exact absurd rfl (hregister c session)
  | read c => exact absurd rfl (hread c)
  | closed c =>
      obtain rfl := Option.some.inj hstep
      exact hsame rfl rfl (.of_eq rfl) rfl rfl
  | deactivate c =>
      obtain rfl := Option.some.inj hstep
      exact h.kept (.of_eq rfl rfl)
        (fun d hd => (deactivateSession_registered s c hd).imp_right .inl) (.of_eq rfl)
  | received c =>
      simp only [Node.step] at hstep
      split at hstep
      · obtain rfl := Option.some.inj hstep
        refine h.kept (.of_eq rfl rfl) (fun d hd => ⟨hd, ?_⟩) (.of_eq rfl)
        by_cases hdc : d = c
        · exact .inr (hdc ▸ Function.update_self ..)
        · exact .inl (Function.update_of_ne hdc ..)
      · cases hstep
  | readEnds c =>
      simp only [Node.step] at hstep
      split at hstep
      · obtain rfl := Option.some.inj hstep
        exact h.kept (.of_eq rfl rfl)
          (fun d hd => (deactivateSession_registered _ c hd).imp_right .inl) (.of_eq rfl)
      · cases hstep
  | cancelHeartbeat c =>
      simp only [Node.step] at hstep
      split at hstep
      · obtain rfl := Option.some.inj hstep
        refine hsame rfl rfl (fun i task' ht => ?_) rfl rfl
        obtain ⟨task, hold, rfl⟩ := Option.map_eq_some_iff.1 ht
        exact ⟨task, hold, rfl, .inl rfl⟩
      · cases hstep
  | heartbeatCancelled c =>
      simp only [Node.step] at hstep
      split at hstep
      · rename_i hnone
        obtain rfl := Option.some.inj hstep
        have hcalm := calm_cancelFutures s
          ((s.pendingHeartbeats.values.filter (·.connection = c)).map (·.future))
        refine h.kept ⟨rfl, hcalm.pending, hcalm.resolved⟩ (fun d hd => ⟨hd, .inl ?_⟩) (.of_eq rfl)
        have hdc : d ≠ c := fun hdc => hd (hdc ▸ hnone)
        exact Function.update_of_ne hdc ..
      · cases hstep
  | enqueue c | stopEnds | start =>
      simp only [Node.step] at hstep
      repeat' split at hstep
      all_goals first
        | exact Option.some.inj hstep ▸ hsame rfl rfl (.of_eq rfl) rfl rfl
        | cases hstep
  | writerTakes c =>
      simp only [Node.step] at hstep
      split at hstep
      · exact Option.some.inj hstep ▸ hsame rfl rfl (.of_eq rfl) rfl rfl
      · cases hstep
  | writerSent c =>
      simp only [Node.step] at hstep
      split at hstep
      · rename_i items frame _
        exact Option.some.inj hstep ▸ hsame rfl rfl (tasksTold_frameWritten s frame) rfl rfl
      · cases hstep
  | sendFails c closes =>
      simp only [Node.step] at hstep
      split at hstep
      · rename_i items frame _
        exact Option.some.inj hstep ▸ hsame rfl rfl (tasksTold_failFrames s [frame]) rfl rfl
      · cases hstep
  | writerEnds c closes =>
      simp only [Node.step] at hstep
      split at hstep
      · cases hstep
      · rename_i channel _
        have htold := tasksTold_failFrames s channel.frames
        split at hstep
        · exact Option.some.inj hstep ▸ hsame rfl rfl htold rfl rfl
        · split at hstep
          · exact Option.some.inj hstep ▸ hsame rfl rfl htold rfl rfl
          · cases hstep
  | closeOutbound c =>
      simp only [Node.step] at hstep
      split at hstep
      · exact Option.some.inj hstep ▸
          hsame rfl rfl (tasksTold_failFrames s ((s.channels c).elim [] Channel.frames)) rfl rfl
      · cases hstep
  | stop =>
      simp only [Node.step] at hstep
      split at hstep
      · obtain rfl := Option.some.inj hstep
        have hcalm := calm_cancelFutures s (s.pendingHeartbeats.values.map (·.future))
        exact h.kept ⟨rfl, hcalm.pending, hcalm.resolved⟩ (fun c hc => absurd rfl hc)
          (tasksTold_stop s)
      · cases hstep

/-! ## The clock, a new session and a PONG -/

/-- Time passes. -/
theorem Clocked.time (h : Clocked cfg delays s) (hinv : Inv s) {now : ℚ}
    (hle : s.now ≤ now) (hG : OnTime cfg delays s (.time now)) :
    Clocked cfg delays { s with now } := by
  rcases hle.eq_or_lt with rfl | hlt
  · exact h
  refine ⟨fun c hc => ?_, fun i task a ht hc ha => ?_⟩
  · obtain ⟨a, ha, hac⟩ := h.activity c hc
    exact ⟨a, ha, hac.trans hle⟩
  · have hheard := h.heard i task a ht hc ha
    by_cases hfin : task.pc.finished = true
    · obtain ⟨ending, hdone⟩ : ∃ ending, task.pc = .done ending := by
        cases hpc : task.pc with
        | done ending => exact ⟨ending, rfl⟩
        | _ =>
            rw [hpc] at hfin
            cases hfin
      rw [hdone]
      trivial
    · have hallows := hG hlt i task ht ((hinv.task i task ht).live (Bool.eq_false_iff.2 hfin) hc).1
      cases hpc : task.pc with
      | created =>
          rw [hpc] at hallows
          exact hallows.elim
      | putting ping made | queued ping made | written ping made =>
          rw [hpc] at hheard hallows
          exact ⟨hheard.1, hheard.2.1.trans hle, hallows, hheard.2.2.2⟩
      | sleeping wakeUp =>
          rw [hpc] at hheard hallows
          exact ⟨hheard.1, hallows⟩
      | waiting ping deadline =>
          rw [hpc] at hheard hallows
          refine ⟨fun hf => ⟨(hheard.1 hf).1, hallows.2⟩, fun hf => ?_⟩
          have hpending : s.futures ping.future = .pending := hallows.1
          rw [show s.futures ping.future = .resolved from hf] at hpending
          cases hpending
      | closing ping =>
          rw [hpc] at hheard
          exact hheard
      | failed ping | done ending => trivial

/-- A connection that was never registered has no task. -/
theorem Clocked.registerSession (h : Clocked cfg delays s) (hinv : Inv s) {c : ℕ}
    {session : Session} (hnew : s.registered c = false) :
    Clocked cfg delays (s.registerSession c session) where
  activity d hd := by
    by_cases hdc : d = c
    · exact ⟨s.now, hdc ▸ Function.update_self .., le_refl _⟩
    · obtain ⟨a, ha, hle⟩ := h.activity d fun hnone => hd ((Function.update_of_ne hdc ..).trans hnone)
      exact ⟨a, (Function.update_of_ne hdc ..).trans ha, hle⟩
  heard i task a ht hd ha := by
    have hne : task.connection ≠ c := by
      intro heq
      have hregistered := (hinv.task i task ht).registered
      rw [heq, hnew] at hregistered
      cases hregistered
    change Function.update s.sessions c (some session) task.connection ≠ none at hd
    change Function.update s.lastReceivedActivity c (some s.now) task.connection = some a at ha
    rw [Function.update_of_ne hne] at hd ha
    exact (h.heard i task a ht hd ha).calm (.of_eq rfl rfl)

/-- A new task has heard of the connection now. -/
theorem Clocked.ensureHeartbeat (h : Clocked cfg delays s) (c : ℕ) (session : Session) :
    Clocked cfg delays (s.ensureHeartbeat c session) := by
  unfold Node.ensureHeartbeat
  split
  · exact h
  · split
    · exact h
    · refine ⟨fun d hd => ?_, fun i task a ht hd ha => ?_⟩
      · by_cases hdc : d = c
        · exact ⟨s.now, hdc ▸ Function.update_self .., le_refl _⟩
        · obtain ⟨a, ha, hle⟩ := h.activity d hd
          exact ⟨a, (Function.update_of_ne hdc ..).trans ha, hle⟩
      · change Function.update s.lastReceivedActivity c (some s.now) task.connection = some a at ha
        change Function.update s.tasks s.nextTask _ i = some task at ht
        rw [Function.update_apply] at ht
        split at ht
        · obtain rfl := Option.some.inj ht
          rw [Function.update_self] at ha
          exact (Option.some.inj ha).symm
        · obtain ⟨b, hb, hle⟩ := h.activity task.connection hd
          have hheard := h.heard i task b ht hd hb
          rw [Function.update_apply] at ha
          split at ha
          · obtain rfl := Option.some.inj ha
            exact (hheard.heardNow hle).calm (.of_eq rfl rfl)
          · obtain rfl := Option.some.inj (hb.symm.trans ha)
            exact hheard.calm (.of_eq rfl rfl)

/-- **A PONG is read.**  The future it resolves is that of the ping of this connection. -/
theorem Clocked.pong (h : Clocked cfg delays s) (hinv : Inv s) (c : ℕ) (pingId : Str) :
    Clocked cfg delays ({ s with
      lastReceivedActivity := Function.update s.lastReceivedActivity c
        (some s.now) }.resolveHeartbeat c pingId) := by
  have hread : Clocked cfg delays { s with
      lastReceivedActivity := Function.update s.lastReceivedActivity c (some s.now) } := by
    refine h.kept (.of_eq rfl rfl) (fun d hd => ⟨hd, ?_⟩) (.of_eq rfl)
    by_cases hdc : d = c
    · exact .inr (hdc ▸ Function.update_self ..)
    · exact .inl (Function.update_of_ne hdc ..)
  unfold Node.resolveHeartbeat
  split
  · exact hread
  · rename_i p hp
    split
    · rename_i hmine
      refine ⟨hread.activity, fun i task a ht hs ha => ?_⟩
      have hheard := hread.heard i task a ht hs ha
      obtain ⟨j, owner, hj, howner, hping⟩ := hinv.pending pingId p hp
      -- a task with this future is at the connection whose activity is now
      have hnow : ∀ ping, task.pc.ping = some ping → ping.future = p.future → a = s.now := by
        intro ping htask hfuture
        obtain rfl := hinv.futures i j task owner ping _ ht hj htask hping hfuture
        obtain rfl := Option.some.inj (hj.symm.trans ht)
        rw [howner, hmine] at ha
        have hactivity : Function.update s.lastReceivedActivity c (some s.now) c = some a := ha
        rw [Function.update_self] at hactivity
        exact (Option.some.inj hactivity).symm
      have hpending : ∀ f, (if s.futures p.future = .pending then
          Function.update s.futures p.future .resolved else s.futures) f = .pending →
          s.futures f = .pending := by
        intro f hf
        split at hf
        · rw [Function.update_apply] at hf
          split at hf
          · cases hf
          · exact hf
        · exact hf
      have hresolved : ∀ f, (if s.futures p.future = .pending then
          Function.update s.futures p.future .resolved else s.futures) f = .resolved →
          s.futures f = .resolved ∨ f = p.future := by
        intro f hf
        split at hf
        · rw [Function.update_apply] at hf
          split at hf
          · rename_i heq
            exact .inr heq
          · exact .inl hf
        · exact .inl hf
      cases hpc : task.pc with
      | created | sleeping wakeUp | closing ping =>
          rw [hpc] at hheard
          exact hheard
      | putting ping made | queued ping made | written ping made =>
          rw [hpc] at hheard hnow
          obtain ⟨hdue, hmade, hwritten, hpong⟩ := hheard
          exact ⟨hdue, hmade, hwritten, fun hf => (hresolved _ hf).elim hpong fun heq =>
            hmade.trans_eq (hnow ping rfl heq).symm⟩
      | waiting ping deadline =>
          rw [hpc] at hheard hnow
          refine ⟨fun hf => hheard.1 (hpending _ hf),
            fun hf => (hresolved _ hf).elim hheard.2 fun heq => ?_⟩
          rw [hnow ping rfl heq]
          exact le_add_of_nonneg_right delays.queueing_nonneg
      | failed ping | done ending => trivial
    · exact hread

/-! ## A task runs -/

/-- No future gets a result, and what was heard of the connections stays. -/
structure Unheard (s t : Node) : Prop extends Calm s t where
  activity : t.lastReceivedActivity = s.lastReceivedActivity

/-- One after the other. -/
theorem Unheard.trans {u : Node} (h : Unheard s t) (h' : Unheard t u) : Unheard s u :=
  ⟨h.toCalm.trans h'.toCalm, h'.activity.trans h.activity⟩

/-- Nothing is received. -/
theorem Unheard.of_eq (hnow : t.now = s.now) (hfutures : t.futures = s.futures)
    (hactivity : t.lastReceivedActivity = s.lastReceivedActivity) : Unheard s t :=
  ⟨.of_eq hnow hfutures, hactivity⟩

/-- Futures are cancelled. -/
theorem unheard_cancelFutures (s : Node) (l : List ℕ) : Unheard s (s.cancelFutures l) :=
  ⟨calm_cancelFutures s l, rfl⟩

/-- A PING is dropped. -/
theorem unheard_dropPing (s : Node) (c : ℕ) (ping : Ping) : Unheard s (s.dropPing c ping) := by
  unfold Node.dropPing
  split
  · have hentry : Unheard s { s with pendingHeartbeats := s.pendingHeartbeats.erase ping.id } :=
      .of_eq rfl rfl rfl
    exact hentry.trans (unheard_cancelFutures _ [ping.future])
  · exact unheard_cancelFutures s [ping.future]

/-- A task ends. -/
theorem unheard_finish (s : Node) (i : ℕ) (task : HeartbeatTask) (ending : Ending) :
    Unheard s (s.finish i task ending) := by
  have hround : Unheard s (s.endRound task) := by
    unfold Node.endRound
    split
    · exact .of_eq rfl rfl rfl
    · exact unheard_dropPing s task.connection _
  have hfail : Unheard s ((s.endRound task).failHeartbeatsForConnection task.connection) := by
    have hcalm := calm_cancelFutures (s.endRound task)
      (((s.endRound task).pendingHeartbeats.values.filter (·.connection = task.connection)).map
        (·.future))
    exact hround.trans ⟨⟨rfl, hcalm.pending, hcalm.resolved⟩, rfl⟩
  unfold Node.finish
  dsimp only
  split
  · exact hfail.trans (.of_eq rfl rfl rfl)
  · exact hfail.trans (.of_eq rfl rfl rfl)

/-- A task is at the head of its loop. -/
theorem unheard_loopHead (cfg : Config) (s : Node) (i : ℕ) (task : HeartbeatTask) :
    Unheard s (s.loopHead cfg i task) := by
  unfold Node.loopHead
  split
  · exact unheard_finish s i task _
  · exact .of_eq rfl rfl rfl

/-- A task sends its PING. -/
theorem unheard_sendPing (cfg : Config) (s : Node) (i : ℕ) (task : HeartbeatTask) (pingId : Str) :
    Unheard s (s.sendPing cfg i task pingId) := by
  let u : Node := { s with
    pendingHeartbeats := s.pendingHeartbeats.set pingId ⟨s.nextFuture, task.connection⟩
    nextFuture := s.nextFuture + 1 }
  have hu : Unheard s u := .of_eq rfl rfl rfl
  refine hu.trans ?_
  change Unheard u (u.queuePing cfg i task ⟨pingId, s.nextFuture⟩)
  unfold Node.queuePing
  dsimp only
  split
  · exact unheard_finish u i _ _
  · split
    · exact unheard_finish u i _ _
    · split
      · exact .of_eq rfl rfl rfl
      · split
        · exact .of_eq rfl rfl rfl
        · exact unheard_finish u i _ _

/-- A task takes a step. -/
theorem unheard_beat {i : ℕ} {task : HeartbeatTask} {pingId : Str} {closes : Bool}
    (hstep : s.beat cfg i task pingId closes = some t) : Unheard s t := by
  unfold Node.beat at hstep
  split at hstep
  · cases hstep
  · split at hstep
    · exact Option.some.inj hstep ▸ unheard_finish s i task _
    · split at hstep
      · exact Option.some.inj hstep ▸ unheard_loopHead cfg s i task
      · split at hstep
        · cases hstep
        · split at hstep
          · exact Option.some.inj hstep ▸ unheard_finish s i task _
          · split at hstep
            · exact Option.some.inj hstep ▸ unheard_loopHead cfg s i task
            · exact Option.some.inj hstep ▸ unheard_sendPing cfg s i task pingId
      · split at hstep
        · cases hstep
        · split at hstep
          · exact Option.some.inj hstep ▸ .of_eq rfl rfl rfl
          · cases hstep
      · cases hstep
      · exact Option.some.inj hstep ▸ .of_eq rfl rfl rfl
      · exact Option.some.inj hstep ▸ unheard_finish s i task _
      · rename_i ping deadline _
        split at hstep
        · obtain rfl := Option.some.inj hstep
          exact (unheard_dropPing s task.connection ping).trans (unheard_loopHead cfg _ i _)
        · exact Option.some.inj hstep ▸ unheard_finish s i task _
        · split at hstep
          · cases hstep
          · obtain rfl := Option.some.inj hstep
            exact (unheard_cancelFutures s [ping.future]).trans (.of_eq rfl rfl rfl)
      · obtain rfl := Option.some.inj hstep
        have hclose : Unheard s (s.close task.connection closes) := .of_eq rfl rfl rfl
        exact hclose.trans (unheard_finish _ i task _)
      · cases hstep

/-- Where the task is after `finish`. -/
theorem finish_pc {i : ℕ} {task task' : HeartbeatTask} {ending : Ending}
    (h : (s.finish i task ending).tasks i = some task') : task'.pc = .done ending := by
  obtain ⟨_, _, _, heq, -⟩ := finish_spec s i task ending
  rw [heq] at h
  change Function.update s.tasks i (some { task with pc := .done ending }) i = some task' at h
  rw [Function.update_self] at h
  exact congrArg HeartbeatTask.pc (Option.some.inj h).symm

/-- Where the task is after the head of the loop. -/
theorem loopHead_pc {i : ℕ} {task task' : HeartbeatTask}
    (h : (s.loopHead cfg i task).tasks i = some task') :
    (∃ ending, task'.pc = .done ending) ∨ task'.pc = .sleeping (s.now + cfg.heartbeatInterval) := by
  unfold Node.loopHead at h
  split at h
  · exact .inl ⟨_, finish_pc h⟩
  · obtain rfl := Option.some.inj ((setTask_self ..).symm.trans h)
    exact .inr rfl

/-- Where the task is after it has made a ping. -/
theorem sendPing_pc {i : ℕ} {task task' : HeartbeatTask} {pingId : Str}
    (h : (s.sendPing cfg i task pingId).tasks i = some task') :
    (∃ ending, task'.pc = .done ending) ∨ task'.pc = .putting ⟨pingId, s.nextFuture⟩ s.now ∨
      task'.pc = .queued ⟨pingId, s.nextFuture⟩ s.now := by
  let u : Node := { s with
    pendingHeartbeats := s.pendingHeartbeats.set pingId ⟨s.nextFuture, task.connection⟩
    nextFuture := s.nextFuture + 1 }
  change (u.queuePing cfg i task ⟨pingId, s.nextFuture⟩).tasks i = some task' at h
  unfold Node.queuePing at h
  dsimp only at h
  split at h
  · exact .inl ⟨_, finish_pc h⟩
  · split at h
    · exact .inl ⟨_, finish_pc h⟩
    · split at h
      · obtain rfl := Option.some.inj ((setTask_self ..).symm.trans h)
        exact .inr (.inr rfl)
      · split at h
        · obtain rfl := Option.some.inj ((setTask_self ..).symm.trans h)
          exact .inr (.inl rfl)
        · exact .inl ⟨_, finish_pc h⟩

/-- What the task of a registered session has heard after it has run. -/
theorem Clocked.heard_beat (h : Clocked cfg delays s) (hinv : Inv s)
    (hinterval : 0 ≤ cfg.heartbeatInterval)
    {i : ℕ} {task task' : HeartbeatTask} {pingId : Str} {closes : Bool} {a : ℚ}
    (ht : s.tasks i = some task) (hs : s.sessions task.connection ≠ none)
    (ha : s.lastReceivedActivity task.connection = some a)
    (hstep : s.beat cfg i task pingId closes = some t) (ht' : t.tasks i = some task') :
    task'.pc.Heard cfg delays a t := by
  have hheard := h.heard i task a ht hs ha
  have hcalm := (unheard_beat hstep).toCalm
  have hdone : (∃ ending, task'.pc = .done ending) → task'.pc.Heard cfg delays a t := by
    rintro ⟨ending, hpc⟩
    rw [hpc]
    trivial
  have hdue := delays.two_mul_le_due cfg
  have hmax := delays.queueing_add_le_due cfg
  -- the next PING is due soon enough after the activity
  have hsleeps : s.now + cfg.heartbeatInterval ≤ a + delays.due cfg →
      task'.pc = .sleeping (s.now + cfg.heartbeatInterval) →
      task'.pc.Heard cfg delays a t := by
    intro hle hpc
    rw [hpc]
    refine ⟨hle, ?_⟩
    rw [hcalm.now]
    linarith [delays.lateness_nonneg]
  unfold Node.beat at hstep
  split at hstep
  · cases hstep
  · split at hstep
    · obtain rfl := Option.some.inj hstep
      exact hdone ⟨_, finish_pc ht'⟩
    · split at hstep
      · rename_i hpc
        obtain rfl := Option.some.inj hstep
        rw [hpc] at hheard
        have hnow : a = s.now := hheard
        exact (loopHead_pc ht').elim hdone (hsleeps (by linarith))
      · rename_i wakeUp hpc
        rw [hpc] at hheard
        split at hstep
        · cases hstep
        · split at hstep
          · obtain rfl := Option.some.inj hstep
            exact hdone ⟨_, finish_pc ht'⟩
          · split at hstep
            · rename_i hactive
              obtain rfl := Option.some.inj hstep
              rw [Node.active, ha, Option.getD_some, decide_eq_true_eq] at hactive
              exact (loopHead_pc ht').elim hdone (hsleeps (by linarith))
            · obtain rfl := Option.some.inj hstep
              have hpinged : s.now ≤ a + delays.due cfg + delays.lateness := by
                linarith [hheard.1, hheard.2]
              have hmade := hcalm.now.symm.le
              have hwritten := hcalm.now.le.trans (le_add_of_nonneg_right delays.queueing_nonneg)
              have hfresh : (s.sendPing cfg i task pingId).futures s.nextFuture = .resolved →
                  s.now ≤ a := by
                intro hf
                have hpending := hinv.freshFuture s.nextFuture (le_refl _)
                rw [hcalm.resolved _ hf] at hpending
                cases hpending
              rcases sendPing_pc ht' with hend | hput | hqueued
              · exact hdone hend
              · rw [hput]
                exact ⟨hpinged, hmade, hwritten, hfresh⟩
              · rw [hqueued]
                exact ⟨hpinged, hmade, hwritten, hfresh⟩
      · rename_i ping made hpc
        rw [hpc] at hheard
        split at hstep
        · cases hstep
        · split at hstep
          · obtain rfl := Option.some.inj hstep
            obtain rfl := Option.some.inj ((setTask_self ..).symm.trans ht')
            exact hheard
          · cases hstep
      · cases hstep
      · rename_i ping made hpc
        rw [hpc] at hheard
        obtain rfl := Option.some.inj hstep
        obtain rfl := Option.some.inj ((setTask_self ..).symm.trans ht')
        obtain ⟨hpinged, -, hwritten, hpong⟩ := hheard
        refine ⟨fun _ => ⟨by linarith, ?_⟩, fun hf => ?_⟩
        · change s.now ≤ s.now + cfg.heartbeatTimeout - cfg.heartbeatTimeout + delays.answer
          linarith [delays.answer_nonneg]
        · exact hwritten.trans (add_le_add_left (hpong hf) delays.queueing)
      · obtain rfl := Option.some.inj hstep
        exact hdone ⟨_, finish_pc ht'⟩
      · rename_i ping deadline hpc
        rw [hpc] at hheard
        split at hstep
        · rename_i hresolved
          obtain rfl := Option.some.inj hstep
          have hnow : s.now ≤ a + delays.queueing := hheard.2 hresolved
          have hdrop := unheard_dropPing s task.connection ping
          refine (loopHead_pc ht').elim hdone fun hpc' => hsleeps (by linarith) ?_
          rw [hpc', hdrop.now]
        · obtain rfl := Option.some.inj hstep
          exact hdone ⟨_, finish_pc ht'⟩
        · rename_i hpending
          split at hstep
          · cases hstep
          · rename_i hexpired
            obtain rfl := Option.some.inj hstep
            obtain rfl := Option.some.inj ((setTask_self ..).symm.trans ht')
            change cfg.heartbeatTimeout ≤ delays.answer
            linarith [(hheard.1 hpending).2]
      · obtain rfl := Option.some.inj hstep
        exact hdone ⟨_, finish_pc ht'⟩
      · cases hstep

/-- **A task runs.** -/
theorem Clocked.beat (h : Clocked cfg delays s) (hinv : Inv s)
    (hinterval : 0 ≤ cfg.heartbeatInterval)
    {i : ℕ} {task : HeartbeatTask} {pingId : Str} {closes : Bool} (ht : s.tasks i = some task)
    (hstep : s.beat cfg i task pingId closes = some t) : Clocked cfg delays t := by
  have hframe := beat_frame hstep
  have hunheard := unheard_beat hstep
  refine ⟨fun c hc => ?_, fun j task' a hj hs ha => ?_⟩
  · rw [hframe.sessions] at hc
    rw [hunheard.activity, hunheard.now]
    exact h.activity c hc
  · rw [hframe.sessions] at hs
    rw [hunheard.activity] at ha
    by_cases hji : j = i
    · subst hji
      rw [hframe.self task' hj] at hs ha
      exact h.heard_beat hinv hinterval ht hs ha hstep hj
    · rw [hframe.tasks j hji] at hj
      exact (h.heard j task' a hj hs ha).calm hunheard.toCalm

/-! ## Runs -/

/-- Nothing was received yet. -/
theorem clocked_initial (now : ℚ) : Clocked cfg delays (initial now) where
  activity _ h := absurd rfl h
  heard _ _ _ h := by cases h

/-- **Every step on time keeps the clocks.** -/
theorem Clocked.step (h : Clocked cfg delays s) (hinv : Inv s)
    (hinterval : 0 ≤ cfg.heartbeatInterval)
    {l : Label} (hG : OnTime cfg delays s l) (hstep : s.step cfg l = some t) :
    Clocked cfg delays t := by
  cases l with
  | beat i pingId closes =>
      obtain ⟨task, ht, hbeat⟩ := Option.bind_eq_some_iff.1 hstep
      exact h.beat hinv hinterval ht hbeat
  | pong c pingId =>
      simp only [Node.step] at hstep
      split at hstep
      · exact Option.some.inj hstep ▸ h.pong hinv c pingId
      · cases hstep
  | time now =>
      simp only [Node.step] at hstep
      split at hstep
      · rename_i hle
        exact Option.some.inj hstep ▸ h.time hinv hle hG
      · cases hstep
  | register c session =>
      simp only [Node.step] at hstep
      split at hstep
      · rename_i hnew
        exact Option.some.inj hstep ▸ h.registerSession hinv hnew.2.1
      · cases hstep
  | read c =>
      simp only [Node.step] at hstep
      split at hstep
      · cases hstep
      · split at hstep
        · cases hstep
        · obtain rfl := Option.some.inj hstep
          have hreads : Clocked cfg delays { s with readers := c :: s.readers } :=
            h.kept (.of_eq rfl rfl) (fun d hd => ⟨hd, .inl rfl⟩) (.of_eq rfl)
          exact hreads.ensureHeartbeat c _
  | _ => exact h.other hstep (by simp) (by simp) (by simp) (by simp) (by simp)

/-- **The clocks in every timely run.** -/
theorem clocked_of_reachable (hinterval : 0 ≤ cfg.heartbeatInterval)
    (h : ReachableWhen (system cfg) (Timely cfg delays) s) :
    Inv s ∧ Clocked cfg delays s := by
  refine h.invariant (I := fun s => Inv s ∧ Clocked cfg delays s) ?_ ?_
  · rintro _ ⟨now, rfl⟩
    exact ⟨inv_initial now, clocked_initial now⟩
  · rintro s l t ⟨hinv, hclocked⟩ ⟨hbeats, hontime⟩ hstep
    exact ⟨hinv.step hbeats hstep, hclocked.step hinv hinterval hontime hstep⟩

end Heartbeat
end Core
end Paqto
