/-
# How long a silent peer goes unnoticed

Up to two intervals may pass in silence before a PING is due.  It may then wait in the
outbound queue, and `heartbeat_timeout` after it was written the supervision closes the
connection (`silence_bounded`); no less is promised (`silence_bound_sharp`).  A peer that
answers in time is never closed, and an idle timeout above the time to the next PING, its
time in the queue and that of the answer never expires on it (`answered_never_idle`).

A PING that stays in the queue for longer than an interval puts off the next one, since its
PONG may have been read before its task goes on (`Delays.due`).
-/

import Paqto.Core.HeartbeatTiming

namespace Paqto
namespace Core
namespace Heartbeat

open Python Transition

variable {cfg : Config} {delays : Delays} {s t : Node}

/-- The time since the last activity, wherever the task of an open session is. -/
theorem Pc.Heard.silence {pc : Pc} {a : ℚ} (h : pc.Heard cfg delays a s)
    (hinterval : 0 ≤ cfg.heartbeatInterval) (hover : pc.isOver = false)
    (huncancelled : ∀ ping, pc.awaits = some ping → s.futures ping.future ≠ .cancelled) :
    s.now ≤ a + delays.due cfg + delays.lateness + delays.queueing + delays.answer ∨
      (∃ ping, pc = .closing ping) ∧ cfg.heartbeatTimeout ≤ delays.answer := by
  have hdue := delays.two_mul_le_due cfg
  have hlateness := delays.lateness_nonneg
  have hqueueing := delays.queueing_nonneg
  have hanswer := delays.answer_nonneg
  cases pc with
  | created =>
      have hnow : a = s.now := h
      exact .inl (by linarith)
  | sleeping wakeUp => exact .inl (by linarith [h.1, h.2])
  | putting ping made | queued ping made | written ping made =>
      exact .inl (by linarith [h.1, h.2.2.1])
  | waiting ping deadline =>
      left
      cases hf : s.futures ping.future with
      | pending =>
          obtain ⟨hdeadline, hnow⟩ := h.1 hf
          linarith
      | resolved => linarith [h.2 hf]
      | cancelled => exact absurd hf (huncancelled ping rfl)
  | closing ping => exact .inr ⟨⟨ping, rfl⟩, h⟩
  | failed ping | done ending => cases hover

/-- An open session that is read has its task, which has heard of it. -/
theorem exists_heard (h : ReachableWhen (system cfg) (Timely cfg delays) s)
    (hinterval : 0 ≤ cfg.heartbeatInterval) {c : ℕ} {session : Session}
    (hopen : OpenCanonical s c session) (hb : session.heartbeat = true) (hc : c ∈ s.readers) :
    ∃ a i task, s.lastReceivedActivity c = some a ∧ s.heartbeatTasks c = some i ∧
      s.tasks i = some task ∧
      (s.now ≤ a + delays.due cfg + delays.lateness + delays.queueing + delays.answer ∨
        (∃ ping, task.pc = .closing ping) ∧ cfg.heartbeatTimeout ≤ delays.answer) := by
  obtain ⟨hinv, hclocked⟩ := clocked_of_reachable hinterval h
  have hs : s.sessions c ≠ none := by
    simp [hopen.registered]
  obtain ⟨i, task, ht, rfl⟩ := hinv.supervised c session hc hopen.registered hb
  have hi := hinv.task i task ht
  obtain ⟨a, ha, -⟩ := hclocked.activity _ hs
  have hover : task.pc.isOver = false := by
    by_contra hover
    have hclosed := hi.closed (Bool.eq_true_of_not_eq_false hover) hs
    rw [hopen.isOpen] at hclosed
    cases hclosed
  have hun : task.pc.finished = false := by
    by_contra hfin
    have htrue := Pc.isOver_of_finished (Bool.eq_true_of_not_eq_false hfin)
    rw [hover] at htrue
    cases htrue
  exact ⟨a, i, task, ha, (hi.live hun hs).1, ht,
    (hclocked.heard i task a ht hs ha).silence hinterval hover
      fun ping hping => hi.uncancelled ping hping hs⟩

/-! ## Silent peers, and those that answer -/

/-- **A silent peer is noticed** when a PING is due, was queued, and has had its timeout.
Timers are served at most `lateness` late, that of the PONG included: an open session that
is read has heard from its peer within that time, or its supervision has called `close()`. -/
theorem silence_bounded (hinterval : 0 ≤ cfg.heartbeatInterval)
    (hanswer : delays.answer ≤ cfg.heartbeatTimeout + delays.lateness)
    (h : ReachableWhen (system cfg) (Timely cfg delays) s)
    {c : ℕ} {session : Session} (hopen : OpenCanonical s c session) (hb : session.heartbeat = true)
    (hc : c ∈ s.readers) :
    ∃ a, s.lastReceivedActivity c = some a ∧
      (s.now ≤ a + (cfg.heartbeatInterval + max cfg.heartbeatInterval delays.queueing) +
          delays.queueing + cfg.heartbeatTimeout + 2 * delays.lateness ∨
        ∃ i task ping, s.heartbeatTasks c = some i ∧ s.tasks i = some task ∧
          task.pc = .closing ping) := by
  obtain ⟨a, i, task, ha, hi, ht, hheard | ⟨⟨ping, hpc⟩, -⟩⟩ := exists_heard h hinterval hopen hb hc
  · rw [Delays.due] at hheard
    exact ⟨a, ha, .inl (by linarith)⟩
  · exact ⟨a, ha, .inr ⟨i, task, ping, hi, ht, hpc⟩⟩

/-- **A peer that answers is left alone.**  Every PING is answered within `answer` after
it was written, and sooner than `heartbeat_timeout`: the supervision of a registered
session never closes its connection, and an idle timeout above the time to the next PING,
its time in the queue and that of the answer does not expire on it. -/
theorem answered_never_idle (hinterval : 0 ≤ cfg.heartbeatInterval)
    (hanswered : delays.answer < cfg.heartbeatTimeout)
    (h : ReachableWhen (system cfg) (Timely cfg delays) s) :
    (∀ i task ping, s.tasks i = some task → s.sessions task.connection ≠ none →
      task.pc ≠ .closing ping) ∧
    ∀ idleTimeout, cfg.heartbeatInterval + max cfg.heartbeatInterval delays.queueing +
        delays.lateness + delays.queueing + delays.answer < idleTimeout →
      ∀ c session, OpenCanonical s c session → session.heartbeat = true → c ∈ s.readers →
        ∃ a, s.lastReceivedActivity c = some a ∧ s.now < a + idleTimeout := by
  obtain ⟨-, hclocked⟩ := clocked_of_reachable hinterval h
  refine ⟨fun i task ping ht hs hpc => ?_, fun idleTimeout hidle c session hopen hb hc => ?_⟩
  · obtain ⟨a, ha, -⟩ := hclocked.activity _ hs
    have hheard := hclocked.heard i task a ht hs ha
    rw [hpc] at hheard
    exact absurd hheard (not_le.2 hanswered)
  · obtain ⟨a, i, task, ha, -, -, hheard | ⟨-, hlate⟩⟩ := exists_heard h hinterval hopen hb hc
    · rw [Delays.due] at hheard
      exact ⟨a, ha, by linarith⟩
    · exact absurd hlate (not_le.2 hanswered)

/-! ## The longest silence -/

/-- One session, whose task is at `pc`, and the PING of its first round. -/
structure Watched (s : Node) (now a : ℚ) (pc : Pc) (channel : Channel) : Prop where
  now : s.now = now
  running : s.running = true
  session : s.sessions 0 = some sampleSession
  peer : s.peerConnections sampleSession.peerId = some 0
  isOpen : s.isClosed 0 = false
  readers : s.readers = [0]
  activity : s.lastReceivedActivity 0 = some a
  task : s.tasks 0 = some ⟨0, sampleSession, pc, false⟩
  alone : ∀ i, i ≠ 0 → s.tasks i = none
  entry : s.heartbeatTasks 0 = some 0
  channel : s.channels 0 = some channel
  unanswered : s.futures 0 = .pending
  first : s.nextFuture = 0 ∨ ∃ ping, pc.ping = some ping ∧ ping.future = 0

namespace Watched

variable {now a : ℚ} {pc : Pc} {channel : Channel}

/-- The connection is open and canonical. -/
theorem openCanonical (h : Watched s now a pc channel) : OpenCanonical s 0 sampleSession :=
  ⟨h.session, h.peer, h.isOpen⟩

/-- The heartbeat goes on. -/
theorem loopEnds (h : Watched s now a pc channel) :
    s.loopEnds ⟨0, sampleSession, pc, false⟩ = none := by
  simp [Node.loopEnds, h.running, h.isOpen, h.peer]

/-- The task goes on to another place, and nothing else changes. -/
theorem setTask (h : Watched s now a pc channel) (pc' : Pc)
    (hfirst : s.nextFuture = 0 ∨ ∃ ping, pc'.ping = some ping ∧ ping.future = 0) :
    Watched (s.setTask 0 ⟨0, sampleSession, pc', false⟩) now a pc' channel :=
  { h with
    task := setTask_self ..
    alone := fun i hi => (Function.update_of_ne hi ..).trans (h.alone i hi)
    first := hfirst }

/-- Time passes, as the task allows it. -/
theorem time {cfg : Config} {delays : Delays} {now' : ℚ} (h : Watched s now a pc channel) (hle : now ≤ now')
    (hallows : pc.allows cfg delays s.futures now')
    (hs : ReachableWhen (system cfg) (Timely cfg delays) s) :
    ∃ t, ReachableWhen (system cfg) (Timely cfg delays) t ∧ Watched t now' a pc channel ∧
      t.nextFuture = s.nextFuture := by
  refine ⟨{ s with now := now' }, .step (.time now') hs ⟨trivial, fun _ i task ht _ => ?_⟩
    (if_pos (h.now ▸ hle)), { h with now := rfl }, rfl⟩
  by_cases hi : i = 0
  · subst hi
    obtain rfl := Option.some.inj (h.task.symm.trans ht)
    exact hallows
  · rw [h.alone i hi] at ht
    cases ht

/-- A frame is read. -/
theorem received {cfg : Config} {delays : Delays} (h : Watched s now a pc channel)
    (hs : ReachableWhen (system cfg) (Timely cfg delays) s) :
    ∃ t, ReachableWhen (system cfg) (Timely cfg delays) t ∧ Watched t now now pc channel ∧
      t.nextFuture = s.nextFuture := by
  have hreads : 0 ∈ s.readers := by simp [h.readers]
  refine ⟨_, .step (.received 0) hs ⟨trivial, trivial⟩ (if_pos hreads),
    { h with activity := ?_ }, rfl⟩
  change Function.update s.lastReceivedActivity 0 (some s.now) 0 = some now
  rw [Function.update_self, h.now]

/-- The task runs to the place `t` has it at. -/
theorem beat {cfg : Config} {delays : Delays} {t : Node} (h : Watched s now a pc channel)
    (hpc : ∀ ping, pc ≠ .closing ping) (hroom : channel.items.length < cfg.maxOutboundQueue)
    (hbeat : s.beat cfg 0 ⟨0, sampleSession, pc, false⟩ [] true = some t)
    (hs : ReachableWhen (system cfg) (Timely cfg delays) s) :
    ReachableWhen (system cfg) (Timely cfg delays) t := by
  refine .step (.beat 0 [] true) hs ⟨fun task ht => ?_, trivial⟩ ?_
  · obtain rfl := Option.some.inj (h.task.symm.trans ht)
    refine ⟨fun _ => .inr fun channel' hc => ?_, fun ping hp => absurd hp (hpc ping)⟩
    obtain rfl := Option.some.inj (h.channel.symm.trans hc)
    exact hroom
  · change (s.tasks 0).bind _ = some t
    rw [h.task, Option.bind_some]
    exact hbeat

/-- The loop begins anew. -/
theorem loops {cfg : Config} {delays : Delays} (h : Watched s now a pc channel)
    (hpc : ∀ ping, pc ≠ .closing ping) (hroom : channel.items.length < cfg.maxOutboundQueue)
    (hfirst : s.nextFuture = 0)
    (hbeat : s.beat cfg 0 ⟨0, sampleSession, pc, false⟩ [] true =
      some (s.loopHead cfg 0 ⟨0, sampleSession, pc, false⟩))
    (hs : ReachableWhen (system cfg) (Timely cfg delays) s) :
    ∃ t, ReachableWhen (system cfg) (Timely cfg delays) t ∧
      Watched t now a (.sleeping (now + cfg.heartbeatInterval)) channel ∧ t.nextFuture = 0 := by
  have hhead : s.loopHead cfg 0 ⟨0, sampleSession, pc, false⟩ =
      s.setTask 0 ⟨0, sampleSession, .sleeping (now + cfg.heartbeatInterval), false⟩ := by
    unfold Node.loopHead
    rw [h.loopEnds, h.now]
  rw [hhead] at hbeat
  exact ⟨_, h.beat hpc hroom hbeat hs, h.setTask _ (.inl hfirst), hfirst⟩

/-- The PING of the round waits in the queue for as long as it may, is written, and waited
for. -/
theorem pings {cfg : Config} {delays : Delays} {wakeUp : ℚ}
    (h : Watched s now a (.sleeping wakeUp) ⟨[], none, false⟩) (hwake : wakeUp ≤ now)
    (hsilent : cfg.heartbeatInterval ≤ now - a) (hroom : 0 < cfg.maxOutboundQueue)
    (hfirst : s.nextFuture = 0) (hs : ReachableWhen (system cfg) (Timely cfg delays) s) :
    ∃ t, ReachableWhen (system cfg) (Timely cfg delays) t ∧
      Watched t (now + delays.queueing) a
        (.waiting ⟨[], 0⟩ (now + delays.queueing + cfg.heartbeatTimeout)) ⟨[], none, false⟩ := by
  have hactive : s.active cfg 0 = false := by
    rw [Node.active, h.activity, Option.getD_some, h.now, decide_eq_false_iff_not]
    exact not_lt.2 hsilent
  have hsleeps : ¬ s.now < wakeUp := not_lt.2 (h.now ▸ hwake)
  let queued : Node := s.sendPing cfg 0 ⟨0, sampleSession, .sleeping wakeUp, false⟩ []
  have hqueued : Watched queued now a (.queued ⟨[], 0⟩ now) ⟨[some 0], none, false⟩ := by
    have hsend : queued = { s.setTask 0 ⟨0, sampleSession, .queued ⟨[], 0⟩ now, false⟩ with
        pendingHeartbeats := s.pendingHeartbeats.set [] ⟨0, 0⟩
        nextFuture := 0 + 1
        channels := Function.update s.channels 0 (some ⟨[some 0], none, false⟩) } := by
      simp only [queued, Node.sendPing, Node.queuePing, Node.putPing, Node.setTask, h.channel,
        h.isOpen, hfirst, h.now, Bool.false_eq_true, if_false, List.length_nil, if_pos hroom,
        List.nil_append]
    rw [hsend]
    have hset := h.setTask (.queued ⟨[], 0⟩ now) (.inr ⟨_, rfl, rfl⟩)
    exact { hset with channel := by simp, first := .inr ⟨_, rfl, rfl⟩ }
  have hbeat : s.beat cfg 0 ⟨0, sampleSession, .sleeping wakeUp, false⟩ [] true = some queued := by
    have hends := h.loopEnds
    simp only [Node.beat, Pc.finished, Bool.false_eq_true, if_false, hsleeps, hends, hactive, queued]
  obtain ⟨held, hheld, hlate, -⟩ := hqueued.time (le_add_of_nonneg_right delays.queueing_nonneg)
    (le_refl (now + delays.queueing)) (h.beat (by simp) hroom hbeat hs)
  -- the writer takes the frame and writes it
  let taken : Node := { held with
    channels := Function.update held.channels 0 (some ⟨[], some (some 0), false⟩) }
  have htakes : held.step cfg (.writerTakes 0) = some taken := by
    simp only [Node.step, hlate.channel, taken]
  let sent : Node := { taken with
    channels := Function.update taken.channels 0 (some ⟨[], none, false⟩) }.frameWritten (some 0)
  have hsends : taken.step cfg (.writerSent 0) = some sent := by
    simp only [Node.step, taken, Function.update_self, sent]
  have hsent : Watched sent (now + delays.queueing) a (.written ⟨[], 0⟩ now) ⟨[], none, false⟩ := by
    have htask : sent.tasks 0 = some ⟨0, sampleSession, .written ⟨[], 0⟩ now, false⟩ := by
      simp [sent, taken, Node.frameWritten, hlate.task]
    exact { hlate with
      task := htask
      alone := fun i hi => by simp [sent, taken, Node.frameWritten, hlate.alone i hi]
      channel := by simp [sent, taken, Node.frameWritten]
      first := .inr ⟨_, rfl, rfl⟩ }
  have hwrites := ReachableWhen.step (Label.writerSent 0)
    (ReachableWhen.step (Label.writerTakes 0) hheld ⟨trivial, trivial⟩ htakes) ⟨trivial, trivial⟩
    hsends
  refine ⟨_, hsent.beat (by simp) hroom ?_ hwrites,
    hsent.setTask (.waiting ⟨[], 0⟩ (now + delays.queueing + cfg.heartbeatTimeout))
      (.inr ⟨_, rfl, rfl⟩)⟩
  simp only [Node.beat, Pc.finished, Bool.false_eq_true, if_false, hsent.now]

end Watched

/-- A frame is read `early` after the first sleep began, and none until the second is
over, which is served as late as it may be. -/
theorem exists_quiet (cfg : Config) (delays : Delays) (early : ℚ) (hroom : 0 < cfg.maxOutboundQueue)
    (hearly : 0 < early) (hle : early ≤ cfg.heartbeatInterval) :
    ∃ s, ReachableWhen (system cfg) (Timely cfg delays) s ∧ s.nextFuture = 0 ∧
      Watched s (cfg.heartbeatInterval + cfg.heartbeatInterval + delays.lateness) early
        (.sleeping (cfg.heartbeatInterval + cfg.heartbeatInterval)) ⟨[], none, false⟩ := by
  have hlateness := delays.lateness_nonneg
  let opened : Node := (initial 0).registerSession 0 sampleSession
  let read : Node := { opened with readers := [0] }.ensureHeartbeat 0 sampleSession
  have hread : ReachableWhen (system cfg) (Timely cfg delays) read :=
    .step (.read 0) (.step (.register 0 sampleSession) (.init ⟨0, rfl⟩) ⟨trivial, trivial⟩ rfl)
      ⟨trivial, trivial⟩ rfl
  have hcreated : Watched read 0 0 .created ⟨[], none, false⟩ :=
    { now := rfl, running := rfl, session := rfl, peer := rfl, isOpen := rfl, readers := rfl,
      activity := rfl, task := rfl, entry := rfl, channel := rfl, unanswered := rfl,
      first := .inl rfl
      alone := fun i hi => Function.update_of_ne hi .. }
  obtain ⟨s₁, hs₁, h₁, hfirst₁⟩ := hcreated.loops (by simp) hroom rfl rfl hread
  rw [zero_add] at h₁
  obtain ⟨s₂, hs₂, h₂, hfirst₂⟩ := h₁.time hearly.le (le_add_of_le_of_nonneg hle hlateness) hs₁
  obtain ⟨s₃, hs₃, h₃, hfirst₃⟩ := h₂.received hs₂
  obtain ⟨s₄, hs₄, h₄, hfirst₄⟩ := h₃.time hle (le_add_of_nonneg_right hlateness) hs₃
  -- the frame makes the loop sleep for another interval
  have hactive : s₄.active cfg 0 = true := by
    rw [Node.active, h₄.activity, Option.getD_some, h₄.now, decide_eq_true_eq]
    linarith
  have hbeat : s₄.beat cfg 0 ⟨0, sampleSession, .sleeping cfg.heartbeatInterval, false⟩ [] true =
      some (s₄.loopHead cfg 0 ⟨0, sampleSession, .sleeping cfg.heartbeatInterval, false⟩) := by
    have hends := h₄.loopEnds
    simp only [Node.beat, Pc.finished, Bool.false_eq_true, if_false, h₄.now, lt_self_iff_false, hends,
      hactive, if_true]
  have hnone : s₄.nextFuture = 0 := by rw [hfirst₄, hfirst₃, hfirst₂, hfirst₁]
  obtain ⟨s₅, hs₅, h₅, hfirst₅⟩ := h₄.loops (by simp) hroom hnone hbeat hs₄
  obtain ⟨s₆, hs₆, h₆, hfirst₆⟩ :=
    h₅.time (by linarith)
      (le_refl (cfg.heartbeatInterval + cfg.heartbeatInterval + delays.lateness)) hs₅
  exact ⟨s₆, hs₆, hfirst₆.trans hfirst₅, h₆⟩

/-- The PING is sent then, and its PONG does not come. -/
theorem exists_silence (cfg : Config) (delays : Delays) (early : ℚ)
    (hroom : 0 < cfg.maxOutboundQueue) (hearly : 0 < early) (hle : early ≤ cfg.heartbeatInterval) :
    ∃ s deadline, ReachableWhen (system cfg) (Timely cfg delays) s ∧
      Watched s (2 * cfg.heartbeatInterval + delays.lateness + delays.queueing + delays.answer)
        early (.waiting ⟨[], 0⟩ deadline) ⟨[], none, false⟩ := by
  obtain ⟨s, hs, hfirst, h⟩ := exists_quiet cfg delays early hroom hearly hle
  have hlateness := delays.lateness_nonneg
  obtain ⟨t, ht, hpinged⟩ := h.pings (by linarith) (by linarith) hroom hfirst hs
  obtain ⟨u, hu, hwaited, -⟩ := hpinged.time (le_add_of_nonneg_right delays.answer_nonneg)
    ⟨hpinged.unanswered, by linarith⟩ ht
  rw [← two_mul] at hwaited
  exact ⟨u, _, hu, hwaited⟩

/-- **That long can pass**: whatever the delays are and however short `early` is, a peer
may be silent for two intervals, the time in the queue and that of the answer but for
`early`, each timer served as late as it may be, while its session is open, canonical and
read, and its supervision still waits for the PONG. -/
theorem silence_bound_sharp (cfg : Config) (delays : Delays) (early : ℚ)
    (hroom : 0 < cfg.maxOutboundQueue) (hearly : 0 < early) (hle : early ≤ cfg.heartbeatInterval) :
    ∃ s c session a i task, ReachableWhen (system cfg) (Timely cfg delays) s ∧
      OpenCanonical s c session ∧ session.heartbeat = true ∧ c ∈ s.readers ∧
      s.lastReceivedActivity c = some a ∧ s.heartbeatTasks c = some i ∧ s.tasks i = some task ∧
      (∃ ping deadline, task.pc = .waiting ping deadline) ∧
      s.now = a + 2 * cfg.heartbeatInterval + delays.lateness + delays.queueing +
        delays.answer - early := by
  obtain ⟨s, deadline, hs, h⟩ := exists_silence cfg delays early hroom hearly hle
  refine ⟨s, 0, sampleSession, early, 0, _, hs, h.openCanonical, rfl, by simp [h.readers],
    h.activity, h.entry, h.task, ⟨_, _, rfl⟩, ?_⟩
  rw [h.now]
  linarith

/-! ## A second, and ten for the PONG -/

/-- Every timer is on time, and a PING may stay in the queue for a second. -/
def sampleDelays (answer : ℚ) (h : 0 ≤ answer) : Delays := ⟨0, 1, answer, le_rfl, zero_le_one, h⟩

/-- An answer takes ten seconds. -/
theorem sampleAnswer_nonneg : (0 : ℚ) ≤ 10 := by norm_num

/-- After half a second a frame, and nothing for the next twelve and a half. -/
theorem silence_bounded_sample :
    ∃ s, ReachableWhen (system (sampleConfig .wait))
        (Timely (sampleConfig .wait) (sampleDelays 10 sampleAnswer_nonneg)) s ∧
      s.lastReceivedActivity 0 = some (1 / 2) ∧ s.now = 13 ∧
      ∃ a, s.lastReceivedActivity 0 = some a ∧
        (s.now ≤ a + (1 + max 1 1) + 1 + 10 + 2 * 0 ∨
          ∃ i task ping, s.heartbeatTasks 0 = some i ∧ s.tasks i = some task ∧
            task.pc = .closing ping) := by
  obtain ⟨s, deadline, hs, h⟩ := exists_silence (sampleConfig .wait)
    (sampleDelays 10 sampleAnswer_nonneg) (1 / 2) Nat.one_pos (by norm_num) (by norm_num [sampleConfig])
  exact ⟨s, hs, h.activity, by rw [h.now]; norm_num [sampleConfig, sampleDelays],
    silence_bounded (by norm_num [sampleConfig]) (by norm_num [sampleConfig, sampleDelays]) hs
      h.openCanonical rfl (by simp [h.readers])⟩

/-- The same silence, but for a tenth of a second. -/
theorem silence_bound_sharp_sample :
    ∃ s c session a i task,
      ReachableWhen (system (sampleConfig .wait))
        (Timely (sampleConfig .wait) (sampleDelays 10 sampleAnswer_nonneg)) s ∧
      OpenCanonical s c session ∧ session.heartbeat = true ∧ c ∈ s.readers ∧
      s.lastReceivedActivity c = some a ∧ s.heartbeatTasks c = some i ∧ s.tasks i = some task ∧
      (∃ ping deadline, task.pc = .waiting ping deadline) ∧
      s.now = a + 2 * 1 + 0 + 1 + 10 - 1 / 10 :=
  silence_bound_sharp (sampleConfig .wait) (sampleDelays 10 sampleAnswer_nonneg) (1 / 10) Nat.one_pos
    (by norm_num) (by norm_num [sampleConfig])

/-- PONGs come within a second, and five seconds of idleness are allowed. -/
theorem answered_never_idle_sample :
    ∃ s, ReachableWhen (system (sampleConfig .wait))
        (Timely (sampleConfig .wait) (sampleDelays 1 zero_le_one)) s ∧
      s.now = 2 ∧ ∃ a, s.lastReceivedActivity 0 = some a ∧ s.now < a + 5 := by
  obtain ⟨s, hs, -, h⟩ := exists_quiet (sampleConfig .wait) (sampleDelays 1 zero_le_one) (1 / 2)
    Nat.one_pos (by norm_num) (by norm_num [sampleConfig])
  obtain ⟨-, hidle⟩ := answered_never_idle (by norm_num [sampleConfig])
    (by norm_num [sampleConfig, sampleDelays]) hs
  exact ⟨s, hs, by rw [h.now]; norm_num [sampleConfig, sampleDelays],
    hidle 5 (by norm_num [sampleConfig, sampleDelays]) 0 sampleSession h.openCanonical rfl
      (by simp [h.readers])⟩

end Heartbeat
end Core
end Paqto
