/-
# The acknowledgement an incoming message costs

The part of `_read_connection` from an application frame to the end of
`_send_acknowledgement` (`core/node.py`), on the outbound channel that the reader
shares with every local sender.

An exception of `_send_acknowledgement` leaves the loop of the reader, whose
`finally` ends the session.  `supervised_of_serving` says that the writer gives
no caller an error as long as the session is served; what is left to fail is the
encoding of the ACK and a full queue under `REJECT`.  `acknowledgement_step` says
that these two are exactly what ends the session.
-/

import Paqto.Core.Acknowledgement
import Paqto.Core.ControlText
import Paqto.Core.InboundOrder
import Paqto.Core.OutboundChannelInvariant

namespace Paqto
namespace Core

open Transition Python

/-! ## A channel that is served -/

namespace OutboundChannel

/-- The node runs, the channel is in its table and the connection is open. -/
def Channel.serving (s : Channel) : Bool := s.running && s.registered && !s.isClosed

/-- Nothing has gone wrong with the writer. -/
structure Channel.Supervised (s : Channel) : Prop where
  cancelRequested : s.cancelRequested = false
  finished : s.writer ≠ .finished
  closing : ∀ c, s.writer ≠ .closing c
  closer : s.closer = .none
  error : ∀ c, s.callers c ≠ .resolved .error

section Serving

variable {cfg : Config} {s t : Channel}

/-- A caller moves. -/
@[simp] theorem serving_setCaller (s : Channel) (c : ℕ) (pc : CallerPc) :
    (s.setCaller c pc).serving = s.serving := rfl

/-- A send is resolved. -/
@[simp] theorem serving_resolve (s : Channel) (c : ℕ) (o : Outcome) :
    (s.resolve c o).serving = s.serving := by unfold Channel.resolve; split <;> rfl

/-- A waiting caller is woken up. -/
@[simp] theorem serving_wakeupNext (s : Channel) : s.wakeupNext.serving = s.serving := by
  unfold Channel.wakeupNext; split <;> rfl

/-- Queued frames are failed. -/
@[simp] theorem serving_failItems (s : Channel) (l : List ℕ) :
    (s.failItems l).serving = s.serving := by
  induction l generalizing s with
  | nil => rfl
  | cons i l ih =>
      rw [Channel.failItems, ih, serving_resolve, serving_wakeupNext]
      rfl

/-- The writer ends. -/
@[simp] theorem serving_exitWriter (s : Channel) : s.exitWriter.serving = s.serving :=
  serving_failItems s _

/-- The writer takes the next frame. -/
@[simp] theorem serving_sendNext (s : Channel) (i : ℕ) (items : List ℕ) :
    (s.sendNext i items).serving = s.serving := serving_wakeupNext _

/-- A send is over. -/
@[simp] theorem serving_endSend (s : Channel) (c : ℕ) (o : Outcome) :
    (s.endSend c o).serving = s.serving := serving_resolve s c o

/-- The frame of the writer is failed. -/
@[simp] theorem serving_failCurrent (s : Channel) : s.failCurrent.serving = s.serving := by
  unfold Channel.failCurrent
  split <;> simp

/-- The writer runs. -/
@[simp] theorem serving_runWriter (s : Channel) : s.runWriter.serving = s.serving := by
  unfold Channel.runWriter
  split
  · split
    · rfl
    · exact serving_sendNext s _ _
  · exact serving_exitWriter s

/-- A channel is never served again. -/
theorem serving_of_step {l : Label} (hs : step cfg s l = some t) (ht : t.serving = true) :
    s.serving = true := by
  cases stepSpec_of_step hs with
  | connectionClosed => simp [Channel.serving] at ht
  | sendRaises => simp [Channel.serving] at ht
  | closeOutboundChannel => simp [Channel.serving] at ht
  | outboundFinished => simp [Channel.serving] at ht
  | stopUnregistered => simp [Channel.serving] at ht
  | stop =>
      rw [Channel.failOutboundQueue, serving_failItems, serving_failCurrent] at ht
      simp [Channel.serving] at ht
  | cleanup =>
      have hfail : s.failOutboundQueue.serving = true := ht
      rwa [Channel.failOutboundQueue, serving_failItems] at hfail
  | startWriter =>
      rw [serving_runWriter] at ht
      exact ht
  | sendReturns => simpa using ht
  | closeReturns => simpa using ht
  | cancelledIdle => simpa using ht
  | cancelledSending => simpa using ht
  | get => simpa using ht
  | passOn => simpa using ht
  | _ => exact ht

/-- What a step does to a channel that stays served: the writer works on, nobody
is given an error, and only a caller of `P` gets an exception. -/
structure Undisturbed (P : ℕ → Prop) (s t : Channel) : Prop where
  cancelRequested : t.cancelRequested = s.cancelRequested
  writer : t.writer = s.writer ∨ t.writer = .getting ∨ ∃ i, t.writer = .sending i
  closer : t.closer = s.closer
  nextCaller : s.nextCaller ≤ t.nextCaller
  error : ∀ c, t.callers c = .resolved .error → s.callers c = .resolved .error
  raised : ∀ c, t.callers c = .raised → s.callers c = .raised ∨ P c

variable {P : ℕ → Prop}

/-- One after the other. -/
theorem Undisturbed.trans {u : Channel} (h : Undisturbed P s t) (h' : Undisturbed P t u) :
    Undisturbed P s u where
  cancelRequested := h'.cancelRequested.trans h.cancelRequested
  writer := by
    rcases h'.writer with hw | hw
    · rw [hw]
      exact h.writer
    · exact Or.inr hw
  closer := h'.closer.trans h.closer
  nextCaller := h.nextCaller.trans h'.nextCaller
  error c hc := h.error c (h'.error c hc)
  raised c hc := (h'.raised c hc).elim (h.raised c) Or.inr

/-- The channel stays supervised. -/
theorem Undisturbed.supervised (h : Undisturbed P s t) (hs : s.Supervised) : t.Supervised where
  cancelRequested := h.cancelRequested.trans hs.cancelRequested
  finished := by
    rcases h.writer with hw | hw | ⟨i, hw⟩ <;> rw [hw]
    · exact hs.finished
    · nofun
    · nofun
  closing c := by
    rcases h.writer with hw | hw | ⟨i, hw⟩ <;> rw [hw]
    · exact hs.closing c
    · nofun
    · nofun
  closer := h.closer.trans hs.closer
  error c hc := hs.error c (h.error c hc)

/-- A caller of `P` moves. -/
theorem undisturbed_setCaller {c : ℕ} {pc : CallerPc} (hwriter : t.writer = s.writer)
    (hcancel : t.cancelRequested = s.cancelRequested) (hcloser : t.closer = s.closer)
    (hnext : s.nextCaller ≤ t.nextCaller) (hcallers : t.callers = Function.update s.callers c pc)
    (herror : pc ≠ .resolved .error) (hraised : pc = .raised → P c) : Undisturbed P s t := by
  refine ⟨hcancel, .inl hwriter, hcloser, hnext, fun d hd => ?_, fun d hd => ?_⟩
  all_goals
    rw [hcallers, Function.update_apply] at hd
    split at hd
  · exact absurd hd herror
  · exact hd
  · rename_i hdc
    rw [hdc]
    exact Or.inr (hraised hd)
  · exact Or.inl hd

/-- Waking a caller up disturbs nobody. -/
theorem undisturbed_wakeupNext (s : Channel) : Undisturbed P s s.wakeupNext := by
  unfold Channel.wakeupNext
  split
  · exact ⟨rfl, .inl rfl, rfl, le_rfl, fun _ => id, fun _ => .inl⟩
  · exact undisturbed_setCaller rfl rfl rfl le_rfl rfl (by nofun) (by nofun)

/-- Nor does the next frame. -/
theorem undisturbed_sendNext (s : Channel) (i : ℕ) (items : List ℕ) :
    Undisturbed P s (s.sendNext i items) := by
  have h : Undisturbed P s { s with items }.wakeupNext := by
    have hwoken := undisturbed_wakeupNext (P := P) { s with items }
    exact ⟨hwoken.cancelRequested, hwoken.writer, hwoken.closer, hwoken.nextCaller, hwoken.error, hwoken.raised⟩
  exact ⟨h.cancelRequested, .inr (.inr ⟨i, rfl⟩), h.closer, h.nextCaller, h.error, h.raised⟩

/-- Nor does a turn of the writer that serves. -/
theorem undisturbed_runWriter (hs : s.serving = true) : Undisturbed P s s.runWriter := by
  have hloop : s.mayGoOn = true := by
    simp only [Channel.serving, Bool.and_eq_true] at hs
    simp [Channel.mayGoOn, hs.1.1, hs.2]
  unfold Channel.runWriter
  rw [if_pos hloop]
  split
  · exact ⟨rfl, .inr (.inl rfl), rfl, le_rfl, fun _ => id, fun _ => .inl⟩
  · exact undisturbed_sendNext s _ _

/-- Nor does the end of a send. -/
theorem undisturbed_endSend (s : Channel) (c : ℕ) : Undisturbed P s (s.endSend c .sent) := by
  have h : Undisturbed P s (s.resolve c .sent) := by
    unfold Channel.resolve
    split
    · exact undisturbed_setCaller rfl rfl rfl le_rfl rfl (by nofun) (by nofun)
    · exact ⟨rfl, .inl rfl, rfl, le_rfl, fun _ => id, fun _ => .inl⟩
  exact ⟨h.cancelRequested, h.writer, h.closer, h.nextCaller, h.error, h.raised⟩

/-- The steps after which a supervised channel is still served.  An exception goes
to a caller that is cancelled, or to the new one. -/
theorem undisturbed_step {l : Label} (hsup : s.Supervised) (hs : step cfg s l = some t)
    (ht : t.serving = true) :
    Undisturbed (fun c => l = .cancelCaller c ∨ c = s.nextCaller) s t := by
  have hserving := serving_of_step hs ht
  cases stepSpec_of_step hs with
  | refused => exact undisturbed_setCaller rfl rfl rfl (Nat.le_succ _) rfl (by rintro ⟨⟩) fun _ => .inr rfl
  | accepted => exact undisturbed_setCaller rfl rfl rfl (Nat.le_succ _) rfl (by rintro ⟨⟩) (by rintro ⟨⟩)
  | parked => exact undisturbed_setCaller rfl rfl rfl (Nat.le_succ _) rfl (by rintro ⟨⟩) (by rintro ⟨⟩)
  | insert => exact undisturbed_setCaller rfl rfl rfl le_rfl rfl (by rintro ⟨⟩) (by rintro ⟨⟩)
  | parkAgain => exact undisturbed_setCaller rfl rfl rfl le_rfl rfl (by rintro ⟨⟩) (by rintro ⟨⟩)
  | returns => exact undisturbed_setCaller rfl rfl rfl le_rfl rfl (by rintro ⟨⟩) (by rintro ⟨⟩)
  | raises hc => exact absurd hc (hsup.error _)
  | leavePutters => exact undisturbed_setCaller rfl rfl rfl le_rfl rfl (by rintro ⟨⟩) fun _ => .inl rfl
  | leavePut => exact undisturbed_setCaller rfl rfl rfl le_rfl rfl (by rintro ⟨⟩) fun _ => .inl rfl
  | leaveFuture => exact undisturbed_setCaller rfl rfl rfl le_rfl rfl (by rintro ⟨⟩) fun _ => .inl rfl
  | @passOn c _ =>
      have hraise : Undisturbed (fun d => Label.cancelCaller c = .cancelCaller d ∨ d = s.nextCaller)
          s (s.setCaller c .raised) :=
        undisturbed_setCaller rfl rfl rfl le_rfl rfl (by rintro ⟨⟩) fun _ => .inl rfl
      exact hraise.trans (undisturbed_wakeupNext _)
  | startWriter =>
      have hbegun : Undisturbed (fun c => Label.startWriter = .cancelCaller c ∨ c = s.nextCaller) s
          { s with begun := true } :=
        ⟨rfl, .inl rfl, rfl, le_rfl, fun _ => id, fun _ => .inl⟩
      exact hbegun.trans (undisturbed_runWriter hserving)
  | get => exact undisturbed_sendNext s _ _
  | sendReturns =>
      exact (undisturbed_endSend s _).trans (undisturbed_runWriter (by simpa using hserving))
  | sendRaises => simp [Channel.serving] at ht
  | closeReturns hw => exact absurd hw (hsup.closing _)
  | cancelledUnstarted => simp [step, hsup.cancelRequested] at hs
  | cancelledIdle => simp [step, hsup.cancelRequested] at hs
  | cancelledSending => simp [step, hsup.cancelRequested] at hs
  | connectionClosed => simp [Channel.serving] at ht
  | closeOutboundChannel => simp [Channel.serving] at ht
  | cleanup hc => exact absurd hc (by rw [hsup.closer]; rintro ⟨⟩)
  | cleanupCancelled hc => exact absurd hc (by rw [hsup.closer]; rintro ⟨⟩)
  | outboundFinished => simp [Channel.serving] at ht
  | stop =>
      rw [Channel.failOutboundQueue, serving_failItems, serving_failCurrent] at ht
      simp [Channel.serving] at ht
  | stopUnregistered => simp [Channel.serving] at ht

/-- **A served channel is supervised.**  Its writer is neither cancelled nor done,
and no future of it holds an error. -/
theorem supervised_of_serving (h : Reachable (system cfg) s) (hs : s.serving = true) :
    s.Supervised := by
  refine h.invariant (I := fun s => s.serving = true → s.Supervised) ?_ ?_ hs
  · rintro _ rfl _
    exact ⟨rfl, by nofun, fun _ => by nofun, rfl, fun _ => by nofun⟩
  · intro s l t hi hstep ht
    have hsup := hi (serving_of_step hstep ht)
    exact (undisturbed_step hsup hstep ht).supervised hsup

/-- A call of `_queue_frame` is given an exception only where it is cancelled, or
where the channel is served no longer. -/
theorem raised_of_step {l : Label} {c : ℕ} (h : Reachable (system cfg) s)
    (hs : step cfg s l = some t) (hc : c < s.nextCaller) (hold : s.callers c ≠ .raised)
    (hnew : t.callers c = .raised) : l = .cancelCaller c ∨ t.serving = false := by
  by_cases ht : t.serving = true
  · have hsup := supervised_of_serving h (serving_of_step hs ht)
    rcases (undisturbed_step hsup hs ht).raised c hnew with hraised | hl | hlast
    · exact absurd hraised hold
    · exact Or.inl hl
    · exact absurd hlast hc.ne
  · exact Or.inr (Bool.eq_false_iff.2 ht)

end Serving

end OutboundChannel

/-! ## The reader -/

namespace AcknowledgementStep

open OutboundChannel (Channel)

/-- What the reader is configured with. -/
structure Config (F P : Type) where
  dispatch : InboundDispatch.Config P
  outbound : OutboundChannel.Config
  session : ProtocolSession F

/-- Where the reader stands. -/
inductive ReaderPc
  /-- In `receive_frame`. -/
  | receiving
  /-- In the call of `_queue_frame` with this number. -/
  | acknowledging (call : ℕ)
  /-- In `_resolve_reply` or `_enqueue_dispatch`. -/
  | delivering
  /-- `_send_acknowledgement` raised in a session that was served. -/
  | endedByAck
  | ended
  deriving DecidableEq, Repr

/-- The reader and the outbound channel of a session. -/
structure Node where
  channel : Channel
  reader : ReaderPc
  /-- The bytes of the frames that `_send_acknowledgement` queued. -/
  frames : ℕ → Option Bytes

/-- `_start_reader`, on a new channel. -/
def initial : Node where
  channel := OutboundChannel.initial
  reader := .receiving
  frames := fun _ => none

namespace Node

/-- An exception of `_send_acknowledgement`. -/
def ackRaised (s : Node) : Node :=
  { s with reader := if s.channel.serving then .endedByAck else .ended }

/-- The reader goes on when its call of `_queue_frame` has ended. -/
def resume (s : Node) : Node :=
  match s.reader with
  | .acknowledging call =>
      match s.channel.callers call with
      | .returned => { s with reader := .delivering }
      | .raised => s.ackRaised
      | _ => s
  | _ => s

/-- `channel` is the channel after the call of `_queue_frame` for `frame`. -/
def queued (s : Node) (channel : Channel) (frame : Bytes) : Node where
  channel := channel
  reader := .acknowledging s.channel.nextCaller
  frames := Function.update s.frames s.channel.nextCaller (some frame)

/-- `stop()` alone cancels the task of a reader. -/
def allows (s : Node) : OutboundChannel.Label → Bool
  | .cancelCaller c => s.reader ≠ .acknowledging c || !s.channel.running
  | _ => true

end Node

/-- The moves of the reader and of the channel. -/
inductive Label
  /-- The data of an application frame arrives. -/
  | receive (data : Bytes)
  /-- `_resolve_reply` or `_enqueue_dispatch` returns. -/
  | delivered
  /-- The reader ends for another reason. -/
  | readerEnded
  | channel (l : OutboundChannel.Label)
  deriving DecidableEq, Repr

variable {F P : Type} [PyFloat F]

/-- `_queue_frame` of the reader, up to its first suspension. -/
def queueFrame (cfg : Config F P) (s : Node) (frame : Bytes) : Option Node :=
  (OutboundChannel.step cfg.outbound s.channel .queueFrame).map fun channel =>
    (s.queued channel frame).resume

/-- `_send_acknowledgement` -/
def sendAcknowledgement (cfg : Config F P) (s : Node) (messageId : Attr) : Option Node :=
  match messageId.identifier.map (encodeAcknowledgementFrame (F := F)) with
  | some (.ok frame) => queueFrame cfg s frame
  | _ => some s.ackRaised

/-- An application frame arrives in `_read_connection`. -/
def receive (cfg : Config F P) (s : Node) (data : Bytes) : Option Node :=
  match InboundDispatch.checkApplication cfg.dispatch cfg.session data with
  | .error _ => some { s with reader := .ended }
  | .ok message =>
      if technicalAckCapability ∈ cfg.session.capabilities then
        sendAcknowledgement cfg s message.id
      else some { s with reader := .delivering }

/-- One move. -/
def step (cfg : Config F P) (s : Node) : Label → Option Node
  | .receive data => if s.reader = .receiving then receive cfg s data else none
  | .delivered => if s.reader = .delivering then some { s with reader := .receiving } else none
  | .readerEnded =>
      match s.reader with
      | .receiving | .delivering => some { s with reader := .ended }
      | _ => none
  | .channel l =>
      if s.allows l then
        (OutboundChannel.step cfg.outbound s.channel l).map fun channel =>
          Node.resume { s with channel }
      else none

/-- The runs. -/
def system (cfg : Config F P) : System Node Label where
  init s := s = initial
  step := step cfg

/-- The frame of the ACK can be encoded, and the queue takes it or lets the reader
wait. -/
def Acknowledgeable (cfg : Config F P) (s : Node) (id : Identifier) : Prop :=
  (Encodable id.1 ∧ acknowledgementSize id.1 ≤ maxControlPayloadSize) ∧
    (cfg.outbound.outboundBackpressure = .wait ∨
      s.channel.items.length < cfg.outbound.maxOutboundQueue)

/-- The steps of everybody else until the next application frame arrives. -/
def Between (_ : Node) (l : Label) : Prop := ∀ data, l ≠ .receive data

/-- The step queues a frame that the peer decodes as the ACK of the message, and
whatever happens before the next application frame, the call does not end the session. -/
def AckHolds (cfg : Config F P) (s : Node) (data : Bytes) (id : Identifier) : Prop :=
  ∃ t call frame, step cfg s (.receive data) = some t ∧ t.reader = .acknowledging call ∧
    t.frames call = some frame ∧
    (∀ limit, decodeSessionFrame (F := F) frame limit = .ok (.acknowledgement id)) ∧
    ∀ u, ReachableWhen ((system cfg).startingAt t) Between u → u.reader ≠ .endedByAck

/-! ## What a run keeps -/

/-- The reader's own call, while the session is served. -/
structure Inv (cfg : Config F P) (s : Node) : Prop where
  channel : Reachable (OutboundChannel.system cfg.outbound) s.channel
  waiting : ∀ call, s.reader = .acknowledging call → s.channel.serving = true →
    call < s.channel.nextCaller ∧ s.channel.callers call ≠ .raised
  contained : s.reader ≠ .endedByAck

variable {cfg : Config F P} {s t : Node}

omit [PyFloat F] in
/-- The reader looks at its call after a step of the channel. -/
theorem inv_resume (hchannel : Reachable (OutboundChannel.system cfg.outbound) s.channel)
    (hcontained : s.reader ≠ .endedByAck)
    (hcall : ∀ call, s.reader = .acknowledging call → s.channel.serving = true →
      call < s.channel.nextCaller ∧ s.channel.callers call ≠ .raised) : Inv cfg s.resume := by
  unfold Node.resume
  split
  · rename_i call hreader
    split
    · exact ⟨hchannel, by nofun, by nofun⟩
    · rename_i hraised
      have hdown : s.channel.serving = false := by
        by_contra hserving
        exact (hcall call hreader (by simpa using hserving)).2 hraised
      simp only [Node.ackRaised, hdown]
      exact ⟨hchannel, by nofun, by nofun⟩
    · exact ⟨hchannel, hcall, hcontained⟩
  · exact ⟨hchannel, hcall, hcontained⟩

/-- The channel moves. -/
theorem inv_channel {l : OutboundChannel.Label} (h : Inv cfg s)
    (hs : step cfg s (.channel l) = some t) : Inv cfg t := by
  simp only [step] at hs
  split at hs
  · rename_i hallows
    obtain ⟨channel, hstep, rfl⟩ := Option.map_eq_some_iff.1 hs
    refine inv_resume (h.channel.next l hstep) h.contained fun call hreader hserving => ?_
    have hbefore := OutboundChannel.serving_of_step hstep hserving
    have hsup := OutboundChannel.supervised_of_serving h.channel hbefore
    obtain ⟨hlt, hold⟩ := h.waiting call hreader hbefore
    refine ⟨hlt.trans_le (OutboundChannel.undisturbed_step hsup hstep hserving).nextCaller,
      fun hnew => ?_⟩
    rcases OutboundChannel.raised_of_step h.channel hstep hlt hold hnew with rfl | hdown
    · -- only `stop()` cancels the reader, and then the session is not served
      have hrunning : s.channel.running = true := by
        simp only [Channel.serving, Bool.and_eq_true] at hbefore
        exact hbefore.1.1
      simp [Node.allows, show s.reader = .acknowledging call from hreader, hrunning] at hallows
    · exact absurd hserving (by simpa using hdown)
  · cases hs

omit [PyFloat F] in
/-- `_queue_frame` on a channel that is served: only a full queue under `REJECT`
refuses the frame. -/
theorem queueFrame_of_serving (h : Reachable (OutboundChannel.system cfg.outbound) s.channel)
    (hserving : s.channel.serving = true) :
    ∃ channel, OutboundChannel.step cfg.outbound s.channel .queueFrame = some channel ∧
      s.channel.nextCaller < channel.nextCaller ∧ channel.serving = true ∧
      (channel.callers s.channel.nextCaller = .raised ↔
        ¬ (cfg.outbound.outboundBackpressure = .wait ∨
          s.channel.items.length < cfg.outbound.maxOutboundQueue)) ∧
      channel.callers s.channel.nextCaller ≠ .returned := by
  have hfinished := (OutboundChannel.supervised_of_serving h hserving).finished
  have hparts := hserving
  simp only [Channel.serving, Bool.and_eq_true, Bool.not_eq_true'] at hparts
  obtain ⟨⟨-, hregistered⟩, hopen⟩ := hparts
  simp only [OutboundChannel.step]
  rw [if_neg (by simp [hregistered, hopen, hfinished])]
  by_cases hroom : s.channel.items.length < cfg.outbound.maxOutboundQueue
  · rw [if_pos hroom]
    exact ⟨_, rfl, Nat.lt_succ_self _, hserving, by simp [Channel.putNowait, Channel.setCaller, hroom],
      by simp [Channel.putNowait, Channel.setCaller]⟩
  · rw [if_neg hroom]
    cases hpolicy : cfg.outbound.outboundBackpressure with
    | wait =>
        exact ⟨_, rfl, Nat.lt_succ_self _, hserving, by simp [Channel.park, Channel.setCaller],
          by simp [Channel.park, Channel.setCaller]⟩
    | reject =>
        exact ⟨_, rfl, Nat.lt_succ_self _, hserving, by simp [Channel.setCaller, hroom],
          by simp [Channel.setCaller]⟩

omit [PyFloat F] in
/-- The reader queues a frame. -/
theorem inv_queueFrame {frame : Bytes} (h : Inv cfg s)
    (hroom : s.channel.serving = true → cfg.outbound.outboundBackpressure = .wait ∨
      s.channel.items.length < cfg.outbound.maxOutboundQueue)
    (hs : queueFrame cfg s frame = some t) : Inv cfg t := by
  obtain ⟨channel, hstep, rfl⟩ := Option.map_eq_some_iff.1 hs
  refine inv_resume (h.channel.next .queueFrame hstep) (by nofun) fun call hreader hserving => ?_
  cases hreader
  have hbefore := OutboundChannel.serving_of_step hstep hserving
  obtain ⟨channel', hstep', hlt, -, hraised, -⟩ := queueFrame_of_serving h.channel hbefore
  cases hstep.symm.trans hstep'
  exact ⟨hlt, fun hr => hraised.1 hr (hroom hbefore)⟩

/-- Every application frame that arrives in a served session and passes the checks
can be acknowledged. -/
def Acknowledges (cfg : Config F P) (s : Node) (l : Label) : Prop :=
  ∀ data message id, l = .receive data →
    InboundDispatch.checkApplication cfg.dispatch cfg.session data = .ok message →
    message.id = .str (Subtype.val id) → s.channel.serving = true → Acknowledgeable cfg s id

omit [PyFloat F] in
/-- A message that passes the checks has an id. -/
theorem identifier_of_checkApplication {dispatch : InboundDispatch.Config P}
    {session : ProtocolSession F} {data : Bytes} {message : Message P}
    (h : InboundDispatch.checkApplication dispatch session data = .ok message) :
    ∃ id : Identifier, message.id = .str id.1 := by
  unfold InboundDispatch.checkApplication at h
  split at h
  · cases h
  · split at h
    · cases h
    · rename_i hvalid
      split at h
      · cases h
      · split at h <;> cases h
        obtain ⟨id, hid⟩ := Option.isSome_iff_exists.1 (validateIncomingMessage_ok.1 hvalid .id)
        exact ⟨id, Attr.identifier_eq_some.1 hid⟩

/-- A frame is received. -/
theorem inv_receive {data : Bytes} (h : Inv cfg s) (hG : Acknowledges cfg s (.receive data))
    (hs : receive cfg s data = some t) : Inv cfg t := by
  unfold receive at hs
  split at hs
  · cases hs
    exact ⟨h.channel, by nofun, by nofun⟩
  · rename_i message hm
    split at hs
    · obtain ⟨id, hid⟩ := identifier_of_checkApplication hm
      have hack := hG data message id rfl hm hid
      rw [sendAcknowledgement, Attr.identifier_eq_some.2 hid] at hs
      simp only [Option.map_some] at hs
      split at hs
      · exact inv_queueFrame h (fun hserving => (hack hserving).2) hs
      · rename_i herror
        cases hs
        have hdown : s.channel.serving = false := by
          by_contra hserving
          obtain ⟨frame, hframe⟩ := (encodeAcknowledgementFrame_ok_iff (F := F) id).2
            (hack (by simpa using hserving)).1
          exact herror frame (congrArg some hframe)
        simp only [Node.ackRaised, hdown]
        exact ⟨h.channel, by nofun, by nofun⟩
    · cases hs
      exact ⟨h.channel, by nofun, by nofun⟩

/-- **Every step keeps the invariant**, when the ACK is sent. -/
theorem inv_step {l : Label} (h : Inv cfg s) (hG : Acknowledges cfg s l)
    (hs : step cfg s l = some t) : Inv cfg t := by
  cases l with
  | receive data =>
      simp only [step] at hs
      split at hs
      · exact inv_receive h hG hs
      · cases hs
  | delivered =>
      simp only [step] at hs
      split at hs <;> cases hs
      exact ⟨h.channel, by nofun, by nofun⟩
  | readerEnded =>
      simp only [step] at hs
      split at hs <;> cases hs
      · exact ⟨h.channel, by nofun, by nofun⟩
      · exact ⟨h.channel, by nofun, by nofun⟩
  | channel l => exact inv_channel h hs

omit [PyFloat F] in
/-- The reader takes note of the channel. -/
@[simp] theorem resume_channel (s : Node) : s.resume.channel = s.channel := by
  unfold Node.resume
  split
  · split <;> rfl
  · rfl

omit [PyFloat F] in
/-- It waits as long as its call does. -/
theorem resume_of_waiting {call : ℕ} (hreader : s.reader = .acknowledging call)
    (hraised : s.channel.callers call ≠ .raised) (hreturned : s.channel.callers call ≠ .returned) :
    s.resume = s := by
  unfold Node.resume
  split
  · rename_i call' hreader'
    cases hreader.symm.trans hreader'
    split
    · exact absurd ‹_› hreturned
    · exact absurd ‹_› hraised
    · rfl
  · rfl

/-- The channel of a run is in a run of its own. -/
theorem channel_reachable (h : Reachable (system cfg) s) :
    Reachable (OutboundChannel.system cfg.outbound) s.channel := by
  refine h.invariant (I := fun s => Reachable (OutboundChannel.system cfg.outbound) s.channel)
    ?_ fun s l t hr hs => ?_
  · rintro _ rfl
    exact .init rfl
  · cases l with
    | receive data =>
        simp only [system, step] at hs
        split at hs
        · unfold receive sendAcknowledgement at hs
          split at hs
          · cases hs
            exact hr
          · split at hs
            · split at hs
              · obtain ⟨channel, hstep, rfl⟩ := Option.map_eq_some_iff.1 hs
                rw [resume_channel]
                exact hr.next .queueFrame hstep
              · cases hs
                exact hr
            · cases hs
              exact hr
        · cases hs
    | delivered =>
        simp only [system, step] at hs
        split at hs <;> cases hs
        exact hr
    | readerEnded =>
        simp only [system, step] at hs
        split at hs <;> cases hs
        · exact hr
        · exact hr
    | channel l =>
        simp only [system, step] at hs
        split at hs
        · obtain ⟨channel, hstep, rfl⟩ := Option.map_eq_some_iff.1 hs
          rw [resume_channel]
          exact hr.next l hstep
        · cases hs

/-- **What the step does in a served session.**  It queues the ACK, or it raises. -/
theorem sendAcknowledgement_spec (cfg : Config F P)
    (h : Reachable (OutboundChannel.system cfg.outbound) s.channel)
    (hserving : s.channel.serving = true) (id : Identifier) :
    ∃ t, sendAcknowledgement cfg s (.str id.1) = some t ∧
      (Acknowledgeable cfg s id ∧ Inv cfg t ∧ (∃ call frame, t.reader = .acknowledging call ∧
          t.frames call = some frame ∧ encodeAcknowledgementFrame (F := F) id = .ok frame) ∨
        ¬ Acknowledgeable cfg s id ∧ t.reader = .endedByAck) := by
  rw [sendAcknowledgement, Attr.identifier_eq_some.2 rfl, Option.map_some]
  obtain ⟨channel, hstep, hlt, hserving', hraised, hreturned⟩ := queueFrame_of_serving h hserving
  cases hencode : encodeAcknowledgementFrame (F := F) id with
  | error e =>
      refine ⟨_, rfl, Or.inr ⟨fun hack => ?_, by simp [Node.ackRaised, hserving]⟩⟩
      obtain ⟨frame, hframe⟩ := (encodeAcknowledgementFrame_ok_iff (F := F) id).2 hack.1
      rw [hencode] at hframe
      cases hframe
  | ok frame =>
      have hfits := (encodeAcknowledgementFrame_ok_iff (F := F) id).1 ⟨frame, hencode⟩
      have hqueue : queueFrame cfg s frame = some (s.queued channel frame).resume := by
        rw [queueFrame, hstep, Option.map_some]
      refine ⟨_, hqueue, ?_⟩
      by_cases hroom : cfg.outbound.outboundBackpressure = .wait ∨
          s.channel.items.length < cfg.outbound.maxOutboundQueue
      · have hcall : channel.callers s.channel.nextCaller ≠ .raised := fun hr =>
          hraised.1 hr hroom
        refine Or.inl ⟨⟨hfits, hroom⟩, inv_resume (h.next .queueFrame hstep) (by nofun) ?_, ?_⟩
        · rintro _ ⟨rfl⟩ -
          exact ⟨hlt, hcall⟩
        · rw [resume_of_waiting (s := s.queued channel frame) rfl hcall hreturned]
          exact ⟨s.channel.nextCaller, frame, rfl, Function.update_self .., rfl⟩
      · refine Or.inr ⟨fun hack => hroom hack.2, ?_⟩
        simp [Node.resume, Node.queued, hraised.2 hroom, Node.ackRaised, hserving']

/-- The step on one accepted message, in a served session. -/
theorem ackHolds_iff (h : Reachable (OutboundChannel.system cfg.outbound) s.channel)
    (hreader : s.reader = .receiving) (hserving : s.channel.serving = true)
    (hcap : technicalAckCapability ∈ cfg.session.capabilities) {data : Bytes} {message : Message P}
    (hm : InboundDispatch.checkApplication cfg.dispatch cfg.session data = .ok message)
    {id : Identifier} (hid : message.id = .str id.1) :
    AckHolds cfg s data id ↔ Acknowledgeable cfg s id := by
  have hstep : step cfg s (.receive data) = sendAcknowledgement cfg s (.str id.1) := by
    simp only [step, hreader, if_true, receive, hm, if_pos hcap, hid]
  obtain ⟨t, ht, hspec⟩ := sendAcknowledgement_spec cfg h hserving id
  rcases hspec with ⟨hack, hinv, call, frame, hcall, hframe, hencode⟩ | ⟨hnot, hended⟩
  · refine ⟨fun _ => hack, fun _ => ⟨t, call, frame, hstep.trans ht, hcall, hframe,
      fun limit => decodeSessionFrame_acknowledgement limit hencode, fun u hu => ?_⟩⟩
    refine (hu.invariant (I := Inv cfg) ?_ fun _ _ _ hi hG hs => inv_step hi ?_ hs).contained
    · rintro _ rfl
      exact hinv
    · intro data _ _ hl
      exact absurd hl (hG data)
  · refine ⟨?_, fun hack => absurd hack hnot⟩
    rintro ⟨t', call, frame, ht', hcall, -⟩
    cases (hstep.trans ht).symm.trans ht'
    rw [hended] at hcall
    cases hcall

/-- **The ACK of an accepted message.**  In a served session it is queued, decoded
by the peer as the ACK of this id, and harmless to the session exactly when UTF-8
encodes the id, the control frame holds it, and the queue has room or waits.  In a
run where every accepted message meets that, no ACK ends the session. -/
theorem acknowledgement_step (cfg : Config F P) :
    (∀ s, Reachable (system cfg) s → s.reader = .receiving → s.channel.serving = true →
      technicalAckCapability ∈ cfg.session.capabilities → ∀ data message,
      InboundDispatch.checkApplication cfg.dispatch cfg.session data = .ok message →
      ∃ id : Identifier, message.id = .str id.1 ∧
        (AckHolds cfg s data id ↔ Acknowledgeable cfg s id)) ∧
    ∀ s, ReachableWhen (system cfg) (Acknowledges cfg) s → s.reader ≠ .endedByAck := by
  refine ⟨fun s h hreader hserving hcap data message hm => ?_, fun s h => ?_⟩
  · obtain ⟨id, hid⟩ := identifier_of_checkApplication hm
    exact ⟨id, hid, ackHolds_iff (channel_reachable h) hreader hserving hcap hm hid⟩
  · refine (h.invariant (I := Inv cfg) ?_ fun _ _ _ hi hG hs => inv_step hi hG hs).contained
    rintro _ rfl
    exact ⟨.init rfl, by nofun, by nofun⟩

/-! ## A message on an idle channel, and one on a full channel -/

/-- A session with ACKs. -/
def sampleConfig (policy : BackpressurePolicy) : Config SampleFloat Unit where
  dispatch := InboundDispatch.sampleConfig
  outbound := { outboundBackpressure := policy, maxOutboundQueue := 1 }
  session := InboundDispatch.sampleSession

/-- A frame that asks for one. -/
theorem sampleMessage_checks : InboundDispatch.checkApplication InboundDispatch.sampleConfig
    InboundDispatch.sampleSession [1] = .ok Messaging.sampleMessage := rfl

/-- The ACK of a message that arrives on an idle channel. -/
theorem acknowledgement_step_sample : ∃ id : Identifier, Messaging.sampleMessage.id = .str id.1 ∧
    AckHolds (sampleConfig .wait) initial [1] id := by
  obtain ⟨id, hid, hiff⟩ := (acknowledgement_step (sampleConfig .wait)).1 initial (.init rfl) rfl
    rfl (by decide) [1] Messaging.sampleMessage sampleMessage_checks
  refine ⟨id, hid, hiff.2 ?_⟩
  have hone : id.1 = [49] := (Attr.str.inj hid).symm
  rw [Acknowledgeable, hone]
  exact ⟨⟨by decide, by decide⟩, Or.inl rfl⟩

/-- A local sender has filled the queue when the message arrives, and under `REJECT`
its ACK ends the session. -/
theorem not_acknowledgement_step : ¬ ∀ (cfg : Config SampleFloat Unit) (s : Node),
    Reachable (system cfg) s → s.reader = .receiving → s.channel.serving = true →
      technicalAckCapability ∈ cfg.session.capabilities → ∀ data message,
      InboundDispatch.checkApplication cfg.dispatch cfg.session data = .ok message →
      ∃ id : Identifier, message.id = .str id.1 ∧ AckHolds cfg s data id := by
  intro h
  have hfull : Reachable (system (sampleConfig .reject)) _ :=
    (Reachable.next (.init rfl) (.channel .queueFrame) rfl)
  obtain ⟨id, hid, hholds⟩ := h (sampleConfig .reject) _ hfull rfl rfl (by decide) [1]
    Messaging.sampleMessage sampleMessage_checks
  have hroom := ((ackHolds_iff (channel_reachable hfull) rfl rfl (by decide) sampleMessage_checks
    hid).1 hholds).2
  revert hroom
  decide

end AcknowledgementStep
end Core
end Paqto
