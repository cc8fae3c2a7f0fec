/-
# What each step of a messaging node does

What a reader has accepted from its connection is a list in the order of the
frames (`Node.received`): a step accepts one message more or none, and a frame
that carries a message which is not accepted ends the reader (`filed_step`).  A
call keeps its arguments, and queues its frame when `connect()` is over
(`calls_step`).
-/

import Paqto.Core.MessagingSteps
import Paqto.Core.Negotiation

namespace Paqto
namespace Core
namespace Messaging

open Transition Python Correlation

variable {F P : Type}

/-- What an application frame carries. -/
def applicationData : Bytes → Option Bytes
  | [] => none
  | kind :: data => if kind = applicationFrame then some data else none

/-- The application data among the frames, in their order. -/
def payloads (frames : List OutboundFrame) : List Bytes :=
  frames.filterMap fun f => applicationData f.data

namespace Node

/-- The connection and the data of a receipt. -/
def filed (s : Node F P) (r : ℕ) : Option (ℕ × Bytes) :=
  (s.receipts r).map fun receipt => (receipt.connection, receipt.data)

/-- The data of the messages that were accepted from a connection, in the order
of their receipts. -/
def received (s : Node F P) (c : ℕ) : List Bytes :=
  (List.range s.nextReceipt).filterMap fun r =>
    (s.filed r).bind fun (d, data) => if d = c then some data else none

end Node

/-- An application frame is its tag and its data. -/
theorem applicationData_eq_some {frame data : Bytes} :
    applicationData frame = some data ↔ frame = applicationFrame :: data := by
  cases frame with
  | nil => simp [applicationData]
  | cons kind payload =>
      by_cases hkind : kind = applicationFrame <;> simp [applicationData, hkind]

variable {cfg : Config F P} {s t u : Node F P} {c k r : ℕ}
  {session : ProtocolSession F} {receipt : Receipt F P}

/-! ## A step of a reader -/

/-- The reader of `c` goes on, and has accepted no message. -/
structure GoesOn (c : ℕ) (s t : Node F P) : Prop where
  filed : t.filed = s.filed
  nextReceipt : t.nextReceipt = s.nextReceipt
  outbound : t.outbound = s.outbound
  sent : t.sent = s.sent
  handled : t.handled = s.handled
  tasks : ∀ d, d ≠ c → t.tasks d = s.tasks d
  acknowledging : ∀ session r frame, t.tasks c = .acknowledging session r frame →
    s.tasks c = .acknowledging session r frame

/-- The inbound queue is left as it is, or gets `r`. -/
def Puts (r : ℕ) (s t : Node F P) : Prop :=
  t.inboundQueue = s.inboundQueue ∨
    ∃ queue, s.inboundQueue = some queue ∧ t.inboundQueue = some (queue ++ [r])

namespace GoesOn

/-- Nothing happens. -/
theorem refl (s : Node F P) : GoesOn c s s :=
  ⟨rfl, rfl, rfl, rfl, rfl, fun _ _ => rfl, fun _ _ _ h => h⟩

/-- One after the other. -/
theorem trans (h : GoesOn c s t) (h' : GoesOn c t u) : GoesOn c s u where
  filed := h'.filed.trans h.filed
  nextReceipt := h'.nextReceipt.trans h.nextReceipt
  outbound := h'.outbound.trans h.outbound
  sent := h'.sent.trans h.sent
  handled := h'.handled.trans h.handled
  tasks d hd := (h'.tasks d hd).trans (h.tasks d hd)
  acknowledging session r frame ht := h.acknowledging _ _ _ (h'.acknowledging session r frame ht)

/-- Only tables change. -/
theorem of_eq (hfiled : t.filed = s.filed) (hnext : t.nextReceipt = s.nextReceipt)
    (houtbound : t.outbound = s.outbound) (hsent : t.sent = s.sent)
    (hhandled : t.handled = s.handled) (htasks : t.tasks = s.tasks) : GoesOn c s t :=
  ⟨hfiled, hnext, houtbound, hsent, hhandled, fun _ _ => htasks ▸ rfl,
    fun _ _ _ h => htasks ▸ h⟩

/-- A reader moves to a place where it acknowledges nothing. -/
theorem setTask {pc : TaskPc F} (hpc : ∀ session r frame, pc ≠ .acknowledging session r frame) :
    GoesOn c s (s.setTask c pc) where
  filed := rfl
  nextReceipt := rfl
  outbound := rfl
  sent := rfl
  handled := rfl
  tasks _ hd := Function.update_of_ne hd ..
  acknowledging session r frame ht := by
    change Function.update s.tasks c pc c = _ at ht
    rw [Function.update_self] at ht
    exact absurd ht (hpc session r frame)

/-- The session ends. -/
theorem endSession : GoesOn c s (s.endSession c) :=
  (of_eq rfl rfl rfl rfl rfl rfl : GoesOn c s (s.retire c)).trans (setTask (by simp))

/-- The reader goes on to its next frame. -/
theorem continueReading : GoesOn c s (s.continueReading c session) := by
  unfold Node.continueReading
  split
  · exact setTask (by simp)
  · exact endSession

/-- The session is published. -/
theorem publish : GoesOn c s (s.publish cfg c session) := by
  unfold Node.publish
  split
  · exact endSession
  · rename_i tables selection _
    have htables : GoesOn c s { s with tables } := of_eq rfl rfl rfl rfl rfl rfl
    split
    · dsimp only
      have hready : GoesOn c s ({ s with tables }.setTask c (.ready session)) :=
        htables.trans (setTask (by simp))
      split
      · exact hready
      · exact hready.trans (of_eq rfl rfl rfl rfl rfl rfl)
    · exact htables.trans endSession

/-- The handshake is over. -/
theorem negotiated [PyFloat F] (exchange : Exchange) : GoesOn c s (s.negotiated cfg c exchange) := by
  unfold Node.negotiated
  dsimp only
  split
  · have hclosed : ∀ isClosed, GoesOn c s { s with isClosed } := fun _ =>
      of_eq rfl rfl rfl rfl rfl rfl
    exact (hclosed _).trans endSession
  · exact publish

/-- The reader is started. -/
theorem startReader (h : s.startReader cfg c session = some t) : GoesOn c s t := by
  unfold Node.startReader at h
  split at h
  · obtain ⟨_, _, rfl⟩ := Option.map_eq_some_iff.1 h
    exact continueReading
  · split at h <;> cases h
    · exact continueReading
    · exact endSession

/-- A receipt gets another outcome. -/
theorem setOutcome (hr : s.receipts r = some receipt) (ackQueued : Bool) (outcome : Outcome) :
    GoesOn c s (s.setReceipt r { receipt with ackQueued, outcome }) := by
  refine of_eq (funext fun i => ?_) rfl rfl rfl rfl rfl
  by_cases hir : i = r
  · subst hir
    simp [Node.filed, Node.setReceipt, hr]
  · simp [Node.filed, Node.setReceipt, hir]

/-- A receipt is put into the inbound queue. -/
theorem putInbound (hr : s.receipts r = some receipt) (queue : List ℕ) :
    GoesOn c s (s.putInbound queue r receipt) :=
  (setOutcome hr receipt.ackQueued .dispatched).trans (of_eq rfl rfl rfl rfl rfl rfl)

/-- `_enqueue_dispatch` -/
theorem enqueueDispatch (hr : s.receipts r = some receipt) :
    GoesOn c s (s.enqueueDispatch cfg c session r receipt) := by
  unfold Node.enqueueDispatch
  split
  · exact endSession
  · split
    · exact (putInbound hr _).trans continueReading
    · split
      · exact setTask (by simp)
      · exact endSession

/-- A reply is resolved, or a message goes on to the queue. -/
theorem deliver (hr : s.receipts r = some receipt) :
    GoesOn c s (s.deliver cfg c session r receipt) := by
  unfold Node.deliver
  split
  · rename_i id _
    have hreply : GoesOn c s (s.resolveReply r receipt id) :=
      (setOutcome hr receipt.ackQueued _).trans (of_eq rfl rfl rfl rfl rfl rfl)
    exact hreply.trans continueReading
  · exact enqueueDispatch hr

end GoesOn

/-- The reader leaves the inbound queue alone. -/
@[simp] theorem continueReading_inboundQueue :
    (s.continueReading c session).inboundQueue = s.inboundQueue := by
  unfold Node.continueReading
  split <;> rfl

/-- `_enqueue_dispatch` puts the receipt, or nothing. -/
theorem puts_enqueueDispatch : Puts r s (s.enqueueDispatch cfg c session r receipt) := by
  unfold Node.enqueueDispatch
  split
  · exact .inl rfl
  · rename_i queue hqueue
    split
    · exact .inr ⟨queue, hqueue, continueReading_inboundQueue⟩
    · split <;> exact .inl rfl

/-- So does a delivery. -/
theorem puts_deliver : Puts r s (s.deliver cfg c session r receipt) := by
  unfold Node.deliver
  split
  · exact .inl continueReading_inboundQueue
  · exact puts_enqueueDispatch

/-- A published session leaves the inbound queue alone. -/
theorem publish_inboundQueue : (s.publish cfg c session).inboundQueue = s.inboundQueue := by
  unfold Node.publish
  split
  · rfl
  · split
    · dsimp only
      split <;> rfl
    · rfl

/-- So does a handshake. -/
theorem negotiated_inboundQueue [PyFloat F] (exchange : Exchange) :
    (s.negotiated cfg c exchange).inboundQueue = s.inboundQueue := by
  unfold Node.negotiated
  dsimp only
  split
  · rfl
  · exact publish_inboundQueue

/-- So does the start of a reader. -/
theorem startReader_inboundQueue (h : s.startReader cfg c session = some t) :
    t.inboundQueue = s.inboundQueue := by
  unfold Node.startReader at h
  split at h
  · obtain ⟨_, _, rfl⟩ := Option.map_eq_some_iff.1 h
    exact continueReading_inboundQueue
  · split at h <;> cases h
    · exact continueReading_inboundQueue
    · rfl

/-- The reader of `c` has accepted a message with this data. -/
structure Accepts (c : ℕ) (data : Bytes) (s t : Node F P) : Prop where
  filed : t.filed = Function.update s.filed s.nextReceipt (some (c, data))
  nextReceipt : t.nextReceipt = s.nextReceipt + 1
  outbound : t.outbound = s.outbound
  sent : t.sent = s.sent
  handled : t.handled = s.handled
  tasks : ∀ d, d ≠ c → t.tasks d = s.tasks d
  acknowledging : ∀ session r frame, t.tasks c = .acknowledging session r frame →
    s.tasks c = .acknowledging session r frame ∨ r = s.nextReceipt
  puts : Puts s.nextReceipt s t

/-- A new receipt, with which the reader goes on. -/
theorem accepts_of_goesOn {data : Bytes} {message : Message P}
    (h : GoesOn c ({ s with nextReceipt := s.nextReceipt + 1 }.setReceipt s.nextReceipt
      ⟨c, session, data, message, false, .undelivered⟩) t) (hputs : Puts s.nextReceipt s t) :
    Accepts c data s t where
  filed := by
    rw [h.filed]
    funext i
    by_cases hi : i = s.nextReceipt
    · subst hi
      simp [Node.filed, Node.setReceipt]
    · simp [Node.filed, Node.setReceipt, hi]
  nextReceipt := h.nextReceipt
  outbound := h.outbound
  sent := h.sent
  handled := h.handled
  tasks := h.tasks
  acknowledging session r frame ht := .inl (h.acknowledging session r frame ht)
  puts := hputs

/-- A message is accepted. -/
theorem accepts_accept [PyFloat F] (s : Node F P) (c : ℕ) (session : ProtocolSession F)
    (data : Bytes) (message : Message P) (id : Identifier) :
    Accepts c data s (s.accept cfg c session data message id) := by
  unfold Node.accept
  dsimp only
  split
  · split
    · rename_i frame _
      have hnew : Accepts c data s ({ s with nextReceipt := s.nextReceipt + 1 }.setReceipt
          s.nextReceipt ⟨c, session, data, message, false, .undelivered⟩) :=
        accepts_of_goesOn (.refl _) (.inl rfl)
      exact { hnew with
        tasks := fun d hd => Function.update_of_ne hd ..
        acknowledging := fun session' r frame' ht => by
          change Function.update s.tasks c (.acknowledging session s.nextReceipt frame) c = _ at ht
          rw [Function.update_self] at ht
          cases ht
          exact .inr rfl }
    · exact accepts_of_goesOn .endSession (.inl rfl)
  · exact accepts_of_goesOn (.deliver (Function.update_self ..)) puts_deliver

/-- **What becomes of a frame**: its message is accepted, or it carries none, or the
reader ends. -/
theorem receive_filed [PyFloat F] (cfg : Config F P) (s : Node F P) (c : ℕ)
    (session : ProtocolSession F) (frame : Bytes) :
    (∃ data, applicationData frame = some data ∧
      Accepts c data s (s.receive cfg c session frame)) ∨
    (GoesOn c s (s.receive cfg c session frame) ∧
      (s.receive cfg c session frame).inboundQueue = s.inboundQueue ∧
      (applicationData frame = none ∨ (s.receive cfg c session frame).tasks c = .ended)) := by
  have hended : ∀ {t}, t = s.endSession c → GoesOn c s t ∧ t.inboundQueue = s.inboundQueue ∧
      (applicationData frame = none ∨ t.tasks c = .ended) := by
    rintro t rfl
    exact ⟨.endSession, rfl, .inr (Function.update_self ..)⟩
  -- a control frame carries no data
  have hcontrol : ∀ {decoded}, decodeSessionFrame (F := F) frame session.maxMessageSize =
      .ok decoded → (∀ data, decoded ≠ .application data) → applicationData frame = none := by
    intro decoded hdec hne
    cases hdata : applicationData frame with
    | none => rfl
    | some data =>
        rw [applicationData_eq_some.1 hdata] at hdec
        simp only [decodeSessionFrame, splitFrame, bind, Except.bind, if_true] at hdec
        split at hdec <;> cases hdec
        exact absurd rfl (hne data)
  unfold Node.receive
  split
  · exact .inr (hended rfl)
  · rename_i id hdec
    split
    · have hset : GoesOn c s (s.resolveAcknowledgement c session id) :=
        .of_eq rfl rfl rfl rfl rfl rfl
      exact .inr ⟨hset.trans .continueReading, continueReading_inboundQueue,
        .inl (hcontrol hdec (by simp))⟩
    · exact .inr (hended rfl)
  · rename_i id hdec
    split
    · split
      · exact .inr ⟨.setTask (by simp), rfl, .inl (hcontrol hdec (by simp))⟩
      · exact .inr (hended rfl)
    · exact .inr (hended rfl)
  · rename_i id hdec
    split
    · exact .inr ⟨.continueReading, continueReading_inboundQueue, .inl (hcontrol hdec (by simp))⟩
    · exact .inr (hended rfl)
  · rename_i data hdec
    unfold Node.receiveApplication
    split
    · exact .inr (hended rfl)
    · split
      · split
        · exact .inr (hended rfl)
        · split
          · exact .inr (hended rfl)
          · exact .inl ⟨data, applicationData_eq_some.2 (eq_of_decodeSessionFrame_application hdec),
              accepts_accept ..⟩
      · exact .inr (hended rfl)

/-! ## A step of a call -/

/-- What a step of a call leaves as it is: its arguments and its frame included. -/
structure KeepsReaders (k : ℕ) (call : Call F P) (s t : Node F P) : Prop where
  tasks : t.tasks = s.tasks
  receipts : t.receipts = s.receipts
  nextReceipt : t.nextReceipt = s.nextReceipt
  outbound : t.outbound = s.outbound
  sent : t.sent = s.sent
  handled : t.handled = s.handled
  inboundQueue : t.inboundQueue = s.inboundQueue
  call : ∀ call', t.calls k = some call' →
    call'.args = call.args ∧ call'.frameQueued = call.frameQueued

namespace KeepsReaders

variable {call : Call F P}

/-- The readers go on as they were. -/
theorem goesOn (h : KeepsReaders k call s t) (c : ℕ) : GoesOn c s t :=
  .of_eq (funext fun r => by rw [Node.filed, Node.filed, h.receipts]) h.nextReceipt h.outbound
    h.sent h.handled h.tasks

/-- Only the call, the tables and what the readers do not look at change. -/
theorem of_update {call' : Call F P} {calls : ℕ → Option (Call F P)}
    (hcalls : t.calls = Function.update calls k (some call'))
    (h : call'.args = call.args ∧ call'.frameQueued = call.frameQueued) (htasks : t.tasks = s.tasks)
    (hreceipts : t.receipts = s.receipts) (hnext : t.nextReceipt = s.nextReceipt)
    (houtbound : t.outbound = s.outbound) (hsent : t.sent = s.sent)
    (hhandled : t.handled = s.handled) (hqueue : t.inboundQueue = s.inboundQueue) :
    KeepsReaders k call s t := by
  refine ⟨htasks, hreceipts, hnext, houtbound, hsent, hhandled, hqueue, fun found hk => ?_⟩
  rw [hcalls, Function.update_self] at hk
  exact Option.some.inj hk ▸ h

/-- A call ends. -/
theorem endCall {pc : CallPc} : KeepsReaders k call s (s.endCall k (cfg.messageId k) call pc) :=
  of_update rfl ⟨rfl, rfl⟩ rfl rfl rfl rfl rfl rfl rfl

/-- A first change that leaves the same. -/
theorem after {call' : Call F P} (h : KeepsReaders k call' t u)
    (hcall : call'.args = call.args ∧ call'.frameQueued = call.frameQueued)
    (htasks : t.tasks = s.tasks)
    (hreceipts : t.receipts = s.receipts) (hnext : t.nextReceipt = s.nextReceipt)
    (houtbound : t.outbound = s.outbound) (hsent : t.sent = s.sent)
    (hhandled : t.handled = s.handled) (hqueue : t.inboundQueue = s.inboundQueue) :
    KeepsReaders k call s u :=
  ⟨h.tasks.trans htasks, h.receipts.trans hreceipts, h.nextReceipt.trans hnext,
    h.outbound.trans houtbound, h.sent.trans hsent, h.handled.trans hhandled,
    h.inboundQueue.trans hqueue, fun found hk =>
      ⟨(h.call found hk).1.trans hcall.1, (h.call found hk).2.trans hcall.2⟩⟩

/-- A call queues its frame. -/
theorem sendFrame {requireAck : Bool} :
    KeepsReaders k call s (s.sendFrame cfg k call c requireAck session) := by
  unfold Node.sendFrame
  dsimp only
  split
  · exact of_update rfl ⟨rfl, rfl⟩ rfl rfl rfl rfl rfl rfl rfl
  · split
    · exact of_update rfl ⟨rfl, rfl⟩ rfl rfl rfl rfl rfl rfl rfl
    · split
      · exact of_update rfl ⟨rfl, rfl⟩ rfl rfl rfl rfl rfl rfl rfl
      · split
        · split
          · exact of_update rfl ⟨rfl, rfl⟩ rfl rfl rfl rfl rfl rfl rfl
          · split
            · exact of_update rfl ⟨rfl, rfl⟩ rfl rfl rfl rfl rfl rfl rfl
            · exact of_update rfl ⟨rfl, rfl⟩ rfl rfl rfl rfl rfl rfl rfl
        · exact of_update rfl ⟨rfl, rfl⟩ rfl rfl rfl rfl rfl rfl rfl

/-- A call sends its message. -/
theorem sendMessage : KeepsReaders k call s (s.sendMessage cfg k call c) := by
  unfold Node.sendMessage
  dsimp only
  split
  · exact endCall
  · split
    · exact endCall
    · split
      · exact endCall
      · exact sendFrame

/-- A call has its connection. -/
theorem connected : KeepsReaders k call s (s.connected cfg k call c) := by
  unfold Node.connected
  dsimp only
  split
  · split
    · exact of_update rfl ⟨rfl, rfl⟩ rfl rfl rfl rfl rfl rfl rfl
    · split
      · exact of_update rfl ⟨rfl, rfl⟩ rfl rfl rfl rfl rfl rfl rfl
      · split
        · exact sendMessage.after ⟨rfl, rfl⟩ rfl rfl rfl rfl rfl rfl rfl
        · exact of_update rfl ⟨rfl, rfl⟩ rfl rfl rfl rfl rfl rfl rfl
  · exact sendMessage.after ⟨rfl, rfl⟩ rfl rfl rfl rfl rfl rfl rfl

/-- A call has its ACK. -/
theorem afterAck : KeepsReaders k call s (s.afterAck cfg k call) := by
  unfold Node.afterAck
  split
  · exact of_update rfl ⟨rfl, rfl⟩ rfl rfl rfl rfl rfl rfl rfl
  · exact endCall

/-- The frame of a call is written. -/
theorem frameWritten : KeepsReaders k call s (s.frameWritten cfg k call) := by
  unfold Node.frameWritten
  split
  · exact of_update rfl ⟨rfl, rfl⟩ rfl rfl rfl rfl rfl rfl rfl
  · exact afterAck

end KeepsReaders

/-- Call `k` goes on: the others stay, and it may queue its frame when `connect()` is over. -/
structure CallGoesOn (k : ℕ) (call : Call F P) (s t : Node F P) : Prop where
  calls : ∀ i, i ≠ k → t.calls i = s.calls i
  args : ∀ call', t.calls k = some call' → call'.args = call.args
  queueing : ∀ call' frame, t.calls k = some call' → call'.pc = .queueing frame →
    call.pc = .connecting ∧ call'.frameQueued = call.frameQueued

/-- A call moves, and keeps its arguments. -/
theorem callGoesOn_of_update {call call' : Call F P}
    (hcalls : t.calls = Function.update s.calls k (some call')) (hargs : call'.args = call.args)
    (hpc : ∀ frame, call'.pc ≠ .queueing frame) : CallGoesOn k call s t where
  calls i hi := by rw [hcalls, Function.update_of_ne hi]
  args found hk := by
    rw [hcalls, Function.update_self] at hk
    exact Option.some.inj hk ▸ hargs
  queueing found frame hk hframe := by
    rw [hcalls, Function.update_self] at hk
    exact absurd (Option.some.inj hk ▸ hframe) (hpc frame)

/-- A call has its ACK. -/
theorem callGoesOn_afterAck {call call' : Call F P} (hargs : call'.args = call.args) :
    CallGoesOn k call s (s.afterAck cfg k call') := by
  unfold Node.afterAck
  split <;> exact callGoesOn_of_update rfl hargs (by simp)

/-! ## One step -/

/-- The steps that move a frame or a message. -/
def Label.moves : Label P → Bool
  | .receive .. | .queuePong _ | .queueAck _ | .ping .. | .transmit _ | .dropOutbound _
  | .dispatch | .queueFrame _ => true
  | _ => false

section steps

variable [PyFloat F]

/-- **What the other steps do.**  A reader goes on that has not ended, or no task does. -/
theorem goesOn_step {l : Label P} (hs : step cfg s l = some t) (hl : l.moves = false) :
    ∃ c, GoesOn c s t ∧ (s.tasks c ≠ .ended ∨ t.tasks c = s.tasks c) := by
  have hsame : ∀ {u : Node F P}, u.filed = s.filed → u.nextReceipt = s.nextReceipt →
      u.outbound = s.outbound → u.sent = s.sent → u.handled = s.handled → u.tasks = s.tasks →
      ∃ c, GoesOn c s u ∧ (s.tasks c ≠ .ended ∨ u.tasks c = s.tasks c) :=
    fun h₁ h₂ h₃ h₄ h₅ h₆ => ⟨0, .of_eq h₁ h₂ h₃ h₄ h₅ h₆, .inr (by rw [h₆])⟩
  have hcall : ∀ {k call u}, KeepsReaders k call s u →
      ∃ c, GoesOn c s u ∧ (s.tasks c ≠ .ended ∨ u.tasks c = s.tasks c) := fun h =>
    ⟨0, h.goesOn 0, .inr (by rw [h.tasks])⟩
  have hreader : ∀ {c pc u}, s.tasks c = pc → pc ≠ .ended → GoesOn c s u →
      ∃ c, GoesOn c s u ∧ (s.tasks c ≠ .ended ∨ u.tasks c = s.tasks c) := fun hpc hne h =>
    ⟨_, h, .inl (hpc ▸ hne)⟩
  cases l with
  | receive c frame | queuePong c | queueAck c | ping c pingId | transmit c | dropOutbound c
  | dispatch | queueFrame k => cases hl
  | accepted c =>
      simp only [step] at hs
      split at hs
      · rename_i hpc
        split at hs <;> cases hs
        exact hreader hpc (by simp) (.setTask (by simp))
      · cases hs
  | negotiated c exchange =>
      simp only [step] at hs
      split at hs <;> cases hs
      rename_i hpc
      exact hreader hpc (by simp) (.negotiated exchange)
  | startReader c =>
      simp only [step] at hs
      split at hs
      · rename_i hpc
        exact hreader hpc (by simp) (.startReader hs)
      · cases hs
  | pongWritten c =>
      simp only [step] at hs
      split at hs <;> cases hs
      rename_i hpc
      exact hreader hpc (by simp) .continueReading
  | ackWritten c =>
      simp only [step] at hs
      split at hs
      · rename_i hpc
        split at hs
        · obtain ⟨_, hr, rfl⟩ := Option.map_eq_some_iff.1 hs
          exact hreader hpc (by simp) (.deliver hr)
        · cases hs
      · cases hs
  | enqueue c =>
      simp only [step] at hs
      split at hs
      · rename_i hpc _
        split at hs
        · obtain ⟨_, hr, rfl⟩ := Option.map_eq_some_iff.1 hs
          exact hreader hpc (by simp) ((GoesOn.putInbound hr _).trans .continueReading)
        · cases hs
      · cases hs
  | endTask c =>
      simp only [step] at hs
      split at hs <;> cases hs
      rename_i hne
      exact ⟨c, .endSession, .inl hne⟩
  | start | stop | discardQueue =>
      simp only [step] at hs
      split at hs <;> cases hs
      exact hsame rfl rfl rfl rfl rfl rfl
  | retire c | close c | startCall args =>
      cases hs
      exact hsame rfl rfl rfl rfl rfl rfl
  | connected k c =>
      obtain ⟨call, _, hs⟩ := bind_call hs
      split at hs <;> cases hs
      exact hcall .connected
  | frameWritten k =>
      obtain ⟨call, _, hs⟩ := bind_call hs
      split at hs
      · split at hs <;> cases hs
        exact hcall .frameWritten
      · cases hs
  | resumeAck k =>
      obtain ⟨call, _, hs⟩ := bind_call hs
      split at hs <;> cases hs
      · exact hcall .afterAck
      · exact hcall .endCall
  | resumeReply k =>
      obtain ⟨call, _, hs⟩ := bind_call hs
      split at hs <;> cases hs
      · exact hcall .endCall
      · exact hcall .endCall
  | cancelFuture k =>
      obtain ⟨call, _, hs⟩ := bind_call hs
      split at hs <;> cases hs
      · exact hsame rfl rfl rfl rfl rfl rfl
      · exact hsame rfl rfl rfl rfl rfl rfl
  | interrupt k e =>
      obtain ⟨call, _, hs⟩ := bind_call hs
      split at hs <;> cases hs
      exact hcall .endCall

/-- **Only `transmit` writes a frame.** -/
theorem sent_step {l : Label P} (hs : step cfg s l = some t) (hl : ∀ c, l ≠ .transmit c) :
    t.sent = s.sent := by
  by_cases hmoves : l.moves = false
  · obtain ⟨_, hgoes, _⟩ := goesOn_step hs hmoves
    exact hgoes.sent
  · cases l with
    | receive c frame =>
        simp only [step] at hs
        split at hs <;> cases hs
        rename_i session _
        rcases receive_filed cfg s c session frame with ⟨_, _, haccepts⟩ | ⟨hgoes, _⟩
        · exact haccepts.sent
        · exact hgoes.sent
    | queueAck c =>
        simp only [step] at hs
        split at hs
        · obtain ⟨_, _, rfl⟩ := Option.map_eq_some_iff.1 hs
          rfl
        · cases hs
    | queueFrame k =>
        obtain ⟨call, _, hs⟩ := bind_call hs
        split at hs <;> cases hs
        rfl
    | transmit c => exact absurd rfl (hl c)
    | queuePong c | ping c pingId | dispatch =>
        simp only [step] at hs
        split at hs <;> cases hs
        rfl
    | dropOutbound c =>
        cases hs
        rfl
    | _ => exact absurd rfl hmoves

/-- A task that has ended stays so. -/
theorem ended_step {l : Label P} (hs : step cfg s l = some t) (hc : s.tasks c = .ended) :
    t.tasks c = .ended := by
  have hother : ∀ {d : ℕ} {pc pc' : TaskPc F}, s.tasks d = pc → pc ≠ .ended →
      Function.update s.tasks d pc' c = .ended := by
    intro d pc pc' hpc hne
    have hcd : c ≠ d := by
      rintro rfl
      exact hne (hpc ▸ hc)
    rw [Function.update_of_ne hcd, hc]
  by_cases hl : l.moves = false
  · obtain ⟨d, hgoes, hd⟩ := goesOn_step hs hl
    by_cases hcd : c = d
    · subst hcd
      exact (hd.resolve_left (not_not.2 hc)).trans hc
    · exact (hgoes.tasks c hcd).trans hc
  · cases l with
    | receive d frame =>
        simp only [step] at hs
        split at hs <;> cases hs
        rename_i session hpc
        have hcd : c ≠ d := by
          rintro rfl
          rw [hc] at hpc
          cases hpc
        rcases receive_filed cfg s d session frame with ⟨_, _, haccepts⟩ | ⟨hgoes, _⟩
        · exact (haccepts.tasks c hcd).trans hc
        · exact (hgoes.tasks c hcd).trans hc
    | queuePong d =>
        simp only [step] at hs
        split at hs <;> cases hs
        rename_i hpc
        exact hother hpc (by simp)
    | queueAck d =>
        simp only [step] at hs
        split at hs
        · rename_i hpc
          obtain ⟨_, _, rfl⟩ := Option.map_eq_some_iff.1 hs
          exact hother hpc (by simp)
        · cases hs
    | queueFrame k =>
        obtain ⟨call, _, hs⟩ := bind_call hs
        split at hs <;> cases hs
        exact hc
    | ping d pingId | transmit d | dispatch =>
        simp only [step] at hs
        split at hs <;> cases hs
        exact hc
    | dropOutbound d =>
        cases hs
        exact hc
    | _ => exact absurd rfl hl

/-- **Only a reader that takes a frame accepts a message.**  Other frames that it
takes carry none, or end it. -/
theorem filed_step {l : Label P} (hs : step cfg s l = some t) :
    (∃ c data, l = .receive c (applicationFrame :: data) ∧ Accepts c data s t) ∨
    (t.filed = s.filed ∧ t.nextReceipt = s.nextReceipt ∧
      ∀ c frame, l = .receive c frame → applicationData frame = none ∨ t.tasks c = .ended) := by
  by_cases hl : l.moves = false
  · obtain ⟨_, hgoes, _⟩ := goesOn_step hs hl
    refine .inr ⟨hgoes.filed, hgoes.nextReceipt, ?_⟩
    rintro c frame rfl
    cases hl
  · cases l with
    | receive c frame =>
        simp only [step] at hs
        split at hs <;> cases hs
        rename_i session _
        rcases receive_filed cfg s c session frame with
          ⟨data, hdata, haccepts⟩ | ⟨hgoes, _, hframe⟩
        · exact .inl ⟨c, data, by rw [applicationData_eq_some.1 hdata], haccepts⟩
        · refine .inr ⟨hgoes.filed, hgoes.nextReceipt, fun d frame' heq => ?_⟩
          cases heq
          exact hframe
    | queueAck c =>
        simp only [step] at hs
        split at hs
        · obtain ⟨receipt, hr, rfl⟩ := Option.map_eq_some_iff.1 hs
          exact .inr ⟨(GoesOn.setOutcome (c := c) hr true receipt.outcome).filed, rfl, by simp⟩
        · cases hs
    | queueFrame k =>
        obtain ⟨call, _, hs⟩ := bind_call hs
        split at hs <;> cases hs
        exact .inr ⟨rfl, rfl, by simp⟩
    | queuePong c | ping c pingId | transmit c | dispatch =>
        simp only [step] at hs
        split at hs <;> cases hs
        exact .inr ⟨rfl, rfl, by simp⟩
    | dropOutbound c =>
        cases hs
        exact .inr ⟨rfl, rfl, by simp⟩
    | _ => exact absurd rfl hl

/-- An ACK is queued for a new receipt. -/
theorem acknowledging_step {l : Label P} (hs : step cfg s l = some t) {frame : Bytes}
    (ht : t.tasks c = .acknowledging session r frame) :
    s.tasks c = .acknowledging session r frame ∨ r = s.nextReceipt := by
  have hother : ∀ {d : ℕ} {pc : TaskPc F}, (∀ session r frame, pc ≠ .acknowledging session r frame) →
      Function.update s.tasks d pc c = .acknowledging session r frame →
      s.tasks c = .acknowledging session r frame := by
    intro d pc hpc h
    by_cases hcd : c = d
    · subst hcd
      rw [Function.update_self] at h
      exact absurd h (hpc _ _ _)
    · rwa [Function.update_of_ne hcd] at h
  by_cases hl : l.moves = false
  · obtain ⟨d, hgoes, _⟩ := goesOn_step hs hl
    by_cases hcd : c = d
    · subst hcd
      exact .inl (hgoes.acknowledging _ _ _ ht)
    · exact .inl (hgoes.tasks c hcd ▸ ht)
  · cases l with
    | receive d frame' =>
        simp only [step] at hs
        split at hs <;> cases hs
        rename_i session' _
        rcases receive_filed cfg s d session' frame' with ⟨_, _, haccepts⟩ | ⟨hgoes, _⟩
        · by_cases hcd : c = d
          · subst hcd
            exact haccepts.acknowledging _ _ _ ht
          · exact .inl (haccepts.tasks c hcd ▸ ht)
        · by_cases hcd : c = d
          · subst hcd
            exact .inl (hgoes.acknowledging _ _ _ ht)
          · exact .inl (hgoes.tasks c hcd ▸ ht)
    | queuePong d =>
        simp only [step] at hs
        split at hs <;> cases hs
        exact .inl (hother (by simp) ht)
    | queueAck d =>
        simp only [step] at hs
        split at hs
        · obtain ⟨_, _, rfl⟩ := Option.map_eq_some_iff.1 hs
          exact .inl (hother (by simp) ht)
        · cases hs
    | queueFrame k =>
        obtain ⟨call, _, hs⟩ := bind_call hs
        split at hs <;> cases hs
        exact .inl ht
    | ping d pingId | transmit d | dispatch =>
        simp only [step] at hs
        split at hs <;> cases hs
        exact .inl ht
    | dropOutbound d =>
        cases hs
        exact .inl ht
    | _ => exact absurd rfl hl

/-! ## The calls -/

/-- **What a step does to the calls**: nothing, or one is started, or one goes on. -/
theorem calls_step {l : Label P} (hs : step cfg s l = some t) :
    t.calls = s.calls ∨ (∃ args, l = .startCall args ∧ t = s.startCall cfg args) ∨
      ∃ k call, s.calls k = some call ∧ CallGoesOn k call s t := by
  have hgoes : ∀ {k call u}, s.calls k = some call → CallGoesOn k call s u →
      u.calls = s.calls ∨ (∃ args, l = .startCall args ∧ u = s.startCall cfg args) ∨
        ∃ k call, s.calls k = some call ∧ CallGoesOn k call s u := fun hk h =>
    .inr (.inr ⟨_, _, hk, h⟩)
  cases l with
  | connected k c =>
      obtain ⟨call, hk, hs⟩ := bind_call hs
      split at hs <;> cases hs
      rename_i hpc
      have hkeeps : KeepsReaders k call s (s.connected cfg k call c) := .connected
      have hothers : CallStep cfg k s (s.connected cfg k call c) := .connected
      exact hgoes hk ⟨hothers.calls, fun call' hi => (hkeeps.call call' hi).1,
        fun call' _ hi _ => ⟨hpc, (hkeeps.call call' hi).2⟩⟩
  | queueFrame k =>
      obtain ⟨call, hk, hs⟩ := bind_call hs
      split at hs <;> cases hs
      exact hgoes hk (callGoesOn_of_update rfl rfl (by simp))
  | frameWritten k =>
      obtain ⟨call, hk, hs⟩ := bind_call hs
      split at hs
      · split at hs <;> cases hs
        unfold Node.frameWritten
        split
        · exact hgoes hk (callGoesOn_of_update rfl rfl (by simp))
        · exact hgoes hk (callGoesOn_afterAck rfl)
      · cases hs
  | resumeAck k =>
      obtain ⟨call, hk, hs⟩ := bind_call hs
      split at hs <;> cases hs
      · exact hgoes hk (callGoesOn_afterAck rfl)
      · exact hgoes hk (callGoesOn_of_update rfl rfl (by simp))
  | resumeReply k =>
      obtain ⟨call, hk, hs⟩ := bind_call hs
      split at hs <;> cases hs
      · exact hgoes hk (callGoesOn_of_update rfl rfl (by simp))
      · exact hgoes hk (callGoesOn_of_update rfl rfl (by simp))
  | interrupt k e =>
      obtain ⟨call, hk, hs⟩ := bind_call hs
      split at hs <;> cases hs
      exact hgoes hk (callGoesOn_of_update rfl rfl (by simp))
  | startCall args =>
      cases hs
      exact .inr (.inl ⟨args, rfl, rfl⟩)
  | negotiated c exchange =>
      simp only [step] at hs
      split at hs <;> cases hs
      exact .inl (ReaderStep.negotiated exchange).calls
  | startReader c =>
      simp only [step] at hs
      split at hs
      · exact .inl (ReaderStep.startReader hs).calls
      · cases hs
  | receive c frame =>
      simp only [step] at hs
      split at hs <;> cases hs
      exact .inl (ReaderStep.receive frame).calls
  | pongWritten c =>
      simp only [step] at hs
      split at hs <;> cases hs
      exact .inl ReaderStep.continueReading.calls
  | ackWritten c =>
      simp only [step] at hs
      split at hs
      · split at hs
        · obtain ⟨_, hr, rfl⟩ := Option.map_eq_some_iff.1 hs
          exact .inl (ReaderStep.deliver hr).calls
        · cases hs
      · cases hs
  | enqueue c =>
      simp only [step] at hs
      split at hs
      · split at hs
        · obtain ⟨_, hr, rfl⟩ := Option.map_eq_some_iff.1 hs
          exact .inl ((ReaderStep.putInbound hr _).trans .continueReading).calls
        · cases hs
      · cases hs
  | queueAck c =>
      simp only [step] at hs
      split at hs
      · obtain ⟨_, _, rfl⟩ := Option.map_eq_some_iff.1 hs
        exact .inl rfl
      · cases hs
  | cancelFuture k =>
      obtain ⟨call, hk, hs⟩ := bind_call hs
      split at hs <;> cases hs
      · exact .inl rfl
      · exact .inl rfl
  | accepted c =>
      simp only [step] at hs
      split at hs
      · split at hs <;> cases hs
        exact .inl rfl
      · cases hs
  | start | stop | discardQueue | queuePong c | endTask c | ping c pingId | transmit c
  | dispatch =>
      simp only [step] at hs
      split at hs <;> cases hs
      exact .inl rfl
  | retire c | close c | dropOutbound c =>
      cases hs
      exact .inl rfl

/-- The arguments of a call are those it was started with. -/
theorem args_step {l : Label P} (hs : step cfg s l = some t) {call' : Call F P}
    (hk : t.calls k = some call') : (∃ call, s.calls k = some call ∧ call'.args = call.args) ∨
      (l = .startCall call'.args ∧ t = s.startCall cfg call'.args) := by
  rcases calls_step hs with hsame | ⟨args, rfl, rfl⟩ | ⟨i, call, hi, hgoes⟩
  · exact .inl ⟨call', hsame ▸ hk, rfl⟩
  · change Function.update s.calls s.nextCall _ k = some call' at hk
    rw [Function.update_apply] at hk
    split at hk
    · cases hk
      exact .inr ⟨rfl, rfl⟩
    · exact .inl ⟨call', hk, rfl⟩
  · by_cases hki : k = i
    · subst hki
      exact .inl ⟨call, hi, hgoes.args call' hk⟩
    · exact .inl ⟨call', hgoes.calls k hki ▸ hk, rfl⟩

end steps

end Messaging
end Core
end Paqto
