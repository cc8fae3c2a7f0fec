/-
# What one step of a messaging node leaves alone

A step of a reader changes no call, a step of a call changes no other call and
no receipt, and only `queueAck` marks a receipt as acknowledged
(`step_effect`).
-/

import Paqto.Core.MessagingRuns

namespace Paqto
namespace Core
namespace Messaging

open Transition Python Correlation

variable {F P : Type}
variable {cfg : Config F P} {s t u : Node F P} {c k r : ℕ}

/-! ## A step of a reader -/

/-- The calls stay as they are, and no receipt gets its ACK queued. -/
structure ReaderStep (s t : Node F P) : Prop where
  calls : t.calls = s.calls
  acks : ∀ r receipt', t.receipts r = some receipt' → receipt'.ackQueued = true →
    ∃ receipt, s.receipts r = some receipt ∧ receipt.ackQueued = true

namespace ReaderStep

variable {session : ProtocolSession F} {receipt : Receipt F P}

/-- The calls and receipts stay as they are. -/
theorem of_eq (hc : t.calls = s.calls) (hr : t.receipts = s.receipts) : ReaderStep s t :=
  ⟨hc, fun _ receipt h ha => ⟨receipt, hr ▸ h, ha⟩⟩

/-- One after the other. -/
theorem trans (h : ReaderStep s t) (h' : ReaderStep t u) : ReaderStep s u :=
  ⟨h'.calls.trans h.calls, fun r receipt hr ha =>
    let ⟨found, hf, hfa⟩ := h'.acks r receipt hr ha
    h.acks r found hf hfa⟩

/-- One receipt is recorded. -/
theorem of_update (hc : t.calls = s.calls)
    (ht : t.receipts = Function.update s.receipts r (some receipt))
    (h : receipt.ackQueued = true → ∃ old, s.receipts r = some old ∧ old.ackQueued = true) :
    ReaderStep s t := by
  refine ⟨hc, fun i receipt' hi ha => ?_⟩
  rw [ht] at hi
  by_cases hir : i = r
  · subst hir
    simp only [Function.update_self, Option.some.injEq] at hi
    exact h (hi ▸ ha)
  · exact ⟨receipt', by simpa [hir] using hi, ha⟩

/-- The reader goes on to its next frame. -/
theorem continueReading : ReaderStep s (s.continueReading c session) := by
  unfold Node.continueReading
  split <;> exact of_eq rfl rfl

/-- The session is published. -/
theorem publish : ReaderStep s (s.publish cfg c session) := by
  unfold Node.publish
  split
  · exact of_eq rfl rfl
  · split
    · dsimp only
      split <;> exact of_eq rfl rfl
    · exact of_eq rfl rfl

/-- The handshake is over. -/
theorem negotiated [PyFloat F] (exchange : Exchange) : ReaderStep s (s.negotiated cfg c exchange) := by
  unfold Node.negotiated
  dsimp only
  split
  · exact of_eq rfl rfl
  · exact publish

/-- The reader is started. -/
theorem startReader (h : s.startReader cfg c session = some t) : ReaderStep s t := by
  unfold Node.startReader at h
  split at h
  · obtain ⟨_, _, rfl⟩ := Option.map_eq_some_iff.1 h
    exact continueReading
  · split at h <;> cases h
    · exact continueReading
    · exact of_eq rfl rfl

/-- A receipt is put into the inbound queue. -/
theorem putInbound (hr : s.receipts r = some receipt) (queue : List ℕ) :
    ReaderStep s (s.putInbound queue r receipt) :=
  of_update rfl rfl fun ha => ⟨receipt, hr, ha⟩

/-- `_enqueue_dispatch` -/
theorem enqueueDispatch (hr : s.receipts r = some receipt) :
    ReaderStep s (s.enqueueDispatch cfg c session r receipt) := by
  unfold Node.enqueueDispatch
  split
  · exact of_eq rfl rfl
  · split
    · exact (putInbound hr _).trans continueReading
    · split <;> exact of_eq rfl rfl

/-- A reply is resolved, or a message goes on to the queue. -/
theorem deliver (hr : s.receipts r = some receipt) :
    ReaderStep s (s.deliver cfg c session r receipt) := by
  unfold Node.deliver
  split
  · rename_i id _
    have hset : ReaderStep s (s.resolveReply r receipt id) :=
      of_update rfl rfl fun ha => ⟨receipt, hr, ha⟩
    exact hset.trans continueReading
  · exact enqueueDispatch hr

/-- An application frame is received. -/
theorem receiveApplication [PyFloat F] (data : Bytes) :
    ReaderStep s (s.receiveApplication cfg c session data) := by
  unfold Node.receiveApplication
  split
  · exact of_eq rfl rfl
  · rename_i message _
    split
    · split
      · exact of_eq rfl rfl
      · split
        · exact of_eq rfl rfl
        · have hnew : ReaderStep s ({ s with nextReceipt := s.nextReceipt + 1 }.setReceipt
              s.nextReceipt ⟨c, session, data, message, false, .undelivered⟩) :=
            of_update rfl rfl fun ha => by cases ha
          unfold Node.accept
          dsimp only
          split
          · split
            · exact hnew.trans (of_eq rfl rfl)
            · exact hnew.trans (of_eq rfl rfl)
          · exact hnew.trans (deliver (Function.update_self ..))
    · exact of_eq rfl rfl

/-- A frame is received. -/
theorem receive [PyFloat F] (frame : Bytes) : ReaderStep s (s.receive cfg c session frame) := by
  unfold Node.receive
  split
  · exact of_eq rfl rfl
  · split
    · exact (of_eq rfl rfl : ReaderStep s (s.resolveAcknowledgement c session _)).trans
        continueReading
    · exact of_eq rfl rfl
  · split
    · split <;> exact of_eq rfl rfl
    · exact of_eq rfl rfl
  · split
    · exact continueReading
    · exact of_eq rfl rfl
  · exact receiveApplication _

end ReaderStep

/-! ## A step of a call -/

/-- Only call `k` changes, and only its own entry may leave. -/
structure OnlyCall (cfg : Config F P) (k : ℕ) (s t : Node F P) : Prop where
  calls : ∀ i, i ≠ k → t.calls i = s.calls i
  entries : ∀ e ∈ s.requests.entries, e.key ≠ cfg.messageId k → e ∈ t.requests.entries
  receipts : t.receipts = s.receipts

/-- A step of call `k`, which leaves it suspended or over. -/
structure CallStep (cfg : Config F P) (k : ℕ) (s t : Node F P) : Prop
    extends OnlyCall cfg k s t where
  settled : ∀ call, t.calls k = some call → call.pc ≠ .sending

/-- The call moves. -/
theorem OnlyCall.setCall {call : Call F P} : OnlyCall cfg k s (s.setCall k call) :=
  ⟨fun i hi => by simp [Node.setCall, hi], fun _ he _ => he, rfl⟩

/-- It registers its correlation. -/
theorem OnlyCall.register (e : Entry Str ℕ ℕ Str) :
    OnlyCall cfg k s { s with requests := s.requests.register e } :=
  ⟨fun _ _ => rfl, fun _ he _ => List.mem_append_left _ he, rfl⟩

/-- One after the other. -/
theorem OnlyCall.callStep (h : OnlyCall cfg k s t) (h' : CallStep cfg k t u) :
    CallStep cfg k s u where
  calls i hi := (h'.calls i hi).trans (h.calls i hi)
  entries e he hk := h'.entries e (h.entries e he hk) hk
  receipts := h'.receipts.trans h.receipts
  settled := h'.settled

namespace CallStep

variable {call : Call F P}

/-- The call moves to a place where it sends nothing. -/
theorem of_update (hc : t.calls = Function.update s.calls k (some call))
    (hreq : t.requests = s.requests) (hrec : t.receipts = s.receipts)
    (hpc : call.pc ≠ .sending) : CallStep cfg k s t where
  calls i hi := by rw [hc, Function.update_of_ne hi]
  entries _ he _ := hreq ▸ he
  receipts := hrec
  settled found hk := by
    rw [hc, Function.update_self, Option.some.injEq] at hk
    exact hk ▸ hpc

/-- It ends. -/
theorem endCall {pc : CallPc} (hpc : pc ≠ .sending) :
    CallStep cfg k s (s.endCall k (cfg.messageId k) call pc) where
  calls i hi := by simp [Node.endCall, Node.setCall, hi]
  entries _ he hk := Table.mem_release_of_ne he hk
  receipts := rfl
  settled found hk := by
    simp only [Node.endCall, Node.setCall, Function.update_self, Option.some.injEq] at hk
    exact hk ▸ hpc

/-- It queues its frame. -/
theorem sendFrame {requireAck : Bool} {session : ProtocolSession F} :
    CallStep cfg k s (s.sendFrame cfg k call c requireAck session) := by
  have hset : OnlyCall cfg k s (s.setCall k { call with session := some session }) := .setCall
  unfold Node.sendFrame
  dsimp only
  split
  · exact hset.callStep (endCall (by simp))
  · split
    · exact hset.callStep (endCall (by simp))
    · split
      · exact hset.callStep (endCall (by simp))
      · split
        · split
          · exact hset.callStep (endCall (by simp))
          · split
            · exact hset.callStep (endCall (by simp))
            · exact hset.callStep (of_update rfl rfl rfl (by simp))
        · exact hset.callStep (of_update rfl rfl rfl (by simp))

/-- It sends its message. -/
theorem sendMessage : CallStep cfg k s (s.sendMessage cfg k call c) := by
  unfold Node.sendMessage
  dsimp only
  split
  · exact endCall (by simp)
  · split
    · exact endCall (by simp)
    · split
      · exact endCall (by simp)
      · exact sendFrame

/-- It has its connection. -/
theorem connected : CallStep cfg k s (s.connected cfg k call c) := by
  have hset : OnlyCall cfg k s (s.setCall k { call with connection := some c, pc := .sending }) :=
    .setCall
  unfold Node.connected
  dsimp only
  split
  · split
    · exact hset.callStep (endCall (by simp))
    · split
      · exact hset.callStep (endCall (by simp))
      · split
        · exact hset.callStep ((OnlyCall.register _).callStep sendMessage)
        · exact hset.callStep (endCall (by simp))
  · exact hset.callStep sendMessage

/-- It has its ACK. -/
theorem afterAck : CallStep cfg k s (s.afterAck cfg k call) := by
  unfold Node.afterAck
  split
  · exact of_update rfl rfl rfl (by simp)
  · exact endCall (by simp)

/-- Its frame is written. -/
theorem frameWritten : CallStep cfg k s (s.frameWritten cfg k call) := by
  unfold Node.frameWritten
  split
  · exact of_update rfl rfl rfl (by simp)
  · exact afterAck

end CallStep

/-- **What one step does**: it is a step of a reader, queues an ACK, or is a
step of a call, or starts one. -/
theorem step_effect [PyFloat F] {l : Label P} (hs : step cfg s l = some t) :
    ReaderStep s t ∨
      (∃ c session r frame receipt, s.tasks c = .acknowledging session r frame ∧
        s.receipts r = some receipt ∧ t = s.queueAck c session r frame receipt) ∨
      (∃ k, CallStep cfg k s t) ∨ ∃ args, t = s.startCall cfg args := by
  cases l with
  | negotiated c exchange =>
      simp only [step] at hs
      split at hs <;> cases hs
      exact .inl (.negotiated exchange)
  | startReader c =>
      simp only [step] at hs
      split at hs
      · exact .inl (.startReader hs)
      · cases hs
  | receive c frame =>
      simp only [step] at hs
      split at hs <;> cases hs
      exact .inl (.receive frame)
  | pongWritten c =>
      simp only [step] at hs
      split at hs <;> cases hs
      exact .inl .continueReading
  | queueAck c =>
      simp only [step] at hs
      split at hs
      · rename_i session r frame hpc
        obtain ⟨receipt, hr, rfl⟩ := Option.map_eq_some_iff.1 hs
        exact .inr (.inl ⟨c, session, r, frame, receipt, hpc, hr, rfl⟩)
      · cases hs
  | ackWritten c =>
      simp only [step] at hs
      split at hs
      · split at hs
        · obtain ⟨_, hr, rfl⟩ := Option.map_eq_some_iff.1 hs
          exact .inl (.deliver hr)
        · cases hs
      · cases hs
  | enqueue c =>
      simp only [step] at hs
      split at hs
      · split at hs
        · obtain ⟨_, hr, rfl⟩ := Option.map_eq_some_iff.1 hs
          exact .inl ((ReaderStep.putInbound hr _).trans .continueReading)
        · cases hs
      · cases hs
  | startCall args =>
      cases hs
      exact .inr (.inr (.inr ⟨args, rfl⟩))
  | connected k c =>
      obtain ⟨call, _, hs⟩ := bind_call hs
      split at hs <;> cases hs
      exact .inr (.inr (.inl ⟨k, .connected⟩))
  | queueFrame k =>
      obtain ⟨call, _, hs⟩ := bind_call hs
      split at hs <;> cases hs
      exact .inr (.inr (.inl ⟨k, .of_update rfl rfl rfl (by simp)⟩))
  | frameWritten k =>
      obtain ⟨call, _, hs⟩ := bind_call hs
      split at hs
      · split at hs <;> cases hs
        exact .inr (.inr (.inl ⟨k, .frameWritten⟩))
      · cases hs
  | resumeAck k =>
      obtain ⟨call, _, hs⟩ := bind_call hs
      split at hs <;> cases hs
      · exact .inr (.inr (.inl ⟨k, .afterAck⟩))
      · exact .inr (.inr (.inl ⟨k, .endCall (by simp)⟩))
  | resumeReply k =>
      obtain ⟨call, _, hs⟩ := bind_call hs
      split at hs <;> cases hs
      · exact .inr (.inr (.inl ⟨k, .endCall (by simp)⟩))
      · exact .inr (.inr (.inl ⟨k, .endCall (by simp)⟩))
  | cancelFuture k =>
      obtain ⟨call, _, hs⟩ := bind_call hs
      split at hs <;> cases hs
      · exact .inl (.of_eq rfl rfl)
      · exact .inl (.of_eq rfl rfl)
  | interrupt k e =>
      obtain ⟨call, _, hs⟩ := bind_call hs
      split at hs <;> cases hs
      exact .inr (.inr (.inl ⟨k, .endCall (by simp)⟩))
  | retire c | close c | dropOutbound c =>
      cases hs
      exact .inl (.of_eq rfl rfl)
  | accepted c =>
      simp only [step] at hs
      split at hs
      · split at hs <;> cases hs
        exact .inl (.of_eq rfl rfl)
      · cases hs
  | start | stop | discardQueue | queuePong c | endTask c | ping c pingId | transmit c
  | dispatch =>
      simp only [step] at hs
      split at hs <;> cases hs
      exact .inl (.of_eq rfl rfl)

end Messaging
end Core
end Paqto
