/-
# What a node says over a connection

Every frame that a node queues for a connection with an agreed session is one
that this session allows (`Utterance`): application data of a message that is
addressed to the peer and fits the negotiated size, an ACK, a PING or a PONG of
a negotiated capability.  That is an invariant of the runs in which `connect()`
and `_connection_for_reply` come back with a connection of the right peer
(`Admits`).
-/

import Paqto.Core.MessagingMoves

namespace Paqto
namespace Core
namespace Messaging

open Transition Python Correlation

variable {F P : Type}

/-- The session that the task of a connection works with. -/
def TaskPc.session : TaskPc F → Option (ProtocolSession F)
  | absent | negotiating | ended => none
  | ready session | receiving session | ponging session _ | pongQueued session
  | acknowledging session _ _ | ackQueued session _ | enqueueing session _ => some session

/-- The frame that the task of a connection is about to queue. -/
def TaskPc.frame : TaskPc F → Option Bytes
  | ponging _ frame | acknowledging _ _ frame => some frame
  | _ => none

/-- A message of this node to the peer of a session. -/
structure Addressed (cfg : Config F P) (ok : Message P → Prop) (a : ProtocolSession F)
    (m : Message P) : Prop where
  ok : ok m
  valid : validateOutgoingMessage m = .ok ()
  sender : m.sender = .str cfg.peerId
  recipient : m.recipient = .str a.peerId

variable [PyFloat F]

/-- What may be said over a connection with the session `a`; `ok` is what the
application keeps to. -/
inductive Utterance (cfg : Config F P) (ok : Message P → Prop) (a : ProtocolSession F) :
    Bytes → Prop
  | application {m : Message P} {data frame : Bytes} (haddressed : Addressed cfg ok a m)
      (hdata : cfg.serializer.serialize m = some data)
      (hframe : encodeApplicationFrame data a.maxMessageSize = .ok frame) : Utterance cfg ok a frame
  | acknowledgement {id : Identifier} {frame : Bytes}
      (hcapability : technicalAckCapability ∈ a.capabilities)
      (hframe : encodeAcknowledgementFrame (F := F) id = .ok frame) : Utterance cfg ok a frame
  | ping {id : Identifier} {frame pong : Bytes} (hcapability : heartbeatCapability ∈ a.capabilities)
      (hframe : encodePingFrame (F := F) id = .ok frame)
      (hpong : encodePongFrame (F := F) id = .ok pong) : Utterance cfg ok a frame
  | pong {id : Identifier} {frame : Bytes} (hcapability : heartbeatCapability ∈ a.capabilities)
      (hframe : encodePongFrame (F := F) id = .ok frame) : Utterance cfg ok a frame

/-- What the task of a connection may be about. -/
structure TaskPc.Keeps (cfg : Config F P) (ok : Message P → Prop) (a : ProtocolSession F)
    (pc : TaskPc F) : Prop where
  session : ∀ session, pc.session = some session → session = a
  frame : ∀ frame, pc.frame = some frame → Utterance cfg ok a frame

/-- What a call may be about. -/
structure Call.Keeps (cfg : Config F P) (ok : Message P → Prop) (c : ℕ) (a : ProtocolSession F)
    (call : Call F P) : Prop where
  message : ok call.message
  frame : ∀ frame, call.pc = .queueing frame → call.connection = some c → Utterance cfg ok a frame

/-- **The node keeps to the session** `a` of the connection `c`. -/
structure KeepsTo (cfg : Config F P) (ok : Message P → Prop) (c : ℕ) (a : ProtocolSession F)
    (s : Node F P) : Prop where
  ready : ∀ r, s.tables.ready c = some r → r.session = a
  task : (s.tasks c).Keeps cfg ok a
  receipts : ∀ r receipt, s.receipts r = some receipt → receipt.connection = c → receipt.session = a
  calls : ∀ k call, s.calls k = some call → call.Keeps cfg ok c a
  frames : ∀ f, f ∈ s.outbound c ∨ f ∈ s.sent c → Utterance cfg ok a f.data

/-- The peer of the connection is who the call is for. -/
def ReachesPeer (s : Node F P) (call : Call F P) (c : ℕ) : Prop :=
  match call.args.kind with
  | .send target | .request target => ∀ r, s.tables.ready c = some r → target = r.session.peerId
  | .reply original =>
      (∃ i receipt, s.receipts i = some receipt ∧ receipt.message = original ∧
        receipt.connection = c) ∨
      ∀ r, s.tables.ready c = some r → original.sender = .str r.session.peerId

/-- What the environment of a node keeps to: negotiation comes to the session `a`, the
application sends messages that are `ok`, `connect()` and `_connection_for_reply` come back
with a connection of the right peer, and the heartbeat loop runs where it was negotiated. -/
def Admits (cfg : Config F P) (ok : Message P → Prop) (c : ℕ) (a : ProtocolSession F)
    (s : Node F P) : Label P → Prop
  | .negotiated d exchange => d = c → ∀ session,
      (negotiateProtocol cfg.offer (cfg.target c) (cfg.securityInfo c)
        cfg.requireAuthenticatedPeerIdMatch exchange).result = .ok session → session = a
  | .startCall args => ok (args.message cfg.peerId (cfg.messageId s.nextCall))
  | .connected k d => d = c → ∀ call, s.calls k = some call → ReachesPeer s call d
  | .ping d pingId => d = c → (∃ r, s.tables.ready d = some r ∧
      heartbeatCapability ∈ r.session.capabilities) ∧
      ∃ pong, encodePongFrame (F := F) pingId = .ok pong
  | _ => True

variable {cfg : Config F P} {ok : Message P → Prop} {s t : Node F P} {c d k r : ℕ}
  {a session : ProtocolSession F} {receipt : Receipt F P}

/-- Nothing was said yet. -/
theorem keepsTo_initial : KeepsTo cfg ok c a (initial : Node F P) where
  ready _ h := by cases h
  task := ⟨fun _ h => (by cases h), fun _ h => (by cases h)⟩
  receipts _ _ h := by cases h
  calls _ _ h := by cases h
  frames f h := by simp [initial] at h

namespace KeepsTo

/-! ## A step of a reader -/

/-- A reader moves. -/
theorem setTask (h : KeepsTo cfg ok c a s) {pc : TaskPc F} (hpc : d = c → pc.Keeps cfg ok a) :
    KeepsTo cfg ok c a (s.setTask d pc) :=
  { h with
    task := by
      change (Function.update s.tasks d pc c).Keeps cfg ok a
      by_cases hd : c = d
      · subst hd
        rw [Function.update_self]
        exact hpc rfl
      · rw [Function.update_of_ne hd]
        exact h.task }

/-- A reader in that session, without a frame. -/
theorem keeps_of_session {pc : TaskPc F} (hsession : pc.session = some session ∨ pc.session = none)
    (hframe : pc.frame = none) (ha : session = a) : pc.Keeps cfg ok a where
  session found hfound := by
    rcases hsession with hsession | hsession <;> rw [hsession] at hfound
    · exact (Option.some.inj hfound).symm.trans ha
    · cases hfound
  frame found hfound := by
    rw [hframe] at hfound
    cases hfound

/-- A connection is retired. -/
theorem retire (h : KeepsTo cfg ok c a s) : KeepsTo cfg ok c a (s.retire d) :=
  { h with ready := fun r hr => h.ready r (SessionTables.ready_of_deactivateSession hr) }

/-- A session ends. -/
theorem endSession (h : KeepsTo cfg ok c a s) : KeepsTo cfg ok c a (s.endSession d) :=
  h.retire.setTask fun _ => ⟨fun _ h => (by cases h), fun _ h => (by cases h)⟩

/-- A reader goes on to its next frame. -/
theorem continueReading (h : KeepsTo cfg ok c a s) (ha : d = c → session = a) :
    KeepsTo cfg ok c a (s.continueReading d session) := by
  unfold Node.continueReading
  split
  · exact h.setTask fun hd => keeps_of_session (.inl rfl) rfl (ha hd)
  · exact h.endSession

/-- A session is published. -/
theorem publish (h : KeepsTo cfg ok c a s) (ha : d = c → session = a) :
    KeepsTo cfg ok c a (s.publish cfg d session) := by
  unfold Node.publish
  split
  · exact h.endSession
  · rename_i tables selection hselect
    have htables : KeepsTo cfg ok c a { s with tables } :=
      { h with
        ready := fun r hr => by
          rcases (SessionTables.ready_of_selectReadyConnection hselect).2 c r hr with hr | ⟨hd, rfl⟩
          · exact h.ready r hr
          · exact ha hd.symm }
    split
    · dsimp only
      have hready : KeepsTo cfg ok c a ({ s with tables }.setTask d (.ready session)) :=
        htables.setTask fun hd => keeps_of_session (.inl rfl) rfl (ha hd)
      split
      · exact hready
      · exact hready.retire
    · exact htables.endSession

/-- A handshake is over. -/
theorem negotiated (h : KeepsTo cfg ok c a s) {exchange : Exchange}
    (ha : Admits cfg ok c a s (.negotiated d exchange)) :
    KeepsTo cfg ok c a (s.negotiated cfg d exchange) := by
  unfold Node.negotiated
  dsimp only
  split
  · have hclosed : ∀ isClosed, KeepsTo cfg ok c a { s with isClosed } := fun _ => { h with }
    exact (hclosed _).endSession
  · rename_i session hsession
    refine h.publish fun hd => ?_
    subst hd
    exact ha rfl session hsession

/-- A reader is started. -/
theorem startReader (h : KeepsTo cfg ok c a s) (ha : d = c → session = a)
    (hs : s.startReader cfg d session = some t) : KeepsTo cfg ok c a t := by
  unfold Node.startReader at hs
  split at hs
  · obtain ⟨found, hfound, rfl⟩ := Option.map_eq_some_iff.1 hs
    obtain ⟨r, hr, rfl⟩ := Option.map_eq_some_iff.1 hfound
    refine h.continueReading fun hd => ?_
    subst hd
    exact h.ready r hr
  · split at hs <;> cases hs
    · exact h.continueReading ha
    · exact h.endSession

/-- A receipt of that session is recorded. -/
theorem setReceipt (h : KeepsTo cfg ok c a s) (ha : receipt.connection = c → receipt.session = a) :
    KeepsTo cfg ok c a (s.setReceipt r receipt) :=
  { h with
    receipts := fun i found hi hc => by
      change Function.update s.receipts r (some receipt) i = some found at hi
      by_cases hir : i = r
      · subst hir
        rw [Function.update_self] at hi
        cases hi
        exact ha hc
      · rw [Function.update_of_ne hir] at hi
        exact h.receipts i found hi hc }

/-- It is put into the inbound queue. -/
theorem putInbound (h : KeepsTo cfg ok c a s) (hr : s.receipts r = some receipt)
    (queue : List ℕ) : KeepsTo cfg ok c a (s.putInbound queue r receipt) := by
  have hqueue : KeepsTo cfg ok c a { s with inboundQueue := some (queue ++ [r]) } := { h with }
  exact hqueue.setReceipt (h.receipts r receipt hr)

/-- `_enqueue_dispatch` -/
theorem enqueueDispatch (h : KeepsTo cfg ok c a s) (hr : s.receipts r = some receipt)
    (ha : d = c → session = a) : KeepsTo cfg ok c a (s.enqueueDispatch cfg d session r receipt) := by
  unfold Node.enqueueDispatch
  split
  · exact h.endSession
  · split
    · exact (h.putInbound hr _).continueReading ha
    · split
      · exact h.setTask fun hd => keeps_of_session (.inl rfl) rfl (ha hd)
      · exact h.endSession

/-- A reply is resolved, or a message goes on to the queue. -/
theorem deliver (h : KeepsTo cfg ok c a s) (hr : s.receipts r = some receipt)
    (ha : d = c → session = a) : KeepsTo cfg ok c a (s.deliver cfg d session r receipt) := by
  unfold Node.deliver
  split
  · rename_i id _
    have htable : ∀ requests, KeepsTo cfg ok c a { s with requests } := fun _ => { h with }
    have hreply : KeepsTo cfg ok c a (s.resolveReply r receipt id) :=
      (htable _).setReceipt (h.receipts r receipt hr)
    exact hreply.continueReading ha
  · exact h.enqueueDispatch hr ha

/-- A message is accepted. -/
theorem accept (h : KeepsTo cfg ok c a s) (ha : d = c → session = a) (data : Bytes)
    (message : Message P) (id : Identifier) :
    KeepsTo cfg ok c a (s.accept cfg d session data message id) := by
  have hnext : KeepsTo cfg ok c a { s with nextReceipt := s.nextReceipt + 1 } := { h with }
  have hnew : KeepsTo cfg ok c a ({ s with nextReceipt := s.nextReceipt + 1 }.setReceipt
      s.nextReceipt ⟨d, session, data, message, false, .undelivered⟩) := hnext.setReceipt ha
  unfold Node.accept
  dsimp only
  split
  · rename_i hcapability
    split
    · rename_i frame hframe
      refine hnew.setTask fun hd => ⟨fun found hfound => ?_, fun found hfound => ?_⟩
      · exact (Option.some.inj hfound).symm.trans (ha hd)
      · obtain rfl : frame = found := Option.some.inj hfound
        exact .acknowledgement (ha hd ▸ hcapability) hframe
    · exact hnew.endSession
  · exact hnew.deliver (Function.update_self ..) ha

/-- A frame is received. -/
theorem receive (h : KeepsTo cfg ok c a s) (ha : d = c → session = a) (frame : Bytes) :
    KeepsTo cfg ok c a (s.receive cfg d session frame) := by
  unfold Node.receive
  split
  · exact h.endSession
  · split
    · rename_i id _ _
      have hresolved : KeepsTo cfg ok c a (s.resolveAcknowledgement d session id) := { h with }
      exact hresolved.continueReading ha
    · exact h.endSession
  · split
    · rename_i hcapability
      split
      · rename_i pong hpong
        refine h.setTask fun hd => ⟨fun found hfound => ?_, fun found hfound => ?_⟩
        · exact (Option.some.inj hfound).symm.trans (ha hd)
        · obtain rfl : pong = found := Option.some.inj hfound
          exact .pong (ha hd ▸ hcapability) hpong
      · exact h.endSession
    · exact h.endSession
  · split
    · exact h.continueReading ha
    · exact h.endSession
  · unfold Node.receiveApplication
    split
    · exact h.endSession
    · split
      · split
        · exact h.endSession
        · split
          · exact h.endSession
          · exact h.accept ha ..
      · exact h.endSession

/-- A frame is queued that is an utterance of the session. -/
theorem pushOutbound (h : KeepsTo cfg ok c a s) {f : OutboundFrame}
    (hf : d = c → Utterance cfg ok a f.data) : KeepsTo cfg ok c a (s.pushOutbound d f) :=
  { h with
    frames := fun g hg => by
      change g ∈ Function.update s.outbound d (s.outbound d ++ [f]) c ∨ g ∈ s.sent c at hg
      by_cases hd : c = d
      · subst hd
        rw [Function.update_self, List.mem_append, List.mem_singleton] at hg
        rcases hg with (hg | rfl) | hg
        · exact h.frames g (.inl hg)
        · exact hf rfl
        · exact h.frames g (.inr hg)
      · rw [Function.update_of_ne hd] at hg
        exact h.frames g hg }

/-- An ACK is queued. -/
theorem queueAck (h : KeepsTo cfg ok c a s) {frame : Bytes}
    (hpc : s.tasks d = .acknowledging session r frame) (hr : s.receipts r = some receipt) :
    KeepsTo cfg ok c a (s.queueAck d session r frame receipt) := by
  have htask : d = c → session = a ∧ Utterance cfg ok a frame := by
    rintro rfl
    exact ⟨h.task.session session (by rw [hpc]; rfl), h.task.frame frame (by rw [hpc]; rfl)⟩
  have hpushed : KeepsTo cfg ok c a (s.pushOutbound d ⟨frame, .acknowledgement r⟩) :=
    h.pushOutbound fun hd => (htask hd).2
  have hmarked : KeepsTo cfg ok c a ((s.pushOutbound d ⟨frame, .acknowledgement r⟩).setReceipt r
      { receipt with ackQueued := true }) := hpushed.setReceipt (h.receipts r receipt hr)
  exact hmarked.setTask fun hd => keeps_of_session (.inl rfl) rfl (htask hd).1

/-! ## A step of a call -/

variable {call call' : Call F P}

/-- A call moves. -/
theorem setCall (h : KeepsTo cfg ok c a s) (hcall : call.Keeps cfg ok c a) :
    KeepsTo cfg ok c a (s.setCall k call) :=
  { h with
    calls := fun i found hi => by
      change Function.update s.calls k (some call) i = some found at hi
      by_cases hik : i = k
      · subst hik
        rw [Function.update_self] at hi
        exact Option.some.inj hi ▸ hcall
      · rw [Function.update_of_ne hik] at hi
        exact h.calls i found hi }

/-- A call that queues no frame. -/
theorem keeps_of_message (hmessage : ok call.message) (hpc : ∀ frame, call.pc ≠ .queueing frame) :
    call.Keeps cfg ok c a :=
  ⟨hmessage, fun frame hframe => absurd hframe (hpc frame)⟩

/-- A call ends. -/
theorem endCall (h : KeepsTo cfg ok c a s) (id : Identifier) (hmessage : ok call.message)
    {pc : CallPc} (hpc : ∀ frame, pc ≠ .queueing frame) :
    KeepsTo cfg ok c a (s.endCall k id call pc) := by
  have htables : ∀ requests acknowledgements,
      KeepsTo cfg ok c a { s with requests, acknowledgements } := fun _ _ => { h with }
  exact (htables _ _).setCall (keeps_of_message hmessage hpc)

/-- A call has its ACK. -/
theorem afterAck (h : KeepsTo cfg ok c a s) (hmessage : ok call.message) :
    KeepsTo cfg ok c a (s.afterAck cfg k call) := by
  have htable : ∀ acknowledgements, KeepsTo cfg ok c a { s with acknowledgements } :=
    fun _ => { h with }
  unfold Node.afterAck
  split
  · exact (htable _).setCall (keeps_of_message hmessage (by simp))
  · exact h.endCall _ hmessage (by simp)

/-- A call queues its frame. -/
theorem sendFrame (h : KeepsTo cfg ok c a s) (hconnection : call.connection = some d)
    (haddressed : d = c → Addressed cfg ok a call.message) (hmessage : ok call.message)
    (hpc : ∀ frame, call.pc ≠ .queueing frame) (ha : d = c → session = a) (requireAck : Bool) :
    KeepsTo cfg ok c a (s.sendFrame cfg k call d requireAck session) := by
  have h' : KeepsTo cfg ok c a (s.setCall k { call with session := some session }) :=
    h.setCall (keeps_of_message hmessage hpc)
  have hfail : ∀ e, KeepsTo cfg ok c a ((s.setCall k { call with session := some session }).endCall k
      (cfg.messageId k) { call with session := some session } (.raised e)) := by
    intro e
    refine h'.endCall _ ?_ (by simp)
    exact hmessage
  have htable : ∀ acknowledgements, KeepsTo cfg ok c a
      { s.setCall k { call with session := some session } with acknowledgements } :=
    fun _ => { h' with }
  unfold Node.sendFrame
  dsimp only
  split
  · exact hfail _
  · split
    · exact hfail _
    · rename_i data hdata
      split
      · exact hfail _
      · rename_i frame hframe
        have hkeeps : Call.Keeps cfg ok c a
            { call with session := some session, pc := .queueing frame } := by
          refine ⟨hmessage, fun found hfound hc => ?_⟩
          obtain rfl : frame = found := CallPc.queueing.inj hfound
          obtain rfl : d = c := Option.some.inj (hconnection.symm.trans hc)
          exact .application (haddressed rfl) hdata (ha rfl ▸ hframe)
        split
        · split
          · exact hfail _
          · split
            · exact hfail _
            · exact (htable _).setCall hkeeps
        · exact h'.setCall hkeeps

/-- A call sends its message. -/
theorem sendMessage (h : KeepsTo cfg ok c a s) (hconnection : call.connection = some d)
    (hsender : call.message.sender = .str cfg.peerId)
    (hrecipient : d = c → (s.tables.ready d).isSome → call.message.recipient = .str a.peerId)
    (hmessage : ok call.message) (hpc : ∀ frame, call.pc ≠ .queueing frame) :
    KeepsTo cfg ok c a (s.sendMessage cfg k call d) := by
  have hfail : ∀ e, KeepsTo cfg ok c a (s.endCall k (cfg.messageId k) call (.raised e)) := fun e =>
    h.endCall _ hmessage (by simp)
  unfold Node.sendMessage
  dsimp only
  split
  · exact hfail _
  · split
    · exact hfail _
    · rename_i hvalid
      split
      · exact hfail _
      · rename_i session hsession
        obtain ⟨r, hr, rfl⟩ := Option.map_eq_some_iff.1 hsession
        refine h.sendFrame hconnection (fun hd => ?_) hmessage hpc (fun hd => ?_) _
        · exact ⟨hmessage, hvalid, hsender, hrecipient hd (by rw [hr]; rfl)⟩
        · subst hd
          exact h.ready r hr

/-- **A call goes on with its connection**, whose peer is who it is for. -/
theorem connected {E : Evidence} (h : KeepsTo cfg ok c a s) (hinv : Inv cfg E none s)
    (hk : s.calls k = some call) (hl : Admits cfg ok c a s (.connected k d)) :
    KeepsTo cfg ok c a (s.connected cfg k call d) := by
  have hmessage := (h.calls k call hk).message
  have heq : call.message = call.args.message cfg.peerId (cfg.messageId k) :=
    (hinv.calls k call hk).message
  have hsender : call.message.sender = .str cfg.peerId := by rw [heq]; rfl
  -- the peer of the session is the recipient
  have hrecipient : d = c → (s.tables.ready d).isSome → call.message.recipient = .str a.peerId := by
    rintro rfl hready
    obtain ⟨ready, hready⟩ := Option.isSome_iff_exists.1 hready
    have hreaches := hl rfl call hk
    obtain rfl := h.ready ready hready
    rw [heq]
    unfold ReachesPeer at hreaches
    split at hreaches
    · rename_i target hkind
      simp only [CallArgs.message, hkind, hreaches ready hready]
    · rename_i target hkind
      simp only [CallArgs.message, hkind, hreaches ready hready]
    · rename_i original hkind
      simp only [CallArgs.message, hkind]
      rcases hreaches with ⟨i, receipt, hi, rfl, hconnection⟩ | hsender
      · rw [(hinv.receipts i receipt hi).sender, h.receipts i receipt hi hconnection]
      · exact hsender ready hready
  have hset : KeepsTo cfg ok c a (s.setCall k { call with connection := some d, pc := .sending }) :=
    h.setCall (keeps_of_message hmessage (by simp))
  have hfail : ∀ e, KeepsTo cfg ok c a
      ((s.setCall k { call with connection := some d, pc := .sending }).endCall k (cfg.messageId k)
        { call with connection := some d, pc := .sending } (.raised e)) := by
    intro e
    refine hset.endCall _ ?_ (by simp)
    exact hmessage
  have htable : ∀ requests, KeepsTo cfg ok c a
      { s.setCall k { call with connection := some d, pc := .sending } with requests } :=
    fun _ => { hset with }
  unfold Node.connected
  dsimp only
  split
  · split
    · exact hfail _
    · split
      · exact hfail _
      · split
        · exact (htable _).sendMessage rfl hsender hrecipient hmessage (by simp)
        · exact hfail _
  · exact hset.sendMessage rfl hsender hrecipient hmessage (by simp)

/-! ## One step -/

/-- **One step of a node keeps to the session.** -/
theorem step {E : Evidence} (h : KeepsTo cfg ok c a s) (hinv : Inv cfg E none s) {l : Label P}
    (hl : Admits cfg ok c a s l) (hs : Messaging.step cfg s l = some t) : KeepsTo cfg ok c a t := by
  -- the session of a task that works on a connection
  have hsession : ∀ {d pc session}, s.tasks d = pc → pc.session = some session →
      d = c → session = a := by
    rintro d pc session hpc hsession rfl
    exact h.task.session session (hpc ▸ hsession)
  cases l with
  | start | stop | discardQueue | dispatch =>
      simp only [Messaging.step] at hs
      split at hs <;> cases hs
      exact { h with ready := fun r hr => by first | exact h.ready r hr | cases hr }
  | accepted d =>
      simp only [Messaging.step] at hs
      split at hs
      · split at hs <;> cases hs
        exact h.setTask fun _ => ⟨fun _ h => (by cases h), fun _ h => (by cases h)⟩
      · cases hs
  | negotiated d exchange =>
      simp only [Messaging.step] at hs
      split at hs <;> cases hs
      exact h.negotiated hl
  | startReader d =>
      simp only [Messaging.step] at hs
      split at hs
      · rename_i hpc
        exact h.startReader (hsession hpc rfl) hs
      · cases hs
  | receive d frame =>
      simp only [Messaging.step] at hs
      split at hs <;> cases hs
      rename_i hpc
      exact h.receive (hsession hpc rfl) frame
  | queuePong d =>
      simp only [Messaging.step] at hs
      split at hs <;> cases hs
      rename_i session frame hpc
      refine (h.pushOutbound fun hd => ?_).setTask fun hd =>
        keeps_of_session (.inl rfl) rfl (hsession hpc rfl hd)
      subst hd
      exact h.task.frame frame (by rw [hpc]; rfl)
  | pongWritten d =>
      simp only [Messaging.step] at hs
      split at hs <;> cases hs
      rename_i hpc
      exact h.continueReading (hsession hpc rfl)
  | queueAck d =>
      simp only [Messaging.step] at hs
      split at hs
      · rename_i hpc
        obtain ⟨receipt, hr, rfl⟩ := Option.map_eq_some_iff.1 hs
        exact h.queueAck hpc hr
      · cases hs
  | ackWritten d =>
      simp only [Messaging.step] at hs
      split at hs
      · rename_i hpc
        split at hs
        · obtain ⟨_, hr, rfl⟩ := Option.map_eq_some_iff.1 hs
          exact h.deliver hr (hsession hpc rfl)
        · cases hs
      · cases hs
  | enqueue d =>
      simp only [Messaging.step] at hs
      split at hs
      · rename_i hpc _
        split at hs
        · obtain ⟨_, hr, rfl⟩ := Option.map_eq_some_iff.1 hs
          exact (h.putInbound hr _).continueReading (hsession hpc rfl)
        · cases hs
      · cases hs
  | endTask d =>
      simp only [Messaging.step] at hs
      split at hs <;> cases hs
      exact h.endSession
  | retire d =>
      cases hs
      exact h.retire
  | close d =>
      cases hs
      exact { h with }
  | ping d pingId =>
      simp only [Messaging.step] at hs
      split at hs <;> cases hs
      rename_i frame hframe
      refine h.pushOutbound fun hd => ?_
      obtain ⟨⟨r, hr, hcapability⟩, pong, hpong⟩ := hl hd
      subst hd
      exact .ping (h.ready r hr ▸ hcapability) hframe hpong
  | transmit d =>
      simp only [Messaging.step] at hs
      split at hs <;> cases hs
      rename_i f rest hqueue
      refine { h with frames := fun g hg => h.frames g ?_ }
      change g ∈ Function.update s.outbound d rest c ∨
        g ∈ Function.update s.sent d (s.sent d ++ [f]) c at hg
      by_cases hd : c = d
      · subst hd
        rw [Function.update_self, Function.update_self, List.mem_append, List.mem_singleton] at hg
        rw [hqueue, List.mem_cons]
        tauto
      · rwa [Function.update_of_ne hd, Function.update_of_ne hd] at hg
  | dropOutbound d =>
      cases hs
      refine { h with frames := fun g hg => h.frames g ?_ }
      change g ∈ Function.update s.outbound d [] c ∨ g ∈ s.sent c at hg
      by_cases hd : c = d
      · subst hd
        rw [Function.update_self] at hg
        exact .inr (hg.resolve_left List.not_mem_nil)
      · rwa [Function.update_of_ne hd] at hg
  | startCall args =>
      cases hs
      have hcall : KeepsTo cfg ok c a (s.setCall s.nextCall
          { args, message := args.message cfg.peerId (cfg.messageId s.nextCall),
            pc := s.checkArgs args.kind, connection := none, session := none,
            frameQueued := false, acked := false }) :=
        h.setCall ⟨hl, fun _ _ hc => by cases hc⟩
      exact { hcall with }
  | connected k d =>
      obtain ⟨call, hk, hs⟩ := bind_call hs
      split at hs <;> cases hs
      exact h.connected hinv hk hl
  | queueFrame k =>
      obtain ⟨call, hk, hs⟩ := bind_call hs
      split at hs <;> cases hs
      rename_i frame d hpc hconnection
      refine (h.pushOutbound fun hd => ?_).setCall
        (keeps_of_message (h.calls k call hk).message (by simp))
      exact (h.calls k call hk).frame frame hpc (hd ▸ hconnection)
  | frameWritten k =>
      obtain ⟨call, hk, hs⟩ := bind_call hs
      split at hs
      · split at hs <;> cases hs
        unfold Node.frameWritten
        split
        · exact h.setCall (keeps_of_message (h.calls k call hk).message (by simp))
        · exact h.afterAck (h.calls k call hk).message
      · cases hs
  | resumeAck k =>
      obtain ⟨call, hk, hs⟩ := bind_call hs
      split at hs <;> cases hs
      · exact h.afterAck (h.calls k call hk).message
      · exact h.endCall _ (h.calls k call hk).message (by simp)
  | resumeReply k =>
      obtain ⟨call, hk, hs⟩ := bind_call hs
      split at hs <;> cases hs
      · exact h.endCall _ (h.calls k call hk).message (by simp)
      · exact h.endCall _ (h.calls k call hk).message (by simp)
  | cancelFuture k =>
      obtain ⟨call, hk, hs⟩ := bind_call hs
      split at hs <;> cases hs
      · exact { h with }
      · exact { h with }
  | interrupt k e =>
      obtain ⟨call, hk, hs⟩ := bind_call hs
      split at hs <;> cases hs
      exact h.endCall _ (h.calls k call hk).message (by simp)

end KeepsTo

end Messaging
end Core
end Paqto
