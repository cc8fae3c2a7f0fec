/-
# Messages, replies and acknowledgements of a running node

`send`, `request`, `reply`, `_send_message`, `_read_connection`,
`_resolve_reply`, `_resolve_acknowledgement`, `_fail_pending_for_connection`,
`_fail_all_pending`, `_enqueue_dispatch` and the dispatch worker of
`core/node.py`, over any number of connections and calls.

A step is what one task does between two suspensions.  The labels take the
choices that are not the node's: what the remote end sends, when a timer fires
or a caller is cancelled, which connection `connect()` comes back with, and when
a transport closes a connection.  A label may be taken whenever the source does
not exclude it, so a run of the node is a run of the model.

The queue of an outbound channel is a list that a frame enters at some point of
the `_queue_frame` call; `Core.OutboundChannel` models that queue itself.
-/

import Paqto.Core.Message
import Paqto.Core.OutboundChannel
import Paqto.Core.SessionTables
import Paqto.Correlation.Table

namespace Paqto
namespace Core

open Transition Python Correlation

namespace Messaging

/-- What the node is constructed with, and the connections of its runs:
`target c` is the peer for which `connect()` opened `c`, `none` for an accepted
connection. -/
structure Config (F P : Type) where
  /-- What `_negotiate` offers; its peer id is that of the node. -/
  offer : HandshakeOffer F
  requireAuthenticatedPeerIdMatch : Bool
  maxPendingRequests : ℕ
  maxPendingAcknowledgements : ℕ
  maxInboundQueue : ℕ
  inboundBackpressure : BackpressurePolicy
  serializer : Serializer P
  target : ℕ → Option Str
  securityInfo : ℕ → SecurityInfo
  /-- The `uuid4().hex` of the message of each call. -/
  messageId : ℕ → Identifier
  messageId_injective : Function.Injective messageId

/-- The id of the node. -/
def Config.peerId {F P : Type} (cfg : Config F P) : Str := cfg.offer.peerId

/-- What becomes of a received message. -/
inductive Outcome
  | undelivered
  /-- In the inbound queue, or taken from it by a dispatch worker. -/
  | dispatched
  /-- A reply, and the call it completed. -/
  | reply (call : Option ℕ)
  deriving DecidableEq, Repr

/-- A message that a reader accepted. -/
structure Receipt (F P : Type) where
  connection : ℕ
  session : ProtocolSession F
  data : Bytes
  message : Message P
  ackQueued : Bool
  outcome : Outcome

/-- The task of a connection: `_run_incoming_connection`, or the open attempt
and then `_read_connection`. -/
inductive TaskPc (F : Type)
  | absent
  | negotiating
  /-- The session is published, the reader not started. -/
  | ready (session : ProtocolSession F)
  /-- In `receive_frame`. -/
  | receiving (session : ProtocolSession F)
  /-- In `_send_heartbeat_response`, the frame not yet queued. -/
  | ponging (session : ProtocolSession F) (frame : Bytes)
  | pongQueued (session : ProtocolSession F)
  /-- In `_send_acknowledgement`, the frame not yet queued. -/
  | acknowledging (session : ProtocolSession F) (receipt : ℕ) (frame : Bytes)
  | ackQueued (session : ProtocolSession F) (receipt : ℕ)
  /-- In `queue.put` of `_enqueue_dispatch`. -/
  | enqueueing (session : ProtocolSession F) (receipt : ℕ)
  | ended

/-- The calls that send a message. -/
inductive CallKind (P : Type)
  | send (target : Str)
  | request (target : Str)
  | reply (original : Message P)

/-- The arguments of a call; `headers or {}` has been applied, and
`requireAck` is `none` when it is not a boolean. -/
structure CallArgs (P : Type) where
  kind : CallKind P
  payload : P
  type : Attr
  headers : Option (List (Attr × Attr))
  requireAck : Option Bool

/-- The envelope a call constructs. -/
def CallArgs.message {P : Type} (args : CallArgs P) (sender : Str) (id : Identifier) :
    Message P where
  payload := args.payload
  type := args.type
  sender := .str sender
  recipient :=
    match args.kind with
    | .send target | .request target => .str target
    | .reply original => original.sender
  headers := args.headers
  id := .str id
  replyTo :=
    match args.kind with
    | .send _ | .request _ => .none
    | .reply original => original.id

/-- What a call raises. -/
inductive CallError
  | notStarted
  | unanswerable
  | connectFailed
  | duplicateRequest
  | requestLimit
  | requireAckType
  | envelope (e : EnvelopeError)
  | notReady
  | acknowledgementUnavailable
  | serialization
  | frame (e : FrameError)
  | duplicateAcknowledgement
  | acknowledgementLimit
  | sendFailed
  | sendTimeout
  | acknowledgementLost
  | acknowledgementTimeout
  | replyLost
  | replyTimeout
  | cancelled
  deriving DecidableEq, Repr

/-- Where a call stands. -/
inductive CallPc
  /-- In `connect()`. -/
  | connecting
  /-- In `_send_message`, before its first suspension. -/
  | sending
  /-- In `_queue_frame`, the frame not yet queued. -/
  | queueing (frame : Bytes)
  | queued
  | awaitingAck
  | awaitingReply
  /-- The reply, for a request, named by its receipt. -/
  | returned (reply : Option ℕ)
  | raised (e : CallError)
  deriving DecidableEq, Repr

/-- The call is over. -/
def CallPc.isEnded : CallPc → Bool
  | returned _ | raised _ => true
  | _ => false

/-- A call with what it has so far. -/
structure Call (F P : Type) where
  args : CallArgs P
  message : Message P
  pc : CallPc
  /-- What `connect()` or `_connection_for_reply` came back with. -/
  connection : Option ℕ
  /-- The session that `_send_message` found. -/
  session : Option (ProtocolSession F)
  frameQueued : Bool
  /-- The wait for the ACK has ended normally. -/
  acked : Bool

/-- What a frame of the outbound queue is for. -/
inductive Origin
  | call (k : ℕ)
  | acknowledgement (receipt : ℕ)
  | heartbeat
  deriving DecidableEq, Repr

/-- A frame in an outbound queue, and the call that waits for it. -/
structure OutboundFrame where
  data : Bytes
  origin : Origin
  deriving DecidableEq, Repr

/-- The ACK frame that completed a call: where it was read. -/
structure Arrival (F : Type) where
  connection : ℕ
  session : ProtocolSession F

/-- The sessions, the tables of correlations, the queues and the calls. -/
structure Node (F P : Type) where
  running : Bool
  tables : SessionTables F
  isClosed : ℕ → Bool
  tasks : ℕ → TaskPc F
  receipts : ℕ → Option (Receipt F P)
  nextReceipt : ℕ
  /-- `_pending_requests` -/
  requests : Table Str ℕ ℕ Str ℕ
  /-- `_pending_acknowledgements` -/
  acknowledgements : Table Str ℕ ℕ Str (Arrival F)
  calls : ℕ → Option (Call F P)
  nextCall : ℕ
  outbound : ℕ → List OutboundFrame
  /-- The frames that the writer of a connection has sent. -/
  sent : ℕ → List OutboundFrame
  /-- `_inbound_queue`; an item is named by its receipt. -/
  inboundQueue : Option (List ℕ)
  /-- The receipts whose messages were passed to the router. -/
  handled : List ℕ

/-- `__init__` -/
def initial {F P : Type} : Node F P where
  running := false
  tables := .empty
  isClosed := fun _ => false
  tasks := fun _ => .absent
  receipts := fun _ => none
  nextReceipt := 0
  requests := .empty
  acknowledgements := .empty
  calls := fun _ => none
  nextCall := 0
  outbound := fun _ => []
  sent := fun _ => []
  inboundQueue := none
  handled := []

/-- The moves of the calls, of the readers and of the network. -/
inductive Label (P : Type)
  | start
  | stop
  /-- The end of `_stop_locked` drops the inbound queue. -/
  | discardQueue
  /-- A connection is accepted, or opened by the transport. -/
  | accepted (c : ℕ)
  | negotiated (c : ℕ) (exchange : Exchange)
  | startReader (c : ℕ)
  | receive (c : ℕ) (frame : Bytes)
  | queuePong (c : ℕ)
  | pongWritten (c : ℕ)
  | queueAck (c : ℕ)
  | ackWritten (c : ℕ)
  | enqueue (c : ℕ)
  /-- The task of a connection is cancelled, or what it awaits raises. -/
  | endTask (c : ℕ)
  /-- `disconnect()`, or `_retire_replaced_connection`. -/
  | retire (c : ℕ)
  | close (c : ℕ)
  /-- The heartbeat loop queues a ping. -/
  | ping (c : ℕ) (pingId : Identifier)
  /-- The writer sends its next frame. -/
  | transmit (c : ℕ)
  /-- The outbound channel is drained. -/
  | dropOutbound (c : ℕ)
  /-- A dispatch worker takes an item. -/
  | dispatch
  | startCall (args : CallArgs P)
  /-- `connect()` has returned `c`. -/
  | connected (k c : ℕ)
  | queueFrame (k : ℕ)
  | frameWritten (k : ℕ)
  | resumeAck (k : ℕ)
  | resumeReply (k : ℕ)
  /-- A timer or the caller cancels the future that a call awaits. -/
  | cancelFuture (k : ℕ)
  /-- What the call awaits raises `e`. -/
  | interrupt (k : ℕ) (e : CallError)

variable {F P : Type} [PyFloat F]

namespace Node

/-- A reader moves. -/
def setTask (s : Node F P) (c : ℕ) (pc : TaskPc F) : Node F P :=
  { s with tasks := Function.update s.tasks c pc }

/-- A call moves. -/
def setCall (s : Node F P) (k : ℕ) (call : Call F P) : Node F P :=
  { s with calls := Function.update s.calls k (some call) }

/-- A receipt is recorded. -/
def setReceipt (s : Node F P) (r : ℕ) (receipt : Receipt F P) : Node F P :=
  { s with receipts := Function.update s.receipts r (some receipt) }

/-- A frame is queued. -/
def pushOutbound (s : Node F P) (c : ℕ) (f : OutboundFrame) : Node F P :=
  { s with outbound := Function.update s.outbound c (s.outbound c ++ [f]) }

/-- `_fail_pending_for_connection` -/
def failPendingForConnection (s : Node F P) (c : ℕ) : Node F P :=
  { s with
    requests := s.requests.failChannel c
    acknowledgements := s.acknowledgements.failChannel c }

/-- `_fail_all_pending` -/
def failAllPending (s : Node F P) : Node F P :=
  { s with requests := s.requests.failAll, acknowledgements := s.acknowledgements.failAll }

/-- A session leaves the tables and the calls that wait on its connection
fail: `_connection_ended`, `_retire_replaced_connection`, `disconnect`. -/
def retire (s : Node F P) (c : ℕ) : Node F P :=
  { s with tables := s.tables.deactivateSession c }.failPendingForConnection c

/-- The `finally` of the task of a connection. -/
def endSession (s : Node F P) (c : ℕ) : Node F P := (s.retire c).setTask c .ended

/-- The head of the loop of `_read_connection`. -/
def continueReading (s : Node F P) (c : ℕ) (session : ProtocolSession F) : Node F P :=
  if s.running && !s.isClosed c then s.setTask c (.receiving session) else s.endSession c

/-! ## Sessions -/

/-- A negotiated session goes through `_select_ready_connection`. -/
def publish (cfg : Config F P) (s : Node F P) (c : ℕ) (session : ProtocolSession F) :
    Node F P :=
  match s.tables.selectReadyConnection cfg.peerId s.isClosed c session
    (if (cfg.target c).isSome then .outbound else .inbound) with
  | none => s.endSession c
  | some (tables, selection) =>
      if selection.selected = c then
        let t := { s with tables }.setTask c (.ready session)
        match selection.loser with
        | none => t
        | some loser => t.retire loser
      else { s with tables }.endSession c

/-- The end of `_negotiate`. -/
def negotiated (cfg : Config F P) (s : Node F P) (c : ℕ) (exchange : Exchange) : Node F P :=
  let n := negotiateProtocol cfg.offer (cfg.target c) (cfg.securityInfo c)
    cfg.requireAuthenticatedPeerIdMatch exchange
  match n.result with
  | .error _ => { s with isClosed := Function.update s.isClosed c n.isClosed }.endSession c
  | .ok session => s.publish cfg c session

/-- `_ensure_reader` after an open attempt; the rest of
`_run_incoming_connection` up to `_read_connection`. -/
def startReader (cfg : Config F P) (s : Node F P) (c : ℕ) (session : ProtocolSession F) :
    Option (Node F P) :=
  match cfg.target c with
  | some _ => (s.tables.sessionFor c).map (s.continueReading c)
  | none =>
      if s.tables.peerConnections session.peerId = some c then
        some (s.continueReading c session)
      else some (s.endSession c)

/-! ## The reader -/

/-- `_resolve_reply` -/
def resolveReply (s : Node F P) (r : ℕ) (receipt : Receipt F P) (id : Identifier) : Node F P :=
  { s with
    requests := s.requests.resolve id receipt.connection receipt.session.peerId r }.setReceipt r
      { receipt with
        outcome := .reply (s.requests.target id receipt.connection receipt.session.peerId) }

/-- `queue.put_nowait` -/
def putInbound (s : Node F P) (queue : List ℕ) (r : ℕ) (receipt : Receipt F P) : Node F P :=
  { s with inboundQueue := some (queue ++ [r]) }.setReceipt r
    { receipt with outcome := .dispatched }

/-- `_enqueue_dispatch` -/
def enqueueDispatch (cfg : Config F P) (s : Node F P) (c : ℕ) (session : ProtocolSession F)
    (r : ℕ) (receipt : Receipt F P) : Node F P :=
  match s.inboundQueue with
  | none => s.endSession c
  | some queue =>
      if queue.length < cfg.maxInboundQueue then
        (s.putInbound queue r receipt).continueReading c session
      else
        match cfg.inboundBackpressure with
        | .wait => s.setTask c (.enqueueing session r)
        | .reject => s.endSession c

/-- What the reader does with an accepted message after the ACK. -/
def deliver (cfg : Config F P) (s : Node F P) (c : ℕ) (session : ProtocolSession F) (r : ℕ)
    (receipt : Receipt F P) : Node F P :=
  match receipt.message.replyTo.identifier with
  | some id => (s.resolveReply r receipt id).continueReading c session
  | none => s.enqueueDispatch cfg c session r receipt

/-- A message has passed every check of the reader. -/
def accept (cfg : Config F P) (s : Node F P) (c : ℕ) (session : ProtocolSession F)
    (data : Bytes) (message : Message P) (id : Identifier) : Node F P :=
  let receipt : Receipt F P :=
    { connection := c, session, data, message, ackQueued := false, outcome := .undelivered }
  let r := s.nextReceipt
  let s := { s with nextReceipt := r + 1 }.setReceipt r receipt
  if technicalAckCapability ∈ session.capabilities then
    match encodeAcknowledgementFrame (F := F) id with
    | .ok frame => s.setTask c (.acknowledging session r frame)
    | .error _ => s.endSession c
  else s.deliver cfg c session r receipt

/-- Application data in `_read_connection`. -/
def receiveApplication (cfg : Config F P) (s : Node F P) (c : ℕ) (session : ProtocolSession F)
    (data : Bytes) : Node F P :=
  match cfg.serializer.deserialize data with
  | none => s.endSession c
  | some message =>
      match validateIncomingMessage message, message.id.identifier with
      | .ok (), some id =>
          if message.sender ≠ .str session.peerId then s.endSession c
          else if message.recipient ≠ .none ∧ message.recipient ≠ .str cfg.peerId then
            s.endSession c
          else s.accept cfg c session data message id
      | _, _ => s.endSession c

/-- `_resolve_acknowledgement` -/
def resolveAcknowledgement (s : Node F P) (c : ℕ) (session : ProtocolSession F)
    (id : Identifier) : Node F P :=
  { s with
    acknowledgements := s.acknowledgements.resolve id c session.peerId ⟨c, session⟩ }

/-- A frame arrives in `_read_connection`. -/
def receive (cfg : Config F P) (s : Node F P) (c : ℕ) (session : ProtocolSession F)
    (frame : Bytes) : Node F P :=
  match decodeSessionFrame (F := F) frame session.maxMessageSize with
  | .error _ => s.endSession c
  | .ok (.acknowledgement id) =>
      if technicalAckCapability ∈ session.capabilities then
        (s.resolveAcknowledgement c session id).continueReading c session
      else s.endSession c
  | .ok (.ping id) =>
      if heartbeatCapability ∈ session.capabilities then
        match encodePongFrame (F := F) id with
        | .ok frame => s.setTask c (.ponging session frame)
        | .error _ => s.endSession c
      else s.endSession c
  | .ok (.pong _) =>
      if heartbeatCapability ∈ session.capabilities then s.continueReading c session
      else s.endSession c
  | .ok (.application data) => s.receiveApplication cfg c session data

/-- The ACK frame of a receipt enters the outbound queue. -/
def queueAck (s : Node F P) (c : ℕ) (session : ProtocolSession F) (r : ℕ) (frame : Bytes)
    (receipt : Receipt F P) : Node F P :=
  ((s.pushOutbound c ⟨frame, .acknowledgement r⟩).setReceipt r
    { receipt with ackQueued := true }).setTask c (.ackQueued session r)

/-! ## Calls -/

/-- A call is over: the `finally` of `_send_message` and of `request`. -/
def endCall (s : Node F P) (k : ℕ) (id : Identifier) (call : Call F P) (pc : CallPc) :
    Node F P :=
  { s with
    requests := s.requests.release id k
    acknowledgements := s.acknowledgements.release id k }.setCall k { call with pc }

/-- The rest of `_send_message` up to its first suspension, once the session is
known. -/
def sendFrame (cfg : Config F P) (s : Node F P) (k : ℕ) (call : Call F P) (c : ℕ)
    (requireAck : Bool) (session : ProtocolSession F) : Node F P :=
  let id := cfg.messageId k
  let call := { call with session := some session }
  let s := s.setCall k call
  if requireAck ∧ technicalAckCapability ∉ session.capabilities then
    s.endCall k id call (.raised .acknowledgementUnavailable)
  else
    match cfg.serializer.serialize call.message with
    | none => s.endCall k id call (.raised .serialization)
    | some data =>
    match encodeApplicationFrame data session.maxMessageSize with
    | .error e => s.endCall k id call (.raised (.frame e))
    | .ok frame =>
    if requireAck then
      if (s.acknowledgements.lookup id).isSome then
        s.endCall k id call (.raised .duplicateAcknowledgement)
      else if s.acknowledgements.entries.length ≥ cfg.maxPendingAcknowledgements then
        s.endCall k id call (.raised .acknowledgementLimit)
      else
        { s with
          acknowledgements := s.acknowledgements.register ⟨id, k, c, session.peerId⟩ }.setCall k
            { call with pc := .queueing frame }
    else s.setCall k { call with pc := .queueing frame }

/-- `_send_message` up to its first suspension. -/
def sendMessage (cfg : Config F P) (s : Node F P) (k : ℕ) (call : Call F P) (c : ℕ) : Node F P :=
  let id := cfg.messageId k
  match call.args.requireAck with
  | none => s.endCall k id call (.raised .requireAckType)
  | some requireAck =>
  match validateOutgoingMessage call.message with
  | .error e => s.endCall k id call (.raised (.envelope e))
  | .ok () =>
  match s.tables.sessionFor c with
  | none => s.endCall k id call (.raised .notReady)
  | some session => s.sendFrame cfg k call c requireAck session

/-- A call goes on with its connection. -/
def connected (cfg : Config F P) (s : Node F P) (k : ℕ) (call : Call F P) (c : ℕ) : Node F P :=
  let id := cfg.messageId k
  let call := { call with connection := some c, pc := .sending }
  let s := s.setCall k call
  match call.args.kind with
  | .request target =>
      if (s.requests.lookup id).isSome then
        s.endCall k id call (.raised .duplicateRequest)
      else if s.requests.entries.length ≥ cfg.maxPendingRequests then
        s.endCall k id call (.raised .requestLimit)
      else if s.running then
        { s with requests := s.requests.register ⟨id, k, c, target⟩ }.sendMessage cfg k call c
      else s.endCall k id call (.raised .notStarted)
  | _ => s.sendMessage cfg k call c

/-- The checks of `send`, `request` and `reply` before they need a
connection. -/
def checkArgs (s : Node F P) (kind : CallKind P) : CallPc :=
  if s.running then
    match kind with
    | .reply original =>
        if original.id.identifier.isSome && original.sender.identifier.isSome then .connecting
        else .raised .unanswerable
    | _ => .connecting
  else .raised .notStarted

/-- A call begins. -/
def startCall (cfg : Config F P) (s : Node F P) (args : CallArgs P) : Node F P :=
  { s.setCall s.nextCall
    { args, message := args.message cfg.peerId (cfg.messageId s.nextCall),
      pc := s.checkArgs args.kind, connection := none, session := none,
      frameQueued := false, acked := false } with nextCall := s.nextCall + 1 }

/-- The wait for the ACK is over, or there was none: `send` and `reply` return,
`request` waits for its reply. -/
def afterAck (cfg : Config F P) (s : Node F P) (k : ℕ) (call : Call F P) : Node F P :=
  match call.args.kind with
  | .request _ =>
      { s with acknowledgements := s.acknowledgements.release (cfg.messageId k) k }.setCall k
        { call with pc := .awaitingReply }
  | _ => s.endCall k (cfg.messageId k) call (.returned none)

/-- `_queue_frame` has returned. -/
def frameWritten (cfg : Config F P) (s : Node F P) (k : ℕ) (call : Call F P) : Node F P :=
  if call.args.requireAck = some true then s.setCall k { call with pc := .awaitingAck }
  else s.afterAck cfg k call

end Node

/-- What a suspended call may be interrupted with. -/
def CallPc.interruptedBy : CallPc → CallError → Bool
  | connecting, e => e = .cancelled || e = .connectFailed || e = .unanswerable
  | queueing _, e | queued, e => e = .cancelled || e = .sendFailed || e = .sendTimeout
  | awaitingAck, e => e = .cancelled || e = .acknowledgementTimeout
  | awaitingReply, e => e = .cancelled || e = .replyTimeout
  | _, _ => false

/-- One step of the node. -/
def step (cfg : Config F P) (s : Node F P) : Label P → Option (Node F P)
  | .start =>
      if !s.running && s.inboundQueue.isNone then
        some { s with running := true, inboundQueue := some [] }
      else none
  | .stop =>
      if s.running then some { s.failAllPending with running := false, tables := .empty }
      else none
  | .discardQueue => if s.running then none else some { s with inboundQueue := none }
  | .accepted c =>
      match s.tasks c with
      | .absent => if s.running then some (s.setTask c .negotiating) else none
      | _ => none
  | .negotiated c exchange =>
      match s.tasks c with
      | .negotiating => some (s.negotiated cfg c exchange)
      | _ => none
  | .startReader c =>
      match s.tasks c with
      | .ready session => s.startReader cfg c session
      | _ => none
  | .receive c frame =>
      match s.tasks c with
      | .receiving session => some (s.receive cfg c session frame)
      | _ => none
  | .queuePong c =>
      match s.tasks c with
      | .ponging session frame =>
          some ((s.pushOutbound c ⟨frame, .heartbeat⟩).setTask c (.pongQueued session))
      | _ => none
  | .pongWritten c =>
      match s.tasks c with
      | .pongQueued session => some (s.continueReading c session)
      | _ => none
  | .queueAck c =>
      match s.tasks c with
      | .acknowledging session r frame => (s.receipts r).map (s.queueAck c session r frame)
      | _ => none
  | .ackWritten c =>
      match s.tasks c with
      | .ackQueued session r =>
          if (s.sent c).any (·.origin = .acknowledgement r) then
            (s.receipts r).map (s.deliver cfg c session r)
          else none
      | _ => none
  | .enqueue c =>
      match s.tasks c, s.inboundQueue with
      | .enqueueing session r, some queue =>
          if queue.length < cfg.maxInboundQueue then
            (s.receipts r).map fun receipt =>
              (s.putInbound queue r receipt).continueReading c session
          else none
      | _, _ => none
  | .endTask c =>
      match s.tasks c with
      | .absent | .ended => none
      | _ => some (s.endSession c)
  | .retire c => some (s.retire c)
  | .close c => some { s with isClosed := Function.update s.isClosed c true }
  | .ping c pingId =>
      match encodePingFrame (F := F) pingId with
      | .ok frame => some (s.pushOutbound c ⟨frame, .heartbeat⟩)
      | .error _ => none
  | .transmit c =>
      match s.outbound c with
      | [] => none
      | f :: frames =>
          some { s with
            outbound := Function.update s.outbound c frames
            sent := Function.update s.sent c (s.sent c ++ [f]) }
  | .dropOutbound c => some { s with outbound := Function.update s.outbound c [] }
  | .dispatch =>
      match s.inboundQueue with
      | some (r :: queue) =>
          some { s with inboundQueue := some queue, handled := s.handled ++ [r] }
      | _ => none
  | .startCall args => some (s.startCall cfg args)
  | .connected k c =>
      (s.calls k).bind fun call =>
        if call.pc = .connecting then some (s.connected cfg k call c) else none
  | .queueFrame k =>
      (s.calls k).bind fun call =>
        match call.pc, call.connection with
        | .queueing frame, some c =>
            some ((s.pushOutbound c ⟨frame, .call k⟩).setCall k
              { call with pc := .queued, frameQueued := true })
        | _, _ => none
  | .frameWritten k =>
      (s.calls k).bind fun call =>
        match call.pc, call.connection with
        | .queued, some c =>
            if (s.sent c).any (·.origin = .call k) then some (s.frameWritten cfg k call)
            else none
        | _, _ => none
  | .resumeAck k =>
      (s.calls k).bind fun call =>
        match call.pc, s.acknowledgements.futures k with
        | .awaitingAck, .result _ => some (s.afterAck cfg k { call with acked := true })
        | .awaitingAck, .error =>
            some (s.endCall k (cfg.messageId k) call (.raised .acknowledgementLost))
        | _, _ => none
  | .resumeReply k =>
      (s.calls k).bind fun call =>
        match call.pc, s.requests.futures k with
        | .awaitingReply, .result r =>
            some (s.endCall k (cfg.messageId k) call (.returned (some r)))
        | .awaitingReply, .error =>
            some (s.endCall k (cfg.messageId k) call (.raised .replyLost))
        | _, _ => none
  | .cancelFuture k =>
      (s.calls k).bind fun call =>
        match call.pc with
        | .awaitingAck =>
            some { s with acknowledgements := s.acknowledgements.settle k .cancelled }
        | .awaitingReply => some { s with requests := s.requests.settle k .cancelled }
        | _ => none
  | .interrupt k e =>
      (s.calls k).bind fun call =>
        if call.pc.interruptedBy e then some (s.endCall k (cfg.messageId k) call (.raised e))
        else none

/-- The runs of a node. -/
def system (cfg : Config F P) : System (Node F P) (Label P) where
  init s := s = initial
  step := step cfg

end Messaging
end Core
end Paqto
