/-
# The inbound queue, its readers and its dispatch workers

`_read_connection`, `_enqueue_dispatch`, `_dispatch_worker`,
`_dispatch_message`, `_handler_finished` and `_start_dispatch_worker` of
`core/node.py` and `dispatch` of `core/router.py`, from the end of
`_start_locked` to the beginning of `_stop_locked`: `_running` is true, the
generation does not change and the tasks of the readers are not cancelled.

The labels take what is not the node's choice: the frames, the writes and the
connections that fail, what the handlers do, and which of the tasks that wait on
the queue the event loop resumes.
-/

import Paqto.Core.Message
import Paqto.Core.OutboundChannel

namespace Paqto
namespace Core

open Transition Python

/-- `HandlerErrorPolicy` of `core/config.py`. -/
inductive HandlerErrorPolicy
  | continue
  | closeConnection
  deriving DecidableEq, Repr

namespace InboundDispatch

/-- What the dispatch is configured with. -/
structure Config (P : Type) where
  /-- `self.peer.id` -/
  peerId : Str
  serializer : Serializer P
  maxInboundQueue : ℕ
  inboundBackpressure : BackpressurePolicy
  handlerErrorPolicy : HandlerErrorPolicy
  handlerConcurrency : ℕ

/-- `_InboundDispatch`, and the number of the message among those accepted. -/
structure Item (P : Type) where
  receipt : ℕ
  message : Message P
  connection : ℕ
  peerId : Str

/-- The message is a reply. -/
def Item.isReply {P : Type} (item : Item P) : Bool := item.message.replyTo ≠ .none

/-- Why a reader ended with a message in hand. -/
inductive Drop
  /-- `_send_acknowledgement` raised. -/
  | unacknowledged
  /-- The queue was full under `REJECT`. -/
  | rejected
  deriving DecidableEq, Repr

/-- Where a reader stands. -/
inductive ReaderPc (P : Type)
  /-- In `receive_frame`. -/
  | receiving
  /-- In `_send_heartbeat_response`. -/
  | ponging
  /-- In `_send_acknowledgement`. -/
  | acknowledging (item : Item P)
  /-- In `queue.put`. -/
  | putting (item : Item P)
  | ended

/-- `_read_connection` of one connection.  `received`, `accepted` and `dropped`
keep the frames it received, the ordinary messages among them that passed its
checks, and the one it ended with. -/
structure Reader (F P : Type) where
  session : ProtocolSession F
  pc : ReaderPc P
  received : List Bytes
  accepted : List (Item P)
  dropped : Option (Drop × Item P)

/-- Where a worker stands. -/
inductive WorkerPc (P : Type)
  | absent
  /-- In `queue.get`. -/
  | waiting
  /-- In the handler at the head of those left for the message. -/
  | handling (item : Item P) (handlers : List ℕ)
  /-- In `item.connection.close()`. -/
  | closing (item : Item P)
  /-- The task is done, its callback has not run. -/
  | finished

/-- A handler that was called with a message. -/
structure Invocation (P : Type) where
  worker : ℕ
  handler : ℕ
  item : Item P

/-- The readers, the queue and the workers. -/
structure Node (F P : Type) where
  readers : ℕ → Option (Reader F P)
  isClosed : ℕ → Bool
  nextReceipt : ℕ
  /-- `_inbound_queue` -/
  queue : List (Item P)
  workers : ℕ → WorkerPc P
  nextWorker : ℕ
  /-- `_handlers` of the router. -/
  handlers : Attr → List ℕ
  /-- The items that workers took, in order, each with its worker. -/
  taken : List (ℕ × Item P)
  /-- The calls of handlers, in order. -/
  invoked : List (Invocation P)

/-- The node as `_start_locked` leaves it. -/
def started {F P : Type} (cfg : Config P) (handlers : Attr → List ℕ) : Node F P where
  readers := fun _ => none
  isClosed := fun _ => false
  nextReceipt := 0
  queue := []
  workers := fun w => if w < cfg.handlerConcurrency then .waiting else .absent
  nextWorker := cfg.handlerConcurrency
  handlers := handlers
  taken := []
  invoked := []

/-- The moves of the readers and of the workers. -/
inductive Label (F : Type)
  /-- A READY session gets its reader. -/
  | startReader (c : ℕ) (session : ProtocolSession F)
  | receive (c : ℕ) (frame : Bytes)
  | pongWritten (c : ℕ)
  | ackWritten (c : ℕ)
  | ackFailed (c : ℕ)
  /-- `queue.put` of a waiting reader. -/
  | put (c : ℕ)
  /-- What the reader awaits, other than an ACK or the queue, raises. -/
  | readerFailed (c : ℕ)
  | close (c : ℕ)
  /-- A worker takes the next item. -/
  | take (w : ℕ)
  | handlerReturned (w : ℕ)
  /-- A handler raises an `Exception`. -/
  | handlerFailed (w : ℕ)
  | connectionClosed (w : ℕ)
  /-- A cancellation, or what `_dispatch_worker` does not catch, ends it. -/
  | workerEnded (w : ℕ)
  /-- `_handler_finished` -/
  | handlerFinished (w : ℕ)
  /-- `add_handler` -/
  | addHandler (type : Attr) (handler : ℕ)

/-- What the checks of a reader on application data raise. -/
inductive ReadError
  | serialization
  | envelope (e : EnvelopeError)
  | identityMismatch
  | recipient
  deriving DecidableEq, Repr

variable {F P : Type} [PyFloat F]

/-- The checks of `_read_connection` on application data. -/
def checkApplication (cfg : Config P) (session : ProtocolSession F) (data : Bytes) :
    Except ReadError (Message P) :=
  match cfg.serializer.deserialize data with
  | none => .error .serialization
  | some message =>
      match validateIncomingMessage message with
      | .error e => .error (.envelope e)
      | .ok () =>
          if message.sender ≠ .str session.peerId then .error .identityMismatch
          else if message.recipient ≠ .none ∧ message.recipient ≠ .str cfg.peerId then
            .error .recipient
          else .ok message

namespace Node

/-- A reader moves. -/
def setReader (s : Node F P) (c : ℕ) (r : Reader F P) : Node F P :=
  { s with readers := Function.update s.readers c (some r) }

/-- A worker moves. -/
def setWorker (s : Node F P) (w : ℕ) (pc : WorkerPc P) : Node F P :=
  { s with workers := Function.update s.workers w pc }

/-- The head of the loop of `_read_connection`. -/
def continueReading (s : Node F P) (c : ℕ) (r : Reader F P) : Node F P :=
  s.setReader c { r with pc := if s.isClosed c then .ended else .receiving }

/-- An exception ends the reader. -/
def endReader (s : Node F P) (c : ℕ) (r : Reader F P) : Node F P :=
  s.setReader c { r with pc := .ended }

/-- An exception ends the reader while it delivers a message. -/
def dropMessage (s : Node F P) (c : ℕ) (r : Reader F P) (why : Drop) (item : Item P) :
    Node F P :=
  s.setReader c
    { r with pc := .ended, dropped := if item.isReply then r.dropped else some (why, item) }

/-- `queue.full()` -/
def isFull (cfg : Config P) (s : Node F P) : Bool :=
  0 < cfg.maxInboundQueue && cfg.maxInboundQueue ≤ s.queue.length

/-- `queue.put_nowait(item)`, and on to the next frame. -/
def putItem (s : Node F P) (c : ℕ) (r : Reader F P) (item : Item P) : Node F P :=
  { s with queue := s.queue ++ [item] }.continueReading c r

/-- `_enqueue_dispatch` -/
def enqueueDispatch (cfg : Config P) (s : Node F P) (c : ℕ) (r : Reader F P) (item : Item P) :
    Node F P :=
  if s.isFull cfg then
    match cfg.inboundBackpressure with
    | .wait => s.setReader c { r with pc := .putting item }
    | .reject => s.dropMessage c r .rejected item
  else s.putItem c r item

/-- The reader goes on after the ACK.  `_resolve_reply` leaves the queue and
the workers alone. -/
def deliver (cfg : Config P) (s : Node F P) (c : ℕ) (r : Reader F P) (item : Item P) :
    Node F P :=
  if item.isReply then s.continueReading c r else s.enqueueDispatch cfg c r item

/-- A message has passed the checks of the reader. -/
def accept (cfg : Config P) (s : Node F P) (c : ℕ) (r : Reader F P) (message : Message P) :
    Node F P :=
  let item : Item P :=
    { receipt := s.nextReceipt, message, connection := c, peerId := r.session.peerId }
  let s := { s with nextReceipt := s.nextReceipt + 1 }
  let r := { r with accepted := if item.isReply then r.accepted else r.accepted ++ [item] }
  if technicalAckCapability ∈ r.session.capabilities then
    match message.id.identifier.map (encodeAcknowledgementFrame (F := F)) with
    | some (.ok _) => s.setReader c { r with pc := .acknowledging item }
    | _ => s.dropMessage c r .unacknowledged item
  else s.deliver cfg c r item

/-- A frame arrives in `_read_connection`. -/
def receive (cfg : Config P) (s : Node F P) (c : ℕ) (r : Reader F P) (frame : Bytes) :
    Node F P :=
  let r := { r with received := r.received ++ [frame] }
  match decodeSessionFrame (F := F) frame r.session.maxMessageSize with
  | .error _ => s.endReader c r
  | .ok (.acknowledgement _) =>
      if technicalAckCapability ∈ r.session.capabilities then s.continueReading c r
      else s.endReader c r
  | .ok (.ping id) =>
      if heartbeatCapability ∈ r.session.capabilities then
        match encodePongFrame (F := F) id with
        | .ok _ => s.setReader c { r with pc := .ponging }
        | .error _ => s.endReader c r
      else s.endReader c r
  | .ok (.pong _) =>
      if heartbeatCapability ∈ r.session.capabilities then s.continueReading c r
      else s.endReader c r
  | .ok (.application data) =>
      match checkApplication cfg r.session data with
      | .error _ => s.endReader c r
      | .ok message => s.accept cfg c r message

/-- The handlers `dispatch` of the router runs for a message. -/
def matching (s : Node F P) (message : Message P) : List ℕ :=
  s.handlers message.type ++ s.handlers .none

/-- The loop of `dispatch` of the router. -/
def runHandlers (s : Node F P) (w : ℕ) (item : Item P) : List ℕ → Node F P
  | [] => s.setWorker w .waiting
  | handler :: handlers =>
      { s with invoked := s.invoked ++ [Invocation.mk w handler item] }.setWorker w
        (.handling item (handler :: handlers))

/-- `queue.get()` returns, and `_dispatch_message` begins. -/
def take (s : Node F P) (w : ℕ) (item : Item P) (rest : List (Item P)) : Node F P :=
  { s with queue := rest, taken := s.taken ++ [(w, item)] }.runHandlers w item
    (s.matching item.message)

/-- The handler of `MessageRoutingError` in `_dispatch_worker`. -/
def handlerFailed (cfg : Config P) (s : Node F P) (w : ℕ) (item : Item P) : Node F P :=
  match cfg.handlerErrorPolicy with
  | .continue => s.setWorker w .waiting
  | .closeConnection => s.setWorker w (.closing item)

/-- `_handler_finished` -/
def handlerFinished (s : Node F P) (w : ℕ) : Node F P :=
  { (s.setWorker w .absent).setWorker s.nextWorker .waiting with nextWorker := s.nextWorker + 1 }

end Node

/-- One step of the node. -/
def step (cfg : Config P) (s : Node F P) : Label F → Option (Node F P)
  | .startReader c session =>
      match s.readers c with
      | none =>
          some (s.continueReading c
            { session, pc := .receiving, received := [], accepted := [], dropped := none })
      | some _ => none
  | .receive c frame =>
      (s.readers c).bind fun r =>
        match r.pc with
        | .receiving => some (s.receive cfg c r frame)
        | _ => none
  | .pongWritten c =>
      (s.readers c).bind fun r =>
        match r.pc with
        | .ponging => some (s.continueReading c r)
        | _ => none
  | .ackWritten c =>
      (s.readers c).bind fun r =>
        match r.pc with
        | .acknowledging item => some (s.deliver cfg c r item)
        | _ => none
  | .ackFailed c =>
      (s.readers c).bind fun r =>
        match r.pc with
        | .acknowledging item => some (s.dropMessage c r .unacknowledged item)
        | _ => none
  | .put c =>
      (s.readers c).bind fun r =>
        match r.pc with
        | .putting item => if s.isFull cfg then none else some (s.putItem c r item)
        | _ => none
  | .readerFailed c =>
      (s.readers c).bind fun r =>
        match r.pc with
        | .receiving | .ponging => some (s.endReader c r)
        | _ => none
  | .close c => some { s with isClosed := Function.update s.isClosed c true }
  | .take w =>
      match s.workers w, s.queue with
      | .waiting, item :: rest => some (s.take w item rest)
      | _, _ => none
  | .handlerReturned w =>
      match s.workers w with
      | .handling item (_ :: handlers) => some (s.runHandlers w item handlers)
      | _ => none
  | .handlerFailed w =>
      match s.workers w with
      | .handling item _ => some (s.handlerFailed cfg w item)
      | _ => none
  | .connectionClosed w =>
      match s.workers w with
      | .closing item =>
          some ({ s with isClosed := Function.update s.isClosed item.connection true }.setWorker w
            .waiting)
      | _ => none
  | .workerEnded w =>
      match s.workers w with
      | .waiting | .handling _ _ | .closing _ => some (s.setWorker w .finished)
      | _ => none
  | .handlerFinished w =>
      match s.workers w with
      | .finished => some (s.handlerFinished w)
      | _ => none
  | .addHandler type handler =>
      some { s with handlers := Function.update s.handlers type (s.handlers type ++ [handler]) }

/-- The runs between a `start()` and the next `stop()`. -/
def system (cfg : Config P) : System (Node F P) (Label F) where
  init s := ∃ handlers, s = started cfg handlers
  step := step cfg

/-! ## What the reader owes the handlers -/

/-- The ordinary message a frame carries, when the reader accepts it. -/
def ordinaryMessage (cfg : Config P) (session : ProtocolSession F) (frame : Bytes) :
    Option (Message P) :=
  match decodeSessionFrame (F := F) frame session.maxMessageSize with
  | .ok (.application data) =>
      match checkApplication cfg session data with
      | .ok message => if message.replyTo = .none then some message else none
      | .error _ => none
  | _ => none

/-- Where an accepted message is. -/
inductive Place
  | taken (worker : ℕ)
  | queued
  /-- The reader is in `queue.put` with it. -/
  | blocked
  /-- The reader is writing its ACK. -/
  | acknowledging
  /-- The reader ended with it. -/
  | dropped (why : Drop)
  deriving DecidableEq, Repr

/-- The message of `item` is at a place. -/
def Node.At (s : Node F P) (item : Item P) : Place → Prop
  | .taken w => (w, item) ∈ s.taken
  | .queued => item ∈ s.queue
  | .blocked => ∃ r, s.readers item.connection = some r ∧ r.pc = .putting item
  | .acknowledging => ∃ r, s.readers item.connection = some r ∧ r.pc = .acknowledging item
  | .dropped why => ∃ r, s.readers item.connection = some r ∧ r.dropped = some (why, item)

/-- The items of a connection that workers took, in order. -/
def Node.takenFrom (s : Node F P) (c : ℕ) : List (Item P) :=
  (s.taken.map Prod.snd).filter (·.connection = c)

end InboundDispatch
end Core
end Paqto
