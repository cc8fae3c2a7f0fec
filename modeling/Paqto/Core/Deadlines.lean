/-
# Deadlines and except chains

Every wait with a deadline, with the `except` chains around it and around its callers:
`receive_frame`, `send_frame` and `close` of `TcpConnection` (`lan/connection.py`),
`connect` of `LanTransport` (`lan/transport.py`), `negotiate_protocol`
(`core/protocol.py`), `_open_connection` (`core/manager.py`), and `discover`, `connect`,
`send`, `request`, `_send_message`, `_read_connection`, `_run_incoming_connection` and
`_heartbeat_loop` of `PaqtoNode` (`core/node.py`).

A call is a computation over one connection.  What each of its waits ends with, and what
other tasks do meanwhile, is an input; frames are only long or not.  A deadline that expires
cancels what it bounds; `asyncio.wait_for` turns that into `asyncio.TimeoutError`, which is
the built-in `TimeoutError` from Python 3.11 on, and a class of its own before.

`expired` and `handled` record which deadlines expired and whose `except TimeoutError`
branch was entered.
-/

import Paqto.Python.Exceptions
import Mathlib.Data.List.Basic

namespace Paqto
namespace Core
namespace Deadlines

open Python Python.Computation

/-! ## Exceptions -/

/-- The classes of exceptions, of Python and of `core/errors.py`. -/
inductive ErrorClass
  | baseException
  | exception
  | cancelledError
  | osError
  /-- The built-in `TimeoutError`. -/
  | timeoutError
  | connectionError
  | sslError
  | eofError
  | incompleteReadError
  | runtimeError
  | valueError
  | typeError
  /-- `asyncio.TimeoutError` where it is a class of its own. -/
  | asyncioTimeoutError
  | paqtoError
  | notStartedError
  | transportError
  | connectionClosedError
  | discoveryError
  | serializationError
  | messageRoutingError
  | paqtoTimeoutError
  | connectionIdleTimeoutError
  | resourceLimitError
  | peerNotFoundError
  | peerExpiredError
  | peerAuthenticationError
  | peerIdentityMismatchError
  | protocolError
  | protocolHandshakeError
  | protocolVersionError
  | protocolFrameError
  | protocolHandshakeTimeoutError
  | requestError
  | requestTimeoutError
  | acknowledgementError
  | acknowledgementTimeoutError
  | acknowledgementUnavailableError
  | noEndpointError
  deriving DecidableEq, Repr

namespace ErrorClass

/-- The bases of a class. -/
def bases : ErrorClass → List ErrorClass
  | baseException => []
  | exception | cancelledError => [baseException]
  | osError | eofError | runtimeError | valueError | typeError | asyncioTimeoutError | paqtoError =>
      [exception]
  | timeoutError | connectionError | sslError => [osError]
  | incompleteReadError => [eofError]
  | notStartedError | transportError | discoveryError | serializationError | messageRoutingError
  | paqtoTimeoutError | resourceLimitError | peerNotFoundError | peerAuthenticationError
  | protocolError | requestError | noEndpointError => [paqtoError]
  | connectionClosedError => [transportError]
  | connectionIdleTimeoutError => [paqtoTimeoutError]
  | peerExpiredError => [peerNotFoundError]
  | peerIdentityMismatchError => [peerAuthenticationError]
  | protocolHandshakeError | protocolFrameError | acknowledgementError => [protocolError]
  | protocolVersionError => [protocolHandshakeError]
  | protocolHandshakeTimeoutError => [protocolHandshakeError, paqtoTimeoutError]
  | requestTimeoutError => [requestError, paqtoTimeoutError]
  | acknowledgementTimeoutError => [acknowledgementError, paqtoTimeoutError]
  | acknowledgementUnavailableError => [acknowledgementError]

/-- A class and the classes above it, up to a height. -/
def ancestors : ℕ → ErrorClass → List ErrorClass
  | 0, c => [c]
  | n + 1, c => c :: c.bases.flatMap (ancestors n)

/-- `issubclass`; no class is more than six below `BaseException`. -/
def isSubclass (c d : ErrorClass) : Bool := d ∈ ancestors 6 c

end ErrorClass

/-- The waits with a deadline. -/
inductive Deadline
  | discover
  | reply
  | send
  | acknowledgement
  | idle
  | pong
  | handshake
  | opening
  /-- The deadline of `LanTransport.connect`, inside that of `_open_connection`. -/
  | transport
  | payload
  deriving DecidableEq, Repr

/-- The expiry branch closes the connection, or a caller's does. -/
def Deadline.closes : Deadline → Bool
  | .idle | .pong | .handshake | .payload => true
  | _ => false

/-- What callers see of an expired deadline.  The payload of a hello that does not come is
reported by `negotiate_protocol`, and of a PONG nothing is raised. -/
def Deadline.documented : Deadline → List ErrorClass
  | .discover | .send | .opening | .transport => [.paqtoTimeoutError]
  | .reply => [.requestTimeoutError]
  | .acknowledgement => [.acknowledgementTimeoutError]
  | .idle => [.connectionIdleTimeoutError]
  | .pong => []
  | .handshake => [.protocolHandshakeTimeoutError]
  | .payload => [.transportError, .protocolHandshakeError]

/-- A call in which the deadline expires raises.  The others may expire in a task of the node,
which ends then without an exception. -/
def Deadline.raises : Deadline → Bool
  | .idle | .pong | .payload => false
  | _ => true

/-- An exception: a cancellation, by a deadline or by another task, or an error with the
deadline that its chain of causes goes back to. -/
inductive Exc
  | error (cls : ErrorClass) (cause : Option Deadline)
  | cancelled (deadline : Option Deadline)
  deriving DecidableEq, Repr

namespace Exc

/-- `type(e)` -/
def cls : Exc → ErrorClass
  | .error c _ => c
  | .cancelled _ => .cancelledError

/-- The deadline at the end of the chain of causes; a cancellation has none. -/
def cause : Exc → Option Deadline
  | .error _ w => w
  | .cancelled _ => none

/-- An `except` clause with these classes takes the exception. -/
def isA (e : Exc) (classes : List ErrorClass) : Bool := classes.any e.cls.isSubclass

end Exc

/-- Python 3.`minor`, of those that the package declares. -/
structure Runtime where
  minor : ℕ
  declared : 10 ≤ minor

/-- `asyncio.TimeoutError` -/
def Runtime.timeoutError (r : Runtime) : ErrorClass :=
  if r.minor < 11 then .asyncioTimeoutError else .timeoutError

/-! ## State -/

/-- What tasks share of a connection and its session. -/
structure Shared where
  /-- `_closed` -/
  closed : Bool
  /-- `_writer.is_closing()` -/
  writerClosing : Bool
  /-- The session is READY. -/
  session : Bool
  /-- A correlation of the call is in `_pending_requests`, in `_pending_acknowledgements` or in
  `_pending_heartbeats`. -/
  request : Bool
  acknowledgement : Bool
  ping : Bool
  /-- The classes of the errors that were reported. -/
  reports : List ErrorClass
  /-- The warnings of idle connections. -/
  idleWarnings : ℕ
  deriving DecidableEq, Repr

/-- The shared state, and what only the call sees. -/
structure World where
  shared : Shared
  /-- `opened is not None` and `succeeded` in `_open_connection`, `reading` in
  `_run_incoming_connection`. -/
  opened : Bool
  succeeded : Bool
  reading : Bool
  expired : List Deadline
  handled : List Deadline
  deriving DecidableEq, Repr

/-- The state at the beginning of a call. -/
def World.start (shared : Shared) : World := ⟨shared, false, false, false, [], []⟩

/-- A call of the node or of its adapters. -/
abbrev Call (α : Type) : Type := Computation World Exc α

/-- What other tasks do while a call waits: a closed connection stays closed. -/
structure Others where
  run : Shared → Shared
  closed : ∀ s, s.closed = true → (run s).closed = true

/-- What a wait ends with. -/
inductive Awaited
  | returns
  | raises (c : ErrorClass)
  | cancelled (deadline : Option Deadline)
  deriving DecidableEq, Repr

/-- One wait of a run. -/
structure Await where
  outcome : Awaited
  others : Others

/-- A wait that raises nothing but a cancellation: a lock, a queue, a `gather` that returns
exceptions. -/
def Pause : Type := { a : Await // ∀ c, a.outcome ≠ .raises c }

/-- A wait: other tasks run, and it ends as the run says. -/
def perform (a : Await) : Call Unit := do
  modify fun s => { s with shared := a.others.run s.shared }
  match a.outcome with
  | .returns => pure ()
  | .raises c => raise (.error c none)
  | .cancelled w => raise (.cancelled w)

/-- A wait that raises nothing but a cancellation. -/
def pause (p : Pause) : Call Unit := perform p.1

/-- `raise c(…)` -/
def fail {α : Type} (c : ErrorClass) : Call α := raise (.error c none)

/-- `raise c(…) from e` -/
def failFrom {α : Type} (c : ErrorClass) (e : Exc) : Call α := raise (.error c e.cause)

/-- A check that may raise. -/
def check : Option ErrorClass → Call Unit
  | none => pure ()
  | some c => fail c

/-- `if b: f` -/
def runIf (b : Bool) (f : Call Unit) : Call Unit := if b then f else pure ()

/-- A change of the shared state. -/
def update (f : Shared → Shared) : Call Unit := modify fun s => { s with shared := f s.shared }

/-- The error is reported. -/
def report (e : Exc) : Call Unit := update fun s => { s with reports := s.reports ++ [e.cls] }

/-! ## Deadlines -/

/-- The timeout of a wait. -/
inductive Timer
  /-- `timeout=None` -/
  | unlimited
  /-- Not positive: it expires before what it bounds has begun. -/
  | past
  | running
  deriving DecidableEq, Repr

variable {α : Type}

/-- The `asyncio.TimeoutError` of a deadline. -/
def expire (r : Runtime) (w : Deadline) : Call α := do
  modify fun s => { s with expired := s.expired ++ [w] }
  raise (.error r.timeoutError (some w))

/-- `asyncio.wait_for` -/
def waitFor (r : Runtime) (w : Deadline) (timer : Timer) (body : Call α) : Call α :=
  match timer with
  | .unlimited => body
  | .past => expire r w
  | .running =>
      handle body fun e => if e = .cancelled (some w) then some (expire r w) else none

/-- The branch of the deadline is entered. -/
def enterBranch (e : Exc) : Call Unit :=
  modify fun s => { s with handled := s.handled ++ e.cause.toList }

/-- `try: await wait_for(body) except TimeoutError as e: onExpiry`, and what the clauses after
that do. -/
def withDeadline (r : Runtime) (w : Deadline) (timer : Timer) (body : Call α)
    (onExpiry : Exc → Call α) (otherwise : Exc → Option (Call α)) : Call α :=
  handle (waitFor r w timer body) fun e =>
    if e.isA [.timeoutError] then some (do enterBranch e; onExpiry e) else otherwise e

/-! ## The connection -/

/-- `is_closed` -/
def Shared.isClosed (s : Shared) (atEof : Bool) : Bool := s.closed || s.writerClosing || atEof

/-- `close` of `TcpConnection` -/
def closeConnection (waitClosed : Await) : Call Unit := do
  let s ← read
  update fun s => { s with closed := true, writerClosing := true }
  if s.shared.closed && s.shared.writerClosing then pure ()
  else
    handle (perform waitClosed) fun e =>
      if e.isA [.connectionError, .osError, .runtimeError] then some (pure ()) else none

/-- "TCP connection closed …." -/
def connectionClosed (e : Exc) : Call Unit := do
  update fun s => { s with closed := true }
  failFrom .connectionClosedError e

/-- `_read_exactly` -/
def readExactly (a : Await) : Call Unit :=
  handle (perform a) fun e =>
    if e.isA [.incompleteReadError] then some (connectionClosed e)
    else if e.isA [.connectionError, .osError] then some (connectionClosed e)
    else none

/-- What happens in `receive_frame`. -/
structure Receive where
  lock : Pause
  atEof : Bool
  header : Await
  /-- The frame is larger than `max_frame_size`. -/
  oversize : Bool
  /-- `frame_payload_timeout` -/
  timer : Timer
  payload : Await
  closing : Await

/-- `receive_frame` -/
def receiveFrame (r : Runtime) (i : Receive) : Call Unit := do
  pause i.lock
  let s ← read
  if s.shared.isClosed i.atEof then fail .connectionClosedError
  else do
    readExactly i.header
    if i.oversize then do
      closeConnection i.closing
      fail .transportError
    else
      withDeadline r .payload i.timer (readExactly i.payload)
        (fun e => do
          closeConnection i.closing
          failFrom .transportError e)
        fun _ => none

/-- What happens in `send_frame`. -/
structure SendFrame where
  lock : Pause
  atEof : Bool
  oversize : Bool
  drain : Await

/-- `send_frame` -/
def sendFrame (i : SendFrame) : Call Unit := do
  pause i.lock
  let s ← read
  if s.shared.isClosed i.atEof then fail .connectionClosedError
  else if i.oversize then fail .transportError
  else
    handle (perform i.drain) fun e =>
      if e.isA [.connectionError, .osError] then some (connectionClosed e) else none

/-! ## The handshake -/

/-- What happens in `negotiate_protocol`. -/
structure Handshake where
  /-- `handshake_timeout` -/
  timer : Timer
  send : SendFrame
  receive : Receive
  /-- What the remote hello, or its comparison with the offer and the security of the
  connection, raises. -/
  verdict : Option ErrorClass
  closing : Await
  /-- The wait for the shielded `close()`. -/
  shield : Pause

/-- `_close_after_failed_handshake` -/
def closeAfterFailedHandshake (i : Handshake) : Call Unit := do
  handle (closeConnection i.closing) fun e =>
    if e.isA [.connectionError, .osError, .runtimeError, .transportError] then some (pure ())
    else none
  pause i.shield

/-- The exchange of hello frames, and the clauses around it. -/
def exchangeHello (r : Runtime) (i : Handshake) : Call Unit :=
  withDeadline r .handshake i.timer
    (do
      sendFrame i.send
      receiveFrame r i.receive)
    (failFrom .protocolHandshakeTimeoutError)
    fun e =>
      if e.isA [.connectionClosedError] then some (failFrom .protocolHandshakeError e)
      else if e.isA [.transportError] then some (failFrom .protocolHandshakeError e)
      else none

/-- `negotiate_protocol` -/
def negotiateProtocol (r : Runtime) (i : Handshake) : Call Unit :=
  handle
    (do
      exchangeHello r i
      check i.verdict)
    fun e => some do
      closeAfterFailedHandshake i
      raise e

/-! ## Outgoing connections -/

/-- What happens in `_prepare_outgoing_connection`. -/
structure Prepare where
  /-- `max_connections` is reached. -/
  full : Bool
  handshake : Handshake
  /-- The choice among duplicates, and the retirement of the one that lost. -/
  selection : Await

/-- `_prepare_outgoing_connection` -/
def prepareOutgoingConnection (r : Runtime) (i : Prepare) : Call Unit :=
  if i.full then fail .resourceLimitError
  else
    handle
      (do
        negotiateProtocol r i.handshake
        perform i.selection)
      fun e => some do
        runIf (e.isA [.protocolError]) (report e)
        raise e

/-- What happens in `connect` of the transport. -/
structure TransportConnect where
  /-- The transport is started and the endpoint is one of its own. -/
  accepted : Bool
  timer : Timer
  opening : Await
  /-- The transport was stopped meanwhile. -/
  stale : Bool
  /-- What the metadata of the stream raise. -/
  metadata : Option ErrorClass
  closing : Await

/-- `connect` of `LanTransport` -/
def transportConnect (r : Runtime) (i : TransportConnect) : Call Unit := do
  runIf (!i.accepted) (fail .transportError)
  handle (waitFor r .transport i.timer (perform i.opening)) fun e =>
    if e.isA [.timeoutError] then some (raise e)
    else if e.isA [.osError, .sslError] then some (failFrom .transportError e)
    else none
  if i.stale then do
    handle (perform i.closing) fun e =>
      if e.isA [.connectionError, .osError, .runtimeError] then some (pure ()) else none
    fail .transportError
  else
    handle (check i.metadata) fun e =>
      if e.isA [.exception] then
        some do
          handle (perform i.closing) fun e =>
            if e.isA [.connectionError, .osError, .runtimeError] then some (pure ()) else none
          raise e
      else none

/-- What happens in `_open_connection`. -/
structure Open where
  connect : TransportConnect
  timer : Timer
  prepare : Option Prepare
  /-- Another connection was selected, and the opened one is closed. -/
  replaced : Option Await
  lock : Pause
  /-- `close_all()` or `close_peer()` was called. -/
  superseded : Bool
  /-- The close of the previous connection of the peer. -/
  previous : Option Await
  closing : Await
  cleanupLock : Pause

/-- `_open_connection` -/
def openConnection (r : Runtime) (i : Open) : Call Unit :=
  ensure
    (do
      withDeadline r .opening i.timer (transportConnect r i.connect) (failFrom .paqtoTimeoutError)
        fun _ => none
      modify fun s => { s with opened := true }
      i.prepare.elim (pure ()) (prepareOutgoingConnection r)
      i.replaced.elim (pure ()) closeConnection
      pause i.lock
      if i.superseded then fail .connectionClosedError
      else do
        i.previous.elim (pure ()) perform
        modify fun s => { s with succeeded := true })
    (do
      let s ← read
      runIf (!s.succeeded && s.opened && !s.shared.closed)
        (handle (closeConnection i.closing) fun _ => some (pure ()))
      pause i.cleanupLock)

/-- What happens in `connect`. -/
structure Connecting where
  /-- The node is not running, or the peer is unknown, expired or without an endpoint. -/
  refused : Option ErrorClass
  /-- The peer has a READY connection. -/
  existing : Bool
  lock : Pause
  opening : Open
  /-- The wait for the shared task. -/
  waiter : Pause
  /-- The connection has no session: `close_peer`. -/
  orphan : Option Await

/-- `connect` of `PaqtoNode`, with that of the connection manager. -/
def connect (r : Runtime) (i : Connecting) : Call Unit := do
  check i.refused
  if i.existing then pure ()
  else do
    pause i.lock
    openConnection r i.opening
    pause i.waiter
    i.orphan.elim (pure ()) fun a => do
      perform a
      fail .protocolFrameError

/-! ## Messages -/

/-- What happens in `_queue_frame`. -/
structure Queue where
  /-- The connection has no writer, or is closed. -/
  unavailable : Bool
  /-- The queue is full, and does not wait. -/
  full : Bool
  put : Pause
  sent : Await

/-- `_queue_frame` -/
def queueFrame (i : Queue) : Call Unit := do
  if i.unavailable then fail .connectionClosedError
  else if i.full then fail .resourceLimitError
  else do
    pause i.put
    perform i.sent

/-- What happens in `_send_message`. -/
structure Sending where
  /-- The message is not valid or cannot be written, or the session cannot carry it. -/
  refused : Option ErrorClass
  requireAck : Bool
  timer : Timer
  queue : Queue
  acknowledgementTimer : Timer
  acknowledgement : Await

/-- `_send_message` -/
def sendMessage (r : Runtime) (i : Sending) : Call Unit := do
  check i.refused
  update fun s => { s with acknowledgement := i.requireAck }
  ensure
    (do
      withDeadline r .send i.timer (queueFrame i.queue) (failFrom .paqtoTimeoutError) fun _ => none
      runIf i.requireAck
        (withDeadline r .acknowledgement i.acknowledgementTimer (perform i.acknowledgement)
          (failFrom .acknowledgementTimeoutError) fun _ => none))
    (update fun s => { s with acknowledgement := false })

/-- `send` of `PaqtoNode` -/
def send (r : Runtime) (i : Connecting) (j : Sending) : Call Unit := do
  connect r i
  sendMessage r j

/-- What happens in `request`. -/
structure Requesting where
  connecting : Connecting
  /-- The correlation is refused, or the node was stopped. -/
  refused : Option ErrorClass
  sending : Sending
  /-- `request_timeout` -/
  timer : Timer
  reply : Await

/-- `request` -/
def request (r : Runtime) (i : Requesting) : Call Unit := do
  connect r i.connecting
  check i.refused
  update fun s => { s with request := true }
  ensure
    (do
      sendMessage r i.sending
      withDeadline r .reply i.timer (perform i.reply) (failFrom .requestTimeoutError) fun _ => none)
    (update fun s => { s with request := false })

/-- What happens in `discover`. -/
structure Discovering where
  refused : Option ErrorClass
  /-- A timeout of zero is no deadline. -/
  timer : Timer
  discovery : Await
  /-- The node was stopped meanwhile. -/
  stopped : Bool

/-- `discover` of `PaqtoNode` -/
def discover (r : Runtime) (i : Discovering) : Call Unit := do
  check i.refused
  withDeadline r .discover i.timer (perform i.discovery) (failFrom .paqtoTimeoutError)
    fun _ => none
  runIf i.stopped (fail .notStartedError)

/-! ## The reader -/

/-- A turn of the loop of `_read_connection`. -/
structure Turn where
  running : Bool
  atEof : Bool
  /-- `idle_timeout` -/
  timer : Timer
  receive : Receive
  /-- What comes of the frame. -/
  processing : Await

/-- The loop of `_read_connection`. -/
def readLoop (r : Runtime) : List Turn → Call Unit
  | [] => pure ()
  | i :: turns => do
      let s ← read
      if !i.running || s.shared.isClosed i.atEof then pure ()
      else do
        withDeadline r .idle i.timer (receiveFrame r i.receive)
          (failFrom .connectionIdleTimeoutError) fun _ => none
        perform i.processing
        readLoop r turns

/-- What happens in `_connection_ended`. -/
structure Ended where
  heartbeat : Pause
  outbound : Pause
  lost : Pause
  closing : Await

/-- `_connection_ended` -/
def connectionEnded (i : Ended) : Call Unit := do
  update fun s => { s with session := false, request := false, acknowledgement := false }
  pause i.heartbeat
  pause i.outbound
  pause i.lost
  closeConnection i.closing

/-- `_read_connection` -/
def readConnection (r : Runtime) (turns : List Turn) (ended : Ended) : Call Unit :=
  ensure
    (handle (readLoop r turns) fun e =>
      if e.isA [.connectionClosedError] then some (pure ())
      else if e.isA [.resourceLimitError] then some (pure ())
      else if e.isA [.protocolError, .serializationError, .transportError] then some (report e)
      else if e.isA [.connectionIdleTimeoutError] then
        some (update fun s => { s with idleWarnings := s.idleWarnings + 1 })
      else if e.isA [.exception] then some (report e)
      else none)
    (connectionEnded ended)

/-- What happens in `_run_incoming_connection`. -/
structure Incoming where
  handshake : Handshake
  /-- The choice among duplicates, and the adoption by the connection manager. -/
  selection : Await
  /-- The connection is the canonical one of its peer. -/
  selected : Bool
  turns : List Turn
  ended : Ended
  closing : Await

/-- `_run_incoming_connection` -/
def runIncomingConnection (r : Runtime) (i : Incoming) : Call Unit :=
  ensure
    (do
      handle (negotiateProtocol r i.handshake) fun e =>
        if e.isA [.connectionClosedError] then some (raise e)
        else if e.isA [.protocolError] then
          some do
            report e
            raise e
        else if e.isA [.exception] then
          some do
            report e
            raise e
        else none
      perform i.selection
      if i.selected then do
        modify fun s => { s with reading := true }
        readConnection r i.turns i.ended
      else pure ())
    (do
      let s ← read
      runIf (!s.reading) (closeConnection i.closing))

/-! ## The heartbeat -/

/-- A turn of the loop of `_heartbeat_loop`. -/
structure Beat where
  /-- The node runs, and the connection is the canonical one of its peer. -/
  running : Bool
  atEof : Bool
  sleep : Pause
  runningAfter : Bool
  atEofAfter : Bool
  /-- Something was received since the last turn. -/
  recent : Bool
  queue : Queue
  /-- `heartbeat_timeout` -/
  timer : Timer
  pong : Await
  closing : Await

/-- The PING of a turn; it says whether the loop goes on. -/
def ping (r : Runtime) (i : Beat) : Call Bool := do
  update fun s => { s with ping := true }
  ensure
    (do
      queueFrame i.queue
      withDeadline r .pong i.timer
        (do
          perform i.pong
          pure true)
        (fun _ => do
          closeConnection i.closing
          pure false)
        fun _ => none)
    (update fun s => { s with ping := false })

/-- `_heartbeat_loop` -/
def heartbeatLoop (r : Runtime) : List Beat → Call Unit
  | [] => pure ()
  | i :: beats => do
      let s ← read
      if !i.running || s.shared.isClosed i.atEof then pure ()
      else do
        pause i.sleep
        let s ← read
        if !i.runningAfter || s.shared.isClosed i.atEofAfter then pure ()
        else if i.recent then heartbeatLoop r beats
        else do
          let goesOn ← ping r i
          if goesOn then heartbeatLoop r beats else pure ()

/-! ## Calls -/

/-- A call that waits under a deadline, of a user or of a task of the node. -/
inductive Entry
  | receiveFrame (i : Receive)
  | negotiateProtocol (i : Handshake)
  | connect (i : Connecting)
  | send (i : Connecting) (j : Sending)
  /-- `reply` -/
  | sendMessage (i : Sending)
  | request (i : Requesting)
  | discover (i : Discovering)
  | readConnection (turns : List Turn) (ended : Ended)
  | runIncomingConnection (i : Incoming)
  | heartbeatLoop (beats : List Beat)

/-- The call of an entry. -/
def Entry.run (r : Runtime) : Entry → Call Unit
  | .receiveFrame i => Deadlines.receiveFrame r i
  | .negotiateProtocol i => Deadlines.negotiateProtocol r i
  | .connect i => Deadlines.connect r i
  | .send i j => Deadlines.send r i j
  | .sendMessage i => Deadlines.sendMessage r i
  | .request i => Deadlines.request r i
  | .discover i => Deadlines.discover r i
  | .readConnection turns ended => Deadlines.readConnection r turns ended
  | .runIncomingConnection i => Deadlines.runIncomingConnection r i
  | .heartbeatLoop beats => Deadlines.heartbeatLoop r beats

/-- The caller is told of the deadline: the error goes back to it, or a cancellation has taken its
place.  After a handshake the clean-up may raise an error of its own instead. -/
def Exc.Tells (e : Exc) (w : Deadline) : Prop :=
  w.raises = true → w = .handshake ∨ e.cause = some w ∨ ∃ d, e = .cancelled d

/-- **The deadlines of a call take effect**: the branch of each that expires is entered, callers
see its documented error, and what it closes is closed, unless the call is cancelled first. -/
structure TakesEffect (o : Except Exc Unit × World) : Prop where
  branches : o.2.handled = o.2.expired
  raised : ∀ w ∈ o.2.expired, w.raises = true → ∃ e, o.1 = .error e ∧ e.Tells w
  documented : ∀ c w, o.1 = .error (.error c (some w)) → c ∈ w.documented
  closed : ∀ w ∈ o.2.expired, w.closes = true →
    o.2.shared.closed = true ∨ ∃ d, o.1 = .error (.cancelled d)

end Deadlines
end Core
end Paqto
