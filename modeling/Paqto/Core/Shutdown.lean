/-
# What a node holds while it stops

`_stop_locked` of `core/node.py` with `close_all` of `core/manager.py`, and the
tasks that may run between its beginning and its return: open attempts and the
callers that wait for them, incoming handshakes, readers, writers, heartbeat
loops, reconnect loops and the calls that wait for a frame, an ACK or a reply.

The state keeps the tables that `stop()` is to empty: `_sessions`,
`_session_connections`, `_session_directions` and `_peer_connections`
(`Core.SessionTables`), `_incoming_connections` and `_outgoing_connections`,
`_known_peers`, `_outbound_channels` with the channels in it
(`Core.OutboundChannel`), `_pending_requests`, `_pending_acknowledgements` and
`_pending_heartbeats`.  What the manager holds beside `_in_flight` and
`_closing` decides only which connection an attempt or a caller comes back with,
and that is in the labels.

A connection is named by a number, like the attempt that opens it and the task
in `_reader_tasks` that reads it.  A step is what one task does between two
suspensions, and what only removes entries may happen at any time.
-/

import Paqto.Core.OutboundChannel
import Paqto.Core.SessionTables
import Paqto.Correlation.Table
import Mathlib.Data.Finset.Card

namespace Paqto
namespace Core

open Transition Python Correlation

namespace Shutdown

/-- What the node is configured with. -/
structure Config where
  peerId : Str
  maxConnections : ℕ
  maxPendingRequests : ℕ
  maxPendingAcknowledgements : ℕ
  outbound : OutboundChannel.Config

/-- The task of `_open_connection`. -/
inductive AttemptPc
  | absent
  /-- In `transport.connect`. -/
  | connecting (p : Str)
  /-- In `_negotiate`. -/
  | negotiating (p : Str)
  /-- `_select_ready_connection` has decided. -/
  | settling (p : Str) (selected : ℕ)
  | returned (selected : ℕ)
  | raised
  deriving DecidableEq, Repr

/-- The peer of an attempt that is not done. -/
def AttemptPc.peer : AttemptPc → Option Str
  | connecting p | negotiating p | settling p _ => some p
  | _ => none

/-- The task of a connection in `_reader_tasks`: `_run_incoming_connection` or
`_read_connection`. -/
inductive ReaderPc
  | absent
  | negotiating
  /-- The session is published, or `_ensure_reader` has run. -/
  | ready
  /-- In its `finally`. -/
  | ending
  | ended
  deriving DecidableEq, Repr

/-- The task is not done. -/
def ReaderPc.isLive : ReaderPc → Bool
  | negotiating | ready | ending => true
  | _ => false

/-- The connections and the tasks that own them. -/
structure Links (F : Type) where
  tables : SessionTables F
  /-- `_incoming_connections` -/
  incoming : Finset ℕ
  /-- `_outgoing_connections` -/
  outgoing : Finset ℕ
  isClosed : ℕ → Bool
  /-- `_in_flight` -/
  inFlight : Str → Option ℕ
  /-- `_closing` of the manager. -/
  closing : Bool
  attempts : ℕ → AttemptPc
  attemptCancelled : ℕ → Bool
  readers : ℕ → ReaderPc
  readerCancelled : ℕ → Bool
  nextConnection : ℕ

/-- The tables of the calls that wait for an answer.  The value of a future is
left out; a heartbeat is its ping id and its connection. -/
structure Pending where
  requests : Table Str ℕ ℕ Str Unit
  nextRequest : ℕ
  acknowledgements : Table Str ℕ ℕ Str Unit
  nextAcknowledgement : ℕ
  heartbeats : List (Str × ℕ)

/-- A caller of `_connect_discovered` that waits for an attempt. -/
structure Caller where
  peer : Str
  attempt : ℕ
  /-- It is a reconnect loop. -/
  reconnecting : Bool
  cancelled : Bool
  ended : Bool

/-- The tasks `_stop_locked` has cancelled and will gather: of `_reader_tasks`,
`_reconnect_tasks` and `_outbound_channels`. -/
structure Gathered where
  readers : List ℕ
  loops : List ℕ
  writers : List ℕ

/-- Where `_stop_locked` is suspended. -/
inductive StopPc
  /-- There is none. -/
  | idle
  /-- `close_all` has not begun. -/
  | closing (tasks : Gathered)
  /-- `close_all` waits for the attempts it has cancelled. -/
  | closingAttempts (tasks : Gathered) (attempts : List ℕ)
  /-- `close_all` is done. -/
  | gathering (tasks : Gathered)
  /-- The last tables are empty; discovery and transport stop. -/
  | services

/-- The tables that a stop empties, and the tasks it cancels. -/
structure Node (F : Type) where
  running : Bool
  stop : StopPc
  links : Links F
  pending : Pending
  /-- The channel of a connection; `registered` says whether it is in
  `_outbound_channels`. -/
  channels : ℕ → Option OutboundChannel.Channel
  callers : ℕ → Option Caller
  nextCaller : ℕ
  /-- The keys of `_known_peers`. -/
  known : Str → Bool

variable {F : Type}

/-- `__init__` -/
def initial : Node F where
  running := false
  stop := .idle
  links :=
    { tables := .empty
      incoming := ∅
      outgoing := ∅
      isClosed := fun _ => false
      inFlight := fun _ => none
      closing := false
      attempts := fun _ => .absent
      attemptCancelled := fun _ => false
      readers := fun _ => .absent
      readerCancelled := fun _ => false
      nextConnection := 0 }
  pending := ⟨.empty, 0, .empty, 0, []⟩
  channels := fun _ => none
  callers := fun _ => none
  nextCaller := 0
  known := fun _ => false

/-- The moves of the tasks and of a stop. -/
inductive Label (F : Type)
  | start
  /-- The accept loop admits a connection. -/
  | accept
  /-- `_connect_discovered` joins or creates an attempt. -/
  | connect (p : Str) (reconnecting : Bool)
  /-- `ConnectionManager.connect` returns the connection it has. -/
  | handOver (p : Str) (c : ℕ)
  /-- `transport.connect` returns. -/
  | opened (a : ℕ)
  /-- An attempt raises; `discard` when it does in `prepare`. -/
  | attemptFails (a : ℕ) (discard : Bool)
  | attemptNegotiated (a : ℕ) (session : ProtocolSession F)
  /-- An attempt comes to its end. -/
  | attemptSettles (a : ℕ)
  | attemptCancelled (a : ℕ) (discard : Bool)
  | incomingNegotiated (c : ℕ) (session : ProtocolSession F)
  /-- A reader, or the task of an incoming connection, enters its `finally`. -/
  | readerEnds (c : ℕ)
  | readerDone (c : ℕ)
  /-- A caller goes on with what its attempt returned. -/
  | resumeCaller (k : ℕ)
  /-- A caller is cancelled, or its attempt raised. -/
  | callerEnds (k : ℕ)
  /-- `close_peer` up to its first suspension. -/
  | closePeer (p : Str)
  /-- `_retire_replaced_connection` or `disconnect`, up to its first suspension. -/
  | retire (c : ℕ)
  /-- A connection is discarded from the sets of physical connections. -/
  | discard (c : ℕ)
  | close (c : ℕ)
  /-- `discover()` remembers a peer. -/
  | discovered (p : Str)
  /-- `request` registers its correlation. -/
  | request (key : Str) (c : ℕ) (p : Str)
  /-- `_send_message` registers an acknowledgement. -/
  | acknowledge (key : Str) (c : ℕ)
  | resolveReply (key : Str) (c : ℕ) (p : Str)
  | resolveAcknowledgement (key : Str) (c : ℕ) (p : Str)
  /-- The `finally` of `request`. -/
  | endRequest (key : Str) (k : ℕ)
  /-- The `finally` of `_send_message`. -/
  | endAcknowledgement (key : Str) (k : ℕ)
  /-- The heartbeat loop of a connection registers a ping. -/
  | ping (key : Str) (c : ℕ)
  | endPing (key : Str)
  /-- A step of a writer, of a caller of `_queue_frame` or of
  `_close_outbound_channel`. -/
  | outbound (c : ℕ) (l : OutboundChannel.Label)
  | beginStop
  /-- `close_all` begins. -/
  | closeAll
  /-- The attempts that `close_all` cancelled are done. -/
  | attemptsClosed
  /-- The tasks that `_stop_locked` cancelled are done. -/
  | clear
  /-- `stop()` returns. -/
  | stopped

namespace Links

/-- An attempt moves. -/
def setAttempt (s : Links F) (a : ℕ) (pc : AttemptPc) : Links F :=
  { s with attempts := Function.update s.attempts a pc }

/-- A reader moves. -/
def setReader (s : Links F) (c : ℕ) (pc : ReaderPc) : Links F :=
  { s with readers := Function.update s.readers c pc }

/-- `active_connection_count` -/
def activeConnectionCount (s : Links F) : ℕ := (s.incoming ∪ s.outgoing).card

/-- The last part of the `finally` of `_open_connection`. -/
def endAttempt (s : Links F) (a : ℕ) (p : Str) (pc : AttemptPc) : Links F :=
  { s with
    inFlight :=
      if s.inFlight p = some a then Function.update s.inFlight p none else s.inFlight
    }.setAttempt a pc

/-- An attempt raises. -/
def failAttempt (s : Links F) (a : ℕ) (p : Str) (discard : Bool) : Links F :=
  { s with outgoing := if discard then s.outgoing.erase a else s.outgoing }.endAttempt a p .raised

/-- `_prepare_outgoing_connection` begins. -/
def opened (cfg : Config) (s : Links F) (a : ℕ) (p : Str) : Links F :=
  if a ∉ s.outgoing ∧ cfg.maxConnections ≤ s.activeConnectionCount then s.endAttempt a p .raised
  else { s with outgoing := insert a s.outgoing }.setAttempt a (.negotiating p)

/-- The manager takes the selected connection, and the attempt returns it. -/
def settle (s : Links F) (a : ℕ) (p : Str) (selected : ℕ) : Links F :=
  if s.closing then s.endAttempt a p .raised else s.endAttempt a p (.returned selected)

/-- `_incoming_connections.discard`, `_outgoing_connections.discard` -/
def discard (s : Links F) (c : ℕ) : Links F :=
  { s with incoming := s.incoming.erase c, outgoing := s.outgoing.erase c }

/-- `_deactivate_session` -/
def deactivateSession (s : Links F) (c : ℕ) : Links F :=
  { s with tables := s.tables.deactivateSession c }

/-- The attempts in `_in_flight`. -/
def inFlightAttempts (s : Links F) : List ℕ :=
  (List.range s.nextConnection).filter fun a =>
    (s.attempts a).peer.any fun p => s.inFlight p = some a

/-- The attempt is done. -/
def attemptDone (s : Links F) (a : ℕ) : Bool := (s.attempts a).peer.isNone

end Links

namespace Pending

/-- `_fail_pending_for_connection` and `_fail_heartbeats_for_connection` -/
def failConnection (s : Pending) (c : ℕ) : Pending :=
  { s with
    requests := s.requests.failChannel c
    acknowledgements := s.acknowledgements.failChannel c
    heartbeats := s.heartbeats.filter (·.2 ≠ c) }

/-- `_fail_all_pending` and `_fail_all_heartbeats` -/
def failAll (s : Pending) : Pending :=
  { s with
    requests := s.requests.failAll
    acknowledgements := s.acknowledgements.failAll
    heartbeats := [] }

/-- `request` registers its correlation. -/
def request (cfg : Config) (s : Pending) (key : Str) (c : ℕ) (p : Str) : Option Pending :=
  if (s.requests.lookup key).isSome ∨ cfg.maxPendingRequests ≤ s.requests.entries.length then none
  else some { s with
    requests := s.requests.register ⟨key, s.nextRequest, c, p⟩
    nextRequest := s.nextRequest + 1 }

/-- `_send_message` registers an acknowledgement. -/
def acknowledge (cfg : Config) (s : Pending) (key : Str) (c : ℕ) (p : Str) : Option Pending :=
  if (s.acknowledgements.lookup key).isSome ∨
      cfg.maxPendingAcknowledgements ≤ s.acknowledgements.entries.length then none
  else some { s with
    acknowledgements := s.acknowledgements.register ⟨key, s.nextAcknowledgement, c, p⟩
    nextAcknowledgement := s.nextAcknowledgement + 1 }

end Pending

namespace Node

/-- The channel is in `_outbound_channels`, and its task is not done. -/
def hasChannel (s : Node F) (c : ℕ) : Bool :=
  (s.channels c).any fun ch => ch.registered && ch.writer ≠ .finished

/-- `_ensure_outbound_channel`.  A connection negotiates once, so a channel of it
is never replaced by another. -/
def ensureOutboundChannel (s : Node F) (c : ℕ) : Node F :=
  if s.hasChannel c then s
  else
    { s with
      channels := Function.update s.channels c
        (some { OutboundChannel.initial with
          running := s.running
          isClosed := s.links.isClosed c }) }

/-- The first steps of `_retire_replaced_connection`, `disconnect` and
`_connection_ended`. -/
def retire (s : Node F) (c : ℕ) : Node F :=
  { s with links := s.links.deactivateSession c, pending := s.pending.failConnection c }

/-- The loser of a selection is retired. -/
def retireLoser (s : Node F) : Option ℕ → Node F
  | some loser => s.retire loser
  | none => s

/-- `_prepare_outgoing_connection` after `_negotiate`. -/
def attemptNegotiated (cfg : Config) (s : Node F) (a : ℕ) (p : Str)
    (session : ProtocolSession F) : Node F :=
  match s.links.tables.selectReadyConnection cfg.peerId s.links.isClosed a session .outbound with
  | none => { s with links := s.links.failAttempt a p true }
  | some (tables, selection) =>
      if selection.selected = a then
        ({ s with links := { s.links with tables }.setAttempt a (.settling p a)
          }.ensureOutboundChannel a).retireLoser selection.loser
      else
        { s with
          links := { s.links with tables, outgoing := s.links.outgoing.erase a }.setAttempt a
            (.settling p selection.selected) }

/-- The `finally` of `_run_incoming_connection` and of `_read_connection`, up to
its first suspension. -/
def readerEnds (s : Node F) (c : ℕ) : Node F :=
  { s.retire c with links := ((s.retire c).links.discard c).setReader c .ending }

/-- `_run_incoming_connection` after `_negotiate`. -/
def incomingNegotiated (cfg : Config) (s : Node F) (c : ℕ) (session : ProtocolSession F) :
    Node F :=
  match s.links.tables.selectReadyConnection cfg.peerId s.links.isClosed c session .inbound with
  | none => s.readerEnds c
  | some (tables, selection) =>
      if selection.selected = c then
        ({ s with links := { s.links with tables }.setReader c .ready
          }.ensureOutboundChannel c).retireLoser selection.loser
      else { s with links := { s.links with tables } }.readerEnds c

/-- `_remember` -/
def remember (s : Node F) (p : Str) : Node F :=
  { s with known := Function.update s.known p true }

/-- `close_peer` cancels the attempt in flight. -/
def closePeer (s : Node F) (p : Str) : Node F :=
  match s.links.inFlight p with
  | some a =>
      { s with
        links := { s.links with
          inFlight := Function.update s.links.inFlight p none
          attemptCancelled := Function.update s.links.attemptCancelled a true } }
  | none => s

/-- `_ensure_reader` -/
def ensureReader (s : Node F) (c : ℕ) : Node F :=
  if (s.links.readers c).isLive then s
  else
    { s with
      links := { s.links with
        readerCancelled := Function.update s.links.readerCancelled c false }.setReader c .ready }

/-- `_connect_discovered` goes on with the connection of the manager. -/
def handOver (s : Node F) (p : Str) (c : ℕ) : Node F :=
  match s.links.tables.sessionFor c with
  | some _ => (s.remember p).ensureReader c
  | none => (s.remember p).closePeer p

/-- A caller moves. -/
def setCaller (s : Node F) (k : ℕ) (caller : Caller) : Node F :=
  { s with callers := Function.update s.callers k (some caller) }

/-- `ConnectionManager.connect` without a usable connection. -/
def connect (s : Node F) (p : Str) (reconnecting : Bool) : Node F :=
  let t := { s with nextCaller := s.nextCaller + 1 }
  match s.links.inFlight p with
  | some a => t.setCaller s.nextCaller ⟨p, a, reconnecting, false, false⟩
  | none =>
      { t with
        links := { s.links with
          inFlight := Function.update s.links.inFlight p (some s.links.nextConnection)
          nextConnection := s.links.nextConnection + 1 }.setAttempt s.links.nextConnection
            (.connecting p) }.setCaller s.nextCaller
        ⟨p, s.links.nextConnection, reconnecting, false, false⟩

/-! ## The steps of `_stop_locked` -/

/-- The tasks that `_stop_locked` cancels. -/
def toGather (s : Node F) : Gathered where
  readers := (List.range s.links.nextConnection).filter fun c => (s.links.readers c).isLive
  loops := (List.range s.nextCaller).filter fun k =>
    (s.callers k).any fun caller => caller.reconnecting && !caller.ended
  writers := (List.range s.links.nextConnection).filter fun c =>
    (s.channels c).any (·.registered)

/-- What `_stop_locked` does to a channel in `_outbound_channels`: its writer is
cancelled, and `_fail_all_outbound` fails its frames. -/
def stopChannel (ch : OutboundChannel.Channel) : OutboundChannel.Channel :=
  if ch.registered then { ch.cancelWriter with running := false }.failCurrent.failOutboundQueue
  else { ch with running := false }

/-- `_stop_locked` up to its first suspension. -/
def beginStop (s : Node F) : Node F :=
  { s with
    running := false
    stop := .closing s.toGather
    links := { s.links with
      tables := .empty
      incoming := ∅
      outgoing := ∅
      readerCancelled := fun c => s.links.readerCancelled c || (s.links.readers c).isLive }
    pending := s.pending.failAll
    channels := fun c => (s.channels c).map stopChannel
    callers := fun k =>
      (s.callers k).map fun caller =>
        { caller with cancelled := caller.cancelled || caller.reconnecting } }

/-- `close_all` up to its first suspension. -/
def closeAll (s : Node F) (tasks : Gathered) : Node F :=
  { s with
    stop := .closingAttempts tasks s.links.inFlightAttempts
    links := { s.links with
      closing := true
      inFlight := fun _ => none
      attemptCancelled := fun a =>
        s.links.attemptCancelled a || decide (a ∈ s.links.inFlightAttempts) } }

/-- The gathered tasks are done. -/
def gathered (s : Node F) (tasks : Gathered) : Bool :=
  tasks.readers.all (fun c => !(s.links.readers c).isLive) &&
    tasks.loops.all (fun k => (s.callers k).all (·.ended)) &&
    tasks.writers.all (fun c => (s.channels c).all fun ch => ch.writer = .finished)

/-- `_stop_locked` empties the tables it has left. -/
def clear (s : Node F) : Node F :=
  { s with
    stop := .services
    known := fun _ => false
    channels := fun c => (s.channels c).map fun ch => { ch with registered := false } }

end Node

/-- One step of the node. -/
def step (cfg : Config) (s : Node F) : Label F → Option (Node F)
  | .start =>
      match s.stop with
      | .idle =>
          if s.running then none
          else some { s with
            running := true
            channels := fun c => (s.channels c).map fun ch => { ch with running := true } }
      | _ => none
  | .accept =>
      if s.running ∧ s.links.activeConnectionCount < cfg.maxConnections then
        some { s with
          links := { s.links with
            incoming := insert s.links.nextConnection s.links.incoming
            nextConnection := s.links.nextConnection + 1 }.setReader s.links.nextConnection
              .negotiating }
      else none
  | .connect p reconnecting =>
      if s.running ∧ s.links.closing = false then some (s.connect p reconnecting) else none
  | .handOver p c => if s.running then some (s.handOver p c) else none
  | .opened a =>
      match s.links.attempts a with
      | .connecting p =>
          if s.links.attemptCancelled a then none
          else some { s with links := s.links.opened cfg a p }
      | _ => none
  | .attemptFails a discard =>
      if s.links.attemptCancelled a then none
      else
        match s.links.attempts a with
        | .connecting p | .negotiating p =>
            some { s with links := s.links.failAttempt a p true }
        | .settling p _ => some { s with links := s.links.failAttempt a p discard }
        | _ => none
  | .attemptNegotiated a session =>
      match s.links.attempts a with
      | .negotiating p =>
          if s.links.attemptCancelled a = false ∧ session.peerId = p then
            some (s.attemptNegotiated cfg a p session)
          else none
      | _ => none
  | .attemptSettles a =>
      match s.links.attempts a with
      | .settling p selected =>
          if s.links.attemptCancelled a then none
          else some { s with links := s.links.settle a p selected }
      | _ => none
  | .attemptCancelled a discard =>
      if s.links.attemptCancelled a then
        match s.links.attempts a with
        | .connecting p | .negotiating p =>
            some { s with links := s.links.failAttempt a p true }
        | .settling p _ => some { s with links := s.links.failAttempt a p discard }
        | _ => none
      else none
  | .incomingNegotiated c session =>
      match s.links.readers c with
      | .negotiating =>
          if s.links.readerCancelled c then none else some (s.incomingNegotiated cfg c session)
      | _ => none
  | .readerEnds c =>
      match s.links.readers c with
      | .negotiating | .ready => some (s.readerEnds c)
      | _ => none
  | .readerDone c =>
      match s.links.readers c with
      | .ending => some { s with links := s.links.setReader c .ended }
      | _ => none
  | .resumeCaller k =>
      (s.callers k).bind fun caller =>
        match s.links.attempts caller.attempt with
        | .returned c =>
            if caller.ended || caller.cancelled then none
            else some ((s.handOver caller.peer c).setCaller k { caller with ended := true })
        | _ => none
  | .callerEnds k =>
      (s.callers k).map fun caller => s.setCaller k { caller with ended := true }
  | .closePeer p => some (s.closePeer p)
  | .retire c => some (s.retire c)
  | .discard c => some { s with links := s.links.discard c }
  | .close c =>
      some { s with links := { s.links with isClosed := Function.update s.links.isClosed c true } }
  | .discovered p => if s.running then some (s.remember p) else none
  | .request key c p =>
      if s.running then
        (s.pending.request cfg key c p).map fun pending => { s with pending }
      else none
  | .acknowledge key c =>
      (s.links.tables.sessionFor c).bind fun session =>
        (s.pending.acknowledge cfg key c session.peerId).map fun pending => { s with pending }
  | .resolveReply key c p =>
      some { s with
        pending := { s.pending with requests := s.pending.requests.resolve key c p () } }
  | .resolveAcknowledgement key c p =>
      some { s with
        pending := { s.pending with
          acknowledgements := s.pending.acknowledgements.resolve key c p () } }
  | .endRequest key k =>
      some { s with
        pending := { s.pending with requests := s.pending.requests.release key k } }
  | .endAcknowledgement key k =>
      some { s with
        pending := { s.pending with
          acknowledgements := s.pending.acknowledgements.release key k } }
  | .ping key c =>
      if s.running then
        some { s with
          pending := { s.pending with heartbeats := s.pending.heartbeats ++ [(key, c)] } }
      else none
  | .endPing key =>
      some { s with
        pending := { s.pending with
          heartbeats := s.pending.heartbeats.filter (·.1 ≠ key) } }
  | .outbound c l =>
      match l with
      | .stop => none
      | l =>
          (s.channels c).bind fun ch =>
            (OutboundChannel.step cfg.outbound ch l).map fun ch =>
              { s with channels := Function.update s.channels c (some ch) }
  | .beginStop =>
      match s.stop with
      | .idle => if s.running then some s.beginStop else none
      | _ => none
  | .closeAll =>
      match s.stop with
      | .closing tasks => some (s.closeAll tasks)
      | _ => none
  | .attemptsClosed =>
      match s.stop with
      | .closingAttempts tasks attempts =>
          if attempts.all s.links.attemptDone then
            some { s with
              stop := .gathering tasks
              links := { s.links with closing := false } }
          else none
      | _ => none
  | .clear =>
      match s.stop with
      | .gathering tasks => if s.gathered tasks then some s.clear else none
      | _ => none
  | .stopped =>
      match s.stop with
      | .services => some { s with stop := .idle }
      | _ => none

/-- The runs of a node. -/
def system (cfg : Config) : System (Node F) (Label F) where
  init s := s = initial
  step := step cfg

/-! ## What `stop()` promises -/

/-- Nothing is left behind. -/
structure Node.LeftNothing (s : Node F) : Prop where
  sessions : ∀ c, s.links.tables.ready c = none
  /-- `session_for()` is `None`. -/
  sessionFor : ∀ c, s.links.tables.sessionFor c = none
  peerConnections : ∀ p, s.links.tables.peerConnections p = none
  knownPeers : ∀ p, s.known p = false
  outboundChannels : ∀ c ch, s.channels c = some ch → ch.registered = false
  pendingRequests : s.pending.requests.entries = []
  pendingAcknowledgements : s.pending.acknowledgements.entries = []
  pendingHeartbeats : s.pending.heartbeats = []
  activeConnections : s.links.activeConnectionCount = 0
  requestFutures : ∀ k < s.pending.nextRequest, s.pending.requests.futures k ≠ .pending
  acknowledgementFutures : ∀ k < s.pending.nextAcknowledgement,
    s.pending.acknowledgements.futures k ≠ .pending
  frameFutures : ∀ c ch, s.channels c = some ch → ∀ k, ¬ (ch.callers k).IsWaiting

end Shutdown
end Core
end Paqto
