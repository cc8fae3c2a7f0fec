/-
# Explicit disconnect and automatic reconnect

`disconnect`, `_schedule_reconnect`, `_reconnect_loop`, `_reconnect_finished`,
`_connect_discovered`, the end of `_connection_ended`, and what `_stop_locked`
and `_network_changed_serialized` of `core/node.py` do with
`_reconnect_suppressed`, `_reconnect_tasks`, `_known_peers` and
`_peer_connections`.

A step is what one task does between two suspensions.  The labels take what the
node does not decide: when the clock calls an observation fresh, what
`connect` of the manager comes back with, which sessions are published or end.
The lifecycle lock is held from the beginning of a stop to its end, and by
`network_changed` until its discovery is over.

`log` keeps the calls of the application that the law of `disconnect` speaks
about, and every reconnect loop and attempt.
-/

import Paqto.Transition.System

namespace Paqto
namespace Core

open Transition

namespace Reconnect

/-- `ReconnectPolicy` of `core/config.py`, without its delays. -/
structure Policy where
  enabled : Bool
  maxAttempts : Option ℕ

/-- What the log records. -/
inductive Event (P : Type)
  | disconnected (peer : P)
  /-- `connect`, `send` or `request`. -/
  | connected (peer : P)
  /-- `stop()` is called. -/
  | stopped
  /-- `_schedule_reconnect` starts a loop. -/
  | loopStarted (peer : P)
  /-- A loop calls `_connect_discovered`, or enters `_open_connection`. -/
  | attempted (peer : P)
  deriving DecidableEq, Repr

/-- The point where a reconnect loop is suspended. -/
inductive LoopPc
  /-- Created, its first step not taken. -/
  | created
  /-- In `mark_reconnecting`. -/
  | marking
  /-- In `_sleep`. -/
  | sleeping
  /-- In `ConnectionManager.connect`, before it holds the lock. -/
  | locking
  /-- On the shared open attempt. -/
  | opening
  /-- In `close_peer`, since the connection had no session. -/
  | closing
  /-- In `mark_disconnected`. -/
  | leaving
  | ended
  deriving DecidableEq, Repr

/-- A task of `_reconnect_loop`. -/
structure Loop (P : Type) where
  peer : P
  pc : LoopPc
  attempt : ℕ
  cancelled : Bool

/-- Who holds the lifecycle lock.  `refresh` is `reconnect_peer_ids` when it is
`network_changed`. -/
inductive Lifecycle (P : Type)
  | idle
  /-- `_stop_locked` up to its last `gather` of tasks. -/
  | stopping (refresh : Option (P → Bool))
  | starting (refresh : P → Bool)
  | discovering (refresh : P → Bool)

/-- What an await of a reconnect loop comes back with. -/
inductive Answer
  /-- A connection with its session. -/
  | connection
  /-- A connection without one. -/
  | sessionGone
  | raised
  /-- The lock, with no connection yet. -/
  | continue
  deriving DecidableEq, Repr

/-- The loops, the suppressed peers and the log. -/
structure Node (P : Type) where
  running : Bool
  lifecycle : Lifecycle P
  /-- The calls of `stop()` that wait for the lifecycle lock. -/
  waitingStops : ℕ
  /-- `_reconnect_suppressed` -/
  suppressed : P → Bool
  /-- The keys of `_known_peers`. -/
  known : P → Bool
  /-- `_peer_connections` -/
  canonical : P → Option ℕ
  /-- The sessions of connections whose reader runs. -/
  sessions : ℕ → Option P
  /-- The calls of `_connection_ended`, each with `was_canonical`. -/
  endings : ℕ → Option (P × Bool)
  /-- `_reconnect_tasks` -/
  reconnectTasks : P → Option ℕ
  loops : ℕ → Option (Loop P)
  nextLoop : ℕ
  log : List (Event P)

variable {P : Type} [DecidableEq P]

/-- `__init__` -/
def initial : Node P where
  running := false
  lifecycle := .idle
  waitingStops := 0
  suppressed := fun _ => false
  known := fun _ => false
  canonical := fun _ => none
  sessions := fun _ => none
  endings := fun _ => none
  reconnectTasks := fun _ => none
  loops := fun _ => none
  nextLoop := 0
  log := []

/-- The calls of the application, and the moves of the loops. -/
inductive Label (P : Type)
  /-- `start()` has come to its end. -/
  | start
  | callStop
  /-- A call of `stop()` gets the lock. -/
  | beginStop
  /-- `network_changed()` gets the lock. -/
  | refresh
  /-- `_stop_locked` has awaited the tasks it cancelled. -/
  | clear
  | restarted (failed : Bool)
  /-- The discovery of `network_changed()` ends; each peer with the answer of
  `is_fresh` in `_schedule_reconnect`. -/
  | rediscovered (peers : List (P × Bool))
  | discovered (peers : List P)
  /-- `connect`, `send` or `request` begins. -/
  | connect (peer : P)
  /-- A caller's `_connect_discovered` returns. -/
  | connectDone (peer : P)
  | disconnect (peer : P)
  /-- `disconnect` goes on once the loop it cancelled has ended. -/
  | dropSession (peer : P)
  /-- `_select_ready_connection` registers a session. -/
  | publish (c : ℕ) (peer : P)
  /-- A reader ends. -/
  | endReader (c : ℕ)
  /-- `_connection_ended` comes to its end. -/
  | connectionEnded (c : ℕ) (removed fresh : Bool)
  | resumeLoop (t : ℕ) (fresh : Bool) (answer : Answer)
  /-- `_reconnect_finished` -/
  | loopFinished (t : ℕ)

namespace Node

/-- A loop moves. -/
def setLoop (s : Node P) (t : ℕ) (loop : Loop P) : Node P :=
  { s with loops := Function.update s.loops t (some loop) }

/-- An event is recorded. -/
def record (s : Node P) (e : Event P) : Node P := { s with log := s.log ++ [e] }

/-- `task.done()` -/
def isDone (s : Node P) (t : ℕ) : Bool :=
  match s.loops t with
  | some loop => loop.pc = .ended
  | none => true

/-- `self._reconnect_tasks[peer]` is there and not done. -/
def isReconnecting (s : Node P) (peer : P) : Bool :=
  match s.reconnectTasks peer with
  | some t => !s.isDone t
  | none => false

/-- `_schedule_reconnect` -/
def scheduleReconnect (policy : Policy) (s : Node P) (peer : P) (fresh : Bool) : Node P :=
  if !s.running || !policy.enabled || s.suppressed peer then s
  else if !s.known peer || !fresh then s
  else if s.isReconnecting peer then s
  else
    { s with
      reconnectTasks := Function.update s.reconnectTasks peer (some s.nextLoop)
      loops := Function.update s.loops s.nextLoop (some ⟨peer, .created, 0, false⟩)
      nextLoop := s.nextLoop + 1 }.record (.loopStarted peer)

/-- `cancel()` of the loop of a peer. -/
def cancelLoop (s : Node P) (peer : P) : Node P :=
  match s.reconnectTasks peer with
  | some t =>
      match s.loops t with
      | some loop => s.setLoop t { loop with cancelled := true }
      | none => s
  | none => s

/-- `cancel()` of every loop in `_reconnect_tasks`. -/
def cancelLoops (s : Node P) : Node P :=
  { s with
    loops := fun t =>
      (s.loops t).map fun loop =>
        if s.reconnectTasks loop.peer = some t then { loop with cancelled := true } else loop }

/-- `_deactivate_session` -/
def deactivate (s : Node P) (c : ℕ) (peer : P) : Node P :=
  { s with
    canonical :=
      if s.canonical peer = some c then Function.update s.canonical peer none else s.canonical }

/-- The beginning of `_stop_locked`, up to its first suspension. -/
def beginStop (s : Node P) (refresh : Option (P → Bool)) : Node P :=
  { s.cancelLoops with
    running := false
    lifecycle := .stopping refresh
    canonical := fun _ => none }

/-- `_stop_locked` empties its tables. -/
def clear (s : Node P) (lifecycle : Lifecycle P) : Node P :=
  { s with
    lifecycle
    reconnectTasks := fun _ => none
    suppressed := fun _ => false
    known := fun _ => false }

/-- `_remember` -/
def remember (s : Node P) (peer : P) : Node P :=
  { s with known := Function.update s.known peer true }

/-- The end of `network_changed`: what it found enters the reconnect policy. -/
def scheduleAll (policy : Policy) (refresh : P → Bool) (s : Node P) :
    List (P × Bool) → Node P
  | [] => s
  | (peer, fresh) :: peers =>
      scheduleAll policy refresh
        (if refresh peer then s.scheduleReconnect policy peer fresh else s) peers

/-- `disconnect` up to its first suspension. -/
def disconnect (s : Node P) (peer : P) : Node P :=
  { s with suppressed := Function.update s.suppressed peer true }.record
    (.disconnected peer) |>.cancelLoop peer

/-! ## The reconnect loop -/

/-- The head of the loop of `_reconnect_loop`, up to its next suspension. -/
def loopHead (policy : Policy) (s : Node P) (t : ℕ) (loop : Loop P) (fresh : Bool) : Node P :=
  if s.running && !s.suppressed loop.peer then
    if policy.maxAttempts.any (· ≤ loop.attempt) then s.setLoop t { loop with pc := .leaving }
    else if s.known loop.peer && fresh then s.setLoop t { loop with pc := .marking }
    else s.setLoop t { loop with pc := .leaving }
  else s.setLoop t { loop with pc := .leaving }

/-- The attempt has failed. -/
def attemptFailed (policy : Policy) (s : Node P) (t : ℕ) (loop : Loop P) (fresh : Bool) :
    Node P :=
  s.loopHead policy t { loop with attempt := loop.attempt + 1 } fresh

/-- `_connect_discovered` goes on with what the manager returned. -/
def loopConnected (policy : Policy) (s : Node P) (t : ℕ) (loop : Loop P) (fresh : Bool) :
    Answer → Option (Node P)
  | .connection => some ((s.remember loop.peer).setLoop t { loop with pc := .ended })
  | .sessionGone => some ((s.remember loop.peer).setLoop t { loop with pc := .closing })
  | .raised => some (s.attemptFailed policy t loop fresh)
  | .continue => none

/-- One step of a loop that is not cancelled. -/
def resumeLoop (policy : Policy) (s : Node P) (t : ℕ) (loop : Loop P) (fresh : Bool)
    (answer : Answer) : Option (Node P) :=
  match loop.pc with
  | .created => some (s.loopHead policy t loop fresh)
  | .marking => some (s.setLoop t { loop with pc := .sleeping })
  | .sleeping =>
      if !s.running || s.suppressed loop.peer then some (s.setLoop t { loop with pc := .ended })
      else
        match answer with
        | .connection =>
            some ((s.record (.attempted loop.peer)).setLoop t { loop with pc := .ended })
        | .raised => some ((s.record (.attempted loop.peer)).attemptFailed policy t loop fresh)
        | .continue =>
            some ((s.record (.attempted loop.peer)).setLoop t { loop with pc := .locking })
        | .sessionGone => none
  | .locking =>
      match answer with
      | .continue =>
          some ((s.record (.attempted loop.peer)).setLoop t { loop with pc := .opening })
      | _ => s.loopConnected policy t loop fresh answer
  | .opening => s.loopConnected policy t loop fresh answer
  | .closing => some (s.attemptFailed policy t loop fresh)
  | .leaving => some (s.setLoop t { loop with pc := .ended })
  | .ended => none

end Node

open Node

/-- The tasks that `_stop_locked` gathers have ended. -/
def Node.gathered (s : Node P) : Prop :=
  ∀ t < s.nextLoop, ∀ loop ∈ s.loops t, s.reconnectTasks loop.peer = some t → loop.pc = .ended

instance (s : Node P) : Decidable s.gathered :=
  inferInstanceAs (Decidable (∀ t < s.nextLoop, ∀ loop ∈ s.loops t, _))

/-- One step of the node. -/
def step (policy : Policy) (s : Node P) : Label P → Option (Node P)
  | .start =>
      match s.lifecycle with
      | .idle => if s.running then none else some { s with running := true }
      | _ => none
  | .callStop => some ({ s with waitingStops := s.waitingStops + 1 }.record .stopped)
  | .beginStop =>
      match s.lifecycle, s.waitingStops with
      | .idle, n + 1 =>
          if s.running then some { s.beginStop none with waitingStops := n }
          else some { s with waitingStops := n }
      | _, _ => none
  | .refresh =>
      match s.lifecycle with
      | .idle =>
          if s.running then
            some (s.beginStop (some fun peer =>
              (s.canonical peer).isSome || (s.reconnectTasks peer).isSome))
          else none
      | _ => none
  | .clear =>
      match s.lifecycle with
      | .stopping none => if s.gathered then some (s.clear .idle) else none
      | .stopping (some peers) => if s.gathered then some (s.clear (.starting peers)) else none
      | _ => none
  | .restarted failed =>
      match s.lifecycle with
      | .starting peers =>
          if failed then some { s with lifecycle := .idle }
          else some { s with running := true, lifecycle := .discovering peers }
      | _ => none
  | .rediscovered found =>
      match s.lifecycle with
      | .discovering peers =>
          some { (found.map Prod.fst).foldl remember s |>.scheduleAll policy peers found with
            lifecycle := .idle }
      | _ => none
  | .discovered found => some (found.foldl remember s)
  | .connect peer =>
      if s.running then
        some ({ s with suppressed := Function.update s.suppressed peer false }.record
          (.connected peer))
      else none
  | .connectDone peer => some ((s.remember peer).cancelLoop peer)
  | .disconnect peer => some (s.disconnect peer)
  | .dropSession peer => some { s with canonical := Function.update s.canonical peer none }
  | .publish c peer =>
      some { s with
        canonical := Function.update s.canonical peer (some c)
        sessions := Function.update s.sessions c (some peer) }
  | .endReader c =>
      (s.sessions c).map fun peer =>
        { s.deactivate c peer with
          sessions := Function.update s.sessions c none
          endings := Function.update s.endings c (some (peer, s.canonical peer = some c)) }
  | .connectionEnded c removed fresh =>
      (s.endings c).map fun (peer, wasCanonical) =>
        let s := { s with endings := Function.update s.endings c none }
        if wasCanonical || removed then s.scheduleReconnect policy peer fresh else s
  | .resumeLoop t fresh answer =>
      (s.loops t).bind fun loop =>
        if loop.pc = .ended then none
        else if loop.cancelled then some (s.setLoop t { loop with pc := .ended })
        else s.resumeLoop policy t loop fresh answer
  | .loopFinished t =>
      (s.loops t).bind fun loop =>
        if loop.pc = .ended ∧ s.reconnectTasks loop.peer = some t then
          some { s with reconnectTasks := Function.update s.reconnectTasks loop.peer none }
        else none

/-- The runs of a node. -/
def system (policy : Policy) : System (Node P) (Label P) where
  init s := s = initial
  step := step policy

/-! ## The law of `disconnect` -/

/-- The event begins a reconnect of the peer. -/
def Event.reconnects (peer : P) : Event P → Bool
  | loopStarted p | attempted p => p = peer
  | _ => false

/-- What a call leaves of the wish not to be reconnected. -/
def Event.quiet (peer : P) (quiet : Bool) : Event P → Bool
  | disconnected p => p = peer || quiet
  | connected p => p ≠ peer && quiet
  | stopped => false
  | _ => quiet

/-- The last call about the peer is `disconnect`. -/
def quiet (peer : P) (log : List (Event P)) : Bool := log.foldl (Event.quiet peer) false

/-- **No reconnect between `disconnect(peer)` and the next `connect`, `send` or
`request` for it or `stop()`.** -/
def Suppresses (peer : P) (log : List (Event P)) : Prop :=
  ∀ before e after, log = before ++ e :: after → e.reconnects peer → quiet peer before = false

end Reconnect
end Core
end Paqto
