/-
# What callers see of a deadline

A call returns only if none of the deadlines that raise has expired in it; when it raises, the
error tells of the one that has (`tells_run`).

`Within P f` says that only deadlines of `P` expire in `f`: the waits of a reader, of a heartbeat
and of every clean-up are `Mild`.  `Strikes` is what holds of a wait whose branch raises, and
`Tells` of the calls around it, whose clean-ups may be cancelled.
-/

import Paqto.Core.Deadlines

namespace Paqto
namespace Core
namespace Deadlines

open Python Python.Computation

variable {r : Runtime} {α β : Type} {P : Deadline → Prop}

/-! ## Which deadlines have expired -/

/-- No other deadline has expired. -/
def Among (P : Deadline → Prop) (s : World) : Prop := ∀ w ∈ s.expired, P w

/-- No other deadline expires in the computation. -/
def Within (P : Deadline → Prop) (f : Call α) : Prop :=
  Spec (Among P) f (fun _ => Among P) fun _ => Among P

/-- A call may go on after the deadline. -/
def Deadline.Mild (w : Deadline) : Prop := w.raises = false

/-- The deadline is that of a handshake, or a call may go on after it. -/
def Deadline.OfHandshake (w : Deadline) : Prop := w.raises = true → w = .handshake

/-- The error goes back to the deadline. -/
def Exc.Strikes (e : Exc) (w : Deadline) : Prop := w.raises = true → e.cause = some w

/-- The computation returns after mild deadlines only, and raises after that of a handshake. -/
def Shakes (f : Call α) : Prop :=
  Spec (Among Deadline.Mild) f (fun _ => Among Deadline.Mild) fun _ => Among Deadline.OfHandshake

/-- What the computation raises goes back to the deadline that has expired in it. -/
def Strikes (f : Call α) : Prop :=
  Spec (Among Deadline.Mild) f (fun _ => Among Deadline.Mild) fun e => Among e.Strikes

/-- What the computation raises tells of the deadline that has expired in it. -/
def Tells (f : Call α) : Prop :=
  Spec (Among Deadline.Mild) f (fun _ => Among Deadline.Mild) fun e => Among e.Tells

/-- A mild deadline is one of those that may expire before a handshake fails. -/
theorem Deadline.Mild.ofHandshake {w : Deadline} (h : w.Mild) : w.OfHandshake := fun hraises =>
  absurd (h.symm.trans hraises) Bool.false_ne_true

/-- An error says nothing of a mild deadline. -/
theorem Deadline.Mild.strikes {w : Deadline} (h : w.Mild) (e : Exc) : e.Strikes w := fun hraises =>
  absurd (h.symm.trans hraises) Bool.false_ne_true

/-- Weaker conditions on the deadlines. -/
theorem Among.mono {Q : Deadline → Prop} {s : World} (h : Among P s) (hPQ : ∀ w, P w → Q w) :
    Among Q s :=
  fun w hw => hPQ w (h w hw)

/-- Where only mild deadlines expire, no error goes back to one that raises. -/
theorem Within.strikes {f : Call α} (h : Within Deadline.Mild f) : Strikes f :=
  h.mono (fun _ => id) (fun _ _ => id) fun e _ hs => hs.mono fun _ hw => hw.strikes e

/-- Where only mild deadlines expire, none of a handshake does. -/
theorem Within.shakes {f : Call α} (h : Within Deadline.Mild f) : Shakes f :=
  h.mono (fun _ => id) (fun _ _ => id) fun _ _ hs => hs.mono fun _ => Deadline.Mild.ofHandshake

/-- An error that goes back to a deadline tells of it. -/
theorem Strikes.tells {f : Call α} (h : Strikes f) : Tells f :=
  h.mono (fun _ => id) (fun _ _ => id) fun _ _ hs => hs.mono fun _ hw hraises =>
    Or.inr (Or.inl (hw hraises))

/-- Nothing need be told of a handshake. -/
theorem Shakes.tells {f : Call α} (h : Shakes f) : Tells f :=
  h.mono (fun _ => id) (fun _ _ => id) fun _ _ hs => hs.mono fun _ hw hraises =>
    Or.inl (hw hraises)

/-- Nothing need be told of a mild deadline. -/
theorem Within.tells {f : Call α} (h : Within Deadline.Mild f) : Tells f := h.strikes.tells

/-! ## Rules -/

/-- `return` -/
theorem within_pure (a : α) : Within P (pure a : Call α) := spec_pure fun _ => id

/-- An error lets no deadline expire. -/
theorem within_raise (e : Exc) : Within P (raise e : Call α) := spec_raise fun _ => id

/-- An error of its own. -/
theorem within_fail (c : ErrorClass) : Within P (fail c : Call α) := within_raise _

/-- A change of the shared state. -/
theorem within_update (f : Shared → Shared) : Within P (update f) := spec_modify fun _ => id

/-- One after the other. -/
theorem Within.bind {f : Call α} {g : α → Call β} (hf : Within P f) (hg : ∀ a, Within P (g a)) :
    Within P (f >>= g) :=
  spec_bind hf hg

/-- The state is read. -/
theorem Within.read {g : World → Call α} (hg : ∀ s, Within P (g s)) : Within P (read >>= g) :=
  spec_read fun s hs => hg s s hs

/-- `try`/`except` -/
theorem Within.handle {f : Call α} {handlers : Exc → Option (Call α)} (hf : Within P f)
    (hhandled : ∀ e h, handlers e = some h → Within P h) : Within P (handle f handlers) :=
  spec_handle hf hhandled fun _ _ _ => id

/-- A single `except` clause. -/
theorem Within.except {f : Call α} {b : Exc → Bool} {h : Exc → Call α} (hf : Within P f)
    (hh : ∀ e, Within P (h e)) :
    Within P (Computation.handle f fun e => if b e then some (h e) else none) := by
  refine hf.handle fun e g heq => ?_
  obtain ⟨-, ⟨⟩⟩ := Option.ite_none_right_eq_some.1 heq
  exact hh e

/-- `try`/`finally` -/
theorem Within.ensure {f : Call α} {cleanup : Call Unit} (hf : Within P f)
    (hcleanup : Within P cleanup) : Within P (ensure f cleanup) :=
  spec_ensure hf (fun _ => hcleanup) fun _ => hcleanup

/-- A wait without a deadline. -/
theorem within_perform (a : Await) : Within P (perform a) := by
  refine Within.bind (spec_modify fun _ => id) fun _ => ?_
  cases a.outcome with
  | returns => exact within_pure ()
  | raises c => exact within_raise _
  | cancelled w => exact within_raise _

/-- A wait that raises nothing but a cancellation. -/
theorem within_pause (p : Pause) : Within P (pause p) := within_perform p.1

/-- `if` -/
theorem within_runIf {b : Bool} {f : Call Unit} (h : Within P f) : Within P (runIf b f) := by
  cases b with
  | false => exact within_pure ()
  | true => exact h

/-- A check that may fail. -/
theorem within_check (c : Option ErrorClass) : Within P (check c) := by
  cases c with
  | none => exact within_pure ()
  | some c => exact within_fail c

/-- What is there only sometimes. -/
theorem within_elim {ι : Type} {f : ι → Call Unit} (hf : ∀ i, Within P (f i)) (i : Option ι) :
    Within P (i.elim (pure ()) f) := by
  cases i with
  | none => exact within_pure ()
  | some i => exact hf i

/-- One after the other. -/
theorem Shakes.bind {f : Call α} {g : α → Call β} (hf : Shakes f) (hg : ∀ a, Shakes (g a)) :
    Shakes (f >>= g) :=
  spec_bind hf hg

/-- One after the other. -/
theorem Strikes.bind {f : Call α} {g : α → Call β} (hf : Strikes f) (hg : ∀ a, Strikes (g a)) :
    Strikes (f >>= g) :=
  spec_bind hf hg

/-- One after the other. -/
theorem Tells.bind {f : Call α} {g : α → Call β} (hf : Tells f) (hg : ∀ a, Tells (g a)) :
    Tells (f >>= g) :=
  spec_bind hf hg

/-- `finally`, with a change of the shared state. -/
theorem Strikes.ensure_update {f : Call α} (hf : Strikes f) (g : Shared → Shared) :
    Strikes (ensure f (update g)) :=
  spec_ensure hf (fun _ => spec_modify fun _ => id) fun _ => spec_modify fun _ => id

/-- `finally`, with a change of the shared state. -/
theorem Tells.ensure_update {f : Call α} (hf : Tells f) (g : Shared → Shared) :
    Tells (ensure f (update g)) :=
  spec_ensure hf (fun _ => spec_modify fun _ => id) fun _ => spec_modify fun _ => id

/-- An error that is raised from another goes back to the same deadline. -/
theorem spec_failFrom {Q : α → World → Prop} (c : ErrorClass) (e : Exc) :
    Spec (Among e.Strikes) (failFrom c e : Call α) Q fun e => Among e.Strikes :=
  spec_raise fun _ => id

/-! ## Deadlines -/

/-- A deadline expires. -/
theorem spec_expire_within {Q : Deadline → Prop} {R : α → World → Prop} {w : Deadline}
    (hPQ : ∀ v, P v → Q v) (hw : Q w) :
    Spec (Among P) (expire r w : Call α) R fun _ => Among Q := by
  refine spec_bind (Q := fun _ => Among Q) (spec_modify fun s hs v hv => ?_) fun _ =>
    spec_raise fun _ => id
  obtain hv | hv := List.mem_append.1 hv
  · exact hPQ v (hs v hv)
  · rw [List.mem_singleton.1 hv]
    exact hw

/-- What a deadline raises goes back to it. -/
theorem strikes_expire (w : Deadline) : Strikes (expire r w : Call α) := by
  intro s hs v hv hraises
  obtain hv | hv := List.mem_append.1 hv
  · exact (hs v hv).strikes _ hraises
  · rw [List.mem_singleton.1 hv]
    rfl

/-- `asyncio.wait_for` lets its own deadline expire, and those of its body. -/
theorem Within.waitFor {Q : Deadline → Prop} {w : Deadline} {body : Call α} (hbody : Within P body)
    (timer : Timer) (hPQ : ∀ v, P v → Q v) (hw : Q w) :
    Spec (Among P) (waitFor r w timer body) (fun _ => Among P) fun _ => Among Q := by
  cases timer with
  | unlimited => exact hbody.mono (fun _ => id) (fun _ _ => id) fun _ _ hs => hs.mono hPQ
  | past => exact spec_expire_within hPQ hw
  | running =>
      refine spec_handle hbody (fun e h heq => ?_) fun _ _ _ hs => hs.mono hPQ
      obtain ⟨-, ⟨⟩⟩ := Option.ite_none_right_eq_some.1 heq
      exact spec_expire_within hPQ hw

/-- What leaves `asyncio.wait_for` goes back to the deadline that has expired. -/
theorem Strikes.waitFor {body : Call α} (hbody : Strikes body) (w : Deadline) (timer : Timer) :
    Strikes (waitFor r w timer body) := by
  cases timer with
  | unlimited => exact hbody
  | past => exact strikes_expire w
  | running =>
      refine spec_handle hbody (fun e h heq => ?_) fun _ _ _ => id
      obtain ⟨rfl, ⟨⟩⟩ := Option.ite_none_right_eq_some.1 heq
      refine (strikes_expire w).mono (fun s hs v hv => ?_) (fun _ _ => id) fun _ _ => id
      -- a cancelled body has let no deadline expire that raises
      cases hraises : v.raises with
      | false => exact hraises
      | true => cases hs v hv hraises

/-- **A wait under a deadline**, with the branch for it. -/
theorem Within.withDeadline {Q : Deadline → Prop} {w : Deadline} {timer : Timer} {body : Call α}
    {onExpiry : Exc → Call α} {otherwise : Exc → Option (Call α)} (hbody : Within P body)
    (hPQ : ∀ v, P v → Q v) (hw : Q w)
    (honExpiry : ∀ e, Spec (Among Q) (onExpiry e) (fun _ => Among P) fun _ => Among Q)
    (hotherwise : ∀ e h, otherwise e = some h →
      Spec (Among Q) h (fun _ => Among P) fun _ => Among Q) :
    Spec (Among P) (withDeadline r w timer body onExpiry otherwise) (fun _ => Among P)
      fun _ => Among Q := by
  refine spec_handle (hbody.waitFor timer hPQ hw) (fun e h heq => ?_) fun _ _ _ => id
  split at heq
  · cases heq
    exact spec_bind (Q := fun _ => Among Q) (spec_modify fun _ => id) fun _ => honExpiry e
  · exact hotherwise e h heq

/-- **A wait whose branch raises** from the expiry, and handles nothing else. -/
theorem Strikes.withDeadline {body : Call α} (hbody : Strikes body) (w : Deadline) (timer : Timer)
    (c : ErrorClass) : Strikes (withDeadline r w timer body (failFrom c) fun _ => none) := by
  refine spec_handle (hbody.waitFor w timer) (fun e h heq => ?_) fun _ _ _ => id
  obtain ⟨-, ⟨⟩⟩ := Option.ite_none_right_eq_some.1 heq
  exact spec_bind (Q := fun _ => Among e.Strikes) (spec_modify fun _ => id) fun _ =>
    spec_failFrom c e

/-! ## The connection -/

/-- `close` -/
theorem within_closeConnection (a : Await) : Within P (closeConnection a) := by
  refine Within.read fun s => (within_update _).bind fun _ => ?_
  split
  · exact within_pure ()
  · exact (within_perform a).except fun _ => within_pure ()

/-- "TCP connection closed …." -/
theorem within_connectionClosed (e : Exc) : Within P (connectionClosed e) :=
  (within_update _).bind fun _ => within_raise _

/-- `_read_exactly` -/
theorem within_readExactly (a : Await) : Within P (readExactly a) := by
  refine (within_perform a).handle fun e h heq => ?_
  split at heq
  · cases heq
    exact within_connectionClosed e
  · obtain ⟨-, ⟨⟩⟩ := Option.ite_none_right_eq_some.1 heq
    exact within_connectionClosed e

/-- `receive_frame` waits for a payload. -/
theorem within_receiveFrame (i : Receive) (hP : P .payload) : Within P (receiveFrame r i) := by
  refine (within_pause i.lock).bind fun _ => Within.read fun s => ?_
  split
  · exact within_fail _
  · refine (within_readExactly i.header).bind fun _ => ?_
    split
    · exact (within_closeConnection i.closing).bind fun _ => within_fail _
    · refine (within_readExactly i.payload).withDeadline (fun _ => id) hP (fun e => ?_) nofun
      exact (within_closeConnection i.closing).bind fun _ => within_raise _

/-- `send_frame` -/
theorem within_sendFrame (i : SendFrame) : Within P (sendFrame i) := by
  refine (within_pause i.lock).bind fun _ => Within.read fun s => ?_
  split
  · exact within_fail _
  · split
    · exact within_fail _
    · exact (within_perform i.drain).except within_connectionClosed

/-! ## The handshake -/

/-- The exchange of the hellos. -/
theorem shakes_exchangeHello (i : Handshake) : Shakes (exchangeHello r i) := by
  have hbody : Within Deadline.Mild (do sendFrame i.send; receiveFrame r i.receive) :=
    (within_sendFrame i.send).bind fun _ => within_receiveFrame i.receive rfl
  refine hbody.withDeadline (fun _ => Deadline.Mild.ofHandshake) (fun _ => rfl)
    (fun e => spec_raise fun _ => id) fun e h heq => ?_
  split at heq
  · cases heq
    exact spec_raise fun _ => id
  · obtain ⟨-, ⟨⟩⟩ := Option.ite_none_right_eq_some.1 heq
    exact spec_raise fun _ => id

/-- The clean-up after a failed handshake. -/
theorem within_closeAfterFailedHandshake (i : Handshake) :
    Within P (closeAfterFailedHandshake i) :=
  ((within_closeConnection i.closing).except fun _ => within_pure ()).bind fun _ =>
    within_pause i.shield

/-- `negotiate_protocol` -/
theorem shakes_negotiateProtocol (i : Handshake) : Shakes (negotiateProtocol r i) := by
  have hbody : Shakes (do exchangeHello r i; check i.verdict) :=
    (shakes_exchangeHello i).bind fun _ => (within_check i.verdict).shakes
  refine spec_handle hbody (fun e h heq => ?_) fun e s hnone => by cases hnone
  cases heq
  exact spec_bind (within_closeAfterFailedHandshake i) fun _ => spec_raise fun _ => id

/-! ## Outgoing connections -/

/-- `_prepare_outgoing_connection` -/
theorem shakes_prepareOutgoingConnection (i : Prepare) :
    Shakes (prepareOutgoingConnection r i) := by
  unfold prepareOutgoingConnection
  split
  · exact (within_fail _).shakes
  · have hbody : Shakes (do negotiateProtocol r i.handshake; perform i.selection) :=
      (shakes_negotiateProtocol i.handshake).bind fun _ => (within_perform i.selection).shakes
    refine spec_handle hbody (fun e h heq => ?_) fun e s hnone => by cases hnone
    cases heq
    exact spec_bind (Q := fun _ => Among Deadline.OfHandshake) (within_runIf (within_update _))
      fun _ => spec_raise fun _ => id

/-- The close of a writer, in `connect` of the transport. -/
theorem within_closeWriter (a : Await) : Within P (handle (perform a) fun e =>
    if e.isA [.connectionError, .osError, .runtimeError] then some (pure ()) else none) :=
  (within_perform a).except fun _ => within_pure ()

/-- `connect` of `LanTransport` -/
theorem strikes_transportConnect (i : TransportConnect) : Strikes (transportConnect r i) := by
  refine (within_runIf (within_fail _)).strikes.bind fun _ => Strikes.bind ?_ fun _ => ?_
  · refine spec_handle ((within_perform i.opening).strikes.waitFor .transport i.timer)
      (fun e h heq => ?_) fun _ _ _ => id
    split at heq
    · cases heq
      exact spec_raise fun _ => id
    · obtain ⟨-, ⟨⟩⟩ := Option.ite_none_right_eq_some.1 heq
      exact spec_failFrom _ e
  · refine Within.strikes ?_
    split
    · exact (within_closeWriter i.closing).bind fun _ => within_fail _
    · exact (within_check i.metadata).except fun e =>
        (within_closeWriter i.closing).bind fun _ => within_raise e

/-- A wait that raises nothing but a cancellation. -/
theorem spec_pause {P : World → Prop} (p : Pause)
    (hP : ∀ s, P s → P { s with shared := p.1.others.run s.shared }) :
    Spec P (pause p) (fun _ => P) fun e s => P s ∧ ∃ d, e = .cancelled d := by
  obtain ⟨a, ha⟩ := p
  refine spec_bind (Q := fun _ => P) (spec_modify hP) fun _ => ?_
  cases houtcome : a.outcome with
  | returns => exact spec_pure fun _ => id
  | raises c => exact absurd houtcome (ha c)
  | cancelled w => exact spec_raise fun _ hs => ⟨hs, w, rfl⟩

/-- The clean-up of `_open_connection` raises nothing but a cancellation. -/
theorem spec_openCleanup (i : Open) : Spec (Among P) (do
      let s ← read
      runIf (!s.succeeded && s.opened && !s.shared.closed)
        (handle (closeConnection i.closing) fun _ => some (pure ()))
      pause i.cleanupLock) (fun _ => Among P) fun e => Among (Exc.Tells e) := by
  have hclose : Spec (Among P) (handle (closeConnection i.closing) fun _ => some (pure ()))
      (fun _ => Among P) fun e => Among (Exc.Tells e) := by
    refine spec_handle (within_closeConnection i.closing) (fun e h heq => ?_)
      fun e s hnone => by cases hnone
    cases heq
    exact within_pure ()
  have hpause : Spec (Among P) (pause i.cleanupLock) (fun _ => Among P)
      fun e => Among (Exc.Tells e) := by
    refine (spec_pause i.cleanupLock fun _ => id).mono (fun _ => id) (fun _ _ => id) ?_
    rintro e s ⟨-, d, rfl⟩ w - -
    exact Or.inr (Or.inr ⟨d, rfl⟩)
  have hrest : ∀ b : Bool, Spec (Among P) (do
      runIf b (handle (closeConnection i.closing) fun _ => some (pure ()))
      pause i.cleanupLock) (fun _ => Among P) fun e => Among (Exc.Tells e) := by
    refine fun b => spec_bind (Q := fun _ => Among P) ?_ fun _ => hpause
    cases b with
    | false => exact spec_pure fun _ => id
    | true => exact hclose
  exact spec_read fun s hs => hrest _ s hs

/-- `_open_connection` -/
theorem tells_openConnection (i : Open) : Tells (openConnection r i) := by
  refine spec_ensure (G := fun _ => Among Deadline.Mild) (F := fun e => Among (Exc.Tells e)) ?_
    (fun _ => spec_openCleanup i) fun _ => spec_openCleanup i
  refine ((strikes_transportConnect i.connect).withDeadline _ _ _).tells.bind fun _ => ?_
  refine Tells.bind (spec_modify fun _ => id) fun _ => Tells.bind ?_ fun _ => Within.tells ?_
  · cases i.prepare with
    | none => exact (within_pure ()).tells
    | some prepare => exact (shakes_prepareOutgoingConnection prepare).tells
  · refine (within_elim within_closeConnection i.replaced).bind fun _ => ?_
    refine (within_pause i.lock).bind fun _ => ?_
    split
    · exact within_fail _
    · exact (within_elim within_perform i.previous).bind fun _ => spec_modify fun _ => id

/-- `connect` -/
theorem tells_connect (i : Connecting) : Tells (connect r i) := by
  refine (within_check i.refused).tells.bind fun _ => ?_
  split
  · exact (within_pure ()).tells
  · refine (within_pause i.lock).tells.bind fun _ => (tells_openConnection i.opening).bind fun _ => ?_
    refine ((within_pause i.waiter).bind fun _ => within_elim (fun a => ?_) i.orphan).tells
    exact (within_perform a).bind fun _ => within_fail _

/-! ## Messages -/

/-- `_queue_frame` -/
theorem within_queueFrame (i : Queue) : Within P (queueFrame i) := by
  unfold queueFrame
  split
  · exact within_fail _
  · split
    · exact within_fail _
    · exact (within_pause i.put).bind fun _ => within_perform i.sent

/-- `_send_message` -/
theorem strikes_sendMessage (i : Sending) : Strikes (sendMessage r i) := by
  refine (within_check i.refused).strikes.bind fun _ => ?_
  refine (within_update _).strikes.bind fun _ => Strikes.ensure_update ?_ _
  refine ((within_queueFrame i.queue).strikes.withDeadline _ _ _).bind fun _ => ?_
  unfold runIf
  split
  · exact (within_perform i.acknowledgement).strikes.withDeadline _ _ _
  · exact (within_pure ()).strikes

/-- `request` -/
theorem tells_request (i : Requesting) : Tells (request r i) := by
  refine (tells_connect i.connecting).bind fun _ => (within_check i.refused).tells.bind fun _ => ?_
  refine (within_update _).tells.bind fun _ => Tells.ensure_update ?_ _
  refine (strikes_sendMessage i.sending).tells.bind fun _ => Strikes.tells ?_
  exact (within_perform i.reply).strikes.withDeadline _ _ _

/-- `discover` -/
theorem strikes_discover (i : Discovering) : Strikes (discover r i) := by
  refine (within_check i.refused).strikes.bind fun _ => Strikes.bind ?_ fun _ =>
    (within_runIf (within_fail _)).strikes
  exact (within_perform i.discovery).strikes.withDeadline _ _ _

/-! ## The tasks of the node -/

/-- The loop of a reader. -/
theorem within_readLoop (turns : List Turn) : Within Deadline.Mild (readLoop r turns) := by
  induction turns with
  | nil => exact within_pure ()
  | cons i turns ih =>
      refine Within.read fun s => ?_
      split
      · exact within_pure ()
      · refine Within.bind ?_ fun _ => (within_perform i.processing).bind fun _ => ih
        exact (within_receiveFrame (P := Deadline.Mild) i.receive rfl).withDeadline (fun _ => id)
          rfl (fun e => within_raise _) fun e h heq => by cases heq

/-- `_connection_ended` -/
theorem within_connectionEnded (i : Ended) : Within P (connectionEnded i) := by
  refine (within_update _).bind fun _ => (within_pause i.heartbeat).bind fun _ => ?_
  refine (within_pause i.outbound).bind fun _ => (within_pause i.lost).bind fun _ => ?_
  exact within_closeConnection i.closing

/-- `_read_connection` -/
theorem within_readConnection (turns : List Turn) (ended : Ended) :
    Within Deadline.Mild (readConnection r turns ended) := by
  refine Within.ensure ((within_readLoop turns).handle fun e h heq => ?_)
    (within_connectionEnded ended)
  split at heq
  · cases heq
    exact within_pure ()
  split at heq
  · cases heq
    exact within_pure ()
  split at heq
  · cases heq
    exact within_update _
  split at heq
  · cases heq
    exact within_update _
  · obtain ⟨-, ⟨⟩⟩ := Option.ite_none_right_eq_some.1 heq
    exact within_update _

/-- `_run_incoming_connection` -/
theorem shakes_runIncomingConnection (i : Incoming) : Shakes (runIncomingConnection r i) := by
  refine spec_ensure (G := fun _ => Among Deadline.Mild)
    (F := fun _ => Among Deadline.OfHandshake) ?_ (fun _ => Within.shakes ?_) fun e => ?_
  · refine Shakes.bind ?_ fun _ => Within.shakes ?_
    · refine spec_handle (shakes_negotiateProtocol i.handshake) (fun e h heq => ?_)
        fun _ _ _ => id
      have hreport : Spec (Among Deadline.OfHandshake) (do report e; raise e : Call Unit)
          (fun _ => Among Deadline.Mild) fun _ => Among Deadline.OfHandshake :=
        spec_bind (Q := fun _ => Among Deadline.OfHandshake) (spec_modify fun _ => id) fun _ =>
          spec_raise fun _ => id
      split at heq
      · cases heq
        exact spec_raise fun _ => id
      split at heq
      · cases heq
        exact hreport
      · obtain ⟨-, ⟨⟩⟩ := Option.ite_none_right_eq_some.1 heq
        exact hreport
    · refine (within_perform i.selection).bind fun _ => ?_
      split
      · exact Within.bind (spec_modify fun _ => id) fun _ =>
          within_readConnection i.turns i.ended
      · exact within_pure ()
  · exact Within.read fun s => within_runIf (within_closeConnection i.closing)
  · exact Within.read fun s => within_runIf (within_closeConnection i.closing)

/-- One PING of the heartbeat loop. -/
theorem within_ping (i : Beat) : Within Deadline.Mild (ping r i) := by
  refine (within_update _).bind fun _ => Within.ensure ?_ (within_update _)
  refine (within_queueFrame i.queue).bind fun _ => ?_
  have hpong : Within Deadline.Mild (do perform i.pong; pure true) :=
    (within_perform i.pong).bind fun _ => within_pure true
  exact hpong.withDeadline (fun _ => id) rfl
    (fun e => (within_closeConnection i.closing).bind fun _ => within_pure false) nofun

/-- `_heartbeat_loop` -/
theorem within_heartbeatLoop (beats : List Beat) :
    Within Deadline.Mild (heartbeatLoop r beats) := by
  induction beats with
  | nil => exact within_pure ()
  | cons i beats ih =>
      refine Within.read fun s => ?_
      split
      · exact within_pure ()
      · refine (within_pause i.sleep).bind fun _ => Within.read fun s => ?_
        split
        · exact within_pure ()
        · split
          · exact ih
          · refine (within_ping i).bind fun goesOn => ?_
            split
            · exact ih
            · exact within_pure ()

/-! ## Every call -/

/-- **What a call raises tells of the deadline that has expired in it**, and a call in which one
has expired that raises does not return. -/
theorem tells_run (entry : Entry) : Tells (entry.run r) := by
  cases entry with
  | receiveFrame i => exact (within_receiveFrame (P := Deadline.Mild) i rfl).tells
  | negotiateProtocol i => exact (shakes_negotiateProtocol i).tells
  | connect i => exact tells_connect i
  | send i j => exact (tells_connect i).bind fun _ => (strikes_sendMessage j).tells
  | sendMessage i => exact (strikes_sendMessage i).tells
  | request i => exact tells_request i
  | discover i => exact (strikes_discover i).tells
  | readConnection turns ended => exact (within_readConnection turns ended).tells
  | runIncomingConnection i => exact (shakes_runIncomingConnection i).tells
  | heartbeatLoop beats => exact (within_heartbeatLoop beats).tells

/-- In a call in which such a deadline has expired, its caller is told. -/
theorem exists_tells {entry : Entry} {shared : Shared} {w : Deadline}
    (hw : w ∈ (entry.run r (World.start shared)).2.expired) (hraises : w.raises = true) :
    ∃ e, (entry.run r (World.start shared)).1 = .error e ∧ e.Tells w := by
  have hrun := tells_run (r := r) entry (World.start shared) fun v hv => by cases hv
  generalize entry.run r (World.start shared) = o at hrun hw
  obtain ⟨result, t⟩ := o
  cases result with
  | ok a => exact absurd ((hrun w hw).symm.trans hraises) Bool.false_ne_true
  | error e => exact ⟨e, rfl, hrun w hw⟩

end Deadlines
end Core
end Paqto
