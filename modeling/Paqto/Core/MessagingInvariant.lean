/-
# The invariant of a messaging node

What holds in every state of every run: sessions in the tables and in the
readers are bound to their connection (`Bound`), a receipt has passed every
check of the reader (`Accepted`), entries of the two correlation tables belong
to calls that are not over, and a frame in an outbound queue is what its origin
says (`FrameFits`).

`Inv E free s` leaves out the task of the connection `free`, so that the parts
of one step of a reader can be composed; `E` is what is known about the frames
that the remote ends have sent.
-/

import Paqto.Core.Messaging
import Mathlib.Data.List.Infix

namespace Paqto
namespace Core
namespace Messaging

open Python Correlation

variable {F P : Type}

/-- What the node has checked before it publishes a session of a connection. -/
structure Bound (cfg : Config F P) (c : ℕ) (session : ProtocolSession F) : Prop where
  remote : session.peerId ≠ cfg.peerId
  expected : ∀ p, cfg.target c = some p → session.peerId = p
  authenticated : ∀ q, (cfg.securityInfo c).authenticatedPeerId = some q → q = session.peerId
  strict : cfg.requireAuthenticatedPeerIdMatch = true →
    (cfg.securityInfo c).authenticated = true ∧
      (cfg.securityInfo c).authenticatedPeerId = some session.peerId

/-- What is known about the frames of the other ends: application data that may
be read from a connection, calls whose ACK may be, and what this node has sent
so far. -/
structure Evidence where
  data : ℕ → Bytes → Prop
  ack : ℕ → ℕ → Prop
  sent : ℕ → List OutboundFrame

/-- What is known of a message that was accepted. -/
structure Accepted (cfg : Config F P) (E : Evidence) (receipt : Receipt F P) : Prop where
  bound : Bound cfg receipt.connection receipt.session
  data : E.data receipt.connection receipt.data
  deserialized : cfg.serializer.deserialize receipt.data = some receipt.message
  valid : validateIncomingMessage receipt.message = .ok ()
  sender : receipt.message.sender = .str receipt.session.peerId
  recipient : receipt.message.recipient = .none ∨ receipt.message.recipient = .str cfg.peerId
  acknowledged : receipt.outcome ≠ .undelivered →
    technicalAckCapability ∈ receipt.session.capabilities → receipt.ackQueued = true

/-- The receipt that a reader is working on. -/
structure Holds (receipts : ℕ → Option (Receipt F P)) (c : ℕ) (session : ProtocolSession F)
    (r : ℕ) (receipt : Receipt F P) : Prop where
  found : receipts r = some receipt
  connection : receipt.connection = c
  session : receipt.session = session
  undelivered : receipt.outcome = .undelivered

/-- A message passed on to the handlers. -/
def Dispatched (receipts : ℕ → Option (Receipt F P)) (r : ℕ) : Prop :=
  ∃ receipt, receipts r = some receipt ∧ receipt.outcome = .dispatched ∧
    receipt.message.replyTo = .none

/-- The receipt `r` is the reply to the request of call `k`. -/
def Answers (cfg : Config F P) (receipts : ℕ → Option (Receipt F P)) (k : ℕ)
    (call : Call F P) (r : ℕ) : Prop :=
  ∃ receipt, receipts r = some receipt ∧ receipt.outcome = .reply (some k) ∧
    receipt.message.replyTo = .str (cfg.messageId k) ∧
    call.connection = some receipt.connection ∧
    call.args.kind = .request receipt.session.peerId

/-- The ACK frame `a` completes the wait of a call. -/
structure Acknowledges (cfg : Config F P) (call : Call F P) (a : Arrival F) : Prop where
  bound : Bound cfg a.connection a.session
  connection : call.connection = some a.connection
  peer : ∃ session, call.session = some session ∧ session.peerId = a.session.peerId

variable [PyFloat F]

/-- What holds at each place of the task of a connection. -/
def TaskPc.Fits (cfg : Config F P) (receipts : ℕ → Option (Receipt F P)) (c : ℕ) :
    TaskPc F → Prop
  | absent | negotiating | ended => True
  | ready session | receiving session | pongQueued session => Bound cfg c session
  | ponging session frame =>
      Bound cfg c session ∧ ∃ id, encodePongFrame (F := F) id = .ok frame
  | acknowledging session r frame =>
      ∃ receipt, Holds receipts c session r receipt ∧ ∃ id,
        receipt.message.id.identifier = some id ∧
        encodeAcknowledgementFrame (F := F) id = .ok frame
  | ackQueued session r =>
      ∃ receipt, Holds receipts c session r receipt ∧ receipt.ackQueued = true
  | enqueueing session r =>
      ∃ receipt, Holds receipts c session r receipt ∧ receipt.message.replyTo = .none ∧
        (technicalAckCapability ∈ session.capabilities → receipt.ackQueued = true)

/-- What is known of a call. -/
structure CallFits (cfg : Config F P) (E : Evidence) (receipts : ℕ → Option (Receipt F P))
    (k : ℕ) (call : Call F P) : Prop where
  message : call.message = call.args.message cfg.peerId (cfg.messageId k)
  connecting : call.pc = .connecting → call.connection = none ∧ call.session = none
  early : call.pc = .connecting ∨ call.pc = .sending →
    call.frameQueued = false ∧ call.acked = false
  queueing : ∀ frame, call.pc = .queueing frame → ∃ data,
    cfg.serializer.serialize call.message = some data ∧ frame = applicationFrame :: data
  unavailable : ∀ session, call.session = some session → call.args.requireAck = some true →
    technicalAckCapability ∉ session.capabilities →
      call.frameQueued = false ∧
        (call.pc = .sending ∨ call.pc = .raised .acknowledgementUnavailable)
  returned : ∀ target reply, call.args.kind = .request target → call.pc = .returned reply →
    ∃ r, reply = some r ∧ Answers cfg receipts k call r
  acked : call.acked = true → ∃ a, Acknowledges cfg call a ∧ E.ack k a.connection

/-- An entry of a correlation table: its call is not over and uses the channel
of the entry. -/
def EntryFits (cfg : Config F P) (calls : ℕ → Option (Call F P))
    (e : Entry Str ℕ ℕ Str) : Prop :=
  e.key = cfg.messageId e.owner ∧ ∃ call, calls e.owner = some call ∧
    call.pc.isEnded = false ∧ call.connection = some e.channel

/-- A correlation of `request` belongs to its call. -/
def RequestFits (cfg : Config F P) (calls : ℕ → Option (Call F P))
    (e : Entry Str ℕ ℕ Str) : Prop :=
  EntryFits cfg calls e ∧ ∀ call, calls e.owner = some call → call.args.kind = .request e.peer

/-- A wait for an ACK belongs to its call. -/
def AcknowledgementFits (cfg : Config F P) (calls : ℕ → Option (Call F P))
    (e : Entry Str ℕ ℕ Str) : Prop :=
  EntryFits cfg calls e ∧ ∀ call, calls e.owner = some call →
    ∃ session, call.session = some session ∧ session.peerId = e.peer

/-- A reply answers the request of its call. -/
def ReplyFits (cfg : Config F P) (calls : ℕ → Option (Call F P))
    (receipts : ℕ → Option (Receipt F P)) (k r : ℕ) : Prop :=
  ∃ call, calls k = some call ∧ Answers cfg receipts k call r

/-- A result has arrived for its call. -/
def ArrivalFits (cfg : Config F P) (E : Evidence) (calls : ℕ → Option (Call F P)) (k : ℕ)
    (a : Arrival F) : Prop :=
  ∃ call, calls k = some call ∧ Acknowledges cfg call a ∧ E.ack k a.connection

/-- A frame is what its origin says. -/
def FrameFits (cfg : Config F P) (calls : ℕ → Option (Call F P))
    (receipts : ℕ → Option (Receipt F P)) (c : ℕ) (f : OutboundFrame) : Prop :=
  match f.origin with
  | .call k => ∃ call data, calls k = some call ∧ call.connection = some c ∧
      call.frameQueued = true ∧ cfg.serializer.serialize call.message = some data ∧
      f.data = applicationFrame :: data
  | .acknowledgement r => ∃ receipt id, receipts r = some receipt ∧ receipt.connection = c ∧
      receipt.ackQueued = true ∧ receipt.message.id.identifier = some id ∧
      encodeAcknowledgementFrame (F := F) id = .ok f.data
  | .heartbeat => ∃ id, encodePingFrame (F := F) id = .ok f.data ∨
      encodePongFrame (F := F) id = .ok f.data

/-- **The invariant.**  The task of the connection `free` is left out. -/
structure Inv (cfg : Config F P) (E : Evidence) (free : Option ℕ) (s : Node F P) : Prop where
  sessions : ∀ c ready, s.tables.ready c = some ready → Bound cfg c ready.session
  tasks : ∀ c, free ≠ some c → (s.tasks c).Fits cfg s.receipts c
  receipts : ∀ r receipt, s.receipts r = some receipt → Accepted cfg E receipt
  receiptsFresh : ∀ r, s.nextReceipt ≤ r → s.receipts r = none
  inbound : ∀ queue, s.inboundQueue = some queue → ∀ r ∈ queue, Dispatched s.receipts r
  handled : ∀ r ∈ s.handled, Dispatched s.receipts r
  calls : ∀ k call, s.calls k = some call → CallFits cfg E s.receipts k call
  callsFresh : ∀ k, s.nextCall ≤ k → s.calls k = none
  requests : s.requests.Sound (RequestFits cfg s.calls) (ReplyFits cfg s.calls s.receipts)
    cfg.maxPendingRequests
  acknowledgements : s.acknowledgements.Sound (AcknowledgementFits cfg s.calls)
    (ArrivalFits cfg E s.calls) cfg.maxPendingAcknowledgements
  frames : ∀ c f, f ∈ s.outbound c ∨ f ∈ s.sent c → FrameFits cfg s.calls s.receipts c f
  sent : ∀ c, E.sent c <+: s.sent c

variable {cfg : Config F P} {E : Evidence} {free : Option ℕ} {s : Node F P} {c k r : ℕ}

namespace Inv

/-- Nothing was received yet. -/
theorem initial : Inv cfg ⟨E.data, E.ack, fun _ => []⟩ none (initial : Node F P) where
  sessions := by simp [Messaging.initial, SessionTables.empty]
  tasks _ _ := trivial
  receipts := by simp [Messaging.initial]
  receiptsFresh _ _ := rfl
  inbound := by simp [Messaging.initial]
  handled := by simp [Messaging.initial]
  calls := by simp [Messaging.initial]
  callsFresh _ _ := rfl
  requests := .empty
  acknowledgements := .empty
  frames := by simp [Messaging.initial]
  sent _ := List.nil_prefix

/-- Knowing more about the remote ends. -/
theorem mono {E' : Evidence} (h : Inv cfg E free s) (hdata : ∀ c d, E.data c d → E'.data c d)
    (hack : ∀ k c, E.ack k c → E'.ack k c) (hsent : ∀ c, E'.sent c <+: s.sent c) :
    Inv cfg E' free s :=
  { h with
    receipts := fun r receipt hr =>
      let ha := h.receipts r receipt hr
      { ha with data := hdata _ _ ha.data }
    calls := fun k call hk =>
      let hc := h.calls k call hk
      { hc with
        acked := fun hacked =>
          let ⟨a, ha, he⟩ := hc.acked hacked
          ⟨a, ha, hack _ _ he⟩ }
    acknowledgements := h.acknowledgements.mono (fun _ _ he => he)
      fun _ _ _ ⟨call, hk, ha, he⟩ => ⟨call, hk, ha, hack _ _ he⟩
    sent := hsent }

/-- Leave a connection to the step that works on it. -/
theorem release (h : Inv cfg E none s) (c : ℕ) : Inv cfg E (some c) s :=
  { h with tasks := fun d _ => h.tasks d (by simp) }

/-! ## The tasks of connections -/

/-- A reader moves. -/
theorem setTask (h : Inv cfg E (some c) s) {pc : TaskPc F} (hpc : pc.Fits cfg s.receipts c) :
    Inv cfg E none (s.setTask c pc) :=
  { h with
    tasks := fun d _ => by
      by_cases hd : d = c
      · subst hd
        simpa [Node.setTask] using hpc
      · simpa [Node.setTask, hd] using h.tasks d (by simpa using Ne.symm hd) }

/-- A connection is retired. -/
theorem retire (h : Inv cfg E free s) (c : ℕ) : Inv cfg E free (s.retire c) :=
  { h with
    sessions := fun d ready hd => h.sessions d ready (SessionTables.ready_of_deactivateSession hd)
    requests := h.requests.failChannel c
    acknowledgements := h.acknowledgements.failChannel c }

/-- A session ends. -/
theorem endSession (h : Inv cfg E (some c) s) : Inv cfg E none (s.endSession c) :=
  (h.retire c).setTask trivial

/-- A reader goes on to its next frame. -/
theorem continueReading (h : Inv cfg E (some c) s) {session : ProtocolSession F}
    (hb : Bound cfg c session) : Inv cfg E none (s.continueReading c session) := by
  unfold Node.continueReading
  split
  · exact h.setTask hb
  · exact h.endSession

/-! ## Receipts -/

/-- A receipt is added, or the reader that holds it changes it. -/
theorem setReceipt (h : Inv cfg E (some c) s) {receipt : Receipt F P}
    (hold : ∀ old, s.receipts r = some old → old.connection = c ∧ old.outcome = .undelivered ∧
      receipt.message = old.message ∧ (old.ackQueued = true → receipt.ackQueued = true))
    (hc : receipt.connection = c) (hacc : Accepted cfg E receipt) (hr : r < s.nextReceipt) :
    Inv cfg E (some c) (s.setReceipt r receipt) := by
  have hdispatched : ∀ i, Dispatched s.receipts i →
      Dispatched (Function.update s.receipts r (some receipt)) i := by
    rintro i ⟨old, hi, ho, hreply⟩
    have hir : i ≠ r := by
      rintro rfl
      have := (hold old hi).2.1
      simp [ho] at this
    exact ⟨old, by simpa [hir] using hi, ho, hreply⟩
  have hanswers : ∀ k call i, Answers cfg s.receipts k call i →
      Answers cfg (Function.update s.receipts r (some receipt)) k call i := by
    rintro k call i ⟨old, hi, ho, hrest⟩
    have hir : i ≠ r := by
      rintro rfl
      have := (hold old hi).2.1
      simp [ho] at this
    exact ⟨old, by simpa [hir] using hi, ho, hrest⟩
  have hother : ∀ d, d ≠ c → ∀ session i old, Holds s.receipts d session i old →
      Holds (Function.update s.receipts r (some receipt)) d session i old := by
    intro d hd session i old hi
    have hir : i ≠ r := by
      rintro rfl
      exact hd (hi.connection ▸ (hold old hi.found).1)
    exact { hi with found := by simpa [hir] using hi.found }
  refine { h with
    tasks := fun d hd => ?_
    receipts := fun i old hi => ?_
    receiptsFresh := fun i hi => ?_
    inbound := fun queue hq i hi => hdispatched i (h.inbound queue hq i hi)
    handled := fun i hi => hdispatched i (h.handled i hi)
    calls := fun k call hk => ?_
    requests := h.requests.mono (fun _ _ he => he)
      fun _ i _ ⟨call, hk, ha⟩ => ⟨call, hk, hanswers _ call i ha⟩
    frames := fun d f hf => ?_ }
  · have hdc : d ≠ c := by simpa using Ne.symm hd
    have hfit := h.tasks d hd
    change ((s.tasks d).Fits cfg (Function.update s.receipts r (some receipt)) d)
    revert hfit
    cases s.tasks d with
    | acknowledging session i frame =>
        rintro ⟨old, hi, hrest⟩
        exact ⟨old, hother d hdc session i old hi, hrest⟩
    | ackQueued session i =>
        rintro ⟨old, hi, hrest⟩
        exact ⟨old, hother d hdc session i old hi, hrest⟩
    | enqueueing session i =>
        rintro ⟨old, hi, hrest⟩
        exact ⟨old, hother d hdc session i old hi, hrest⟩
    | _ => exact id
  · by_cases hir : i = r
    · subst hir
      simp only [Node.setReceipt, Function.update_self, Option.some.injEq] at hi
      exact hi ▸ hacc
    · exact h.receipts i old (by simpa [Node.setReceipt, hir] using hi)
  · have hir : i ≠ r := by
      have : s.nextReceipt ≤ i := hi
      omega
    simpa [Node.setReceipt, hir] using h.receiptsFresh i hi
  · have hfit := h.calls k call hk
    exact { hfit with
      returned := fun target reply ht hret =>
        let ⟨i, hi, ha⟩ := hfit.returned target reply ht hret
        ⟨i, hi, hanswers k call i ha⟩ }
  · have hfit := h.frames d f hf
    unfold FrameFits at hfit ⊢
    split at hfit
    · exact hfit
    · obtain ⟨old, id, hi, hconn, hack, hid, hframe⟩ := hfit
      rename_i i _
      by_cases hir : i = r
      · subst hir
        obtain ⟨hoc, _, hm, ha⟩ := hold old hi
        exact ⟨receipt, id, by simp [Node.setReceipt], by rw [hc, ← hoc, hconn], ha hack,
          hm ▸ hid, hframe⟩
      · exact ⟨old, id, by simpa [Node.setReceipt, hir] using hi, hconn, hack, hid, hframe⟩
    · exact hfit

/-- The reader that holds a receipt changes it. -/
theorem setHeld (h : Inv cfg E (some c) s) {session : ProtocolSession F}
    {old : Receipt F P} (hold : Holds s.receipts c session r old) (ackQueued : Bool)
    (outcome : Outcome) (hack : old.ackQueued = true → ackQueued = true)
    (hout : outcome ≠ .undelivered →
      technicalAckCapability ∈ old.session.capabilities → ackQueued = true) :
    Inv cfg E (some c) (s.setReceipt r { old with ackQueued, outcome }) := by
  have hacc := h.receipts r old hold.found
  have hlt : r < s.nextReceipt := by
    by_contra hge
    have := h.receiptsFresh r (by omega)
    rw [hold.found] at this
    cases this
  refine h.setReceipt (fun old' ho => ?_) hold.connection
    { hacc with acknowledged := hout } hlt
  obtain rfl : old = old' := Option.some.inj (hold.found ▸ ho)
  exact ⟨hold.connection, hold.undelivered, rfl, hack⟩

/-- `_resolve_reply` on a receipt whose ACK, if there is one, is queued. -/
theorem resolveReply (h : Inv cfg E (some c) s) {session : ProtocolSession F}
    {receipt : Receipt F P} (hold : Holds s.receipts c session r receipt)
    (hack : technicalAckCapability ∈ receipt.session.capabilities → receipt.ackQueued = true)
    {id : Identifier} (hid : receipt.message.replyTo.identifier = some id) :
    Inv cfg E (some c) (s.resolveReply r receipt id) := by
  have h' := h.setHeld hold receipt.ackQueued
    (.reply (s.requests.target id receipt.connection receipt.session.peerId))
    (fun h => h) (fun _ => hack)
  refine { h' with
    requests := h'.requests.resolve fun e _ he hkey hchannel hpeer htarget => ?_ }
  obtain ⟨⟨hk, call, hcall, _, hconn⟩, hkind⟩ := he
  refine ⟨call, hcall, _, Function.update_self .., ?_, ?_, ?_, ?_⟩
  · exact congrArg Outcome.reply htarget
  · rw [Attr.identifier_eq_some] at hid
    rw [hid, ← hkey, hk]
  · rw [hconn, hchannel]
  · rw [hkind call hcall, hpeer]

/-- `queue.put_nowait` -/
theorem putInbound (h : Inv cfg E (some c) s) {session : ProtocolSession F}
    {receipt : Receipt F P} (hold : Holds s.receipts c session r receipt)
    (hack : technicalAckCapability ∈ receipt.session.capabilities → receipt.ackQueued = true)
    (hreply : receipt.message.replyTo = .none) {queue : List ℕ}
    (hq : s.inboundQueue = some queue) :
    Inv cfg E (some c) (s.putInbound queue r receipt) := by
  have h' := h.setHeld hold receipt.ackQueued .dispatched (fun h => h) (fun _ => hack)
  refine { h' with inbound := fun queue' hq' i hi => ?_ }
  obtain rfl : queue ++ [r] = queue' := Option.some.inj hq'
  rcases List.mem_append.1 hi with hi | hi
  · exact h'.inbound queue hq i hi
  · obtain rfl := List.mem_singleton.1 hi
    exact ⟨_, Function.update_self .., rfl, hreply⟩

/-! ## The reader -/

/-- `_enqueue_dispatch` -/
theorem enqueueDispatch (h : Inv cfg E (some c) s) {session : ProtocolSession F}
    {receipt : Receipt F P} (hold : Holds s.receipts c session r receipt)
    (hack : technicalAckCapability ∈ receipt.session.capabilities → receipt.ackQueued = true)
    (hreply : receipt.message.replyTo = .none) (hb : Bound cfg c session) :
    Inv cfg E none (s.enqueueDispatch cfg c session r receipt) := by
  unfold Node.enqueueDispatch
  split
  · exact h.endSession
  · rename_i queue hq
    split
    · exact (h.putInbound hold hack hreply hq).continueReading hb
    · split
      · exact h.setTask ⟨receipt, hold, hreply, fun hcap => hack (hold.session ▸ hcap)⟩
      · exact h.endSession

/-- A reply is resolved, or a message goes on to the queue. -/
theorem deliver (h : Inv cfg E (some c) s) {session : ProtocolSession F}
    {receipt : Receipt F P} (hold : Holds s.receipts c session r receipt)
    (hack : technicalAckCapability ∈ receipt.session.capabilities → receipt.ackQueued = true) :
    Inv cfg E none (s.deliver cfg c session r receipt) := by
  have hacc := h.receipts r receipt hold.found
  have hb : Bound cfg c session := by
    have := hacc.bound
    rwa [hold.connection, hold.session] at this
  unfold Node.deliver
  split
  · rename_i id hid
    exact (h.resolveReply hold hack hid).continueReading hb
  · rename_i hid
    refine h.enqueueDispatch hold hack ?_ hb
    have hvalid : receipt.message.replyTo.isOptionalIdentifier = true :=
      validateIncomingMessage_ok.1 hacc.valid .replyTo
    simpa [Attr.isOptionalIdentifier, hid] using hvalid

/-- A message is accepted. -/
theorem accept (h : Inv cfg E none s) {session : ProtocolSession F} (hb : Bound cfg c session)
    {data : Bytes} {message : Message P} {id : Identifier} (hdata : E.data c data)
    (hdes : cfg.serializer.deserialize data = some message)
    (hvalid : validateIncomingMessage message = .ok ()) (hid : message.id.identifier = some id)
    (hsender : message.sender = .str session.peerId)
    (hrecipient : message.recipient = .none ∨ message.recipient = .str cfg.peerId) :
    Inv cfg E none (s.accept cfg c session data message id) := by
  have hnone := h.receiptsFresh s.nextReceipt le_rfl
  have h' : Inv cfg E (some c) ({ s with nextReceipt := s.nextReceipt + 1 }.setReceipt
      s.nextReceipt ⟨c, session, data, message, false, .undelivered⟩) := by
    have hbump : Inv cfg E (some c) { s with nextReceipt := s.nextReceipt + 1 } :=
      { h.release c with
        receiptsFresh := fun i hi => h.receiptsFresh i (Nat.le_trans (Nat.le_succ _) hi) }
    refine hbump.setReceipt (fun old ho => ?_) rfl
      ⟨hb, hdata, hdes, hvalid, hsender, hrecipient, fun ho => absurd rfl ho⟩ (Nat.lt_succ_self _)
    have : s.receipts s.nextReceipt = some old := ho
    rw [hnone] at this
    cases this
  have hold : Holds (Function.update s.receipts s.nextReceipt
      (some ⟨c, session, data, message, false, .undelivered⟩)) c session s.nextReceipt
      (⟨c, session, data, message, false, .undelivered⟩ : Receipt F P) :=
    ⟨Function.update_self .., rfl, rfl, rfl⟩
  unfold Node.accept
  dsimp only
  split
  · split
    · rename_i frame hframe
      exact h'.setTask ⟨_, hold, id, hid, hframe⟩
    · exact h'.endSession
  · rename_i hcap
    exact h'.deliver hold fun hc => absurd hc hcap

/-- An application frame is received. -/
theorem receiveApplication (h : Inv cfg E none s) {session : ProtocolSession F}
    (hb : Bound cfg c session) {data : Bytes} (hdata : E.data c data) :
    Inv cfg E none (s.receiveApplication cfg c session data) := by
  unfold Node.receiveApplication
  split
  · exact (h.release c).endSession
  · rename_i message hdes
    split
    · rename_i id hvalid hid
      split
      · exact (h.release c).endSession
      · rename_i hsender
        split
        · exact (h.release c).endSession
        · rename_i hrecipient
          refine h.accept hb hdata hdes hvalid hid (by simpa using hsender) ?_
          by_cases hn : message.recipient = .none
          · exact .inl hn
          · exact .inr (by simpa [hn] using hrecipient)
    · exact (h.release c).endSession

/-- An ACK is resolved. -/
theorem resolveAcknowledgement (h : Inv cfg E free s) {session : ProtocolSession F}
    (hb : Bound cfg c session) {id : Identifier}
    (hack : ∀ k call, s.calls k = some call → call.connection = some c →
      cfg.messageId k = id → E.ack k c) :
    Inv cfg E free (s.resolveAcknowledgement c session id) := by
  refine { h with
    acknowledgements := h.acknowledgements.resolve fun e _ he hkey hchannel hpeer _ => ?_ }
  obtain ⟨⟨hk, call, hcall, _, hconn⟩, hsession⟩ := he
  obtain ⟨found, hfound, hpeer'⟩ := hsession call hcall
  refine ⟨call, hcall, ⟨hb, hchannel ▸ hconn, found, hfound, hpeer'.trans hpeer⟩, ?_⟩
  exact hack e.owner call hcall (hchannel ▸ hconn) (Subtype.ext (hk ▸ hkey))

/-- **A frame is read.** -/
theorem receive (h : Inv cfg E none s) {session : ProtocolSession F} (hb : Bound cfg c session)
    {frame : Bytes}
    (hdata : ∀ data, decodeSessionFrame (F := F) frame session.maxMessageSize =
      .ok (.application data) → E.data c data)
    (hack : ∀ id, decodeSessionFrame (F := F) frame session.maxMessageSize =
      .ok (.acknowledgement id) → ∀ k call, s.calls k = some call → call.connection = some c →
        cfg.messageId k = id → E.ack k c) :
    Inv cfg E none (s.receive cfg c session frame) := by
  unfold Node.receive
  split
  · exact (h.release c).endSession
  · rename_i id hid
    split
    · exact (h.release c |>.resolveAcknowledgement hb (hack id hid)).continueReading hb
    · exact (h.release c).endSession
  · rename_i id hid
    split
    · split
      · rename_i pong hpong
        exact (h.release c).setTask ⟨hb, id, hpong⟩
      · exact (h.release c).endSession
    · exact (h.release c).endSession
  · split
    · exact (h.release c).continueReading hb
    · exact (h.release c).endSession
  · rename_i data hd
    exact h.receiveApplication hb (hdata data hd)

/-- A frame is queued. -/
theorem pushOutbound (h : Inv cfg E free s) {f : OutboundFrame}
    (hf : FrameFits cfg s.calls s.receipts c f) : Inv cfg E free (s.pushOutbound c f) := by
  refine { h with frames := fun d g hg => ?_ }
  by_cases hd : d = c
  · subst hd
    simp only [Node.pushOutbound, Function.update_self, List.mem_append, List.mem_singleton]
      at hg
    rcases hg with (hg | rfl) | hg
    · exact h.frames d g (.inl hg)
    · exact hf
    · exact h.frames d g (.inr hg)
  · exact h.frames d g (by simpa [Node.pushOutbound, hd] using hg)

/-- An ACK is queued. -/
theorem queueAck (h : Inv cfg E none s) {session : ProtocolSession F} {receipt : Receipt F P}
    {frame : Bytes} (hold : Holds s.receipts c session r receipt) {id : Identifier}
    (hid : receipt.message.id.identifier = some id)
    (hframe : encodeAcknowledgementFrame (F := F) id = .ok frame) :
    Inv cfg E none (s.queueAck c session r frame receipt) := by
  have h' := (h.release c).setHeld hold true receipt.outcome (fun _ => rfl)
    (fun ho => absurd hold.undelivered ho)
  have hpush := h'.pushOutbound (c := c) (f := ⟨frame, .acknowledgement r⟩)
    ⟨_, id, Function.update_self .., hold.connection, rfl, hid, hframe⟩
  exact hpush.setTask ⟨_, ⟨Function.update_self .., hold.connection, hold.session,
    hold.undelivered⟩, rfl⟩

/-! ## Sessions -/

/-- A session is published. -/
theorem publish (h : Inv cfg E none s) {session : ProtocolSession F}
    (hb : session.peerId ≠ cfg.peerId → Bound cfg c session) :
    Inv cfg E none (s.publish cfg c session) := by
  unfold Node.publish
  split
  · exact (h.release c).endSession
  · rename_i tables selection hsel
    obtain ⟨hself, hready⟩ := SessionTables.ready_of_selectReadyConnection hsel
    have h' : Inv cfg E none { s with tables } :=
      { h with
        sessions := fun d ready hd => by
          rcases hready d ready hd with hd | ⟨rfl, rfl⟩
          · exact h.sessions d ready hd
          · exact hb hself }
    split
    · have ht : Inv cfg E none ({ s with tables }.setTask c (.ready session)) :=
        (h'.release c).setTask (hb hself)
      dsimp only
      split
      · exact ht
      · exact ht.retire _
    · exact (h'.release c).endSession

/-- A session that `negotiate_protocol` returns passed the identity checks. -/
theorem bound_of_negotiate {exchange : Exchange} {session : ProtocolSession F}
    (h : negotiate cfg.offer (cfg.target c) (cfg.securityInfo c)
      cfg.requireAuthenticatedPeerIdMatch exchange = .ok session)
    (hself : session.peerId ≠ cfg.peerId) : Bound cfg c session := by
  obtain ⟨hexpected, hauth, hstrict⟩ := checkIdentity_ok.1 (negotiate_ok h)
  exact ⟨hself, fun p hp => (hexpected p hp).symm, hauth, hstrict⟩

/-- A handshake is over. -/
theorem negotiated (h : Inv cfg E none s) (exchange : Exchange) :
    Inv cfg E none (s.negotiated cfg c exchange) := by
  unfold Node.negotiated negotiateProtocol
  cases hn : negotiate cfg.offer (cfg.target c) (cfg.securityInfo c)
      cfg.requireAuthenticatedPeerIdMatch exchange with
  | ok session => exact h.publish (bound_of_negotiate hn)
  | error e =>
      have hclosed : Inv cfg E (some c)
          { s with isClosed := Function.update s.isClosed c true } := { h.release c with }
      exact hclosed.endSession

/-- A reader is started. -/
theorem startReader (h : Inv cfg E none s) {session : ProtocolSession F}
    (hb : Bound cfg c session) {t : Node F P} (ht : s.startReader cfg c session = some t) :
    Inv cfg E none t := by
  unfold Node.startReader at ht
  split at ht
  · obtain ⟨found, hfound, rfl⟩ := Option.map_eq_some_iff.1 ht
    obtain ⟨ready, hready, rfl⟩ := Option.map_eq_some_iff.1 hfound
    exact (h.release c).continueReading (h.sessions c ready hready)
  · split at ht <;> cases ht
    · exact (h.release c).continueReading hb
    · exact (h.release c).endSession

end Inv
end Messaging
end Core
end Paqto
