/-
# Technical acknowledgements between two nodes

Two nodes with any number of connections between them (`shared`), each a
reliable FIFO channel, and any other connections, whose remote ends send
anything.  A call whose wait for the ACK ends normally has been received by the
other node, which deserialized and validated it and matched its sender and
recipient before (`acknowledgement_means_receipt`).
-/

import Paqto.Core.AckDuplex
import Paqto.Core.MessagingSteps
import Paqto.Core.Negotiation

namespace Paqto
namespace Core
namespace Messaging

open Transition Python Correlation
open AckDuplex (Side)

variable {F P : Type} [PyFloat F]

/-! ## One node -/

section node

variable {cfg : Config F P} {E : Evidence} {s t : Node F P}

/-- No call is between two suspensions. -/
def Node.Settled (s : Node F P) : Prop := ∀ k call, s.calls k = some call → call.pc ≠ .sending

/-- **Every step keeps what is settled.** -/
theorem settled_step (h : s.Settled) {l : Label P} (hs : step cfg s l = some t) : t.Settled := by
  intro k call hk
  rcases step_effect hs with hreader | ⟨c, session, r, frame, receipt, _, _, rfl⟩ | ⟨i, hcall⟩ |
    ⟨args, rfl⟩
  · exact h k call (hreader.calls ▸ hk)
  · exact h k call hk
  · by_cases hki : k = i
    · subst hki
      exact hcall.settled call hk
    · exact h k call (hcall.calls k hki ▸ hk)
  · by_cases hn : k = s.nextCall
    · subst hn
      simp only [Node.startCall, Node.setCall, Function.update_self, Option.some.injEq] at hk
      subst hk
      unfold Node.checkArgs
      intro hpc
      split at hpc
      · split at hpc
        · split at hpc <;> cases hpc
        · cases hpc
      · cases hpc
    · exact h k call (by simpa [Node.startCall, Node.setCall, hn] using hk)

/-- The part of the ACK contract that one node keeps alone. -/
structure Node.KeepsAckContract (cfg : Config F P) (s : Node F P) : Prop where
  /-- Without the capability nothing of the message is queued. -/
  unavailable : ∀ k call session, s.calls k = some call → call.session = some session →
    call.args.requireAck = some true → technicalAckCapability ∉ session.capabilities →
      call.pc = .raised .acknowledgementUnavailable ∧
        ∀ c f, f ∈ s.outbound c ∨ f ∈ s.sent c → f.origin ≠ .call k
  bounded : s.acknowledgements.entries.length ≤ cfg.maxPendingAcknowledgements
  cleared : ∀ k call, s.calls k = some call → call.pc.isEnded = true →
    ∀ e ∈ s.acknowledgements.entries, e.key ≠ cfg.messageId k

/-- The contract of ACKs. -/
theorem keepsAckContract_of_inv (h : Inv cfg E none s) (hset : s.Settled) :
    s.KeepsAckContract cfg where
  unavailable k call session hk hs hr hcap := by
    obtain ⟨hqueued, hpc⟩ := (h.calls k call hk).unavailable session hs hr hcap
    refine ⟨hpc.resolve_left (hset k call hk), fun c f hf ho => ?_⟩
    have hfit := h.frames c f hf
    unfold FrameFits at hfit
    rw [ho] at hfit
    obtain ⟨found, _, hfound, _, hq, _⟩ := hfit
    rw [hk] at hfound
    cases hfound
    rw [hqueued] at hq
    cases hq
  bounded := h.acknowledgements.bound
  cleared k call hk hend e he hkey := by
    obtain ⟨hentry, _⟩ := h.acknowledgements.entry e he
    obtain ⟨found, hfound, hlive, _⟩ := hentry.2
    rw [(Inv.owner_iff hentry).2 hkey, hk] at hfound
    cases hfound
    rw [hend] at hlive
    cases hlive

/-- A message that is dispatched or resolved as a reply after a step had its
ACK queued before it, if the session has ACKs. -/
def AckedBefore (s t : Node F P) : Prop :=
  ∀ r receipt, t.receipts r = some receipt → receipt.outcome ≠ .undelivered →
    technicalAckCapability ∈ receipt.session.capabilities →
      ∃ old, s.receipts r = some old ∧ old.ackQueued = true

/-- An ACK comes after its message. -/
theorem ackedBefore_step {E' : Evidence} (h : Inv cfg E none s) (h' : Inv cfg E' none t)
    {l : Label P}
    (hs : step cfg s l = some t) : AckedBefore s t := by
  intro r receipt hr hout hcap
  have hack := (h'.receipts r receipt hr).acknowledged hout hcap
  rcases step_effect hs with hreader | ⟨c, session, i, frame, old, hpc, hi, rfl⟩ | ⟨k, hcall⟩ |
    ⟨args, rfl⟩
  · exact hreader.acks r receipt hr hack
  · by_cases hri : r = i
    · subst hri
      have hfit := h.tasks c (by simp)
      rw [hpc] at hfit
      obtain ⟨held, hold, _⟩ := hfit
      obtain rfl : held = old := Option.some.inj (hold.found ▸ hi)
      have heq : Function.update s.receipts r (some { held with ackQueued := true }) r =
        some receipt := hr
      rw [Function.update_self, Option.some.injEq] at heq
      subst heq
      exact absurd hold.undelivered hout
    · have heq : Function.update s.receipts i (some { old with ackQueued := true }) r =
        some receipt := hr
      rw [Function.update_of_ne hri] at heq
      exact ⟨receipt, heq, hack⟩
  · exact ⟨receipt, hcall.receipts ▸ hr, hack⟩
  · exact ⟨receipt, hr, hack⟩

/-- A handshake that succeeds. -/
theorem negotiated_eq {c : ℕ} {exchange : Exchange} {session : ProtocolSession F}
    (h : negotiateProtocol cfg.offer (cfg.target c) (cfg.securityInfo c)
      cfg.requireAuthenticatedPeerIdMatch exchange = ⟨.ok session, false⟩) :
    s.negotiated cfg c exchange = s.publish cfg c session := by
  unfold Node.negotiated
  rw [h]

/-- A message that asks for an ACK is acknowledged first. -/
theorem accept_eq (cfg : Config F P) (session : ProtocolSession F) {c : ℕ} {data : Bytes}
    {message : Message P} {id : Identifier} {frame : Bytes}
    (hcap : technicalAckCapability ∈ session.capabilities)
    (h : encodeAcknowledgementFrame (F := F) id = .ok frame) :
    s.accept cfg c session data message id =
      ({ s with nextReceipt := s.nextReceipt + 1 }.setReceipt s.nextReceipt
        ⟨c, session, data, message, false, .undelivered⟩).setTask c
          (.acknowledging session s.nextReceipt frame) := by
  unfold Node.accept
  rw [h]
  simp only [hcap, if_true]

/-- An ACK is received. -/
theorem receive_acknowledgement (cfg : Config F P) (session : ProtocolSession F) {c : ℕ} {frame : Bytes} {id : Identifier}
    (hcap : technicalAckCapability ∈ session.capabilities)
    (h : decodeSessionFrame (F := F) frame session.maxMessageSize = .ok (.acknowledgement id)) :
    s.receive cfg c session frame =
      (s.resolveAcknowledgement c session id).continueReading c session := by
  unfold Node.receive
  rw [h]
  simp only [hcap, if_true]

end node

/-! ## Two nodes -/

/-- Two nodes, and the connections between them. -/
structure PairConfig (F P : Type) where
  nodes : Side → Config F P
  shared : ℕ → Bool

/-- The nodes, and how many frames each has read from each connection. -/
structure Pair (F P : Type) where
  nodes : Side → Node F P
  consumed : Side → ℕ → ℕ

/-- A frame read from a shared connection is the next one that the other node
has sent. -/
def Pair.delivers (cfg : PairConfig F P) (p : Pair F P) (x : Side) (c : ℕ) (frame : Bytes) :
    Bool :=
  !cfg.shared c || ((p.nodes x.other).sent c)[p.consumed x c]?.any (·.data = frame)

/-- A step of one of the nodes. -/
def pairStep (cfg : PairConfig F P) (p : Pair F P) : Side × Label P → Option (Pair F P)
  | (x, .receive c frame) =>
      if p.delivers cfg x c frame then
        (step (cfg.nodes x) (p.nodes x) (.receive c frame)).map fun n =>
          { nodes := Function.update p.nodes x n
            consumed := Function.update p.consumed x
              (Function.update (p.consumed x) c (p.consumed x c + 1)) }
      else none
  | (x, l) =>
      (step (cfg.nodes x) (p.nodes x) l).map fun n =>
        { p with nodes := Function.update p.nodes x n }

/-- The runs of the two nodes. -/
def pairSystem (cfg : PairConfig F P) : System (Pair F P) (Side × Label P) where
  init p := p = ⟨fun _ => initial, fun _ _ => 0⟩
  step := pairStep cfg

variable {cfg : PairConfig F P} {p q : Pair F P}

/-- **What a step of a pair does.** -/
theorem pairStep_spec {x : Side} {l : Label P} (h : pairStep cfg p (x, l) = some q) :
    ∃ n, step (cfg.nodes x) (p.nodes x) l = some n ∧ q.nodes = Function.update p.nodes x n ∧
      ∀ c frame, l = .receive c frame → p.delivers cfg x c frame = true := by
  unfold pairStep at h
  split at h
  · rename_i x' c frame heq
    obtain ⟨rfl, rfl⟩ := Prod.mk.inj heq
    split at h
    · obtain ⟨n, hn, rfl⟩ := Option.map_eq_some_iff.1 h
      refine ⟨n, hn, rfl, fun c' frame' hl => ?_⟩
      cases hl
      assumption
    · cases h
  · rename_i x' l' hl heq
    obtain ⟨rfl, rfl⟩ := Prod.mk.inj heq
    obtain ⟨n, hn, rfl⟩ := Option.map_eq_some_iff.1 h
    exact ⟨n, hn, rfl, fun c frame hrec => absurd hrec (hl c frame)⟩

/-- What the frames that the other node has sent let a node read. -/
def Pair.evidence (cfg : PairConfig F P) (p : Pair F P) (x : Side) : Evidence where
  data c data := cfg.shared c = true →
    ∃ f ∈ (p.nodes x.other).sent c, f.data = applicationFrame :: data
  ack k c := cfg.shared c = true → ∃ f ∈ (p.nodes x.other).sent c, ∃ limit,
    decodeSessionFrame (F := F) f.data limit = .ok (.acknowledgement ((cfg.nodes x).messageId k))
  sent := (p.nodes x).sent

/-- Both nodes keep the invariant, each told by what the other has sent. -/
structure Pair.Inv (cfg : PairConfig F P) (p : Pair F P) : Prop where
  nodes : ∀ x, Messaging.Inv (cfg.nodes x) (p.evidence cfg x) none (p.nodes x)
  settled : ∀ x, (p.nodes x).Settled

/-- What a shared connection delivers covers what the step reads. -/
theorem covers_of_delivers {x : Side} {l : Label P}
    (h : ∀ c frame, l = .receive c frame → p.delivers cfg x c frame = true) :
    Covers (cfg.nodes x) (p.evidence cfg x) (p.nodes x) l := by
  have hsent : ∀ c frame, l = .receive c frame → cfg.shared c = true →
      ∃ f ∈ (p.nodes x.other).sent c, f.data = frame := by
    intro c frame hl hc
    have hd := h c frame hl
    rw [Pair.delivers, hc, Bool.not_true, Bool.false_or, Option.any_eq_true] at hd
    obtain ⟨f, hf, hdata⟩ := hd
    exact ⟨f, List.mem_of_getElem? hf, by simpa using hdata⟩
  refine ⟨fun c frame limit data hl hdec hc => ?_, fun c frame limit id hl hdec k _ _ _ hid hc => ?_⟩
  · obtain ⟨f, hf, rfl⟩ := hsent c frame hl hc
    exact ⟨f, hf, eq_of_decodeSessionFrame_application hdec⟩
  · obtain ⟨f, hf, rfl⟩ := hsent c frame hl hc
    exact ⟨f, hf, limit, hid ▸ hdec⟩

/-- **One step of either node keeps the invariant of both.** -/
theorem pairInv_step (h : p.Inv cfg) {x : Side} {l : Label P}
    (hs : pairStep cfg p (x, l) = some q) : q.Inv cfg := by
  obtain ⟨n, hn, hq, hdelivers⟩ := pairStep_spec hs
  have hinv := inv_step (h.nodes x) hn (covers_of_delivers hdelivers)
  have hself : q.nodes x = n := by rw [hq, Function.update_self]
  have hother : ∀ y, y ≠ x → q.nodes y = p.nodes y := fun y hy => by
    rw [hq, Function.update_of_ne hy]
  have hxo : q.nodes x.other = p.nodes x.other := hother _ x.other_ne
  refine ⟨Side.forall_of x ?_ ?_, Side.forall_of x ?_ ?_⟩
  · rw [hself]
    refine hinv.mono (fun c d hd hc => ?_) (fun k c hk hc => ?_) fun c => ?_
    · rw [hxo]
      exact hd hc
    · rw [hxo]
      exact hk hc
    · rw [Pair.evidence, hself]
  · rw [hxo]
    -- the other node may have read what node `x` had sent, and that is still there
    refine (h.nodes x.other).mono (fun c d hd hc => ?_) (fun k c hk hc => ?_) fun c => ?_
    · obtain ⟨f, hf, hdata⟩ := hd hc
      rw [Side.other_other] at hf ⊢
      rw [hself]
      exact ⟨f, (hinv.sent c).subset hf, hdata⟩
    · obtain ⟨f, hf, hdata⟩ := hk hc
      rw [Side.other_other] at hf ⊢
      rw [hself]
      exact ⟨f, (hinv.sent c).subset hf, hdata⟩
    · rw [Pair.evidence, hxo]
  · rw [hself]
    exact settled_step (h.settled x) hn
  · rw [hxo]
    exact h.settled _

/-- **The invariant of the pair in every run.** -/
theorem pairInv_of_reachable (h : Reachable (pairSystem cfg) p) : p.Inv cfg := by
  refine h.invariant (I := fun p => p.Inv cfg) ?_ fun p l q hI hs => pairInv_step hI hs
  rintro _ rfl
  refine ⟨fun x => ?_, fun x k call hk => ?_⟩
  · exact Messaging.Inv.initial (E := Pair.evidence cfg ⟨fun _ => initial, fun _ _ => 0⟩ x)
  · cases hk

/-- The other node has received the message of a call over `c`, found nothing
wrong with it and queued its ACK. -/
def Pair.Received (cfg : PairConfig F P) (p : Pair F P) (x : Side) (call : Call F P) (c : ℕ) :
    Prop :=
  ∃ r receipt, (p.nodes x.other).receipts r = some receipt ∧ receipt.connection = c ∧
    (cfg.nodes x).serializer.serialize call.message = some receipt.data ∧
    (cfg.nodes x.other).serializer.deserialize receipt.data = some receipt.message ∧
    validateIncomingMessage receipt.message = .ok () ∧
    receipt.message.sender = .str receipt.session.peerId ∧
    (receipt.message.recipient = .none ∨
      receipt.message.recipient = .str (cfg.nodes x.other).peerId) ∧
    receipt.ackQueued = true

/-- What an ACK frame in the log of a node says. -/
theorem receipt_of_ack {cfg : Config F P} {E : Evidence} {s : Node F P} (h : Inv cfg E none s)
    {c : ℕ} {f : OutboundFrame} (hf : f ∈ s.sent c) {limit : ℤ} {id : Identifier}
    (hdec : decodeSessionFrame (F := F) f.data limit = .ok (.acknowledgement id)) :
    ∃ r receipt, s.receipts r = some receipt ∧ receipt.connection = c ∧
      receipt.ackQueued = true ∧ receipt.message.id = .str id := by
  have hfit := h.frames c f (.inr hf)
  unfold FrameFits at hfit
  split at hfit
  · obtain ⟨_, data, _, _, _, _, hdata⟩ := hfit
    rw [hdata] at hdec
    simp only [decodeSessionFrame, splitFrame, bind, Except.bind, if_true] at hdec
    split at hdec <;> cases hdec
  · obtain ⟨receipt, id', hr, hc, hack, hid, henc⟩ := hfit
    rw [decodeSessionFrame_acknowledgement limit henc] at hdec
    cases hdec
    exact ⟨_, receipt, hr, hc, hack, Attr.identifier_eq_some.1 hid⟩
  · obtain ⟨id', henc | henc⟩ := hfit
    · rw [decodeSessionFrame_ping limit henc] at hdec
      cases hdec
    · rw [decodeSessionFrame_pong limit henc] at hdec
      cases hdec

/-- What an application frame in the log of a node says. -/
theorem call_of_application {cfg : Config F P} {E : Evidence} {s : Node F P}
    (h : Inv cfg E none s) {c : ℕ} {f : OutboundFrame} (hf : f ∈ s.sent c) {data : Bytes}
    (hdata : f.data = applicationFrame :: data) :
    ∃ k call, s.calls k = some call ∧ cfg.serializer.serialize call.message = some data := by
  have hcontrol : ∀ payload : List (Key F × Value F),
      encodeControl payload ≠ .ok (applicationFrame :: data) := by
    intro payload henc
    unfold encodeControl at henc
    split at henc
    · split at henc
      · cases henc
      · split at henc <;> cases henc
    · cases henc
  have hfit := h.frames c f (.inr hf)
  unfold FrameFits at hfit
  rw [hdata] at hfit
  split at hfit
  · obtain ⟨call, data', hk, _, _, hser, heq⟩ := hfit
    cases heq
    exact ⟨_, call, hk, hser⟩
  · obtain ⟨_, _, _, _, _, _, henc⟩ := hfit
    exact absurd henc (hcontrol _)
  · obtain ⟨_, henc | henc⟩ := hfit
    · exact absurd henc (hcontrol _)
    · exact absurd henc (hcontrol _)

/-- **What was acknowledged was received.** -/
theorem received_of_acked (h : p.Inv cfg)
    (hid : ∀ x m data m', (cfg.nodes x).serializer.serialize m = some data →
      (cfg.nodes x.other).serializer.deserialize data = some m' → m'.id = m.id)
    {x : Side} {k c : ℕ} {call : Call F P} (hk : (p.nodes x).calls k = some call)
    (hacked : call.acked = true) (hconn : call.connection = some c) (hc : cfg.shared c = true) :
    p.Received cfg x call c := by
  have hx := h.nodes x
  have ho := h.nodes x.other
  obtain ⟨a, hack, hev⟩ := (hx.calls k call hk).acked hacked
  obtain rfl : c = a.connection := Option.some.inj (hconn ▸ hack.connection)
  obtain ⟨f, hf, limit, hdec⟩ := hev hc
  obtain ⟨r, receipt, hr, hrc, hqueued, hrid⟩ := receipt_of_ack ho hf hdec
  have hacc := ho.receipts r receipt hr
  obtain ⟨g, hg, hdata⟩ := hacc.data (hrc ▸ hc)
  rw [Side.other_other] at hg
  obtain ⟨k', call', hk', hser⟩ := call_of_application hx hg hdata
  have hsame : k' = k := by
    have hid' := hid x call'.message receipt.data receipt.message hser hacc.deserialized
    rw [hrid, (hx.calls k' call' hk').message] at hid'
    exact (cfg.nodes x).messageId_injective
      (Subtype.ext (by simpa [CallArgs.message] using hid'.symm))
  subst hsame
  rw [hk] at hk'
  cases hk'
  exact ⟨r, receipt, hr, hrc, hser, hacc.deserialized, hacc.valid, hacc.sender, hacc.recipient,
    hqueued⟩

/-- **A technical ACK means what it says**, in every run of two nodes whose
serializers keep the id of a message: a call over a connection between them
whose wait for the ACK ended normally has been received and accepted by the
other; a message is passed on only after its ACK was queued; a call whose
session has no ACKs queues nothing and raises; and the table of pending ACKs is
bounded and holds nothing for a call that is over. -/
theorem acknowledgement_means_receipt (cfg : PairConfig F P)
    (hid : ∀ x m data m', (cfg.nodes x).serializer.serialize m = some data →
      (cfg.nodes x.other).serializer.deserialize data = some m' → m'.id = m.id) :
    (∀ p, Reachable (pairSystem cfg) p → ∀ x,
      (p.nodes x).KeepsAckContract (cfg.nodes x) ∧
        ∀ k call c, (p.nodes x).calls k = some call → call.acked = true →
          call.connection = some c → cfg.shared c = true → p.Received cfg x call c) ∧
      ∀ p l q, Reachable (pairSystem cfg) p → pairStep cfg p l = some q →
        ∀ x, AckedBefore (p.nodes x) (q.nodes x) := by
  refine ⟨fun p hp x => ?_, fun p l q hp hs x => ?_⟩
  · have h := pairInv_of_reachable hp
    exact ⟨keepsAckContract_of_inv (h.nodes x) (h.settled x),
      fun k call c hk hacked hconn hc => received_of_acked h hid hk hacked hconn hc⟩
  · have h := pairInv_of_reachable hp
    have h' := pairInv_of_reachable (hp.next l hs)
    obtain ⟨y, l⟩ := l
    obtain ⟨n, hn, hq, _⟩ := pairStep_spec hs
    by_cases hxy : x = y
    · subst hxy
      rw [hq, Function.update_self]
      have hn' := h'.nodes x
      rw [hq, Function.update_self] at hn'
      exact ackedBefore_step (h.nodes x) hn' hn
    · rw [hq, Function.update_of_ne hxy]
      intro r receipt hr hout hcap
      exact ⟨receipt, hr, ((h.nodes x).receipts r receipt hr).acknowledged hout hcap⟩

/-! ## A run with an ACK -/

/-- The arguments of the call. -/
def sampleArgs : CallArgs Unit where
  kind := .send sampleB.peerId
  payload := ()
  type := .str (ofChars ['t'])
  headers := some []
  requireAck := some true

/-- Its ids. -/
def sampleId (k : ℕ) : Identifier := ⟨List.replicate (k + 1) 49, by simp⟩

/-- Its message. -/
def sampleMessage : Message Unit := sampleArgs.message sampleA.peerId (sampleId 0)

/-- An adapter that knows one message. -/
def sampleSerializer : Serializer Unit where
  serialize m := if m = sampleMessage then some [1] else none
  deserialize data := if data = [1] then some sampleMessage else none

/-- A node. -/
def sampleConfig (offer : HandshakeOffer SampleFloat) (target : ℕ → Option Str) :
    Config SampleFloat Unit where
  offer := offer
  requireAuthenticatedPeerIdMatch := false
  maxPendingRequests := 1
  maxPendingAcknowledgements := 1
  maxInboundQueue := 1
  inboundBackpressure := .wait
  serializer := sampleSerializer
  target := target
  securityInfo := fun _ => ⟨false, none⟩
  messageId := sampleId
  messageId_injective := fun i j h => by simpa [sampleId] using congrArg (fun m => m.1.length) h

/-- Node `a` opens every connection. -/
def samplePair : PairConfig SampleFloat Unit where
  nodes
    | .a => sampleConfig sampleA fun _ => some sampleB.peerId
    | .b => sampleConfig sampleB fun _ => none
  shared _ := true

/-- A node receives a frame that is delivered. -/
theorem reachable_receive {cfg : PairConfig F P} {p : Pair F P}
    (hp : Reachable (pairSystem cfg) p) (x : Side) (c : ℕ) (frame : Bytes) {n : Node F P}
    (h : p.delivers cfg x c frame = true)
    (hs : step (cfg.nodes x) (p.nodes x) (.receive c frame) = some n) :
    Reachable (pairSystem cfg)
      { nodes := Function.update p.nodes x n
        consumed := Function.update p.consumed x
          (Function.update (p.consumed x) c (p.consumed x c + 1)) } := by
  refine hp.next (x, .receive c frame) ?_
  simp only [pairSystem, pairStep, h, if_true, hs, Option.map_some]

/-- The handshake of A. -/
theorem sampleA_negotiates {fa fb : Bytes} (hfa : encodeHello sampleA = .ok fa)
    (hfb : encodeHello sampleB = .ok fb) :
    negotiateProtocol sampleA (some sampleB.peerId) ⟨false, none⟩ false (.received fb) =
      ⟨.ok (sessionOf sampleA sampleB ⟨false, none⟩), false⟩ := by
  rcases negotiateProtocol_received sampleOffer_native hfa hfb
    (⟨by simp, by simp, by simp⟩ :
      IdentityFits (some sampleB.peerId) ⟨false, none⟩ false sampleB.peerId) with
    ⟨_, _, h⟩ | ⟨h, _⟩
  · exact h
  · exact absurd ⟨rfl, rfl⟩ h

/-- The handshake of B. -/
theorem sampleB_negotiates {fa fb : Bytes} (hfa : encodeHello sampleA = .ok fa)
    (hfb : encodeHello sampleB = .ok fb) :
    negotiateProtocol sampleB none ⟨false, none⟩ false (.received fa) =
      ⟨.ok (sessionOf sampleB sampleA ⟨false, none⟩), false⟩ := by
  rcases negotiateProtocol_received sampleOffer_native hfb hfa
    (⟨by simp, by simp, by simp⟩ : IdentityFits none ⟨false, none⟩ false sampleA.peerId) with
    ⟨_, _, h⟩ | ⟨h, _⟩
  · exact h
  · exact absurd ⟨rfl, rfl⟩ h

/-- The ACK can be written. -/
theorem sampleId_encodes : ∃ frame,
    encodeAcknowledgementFrame (F := SampleFloat) (sampleId 0) = .ok frame := by
  have hsafe : isSafeJsonValue (F := SampleFloat) (.dict [(.str magicKey, .str protocolMagic),
      (.str typeKey, .str ackType), (.str messageIdKey, .str (sampleId 0))]) = true := by
    simp [isSafeJsonValue, isSafeLoop, safeNested, maxJsonNesting]
  rw [encodeAcknowledgementFrame, encodeControl, if_pos hsafe]
  exact ⟨_, rfl⟩

/-- Node `a` sends one message and gets its ACK. -/
theorem samplePair_acked : ∃ p call, Reachable (pairSystem samplePair) p ∧
    (p.nodes .a).calls 0 = some call ∧ call.acked = true ∧ call.connection = some 0 := by
  obtain ⟨fa, hfa⟩ := sampleA_encodes
  obtain ⟨fb, hfb⟩ := sampleB_encodes
  obtain ⟨frame, hack⟩ := sampleId_encodes
  have hdec := decodeSessionFrame_acknowledgement 512 hack
  have h0 : Reachable (pairSystem samplePair) ⟨fun _ => initial, fun _ _ => 0⟩ := .init rfl
  have h1 := h0.exec (show exec (pairStep samplePair) _
    [(.a, .start), (.b, .start), (.a, .accepted 0), (.b, .accepted 0)] = some _ from rfl)
  have h2 := h1.next (Side.a, Label.negotiated 0 (.received fb))
    (congrArg (fun n => some (Pair.mk (Function.update _ Side.a n) _))
      (negotiated_eq (sampleA_negotiates hfa hfb)))
  have h3 := h2.next (Side.b, Label.negotiated 0 (.received fa))
    (congrArg (fun n => some (Pair.mk (Function.update _ Side.b n) _))
      (negotiated_eq (sampleB_negotiates hfa hfb)))
  have h4 := h3.exec (show exec (pairStep samplePair) _
    [(.a, .startReader 0), (.b, .startReader 0), (.a, .startCall sampleArgs),
      (.a, .connected 0 0)] = some _ from rfl)
  have h5 := h4.exec (show exec (pairStep samplePair) _
    [(.a, .queueFrame 0), (.a, .transmit 0), (.a, .frameWritten 0)] = some _ from rfl)
  have h6 := reachable_receive h5 .b 0 [1, 1] rfl
    (congrArg some (accept_eq (samplePair.nodes .b) (sessionOf sampleB sampleA ⟨false, none⟩)
      (by decide) hack))
  have h7 := h6.exec (show exec (pairStep samplePair) _
    [(.b, .queueAck 0), (.b, .transmit 0)] = some _ from rfl)
  have h8 := reachable_receive h7 .a 0 frame (decide_eq_true (rfl : frame = frame))
    (congrArg some (receive_acknowledgement (samplePair.nodes .a)
      (sessionOf sampleA sampleB ⟨false, none⟩) (by decide) hdec))
  have h9 := h8.exec (show exec (pairStep samplePair) _ [(.a, .resumeAck 0)] = some _ from rfl)
  exact ⟨_, _, h9, rfl, rfl, rfl⟩

/-- The node that sent the ACK had received the message. -/
theorem acknowledgement_means_receipt_sample : ∃ p call, Reachable (pairSystem samplePair) p ∧
    (p.nodes .a).calls 0 = some call ∧ call.acked = true ∧ p.Received samplePair .a call 0 := by
  obtain ⟨p, call, hp, hk, hacked, hc⟩ := samplePair_acked
  have hid : ∀ x m data m', (samplePair.nodes x).serializer.serialize m = some data →
      (samplePair.nodes x.other).serializer.deserialize data = some m' → m'.id = m.id := by
    intro x m data m' hm hm'
    have hser : ∀ y, (samplePair.nodes y).serializer = sampleSerializer := fun y => by
      cases y <;> rfl
    rw [hser] at hm hm'
    simp only [sampleSerializer, Option.ite_none_right_eq_some, Option.some.injEq] at hm hm'
    rw [hm.1, ← hm'.2]
  exact ⟨p, call, hp, hk, hacked,
    ((acknowledgement_means_receipt samplePair hid).1 p hp .a).2 0 call 0 hk hacked hc rfl⟩

end Messaging
end Core
end Paqto
