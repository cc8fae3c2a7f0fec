/-
# Two nodes understand each other

Between two nodes with one serializer every frame that arrives is one that the
reader takes: it decodes, its capability was negotiated on both sides, and the
envelope of a message passes every check (`frames_understood`).  So a reader of
a connection between them never raises a `ProtocolError`, and where it ends with
a frame the node was stopped, the connection closed or the inbound queue full.
-/

import Paqto.Core.Acknowledgement
import Paqto.Core.Utterances
import Paqto.Serializers.Lossless

namespace Paqto
namespace Core
namespace Messaging

open Transition Python Correlation
open AckDuplex (Side)

variable {F P : Type} [PyFloat F]

/-! ## What a reader takes -/

/-- A frame on which `_read_connection` raises nothing. -/
inductive Understood (cfg : Config F P) (session : ProtocolSession F) (frame : Bytes) : Prop
  | application {data : Bytes} {m : Message P} {id : Identifier}
      (hdecoded : decodeSessionFrame (F := F) frame session.maxMessageSize = .ok (.application data))
      (hmessage : cfg.serializer.deserialize data = some m)
      (hvalid : validateIncomingMessage m = .ok ()) (hid : m.id.identifier = some id)
      (hsender : m.sender = .str session.peerId)
      (hrecipient : m.recipient = .none ∨ m.recipient = .str cfg.peerId)
      (hack : technicalAckCapability ∈ session.capabilities →
        ∃ ack, encodeAcknowledgementFrame (F := F) id = .ok ack)
  | acknowledgement {id : Identifier}
      (hdecoded : decodeSessionFrame (F := F) frame session.maxMessageSize =
        .ok (.acknowledgement id))
      (hcapability : technicalAckCapability ∈ session.capabilities)
  | ping {id : Identifier} {pong : Bytes}
      (hdecoded : decodeSessionFrame (F := F) frame session.maxMessageSize = .ok (.ping id))
      (hcapability : heartbeatCapability ∈ session.capabilities)
      (hpong : encodePongFrame (F := F) id = .ok pong)
  | pong {id : Identifier}
      (hdecoded : decodeSessionFrame (F := F) frame session.maxMessageSize = .ok (.pong id))
      (hcapability : heartbeatCapability ∈ session.capabilities)

section node

variable {cfg : Config F P} {s : Node F P} {c : ℕ} {session : ProtocolSession F} {frame : Bytes}

/-- What ends a reader that has not met an error. -/
def Interrupted (cfg : Config F P) (s : Node F P) (c : ℕ) : Prop :=
  s.running = false ∨ s.isClosed c = true ∨ s.inboundQueue = none ∨
    ∃ queue, s.inboundQueue = some queue ∧ cfg.maxInboundQueue ≤ queue.length ∧
      cfg.inboundBackpressure = .reject

omit [PyFloat F] in
/-- A reader that does not go on was stopped or closed. -/
theorem continueReading_ended (h : (s.continueReading c session).tasks c = .ended) :
    s.running = false ∨ s.isClosed c = true := by
  unfold Node.continueReading at h
  split at h
  · have hself : (s.setTask c (.receiving session)).tasks c = .receiving session :=
      Function.update_self ..
    rw [hself] at h
    cases h
  · rename_i hgo
    rw [Bool.and_eq_true, Bool.not_eq_true', not_and_or, Bool.not_eq_true, Bool.not_eq_false] at hgo
    exact hgo

omit [PyFloat F] in
/-- A reader that is moved to its end. -/
theorem setTask_ended {pc : TaskPc F} (h : (s.setTask c pc).tasks c = .ended) : pc = .ended := by
  have hself : (s.setTask c pc).tasks c = pc := Function.update_self ..
  rw [← hself, h]

omit [PyFloat F] in
/-- A reader that ends in `_enqueue_dispatch` was interrupted. -/
theorem enqueueDispatch_ended {r : ℕ} {receipt : Receipt F P}
    (h : (s.enqueueDispatch cfg c session r receipt).tasks c = .ended) : Interrupted cfg s c := by
  unfold Node.enqueueDispatch at h
  split at h
  · rename_i hqueue
    exact .inr (.inr (.inl hqueue))
  · rename_i queue hqueue
    split at h
    · rcases continueReading_ended h with hstopped | hclosed
      · exact .inl hstopped
      · exact .inr (.inl hclosed)
    · rename_i hfull
      split at h
      · cases setTask_ended h
      · rename_i hreject
        exact .inr (.inr (.inr ⟨queue, hqueue, Nat.le_of_not_lt hfull, hreject⟩))

omit [PyFloat F] in
/-- So was one that ends in a delivery. -/
theorem deliver_ended {r : ℕ} {receipt : Receipt F P}
    (h : (s.deliver cfg c session r receipt).tasks c = .ended) : Interrupted cfg s c := by
  unfold Node.deliver at h
  split at h
  · rcases continueReading_ended h with hstopped | hclosed
    · exact .inl hstopped
    · exact .inr (.inl hclosed)
  · exact enqueueDispatch_ended h

/-- **A frame that is understood does not end the reader.** -/
theorem Understood.receive (hu : Understood cfg session frame)
    (h : (s.receive cfg c session frame).tasks c = .ended) : Interrupted cfg s c := by
  have hcontinue : ∀ {u : Node F P}, u.running = s.running → u.isClosed = s.isClosed →
      (u.continueReading c session).tasks c = .ended → Interrupted cfg s c := by
    intro u hrunning hclosed hended
    rcases continueReading_ended hended with hstopped | hshut
    · exact .inl (hrunning ▸ hstopped)
    · exact .inr (.inl (hclosed ▸ hshut))
  unfold Node.receive at h
  cases hu with
  | application hdecoded hmessage hvalid hid hsender hrecipient hack =>
      have hto : ∀ {r : Attr}, (r = .none ∨ r = .str cfg.peerId) →
          ¬ (r ≠ .none ∧ r ≠ .str cfg.peerId) := fun hr hne => by
        rcases hr with hr | hr
        · exact hne.1 hr
        · exact hne.2 hr
      rw [hdecoded] at h
      simp only [Node.receiveApplication, hmessage, hvalid, hid, hsender, ne_eq, not_true_eq_false,
        if_false, if_neg (hto hrecipient)] at h
      unfold Node.accept at h
      dsimp only at h
      split at h
      · rename_i hcapability
        obtain ⟨ack, hack⟩ := hack hcapability
        rw [hack] at h
        cases setTask_ended h
      · have hinterrupted := deliver_ended h
        exact hinterrupted
  | acknowledgement hdecoded hcapability =>
      rename_i id
      simp only [hdecoded, if_pos hcapability] at h
      exact hcontinue (u := s.resolveAcknowledgement c session id) rfl rfl h
  | ping hdecoded hcapability hpong =>
      simp only [hdecoded, if_pos hcapability, hpong] at h
      cases setTask_ended h
  | pong hdecoded hcapability =>
      simp only [hdecoded, if_pos hcapability] at h
      exact hcontinue rfl rfl h

end node

/-! ## Two nodes -/

/-- The session of a node over a shared connection. -/
def PairConfig.agreed (cfg : PairConfig F P) (x : Side) (c : ℕ) : ProtocolSession F :=
  sessionOf (cfg.nodes x).offer (cfg.nodes x.other).offer ((cfg.nodes x).securityInfo c)

/-- What the other end gets of an envelope. -/
structure SameEnvelope (m m' : Message P) : Prop where
  type : m'.type = m.type
  sender : m'.sender = m.sender
  recipient : m'.recipient = m.recipient
  id : m'.id = m.id
  replyTo : m'.replyTo = m.replyTo
  headers : headersAreStrings m.headers = true → headersAreStrings m'.headers = true

/-- The nodes can work together: a message that is `ok` comes back from the bytes that the
serializer of the other node gets, and an ACK can name it. -/
structure PairConfig.Conveys (cfg : PairConfig F P) (ok : Message P → Prop) : Prop where
  messages : ∀ x m data, ok m → (cfg.nodes x).serializer.serialize m = some data →
    ∃ m', (cfg.nodes x.other).serializer.deserialize data = some m' ∧ SameEnvelope m m'
  metadata : ∀ x, (Value.dict (cfg.nodes x).offer.metadata).Native
  ids : ∀ m id, ok m → m.id.identifier = some id →
    ∃ ack, encodeAcknowledgementFrame (F := F) id = .ok ack

/-- The steps of two nodes with their applications: over a shared connection each gets the
hello of the other, calls are made over a connection of the peer they are for, and PINGs are
sent where heartbeats were negotiated. -/
def Honest (cfg : PairConfig F P) (ok : Message P → Prop) (p : Pair F P) : Side × Label P → Prop
  | (x, .negotiated c exchange) => cfg.shared c = true → ∀ frame, exchange = .received frame →
      encodeHello (cfg.nodes x.other).offer = .ok frame
  | (x, .startCall args) =>
      ok (args.message (cfg.nodes x).peerId ((cfg.nodes x).messageId (p.nodes x).nextCall))
  | (x, .connected k c) => cfg.shared c = true → ∀ call, (p.nodes x).calls k = some call →
      ReachesPeer (p.nodes x) call c
  | (x, .ping c pingId) => cfg.shared c = true → (∃ r, (p.nodes x).tables.ready c = some r ∧
      heartbeatCapability ∈ r.session.capabilities) ∧
      ∃ pong, encodePongFrame (F := F) pingId = .ok pong
  | _ => True

variable {cfg : PairConfig F P} {ok : Message P → Prop} {p q : Pair F P} {x : Side} {c : ℕ}

/-- The session is made of the two offers. -/
theorem session_of_hello {a b : HandshakeOffer F} {expected : Option Str} {security : SecurityInfo}
    {require : Bool} {exchange : Exchange} {session : ProtocolSession F}
    (hb : (Value.dict b.metadata).Native)
    (hexchange : ∀ frame, exchange = .received frame → encodeHello b = .ok frame)
    (h : (negotiateProtocol a expected security require exchange).result = .ok session) :
    session = sessionOf a b security := by
  have hnegotiate : negotiate a expected security require exchange = .ok session := by
    unfold negotiateProtocol at h
    split at h
    · rename_i found hfound
      rw [hfound]
      exact h
    · cases h
  simp only [negotiate, bind, Except.bind] at hnegotiate
  split at hnegotiate
  · cases hnegotiate
  · cases exchange with
    | received frame =>
        simp only [Exchange.frame, decodeHello_encodeHello hb (hexchange frame rfl)] at hnegotiate
        split at hnegotiate
        · cases hnegotiate
        · split at hnegotiate
          · cases hnegotiate
          · split at hnegotiate
            · cases hnegotiate
            · exact (Except.ok.inj hnegotiate).symm
    | _ => cases hnegotiate

/-- An honest step is one that the session admits. -/
theorem admits_of_honest (hc : cfg.shared c = true)
    (hb : (Value.dict (cfg.nodes x.other).offer.metadata).Native) {l : Label P}
    (hl : Honest cfg ok p (x, l)) : Admits (cfg.nodes x) ok c (cfg.agreed x c) (p.nodes x) l := by
  cases l with
  | negotiated d exchange =>
      rintro rfl session hsession
      exact session_of_hello hb (hl hc) hsession
  | startCall args => exact hl
  | connected k d =>
      rintro rfl
      exact hl hc
  | ping d pingId =>
      rintro rfl
      exact hl hc
  | _ => trivial

/-- **Both nodes keep to the session of every shared connection.** -/
theorem keepsTo_of_reachable (hcfg : cfg.Conveys ok)
    (h : ReachableWhen (pairSystem cfg) (Honest cfg ok) p) (hc : cfg.shared c = true) (x : Side) :
    KeepsTo (cfg.nodes x) ok c (cfg.agreed x c) (p.nodes x) := by
  refine (h.invariant (I := fun p => p.Inv cfg ∧
    ∀ x, KeepsTo (cfg.nodes x) ok c (cfg.agreed x c) (p.nodes x)) ?_ ?_).2 x
  · intro p hp
    refine ⟨pairInv_of_reachable (.init hp), ?_⟩
    obtain rfl : p = ⟨fun _ => initial, fun _ _ => 0⟩ := hp
    exact fun _ => keepsTo_initial
  · rintro p ⟨y, l⟩ q ⟨hinv, hkeeps⟩ hl hs
    refine ⟨pairInv_step hinv hs, fun x => ?_⟩
    obtain ⟨n, hn, hq, -⟩ := pairStep_spec hs
    by_cases hxy : x = y
    · subst hxy
      rw [hq, Function.update_self]
      exact (hkeeps x).step (hinv.nodes x)
        (admits_of_honest hc (hcfg.metadata x.other) hl) hn
    · rw [hq, Function.update_of_ne hxy]
      exact hkeeps x

/-- **What one node says the other understands.** -/
theorem understood_of_utterance (hcfg : cfg.Conveys ok) {frame : Bytes}
    (h : Utterance (cfg.nodes x.other) ok (cfg.agreed x.other c) frame) :
    Understood (cfg.nodes x) (cfg.agreed x c) frame := by
  have hcapability : ∀ capability, capability ∈ (cfg.agreed x.other c).capabilities →
      capability ∈ (cfg.agreed x c).capabilities := by
    intro capability hmem
    simp only [PairConfig.agreed, sessionOf, Side.other_other, List.mem_filter,
      decide_eq_true_eq] at hmem ⊢
    exact hmem.symm
  have hsize : (cfg.agreed x.other c).maxMessageSize = (cfg.agreed x c).maxMessageSize := by
    simp only [PairConfig.agreed, sessionOf, Side.other_other]
    exact min_comm _ _
  cases h with
  | application haddressed hdata hframe =>
      rename_i m data
      obtain ⟨m', hm', hsame⟩ := hcfg.messages x.other m data haddressed.ok hdata
      rw [Side.other_other] at hm'
      have hvalid := validateOutgoingMessage_ok.1 haddressed.valid
      obtain ⟨id, hid⟩ := Option.isSome_iff_exists.1 (hvalid .id)
      refine .application (decodeSessionFrame_application (hsize ▸ hframe)) hm'
        (validateIncomingMessage_ok.2 fun f => ?_) (hsame.id ▸ hid) ?_ (.inr ?_)
        fun _ => hcfg.ids m id haddressed.ok hid
      · have hf := hvalid f
        cases f with
        | headers => exact hsame.headers hf
        | type => simpa [EnvelopeField.passes, hsame.type] using hf
        | sender => simpa [EnvelopeField.passes, hsame.sender] using hf
        | recipient => simpa [EnvelopeField.passes, hsame.recipient] using hf
        | id => simpa [EnvelopeField.passes, hsame.id] using hf
        | replyTo => simpa [EnvelopeField.passes, hsame.replyTo] using hf
      · exact hsame.sender.trans haddressed.sender
      · rw [hsame.recipient, haddressed.recipient]
        simp only [PairConfig.agreed, sessionOf, Side.other_other]
        rfl
  | acknowledgement hmem hframe =>
      exact .acknowledgement (decodeSessionFrame_acknowledgement _ hframe) (hcapability _ hmem)
  | ping hmem hframe hpong =>
      exact .ping (decodeSessionFrame_ping _ hframe) (hcapability _ hmem) hpong
  | pong hmem hframe =>
      exact .pong (decodeSessionFrame_pong _ hframe) (hcapability _ hmem)

/-- **Two nodes understand each other**, in every run of two nodes that can work together,
over any number of connections between them: a reader takes every frame that arrives, and
only a stop, a closed connection or a full inbound queue ends it then. -/
theorem frames_understood (hcfg : cfg.Conveys ok)
    (h : ReachableWhen (pairSystem cfg) (Honest cfg ok) p) (hc : cfg.shared c = true)
    {session : ProtocolSession F} (hpc : (p.nodes x).tasks c = .receiving session) {frame : Bytes}
    (hdelivers : p.delivers cfg x c frame = true) :
    session = cfg.agreed x c ∧ Understood (cfg.nodes x) session frame ∧
      ∀ q, pairStep cfg p (x, .receive c frame) = some q → (q.nodes x).tasks c = .ended →
        Interrupted (cfg.nodes x) (p.nodes x) c := by
  have hsession : session = cfg.agreed x c :=
    (keepsTo_of_reachable hcfg h hc x).task.session session (by rw [hpc]; rfl)
  -- the frame is one that the other node has sent
  have hsaid : Utterance (cfg.nodes x.other) ok (cfg.agreed x.other c) frame := by
    have hd := hdelivers
    rw [Pair.delivers, hc, Bool.not_true, Bool.false_or, Option.any_eq_true] at hd
    obtain ⟨f, hf, hdata⟩ := hd
    obtain rfl : f.data = frame := by simpa using hdata
    exact (keepsTo_of_reachable hcfg h hc x.other).frames f (.inr (List.mem_of_getElem? hf))
  have hunderstood : Understood (cfg.nodes x) session frame :=
    hsession ▸ understood_of_utterance hcfg hsaid
  refine ⟨hsession, hunderstood, fun q hs hended => ?_⟩
  obtain ⟨n, hn, hq, -⟩ := pairStep_spec hs
  rw [hq, Function.update_self] at hended
  simp only [step, hpc, Option.some.injEq] at hn
  exact hunderstood.receive (hn ▸ hended)

/-! ## Two nodes with one lossless serializer -/

section serializers

open Serializers

variable {F D : Type} [PyFloat F] [PyDatetime D]

omit [PyFloat F] in
/-- Messages with the same fields have the same envelope. -/
theorem sameEnvelope_of_sameFields {m m' : Message (Body F D)} (h : SameFields m m') :
    SameEnvelope m m' where
  type := h.type
  sender := h.sender
  recipient := h.recipient
  id := h.id
  replyTo := h.replyTo
  headers hstrings := by
    obtain ⟨items, items', hitems, hitems', hperm⟩ := h.headers
    rw [hitems] at hstrings
    rw [hitems', headersAreStrings, ← hperm.all_eq]
    exact hstrings

/-- The payload and the headers are data of Python, and an ACK can name the message. -/
structure Sendable (m : Message (Body F D)) : Prop where
  message : PyMessage m
  id : ∀ id, m.id.identifier = some id → ∃ ack, encodeAcknowledgementFrame (F := F) id = .ok ack

/-- Two nodes with the same serializer can work together. -/
theorem conveys_of_lossless {cfg : PairConfig F (Body F D)} {serializer : Serializer (Body F D)}
    (hlossless : Lossless serializer) (hserializer : ∀ x, (cfg.nodes x).serializer = serializer)
    (hmetadata : ∀ x, (Value.dict (cfg.nodes x).offer.metadata).Native) : cfg.Conveys Sendable where
  messages x m data hm hdata := by
    rw [hserializer] at hdata ⊢
    obtain ⟨m', hm', hsame⟩ := hlossless.roundTrip m data hm.message hdata
    exact ⟨m', hm', sameEnvelope_of_sameFields hsame.fields⟩
  metadata := hmetadata
  ids m := fun id hm => hm.id id

/-! ## A PING between two nodes with `JsonSerializer` -/

/-- Node `a` opens every connection. -/
def jsonPair : PairConfig SampleFloat (Body SampleFloat SampleDatetime) where
  nodes
    | .a => { sampleConfig sampleA fun _ => some sampleB.peerId with
        serializer := jsonSerializer sampleLimits }
    | .b => { sampleConfig sampleB fun _ => none with serializer := jsonSerializer sampleLimits }
  shared _ := true

/-- The JSON serializer conveys what it can write. -/
theorem jsonPair_conveys : jsonPair.Conveys Sendable := by
  refine conveys_of_lossless (jsonSerializer_lossless sampleLimits) (fun x => ?_) fun x => ?_
  · cases x <;> rfl
  · cases x <;> exact sampleOffer_native

/-- A PING and its PONG can be written. -/
theorem samplePing_encodes : ∃ ping pong,
    encodePingFrame (F := SampleFloat) (sampleId 0) = .ok ping ∧
      encodePongFrame (F := SampleFloat) (sampleId 0) = .ok pong := by
  have hping : isSafeJsonValue (F := SampleFloat) (.dict [(.str magicKey, .str protocolMagic),
      (.str typeKey, .str pingType), (.str pingIdKey, .str (sampleId 0))]) = true := by
    simp [isSafeJsonValue, isSafeLoop, safeNested, maxJsonNesting]
  have hpong : isSafeJsonValue (F := SampleFloat) (.dict [(.str magicKey, .str protocolMagic),
      (.str typeKey, .str pongType), (.str pingIdKey, .str (sampleId 0))]) = true := by
    simp [isSafeJsonValue, isSafeLoop, safeNested, maxJsonNesting]
  rw [encodePingFrame, encodePongFrame, encodeControl, encodeControl, if_pos hping, if_pos hpong]
  exact ⟨_, _, rfl, rfl⟩

/-- A PING is answered by its PONG. -/
theorem ping_eq {F P : Type} [PyFloat F] {cfg : Config F P} {s : Node F P} {c : ℕ} {id : Identifier}
    {frame : Bytes} (h : encodePingFrame (F := F) id = .ok frame) :
    step cfg s (.ping c id) = some (s.pushOutbound c ⟨frame, .heartbeat⟩) := by
  simp only [step, h]

/-- The reader of `b` takes a PING of `a`. -/
theorem frames_understood_sample : ∃ p frame,
    ReachableWhen (pairSystem jsonPair) (Honest jsonPair Sendable) p ∧
      p.delivers jsonPair .b 0 frame = true ∧
      (p.nodes .b).tasks 0 = .receiving (jsonPair.agreed .b 0) ∧
      Understood (jsonPair.nodes .b) (jsonPair.agreed .b 0) frame := by
  obtain ⟨fa, hfa⟩ := sampleA_encodes
  obtain ⟨fb, hfb⟩ := sampleB_encodes
  obtain ⟨ping, pong, hping, hpong⟩ := samplePing_encodes
  have hexec : ∀ {p q : Pair SampleFloat (Body SampleFloat SampleDatetime)}
      (ls : List (Side × Label (Body SampleFloat SampleDatetime))),
      ReachableWhen (pairSystem jsonPair) (Honest jsonPair Sendable) p →
      (∀ l ∈ ls, ∀ p, Honest jsonPair Sendable p l) → exec (pairStep jsonPair) p ls = some q →
      ReachableWhen (pairSystem jsonPair) (Honest jsonPair Sendable) q := fun ls hp hls hq =>
    hp.exec ls hls hq
  have h0 : ReachableWhen (pairSystem jsonPair) (Honest jsonPair Sendable)
      ⟨fun _ => initial, fun _ _ => 0⟩ := .init rfl
  have h1 := hexec [(.a, .start), (.b, .start), (.a, .accepted 0), (.b, .accepted 0)] h0
    (by simp [Honest]) rfl
  have h2 := h1.step (Side.a, Label.negotiated 0 (.received fb))
    (by rintro - frame ⟨⟩; exact hfb)
    (congrArg (fun n => some (Pair.mk (Function.update _ Side.a n) _))
      (negotiated_eq (sampleA_negotiates hfa hfb)))
  have h3 := h2.step (Side.b, Label.negotiated 0 (.received fa))
    (by rintro - frame ⟨⟩; exact hfa)
    (congrArg (fun n => some (Pair.mk (Function.update _ Side.b n) _))
      (negotiated_eq (sampleB_negotiates hfa hfb)))
  have h4 := hexec [(.a, .startReader 0), (.b, .startReader 0)] h3 (by simp [Honest]) rfl
  have h5 := h4.step (Side.a, Label.ping 0 (sampleId 0))
    (fun _ => ⟨⟨_, rfl, by decide⟩, pong, hpong⟩)
    (congrArg (Option.map fun n => Pair.mk (Function.update _ Side.a n) _) (ping_eq hping))
  have h6 := hexec [(.a, .transmit 0)] h5 (by simp [Honest]) rfl
  have hunderstood := frames_understood (x := .b) (c := 0) jsonPair_conveys h6 rfl rfl
    (decide_eq_true (rfl : ping = ping))
  exact ⟨_, ping, h6, decide_eq_true (rfl : ping = ping), rfl, hunderstood.2.1⟩

end serializers

end Messaging
end Core
end Paqto
