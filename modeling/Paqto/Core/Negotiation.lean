/-
# Both ends negotiate the same session

A hello that encodes is decoded as the offer it was made of
(`decodeHello_encodeHello`), so each end works on the two offers themselves and
the two sessions agree (`negotiation_agrees`).
-/

import Paqto.Core.Protocol
import Paqto.Python.JsonRoundTrip

namespace Paqto
namespace Core

open Python

variable {F : Type} [PyFloat F]

omit [PyFloat F] in
/-- Members with different names are all kept. -/
theorem uniqueMembers_of_nodup (result : List (Str × Value F)) {pairs : List (Str × Value F)}
    (h : ((result ++ pairs).map Prod.fst).Nodup) :
    uniqueMembers result pairs = some (result ++ pairs) := by
  induction pairs generalizing result with
  | nil => simp [uniqueMembers]
  | cons p pairs ih =>
      obtain ⟨key, value⟩ := p
      have hkey : key ∉ result.map Prod.fst := by
        rw [List.map_append, List.map_cons, List.nodup_append] at h
        exact fun hm => h.2.2 key hm key List.mem_cons_self rfl
      rw [uniqueMembers, if_neg hkey, ih _ (by simpa using h)]
      simp

omit [PyFloat F] in
/-- Distinct names make a dict. -/
theorem uniqueJsonObject_of_nodup (pairs : List (Str × Value F))
    (h : (pairs.map Prod.fst).Nodup) : uniqueJsonObject pairs = some (.dict (members pairs)) := by
  rw [uniqueJsonObject, uniqueMembers_of_nodup [] (by simpa using h)]
  rfl

/-- **Control data that encodes is decoded unchanged.** -/
theorem decodeControl_encodeControl {payload : List (Key F × Value F)} {frame : Bytes}
    (hn : (Value.dict payload).Native) (h : encodeControl payload = .ok frame) :
    ∃ encoded, frame = controlFrame :: encoded ∧ encoded.length ≤ maxControlPayloadSize ∧
      decodeControl encoded = .ok payload := by
  unfold encodeControl at h
  split at h
  · rename_i hsafe
    split at h
    · cases h
    · rename_i encoded henc
      split at h
      · cases h
      · rename_i hlen
        obtain ⟨text, htext, hutf⟩ := Option.bind_eq_some_iff.1 henc
        have hloads : loads uniqueJsonObject text = some (.dict payload) :=
          loads_dumps uniqueJsonObject_of_nodup hn htext
        refine ⟨encoded, (Except.ok.inj h).symm, Nat.le_of_not_lt hlen, ?_⟩
        rw [decodeControl, if_neg hlen, decodeUtf8_encodeUtf8 hutf, Option.bind_some, hloads]
        exact if_pos hsafe
  · cases h

omit [PyFloat F] in
/-- A list of names that are not empty is read back. -/
theorem nonEmptyStrs_map {l : List Str} (h : ∀ c ∈ l, c ≠ []) :
    nonEmptyStrs (l.map (Value.str (F := F))) = some ⟨l, h⟩ := by
  induction l with
  | nil => rfl
  | cons c l ih =>
      have hc : c ≠ [] := h c List.mem_cons_self
      simp [nonEmptyStrs, nonEmptyStr, hc, ih fun d hd => h d (List.mem_cons_of_mem _ hd)]

omit [PyFloat F] in
/-- A list of names is JSON. -/
theorem nativeItems_map (l : List Str) : Value.NativeItems (l.map (Value.str (F := F))) := by
  induction l with
  | nil => trivial
  | cons c l ih => exact ⟨trivial, ih⟩

omit [PyFloat F] in
/-- A hello is JSON when its metadata are. -/
theorem helloPayload_native {offer : HandshakeOffer F} (h : (Value.dict offer.metadata).Native) :
    (Value.dict (helloPayload offer)).Native := by
  refine ⟨?_, ?_⟩
  · simp only [helloPayload, Value.NativeMembers, Value.Native, nativeItems_map, Key.str.injEq,
      exists_eq', true_and, and_true]
    exact h
  · have hkeys : (helloPayload offer).map Prod.fst =
        [magicKey, typeKey, versionKey, peerIdKey, capabilitiesKey, serializerKey,
          maxMessageSizeKey, metadataKey].map (Key.str (F := F)) := rfl
    rw [hkeys]
    exact List.Nodup.map (fun _ _ h => Key.str.inj h) (by decide)

omit [PyFloat F] in
/-- A positive integer is read back. -/
theorem positiveInt_int {i : ℤ} (h : 1 ≤ i) : positiveInt (some (.int i : Value F)) = some ⟨i, h⟩ :=
  dif_pos h

omit [PyFloat F] in
/-- A name that is not empty is read back. -/
theorem nonEmptyStr_str {s : Str} (h : s ≠ []) :
    nonEmptyStr (some (.str s : Value F)) = some ⟨s, h⟩ := dif_pos h

omit [PyFloat F] in
/-- The payload of a hello passes every check. -/
theorem decodeOffer_helloPayload (offer : HandshakeOffer F) :
    decodeOffer (helloPayload offer) = .ok offer := by
  have hversion : dictGet (helloPayload offer) versionKey = some (.int offer.version) := rfl
  have hpeer : dictGet (helloPayload offer) peerIdKey = some (.str offer.peerId) := rfl
  have hserializer : dictGet (helloPayload offer) serializerKey = some (.str offer.serializerId) :=
    rfl
  have hcapabilities : dictGet (helloPayload offer) capabilitiesKey =
      some (.list (offer.capabilities.map .str)) := rfl
  have hmax : dictGet (helloPayload offer) maxMessageSizeKey =
      some (.int offer.maxMessageSize) := rfl
  have hmetadata : dictGet (helloPayload offer) metadataKey = some (.dict offer.metadata) := rfl
  have hmagic : isStr (dictGet (helloPayload offer) magicKey) protocolMagic = true := rfl
  have htype : isStr (dictGet (helloPayload offer) typeKey) helloType = true := rfl
  simp only [decodeOffer, hmagic, htype, hversion, hpeer, hserializer, hcapabilities, hmax,
    hmetadata, positiveInt_int offer.one_le_version, nonEmptyStr_str offer.peerId_ne,
    nonEmptyStr_str offer.serializerId_ne, nonEmptyStrs_map offer.capabilities_ne,
    positiveInt_int offer.maxMessageSize_pos, Bool.not_true, Bool.false_eq_true, if_false,
    dif_pos offer.capabilities_nodup]

/-- **A hello that encodes is decoded as the offer it was made of.** -/
theorem decodeHello_encodeHello {offer : HandshakeOffer F} {frame : Bytes}
    (hn : (Value.dict offer.metadata).Native) (h : encodeHello offer = .ok frame) :
    decodeHello frame = .ok offer := by
  unfold encodeHello at h
  split at h
  · rename_i hc
    obtain rfl := Except.ok.inj h
    obtain ⟨encoded, rfl, hlen, hdec⟩ := decodeControl_encodeControl (helloPayload_native hn) hc
    simp only [decodeHello, splitFrame, ne_eq, not_true_eq_false, if_false, hdec,
      if_neg (Nat.not_lt.2 hlen), decodeOffer_helloPayload]
  · cases h

/-- No identity that an end expects or has authenticated contradicts the remote
id, and an end that insists on an authenticated one has it. -/
structure IdentityFits (expectedPeerId : Option Str) (security : SecurityInfo)
    (requireAuthenticatedPeerId : Bool) (remote : Str) : Prop where
  expected : ∀ p, expectedPeerId = some p → p = remote
  authenticated : ∀ p, security.authenticatedPeerId = some p → p = remote
  required : requireAuthenticatedPeerId = true →
    security.authenticated = true ∧ security.authenticatedPeerId ≠ none

/-- An identity that fits is accepted. -/
theorem checkIdentity_eq_ok {expected : Option Str} {security : SecurityInfo} {require : Bool}
    {remote : Str} (h : IdentityFits expected security require remote) :
    checkIdentity expected security require remote = .ok () := by
  refine checkIdentity_ok.2 ⟨h.expected, h.authenticated, fun hr => ?_⟩
  obtain ⟨hauth, hne⟩ := h.required hr
  obtain ⟨q, hq⟩ := Option.ne_none_iff_exists'.1 hne
  exact ⟨hauth, hq.trans (congrArg some (h.authenticated q hq))⟩

/-- What an end makes of the hello of the other. -/
theorem negotiateProtocol_received {a b : HandshakeOffer F} {fa fb : Bytes} {expected : Option Str}
    {security : SecurityInfo} {require : Bool} (hb : (Value.dict b.metadata).Native)
    (hfa : encodeHello a = .ok fa) (hfb : encodeHello b = .ok fb)
    (hid : IdentityFits expected security require b.peerId) :
    (a.version = b.version ∧ a.serializerId = b.serializerId ∧
      negotiateProtocol a expected security require (.received fb) =
        ⟨.ok (sessionOf a b security), false⟩) ∨
    (¬ (a.version = b.version ∧ a.serializerId = b.serializerId) ∧
      ∃ e, negotiateProtocol a expected security require (.received fb) = ⟨.error e, true⟩) := by
  have hdec := decodeHello_encodeHello hb hfb
  have hneg : negotiate a expected security require (.received fb) =
      if b.version ≠ a.version then .error (.incompatibleVersion a.version b.version)
      else if b.serializerId ≠ a.serializerId then
        .error (.incompatibleSerializer a.serializerId b.serializerId)
      else .ok (sessionOf a b security) := by
    simp only [negotiate, hfa, Exchange.frame, bind, Except.bind, hdec, checkIdentity_eq_ok hid,
      pure, Except.pure]
  rw [negotiateProtocol, hneg]
  by_cases hv : b.version = a.version
  · by_cases hs : b.serializerId = a.serializerId
    · exact Or.inl ⟨hv.symm, hs.symm, by simp [hv, hs]⟩
    · exact Or.inr ⟨fun h => hs h.2.symm, _, by rw [if_neg (not_not.2 hv), if_pos hs]⟩
  · exact Or.inr ⟨fun h => hv h.1.symm, _, by rw [if_pos hv]⟩

/-- **What the two sessions of one connection share.** -/
structure SessionsAgree (a b : HandshakeOffer F) (sa sb : ProtocolSession F) : Prop where
  version : sa.version = sb.version
  serializerId : sa.serializerId = sb.serializerId
  maxMessageSize : sa.maxMessageSize = sb.maxMessageSize
  capabilities : ∀ c, c ∈ sa.capabilities ↔ c ∈ sb.capabilities
  localOrder : sa.capabilities.Sublist a.capabilities ∧ sb.capabilities.Sublist b.capabilities
  peerId : sa.peerId = b.peerId ∧ sb.peerId = a.peerId
  metadata : sa.metadata = b.metadata ∧ sb.metadata = a.metadata
  /-- What one end admits, the other returns unchanged. -/
  frames : ∀ data frame, encodeApplicationFrame data sa.maxMessageSize = .ok frame →
    decodeSessionFrame (F := F) frame sb.maxMessageSize = .ok (.application data)
  framesBack : ∀ data frame, encodeApplicationFrame data sb.maxMessageSize = .ok frame →
    decodeSessionFrame (F := F) frame sa.maxMessageSize = .ok (.application data)

/-- An application frame is decoded under the limit it was encoded under. -/
theorem decodeSessionFrame_application {data frame : Bytes} {limit : ℤ}
    (h : encodeApplicationFrame data limit = .ok frame) :
    decodeSessionFrame (F := F) frame limit = .ok (.application data) := by
  unfold encodeApplicationFrame at h
  split at h
  · cases h
  · rename_i hlen
    obtain rfl := Except.ok.inj h
    simp only [decodeSessionFrame, splitFrame, bind, Except.bind, if_true, if_neg hlen]

/-- Only an application frame is decoded to application data. -/
theorem eq_of_decodeSessionFrame_application {data frame : Bytes} {limit : ℤ}
    (h : decodeSessionFrame (F := F) frame limit = .ok (.application data)) :
    frame = applicationFrame :: data := by
  cases frame with
  | nil => cases h
  | cons kind payload =>
      simp only [decodeSessionFrame, splitFrame, bind, Except.bind] at h
      split at h
      · rename_i hkind
        split at h <;> cases h
        rw [hkind]
      · split at h
        · cases h
        · split at h
          · cases h
          · split at h
            · cases h
            · split at h
              · split at h <;> cases h
              · split at h
                · split at h
                  · split at h <;> cases h
                  · cases h
                · cases h

omit [PyFloat F] in
/-- Members of a control frame about one identifier are native data. -/
theorem identifierPayload_native {type key : Str} (id : Str) (hm : magicKey ≠ key)
    (ht : typeKey ≠ key) :
    (Value.dict [(.str magicKey, .str protocolMagic), (.str typeKey, .str type),
      (.str key, .str id)] : Value F).Native := by
  have hmt : magicKey ≠ typeKey := by decide
  simp [Value.Native, Value.NativeMembers, hm, ht, hmt]

/-- **An ACK is read back.** -/
theorem decodeSessionFrame_acknowledgement {id : Identifier} {frame : Bytes} (limit : ℤ)
    (h : encodeAcknowledgementFrame (F := F) id = .ok frame) :
    decodeSessionFrame (F := F) frame limit = .ok (.acknowledgement id) := by
  obtain ⟨encoded, rfl, _, hdec⟩ := decodeControl_encodeControl
    (identifierPayload_native id.1 (by decide) (by decide)) h
  have hid : nonEmptyStr (some (.str id.1 : Value F)) = some id := dif_pos id.2
  simp only [decodeSessionFrame, splitFrame, bind, Except.bind, hdec]
  exact congrArg (fun o : Option Identifier => match o with
    | some messageId => Except.ok (SessionFrame.acknowledgement messageId)
    | none => .error FrameError.acknowledgementId) hid

/-- **A PING is read back.** -/
theorem decodeSessionFrame_ping {id : Identifier} {frame : Bytes} (limit : ℤ)
    (h : encodePingFrame (F := F) id = .ok frame) :
    decodeSessionFrame (F := F) frame limit = .ok (.ping id) := by
  obtain ⟨encoded, rfl, _, hdec⟩ := decodeControl_encodeControl
    (identifierPayload_native id.1 (by decide) (by decide)) h
  have hid : nonEmptyStr (some (.str id.1 : Value F)) = some id := dif_pos id.2
  simp only [decodeSessionFrame, splitFrame, bind, Except.bind, hdec]
  exact congrArg (fun o : Option Identifier => match o with
    | some pingId => Except.ok (SessionFrame.ping pingId)
    | none => .error FrameError.heartbeatId) hid

/-- **A PONG is read back.** -/
theorem decodeSessionFrame_pong {id : Identifier} {frame : Bytes} (limit : ℤ)
    (h : encodePongFrame (F := F) id = .ok frame) :
    decodeSessionFrame (F := F) frame limit = .ok (.pong id) := by
  obtain ⟨encoded, rfl, _, hdec⟩ := decodeControl_encodeControl
    (identifierPayload_native id.1 (by decide) (by decide)) h
  have hid : nonEmptyStr (some (.str id.1 : Value F)) = some id := dif_pos id.2
  simp only [decodeSessionFrame, splitFrame, bind, Except.bind, hdec]
  exact congrArg (fun o : Option Identifier => match o with
    | some pingId => Except.ok (SessionFrame.pong pingId)
    | none => .error FrameError.heartbeatId) hid

/-- **The sessions of both ends agree.** -/
theorem sessionsAgree_sessionOf {a b : HandshakeOffer F} {securityA securityB : SecurityInfo}
    (hv : a.version = b.version) (hs : a.serializerId = b.serializerId) :
    SessionsAgree a b (sessionOf a b securityA) (sessionOf b a securityB) where
  version := hv.symm
  serializerId := hs.symm
  maxMessageSize := min_comm _ _
  capabilities := by simp [sessionOf, and_comm]
  localOrder := ⟨List.filter_sublist, List.filter_sublist⟩
  peerId := ⟨rfl, rfl⟩
  metadata := ⟨rfl, rfl⟩
  frames := fun data frame h => by
    rw [show (sessionOf b a securityB).maxMessageSize = (sessionOf a b securityA).maxMessageSize
      from min_comm _ _]
    exact decodeSessionFrame_application h
  framesBack := fun data frame h => by
    rw [show (sessionOf a b securityA).maxMessageSize = (sessionOf b a securityB).maxMessageSize
      from min_comm _ _]
    exact decodeSessionFrame_application h

/-- **Both ends negotiate the same session.**  Each end gets the hello of the
other: they get sessions together, exactly when versions and serializers are
equal; an end without one has closed its connection; and the sessions agree. -/
theorem negotiation_agrees {a b : HandshakeOffer F} {fa fb : Bytes}
    {expectedA expectedB : Option Str} {securityA securityB : SecurityInfo}
    {requireA requireB : Bool}
    (ha : (Value.dict a.metadata).Native) (hb : (Value.dict b.metadata).Native)
    (hfa : encodeHello a = .ok fa) (hfb : encodeHello b = .ok fb)
    (hidA : IdentityFits expectedA securityA requireA b.peerId)
    (hidB : IdentityFits expectedB securityB requireB a.peerId) :
    let endA := negotiateProtocol a expectedA securityA requireA (.received fb)
    let endB := negotiateProtocol b expectedB securityB requireB (.received fa)
    ((∃ s, endA.result = .ok s) ↔ a.version = b.version ∧ a.serializerId = b.serializerId) ∧
      ((∃ s, endA.result = .ok s) ↔ ∃ s, endB.result = .ok s) ∧
      ((∀ s, endA.result ≠ .ok s) → endA.isClosed = true) ∧
      ((∀ s, endB.result ≠ .ok s) → endB.isClosed = true) ∧
      ∀ sa sb, endA.result = .ok sa → endB.result = .ok sb → SessionsAgree a b sa sb := by
  intro endA endB
  rcases negotiateProtocol_received hb hfa hfb hidA with ⟨hv, hs, hendA⟩ | ⟨hne, e, hendA⟩ <;>
    rcases negotiateProtocol_received ha hfb hfa hidB with ⟨hv', hs', hendB⟩ | ⟨hne', e', hendB⟩
  · have hA : endA = _ := hendA
    have hB : endB = _ := hendB
    refine ⟨?_, ?_, ?_, ?_, ?_⟩
    · simp [hA, hv, hs]
    · simp [hA, hB]
    · simp [hA]
    · simp [hB]
    · rw [hA, hB]
      rintro sa sb hsa hsb
      obtain rfl := Except.ok.inj hsa
      obtain rfl := Except.ok.inj hsb
      exact sessionsAgree_sessionOf hv hs
  · exact absurd ⟨hv.symm, hs.symm⟩ hne'
  · exact absurd ⟨hv'.symm, hs'.symm⟩ hne
  · have hA : endA = _ := hendA
    have hB : endB = _ := hendB
    refine ⟨?_, ?_, ?_, ?_, ?_⟩
    · simp [hA, hne]
    · simp [hA, hB]
    · simp [hA]
    · simp [hB]
    · simp [hA]

/-! ## A pair of offers -/

/-- Floats of which `1.0` is the finite one. -/
inductive SampleFloat
  | one
  | nan
  | inf
  | negInf
  deriving DecidableEq, Repr

instance : PyFloat SampleFloat where
  isFinite x := x = .one
  repr _ := ofChars ['1', '.', '0']
  ofText _ := .one
  nan := .nan
  inf := .inf
  negInf := .negInf
  isFinite_nan := rfl
  isFinite_inf := rfl
  isFinite_negInf := rfl
  repr_floatText _ _ :=
    ⟨[], [49], [46, 48], [], rfl, Or.inl rfl, Or.inr ⟨49, [], rfl, by decide, rfl, by simp⟩,
      Or.inr ⟨[48], rfl, by simp, by decide⟩, Or.inl rfl, by simp⟩
  ofText_repr _ hx := (of_decide_eq_true hx).symm

/-- An offer. -/
def sampleOffer (peerId : Str) (hp : peerId ≠ []) (capabilities : List Str)
    (hne : ∀ c ∈ capabilities, c ≠ []) (hnodup : capabilities.Nodup) :
    HandshakeOffer SampleFloat where
  peerId := peerId
  serializerId := ofChars ['j', 's', 'o', 'n']
  version := protocolVersion
  capabilities := capabilities
  maxMessageSize := 512
  metadata := [(.str (ofChars ['o', 's']), .list [.none, .float .one, .str []])]
  peerId_ne := hp
  serializerId_ne := by decide
  one_le_version := by decide
  capabilities_ne := hne
  capabilities_nodup := hnodup
  maxMessageSize_pos := by decide

/-- Its metadata are JSON. -/
theorem sampleOffer_native {p : Str} {hp : p ≠ []} {cs : List Str} {hne : ∀ c ∈ cs, c ≠ []}
    {hnodup : cs.Nodup} : (Value.dict (sampleOffer p hp cs hne hnodup).metadata).Native := by
  simp [sampleOffer, Value.Native, Value.NativeMembers, Value.NativeItems]

/-- The offer of A. -/
def sampleA : HandshakeOffer SampleFloat :=
  sampleOffer (ofChars ['a']) (by decide) [technicalAckCapability, heartbeatCapability] (by decide)
    (by decide)

/-- The offer of B. -/
def sampleB : HandshakeOffer SampleFloat :=
  sampleOffer (ofChars ['b']) (by decide) [heartbeatCapability, technicalAckCapability] (by decide)
    (by decide)

set_option maxRecDepth 8000 in
/-- The hello of A can be written. -/
theorem sampleA_encodes : ∃ frame, encodeHello sampleA = .ok frame := by
  have hbits : ¬ (Nat.log2 512 + 1 > 4096) ∧ ¬ (Nat.log2 1 + 1 > 4096) := by decide
  have hsafe : isSafeJsonValue (.dict (helloPayload sampleA)) = true := by
    simp [isSafeJsonValue, isSafeLoop, safeNested, helloPayload, sampleA, sampleOffer,
      maxJsonNesting, PyFloat.isFinite, bitLength, maxJsonIntegerBits, protocolVersion, hbits]
  rw [encodeHello, encodeControl, if_pos hsafe]
  exact ⟨_, rfl⟩

set_option maxRecDepth 8000 in
/-- So can that of B. -/
theorem sampleB_encodes : ∃ frame, encodeHello sampleB = .ok frame := by
  have hbits : ¬ (Nat.log2 512 + 1 > 4096) ∧ ¬ (Nat.log2 1 + 1 > 4096) := by decide
  have hsafe : isSafeJsonValue (.dict (helloPayload sampleB)) = true := by
    simp [isSafeJsonValue, isSafeLoop, safeNested, helloPayload, sampleB, sampleOffer,
      maxJsonNesting, PyFloat.isFinite, bitLength, maxJsonIntegerBits, protocolVersion, hbits]
  rw [encodeHello, encodeControl, if_pos hsafe]
  exact ⟨_, rfl⟩

/-- The two ends get a session each, from the hello frame of the other. -/
theorem negotiation_agrees_sample : ∃ fa fb sa sb,
    encodeHello sampleA = .ok fa ∧ encodeHello sampleB = .ok fb ∧
    (negotiateProtocol sampleA (some sampleB.peerId) ⟨false, none⟩ false
      (.received fb)).result = .ok sa ∧
    (negotiateProtocol sampleB none ⟨false, none⟩ false (.received fa)).result = .ok sb ∧
    SessionsAgree sampleA sampleB sa sb := by
  obtain ⟨fa, hfa⟩ := sampleA_encodes
  obtain ⟨fb, hfb⟩ := sampleB_encodes
  obtain ⟨hiff, hboth, _, _, hagree⟩ := negotiation_agrees sampleOffer_native sampleOffer_native
    hfa hfb
    (⟨by simp, by simp, by simp⟩ :
      IdentityFits (some sampleB.peerId) ⟨false, none⟩ false sampleB.peerId)
    (⟨by simp, by simp, by simp⟩ : IdentityFits none ⟨false, none⟩ false sampleA.peerId)
  obtain ⟨sa, hsa⟩ := hiff.2 ⟨rfl, rfl⟩
  obtain ⟨sb, hsb⟩ := hboth.1 ⟨sa, hsa⟩
  exact ⟨fa, fb, sa, sb, hfa, hfb, hsa, hsb, hagree sa sb hsa hsb⟩

end Core
end Paqto
