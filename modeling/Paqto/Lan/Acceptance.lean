/-
# What one end encodes, the other end accepts, when it is portable

`_encode_hello` and `_encode_packet` check what they are given; the decoders
check what JSON makes of it.  A frame or datagram that was encoded is accepted
exactly when the metadata in it is portable (`encoded_accepted_iff`): with two
keys that become one name, with tuples nested too deep, or with a large integer
in a tuple, the other end refuses it.
-/

import Paqto.Core.Portable
import Paqto.Lan.Discovery

namespace Paqto
namespace Lan

open Python Paqto.Core

variable {F : Type} [PyFloat F]

/-! ## Hello frames -/

/-- The fields that a decoded hello repeats. -/
structure SameOffer (offer remote : HandshakeOffer F) : Prop where
  peerId : remote.peerId = offer.peerId
  serializerId : remote.serializerId = offer.serializerId
  version : remote.version = offer.version
  capabilities : remote.capabilities = offer.capabilities
  maxMessageSize : remote.maxMessageSize = offer.maxMessageSize

/-- What is written is safe and small. -/
theorem encodeControl_ok {payload : List (Key F × Value F)} {frame : Bytes}
    (h : encodeControl payload = .ok frame) :
    Safe 0 (.dict payload) ∧ ∃ text encoded, dumps (.dict payload) = some text ∧
      encodeUtf8 text = some encoded ∧ encoded.length ≤ maxControlPayloadSize ∧
      frame = controlFrame :: encoded := by
  unfold encodeControl at h
  split at h
  · rename_i hsafe
    split at h
    · cases h
    · rename_i encoded henc
      split at h
      · cases h
      · rename_i hlen
        obtain ⟨text, htext, hutf⟩ := Option.bind_eq_some_iff.1 henc
        exact ⟨(isSafeJsonValue_iff _).1 hsafe, text, encoded, htext, hutf, Nat.le_of_not_lt hlen,
          (Except.ok.inj h).symm⟩
  · cases h

/-- The decoder takes what is read back, when it is safe. -/
theorem decodeControl_iff {payload raw : List (Key F × Value F)} {text : Str} {encoded : Bytes}
    (htext : dumps (.dict payload) = some text) (hutf : encodeUtf8 text = some encoded)
    (hlen : encoded.length ≤ maxControlPayloadSize) :
    decodeControl encoded = .ok raw ↔
      reread uniqueHooks id (.dict payload) = some (.dict raw) ∧ Safe 0 (.dict raw) := by
  have hloads : loads uniqueJsonObject text = reread uniqueHooks id (.dict payload) :=
    loadsWith_dumpsWith stringText_readsAs htext
  rw [decodeControl, if_neg (Nat.not_lt.2 hlen), decodeUtf8_encodeUtf8 hutf, Option.bind_some,
    hloads, ← isSafeJsonValue_iff]
  cases reread uniqueHooks id (.dict payload) with
  | none => simp
  | some v =>
      cases v with
      | dict raw' =>
          cases hsafe : Core.isSafeJsonValue (.dict raw' : Value F) with
          | true =>
              simp only [hsafe, if_true, Except.ok.injEq, Option.some.injEq, Value.dict.injEq]
              exact ⟨fun h => ⟨h, h ▸ hsafe⟩, And.left⟩
          | false =>
              simp only [hsafe, Bool.false_eq_true, if_false, reduceCtorEq, Option.some.injEq,
                Value.dict.injEq, false_iff]
              rintro ⟨rfl, h⟩
              rw [hsafe] at h
              cases h
      | _ => simp

/-- Names are read back. -/
theorem rereadItems_strs (hooks : Hooks F) (l : List Str) :
    rereadItems hooks id (l.map (Value.str (F := F))) = some (l.map .str) := by
  induction l with
  | nil => rfl
  | cons s l ih =>
      rw [List.map_cons, rereadItems, ih]
      rfl

/-- Names are portable. -/
theorem portableItems_strs (read : Str → Str) (depth : ℕ) (l : List Str) :
    PortableItems read depth (l.map (Value.str (F := F))) := by
  induction l with
  | nil => trivial
  | cons s l ih => exact ⟨trivial, ih⟩

/-- The fields of a hello have different names. -/
theorem helloPayload_names (offer : HandshakeOffer F) :
    (names id (helloPayload offer)).Nodup := by
  have hnames : names id (helloPayload offer) =
      [magicKey, typeKey, versionKey, peerIdKey, capabilitiesKey, serializerKey, maxMessageSizeKey,
        metadataKey].map some := rfl
  rw [hnames]
  decide

/-- All but the metadata of a hello is portable when it is safe. -/
theorem helloPayload_portable_iff {offer : HandshakeOffer F}
    (hsafe : Safe 0 (.dict (helloPayload offer))) :
    Portable id 0 (.dict (helloPayload offer)) ↔ Portable id 1 (.dict offer.metadata) := by
  have hversion : Portable id 1 (.int offer.version : Value F) := hsafe.2.2.2.1
  have hmax : Portable id 1 (.int offer.maxMessageSize : Value F) := hsafe.2.2.2.2.2.2.2.1
  have hcaps : Portable id 1 (.list (offer.capabilities.map .str) : Value F) :=
    ⟨by decide, portableItems_strs id 2 offer.capabilities⟩
  constructor
  · rintro ⟨_, _, _, _, _, _, _, _, _, hmeta, _⟩
    exact hmeta
  · intro hmeta
    exact ⟨by decide, helloPayload_names offer, trivial, trivial, hversion, trivial, hcaps, trivial,
      hmax, hmeta, trivial⟩

/-- A dict is read as a dict. -/
theorem reread_dict {read : Str → Str} {items : List (Key F × Value F)} {v : Value F}
    (h : reread uniqueHooks read (.dict items) = some v) :
    ∃ pairs, rereadMembers uniqueHooks read items = some pairs ∧ (pairs.map Prod.fst).Nodup ∧
      v = .dict (members pairs) := by
  rw [reread, Option.bind_eq_some_iff] at h
  obtain ⟨pairs, hpairs, hv⟩ := h
  by_cases hnd : (pairs.map Prod.fst).Nodup
  · exact ⟨pairs, hpairs, hnd,
      (Option.some.inj ((uniqueJsonObject_of_nodup pairs hnd).symm.trans hv)).symm⟩
  · cases (uniqueJsonObject_eq_none hnd).symm.trans hv

/-- Members are read one by one. -/
theorem rereadMembers_str {hooks : Hooks F} {read : Str → Str} {k : Str} {v : Value F}
    {items : List (Key F × Value F)} {pairs : List (Str × Value F)} :
    rereadMembers hooks read ((.str k, v) :: items) = some pairs ↔
      ∃ v' rest, reread hooks read v = some v' ∧ rereadMembers hooks read items = some rest ∧
        pairs = (read k, v') :: rest := by
  rw [rereadMembers]
  simp only [keyText, Option.bind_eq_bind, Option.bind_some, Option.bind_eq_some_iff,
    Option.pure_def, Option.some.injEq]
  constructor
  · rintro ⟨v', hv, rest, hr, h⟩
    exact ⟨v', rest, hv, hr, h.symm⟩
  · rintro ⟨v', rest, hv, hr, h⟩
    exact ⟨v', hv, rest, hr, h.symm⟩

/-- A hello is read as a hello, with other metadata. -/
theorem reread_helloPayload {offer : HandshakeOffer F} {v : Value F}
    (h : reread uniqueHooks id (.dict (helloPayload offer)) = some v) :
    ∃ metadata, v = .dict (helloPayload { offer with metadata }) := by
  obtain ⟨pairs, hpairs, _, rfl⟩ := reread_dict h
  unfold helloPayload at hpairs
  obtain ⟨_, _, ⟨⟩, h₁, rfl⟩ := rereadMembers_str.1 hpairs
  obtain ⟨_, _, ⟨⟩, h₂, rfl⟩ := rereadMembers_str.1 h₁
  obtain ⟨_, _, ⟨⟩, h₃, rfl⟩ := rereadMembers_str.1 h₂
  obtain ⟨_, _, ⟨⟩, h₄, rfl⟩ := rereadMembers_str.1 h₃
  obtain ⟨_, _, hcaps, h₅, rfl⟩ := rereadMembers_str.1 h₄
  rw [reread, rereadItems_strs] at hcaps
  obtain rfl := Option.some.inj hcaps
  obtain ⟨_, _, ⟨⟩, h₆, rfl⟩ := rereadMembers_str.1 h₅
  obtain ⟨_, _, ⟨⟩, h₇, rfl⟩ := rereadMembers_str.1 h₆
  obtain ⟨_, _, hmeta, h₈, rfl⟩ := rereadMembers_str.1 h₇
  obtain ⟨metadata, _, _, rfl⟩ := reread_dict hmeta
  rw [rereadMembers] at h₈
  obtain rfl := Option.some.inj h₈
  exact ⟨members metadata, rfl⟩

/-- **A hello that was encoded is accepted exactly when its metadata is portable.** -/
theorem decodeHello_iff {offer : HandshakeOffer F} {frame : Bytes}
    (h : encodeHello offer = .ok frame) :
    (∃ remote, decodeHello frame = .ok remote ∧ SameOffer offer remote) ↔
      Portable id 1 (.dict offer.metadata) := by
  have hcontrol : encodeControl (helloPayload offer) = .ok frame := by
    unfold encodeHello at h
    split at h
    · rename_i hc
      rw [hc, Except.ok.inj h]
    · cases h
  obtain ⟨hsafe, text, encoded, htext, hutf, hlen, rfl⟩ := encodeControl_ok hcontrol
  rw [← helloPayload_portable_iff hsafe, ← reread_safe_iff _ 0 htext]
  constructor
  · rintro ⟨remote, hremote, _⟩
    simp only [decodeHello, splitFrame, ne_eq, not_true_eq_false, if_false,
      if_neg (Nat.not_lt.2 hlen)] at hremote
    cases hc : decodeControl (F := F) encoded with
    | error e =>
        simp only [hc] at hremote
        cases hremote
    | ok raw =>
        obtain ⟨hread, hs⟩ := (decodeControl_iff htext hutf hlen).1 hc
        exact ⟨_, hread, hs⟩
  · rintro ⟨v, hread, hs⟩
    obtain ⟨metadata, rfl⟩ := reread_helloPayload hread
    have hc := (decodeControl_iff htext hutf hlen).2 ⟨hread, hs⟩
    simp only [decodeHello, splitFrame, ne_eq, not_true_eq_false, if_false,
      if_neg (Nat.not_lt.2 hlen), hc]
    exact ⟨_, decodeOffer_helloPayload { offer with metadata }, ⟨rfl, rfl, rfl, rfl, rfl⟩⟩

/-! ## Announcements -/

/-- What is written is small. -/
theorem encodePacket_ok {settings : Settings F} {payload : List (Key F × Value F)} {data : Bytes}
    (h : encodePacket settings payload = .ok data) :
    ∃ text, dumpsAscii (.dict payload) = some text ∧ encodeUtf8 text = some data ∧
      data.length ≤ settings.maxDatagramSize := by
  unfold encodePacket at h
  split at h
  · split at h
    · cases h
    · rename_i encoded henc
      split at h
      · cases h
      · rename_i hlen
        obtain ⟨text, htext, hutf⟩ := Option.bind_eq_some_iff.1 henc
        obtain rfl := Except.ok.inj h
        exact ⟨text, htext, hutf, Nat.le_of_not_lt hlen⟩
  · cases h

/-- A packet is accepted when what is read back is safe and of this version. -/
theorem decodePacket_iff {payload raw : List (Key F × Value F)} {text : Str} {data : Bytes}
    (htext : dumpsAscii (.dict payload) = some text) (hutf : encodeUtf8 text = some data) :
    decodePacket data = some raw ↔
      reread uniqueHooks joinSurrogates (.dict payload) = some (.dict raw) ∧ Safe 0 (.dict raw) ∧
        isDiscoveryVersion (dictGet raw paqtoKey) = true := by
  have hloads : loads uniqueJsonObject text = reread uniqueHooks joinSurrogates (.dict payload) :=
    loadsWith_dumpsWith asciiText_readsAs htext
  rw [decodePacket, decodeUtf8_encodeUtf8 hutf, Option.bind_some, hloads, ← isSafeJsonValue_iff]
  cases reread uniqueHooks joinSurrogates (.dict payload) with
  | none => simp
  | some v =>
      cases v with
      | dict raw' =>
          cases hsafe : Core.isSafeJsonValue (.dict raw' : Value F) with
          | true =>
              cases hver : isDiscoveryVersion (dictGet raw' paqtoKey) with
              | true =>
                  simp only [isSafeJsonValue, hsafe, hver, Bool.not_true, Bool.false_eq_true,
                    if_false, Option.some.injEq, Value.dict.injEq]
                  exact ⟨fun h => ⟨h, h ▸ hsafe, h ▸ hver⟩, And.left⟩
              | false =>
                  simp only [isSafeJsonValue, hsafe, hver, Bool.not_true, Bool.false_eq_true,
                    if_false, Bool.not_false, if_true, reduceCtorEq, Option.some.injEq,
                    Value.dict.injEq, false_iff]
                  rintro ⟨rfl, _, h⟩
                  rw [hver] at h
                  cases h
          | false =>
              simp only [isSafeJsonValue, hsafe, Bool.not_false, if_true, reduceCtorEq,
                Option.some.injEq, Value.dict.injEq, false_iff]
              rintro ⟨rfl, h, _⟩
              rw [hsafe] at h
              cases h
      | _ => simp

/-- The metadata of an announcement is portable, each at its depth. -/
structure PortableAnnouncement (d : LanDiscovery F) (localPeer : Peer F) : Prop where
  peer : Portable joinSurrogates 2 (.dict localPeer.metadata)
  endpoints : ∀ endpoint ∈ d.endpoints, Portable joinSurrogates 3 (.dict endpoint.metadata)
  service : Portable joinSurrogates 1 (.dict d.settings.metadata)

/-- An endpoint is portable when its metadata are. -/
theorem portable_endpointPayload (endpoint : Endpoint F) :
    Portable joinSurrogates 2 (endpointPayload endpoint) ↔
      Portable joinSurrogates 3 (.dict endpoint.metadata) := by
  have hnames : (names joinSurrogates
      [(.str transportKey, .str endpoint.transport), (.str addressKey, .str endpoint.address),
        (.str metadataKey, .dict endpoint.metadata)] : List (Option Str)).Nodup := by
    have heq : names joinSurrogates
        [(.str transportKey, .str endpoint.transport), (.str addressKey, .str endpoint.address),
          (.str metadataKey, .dict endpoint.metadata)] =
        [transportKey, addressKey, metadataKey].map fun k => some (joinSurrogates k) := rfl
    rw [heq]
    decide
  constructor
  · rintro ⟨_, _, _, _, hmeta, _⟩
    exact hmeta
  · exact fun hmeta => ⟨by decide, hnames, trivial, trivial, hmeta, trivial⟩

/-- So are endpoints. -/
theorem portable_endpoints (endpoints : List (Endpoint F)) :
    PortableItems joinSurrogates 2 (endpoints.map endpointPayload) ↔
      ∀ endpoint ∈ endpoints, Portable joinSurrogates 3 (.dict endpoint.metadata) := by
  induction endpoints with
  | nil => simp [PortableItems]
  | cons endpoint endpoints ih =>
      rw [List.map_cons, PortableItems, portable_endpointPayload, ih, List.forall_mem_cons]

/-- The payload of an announcement is portable when its metadata is. -/
theorem portable_announcePayload {d : LanDiscovery F} {localPeer : Peer F}
    {payload : List (Key F × Value F)} (hlocal : d.localPeer = some localPeer)
    (h : announcePayload d = .ok payload) :
    Portable joinSurrogates 0 (.dict payload) ↔ PortableAnnouncement d localPeer := by
  unfold announcePayload at h
  rw [hlocal] at h
  obtain rfl := Except.ok.inj h
  have hname : Portable joinSurrogates 2 (((localPeer.name.map .str).getD .none : Value F)) := by
    cases localPeer.name <;> trivial
  have hversion : Portable joinSurrogates 1 (.int discoveryVersion : Value F) := by
    change bitLength 1 ≤ maxJsonIntegerBits
    decide
  constructor
  · rintro ⟨_, _, _, _, ⟨_, _, _, _, hpeer, _⟩, ⟨_, hend⟩, hmeta, _⟩
    exact ⟨hpeer, (portable_endpoints d.endpoints).1 hend, hmeta⟩
  · rintro ⟨hpeer, hend, hmeta⟩
    refine ⟨by decide, ?_, hversion, trivial, ⟨by decide, ?_, trivial, hname, hpeer, trivial⟩,
      ⟨by decide, (portable_endpoints d.endpoints).2 hend⟩, hmeta, trivial⟩
    · change ([paqtoKey, kindKey, peerKey, endpointsKey, metadataKey].map
        fun k => some (joinSurrogates k)).Nodup
      decide
    · change ([idKey, nameKey, metadataKey].map fun k => some (joinSurrogates k)).Nodup
      decide

/-- **An announcement that was encoded is accepted exactly when its metadata is
portable.** -/
theorem decodePacket_announcement_iff {d : LanDiscovery F} {localPeer : Peer F}
    {payload : List (Key F × Value F)} {data : Bytes} (hlocal : d.localPeer = some localPeer)
    (hpayload : announcePayload d = .ok payload) (h : encodePacket d.settings payload = .ok data) :
    (data.length ≤ d.settings.maxDatagramSize ∧ ∃ raw : List (Key F × Value F),
      decodePacket data = some raw) ↔ PortableAnnouncement d localPeer := by
  obtain ⟨text, htext, hutf, hlen⟩ := encodePacket_ok h
  rw [← portable_announcePayload hlocal hpayload, ← reread_safe_iff _ 0 htext, and_iff_right hlen]
  constructor
  · rintro ⟨raw, hraw⟩
    obtain ⟨hread, hsafe, _⟩ := (decodePacket_iff htext hutf).1 hraw
    exact ⟨_, hread, hsafe⟩
  · rintro ⟨v, hread, hsafe⟩
    obtain ⟨pairs, hpairs, _, rfl⟩ := reread_dict hread
    refine ⟨members pairs, (decodePacket_iff htext hutf).2 ⟨hread, hsafe, ?_⟩⟩
    unfold announcePayload at hpayload
    rw [hlocal] at hpayload
    obtain rfl := Except.ok.inj hpayload
    obtain ⟨_, _, ⟨⟩, _, rfl⟩ := rereadMembers_str.1 hpairs
    rfl

/-- **What the local encoder accepts, the other end accepts, exactly when the
metadata is portable.**  For every hello and every announcement that was encoded:
the other end takes it, the hello with the same fields, if and only if in the
metadata no dict has two keys that become one name, nesting stays below the limit
with tuples counted, and integers are small in tuples too. -/
theorem encoded_accepted_iff :
    (∀ (offer : HandshakeOffer F) (frame : Bytes), encodeHello offer = .ok frame →
      ((∃ remote, decodeHello frame = .ok remote ∧ SameOffer offer remote) ↔
        Portable id 1 (.dict offer.metadata))) ∧
    (∀ (d : LanDiscovery F) (localPeer : Peer F) (payload : List (Key F × Value F)) (data : Bytes),
      d.localPeer = some localPeer → announcePayload d = .ok payload →
      encodePacket d.settings payload = .ok data →
      ((data.length ≤ d.settings.maxDatagramSize ∧ ∃ raw : List (Key F × Value F),
        decodePacket data = some raw) ↔ PortableAnnouncement d localPeer)) :=
  ⟨fun _ _ h => decodeHello_iff h, fun _ _ _ _ hlocal hpayload h =>
    decodePacket_announcement_iff hlocal hpayload h⟩

/-- The hello of `sampleA`, with a list in its metadata, is accepted. -/
theorem encoded_accepted_sample : ∃ frame, encodeHello sampleA = .ok frame ∧
    ∃ remote, decodeHello frame = .ok remote ∧ SameOffer sampleA remote := by
  obtain ⟨frame, hframe⟩ := sampleA_encodes
  exact ⟨frame, hframe, (encoded_accepted_iff.1 sampleA frame hframe).2
    ⟨by decide, by decide, ⟨by decide, trivial, trivial, trivial, trivial⟩, trivial⟩⟩

/-! ## A hello that is refused -/

/-- The metadata `{1: "a", "1": "b"}`. -/
def twiceNamed : List (Key SampleFloat × Value SampleFloat) :=
  [(.int 1, .str (ofChars ['a'])), (.str (ofChars ['1']), .str (ofChars ['b']))]

/-- An offer whose metadata name a field twice. -/
def refusedOffer : HandshakeOffer SampleFloat := { sampleA with metadata := twiceNamed }

set_option maxRecDepth 8000 in
/-- Its hello can be written. -/
theorem refusedOffer_encodes : ∃ frame, encodeHello refusedOffer = .ok frame := by
  have hbits : ¬ (Nat.log2 512 + 1 > 4096) ∧ ¬ (Nat.log2 1 + 1 > 4096) := by decide
  have hsafe : Core.isSafeJsonValue (.dict (helloPayload refusedOffer)) = true := by
    simp [Core.isSafeJsonValue, isSafeLoop, safeNested, helloPayload, refusedOffer, twiceNamed,
      sampleA, sampleOffer, maxJsonNesting, bitLength, maxJsonIntegerBits, protocolVersion, hbits]
  rw [encodeHello, encodeControl, if_pos hsafe]
  exact ⟨_, rfl⟩

/-- Not every hello that was encoded is accepted: with the keys `1` and `"1"` in
its metadata it has the name `"1"` twice. -/
theorem not_encoded_accepted :
    ¬ ∀ (offer : HandshakeOffer SampleFloat) (frame : Bytes), encodeHello offer = .ok frame →
      ∃ remote, decodeHello frame = .ok remote ∧ SameOffer offer remote := by
  intro h
  obtain ⟨frame, hframe⟩ := refusedOffer_encodes
  have hportable := (decodeHello_iff hframe).1 (h refusedOffer frame hframe)
  exact absurd hportable.2.1 (by decide)

end Lan
end Paqto
