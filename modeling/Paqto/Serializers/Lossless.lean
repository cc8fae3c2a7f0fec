/-
# The built-in serializers are lossless

Bytes that a serializer made are the text of one sorted envelope, and decoding
takes that envelope apart again (`decode_envelope_bytes`).  So what was
serialized comes back with equal fields, two messages with the same bytes have
equal fields, and the order of members leaves no trace in the bytes
(`serializers_lossless`).
-/

import Paqto.Core.Negotiation
import Paqto.Serializers.Limits

namespace Paqto
namespace Serializers

open Python Paqto.Core

variable {F D : Type} [PyFloat F] [PyDatetime D]

/-! ## Valid messages -/

omit [PyFloat F] in
/-- The fields pass, and `created_at` is an aware `datetime`. -/
theorem validateMessageFields_iff {m : Message (Body F D)} :
    validateMessageFields m = .ok () ↔ (∀ f : EnvelopeField, f.passes m = true) ∧
      ∃ d, m.payload.createdAt = some d ∧ PyDatetime.isAware d = true := by
  have hfields : ([EnvelopeField.type, .id, .sender, .recipient, .replyTo, .headers].find? fun f =>
      !f.passes m) = none ↔ ∀ f : EnvelopeField, f.passes m = true := by
    rw [List.find?_eq_none]
    constructor
    · intro h f
      have hf := h f (by cases f <;> decide)
      simpa using hf
    · intro h f _
      simp [h f]
  unfold validateMessageFields
  split
  · rename_i f hf
    refine iff_of_false (by simp) fun h => ?_
    rw [hfields.2 h.1] at hf
    cases hf
  · rename_i hf
    rw [and_iff_right (hfields.1 hf)]
    cases m.payload.createdAt with
    | none => simp
    | some d => cases hd : PyDatetime.isAware d <;> simp [hd]

/-- `None` or a string. -/
def Attr.IsText (a : Attr) : Prop := a = .none ∨ ∃ s, a = .str s

/-- An optional identifier is a text or absent. -/
theorem isText_of_optional {a : Attr} (h : a.isOptionalIdentifier = true) : Attr.IsText a := by
  cases a with
  | none => exact Or.inl rfl
  | str s => exact Or.inr ⟨s, rfl⟩
  | other => simp [Attr.isOptionalIdentifier, Attr.identifier] at h

/-- An identifier is a text. -/
theorem isText_of_identifier {a : Attr} (h : a.identifier.isSome = true) : Attr.IsText a := by
  cases a with
  | str s => exact Or.inr ⟨s, rfl⟩
  | _ => simp [Attr.identifier] at h

omit [PyFloat F] in
/-- An attribute comes back from the envelope. -/
theorem valueAttr_attrValue {a : Attr} (h : Attr.IsText a) :
    valueAttr (some (attrValue a : Value F)) = a := by
  rcases h with rfl | ⟨s, rfl⟩ <;> rfl

omit [PyFloat F] in
/-- A field has no names to sort. -/
theorem sortKeys_attrValue (a : Attr) : sortKeys (attrValue a : Value F) = some (attrValue a) := by
  cases a <;> rfl

omit [PyFloat F] in
/-- A field is JSON. -/
theorem native_attrValue (a : Attr) : (attrValue a : Value F).Native := by
  cases a <;> trivial

/-- The fields of a message that are texts. -/
structure TextFields (m : Message (Body F D)) : Prop where
  type : Attr.IsText m.type
  sender : Attr.IsText m.sender
  recipient : Attr.IsText m.recipient
  id : Attr.IsText m.id
  replyTo : Attr.IsText m.replyTo

omit [PyFloat F] [PyDatetime D] in
/-- The fields of a valid message are texts. -/
theorem textFields_of_passes {m : Message (Body F D)} (h : ∀ f : EnvelopeField, f.passes m = true) :
    TextFields m :=
  ⟨isText_of_identifier (h .type), isText_of_optional (h .sender), isText_of_optional (h .recipient),
    isText_of_identifier (h .id), isText_of_optional (h .replyTo)⟩

/-! ## Headers -/

/-- The headers of names and texts. -/
def textHeaders (texts : List (Str × Str)) : List (Attr × Attr) :=
  texts.map fun p => (.str p.1, .str p.2)

/-- Headers that pass are names and texts. -/
theorem exists_textHeaders {headers : Option (List (Attr × Attr))}
    (h : headersAreStrings headers = true) : ∃ texts, headers = some (textHeaders texts) := by
  cases headers with
  | none => cases h
  | some items =>
      induction items with
      | nil => exact ⟨[], rfl⟩
      | cons p items ih =>
          rw [headersAreStrings, List.all_cons, Bool.and_eq_true] at h
          obtain ⟨texts, htexts⟩ := ih h.2
          obtain rfl := Option.some.inj htexts
          obtain ⟨k, v⟩ := p
          cases k with
          | str k =>
              cases v with
              | str v => exact ⟨(k, v) :: texts, rfl⟩
              | _ => cases h.1
          | _ => cases h.1

/-- The headers in the envelope, as members. -/
def headerPairs (texts : List (Str × Str)) : List (Str × Value F) :=
  texts.map fun p => (p.1, .str p.2)

omit [PyFloat F] in
/-- Headers are an object of texts. -/
theorem headersValue_textHeaders (texts : List (Str × Str)) :
    headersValue (some (textHeaders texts)) = .dict (members (F := F) (headerPairs texts)) := by
  simp [headersValue, textHeaders, members, headerPairs, attrKey, attrValue, Function.comp_def]

omit [PyFloat F] in
/-- The headers, sorted. -/
theorem sortKeys_headers (texts : List (Str × Str)) :
    sortKeys (.dict (members (F := F) (headerPairs texts))) =
      some (.dict (members (sortPairs (headerPairs texts)))) := by
  have hall : ∀ p ∈ headerPairs (F := F) texts, sortKeys p.2 = some p.2 := by
    intro p hp
    obtain ⟨q, _, rfl⟩ := List.mem_map.1 hp
    rfl
  rw [sortKeys, sortMembers_members hall]
  rfl

omit [PyFloat F] in
/-- Headers come back in the order of their names. -/
theorem valueHeaders_sorted (texts : List (Str × Str)) :
    ∃ items, valueHeaders (some (.dict (members (F := F) (sortPairs (headerPairs texts))))) =
      some items ∧ (textHeaders texts).Perm items := by
  refine ⟨_, rfl, ?_⟩
  have hperm := ((sortPairs_perm (headerPairs (F := F) texts)).symm.map fun p =>
    (Attr.str p.1, valueAttr (some p.2)))
  have htexts : ((headerPairs (F := F) texts).map fun p =>
      (Attr.str p.1, valueAttr (some p.2))) = textHeaders texts := by
    simp [headerPairs, textHeaders, valueAttr, Function.comp_def]
  rw [htexts] at hperm
  simpa [members, List.map_map, Function.comp_def, keyAttr] using hperm

/-- The order of headers does not matter. -/
theorem headersAreStrings_perm {texts : List (Str × Str)} {items : List (Attr × Attr)}
    (h : (textHeaders texts).Perm items) : headersAreStrings (some items) = true := by
  rw [headersAreStrings, List.all_eq_true]
  intro p hp
  obtain ⟨q, _, rfl⟩ := List.mem_map.1 (h.mem_iff.2 hp)
  rfl

omit [PyFloat F] in
/-- Headers with different names are JSON. -/
theorem native_headers {texts : List (Str × Str)} (h : ((textHeaders texts).map Prod.fst).Nodup) :
    (Value.dict (members (F := F) (headerPairs texts))).Native := by
  refine ⟨Value.nativeMembers_iff.2 fun p hp => ?_, ?_⟩
  · obtain ⟨q, hq, rfl⟩ := List.mem_map.1 hp
    obtain ⟨r, _, rfl⟩ := List.mem_map.1 hq
    exact ⟨⟨_, rfl⟩, trivial⟩
  · have hnames : (textHeaders texts).map Prod.fst = (texts.map Prod.fst).map Attr.str := by
      simp [textHeaders, List.map_map, Function.comp_def]
    have hmap : (members (F := F) (headerPairs texts)).map Prod.fst =
        (texts.map Prod.fst).map Key.str := by
      simp [members, headerPairs, List.map_map, Function.comp_def]
    rw [hnames] at h
    rw [hmap]
    exact h.of_map.map fun _ _ => Key.str.inj

/-! ## The sorted envelope -/

/-- The members of an envelope in the order in which they are written. -/
def envelopePairs (m : Message (Body F D)) (payload headers : Value F) (createdAt : Str) :
    List (Str × Value F) :=
  [(createdAtKey, .str createdAt),
    (headersKey, headers),
    (idKey, attrValue m.id),
    (payloadKey, payload),
    (recipientKey, attrValue m.recipient),
    (replyToKey, attrValue m.replyTo),
    (senderKey, attrValue m.sender),
    (typeKey, attrValue m.type)]

/-- What the bytes of a message are the text of. -/
structure Written (m : Message (Body F D)) (payload : Value F) (data : Bytes) : Prop where
  fields : ∀ f : EnvelopeField, f.passes m = true
  text : ∃ d texts sorted, m.payload.createdAt = some d ∧ PyDatetime.isAware d = true ∧
    m.headers = some (textHeaders texts) ∧ sortKeys payload = some sorted ∧
    decodeJson data = .ok (.dict (members (envelopePairs m sorted
      (.dict (members (sortPairs (headerPairs texts)))) (PyDatetime.isoformat d))))

/-- **What is written sorted is read back.** -/
theorem decodeJson_encodeJson {value sorted : Value F} {data : Bytes}
    (hsort : sortKeys value = some sorted) (hn : sorted.Native) (h : encodeJson value = .ok data) :
    decodeJson data = .ok sorted := by
  unfold encodeJson at h
  rw [hsort, Option.bind_some] at h
  split at h
  · cases h
  · rename_i encoded henc
    obtain rfl := Except.ok.inj h
    obtain ⟨text, htext, hutf⟩ := Option.bind_eq_some_iff.1 henc
    have hloads : loadsWith strictHooks text = some sorted := by
      rw [loadsWith_dumpsWith stringText_readsAs htext]
      exact reread_native uniqueJsonObject_of_nodup sorted hn
    rw [decodeJson, decodeUtf8_encodeUtf8 hutf, Option.bind_some, hloads]

/-- The envelope of a message. -/
def envelope (m : Message (Body F D)) (payload : Value F) (createdAt : Str) : Value F :=
  .dict
    [(.str payloadKey, payload),
      (.str typeKey, attrValue m.type),
      (.str senderKey, attrValue m.sender),
      (.str recipientKey, attrValue m.recipient),
      (.str headersKey, headersValue m.headers),
      (.str idKey, attrValue m.id),
      (.str createdAtKey, .str createdAt),
      (.str replyToKey, attrValue m.replyTo)]

omit [PyFloat F] in
/-- A message whose fields pass has an envelope. -/
theorem encodeEnvelope_ok {m : Message (Body F D)} {payload value : Value F} :
    encodeEnvelope m payload = .ok value ↔ (∀ f : EnvelopeField, f.passes m = true) ∧
      ∃ d, m.payload.createdAt = some d ∧ PyDatetime.isAware d = true ∧
        value = envelope m payload (PyDatetime.isoformat d) := by
  unfold encodeEnvelope
  cases hval : validateMessageFields m with
  | error e =>
      refine iff_of_false (fun h => by cases h) fun ⟨hfields, d, hd, haware, _⟩ => ?_
      rw [validateMessageFields_iff.2 ⟨hfields, d, hd, haware⟩] at hval
      cases hval
  | ok u =>
      obtain ⟨hfields, d, hd, haware⟩ := validateMessageFields_iff.1 hval
      rw [hd]
      refine ⟨fun h => ⟨hfields, d, rfl, haware, (Except.ok.inj h).symm⟩, ?_⟩
      rintro ⟨_, _, hd', _, rfl⟩
      obtain rfl := Option.some.inj hd'
      rfl

omit [PyFloat F] [PyDatetime D] in
/-- The envelope of a valid message is JSON. -/
theorem envelope_native {m : Message (Body F D)} {payload : Value F} {createdAt : Str}
    (hpayload : payload.Native) (hfields : ∀ f : EnvelopeField, f.passes m = true)
    (hheaders : ∀ items, m.headers = some items → (items.map Prod.fst).Nodup) :
    (envelope m payload createdAt).Native := by
  obtain ⟨texts, htexts⟩ := exists_textHeaders (hfields .headers)
  have hhead : (headersValue m.headers : Value F).Native := by
    rw [htexts, headersValue_textHeaders]
    exact native_headers (hheaders _ htexts)
  refine ⟨⟨⟨_, rfl⟩, hpayload, ⟨_, rfl⟩, native_attrValue _, ⟨_, rfl⟩, native_attrValue _,
    ⟨_, rfl⟩, native_attrValue _, ⟨_, rfl⟩, hhead, ⟨_, rfl⟩, native_attrValue _,
    ⟨_, rfl⟩, trivial, ⟨_, rfl⟩, native_attrValue _, trivial⟩, ?_⟩
  have hkeys : [payloadKey, typeKey, senderKey, recipientKey, headersKey, idKey,
      createdAtKey, replyToKey].Nodup := by decide
  change ([payloadKey, typeKey, senderKey, recipientKey, headersKey, idKey,
      createdAtKey, replyToKey].map (Key.str (F := F))).Nodup
  exact hkeys.map fun _ _ => Key.str.inj

/-- **Bytes are the text of the sorted envelope.** -/
theorem written_of_encode {m : Message (Body F D)} {payload value : Value F} {data : Bytes}
    (hpayload : payload.Native)
    (hheaders : ∀ items, m.headers = some items → (items.map Prod.fst).Nodup)
    (henv : encodeEnvelope m payload = .ok value) (h : encodeJson value = .ok data) :
    Written m payload data := by
  obtain ⟨hfields, d, hd, haware, rfl⟩ := encodeEnvelope_ok.1 henv
  obtain ⟨texts, htexts⟩ := exists_textHeaders (hfields .headers)
  obtain ⟨sorted, hsorted, _⟩ := sortKeys_native payload hpayload
  have hheads : sortKeys (headersValue m.headers : Value F) =
      some (.dict (members (sortPairs (headerPairs texts)))) := by
    rw [htexts, headersValue_textHeaders, sortKeys_headers]
  have hsort : sortKeys (envelope m payload (PyDatetime.isoformat d)) =
      some (.dict (members (envelopePairs m sorted
        (.dict (members (sortPairs (headerPairs texts)))) (PyDatetime.isoformat d)))) := by
    have hreply := sortMembers_cons.2
      ⟨replyToKey, _, [], rfl, sortKeys_attrValue m.replyTo,
        (rfl : sortMembers ([] : List (Key F × Value F)) = some []), rfl⟩
    have hcreated := sortMembers_cons.2 ⟨createdAtKey, _, _, rfl,
      (rfl : sortKeys (.str (PyDatetime.isoformat d)) = _), hreply, rfl⟩
    have hid := sortMembers_cons.2 ⟨idKey, _, _, rfl, sortKeys_attrValue m.id, hcreated, rfl⟩
    have hheaders := sortMembers_cons.2 ⟨headersKey, _, _, rfl, hheads, hid, rfl⟩
    have hrecipient := sortMembers_cons.2
      ⟨recipientKey, _, _, rfl, sortKeys_attrValue m.recipient, hheaders, rfl⟩
    have hsender := sortMembers_cons.2
      ⟨senderKey, _, _, rfl, sortKeys_attrValue m.sender, hrecipient, rfl⟩
    have htype := sortMembers_cons.2
      ⟨typeKey, _, _, rfl, sortKeys_attrValue m.type, hsender, rfl⟩
    have hmembers := sortMembers_cons.2 ⟨payloadKey, _, _, rfl, hsorted, htype, rfl⟩
    rw [envelope, sortKeys, hmembers]
    rfl
  obtain ⟨w, hw, hwn⟩ := sortKeys_native (envelope m payload (PyDatetime.isoformat d))
    (envelope_native hpayload hfields hheaders)
  obtain rfl := Option.some.inj (hsort.symm.trans hw)
  exact ⟨hfields, d, texts, sorted, hd, haware, htexts, hsorted, decodeJson_encodeJson hsort hwn h⟩

/-- The fields that every serializer writes are equal. -/
structure SameFields (m m' : Message (Body F D)) : Prop where
  type : m'.type = m.type
  sender : m'.sender = m.sender
  recipient : m'.recipient = m.recipient
  id : m'.id = m.id
  replyTo : m'.replyTo = m.replyTo
  headers : ∃ items items', m.headers = some items ∧ m'.headers = some items' ∧ items.Perm items'
  createdAt : ∃ d d', m.payload.createdAt = some d ∧ m'.payload.createdAt = some d' ∧
    PyDatetime.instant d' = PyDatetime.instant d

omit [PyFloat F] in
/-- **The envelope is taken apart again.** -/
theorem decodeEnvelope_envelopePairs {m : Message (Body F D)} {d : D} {texts : List (Str × Str)}
    {sorted : Value F} {payload : Payload F}
    {decodePayload : Option (Value F) → Except SerializationError (Payload F)}
    (hfields : ∀ f : EnvelopeField, f.passes m = true) (hd : m.payload.createdAt = some d)
    (haware : PyDatetime.isAware d = true) (htexts : m.headers = some (textHeaders texts))
    (hdec : decodePayload (some sorted) = .ok payload) :
    ∃ m', decodeEnvelope (.dict (members (envelopePairs m sorted
        (.dict (members (sortPairs (headerPairs texts)))) (PyDatetime.isoformat d)))) decodePayload =
        .ok m' ∧ m'.payload.payload = payload ∧ SameFields m m' := by
  obtain ⟨d', hread, haware', hinstant⟩ := PyDatetime.fromIsoformat_isoformat d haware
  obtain ⟨items, hitems, hperm⟩ := valueHeaders_sorted (F := F) texts
  have htext := textFields_of_passes hfields
  obtain ⟨m', hm'⟩ : ∃ m' : Message (Body F D), m' =
      { payload := ⟨payload, some d'⟩, type := m.type, sender := m.sender, recipient := m.recipient,
        headers := some items, id := m.id, replyTo := m.replyTo } := ⟨_, rfl⟩
  have hvalid : validateMessageFields m' = .ok () := by
    rw [hm', validateMessageFields_iff]
    refine ⟨fun f => ?_, d', rfl, haware'⟩
    cases f with
    | headers => exact headersAreStrings_perm hperm
    | type => exact hfields .type
    | sender => exact hfields .sender
    | recipient => exact hfields .recipient
    | id => exact hfields .id
    | replyTo => exact hfields .replyTo
  refine ⟨m', ?_, by rw [hm'], ?_⟩
  · obtain ⟨raw, hraw⟩ : ∃ raw, raw = members (envelopePairs m sorted
      (.dict (members (sortPairs (headerPairs texts)))) (PyDatetime.isoformat d)) := ⟨_, rfl⟩
    have hnames : memberNames raw = envelopeFields := by
      rw [hraw]
      rfl
    have hcreated : dictGet raw createdAtKey = some (.str (PyDatetime.isoformat d)) := by
      rw [hraw]
      rfl
    have hpayload : dictGet raw payloadKey = some sorted := by
      rw [hraw]
      rfl
    have hheaders : dictGet raw headersKey =
        some (.dict (members (sortPairs (headerPairs texts)))) := by
      rw [hraw]
      rfl
    have htype : dictGet raw typeKey = some (attrValue m.type) := by
      rw [hraw]
      rfl
    have hsender : dictGet raw senderKey = some (attrValue m.sender) := by
      rw [hraw]
      rfl
    have hrecipient : dictGet raw recipientKey = some (attrValue m.recipient) := by
      rw [hraw]
      rfl
    have hid : dictGet raw idKey = some (attrValue m.id) := by
      rw [hraw]
      rfl
    have hreply : dictGet raw replyToKey = some (attrValue m.replyTo) := by
      rw [hraw]
      rfl
    rw [← hraw]
    simp only [decodeEnvelope, hnames, hcreated, hread, hpayload, hdec, hheaders, hitems, htype,
      hsender, hrecipient, hid, hreply, valueAttr_attrValue htext.type,
      valueAttr_attrValue htext.sender, valueAttr_attrValue htext.recipient,
      valueAttr_attrValue htext.id, valueAttr_attrValue htext.replyTo]
    have hmissing : (envelopeFields.filter fun f => decide (f ∉ envelopeFields)) = [] := by decide
    rw [hmissing]
    simp only [ne_eq, not_true_eq_false, or_self, if_false]
    rw [hm'] at hvalid ⊢
    simp only [bind, Except.bind, hvalid]
    rfl
  · rw [hm']
    exact ⟨rfl, rfl, rfl, rfl, rfl, ⟨_, _, htexts, rfl, hperm⟩, d, d', hd, rfl, hinstant⟩

/-! ## Serializers -/

/-- `p == q` -/
def SamePayload : Payload F → Payload F → Prop
  | .json v, q => ∃ w, q = .json w ∧ Same v w
  | .bytes b, q => q = .bytes b

/-- `m == m'`, but for the UTC offset of `created_at`. -/
structure SameMessage (m m' : Message (Body F D)) : Prop where
  payload : SamePayload m.payload.payload m'.payload.payload
  fields : SameFields m m'

/-- No dict has a key twice. -/
def Payload.Distinct : Payload F → Prop
  | .json v => v.Distinct
  | .bytes _ => True

/-- The dicts of the message are dicts: no key is there twice. -/
structure PyMessage (m : Message (Body F D)) : Prop where
  payload : m.payload.payload.Distinct
  headers : ∀ items, m.headers = some items → (items.map Prod.fst).Nodup

/-- The message with another payload. -/
def withPayload (m : Message (Body F D)) (payload : Payload F) : Message (Body F D) :=
  { m with payload := { m.payload with payload } }

/-- What is serialized comes back, different messages have different bytes, and
the order of members does not show. -/
structure Lossless (s : Serializer (Body F D)) : Prop where
  roundTrip : ∀ m data, PyMessage m → s.serialize m = some data →
    ∃ m', s.deserialize data = some m' ∧ SameMessage m m'
  injective : ∀ m m' data, PyMessage m → PyMessage m' → s.serialize m = some data →
    s.serialize m' = some data → SameMessage m m'
  ordered : ∀ m payload data, PyMessage m → payload.Distinct →
    SamePayload m.payload.payload payload → s.serialize m = some data →
    s.serialize (withPayload m payload) = some data

omit [PyFloat F] [PyDatetime D] in
/-- A text field is known from its value. -/
theorem attrValue_inj {a b : Attr} (ha : Attr.IsText a) (hb : Attr.IsText b)
    (h : (attrValue a : Value F) = attrValue b) : a = b := by
  rw [← valueAttr_attrValue (F := F) ha, h, valueAttr_attrValue hb]

/-- Bytes tell the fields and the sorted payload. -/
theorem Written.unique {m m' : Message (Body F D)} {payload payload' : Value F} {data : Bytes}
    (h : Written m payload data) (h' : Written m' payload' data) :
    sortKeys payload = sortKeys payload' ∧ SameFields m m' := by
  obtain ⟨hfields, d, texts, sorted, hd, haware, htexts, hsorted, hdec⟩ := h
  obtain ⟨hfields', d', texts', sorted', hd', haware', htexts', hsorted', hdec'⟩ := h'
  have heq := Value.dict.inj (Except.ok.inj (hdec.symm.trans hdec'))
  have ht := textFields_of_passes hfields
  have ht' := textFields_of_passes hfields'
  unfold members envelopePairs at heq
  simp only [List.map_cons, List.map_nil, List.cons.injEq, Prod.mk.injEq, true_and, and_true,
    Value.str.injEq, Value.dict.injEq] at heq
  obtain ⟨hiso, hheads, hid, hpay, hrecipient, hreply, hsender, htype⟩ := heq
  refine ⟨by rw [hsorted, hsorted', hpay], (attrValue_inj ht.type ht'.type htype).symm,
    (attrValue_inj ht.sender ht'.sender hsender).symm,
    (attrValue_inj ht.recipient ht'.recipient hrecipient).symm,
    (attrValue_inj ht.id ht'.id hid).symm, (attrValue_inj ht.replyTo ht'.replyTo hreply).symm,
    ⟨_, _, htexts, htexts', ?_⟩, d, d', hd, hd', ?_⟩
  · obtain ⟨items, hitems, hperm⟩ := valueHeaders_sorted (F := F) texts
    obtain ⟨items', hitems', hperm'⟩ := valueHeaders_sorted (F := F) texts'
    have hmem : members (F := F) (sortPairs (headerPairs texts)) =
        members (sortPairs (headerPairs texts')) := hheads
    rw [hmem, hitems'] at hitems
    obtain rfl := Option.some.inj hitems
    exact hperm.trans hperm'.symm
  · obtain ⟨e, he, _, hinst⟩ := PyDatetime.fromIsoformat_isoformat d haware
    obtain ⟨e', he', _, hinst'⟩ := PyDatetime.fromIsoformat_isoformat d' haware'
    rw [hiso, he'] at he
    obtain rfl := Option.some.inj he
    rw [← hinst, ← hinst']

/-- `toOption` forgets the error. -/
theorem toOption_eq_some {ε α : Type} {x : Except ε α} {a : α} :
    x.toOption = some a ↔ x = .ok a := by
  cases x <;> simp [Except.toOption]

omit [PyFloat F] in
/-- The payload is one member of the envelope, and the others do not depend on it. -/
theorem encodeEnvelope_payload {m : Message (Body F D)} {value envelope : Value F}
    (h : encodeEnvelope m value = .ok envelope) :
    ∃ rest, envelope = .dict ((.str payloadKey, value) :: rest) ∧
      ∀ (payload : Payload F) (value' : Value F),
        encodeEnvelope (withPayload m payload) value' =
          .ok (.dict ((.str payloadKey, value') :: rest)) := by
  have hsame : ∀ payload : Payload F,
      validateMessageFields (withPayload m payload) = validateMessageFields m := by
    intro payload
    unfold validateMessageFields
    have hpasses : ∀ f : EnvelopeField, f.passes (withPayload m payload) = f.passes m := by
      intro f
      cases f <;> rfl
    simp only [hpasses]
    rfl
  unfold encodeEnvelope at h
  cases hval : validateMessageFields m with
  | error e =>
      rw [hval] at h
      cases h
  | ok u =>
      obtain ⟨_, d, hd, _⟩ := validateMessageFields_iff.1 hval
      rw [hval, hd] at h
      obtain rfl := Except.ok.inj h
      refine ⟨_, rfl, fun payload value' => ?_⟩
      have hd' : (withPayload m payload).payload.createdAt = some d := hd
      unfold encodeEnvelope
      rw [hsame, hval, hd']
      rfl

/-- Bytes depend on the sorted payload only. -/
theorem encodeJson_payload {v v' : Value F} (rest : List (Key F × Value F))
    (h : sortKeys v = sortKeys v') :
    encodeJson (.dict ((.str payloadKey, v) :: rest)) =
      encodeJson (.dict ((.str payloadKey, v') :: rest)) := by
  have hsort : sortKeys (.dict ((.str payloadKey, v) :: rest)) =
      sortKeys (.dict ((.str payloadKey, v') :: rest)) := by
    rw [sortKeys, sortKeys, sortMembers, sortMembers, h]
  rw [encodeJson, encodeJson, hsort]

/-! ### `JsonSerializer` -/

/-- What the JSON serializer has written. -/
theorem json_serialize_ok {limits : Limits} {m : Message (Body F D)} {data : Bytes}
    (h : JsonSerializer.serialize limits m = .ok data) :
    ∃ value envelope, m.payload.payload = .json value ∧ validateJsonValue limits value = .ok () ∧
      encodeEnvelope m value = .ok envelope ∧ encodeJson envelope = .ok data := by
  unfold JsonSerializer.serialize at h
  cases hp : m.payload.payload with
  | bytes b =>
      rw [hp] at h
      cases h
  | json value =>
      rw [hp, JsonSerializer.validatePayload] at h
      cases hv : validateJsonValue limits value with
      | error e =>
          rw [hv] at h
          cases h
      | ok u =>
          rw [hv] at h
          cases he : encodeEnvelope m value with
          | error e =>
              simp only [Except.map, bind, Except.bind, he] at h
              cases h
          | ok envelope =>
              simp only [Except.map, bind, Except.bind, he] at h
              exact ⟨value, envelope, rfl, hv, he, h⟩

/-- The envelope that it has written. -/
theorem json_written {limits : Limits} {m : Message (Body F D)} {data : Bytes} (hm : PyMessage m)
    (h : JsonSerializer.serialize limits m = .ok data) :
    ∃ value, m.payload.payload = .json value ∧ validateJsonValue limits value = .ok () ∧
      value.Native ∧ Written m value data := by
  obtain ⟨value, envelope, hp, hv, henv, henc⟩ := json_serialize_ok h
  have hdistinct := hm.payload
  rw [hp] at hdistinct
  have hnative := native_of_valid limits value ((validateJsonValue_iff limits value).1 hv).1 hdistinct
  exact ⟨value, hp, hv, hnative, written_of_encode hnative hm.headers henv henc⟩

/-- **The JSON serializer is lossless.** -/
theorem jsonSerializer_lossless (limits : Limits) :
    Lossless (jsonSerializer limits : Serializer (Body F D)) where
  roundTrip m data hm h := by
    obtain ⟨value, hp, hv, _, hw⟩ := json_written hm (toOption_eq_some.1 h)
    obtain ⟨hfields, d, texts, sorted, hd, haware, htexts, hsorted, hdec⟩ := hw
    have hvalid := (validateJsonValue_sortKeys limits hsorted).1 hv
    have hpayload : JsonSerializer.decodePayload limits (some sorted) = .ok (.json sorted) := by
      rw [JsonSerializer.decodePayload, hvalid]
      rfl
    obtain ⟨m', hm', hpay, hsame⟩ :=
      decodeEnvelope_envelopePairs hfields hd haware htexts hpayload
    refine ⟨m', toOption_eq_some.2 ?_, ?_, hsame⟩
    · rw [JsonSerializer.deserialize, hdec]
      exact hm'
    · rw [hp, hpay]
      exact ⟨sorted, rfl, same_of_sortKeys value hsorted (sortKeys_sorted value hsorted)⟩
  injective m m' data hm hm' h h' := by
    obtain ⟨value, hp, _, hn, hw⟩ := json_written hm (toOption_eq_some.1 h)
    obtain ⟨value', hp', _, _, hw'⟩ := json_written hm' (toOption_eq_some.1 h')
    obtain ⟨hsort, hsame⟩ := hw.unique hw'
    obtain ⟨sorted, hsorted, _⟩ := sortKeys_native value hn
    refine ⟨?_, hsame⟩
    rw [hp, hp']
    exact ⟨value', rfl, same_of_sortKeys value hsorted (hsort ▸ hsorted)⟩
  ordered m payload data hm hpayload hsame h := by
    obtain ⟨value, envelope, hp, hv, henv, henc⟩ := json_serialize_ok (toOption_eq_some.1 h)
    obtain ⟨value₁, hp₁, _, hn, _⟩ := json_written hm (toOption_eq_some.1 h)
    obtain rfl := Payload.json.inj (hp.symm.trans hp₁)
    rw [hp] at hsame
    obtain ⟨value', rfl, hsame⟩ := hsame
    have hn' := native_of_same value hsame hn hpayload
    have hsort := sortKeys_same value hsame hn hn'
    obtain ⟨sorted, hsorted, _⟩ := sortKeys_native value hn
    have hvalid : validateJsonValue limits value' = .ok () :=
      (validateJsonValue_sortKeys limits (hsort ▸ hsorted)).2
        ((validateJsonValue_sortKeys limits hsorted).1 hv)
    obtain ⟨rest, rfl, hrest⟩ := encodeEnvelope_payload henv
    refine toOption_eq_some.2 ?_
    have hpay : JsonSerializer.validatePayload limits (withPayload m (.json value')).payload.payload =
        .ok value' := by
      change (validateJsonValue limits value').map _ = _
      rw [hvalid]
      rfl
    rw [JsonSerializer.serialize, hpay]
    change (encodeEnvelope (withPayload m (.json value')) value' >>= encodeJson) = _
    rw [hrest]
    change encodeJson _ = _
    rw [← encodeJson_payload rest hsort, henc]

/-! ### `BytesSerializer` -/

/-- What the bytes serializer has written. -/
theorem bytes_serialize_ok {m : Message (Body F D)} {data : Bytes}
    (h : BytesSerializer.serialize m = .ok data) :
    ∃ payload envelope, m.payload.payload = .bytes payload ∧
      encodeEnvelope m (.str (b64encode payload)) = .ok envelope ∧
      encodeJson envelope = .ok data := by
  unfold BytesSerializer.serialize at h
  cases hp : m.payload.payload with
  | json value =>
      rw [hp] at h
      cases h
  | bytes payload =>
      rw [hp] at h
      cases he : encodeEnvelope m (.str (b64encode payload)) with
      | error e =>
          simp only [bind, Except.bind, he] at h
          cases h
      | ok envelope =>
          simp only [bind, Except.bind, he] at h
          exact ⟨payload, envelope, rfl, he, h⟩

/-- The envelope that it has written. -/
theorem bytes_written {m : Message (Body F D)} {data : Bytes} (hm : PyMessage m)
    (h : BytesSerializer.serialize m = .ok data) :
    ∃ payload, m.payload.payload = .bytes payload ∧ Written m (.str (b64encode payload)) data := by
  obtain ⟨payload, envelope, hp, henv, henc⟩ := bytes_serialize_ok h
  exact ⟨payload, hp, written_of_encode trivial hm.headers henv henc⟩

omit [PyFloat F] in
/-- Base64 loses nothing. -/
theorem b64encode_inj {b c : Bytes} (h : b64encode b = b64encode c) : b = c := by
  have hdec := b64decode_b64encode b
  rw [h, b64decode_b64encode] at hdec
  exact (Option.some.inj hdec).symm

/-- **The bytes serializer is lossless.** -/
theorem bytesSerializer_lossless : Lossless (bytesSerializer : Serializer (Body F D)) where
  roundTrip m data hm h := by
    obtain ⟨payload, hp, hw⟩ := bytes_written hm (toOption_eq_some.1 h)
    obtain ⟨hfields, d, texts, sorted, hd, haware, htexts, hsorted, hdec⟩ := hw
    obtain rfl := Option.some.inj hsorted
    have hpayload : BytesSerializer.decodePayload (some (.str (b64encode payload) : Value F)) =
        .ok (.bytes payload) := by
      rw [BytesSerializer.decodePayload, b64decode_b64encode]
      simp
    obtain ⟨m', hm', hpay, hsame⟩ :=
      decodeEnvelope_envelopePairs hfields hd haware htexts hpayload
    refine ⟨m', toOption_eq_some.2 ?_, ?_, hsame⟩
    · rw [BytesSerializer.deserialize, hdec]
      exact hm'
    · rw [hp, hpay]
      rfl
  injective m m' data hm hm' h h' := by
    obtain ⟨payload, hp, hw⟩ := bytes_written hm (toOption_eq_some.1 h)
    obtain ⟨payload', hp', hw'⟩ := bytes_written hm' (toOption_eq_some.1 h')
    obtain ⟨hsort, hsame⟩ := hw.unique hw'
    obtain rfl := b64encode_inj (Value.str.inj (Option.some.inj hsort))
    refine ⟨?_, hsame⟩
    rw [hp, hp']
    rfl
  ordered m payload data _ _ hsame h := by
    obtain ⟨b, envelope, hp, _, _⟩ := bytes_serialize_ok (toOption_eq_some.1 h)
    rw [hp] at hsame
    obtain rfl := hsame
    have hself : withPayload m (.bytes b) = m := by
      rw [withPayload, ← hp]
    rw [hself, h]

/-- **The built-in serializers are lossless.**  For `JsonSerializer` with any
limits and for `BytesSerializer`, and every message they accept: `deserialize`
gives back a message with equal fields and a `created_at` of the same instant;
messages with the same bytes have equal fields; and payloads that differ in the
order of object members have the same bytes. -/
theorem serializers_lossless :
    (∀ limits : Limits, Lossless (jsonSerializer limits : Serializer (Body F D))) ∧
      Lossless (bytesSerializer : Serializer (Body F D)) :=
  ⟨jsonSerializer_lossless, bytesSerializer_lossless⟩

/-! ## A message -/

/-- One aware `datetime`. -/
inductive SampleDatetime
  | epoch

instance : PyDatetime SampleDatetime where
  isoformat _ := ofChars ['1', '9', '7', '0', '-', '0', '1', '-', '0', '1', 'T', '0', '0', ':', '0',
    '0', ':', '0', '0', '+', '0', '0', ':', '0', '0']
  fromIsoformat _ := some .epoch
  isAware _ := true
  instant _ := 0
  fromIsoformat_isoformat _ _ := ⟨.epoch, rfl, rfl, rfl⟩

/-- Limits for the sample. -/
def sampleLimits : Limits := ⟨64, by decide, 100, by decide, 100, by decide⟩

/-- The payload `{"b": 1.0, "a": [None]}`. -/
def samplePayload : Value SampleFloat :=
  .dict [(.str (ofChars ['b']), .float .one), (.str (ofChars ['a']), .list [.none])]

/-- A message. -/
def sampleMessage : Message (Body SampleFloat SampleDatetime) where
  payload := ⟨.json samplePayload, some .epoch⟩
  type := .str (ofChars ['t'])
  sender := .none
  recipient := .str (ofChars ['r'])
  headers := some [(.str (ofChars ['h']), .str [])]
  id := .str (ofChars ['i'])
  replyTo := .none

set_option maxRecDepth 8000 in
/-- It can be written. -/
theorem sampleMessage_serializes :
    ∃ data, (jsonSerializer sampleLimits).serialize sampleMessage = some data := by
  have hvalid : validateJsonValue sampleLimits samplePayload = .ok () := by
    rw [validateJsonValue_iff]
    refine ⟨⟨by decide, ⟨_, rfl, by decide⟩, rfl, ⟨_, rfl, by decide⟩, ⟨by decide, trivial, trivial⟩,
      trivial⟩, by decide⟩
  have hpayload : JsonSerializer.validatePayload sampleLimits sampleMessage.payload.payload =
      .ok samplePayload := by
    change (validateJsonValue sampleLimits samplePayload).map _ = _
    rw [hvalid]
    rfl
  change ∃ data, (JsonSerializer.serialize sampleLimits sampleMessage).toOption = some data
  rw [JsonSerializer.serialize, hpayload]
  exact ⟨_, rfl⟩

/-- The message comes back. -/
theorem serializers_lossless_sample :
    ∃ data, (jsonSerializer sampleLimits).serialize sampleMessage = some data ∧
      ∃ m', (jsonSerializer sampleLimits).deserialize data = some m' ∧
        SameMessage sampleMessage m' := by
  obtain ⟨data, hdata⟩ := sampleMessage_serializes
  have hmessage : PyMessage sampleMessage := by
    refine ⟨⟨by simp [ofChars], trivial, ⟨trivial, trivial⟩, trivial⟩, ?_⟩
    rintro _ ⟨⟩
    simp
  exact ⟨data, hdata, (serializers_lossless.1 sampleLimits).roundTrip _ _ hmessage hdata⟩

end Serializers
end Paqto
