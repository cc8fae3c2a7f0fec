/-
# What was accepted can be sent on

`json.loads` makes lone surrogates from escapes such as `\uD800`, and nothing
between it and the application refuses them; `encode_json` and `_encode_control`
cannot encode them.  Apart from them whatever a serializer accepts can be echoed,
acknowledged and answered: `Forwardable` is the condition on the received
document, and it is exact (`serializers_sendOn`).  The text of `created_at` is
left out of it, for `fromisoformat` may read a separator that is a surrogate.
-/

import Paqto.Core.ControlText
import Paqto.Serializers.Lossless

namespace Paqto
namespace Serializers

open Python Paqto.Core

variable {F D : Type} [PyFloat F] [PyDatetime D]

/-! ## Encoding -/

/-- **Native data is encoded when its numbers can be written and its strings can
be encoded.** -/
theorem encodeJson_iff {value : Value F} (hn : value.Native) :
    (∃ data, encodeJson value = .ok data) ↔ value.Each writable ∧ value.Each encodable := by
  obtain ⟨w, hw, hwn⟩ := sortKeys_native value hn
  have hany := each_anyAtom w hwn
  rw [Value.each_sortKeys value hw, Value.each_sortKeys value hw]
  constructor
  · rintro ⟨data, h⟩
    rw [encodeJson, hw, Option.bind_some] at h
    split at h
    · cases h
    · next encoded henc =>
        obtain ⟨text, htext, hutf⟩ := Option.bind_eq_some_iff.1 henc
        exact ⟨each_of_dumps w hany htext, (encodable_dumps w hany htext).1
          (encodeUtf8_eq_some.1 ⟨encoded, hutf⟩)⟩
  · rintro ⟨hwrite, henc⟩
    obtain ⟨text, htext⟩ : ∃ t, dumpsWith stringText w = some t := dumps_of_each w hwrite
    obtain ⟨encoded, hutf⟩ := encodeUtf8_eq_some.2 ((encodable_dumps w hany htext).2 henc)
    have hdumps : dumps w = some text := htext
    exact ⟨encoded, by rw [encodeJson, hw, Option.bind_some, hdumps, Option.bind_some, hutf]⟩

/-- A string, if it is one, can be encoded. -/
def Attr.Encodable (a : Attr) : Prop := ∀ s, a = .str s → Python.Encodable s

/-- No field but the payload has a lone surrogate. -/
structure FieldsEncodable (m : Message (Body F D)) : Prop where
  type : Attr.Encodable m.type
  sender : Attr.Encodable m.sender
  recipient : Attr.Encodable m.recipient
  id : Attr.Encodable m.id
  replyTo : Attr.Encodable m.replyTo
  headers : ∀ items, m.headers = some items → ∀ p ∈ items,
    Attr.Encodable p.1 ∧ Attr.Encodable p.2

omit [PyFloat F] in
/-- The only atom of a field is its text. -/
theorem each_attrValue (p : Atoms F) (a : Attr) :
    (attrValue a : Value F).Each p ↔ ∀ s, a = .str s → p.str s := by
  cases a <;> simp [attrValue, Value.Each]

omit [PyFloat F] in
/-- The atoms of headers are their names and texts. -/
theorem each_headersValue (p : Atoms F) {headers : Option (List (Attr × Attr))}
    (h : headersAreStrings headers = true) :
    (headersValue headers : Value F).Each p ↔ ∀ items, headers = some items → ∀ m ∈ items,
      (∀ s, m.1 = .str s → p.str s) ∧ ∀ s, m.2 = .str s → p.str s := by
  obtain ⟨texts, rfl⟩ := exists_textHeaders h
  rw [headersValue_textHeaders, Value.Each, Value.eachMember_iff]
  simp only [members, headerPairs, textHeaders, List.forall_mem_map, Option.some.injEq, forall_eq',
    Value.Each, Key.str.injEq, Attr.str.injEq, exists_eq_left']

omit [PyFloat F] [PyDatetime D] in
/-- The atoms of an envelope. -/
theorem each_envelope (p : Atoms F) (hkeys : ∀ f ∈ envelopeFields, p.str f)
    {m : Message (Body F D)} {payload : Value F} {createdAt : Str}
    (hfields : ∀ f : EnvelopeField, f.passes m = true) :
    (envelope m payload createdAt).Each p ↔ payload.Each p ∧ p.str createdAt ∧
      (∀ a ∈ [m.type, m.sender, m.recipient, m.id, m.replyTo], ∀ s, a = .str s → p.str s) ∧
      ∀ items, m.headers = some items → ∀ q ∈ items,
        (∀ s, q.1 = .str s → p.str s) ∧ ∀ s, q.2 = .str s → p.str s := by
  rw [← each_headersValue p (hfields .headers)]
  simp only [envelopeFields, List.forall_mem_cons, List.not_mem_nil, false_imp_iff, implies_true,
    and_true] at hkeys ⊢
  simp only [envelope, Value.Each, Value.EachMember, each_attrValue, Key.str.injEq,
    exists_eq_left', hkeys]
  tauto

/-- The names of the fields are encodable. -/
theorem encodable_envelopeFields : ∀ f ∈ envelopeFields, Python.Encodable f := by decide

/-- **A message is encoded** when its payload is and no field has a lone
surrogate. -/
theorem encode_iff (hiso : ∀ d : D, PyDatetime.isAware d = true →
      Python.Encodable (PyDatetime.isoformat d))
    {m : Message (Body F D)} {payload : Value F} (hpayload : payload.Native)
    (hheaders : ∀ items, m.headers = some items → (items.map Prod.fst).Nodup) :
    (∃ value data, encodeEnvelope m payload = .ok value ∧ encodeJson value = .ok data) ↔
      (∃ value, encodeEnvelope m payload = .ok value) ∧ payload.Each writable ∧
        payload.Each encodable ∧ FieldsEncodable m := by
  constructor
  · rintro ⟨value, data, henv, h⟩
    obtain ⟨hfields, d, hd, haware, rfl⟩ := encodeEnvelope_ok.1 henv
    have hn : (envelope m payload (PyDatetime.isoformat d)).Native :=
      envelope_native hpayload hfields hheaders
    obtain ⟨hwrite, henc⟩ := (encodeJson_iff hn).1 ⟨data, h⟩
    rw [each_envelope _ (fun _ _ => trivial) hfields] at hwrite
    rw [each_envelope _ encodable_envelopeFields hfields] at henc
    obtain ⟨hattrs, hheads⟩ := henc.2.2
    exact ⟨⟨_, henv⟩, hwrite.1, henc.1, hattrs _ (by simp), hattrs _ (by simp), hattrs _ (by simp),
      hattrs _ (by simp), hattrs _ (by simp), hheads⟩
  · rintro ⟨⟨value, henv⟩, hwrite, henc, hall⟩
    obtain ⟨hfields, d, hd, haware, rfl⟩ := encodeEnvelope_ok.1 henv
    have hn : (envelope m payload (PyDatetime.isoformat d)).Native :=
      envelope_native hpayload hfields hheaders
    have hw : (envelope m payload (PyDatetime.isoformat d)).Each writable := by
      rw [each_envelope _ (fun _ _ => trivial) hfields]
      exact ⟨hwrite, trivial, fun _ _ _ _ => trivial, fun _ _ _ _ =>
        ⟨fun _ _ => trivial, fun _ _ => trivial⟩⟩
    have he : (envelope m payload (PyDatetime.isoformat d)).Each encodable := by
      rw [each_envelope _ encodable_envelopeFields hfields]
      refine ⟨henc, hiso d haware, ?_, hall.headers⟩
      simp only [List.forall_mem_cons, List.not_mem_nil, false_imp_iff, implies_true, and_true]
      exact ⟨hall.type, hall.sender, hall.recipient, hall.id, hall.replyTo⟩
    obtain ⟨data, h⟩ := (encodeJson_iff hn).2 ⟨hw, he⟩
    exact ⟨_, data, henv, h⟩

/-! ## Decoding -/

omit [PyFloat F] in
/-- The hooks of `decode_json` are strict. -/
theorem strictHooks_strict : (strictHooks (F := F)).Strict where
  object pairs v h := by
    have hnd : (pairs.map Prod.fst).Nodup := by
      by_contra hnd
      have hnone : (strictHooks (F := F)).object pairs = none := uniqueJsonObject_eq_none hnd
      rw [hnone] at h
      cases h
    exact ⟨hnd, Option.some.inj (h.symm.trans (uniqueJsonObject_of_nodup pairs hnd))⟩
  constant _ := rfl

/-- What it reads is loaded. -/
theorem loaded_of_decodeJson {data : Bytes} {raw : Value F} (h : decodeJson data = .ok raw) :
    Loaded raw := by
  unfold decodeJson at h
  split at h
  · cases h
  · next value hvalue =>
      obtain rfl := Except.ok.inj h
      obtain ⟨text, -, hloads⟩ := Option.bind_eq_some_iff.1 hvalue
      exact loaded_of_loads strictHooks_strict hloads

omit [PyFloat F] in
/-- A field that is found is a member. -/
theorem mem_of_dictGet {items : List (Key F × Value F)} {name : Str} {v : Value F}
    (h : dictGet items name = some v) : (.str name, v) ∈ items := by
  induction items with
  | nil => cases h
  | cons q items ih =>
      obtain ⟨k, w⟩ := q
      cases k with
      | str k =>
          rw [dictGet] at h
          split at h
          · next hk =>
              obtain rfl := Option.some.inj h
              rw [hk]
              exact List.mem_cons_self
          · exact List.mem_cons_of_mem _ (ih h)
      | _ => exact List.mem_cons_of_mem _ (ih h)

omit [PyFloat F] in
/-- A member is found under its name. -/
theorem dictGet_of_mem {items : List (Key F × Value F)} (hnd : (items.map Prod.fst).Nodup)
    {name : Str} {v : Value F} (h : (.str name, v) ∈ items) : dictGet items name = some v := by
  induction items with
  | nil => cases h
  | cons q items ih =>
      obtain ⟨k, w⟩ := q
      rw [List.map_cons, List.nodup_cons] at hnd
      rcases List.mem_cons.1 h with heq | hmem
      · cases heq
        exact if_pos rfl
      · have hne : k ≠ .str name := fun hk =>
          hnd.1 (List.mem_map.2 ⟨_, hmem, hk.symm⟩)
        cases k with
        | str k =>
            rw [dictGet, if_neg fun hk => hne (congrArg Key.str hk)]
            exact ih hnd.2 hmem
        | _ => exact ih hnd.2 hmem

omit [PyFloat F] in
/-- **A message comes from an object with the fields of an envelope.** -/
theorem decodeEnvelope_ok {raw : Value F} {m : Message (Body F D)}
    {decodePayload : Option (Value F) → Except SerializationError (Payload F)}
    (h : decodeEnvelope raw decodePayload = .ok m) :
    ∃ items d payload, raw = .dict items ∧ (∀ f ∈ memberNames items, f ∈ envelopeFields) ∧
      decodePayload (dictGet items payloadKey) = .ok payload ∧
      m = { payload := ⟨payload, some d⟩
            type := valueAttr (dictGet items typeKey)
            sender := valueAttr (dictGet items senderKey)
            recipient := valueAttr (dictGet items recipientKey)
            headers := valueHeaders (dictGet items headersKey)
            id := valueAttr (dictGet items idKey)
            replyTo := valueAttr (dictGet items replyToKey) } ∧
      validateMessageFields m = .ok () := by
  cases raw with
  | dict items =>
      simp only [decodeEnvelope] at h
      split at h
      · cases h
      · next hnames =>
          rw [not_or, not_not, not_not, List.filter_eq_nil_iff, List.filter_eq_nil_iff] at hnames
          split at h
          · split at h
            · cases h
            · next d hd =>
                cases hp : decodePayload (dictGet items payloadKey) with
                | error e =>
                    rw [hp] at h
                    cases h
                | ok payload =>
                    rw [hp] at h
                    simp only [bind, Except.bind] at h
                    split at h
                    · cases h
                    · next hval =>
                        obtain rfl := Except.ok.inj h
                        refine ⟨items, d, payload, rfl, fun f hf => ?_, hp, rfl, hval⟩
                        simpa using hnames.2 f hf
          · cases h
  | _ => cases h

/-- No string of the document has a lone surrogate, but for the text of
`created_at`. -/
def Forwardable (F : Type) [PyFloat F] (data : Bytes) : Prop :=
  ∀ items : List (Key F × Value F), decodeJson data = .ok (.dict items) →
    ∀ q ∈ items, q.1 ≠ .str createdAtKey → q.2.Each encodable

/-- The fields of an envelope, but for `created_at`. -/
def forwardedFields : List Str :=
  [headersKey, idKey, payloadKey, recipientKey, replyToKey, senderKey, typeKey]

/-- **A document can be written again** when its members are encodable. -/
theorem forwardable_iff {data : Bytes} {items : List (Key F × Value F)}
    (hdec : decodeJson data = .ok (.dict items)) (hnames : ∀ f ∈ memberNames items, f ∈ envelopeFields) :
    Forwardable F data ↔
      ∀ f ∈ forwardedFields, ∀ v, dictGet items f = some v → v.Each encodable := by
  have hn := (loaded_of_decodeJson hdec).1
  constructor
  · intro h f hf v hv
    have hne : ∀ f ∈ forwardedFields, f ≠ createdAtKey := by decide
    exact h items hdec _ (mem_of_dictGet hv) fun heq => hne f hf (Key.str.inj heq)
  · intro h items' hdec' q hq hne
    obtain rfl := Value.dict.inj (Except.ok.inj (hdec.symm.trans hdec'))
    obtain ⟨⟨name, hname⟩, -⟩ := Value.nativeMembers_iff.1 hn.1 q hq
    have hmem : name ∈ memberNames items := List.mem_filterMap.2 ⟨q, hq, by rw [hname]⟩
    have hall : ∀ f ∈ envelopeFields, f ≠ createdAtKey → f ∈ forwardedFields := by decide
    refine h name (hall name (hnames name hmem) fun heq => hne (by rw [hname, heq])) q.2 ?_
    exact dictGet_of_mem hn.2 (by rwa [← hname])

omit [PyFloat F] in
/-- A field is encodable when its text is. -/
theorem attr_encodable_iff {o : Option (Value F)} (h : Attr.IsText (valueAttr o)) :
    (∀ v, o = some v → v.Each encodable) ↔ Attr.Encodable (valueAttr o) := by
  cases o with
  | none => rcases h with h | ⟨s, h⟩ <;> cases h
  | some v =>
      cases v with
      | none => exact iff_of_true (by rintro _ ⟨⟩; trivial) nofun
      | str s =>
          refine ⟨fun hall s' hs => ?_, fun hs v hv => ?_⟩
          · obtain rfl := Attr.str.inj hs
            exact hall _ rfl
          · obtain rfl := Option.some.inj hv
            exact hs s rfl
      | _ => rcases h with h | ⟨s, h⟩ <;> cases h

omit [PyFloat F] in
/-- Headers that pass come from an object of strings. -/
theorem exists_headers {o : Option (Value F)} (h : headersAreStrings (valueHeaders o) = true) :
    ∃ items, o = some (.dict items) ∧
      ∀ q ∈ items, ∃ k v, q = (.str k, .str v) := by
  cases o with
  | none => cases h
  | some v =>
      cases v with
      | dict items =>
          refine ⟨items, rfl, fun q hq => ?_⟩
          have hpair := List.all_eq_true.1 h _ (List.mem_map_of_mem hq)
          obtain ⟨k, v⟩ := q
          cases k with
          | str k =>
              cases v with
              | str v => exact ⟨k, v, rfl⟩
              | _ => cases hpair
          | none => cases hpair
          | _ => cases hpair
      | _ => cases h

omit [PyFloat F] in
/-- Headers are encodable when their texts are. -/
theorem headers_encodable_iff {o : Option (Value F)} (h : headersAreStrings (valueHeaders o) = true) :
    (∀ v, o = some v → v.Each encodable) ↔ ∀ items, valueHeaders o = some items → ∀ p ∈ items,
      Attr.Encodable p.1 ∧ Attr.Encodable p.2 := by
  obtain ⟨items, rfl, hall⟩ := exists_headers h
  simp only [Option.some.injEq, forall_eq', valueHeaders, List.forall_mem_map, Value.Each,
    Value.eachMember_iff]
  refine forall₂_congr fun q hq => ?_
  obtain ⟨k, v, rfl⟩ := hall q hq
  simp [Attr.Encodable, keyAttr, valueAttr, Value.Each, encodable]

omit [PyFloat F] in
/-- Headers of an object are a dict. -/
theorem headers_nodup {o : Option (Value F)} (hn : ∀ v, o = some v → v.Native)
    (h : headersAreStrings (valueHeaders o) = true) :
    ∀ items, valueHeaders o = some items → (items.map Prod.fst).Nodup := by
  obtain ⟨items, rfl, hall⟩ := exists_headers h
  rintro _ ⟨⟩
  have hmap : (items.map fun q => (keyAttr q.1, valueAttr (some q.2))).map Prod.fst =
      (items.map Prod.fst).map keyAttr := by
    simp [List.map_map, Function.comp_def]
  have hstr : ∀ k ∈ items.map Prod.fst, ∃ s, k = .str s := by
    intro k hk
    obtain ⟨q, hq, rfl⟩ := List.mem_map.1 hk
    obtain ⟨s, v, rfl⟩ := hall q hq
    exact ⟨s, rfl⟩
  rw [hmap]
  refine List.Nodup.map_on (fun k hk k' hk' heq => ?_) (hn _ rfl).2
  obtain ⟨s, rfl⟩ := hstr k hk
  obtain ⟨s', rfl⟩ := hstr k' hk'
  exact congrArg Key.str (Attr.str.inj heq)

/-! ## Serializers -/

/-- A serializer that puts the payload into an envelope, as `content`. -/
structure Envelops (s : Serializer (Body F D)) (content : Payload F → Option (Value F)) :
    Prop where
  native : ∀ payload v, payload.Distinct → content payload = some v → v.Native
  distinct : ∀ payload v, content payload = some v → v.Native → payload.Distinct
  /-- A payload that was loaded has writable numbers. -/
  writable : ∀ payload v, content payload = some v → v.Each loadable → v.Each writable
  serialize : ∀ m, (∃ data, s.serialize m = some data) ↔ ∃ v value data,
    content m.payload.payload = some v ∧ encodeEnvelope m v = .ok value ∧ encodeJson value = .ok data
  deserialize : ∀ data m, s.deserialize data = some m → ∃ raw decodePayload,
    decodeJson data = .ok raw ∧ decodeEnvelope raw decodePayload = .ok m ∧
      ∀ o payload, decodePayload o = .ok payload → ∃ v, o = some v ∧ content payload = some v

/-- The reply to a message that is like another one. -/
def repliedTo (m r : Message (Body F D)) : Message (Body F D) :=
  { r with recipient := m.sender, replyTo := m.id }

/-- A node can echo or forward the message, acknowledge it and answer it. -/
structure CanBeSentOn (s : Serializer (Body F D)) (m : Message (Body F D)) : Prop where
  echo : ∃ data m', s.serialize m = some data ∧ s.deserialize data = some m' ∧ SameMessage m m'
  acknowledge : ∀ messageId, m.id.identifier = some messageId →
    acknowledgementSize messageId.1 ≤ maxControlPayloadSize →
    ∃ frame, encodeAcknowledgementFrame (F := F) messageId = .ok frame
  reply : ∀ r, PyMessage r → (∃ data, s.serialize r = some data) →
    ∃ data, s.serialize (repliedTo m r) = some data

section Envelops

variable {s : Serializer (Body F D)} {content : Payload F → Option (Value F)}

/-- **When a message can be written.** -/
theorem serialize_iff (hs : Envelops s content)
    (hiso : ∀ d : D, PyDatetime.isAware d = true → Python.Encodable (PyDatetime.isoformat d))
    {m : Message (Body F D)} (hm : PyMessage m) :
    (∃ data, s.serialize m = some data) ↔ ∃ v value, content m.payload.payload = some v ∧
      encodeEnvelope m v = .ok value ∧ v.Each writable ∧ v.Each encodable ∧ FieldsEncodable m := by
  rw [hs.serialize]
  constructor
  · rintro ⟨v, value, data, hv, henv, h⟩
    obtain ⟨⟨value, henv⟩, hrest⟩ := (encode_iff hiso (hs.native _ v hm.payload hv) hm.headers).1
      ⟨value, data, henv, h⟩
    exact ⟨v, value, hv, henv, hrest⟩
  · rintro ⟨v, value, hv, henv, hrest⟩
    obtain ⟨value, data, henv, h⟩ :=
      (encode_iff hiso (hs.native _ v hm.payload hv) hm.headers).2 ⟨⟨value, henv⟩, hrest⟩
    exact ⟨v, value, data, hv, henv, h⟩

/-- What a decoded message is. -/
structure Accepted (content : Payload F → Option (Value F)) (data : Bytes)
    (m : Message (Body F D)) : Prop where
  message : PyMessage m
  fields : ∀ f : EnvelopeField, f.passes m = true
  createdAt : ∃ d, m.payload.createdAt = some d ∧ PyDatetime.isAware d = true
  content : ∃ v, content m.payload.payload = some v ∧ v.Each writable ∧
    (Forwardable F data ↔ v.Each encodable ∧ FieldsEncodable m)

/-- What is accepted has a document. -/
theorem accepted_of_deserialize (hs : Envelops s content) {data : Bytes} {m : Message (Body F D)}
    (h : s.deserialize data = some m) : Accepted content data m := by
  obtain ⟨raw, decodePayload, hdec, henv, hpayload⟩ := hs.deserialize data m h
  obtain ⟨items, d, payload, rfl, hnames, hp, rfl, hval⟩ := decodeEnvelope_ok henv
  obtain ⟨hfields, d', hd', haware⟩ := validateMessageFields_iff.1 hval
  obtain ⟨v, hv, hcontent⟩ := hpayload _ _ hp
  have hloaded := loaded_of_decodeJson hdec
  have hget : ∀ name w, dictGet items name = some w → Loaded w := fun name w hw =>
    ⟨(Value.nativeMembers_iff.1 hloaded.1.1 _ (mem_of_dictGet hw)).2,
      (Value.eachMember_iff.1 hloaded.2 _ (mem_of_dictGet hw)).2⟩
  have htext := textFields_of_passes hfields
  refine ⟨⟨hs.distinct _ v hcontent (hget _ v hv).1,
    headers_nodup (fun w hw => (hget _ w hw).1) (hfields .headers)⟩, hfields, ⟨d', hd', haware⟩,
    v, hcontent, hs.writable _ v hcontent (hget _ v hv).2, ?_⟩
  rw [forwardable_iff hdec hnames]
  simp only [forwardedFields, List.forall_mem_cons, List.not_mem_nil, false_imp_iff, implies_true,
    and_true, hv, Option.some.injEq, forall_eq']
  rw [attr_encodable_iff htext.id, attr_encodable_iff htext.recipient,
    attr_encodable_iff htext.replyTo, attr_encodable_iff htext.sender,
    attr_encodable_iff htext.type, headers_encodable_iff (hfields .headers)]
  exact ⟨fun ⟨hh, hi, hp, hr, hrt, hse, ht⟩ => ⟨hp, ht, hse, hr, hi, hrt, hh⟩,
    fun ⟨hp, hall⟩ => ⟨hall.headers, hall.id, hp, hall.recipient, hall.replyTo, hall.sender,
      hall.type⟩⟩

omit [PyFloat F] [PyDatetime D] in
/-- A reply is as well formed as the message it answers. -/
theorem repliedTo_passes {m r : Message (Body F D)} (hm : ∀ f : EnvelopeField, f.passes m = true)
    (hr : ∀ f : EnvelopeField, f.passes r = true) (f : EnvelopeField) :
    f.passes (repliedTo m r) = true := by
  cases f with
  | recipient => exact hm .sender
  | replyTo =>
      have hid : m.id.identifier.isSome = true := hm .id
      change (m.id = .none || m.id.identifier.isSome) = true
      rw [hid, Bool.or_true]
  | type => exact hr .type
  | headers => exact hr .headers
  | sender => exact hr .sender
  | id => exact hr .id

/-- **An accepted message can be sent on exactly when its document has no lone
surrogate.** -/
theorem canBeSentOn_iff (hs : Envelops s content) (hl : Lossless s)
    (hiso : ∀ d : D, PyDatetime.isAware d = true → Python.Encodable (PyDatetime.isoformat d))
    {data : Bytes} {m : Message (Body F D)} (h : s.deserialize data = some m) :
    CanBeSentOn s m ↔ Forwardable F data := by
  obtain ⟨hm, hfields, ⟨d, hd, haware⟩, v, hv, hwrite, hforward⟩ := accepted_of_deserialize hs h
  rw [hforward]
  constructor
  · intro hsent
    obtain ⟨out, _, hout, _⟩ := hsent.echo
    obtain ⟨w, _, hw, _, _, henc, hall⟩ := (serialize_iff hs hiso hm).1 ⟨out, hout⟩
    obtain rfl := Option.some.inj (hv.symm.trans hw)
    exact ⟨henc, hall⟩
  · rintro ⟨henc, hall⟩
    refine ⟨?_, fun messageId hid hsize => ?_, fun r hr hser => ?_⟩
    · have henv : encodeEnvelope m v = .ok (envelope m v (PyDatetime.isoformat d)) :=
        encodeEnvelope_ok.2 ⟨hfields, d, hd, haware, rfl⟩
      obtain ⟨out, hout⟩ := (serialize_iff hs hiso hm).2 ⟨v, _, hv, henv, hwrite, henc, hall⟩
      obtain ⟨m', hm', hsame⟩ := hl.roundTrip m out hm hout
      exact ⟨out, m', hout, hm', hsame⟩
    · have hstr := Attr.identifier_eq_some.1 hid
      exact (encodeAcknowledgementFrame_ok_iff messageId).2 ⟨hall.id _ hstr, hsize⟩
    · obtain ⟨w, _, hw, henv, hrwrite, hrenc, hrall⟩ := (serialize_iff hs hiso hr).1 hser
      obtain ⟨hrfields, e, he, heaware, rfl⟩ := encodeEnvelope_ok.1 henv
      have hreply : PyMessage (repliedTo m r) := ⟨hr.payload, hr.headers⟩
      have henv' : encodeEnvelope (repliedTo m r) w =
          .ok (envelope (repliedTo m r) w (PyDatetime.isoformat e)) :=
        encodeEnvelope_ok.2 ⟨repliedTo_passes hfields hrfields, e, he, heaware, rfl⟩
      exact (serialize_iff hs hiso hreply).2 ⟨w, _, hw, henv', hrwrite, hrenc,
        ⟨hrall.type, hrall.sender, hall.sender, hrall.id, hall.id, hrall.headers⟩⟩

end Envelops

/-- The payload of `JsonSerializer` in the envelope. -/
def jsonContent (limits : Limits) : Payload F → Option (Value F)
  | .json value =>
      match validateJsonValue limits value with
      | .ok _ => some value
      | .error _ => none
  | .bytes _ => none

/-- The payload of `BytesSerializer` in the envelope. -/
def bytesContent : Payload F → Option (Value F)
  | .bytes payload => some (.str (b64encode payload))
  | .json _ => none

/-- The content of a JSON payload is the value that passes the limits. -/
theorem jsonContent_eq_some {limits : Limits} {payload : Payload F} {v : Value F} :
    jsonContent limits payload = some v ↔
      payload = .json v ∧ validateJsonValue limits v = .ok () := by
  cases payload with
  | bytes b => simp [jsonContent]
  | json value =>
      rw [jsonContent]
      split
      · next hval =>
          refine ⟨fun h => ?_, fun h => ?_⟩
          · obtain rfl := Option.some.inj h
            exact ⟨rfl, hval⟩
          · rw [Payload.json.inj h.1]
      · next hval =>
          refine iff_of_false nofun fun h => ?_
          rw [Payload.json.inj h.1, h.2] at hval
          cases hval

mutual

/-- Loaded values that pass the limits can be written. -/
theorem writable_of_valid (limits : Limits) : ∀ (v : Value F) {depth : ℕ}, Valid limits depth v →
    v.Each loadable → v.Each writable
  | .none, _, _, _ => trivial
  | .bool _, _, _, _ => trivial
  | .int _, _, _, h => h
  | .float _, _, h, _ => h
  | .str _, _, _, _ => trivial
  | .tuple _, _, h, _ => absurd h id
  | .list items, _, h, he => writableItem_of_valid limits items h.2 he
  | .dict items, _, h, he => writableMember_of_valid limits items h.2 he

/-- Valid items are writable. -/
theorem writableItem_of_valid (limits : Limits) : ∀ (items : List (Value F)) {depth : ℕ},
    ValidItems limits depth items → Value.EachItem loadable items → Value.EachItem writable items
  | [], _, _, _ => trivial
  | v :: items, _, h, he =>
      ⟨writable_of_valid limits v h.1 he.1, writableItem_of_valid limits items h.2 he.2⟩

/-- Valid members are writable. -/
theorem writableMember_of_valid (limits : Limits) : ∀ (items : List (Key F × Value F)) {depth : ℕ},
    ValidMembers limits depth items → Value.EachMember loadable items →
    Value.EachMember writable items
  | [], _, _, _ => trivial
  | (_, v) :: items, _, h, he =>
      ⟨he.1, writable_of_valid limits v h.2.1 he.2.1, writableMember_of_valid limits items h.2.2 he.2.2⟩

end

/-- The JSON serializer writes envelopes. -/
theorem json_envelops (limits : Limits) :
    Envelops (jsonSerializer limits : Serializer (Body F D)) (jsonContent limits) where
  native payload v hd h := by
    obtain ⟨rfl, hval⟩ := jsonContent_eq_some.1 h
    exact native_of_valid limits v ((validateJsonValue_iff limits v).1 hval).1 hd
  distinct payload v h hn := by
    obtain ⟨rfl, -⟩ := jsonContent_eq_some.1 h
    exact Value.distinct_of_native v hn
  writable payload v h he := by
    obtain ⟨-, hval⟩ := jsonContent_eq_some.1 h
    exact writable_of_valid limits v ((validateJsonValue_iff limits v).1 hval).1 he
  serialize m := by
    constructor
    · rintro ⟨data, h⟩
      obtain ⟨v, value, hp, hval, henv, henc⟩ := json_serialize_ok (toOption_eq_some.1 h)
      exact ⟨v, value, data, jsonContent_eq_some.2 ⟨hp, hval⟩, henv, henc⟩
    · rintro ⟨v, value, data, hv, henv, henc⟩
      obtain ⟨hp, hval⟩ := jsonContent_eq_some.1 hv
      refine ⟨data, toOption_eq_some.2 ?_⟩
      rw [JsonSerializer.serialize, hp, JsonSerializer.validatePayload, hval]
      change (encodeEnvelope m v >>= encodeJson) = _
      rw [henv]
      exact henc
  deserialize data m h := by
    have hok := toOption_eq_some.1 h
    rw [JsonSerializer.deserialize] at hok
    cases hdec : decodeJson (F := F) data with
    | error e =>
        rw [hdec] at hok
        cases hok
    | ok raw =>
        rw [hdec] at hok
        refine ⟨raw, _, rfl, hok, fun o payload hp => ?_⟩
        cases o with
        | none => cases hp
        | some v =>
            rw [JsonSerializer.decodePayload] at hp
            cases hval : validateJsonValue limits v with
            | error e =>
                rw [hval] at hp
                cases hp
            | ok u =>
                rw [hval] at hp
                obtain rfl := Except.ok.inj hp
                exact ⟨v, rfl, jsonContent_eq_some.2 ⟨rfl, hval⟩⟩

/-- So does the bytes serializer. -/
theorem bytes_envelops : Envelops (bytesSerializer : Serializer (Body F D)) bytesContent where
  native payload v _ h := by
    cases payload with
    | json value => cases h
    | bytes b =>
        obtain rfl := Option.some.inj h
        trivial
  distinct payload v h _ := by
    cases payload with
    | json value => cases h
    | bytes b => trivial
  writable payload v h _ := by
    cases payload with
    | json value => cases h
    | bytes b =>
        obtain rfl := Option.some.inj h
        trivial
  serialize m := by
    constructor
    · rintro ⟨data, h⟩
      obtain ⟨payload, value, hp, henv, henc⟩ := bytes_serialize_ok (toOption_eq_some.1 h)
      exact ⟨_, value, data, by rw [hp]; rfl, henv, henc⟩
    · rintro ⟨v, value, data, hv, henv, henc⟩
      refine ⟨data, toOption_eq_some.2 ?_⟩
      rw [BytesSerializer.serialize]
      cases hp : m.payload.payload with
      | json value =>
          rw [hp] at hv
          cases hv
      | bytes payload =>
          rw [hp] at hv
          obtain rfl := Option.some.inj hv
          change (encodeEnvelope m _ >>= encodeJson) = _
          rw [henv]
          exact henc
  deserialize data m h := by
    have hok := toOption_eq_some.1 h
    rw [BytesSerializer.deserialize] at hok
    cases hdec : decodeJson (F := F) data with
    | error e =>
        rw [hdec] at hok
        cases hok
    | ok raw =>
        rw [hdec] at hok
        refine ⟨raw, _, rfl, hok, fun o payload hp => ?_⟩
        unfold BytesSerializer.decodePayload at hp
        split at hp
        · next encoded =>
            split at hp
            · cases hp
            · next decoded hdecoded =>
                split at hp
                · cases hp
                · next hcanonical =>
                    obtain rfl := Except.ok.inj hp
                    exact ⟨_, rfl, by rw [bytesContent, not_not.1 hcanonical]⟩
        · cases hp

/-- Whatever the serializer accepts can be sent on, unless the document has a
lone surrogate. -/
def SendsOn (s : Serializer (Body F D)) : Prop :=
  ∀ data m, s.deserialize data = some m → (CanBeSentOn s m ↔ Forwardable F data)

/-- **Accepted messages can be sent on, but for lone surrogates.**  For
`JsonSerializer` with any limits and for `BytesSerializer`, and every document
they accept: the message is serialized and read back equal, its id is
acknowledged when the frame is small enough, and every reply to it is serialized,
exactly when no string of the document, that of `created_at` apart, has a lone
surrogate. -/
theorem serializers_sendOn
    (hiso : ∀ d : D, PyDatetime.isAware d = true → Python.Encodable (PyDatetime.isoformat d)) :
    (∀ limits : Limits, SendsOn (jsonSerializer limits : Serializer (Body F D))) ∧
      SendsOn (bytesSerializer : Serializer (Body F D)) :=
  ⟨fun limits _ _ => canBeSentOn_iff (json_envelops limits) (jsonSerializer_lossless limits) hiso,
    fun _ _ => canBeSentOn_iff bytes_envelops bytesSerializer_lossless hiso⟩

/-! ## A document -/

/-- A document with one quoted id. -/
def sampleDocument (quotedId : Str) : Str :=
  123 :: stringText createdAtKey ++
    58 :: stringText (PyDatetime.isoformat SampleDatetime.epoch) ++
    (44 :: stringText headersKey ++ [58, 123, 125]) ++
    (44 :: stringText idKey ++ 58 :: quotedId) ++
    (44 :: stringText payloadKey ++ 58 :: ofChars ['n', 'u', 'l', 'l']) ++
    (44 :: stringText recipientKey ++ 58 :: ofChars ['n', 'u', 'l', 'l']) ++
    (44 :: stringText replyToKey ++ 58 :: ofChars ['n', 'u', 'l', 'l']) ++
    (44 :: stringText senderKey ++ 58 :: ofChars ['n', 'u', 'l', 'l']) ++
    (44 :: stringText typeKey ++ 58 :: stringText (ofChars ['t']) ++ [125])

/-- What the document is read as. -/
def sampleItems (id : Str) : List (Key SampleFloat × Value SampleFloat) :=
  [(.str createdAtKey, .str (PyDatetime.isoformat SampleDatetime.epoch)),
    (.str headersKey, .dict []), (.str idKey, .str id), (.str payloadKey, .none),
    (.str recipientKey, .none), (.str replyToKey, .none), (.str senderKey, .none),
    (.str typeKey, .str (ofChars ['t']))]

/-- The message of the document. -/
def sampleAccepted (id : Str) : Message (Body SampleFloat SampleDatetime) where
  payload := ⟨.json .none, some .epoch⟩
  type := .str (ofChars ['t'])
  sender := .none
  recipient := .none
  headers := some []
  id := .str id
  replyTo := .none

/-- The envelope of the sample is accepted. -/
theorem decodeEnvelope_sampleItems {id : Str} (hid : id ≠ []) :
    decodeEnvelope (.dict (sampleItems id)) (JsonSerializer.decodePayload sampleLimits) =
      .ok (sampleAccepted id) := by
  have hvalid : validateJsonValue sampleLimits (.none : Value SampleFloat) = .ok () :=
    (validateJsonValue_iff _ _).2 ⟨trivial, by decide⟩
  have hpayload : JsonSerializer.decodePayload sampleLimits
      (dictGet (sampleItems id) payloadKey) = .ok (.json .none) := by
    change (validateJsonValue sampleLimits (.none : Value SampleFloat)).map _ = _
    rw [hvalid]
    rfl
  have hcreated : dictGet (sampleItems id) createdAtKey =
      some (.str (PyDatetime.isoformat SampleDatetime.epoch)) := rfl
  have hread : PyDatetime.fromIsoformat (D := SampleDatetime)
      (PyDatetime.isoformat SampleDatetime.epoch) = some .epoch := rfl
  have hnames : memberNames (sampleItems id) = envelopeFields := rfl
  have hmissing : (envelopeFields.filter fun f => decide (f ∉ envelopeFields)) = [] := by decide
  have hfields : validateMessageFields (sampleAccepted id) = .ok () := by
    refine validateMessageFields_iff.2 ⟨fun f => ?_, .epoch, rfl, rfl⟩
    cases f with
    | id => exact congrArg Option.isSome (Attr.identifier_eq_some.2 rfl : _ = some ⟨id, hid⟩)
    | _ => rfl
  simp only [decodeEnvelope, hnames, hmissing, ne_eq, not_true_eq_false, or_self, if_false,
    hcreated, hread, hpayload]
  change (validateMessageFields (sampleAccepted id) >>= fun _ => .ok (sampleAccepted id)) = _
  rw [hfields]
  rfl

/-- So is its document. -/
theorem deserialize_sampleDocument {quotedId id : Str} {data : Bytes}
    (hdata : encodeUtf8 (sampleDocument quotedId) = some data)
    (hloads : loadsWith strictHooks (sampleDocument quotedId) = some (.dict (sampleItems id)))
    (hid : id ≠ []) :
    decodeJson data = .ok (.dict (sampleItems id)) ∧
      (jsonSerializer sampleLimits).deserialize data = some (sampleAccepted id) := by
  have hdec : decodeJson data = .ok (.dict (sampleItems id)) := by
    rw [decodeJson, decodeUtf8_encodeUtf8 hdata, Option.bind_some, hloads]
  refine ⟨hdec, toOption_eq_some.2 ?_⟩
  rw [JsonSerializer.deserialize, hdec]
  exact decodeEnvelope_sampleItems hid

/-- Its date is encodable. -/
theorem isoformat_sample (d : SampleDatetime) : Python.Encodable (PyDatetime.isoformat d) := by
  cases d
  decide

set_option maxRecDepth 8000 in
/-- The document is read. -/
theorem loads_sampleDocument : loadsWith strictHooks (sampleDocument (stringText [105])) =
    some (.dict (sampleItems [105])) := rfl

set_option maxRecDepth 8000 in
/-- So is one with a lone surrogate. -/
theorem loads_loneSurrogate : loadsWith strictHooks (sampleDocument (34 :: escapeUnit 0xD800 ++ [34])) =
    some (.dict (sampleItems [0xD800])) := rfl

set_option maxRecDepth 8000 in
/-- The document is encodable. -/
theorem encodable_sampleDocument : Python.Encodable (sampleDocument (stringText [105])) := by decide

set_option maxRecDepth 8000 in
/-- So is the other one, whose surrogate is escaped. -/
theorem encodable_loneSurrogate :
    Python.Encodable (sampleDocument (34 :: escapeUnit 0xD800 ++ [34])) := by decide

/-- The message of a document with a usual id can be sent on. -/
theorem serializers_sendOn_sample :
    ∃ data, (jsonSerializer sampleLimits).deserialize data = some (sampleAccepted [105]) ∧
      CanBeSentOn (jsonSerializer sampleLimits) (sampleAccepted [105]) := by
  obtain ⟨data, hdata⟩ : ∃ data, encodeUtf8 (sampleDocument (stringText [105])) = some data :=
    encodeUtf8_eq_some.2 encodable_sampleDocument
  obtain ⟨hdec, hm⟩ := deserialize_sampleDocument hdata loads_sampleDocument (by decide)
  have hforward : Forwardable SampleFloat data := by
    intro items hitems q hq _
    obtain rfl := Value.dict.inj (Except.ok.inj (hitems.symm.trans hdec))
    have hall : Value.EachMember encodable (sampleItems [105]) := by
      simp only [sampleItems, Value.EachMember, Value.Each, encodable, Key.str.injEq,
        exists_eq_left']
      decide
    exact (Value.eachMember_iff.1 hall q hq).2
  exact ⟨data, hm, ((serializers_sendOn fun d _ => isoformat_sample d).1 sampleLimits data _ hm).2
    hforward⟩

/-- A document whose id is the escape `\uD800` is accepted, and its message
cannot be serialized again. -/
theorem not_serializers_sendOn :
    ¬ ∀ (data : Bytes) (m : Message (Body SampleFloat SampleDatetime)),
      (jsonSerializer sampleLimits).deserialize data = some m →
        CanBeSentOn (jsonSerializer sampleLimits) m := by
  intro hall
  obtain ⟨data, hdata⟩ : ∃ data,
      encodeUtf8 (sampleDocument (34 :: escapeUnit 0xD800 ++ [34])) = some data :=
    encodeUtf8_eq_some.2 encodable_loneSurrogate
  obtain ⟨hdec, hm⟩ := deserialize_sampleDocument hdata loads_loneSurrogate (by decide)
  have hforward := (canBeSentOn_iff (json_envelops sampleLimits) (jsonSerializer_lossless sampleLimits)
    (fun d _ => isoformat_sample d) hm).1 (hall data _ hm)
  have hid : (Value.str [0xD800] : Value SampleFloat).Each encodable :=
    hforward _ hdec (.str idKey, .str [0xD800]) (by simp [sampleItems])
      fun h => absurd (Key.str.inj h) (by decide)
  have hbad : ¬ Python.Encodable [0xD800] := by decide
  exact hbad hid

end Serializers
end Paqto
