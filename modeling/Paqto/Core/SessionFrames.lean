/-
# Exactly the READY frames are accepted

`ReadyFrame` says which byte strings are READY frames and what they stand for,
without the decoder: an application frame is its kind and the payload, a control
frame is its kind and the JSON of an object that is a `ControlObject`, with the
type and the id of the frame among its members.  `decode_session_frame` returns
what `ReadyFrame` says, and raises `ProtocolFrameError` on every other byte string
(`session_frames_exact`).

`ControlObject` speaks of what `json.loads` reads with a hook that keeps every
pair.  Where the parser of the source gives up on deep nesting (`RecursionError`),
the one here reads on and the depth check refuses; both raise
`ProtocolFrameError`.
-/

import Paqto.Core.ControlText
import Paqto.Python.JsonParts

namespace Paqto
namespace Core

open Python

variable {F : Type} [PyFloat F]

/-! ## What a READY frame is -/

/-- Control data that a receiver accepts: JSON of one object without duplicate
names, unsafe numbers or deep nesting. -/
structure ControlObject (payload : Bytes) (raw : List (Key F × Value F)) : Prop where
  size : payload.length ≤ maxControlPayloadSize
  json : ∃ text, decodeUtf8 payload = some text ∧ loads everyPair text = some (.dict raw)
  names : ∀ d items, (Value.dict raw).At d (.dict items) → (items.map Prod.fst).Nodup
  finite : ∀ d x, (Value.dict raw).At d (.float x) → PyFloat.isFinite x = true
  integers : ∀ d i, (Value.dict raw).At d (.int i) → i.natAbs < 2 ^ maxJsonIntegerBits
  lists : ∀ d items, (Value.dict raw).At d (.list items) → d < maxJsonNesting
  dicts : ∀ d items, (Value.dict raw).At d (.dict items) → d < maxJsonNesting

/-- A control frame of a type, with an id under a name. -/
structure ControlFrame (F : Type) [PyFloat F] (type name : Str) (id : Identifier)
    (frame : Bytes) : Prop where
  exists_object : ∃ (payload : Bytes) (raw : List (Key F × Value F)),
    frame = controlFrame :: payload ∧ ControlObject payload raw ∧
      (.str magicKey, .str protocolMagic) ∈ raw ∧ (.str typeKey, .str type) ∈ raw ∧
      (.str name, .str id.1) ∈ raw

/-- Which byte strings are READY frames, and what they stand for. -/
def ReadyFrame (F : Type) [PyFloat F] (limit : ℤ) (frame : Bytes) : SessionFrame → Prop
  | .application data => frame = applicationFrame :: data ∧ (data.length : ℤ) ≤ limit
  | .acknowledgement messageId => ControlFrame F ackType messageIdKey messageId frame
  | .ping pingId => ControlFrame F pingType pingIdKey pingId frame
  | .pong pingId => ControlFrame F pongType pingIdKey pingId frame

/-! ## Control data -/

/-- An integer has at most so many bits. -/
theorem bitLength_le_iff (i : ℤ) (n : ℕ) : bitLength i ≤ n ↔ i.natAbs < 2 ^ n := by
  unfold bitLength
  split
  · next h => simp [h]
  · next h =>
      have hne : i.natAbs ≠ 0 := Int.natAbs_ne_zero.2 h
      rw [← Nat.log2_lt hne]
      omega

/-- What the safety check asks of one value at a depth. -/
def SafeHere (depth : ℕ) : Value F → Prop
  | .int i => bitLength i ≤ maxJsonIntegerBits
  | .float x => PyFloat.isFinite x = true
  | .list _ => depth < maxJsonNesting
  | .dict _ => depth < maxJsonNesting
  | _ => True

/-- A value is safe where it and its parts are. -/
theorem safe_iff_parts (depth : ℕ) (v : Value F) :
    Safe depth v ↔ SafeHere depth v ∧ ∀ u ∈ v.parts, Safe (depth + 1) u := by
  cases v with
  | list items => rw [Safe, safeItems_iff]; rfl
  | dict items => rw [Safe, safeMembers_iff]; rfl
  | _ => simp [Safe, SafeHere, Value.parts]

omit [PyFloat F] in
/-- An item weighs no more than the list. -/
theorem valueWeight_le_itemsWeight {u : Value F} {items : List (Value F)} (hu : u ∈ items) :
    valueWeight u ≤ itemsWeight items := by
  induction items with
  | nil => cases hu
  | cons v items ih =>
      rw [itemsWeight]
      obtain rfl | hu := List.mem_cons.1 hu
      · omega
      · have := ih hu
        omega

omit [PyFloat F] in
/-- A part weighs less than the whole. -/
theorem valueWeight_lt_of_parts {u v : Value F} (hu : u ∈ v.parts) :
    valueWeight u < valueWeight v := by
  cases v with
  | list items =>
      have : valueWeight u ≤ itemsWeight items := valueWeight_le_itemsWeight hu
      rw [valueWeight]
      omega
  | dict items =>
      have : valueWeight u ≤ itemsWeight (items.map Prod.snd) := valueWeight_le_itemsWeight hu
      rw [itemsWeight_members] at this
      rw [valueWeight]
      omega
  | _ => cases hu

/-- What is nested in a safe value is safe. -/
theorem Safe.at {depth d : ℕ} {v w : Value F} (h : Safe depth v) (hat : v.At d w) :
    Safe (depth + d) w := by
  induction hat with
  | root => exact h
  | item _ hw ih => exact ((safe_iff_parts _ _).1 ih).2 _ hw
  | member _ hp ih => exact ((safe_iff_parts _ _).1 ih).2 _ (List.mem_map_of_mem hp)

/-- A value is safe when everything nested in it is. -/
theorem safe_of_at (n : ℕ) {depth : ℕ} {v : Value F} (hn : valueWeight v ≤ n)
    (h : ∀ d w, v.At d w → SafeHere (depth + d) w) : Safe depth v := by
  induction n generalizing depth v with
  | zero =>
      have hpos : 0 < valueWeight v := by cases v <;> simp [valueWeight]
      omega
  | succ n ih =>
      obtain ⟨hroot, hparts⟩ := Value.forall_at_iff.1 h
      refine (safe_iff_parts depth v).2 ⟨hroot, fun u hu => ih ?_ fun d w hat => ?_⟩
      · have := valueWeight_lt_of_parts hu
        omega
      · have hdepth : depth + 1 + d = depth + (d + 1) := by omega
        rw [hdepth]
        exact hparts u hu d w hat

/-- **The safety check looks at every value inside**, with its depth. -/
theorem safe_iff_at {depth : ℕ} {v : Value F} :
    Safe depth v ↔ ∀ d w, v.At d w → SafeHere (depth + d) w :=
  ⟨fun h _ w hat => ((safe_iff_parts _ w).1 (h.at hat)).1, safe_of_at _ le_rfl⟩

omit [PyFloat F] in
/-- A name that occurs twice is refused. -/
theorem uniqueJsonObject_refusesDuplicates : RefusesDuplicates (uniqueJsonObject (F := F)) := by
  intro pairs v
  by_cases hnd : (pairs.map Prod.fst).Nodup
  · rw [uniqueJsonObject_of_nodup pairs hnd, Option.some.injEq, and_iff_right hnd]
    exact eq_comm
  · rw [uniqueJsonObject_eq_none hnd]
    exact iff_of_false (by simp) fun h => hnd h.1

/-- **What is decoded from control data is the object it is.** -/
theorem decodeControl_ok_iff {payload : Bytes} {raw : List (Key F × Value F)} :
    decodeControl payload = .ok raw ↔ ControlObject payload raw := by
  have hsplit : decodeControl payload = .ok raw ↔ payload.length ≤ maxControlPayloadSize ∧
      (∃ text, decodeUtf8 payload = some text ∧ loads uniqueJsonObject text = some (.dict raw)) ∧
        Safe 0 (.dict raw) := by
    unfold decodeControl
    split
    · next hsize =>
        exact iff_of_false (by simp) fun h => absurd h.1 (Nat.not_le.2 hsize)
    · next hsize =>
        have hjson : (∃ text, decodeUtf8 payload = some text ∧
            loads uniqueJsonObject text = some (Value.dict raw)) ↔
            (decodeUtf8 payload).bind (loads uniqueJsonObject) = some (.dict raw) :=
          Option.bind_eq_some_iff.symm
        rw [and_iff_right (Nat.le_of_not_lt hsize), hjson, ← isSafeJsonValue_iff]
        split
        · next hnone => simp [hnone]
        · next items hitems =>
            simp only [hitems, Option.some.injEq, Value.dict.injEq]
            split
            · next hsafe =>
                constructor
                · intro h
                  cases h
                  exact ⟨rfl, hsafe⟩
                · rintro ⟨rfl, -⟩
                  rfl
            · next hsafe =>
                constructor
                · intro h
                  cases h
                · rintro ⟨rfl, h⟩
                  exact absurd h hsafe
        · next v hother hv =>
            refine iff_of_false (by simp) fun h => ?_
            exact hother raw (Option.some.inj (hv.symm.trans h.1))
  rw [hsplit]
  simp only [loads_iff_everyPair uniqueJsonObject_refusesDuplicates, safe_iff_at, Nat.zero_add]
  constructor
  · rintro ⟨hsize, ⟨text, htext, hread, hnames⟩, hsafe⟩
    exact {
      size := hsize
      json := ⟨text, htext, hread⟩
      names := fun d items hat => hnames d _ hat
      finite := fun d x hat => hsafe d _ hat
      integers := fun d i hat => (bitLength_le_iff i _).1 (hsafe d _ hat)
      lists := fun d items hat => hsafe d _ hat
      dicts := fun d items hat => hsafe d _ hat }
  · intro h
    obtain ⟨text, htext, hread⟩ := h.json
    refine ⟨h.size, ⟨text, htext, hread, fun d w hat => ?_⟩, fun d w hat => ?_⟩
    · cases w with
      | dict items => exact h.names d items hat
      | _ => exact trivial
    · cases w with
      | int i => exact (bitLength_le_iff i _).2 (h.integers d i hat)
      | float x => exact h.finite d x hat
      | list items => exact h.lists d items hat
      | dict items => exact h.dicts d items hat
      | _ => exact trivial

/-! ## Members -/

omit [PyFloat F] in
/-- A dict has under a name what its items say. -/
theorem dictGet_eq_some_iff {items : List (Key F × Value F)} (hnd : (items.map Prod.fst).Nodup)
    {name : Str} {v : Value F} : dictGet items name = some v ↔ (.str name, v) ∈ items := by
  induction items with
  | nil => simp [dictGet]
  | cons p items ih =>
      obtain ⟨k, w⟩ := p
      rw [List.map_cons, List.nodup_cons] at hnd
      have hskip : k ≠ .str name →
          ((.str name, v) ∈ (k, w) :: items ↔ (Key.str name, v) ∈ items) := by
        intro hne
        rw [List.mem_cons, Prod.mk.injEq]
        exact or_iff_right fun h => hne h.1.symm
      cases k with
      | str k =>
          rw [dictGet]
          split
          · next heq =>
              subst heq
              have hnot : (Key.str k, v) ∉ items := fun hm => hnd.1 (List.mem_map.2 ⟨_, hm, rfl⟩)
              simp [hnot, eq_comm]
          · next hne =>
              rw [hskip fun h => hne (Key.str.inj h)]
              exact ih hnd.2
      | _ =>
          rw [hskip (by simp)]
          exact ih hnd.2

omit [PyFloat F] in
/-- A field is that string when the member is there. -/
theorem isStr_iff {items : List (Key F × Value F)} (hnd : (items.map Prod.fst).Nodup)
    {name s : Str} : isStr (dictGet items name) s = true ↔ (.str name, .str s) ∈ items := by
  rw [← dictGet_eq_some_iff hnd]
  unfold isStr
  split
  · next t ht => simp [ht]
  · next hother =>
      refine iff_of_false (by simp) fun h => ?_
      exact hother s h

omit [PyFloat F] in
/-- A field is that id when the member is there. -/
theorem nonEmptyStr_iff {items : List (Key F × Value F)} (hnd : (items.map Prod.fst).Nodup)
    {name : Str} {id : Identifier} :
    nonEmptyStr (dictGet items name) = some id ↔ (.str name, .str id.1) ∈ items := by
  rw [← dictGet_eq_some_iff hnd]
  unfold nonEmptyStr
  split
  · next s hs =>
      simp only [hs, Option.some.injEq, Value.str.injEq]
      split
      · rw [Option.some.injEq, Subtype.ext_iff]
      · next hempty =>
          refine iff_of_false (by simp) fun h => hempty ?_
          rw [h]
          exact id.2
  · next hother =>
      refine iff_of_false (by simp) fun h => ?_
      exact hother id.1 h

/-! ## The decoders -/

/-- A control frame with these fields. -/
theorem controlFrame_iff {type name : Str} {id : Identifier} {payload : Bytes}
    {raw : List (Key F × Value F)} (hraw : decodeControl payload = .ok raw) :
    ControlFrame F type name id (controlFrame :: payload) ↔
      isStr (dictGet raw magicKey) protocolMagic = true ∧
        isStr (dictGet raw typeKey) type = true ∧ nonEmptyStr (dictGet raw name) = some id := by
  have hobject := decodeControl_ok_iff.1 hraw
  have hnd := hobject.names 0 raw .root
  rw [isStr_iff hnd, isStr_iff hnd, nonEmptyStr_iff hnd]
  constructor
  · rintro ⟨payload', raw', heq, hobject', hmembers⟩
    cases heq
    cases hraw.symm.trans (decodeControl_ok_iff.2 hobject')
    exact hmembers
  · intro hmembers
    exact ⟨payload, raw, rfl, hobject, hmembers⟩

/-- What cannot be read is no control frame. -/
theorem not_controlFrame {type name : Str} {id : Identifier} {payload : Bytes} {e : FrameError}
    (hraw : decodeControl (F := F) payload = .error e) :
    ¬ ControlFrame F type name id (controlFrame :: payload) := by
  rintro ⟨payload', raw', heq, hobject', -⟩
  cases heq
  cases hraw.symm.trans (decodeControl_ok_iff.2 hobject')

/-- A control frame has its tag. -/
theorem ControlFrame.head {type name : Str} {id : Identifier} {kind : UInt8} {payload : Bytes}
    (h : ControlFrame F type name id (kind :: payload)) : kind = controlFrame := by
  obtain ⟨_, _, heq, -⟩ := h
  exact (List.cons.inj heq).1

omit [PyFloat F] in
/-- A field is one string. -/
theorem isStr_unique {v : Option (Value F)} {s t : Str} (hs : isStr v s = true)
    (ht : isStr v t = true) : s = t := by
  unfold isStr at hs ht
  split at hs
  · exact (of_decide_eq_true hs).symm.trans (of_decide_eq_true ht)
  · cases hs

/-- The type and id checks on control data. -/
theorem decodeSessionFrame_control {payload : Bytes} {raw : List (Key F × Value F)} {limit : ℤ}
    {r : SessionFrame} (hraw : decodeControl payload = .ok raw) :
    decodeSessionFrame (F := F) (controlFrame :: payload) limit = .ok r ↔
      ReadyFrame F limit (controlFrame :: payload) r := by
  have hkinds : controlFrame ≠ applicationFrame := by decide
  have hackPing : ackType ≠ pingType := by decide
  have hackPong : ackType ≠ pongType := by decide
  have hpingPong : pingType ≠ pongType := by decide
  simp only [decodeSessionFrame, splitFrame, bind, Except.bind, if_neg hkinds, ne_eq,
    not_true_eq_false, if_false, hraw]
  by_cases hmagic : isStr (dictGet raw magicKey) protocolMagic = true
  · by_cases hack : isStr (dictGet raw typeKey) ackType = true
    · have hping : ¬ isStr (dictGet raw typeKey) pingType = true :=
        fun h => hackPing (isStr_unique hack h)
      have hpong : ¬ isStr (dictGet raw typeKey) pongType = true :=
        fun h => hackPong (isStr_unique hack h)
      cases hid : nonEmptyStr (dictGet raw messageIdKey) <;> cases r <;>
        simp [ReadyFrame, controlFrame_iff hraw, hkinds, hmagic, hack, hping, hpong, hid]
    · by_cases hping : isStr (dictGet raw typeKey) pingType = true
      · have hpong : ¬ isStr (dictGet raw typeKey) pongType = true :=
          fun h => hpingPong (isStr_unique hping h)
        cases hid : nonEmptyStr (dictGet raw pingIdKey) <;> cases r <;>
          simp [ReadyFrame, controlFrame_iff hraw, hkinds, hmagic, hack, hping, hpong, hid]
      · by_cases hpong : isStr (dictGet raw typeKey) pongType = true
        · cases hid : nonEmptyStr (dictGet raw pingIdKey) <;> cases r <;>
            simp [ReadyFrame, controlFrame_iff hraw, hkinds, hmagic, hack, hping, hpong, hid]
        · cases r <;>
            simp [ReadyFrame, controlFrame_iff hraw, hkinds, hmagic, hack, hping, hpong]
  · cases r <;> simp [ReadyFrame, controlFrame_iff hraw, hkinds, hmagic]

/-- **A byte string is decoded when it is a READY frame, as what it stands for.** -/
theorem decodeSessionFrame_ok_iff {frame : Bytes} {limit : ℤ} {r : SessionFrame} :
    decodeSessionFrame (F := F) frame limit = .ok r ↔ ReadyFrame F limit frame r := by
  have hkinds : controlFrame ≠ applicationFrame := by decide
  cases frame with
  | nil =>
      refine iff_of_false (by rintro ⟨⟩) ?_
      cases r with
      | application data => exact fun h => by cases h.1
      | _ =>
          rintro ⟨_, _, heq, -⟩
          cases heq
  | cons kind payload =>
      by_cases happ : kind = applicationFrame
      · subst happ
        have hnot : ∀ type name id, ¬ ControlFrame F type name id (applicationFrame :: payload) :=
          fun _ _ _ h => hkinds h.head.symm
        simp only [decodeSessionFrame, splitFrame, bind, Except.bind, if_true]
        by_cases hlen : (payload.length : ℤ) > limit
        · cases r with
          | application data =>
              rw [if_pos hlen]
              refine iff_of_false (by rintro ⟨⟩) ?_
              rintro ⟨heq, hle⟩
              cases heq
              omega
          | _ => simp [ReadyFrame, hnot, hlen]
        · cases r with
          | application data =>
              rw [if_neg hlen]
              constructor
              · intro h
                cases h
                exact ⟨rfl, by omega⟩
              · rintro ⟨heq, -⟩
                cases heq
                rfl
          | _ => simp [ReadyFrame, hnot, hlen]
      · by_cases hcontrol : kind = controlFrame
        · subst hcontrol
          cases hraw : decodeControl (F := F) payload with
          | ok raw => exact decodeSessionFrame_control hraw
          | error e =>
              simp only [decodeSessionFrame, splitFrame, bind, Except.bind, if_neg hkinds, ne_eq,
                not_true_eq_false, if_false, hraw]
              cases r <;> simp [ReadyFrame, hkinds, not_controlFrame hraw]
        · have hnot : ∀ type name id, ¬ ControlFrame F type name id (kind :: payload) :=
            fun _ _ _ h => hcontrol h.head
          simp only [decodeSessionFrame, splitFrame, bind, Except.bind, if_neg happ, ne_eq,
            hcontrol, not_false_eq_true, if_true]
          cases r <;> simp [ReadyFrame, happ, hnot]

/-- **When an application frame is accepted.** -/
theorem decodeApplicationFrame_ok_iff {frame data : Bytes} {limit : ℤ} :
    decodeApplicationFrame frame limit = .ok data ↔
      frame = applicationFrame :: data ∧ (data.length : ℤ) ≤ limit := by
  have hkinds : applicationFrame ≠ controlFrame := by decide
  cases frame with
  | nil => simp [decodeApplicationFrame, splitFrame, bind, Except.bind]
  | cons kind payload =>
      simp only [decodeApplicationFrame, splitFrame, bind, Except.bind, List.cons.injEq]
      by_cases happ : kind = applicationFrame
      · subst happ
        by_cases hlen : (payload.length : ℤ) > limit
        · simp only [if_neg hkinds, ne_eq, not_true_eq_false, if_false, if_pos hlen, true_and]
          refine iff_of_false (by rintro ⟨⟩) ?_
          rintro ⟨rfl, hle⟩
          omega
        · simp only [if_neg hkinds, ne_eq, not_true_eq_false, if_false, if_neg hlen, true_and]
          constructor
          · intro h
            cases h
            exact ⟨rfl, by omega⟩
          · rintro ⟨rfl, -⟩
            rfl
      · by_cases hcontrol : kind = controlFrame
        · simp [hcontrol, hkinds.symm]
        · simp [hcontrol, happ]

/-- A hello is control data of its own type. -/
theorem decodeHello_ok {frame : Bytes} {offer : HandshakeOffer F}
    (h : decodeHello frame = .ok offer) :
    ∃ payload, ∃ raw : List (Key F × Value F), frame = controlFrame :: payload ∧
      decodeControl payload = .ok raw ∧ isStr (dictGet raw typeKey) helloType = true := by
  cases frame with
  | nil => cases h
  | cons kind payload =>
      simp only [decodeHello, splitFrame] at h
      split at h
      · cases h
      · next hkind =>
          split at h
          · cases h
          · split at h
            · cases h
            · next raw hraw =>
                refine ⟨payload, raw, by rw [not_not.1 hkind], hraw, ?_⟩
                unfold decodeOffer at h
                split at h
                · cases h
                · split at h
                  · cases h
                  · next htype => simpa using htype

/-- **A hello is no READY frame.** -/
theorem not_readyFrame_of_hello {frame : Bytes} {offer : HandshakeOffer F} (limit : ℤ)
    (h : decodeHello frame = .ok offer) (r : SessionFrame) : ¬ ReadyFrame F limit frame r := by
  obtain ⟨payload, raw, rfl, hraw, hhello⟩ := decodeHello_ok h
  have hack : helloType ≠ ackType := by decide
  have hping : helloType ≠ pingType := by decide
  have hpong : helloType ≠ pongType := by decide
  have hkinds : controlFrame ≠ applicationFrame := by decide
  intro hready
  cases r with
  | application data => exact hkinds (List.cons.inj hready.1).1
  | acknowledgement id => exact hack (isStr_unique hhello ((controlFrame_iff hraw).1 hready).2.1)
  | ping id => exact hping (isStr_unique hhello ((controlFrame_iff hraw).1 hready).2.1)
  | pong id => exact hpong (isStr_unique hhello ((controlFrame_iff hraw).1 hready).2.1)

/-- What is not accepted is an error. -/
theorem exists_error_iff {ε α : Type} {x : Except ε α} :
    (∃ e, x = .error e) ↔ ∀ a, x ≠ .ok a := by
  cases x <;> simp

/-- **READY frames are parsed exactly.**  `decode_session_frame` returns what a
READY frame stands for and raises `ProtocolFrameError` on every other byte string;
`decode_application_frame` accepts the application frames among them, neither
accepts a hello, and what the encoders of control frames make is decoded to the id
it was made of. -/
theorem session_frames_exact (limit : ℤ) (frame : Bytes) :
    (∀ r, decodeSessionFrame (F := F) frame limit = .ok r ↔ ReadyFrame F limit frame r) ∧
    ((∃ e : FrameError, decodeSessionFrame (F := F) frame limit = .error e) ↔
      ∀ r, ¬ ReadyFrame F limit frame r) ∧
    (∀ data, decodeApplicationFrame frame limit = .ok data ↔
      decodeSessionFrame (F := F) frame limit = .ok (.application data)) ∧
    (∀ offer : HandshakeOffer F, decodeHello frame = .ok offer →
      (∃ e : FrameError, decodeSessionFrame (F := F) frame limit = .error e) ∧
      ∃ e : FrameError, decodeApplicationFrame frame limit = .error e) ∧
    (∀ id, encodeAcknowledgementFrame (F := F) id = .ok frame →
      decodeSessionFrame (F := F) frame limit = .ok (.acknowledgement id)) ∧
    (∀ id, encodePingFrame (F := F) id = .ok frame →
      decodeSessionFrame (F := F) frame limit = .ok (.ping id)) ∧
    ∀ id, encodePongFrame (F := F) id = .ok frame →
      decodeSessionFrame (F := F) frame limit = .ok (.pong id) := by
  have happlication : ∀ data, decodeApplicationFrame frame limit = .ok data ↔
      decodeSessionFrame (F := F) frame limit = .ok (.application data) := by
    intro data
    rw [decodeApplicationFrame_ok_iff, decodeSessionFrame_ok_iff, ReadyFrame]
  refine ⟨fun r => decodeSessionFrame_ok_iff, ?_, happlication, fun offer hoffer => ?_,
    fun id h => decodeSessionFrame_acknowledgement limit h,
    fun id h => decodeSessionFrame_ping limit h, fun id h => decodeSessionFrame_pong limit h⟩
  · simp only [exists_error_iff, ne_eq, decodeSessionFrame_ok_iff]
  · have hnot := not_readyFrame_of_hello limit hoffer
    constructor
    · exact exists_error_iff.2 fun r hr => hnot r (decodeSessionFrame_ok_iff.1 hr)
    · exact exists_error_iff.2 fun data hdata =>
        hnot (.application data) (decodeApplicationFrame_ok_iff.1 hdata)

/-- The limit counts the bytes after the kind. -/
example : decodeApplicationFrame [1, 65, 66] 2 = .ok [65, 66] := rfl

end Core
end Paqto
