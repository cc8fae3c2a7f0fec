/-
# What arrives at the other node

Over a connection between two nodes the messages that one has accepted are, in
their order, the first of those the other has sent: none is lost before the
reader ends, none is made up, and none comes twice (`received_inOrder`,
`delivered_once`).  With an acknowledgement it has come, and with a reply it was
the other node's answer to it (`request_answered`).
-/

import Paqto.Core.Acknowledgement
import Paqto.Core.MessagingOnce

namespace Paqto
namespace Core
namespace Messaging

open Transition Python Correlation
open AckDuplex (Side)

variable {F P : Type} [PyFloat F]

/-! ## One node -/

section node

variable {cfg : Config F P} {s t : Node F P} {c : ℕ}

omit [PyFloat F] in
/-- What was received depends on what was filed. -/
theorem received_of_filed (hfiled : t.filed = s.filed) (hnext : t.nextReceipt = s.nextReceipt) :
    t.received c = s.received c := by
  rw [Node.received, Node.received, hfiled, hnext]

omit [PyFloat F] in
/-- An accepted message is the last of its connection. -/
theorem received_of_accepts {data : Bytes} (h : Accepts c data s t) (d : ℕ) :
    t.received d = s.received d ++ if d = c then [data] else [] := by
  rw [Node.received, h.nextReceipt, List.range_succ, List.filterMap_append]
  refine congrArg₂ (· ++ ·) (List.filterMap_congr fun r hr => ?_) ?_
  · have hne : r ≠ s.nextReceipt := (List.mem_range.1 hr).ne
    rw [h.filed, Function.update_of_ne hne]
  · rw [List.filterMap_cons, h.filed, Function.update_self, Option.bind_some]
    by_cases hcd : c = d
    · simp [hcd]
    · simp [hcd, Ne.symm hcd]

/-- The log of a connection goes on. -/
theorem sent_goesOn {E : Evidence} (h : Inv cfg E none s) {l : Label P}
    (hs : step cfg s l = some t) (c : ℕ) : s.sent c <+: t.sent c := by
  have hlog : Inv cfg ⟨fun _ _ => True, fun _ _ => True, s.sent⟩ none s :=
    h.mono (fun _ _ _ => trivial) (fun _ _ _ => trivial) fun _ => List.prefix_refl _
  exact (inv_step hlog hs
    ⟨fun _ _ _ _ _ _ => trivial, fun _ _ _ _ _ _ _ _ _ _ _ => trivial⟩).sent c

end node

/-! ## Two nodes -/

variable {cfg : PairConfig F P} {p q : Pair F P} {x : Side} {c k r : ℕ}

/-- What a node has read from a connection. -/
def Pair.read (p : Pair F P) (x : Side) (c : ℕ) : List OutboundFrame :=
  ((p.nodes x.other).sent c).take (p.consumed x c)

/-- **Accepted in order.**  A node has accepted the messages that it has read, from the
first up to that with which its reader ended. -/
structure Pair.InOrder (cfg : PairConfig F P) (p : Pair F P) : Prop where
  consumed : ∀ x c, cfg.shared c = true → p.consumed x c ≤ ((p.nodes x.other).sent c).length
  accepted : ∀ x c, cfg.shared c = true → (p.nodes x).received c <+: payloads (p.read x c)
  current : ∀ x c, cfg.shared c = true → (p.nodes x).tasks c ≠ .ended →
    (p.nodes x).received c = payloads (p.read x c)

/-- What a step of a node reads. -/
theorem pairStep_consumed {l : Label P} (h : pairStep cfg p (x, l) = some q) :
    (∃ c frame, l = .receive c frame ∧ q.consumed =
      Function.update p.consumed x (Function.update (p.consumed x) c (p.consumed x c + 1))) ∨
    ((∀ c frame, l ≠ .receive c frame) ∧ q.consumed = p.consumed) := by
  unfold pairStep at h
  split at h
  · rename_i x' c frame heq
    obtain ⟨rfl, rfl⟩ := Prod.mk.inj heq
    split at h
    · obtain ⟨n, hn, rfl⟩ := Option.map_eq_some_iff.1 h
      exact .inl ⟨c, frame, rfl, rfl⟩
    · cases h
  · rename_i x' l' hl heq
    obtain ⟨rfl, rfl⟩ := Prod.mk.inj heq
    obtain ⟨n, hn, rfl⟩ := Option.map_eq_some_iff.1 h
    exact .inr ⟨hl, rfl⟩

omit [PyFloat F] in
/-- The next frame of a shared connection. -/
theorem read_of_delivers {frame : Bytes} (hc : cfg.shared c = true)
    (h : p.delivers cfg x c frame = true) :
    ∃ f, f.data = frame ∧ p.consumed x c < ((p.nodes x.other).sent c).length ∧
      ((p.nodes x.other).sent c).take (p.consumed x c + 1) = p.read x c ++ [f] := by
  rw [Pair.delivers, hc, Bool.not_true, Bool.false_or, Option.any_eq_true] at h
  obtain ⟨f, hf, hdata⟩ := h
  obtain ⟨hlt, hget⟩ := List.getElem?_eq_some_iff.1 hf
  refine ⟨f, by simpa using hdata, hlt, ?_⟩
  rw [List.take_add_one, hf, Option.toList_some, Pair.read]

/-- The payloads of two parts. -/
theorem payloads_append (l l' : List OutboundFrame) :
    payloads (l ++ l') = payloads l ++ payloads l' := List.filterMap_append ..

/-- A frame is read by a reader that has not ended. -/
theorem tasks_of_receive {cfg : Config F P} {s t : Node F P} {frame : Bytes}
    (hs : step cfg s (.receive c frame) = some t) : s.tasks c ≠ .ended := by
  simp only [step] at hs
  split at hs
  · rename_i session hpc
    simp [hpc]
  · cases hs

/-- The node that takes the step. -/
theorem inOrder_self {l : Label P} (h : p.InOrder cfg) (hs : pairStep cfg p (x, l) = some q)
    (hc : cfg.shared c = true) :
    q.consumed x c ≤ ((q.nodes x.other).sent c).length ∧
      (q.nodes x).received c <+: payloads (q.read x c) ∧
      ((q.nodes x).tasks c ≠ .ended → (q.nodes x).received c = payloads (q.read x c)) := by
  obtain ⟨n, hn, hq, hdelivers⟩ := pairStep_spec hs
  have hself : q.nodes x = n := by rw [hq, Function.update_self]
  have hother : q.nodes x.other = p.nodes x.other := by
    rw [hq, Function.update_of_ne x.other_ne]
  have hstays : n.received c = (p.nodes x).received c → q.consumed x c = p.consumed x c →
      q.consumed x c ≤ ((q.nodes x.other).sent c).length ∧
        (q.nodes x).received c <+: payloads (q.read x c) ∧
        ((q.nodes x).tasks c ≠ .ended → (q.nodes x).received c = payloads (q.read x c)) := by
    intro hreceived hconsumed
    have hread : q.read x c = p.read x c := by rw [Pair.read, Pair.read, hother, hconsumed]
    rw [hself, hread, hother, hconsumed, hreceived]
    exact ⟨h.consumed x c hc, h.accepted x c hc, fun hne =>
      h.current x c hc fun hended => hne (ended_step hn hended)⟩
  rcases pairStep_consumed hs with ⟨d, frame, rfl, hconsumed⟩ | ⟨hl, hconsumed⟩
  · have hcount : q.consumed x = Function.update (p.consumed x) d (p.consumed x d + 1) := by
      rw [hconsumed, Function.update_self]
    by_cases hcd : c = d
    · subst hcd
      obtain ⟨f, hf, hlt, htake⟩ := read_of_delivers hc (hdelivers c frame rfl)
      have hone : q.consumed x c = p.consumed x c + 1 := by rw [hcount, Function.update_self]
      have hread : q.read x c = p.read x c ++ [f] := by rw [Pair.read, hother, hone, htake]
      have hbefore := h.current x c hc (tasks_of_receive hn)
      rw [hself, hread, hother, hone, payloads_append]
      refine ⟨hlt, ?_⟩
      rcases filed_step hn with ⟨d, data, heq, haccepts⟩ | ⟨hfiled, hnext, hframe⟩
      · obtain ⟨rfl, rfl⟩ : c = d ∧ frame = applicationFrame :: data := by
          cases heq
          exact ⟨rfl, rfl⟩
        have hdata : payloads [f] = [data] := by
          rw [payloads, List.filterMap_cons, applicationData_eq_some.2 hf]
          rfl
        have hreceived : n.received c = payloads (p.read x c) ++ payloads [f] := by
          rw [received_of_accepts haccepts c, if_pos rfl, hbefore, hdata]
        rw [hreceived]
        exact ⟨List.prefix_refl _, fun _ => rfl⟩
      · rw [received_of_filed hfiled hnext, hbefore]
        refine ⟨List.prefix_append _ _, fun hne => ?_⟩
        have hnone := (hframe c frame rfl).resolve_right hne
        rw [payloads, payloads, List.filterMap_cons, hf, hnone]
        simp
    · refine hstays ?_ (by rw [hcount, Function.update_of_ne hcd])
      rcases filed_step hn with ⟨e, data, heq, haccepts⟩ | ⟨hfiled, hnext, -⟩
      · obtain rfl : d = e := by
          cases heq
          rfl
        rw [received_of_accepts haccepts c, if_neg hcd, List.append_nil]
      · exact received_of_filed hfiled hnext
  · refine hstays ?_ (by rw [hconsumed])
    rcases filed_step hn with ⟨e, data, rfl, -⟩ | ⟨hfiled, hnext, -⟩
    · exact absurd rfl (hl e _)
    · exact received_of_filed hfiled hnext

/-- The other node, whose peer's log has gone on. -/
theorem inOrder_other {l : Label P} (h : p.InOrder cfg) (hinv : p.Inv cfg)
    (hs : pairStep cfg p (x, l) = some q) (hc : cfg.shared c = true) :
    q.consumed x.other c ≤ ((q.nodes x.other.other).sent c).length ∧
      (q.nodes x.other).received c <+: payloads (q.read x.other c) ∧
      ((q.nodes x.other).tasks c ≠ .ended →
        (q.nodes x.other).received c = payloads (q.read x.other c)) := by
  obtain ⟨n, hn, hq, hdelivers⟩ := pairStep_spec hs
  have hother : q.nodes x.other = p.nodes x.other := by
    rw [hq, Function.update_of_ne x.other_ne]
  have hconsumed : q.consumed x.other = p.consumed x.other := by
    rcases pairStep_consumed hs with ⟨_, _, _, hcount⟩ | ⟨_, hcount⟩
    · rw [hcount, Function.update_of_ne x.other_ne]
    · rw [hcount]
  obtain ⟨more, hmore⟩ := sent_goesOn (hinv.nodes x) hn c
  have hlog : (q.nodes x.other.other).sent c = (p.nodes x.other.other).sent c ++ more := by
    rw [Side.other_other, hq, Function.update_self, hmore]
  have hle := h.consumed x.other c hc
  have hread : q.read x.other c = p.read x.other c := by
    rw [Pair.read, Pair.read, hlog, hconsumed, List.take_append_of_le_length hle]
  rw [hread, hother, hconsumed, hlog, List.length_append]
  exact ⟨hle.trans (Nat.le_add_right _ _), h.accepted _ c hc, h.current _ c hc⟩

/-- **One step of either node.** -/
theorem Pair.InOrder.step {l : Label P} (h : p.InOrder cfg) (hinv : p.Inv cfg)
    (hs : pairStep cfg p (x, l) = some q) : q.InOrder cfg where
  consumed y c hc := Side.forall_of (p := fun y => q.consumed y c ≤ ((q.nodes y.other).sent c).length)
    x (inOrder_self h hs hc).1 (inOrder_other h hinv hs hc).1 y
  accepted y c hc := Side.forall_of (p := fun y => (q.nodes y).received c <+: payloads (q.read y c))
    x (inOrder_self h hs hc).2.1 (inOrder_other h hinv hs hc).2.1 y
  current y c hc := Side.forall_of (p := fun y => (q.nodes y).tasks c ≠ .ended →
      (q.nodes y).received c = payloads (q.read y c))
    x (inOrder_self h hs hc).2.2 (inOrder_other h hinv hs hc).2.2 y

/-- **What is received is what was sent, in order**, in every run. -/
theorem inOrder_of_reachable (h : Reachable (pairSystem cfg) p) : p.InOrder cfg := by
  refine (h.invariant (I := fun p => p.Inv cfg ∧ p.InOrder cfg) ?_ ?_).2
  · rintro p hp
    refine ⟨pairInv_of_reachable (.init hp), ?_⟩
    obtain rfl := hp
    exact ⟨fun _ _ _ => le_rfl, fun _ _ _ => List.prefix_refl _, fun _ _ _ _ => rfl⟩
  · rintro p ⟨x, l⟩ q ⟨hinv, h⟩ hs
    exact ⟨pairInv_step hinv hs, h.step hinv hs⟩

/-- A node of a run of the two runs by itself. -/
theorem node_reachable (h : Reachable (pairSystem cfg) p) (x : Side) :
    Reachable (system (cfg.nodes x)) (p.nodes x) := by
  refine h.invariant (I := fun p => ∀ x, Reachable (system (cfg.nodes x)) (p.nodes x)) ?_ ?_ x
  · rintro _ rfl x
    exact .init rfl
  · rintro p ⟨y, l⟩ q hp hs x
    obtain ⟨n, hn, hq, -⟩ := pairStep_spec hs
    rw [hq]
    by_cases hxy : x = y
    · subst hxy
      rw [Function.update_self]
      exact (hp x).next l hn
    · rw [Function.update_of_ne hxy]
      exact hp x

/-! ## Nothing comes twice -/

/-- **In order and without a gap**: what a node has accepted from a shared connection is
a prefix of what the other has sent over it. -/
theorem received_inOrder (h : Reachable (pairSystem cfg) p) (x : Side) (hc : cfg.shared c = true) :
    (p.nodes x).received c <+: payloads ((p.nodes x.other).sent c) :=
  ((inOrder_of_reachable h).accepted x c hc).trans
    (List.IsPrefix.filterMap _ (List.take_prefix _ _))

/-- The serializers of the two nodes keep the id of a message. -/
def PairConfig.KeepsIds (cfg : PairConfig F P) : Prop :=
  ∀ x m data m', (cfg.nodes x).serializer.serialize m = some data →
    (cfg.nodes x.other).serializer.deserialize data = some m' → m'.id = m.id

/-- They keep the id of the message that it answers. -/
def PairConfig.KeepsReplyTo (cfg : PairConfig F P) : Prop :=
  ∀ x m data m', (cfg.nodes x).serializer.serialize m = some data →
    (cfg.nodes x.other).serializer.deserialize data = some m' → m'.replyTo = m.replyTo

/-- A control frame is no application frame. -/
theorem encodeControl_ne_application (payload : List (Key F × Value F)) (data : Bytes) :
    encodeControl payload ≠ .ok (applicationFrame :: data) := by
  intro henc
  unfold encodeControl at henc
  split at henc
  · split at henc
    · cases henc
    · split at henc <;> cases henc
  · cases henc

/-- A frame with application data is that of a call over its connection. -/
theorem origin_of_application {cfg : Config F P} {E : Evidence} {s : Node F P}
    (h : Inv cfg E none s) {f : OutboundFrame} (hf : f ∈ s.sent c) {data : Bytes}
    (hdata : f.data = applicationFrame :: data) :
    ∃ k call, f.origin = .call k ∧ s.calls k = some call ∧ call.connection = some c ∧
      cfg.serializer.serialize call.message = some data := by
  have hfit := h.frames c f (.inr hf)
  unfold FrameFits at hfit
  rw [hdata] at hfit
  split at hfit
  · rename_i k horigin
    obtain ⟨call, data', hk, hconn, _, hser, heq⟩ := hfit
    cases heq
    exact ⟨k, call, horigin, hk, hconn, hser⟩
  · obtain ⟨_, _, _, _, _, _, henc⟩ := hfit
    exact absurd henc (encodeControl_ne_application _ _)
  · obtain ⟨_, henc | henc⟩ := hfit
    · exact absurd henc (encodeControl_ne_application _ _)
    · exact absurd henc (encodeControl_ne_application _ _)

/-- A receipt from a shared connection is that of a call of the other node. -/
theorem call_of_receipt (hinv : p.Inv cfg) {receipt : Receipt F P}
    (hr : (p.nodes x).receipts r = some receipt) (hc : cfg.shared receipt.connection = true) :
    ∃ k call, (p.nodes x.other).calls k = some call ∧
      call.connection = some receipt.connection ∧
      (cfg.nodes x.other).serializer.serialize call.message = some receipt.data := by
  obtain ⟨f, hf, hdata⟩ := ((hinv.nodes x).receipts r receipt hr).data hc
  obtain ⟨k, call, -, hk, hconn, hser⟩ := origin_of_application (hinv.nodes x.other) hf hdata
  exact ⟨k, call, hk, hconn, hser⟩

/-- Data that deserialize to messages with different ids. -/
def DifferentIds (cfg : Config F P) (data data' : Bytes) : Prop :=
  ∀ m m', cfg.serializer.deserialize data = some m → cfg.serializer.deserialize data' = some m' →
    m.id ≠ m'.id

/-- The id of a message that the other node has deserialized is that of the call. -/
theorem id_of_serialized (hinv : p.Inv cfg) (hid : cfg.KeepsIds) {call : Call F P} {data : Bytes}
    {m : Message P} (hk : (p.nodes x).calls k = some call)
    (hser : (cfg.nodes x).serializer.serialize call.message = some data)
    (hdes : (cfg.nodes x.other).serializer.deserialize data = some m) :
    m.id = .str ((cfg.nodes x).messageId k) := by
  rw [hid x call.message data m hser hdes, ((hinv.nodes x).calls k call hk).message]
  rfl

omit [PyFloat F] in
/-- A call is known from its id. -/
theorem call_eq_of_id {k' : ℕ}
    (h : (Attr.str ((cfg.nodes x).messageId k)) = .str ((cfg.nodes x).messageId k')) : k = k' :=
  (cfg.nodes x).messageId_injective (Subtype.ext (Attr.str.inj h))

/-- **No message is sent twice.** -/
theorem sent_differ (h : Reachable (pairSystem cfg) p) (hid : cfg.KeepsIds) (x : Side) (c : ℕ) :
    (payloads ((p.nodes x).sent c)).Pairwise (DifferentIds (cfg.nodes x.other)) := by
  have hinv := pairInv_of_reachable h
  refine List.pairwise_filterMap.2 ?_
  have hown := ((once_of_reachable (node_reachable h x)).frames c).sublist
    (List.sublist_append_left _ _)
  refine hown.imp_of_mem fun {f g} hf hg horigins data hdata data' hdata' m m' hm hm' heq => ?_
  obtain ⟨k, call, hof, hk, -, hser⟩ :=
    origin_of_application (hinv.nodes x) hf (applicationData_eq_some.1 hdata)
  obtain ⟨k', call', hog, hk', -, hser'⟩ :=
    origin_of_application (hinv.nodes x) hg (applicationData_eq_some.1 hdata')
  rw [id_of_serialized hinv hid hk hser hm, id_of_serialized hinv hid hk' hser' hm'] at heq
  obtain rfl := call_eq_of_id heq
  have hbeat := horigins (hof.trans hog.symm)
  rw [hof] at hbeat
  cases hbeat

/-- A relation of all pairs holds of a pair. -/
theorem rel_of_pairwise_range {R : ℕ → ℕ → Prop} {n i j : ℕ} (h : (List.range n).Pairwise R)
    (hij : i < j) (hj : j < n) : R i j := by
  have hget := List.pairwise_iff_getElem.1 h i j (by simp; omega) (by simpa using hj) hij
  simpa using hget

/-- Messages that were accepted from one connection differ. -/
theorem ids_differ_of_lt (h : Reachable (pairSystem cfg) p) (hid : cfg.KeepsIds) {r' : ℕ}
    {receipt receipt' : Receipt F P} (hlt : r < r') (hr : (p.nodes x).receipts r = some receipt)
    (hr' : (p.nodes x).receipts r' = some receipt')
    (hsame : receipt.connection = receipt'.connection)
    (hc : cfg.shared receipt.connection = true) : receipt.message.id ≠ receipt'.message.id := by
  have hx := (pairInv_of_reachable h).nodes x
  have hdiffer : ((p.nodes x).received receipt.connection).Pairwise (DifferentIds (cfg.nodes x)) := by
    have hall := sent_differ h hid x.other receipt.connection
    rw [Side.other_other] at hall
    exact hall.sublist (received_inOrder h x hc).sublist
  have hrange := List.pairwise_filterMap.1 hdiffer
  have hfresh : r' < (p.nodes x).nextReceipt := by
    by_contra hge
    rw [hx.receiptsFresh r' (not_lt.1 hge)] at hr'
    cases hr'
  exact rel_of_pairwise_range hrange hlt hfresh receipt.data (by simp [Node.filed, hr])
    receipt'.data (by simp [Node.filed, hr', hsame]) receipt.message receipt'.message
    (hx.receipts r receipt hr).deserialized (hx.receipts r' receipt' hr').deserialized

/-- What arrives at a node from the other. -/
structure Pair.DeliversOnce (cfg : PairConfig F P) (p : Pair F P) (x : Side) : Prop where
  /-- The messages of a connection arrive in order, and none is left out. -/
  inOrder : ∀ c, cfg.shared c = true →
    (p.nodes x).received c <+: payloads ((p.nodes x.other).sent c)
  /-- No message arrives twice, over one connection or over two. -/
  once : ∀ r r' receipt receipt', (p.nodes x).receipts r = some receipt →
    (p.nodes x).receipts r' = some receipt' → cfg.shared receipt.connection = true →
    cfg.shared receipt'.connection = true → receipt.message.id = receipt'.message.id → r = r'
  /-- The handlers are told of each once. -/
  handled : (p.nodes x).handled.Nodup
  /-- A call whose ACK the other node awaited has arrived, once. -/
  acked : ∀ k call c, (p.nodes x.other).calls k = some call → call.acked = true →
    call.connection = some c → cfg.shared c = true →
    ∃! r, ∃ receipt, (p.nodes x).receipts r = some receipt ∧
      cfg.shared receipt.connection = true ∧ receipt.message.id = call.message.id

/-- A message is received once. -/
theorem eq_of_same_id (h : Reachable (pairSystem cfg) p) (hid : cfg.KeepsIds) {r' : ℕ}
    {receipt receipt' : Receipt F P} (hr : (p.nodes x).receipts r = some receipt)
    (hr' : (p.nodes x).receipts r' = some receipt') (hc : cfg.shared receipt.connection = true)
    (hc' : cfg.shared receipt'.connection = true)
    (hids : receipt.message.id = receipt'.message.id) : r = r' := by
  have hinv := pairInv_of_reachable h
  have hx := hinv.nodes x
  obtain ⟨k, call, hk, hconn, hser⟩ := call_of_receipt hinv hr hc
  obtain ⟨k', call', hk', hconn', hser'⟩ := call_of_receipt hinv hr' hc'
  have hdes := (hx.receipts r receipt hr).deserialized
  have hdes' := (hx.receipts r' receipt' hr').deserialized
  -- both are of one call, which has one connection
  have hsame : receipt.connection = receipt'.connection := by
    have hmessages := hids
    rw [id_of_serialized hinv hid hk hser (by rwa [Side.other_other]),
      id_of_serialized hinv hid hk' hser' (by rwa [Side.other_other])] at hmessages
    obtain rfl := call_eq_of_id hmessages
    obtain rfl := Option.some.inj (hk.symm.trans hk')
    exact Option.some.inj (hconn.symm.trans hconn')
  rcases Nat.lt_trichotomy r r' with hlt | heq | hlt
  · exact absurd hids (ids_differ_of_lt h hid hlt hr hr' hsame hc)
  · exact heq
  · exact absurd hids.symm (ids_differ_of_lt h hid hlt hr' hr hsame.symm hc')

/-- **Every message arrives in order and once**, in every run of two nodes whose
serializers keep the id of a message, over any number of connections between them. -/
theorem delivered_once (hid : cfg.KeepsIds) (h : Reachable (pairSystem cfg) p) (x : Side) :
    p.DeliversOnce cfg x where
  inOrder c hc := received_inOrder h x hc
  once r r' receipt receipt' hr hr' hc hc' hids := eq_of_same_id h hid hr hr' hc hc' hids
  handled := (once_of_reachable (node_reachable h x)).passedOn.sublist
    (List.sublist_append_right _ _)
  acked k call c hk hacked hconn hc := by
    have hinv := pairInv_of_reachable h
    obtain ⟨r, receipt, hr, rfl, hser, hdes, -⟩ := received_of_acked hinv hid hk hacked hconn hc
    rw [Side.other_other] at hr hdes
    have hmessage : receipt.message.id = call.message.id :=
      hid x.other call.message receipt.data receipt.message hser (by rwa [Side.other_other])
    refine ⟨r, ⟨receipt, hr, hc, hmessage⟩, ?_⟩
    rintro r' ⟨receipt', hr', hc', hid'⟩
    exact eq_of_same_id h hid hr' hr hc' hc (hid'.trans hmessage.symm)

/-! ## A run with an ACK -/

/-- The serializer of the sample keeps the ids. -/
theorem samplePair_keepsIds : samplePair.KeepsIds := by
  intro x m data m' hm hm'
  have hser : ∀ y, (samplePair.nodes y).serializer = sampleSerializer := fun y => by
    cases y <;> rfl
  rw [hser] at hm hm'
  simp only [sampleSerializer, Option.ite_none_right_eq_some, Option.some.injEq] at hm hm'
  rw [hm.1, ← hm'.2]

/-- The message that was acknowledged has arrived once. -/
theorem delivered_once_sample : ∃ p call, Reachable (pairSystem samplePair) p ∧
    (p.nodes .a).calls 0 = some call ∧ call.acked = true ∧ p.DeliversOnce samplePair .b := by
  obtain ⟨p, call, hp, hk, hacked, -⟩ := samplePair_acked
  exact ⟨p, call, hp, hk, hacked, delivered_once samplePair_keepsIds hp .b⟩

end Messaging
end Core
end Paqto
