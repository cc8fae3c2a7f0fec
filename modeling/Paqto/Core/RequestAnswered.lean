/-
# A request and the handler that answers it

Applications reply to messages that their handlers were told of
(`RepliesToHandled`).  A `request()` over a connection between two nodes that
returns has the reply that a handler of the other node made to this request
(`request_answered`).
-/

import Paqto.Core.PairDelivery

namespace Paqto
namespace Core
namespace Messaging

open Transition Python Correlation
open AckDuplex (Side)

variable {F P : Type} [PyFloat F]

/-! ## What was handled stays -/

section node

variable {cfg : Config F P} {E E' : Evidence} {s t : Node F P} {k r : ℕ}

/-- What was handled stays handled. -/
theorem handled_step {l : Label P} (hs : step cfg s l = some t) : s.handled ⊆ t.handled := by
  by_cases hl : l.moves = false
  · obtain ⟨_, hgoes, _⟩ := goesOn_step hs hl
    rw [hgoes.handled]
    exact List.Subset.refl _
  · cases l with
    | receive c frame =>
        simp only [step] at hs
        split at hs <;> cases hs
        rename_i session _
        rcases receive_filed cfg s c session frame with ⟨_, _, haccepts⟩ | ⟨hgoes, _⟩
        · rw [haccepts.handled]
          exact List.Subset.refl _
        · rw [hgoes.handled]
          exact List.Subset.refl _
    | queueAck c =>
        simp only [step] at hs
        split at hs
        · obtain ⟨_, _, rfl⟩ := Option.map_eq_some_iff.1 hs
          exact List.Subset.refl _
        · cases hs
    | queueFrame k =>
        obtain ⟨call, _, hs⟩ := bind_call hs
        split at hs <;> cases hs
        exact List.Subset.refl _
    | queuePong c | ping c pingId | transmit c =>
        simp only [step] at hs
        split at hs <;> cases hs
        exact List.Subset.refl _
    | dispatch =>
        simp only [step] at hs
        split at hs <;> cases hs
        exact List.subset_append_left _ _
    | dropOutbound c =>
        cases hs
        exact List.Subset.refl _
    | _ => exact absurd rfl hl

/-- A receipt keeps its connection, its data and so its message. -/
theorem receipt_step (h : Inv cfg E none s) (h' : Inv cfg E' none t) {l : Label P}
    (hs : step cfg s l = some t) {receipt : Receipt F P} (hr : s.receipts r = some receipt) :
    ∃ receipt', t.receipts r = some receipt' ∧ receipt'.message = receipt.message ∧
      receipt'.connection = receipt.connection ∧ receipt'.data = receipt.data := by
  have hfiled : t.filed r = some (receipt.connection, receipt.data) := by
    have hold : s.filed r = some (receipt.connection, receipt.data) := by simp [Node.filed, hr]
    rcases filed_step hs with ⟨_, _, _, haccepts⟩ | ⟨hsame, _⟩
    · have hne : r ≠ s.nextReceipt := by
        rintro rfl
        rw [h.receiptsFresh _ le_rfl] at hr
        cases hr
      rw [haccepts.filed, Function.update_of_ne hne, hold]
    · rw [hsame, hold]
  obtain ⟨receipt', hr', heq⟩ := Option.map_eq_some_iff.1 hfiled
  obtain ⟨hconnection, hdata⟩ := Prod.mk.inj heq
  refine ⟨receipt', hr', ?_, hconnection, hdata⟩
  have hdes := (h.receipts r receipt hr).deserialized
  have hdes' := (h'.receipts r receipt' hr').deserialized
  rw [hdata, hdes] at hdes'
  exact (Option.some.inj hdes').symm

/-- A message that the handlers were told of. -/
def Node.Handled (s : Node F P) (m : Message P) : Prop :=
  ∃ r ∈ s.handled, ∃ receipt, s.receipts r = some receipt ∧ receipt.message = m

/-- A message stays handled. -/
theorem Node.Handled.step {m : Message P} (hm : s.Handled m) (h : Inv cfg E none s)
    (h' : Inv cfg E' none t) {l : Label P} (hs : step cfg s l = some t) : t.Handled m := by
  obtain ⟨r, hr, receipt, hfound, rfl⟩ := hm
  obtain ⟨receipt', hfound', hmessage, -⟩ := receipt_step h h' hs hfound
  exact ⟨r, handled_step hs hr, receipt', hfound', hmessage⟩

end node

/-! ## Two nodes -/

variable {cfg : PairConfig F P} {p q : Pair F P} {x : Side} {c k r : ℕ}

/-- `reply()` is called with a message that a handler was told of. -/
def RepliesToHandled (p : Pair F P) : Side × Label P → Prop
  | (x, .startCall args) => ∀ original, args.kind = .reply original → (p.nodes x).Handled original
  | _ => True

/-- The replies of each node are to messages that its handlers were told of. -/
def Pair.RepliesAreToHandled (p : Pair F P) : Prop :=
  ∀ x j call original, (p.nodes x).calls j = some call → call.args.kind = .reply original →
    (p.nodes x).Handled original

/-- A step in which replies are to handled messages. -/
theorem repliesAreToHandled_step {l : Label P} (h : p.RepliesAreToHandled) (hinv : p.Inv cfg)
    (hinv' : q.Inv cfg) (hG : RepliesToHandled p (x, l)) (hs : pairStep cfg p (x, l) = some q) :
    q.RepliesAreToHandled := by
  obtain ⟨n, hn, hq, -⟩ := pairStep_spec hs
  intro y j call original hj hkind
  by_cases hyx : y = x
  · subst hyx
    have hn' := hinv'.nodes y
    rw [hq, Function.update_self] at hj hn' ⊢
    rcases args_step hn hj with ⟨old, hold, hargs⟩ | ⟨rfl, rfl⟩
    · exact (h y j old original hold (hargs ▸ hkind)).step (hinv.nodes y) hn' hn
    · exact (hG original hkind).step (hinv.nodes y) hn' hn
  · rw [hq, Function.update_of_ne hyx] at hj ⊢
    exact h y j call original hj hkind

/-- **Replies are to handled messages** in such runs. -/
theorem repliesAreToHandled_of_reachable (h : ReachableWhen (pairSystem cfg) RepliesToHandled p) :
    p.RepliesAreToHandled := by
  refine (h.invariant (I := fun p => p.Inv cfg ∧ p.RepliesAreToHandled) ?_ ?_).2
  · rintro p hp
    refine ⟨pairInv_of_reachable (.init hp), ?_⟩
    obtain rfl := hp
    intro x j call original hj
    cases hj
  · rintro p ⟨x, l⟩ q ⟨hinv, h⟩ hG hs
    have hinv' := pairInv_step hinv hs
    exact ⟨hinv', repliesAreToHandled_step h hinv hinv' hG hs⟩

/-- The other node has replied to the request `k`, and what `x` received is the reply. -/
structure Pair.Answered (cfg : PairConfig F P) (p : Pair F P) (x : Side) (k r : ℕ)
    (call : Call F P) (original : Message P) (j : ℕ) (answer : Call F P) : Prop where
  called : (p.nodes x.other).calls j = some answer
  replies : answer.args.kind = .reply original
  toRequest : original.id = .str ((cfg.nodes x).messageId k)
  /-- The answer is what the request returns. -/
  returned : ∃ receipt, (p.nodes x).receipts r = some receipt ∧
    answer.connection = call.connection ∧
    (cfg.nodes x.other).serializer.serialize answer.message = some receipt.data
  /-- A handler was told of the message, and it is the request if it came from here. -/
  handled : ∃ i ∈ (p.nodes x.other).handled, ∃ request,
    (p.nodes x.other).receipts i = some request ∧ request.message = original ∧
    (cfg.shared request.connection = true →
      (cfg.nodes x).serializer.serialize call.message = some request.data ∧
      call.connection = some request.connection)

/-- **A request that returns was answered by a handler**: over a connection between two
nodes the reply is one that the other node made to a message with the id of the
request, of which its handlers had been told; and if that message came over a
connection between the two, it was the request itself. -/
theorem request_answered (hid : cfg.KeepsIds) (hreplyTo : cfg.KeepsReplyTo)
    (h : ReachableWhen (pairSystem cfg) RepliesToHandled p) {call : Call F P} {target : Str}
    (hk : (p.nodes x).calls k = some call) (hkind : call.args.kind = .request target)
    (hpc : call.pc = .returned (some r)) (hconn : call.connection = some c)
    (hc : cfg.shared c = true) : ∃ original j answer, p.Answered cfg x k r call original j answer := by
  have hinv := pairInv_of_reachable h.reachable
  have hx := hinv.nodes x
  obtain ⟨r', hr', receipt, hfound, -, hreply, hreceipt, -⟩ :=
    (hx.calls k call hk).returned target _ hkind hpc
  obtain rfl := Option.some.inj hr'
  obtain rfl := Option.some.inj (hconn.symm.trans hreceipt)
  obtain ⟨j, answer, hj, hanswer, hser⟩ := call_of_receipt hinv hfound hc
  -- what the answer replies to
  have hto : answer.message.replyTo = .str ((cfg.nodes x).messageId k) := by
    have hdes := (hx.receipts r receipt hfound).deserialized
    rw [← hreplyTo x.other answer.message receipt.data receipt.message hser
      (by rwa [Side.other_other]), hreply]
  rw [((hinv.nodes x.other).calls j answer hj).message, CallArgs.message] at hto
  cases hreplies : answer.args.kind with
  | send target' =>
      rw [hreplies] at hto
      cases hto
  | request target' =>
      rw [hreplies] at hto
      cases hto
  | reply original =>
      rw [hreplies] at hto
      obtain ⟨i, hi, request, hrequest, rfl⟩ :=
        repliesAreToHandled_of_reachable h x.other j answer original hj hreplies
      refine ⟨request.message, j, answer, hj, hreplies, hto,
        ⟨receipt, hfound, hanswer.trans hconn.symm, hser⟩, i, hi, request, hrequest, rfl,
        fun hshared => ?_⟩
      obtain ⟨k', call', hk', hconn', hser'⟩ := call_of_receipt hinv hrequest hshared
      rw [Side.other_other] at hk' hser'
      have hdes := ((hinv.nodes x.other).receipts i request hrequest).deserialized
      have hids := (id_of_serialized hinv hid hk' hser' hdes).symm.trans hto
      obtain rfl := call_eq_of_id hids
      obtain rfl := Option.some.inj (hk.symm.trans hk')
      exact ⟨hser', hconn'⟩

/-! ## A request and its answer -/

omit [PyFloat F] in
/-- A step that is no call of `reply()`. -/
theorem repliesToHandled_of_ne {l : Side × Label P} (h : ∀ args, l.2 ≠ .startCall args) (p : Pair F P) :
    RepliesToHandled p l := by
  unfold RepliesToHandled
  split
  · exact absurd rfl (h _)
  · trivial

/-- The arguments of a request. -/
def requestArgs : CallArgs Unit :=
  { sampleArgs with kind := .request sampleB.peerId, requireAck := some false }

/-- Its message. -/
def requestMessage : Message Unit := requestArgs.message sampleA.peerId (sampleId 0)

/-- The arguments of the reply. -/
def replyArgs : CallArgs Unit :=
  { sampleArgs with kind := .reply requestMessage, requireAck := some false }

/-- Its message. -/
def replyMessage : Message Unit := replyArgs.message sampleB.peerId (sampleId 0)

/-- An adapter that knows the request and its reply. -/
def answeringSerializer : Serializer Unit where
  serialize m :=
    if m = requestMessage then some [1] else if m = replyMessage then some [2] else none
  deserialize data :=
    if data = [1] then some requestMessage else if data = [2] then some replyMessage else none

/-- Node `a` opens every connection. -/
def answeringPair : PairConfig SampleFloat Unit where
  nodes
    | .a => { sampleConfig sampleA (fun _ => some sampleB.peerId) with
        serializer := answeringSerializer }
    | .b => { sampleConfig sampleB (fun _ => none) with serializer := answeringSerializer }
  shared _ := true

/-- Both nodes have the same serializer. -/
theorem answeringPair_serializer (x : Side) :
    (answeringPair.nodes x).serializer = answeringSerializer := by cases x <;> rfl

/-- What is deserialized is what was serialized. -/
theorem answeringSerializer_lossless {m m' : Message Unit} {data : Bytes}
    (hm : answeringSerializer.serialize m = some data)
    (hm' : answeringSerializer.deserialize data = some m') : m' = m := by
  simp only [answeringSerializer] at hm
  split at hm
  · rename_i heq
    cases hm
    exact (Option.some.inj (show some requestMessage = some m' from hm')).symm.trans heq.symm
  · split at hm
    · rename_i heq
      cases hm
      exact (Option.some.inj (show some replyMessage = some m' from hm')).symm.trans heq.symm
    · cases hm

/-- It keeps the ids. -/
theorem answeringPair_keepsIds : answeringPair.KeepsIds := by
  intro x m data m' hm hm'
  rw [answeringPair_serializer] at hm hm'
  rw [answeringSerializer_lossless hm hm']

/-- It keeps `reply_to`. -/
theorem answeringPair_keepsReplyTo : answeringPair.KeepsReplyTo := by
  intro x m data m' hm hm'
  rw [answeringPair_serializer] at hm hm'
  rw [answeringSerializer_lossless hm hm']

/-- A node receives a frame that is delivered. -/
theorem reachableWhen_receive {cfg : PairConfig F P} {p : Pair F P}
    (hp : ReachableWhen (pairSystem cfg) RepliesToHandled p) (x : Side) (c : ℕ) (frame : Bytes)
    {n : Node F P} (h : p.delivers cfg x c frame = true)
    (hs : step (cfg.nodes x) (p.nodes x) (.receive c frame) = some n) :
    ReachableWhen (pairSystem cfg) RepliesToHandled
      { nodes := Function.update p.nodes x n
        consumed := Function.update p.consumed x
          (Function.update (p.consumed x) c (p.consumed x c + 1)) } := by
  refine .step (x, .receive c frame) hp (repliesToHandled_of_ne (by simp) p) ?_
  simp only [pairSystem, pairStep, h, if_true, hs, Option.map_some]

/-- Node `a` asks, a handler of `b` is told and replies, and `a` has the reply. -/
theorem answeringPair_answers : ∃ p call,
    ReachableWhen (pairSystem answeringPair) RepliesToHandled p ∧ (p.nodes .a).calls 0 = some call ∧
      call.args.kind = .request sampleB.peerId ∧ call.pc = .returned (some 0) ∧
      call.connection = some 0 := by
  obtain ⟨fa, hfa⟩ := sampleA_encodes
  obtain ⟨fb, hfb⟩ := sampleB_encodes
  obtain ⟨frame, hack⟩ := sampleId_encodes
  have hdec := decodeSessionFrame_acknowledgement 512 hack
  have hexec : ∀ {p q : Pair SampleFloat Unit} (ls : List (Side × Label Unit)),
      ReachableWhen (pairSystem answeringPair) RepliesToHandled p →
      (∀ l ∈ ls, ∀ args, l.2 ≠ .startCall args) →
      exec (pairStep answeringPair) p ls = some q →
      ReachableWhen (pairSystem answeringPair) RepliesToHandled q := fun ls hp hls hq =>
    hp.exec ls (fun l hl p => repliesToHandled_of_ne (hls l hl) p) hq
  have h0 : ReachableWhen (pairSystem answeringPair) RepliesToHandled
      ⟨fun _ => initial, fun _ _ => 0⟩ := .init rfl
  have h1 := hexec [(.a, .start), (.b, .start), (.a, .accepted 0), (.b, .accepted 0)] h0
    (by simp) rfl
  have h2 := h1.step (Side.a, Label.negotiated 0 (.received fb)) trivial
    (congrArg (fun n => some (Pair.mk (Function.update _ Side.a n) _))
      (negotiated_eq (sampleA_negotiates hfa hfb)))
  have h3 := h2.step (Side.b, Label.negotiated 0 (.received fa)) trivial
    (congrArg (fun n => some (Pair.mk (Function.update _ Side.b n) _))
      (negotiated_eq (sampleB_negotiates hfa hfb)))
  have h4 := hexec [(.a, .startReader 0), (.b, .startReader 0)] h3 (by simp) rfl
  -- the request
  have h5 := h4.step (Side.a, Label.startCall requestArgs) (by simp [RepliesToHandled, requestArgs]) rfl
  have h6 := hexec [(.a, .connected 0 0), (.a, .queueFrame 0), (.a, .transmit 0),
    (.a, .frameWritten 0)] h5 (by simp) rfl
  have h7 := reachableWhen_receive h6 .b 0 [1, 1] rfl
    (congrArg some (accept_eq (answeringPair.nodes .b) (sessionOf sampleB sampleA ⟨false, none⟩)
      (by decide) hack))
  have h8 := hexec [(.b, .queueAck 0), (.b, .transmit 0), (.b, .ackWritten 0), (.b, .dispatch)] h7
    (by simp) rfl
  -- the reply of the handler
  have h9 := h8.step (Side.b, Label.startCall replyArgs) (by
    intro original horiginal
    cases horiginal
    exact ⟨0, List.mem_singleton_self 0, _, rfl, rfl⟩) rfl
  have h10 := hexec [(.b, .connected 0 0), (.b, .queueFrame 0), (.b, .transmit 0),
    (.b, .frameWritten 0)] h9 (by simp) rfl
  have h11 := reachableWhen_receive h10 .a 0 frame (decide_eq_true (rfl : frame = frame))
    (congrArg some (receive_acknowledgement (answeringPair.nodes .a)
      (sessionOf sampleA sampleB ⟨false, none⟩) (by decide) hdec))
  have h12 := reachableWhen_receive h11 .a 0 [1, 2] rfl
    (congrArg some (accept_eq (answeringPair.nodes .a) (sessionOf sampleA sampleB ⟨false, none⟩)
      (by decide) hack))
  have h13 := hexec [(.a, .queueAck 0), (.a, .transmit 0), (.a, .ackWritten 0), (.a, .resumeReply 0)]
    h12 (by simp) rfl
  exact ⟨_, _, h13, rfl, rfl, rfl, rfl⟩

/-- The reply is that of the handler. -/
theorem request_answered_sample : ∃ p call original j answer,
    ReachableWhen (pairSystem answeringPair) RepliesToHandled p ∧ (p.nodes .a).calls 0 = some call ∧
      p.Answered answeringPair .a 0 0 call original j answer := by
  obtain ⟨p, call, hp, hk, hkind, hpc, hconn⟩ := answeringPair_answers
  obtain ⟨original, j, answer, h⟩ := request_answered answeringPair_keepsIds
    answeringPair_keepsReplyTo hp hk hkind hpc hconn rfl
  exact ⟨p, call, original, j, answer, hp, hk, h⟩

end Messaging
end Core
end Paqto
