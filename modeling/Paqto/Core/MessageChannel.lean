/-
# A connection is a channel of messages

Above the frames, the ACKs and the heartbeats there are messages: over a
connection between two nodes a node accepts, in their order and with their
content, the messages whose frames it has read, and up to the end of its reader
it accepts all of them (`messages_arrive`).
-/

import Paqto.Core.PairDelivery
import Mathlib.Data.List.Forall2

namespace Paqto
namespace Core
namespace Messaging

open Transition Python Correlation
open AckDuplex (Side)

variable {F P : Type}

/-! ## One node -/

namespace Node

/-- The messages of the calls whose frames these are. -/
def said (s : Node F P) (frames : List OutboundFrame) : List (Message P) :=
  frames.filterMap fun f =>
    match f.origin with
    | .call k => (s.calls k).map (·.message)
    | _ => none

/-- The messages that were accepted from a connection, in order. -/
def inbox (s : Node F P) (c : ℕ) : List (Message P) :=
  (List.range s.nextReceipt).filterMap fun r =>
    (s.receipts r).bind fun receipt => if receipt.connection = c then some receipt.message else none

end Node

variable [PyFloat F] {cfg : Config F P} {E : Evidence} {s : Node F P} {c : ℕ}

/-- A control frame carries no application data. -/
theorem applicationData_of_control {payload : List (Key F × Value F)} {frame : Bytes}
    (h : encodeControl payload = .ok frame) : applicationData frame = none := by
  unfold encodeControl at h
  split at h
  · split at h
    · cases h
    · split at h <;> cases h
      rfl
  · cases h

/-- Two selections from one list that agree on each of its elements. -/
theorem forall₂_filterMap {α β γ : Type*} {S : β → γ → Prop} {f : α → Option β} {g : α → Option γ}
    {l : List α} (h : ∀ a ∈ l, Option.Rel S (f a) (g a)) :
    List.Forall₂ S (l.filterMap f) (l.filterMap g) := by
  induction l with
  | nil => exact .nil
  | cons a l ih =>
      have hrest := ih fun b hb => h b (List.mem_cons_of_mem a hb)
      have hhead := h a List.mem_cons_self
      rw [List.filterMap_cons, List.filterMap_cons]
      generalize f a = x at hhead
      generalize g a = y at hhead
      cases hhead with
      | none => exact hrest
      | some hxy => exact .cons hxy hrest

/-- Elements that are related through those of a third list. -/
theorem forall₂_join {α β γ : Type*} {S : α → γ → Prop} {T : β → γ → Prop} {R : α → β → Prop}
    {as : List α} {bs : List β} {cs : List γ} (h : List.Forall₂ S as cs) (h' : List.Forall₂ T bs cs)
    (hR : ∀ a ∈ as, ∀ b c, S a c → T b c → R a b) : List.Forall₂ R as bs := by
  induction h generalizing bs with
  | nil =>
      cases h'
      exact .nil
  | cons hac _ ih =>
      cases h' with
      | cons hbc hrest =>
          exact .cons (hR _ List.mem_cons_self _ _ hac hbc)
            (ih hrest fun a ha => hR a (List.mem_cons_of_mem _ ha))

/-- **A frame carries the message of its call**, and nothing otherwise. -/
theorem said_payloads {frames : List OutboundFrame}
    (h : ∀ f ∈ frames, FrameFits cfg s.calls s.receipts c f) :
    List.Forall₂ (fun m data => cfg.serializer.serialize m = some data) (s.said frames)
      (payloads frames) := by
  refine forall₂_filterMap fun f hf => ?_
  have hfits := h f hf
  unfold FrameFits at hfits
  split at hfits
  · rename_i k hk
    obtain ⟨call, data, hcall, -, -, hdata, hframe⟩ := hfits
    simp only [hk, hcall, applicationData_eq_some.2 hframe]
    exact .some hdata
  · rename_i r hr
    obtain ⟨_, _, _, _, _, _, hframe⟩ := hfits
    simp only [hr, applicationData_of_control hframe]
    exact .none
  · rename_i hheartbeat
    have hnone : applicationData f.data = none := by
      obtain ⟨_, hframe | hframe⟩ := hfits
      · exact applicationData_of_control hframe
      · exact applicationData_of_control hframe
    simp only [hheartbeat, hnone]
    exact .none

/-- The accepted messages are what their data was decoded to. -/
theorem inbox_received (h : Inv cfg E none s) (c : ℕ) :
    List.Forall₂ (fun m data => cfg.serializer.deserialize data = some m) (s.inbox c)
      (s.received c) := by
  refine forall₂_filterMap fun r _ => ?_
  rw [Node.filed]
  cases hr : s.receipts r with
  | none => exact .none
  | some receipt =>
      simp only [Option.bind_some, Option.map_some]
      by_cases hc : receipt.connection = c
      · rw [if_pos hc, if_pos hc]
        exact .some (h.receipts r receipt hr).deserialized
      · rw [if_neg hc, if_neg hc]
        exact .none

/-! ## Two nodes -/

/-- The applications send messages that are `ok`. -/
def Sends (cfg : PairConfig F P) (ok : Message P → Prop) (p : Pair F P) : Side × Label P → Prop
  | (x, .startCall args) =>
      ok (args.message (cfg.nodes x).peerId ((cfg.nodes x).messageId (p.nodes x).nextCall))
  | _ => True

/-- What one serializer makes of a message that is `ok` the other takes for the same one, up
to `R`. -/
def PairConfig.RoundTrips (cfg : PairConfig F P) (ok : Message P → Prop)
    (R : Message P → Message P → Prop) : Prop :=
  ∀ x m data, ok m → (cfg.nodes x).serializer.serialize m = some data →
    ∃ m', (cfg.nodes x.other).serializer.deserialize data = some m' ∧ R m m'

variable {cfg : PairConfig F P} {ok : Message P → Prop} {R : Message P → Message P → Prop}
  {p q : Pair F P} {x : Side} {c : ℕ}

/-- A call keeps its message. -/
theorem ok_of_reachable (h : ReachableWhen (pairSystem cfg) (Sends cfg ok) p) (x : Side) {k : ℕ}
    {call : Call F P} (hk : (p.nodes x).calls k = some call) : ok call.message := by
  have hargs : ∀ x k call, (p.nodes x).calls k = some call →
      ok (call.args.message (cfg.nodes x).peerId ((cfg.nodes x).messageId k)) := by
    refine h.invariant (I := fun p => ∀ x k call, (p.nodes x).calls k = some call →
      ok (call.args.message (cfg.nodes x).peerId ((cfg.nodes x).messageId k))) ?_ ?_
    · rintro _ rfl x k call hk
      cases hk
    · rintro p ⟨y, l⟩ q hp hl hs x k call hk
      obtain ⟨n, hn, hq, -⟩ := pairStep_spec hs
      rw [hq] at hk
      by_cases hxy : x = y
      · subst hxy
        rw [Function.update_self] at hk
        rcases args_step hn hk with ⟨old, hold, hargs⟩ | ⟨hstart, hstarted⟩
        · rw [hargs]
          exact hp x k old hold
        · subst hstart
          have hnext : k = (p.nodes x).nextCall ∨ (p.nodes x).calls k = some call := by
            subst hstarted
            change Function.update (p.nodes x).calls (p.nodes x).nextCall _ k = some call at hk
            by_cases hkn : k = (p.nodes x).nextCall
            · exact .inl hkn
            · rw [Function.update_of_ne hkn] at hk
              exact .inr hk
          rcases hnext with rfl | hk
          · exact hl
          · exact hp x k call hk
      · rw [Function.update_of_ne hxy] at hk
        exact hp x k call hk
  have hinv := (pairInv_of_reachable h.reachable).nodes x
  rw [(hinv.calls k call hk).message]
  exact hargs x k call hk

/-- **Messages arrive in order and with their content**, in every run of two nodes whose
serializers give back what was serialized, up to `R`: what a node has accepted from a shared
connection are the first of the messages whose frames it has read, and all of them as long
as its reader has not ended. -/
theorem messages_arrive (hround : cfg.RoundTrips ok R)
    (h : ReachableWhen (pairSystem cfg) (Sends cfg ok) p) (hc : cfg.shared c = true) (x : Side) :
    ∃ l, l <+: (p.nodes x.other).said (p.read x c) ∧ List.Forall₂ R l ((p.nodes x).inbox c) ∧
      ((p.nodes x).tasks c ≠ .ended → l = (p.nodes x.other).said (p.read x c)) := by
  have hinv := pairInv_of_reachable h.reachable
  have horder := inOrder_of_reachable h.reachable
  have hfits : ∀ f ∈ p.read x c, FrameFits (cfg.nodes x.other) (p.nodes x.other).calls
      (p.nodes x.other).receipts c f := fun f hf =>
    (hinv.nodes x.other).frames c f (.inr (List.mem_of_mem_take hf))
  have hsaid := said_payloads hfits
  have hinbox := inbox_received (hinv.nodes x) c
  have hok : ∀ m ∈ (p.nodes x.other).said (p.read x c), ok m := by
    intro m hm
    obtain ⟨f, -, hf⟩ := List.mem_filterMap.1 hm
    split at hf
    · obtain ⟨call, hk, rfl⟩ := Option.map_eq_some_iff.1 hf
      exact ok_of_reachable h x.other hk
    · cases hf
  have hjoin : ∀ l, l ⊆ (p.nodes x.other).said (p.read x c) →
      List.Forall₂ (fun m data => (cfg.nodes x.other).serializer.serialize m = some data) l
        ((p.nodes x).received c) → List.Forall₂ R l ((p.nodes x).inbox c) := by
    intro l hl hdata
    refine forall₂_join hdata hinbox fun m hm m' data hser hdes => ?_
    obtain ⟨found, hfound, hR⟩ := hround x.other m data (hok m (hl hm)) hser
    rw [Side.other_other, hdes] at hfound
    exact Option.some.inj hfound ▸ hR
  by_cases hended : (p.nodes x).tasks c = .ended
  · obtain ⟨rest, hrest⟩ := horder.accepted x c hc
    have htake := List.forall₂_take ((p.nodes x).received c).length hsaid
    rw [← hrest, List.take_left] at htake
    exact ⟨_, List.take_prefix _ _, hjoin _ (List.take_subset _ _) htake,
      fun hne => absurd hended hne⟩
  · rw [← horder.current x c hc hended] at hsaid
    exact ⟨_, List.prefix_refl _, hjoin _ (List.Subset.refl _) hsaid, fun _ => rfl⟩

/-! ## The run with an ACK -/

/-- The serializers of the sample lose nothing. -/
theorem samplePair_roundTrips : samplePair.RoundTrips (fun _ => True) Eq := by
  intro x m data _ hdata
  have hserializer : ∀ y, (samplePair.nodes y).serializer = sampleSerializer := fun y => by
    cases y <;> rfl
  rw [hserializer] at hdata ⊢
  simp only [sampleSerializer, Option.ite_none_right_eq_some, Option.some.injEq] at hdata ⊢
  obtain ⟨rfl, rfl⟩ := hdata
  exact ⟨_, ⟨rfl, rfl⟩, rfl⟩

/-- After the ACK. -/
theorem messages_arrive_sample : ∃ p call, Reachable (pairSystem samplePair) p ∧
    (p.nodes .a).calls 0 = some call ∧ call.acked = true ∧
    ∃ l, l <+: (p.nodes .a).said (p.read .b 0) ∧ List.Forall₂ Eq l ((p.nodes .b).inbox 0) ∧
      ((p.nodes .b).tasks 0 ≠ .ended → l = (p.nodes .a).said (p.read .b 0)) := by
  obtain ⟨p, call, hp, hk, hacked, -⟩ := samplePair_acked
  have hsends : ReachableWhen (pairSystem samplePair) (Sends samplePair fun _ => True) p := by
    refine ReachableWhen.mono ?_ hp
    rintro p ⟨x, l⟩ -
    cases l <;> trivial
  exact ⟨p, call, hp, hk, hacked, messages_arrive samplePair_roundTrips hsends rfl .b⟩

end Messaging
end Core
end Paqto
