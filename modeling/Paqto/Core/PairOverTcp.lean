/-
# Two nodes over TCP

The connections between two nodes as two byte streams each (`Lan.Connection`):
what a writer sends is framed and travels in pieces, `receive_frame` puts it
together, and the first frame each way is the hello.  Every run is a run of two
nodes over channels of frames (`tcp_refines`), so what is proved of those holds
over TCP, with any segmentation, deadlines, cancellations and lost connections.
-/

import Paqto.Core.FramesUnderstood
import Paqto.Lan.SoleReader
import Paqto.Transition.Refinement

namespace Paqto
namespace Core
namespace Messaging

open Transition Python Correlation
open AckDuplex (Side)
open Lan.Connection (Link Sole)

variable {F P : Type}

/-- Two nodes, and the limits of the ends of their connections: `link x c` is the direction
that `x` reads. -/
structure TcpConfig (F P : Type) where
  pair : PairConfig F P
  link : Side → ℕ → Lan.Connection.Config

/-- The two nodes, and the links between them. -/
structure TcpPair (F P : Type) where
  nodes : Side → Node F P
  links : Side → ℕ → Link
  /-- How many frames after the hello each node has read. -/
  consumed : Side → ℕ → ℕ
  /-- The hello was sent. -/
  greeted : Side → ℕ → Bool

/-- The moves of the nodes and of the links. -/
inductive TcpLabel (P : Type)
  | node (x : Side) (l : Label P)
  /-- `negotiate_protocol` sends the hello. -/
  | greet (x : Side) (c : ℕ)
  /-- The network, or the end that `x` reads. -/
  | link (x : Side) (c : ℕ) (l : Lan.Connection.Label)

namespace TcpPair

/-- Two nodes and channels of frames. -/
def pair (s : TcpPair F P) : Pair F P := ⟨s.nodes, s.consumed⟩

/-- A node moves. -/
def setNode (s : TcpPair F P) (x : Side) (n : Node F P) : TcpPair F P :=
  { s with nodes := Function.update s.nodes x n }

/-- A link moves. -/
def setLink (s : TcpPair F P) (x : Side) (c : ℕ) (link : Link) : TcpPair F P :=
  { s with links := Function.update s.links x (Function.update (s.links x) c link) }

/-- `send_frame` returns. -/
def accepts (cfg : TcpConfig F P) (s : TcpPair F P) (x : Side) (c : ℕ) (data : Bytes) : Bool :=
  !(s.links x c).senderClosed && decide (data.length ≤ (cfg.link x c).sendLimit)

/-- `x` sends a frame. -/
def send (cfg : TcpConfig F P) (s : TcpPair F P) (x : Side) (c : ℕ) (data : Bytes) : TcpPair F P :=
  s.setLink x.other c ((s.links x.other c).sendFrame (cfg.link x.other c) data)

end TcpPair

/-- The links are there, and no hello was sent. -/
def tcpInitial : TcpPair F P where
  nodes := fun _ => initial
  links := fun _ _ => Lan.Connection.initial
  consumed := fun _ _ => 0
  greeted := fun _ _ => false

variable [PyFloat F]

/-- A step of a node over the connections between the two. -/
def tcpNodeStep (cfg : TcpConfig F P) (s : TcpPair F P) (x : Side) : Label P → Option (TcpPair F P)
  | .negotiated c exchange =>
      match exchange with
      | .received frame =>
          if !cfg.pair.shared c || (s.greeted x c && (s.links x c).returned[0]? = some frame) then
            (step (cfg.pair.nodes x) (s.nodes x) (.negotiated c (.received frame))).map (s.setNode x)
          else none
      | exchange =>
          (step (cfg.pair.nodes x) (s.nodes x) (.negotiated c exchange)).map (s.setNode x)
  | .transmit c =>
      if cfg.pair.shared c then
        match (s.nodes x).outbound c with
        | [] => none
        | f :: _ =>
            if s.greeted x c && s.accepts cfg x.other c f.data then
              (step (cfg.pair.nodes x) (s.nodes x) (.transmit c)).map
                ((s.send cfg x c f.data).setNode x)
            else none
      else (step (cfg.pair.nodes x) (s.nodes x) (.transmit c)).map (s.setNode x)
  | .receive c frame =>
      if !cfg.pair.shared c || (s.links x c).returned[s.consumed x c + 1]? = some frame then
        (step (cfg.pair.nodes x) (s.nodes x) (.receive c frame)).map fun n =>
          { s.setNode x n with
            consumed := Function.update s.consumed x
              (Function.update (s.consumed x) c (s.consumed x c + 1)) }
      else none
  | l => (step (cfg.pair.nodes x) (s.nodes x) l).map (s.setNode x)

/-- One step. -/
def tcpStep (cfg : TcpConfig F P) (s : TcpPair F P) : TcpLabel P → Option (TcpPair F P)
  | .node x l => tcpNodeStep cfg s x l
  | .greet x c =>
      match (s.nodes x).tasks c, encodeHello (cfg.pair.nodes x).offer with
      | .negotiating, .ok hello =>
          if !s.greeted x c && s.accepts cfg x.other c hello then
            some { s.send cfg x c hello with
              greeted := Function.update s.greeted x (Function.update (s.greeted x) c true) }
          else none
      | _, _ => none
  | .link x c l =>
      match l with
      | .send _ => none
      | l => (Lan.Connection.step (cfg.link x c) (s.links x c) l).map (s.setLink x c)

/-- The runs of two nodes over TCP. -/
def tcpSystem (cfg : TcpConfig F P) : System (TcpPair F P) (TcpLabel P) where
  init s := s = tcpInitial
  step := tcpStep cfg

/-- Each connection has one reader, which ends with its first error, and the applications are
as in `Honest`. -/
def TcpHonest (cfg : TcpConfig F P) (ok : Message P → Prop) (s : TcpPair F P) : TcpLabel P → Prop
  | .node _ (.negotiated ..) => True
  | .node x l => Honest cfg.pair ok s.pair (x, l)
  | .greet .. => True
  | .link x c l => Sole (s.links x c) l

/-! ## What was sent -/

namespace TcpPair

variable {cfg : TcpConfig F P} {s t : TcpPair F P} {x : Side} {c : ℕ}

/-- **What a link carries**: the hello of the node that writes, and its frames. -/
structure Carries (cfg : TcpConfig F P) (s : TcpPair F P) (x : Side) (c : ℕ) : Prop where
  solitary : (s.links x c).Solitary
  fits : (s.links x c).Fits (cfg.link x c)
  silent : s.greeted x.other c = false → (s.links x c).sent = [] ∧ (s.nodes x.other).sent c = []
  greeted : s.greeted x.other c = true → ∃ hello,
    encodeHello (cfg.pair.nodes x.other).offer = .ok hello ∧
      (s.links x c).sent = hello :: ((s.nodes x.other).sent c).map (·.data)

omit [PyFloat F] in
/-- A frame that is accepted is sent. -/
theorem accepts_sent {data : Bytes} (h : s.accepts cfg x c data = true) :
    ((s.links x c).sendFrame (cfg.link x c) data).sent = (s.links x c).sent ++ [data] := by
  simp only [accepts, Bool.and_eq_true, Bool.not_eq_true', decide_eq_true_eq] at h
  unfold Link.sendFrame
  rw [h.1, if_neg Bool.false_ne_true, if_neg (Nat.not_lt.2 h.2)]

/-- The hello is the first frame that is read. -/
theorem Carries.hello (h : s.Carries cfg x c) {frame : Bytes}
    (hframe : (s.links x c).returned[0]? = some frame) :
    encodeHello (cfg.pair.nodes x.other).offer = .ok frame := by
  obtain ⟨rest, hrest⟩ := h.solitary.inStep.returned
  have hsent : (s.links x c).sent[0]? = some frame := by
    rw [← hrest]
    exact List.getElem?_append_left (List.getElem?_eq_some_iff.1 hframe).1 |>.trans hframe
  cases hgreeted : s.greeted x.other c with
  | false =>
      rw [(h.silent hgreeted).1] at hsent
      cases hsent
  | true =>
      obtain ⟨hello, hhello, heq⟩ := h.greeted hgreeted
      rw [heq] at hsent
      exact hhello.trans (congrArg _ (Option.some.inj hsent))

/-- The others are those of the node that writes. -/
theorem Carries.tail (h : s.Carries cfg x c) :
    (s.links x c).returned.tail <+: ((s.nodes x.other).sent c).map (·.data) := by
  have hfirst := h.solitary.inStep.returned
  cases hgreeted : s.greeted x.other c with
  | false =>
      rw [(h.silent hgreeted).1, List.prefix_nil] at hfirst
      rw [hfirst]
      exact List.nil_prefix
  | true =>
      obtain ⟨hello, -, heq⟩ := h.greeted hgreeted
      rw [heq] at hfirst
      rw [← List.drop_one]
      exact hfirst.drop 1

/-- What comes out of the link is the next frame of the node that writes. -/
theorem Carries.delivers (h : s.Carries cfg x c) {frame : Bytes}
    (hframe : (s.links x c).returned[s.consumed x c + 1]? = some frame) :
    s.pair.delivers cfg.pair x c frame = true := by
  have htail : (s.links x c).returned.tail[s.consumed x c]? = some frame := by
    rwa [List.getElem?_tail]
  obtain ⟨rest, hrest⟩ := h.tail
  have hsent : (((s.nodes x.other).sent c).map (·.data))[s.consumed x c]? = some frame := by
    rw [← hrest]
    exact List.getElem?_append_left (List.getElem?_eq_some_iff.1 htail).1 |>.trans htail
  rw [List.getElem?_map, Option.map_eq_some_iff] at hsent
  obtain ⟨f, hf, rfl⟩ := hsent
  change (!cfg.pair.shared c || ((s.nodes x.other).sent c)[s.consumed x c]?.any _) = true
  rw [hf]
  simp

/-- The log, the hello and the link are as they were. -/
theorem Carries.congr (h : s.Carries cfg x c) (hlinks : t.links x c = s.links x c)
    (hgreeted : t.greeted x.other c = s.greeted x.other c)
    (hsent : (t.nodes x.other).sent c = (s.nodes x.other).sent c) : t.Carries cfg x c where
  solitary := hlinks ▸ h.solitary
  fits := hlinks ▸ h.fits
  silent hfalse := by
    rw [hlinks, hsent]
    exact h.silent (hgreeted ▸ hfalse)
  greeted htrue := by
    rw [hlinks, hsent]
    exact h.greeted (hgreeted ▸ htrue)

/-- A node takes a step that writes nothing. -/
theorem Carries.setNode (h : s.Carries cfg x c) {y : Side} {n : Node F P}
    (hsent : n.sent = (s.nodes y).sent) : (s.setNode y n).Carries cfg x c := by
  refine h.congr rfl rfl ?_
  change (Function.update s.nodes y n x.other).sent c = _
  by_cases hy : x.other = y
  · subst hy
    rw [Function.update_self, hsent]
  · rw [Function.update_of_ne hy]

/-- A node sends the next frame of its queue. -/
theorem Carries.transmit {f : OutboundFrame} {n : Node F P} (h : ∀ y, s.Carries cfg y c)
    (hgreeted : s.greeted x c = true) (haccepts : s.accepts cfg x.other c f.data = true)
    (hsent : n.sent = Function.update (s.nodes x).sent c ((s.nodes x).sent c ++ [f])) :
    ∀ y, ((s.send cfg x c f.data).setNode x n).Carries cfg y c := by
  refine Side.forall_of x ?_ ?_
  · refine (h x).congr ?_ rfl ?_
    · change Function.update s.links x.other _ x c = _
      rw [Function.update_of_ne x.other_ne.symm]
    · change (Function.update s.nodes x n x.other).sent c = _
      rw [Function.update_of_ne x.other_ne]
  · have hlink : ((s.send cfg x c f.data).setNode x n).links x.other c =
        (s.links x.other c).sendFrame (cfg.link x.other c) f.data := by
      change Function.update s.links x.other (Function.update (s.links x.other) c _) x.other c = _
      rw [Function.update_self, Function.update_self]
    refine ⟨?_, ?_, fun hfalse => ?_, fun _ => ?_⟩
    · rw [hlink]
      exact (h x.other).solitary.sendFrame f.data
    · rw [hlink]
      exact (h x.other).fits.sendFrame f.data
    · rw [Side.other_other] at hfalse
      exact absurd (hfalse.symm.trans hgreeted) Bool.false_ne_true
    · obtain ⟨hello, hhello, heq⟩ := (h x.other).greeted (by rwa [Side.other_other])
      refine ⟨hello, hhello, ?_⟩
      rw [Side.other_other] at heq
      have hnode : (((s.send cfg x c f.data).setNode x n).nodes x.other.other).sent c =
          (s.nodes x).sent c ++ [f] := by
        change (Function.update s.nodes x n x.other.other).sent c = _
        rw [Side.other_other, Function.update_self, hsent, Function.update_self]
      rw [hlink, accepts_sent haccepts, heq, hnode, List.map_append]
      rfl

/-- A node sends its hello. -/
theorem Carries.greet {hello : Bytes} (h : ∀ y, s.Carries cfg y c)
    (hhello : encodeHello (cfg.pair.nodes x).offer = .ok hello) (hsilent : s.greeted x c = false)
    (haccepts : s.accepts cfg x.other c hello = true) :
    ∀ y, { s.send cfg x c hello with
      greeted := Function.update s.greeted x (Function.update (s.greeted x) c true) }.Carries cfg
        y c := by
  refine Side.forall_of x ?_ ?_
  · refine (h x).congr ?_ ?_ rfl
    · change Function.update s.links x.other _ x c = _
      rw [Function.update_of_ne x.other_ne.symm]
    · change Function.update s.greeted x _ x.other c = _
      rw [Function.update_of_ne x.other_ne]
  · have hlink : (s.send cfg x c hello).links x.other c =
        (s.links x.other c).sendFrame (cfg.link x.other c) hello := by
      change Function.update s.links x.other (Function.update (s.links x.other) c _) x.other c = _
      rw [Function.update_self, Function.update_self]
    obtain ⟨hlinkSilent, hnodeSilent⟩ := (h x.other).silent (by rwa [Side.other_other])
    rw [Side.other_other] at hnodeSilent
    refine ⟨?_, ?_, fun hfalse => ?_, fun _ => ?_⟩
    · change ((s.send cfg x c hello).links x.other c).Solitary
      rw [hlink]
      exact (h x.other).solitary.sendFrame hello
    · change ((s.send cfg x c hello).links x.other c).Fits (cfg.link x.other c)
      rw [hlink]
      exact (h x.other).fits.sendFrame hello
    · change Function.update s.greeted x _ x.other.other c = false at hfalse
      rw [Side.other_other, Function.update_self, Function.update_self] at hfalse
      cases hfalse
    · refine ⟨hello, by rwa [Side.other_other], ?_⟩
      change ((s.send cfg x c hello).links x.other c).sent =
        hello :: ((s.nodes x.other.other).sent c).map _
      rw [hlink, accepts_sent haccepts, hlinkSilent, Side.other_other, hnodeSilent]
      rfl

/-- The network moves, or the end that reads. -/
theorem Carries.link {l : Lan.Connection.Label} {link : Link} (h : s.Carries cfg x c)
    (hl : ∀ data, l ≠ .send data) (hsole : Sole (s.links x c) l)
    (ht : Lan.Connection.step (cfg.link x c) (s.links x c) l = some link) :
    (s.setLink x c link).Carries cfg x c := by
  have hlink : (s.setLink x c link).links x c = link := by
    change Function.update s.links x (Function.update (s.links x) c link) x c = link
    rw [Function.update_self, Function.update_self]
  have hsent := Lan.Connection.sent_of_step hl ht
  refine ⟨?_, ?_, fun hfalse => ?_, fun htrue => ?_⟩
  · rw [hlink]
    exact Lan.Connection.solitary_step h.solitary h.fits hsole ht
  · rw [hlink]
    exact Lan.Connection.fits_step h.fits ht
  · rw [hlink, hsent]
    exact h.silent hfalse
  · rw [hlink, hsent]
    exact h.greeted htrue

/-- Another connection. -/
theorem Carries.setLink {d : ℕ} {link : Link} (h : s.Carries cfg x c) {y : Side}
    (hne : x ≠ y ∨ c ≠ d) : (s.setLink y d link).Carries cfg x c := by
  refine h.congr ?_ rfl rfl
  change Function.update s.links y (Function.update (s.links y) d link) x c = s.links x c
  by_cases hxy : x = y
  · subst hxy
    rw [Function.update_self, Function.update_of_ne (hne.resolve_left (not_not.2 rfl))]
  · rw [Function.update_of_ne hxy]

end TcpPair

/-! ## One step -/

variable {cfg : TcpConfig F P} {s t : TcpPair F P} {x : Side} {c : ℕ} {l : Label P} {n : Node F P}

/-- What a step of a node does to the links. -/
inductive NodeMoves (cfg : TcpConfig F P) (s : TcpPair F P) (x : Side) (n : Node F P) :
    Label P → TcpPair F P → Prop
  | transmits {d : ℕ} {f : OutboundFrame} {rest : List OutboundFrame}
      (hd : cfg.pair.shared d = true) (hqueue : (s.nodes x).outbound d = f :: rest)
      (hgreeted : s.greeted x d = true) (haccepts : s.accepts cfg x.other d f.data = true) :
      NodeMoves cfg s x n (.transmit d) ((s.send cfg x d f.data).setNode x n)
  | reads {d : ℕ} {frame : Bytes} (hframe : cfg.pair.shared d = true →
      (s.links x d).returned[s.consumed x d + 1]? = some frame) :
      NodeMoves cfg s x n (.receive d frame)
        { s.setNode x n with
          consumed := Function.update s.consumed x
            (Function.update (s.consumed x) d (s.consumed x d + 1)) }
  | moves {m : Label P} (htransmit : ∀ d, m = .transmit d → cfg.pair.shared d = false)
      (hreceive : ∀ d frame, m ≠ .receive d frame)
      (hnegotiated : ∀ d frame, m = .negotiated d (.received frame) → cfg.pair.shared d = true →
        (s.links x d).returned[0]? = some frame) :
      NodeMoves cfg s x n m (s.setNode x n)

/-- **What a step of a node does**, as a relation. -/
theorem tcpNodeStep_spec (ht : tcpNodeStep cfg s x l = some t) :
    ∃ n, step (cfg.pair.nodes x) (s.nodes x) l = some n ∧ NodeMoves cfg s x n l t := by
  unfold tcpNodeStep at ht
  split at ht
  · rename_i c exchange
    split at ht
    · rename_i frame
      split at ht
      · rename_i hguard
        obtain ⟨n, hn, rfl⟩ := Option.map_eq_some_iff.1 ht
        refine ⟨n, hn, .moves (by simp) (by simp) fun d found heq hd => ?_⟩
        cases heq
        rw [hd, Bool.not_true, Bool.false_or, Bool.and_eq_true, decide_eq_true_eq] at hguard
        exact hguard.2
      · cases ht
    · rename_i hother
      obtain ⟨n, hn, rfl⟩ := Option.map_eq_some_iff.1 ht
      refine ⟨n, hn, .moves (by simp) (by simp) fun d found heq => ?_⟩
      cases heq
      exact absurd rfl (hother found)
  · rename_i c
    split at ht
    · rename_i hc
      split at ht
      · cases ht
      · rename_i f rest hqueue
        split at ht
        · rename_i hguard
          rw [Bool.and_eq_true] at hguard
          obtain ⟨n, hn, rfl⟩ := Option.map_eq_some_iff.1 ht
          exact ⟨n, hn, .transmits hc hqueue hguard.1 hguard.2⟩
        · cases ht
    · rename_i hc
      obtain ⟨n, hn, rfl⟩ := Option.map_eq_some_iff.1 ht
      refine ⟨n, hn, .moves (fun d heq => ?_) (by simp) (by simp)⟩
      cases heq
      simpa using hc
  · rename_i c frame
    split at ht
    · rename_i hguard
      obtain ⟨n, hn, rfl⟩ := Option.map_eq_some_iff.1 ht
      refine ⟨n, hn, .reads fun hc => ?_⟩
      rw [hc, Bool.not_true, Bool.false_or, decide_eq_true_eq] at hguard
      exact hguard
    · cases ht
  · rename_i hnegotiated htransmit hreceive
    obtain ⟨n, hn, rfl⟩ := Option.map_eq_some_iff.1 ht
    exact ⟨n, hn, .moves (fun d heq => absurd heq (htransmit d)) hreceive
      fun d frame heq => absurd heq (hnegotiated d _)⟩

/-- **One step keeps what every link carries.** -/
theorem carries_step {ok : Message P → Prop} {l : TcpLabel P}
    (h : ∀ c, cfg.pair.shared c = true → ∀ y, s.Carries cfg y c) (hl : TcpHonest cfg ok s l)
    (ht : tcpStep cfg s l = some t) (hc : cfg.pair.shared c = true) (y : Side) :
    t.Carries cfg y c := by
  cases l with
  | node x l =>
      obtain ⟨n, hn, hmoves⟩ := tcpNodeStep_spec ht
      cases hmoves with
      | transmits hd hqueue hgreeted haccepts =>
          rename_i d f rest
          simp only [step, hqueue, Option.some.injEq] at hn
          by_cases hcd : c = d
          · subst hcd
            exact TcpPair.Carries.transmit (h c hc) hgreeted haccepts (hn ▸ rfl) y
          · have hlinks : (s.send cfg x d f.data).Carries cfg y c :=
              (h c hc y).setLink (.inr hcd)
            refine hlinks.congr rfl rfl ?_
            change (Function.update s.nodes x n y.other).sent c = (s.nodes y.other).sent c
            by_cases hy : y.other = x
            · subst hy
              rw [Function.update_self, ← hn]
              exact Function.update_of_ne hcd ..
            · rw [Function.update_of_ne hy]
      | reads hframe =>
          have hsent := sent_step hn (by simp)
          exact ((h c hc y).setNode hsent).congr rfl rfl rfl
      | moves htransmit _ _ =>
          by_cases htransmits : ∃ d, l = .transmit d
          · obtain ⟨d, rfl⟩ := htransmits
            have hcd : c ≠ d := by
              rintro rfl
              rw [htransmit c rfl] at hc
              cases hc
            refine (h c hc y).congr rfl rfl ?_
            change (Function.update s.nodes x n y.other).sent c = (s.nodes y.other).sent c
            by_cases hy : y.other = x
            · subst hy
              simp only [step] at hn
              split at hn <;> cases hn
              rw [Function.update_self]
              exact Function.update_of_ne hcd ..
            · rw [Function.update_of_ne hy]
          · exact (h c hc y).setNode (sent_step hn fun d heq => htransmits ⟨d, heq⟩)
  | greet x d =>
      simp only [tcpStep] at ht
      split at ht
      · rename_i hello _ hhello
        split at ht <;> cases ht
        rename_i hguard
        rw [Bool.and_eq_true, Bool.not_eq_true'] at hguard
        by_cases hcd : c = d
        · subst hcd
          exact TcpPair.Carries.greet (h c hc) hhello hguard.1 hguard.2 y
        · have hlinks : (s.send cfg x d hello).Carries cfg y c := (h c hc y).setLink (.inr hcd)
          refine hlinks.congr rfl ?_ rfl
          change Function.update s.greeted x (Function.update (s.greeted x) d true) y.other c =
            s.greeted y.other c
          by_cases hy : y.other = x
          · subst hy
            rw [Function.update_self, Function.update_of_ne hcd]
          · rw [Function.update_of_ne hy]
      · cases ht
  | link x d l =>
      have hsend : (∀ data, l ≠ .send data) ∧ ∃ link,
          Lan.Connection.step (cfg.link x d) (s.links x d) l = some link ∧
            s.setLink x d link = t := by
        simp only [tcpStep] at ht
        split at ht
        · cases ht
        · rename_i hne
          exact ⟨hne, Option.map_eq_some_iff.1 ht⟩
      obtain ⟨hne, link, hlink, rfl⟩ := hsend
      by_cases hsame : y = x ∧ c = d
      · obtain ⟨rfl, rfl⟩ := hsame
        exact (h c hc y).link hne hl hlink
      · exact (h c hc y).setLink (not_and_or.1 hsame)

/-- **A step over TCP is one over channels of frames**, or none. -/
theorem pair_step {ok : Message P → Prop} {l : TcpLabel P}
    (h : ∀ c, cfg.pair.shared c = true → ∀ y, s.Carries cfg y c) (hl : TcpHonest cfg ok s l)
    (ht : tcpStep cfg s l = some t) :
    t.pair = s.pair ∨ ∃ m, Honest cfg.pair ok s.pair m ∧ pairStep cfg.pair s.pair m = some t.pair := by
  cases l with
  | greet x d =>
      simp only [tcpStep] at ht
      split at ht
      · split at ht <;> cases ht
        exact .inl rfl
      · cases ht
  | link x d l =>
      simp only [tcpStep] at ht
      split at ht
      · cases ht
      · obtain ⟨link, _, rfl⟩ := Option.map_eq_some_iff.1 ht
        exact .inl rfl
  | node x l =>
      obtain ⟨n, hn, hmoves⟩ := tcpNodeStep_spec ht
      -- the step of the node is that of the pair, unless it reads a frame
      have hstep : (∀ c frame, l ≠ .receive c frame) →
          pairStep cfg.pair s.pair (x, l) = some (s.setNode x n).pair := by
        intro hreceive
        unfold pairStep
        split
        · rename_i heq
          exact absurd (Prod.mk.inj heq).2 (hreceive _ _)
        · rename_i heq
          obtain ⟨rfl, rfl⟩ := Prod.mk.inj heq
          change Option.map _ (step (cfg.pair.nodes x) (s.nodes x) l) = _
          rw [hn]
          rfl
      refine .inr ⟨(x, l), ?_, ?_⟩
      · cases l with
        | negotiated c exchange =>
            rintro hc frame rfl
            cases hmoves with
            | moves _ _ hnegotiated => exact (h c hc x).hello (hnegotiated c frame rfl hc)
        | _ => exact hl
      · cases hmoves with
        | transmits => exact hstep (by simp)
        | moves _ hreceive _ => exact hstep hreceive
        | reads hframe =>
            rename_i c frame
            have hdelivers : s.pair.delivers cfg.pair x c frame = true := by
              cases hc : cfg.pair.shared c with
              | false =>
                  rw [Pair.delivers, hc]
                  rfl
              | true => exact (h c hc x).delivers (hframe hc)
            simp only [pairStep, hdelivers, if_true]
            change Option.map _ (step (cfg.pair.nodes x) (s.nodes x) (.receive c frame)) = _
            rw [hn]
            rfl

/-! ## Runs -/

/-- Nothing was sent yet. -/
theorem carries_initial : (tcpInitial : TcpPair F P).Carries cfg x c where
  solitary := Lan.Connection.solitary_initial
  fits p hp := by cases hp
  silent _ := ⟨rfl, rfl⟩
  greeted h := by cases h

/-- **Two nodes over TCP are two nodes over channels of frames**, in every run in which each
connection has one reader: with any segmentation, deadlines, cancellations and lost
connections, the first frame that is read is the hello of the other node, the next ones are
the first that it has sent, and each of them is understood. -/
theorem tcp_refines {ok : Message P → Prop} (hcfg : cfg.pair.Conveys ok)
    (h : ReachableWhen (tcpSystem cfg) (TcpHonest cfg ok) s) :
    ReachableWhen (pairSystem cfg.pair) (Honest cfg.pair ok) s.pair ∧
      ∀ x c, cfg.pair.shared c = true →
        (∀ frame, (s.links x c).returned.head? = some frame →
          encodeHello (cfg.pair.nodes x.other).offer = .ok frame) ∧
        (s.links x c).returned.tail <+: ((s.nodes x.other).sent c).map (·.data) ∧
        ∀ frame ∈ (s.links x c).returned.tail,
          Understood (cfg.pair.nodes x) (cfg.pair.agreed x c) frame := by
  obtain ⟨hcarries, hpair⟩ := h.refines (T := pairSystem cfg.pair) (H := Honest cfg.pair ok)
    TcpPair.pair (I := fun s => ∀ c, cfg.pair.shared c = true → ∀ y, s.Carries cfg y c)
    (by
      rintro _ rfl
      exact ⟨fun _ _ _ => carries_initial, rfl⟩)
    fun s l t hI hl ht => ⟨fun c hc y => carries_step hI hl ht hc y, pair_step hI hl ht⟩
  refine ⟨hpair, fun x c hc => ⟨fun frame hframe => ?_, (hcarries c hc x).tail, fun frame hframe => ?_⟩⟩
  · exact (hcarries c hc x).hello (List.head?_eq_getElem? ▸ hframe)
  · obtain ⟨f, hf, rfl⟩ := List.mem_map.1 ((hcarries c hc x).tail.subset hframe)
    exact understood_of_utterance hcfg ((keepsTo_of_reachable hcfg hpair hc x.other).frames f (.inr hf))

/-! ## A hello and a PING over TCP -/

/-- A node sends its hello. -/
theorem reachable_greet {ok : Message P → Prop} {hello : Bytes}
    (h : ReachableWhen (tcpSystem cfg) (TcpHonest cfg ok) s)
    (htask : (s.nodes x).tasks c = .negotiating)
    (hhello : encodeHello (cfg.pair.nodes x).offer = .ok hello) (hsilent : s.greeted x c = false)
    (haccepts : s.accepts cfg x.other c hello = true) :
    ReachableWhen (tcpSystem cfg) (TcpHonest cfg ok) { s.send cfg x c hello with
      greeted := Function.update s.greeted x (Function.update (s.greeted x) c true) } := by
  refine h.step (.greet x c) trivial ?_
  simp only [tcpSystem, tcpStep, htask, hhello, hsilent, haccepts]
  rfl

/-- The network moves, or the end that reads. -/
theorem reachable_link {ok : Message P → Prop} {l : Lan.Connection.Label} {link : Link}
    (h : ReachableWhen (tcpSystem cfg) (TcpHonest cfg ok) s) (hl : ∀ data, l ≠ .send data)
    (hsole : Sole (s.links x c) l)
    (hstep : Lan.Connection.step (cfg.link x c) (s.links x c) l = some link) :
    ReachableWhen (tcpSystem cfg) (TcpHonest cfg ok) (s.setLink x c link) := by
  refine h.step (.link x c l) hsole ?_
  cases l with
  | send data => exact absurd rfl (hl data)
  | _ => exact congrArg (Option.map (s.setLink x c)) hstep

omit [PyFloat F] in
/-- The later link stays. -/
theorem TcpPair.setLink_setLink (s : TcpPair F P) (x : Side) (c : ℕ) (link link' : Link) :
    (s.setLink x c link).setLink x c link' = s.setLink x c link' := by
  simp [TcpPair.setLink]

omit [PyFloat F] in
/-- The link that is set. -/
theorem TcpPair.links_setLink (s : TcpPair F P) (x : Side) (c : ℕ) (link : Link) :
    (s.setLink x c link).links x c = link := by
  simp [TcpPair.setLink]

/-- **A frame that was written is read**: it arrives, and a call returns it. -/
theorem reachable_frame {ok : Message P → Prop} {sent : List Bytes} {consumed : ℕ}
    {outcomes : List (ℕ × Lan.Connection.Outcome)} {frame : Bytes}
    (h : ReachableWhen (tcpSystem cfg) (TcpHonest cfg ok) s)
    (hlink : s.links x c = (Link.idle sent consumed outcomes).sendFrame (cfg.link x c) frame)
    (hreturned : ∀ k o, (k, o) ∈ outcomes → ∃ p, o = .returned p)
    (hsend : frame.length ≤ (cfg.link x c).sendLimit)
    (hreceive : frame.length ≤ (cfg.link x c).receiveLimit) (k : ℕ) :
    ReachableWhen (tcpSystem cfg) (TcpHonest cfg ok) (s.setLink x c
      (Link.idle (sent ++ [frame]) (consumed + Lan.Connection.headerSize + frame.length)
        (outcomes ++ [(k, .returned frame)]))) := by
  have harrived := reachable_link (l := .arrive _) h (by simp) trivial
    (hlink ▸ Lan.Connection.arrive_frame hsend)
  have hreading := reachable_link (x := x) (c := c) (l := .receive k) harrived (by simp)
    (by rw [TcpPair.links_setLink]; exact ⟨rfl, hreturned⟩)
    (by rw [TcpPair.links_setLink]; exact Lan.Connection.receive_frame hreceive k)
  have hread := reachable_link (x := x) (c := c) (l := .resume) hreading (by simp) trivial
    (by rw [TcpPair.links_setLink]; exact Lan.Connection.resume_frame frame k)
  simpa only [TcpPair.setLink_setLink] using hread

/-- A node reads the hello. -/
theorem reachable_negotiated {ok : Message P → Prop} {frame : Bytes}
    (h : ReachableWhen (tcpSystem cfg) (TcpHonest cfg ok) s) (hgreeted : s.greeted x c = true)
    (hframe : (s.links x c).returned[0]? = some frame)
    (hstep : step (cfg.pair.nodes x) (s.nodes x) (.negotiated c (.received frame)) = some n) :
    ReachableWhen (tcpSystem cfg) (TcpHonest cfg ok) (s.setNode x n) := by
  refine h.step (.node x (.negotiated c (.received frame))) trivial ?_
  simp only [tcpSystem, tcpStep, tcpNodeStep, hgreeted, hframe, hstep]
  simp

/-- A node reads a PING. -/
theorem reachable_ping {ok : Message P → Prop} {id : Identifier} {ping pong : Bytes}
    (h : ReachableWhen (tcpSystem cfg) (TcpHonest cfg ok) s)
    (hready : ∃ r, (s.nodes x).tables.ready c = some r ∧
      heartbeatCapability ∈ r.session.capabilities)
    (hping : encodePingFrame (F := F) id = .ok ping)
    (hpong : encodePongFrame (F := F) id = .ok pong) :
    ReachableWhen (tcpSystem cfg) (TcpHonest cfg ok)
      (s.setNode x ((s.nodes x).pushOutbound c ⟨ping, .heartbeat⟩)) :=
  h.step (.node x (.ping c id)) (fun _ => ⟨hready, pong, hpong⟩)
    (congrArg (Option.map (s.setNode x)) (ping_eq hping))

/-- A node writes the next frame of its queue. -/
theorem reachable_transmit {ok : Message P → Prop} {f : OutboundFrame} {rest : List OutboundFrame}
    (h : ReachableWhen (tcpSystem cfg) (TcpHonest cfg ok) s) (hshared : cfg.pair.shared c = true)
    (hfirst : (s.nodes x).outbound c = f :: rest) (hgreeted : s.greeted x c = true)
    (haccepts : s.accepts cfg x.other c f.data = true)
    (hstep : step (cfg.pair.nodes x) (s.nodes x) (.transmit c) = some n) :
    ReachableWhen (tcpSystem cfg) (TcpHonest cfg ok) ((s.send cfg x c f.data).setNode x n) := by
  refine h.step (.node x (.transmit c)) trivial ?_
  simp only [tcpSystem, tcpStep, tcpNodeStep, hshared, hfirst, hgreeted, haccepts, hstep]
  simp

/-- A control frame fits a frame. -/
theorem length_encodeControl {payload : List (Key F × Value F)} {frame : Bytes}
    (h : encodeControl payload = .ok frame) : frame.length ≤ maxControlPayloadSize + 1 := by
  unfold encodeControl at h
  split at h
  · split at h
    · cases h
    · split at h <;> cases h
      rename_i hsize
      rw [List.length_cons]
      omega
  · cases h

/-- A hello is a small frame. -/
theorem length_encodeHello {offer : HandshakeOffer F} {hello : Bytes}
    (h : encodeHello offer = .ok hello) : hello.length ≤ maxControlPayloadSize + 1 := by
  unfold encodeHello at h
  split at h
  · rename_i hframe
    cases h
    exact length_encodeControl hframe
  · cases h

/-- The limit of the sample. -/
theorem sampleLimit_pos : 0 < 16 * 1024 * 1024 + 1 := by decide

/-- It is one that a header can hold. -/
theorem sampleLimit_le : 16 * 1024 * 1024 + 1 ≤ Lan.Connection.maxUint32 := by decide

open Serializers

/-- `DEFAULT_MAX_FRAME_SIZE` at both ends. -/
def tcpSample : TcpConfig SampleFloat (Body SampleFloat SampleDatetime) where
  pair := jsonPair
  link _ _ :=
    { sendLimit := 16 * 1024 * 1024 + 1
      sendLimit_pos := sampleLimit_pos
      sendLimit_le := sampleLimit_le
      receiveLimit := 16 * 1024 * 1024 + 1
      receiveLimit_pos := sampleLimit_pos
      receiveLimit_le := sampleLimit_le
      hasDeadline := true
      timeoutCaught := true }

/-- Control frames fit. -/
theorem sampleLimit_fits : maxControlPayloadSize + 1 ≤ 16 * 1024 * 1024 + 1 := by decide

/-- The nodes exchange their hellos, and `b` reads a PING of `a`. -/
theorem tcp_refines_sample : ∃ s hello ping,
    ReachableWhen (tcpSystem tcpSample) (TcpHonest tcpSample Sendable) s ∧
      encodeHello sampleA = .ok hello ∧ (s.links .b 0).returned = [hello, ping] ∧
      (s.nodes .b).tasks 0 = .receiving (jsonPair.agreed .b 0) ∧
      ReachableWhen (pairSystem jsonPair) (Honest jsonPair Sendable) s.pair ∧
      Understood (jsonPair.nodes .b) (jsonPair.agreed .b 0) ping := by
  obtain ⟨fa, hfa⟩ := sampleA_encodes
  obtain ⟨fb, hfb⟩ := sampleB_encodes
  obtain ⟨ping, pong, hping, hpong⟩ := samplePing_encodes
  have hsizeA : fa.length ≤ 16 * 1024 * 1024 + 1 := (length_encodeHello hfa).trans sampleLimit_fits
  have hsizeB : fb.length ≤ 16 * 1024 * 1024 + 1 := (length_encodeHello hfb).trans sampleLimit_fits
  have hsize : ping.length ≤ 16 * 1024 * 1024 + 1 :=
    (length_encodeControl hping).trans sampleLimit_fits
  have h0 : ReachableWhen (tcpSystem tcpSample) (TcpHonest tcpSample Sendable) tcpInitial :=
    .init rfl
  have h1 := h0.exec [.node .a .start, .node .b .start, .node .a (.accepted 0),
    .node .b (.accepted 0)] (by simp [TcpHonest, Honest]) rfl
  -- the hello of each is sent, and read by the other
  have h2 := reachable_greet (x := .a) (c := 0) h1 rfl hfa rfl (decide_eq_true hsizeA)
  have h3 := reachable_frame (x := .b) (c := 0) h2 rfl (fun _ _ ho => by cases ho) hsizeA hsizeA 0
  have h4 := reachable_greet (x := .b) (c := 0) h3 rfl hfb rfl (decide_eq_true hsizeB)
  have h5 := reachable_frame (x := .a) (c := 0) h4 rfl (fun _ _ ho => by cases ho) hsizeB hsizeB 0
  have h6 := reachable_negotiated (x := .b) (c := 0) h5 rfl rfl
    (congrArg some (negotiated_eq (sampleB_negotiates hfa hfb)))
  have h7 := reachable_negotiated (x := .a) (c := 0) h6 rfl rfl
    (congrArg some (negotiated_eq (sampleA_negotiates hfa hfb)))
  -- the PING
  have h8 := h7.exec [.node .a (.startReader 0), .node .b (.startReader 0)]
    (by simp [TcpHonest, Honest]) rfl
  have h9 := reachable_ping (x := .a) (c := 0) h8 ⟨_, rfl, by decide⟩ hping hpong
  have h10 := reachable_transmit (x := .a) (c := 0) h9 rfl rfl rfl (decide_eq_true hsize) rfl
  have h11 := reachable_frame (x := .b) (c := 0) h10 rfl (by simp) hsize hsize 1
  obtain ⟨hpair, hlinks⟩ := tcp_refines jsonPair_conveys h11
  exact ⟨_, fa, ping, h11, hfa, rfl, rfl, hpair, (hlinks .b 0 rfl).2.2 ping List.mem_cons_self⟩

end Messaging
end Core
end Paqto
