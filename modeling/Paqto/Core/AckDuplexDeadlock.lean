/-
# When two endpoints deadlock on their acknowledgements

Both writers can be stopped in `drain()` while both readers wait for ACK
frames that stand behind the unread bytes (`duplex_deadlock`).  It takes a pair
of positions at which both channels overflow: `BacklogsFit` excludes every such
pair, and from any pair it does not exclude a run leads into the deadlock
(`ack_deadlock_free_iff`).

That run is not written out.  The callers put all their frames before the
first ACK is queued, and readers take whole frames (`Rushes`).  Then neither
reader gets its last admissible ACK out (`rushed_step`), and since every step
decreases `work`, such a run ends, where only the deadlock is left.
-/

import Paqto.Core.AckDuplexInvariant

namespace Paqto
namespace Core
namespace AckDuplex

open Transition

/-- Each node queues two frames of 512 KiB, larger than the 256 KiB a channel
holds.  When the first is read, the second is already in `send_frame` on both
sides, and both ACK frames are behind it. -/
theorem duplex_deadlock : ∃ cfg frames s, Reachable (system cfg frames) s ∧ Stuck cfg s := by
  let cfg : Config := ⟨fun _ => 262144, fun _ => 8, fun _ => by decide⟩
  let frames : Side → List AppFrame := fun _ => [⟨524288, 80⟩, ⟨524288, 80⟩]
  have hrun : Reachable (system cfg frames) _ := reachable_of_exec rfl
    [.put .a, .put .a, .startSend .a, .put .b, .put .b, .startSend .b,
      .receive .a 524292, .putAck .a, .receive .b 524292, .putAck .b,
      .finishSend .a, .startSend .a, .finishSend .b, .startSend .b] rfl
  refine ⟨cfg, frames, _, hrun, ⟨.a, Or.inr (Or.inl ?_)⟩, ?_⟩
  · decide
  · rintro (e | e | e | e | e | ⟨e, n⟩) <;> cases e <;> rfl

/-- Callers come before readers, and readers take whole frames. -/
def Rushes (s : Duplex) : Label → Prop
  | .putAck e => (s e).callers = []
  | .receive e n => ∀ p ∈ (s e.other).wire.head?, n = p.left
  | _ => True

/-! ## Every run ends -/

/-- The steps left when a frame has been received: its ACK frame. -/
def answerWork : Frame → ℕ
  | .app f => headerSize + f.ackSize + 4
  | .ack _ => 0

/-- The steps that a reader has left. -/
def ReaderPc.work : ReaderPc → ℕ
  | putting n => headerSize + n + 4
  | written => 1
  | _ => 0

/-- The steps that an end has left. -/
def Endpoint.work (x : Endpoint) : ℕ :=
  (x.callers.map fun f => (Frame.app f).wireSize + answerWork (.app f) + 4).sum +
    (x.queue.map fun f => f.wireSize + answerWork f + 3).sum +
    (x.current.toList.map fun _ => 2).sum +
    (x.wire.map fun p => p.left + answerWork p.frame).sum + x.reader.work

/-- A bound on the steps left in a run. -/
def work (s : Duplex) : ℕ := (s .a).work + (s .b).work

/-- An end has fewer left. -/
theorem work_update {s : Duplex} {e : Side} {x : Endpoint} (h : x.work < (s e).work) :
    work (Function.update s e x) < work s := by
  cases e <;> simp only [work, Function.update_self, ne_eq, reduceCtorEq, not_false_eq_true,
    Function.update_of_ne] <;> omega

/-- **Every step is one of finitely many.** -/
theorem work_step {cfg : Config} {s t : Duplex} {l : Label} (hs : StepSpec cfg s l t) :
    work t < work s := by
  cases hs with
  | put hc hq =>
      refine work_update ?_
      simp only [Endpoint.work, hc, List.map_append, List.map_cons, List.map_nil,
        List.sum_append, List.sum_cons, List.sum_nil]
      omega
  | putAck hr hq =>
      refine work_update ?_
      simp only [Endpoint.work, hr, ReaderPc.work, answerWork, Frame.wireSize, List.map_append,
        List.map_cons, List.map_nil, List.sum_append, List.sum_cons, List.sum_nil]
      omega
  | startSend hc hq =>
      refine work_update ?_
      simp only [Endpoint.work, hc, hq, List.map_append, List.map_cons, List.map_nil,
        List.sum_append, List.sum_cons, List.sum_nil, Option.toList_some, Option.toList_none]
      omega
  | @finishSend e f hc hu =>
      refine work_update ?_
      have hr : (afterSend (s e).reader f).work ≤ (s e).reader.work + 1 := by
        cases f
        · exact Nat.le_succ _
        · exact Nat.le_add_left _ _
      simp only [Endpoint.work, hc, List.map_cons, List.map_nil, List.sum_cons, List.sum_nil,
        Option.toList_some, Option.toList_none]
      omega
  | resumeReader hr =>
      refine work_update ?_
      simp only [Endpoint.work, hr, ReaderPc.work]
      omega
  | receivePart hr hw hn hl =>
      refine work_update ?_
      simp only [Endpoint.work, hw, List.map_cons, List.sum_cons]
      omega
  | @receiveAll e n f wire hr hw hn =>
      have hf : (afterFrame f).work = answerWork f := by cases f <;> rfl
      have ho : ({ s e.other with wire } : Endpoint).work + n + answerWork f =
          (s e.other).work := by
        simp only [Endpoint.work, hw, List.map_cons, List.sum_cons]
        omega
      have he : ({ s e with reader := afterFrame f } : Endpoint).work =
          (s e).work + answerWork f := by
        dsimp only [Endpoint.work]
        rw [hf, hr]
        dsimp only [ReaderPc.work]
        omega
      cases e <;> simp only [Side.other] at * <;>
        simp only [work, Function.update_self, ne_eq, reduceCtorEq, not_false_eq_true,
          Function.update_of_ne, he] <;> omega

/-! ## Rushed runs -/

/-- One ACK frame is not put yet. -/
def ReaderPc.unput : ReaderPc → ℕ
  | putting _ => 1
  | _ => 0

/-- **An endpoint of a rushed run**, when its remote reader has received `r`
application frames of `fs` and its own reader `q ≤ bound` of `gs`. -/
structure Rushed (fs gs : List AppFrame) (bound r q : ℕ) (x : Endpoint) : Prop where
  order : x.sent ++ x.queue ++ x.callers.map .app =
    (fs.drop r).map .app ++ (gs.take (q - x.reader.unput)).map fun f => .ack f.ackSize
  bounded : q ≤ bound
  unput : ∀ n, x.reader = .putting n → ∃ f, 1 ≤ q ∧ gs[q - 1]? = some f ∧ f.ackSize = n
  stopped : q = bound → x.reader = .waiting ∨ ∃ n, x.reader = .putting n
  awaits : x.AwaitsAck
  last : ∀ l n m, x.unwritten = l ++ .ack n :: m → m = [] ∧ x.callers = []
  whole : ∀ p ∈ x.wire, p.left = p.frame.wireSize

section Rushed

variable {fs gs : List AppFrame} {bound r q : ℕ} {x : Endpoint}

/-- Nothing was sent yet. -/
theorem rushed_initial (hb : 1 ≤ bound) : Rushed fs gs bound 0 0
    { callers := fs, queue := [], current := none, wire := [], reader := .receiving } where
  order := by simp [Endpoint.sent]
  bounded := Nat.zero_le _
  unput := by simp
  stopped := by omega
  awaits := rfl
  last := by simp [Endpoint.unwritten]
  whole := by simp

/-- Application frames are application frames. -/
theorem apps_map_app (l : List AppFrame) : apps (l.map .app) = l := by
  induction l with
  | nil => rfl
  | cons f l ih => simp [apps, ih]

/-- ACKs are none. -/
theorem apps_map_ack (l : List AppFrame) : apps (l.map fun f => .ack f.ackSize) = [] := by
  induction l with
  | nil => rfl
  | cons f l ih => simp [apps, ih]

/-- Application frames have no bytes of ACKs. -/
theorem ackBytes_map_app (l : List AppFrame) : ackBytes (l.map .app) = 0 := by
  induction l with
  | nil => rfl
  | cons f l ih => simp [ackBytes, ih]

/-- The bytes of the ACKs. -/
theorem ackBytes_map_ack (l : List AppFrame) :
    ackBytes (l.map fun f => .ack f.ackSize) = answerBytes l := by
  induction l with
  | nil => rfl
  | cons f l ih => simp [ackBytes, ih, answerBytes]

/-- While an ACK frame is in `send_frame`, everything else stands in the
channel. -/
theorem Rushed.unread_eq (h : Rushed fs gs bound r q x) {n : ℕ}
    (hc : x.current = some (.ack n)) :
    x.reader = .waiting ∧ x.queue = [] ∧ x.callers = [] ∧
      x.unread = appBytes (fs.drop r) + answerBytes (gs.take q) := by
  have hw : x.reader = .waiting := by
    have ha := h.awaits
    by_contra hne
    rw [Endpoint.AwaitsAck, ReaderPc.awaited_eq, if_neg hne] at ha
    simp [Endpoint.unwritten, hc, ackCount] at ha
  obtain ⟨hq, hcl⟩ := h.last [] n x.queue (by simp [Endpoint.unwritten, hc])
  refine ⟨hw, hq, hcl, ?_⟩
  have ho := h.order
  simp only [hq, hcl, hw, ReaderPc.unput, List.map_nil, List.append_nil, Nat.sub_zero] at ho
  have hsum : x.unread = (x.sent.map Frame.wireSize).sum := by
    rw [Endpoint.unread, Endpoint.sent, List.map_map]
    exact congrArg List.sum (List.map_congr_left fun p hp => h.whole p hp)
  rw [hsum, wireSize_sum, ho, apps_append, ackBytes_append, apps_map_app, apps_map_ack,
    ackBytes_map_app, ackBytes_map_ack]
  simp

/-- The remote reader takes the first frame: it is an application frame. -/
theorem Rushed.consume {f : Frame} {n : ℕ} {wire : List InFlight}
    (h : Rushed fs gs bound r q x) (hw : x.wire = ⟨f, n⟩ :: wire) (hr : r < fs.length) :
    ∃ g, fs[r]? = some g ∧ f = .app g ∧ Rushed fs gs bound (r + 1) q { x with wire } := by
  have ho := h.order
  simp only [Endpoint.sent, hw, List.map_cons, List.drop_eq_getElem_cons hr,
    List.cons_append, List.cons.injEq] at ho
  exact ⟨_, List.getElem?_eq_getElem hr, ho.1, ho.2, h.bounded, h.unput, h.stopped, h.awaits, h.last,
    fun p hm => h.whole p (hw ▸ List.mem_cons_of_mem _ hm)⟩

/-- The reader of the endpoint receives application frame `q`. -/
theorem Rushed.answer {f : AppFrame} (h : Rushed fs gs bound r q x) (hx : x.reader = .receiving)
    (hf : gs[q]? = some f) :
    Rushed fs gs bound r (q + 1) { x with reader := .putting f.ackSize } where
  order := by simpa [hx, ReaderPc.unput, Endpoint.sent] using h.order
  bounded := by
    have hne : q ≠ bound := fun hq => by simpa [hx] using h.stopped hq
    have := h.bounded
    omega
  unput := by
    rintro n hn
    exact ⟨f, by omega, hf, ReaderPc.putting.inj hn⟩
  stopped := fun _ => Or.inr ⟨_, rfl⟩
  awaits := by simpa [Endpoint.AwaitsAck, Endpoint.unwritten, hx, ReaderPc.awaited] using h.awaits
  last := h.last
  whole := h.whole

end Rushed

/-- Both endpoints are rushed, for some numbers of received frames. -/
def AllRushed (frames : Side → List AppFrame) (bound : Side → ℕ) (s : Duplex) : Prop :=
  ∃ rd : Side → ℕ, ∀ e,
    Rushed (frames e) (frames e.other) (bound e) (rd e.other) (rd e) (s e)

/-- The bounds of a pair of positions at which both channels overflow. -/
def Overflows (cfg : Config) (frames : Side → List AppFrame) (bound : Side → ℕ) : Prop :=
  ∀ e, 1 ≤ bound e ∧ bound e ≤ (frames e.other).length ∧
    cfg.capacity e < backlog frames e (bound e.other) (bound e)

section AllRushed

variable {cfg : Config} {frames : Side → List AppFrame} {bound : Side → ℕ} {s t : Duplex}

/-- A step of one endpoint alone. -/
theorem AllRushed.update {rd : Side → ℕ} {e : Side} {x : Endpoint}
    (h : ∀ e, Rushed (frames e) (frames e.other) (bound e) (rd e.other) (rd e) (s e))
    (hx : Rushed (frames e) (frames e.other) (bound e) (rd e.other) (rd e) x) :
    AllRushed frames bound (Function.update s e x) := by
  refine ⟨rd, fun d => ?_⟩
  rcases eq_or_ne d e with rfl | hd
  · rwa [Function.update_self]
  · rw [Function.update_of_ne hd]
    exact h d

/-- What the remote reader has not taken weighs less, the further it is. -/
theorem appBytes_drop_anti (l : List AppFrame) {i j : ℕ} (h : i ≤ j) :
    appBytes (l.drop j) ≤ appBytes (l.drop i) := by
  obtain ⟨k, rfl⟩ := Nat.exists_eq_add_of_le h
  rw [← List.drop_drop]
  have hsplit := congrArg appBytes (List.take_append_drop k (l.drop i))
  rw [appBytes, List.map_append, List.sum_append] at hsplit
  exact hsplit ▸ Nat.le_add_left _ _

/-- **The last admissible ACK frame does not leave `send_frame`.** -/
theorem not_last_ack (ho : Overflows cfg frames bound) {rd : Side → ℕ}
    (h : ∀ e, Rushed (frames e) (frames e.other) (bound e) (rd e.other) (rd e) (s e)) {e : Side}
    {n : ℕ} (hc : (s e).current = some (.ack n)) (hu : (s e).unread ≤ cfg.capacity e) :
    rd e ≠ bound e := by
  intro hq
  obtain ⟨_, _, _, hunread⟩ := (h e).unread_eq hc
  have hover := (ho e).2.2
  have hanti := appBytes_drop_anti (frames e) (h e.other).bounded
  rw [backlog, ← hq] at hover
  change cfg.capacity e < appBytes _ + answerBytes _ at hover
  omega

/-- Where a frame stands after another one was put. -/
theorem append_singleton_eq {u l m : List Frame} {f g : Frame} (h : u ++ [g] = l ++ f :: m) :
    m = [] ∧ u = l ∧ g = f ∨ ∃ m', m = m' ++ [g] ∧ u = l ++ f :: m' := by
  rcases List.eq_nil_or_concat m with rfl | ⟨m', a, rfl⟩
  · obtain ⟨hu, hg⟩ := List.append_inj' h rfl
    exact Or.inl ⟨rfl, hu, List.head_eq_of_cons_eq hg⟩
  · rw [List.concat_eq_append, ← List.cons_append, ← List.append_assoc] at h
    obtain ⟨hu, hg⟩ := List.append_inj' h rfl
    obtain rfl := List.head_eq_of_cons_eq hg
    exact Or.inr ⟨m', List.concat_eq_append, hu⟩

/-- A step of a run that rushes. -/
theorem allRushed_step {l : Label} (ho : Overflows cfg frames bound)
    (h : AllRushed frames bound s) (hG : Rushes s l) (hs : StepSpec cfg s l t) :
    AllRushed frames bound t := by
  obtain ⟨rd, h⟩ := h
  cases hs with
  | @put e f callers hc hq =>
      obtain ⟨hor, hb, hup, hst, ha, hl, hw⟩ := h e
      refine AllRushed.update h ⟨?_, hb, hup, hst, ?_, ?_, hw⟩
      · rw [← hor, hc]
        simp [Endpoint.sent]
      · simpa [Endpoint.AwaitsAck, Endpoint.unwritten, ackCount] using ha
      · intro l n m hm
        dsimp only [Endpoint.unwritten] at hm
        rw [← List.append_assoc] at hm
        rcases append_singleton_eq hm with ⟨_, _, hf⟩ | ⟨m', _, hu⟩
        · cases hf
        · rw [hc] at hl
          cases (hl l n m' hu).2
  | @putAck e n hr' hq =>
      obtain ⟨hor, hb, hup, hst, ha, hl, hw⟩ := h e
      obtain ⟨f, hq1, hf, rfl⟩ := hup n hr'
      have hno : ∀ l k m, (s e).unwritten ≠ l ++ .ack k :: m := by
        intro l k m hu
        rw [Endpoint.AwaitsAck, hu, hr'] at ha
        simp [ackCount, ReaderPc.awaited] at ha
      refine AllRushed.update h
        ⟨?_, hb, by simp, fun _ => Or.inl rfl, ?_, ?_, hw⟩
      · have htake : (frames e.other).take (rd e) =
            (frames e.other).take (rd e - 1) ++ [f] := by
          have hsucc := List.take_add_one (l := frames e.other) (i := rd e - 1)
          rwa [hf, Nat.sub_add_cancel hq1] at hsucc
        rw [hr', hG] at hor
        simp only [ReaderPc.unput, List.map_nil, List.append_nil, Nat.sub_zero] at hor ⊢
        rw [htake, List.map_append, ← List.append_assoc _ (List.map _ _), ← hor, hG]
        simp [Endpoint.sent]
      · simp [Endpoint.AwaitsAck, Endpoint.unwritten, ackCount, hr', ReaderPc.awaited] at ha ⊢
        omega
      · intro l k m hm
        dsimp only [Endpoint.unwritten] at hm
        rw [← List.append_assoc] at hm
        rcases append_singleton_eq hm with ⟨hm, _, _⟩ | ⟨m', _, hu⟩
        · exact ⟨hm, hG⟩
        · exact absurd hu (hno l k m')
  | @startSend e f queue hc hq =>
      obtain ⟨hor, hb, hup, hst, ha, hl, hw⟩ := h e
      have hun : (s e).unwritten = f :: queue := by simp [Endpoint.unwritten, hc, hq]
      refine AllRushed.update h ⟨?_, hb, hup, hst, ?_, ?_, ?_⟩
      · rw [← hor, hq]
        simp [Endpoint.sent]
      · rw [Endpoint.AwaitsAck, hun] at ha
        exact ha
      · rw [hun] at hl
        exact hl
      · intro p hm
        rcases List.mem_append.1 hm with hm | hm
        · exact hw p hm
        · obtain rfl := List.mem_singleton.1 hm
          rfl
  | @finishSend e f hc hu =>
      cases f with
      | app f =>
          obtain ⟨hor, hb, hup, hst, ha, hl, hw⟩ := h e
          have hun : (s e).unwritten = .app f :: (s e).queue := by simp [Endpoint.unwritten, hc]
          rw [Endpoint.AwaitsAck, hun] at ha
          refine AllRushed.update h ⟨hor, hb, hup, hst, ha, fun l n m hm => ?_, hw⟩
          exact hl (.app f :: l) n m (hun.trans (congrArg _ hm))
      | ack n =>
          have hne := not_last_ack ho h hc hu
          obtain ⟨hwt, hq, hcl, _⟩ := (h e).unread_eq hc
          obtain ⟨hor, hb, hup, hst, ha, hl, hw⟩ := h e
          refine AllRushed.update h ⟨?_, hb, by simp [afterSend], fun hq => absurd hq hne, ?_,
            ?_, hw⟩
          · rw [hwt] at hor
            exact hor
          · simp [Endpoint.AwaitsAck, Endpoint.unwritten, hq, afterSend, ackCount,
              ReaderPc.awaited]
          · simp [Endpoint.unwritten, hq]
  | @resumeReader e hr' =>
      obtain ⟨hor, hb, hup, hst, ha, hl, hw⟩ := h e
      rw [hr'] at hor hst
      refine AllRushed.update h ⟨hor, hb, by simp, fun hq => ?_, ?_, hl, hw⟩
      · simpa using hst hq
      · rw [Endpoint.AwaitsAck, hr'] at ha
        exact ha
  | @receivePart e n left f wire hr' hw hn hl =>
      have hwhole := hG ⟨f, left⟩ (by simp [hw])
      dsimp only at hwhole
      omega
  | @receiveAll e n f wire hr' hw hn =>
      have hlt : rd e < bound e := by
        refine lt_of_le_of_ne (h e).bounded fun hq => ?_
        simpa [hr'] using (h e).stopped hq
      have hlen : rd e < (frames e.other).length := lt_of_lt_of_le hlt (ho e).2.1
      obtain ⟨g, hg, rfl, hrem⟩ := (h e.other).consume (f := f) hw (by rwa [Side.other_other])
      rw [Side.other_other] at hg hrem
      refine ⟨Function.update rd e (rd e + 1), Side.forall_of e ?_ ?_⟩
      · rw [Function.update_self, Function.update_self, Function.update_of_ne e.other_ne]
        exact (h e).answer hr' hg
      · rw [Side.other_other, Function.update_self, Function.update_of_ne e.other_ne,
          Function.update_of_ne e.other_ne, Function.update_self]
        exact hrem

/-- Where a rushed run ends, no step is left at all. -/
theorem halted_of_terminal (h : AllRushed frames bound s)
    (hterm : ∀ l, Rushes s l → step cfg s l = none) : Halted cfg s := by
  obtain ⟨rd, h⟩ := h
  intro l
  cases l with
  | put e | startSend e | finishSend e | resumeReader e => exact hterm _ trivial
  | putAck e =>
      by_cases hc : (s e).callers = []
      · exact hterm (.putAck e) hc
      · obtain ⟨f, callers, hc⟩ := List.exists_cons_of_ne_nil hc
        have hput := hterm (.put e) trivial
        simp only [step, hc, ite_eq_right_iff, reduceCtorEq, imp_false] at hput
        simp only [step]
        split
        · exact if_neg hput
        · rfl
  | receive e n =>
      rw [Option.eq_none_iff_forall_ne_some]
      intro t hs
      have hwhole : ∀ {f left wire}, (s e).reader = .receiving →
          (s e.other).wire = ⟨f, left⟩ :: wire → False := by
        intro f left wire hr hw
        have hpos : left = f.wireSize := (h e.other).whole ⟨f, left⟩ (by simp [hw])
        have hrec := hterm (.receive e left) (by simp [Rushes, hw])
        have := f.wireSize_pos
        simp only [step, hr, hw, lt_self_iff_false, or_false, if_false] at hrec
        rw [if_neg (by omega)] at hrec
        cases hrec
      cases stepSpec_of_step hs with
      | receivePart hr hw _ _ => exact hwhole hr hw
      | receiveAll hr hw _ => exact hwhole hr hw

/-- A rushed run does not get all frames through. -/
theorem unfinished_of_rushed (ho : Overflows cfg frames bound) (h : AllRushed frames bound s)
    (hhalt : Halted cfg s) : Unfinished s := by
  obtain ⟨rd, h⟩ := h
  by_contra hu
  simp only [Unfinished, not_exists, not_or, not_not] at hu
  have hr : rd .b = bound .b := by
    have hor := (h .a).order
    obtain ⟨hc, hq, _, hw⟩ := hu .a
    simp only [Endpoint.sent, hc, hq, hw, List.map_nil, List.append_nil] at hor
    have hnil := List.map_eq_nil_iff.1 (List.append_eq_nil_iff.1 hor.symm).1
    have hlen : (frames .a).length ≤ rd .b := List.drop_eq_nil_iff.1 hnil
    exact le_antisymm (h .b).bounded ((ho .b).2.1.trans hlen)
  have hne : (s .b).reader ≠ .receiving := by
    rcases (h .b).stopped hr with hst | ⟨n, hst⟩ <;> rw [hst] <;> simp
  rcases hhalt.waits (h .b).awaits hne with hq | hc
  · exact hq (hu .b).2.1
  · exact hc (hu .b).2.2.1

/-- **Overflowing backlogs lead into the deadlock.** -/
theorem exists_stuck_of_overflows (ho : Overflows cfg frames bound) :
    ∃ t, Reachable (system cfg frames) t ∧ Stuck cfg t := by
  obtain ⟨t, ht, hterm⟩ := ReachableWhen.exists_terminal (S := system cfg frames) (G := Rushes)
    work (fun _ _ _ _ hs => work_step (stepSpec_of_step hs)) (ReachableWhen.init rfl)
  have hr : AllRushed frames bound t := by
    refine ht.invariant (I := AllRushed frames bound) ?_ fun _ _ _ hi hG hs =>
      allRushed_step ho hi hG (stepSpec_of_step hs)
    rintro _ rfl
    exact ⟨fun _ => 0, fun e => rushed_initial (ho e).1⟩
  have hhalt := halted_of_terminal hr hterm
  exact ⟨t, ht.reachable, unfinished_of_rushed ho hr hhalt, hhalt⟩

end AllRushed

/-- **Two endpoints never deadlock on their acknowledgements exactly when, at
every pair of positions, one of the two channels has room for its backlog.** -/
theorem ack_deadlock_free_iff (cfg : Config) (frames : Side → List AppFrame) :
    (∀ s, Reachable (system cfg frames) s → ¬ Stuck cfg s) ↔ BacklogsFit cfg frames := by
  refine ⟨fun h i j hi hil hj hjl => ?_, fun h s hs => not_stuck_of_backlogsFit h hs⟩
  by_contra hover
  rw [not_or, Nat.not_le, Nat.not_le] at hover
  have ho : Overflows cfg frames (Function.update (fun _ => j) .b i) := by
    rintro (_ | _)
    · exact ⟨hj, hjl, hover.1⟩
    · exact ⟨hi, hil, hover.2⟩
  obtain ⟨t, ht, hst⟩ := exists_stuck_of_overflows ho
  exact h t ht hst

end AckDuplex
end Core
end Paqto
