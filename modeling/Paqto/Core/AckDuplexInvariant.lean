/-
# What stands between two endpoints that acknowledge each other

The step lemma of the two endpoints and the invariant of their runs.
`Counted` bounds the bytes in a channel by `backlog` at the numbers of frames
received so far; halted endpoints with frames left are blocked in one way only
(`Halted.deadlock`), with both channels overflowing, so no run gets stuck where
the backlogs fit (`not_stuck_of_backlogsFit`).
-/

import Paqto.Core.AckDuplex
import Mathlib.Algebra.Order.BigOperators.Group.List
import Mathlib.Algebra.Order.Group.Nat

namespace Paqto
namespace Core
namespace AckDuplex

open Transition

/-- What each step of the two endpoints does, with its guards. -/
inductive StepSpec (cfg : Config) (s : Duplex) : Label → Duplex → Prop
  | put {e : Side} {f : AppFrame} {callers : List AppFrame} (hc : (s e).callers = f :: callers)
      (hq : (s e).queue.length < cfg.maxOutboundQueue e) :
      StepSpec cfg s (.put e)
        (Function.update s e { s e with callers, queue := (s e).queue ++ [.app f] })
  | putAck {e : Side} {n : ℕ} (hr : (s e).reader = .putting n)
      (hq : (s e).queue.length < cfg.maxOutboundQueue e) :
      StepSpec cfg s (.putAck e)
        (Function.update s e { s e with reader := .waiting, queue := (s e).queue ++ [.ack n] })
  | startSend {e : Side} {f : Frame} {queue : List Frame} (hc : (s e).current = none)
      (hq : (s e).queue = f :: queue) :
      StepSpec cfg s (.startSend e)
        (Function.update s e
          { s e with current := some f, queue, wire := (s e).wire ++ [⟨f, f.wireSize⟩] })
  | finishSend {e : Side} {f : Frame} (hc : (s e).current = some f)
      (hu : (s e).unread ≤ cfg.capacity e) :
      StepSpec cfg s (.finishSend e)
        (Function.update s e { s e with current := none, reader := afterSend (s e).reader f })
  | resumeReader {e : Side} (hr : (s e).reader = .written) :
      StepSpec cfg s (.resumeReader e) (Function.update s e { s e with reader := .receiving })
  | receivePart {e : Side} {n left : ℕ} {f : Frame} {wire : List InFlight}
      (hr : (s e).reader = .receiving) (hw : (s e.other).wire = ⟨f, left⟩ :: wire)
      (hn : 0 < n) (hl : n < left) :
      StepSpec cfg s (.receive e n)
        (Function.update s e.other { s e.other with wire := ⟨f, left - n⟩ :: wire })
  | receiveAll {e : Side} {n : ℕ} {f : Frame} {wire : List InFlight}
      (hr : (s e).reader = .receiving) (hw : (s e.other).wire = ⟨f, n⟩ :: wire) (hn : 0 < n) :
      StepSpec cfg s (.receive e n)
        (Function.update (Function.update s e.other { s e.other with wire }) e
          { s e with reader := afterFrame f })

/-- **What a step does**, as a relation. -/
theorem stepSpec_of_step {cfg : Config} {s t : Duplex} {l : Label} (h : step cfg s l = some t) :
    StepSpec cfg s l t := by
  cases l with
  | put e =>
      simp only [step] at h
      split at h
      · rename_i hc
        split at h
        · rename_i hq
          cases h
          exact .put hc hq
        · cases h
      · cases h
  | putAck e =>
      simp only [step] at h
      split at h
      · rename_i hr
        split at h
        · rename_i hq
          cases h
          exact .putAck hr hq
        · cases h
      · cases h
  | startSend e =>
      simp only [step] at h
      split at h
      · rename_i hc hq
        cases h
        exact .startSend hc hq
      · cases h
  | finishSend e =>
      simp only [step] at h
      split at h
      · rename_i hc
        split at h
        · rename_i hu
          cases h
          exact .finishSend hc hu
        · cases h
      · cases h
  | resumeReader e =>
      simp only [step] at h
      split at h
      · rename_i hr
        cases h
        exact .resumeReader hr
      · cases h
  | receive e n =>
      simp only [step] at h
      split at h
      · rename_i f left wire hr hw
        split at h
        · cases h
        · rename_i hn
          have hn0 : 0 < n := by omega
          split at h
          · rename_i hl
            cases h
            exact .receivePart hr hw hn0 hl
          · cases h
            obtain rfl : left = n := by omega
            exact .receiveAll hr hw hn0
      · cases h

/-- The application frames of a list. -/
def apps : List Frame → List AppFrame
  | [] => []
  | .app f :: l => f :: apps l
  | .ack _ :: l => apps l

/-- The application frames of two parts. -/
@[simp] theorem apps_append (l m : List Frame) : apps (l ++ m) = apps l ++ apps m := by
  induction l with
  | nil => rfl
  | cons f l ih => cases f <;> simp [apps, ih]

/-- The bytes of the ACK frames of a list. -/
def ackBytes : List Frame → ℕ
  | [] => 0
  | .app _ :: l => ackBytes l
  | .ack n :: l => headerSize + n + ackBytes l

/-- The bytes of ACKs of two parts. -/
@[simp] theorem ackBytes_append (l m : List Frame) :
    ackBytes (l ++ m) = ackBytes l + ackBytes m := by
  induction l with
  | nil => simp [ackBytes]
  | cons f l ih => cases f <;> simp [ackBytes, ih, Nat.add_assoc]

/-- The bytes of application frames. -/
def appBytes (l : List AppFrame) : ℕ := (l.map fun f => headerSize + f.size).sum

/-- The bytes of the ACK frames that answer application frames. -/
def answerBytes (l : List AppFrame) : ℕ := (l.map fun f => headerSize + f.ackSize).sum

/-- The bytes on the wire are those of messages and those of ACKs. -/
theorem wireSize_sum (l : List Frame) :
    (l.map Frame.wireSize).sum = appBytes (apps l) + ackBytes l := by
  induction l with
  | nil => rfl
  | cons f l ih => cases f <;> simp only [apps, ackBytes, appBytes, Frame.wireSize, List.map_cons,
        List.sum_cons] at ih ⊢ <;> omega

/-- The frames in the channel of an endpoint. -/
def Endpoint.sent (x : Endpoint) : List Frame := x.wire.map InFlight.frame

/-- The number of ACK frames of a list. -/
def ackCount : List Frame → ℕ
  | [] => 0
  | .app _ :: l => ackCount l
  | .ack _ :: l => ackCount l + 1

/-- The ACKs of two parts. -/
@[simp] theorem ackCount_append (l m : List Frame) :
    ackCount (l ++ m) = ackCount l + ackCount m := by
  induction l with
  | nil => simp [ackCount]
  | cons f l ih => cases f <;> simp [ackCount, ih, Nat.add_right_comm]

/-- The frames an endpoint has not written yet. -/
def Endpoint.unwritten (x : Endpoint) : List Frame := x.current.toList ++ x.queue

/-- How many ACK frames the reader waits for. -/
def ReaderPc.awaited : ReaderPc → ℕ
  | waiting => 1
  | _ => 0

/-- A reader waits for one ACK at most. -/
theorem ReaderPc.awaited_eq {r : ReaderPc} : r.awaited = if r = .waiting then 1 else 0 := by
  cases r <;> rfl

/-- The ACK frames that are not written yet are the one the reader waits for. -/
def Endpoint.AwaitsAck (x : Endpoint) : Prop := ackCount x.unwritten = x.reader.awaited

/-- The ACK frame the reader is about to put. -/
def ReaderPc.holds : ReaderPc → ℕ
  | putting n => headerSize + n
  | _ => 0

/-- **What an endpoint holds**, when its remote reader has received `r`
application frames of `fs` and its own reader `q` of `gs`. -/
structure Counted (fs gs : List AppFrame) (r q : ℕ) (x : Endpoint) : Prop where
  pending : apps x.sent ++ apps x.queue ++ x.callers = fs.drop r
  acks : ackBytes x.sent + ackBytes x.queue + x.reader.holds ≤ answerBytes (gs.take q)
  received : q ≤ gs.length ∧ (x.reader ≠ .receiving → 1 ≤ q)
  awaits : x.AwaitsAck
  left : ∀ p ∈ x.wire, 0 < p.left ∧ p.left ≤ p.frame.wireSize

/-- Nothing was sent yet. -/
theorem counted_initial (fs gs : List AppFrame) :
    Counted fs gs 0 0
      { callers := fs, queue := [], current := none, wire := [], reader := .receiving } :=
  ⟨by simp [apps, Endpoint.sent], by simp [ackBytes, Endpoint.sent, ReaderPc.holds],
    by simp, rfl, by simp⟩

section Counted

variable {fs gs : List AppFrame} {r q : ℕ} {x : Endpoint}

/-- The bytes in the channel are at most the backlog. -/
theorem Counted.unread_le (h : Counted fs gs r q x) :
    x.unread ≤ appBytes (fs.drop r) + answerBytes (gs.take q) := by
  have hsum : x.unread ≤ (x.sent.map Frame.wireSize).sum := by
    rw [Endpoint.unread, Endpoint.sent, List.map_map]
    exact List.sum_le_sum fun p hp => (h.left p hp).2
  have happ : appBytes (fs.drop r) =
      appBytes (apps x.sent) + appBytes (apps x.queue) + appBytes x.callers := by
    rw [← h.pending, appBytes, List.map_append, List.map_append, List.sum_append,
      List.sum_append]
    rfl
  have hack := h.acks
  rw [wireSize_sum] at hsum
  omega

/-- The remote reader takes part of a frame. -/
theorem Counted.consume {f : Frame} {left n : ℕ} {wire : List InFlight}
    (h : Counted fs gs r q x) (hw : x.wire = ⟨f, left⟩ :: wire) (hl : n < left) :
    Counted fs gs r q { x with wire := ⟨f, left - n⟩ :: wire } := by
  obtain ⟨hp, ha, hr, hwt, hleft⟩ := h
  simp only [Endpoint.sent, hw, List.map_cons] at hp ha
  refine ⟨hp, ha, hr, hwt, ?_⟩
  rw [hw, List.forall_mem_cons] at hleft
  refine List.forall_mem_cons.2 ⟨?_, hleft.2⟩
  have := hleft.1
  dsimp only at this ⊢
  omega

/-- The remote reader takes the last part of an application frame. -/
theorem Counted.consumeApp {f : AppFrame} {left : ℕ} {wire : List InFlight}
    (h : Counted fs gs r q x) (hw : x.wire = ⟨.app f, left⟩ :: wire) :
    Counted fs gs (r + 1) q { x with wire } ∧ fs[r]? = some f := by
  obtain ⟨hp, ha, hr, hwt, hleft⟩ := h
  simp only [Endpoint.sent, hw, List.map_cons, apps, ackBytes, List.cons_append] at hp ha
  have hlt : r < fs.length := by
    by_contra hge
    rw [List.drop_of_length_le (by omega)] at hp
    cases hp
  rw [List.drop_eq_getElem_cons hlt, List.cons.injEq] at hp
  refine ⟨⟨hp.2, ha, hr, hwt, fun p hm => hleft p (hw ▸ List.mem_cons_of_mem _ hm)⟩, ?_⟩
  rw [List.getElem?_eq_getElem hlt, hp.1]

/-- The remote reader takes the last part of an ACK frame. -/
theorem Counted.consumeAck {a left : ℕ} {wire : List InFlight}
    (h : Counted fs gs r q x) (hw : x.wire = ⟨.ack a, left⟩ :: wire) :
    Counted fs gs r q { x with wire } := by
  obtain ⟨hp, ha, hr, hwt, hleft⟩ := h
  simp only [Endpoint.sent, hw, List.map_cons, apps, ackBytes] at hp ha
  exact ⟨hp, by dsimp only [Endpoint.sent]; omega, hr, hwt,
    fun p hm => hleft p (hw ▸ List.mem_cons_of_mem _ hm)⟩

/-- The reader of the endpoint receives application frame `q`. -/
theorem Counted.answer {f : AppFrame} (h : Counted fs gs r q x) (hx : x.reader = .receiving)
    (hf : gs[q]? = some f) :
    Counted fs gs r (q + 1) { x with reader := .putting f.ackSize } := by
  refine ⟨h.pending, ?_, ⟨?_, fun _ => by omega⟩, ?_, h.left⟩
  rotate_left
  · exact (List.getElem?_eq_some_iff.1 hf).1
  · simpa [Endpoint.AwaitsAck, Endpoint.unwritten, hx, ReaderPc.awaited] using h.awaits
  have ha := h.acks
  have hsum : answerBytes (gs.take (q + 1)) =
      answerBytes (gs.take q) + (headerSize + f.ackSize) := by
    simp [answerBytes, List.take_add_one, hf]
  rw [hx] at ha
  dsimp only [Endpoint.sent, ReaderPc.holds] at ha ⊢
  omega

end Counted

/-- Both endpoints are counted, for some numbers of received frames. -/
def AllCounted (frames : Side → List AppFrame) (s : Duplex) : Prop :=
  ∃ rd : Side → ℕ, ∀ e, Counted (frames e) (frames e.other) (rd e.other) (rd e) (s e)

/-- A step of one endpoint alone. -/
theorem AllCounted.update {frames : Side → List AppFrame} {rd : Side → ℕ} {s : Duplex} {e : Side}
    {x : Endpoint} (h : ∀ e, Counted (frames e) (frames e.other) (rd e.other) (rd e) (s e))
    (hx : Counted (frames e) (frames e.other) (rd e.other) (rd e) x) :
    AllCounted frames (Function.update s e x) := by
  refine ⟨rd, fun d => ?_⟩
  rcases eq_or_ne d e with rfl | hd
  · rwa [Function.update_self]
  · rw [Function.update_of_ne hd]
    exact h d

/-- **Every step keeps the count.** -/
theorem allCounted_step {cfg : Config} {frames : Side → List AppFrame} {s t : Duplex} {l : Label}
    (h : AllCounted frames s) (hs : StepSpec cfg s l t) : AllCounted frames t := by
  obtain ⟨rd, h⟩ := h
  cases hs with
  | @put e f callers hc hq =>
      obtain ⟨hp, ha, hr, hw, hl⟩ := h e
      refine AllCounted.update h ⟨?_, ?_, hr, ?_, hl⟩
      · rw [hc] at hp
        rw [← hp]
        simp [Endpoint.sent, apps]
      · simpa [Endpoint.sent, ackBytes] using ha
      · simpa [Endpoint.AwaitsAck, Endpoint.unwritten, ackCount] using hw
  | @putAck e n hr' hq =>
      obtain ⟨hp, ha, hr, hw, hl⟩ := h e
      refine AllCounted.update h ⟨?_, ?_, ⟨hr.1, fun _ => hr.2 (by simp [hr'])⟩, ?_, hl⟩
      · simpa [Endpoint.sent, apps] using hp
      · simp only [hr', ReaderPc.holds] at ha
        simpa [Endpoint.sent, ackBytes, ReaderPc.holds, Nat.add_assoc] using ha
      · simp [Endpoint.AwaitsAck, Endpoint.unwritten, ackCount, hr', ReaderPc.awaited] at hw ⊢
        omega
  | @startSend e f queue hc hq =>
      obtain ⟨hp, ha, hr, hw, hl⟩ := h e
      refine AllCounted.update h ⟨?_, ?_, hr, ?_, ?_⟩
      · rw [hq] at hp
        rw [← hp]
        cases f <;> simp [Endpoint.sent, apps]
      · rw [hq] at ha
        cases f <;> simp [Endpoint.sent, ackBytes, Nat.add_assoc] at ha ⊢ <;> omega
      · simpa [Endpoint.AwaitsAck, Endpoint.unwritten, hc, hq] using hw
      · intro p hm
        rcases List.mem_append.1 hm with hm | hm
        · exact hl p hm
        · obtain rfl := List.mem_singleton.1 hm
          exact ⟨f.wireSize_pos, le_rfl⟩
  | @finishSend e f hc hu =>
      obtain ⟨hp, ha, hr, hw, hl⟩ := h e
      simp only [Endpoint.AwaitsAck, Endpoint.unwritten, hc, Option.toList_some,
        ackCount_append] at hw
      cases f with
      | app f => exact AllCounted.update h ⟨hp, ha, hr, by
          simpa [Endpoint.AwaitsAck, Endpoint.unwritten, afterSend, ackCount] using hw, hl⟩
      | ack n =>
          have hwt : (s e).reader = .waiting := by
            by_contra hne
            rw [ReaderPc.awaited_eq, if_neg hne] at hw
            simp [ackCount] at hw
          refine AllCounted.update h ⟨hp, ?_, ⟨hr.1, fun _ => hr.2 (by simp [hwt])⟩, ?_, hl⟩
          · simpa [Endpoint.sent, afterSend, hwt, ReaderPc.holds] using ha
          · simpa [Endpoint.AwaitsAck, Endpoint.unwritten, afterSend, ackCount, hwt, ReaderPc.awaited]
              using hw
  | @resumeReader e hr' =>
      obtain ⟨hp, ha, hr, hw, hl⟩ := h e
      refine AllCounted.update h ⟨hp, ?_, ⟨hr.1, by simp⟩, ?_, hl⟩
      · simpa [Endpoint.sent, hr', ReaderPc.holds] using ha
      · simpa [Endpoint.AwaitsAck, Endpoint.unwritten, hr', ReaderPc.awaited] using hw
  | @receivePart e n left f wire hr' hw hn hl =>
      exact AllCounted.update h ((h e.other).consume hw hl)
  | @receiveAll e n f wire hr' hw hn =>
      cases f with
      | app f =>
          obtain ⟨ho, hf⟩ := (h e.other).consumeApp hw
          rw [Side.other_other] at ho hf
          refine ⟨Function.update rd e (rd e + 1), Side.forall_of e ?_ ?_⟩
          · rw [Function.update_self, Function.update_self, Function.update_of_ne e.other_ne]
            exact (h e).answer hr' hf
          · rw [Side.other_other, Function.update_self, Function.update_of_ne e.other_ne,
              Function.update_of_ne e.other_ne, Function.update_self]
            exact ho
      | ack a =>
          refine ⟨rd, Side.forall_of e ?_ ?_⟩
          · rw [Function.update_self,
              show ({ s e with reader := afterFrame (.ack a) } : Endpoint) = s e by
                simp only [afterFrame, ← hr']]
            exact h e
          · rw [Function.update_of_ne e.other_ne, Function.update_self]
            exact (h e.other).consumeAck hw

/-- **The count in every run.** -/
theorem allCounted_of_reachable {cfg : Config} {frames : Side → List AppFrame} {s : Duplex}
    (h : Reachable (system cfg frames) s) : AllCounted frames s := by
  refine h.invariant (I := AllCounted frames) ?_ fun _ _ _ hi hs =>
    allCounted_step hi (stepSpec_of_step hs)
  rintro _ rfl
  exact ⟨fun _ => 0, fun e => counted_initial (frames e) (frames e.other)⟩

/-- No reader, writer or caller can move. -/
def Halted (cfg : Config) (s : Duplex) : Prop := ∀ l, step cfg s l = none

section Halted

variable {cfg : Config} {s : Duplex}

/-- A halted writer that has anything left to write waits in `drain()`. -/
theorem Halted.writer (h : Halted cfg s) {e : Side}
    (he : (s e).callers ≠ [] ∨ (s e).queue ≠ [] ∨ (s e).current ≠ none) :
    cfg.capacity e < (s e).unread := by
  have hcur : (s e).current ≠ none → cfg.capacity e < (s e).unread := by
    intro hc
    obtain ⟨f, hf⟩ := Option.ne_none_iff_exists'.1 hc
    have hl := h (.finishSend e)
    simpa [step, hf] using hl
  have hqueue : (s e).queue ≠ [] → (s e).current ≠ none := by
    intro hq hc
    obtain ⟨f, queue, hq⟩ := List.exists_cons_of_ne_nil hq
    have hl := h (.startSend e)
    simp [step, hc, hq] at hl
  rcases he with he | he | he
  · obtain ⟨f, callers, hc⟩ := List.exists_cons_of_ne_nil he
    have hl := h (.put e)
    refine hcur (hqueue fun hq => ?_)
    simp [step, hc, hq] at hl
    exact (cfg.maxOutboundQueue_pos e).ne' hl
  · exact hcur (hqueue he)
  · exact hcur he

/-- A halted reader is not in `receive_frame` while bytes are there. -/
theorem Halted.reader (h : Halted cfg s) {e : Side} (hp : ∀ p ∈ (s e).wire, 0 < p.left)
    (hw : (s e).wire ≠ []) : (s e.other).reader ≠ .receiving := by
  intro hr
  obtain ⟨⟨f, left⟩, wire, hw⟩ := List.exists_cons_of_ne_nil hw
  have hl := h (.receive e.other left)
  have hpos : 0 < left := hp ⟨f, left⟩ (by simp [hw])
  simp [step, hr, hw] at hl
  omega

/-- A halted reader that is not in `receive_frame` waits for the writer. -/
theorem Halted.waits (h : Halted cfg s) {e : Side} (ha : (s e).AwaitsAck)
    (hr : (s e).reader ≠ .receiving) : (s e).queue ≠ [] ∨ (s e).current ≠ none := by
  by_contra hne
  simp only [not_or, not_not] at hne
  cases hpc : (s e).reader with
  | receiving => exact hr hpc
  | putting n =>
      have hl := h (.putAck e)
      simp [step, hpc, hne.1] at hl
      exact (cfg.maxOutboundQueue_pos e).ne' hl
  | waiting => simp [Endpoint.AwaitsAck, Endpoint.unwritten, hne, hpc, ackCount,
      ReaderPc.awaited] at ha
  | written =>
      have hl := h (.resumeReader e)
      simp [step, hpc] at hl

/-- Where something is not read, something is on the wire. -/
theorem unread_pos {x : Endpoint} {n : ℕ} (h : n < x.unread) : x.wire ≠ [] := by
  rintro hw
  simp [Endpoint.unread, hw] at h

/-- **The shape of a deadlock.**  When two halted endpoints have frames left,
both writers wait in `drain()` and neither reader is reading. -/
theorem Halted.deadlock (h : Halted cfg s) (ha : ∀ e, (s e).AwaitsAck)
    (hp : ∀ e, ∀ p ∈ (s e).wire, 0 < p.left) (hu : Unfinished s) (e : Side) :
    cfg.capacity e < (s e).unread ∧ (s e).reader ≠ .receiving := by
  have hother : ∀ d, (s d).wire ≠ [] →
      cfg.capacity d.other < (s d.other).unread ∧ (s d.other).reader ≠ .receiving := by
    intro d hw
    have hr := h.reader (hp d) hw
    exact ⟨h.writer (Or.inr (h.waits (ha d.other) hr)), hr⟩
  obtain ⟨d, hd⟩ := hu
  have hw : (s d).wire ≠ [] := by
    rcases hd with hd | hd | hd | hd
    · exact unread_pos (h.writer (Or.inl hd))
    · exact unread_pos (h.writer (Or.inr (Or.inl hd)))
    · exact unread_pos (h.writer (Or.inr (Or.inr hd)))
    · exact hd
  have ho := hother d hw
  have hs := hother d.other (unread_pos ho.1)
  rw [Side.other_other] at hs
  exact Side.forall_of d (p := fun e => cfg.capacity e < (s e).unread ∧
    (s e).reader ≠ .receiving) hs ho e

end Halted

/-- **With room for the backlogs no run gets stuck.** -/
theorem not_stuck_of_backlogsFit {cfg : Config} {frames : Side → List AppFrame}
    (hfit : BacklogsFit cfg frames) {s : Duplex} (h : Reachable (system cfg frames) s) :
    ¬ Stuck cfg s := by
  rintro ⟨hu, hst⟩
  obtain ⟨rd, hc⟩ := allCounted_of_reachable h
  have hd := Halted.deadlock hst (fun e => (hc e).awaits)
    (fun e p hp => ((hc e).left p hp).1) hu
  have hrd : ∀ e, 1 ≤ rd e := fun e => (hc e).received.2 (hd e).2
  have hover : ∀ e, ¬ backlog frames e (rd e.other) (rd e) ≤ cfg.capacity e := fun e =>
    Nat.not_le.2 (lt_of_lt_of_le (hd e).1 (hc e).unread_le)
  rcases hfit (rd .b) (rd .a) (hrd .b) (hc .b).received.1 (hrd .a) (hc .a).received.1 with hfa | hfb
  · exact hover .a hfa
  · exact hover .b hfb

end AckDuplex
end Core
end Paqto
