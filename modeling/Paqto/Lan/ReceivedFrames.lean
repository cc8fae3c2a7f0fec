/-
# What successive receives make of a byte stream

The receiving end of `Lan.Connection` over a stream of given bytes (`stream`):
they arrive in pieces of any size while calls of `receive_frame` come and wait,
and nothing is cancelled, expires or closes the local side.  The bytes are frames
that `send_frame` wrote, and then nothing, the end of the stream in the middle of a
frame, or the header of a frame over the limit (`Tail`).  Every call is answered in
its turn by its frame, and the calls after the last frame by what the stream ends
with (`framing_exact`).
-/

import Paqto.Lan.Connection
import Mathlib.Algebra.Ring.Nat
import Mathlib.Data.List.Induction

namespace Paqto
namespace Lan
namespace Connection

open Transition Python

/-! ## The limit and the header -/

/-- What `validate_max_frame_size` raises of an integer. -/
inductive LimitError
  /-- "max_frame_size must be greater than zero." -/
  | notPositive
  /-- "max_frame_size cannot exceed 4,294,967,295 bytes." -/
  | tooLarge
  deriving DecidableEq, Repr

/-- `validate_max_frame_size` -/
def validateMaxFrameSize (maxFrameSize : ℤ) : Except LimitError Unit :=
  if maxFrameSize ≤ 0 then .error .notPositive
  else if maxFrameSize > maxUint32 then .error .tooLarge
  else .ok ()

/-- The limits that are accepted. -/
theorem validateMaxFrameSize_ok {n : ℤ} :
    validateMaxFrameSize n = .ok () ↔ 0 < n ∧ n ≤ maxUint32 := by
  unfold validateMaxFrameSize
  split
  · exact iff_of_false (by rintro ⟨⟩) (by omega)
  · split
    · exact iff_of_false (by rintro ⟨⟩) (by omega)
    · exact iff_of_true rfl (by omega)

/-- Two ends with one limit. -/
def Config.ofLimit (n : ℤ) (h : validateMaxFrameSize n = .ok ()) (hasDeadline timeoutCaught : Bool) :
    Config where
  sendLimit := n.toNat
  sendLimit_pos := by have := validateMaxFrameSize_ok.1 h; omega
  sendLimit_le := by have := validateMaxFrameSize_ok.1 h; omega
  receiveLimit := n.toNat
  receiveLimit_pos := by have := validateMaxFrameSize_ok.1 h; omega
  receiveLimit_le := by have := validateMaxFrameSize_ok.1 h; omega
  hasDeadline := hasDeadline
  timeoutCaught := timeoutCaught

/-- `n.to_bytes(HEADER_SIZE, "big", signed=False)`; `none` is its
`OverflowError`. -/
def toBytes (n : ℕ) : Option Bytes := if n < 256 ^ headerSize then some (header n) else none

/-- A length that a header can hold. -/
theorem toBytes_of_le {n : ℕ} (h : n ≤ maxUint32) : toBytes n = some (header n) := by
  have hlt : n < 256 ^ headerSize := by
    unfold maxUint32 at h
    unfold headerSize
    omega
  exact if_pos hlt

/-- `send_frame` of one payload after the other. -/
def sendAll (config : Config) (payloads : List Bytes) : Link :=
  payloads.foldl (fun s data => s.sendFrame config data) initial

/-! ## The receiving end of a stream -/

/-- An end that has just been connected, with the bytes it will be sent, and
whether the stream ends after them. -/
def stream (bytes : Bytes) (ends : Bool) : Link := { initial with wire := bytes, lost := ends }

/-- What happens at the receiving end: bytes arrive, the stream ends, a call is
made, a call goes on. -/
inductive Receiving : Label → Prop
  | arrive (n : ℕ) : Receiving (.arrive n)
  | feedEof : Receiving .feedEof
  | receive (k : ℕ) : Receiving (.receive k)
  | resume : Receiving .resume

/-- The calls of `receive_frame` in a run. -/
def calls (ls : List Label) : List ℕ :=
  ls.filterMap fun
    | .receive k => some k
    | _ => none

/-- What comes after the whole frames of a stream. -/
inductive Tail
  /-- Nothing, and the stream stays open. -/
  | silent
  /-- A frame that is cut, or nothing, and the end of the stream. -/
  | eof
  /-- The header of a frame over the limit. -/
  | oversized (size : ℕ)

/-- How the call number `i` ends. -/
def Answer (limit : ℕ) (payloads : List Bytes) (tail : Tail) (i : ℕ) (outcome : Outcome) : Prop :=
  match payloads[i]? with
  | some p => outcome = .returned p
  | none =>
      match tail with
      | .silent => False
      | .eof => outcome = .raised .closed ∨ outcome = .raised .incomplete
      | .oversized size =>
          outcome = if i = payloads.length then .raised (.oversized size limit) else .raised .closed

/-- All bytes are there, with the end of the stream if it ends, and no call can
go on. -/
structure Stuck (config : Config) (ends : Bool) (s : Link) : Prop where
  wire : s.wire = []
  eof : ends = true → s.eof = true
  resume : s.resume config = none

/-- How far the calls that were made are from their end. -/
def HolderPc.left : HolderPc → ℕ
  | acquired => 4
  | readingHeader => 3
  | readingPayload _ => 2
  | closing _ => 1

/-- The waits that the calls have left. -/
def Link.left (s : Link) : ℕ :=
  4 * s.waiters.length + (s.holder.map fun h => h.2.left).getD 0

/-- **The calls get what the stream holds**, in every run over it. -/
structure Exact (config : Config) (bytes : Bytes) (ends : Bool) (payloads : List Bytes)
    (tail : Tail) : Prop where
  /-- The calls end in the order in which they were made, each with its answer. -/
  answers : ∀ ls s, (∀ l ∈ ls, Receiving l) → exec (step config) (stream bytes ends) ls = some s →
    ∀ i k outcome, s.outcomes[i]? = some (k, outcome) →
      (calls ls)[i]? = some k ∧ Answer config.receiveLimit payloads tail i outcome
  returned : ∀ ls s, (∀ l ∈ ls, Receiving l) → exec (step config) (stream bytes ends) ls = some s →
    s.returned = payloads.take s.outcomes.length
  /-- Every call that has an answer gets it. -/
  complete : ∀ ls s, (∀ l ∈ ls, Receiving l) → exec (step config) (stream bytes ends) ls = some s →
    Stuck config ends s → ∀ i < (calls ls).length,
      (∃ outcome, Answer config.receiveLimit payloads tail i outcome) → i < s.outcomes.length
  /-- After a frame over the limit the connection is closed. -/
  closed : ∀ ls s, (∀ l ∈ ls, Receiving l) → exec (step config) (stream bytes ends) ls = some s →
    ∀ size, tail = .oversized size → payloads.length < s.outcomes.length →
      s.closed = true ∧ s.writerClosing = true

/-! ## Where the receiving end stands -/

section Stands

variable (limit : ℕ) (payloads : List Bytes) (rest : Bytes) (tail : Tail) (ends : Bool)

/-- What comes after the frames is what the tail says. -/
def RestOf : Prop :=
  match tail with
  | .silent => rest = [] ∧ ends = false
  | .eof => ends = true ∧ ∃ p, p.length ≤ limit ∧ rest <+: frame p ∧ rest ≠ frame p
  | .oversized size => limit < size ∧ size ≤ maxUint32 ∧ ∃ more, rest = header size ++ more

/-- No call reads or closes. -/
def Link.Idle (s : Link) : Prop := ∀ k pc, s.holder = some (k, pc) → pc = .acquired

/-- Where the receiving end stands in its stream. -/
inductive Stage (s : Link) : Prop
  /-- Between two frames, or in the header of one. -/
  | header (done ahead : List Bytes) : payloads = done ++ ahead → s.outcomes.length = done.length →
      s.closed = false → s.writerClosing = false → s.buffer ++ s.wire = frames ahead ++ rest →
      (∀ k pc, s.holder = some (k, pc) → pc = .acquired ∨ pc = .readingHeader) → Stage s
  /-- In the payload of a frame. -/
  | payload (done ahead : List Bytes) (p : Bytes) (k : ℕ) : payloads = done ++ p :: ahead →
      s.outcomes.length = done.length → s.closed = false → s.writerClosing = false →
      s.buffer ++ s.wire = p ++ (frames ahead ++ rest) →
      s.holder = some (k, .readingPayload p.length) → Stage s
  /-- In a payload that is cut. -/
  | short (size k : ℕ) : tail = .eof → s.outcomes.length = payloads.length →
      (s.buffer ++ s.wire).length < size → s.holder = some (k, .readingPayload size) → Stage s
  /-- Closing because of a frame over the limit. -/
  | refusing (size k : ℕ) : tail = .oversized size → s.outcomes.length = payloads.length →
      s.closed = true → s.writerClosing = true →
      s.holder = some (k, .closing (.oversized size limit)) → Stage s
  /-- Closed. -/
  | finished : tail ≠ .silent → payloads.length ≤ s.outcomes.length → s.isClosed = true →
      (∀ size, tail = .oversized size → payloads.length < s.outcomes.length ∧
        s.closed = true ∧ s.writerClosing = true) → s.Idle → Stage s

/-- What every step keeps. -/
structure Steady (s : Link) : Prop where
  working : s.failed = false
  lost : s.lost = ends
  ended : s.eof = true → ends = true ∧ s.wire = []
  answered : ∀ i k outcome, s.outcomes[i]? = some (k, outcome) →
    Answer limit payloads tail i outcome

/-- **The invariant of a run** in which `called` were called. -/
structure Serving (called : List ℕ) (s : Link) : Prop where
  steady : Steady limit payloads tail ends s
  order : s.outcomes.map Prod.fst ++ ((s.holder.map Prod.fst).toList ++ s.waiters) = called
  idle : s.holder = none → s.waiters = []
  stage : Stage limit payloads rest tail s

end Stands

variable {config : Config} {payloads : List Bytes} {rest : Bytes} {tail : Tail} {ends : Bool}
  {called : List ℕ} {s t : Link} {k : ℕ}

/-- **What a read of so many bytes gives.** -/
theorem readExactly_cases (hworking : s.failed = false) (n : ℕ) :
    (n ≤ s.buffer.length ∧ s.readExactly n = .data (s.buffer.take n)) ∨
      (s.buffer.length < n ∧ s.eof = true ∧ s.readExactly n = .incomplete) ∨
      s.buffer.length < n ∧ s.eof = false ∧ s.readExactly n = .wait := by
  unfold Link.readExactly
  rw [hworking]
  by_cases hn : n = 0
  · exact Or.inl ⟨by omega, by simp [hn]⟩
  · by_cases hle : n ≤ s.buffer.length
    · exact Or.inl ⟨hle, by simp [hn, hle]⟩
    · cases heof : s.eof with
      | true => exact Or.inr (Or.inl ⟨by omega, rfl, by simp [hn, hle]⟩)
      | false => exact Or.inr (Or.inr ⟨by omega, rfl, by simp [hn, hle]⟩)

/-- A call that ends leaves the lock. -/
theorem idle_finish (s : Link) (k : ℕ) (o : Outcome) : (s.finish k o).Idle := by
  intro i pc h
  simp only [Link.finish, Option.map_eq_some_iff, Prod.mk.injEq] at h
  obtain ⟨_, _, _, rfl⟩ := h
  rfl

/-- A call ends with its answer. -/
theorem serving_finish {o : Outcome} (hsteady : Steady config.receiveLimit payloads tail ends s)
    (horder : s.outcomes.map Prod.fst ++ k :: s.waiters = called)
    (hanswer : Answer config.receiveLimit payloads tail s.outcomes.length o)
    (hstage : Stage config.receiveLimit payloads rest tail (s.finish k o)) :
    Serving config.receiveLimit payloads rest tail ends called (s.finish k o) where
  steady :=
    { working := hsteady.working
      lost := hsteady.lost
      ended := hsteady.ended
      answered := by
        intro i j outcome hi
        rw [Link.finish, List.getElem?_append] at hi
        split at hi
        · exact hsteady.answered i j outcome hi
        · next hle =>
            obtain ⟨hlast, heq⟩ := List.getElem?_eq_some_iff.1 hi
            rw [List.length_singleton] at hlast
            have hi0 : i = s.outcomes.length := by omega
            subst hi0
            simp only [Nat.sub_self, List.getElem_cons_zero, Prod.mk.injEq] at heq
            exact heq.2 ▸ hanswer }
  order := by
    rw [← horder]
    cases hw : s.waiters <;> simp [Link.finish, hw]
  idle := by
    intro hnone
    cases hw : s.waiters with
    | nil => simp [Link.finish, hw]
    | cons j w => simp [Link.finish, hw] at hnone
  stage := hstage

/-- The next frame. -/
theorem answer_payload {limit : ℕ} {done ahead : List Bytes} {p : Bytes} {i : ℕ}
    (hp : payloads = done ++ p :: ahead) (hi : i = done.length) :
    Answer limit payloads tail i (.returned p) := by
  subst hp hi
  simp [Answer]

/-- The end of the stream. -/
theorem answer_eof {limit : ℕ} {i : ℕ} {o : Outcome} (htail : tail = .eof)
    (hi : payloads.length ≤ i) (ho : o = .raised .closed ∨ o = .raised .incomplete) :
    Answer limit payloads tail i o := by
  subst htail
  rw [Answer, List.getElem?_eq_none hi]
  exact ho

/-- A frame that is too large. -/
theorem answer_oversized {limit size : ℕ} {i : ℕ} (htail : tail = .oversized size)
    (hi : i = payloads.length) :
    Answer limit payloads tail i (.raised (.oversized size limit)) := by
  subst htail hi
  simp [Answer]

/-- A connection that was closed. -/
theorem answer_closed {limit : ℕ} {i : ℕ} (hsilent : tail ≠ .silent) (hi : payloads.length ≤ i)
    (hover : ∀ size, tail = .oversized size → payloads.length < i) :
    Answer limit payloads tail i (.raised .closed) := by
  cases tail with
  | silent => exact absurd rfl hsilent
  | eof => exact answer_eof rfl hi (Or.inl rfl)
  | oversized size =>
      have hlt := hover size rfl
      have hne : i ≠ payloads.length := by omega
      simp [Answer, List.getElem?_eq_none hi, hne]

/-- A read that fails at the end of the stream. -/
theorem serving_incomplete (hsteady : Steady config.receiveLimit payloads tail ends s)
    (horder : s.outcomes.map Prod.fst ++ k :: s.waiters = called) (htail : tail = .eof)
    (hlen : s.outcomes.length = payloads.length) :
    Serving config.receiveLimit payloads rest tail ends called
      ({ s with buffer := [] }.failRead k .incomplete) := by
  refine serving_finish
    { working := hsteady.working
      lost := hsteady.lost
      ended := hsteady.ended
      answered := hsteady.answered } horder (answer_eof htail (Nat.le_of_eq hlen.symm) (Or.inr rfl))
    (.finished (by rw [htail]; rintro ⟨⟩) ?_ ?_ ?_ (idle_finish _ _ _))
  · simp [Link.finish, hlen]
  · simp [Link.isClosed, Link.finish]
  · intro size hsize
    rw [htail] at hsize
    cases hsize

/-- A header begins the frame it is in. -/
theorem header_of_prefix {p rest : Bytes} (h : rest <+: frame p) (hne : rest ≠ frame p)
    (hlen : headerSize ≤ rest.length) :
    ∃ part, rest = header p.length ++ part ∧ part.length < p.length := by
  obtain ⟨more, hmore⟩ := h
  have htake := congrArg (List.take headerSize) hmore
  have hlength := congrArg List.length hmore
  rw [List.take_append_of_le_length hlen, frame, List.take_left' (length_header _)] at htake
  refine ⟨rest.drop headerSize, ?_, ?_⟩
  · rw [← htake, List.take_append_drop]
  · have hpos : more ≠ [] := by
      rintro rfl
      rw [List.append_nil] at hmore
      exact hne hmore
    have := List.length_pos_iff.2 hpos
    simp only [List.length_append, length_frame, List.length_drop] at hlength ⊢
    omega

/-- **A header is read**: that of the next frame, or what the stream ends with. -/
theorem serving_readHeader (hfits : ∀ p ∈ payloads, p.length ≤ config.receiveLimit)
    (hrest : RestOf config.receiveLimit rest tail ends)
    (hsteady : Steady config.receiveLimit payloads tail ends s)
    (horder : s.outcomes.map Prod.fst ++ k :: s.waiters = called) {done ahead : List Bytes}
    (hsplit : payloads = done ++ ahead) (hdone : s.outcomes.length = done.length)
    (hclosed : s.closed = false) (hwriter : s.writerClosing = false)
    (hbytes : s.buffer ++ s.wire = frames ahead ++ rest) :
    Serving config.receiveLimit payloads rest tail ends called (s.readHeader config k) := by
  obtain ⟨hlen, hread⟩ | ⟨hlen, heof, hread⟩ | ⟨hlen, heof, hread⟩ :=
    readExactly_cases hsteady.working headerSize
  · simp only [Link.readHeader, hread]
    have htake : s.buffer.take headerSize = (frames ahead ++ rest).take headerSize := by
      rw [← hbytes, List.take_append_of_le_length hlen]
    have hdrop : s.buffer.drop headerSize ++ s.wire = (frames ahead ++ rest).drop headerSize := by
      rw [← hbytes, List.drop_append_of_le_length hlen]
    have hsteady' : ∀ holder, Steady config.receiveLimit payloads tail ends
        { s.consume headerSize with holder := holder } := fun _ =>
      { working := hsteady.working
        lost := hsteady.lost
        ended := hsteady.ended
        answered := hsteady.answered }
    cases ahead with
    | cons p ahead =>
        have hp : p.length ≤ config.receiveLimit := hfits p (by simp [hsplit])
        have hbegin : frames (p :: ahead) ++ rest = header p.length ++ (p ++ (frames ahead ++ rest)) := by
          simp [frame]
        rw [hbegin, List.take_left' (length_header _)] at htake
        rw [hbegin, List.drop_left' (length_header _)] at hdrop
        rw [htake, fromBytes_header (hp.trans config.receiveLimit_le), Link.gotHeader,
          if_neg (Nat.not_lt.2 hp)]
        exact
          { steady := hsteady' _
            order := horder
            idle := by rintro ⟨⟩
            stage := .payload done ahead p k hsplit hdone hclosed hwriter hdrop rfl }
    | nil =>
        have hall : s.outcomes.length = payloads.length := by simp [hsplit, hdone]
        rw [frames_nil, List.nil_append] at htake hdrop
        have hrestlen : headerSize ≤ rest.length := by
          have := congrArg List.length hbytes
          simp only [frames_nil, List.nil_append, List.length_append] at this
          omega
        unfold RestOf at hrest
        cases tail with
        | silent =>
            rw [hrest.1] at hrestlen
            exact absurd hrestlen (by decide)
        | eof =>
            obtain ⟨-, p, hp, hprefix, hne⟩ := hrest
            obtain ⟨part, rfl, hpart⟩ := header_of_prefix hprefix hne hrestlen
            rw [List.take_left' (length_header _)] at htake
            rw [List.drop_left' (length_header _)] at hdrop
            rw [htake, fromBytes_header (hp.trans config.receiveLimit_le), Link.gotHeader,
              if_neg (Nat.not_lt.2 hp)]
            exact
              { steady := hsteady' _
                order := horder
                idle := by rintro ⟨⟩
                stage := .short p.length k rfl hall (by
                  show (s.buffer.drop headerSize ++ s.wire).length < p.length
                  rw [hdrop]
                  exact hpart) rfl }
        | oversized size =>
            obtain ⟨hover, hsize, more, rfl⟩ := hrest
            rw [List.take_left' (length_header _)] at htake
            rw [htake, fromBytes_header hsize, Link.gotHeader, if_pos hover]
            exact
              { steady :=
                  { working := hsteady.working
                    lost := hsteady.lost
                    ended := hsteady.ended
                    answered := hsteady.answered }
                order := horder
                idle := by rintro ⟨⟩
                stage := .refusing size k rfl hall rfl rfl rfl }
  · simp only [Link.readHeader, hread]
    obtain ⟨hends, hwire⟩ := hsteady.ended heof
    have hshort : (frames ahead ++ rest).length < headerSize := by
      rw [← hbytes, hwire, List.append_nil]
      exact hlen
    cases ahead with
    | cons p ahead =>
        simp only [frames_cons, List.length_append, length_frame] at hshort
        omega
    | nil =>
        have hall : s.outcomes.length = payloads.length := by simp [hsplit, hdone]
        refine serving_incomplete hsteady horder ?_ hall
        unfold RestOf at hrest
        cases tail with
        | silent =>
            rw [hends] at hrest
            cases hrest.2
        | eof => rfl
        | oversized size =>
            obtain ⟨-, -, more, rfl⟩ := hrest
            simp only [frames_nil, List.nil_append, List.length_append, length_header] at hshort
            omega
  · simp only [Link.readHeader, hread]
    exact
      { steady :=
          { working := hsteady.working
            lost := hsteady.lost
            ended := hsteady.ended
            answered := hsteady.answered }
        order := horder
        idle := by rintro ⟨⟩
        stage := .header done ahead hsplit hdone hclosed hwriter hbytes fun i pc hi => by
          cases hi
          exact Or.inr rfl }

/-- No whole frame is left when the stream has ended and nothing is buffered. -/
theorem eof_of_empty (hrest : RestOf config.receiveLimit rest tail ends) (hends : ends = true)
    {ahead : List Bytes} (hbytes : [] = frames ahead ++ rest) : ahead = [] ∧ tail = .eof := by
  have hlen := congrArg List.length hbytes
  simp only [List.length_nil, List.length_append] at hlen
  constructor
  · cases ahead with
    | nil => rfl
    | cons p ahead =>
        simp only [frames_cons, List.length_append, length_frame, headerSize] at hlen
        omega
  · unfold RestOf at hrest
    cases tail with
    | silent =>
        rw [hends] at hrest
        cases hrest.2
    | eof => rfl
    | oversized size =>
        obtain ⟨-, -, more, rfl⟩ := hrest
        simp only [List.length_append, length_header, headerSize] at hlen
        omega

/-- **A call gets the lock.** -/
theorem serving_enter (hfits : ∀ p ∈ payloads, p.length ≤ config.receiveLimit)
    (hrest : RestOf config.receiveLimit rest tail ends)
    (hsteady : Steady config.receiveLimit payloads tail ends s)
    (hstage : Stage config.receiveLimit payloads rest tail s) (hidle : s.Idle)
    (horder : s.outcomes.map Prod.fst ++ k :: s.waiters = called) :
    Serving config.receiveLimit payloads rest tail ends called (s.enter config k) := by
  cases hstage with
  | payload _ _ _ i _ _ _ _ _ hi => cases hidle _ _ hi
  | short _ i _ _ _ hi => cases hidle _ _ hi
  | refusing _ i _ _ _ _ hi => cases hidle _ _ hi
  | finished hsilent hle hclosed hover _ =>
      rw [Link.enter, if_pos hclosed]
      refine serving_finish hsteady horder
        (answer_closed hsilent hle fun size hsize => (hover size hsize).1)
        (.finished hsilent ?_ hclosed (fun size hsize => ?_) (idle_finish _ _ _))
      · simp only [Link.finish, List.length_append, List.length_singleton]
        omega
      · obtain ⟨hlt, hflags⟩ := hover size hsize
        refine ⟨?_, hflags⟩
        simp only [Link.finish, List.length_append, List.length_singleton]
        omega
  | header done ahead hsplit hdone hclosed hwriter hbytes _ =>
      unfold Link.enter
      split
      · next hisClosed =>
          have hend : s.eof = true ∧ s.buffer = [] := by
            simpa [Link.isClosed, hclosed, hwriter] using hisClosed
          obtain ⟨hends, hwire⟩ := hsteady.ended hend.1
          rw [hend.2, hwire, List.append_nil] at hbytes
          obtain ⟨rfl, htail⟩ := eof_of_empty hrest hends hbytes
          have hall : s.outcomes.length = payloads.length := by simp [hsplit, hdone]
          refine serving_finish hsteady horder
            (answer_eof htail (Nat.le_of_eq hall.symm) (Or.inl rfl))
            (.finished (by rw [htail]; rintro ⟨⟩) ?_ hisClosed (fun size hsize => ?_)
              (idle_finish _ _ _))
          · simp only [Link.finish, List.length_append, List.length_singleton]
            omega
          · rw [htail] at hsize
            cases hsize
      · exact serving_readHeader hfits hrest hsteady horder hsplit hdone hclosed hwriter hbytes

/-- The call that has the lock comes next. -/
theorem Serving.next {pc : HolderPc}
    (h : Serving config.receiveLimit payloads rest tail ends called s)
    (hk : s.holder = some (k, pc)) : s.outcomes.map Prod.fst ++ k :: s.waiters = called := by
  have horder := h.order
  rw [hk] at horder
  exact horder

/-- **A payload is read**: it is that of the frame, or the stream has ended in it. -/
theorem serving_readPayload {size : ℕ}
    (h : Serving config.receiveLimit payloads rest tail ends called s)
    (hk : s.holder = some (k, .readingPayload size)) (ht : s.resume config = some t) :
    Serving config.receiveLimit payloads rest tail ends called t := by
  have hsteady := h.steady
  have horder := h.next hk
  simp only [Link.resume, hk] at ht
  cases h.stage with
  | header _ _ _ _ _ _ _ hpc =>
      obtain hpc | hpc := hpc k _ hk
      · cases hpc
      · cases hpc
  | refusing _ i _ _ _ _ hi =>
      rw [hk] at hi
      cases hi
  | finished _ _ _ _ hidle => cases hidle k _ hk
  | payload done ahead p i hsplit hdone hclosed hwriter hbytes hi =>
      rw [hk] at hi
      cases hi
      obtain ⟨hlen, hread⟩ | ⟨hlen, heof, hread⟩ | ⟨hlen, heof, hread⟩ :=
        readExactly_cases hsteady.working p.length
      · have htake : s.buffer.take p.length = p := by
          rw [← List.take_append_of_le_length hlen, hbytes, List.take_left]
        have hdrop : s.buffer.drop p.length ++ s.wire = frames ahead ++ rest := by
          rw [← List.drop_append_of_le_length hlen, hbytes, List.drop_left]
        rw [hread, htake] at ht
        cases ht
        refine serving_finish
          { working := hsteady.working
            lost := hsteady.lost
            ended := hsteady.ended
            answered := hsteady.answered } horder (answer_payload hsplit hdone)
          (.header (done ++ [p]) ahead (by simp [hsplit]) ?_ hclosed hwriter hdrop
            fun j pc hj => Or.inl (idle_finish _ _ _ j pc hj))
        simp only [Link.finish, Link.consume, List.length_append, List.length_singleton, hdone]
      · obtain ⟨-, hwire⟩ := hsteady.ended heof
        have := congrArg List.length hbytes
        simp only [hwire, List.append_nil, List.length_append] at this
        omega
      · rw [hread] at ht
        cases ht
  | short size' i htail hall hlen hi =>
      rw [hk] at hi
      cases hi
      rw [List.length_append] at hlen
      obtain ⟨hle, hread⟩ | ⟨-, heof, hread⟩ | ⟨-, heof, hread⟩ :=
        readExactly_cases hsteady.working size
      · omega
      · rw [hread] at ht
        cases ht
        exact serving_incomplete hsteady horder htail hall
      · rw [hread] at ht
        cases ht

/-- **A call goes on.** -/
theorem serving_resume (hfits : ∀ p ∈ payloads, p.length ≤ config.receiveLimit)
    (hrest : RestOf config.receiveLimit rest tail ends)
    (h : Serving config.receiveLimit payloads rest tail ends called s)
    (ht : s.resume config = some t) :
    Serving config.receiveLimit payloads rest tail ends called t := by
  cases hholder : s.holder with
  | none =>
      simp only [Link.resume, hholder] at ht
      cases ht
  | some holder =>
      obtain ⟨k, pc⟩ := holder
      have horder := h.next hholder
      cases pc with
      | acquired =>
          simp only [Link.resume, hholder, Option.some.injEq] at ht
          subst ht
          refine serving_enter hfits hrest h.steady h.stage (fun i pc hi => ?_) horder
          rw [hholder] at hi
          cases hi
          rfl
      | readingHeader =>
          have ht' : t = s.readHeader config k := by
            simp only [Link.resume, hholder] at ht
            split at ht
            · cases ht
            · exact (Option.some.inj ht).symm
          subst ht'
          cases h.stage with
          | header done ahead hsplit hdone hclosed hwriter hbytes _ =>
              exact serving_readHeader hfits hrest h.steady horder hsplit hdone hclosed hwriter hbytes
          | payload _ _ _ i _ _ _ _ _ hi =>
              rw [hholder] at hi
              cases hi
          | short _ i _ _ _ hi =>
              rw [hholder] at hi
              cases hi
          | refusing _ i _ _ _ _ hi =>
              rw [hholder] at hi
              cases hi
          | finished _ _ _ _ hidle => cases hidle k _ hholder
      | readingPayload size => exact serving_readPayload h hholder ht
      | closing e =>
          simp only [Link.resume, hholder, Option.some.injEq] at ht
          subst ht
          cases h.stage with
          | header _ _ _ _ _ _ _ hpc =>
              obtain hpc | hpc := hpc k _ hholder
              · cases hpc
              · cases hpc
          | payload _ _ _ i _ _ _ _ _ hi =>
              rw [hholder] at hi
              cases hi
          | short _ i _ _ _ hi =>
              rw [hholder] at hi
              cases hi
          | finished _ _ _ _ hidle => cases hidle k _ hholder
          | refusing size i htail hall hclosed hwriter hi =>
              rw [hholder] at hi
              cases hi
              refine serving_finish h.steady horder (answer_oversized htail hall)
                (.finished (by rw [htail]; rintro ⟨⟩) ?_ ?_ (fun size _ => ⟨?_, hclosed, hwriter⟩)
                  (idle_finish _ _ _))
              · simp only [Link.finish, List.length_append, List.length_singleton]
                omega
              · simp [Link.isClosed, Link.finish, hclosed]
              · simp only [Link.finish, List.length_append, List.length_singleton]
                omega

/-- Bytes move from the wire to the buffer, or the end of the stream is seen. -/
theorem Stage.moves (h : Stage config.receiveLimit payloads rest tail s)
    (hbytes : t.buffer ++ t.wire = s.buffer ++ s.wire) (houtcomes : t.outcomes = s.outcomes)
    (hclosed : t.closed = s.closed) (hwriter : t.writerClosing = s.writerClosing)
    (hholder : t.holder = s.holder) (hisClosed : s.isClosed = true → t.isClosed = true) :
    Stage config.receiveLimit payloads rest tail t := by
  cases h with
  | header done ahead hsplit hdone hc hw hb hpc =>
      refine .header done ahead hsplit (houtcomes ▸ hdone) (hclosed.trans hc) (hwriter.trans hw)
        (hbytes.trans hb) fun k pc hk => hpc k pc ?_
      rw [← hholder]
      exact hk
  | payload done ahead p k hsplit hdone hc hw hb hk =>
      exact .payload done ahead p k hsplit (houtcomes ▸ hdone) (hclosed.trans hc) (hwriter.trans hw)
        (hbytes.trans hb) (hholder.trans hk)
  | short size k htail hall hlen hk =>
      exact .short size k htail (houtcomes ▸ hall) (hbytes ▸ hlen) (hholder.trans hk)
  | refusing size k htail hall hc hw hk =>
      exact .refusing size k htail (houtcomes ▸ hall) (hclosed.trans hc) (hwriter.trans hw)
        (hholder.trans hk)
  | finished hsilent hle hc hover hidle =>
      refine .finished hsilent (houtcomes ▸ hle) (hisClosed hc) (fun size hsize => ?_) fun k pc hk => ?_
      · rw [houtcomes, hclosed, hwriter]
        exact hover size hsize
      · exact hidle k pc (hholder ▸ hk)

/-- **One step serves the calls in their turn.** -/
theorem serving_step (hfits : ∀ p ∈ payloads, p.length ≤ config.receiveLimit)
    (hrest : RestOf config.receiveLimit rest tail ends)
    (h : Serving config.receiveLimit payloads rest tail ends called s) {l : Label}
    (hl : Receiving l) (ht : step config s l = some t) :
    Serving config.receiveLimit payloads rest tail ends (called ++ calls [l]) t := by
  have hsteady := h.steady
  cases hl with
  | arrive n =>
      simp only [step] at ht
      split at ht <;> cases ht
      next heof =>
        have hcalls : called ++ calls [.arrive n] = called := List.append_nil called
        rw [hcalls]
        exact
          { steady :=
              { working := hsteady.working
                lost := hsteady.lost
                ended := fun he => absurd he heof
                answered := hsteady.answered }
            order := h.order
            idle := h.idle
            stage := h.stage.moves (by simp) rfl rfl rfl rfl fun hc => by
              simpa [Link.isClosed, heof] using hc }
  | feedEof =>
      simp only [step] at ht
      split at ht <;> cases ht
      next hcond =>
        have hcalls : called ++ calls [.feedEof] = called := List.append_nil called
        rw [hcalls]
        exact
          { steady :=
              { working := hsteady.working
                lost := hsteady.lost
                ended := fun _ => ⟨hsteady.lost ▸ hcond.1, hcond.2⟩
                answered := hsteady.answered }
            order := h.order
            idle := h.idle
            stage := h.stage.moves rfl rfl rfl rfl rfl fun hc => by
              simp only [Link.isClosed, Bool.or_eq_true, Bool.and_eq_true] at hc ⊢
              exact hc.imp_right fun hc => ⟨trivial, hc.2⟩ }
  | receive k =>
      simp only [step] at ht
      have hcalls : calls [.receive k] = [k] := rfl
      rw [hcalls]
      split at ht <;> cases ht
      · next hnone =>
          have hwaiters := h.idle hnone
          have horder := h.order
          rw [hnone, hwaiters] at horder
          simp only [Option.map_none, Option.toList_none, List.append_nil] at horder
          refine serving_enter hfits hrest hsteady h.stage (fun i pc hi => ?_) ?_
          · rw [hnone] at hi
            cases hi
          · rw [horder, hwaiters]
      · next holder hholder =>
          exact
            { steady :=
                { working := hsteady.working
                  lost := hsteady.lost
                  ended := hsteady.ended
                  answered := hsteady.answered }
              order := by
                rw [← h.order]
                simp
              idle := fun hnone => by
                rw [hholder] at hnone
                cases hnone
              stage := h.stage.moves rfl rfl rfl rfl rfl id }
  | resume =>
      have hcalls : called ++ calls [.resume] = called := List.append_nil called
      rw [hcalls]
      exact serving_resume hfits hrest h ht

/-- **A run serves the calls in their turn.** -/
theorem serving_exec (hfits : ∀ p ∈ payloads, p.length ≤ config.receiveLimit)
    (hrest : RestOf config.receiveLimit rest tail ends) {ls : List Label}
    (h : Serving config.receiveLimit payloads rest tail ends called s)
    (hl : ∀ l ∈ ls, Receiving l) (ht : exec (step config) s ls = some t) :
    Serving config.receiveLimit payloads rest tail ends (called ++ calls ls) t := by
  induction ls generalizing s called with
  | nil =>
      cases ht
      rwa [calls, List.filterMap_nil, List.append_nil]
  | cons l ls ih =>
      obtain ⟨u, hu, ht⟩ := Option.bind_eq_some_iff.1 ht
      have hstep := serving_step hfits hrest h (hl l List.mem_cons_self) hu
      have hrun := ih hstep (fun m hm => hl m (List.mem_cons_of_mem l hm)) ht
      have hcalls : calls (l :: ls) = calls [l] ++ calls ls := List.filterMap_append (l := [l])
      rwa [hcalls, ← List.append_assoc]

/-! ## From the start of a stream -/

/-- Before the first call. -/
theorem serving_stream : Serving config.receiveLimit payloads rest tail ends []
    (stream (frames payloads ++ rest) ends) where
  steady :=
    { working := rfl
      lost := rfl
      ended := by rintro ⟨⟩
      answered := by
        intro i k o hi
        cases hi }
  order := rfl
  idle _ := rfl
  stage := .header [] payloads rfl rfl rfl rfl rfl fun _ _ h => by cases h

/-- What was returned are the first payloads. -/
theorem returned_of_answered {limit : ℕ}
    (h : ∀ i k o, s.outcomes[i]? = some (k, o) → Answer limit payloads tail i o) :
    s.returned = payloads.take s.outcomes.length := by
  unfold Link.returned
  generalize s.outcomes = outcomes at h
  induction outcomes using List.reverseRecOn with
  | nil => rfl
  | append_singleton outcomes last ih =>
      obtain ⟨k, o⟩ := last
      have hlast := h outcomes.length k o (by simp)
      have hinit := ih fun i j o' hi => h i j o' (by
        rw [List.getElem?_append_left (List.getElem?_eq_some_iff.1 hi).1]
        exact hi)
      rw [List.filterMap_append, hinit, List.length_append, List.length_singleton, List.take_add_one]
      unfold Answer at hlast
      cases hp : payloads[outcomes.length]? with
      | some p =>
          rw [hp] at hlast
          simp [hlast]
      | none =>
          rw [hp] at hlast
          cases tail with
          | silent => cases hlast
          | eof =>
              obtain rfl | rfl := hlast
              · simp
              · simp
          | oversized size =>
              simp only at hlast
              split at hlast <;> simp [hlast]

/-- A call that cannot go on waits for bytes of a stream that has not ended. -/
theorem blocked_of_resume {pc : HolderPc} (hworking : s.failed = false)
    (hk : s.holder = some (k, pc)) (hnone : s.resume config = none) :
    s.eof = false ∧ (pc = .readingHeader ∧ s.buffer.length < headerSize ∨
      ∃ size, pc = .readingPayload size ∧ s.buffer.length < size) := by
  cases pc with
  | acquired =>
      simp only [Link.resume, hk] at hnone
      cases hnone
  | closing e =>
      simp only [Link.resume, hk] at hnone
      cases hnone
  | readingHeader =>
      simp only [Link.resume, hk] at hnone
      obtain ⟨_, hread⟩ | ⟨_, _, hread⟩ | ⟨hlen, heof, _⟩ := readExactly_cases hworking headerSize
      · rw [hread] at hnone
        cases hnone
      · rw [hread] at hnone
        cases hnone
      · exact ⟨heof, Or.inl ⟨rfl, hlen⟩⟩
  | readingPayload size =>
      simp only [Link.resume, hk] at hnone
      obtain ⟨_, hread⟩ | ⟨_, _, hread⟩ | ⟨hlen, heof, _⟩ := readExactly_cases hworking size
      · rw [hread] at hnone
        cases hnone
      · rw [hread] at hnone
        cases hnone
      · exact ⟨heof, Or.inr ⟨size, rfl, hlen⟩⟩

/-- **No call waits for an answer that is there.** -/
theorem answered_of_stuck (hrest : RestOf config.receiveLimit rest tail ends)
    (h : Serving config.receiveLimit payloads rest tail ends called s)
    (hstuck : Stuck config ends s) {i : ℕ} (hi : i < called.length)
    (hanswer : ∃ o, Answer config.receiveLimit payloads tail i o) : i < s.outcomes.length := by
  by_contra hle
  have horder := congrArg List.length h.order
  simp only [List.length_append, List.length_map] at horder
  cases hholder : s.holder with
  | none =>
      rw [hholder, h.idle hholder] at horder
      simp only [Option.map_none, Option.toList_none, List.length_nil] at horder
      omega
  | some holder =>
      obtain ⟨k, pc⟩ := holder
      obtain ⟨heof, hblocked⟩ := blocked_of_resume h.steady.working hholder hstuck.resume
      have hends : ends = false := by
        cases hends : ends with
        | false => rfl
        | true =>
            rw [hstuck.eof hends] at heof
            cases heof
      have hwire := hstuck.wire
      cases h.stage with
      | finished _ _ _ _ hidle =>
          obtain rfl := hidle k pc hholder
          obtain ⟨hpc, -⟩ | ⟨_, hpc, -⟩ := hblocked
          · cases hpc
          · cases hpc
      | refusing _ j _ _ _ _ hj =>
          rw [hholder] at hj
          cases hj
          obtain ⟨hpc, -⟩ | ⟨_, hpc, -⟩ := hblocked
          · cases hpc
          · cases hpc
      | short size j htail _ _ hj =>
          subst htail
          rw [hends] at hrest
          cases hrest.1
      | payload done ahead p j _ _ _ _ hbytes hj =>
          rw [hholder] at hj
          cases hj
          have hlen := congrArg List.length hbytes
          simp only [hwire, List.append_nil, List.length_append] at hlen
          obtain ⟨hpc, -⟩ | ⟨_, hpc, hshort⟩ := hblocked
          · cases hpc
          · cases hpc
            omega
      | header done ahead hsplit hdone _ _ hbytes hpc =>
          have hlen := congrArg List.length hbytes
          simp only [hwire, List.append_nil, List.length_append] at hlen
          obtain ⟨-, hshort⟩ | ⟨size, hsize, -⟩ := hblocked
          · cases ahead with
            | cons p ahead =>
                simp only [frames_cons, List.length_append, length_frame] at hlen
                omega
            | nil =>
                have hall : payloads.length = s.outcomes.length := by simp [hsplit, hdone]
                obtain ⟨o, ho⟩ := hanswer
                unfold Answer at ho
                rw [List.getElem?_eq_none (by omega)] at ho
                unfold RestOf at hrest
                cases tail with
                | silent => exact ho
                | eof =>
                    rw [hends] at hrest
                    cases hrest.1
                | oversized size =>
                    obtain ⟨-, -, more, rfl⟩ := hrest
                    simp only [List.length_append, length_header] at hlen
                    omega
          · obtain hpc | hpc := hpc k pc hholder
            · rw [hsize] at hpc
              cases hpc
            · rw [hsize] at hpc
              cases hpc

/-- The waits that are left when a call ends. -/
theorem left_finish (s : Link) (k : ℕ) (o : Outcome) :
    (s.finish k o).left = 4 * s.waiters.length := by
  cases hw : s.waiters with
  | nil => simp [Link.left, Link.finish, hw]
  | cons j w =>
      simp [Link.left, Link.finish, hw, HolderPc.left]
      omega

/-- The waits that are left while a call has the lock. -/
theorem left_of_holder {pc : HolderPc} (hk : s.holder = some (k, pc)) :
    s.left = 4 * s.waiters.length + pc.left := by
  simp [Link.left, hk]

/-- What a read of the header leaves. -/
theorem left_readHeader (s : Link) (config : Config) (k : ℕ) :
    (s.readHeader config k).left ≤ 4 * s.waiters.length + 2 ∨
      s.readExactly headerSize = .wait ∧
        (s.readHeader config k).left = 4 * s.waiters.length + 3 := by
  unfold Link.readHeader
  split
  · refine Or.inl ?_
    unfold Link.gotHeader
    split
    · exact Nat.add_le_add_left (Nat.le_succ 1) _
    · exact Nat.le_refl _
  · exact Or.inl ((left_finish _ _ _).trans_le (Nat.le_add_right _ 2))
  · exact Or.inl ((left_finish _ _ _).trans_le (Nat.le_add_right _ 2))
  · next hwait => exact Or.inr ⟨hwait, rfl⟩

/-- **Every step of a call brings its end nearer.** -/
theorem left_resume (ht : s.resume config = some t) : t.left < s.left := by
  unfold Link.resume at ht
  split at ht
  · next k hk =>
      cases ht
      rw [left_of_holder hk, HolderPc.left]
      unfold Link.enter
      split
      · rw [left_finish]
        omega
      · have := left_readHeader s config k
        omega
  · next k hk =>
      rw [left_of_holder hk, HolderPc.left]
      split at ht
      · cases ht
      · next hread =>
          cases ht
          obtain hle | ⟨hwait, -⟩ := left_readHeader s config k
          · omega
          · exact absurd hwait hread
  · next k size hk =>
      rw [left_of_holder hk, HolderPc.left]
      split at ht
      · cases ht
        rw [left_finish]
        exact Nat.lt_add_of_pos_right (by decide)
      · cases ht
        rw [Link.failRead, left_finish]
        exact Nat.lt_add_of_pos_right (by decide)
      · cases ht
        rw [Link.failRead, left_finish]
        exact Nat.lt_add_of_pos_right (by decide)
      · cases ht
  · next k e hk =>
      cases ht
      rw [left_of_holder hk, HolderPc.left, left_finish]
      exact Nat.lt_add_of_pos_right (by decide)
  · cases ht

/-- **A stream of frames and a tail is served as it is.** -/
theorem exact_of_rest (hfits : ∀ p ∈ payloads, p.length ≤ config.receiveLimit)
    (hrest : RestOf config.receiveLimit rest tail ends) :
    Exact config (frames payloads ++ rest) ends payloads tail where
  answers ls s hl hs i k o hi := by
    have h := serving_exec hfits hrest serving_stream hl hs
    rw [List.nil_append] at h
    refine ⟨?_, h.steady.answered i k o hi⟩
    have hmap : (s.outcomes.map Prod.fst)[i]? = some k := by simp [hi]
    rw [← h.order, List.getElem?_append_left (List.getElem?_eq_some_iff.1 hmap).1]
    exact hmap
  returned ls s hl hs :=
    returned_of_answered (serving_exec hfits hrest serving_stream hl hs).steady.answered
  complete ls s hl hs hstuck i hi hanswer :=
    answered_of_stuck hrest (serving_exec hfits hrest serving_stream hl hs) hstuck
      (by rwa [List.nil_append]) hanswer
  closed ls s hl hs size htail hlt := by
    cases (serving_exec hfits hrest serving_stream hl hs).stage with
    | finished _ _ _ hover _ => exact (hover size htail).2
    | header done ahead hsplit hdone _ _ _ _ =>
        rw [hsplit, List.length_append] at hlt
        omega
    | payload done ahead p _ hsplit hdone _ _ _ _ =>
        rw [hsplit, List.length_append] at hlt
        omega
    | short _ _ _ hall _ _ => omega
    | refusing _ _ _ hall _ _ _ => omega

/-! ## Streams that were written -/

/-- **All frames are sent, in order.** -/
theorem sendAll_spec (s : Link) (hclosed : s.senderClosed = false) (hlost : s.lost = false) :
    (payloads.foldl (fun s data => s.sendFrame config data) s).sent =
        s.sent ++ payloads.filter (·.length ≤ config.sendLimit) ∧
      (payloads.foldl (fun s data => s.sendFrame config data) s).wire =
        s.wire ++ frames (payloads.filter (·.length ≤ config.sendLimit)) := by
  induction payloads generalizing s with
  | nil => simp
  | cons p payloads ih =>
      rw [List.foldl_cons]
      by_cases hp : p.length ≤ config.sendLimit
      · have hnot : ¬ config.sendLimit < p.length := Nat.not_lt.2 hp
        obtain ⟨hsent, hwire⟩ := ih (s.sendFrame config p)
          (by simp [Link.sendFrame, hclosed, hnot]) (by simp [Link.sendFrame, hclosed, hlost, hnot])
        rw [hsent, hwire]
        simp [Link.sendFrame, hclosed, hlost, hp, hnot]
      · have hsame : s.sendFrame config p = s := by
          simp [Link.sendFrame, hclosed, Nat.lt_of_not_le hp]
        rw [hsame]
        simpa [hp] using ih s hclosed hlost

/-- Payloads that were all sent fit, and the wire has their frames. -/
theorem wire_of_sent (h : (sendAll config payloads).sent = payloads) :
    (∀ p ∈ payloads, p.length ≤ config.sendLimit) ∧
      (sendAll config payloads).wire = frames payloads := by
  have hspec : (sendAll config payloads).sent =
        initial.sent ++ payloads.filter (·.length ≤ config.sendLimit) ∧
      (sendAll config payloads).wire =
        initial.wire ++ frames (payloads.filter (·.length ≤ config.sendLimit)) :=
    sendAll_spec initial rfl rfl
  obtain ⟨hsent, hwire⟩ := hspec
  have hfilter : payloads.filter (·.length ≤ config.sendLimit) = payloads := by
    rw [hsent] at h
    exact h
  refine ⟨fun p hp => ?_, ?_⟩
  · rw [← hfilter] at hp
    simpa using (List.mem_filter.1 hp).2
  · rw [hwire, hfilter]
    rfl

/-- A stream that is cut holds some whole frames and the beginning of the next. -/
theorem exists_cut {limit : ℕ} (hfits : ∀ p ∈ payloads, p.length ≤ limit) (cut : ℕ) :
    ∃ n ≤ payloads.length,
      (∀ j < payloads.length, (frames (payloads.take (j + 1))).length ≤ cut ↔ j < n) ∧
      ∃ rest p, (frames payloads).take cut = frames (payloads.take n) ++ rest ∧
        p.length ≤ limit ∧ rest <+: frame p ∧ rest ≠ frame p := by
  induction payloads generalizing cut with
  | nil => exact ⟨0, Nat.le_refl _, by simp, [], [], by simp, by simp, by simp, by simp [frame, header]⟩
  | cons q payloads ih =>
      by_cases hq : (frame q).length ≤ cut
      · obtain ⟨n, hn, hcount, rest, p, htake, hp, hprefix, hne⟩ :=
          ih (fun p hp => hfits p (List.mem_cons_of_mem q hp)) (cut - (frame q).length)
        refine ⟨n + 1, Nat.succ_le_succ hn, fun j hj => ?_, rest, p, ?_, hp, hprefix, hne⟩
        · cases j with
          | zero => simpa using hq
          | succ j =>
              have := hcount j (by simpa using hj)
              simp only [List.take_succ_cons, frames_cons, List.length_append] at this ⊢
              omega
        · rw [frames_cons, List.take_append, htake, List.take_of_length_le hq,
            List.take_succ_cons, frames_cons, List.append_assoc]
      · refine ⟨0, Nat.zero_le _, fun j _ => ?_, (frame q).take cut, q, ?_,
          hfits q List.mem_cons_self, List.take_prefix _ _, fun h => ?_⟩
        · simp only [List.take_succ_cons, frames_cons, List.length_append]
          omega
        · rw [frames_cons, List.take_append_of_le_length (by omega)]
          simp
        · have := congrArg List.length h
          rw [List.length_take] at this
          omega

/-- Four bytes are the header of the length they declare. -/
theorem header_fromBytes {b : Bytes} (h : b.length = headerSize) :
    header (fromBytes b) = b ∧ fromBytes b ≤ maxUint32 := by
  obtain ⟨w, x, y, z, rfl⟩ : ∃ w x y z, b = [w, x, y, z] := by
    rcases b with _ | ⟨w, _ | ⟨x, _ | ⟨y, _ | ⟨z, _ | ⟨v, b⟩⟩⟩⟩⟩
    case cons.cons.cons.cons.nil => exact ⟨w, x, y, z, rfl⟩
    all_goals simp [headerSize] at h
  have hw := w.toNat_lt
  have hx := x.toNat_lt
  have hy := y.toNat_lt
  have hz := z.toNat_lt
  simp only [fromBytes, header, List.foldl_cons, List.foldl_nil, maxUint32, List.cons.injEq,
    ← UInt8.toNat_inj, UInt8.toNat_ofNat', and_true]
  omega

/-- **Framing is exact**, for every limit that `validate_max_frame_size` accepts and
all payloads that `send_frame` accepts.  No length overflows its header.  The
calls on what was written return the payloads; on what was written up to a cut,
with the end of the stream after it, those whose frames are whole, and then
`ConnectionClosedError` (the transport stays open at the end of the stream, as
that of plain TCP does; one over TLS is closed by asyncio there, so that this end
is closed before the bytes are read); and on what was written with the header of a frame over
the limit after it, the payloads, then `TransportError` with the connection closed,
and no frame any more. -/
theorem framing_exact (maxFrameSize : ℤ) (h : validateMaxFrameSize maxFrameSize = .ok ())
    (hasDeadline timeoutCaught : Bool) (payloads : List Bytes)
    (hsent : (sendAll (Config.ofLimit maxFrameSize h hasDeadline timeoutCaught) payloads).sent =
      payloads) :
    (∀ p ∈ payloads, toBytes p.length = some (header p.length) ∧
      fromBytes (header p.length) = p.length) ∧
    Exact (Config.ofLimit maxFrameSize h hasDeadline timeoutCaught)
      (sendAll (Config.ofLimit maxFrameSize h hasDeadline timeoutCaught) payloads).wire false
      payloads .silent ∧
    (∀ cut, ∃ n ≤ payloads.length,
      (∀ j < payloads.length, (frames (payloads.take (j + 1))).length ≤ cut ↔ j < n) ∧
      Exact (Config.ofLimit maxFrameSize h hasDeadline timeoutCaught)
        ((sendAll (Config.ofLimit maxFrameSize h hasDeadline timeoutCaught) payloads).wire.take cut)
        true (payloads.take n) .eof) ∧
    (∀ declared more ends, declared.length = headerSize → maxFrameSize < fromBytes declared →
      Exact (Config.ofLimit maxFrameSize h hasDeadline timeoutCaught)
        ((sendAll (Config.ofLimit maxFrameSize h hasDeadline timeoutCaught) payloads).wire ++
          (declared ++ more)) ends payloads (.oversized (fromBytes declared))) ∧
    ∀ s t : Link, s.resume (Config.ofLimit maxFrameSize h hasDeadline timeoutCaught) = some t →
      t.left < s.left := by
  obtain ⟨hsend, hwire⟩ := wire_of_sent hsent
  have hreceive : (Config.ofLimit maxFrameSize h hasDeadline timeoutCaught).receiveLimit =
      maxFrameSize.toNat := rfl
  have hsame : (Config.ofLimit maxFrameSize h hasDeadline timeoutCaught).sendLimit =
      (Config.ofLimit maxFrameSize h hasDeadline timeoutCaught).receiveLimit := rfl
  have hlimit := validateMaxFrameSize_ok.1 h
  rw [hwire]
  generalize Config.ofLimit maxFrameSize h hasDeadline timeoutCaught = config at *
  have hfits : ∀ p ∈ payloads, p.length ≤ config.receiveLimit := fun p hp => hsame ▸ hsend p hp
  refine ⟨fun p hp => ?_, ?_, fun cut => ?_, fun declared more ends hlen hover => ?_,
    fun s t ht => left_resume ht⟩
  · have hle := (hfits p hp).trans config.receiveLimit_le
    exact ⟨toBytes_of_le hle, fromBytes_header hle⟩
  · have hrest : RestOf config.receiveLimit [] .silent false := ⟨rfl, rfl⟩
    have hexact := exact_of_rest hfits hrest
    rwa [List.append_nil] at hexact
  · obtain ⟨n, hn, hcount, rest, p, htake, hp, hprefix, hne⟩ := exists_cut hfits cut
    have hrest : RestOf config.receiveLimit rest .eof true := ⟨rfl, p, hp, hprefix, hne⟩
    refine ⟨n, hn, hcount, ?_⟩
    rw [htake]
    exact exact_of_rest (fun q hq => hfits q (List.mem_of_mem_take hq)) hrest
  · obtain ⟨hheader, hle⟩ := header_fromBytes hlen
    have hrest : RestOf config.receiveLimit (declared ++ more) (.oversized (fromBytes declared)) ends :=
      ⟨by omega, hle, more, by rw [hheader]⟩
    exact exact_of_rest hfits hrest

/-- Two frames within a limit of four bytes. -/
theorem framing_exact_sample :
    validateMaxFrameSize 4 = .ok () ∧ Exact (Config.ofLimit 4 rfl true true)
      (sendAll (Config.ofLimit 4 rfl true true) [[1, 2], []]).wire false [[1, 2], []] .silent :=
  ⟨rfl, (framing_exact 4 rfl true true [[1, 2], []] rfl).2.1⟩

end Connection
end Lan
end Paqto
