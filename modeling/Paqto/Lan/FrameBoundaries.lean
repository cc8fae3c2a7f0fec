/-
# Frame boundaries under cancellation

Header and payload are two reads.  A call that gives up between them leaves the
payload to the next call, which takes its first bytes for a header.  In the
runs where that does not happen (`KeepsBoundary`) every payload that is
returned was sent, in order, and a call that gives up leaves a whole number of
frames read or a closed connection.
-/

import Paqto.Lan.Connection

namespace Paqto
namespace Lan
namespace Connection

open Transition Python

variable {config : Config} {s t : Link}

/-- A whole number of frames was read. -/
def Link.AtBoundary (s : Link) : Prop :=
  ∃ done ahead, s.sent = done ++ ahead ∧ s.consumed = (frames done).length

/-- The call that has the lock ends without a payload. -/
def GivesUp (s : Link) (l : Label) (t : Link) : Prop :=
  (∀ i, l ≠ .cancelWaiter i) ∧ ∃ k pc outcome, s.holder = some (k, pc) ∧
    (∀ payload, outcome ≠ .returned payload) ∧ t.outcomes = s.outcomes ++ [(k, outcome)]

/-- **Frame boundaries survive** in every run. -/
structure FramesSurvive (config : Config) : Prop where
  returned : ∀ s, Reachable (system config) s → s.returned.Sublist s.sent
  boundary : ∀ s l t, Reachable (system config) s → step config s l = some t → GivesUp s l t →
    t.AtBoundary ∨ t.isClosed = true

/-- No call is cancelled, or loses its deadline uncaught, while it waits for a
payload that is not empty, unless the connection is closed. -/
def KeepsBoundary (config : Config) (s : Link) (l : Label) : Prop :=
  ∀ k size, s.holder = some (k, .readingPayload size) → 0 < size →
    (l = .cancelHolder ∨ l = .expire ∧ config.hasDeadline = true ∧ config.timeoutCaught = false) →
      s.isClosed = true

/-- The call that has the lock waits for its header or for its payload. -/
def HolderPc.reads : HolderPc → Bool
  | readingHeader | readingPayload _ => true
  | _ => false

namespace Link

/-- The unread bytes begin `b`; what is missing was lost. -/
def Ahead (s : Link) (b : Bytes) : Prop :=
  ∃ tail, b = s.buffer ++ s.wire ++ tail ∧ (s.lost = false → tail = [])

/-- **Where the reading end stands.** -/
inductive Stands (s : Link) : Prop
  /-- Between two frames. -/
  | boundary (done ahead : List Bytes) : s.sent = done ++ ahead → s.returned.Sublist done →
      s.consumed = (frames done).length → s.Ahead (frames ahead) →
      (∀ k size, s.holder ≠ some (k, .readingPayload size)) → Stands s
  /-- Between a header and its payload. -/
  | payload (done ahead : List Bytes) (p : Bytes) (k : ℕ) : s.sent = done ++ p :: ahead →
      s.returned.Sublist done → s.consumed = (frames done).length + headerSize →
      s.Ahead (p ++ frames ahead) → s.holder = some (k, .readingPayload p.length) → Stands s
  /-- Nothing is read any more. -/
  | dead : s.isClosed = true → s.returned.Sublist s.sent →
      (∀ k pc, s.holder = some (k, pc) → pc.reads = false) → Stands s

/-- The payloads that were sent fit the header. -/
def Fits (config : Config) (s : Link) : Prop := ∀ p ∈ s.sent, p.length ≤ config.sendLimit

/-- A call that ends sends nothing. -/
@[simp] theorem finish_sent (s : Link) (k : ℕ) (o : Outcome) : (s.finish k o).sent = s.sent := rfl

/-- It closes nothing. -/
@[simp] theorem finish_isClosed (s : Link) (k : ℕ) (o : Outcome) :
    (s.finish k o).isClosed = s.isClosed := rfl

/-- It consumes nothing. -/
@[simp] theorem finish_consumed (s : Link) (k : ℕ) (o : Outcome) :
    (s.finish k o).consumed = s.consumed := rfl

/-- What it returns is the next frame. -/
theorem returned_finish_returned (s : Link) (k : ℕ) (p : Bytes) :
    (s.finish k (.returned p)).returned = s.returned ++ [p] := by
  simp [returned, finish]

/-- Otherwise it returns nothing. -/
theorem returned_finish {o : Outcome} (ho : ∀ p, o ≠ .returned p) (s : Link) (k : ℕ) :
    (s.finish k o).returned = s.returned := by
  cases o with
  | returned p => exact absurd rfl (ho p)
  | raised e => simp [returned, finish]
  | cancelled => simp [returned, finish]

/-- The next call has not been resumed. -/
theorem holder_finish {k i : ℕ} {o : Outcome} {pc : HolderPc}
    (h : (s.finish k o).holder = some (i, pc)) : pc = .acquired := by
  simp only [finish] at h
  cases hw : s.waiters.head? with
  | none =>
      rw [hw] at h
      cases h
  | some j =>
      rw [hw] at h
      cases h
      rfl

/-- A call ends without a frame on a closed connection. -/
theorem stands_finish_dead {k : ℕ} {o : Outcome} (hclosed : s.isClosed = true)
    (hreturned : s.returned.Sublist s.sent) (ho : ∀ p, o ≠ .returned p) :
    (s.finish k o).Stands :=
  .dead hclosed (by rwa [returned_finish ho, finish_sent]) fun i pc hi => by
    rw [holder_finish hi]
    rfl

/-- A call ends at a boundary. -/
theorem stands_finish_boundary (done ahead : List Bytes) {k : ℕ} {o : Outcome}
    (hsent : s.sent = done ++ ahead) (hreturned : (s.finish k o).returned.Sublist done)
    (hconsumed : s.consumed = (frames done).length) (hahead : s.Ahead (frames ahead)) :
    (s.finish k o).Stands :=
  .boundary done ahead hsent hreturned hconsumed hahead fun i size hi => by
    have hpc := holder_finish hi
    cases hpc

/-- What was returned was sent, in order. -/
theorem Stands.returned (h : s.Stands) : s.returned.Sublist s.sent := by
  cases h with
  | boundary done ahead hsent hreturned _ _ _ =>
      rw [hsent]
      exact hreturned.trans (List.sublist_append_left done ahead)
  | payload done ahead p k hsent hreturned _ _ _ =>
      rw [hsent]
      exact hreturned.trans (List.sublist_append_left done (p :: ahead))
  | dead _ hreturned _ => exact hreturned

/-- A call that waits for its payload gives up. -/
theorem stands_giveUp {done ahead : List Bytes} {p : Bytes} {k : ℕ} {o : Outcome}
    (hsent : s.sent = done ++ p :: ahead) (hreturned : s.returned.Sublist done)
    (hconsumed : s.consumed = (frames done).length + headerSize)
    (hahead : s.Ahead (p ++ frames ahead)) (ho : ∀ p, o ≠ .returned p)
    (hclosed : 0 < p.length → s.isClosed = true) : (s.finish k o).Stands := by
  rcases Nat.eq_zero_or_pos p.length with hp | hp
  · obtain rfl := List.eq_nil_of_length_eq_zero hp
    refine stands_finish_boundary (done ++ [[]]) ahead (by simp [hsent]) ?_ ?_ hahead
    · rw [returned_finish ho]
      exact hreturned.trans (List.sublist_append_left done _)
    · simp [hconsumed]
  · refine stands_finish_dead (hclosed hp) ?_ ho
    rw [hsent]
    exact hreturned.trans (List.sublist_append_left done _)

/-- A read fails, and the connection is closed. -/
theorem stands_failRead {k : ℕ} {e : Failure} (h : s.returned.Sublist s.sent) :
    (s.failRead k e).Stands :=
  stands_finish_dead (by simp [isClosed]) h (by rintro p ⟨⟩)

/-- What is read is what comes next. -/
theorem ahead_consume {b c : Bytes} (h : s.Ahead (b ++ c)) (hb : b.length ≤ s.buffer.length) :
    s.buffer.take b.length = b ∧ (s.consume b.length).Ahead c := by
  obtain ⟨tail, htail, hlost⟩ := h
  have htake := congrArg (List.take b.length) htail
  have hdrop := congrArg (List.drop b.length) htail
  rw [List.append_assoc, List.take_left, List.take_append_of_le_length hb] at htake
  rw [List.append_assoc, List.drop_left, List.drop_append_of_le_length hb] at hdrop
  exact ⟨htake.symm, tail, by rw [hdrop, consume, List.append_assoc], hlost⟩

/-- A header that is there is that of the next frame. -/
theorem stands_readHeader {done ahead : List Bytes} {k : ℕ} (hfits : s.Fits config)
    (hsent : s.sent = done ++ ahead) (hreturned : s.returned.Sublist done)
    (hconsumed : s.consumed = (frames done).length) (hahead : s.Ahead (frames ahead)) :
    (s.readHeader config k).Stands := by
  have hall : s.returned.Sublist s.sent := by
    rw [hsent]
    exact hreturned.trans (List.sublist_append_left done ahead)
  unfold readHeader
  cases hread : s.readExactly headerSize with
  | incomplete => exact stands_failRead hall
  | failed => exact stands_failRead hall
  | wait => exact .boundary done ahead hsent hreturned hconsumed hahead fun i size hi => by cases hi
  | data b =>
      obtain ⟨hlen, rfl⟩ : headerSize ≤ s.buffer.length ∧ s.buffer.take headerSize = b := by
        unfold readExactly at hread
        split at hread
        · cases hread
        · split at hread
          · rename_i hzero
            exact absurd hzero (by decide)
          · split at hread
            · exact ⟨‹_›, Read.data.inj hread⟩
            · split at hread <;> cases hread
      cases ahead with
      | nil =>
          obtain ⟨tail, htail, _⟩ := hahead
          have hnil : s.buffer = [] := by
            simp only [frames_nil, List.nil_eq, List.append_eq_nil_iff] at htail
            exact htail.1.1
          rw [hnil] at hlen
          exact absurd hlen (by decide)
      | cons p rest =>
          have hp : p.length ≤ maxUint32 :=
            (hfits p (by rw [hsent]; simp)).trans config.sendLimit_le
          have hframe : s.Ahead (header p.length ++ (p ++ frames rest)) := by
            simpa [frame] using hahead
          obtain ⟨htake, hnext⟩ := ahead_consume hframe hlen
          simp only [length_header] at htake hnext
          simp only [htake, fromBytes_header hp]
          unfold gotHeader
          split
          · exact .dead (by simp [isClosed, callClose]) hall fun i pc hi => by
              cases hi
              rfl
          · exact .payload done rest p k hsent hreturned (by simp [consume, hconsumed]) hnext rfl

/-- A call gets the lock. -/
theorem Stands.enter (h : s.Stands) (hfits : s.Fits config) {k : ℕ}
    (hholder : ∀ i size, s.holder ≠ some (i, .readingPayload size)) :
    (s.enter config k).Stands := by
  unfold Link.enter
  split
  · rename_i hclosed
    exact stands_finish_dead hclosed h.returned (by rintro p ⟨⟩)
  · rename_i hopen
    cases h with
    | boundary done ahead hsent hreturned hconsumed hahead _ =>
        exact stands_readHeader hfits hsent hreturned hconsumed hahead
    | payload done ahead p i _ _ _ _ hi => exact absurd hi (hholder i _)
    | dead hclosed _ _ => exact absurd hclosed hopen

/-- A read has its bytes. -/
theorem Stands.resume (h : s.Stands) (hfits : s.Fits config) (ht : s.resume config = some t) :
    t.Stands := by
  unfold Link.resume at ht
  split at ht
  · rename_i k hk
    cases ht
    exact h.enter hfits fun i size hi => by
      rw [hk] at hi
      cases hi
  · rename_i k hk
    split at ht
    · cases ht
    · cases ht
      cases h with
      | boundary done ahead hsent hreturned hconsumed hahead _ =>
          exact stands_readHeader hfits hsent hreturned hconsumed hahead
      | payload done ahead p i _ _ _ _ hi =>
          rw [hk] at hi
          cases hi
      | dead _ _ hreads => exact absurd (hreads k _ hk) (by simp [HolderPc.reads])
  · rename_i k size hk
    cases h with
    | boundary _ _ _ _ _ _ hnone => exact absurd hk (hnone k size)
    | dead _ _ hreads => exact absurd (hreads k _ hk) (by simp [HolderPc.reads])
    | payload done ahead p i hsent hreturned hconsumed hahead hi =>
        have hsize : p.length = size := by
          rw [hk] at hi
          cases hi
          rfl
        subst hsize
        have hall : s.returned.Sublist s.sent := by
          rw [hsent]
          exact hreturned.trans (List.sublist_append_left done _)
        split at ht
        · rename_i b hread
          cases ht
          obtain ⟨hlen, rfl⟩ : p.length ≤ s.buffer.length ∧ s.buffer.take p.length = b := by
            unfold readExactly at hread
            split at hread
            · cases hread
            · split at hread
              · rename_i hzero
                rw [hzero]
                exact ⟨Nat.zero_le _, Read.data.inj hread⟩
              · split at hread
                · exact ⟨‹_›, Read.data.inj hread⟩
                · split at hread <;> cases hread
          obtain ⟨htake, hnext⟩ := ahead_consume hahead hlen
          refine stands_finish_boundary (done ++ [p]) ahead
            (by simp [consume, hsent]) ?_ ?_ hnext
          · rw [returned_finish_returned, htake]
            exact hreturned.append (List.Sublist.refl [p])
          · simp only [consume, hconsumed, frames_append, frames_cons, frames_nil,
              List.append_nil, List.length_append, length_frame]
            omega
        · cases ht
          exact stands_failRead hall
        · cases ht
          exact stands_failRead hall
        · cases ht
  · rename_i k e hk
    cases ht
    cases h with
    | boundary done ahead hsent hreturned hconsumed hahead _ =>
        exact stands_finish_boundary done ahead hsent (by rwa [returned_finish (by rintro p ⟨⟩)]) hconsumed hahead
    | payload done ahead p i _ _ _ _ hi =>
        rw [hk] at hi
        cases hi
    | dead hclosed hreturned _ => exact stands_finish_dead hclosed hreturned (by rintro p ⟨⟩)
  · cases ht

/-- The call that has the lock gives up. -/
theorem Stands.giveUp (h : s.Stands) {k : ℕ} {pc : HolderPc} {o : Outcome}
    (hk : s.holder = some (k, pc)) (ho : ∀ p, o ≠ .returned p)
    (hclosed : ∀ size, pc = .readingPayload size → 0 < size → s.isClosed = true) :
    (s.finish k o).Stands := by
  cases h with
  | boundary done ahead hsent hreturned hconsumed hahead _ =>
      exact stands_finish_boundary done ahead hsent (by rwa [returned_finish ho]) hconsumed hahead
  | payload done ahead p i hsent hreturned hconsumed hahead hi =>
      rw [hk] at hi
      cases hi
      exact stands_giveUp hsent hreturned hconsumed hahead ho (hclosed p.length rfl)
  | dead hclosed' hreturned _ => exact stands_finish_dead hclosed' hreturned ho

/-- The deadline of the payload expires, and the connection is closed. -/
theorem Stands.expire (h : s.Stands) (hG : KeepsBoundary config s .expire)
    (ht : s.expire config = some t) : t.Stands := by
  unfold Link.expire at ht
  split at ht
  · rename_i k size hk
    split at ht
    · rename_i hdeadline
      split at ht
      · cases ht
        exact .dead (by simp [isClosed, callClose]) h.returned fun i pc hi => by
          cases hi
          rfl
      · rename_i hcaught
        cases ht
        refine h.giveUp hk (by rintro p ⟨⟩) fun size' hs hpos => ?_
        cases hs
        exact hG k size hk hpos (.inr ⟨rfl, hdeadline, by simpa using hcaught⟩)
    · cases ht
  · cases ht

/-- The network or the other end moves: what was read stays read. -/
theorem Stands.other (h : s.Stands) (hreturned : t.returned = s.returned)
    (hconsumed : t.consumed = s.consumed) (hholder : t.holder = s.holder)
    (hclosed : s.isClosed = true → t.isClosed = true)
    (hsent : ∃ new, t.sent = s.sent ++ new ∧ ∀ b, s.Ahead b → t.Ahead (b ++ frames new)) :
    t.Stands := by
  obtain ⟨new, hnew, hahead⟩ := hsent
  cases h with
  | boundary done ahead hs hr hc ha hn =>
      refine .boundary done (ahead ++ new) (by rw [hnew, hs, List.append_assoc])
        (hreturned ▸ hr) (hconsumed.trans hc) ?_ fun k size => hholder ▸ hn k size
      rw [frames_append]
      exact hahead _ ha
  | payload done ahead p k hs hr hc ha hi =>
      refine .payload done (ahead ++ new) p k (by rw [hnew, hs]; simp) (hreturned ▸ hr)
        (hconsumed.trans hc) ?_ (hholder.trans hi)
      rw [frames_append, ← List.append_assoc]
      exact hahead _ ha
  | dead hcl hr hi =>
      refine .dead (hclosed hcl) ?_ fun k pc hk => hi k pc (hholder ▸ hk)
      rw [hreturned, hnew]
      exact hr.trans (List.sublist_append_left s.sent new)

/-- The same without a new payload. -/
theorem Stands.moves (h : s.Stands) (hreturned : t.returned = s.returned)
    (hconsumed : t.consumed = s.consumed) (hholder : t.holder = s.holder)
    (hclosed : s.isClosed = true → t.isClosed = true) (hsent : t.sent = s.sent)
    (hahead : ∀ b, s.Ahead b → t.Ahead b) : t.Stands :=
  h.other hreturned hconsumed hholder hclosed ⟨[], by simp [hsent], fun b hb => by simpa using hahead b hb⟩

/-- The other end sends a frame. -/
theorem Stands.sendFrame (h : s.Stands) (data : Bytes) : (s.sendFrame config data).Stands := by
  unfold Link.sendFrame
  split
  · exact h
  · split
    · exact h
    · refine h.other rfl rfl rfl id ⟨[data], rfl, fun b hb => ?_⟩
      obtain ⟨tail, rfl, hlost⟩ := hb
      dsimp only [Ahead]
      cases hl : s.lost with
      | true => exact ⟨tail ++ frame data, by simp, by rintro ⟨⟩⟩
      | false => exact ⟨[], by simp [hlost hl], fun _ => rfl⟩

/-- What is sent fits. -/
theorem Fits.sendFrame (h : s.Fits config) (data : Bytes) :
    (s.sendFrame config data).Fits config := by
  unfold Link.sendFrame
  split
  · exact h
  · split
    · exact h
    · rename_i hle
      intro p hp
      rcases List.mem_append.1 hp with hp | hp
      · exact h p hp
      · obtain rfl := List.mem_singleton.1 hp
        exact Nat.not_lt.1 hle

/-! ## What was written -/

/-- A call that gets the lock sends nothing. -/
theorem sent_enter (s : Link) (config : Config) (k : ℕ) : (s.enter config k).sent = s.sent := by
  unfold enter readHeader gotHeader
  split
  · rfl
  · split
    · split <;> rfl
    · rfl
    · rfl
    · rfl

/-- Nor does one that goes on. -/
theorem sent_resume (ht : s.resume config = some t) : t.sent = s.sent := by
  unfold Link.resume at ht
  split at ht
  · cases ht
    exact s.sent_enter config _
  · split at ht <;> cases ht
    unfold readHeader gotHeader
    split
    · split <;> rfl
    · rfl
    · rfl
    · rfl
  · split at ht <;> cases ht <;> rfl
  · cases ht
    rfl
  · cases ht

/-- Nor does one whose deadline expires. -/
theorem sent_expire (ht : s.expire config = some t) : t.sent = s.sent := by
  unfold Link.expire at ht
  split at ht
  · split at ht
    · split at ht <;> cases ht <;> rfl
    · cases ht
  · cases ht

end Link

/-! ## Runs -/

/-- **Every step sends frames that fit.** -/
theorem fits_step {l : Label} (h : s.Fits config) (ht : step config s l = some t) :
    t.Fits config := by
  have hsame : t.sent = s.sent → t.Fits config := fun he p hp => h p (he ▸ hp)
  cases l with
  | send data =>
      cases ht
      exact h.sendFrame data
  | resume => exact hsame (Link.sent_resume ht)
  | expire => exact hsame (Link.sent_expire ht)
  | receive k =>
      simp only [step] at ht
      split at ht <;> cases ht
      · exact hsame (s.sent_enter config k)
      · exact hsame rfl
  | arrive n =>
      simp only [step] at ht
      split at ht <;> cases ht
      exact hsame rfl
  | feedEof =>
      simp only [step] at ht
      split at ht <;> cases ht
      exact hsame rfl
  | cancelHolder =>
      obtain ⟨⟨k, pc⟩, _, rfl⟩ := Option.map_eq_some_iff.1 ht
      exact hsame rfl
  | cancelWaiter k =>
      simp only [step] at ht
      split at ht <;> cases ht
      exact hsame rfl
  | senderCloses | loses n | setException | close | writerCloses =>
      cases ht
      exact hsame rfl

/-- **One step keeps the place in the stream**, if it meets the condition. -/
theorem stands_step {l : Label} (h : s.Stands) (hfits : s.Fits config)
    (hG : KeepsBoundary config s l) (ht : step config s l = some t) : t.Stands := by
  cases l with
  | send data =>
      cases ht
      exact h.sendFrame data
  | senderCloses =>
      cases ht
      exact h.moves rfl rfl rfl id rfl fun _ => id
  | loses n =>
      cases ht
      refine h.moves rfl rfl rfl id rfl fun b hb => ?_
      obtain ⟨tail, rfl, _⟩ := hb
      refine ⟨s.wire.drop n ++ tail, ?_, by rintro ⟨⟩⟩
      simp only [List.append_assoc]
      rw [← List.append_assoc (s.wire.take n), List.take_append_drop]
  | arrive n =>
      simp only [step] at ht
      split at ht <;> cases ht
      rename_i heof
      refine h.moves rfl rfl rfl (fun hc => ?_) rfl fun b hb => ?_
      · simpa [Link.isClosed, heof] using hc
      · obtain ⟨tail, rfl, hlost⟩ := hb
        exact ⟨tail, by simp, hlost⟩
  | feedEof =>
      simp only [step] at ht
      split at ht <;> cases ht
      refine h.moves rfl rfl rfl (fun hc => ?_) rfl fun _ => id
      simp only [Link.isClosed, Bool.or_eq_true, Bool.and_eq_true] at hc ⊢
      exact hc.imp_right fun hc => ⟨trivial, hc.2⟩
  | setException =>
      cases ht
      exact h.moves rfl rfl rfl id rfl fun _ => id
  | receive k =>
      simp only [step] at ht
      split at ht <;> cases ht
      · rename_i hk
        exact h.enter hfits fun i size hi => by
          rw [hk] at hi
          cases hi
      · exact h.moves rfl rfl rfl id rfl fun _ => id
  | resume => exact h.resume hfits ht
  | expire => exact h.expire hG ht
  | cancelHolder =>
      obtain ⟨⟨k, pc⟩, hk, rfl⟩ := Option.map_eq_some_iff.1 ht
      refine h.giveUp hk (by rintro p ⟨⟩) fun size hs hpos => ?_
      subst hs
      exact hG k size hk hpos (.inl rfl)
  | cancelWaiter k =>
      simp only [step] at ht
      split at ht <;> cases ht
      exact h.moves (by simp [Link.returned]) rfl rfl id rfl fun _ => id
  | close =>
      cases ht
      exact h.moves rfl rfl rfl (fun _ => by simp [Link.isClosed, Link.callClose]) rfl fun _ => id
  | writerCloses =>
      cases ht
      exact h.moves rfl rfl rfl (fun _ => by simp [Link.isClosed]) rfl fun _ => id

/-- Nothing was sent. -/
theorem stands_initial : initial.Stands :=
  .boundary [] [] rfl (List.Sublist.refl _) rfl ⟨[], rfl, fun _ => rfl⟩ fun _ _ h => by cases h

/-- **The reader stands at a boundary** in the runs that meet the condition. -/
theorem stands_of_reachableWhen (h : ReachableWhen (system config) (KeepsBoundary config) s) :
    s.Stands ∧ s.Fits config :=
  h.invariant (I := fun s => s.Stands ∧ s.Fits config)
    (by rintro _ rfl; exact ⟨stands_initial, fun p hp => by cases hp⟩)
    fun _ _ _ hI hG ht => ⟨stands_step hI.1 hI.2 hG ht, fits_step hI.2 ht⟩

/-- A step ends no call, or hands the lock on. -/
theorem finish_of_resume (ht : s.resume config = some t) :
    t.outcomes = s.outcomes ∨ ∃ u k o, t = Link.finish u k o := by
  have hread : ∀ k, (s.readHeader config k).outcomes = s.outcomes ∨
      ∃ u i o, s.readHeader config k = Link.finish u i o := by
    intro k
    unfold Link.readHeader Link.gotHeader
    split
    · split <;> exact .inl rfl
    · exact .inr ⟨_, _, _, rfl⟩
    · exact .inr ⟨_, _, _, rfl⟩
    · exact .inl rfl
  unfold Link.resume at ht
  split at ht
  · cases ht
    unfold Link.enter
    split
    · exact .inr ⟨_, _, _, rfl⟩
    · exact hread _
  · split at ht <;> cases ht
    exact hread _
  · split at ht <;> cases ht <;> exact .inr ⟨_, _, _, rfl⟩
  · cases ht
    exact .inr ⟨_, _, _, rfl⟩
  · cases ht

/-- Who gives up leaves no call at a payload. -/
theorem holder_of_givesUp {l : Label} (ht : step config s l = some t) (hup : GivesUp s l t) :
    ∀ k size, t.holder ≠ some (k, .readingPayload size) := by
  obtain ⟨hwaiter, k, pc, o, hk, _, houtcomes⟩ := hup
  have hfinish : (∃ u i o, t = Link.finish u i o) →
      ∀ k size, t.holder ≠ some (k, .readingPayload size) := by
    rintro ⟨u, i, o, rfl⟩ j size hj
    have hpc := Link.holder_finish hj
    cases hpc
  have hsame : t.outcomes ≠ s.outcomes := fun he => by
    rw [houtcomes] at he
    simp at he
  cases l with
  | send data =>
      cases ht
      refine absurd ?_ hsame
      unfold Link.sendFrame
      split
      · rfl
      · split <;> rfl
  | resume => exact hfinish ((finish_of_resume ht).resolve_left hsame)
  | expire =>
      simp only [step, Link.expire] at ht
      split at ht
      · split at ht
        · split at ht <;> cases ht
          · exact absurd rfl hsame
          · exact hfinish ⟨_, _, _, rfl⟩
        · cases ht
      · cases ht
  | receive i =>
      simp only [step, hk] at ht
      cases ht
      exact absurd rfl hsame
  | arrive n =>
      simp only [step] at ht
      split at ht <;> cases ht
      exact absurd rfl hsame
  | feedEof =>
      simp only [step] at ht
      split at ht <;> cases ht
      exact absurd rfl hsame
  | cancelHolder =>
      obtain ⟨⟨i, pc⟩, _, rfl⟩ := Option.map_eq_some_iff.1 ht
      exact hfinish ⟨_, _, _, rfl⟩
  | cancelWaiter i => exact absurd rfl (hwaiter i)
  | senderCloses | loses n | setException | close | writerCloses =>
      cases ht
      exact absurd rfl hsame

/-- A call that gave up between header and payload. -/
theorem not_atBoundary {done ahead : List Bytes} {p : Bytes} (hsent : s.sent = done ++ p :: ahead)
    (hconsumed : s.consumed = (frames done).length + headerSize) (hp : 0 < p.length) :
    ¬ s.AtBoundary := by
  rintro ⟨done', ahead', hsent', hconsumed'⟩
  rw [hsent] at hsent'
  rw [hconsumed] at hconsumed'
  rcases List.append_eq_append_iff.1 hsent' with ⟨more, rfl, hmore⟩ | ⟨more, rfl, _⟩
  · cases more with
    | nil =>
        simp only [List.append_nil] at hconsumed'
        simp [headerSize] at hconsumed'
    | cons q more =>
        obtain rfl : p = q := by
          simp only [List.cons_append, List.cons.injEq] at hmore
          exact hmore.1
        simp only [frames_append, frames_cons, List.length_append, length_frame] at hconsumed'
        omega
  · simp only [frames_append, List.length_append, headerSize] at hconsumed'
    omega

/-- **Frame boundaries survive** in every run in which no call gives up between
a header and its payload, unless the connection is closed.  The first call that
does leaves the connection open in the middle of a frame. -/
theorem frames_survive (config : Config) :
    (∀ s, ReachableWhen (system config) (KeepsBoundary config) s →
        s.returned.Sublist s.sent ∧ ∀ l t, KeepsBoundary config s l → step config s l = some t →
          GivesUp s l t → t.AtBoundary ∨ t.isClosed = true) ∧
      ∀ s l t, ReachableWhen (system config) (KeepsBoundary config) s →
        ¬ KeepsBoundary config s l → step config s l = some t →
          GivesUp s l t ∧ ¬ (t.AtBoundary ∨ t.isClosed = true) := by
  refine ⟨fun s h => ?_, fun s l t h hG ht => ?_⟩
  · obtain ⟨hstands, hfits⟩ := stands_of_reachableWhen h
    refine ⟨hstands.returned, fun l t hG ht hup => ?_⟩
    cases stands_step hstands hfits hG ht with
    | boundary done ahead hsent _ hconsumed _ _ => exact .inl ⟨done, ahead, hsent, hconsumed⟩
    | payload done ahead p k _ _ _ _ hk => exact absurd hk (holder_of_givesUp ht hup k _)
    | dead hclosed _ _ => exact .inr hclosed
  · obtain ⟨hstands, _⟩ := stands_of_reachableWhen h
    simp only [KeepsBoundary, not_forall, Bool.not_eq_true] at hG
    obtain ⟨k, size, hk, hpos, hl, hopen⟩ := hG
    cases hstands with
    | boundary _ _ _ _ _ _ hnone => exact absurd hk (hnone k size)
    | dead hclosed _ _ =>
        rw [hopen] at hclosed
        cases hclosed
    | payload done ahead p i hsent _ hconsumed _ hi =>
        have hsize : p.length = size := by
          rw [hk] at hi
          cases hi
          rfl
        have hend : ∀ o, (∀ q, o ≠ .returned q) → t = s.finish k o → (∀ i, l ≠ .cancelWaiter i) →
            GivesUp s l t ∧ ¬ (t.AtBoundary ∨ t.isClosed = true) := by
          rintro o ho rfl hl
          refine ⟨⟨hl, k, _, o, hk, ho, rfl⟩, ?_⟩
          rintro (hboundary | hclosed)
          · exact not_atBoundary (s := s.finish k o) hsent hconsumed (hsize ▸ hpos) hboundary
          · rw [Link.finish_isClosed, hopen] at hclosed
            cases hclosed
        rcases hl with rfl | ⟨rfl, hdeadline, hcaught⟩
        · simp only [step, hk, Option.map_some, Option.some.injEq] at ht
          exact hend .cancelled (by rintro q ⟨⟩) ht.symm (by rintro i ⟨⟩)
        · simp only [step, Link.expire, hk, hdeadline, hcaught, if_true, Bool.false_eq_true,
            if_false, Option.some.injEq] at ht
          exact hend (.raised .uncaught) (by rintro q ⟨⟩) ht.symm (by rintro i ⟨⟩)

/-- The limit of the sample. -/
theorem sampleLimit_pos : 0 < 1024 := by decide

/-- It is one that a header can hold. -/
theorem sampleLimit_le : 1024 ≤ maxUint32 := by decide

/-- The limits of a connection in the tests of the transport. -/
def sampleConfig : Config where
  sendLimit := 1024
  sendLimit_pos := sampleLimit_pos
  sendLimit_le := sampleLimit_le
  receiveLimit := 1024
  receiveLimit_pos := sampleLimit_pos
  receiveLimit_le := sampleLimit_le
  hasDeadline := true
  timeoutCaught := true

/-- A call is cancelled after the header of a payload that looks like a frame
itself: the next call returns what is in it. -/
theorem frames_do_not_survive : ¬ FramesSurvive sampleConfig := by
  intro h
  have hrun := h.returned _ (reachable_of_exec (S := system sampleConfig) rfl
    [.receive 0, .send [0, 0, 0, 1, 7], .arrive 6, .resume, .cancelHolder, .receive 1,
      .arrive 3, .resume, .resume] rfl)
  exact absurd hrun (by decide)

end Connection
end Lan
end Paqto
