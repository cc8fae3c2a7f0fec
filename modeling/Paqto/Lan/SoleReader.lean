/-
# One reader reads the frames as they were sent

The reader of a session and the handshake before it call `receive_frame` one
after the other, and not again once a call has raised or was cancelled (`Sole`).
In such a run the payloads that were returned are the first of those that were
sent, whatever the network, the deadlines and either end do (`Solitary`).
-/

import Paqto.Lan.FrameBoundaries

namespace Paqto
namespace Lan
namespace Connection

open Transition Python

variable {config : Config} {s t : Link}

/-- A call comes when none is there and all before it have returned a payload. -/
def Sole (s : Link) : Label → Prop
  | .receive _ => s.holder = none ∧ ∀ k o, (k, o) ∈ s.outcomes → ∃ p, o = .returned p
  | _ => True

namespace Link

/-- **Where the one reader stands.** -/
inductive InStep (s : Link) : Prop
  /-- Between two frames. -/
  | boundary (ahead : List Bytes) : s.sent = s.returned ++ ahead → s.Ahead (frames ahead) →
      (∀ k pc, s.holder = some (k, pc) → pc = .readingHeader) → InStep s
  /-- Between a header and its payload. -/
  | payload (ahead : List Bytes) (p : Bytes) (k : ℕ) : s.sent = s.returned ++ p :: ahead →
      s.Ahead (p ++ frames ahead) → s.holder = some (k, .readingPayload p.length) → InStep s
  /-- A call has raised or was cancelled, or is about to raise. -/
  | ended : s.returned <+: s.sent → (∀ k pc, s.holder = some (k, pc) → ∃ e, pc = .closing e) →
      (s.holder = none → ∃ k o, (k, o) ∈ s.outcomes ∧ ∀ p, o ≠ .returned p) → InStep s

/-- No call waits for another one. -/
structure Solitary (s : Link) : Prop where
  waiters : s.waiters = []
  inStep : s.InStep

/-- What was returned is a beginning of what was sent. -/
theorem InStep.returned (h : s.InStep) : s.returned <+: s.sent := by
  cases h with
  | boundary ahead hsent _ _ => exact ⟨ahead, hsent.symm⟩
  | payload ahead p k hsent _ _ => exact ⟨p :: ahead, hsent.symm⟩
  | ended hreturned _ _ => exact hreturned

/-- Nobody has the lock when the only call ends. -/
theorem holder_finish_none (h : s.waiters = []) (k : ℕ) (o : Outcome) :
    (s.finish k o).holder = none := by
  rw [finish, h]
  rfl

/-- A call ends without a payload. -/
theorem solitary_finish (hwaiters : s.waiters = []) (hreturned : s.returned <+: s.sent) {k : ℕ}
    {o : Outcome} (ho : ∀ p, o ≠ .returned p) : (s.finish k o).Solitary where
  waiters := by
    change s.waiters.tail = []
    rw [hwaiters]
    rfl
  inStep := by
    refine .ended (by rwa [returned_finish ho]) (fun i pc hi => ?_) fun _ => ⟨k, o, ?_, ho⟩
    · rw [holder_finish_none hwaiters] at hi
      cases hi
    · exact List.mem_append_right _ (List.mem_singleton_self _)

/-- A header that is there is that of the next frame. -/
theorem solitary_readHeader {ahead : List Bytes} {k : ℕ} (hfits : s.Fits config)
    (hwaiters : s.waiters = []) (hsent : s.sent = s.returned ++ ahead)
    (hahead : s.Ahead (frames ahead)) : (s.readHeader config k).Solitary := by
  have hreturned : s.returned <+: s.sent := ⟨ahead, hsent.symm⟩
  unfold readHeader
  cases hread : s.readExactly headerSize with
  | incomplete =>
      exact solitary_finish (s := { s with buffer := [], closed := true }) hwaiters hreturned
        (by simp)
  | failed => exact solitary_finish (s := { s with closed := true }) hwaiters hreturned (by simp)
  | wait =>
      refine ⟨hwaiters, .boundary ahead hsent hahead fun i pc hi => ?_⟩
      cases hi
      rfl
  | data b =>
      obtain ⟨hlen, rfl⟩ : headerSize ≤ s.buffer.length ∧ s.buffer.take headerSize = b := by
        unfold readExactly at hread
        split at hread
        · cases hread
        · split at hread
          · rename_i hzero
            exact absurd hzero (by decide)
          · split at hread
            · exact ⟨‹_›, Read.data.inj hread⟩
            · split at hread <;> cases hread
      cases ahead with
      | nil =>
          obtain ⟨tail, htail, _⟩ := hahead
          have hnil : s.buffer = [] := by
            simp only [frames_nil, List.nil_eq, List.append_eq_nil_iff] at htail
            exact htail.1.1
          rw [hnil] at hlen
          exact absurd hlen (by decide)
      | cons p rest =>
          have hp : p.length ≤ maxUint32 :=
            (hfits p (by rw [hsent]; simp)).trans config.sendLimit_le
          have hframe : s.Ahead (header p.length ++ (p ++ frames rest)) := by
            simpa [frame] using hahead
          obtain ⟨htake, hnext⟩ := ahead_consume hframe hlen
          simp only [length_header] at htake hnext
          simp only [htake, fromBytes_header hp]
          unfold gotHeader
          split
          · refine ⟨hwaiters, .ended hreturned (fun i pc hi => ?_) fun hnone => ?_⟩
            · cases hi
              exact ⟨_, rfl⟩
            · cases hnone
          · exact ⟨hwaiters, .payload rest p k hsent hnext rfl⟩

/-- The only call goes on. -/
theorem Solitary.resume (h : s.Solitary) (hfits : s.Fits config) (ht : s.resume config = some t) :
    t.Solitary := by
  obtain ⟨hwaiters, hstands⟩ := h
  have hreturned := hstands.returned
  cases hstands with
  | ended hfirst hclosing hover =>
      unfold Link.resume at ht
      split at ht
      · rename_i k hk
        obtain ⟨e, he⟩ := hclosing k _ hk
        cases he
      · rename_i k hk
        obtain ⟨e, he⟩ := hclosing k _ hk
        cases he
      · rename_i k size hk
        obtain ⟨e, he⟩ := hclosing k _ hk
        cases he
      · cases ht
        exact solitary_finish hwaiters hreturned (by simp)
      · cases ht
  | boundary ahead hsent hahead hheader =>
      unfold Link.resume at ht
      split at ht
      · rename_i k hk
        cases hheader k _ hk
      · split at ht
        · cases ht
        · cases ht
          exact solitary_readHeader hfits hwaiters hsent hahead
      · rename_i k size hk
        cases hheader k _ hk
      · rename_i k e hk
        cases hheader k _ hk
      · cases ht
  | payload ahead p k hsent hahead hk =>
      simp only [Link.resume, hk] at ht
      split at ht
      · rename_i b hread
        cases ht
        obtain ⟨hlen, rfl⟩ : p.length ≤ s.buffer.length ∧ s.buffer.take p.length = b := by
          unfold readExactly at hread
          split at hread
          · cases hread
          · split at hread
            · rename_i hzero
              rw [hzero]
              exact ⟨Nat.zero_le _, Read.data.inj hread⟩
            · split at hread
              · exact ⟨‹_›, Read.data.inj hread⟩
              · split at hread <;> cases hread
        obtain ⟨htake, hnext⟩ := ahead_consume hahead hlen
        have hnew : ((s.consume p.length).finish k (.returned (s.buffer.take p.length))).returned =
            s.returned ++ [p] := by
          rw [returned_finish_returned, htake]
          rfl
        refine ⟨?_, .boundary ahead ?_ hnext fun i pc hi => ?_⟩
        · change s.waiters.tail = []
          rw [hwaiters]
          rfl
        · rw [hnew, List.append_assoc]
          exact hsent
        · rw [holder_finish_none (s := s.consume p.length) hwaiters] at hi
          cases hi
      · cases ht
        exact solitary_finish (s := { s with buffer := [], closed := true }) hwaiters hreturned
          (by simp)
      · cases ht
        exact solitary_finish (s := { s with closed := true }) hwaiters hreturned (by simp)
      · cases ht

/-- Its deadline expires. -/
theorem Solitary.expire (h : s.Solitary) (ht : s.expire config = some t) : t.Solitary := by
  have hreturned := h.inStep.returned
  unfold Link.expire at ht
  split at ht
  · split at ht
    · split at ht
      · cases ht
        refine ⟨h.waiters, .ended hreturned (fun i pc hi => ?_) fun hnone => ?_⟩
        · cases hi
          exact ⟨_, rfl⟩
        · cases hnone
      · cases ht
        exact solitary_finish h.waiters hreturned (by simp)
    · cases ht
  · cases ht

/-- The network or the other end moves: what was read stays read. -/
theorem Solitary.other (h : s.Solitary) (hwaiters : t.waiters = s.waiters)
    (houtcomes : t.outcomes = s.outcomes) (hholder : t.holder = s.holder)
    (hsent : ∃ new, t.sent = s.sent ++ new ∧ ∀ b, s.Ahead b → t.Ahead (b ++ frames new)) :
    t.Solitary := by
  obtain ⟨new, hnew, hahead⟩ := hsent
  have hreturned : t.returned = s.returned := by rw [Link.returned, Link.returned, houtcomes]
  refine ⟨hwaiters.trans h.waiters, ?_⟩
  cases h.inStep with
  | boundary ahead hs ha hheader =>
      refine .boundary (ahead ++ new) (by rw [hnew, hs, hreturned, List.append_assoc]) ?_
        fun k pc hk => hheader k pc (hholder ▸ hk)
      rw [frames_append]
      exact hahead _ ha
  | payload ahead p k hs ha hk =>
      refine .payload (ahead ++ new) p k (by rw [hnew, hs, hreturned]; simp) ?_ (hholder.trans hk)
      rw [frames_append, ← List.append_assoc]
      exact hahead _ ha
  | ended hr hclosing hover =>
      refine .ended ?_ (fun k pc hk => hclosing k pc (hholder ▸ hk)) fun hnone => ?_
      · rw [hreturned, hnew]
        exact hr.trans (List.prefix_append _ _)
      · rw [houtcomes]
        exact hover (hholder ▸ hnone)

/-- The same without a new payload. -/
theorem Solitary.moves (h : s.Solitary) (hwaiters : t.waiters = s.waiters)
    (houtcomes : t.outcomes = s.outcomes) (hholder : t.holder = s.holder) (hsent : t.sent = s.sent)
    (hahead : ∀ b, s.Ahead b → t.Ahead b) : t.Solitary :=
  h.other hwaiters houtcomes hholder
    ⟨[], by simp [hsent], fun b hb => by simpa using hahead b hb⟩

/-- The other end sends a frame. -/
theorem Solitary.sendFrame (h : s.Solitary) (data : Bytes) :
    (s.sendFrame config data).Solitary := by
  unfold Link.sendFrame
  split
  · exact h
  · split
    · exact h
    · refine h.other rfl rfl rfl ⟨[data], rfl, fun b hb => ?_⟩
      obtain ⟨tail, rfl, hlost⟩ := hb
      dsimp only [Ahead]
      cases hl : s.lost with
      | true => exact ⟨tail ++ frame data, by simp, by rintro ⟨⟩⟩
      | false => exact ⟨[], by simp [hlost hl], fun _ => rfl⟩

end Link

/-- **One step keeps the reader in step**, if the calls come one after the other. -/
theorem solitary_step {l : Label} (h : s.Solitary) (hfits : s.Fits config) (hl : Sole s l)
    (ht : step config s l = some t) : t.Solitary := by
  cases l with
  | send data =>
      cases ht
      exact h.sendFrame data
  | senderCloses | setException | close | writerCloses =>
      cases ht
      exact h.moves rfl rfl rfl rfl fun _ => id
  | loses n =>
      cases ht
      refine h.moves rfl rfl rfl rfl fun b hb => ?_
      obtain ⟨tail, rfl, _⟩ := hb
      refine ⟨s.wire.drop n ++ tail, ?_, by rintro ⟨⟩⟩
      simp only [List.append_assoc]
      rw [← List.append_assoc (s.wire.take n), List.take_append_drop]
  | arrive n =>
      simp only [step] at ht
      split at ht <;> cases ht
      refine h.moves rfl rfl rfl rfl fun b hb => ?_
      obtain ⟨tail, rfl, hlost⟩ := hb
      exact ⟨tail, by simp, hlost⟩
  | feedEof =>
      simp only [step] at ht
      split at ht <;> cases ht
      exact h.moves rfl rfl rfl rfl fun _ => id
  | receive k =>
      obtain ⟨hnone, hall⟩ := hl
      simp only [step, hnone, Option.some.injEq] at ht
      subst ht
      unfold Link.enter
      split
      · exact Link.solitary_finish h.waiters h.inStep.returned (by simp)
      · cases h.inStep with
        | boundary ahead hsent hahead _ => exact Link.solitary_readHeader hfits h.waiters hsent hahead
        | payload ahead p i _ _ hi =>
            rw [hnone] at hi
            cases hi
        | ended _ _ hover =>
            obtain ⟨i, o, ho, hne⟩ := hover hnone
            obtain ⟨p, rfl⟩ := hall i o ho
            exact absurd rfl (hne p)
  | resume => exact h.resume hfits ht
  | expire => exact h.expire ht
  | cancelHolder =>
      obtain ⟨⟨k, pc⟩, _, rfl⟩ := Option.map_eq_some_iff.1 ht
      exact Link.solitary_finish h.waiters h.inStep.returned (by simp)
  | cancelWaiter k =>
      simp only [step, h.waiters, List.not_mem_nil, if_false] at ht
      cases ht

/-- Only `send_frame` writes a frame. -/
theorem sent_of_step {l : Label} (hl : ∀ data, l ≠ .send data) (ht : step config s l = some t) :
    t.sent = s.sent := by
  cases l with
  | send data => exact absurd rfl (hl data)
  | resume => exact Link.sent_resume ht
  | expire => exact Link.sent_expire ht
  | receive k =>
      simp only [step] at ht
      split at ht <;> cases ht
      · exact s.sent_enter config k
      · rfl
  | arrive n | feedEof | cancelWaiter k =>
      simp only [step] at ht
      split at ht <;> cases ht
      rfl
  | cancelHolder =>
      obtain ⟨⟨k, pc⟩, _, rfl⟩ := Option.map_eq_some_iff.1 ht
      rfl
  | senderCloses | loses n | setException | close | writerCloses =>
      cases ht
      rfl

/-- Nobody reads yet. -/
theorem solitary_initial : initial.Solitary :=
  ⟨rfl, .boundary [] rfl ⟨[], rfl, fun _ => rfl⟩ fun _ _ h => by cases h⟩

/-! ## One frame -/

/-- A link between two frames, with nothing under way. -/
def Link.idle (sent : List Bytes) (consumed : ℕ) (outcomes : List (ℕ × Outcome)) : Link :=
  { initial with sent, consumed, outcomes }

/-- Bytes that are there are read. -/
theorem Link.readExactly_of_le {s : Link} {n : ℕ} (hfailed : s.failed = false)
    (hn : n ≤ s.buffer.length) : s.readExactly n = .data (s.buffer.take n) := by
  rw [readExactly, hfailed, if_neg Bool.false_ne_true]
  by_cases hzero : n = 0
  · rw [if_pos hzero, hzero, List.take_zero]
  · rw [if_neg hzero, if_pos hn]

variable {sent : List Bytes} {consumed : ℕ} {outcomes : List (ℕ × Outcome)}

/-- A frame arrives as a whole. -/
theorem arrive_frame {p : Bytes} (hp : p.length ≤ config.sendLimit) :
    step config ((Link.idle sent consumed outcomes).sendFrame config p) (.arrive (frame p).length) =
      some { Link.idle (sent ++ [p]) consumed outcomes with buffer := frame p } := by
  have hsent : (Link.idle sent consumed outcomes).sendFrame config p =
      { Link.idle (sent ++ [p]) consumed outcomes with wire := frame p } := by
    unfold Link.sendFrame
    rw [if_neg (show ¬ (Link.idle sent consumed outcomes).senderClosed = true from
        Bool.false_ne_true), if_neg (Nat.not_lt.2 hp)]
    rfl
  rw [hsent]
  simp only [step, Link.idle, initial, Bool.false_eq_true, if_false, List.nil_append,
    List.take_length, List.drop_length]

/-- A call reads its header. -/
theorem receive_frame {p : Bytes} (hp : p.length ≤ config.receiveLimit) (k : ℕ) :
    step config { Link.idle sent consumed outcomes with buffer := frame p } (.receive k) =
      some { Link.idle sent (consumed + headerSize) outcomes with
        buffer := p, holder := some (k, .readingPayload p.length) } := by
  have hlen : headerSize ≤ (frame p).length := by
    rw [length_frame]
    exact Nat.le_add_right _ _
  have htake : (frame p).take headerSize = header p.length :=
    List.take_left' (length_header p.length)
  have hdrop : (frame p).drop headerSize = p := List.drop_left' (length_header p.length)
  have hread : Link.readExactly { Link.idle sent consumed outcomes with buffer := frame p }
      headerSize = .data (header p.length) :=
    htake ▸ Link.readExactly_of_le rfl hlen
  have hopen : ¬ Link.isClosed { Link.idle sent consumed outcomes with buffer := frame p } = true :=
    Bool.false_ne_true
  change some (Link.enter { Link.idle sent consumed outcomes with buffer := frame p } config k) = _
  rw [Link.enter, if_neg hopen, Link.readHeader, hread]
  simp only [Link.consume, Link.gotHeader, fromBytes_header (hp.trans config.receiveLimit_le),
    if_neg (Nat.not_lt.2 hp), hdrop]
  rfl

/-- It returns the payload. -/
theorem resume_frame (p : Bytes) (k : ℕ) :
    step config { Link.idle sent consumed outcomes with
        buffer := p, holder := some (k, .readingPayload p.length) } .resume =
      some (Link.idle sent (consumed + p.length) (outcomes ++ [(k, .returned p)])) := by
  have hread : Link.readExactly { Link.idle sent consumed outcomes with
      buffer := p, holder := some (k, .readingPayload p.length) } p.length = .data p := by
    rw [Link.readExactly_of_le rfl (le_refl p.length), List.take_length]
  rw [step, Link.resume]
  dsimp only
  rw [hread]
  simp only [Link.consume, Link.finish, Link.idle, initial, List.drop_length, List.head?_nil,
    Option.map_none, List.tail_nil]

end Connection
end Lan
end Paqto
