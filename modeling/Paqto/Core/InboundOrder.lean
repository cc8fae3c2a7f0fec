/-
# Inbound dispatch neither loses, duplicates nor reorders

A worker takes an item from the head of the queue that the readers append to,
so the items taken followed by those still queued only grow at the end
(`Node.history`).  What one reader accepted is its part of the history followed
by the message in its hand or the one it ended with (`Reader.Sound`), and each
step changes one reader or one worker (`Conserved.update`, `Conserved.work`).

The message in the hand of a reader need not be one that waits for the queue:
the ACK of a message is written before it is enqueued, and a reader whose ACK
cannot be written ends with the message (`not_dispatched_acknowledging`).
-/

import Paqto.Core.InboundDispatch
import Paqto.Core.Acknowledgement

namespace Paqto
namespace Core

open Transition Python

namespace InboundDispatch

variable {F P : Type} [PyFloat F]

/-- The message in the hand of the reader, unless it is a reply. -/
def ReaderPc.held : ReaderPc P → List (Item P)
  | acknowledging item | putting item => if item.isReply then [] else [item]
  | _ => []

/-- Every item that entered the queue, in order. -/
def Node.history (s : Node F P) : List (Item P) := s.taken.map Prod.snd ++ s.queue

/-- What was put into the queue for a connection, in order. -/
def Node.historyOf (s : Node F P) (c : ℕ) : List (Item P) :=
  s.history.filter (·.connection = c)

/-- A reader writes an ACK only when ACKs were negotiated, and offers the queue
no reply. -/
def ReaderPc.Allowed (session : ProtocolSession F) : ReaderPc P → Prop
  | acknowledging _ => technicalAckCapability ∈ session.capabilities
  | putting item => item.isReply = false
  | _ => True

/-- What a reader may end for. -/
def Drop.Allowed (cfg : Config P) (session : ProtocolSession F) : Drop → Prop
  | unacknowledged => technicalAckCapability ∈ session.capabilities
  | rejected => cfg.inboundBackpressure = .reject

/-- The reader of `c` owes `owed` to the queue. -/
structure Reader.Owes (cfg : Config P) (c n : ℕ) (history : List (Item P)) (r : Reader F P)
    (owed : List (Item P)) : Prop where
  flow : r.accepted = history ++ owed
  dropped : r.dropped = none
  reads : r.accepted.map Item.message = r.received.filterMap (ordinaryMessage cfg r.session)
  origin : ∀ item ∈ r.accepted, item.connection = c ∧ item.receipt < n
  nodup : (r.accepted.map Item.receipt).Nodup

/-- What holds of the reader of `c` between two steps. -/
structure Reader.Sound (cfg : Config P) (c n : ℕ) (history : List (Item P)) (r : Reader F P) :
    Prop where
  flow : r.accepted = history ++ (r.pc.held ++ (r.dropped.map Prod.snd).toList)
  reads : r.accepted.map Item.message = r.received.filterMap (ordinaryMessage cfg r.session)
  origin : ∀ item ∈ r.accepted, item.connection = c ∧ item.receipt < n
  nodup : (r.accepted.map Item.receipt).Nodup
  ended : r.dropped ≠ none → r.pc = .ended
  allowed : r.pc.Allowed r.session
  dropped : ∀ why item, r.dropped = some (why, item) → why.Allowed cfg r.session

section Reader

variable {cfg : Config P} {c n : ℕ} {history : List (Item P)} {r : Reader F P}
  {owed : List (Item P)} {item : Item P}

/-- A reader that has not ended owes what it holds. -/
theorem Reader.Sound.owes (h : r.Sound cfg c n history) (hpc : r.pc ≠ .ended) :
    r.Owes cfg c n history r.pc.held := by
  have hd : r.dropped = none := by
    by_contra hd
    exact hpc (h.ended hd)
  refine ⟨?_, hd, h.reads, h.origin, h.nodup⟩
  have hflow := h.flow
  rwa [hd, Option.map_none, Option.toList_none, List.append_nil] at hflow

/-- Later receipts do not matter. -/
theorem Reader.Owes.mono (h : r.Owes cfg c n history owed) {n' : ℕ} (hn : n ≤ n') :
    r.Owes cfg c n' history owed :=
  ⟨h.flow, h.dropped, h.reads, fun item hi => ⟨(h.origin item hi).1,
    (h.origin item hi).2.trans_le hn⟩, h.nodup⟩

/-- Later receipts do not matter. -/
theorem Reader.Sound.mono (h : r.Sound cfg c n history) {n' : ℕ} (hn : n ≤ n') :
    r.Sound cfg c n' history :=
  { h with origin := fun item hi => ⟨(h.origin item hi).1, (h.origin item hi).2.trans_le hn⟩ }

/-- The reader suspends with what it owes in its hand. -/
theorem Reader.Owes.sound (h : r.Owes cfg c n history owed) {pc : ReaderPc P}
    (hheld : pc.held = owed) (hpc : pc.Allowed r.session) :
    { r with pc }.Sound cfg c n history where
  flow := by
    rw [h.dropped, Option.map_none, Option.toList_none, List.append_nil, hheld]
    exact h.flow
  reads := h.reads
  origin := h.origin
  nodup := h.nodup
  ended hd := absurd h.dropped hd
  allowed := hpc
  dropped why item hd := by
    rw [h.dropped] at hd
    cases hd

/-- The reader ends with what it owes. -/
theorem Reader.Owes.drop (h : r.Owes cfg c n history (if item.isReply then [] else [item]))
    {why : Drop} (hwhy : why.Allowed cfg r.session) :
    { r with
      pc := .ended
      dropped := if item.isReply then r.dropped else some (why, item) }.Sound cfg c n history where
  flow := by
    have hflow := h.flow
    cases hi : item.isReply with
    | true => simpa [ReaderPc.held, hi, h.dropped] using hflow
    | false => simpa [ReaderPc.held, hi] using hflow
  reads := h.reads
  origin := h.origin
  nodup := h.nodup
  ended _ := rfl
  allowed := trivial
  dropped other _ hd := by
    simp only [h.dropped] at hd
    split at hd
    · cases hd
    · cases hd
      exact hwhy

/-- What a reader owes enters the queue. -/
theorem Reader.Owes.put (h : r.Owes cfg c n history owed) :
    r.Owes cfg c n (history ++ owed) [] :=
  { h with flow := by rw [List.append_nil]; exact h.flow }

/-- A frame that carries no ordinary message. -/
theorem Reader.Owes.receive (h : r.Owes cfg c n history owed) (frame : Bytes)
    (hf : ordinaryMessage cfg r.session frame = none) :
    { r with received := r.received ++ [frame] }.Owes cfg c n history owed :=
  { h with
    reads := by
      rw [List.filterMap_append, List.filterMap_cons_none hf, List.filterMap_nil,
        List.append_nil]
      exact h.reads }

/-- A frame that carries an ordinary message. -/
theorem Reader.Owes.accept (h : r.Owes cfg c item.receipt history []) {frame : Bytes}
    (hf : ordinaryMessage cfg r.session frame = some item.message) (hc : item.connection = c) :
    { r with
      received := r.received ++ [frame]
      accepted := r.accepted ++ [item] }.Owes cfg c (item.receipt + 1) history [item] where
  flow := by
    have hflow := h.flow
    rw [List.append_nil] at hflow
    exact congrArg (· ++ [item]) hflow
  dropped := h.dropped
  reads := by
    rw [List.map_append, h.reads, List.filterMap_append, List.filterMap_cons_some hf]
    rfl
  origin other ho := by
    rcases List.mem_append.1 ho with ho | ho
    · exact ⟨(h.origin other ho).1, (h.origin other ho).2.trans (Nat.lt_succ_self _)⟩
    · obtain rfl := List.mem_singleton.1 ho
      exact ⟨hc, Nat.lt_succ_self _⟩
  nodup := by
    rw [List.map_append, List.map_singleton, List.nodup_append]
    refine ⟨h.nodup, List.nodup_singleton _, fun k hk l hl => ?_⟩
    obtain ⟨other, ho, rfl⟩ := List.mem_map.1 hk
    obtain rfl := List.mem_singleton.1 hl
    exact (h.origin other ho).2.ne

end Reader

/-- What holds of the node between two steps. -/
structure Conserved (cfg : Config P) (s : Node F P) : Prop where
  readers : ∀ c r, s.readers c = some r → r.Sound cfg c s.nextReceipt (s.historyOf c)
  idle : ∀ c, s.readers c = none → s.historyOf c = []
  handling : ∀ w item handlers, s.workers w = .handling item handlers → (w, item) ∈ s.taken
  invoked : ∀ i ∈ s.invoked, (i.worker, i.item) ∈ s.taken

section Steps

variable {cfg : Config P} {s t : Node F P} {c : ℕ} {r : Reader F P}

/-- A step of one reader. -/
theorem Conserved.update (h : Conserved cfg s)
    (hreaders : t.readers = Function.update s.readers c (some r))
    (hr : r.Sound cfg c t.nextReceipt (t.historyOf c)) (hn : s.nextReceipt ≤ t.nextReceipt)
    (hhistory : ∀ d, d ≠ c → t.historyOf d = s.historyOf d) (hworkers : t.workers = s.workers)
    (htaken : t.taken = s.taken) (hinvoked : t.invoked = s.invoked) : Conserved cfg t where
  readers d q hq := by
    rw [hreaders] at hq
    by_cases hd : d = c
    · subst hd
      rw [Function.update_self] at hq
      cases hq
      exact hr
    · rw [Function.update_of_ne hd] at hq
      rw [hhistory d hd]
      exact (h.readers d q hq).mono hn
  idle d hq := by
    rw [hreaders] at hq
    by_cases hd : d = c
    · subst hd
      rw [Function.update_self] at hq
      cases hq
    · rw [Function.update_of_ne hd] at hq
      rw [hhistory d hd]
      exact h.idle d hq
  handling w item handlers hw := by
    rw [hworkers] at hw
    exact htaken ▸ h.handling w item handlers hw
  invoked i hi := by
    rw [hinvoked] at hi
    exact htaken ▸ h.invoked i hi

/-- A step of one worker. -/
theorem Conserved.work (h : Conserved cfg s) (hreaders : t.readers = s.readers)
    (hn : t.nextReceipt = s.nextReceipt) (hhistory : t.history = s.history)
    (hhandling : ∀ w item handlers, t.workers w = .handling item handlers → (w, item) ∈ t.taken)
    (hinvoked : ∀ i ∈ t.invoked, (i.worker, i.item) ∈ t.taken) : Conserved cfg t where
  readers d q hq := by
    unfold Node.historyOf
    rw [hn, hhistory]
    exact h.readers d q (hreaders ▸ hq)
  idle d hq := by
    unfold Node.historyOf
    rw [hhistory]
    exact h.idle d (hreaders ▸ hq)
  handling := hhandling
  invoked := hinvoked

/-! ## The steps of a reader -/

/-- What an item in the hand of a reader owes the queue. -/
def Item.owed (item : Item P) : List (Item P) := if item.isReply then [] else [item]

/-- A reader moves, and stays sound. -/
theorem Conserved.setReader (h : Conserved cfg s)
    (hr : r.Sound cfg c s.nextReceipt (s.historyOf c)) : Conserved cfg (s.setReader c r) :=
  h.update rfl hr le_rfl (fun _ _ => rfl) rfl rfl rfl

/-- A reader goes on to its next frame. -/
theorem Conserved.continueReading (h : Conserved cfg s)
    (hr : r.Owes cfg c s.nextReceipt (s.historyOf c) []) :
    Conserved cfg (s.continueReading c r) := by
  refine h.setReader (hr.sound ?_ ?_)
  · split <;> rfl
  · split <;> trivial

/-- A reader ends and owes nothing. -/
theorem Conserved.endReader (h : Conserved cfg s)
    (hr : r.Owes cfg c s.nextReceipt (s.historyOf c) []) : Conserved cfg (s.endReader c r) :=
  h.setReader (hr.sound rfl trivial)

/-- A message is dropped for a reason that is allowed. -/
theorem Conserved.dropMessage (h : Conserved cfg s) {why : Drop} {item : Item P}
    (hr : r.Owes cfg c s.nextReceipt (s.historyOf c) item.owed)
    (hwhy : why.Allowed cfg r.session) :
    Conserved cfg (s.dropMessage c r why item) :=
  h.setReader (hr.drop hwhy)

omit [PyFloat F] in
/-- An item enters the queue. -/
theorem historyOf_put (s : Node F P) (item : Item P) (d : ℕ) :
    { s with queue := s.queue ++ [item] }.historyOf d =
      s.historyOf d ++ if item.connection = d then [item] else [] := by
  unfold Node.historyOf Node.history
  rw [← List.append_assoc, List.filter_append]
  congr 1
  by_cases hd : item.connection = d <;> simp [hd]

/-- A message is put into the queue. -/
theorem Conserved.putItem (h : Conserved cfg s) {item : Item P} (hc : item.connection = c)
    (hr : r.Owes cfg c s.nextReceipt (s.historyOf c) [item]) :
    Conserved cfg (s.putItem c r item) := by
  have hput := hr.put
  rw [← if_pos (c := item.connection = c) (t := [item]) (e := []) hc, ← historyOf_put] at hput
  refine h.update (c := c) rfl (hput.sound ?_ ?_) le_rfl ?_ rfl rfl rfl
  · split <;> rfl
  · split <;> trivial
  · intro d hd
    have hne : item.connection ≠ d := fun he => hd (he ▸ hc)
    calc (s.putItem c r item).historyOf d
        = s.historyOf d ++ if item.connection = d then [item] else [] := historyOf_put s item d
      _ = s.historyOf d := by rw [if_neg hne, List.append_nil]

/-- `_enqueue_dispatch` -/
theorem Conserved.enqueueDispatch (h : Conserved cfg s) {item : Item P}
    (hc : item.connection = c) (hi : item.isReply = false)
    (hr : r.Owes cfg c s.nextReceipt (s.historyOf c) item.owed) :
    Conserved cfg (s.enqueueDispatch cfg c r item) := by
  have howed : item.owed = [item] := by simp [Item.owed, hi]
  unfold Node.enqueueDispatch
  split
  · split
    · exact h.setReader (hr.sound rfl hi)
    · next hpolicy => exact h.dropMessage hr hpolicy
  · exact h.putItem hc (howed ▸ hr)

/-- A reply is resolved, or a message goes on to the queue. -/
theorem Conserved.deliver (h : Conserved cfg s) {item : Item P}
    (hc : item.isReply = false → item.connection = c)
    (hr : r.Owes cfg c s.nextReceipt (s.historyOf c) item.owed) :
    Conserved cfg (s.deliver cfg c r item) := by
  unfold Node.deliver
  split
  · next hi =>
      rw [Item.owed, if_pos hi] at hr
      exact h.continueReading hr
  · next hi =>
      have hi : item.isReply = false := by simpa using hi
      exact h.enqueueDispatch (hc hi) hi hr

/-- A message is accepted. -/
theorem Conserved.accept (h : Conserved cfg s) {frame : Bytes} {message : Message P}
    (hr : r.Owes cfg c s.nextReceipt (s.historyOf c) [])
    (hf : ordinaryMessage cfg r.session frame =
      if message.replyTo = .none then some message else none) :
    Conserved cfg (s.accept cfg c { r with received := r.received ++ [frame] } message) := by
  have hs : Conserved cfg { s with nextReceipt := s.nextReceipt + 1 } :=
    ⟨fun d q hq => (h.readers d q hq).mono (Nat.le_succ _), h.idle, h.handling, h.invoked⟩
  unfold Node.accept
  generalize hitem : Item.mk s.nextReceipt message c r.session.peerId = item
  have hc : item.connection = c := by rw [← hitem]
  have hm : item.message = message := by rw [← hitem]
  have hn : item.receipt = s.nextReceipt := by rw [← hitem]
  have howes : { r with
      received := r.received ++ [frame]
      accepted := if item.isReply then r.accepted else r.accepted ++ [item] }.Owes cfg c
        (s.nextReceipt + 1) (s.historyOf c) item.owed := by
    cases hi : item.isReply with
    | true =>
        have hreply : message.replyTo ≠ .none := by simpa [Item.isReply, hm] using hi
        rw [if_neg hreply] at hf
        simpa [Item.owed, hi] using (hr.mono (Nat.le_succ _)).receive _ hf
    | false =>
        have hreply : message.replyTo = .none := by simpa [Item.isReply, hm] using hi
        rw [if_pos hreply, ← hm] at hf
        rw [← hn] at hr ⊢
        simpa [Item.owed, hi] using hr.accept hf hc
  simp only
  split
  · next hack =>
      split
      · exact hs.setReader (howes.sound rfl hack)
      · exact hs.dropMessage howes hack
  · exact hs.deliver (fun _ => hc) howes

/-- A frame is received. -/
theorem Conserved.receive (h : Conserved cfg s)
    (hr : r.Owes cfg c s.nextReceipt (s.historyOf c) []) (frame : Bytes) :
    Conserved cfg (s.receive cfg c r frame) := by
  unfold Node.receive
  simp only
  split
  · next hd => exact h.endReader (hr.receive frame (by simp [ordinaryMessage, hd]))
  · next hd =>
      have howes := hr.receive frame (by simp [ordinaryMessage, hd])
      split
      · exact h.continueReading howes
      · exact h.endReader howes
  · next hd =>
      have howes := hr.receive frame (by simp [ordinaryMessage, hd])
      split
      · split
        · exact h.setReader (howes.sound rfl trivial)
        · exact h.endReader howes
      · exact h.endReader howes
  · next hd =>
      have howes := hr.receive frame (by simp [ordinaryMessage, hd])
      split
      · exact h.continueReading howes
      · exact h.endReader howes
  · next data hd =>
      split
      · next hcheck => exact h.endReader (hr.receive frame (by simp [ordinaryMessage, hd, hcheck]))
      · next message hcheck => exact h.accept hr (by simp [ordinaryMessage, hd, hcheck])

/-! ## The steps of a worker -/

/-- A worker goes on to its next handler, or back to the queue. -/
theorem Conserved.runHandlers (h : Conserved cfg s) {w : ℕ} {item : Item P}
    (hw : (w, item) ∈ s.taken) (handlers : List ℕ) :
    Conserved cfg (s.runHandlers w item handlers) := by
  cases handlers with
  | nil =>
      refine h.work rfl rfl rfl (fun v other hs hv => ?_) h.invoked
      by_cases hvw : v = w
      · subst hvw
        simp [Node.runHandlers, Node.setWorker] at hv
      · simp only [Node.runHandlers, Node.setWorker, Function.update_of_ne hvw] at hv
        exact h.handling v other hs hv
  | cons handler handlers =>
      refine h.work rfl rfl rfl (fun v other hs hv => ?_) fun i hi => ?_
      · by_cases hvw : v = w
        · subst hvw
          simp only [Node.runHandlers, Node.setWorker, Function.update_self] at hv
          cases hv
          exact hw
        · simp only [Node.runHandlers, Node.setWorker, Function.update_of_ne hvw] at hv
          exact h.handling v other hs hv
      · rcases List.mem_append.1 hi with hi | hi
        · exact h.invoked i hi
        · obtain rfl := List.mem_singleton.1 hi
          exact hw

/-- A worker is left without a handler. -/
theorem Conserved.setWorker (h : Conserved cfg s) {w : ℕ} {pc : WorkerPc P}
    (hpc : ∀ item handlers, pc ≠ .handling item handlers) : Conserved cfg (s.setWorker w pc) := by
  refine h.work rfl rfl rfl (fun v item hs hv => ?_) h.invoked
  by_cases hvw : v = w
  · subst hvw
    simp only [Node.setWorker, Function.update_self] at hv
    exact absurd hv (hpc item hs)
  · simp only [Node.setWorker, Function.update_of_ne hvw] at hv
    exact h.handling v item hs hv

/-- A worker takes a message. -/
theorem Conserved.take (h : Conserved cfg s) {w : ℕ} {item : Item P} {rest : List (Item P)}
    (hq : s.queue = item :: rest) : Conserved cfg (s.take w item rest) := by
  have hs : Conserved cfg { s with queue := rest, taken := s.taken ++ [(w, item)] } := by
    refine h.work rfl rfl ?_ (fun v other hs hv => ?_) fun i hi => ?_
    · simp [Node.history, hq]
    · exact List.mem_append_left _ (h.handling v other hs hv)
    · exact List.mem_append_left _ (h.invoked i hi)
  exact hs.runHandlers (List.mem_append_right _ (List.mem_singleton_self _)) _

end Steps

/-! ## Runs -/

variable {cfg : Config P} {s : Node F P}

/-- Nothing was received yet. -/
theorem conserved_started (handlers : Attr → List ℕ) :
    Conserved cfg (started cfg handlers : Node F P) where
  readers c r hr := by cases hr
  idle c _ := rfl
  handling w item hs hw := by
    simp only [started] at hw
    split at hw <;> cases hw
  invoked i hi := by cases hi

/-- The reader of `c` is at a point where the label finds it. -/
theorem Conserved.owes (h : Conserved cfg s) {c : ℕ} {r : Reader F P}
    (hr : s.readers c = some r) (hpc : r.pc ≠ .ended) :
    r.Owes cfg c s.nextReceipt (s.historyOf c) r.pc.held :=
  (h.readers c r hr).owes hpc

/-- An ordinary message in the hand of a reader came in over its connection. -/
theorem Conserved.connection_of_held (h : Conserved cfg s) {c : ℕ} {r : Reader F P}
    (hr : s.readers c = some r) {item : Item P} (hi : item ∈ r.pc.held) : item.connection = c := by
  refine ((h.readers c r hr).origin item ?_).1
  rw [(h.readers c r hr).flow]
  exact List.mem_append_right _ (List.mem_append_left _ hi)

/-- **Every step conserves the messages.** -/
theorem Conserved.step (h : Conserved cfg s) {t : Node F P} (l : Label F)
    (hs : step cfg s l = some t) : Conserved cfg t := by
  cases l with
  | startReader c session =>
      simp only [InboundDispatch.step] at hs
      split at hs
      · next hc =>
          cases hs
          refine h.continueReading ⟨?_, rfl, rfl, fun item hi => (by cases hi), List.nodup_nil⟩
          rw [h.idle c hc]
          rfl
      · cases hs
  | receive c frame =>
      obtain ⟨r, hr, hs⟩ := Option.bind_eq_some_iff.1 hs
      split at hs
      · next hpc =>
          cases hs
          have howes := h.owes hr (by rw [hpc]; exact fun he => by cases he)
          rw [hpc] at howes
          exact h.receive howes frame
      · cases hs
  | pongWritten c =>
      obtain ⟨r, hr, hs⟩ := Option.bind_eq_some_iff.1 hs
      split at hs
      · next hpc =>
          cases hs
          have howes := h.owes hr (by rw [hpc]; exact fun he => by cases he)
          rw [hpc] at howes
          exact h.continueReading howes
      · cases hs
  | ackWritten c =>
      obtain ⟨r, hr, hs⟩ := Option.bind_eq_some_iff.1 hs
      split at hs
      · next item hpc =>
          cases hs
          have howes := h.owes hr (by rw [hpc]; exact fun he => by cases he)
          rw [hpc] at howes
          refine h.deliver (fun hi => h.connection_of_held hr ?_) howes
          simp [hpc, ReaderPc.held, hi]
      · cases hs
  | ackFailed c =>
      obtain ⟨r, hr, hs⟩ := Option.bind_eq_some_iff.1 hs
      split at hs
      · next item hpc =>
          cases hs
          have howes := h.owes hr (by rw [hpc]; exact fun he => by cases he)
          rw [hpc] at howes
          have hack := (h.readers c r hr).allowed
          rw [hpc] at hack
          exact h.dropMessage howes hack
      · cases hs
  | put c =>
      obtain ⟨r, hr, hs⟩ := Option.bind_eq_some_iff.1 hs
      split at hs
      · next item hpc =>
          split at hs
          · cases hs
          · cases hs
            have howes := h.owes hr (by rw [hpc]; exact fun he => by cases he)
            have hi := (h.readers c r hr).allowed
            rw [hpc] at hi
            change item.isReply = false at hi
            have hheld : r.pc.held = [item] := by simp [hpc, ReaderPc.held, hi]
            rw [hheld] at howes
            refine h.putItem (h.connection_of_held hr ?_) howes
            rw [hheld]
            exact List.mem_singleton_self _
      · cases hs
  | readerFailed c =>
      obtain ⟨r, hr, hs⟩ := Option.bind_eq_some_iff.1 hs
      split at hs
      · next hpc =>
          cases hs
          have howes := h.owes hr (by rw [hpc]; exact fun he => by cases he)
          rw [hpc] at howes
          exact h.endReader howes
      · next hpc =>
          cases hs
          have howes := h.owes hr (by rw [hpc]; exact fun he => by cases he)
          rw [hpc] at howes
          exact h.endReader howes
      · cases hs
  | close c =>
      cases hs
      exact h.work rfl rfl rfl h.handling h.invoked
  | take w =>
      simp only [InboundDispatch.step] at hs
      split at hs
      · next hq =>
          cases hs
          exact h.take hq
      · cases hs
  | handlerReturned w =>
      simp only [InboundDispatch.step] at hs
      split at hs
      · next hw =>
          cases hs
          exact h.runHandlers (h.handling _ _ _ hw) _
      · cases hs
  | handlerFailed w =>
      simp only [InboundDispatch.step] at hs
      split at hs
      · cases hs
        unfold Node.handlerFailed
        split
        · exact h.setWorker fun _ _ he => by cases he
        · exact h.setWorker fun _ _ he => by cases he
      · cases hs
  | connectionClosed w =>
      simp only [InboundDispatch.step] at hs
      split at hs
      · next item _ =>
        cases hs
        have hclose : Conserved cfg
            { s with isClosed := Function.update s.isClosed item.connection true } :=
          h.work rfl rfl rfl h.handling h.invoked
        exact hclose.setWorker fun _ _ he => by cases he
      · cases hs
  | workerEnded w =>
      simp only [InboundDispatch.step] at hs
      split at hs <;> cases hs <;> exact h.setWorker fun _ _ he => by cases he
  | handlerFinished w =>
      simp only [InboundDispatch.step] at hs
      split at hs
      · cases hs
        have hgone : Conserved cfg (s.setWorker w .absent) :=
          h.setWorker fun _ _ he => by cases he
        have hnew : Conserved cfg ((s.setWorker w .absent).setWorker s.nextWorker .waiting) :=
          hgone.setWorker fun _ _ he => by cases he
        exact hnew.work rfl rfl rfl hnew.handling hnew.invoked
      · cases hs
  | addHandler type handler =>
      cases hs
      exact h.work rfl rfl rfl h.handling h.invoked

/-- **Every run conserves the messages.** -/
theorem conserved (h : Reachable (system cfg) s) : Conserved cfg s := by
  refine Reachable.invariant ?_ (fun _ l _ hI hs => hI.step l hs) h
  rintro _ ⟨handlers, rfl⟩
  exact conserved_started handlers

/-! ## Every message has one place -/

/-- The place of the message in the hand of the reader. -/
def ReaderPc.slot : ReaderPc P → List (Place × Item P)
  | acknowledging item => if item.isReply then [] else [(.acknowledging, item)]
  | putting item => if item.isReply then [] else [(.blocked, item)]
  | _ => []

/-- The items that workers took and those still queued. -/
def Node.shared (s : Node F P) : List (Place × Item P) :=
  s.taken.map (fun p => (.taken p.1, p.2)) ++ s.queue.map (Prod.mk .queued)

/-- The messages that the reader of `c` accepted, with their places. -/
def Node.slots (s : Node F P) (c : ℕ) (r : Reader F P) : List (Place × Item P) :=
  s.shared.filter (·.2.connection = c) ++
    (r.pc.slot ++ (r.dropped.map fun p => (Place.dropped p.1, p.2)).toList)

/-- What a reader holds is in its slot. -/
theorem ReaderPc.map_slot (pc : ReaderPc P) : pc.slot.map Prod.snd = pc.held := by
  cases pc with
  | acknowledging item => cases hi : item.isReply <;> simp [slot, held, hi]
  | putting item => cases hi : item.isReply <;> simp [slot, held, hi]
  | receiving | ponging | ended => rfl

omit [PyFloat F] in
/-- What was put is the history. -/
theorem Node.map_shared (s : Node F P) : s.shared.map Prod.snd = s.history := by
  simp [shared, history, Function.comp_def]

/-- The slots of a connection hold what its reader has accepted. -/
theorem Conserved.map_slots (h : Conserved cfg s) {c : ℕ} {r : Reader F P}
    (hr : s.readers c = some r) : (s.slots c r).map Prod.snd = r.accepted := by
  have hshared : (s.shared.filter (·.2.connection = c)).map Prod.snd = s.historyOf c := by
    unfold Node.historyOf
    rw [← s.map_shared, List.filter_map]
    rfl
  have hdropped : ((r.dropped.map fun p => (Place.dropped p.1, p.2)).toList).map Prod.snd =
      (r.dropped.map Prod.snd).toList := by
    cases r.dropped <;> rfl
  unfold Node.slots
  rw [List.map_append, List.map_append, hshared, ReaderPc.map_slot, hdropped]
  exact (h.readers c r hr).flow.symm

omit [PyFloat F] in
/-- A message in a slot is at that place. -/
theorem Node.at_of_mem_slots {c : ℕ} {r : Reader F P} (hr : s.readers c = some r)
    {item : Item P} (hc : item.connection = c) {p : Place} (hp : (p, item) ∈ s.slots c r) :
    s.At item p := by
  subst hc
  rcases List.mem_append.1 hp with hp | hp
  · rcases List.mem_append.1 (List.mem_of_mem_filter hp) with hp | hp
    · obtain ⟨⟨w, other⟩, ho, he⟩ := List.mem_map.1 hp
      cases he
      exact ho
    · obtain ⟨other, ho, he⟩ := List.mem_map.1 hp
      cases he
      exact ho
  · rcases List.mem_append.1 hp with hp | hp
    · cases hpc : r.pc with
      | acknowledging other =>
          rw [hpc, ReaderPc.slot] at hp
          split at hp
          · cases hp
          · cases List.mem_singleton.1 hp
            exact ⟨r, hr, hpc⟩
      | putting other =>
          rw [hpc, ReaderPc.slot] at hp
          split at hp
          · cases hp
          · cases List.mem_singleton.1 hp
            exact ⟨r, hr, hpc⟩
      | receiving | ponging | ended =>
          rw [hpc] at hp
          cases hp
    · obtain ⟨⟨why, other⟩, hd, he⟩ := Option.map_eq_some_iff.1 (Option.mem_toList.1 hp)
      cases he
      exact ⟨r, hr, hd⟩

omit [PyFloat F] in
/-- A message at a place is in a slot of its connection. -/
theorem Node.mem_slots_of_at {c : ℕ} {r : Reader F P} (hr : s.readers c = some r)
    {item : Item P} (hc : item.connection = c) (hi : item.isReply = false) {p : Place}
    (hp : s.At item p) : (p, item) ∈ s.slots c r := by
  subst hc
  cases p with
  | taken w =>
      refine List.mem_append_left _ (List.mem_filter.2 ⟨List.mem_append_left _ ?_, by simp⟩)
      exact List.mem_map.2 ⟨(w, item), hp, rfl⟩
  | queued =>
      refine List.mem_append_left _ (List.mem_filter.2 ⟨List.mem_append_right _ ?_, by simp⟩)
      exact List.mem_map.2 ⟨item, hp, rfl⟩
  | blocked =>
      obtain ⟨q, hq, hpc⟩ := hp
      cases hr.symm.trans hq
      refine List.mem_append_right _ (List.mem_append_left _ ?_)
      simp [hpc, ReaderPc.slot, hi]
  | acknowledging =>
      obtain ⟨q, hq, hpc⟩ := hp
      cases hr.symm.trans hq
      refine List.mem_append_right _ (List.mem_append_left _ ?_)
      simp [hpc, ReaderPc.slot, hi]
  | dropped why =>
      obtain ⟨q, hq, hd⟩ := hp
      cases hr.symm.trans hq
      refine List.mem_append_right _ (List.mem_append_right _ ?_)
      simp [hd]

/-- An ordinary message is no reply. -/
theorem ordinaryMessage_replyTo {session : ProtocolSession F} {frame : Bytes}
    {message : Message P} (h : ordinaryMessage cfg session frame = some message) :
    message.replyTo = .none := by
  unfold ordinaryMessage at h
  split at h
  · split at h
    · split at h
      · next hn => exact Option.some.inj h ▸ hn
      · cases h
    · cases h
  · cases h

/-- An accepted message came in with a frame. -/
theorem Conserved.exists_frame (h : Conserved cfg s) {c : ℕ} {r : Reader F P}
    (hr : s.readers c = some r) {item : Item P} (hi : item ∈ r.accepted) :
    ∃ frame ∈ r.received, ordinaryMessage cfg r.session frame = some item.message := by
  have hm := List.mem_map_of_mem (f := Item.message) hi
  rw [(h.readers c r hr).reads] at hm
  exact List.mem_filterMap.1 hm

/-- **An accepted message is at exactly one place.** -/
theorem Conserved.existsUnique_at (h : Conserved cfg s) {c : ℕ} {r : Reader F P}
    (hr : s.readers c = some r) {item : Item P} (hi : item ∈ r.accepted) :
    ∃! p, s.At item p := by
  have hsound := h.readers c r hr
  have hc := (hsound.origin item hi).1
  obtain ⟨_, _, hordinary⟩ := h.exists_frame hr hi
  have hreply : item.isReply = false := by
    simp [Item.isReply, ordinaryMessage_replyTo hordinary]
  have hnodup : ((s.slots c r).map Prod.snd).Nodup := by
    rw [h.map_slots hr]
    exact hsound.nodup.of_map
  have hmem := hi
  rw [← h.map_slots hr] at hmem
  obtain ⟨⟨p, other⟩, hp, rfl⟩ := List.mem_map.1 hmem
  refine ⟨p, Node.at_of_mem_slots hr hc hp, fun q hq => ?_⟩
  have hq' := Node.mem_slots_of_at hr hc hreply hq
  exact congrArg Prod.fst (List.inj_on_of_nodup_map hnodup hq' hp rfl)

/-- What workers took, connection by connection, is what was accepted first. -/
theorem Conserved.takenFrom_prefix (h : Conserved cfg s) {c : ℕ} {r : Reader F P}
    (hr : s.readers c = some r) : s.takenFrom c <+: r.accepted := by
  rw [(h.readers c r hr).flow]
  unfold Node.historyOf Node.history
  rw [List.filter_append, List.append_assoc]
  exact List.prefix_append _ _

/-- Everything a worker took was accepted by the reader of its connection. -/
theorem Conserved.accepted_of_taken (h : Conserved cfg s) {item : Item P}
    (hi : item ∈ s.taken.map Prod.snd) :
    ∃ r, s.readers item.connection = some r ∧ item ∈ r.accepted := by
  have hof : item ∈ s.historyOf item.connection :=
    List.mem_filter.2 ⟨List.mem_append_left _ hi, by simp⟩
  cases hr : s.readers item.connection with
  | none =>
      rw [h.idle _ hr] at hof
      cases hof
  | some r =>
      refine ⟨r, rfl, ?_⟩
      rw [(h.readers _ r hr).flow]
      exact List.mem_append_left _ hof

/-- No item is taken twice. -/
theorem Conserved.nodup_taken (h : Conserved cfg s) : (s.taken.map Prod.snd).Nodup := by
  rw [List.nodup_iff_sublist]
  intro item hd
  obtain ⟨r, hr, _⟩ := h.accepted_of_taken (hd.subset List.mem_cons_self)
  have htwice : [item, item].Sublist (s.takenFrom item.connection) := by
    have hsub := hd.filter fun i : Item P => decide (i.connection = item.connection)
    simpa [Node.takenFrom] using hsub
  have hnodup := (h.readers _ r hr).nodup.of_map
  have hle := htwice.trans (h.takenFrom_prefix hr).sublist
  exact List.nodup_iff_sublist.1 hnodup item hle

/-! ## The law of the inbound queue -/

/-- **In order, none lost, none twice.** -/
structure Node.Dispatched (cfg : Config P) (s : Node F P) : Prop where
  /-- The accepted messages are the ordinary ones among the frames received. -/
  accepted : ∀ c r, s.readers c = some r →
    r.accepted.map Item.message = r.received.filterMap (ordinaryMessage cfg r.session)
  inOrder : ∀ c r, s.readers c = some r → s.takenFrom c <+: r.accepted ∧ r.accepted.Nodup
  once : (s.taken.map Prod.snd).Nodup
  placed : ∀ c r, s.readers c = some r → ∀ item ∈ r.accepted,
    item.connection = c ∧ ∃! p, s.At item p
  /-- A message is with the ACK writer only when ACKs were negotiated. -/
  acknowledging : ∀ c r item, s.readers c = some r → r.pc = .acknowledging item →
    technicalAckCapability ∈ r.session.capabilities
  /-- A reader drops one message, and ends with it. -/
  dropped : ∀ c r why item, s.readers c = some r → r.dropped = some (why, item) →
    r.pc = .ended ∧ why.Allowed cfg r.session
  handled : ∀ i ∈ s.invoked, (i.worker, i.item) ∈ s.taken ∧ i.item.message.replyTo = .none ∧
    ∃ r, s.readers i.item.connection = some r ∧ ∃ frame ∈ r.received,
      ordinaryMessage cfg r.session frame = some i.item.message

/-- What the invariant says of the messages. -/
theorem Conserved.dispatched (h : Conserved cfg s) : s.Dispatched cfg where
  accepted c r hr := (h.readers c r hr).reads
  inOrder c r hr := ⟨h.takenFrom_prefix hr, (h.readers c r hr).nodup.of_map⟩
  once := h.nodup_taken
  placed c r hr item hi := ⟨((h.readers c r hr).origin item hi).1, h.existsUnique_at hr hi⟩
  acknowledging c r item hr hpc := by
    have hallowed := (h.readers c r hr).allowed
    rwa [hpc] at hallowed
  dropped c r why item hr hd := by
    have hsound := h.readers c r hr
    exact ⟨hsound.ended (by simp [hd]), hsound.dropped why item hd⟩
  handled i hi := by
    have htaken := h.invoked i hi
    obtain ⟨r, hr, hacc⟩ := h.accepted_of_taken (List.mem_map_of_mem (f := Prod.snd) htaken)
    obtain ⟨frame, hf, hordinary⟩ := h.exists_frame hr hacc
    exact ⟨htaken, ordinaryMessage_replyTo hordinary, r, hr, frame, hf, hordinary⟩

/-- **Inbound dispatch loses, duplicates and reorders nothing** in any run
between a `start()` and the next `stop()`, whatever the sessions, the handlers
and the policies: what workers take from a session is what its reader accepted
first, and every accepted message is with one worker, in the queue, in the hand
of the reader that waits for the queue or writes the ACK, or the one that ended
the session because the queue rejected it or its ACK could not be written. -/
theorem inbound_dispatched (cfg : Config P) :
    ∀ s : Node F P, Reachable (system cfg) s → s.Dispatched cfg :=
  fun _ h => (conserved h).dispatched

/-! ## One message, dispatched or lost with its ACK -/

/-- A node with one worker. -/
def sampleConfig : Config Unit where
  peerId := sampleB.peerId
  serializer := Messaging.sampleSerializer
  maxInboundQueue := 1
  inboundBackpressure := .wait
  handlerErrorPolicy := .continue
  handlerConcurrency := 1

/-- The session that `b` negotiates with `a`. -/
def sampleSession : ProtocolSession SampleFloat := sessionOf sampleB sampleA ⟨false, none⟩

/-- A message. -/
def sampleItem : Item Unit where
  receipt := 0
  message := Messaging.sampleMessage
  connection := 0
  peerId := sampleA.peerId

/-- The node while it writes the ACK of the message of `a`. -/
def sampleNode : Node SampleFloat Unit :=
  { ((started sampleConfig fun _ => [7]).setReader 0
      ⟨sampleSession, .receiving, [], [], none⟩).setReader 0
      ⟨sampleSession, .acknowledging sampleItem, [[1, 1]], [sampleItem], none⟩ with
    nextReceipt := 1 }

/-- A message that asks for an ACK is acknowledged first. -/
theorem accept_eq (cfg : Config P) (s : Node F P) (c : ℕ) (r : Reader F P) {message : Message P}
    {id : Identifier} {frame : Bytes} (hcap : technicalAckCapability ∈ r.session.capabilities)
    (hid : message.id.identifier = some id)
    (hack : encodeAcknowledgementFrame (F := F) id = .ok frame) :
    s.accept cfg c r message =
      let item : Item P := ⟨s.nextReceipt, message, c, r.session.peerId⟩
      { s with nextReceipt := s.nextReceipt + 1 }.setReader c
        { r with
          pc := .acknowledging item
          accepted := if item.isReply then r.accepted else r.accepted ++ [item] } := by
  unfold Node.accept
  rw [hid, Option.map_some, hack]
  exact if_pos hcap

/-- A run that receives it. -/
theorem sampleNode_reachable : Reachable (system sampleConfig) sampleNode := by
  obtain ⟨frame, hack⟩ := Messaging.sampleId_encodes
  have h0 : Reachable (system sampleConfig) (started sampleConfig fun _ => [7] :
      Node SampleFloat Unit) := .init ⟨fun _ => [7], rfl⟩
  have h1 : Reachable (system sampleConfig)
      ((started sampleConfig fun _ => [7]).setReader 0
        (⟨sampleSession, .receiving, [], [], none⟩ : Reader SampleFloat Unit)) :=
    h0.next (Label.startReader 0 sampleSession) rfl
  refine h1.next (Label.receive 0 [1, 1]) ?_
  have haccept := accept_eq sampleConfig ((started sampleConfig fun _ => [7]).setReader 0
    (⟨sampleSession, .receiving, [], [], none⟩ : Reader SampleFloat Unit)) 0
    ⟨sampleSession, .receiving, [[1, 1]], [], none⟩ (by decide)
    (show Messaging.sampleMessage.id.identifier = some (Messaging.sampleId 0) from rfl) hack
  exact congrArg some haccept

/-- A message whose ACK cannot be written is in no queue and with no worker. -/
theorem not_dispatched_acknowledging : ¬ ∀ (cfg : Config Unit) (s : Node SampleFloat Unit),
    Reachable (system cfg) s → ∀ c r, s.readers c = some r → ∀ item ∈ r.accepted,
      (∃ w, s.At item (.taken w)) ∨ s.At item .queued ∨ s.At item .blocked ∨
        cfg.inboundBackpressure = .reject ∧ s.At item (.dropped .rejected) := by
  intro h
  have hrun := h sampleConfig _ (sampleNode_reachable.next (Label.ackFailed 0) rfl) 0 _ rfl _
    List.mem_cons_self
  rcases hrun with ⟨w, hw⟩ | hq | ⟨r, hr, hpc⟩ | ⟨hpolicy, _⟩
  · cases hw
  · cases hq
  · cases hr
    cases hpc
  · cases hpolicy

/-- A worker has taken the message, and its handler runs. -/
theorem inbound_dispatched_sample : ∃ s : Node SampleFloat Unit,
    Reachable (system sampleConfig) s ∧ s.takenFrom 0 ≠ [] ∧ s.invoked ≠ [] ∧
      s.Dispatched sampleConfig := by
  have h := sampleNode_reachable.exec (show exec (step sampleConfig) _
    [.ackWritten 0, .take 0] = some _ from rfl)
  exact ⟨_, h, List.cons_ne_nil _ _, List.cons_ne_nil _ _, inbound_dispatched sampleConfig _ h⟩

end InboundDispatch
end Core
end Paqto
