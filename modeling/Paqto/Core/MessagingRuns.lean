/-
# The calls of a messaging node, and its runs

The invariant of `Core.MessagingInvariant` is kept by `send`, `request` and
`reply`, and so by every step (`inv_step`).
-/

import Paqto.Core.MessagingInvariant

namespace Paqto
namespace Core
namespace Messaging

open Transition Python Correlation

variable {F P : Type} [PyFloat F]
variable {cfg : Config F P} {E : Evidence} {free : Option ℕ} {s : Node F P} {c k r : ℕ}

/-- How a call may change. -/
structure Call.Grows (call call' : Call F P) : Prop where
  args : call'.args = call.args
  message : call'.message = call.message
  connection : ∀ c, call.connection = some c → call'.connection = some c
  session : ∀ session, call.session = some session → call'.session = some session
  frameQueued : call.frameQueued = true → call'.frameQueued = true

omit [PyFloat F] in
/-- A reply answers a call that has gone on. -/
theorem Answers.grows {receipts : ℕ → Option (Receipt F P)} {call call' : Call F P}
    (h : Answers cfg receipts k call r) (hg : call.Grows call') :
    Answers cfg receipts k call' r := by
  obtain ⟨receipt, hr, ho, hreply, hconn, hkind⟩ := h
  exact ⟨receipt, hr, ho, hreply, hg.connection _ hconn, hg.args ▸ hkind⟩

omit [PyFloat F] in
/-- An ACK acknowledges a call that has gone on. -/
theorem Acknowledges.grows {call call' : Call F P} {a : Arrival F}
    (h : Acknowledges cfg call a) (hg : call.Grows call') : Acknowledges cfg call' a := by
  obtain ⟨session, hs, hp⟩ := h.peer
  exact ⟨h.bound, hg.connection _ h.connection, session, hg.session _ hs, hp⟩

namespace Inv

omit [PyFloat F] in
/-- An entry is that of a call when its key is the id of the call. -/
theorem owner_iff {calls : ℕ → Option (Call F P)} {e : Entry Str ℕ ℕ Str}
    (h : EntryFits cfg calls e) : e.owner = k ↔ e.key = cfg.messageId k := by
  constructor
  · rintro rfl
    exact h.1
  · intro hk
    exact cfg.messageId_injective (Subtype.ext (h.1.symm.trans hk))

omit [PyFloat F] in
/-- An entry of a call that has changed. -/
theorem entry_setCall {calls : ℕ → Option (Call F P)} {call call' : Call F P}
    {e : Entry Str ℕ ℕ Str} (he : EntryFits cfg calls e) (hk : calls k = some call)
    (hg : call.Grows call') (hend : e.owner = k → call'.pc.isEnded = false) :
    EntryFits cfg (Function.update calls k (some call')) e := by
  obtain ⟨hkey, old, hold, hne, hconn⟩ := he
  refine ⟨hkey, ?_⟩
  by_cases hek : e.owner = k
  · rw [hek] at hold
    obtain rfl : call = old := Option.some.inj (hk ▸ hold)
    exact ⟨call', by simp [hek], hend hek, hg.connection _ hconn⟩
  · exact ⟨old, by simpa [hek] using hold, hne, hconn⟩

/-- A call changes, and leaves no entry behind if it is over. -/
theorem setCall (h : Inv cfg E free s) {call call' : Call F P} (hk : s.calls k = some call)
    (hg : call.Grows call') (hfit : CallFits cfg E s.receipts k call')
    (hend : call'.pc.isEnded = true → (∀ e ∈ s.requests.entries, e.owner ≠ k) ∧
      ∀ e ∈ s.acknowledgements.entries, e.owner ≠ k) :
    Inv cfg E free (s.setCall k call') := by
  have hne : ∀ {l : List (Entry Str ℕ ℕ Str)} {e}, e ∈ l →
      (call'.pc.isEnded = true → ∀ e ∈ l, e.owner ≠ k) → e.owner = k →
        call'.pc.isEnded = false := by
    intro l e he hl hek
    by_contra hne
    exact hl (by simpa using hne) e he hek
  refine { h with
    calls := fun i old hi => ?_
    callsFresh := fun i hi => ?_
    requests := h.requests.mono (fun e he ⟨hentry, hkind⟩ => ?_)
      fun i a _ ⟨old, hi, ha⟩ => ?_
    acknowledgements := h.acknowledgements.mono (fun e he ⟨hentry, hsession⟩ => ?_)
      fun i a _ ⟨old, hi, ha, hev⟩ => ?_
    frames := fun d f hf => ?_ }
  · by_cases hik : i = k
    · subst hik
      simp only [Node.setCall, Function.update_self, Option.some.injEq] at hi
      exact hi ▸ hfit
    · exact h.calls i old (by simpa [Node.setCall, hik] using hi)
  · have hik : i ≠ k := by
      rintro rfl
      have := h.callsFresh i hi
      rw [hk] at this
      cases this
    simpa [Node.setCall, hik] using h.callsFresh i hi
  · refine ⟨entry_setCall hentry hk hg (hne he fun hend' => (hend hend').1), fun old ho => ?_⟩
    by_cases hek : e.owner = k
    · simp only [Node.setCall, hek, Function.update_self, Option.some.injEq] at ho
      subst ho
      exact hg.args ▸ hkind call (hek ▸ hk)
    · exact hkind old (by simpa [Node.setCall, hek] using ho)
  · by_cases hik : i = k
    · subst hik
      obtain rfl : call = old := Option.some.inj (hk ▸ hi)
      exact ⟨call', by simp [Node.setCall], ha.grows hg⟩
    · exact ⟨old, by simpa [Node.setCall, hik] using hi, ha⟩
  · refine ⟨entry_setCall hentry hk hg (hne he fun hend' => (hend hend').2), fun old ho => ?_⟩
    by_cases hek : e.owner = k
    · simp only [Node.setCall, hek, Function.update_self, Option.some.injEq] at ho
      subst ho
      obtain ⟨session, hs, hp⟩ := hsession call (hek ▸ hk)
      exact ⟨session, hg.session _ hs, hp⟩
    · exact hsession old (by simpa [Node.setCall, hek] using ho)
  · by_cases hik : i = k
    · subst hik
      obtain rfl : call = old := Option.some.inj (hk ▸ hi)
      exact ⟨call', by simp [Node.setCall], ha.grows hg, hev⟩
    · exact ⟨old, by simpa [Node.setCall, hik] using hi, ha, hev⟩
  · have hfit' := h.frames d f hf
    unfold FrameFits at hfit' ⊢
    split at hfit'
    · obtain ⟨old, data, hi, hconn, hq, hser, hdata⟩ := hfit'
      rename_i i _
      by_cases hik : i = k
      · subst hik
        obtain rfl : call = old := Option.some.inj (hk ▸ hi)
        exact ⟨call', data, by simp [Node.setCall], hg.connection _ hconn, hg.frameQueued hq,
          hg.message ▸ hser, hdata⟩
      · exact ⟨old, data, by simpa [Node.setCall, hik] using hi, hconn, hq, hser, hdata⟩
    · exact hfit'
    · exact hfit'

/-- **A call ends**, and no entry of it remains. -/
theorem endCall (h : Inv cfg E free s) {call call' : Call F P} (hk : s.calls k = some call)
    {pc : CallPc} (hg : call.Grows { call' with pc })
    (hfit : CallFits cfg E s.receipts k { call' with pc }) :
    Inv cfg E free (s.endCall k (cfg.messageId k) call' pc) := by
  have h' : Inv cfg E free { s with
      requests := s.requests.release (cfg.messageId k : Str) k
      acknowledgements := s.acknowledgements.release (cfg.messageId k : Str) k } :=
    { h with
      requests := h.requests.release _ _
      acknowledgements := h.acknowledgements.release _ _ }
  exact h'.setCall hk hg hfit fun _ =>
    ⟨fun e he => h.requests.release_owner (fun _ hf => owner_iff hf.1) he,
      fun e he => h.acknowledgements.release_owner (fun _ hf => owner_iff hf.1) he⟩

end Inv

/-- A wait that a call has not yet come out of. -/
def CallPc.isWaiting : CallPc → Bool
  | queueing _ | queued | awaitingAck | awaitingReply => true
  | _ => false

/-- A place after the frame of a call was queued. -/
def CallPc.isLate : CallPc → Bool
  | queued | awaitingAck | awaitingReply | returned _ | raised _ => true
  | _ => false

namespace CallFits

variable {receipts : ℕ → Option (Receipt F P)} {call : Call F P}

omit [PyFloat F] in
/-- A call comes out of a wait. -/
theorem proceed (h : CallFits cfg E receipts k call) (hw : call.pc.isWaiting = true) {pc : CallPc}
    (hpc : pc.isLate = true) {q a : Bool}
    (hret : ∀ target reply, call.args.kind = .request target → pc = .returned reply →
      ∃ r, reply = some r ∧ Answers cfg receipts k call r)
    (hacked : a = true → ∃ b, Acknowledges cfg call b ∧ E.ack k b.connection) :
    CallFits cfg E receipts k { call with pc, frameQueued := q, acked := a } where
  message := h.message
  connecting he := by
    have he : pc = .connecting := he
    subst he
    cases hpc
  early he := by
    rcases he with he | he <;>
    · have he : pc = _ := he
      subst he
      cases hpc
  queueing frame he := by
    have he : pc = _ := he
    subst he
    cases hpc
  unavailable session hs hr hcap := by
    rcases (h.unavailable session hs hr hcap).2 with he | he <;>
    · rw [he] at hw
      cases hw
  returned target reply ht hr := hret target reply ht hr
  acked ha :=
    let ⟨b, hb, he⟩ := hacked ha
    ⟨b, ⟨hb.bound, hb.connection, hb.peer⟩, he⟩

omit [PyFloat F] in
/-- A call fails before it has queued its frame. -/
theorem fail (h : CallFits cfg E receipts k call)
    (hpc : call.pc = .connecting ∨ call.pc = .sending) {e : CallError}
    (he : ∀ session, call.session = some session → call.args.requireAck = some true →
      technicalAckCapability ∉ session.capabilities → e = .acknowledgementUnavailable) :
    CallFits cfg E receipts k { call with pc := .raised e } where
  message := h.message
  connecting hc := by cases hc
  early hc := by rcases hc with hc | hc <;> cases hc
  queueing _ hc := by cases hc
  unavailable session hs hr hcap :=
    ⟨(h.early hpc).1, .inr (congrArg CallPc.raised (he session hs hr hcap))⟩
  returned _ _ _ hc := by cases hc
  acked ha := by
    have := (h.early hpc).2
    rw [show call.acked = true from ha] at this
    cases this

end CallFits

namespace Inv

/-! ## Calls -/

variable {call : Call F P}

/-- A call fails before it has queued its frame. -/
theorem failCall (h : Inv cfg E free s) (hk : s.calls k = some call)
    (hpc : call.pc = .connecting ∨ call.pc = .sending) {e : CallError}
    (he : ∀ session, call.session = some session → call.args.requireAck = some true →
      technicalAckCapability ∉ session.capabilities → e = .acknowledgementUnavailable) :
    Inv cfg E free (s.endCall k (cfg.messageId k) call (.raised e)) :=
  h.endCall hk ⟨rfl, rfl, fun _ => id, fun _ => id, id⟩ ((h.calls k call hk).fail hpc he)

/-- A call that waits ends. -/
theorem endWaiting (h : Inv cfg E free s) (hk : s.calls k = some call)
    (hw : call.pc.isWaiting = true) {pc : CallPc} (hpc : pc.isLate = true) {a : Bool}
    (hret : ∀ target reply, call.args.kind = .request target → pc = .returned reply →
      ∃ r, reply = some r ∧ Answers cfg s.receipts k call r)
    (hacked : a = true → ∃ b, Acknowledges cfg call b ∧ E.ack k b.connection) :
    Inv cfg E free (s.endCall k (cfg.messageId k) { call with acked := a } pc) :=
  h.endCall hk ⟨rfl, rfl, fun _ => id, fun _ => id, id⟩
    ((h.calls k call hk).proceed hw hpc hret hacked)

/-- A call queues its frame. -/
theorem sendFrame (h : Inv cfg E free s) (hk : s.calls k = some call) (hpc : call.pc = .sending)
    (hsession : call.session = none) (hconn : call.connection = some c) {requireAck : Bool}
    (hr : call.args.requireAck = some requireAck) (session : ProtocolSession F) :
    Inv cfg E free (s.sendFrame cfg k call c requireAck session) := by
  have hfit := h.calls k call hk
  have hearly := hfit.early (.inr hpc)
  have hfit' : CallFits cfg E s.receipts k { call with session := some session } :=
    { hfit with
      connecting := fun hc => by simp [hpc] at hc
      unavailable := fun _ _ _ _ => ⟨hearly.1, .inl hpc⟩
      acked := fun ha => by
        rw [show call.acked = true from ha] at hearly
        cases hearly.2 }
  have h' : Inv cfg E free (s.setCall k { call with session := some session }) := by
    refine h.setCall hk ⟨rfl, rfl, fun _ => id, fun _ hs => ?_, id⟩ hfit' fun hend => ?_
    · rw [hsession] at hs
      cases hs
    · simp [hpc, CallPc.isEnded] at hend
  have hk' : (s.setCall k { call with session := some session }).calls k =
      some { call with session := some session } := by simp [Node.setCall]
  unfold Node.sendFrame
  dsimp only
  split
  · exact h'.failCall hk' (.inr hpc) fun _ _ _ _ => rfl
  · rename_i hcap
    have havail : ∀ found, some session = some found →
        call.args.requireAck = some true → technicalAckCapability ∈ found.capabilities := by
      intro found hs hreq
      cases hs
      obtain rfl : requireAck = true := Option.some.inj (hr ▸ hreq)
      simpa using hcap
    have hfail : ∀ e, Inv cfg E free ((s.setCall k { call with session := some session }).endCall k
        (cfg.messageId k) { call with session := some session } (.raised e)) := fun e =>
      h'.failCall hk' (.inr hpc) fun found hs hreq hno => absurd (havail found hs hreq) hno
    split
    · exact hfail _
    · rename_i data hser
      split
      · exact hfail _
      · rename_i frame hframe
        have hdata : frame = applicationFrame :: data := by
          unfold encodeApplicationFrame at hframe
          split at hframe <;> cases hframe
          rfl
        have hqueue : CallFits cfg E s.receipts k
            { call with session := some session, pc := .queueing frame } :=
          { hfit' with
            connecting := fun hc => by cases hc
            early := fun hc => by rcases hc with hc | hc <;> cases hc
            queueing := fun _ hc => by
              cases hc
              exact ⟨data, hser, hdata⟩
            unavailable := fun found hs hreq hno => absurd (havail found hs hreq) hno
            returned := fun _ _ _ hc => by cases hc
            acked := fun ha => by
              rw [show call.acked = true from ha] at hearly
              cases hearly.2 }
        have hset : ∀ {u : Node F P}, Inv cfg E free u →
            u.calls k = some { call with session := some session } →
            u.receipts = s.receipts →
            Inv cfg E free (u.setCall k
              { call with session := some session, pc := .queueing frame }) := by
          intro u hu huk hur
          exact hu.setCall huk ⟨rfl, rfl, fun _ => id, fun _ => id, id⟩ (hur ▸ hqueue)
            fun hend => by cases hend
        split
        · split
          · exact hfail _
          · split
            · exact hfail _
            · rename_i hlimit
              refine hset (u := { s.setCall k { call with session := some session } with
                acknowledgements := _ }) { h' with
                  acknowledgements := h'.acknowledgements.register ⟨⟨rfl, _, hk', ?_, hconn⟩, ?_⟩
                    (Nat.lt_of_not_le hlimit) } hk' rfl
              · simp [hpc, CallPc.isEnded]
              · rintro found hfound
                rw [hk'] at hfound
                cases hfound
                exact ⟨session, rfl, rfl⟩
        · exact hset h' hk' rfl

/-- A call sends its message. -/
theorem sendMessage (h : Inv cfg E free s) (hk : s.calls k = some call)
    (hpc : call.pc = .sending) (hsession : call.session = none)
    (hconn : call.connection = some c) : Inv cfg E free (s.sendMessage cfg k call c) := by
  have hfail : ∀ e, Inv cfg E free (s.endCall k (cfg.messageId k) call (.raised e)) := fun e =>
    h.failCall hk (.inr hpc) fun session hs => by
      rw [hsession] at hs
      cases hs
  unfold Node.sendMessage
  dsimp only
  split
  · exact hfail _
  · rename_i requireAck hr
    split
    · exact hfail _
    · split
      · exact hfail _
      · exact h.sendFrame hk hpc hsession hconn hr _

/-- A call has its connection. -/
theorem connected (h : Inv cfg E free s) (hk : s.calls k = some call)
    (hpc : call.pc = .connecting) : Inv cfg E free (s.connected cfg k call c) := by
  have hfit := h.calls k call hk
  obtain ⟨hnoconn, hnosession⟩ := hfit.connecting hpc
  have hearly := hfit.early (.inl hpc)
  have hfit' : CallFits cfg E s.receipts k
      { call with connection := some c, pc := .sending } :=
    { hfit with
      connecting := fun hc => by cases hc
      early := fun _ => hearly
      queueing := fun _ hc => by cases hc
      unavailable := fun _ _ _ _ => ⟨hearly.1, .inl rfl⟩
      returned := fun _ _ _ hc => by cases hc
      acked := fun ha => by
        rw [show call.acked = true from ha] at hearly
        cases hearly.2 }
  have h' : Inv cfg E free (s.setCall k { call with connection := some c, pc := .sending }) := by
    refine h.setCall hk ⟨rfl, rfl, fun d hd => ?_, fun _ => id, id⟩ hfit' fun hend => ?_
    · rw [hnoconn] at hd
      cases hd
    · cases hend
  have hk' : (s.setCall k { call with connection := some c, pc := .sending }).calls k =
      some { call with connection := some c, pc := .sending } := by simp [Node.setCall]
  have hfail : ∀ e, Inv cfg E free ((s.setCall k
      { call with connection := some c, pc := .sending }).endCall k (cfg.messageId k)
      { call with connection := some c, pc := .sending } (.raised e)) := fun e =>
    h'.failCall hk' (.inr rfl) fun session hs => by
      rw [show call.session = some session from hs] at hnosession
      cases hnosession
  unfold Node.connected
  dsimp only
  split
  · rename_i target hkind
    split
    · exact hfail _
    · split
      · exact hfail _
      · rename_i hlimit
        split
        · refine sendMessage (s := { s.setCall k
            { call with connection := some c, pc := .sending } with requests := _ })
            { h' with
              requests := h'.requests.register ⟨⟨rfl, _, hk', rfl, rfl⟩, ?_⟩
                (Nat.lt_of_not_le hlimit) } hk' rfl hnosession rfl
          rintro found hfound
          rw [hk'] at hfound
          cases hfound
          exact hkind
        · exact hfail _
  · exact h'.sendMessage hk' rfl hnosession rfl

/-- A call has its ACK. -/
theorem afterAck (h : Inv cfg E free s) (hk : s.calls k = some call)
    (hw : call.pc.isWaiting = true) {a : Bool}
    (hacked : a = true → ∃ b, Acknowledges cfg call b ∧ E.ack k b.connection) :
    Inv cfg E free (s.afterAck cfg k { call with acked := a }) := by
  unfold Node.afterAck
  split
  · have h' : Inv cfg E free { s with
        acknowledgements := s.acknowledgements.release (cfg.messageId k : Str) k } :=
      { h with acknowledgements := h.acknowledgements.release _ _ }
    exact h'.setCall hk ⟨rfl, rfl, fun _ => id, fun _ => id, id⟩
      ((h.calls k call hk).proceed hw rfl (fun _ _ _ hc => by cases hc) hacked)
      fun hend => by cases hend
  · rename_i hkind
    exact h.endWaiting hk hw rfl (fun target reply ht => absurd ht (hkind target)) hacked

/-- The frame of a call is written. -/
theorem frameWritten (h : Inv cfg E free s) (hk : s.calls k = some call)
    (hw : call.pc.isWaiting = true) : Inv cfg E free (s.frameWritten cfg k call) := by
  have hacked := (h.calls k call hk).acked
  unfold Node.frameWritten
  split
  · exact h.setCall hk ⟨rfl, rfl, fun _ => id, fun _ => id, id⟩
      ((h.calls k call hk).proceed hw rfl (fun _ _ _ hc => by cases hc) hacked)
      fun hend => by cases hend
  · exact h.afterAck hk hw hacked

/-- A call begins. -/
theorem startCall (h : Inv cfg E free s) (args : CallArgs P) :
    Inv cfg E free (s.startCall cfg args) := by
  have hnone := h.callsFresh s.nextCall le_rfl
  have hpc : s.checkArgs args.kind = .connecting ∨ ∃ e, s.checkArgs args.kind = .raised e := by
    unfold Node.checkArgs
    split
    · split
      · split
        · exact .inl rfl
        · exact .inr ⟨_, rfl⟩
      · exact .inl rfl
    · exact .inr ⟨_, rfl⟩
  have hold : ∀ {i old}, s.calls i = some old → i ≠ s.nextCall := by
    rintro i old hi rfl
    rw [hnone] at hi
    cases hi
  have hkeep : ∀ {i old} {call : Call F P}, s.calls i = some old →
      Function.update s.calls s.nextCall (some call) i = some old := fun hi => by
    simpa [hold hi] using hi
  have hback : ∀ {e : Entry Str ℕ ℕ Str} {old call : Call F P}, EntryFits cfg s.calls e →
      Function.update s.calls s.nextCall (some call) e.owner = some old →
      s.calls e.owner = some old := by
    intro e old call he ho
    obtain ⟨found, hfound, _⟩ := he.2
    simpa [hold hfound] using ho
  refine { h with
    calls := fun i old hi => ?_
    callsFresh := fun i hi => ?_
    requests := h.requests.mono (fun e _ ⟨⟨hkey, found, hf, hrest⟩, hkind⟩ =>
        ⟨⟨hkey, found, hkeep hf, hrest⟩, fun old ho =>
          hkind old (hback ⟨hkey, found, hf, hrest⟩ ho)⟩)
      fun _ _ _ ⟨found, hf, ha⟩ => ⟨found, hkeep hf, ha⟩
    acknowledgements := h.acknowledgements.mono (fun e _ ⟨⟨hkey, found, hf, hrest⟩, hkind⟩ =>
        ⟨⟨hkey, found, hkeep hf, hrest⟩, fun old ho =>
          hkind old (hback ⟨hkey, found, hf, hrest⟩ ho)⟩)
      fun _ _ _ ⟨found, hf, ha⟩ => ⟨found, hkeep hf, ha⟩
    frames := fun d f hf => ?_ }
  · by_cases hi' : i = s.nextCall
    · subst hi'
      simp only [Node.startCall, Node.setCall, Function.update_self, Option.some.injEq] at hi
      subst hi
      exact
        { message := rfl
          connecting := fun _ => ⟨rfl, rfl⟩
          early := fun _ => ⟨rfl, rfl⟩
          queueing := fun frame hc => by
            have hc : s.checkArgs args.kind = .queueing frame := hc
            rcases hpc with hp | ⟨e, hp⟩ <;> simp [hp] at hc
          unavailable := fun _ hs => by cases hs
          returned := fun _ reply _ hc => by
            have hc : s.checkArgs args.kind = .returned reply := hc
            rcases hpc with hp | ⟨e, hp⟩ <;> simp [hp] at hc
          acked := fun ha => by cases ha }
    · exact h.calls i old (by simpa [Node.startCall, Node.setCall, hi'] using hi)
  · have hi : s.nextCall + 1 ≤ i := hi
    have hi' : i ≠ s.nextCall := by omega
    simpa [Node.startCall, Node.setCall, hi'] using h.callsFresh i (by omega)
  · have hfit := h.frames d f hf
    unfold FrameFits at hfit ⊢
    split at hfit
    · obtain ⟨old, data, hi, hrest⟩ := hfit
      exact ⟨old, data, hkeep hi, hrest⟩
    · exact hfit
    · exact hfit

end Inv
/-! ## Steps -/

/-- The evidence covers what a step reads. -/
structure Covers (cfg : Config F P) (E : Evidence) (s : Node F P) (l : Label P) : Prop where
  data : ∀ c frame limit data, l = .receive c frame →
    decodeSessionFrame (F := F) frame limit = .ok (.application data) → E.data c data
  ack : ∀ c frame limit id, l = .receive c frame →
    decodeSessionFrame (F := F) frame limit = .ok (.acknowledgement id) →
    ∀ k call, s.calls k = some call → call.connection = some c → cfg.messageId k = id → E.ack k c

omit [PyFloat F] in
/-- A call that a step finds is there, and what the step makes of it. -/
theorem bind_call {k : ℕ} {f : Call F P → Option (Node F P)} {t : Node F P}
    (h : (s.calls k).bind f = some t) : ∃ call, s.calls k = some call ∧ f call = some t :=
  Option.bind_eq_some_iff.1 h

/-- **One step keeps the invariant.** -/
theorem inv_step {l : Label P} {t : Node F P} (h : Inv cfg E none s)
    (hs : step cfg s l = some t) (hE : Covers cfg E s l) : Inv cfg E none t := by
  have hfits : ∀ {c : ℕ} {pc : TaskPc F}, s.tasks c = pc → pc.Fits cfg s.receipts c :=
    fun {c _} hc => hc ▸ h.tasks c (by simp)
  cases l with
  | start =>
      simp only [step] at hs
      split at hs <;> cases hs
      exact { h with inbound := fun queue hq => by cases hq; simp }
  | stop =>
      simp only [step] at hs
      split at hs <;> cases hs
      exact { h with
        sessions := by simp [SessionTables.empty]
        requests := h.requests.failAll
        acknowledgements := h.acknowledgements.failAll }
  | discardQueue =>
      simp only [step] at hs
      split at hs <;> cases hs
      exact { h with inbound := by simp }
  | accepted c =>
      simp only [step] at hs
      split at hs
      · split at hs <;> cases hs
        exact (h.release c).setTask trivial
      · cases hs
  | negotiated c exchange =>
      simp only [step] at hs
      split at hs <;> cases hs
      exact h.negotiated exchange
  | startReader c =>
      simp only [step] at hs
      split at hs
      · rename_i session hpc
        have hb : Bound cfg c session := hfits hpc
        exact h.startReader hb hs
      · cases hs
  | receive c frame =>
      simp only [step] at hs
      split at hs
      · rename_i session hpc
        cases hs
        exact h.receive (hfits hpc) (fun data hd => hE.data c frame _ data rfl hd)
          fun id hid => hE.ack c frame _ id rfl hid
      · cases hs
  | queuePong c =>
      simp only [step] at hs
      split at hs
      · rename_i session frame hpc
        cases hs
        obtain ⟨hb, id, hid⟩ : TaskPc.Fits cfg s.receipts c (.ponging session frame) := hfits hpc
        exact ((h.release c).pushOutbound (c := c) (f := ⟨frame, .heartbeat⟩)
          ⟨id, .inr hid⟩).setTask hb
      · cases hs
  | pongWritten c =>
      simp only [step] at hs
      split at hs
      · rename_i session hpc
        cases hs
        have hb : Bound cfg c session := hfits hpc
        exact (h.release c).continueReading hb
      · cases hs
  | queueAck c =>
      simp only [step] at hs
      split at hs
      · rename_i session r frame hpc
        obtain ⟨found, hfound, rfl⟩ := Option.map_eq_some_iff.1 hs
        obtain ⟨receipt, hold, id, hid, hframe⟩ :
          TaskPc.Fits cfg s.receipts c (.acknowledging session r frame) := hfits hpc
        obtain rfl : receipt = found := Option.some.inj (hold.found ▸ hfound)
        exact h.queueAck hold hid hframe
      · cases hs
  | ackWritten c =>
      simp only [step] at hs
      split at hs
      · rename_i session r hpc
        split at hs
        · obtain ⟨found, hfound, rfl⟩ := Option.map_eq_some_iff.1 hs
          obtain ⟨receipt, hold, hack⟩ :
            TaskPc.Fits cfg s.receipts c (.ackQueued session r) := hfits hpc
          obtain rfl : receipt = found := Option.some.inj (hold.found ▸ hfound)
          exact (h.release c).deliver hold fun _ => hack
        · cases hs
      · cases hs
  | enqueue c =>
      simp only [step] at hs
      split at hs
      · rename_i session r queue hpc hqueue
        split at hs
        · obtain ⟨found, hfound, rfl⟩ := Option.map_eq_some_iff.1 hs
          obtain ⟨receipt, hold, hreply, hack⟩ :
            TaskPc.Fits cfg s.receipts c (.enqueueing session r) := hfits hpc
          obtain rfl : receipt = found := Option.some.inj (hold.found ▸ hfound)
          have hb : Bound cfg c session := by
            have := (h.receipts r receipt hold.found).bound
            rwa [hold.connection, hold.session] at this
          exact ((h.release c).putInbound hold (fun hcap => hack (hold.session ▸ hcap)) hreply
            hqueue).continueReading hb
        · cases hs
      · cases hs
  | endTask c =>
      simp only [step] at hs
      split at hs <;> cases hs
      exact (h.release c).endSession
  | retire c =>
      cases hs
      exact h.retire c
  | close c =>
      cases hs
      exact { h with }
  | ping c pingId =>
      simp only [step] at hs
      split at hs <;> cases hs
      rename_i frame hframe
      exact h.pushOutbound (f := ⟨frame, .heartbeat⟩) ⟨pingId, .inl hframe⟩
  | transmit c =>
      simp only [step] at hs
      split at hs
      · cases hs
      · rename_i f frames hout
        cases hs
        refine { h with
          frames := fun d g hg => h.frames d g ?_
          sent := fun d => ?_ }
        · by_cases hd : d = c
          · subst hd
            simp only [Function.update_self, List.mem_append, List.mem_singleton] at hg
            rw [hout, List.mem_cons]
            tauto
          · simpa [hd] using hg
        · by_cases hd : d = c
          · subst hd
            simpa using (h.sent d).trans (List.prefix_append _ _)
          · simpa [hd] using h.sent d
  | dropOutbound c =>
      cases hs
      refine { h with frames := fun d g hg => h.frames d g ?_ }
      by_cases hd : d = c
      · subst hd
        exact .inr (by simpa using hg)
      · simpa [hd] using hg
  | dispatch =>
      simp only [step] at hs
      split at hs
      · rename_i r queue hq
        cases hs
        refine { h with
          inbound := fun queue' hq' i hi => ?_
          handled := fun i hi => ?_ }
        · obtain rfl : queue = queue' := Option.some.inj hq'
          exact h.inbound _ hq i (List.mem_cons_of_mem _ hi)
        · rcases List.mem_append.1 hi with hi | hi
          · exact h.handled i hi
          · rw [List.mem_singleton.1 hi]
            exact h.inbound _ hq r (List.mem_cons_self ..)
      · cases hs
  | startCall args =>
      cases hs
      exact h.startCall args
  | connected k c =>
      obtain ⟨call, hk, hs⟩ := bind_call hs
      split at hs
      · rename_i hpc
        cases hs
        exact h.connected hk hpc
      · cases hs
  | queueFrame k =>
      obtain ⟨call, hk, hs⟩ := bind_call hs
      split at hs
      · rename_i frame c hpc hconn
        cases hs
        have hfit := h.calls k call hk
        obtain ⟨data, hser, hframe⟩ := hfit.queueing frame hpc
        have hw : call.pc.isWaiting = true := by rw [hpc]; rfl
        have h' : Inv cfg E none (s.setCall k { call with pc := .queued, frameQueued := true }) :=
          h.setCall hk ⟨rfl, rfl, fun _ => id, fun _ => id, fun _ => rfl⟩
            (hfit.proceed hw rfl (fun _ _ _ hc => by cases hc) hfit.acked)
            fun hend => by cases hend
        exact h'.pushOutbound (f := ⟨frame, .call k⟩)
          ⟨_, data, Function.update_self .., hconn, rfl, hser, hframe⟩
      · cases hs
  | frameWritten k =>
      obtain ⟨call, hk, hs⟩ := bind_call hs
      split at hs
      · rename_i c hpc _
        split at hs <;> cases hs
        exact h.frameWritten hk (by rw [hpc]; rfl)
      · cases hs
  | resumeAck k =>
      obtain ⟨call, hk, hs⟩ := bind_call hs
      split at hs
      · rename_i a hpc hfuture
        cases hs
        obtain ⟨found, hfound, hack⟩ := h.acknowledgements.result k a hfuture
        obtain rfl : call = found := Option.some.inj (hk ▸ hfound)
        exact h.afterAck hk (by rw [hpc]; rfl) fun _ => ⟨a, hack⟩
      · rename_i hpc _
        cases hs
        exact h.endWaiting hk (by rw [hpc]; rfl) rfl (fun _ _ _ hc => by cases hc)
          (h.calls k call hk).acked
      · cases hs
  | resumeReply k =>
      obtain ⟨call, hk, hs⟩ := bind_call hs
      split at hs
      · rename_i r hpc hfuture
        cases hs
        obtain ⟨found, hfound, hanswers⟩ := h.requests.result k r hfuture
        obtain rfl : call = found := Option.some.inj (hk ▸ hfound)
        refine h.endWaiting hk (by rw [hpc]; rfl) rfl (fun _ reply _ hc => ?_)
          (h.calls k call hk).acked
        cases hc
        exact ⟨r, rfl, hanswers⟩
      · rename_i hpc _
        cases hs
        exact h.endWaiting hk (by rw [hpc]; rfl) rfl (fun _ _ _ hc => by cases hc)
          (h.calls k call hk).acked
      · cases hs
  | cancelFuture k =>
      obtain ⟨call, hk, hs⟩ := bind_call hs
      split at hs
      · cases hs
        exact { h with acknowledgements := h.acknowledgements.cancel k }
      · cases hs
        exact { h with requests := h.requests.cancel k }
      · cases hs
  | interrupt k e =>
      obtain ⟨call, hk, hs⟩ := bind_call hs
      split at hs
      · rename_i hint
        cases hs
        have hfit := h.calls k call hk
        have hwait : ∀ {pc}, call.pc = pc → pc.isWaiting = true →
            Inv cfg E none (s.endCall k (cfg.messageId k) call (.raised e)) := by
          rintro pc rfl hw
          exact h.endWaiting hk hw rfl (fun _ _ _ hc => by cases hc) hfit.acked
        cases hpc : call.pc with
        | connecting =>
            refine h.failCall hk (.inl hpc) fun session hsession => ?_
            rw [(hfit.connecting hpc).2] at hsession
            cases hsession
        | queueing frame => exact hwait hpc rfl
        | queued => exact hwait hpc rfl
        | awaitingAck => exact hwait hpc rfl
        | awaitingReply => exact hwait hpc rfl
        | _ => simp [hpc, CallPc.interruptedBy] at hint
      · cases hs

/-- What a single node can be told by remote ends that send anything. -/
def Evidence.any : Evidence where
  data _ _ := True
  ack _ _ := True
  sent _ := []

/-- **The invariant of every run.** -/
theorem inv_of_reachable (h : Reachable (system cfg) s) : Inv cfg .any none s := by
  refine h.invariant (I := fun s => Inv cfg .any none s) (fun s hs => ?_) fun s l t hI hs =>
    inv_step hI hs ⟨fun _ _ _ _ _ _ => trivial, fun _ _ _ _ _ _ _ _ _ _ _ => trivial⟩
  obtain rfl : s = initial := hs
  exact Inv.initial (E := .any)

end Messaging
end Core
end Paqto
