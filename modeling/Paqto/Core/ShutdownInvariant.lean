/-
# The invariants of a stopping node

One invariant for the connections, one for the calls that wait for an answer and
one for the outbound channels; each operation has one lemma that keeps the
invariant of the part it changes.

While the node does not run, nothing publishes a session but an open attempt
that `close_all` has not cancelled yet, and nothing else adds to the tables.
`_outgoing_connections` may get such an attempt; the attempt takes itself out
when it sees its cancellation, and `close_all` waits for that
(`LinksInv.outgoing`).
-/

import Paqto.Core.Shutdown
import Paqto.Core.OutboundWaiters

namespace Paqto
namespace Core

open Transition Python Correlation

namespace Shutdown

variable {F : Type}

/-- `close_all` has cancelled the attempts. -/
def StopPc.hasClosedAll : StopPc → Bool
  | closing _ => false
  | _ => true

/-- `_stop_locked` has emptied its last tables. -/
def StopPc.isCleared : StopPc → Bool
  | idle | services => true
  | _ => false

/-- What `_stop_locked` will gather. -/
def StopPc.tasks : StopPc → Option Gathered
  | closing tasks | closingAttempts tasks _ | gathering tasks => some tasks
  | _ => none

/-! ## Connections -/

/-- Why an attempt may be in `_outgoing_connections` of a node that stops. -/
def Links.Opening (s : Links F) (a : ℕ) : StopPc → Prop
  | .closing _ => ∃ p, s.attempts a = .negotiating p ∧ s.inFlight p = some a
  | .closingAttempts _ attempts => a ∈ attempts ∧ ∃ p, s.attempts a = .negotiating p
  | _ => False

/-- What holds of connections and attempts. -/
structure LinksInv (running : Bool) (stop : StopPc) (s : Links F) : Prop where
  fresh : ∀ a, s.attempts a ≠ .absent → a < s.nextConnection
  freshReader : ∀ c, s.readers c = .negotiating → c < s.nextConnection
  flights : ∀ a p, (s.attempts a).peer = some p →
    s.attemptCancelled a = true ∨ s.inFlight p = some a
  ready : running = false → ∀ c, s.tables.ready c = none
  peers : running = false → ∀ p, s.tables.peerConnections p = none
  incoming : running = false → s.incoming = ∅
  readers : running = false → ∀ c, s.readers c = .negotiating → s.readerCancelled c = true
  outgoing : running = false → ∀ a ∈ s.outgoing, s.Opening a stop
  cancelled : running = false → stop.hasClosedAll → ∀ a p, (s.attempts a).peer = some p →
    s.attemptCancelled a = true

namespace LinksInv

variable {running : Bool} {stop : StopPc} {s : Links F} {a c : ℕ} {p : Str}

/-- There is none yet. -/
theorem initial : LinksInv false .idle (initial (F := F)).links where
  fresh a h := absurd rfl h
  freshReader c h := by cases h
  flights a p h := by cases h
  ready _ c := rfl
  peers _ p := rfl
  incoming _ := rfl
  readers _ c h := by cases h
  outgoing _ a h := by cases h
  cancelled _ _ a p h := by cases h

/-- While the node runs only these matter. -/
theorem ofRunning (fresh : ∀ a, s.attempts a ≠ .absent → a < s.nextConnection)
    (freshReader : ∀ c, s.readers c = .negotiating → c < s.nextConnection)
    (flights : ∀ a p, (s.attempts a).peer = some p →
      s.attemptCancelled a = true ∨ s.inFlight p = some a) : LinksInv true stop s :=
  ⟨fresh, freshReader, flights, nofun, nofun, nofun, nofun, nofun, nofun⟩

/-- An attempt moves on for the same peer, or ends. -/
theorem endAttempt (h : LinksInv running stop s) (hp : (s.attempts a).peer = some p)
    (hout : running = false → a ∉ s.outgoing) {pc : AttemptPc} (hpc : pc.peer = none) :
    LinksInv running stop (s.endAttempt a p pc) := by
  have hother : ∀ b, b ≠ a → (s.endAttempt a p pc).attempts b = s.attempts b := fun b hb =>
    Function.update_of_ne hb _ _
  have hself : (s.endAttempt a p pc).attempts a = pc := Function.update_self ..
  have hflight : ∀ b q, b ≠ a → s.inFlight q = some b →
      (s.endAttempt a p pc).inFlight q = some b := by
    intro b q hb hq
    simp only [Links.endAttempt, Links.setAttempt]
    split
    · next hpa =>
        by_cases hqp : q = p
        · rw [hqp, hpa] at hq
          exact absurd (Option.some.inj hq).symm hb
        · exact (Function.update_of_ne hqp _ _).trans hq
    · exact hq
  have hlive : ∀ b q, ((s.endAttempt a p pc).attempts b).peer = some q →
      b ≠ a ∧ (s.attempts b).peer = some q := by
    intro b q hb
    by_cases hba : b = a
    · rw [hba, hself, hpc] at hb
      cases hb
    · exact ⟨hba, hother b hba ▸ hb⟩
  refine ⟨fun b hb => ?_, h.freshReader, fun b q hb => ?_, h.ready, h.peers, h.incoming,
    h.readers, fun hrun b hb => ?_, fun hrun hstop b q hb => ?_⟩
  · by_cases hba : b = a
    · rw [hba]
      refine h.fresh a fun habs => ?_
      rw [habs] at hp
      cases hp
    · exact h.fresh b (hother b hba ▸ hb)
  · obtain ⟨hba, hb⟩ := hlive b q hb
    exact (h.flights b q hb).imp_right (hflight b q hba)
  · have hba : b ≠ a := fun he => hout hrun (he ▸ hb)
    have hopen := h.outgoing hrun b hb
    cases stop with
    | closing tasks =>
        obtain ⟨q, hq, hin⟩ := hopen
        exact ⟨q, (hother b hba).trans hq, hflight b q hba hin⟩
    | closingAttempts tasks attempts =>
        obtain ⟨hmem, q, hq⟩ := hopen
        exact ⟨hmem, q, (hother b hba).trans hq⟩
    | idle | gathering | services => exact hopen
  · exact h.cancelled hrun hstop b q (hlive b q hb).2

/-- An entry of `_outgoing_connections` is discarded. -/
theorem eraseOutgoing (h : LinksInv running stop s) (a : ℕ) :
    LinksInv running stop { s with outgoing := s.outgoing.erase a } :=
  { h with
    outgoing := fun hrun b hb => h.outgoing hrun b (Finset.mem_of_mem_erase hb) }

/-- A settling attempt of a node that stops is not in `_outgoing_connections`. -/
theorem notMem_outgoing (h : LinksInv false stop s) (hpc : ∀ p, s.attempts a ≠ .negotiating p) :
    a ∉ s.outgoing := by
  intro hout
  have hopen := h.outgoing rfl a hout
  cases stop with
  | closing tasks =>
      obtain ⟨p, hp, -⟩ := hopen
      exact hpc p hp
  | closingAttempts tasks attempts =>
      obtain ⟨-, p, hp⟩ := hopen
      exact hpc p hp
  | idle | gathering | services => exact hopen

/-- An attempt that is not done raises. -/
theorem failAttempt (h : LinksInv running stop s) (hp : (s.attempts a).peer = some p)
    {discard : Bool} (hdiscard : discard = false → ∀ q, s.attempts a ≠ .negotiating q) :
    LinksInv running stop (s.failAttempt a p discard) := by
  unfold Links.failAttempt
  cases discard with
  | true => exact (h.eraseOutgoing a).endAttempt hp (fun _ => Finset.notMem_erase a _) rfl
  | false =>
      refine h.endAttempt hp (fun hrun => ?_) rfl
      subst hrun
      exact h.notMem_outgoing (hdiscard rfl)

/-- An attempt installs what it has selected. -/
theorem settle (h : LinksInv running stop s) {selected : ℕ}
    (hp : s.attempts a = .settling p selected) :
    LinksInv running stop (s.settle a p selected) := by
  have hpeer : (s.attempts a).peer = some p := by rw [hp]; rfl
  have hout : running = false → a ∉ s.outgoing := by
    rintro rfl
    exact h.notMem_outgoing fun q hq => by rw [hp] at hq; cases hq
  unfold Links.settle
  split
  · exact h.endAttempt hpeer hout rfl
  · exact h.endAttempt hpeer hout rfl

/-- `_prepare_outgoing_connection` begins in an attempt that is not cancelled. -/
theorem opened {cfg : Config} (h : LinksInv running stop s) (hp : s.attempts a = .connecting p)
    (hc : s.attemptCancelled a = false) : LinksInv running stop (s.opened cfg a p) := by
  have hpeer : (s.attempts a).peer = some p := by rw [hp]; rfl
  have hflight : s.inFlight p = some a := (h.flights a p hpeer).resolve_left (by simp [hc])
  unfold Links.opened
  split
  · next hlimit => exact h.endAttempt hpeer (fun _ => hlimit.1) rfl
  have hcases : ∀ b, ({ s with outgoing := insert a s.outgoing }.setAttempt a
      (.negotiating p)).attempts b = if b = a then .negotiating p else s.attempts b := by
    intro b
    simp [Links.setAttempt, Function.update_apply]
  have hpeers : ∀ b q, (({ s with outgoing := insert a s.outgoing }.setAttempt a
      (.negotiating p)).attempts b).peer = some q → (s.attempts b).peer = some q := by
    intro b q hb
    rw [hcases] at hb
    split at hb
    · next hba =>
        rw [hba, hpeer]
        exact hb
    · exact hb
  refine ⟨fun b hb => ?_, h.freshReader, fun b q hb => h.flights b q (hpeers b q hb), h.ready,
    h.peers, h.incoming, h.readers, fun hrun b hb => ?_,
    fun hrun hstop b q hb => h.cancelled hrun hstop b q (hpeers b q hb)⟩
  · rw [hcases] at hb
    split at hb
    · next hba =>
        rw [hba]
        exact h.fresh a (by rw [hp]; exact fun he => by cases he)
    · exact h.fresh b hb
  · have hclosing : ¬ stop.hasClosedAll := by
      intro hstop
      have hcancelled := h.cancelled hrun hstop a p hpeer
      rw [hc] at hcancelled
      cases hcancelled
    by_cases hba : b = a
    · subst hba
      cases stop with
      | closing tasks => exact ⟨p, (hcases b).trans (if_pos rfl), hflight⟩
      | idle | closingAttempts | gathering | services => exact absurd rfl hclosing
    · have hopen := h.outgoing hrun b (Finset.mem_of_mem_insert_of_ne hb hba)
      have hsame := (hcases b).trans (if_neg hba)
      cases stop with
      | closing tasks =>
          obtain ⟨q, hq, hin⟩ := hopen
          exact ⟨q, hsame.trans hq, hin⟩
      | closingAttempts tasks attempts =>
          obtain ⟨hmem, q, hq⟩ := hopen
          exact ⟨hmem, q, hsame.trans hq⟩
      | idle | gathering | services => exact hopen

/-- What only removes sessions and connections. -/
theorem remove (h : LinksInv running stop s) {t : Links F}
    (hready : ∀ c r, t.tables.ready c = some r → s.tables.ready c = some r)
    (hpeers : ∀ p c, t.tables.peerConnections p = some c → s.tables.peerConnections p = some c)
    (hin : t.incoming ⊆ s.incoming) (hout : t.outgoing ⊆ s.outgoing)
    (hflight : t.inFlight = s.inFlight) (hattempts : t.attempts = s.attempts)
    (hcancelled : t.attemptCancelled = s.attemptCancelled)
    (hreaders : ∀ c, t.readers c = .negotiating → s.readers c = .negotiating)
    (hreaderCancelled : ∀ c, t.readers c = .negotiating →
      t.readerCancelled c = s.readerCancelled c)
    (hnext : t.nextConnection = s.nextConnection) : LinksInv running stop t where
  fresh := by rw [hattempts, hnext]; exact h.fresh
  freshReader c hc := hnext ▸ h.freshReader c (hreaders c hc)
  flights := by rw [hattempts, hcancelled, hflight]; exact h.flights
  ready hrun c := by
    refine Option.eq_none_iff_forall_ne_some.2 fun r hr => ?_
    have hold := hready c r hr
    rw [h.ready hrun c] at hold
    cases hold
  peers hrun p := by
    refine Option.eq_none_iff_forall_ne_some.2 fun c hc => ?_
    have hold := hpeers p c hc
    rw [h.peers hrun p] at hold
    cases hold
  incoming hrun := Finset.subset_empty.1 (h.incoming hrun ▸ hin)
  readers hrun c hc := (hreaderCancelled c hc).trans (h.readers hrun c (hreaders c hc))
  outgoing hrun a ha := by
    have hopen := h.outgoing hrun a (hout ha)
    cases stop with
    | closing tasks =>
        obtain ⟨p, hp, hin⟩ := hopen
        exact ⟨p, hattempts ▸ hp, hflight ▸ hin⟩
    | closingAttempts tasks attempts =>
        obtain ⟨hmem, p, hp⟩ := hopen
        exact ⟨hmem, p, hattempts ▸ hp⟩
    | idle | gathering | services => exact hopen
  cancelled := by rw [hattempts, hcancelled]; exact h.cancelled

/-- A session is deactivated. -/
theorem deactivateSession (h : LinksInv running stop s) (c : ℕ) :
    LinksInv running stop (s.deactivateSession c) :=
  h.remove (fun _ _ hd => SessionTables.ready_of_deactivateSession hd)
    (fun _ _ hd => SessionTables.peerConnections_of_deactivateSession hd) subset_rfl subset_rfl
    rfl rfl rfl (fun _ hd => hd) (fun _ _ => rfl) rfl

/-- A connection is no longer counted. -/
theorem discard (h : LinksInv running stop s) (c : ℕ) :
    LinksInv running stop (s.discard c) :=
  h.remove (fun _ _ hd => hd) (fun _ _ hd => hd) (Finset.erase_subset _ _)
    (Finset.erase_subset _ _) rfl rfl rfl (fun _ hd => hd) (fun _ _ => rfl) rfl

/-- A reader moves on to a point where it publishes nothing. -/
theorem setReader (h : LinksInv running stop s) (c : ℕ) {pc : ReaderPc}
    (hpc : pc ≠ .negotiating) : LinksInv running stop (s.setReader c pc) := by
  refine h.remove (fun _ _ hd => hd) (fun _ _ hd => hd) subset_rfl subset_rfl rfl rfl rfl
    (fun d hd => ?_) (fun _ _ => rfl) rfl
  by_cases hdc : d = c
  · subst hdc
    simp only [Links.setReader, Function.update_self] at hd
    exact absurd hd hpc
  · simpa only [Links.setReader, Function.update_of_ne hdc] using hd

/-- Connections are closed. -/
theorem close (h : LinksInv running stop s) (isClosed : ℕ → Bool) :
    LinksInv running stop { s with isClosed } :=
  h.remove (fun _ _ hd => hd) (fun _ _ hd => hd) subset_rfl subset_rfl rfl rfl rfl
    (fun _ hd => hd) (fun _ _ => rfl) rfl

/-- `_select_ready_connection` has published or refused the session of an
attempt of a node that runs. -/
theorem settling (h : LinksInv true stop s) (hp : s.attempts a = .negotiating p)
    (tables : SessionTables F) (outgoing : Finset ℕ) (selected : ℕ) :
    LinksInv true stop
      ({ s with tables, outgoing }.setAttempt a (.settling p selected)) := by
  have hpeer : (s.attempts a).peer = some p := by rw [hp]; rfl
  refine ofRunning (fun b hb => ?_) h.freshReader fun b q hb => h.flights b q ?_
  · by_cases hba : b = a
    · rw [hba]
      exact h.fresh a (by rw [hp]; exact fun he => by cases he)
    · simp only [Links.setAttempt, Function.update_of_ne hba] at hb
      exact h.fresh b hb
  · by_cases hba : b = a
    · subst hba
      simp only [Links.setAttempt, Function.update_self] at hb
      rw [hpeer]
      exact hb
    · simpa only [Links.setAttempt, Function.update_of_ne hba] using hb

/-- The session tables change while the node runs. -/
theorem setTables (h : LinksInv true stop s) (tables : SessionTables F) :
    LinksInv true stop { s with tables } :=
  ofRunning h.fresh h.freshReader h.flights

/-- The accept loop admits a connection. -/
theorem accept (h : LinksInv true stop s) :
    LinksInv true stop ({ s with
      incoming := insert s.nextConnection s.incoming
      nextConnection := s.nextConnection + 1 }.setReader s.nextConnection .negotiating) := by
  refine ofRunning (fun b hb => (h.fresh b hb).trans (Nat.lt_succ_self _)) (fun c hc => ?_)
    h.flights
  by_cases hcn : c = s.nextConnection
  · rw [hcn]
    exact Nat.lt_succ_self _
  · simp only [Links.setReader, Function.update_of_ne hcn] at hc
    exact (h.freshReader c hc).trans (Nat.lt_succ_self _)

/-- `_open_connection` is started for a peer without one. -/
theorem startAttempt (h : LinksInv true stop s) (hp : s.inFlight p = none) :
    LinksInv true stop ({ s with
      inFlight := Function.update s.inFlight p (some s.nextConnection)
      nextConnection := s.nextConnection + 1 }.setAttempt s.nextConnection (.connecting p)) := by
  refine ofRunning (fun b hb => ?_)
    (fun c hc => (h.freshReader c hc).trans (Nat.lt_succ_self _)) fun b q hb => ?_
  · by_cases hbn : b = s.nextConnection
    · rw [hbn]
      exact Nat.lt_succ_self _
    · simp only [Links.setAttempt, Function.update_of_ne hbn] at hb
      exact (h.fresh b hb).trans (Nat.lt_succ_self _)
  · by_cases hbn : b = s.nextConnection
    · subst hbn
      simp only [Links.setAttempt, Function.update_self] at hb
      cases hb
      exact .inr (Function.update_self ..)
    · simp only [Links.setAttempt, Function.update_of_ne hbn] at hb
      refine (h.flights b q hb).imp_right fun hq => ?_
      by_cases hqp : q = p
      · rw [hqp, hp] at hq
        cases hq
      · exact (Function.update_of_ne hqp ..).trans hq

/-- `close_peer` takes an attempt out of `_in_flight` and cancels it. -/
theorem closePeer (h : LinksInv running stop s) (hp : s.inFlight p = some a)
    (hout : running = false → a ∉ s.outgoing) :
    LinksInv running stop { s with
      inFlight := Function.update s.inFlight p none
      attemptCancelled := Function.update s.attemptCancelled a true } := by
  have hkeep : ∀ b, s.attemptCancelled b = true →
      Function.update s.attemptCancelled a true b = true := by
    intro b hb
    by_cases hba : b = a
    · rw [hba, Function.update_self]
    · rwa [Function.update_of_ne hba]
  have hflight : ∀ b q, b ≠ a → s.inFlight q = some b →
      Function.update s.inFlight p none q = some b := by
    intro b q hba hq
    have hqp : q ≠ p := by
      rintro rfl
      rw [hp] at hq
      exact hba (Option.some.inj hq).symm
    rwa [Function.update_of_ne hqp]
  refine ⟨h.fresh, h.freshReader, fun b q hb => ?_, h.ready, h.peers, h.incoming, h.readers,
    fun hrun b hb => ?_, fun hrun hstop b q hb => hkeep b (h.cancelled hrun hstop b q hb)⟩
  · by_cases hba : b = a
    · exact .inl (by rw [hba]; exact Function.update_self ..)
    · exact (h.flights b q hb).imp (hkeep b) (hflight b q hba)
  · have hba : b ≠ a := fun he => hout hrun (he ▸ hb)
    have hopen := h.outgoing hrun b hb
    cases stop with
    | closing tasks =>
        obtain ⟨q, hq, hin⟩ := hopen
        exact ⟨q, hq, hflight b q hba hin⟩
    | closingAttempts | idle | gathering | services => exact hopen

/-- `_stop_locked` has cleared the tables and cancelled the readers. -/
theorem beginStop (h : LinksInv running stop s) (tasks : Gathered) :
    LinksInv false (.closing tasks) { s with
      tables := (.empty : SessionTables F)
      incoming := ∅
      outgoing := ∅
      readerCancelled := fun c => s.readerCancelled c || (s.readers c).isLive } where
  fresh := h.fresh
  freshReader := h.freshReader
  flights := h.flights
  ready _ c := rfl
  peers _ p := rfl
  incoming _ := rfl
  readers _ c hc := by
    change s.readers c = .negotiating at hc
    simp [hc, ReaderPc.isLive]
  outgoing _ a ha := absurd ha (Finset.notMem_empty a)
  cancelled _ hstop := by cases hstop

/-- An attempt in flight is gathered. -/
theorem mem_inFlightAttempts (h : LinksInv running stop s) (hp : (s.attempts a).peer = some p)
    (hin : s.inFlight p = some a) : a ∈ s.inFlightAttempts := by
  refine List.mem_filter.2 ⟨List.mem_range.2 (h.fresh a fun habs => ?_), ?_⟩
  · rw [habs] at hp
    cases hp
  · simp [hp, hin]

/-- `close_all` has cancelled every attempt that is not done. -/
theorem closeAll {tasks : Gathered} (h : LinksInv running (.closing tasks) s) :
    LinksInv running (.closingAttempts tasks s.inFlightAttempts) { s with
      closing := true
      inFlight := fun _ => none
      attemptCancelled := fun a =>
        s.attemptCancelled a || decide (a ∈ s.inFlightAttempts) } := by
  have hall : ∀ a p, (s.attempts a).peer = some p →
      (s.attemptCancelled a || decide (a ∈ s.inFlightAttempts)) = true := by
    intro a p hp
    rcases h.flights a p hp with hc | hin
    · rw [hc, Bool.true_or]
    · rw [decide_eq_true (h.mem_inFlightAttempts hp hin), Bool.or_true]
  refine ⟨h.fresh, h.freshReader, fun a p hp => .inl (hall a p hp), h.ready, h.peers, h.incoming,
    h.readers, fun hrun a ha => ?_, fun _ _ a p hp => hall a p hp⟩
  obtain ⟨p, hp, hin⟩ := h.outgoing hrun a ha
  exact ⟨h.mem_inFlightAttempts (by rw [hp]; rfl) hin, p, hp⟩

/-- `close_all` is done: no attempt is left in `_outgoing_connections`. -/
theorem attemptsClosed {tasks : Gathered} {attempts : List ℕ}
    (h : LinksInv running (.closingAttempts tasks attempts) s)
    (hdone : ∀ a ∈ attempts, s.attemptDone a = true) :
    LinksInv running (.gathering tasks) { s with closing := false } :=
  { h with
    outgoing := fun hrun a ha => by
      obtain ⟨hmem, p, hp⟩ := h.outgoing hrun a ha
      have := hdone a hmem
      rw [Links.attemptDone, hp] at this
      cases this
    cancelled := fun hrun _ => h.cancelled hrun rfl }

/-- The rest of `_stop_locked`. -/
theorem later (h : LinksInv running stop s) {stop' : StopPc} (hstop : stop.hasClosedAll)
    (hopen : ∀ a, ¬ s.Opening a stop) : LinksInv running stop' s :=
  { h with
    outgoing := fun hrun a ha => absurd (h.outgoing hrun a ha) (hopen a)
    cancelled := fun hrun _ => h.cancelled hrun hstop }

end LinksInv

/-! ## Calls that wait for an answer -/

/-- What holds of the correlations. -/
structure PendingInv (running : Bool) (s : Pending) : Prop where
  requests : s.requests.Tracked s.nextRequest
  acknowledgements : s.acknowledgements.Tracked s.nextAcknowledgement
  noRequest : running = false → s.requests.entries = []
  noAcknowledgement : running = false → s.acknowledgements.entries = []
  noHeartbeat : running = false → s.heartbeats = []

namespace PendingInv

variable {cfg : Config} {running : Bool} {s t : Pending}

/-- There is none yet. -/
theorem initial : PendingInv false (initial (F := F)).pending :=
  ⟨.empty, .empty, fun _ => rfl, fun _ => rfl, fun _ => rfl⟩

/-- What adds no entry. -/
theorem remove (h : PendingInv running s) (hr : t.requests.Tracked t.nextRequest)
    (ha : t.acknowledgements.Tracked t.nextAcknowledgement)
    (hrs : t.requests.entries.Sublist s.requests.entries)
    (has : t.acknowledgements.entries.Sublist s.acknowledgements.entries)
    (hhs : t.heartbeats.Sublist s.heartbeats) : PendingInv running t :=
  ⟨hr, ha, fun hrun => List.sublist_nil.1 (h.noRequest hrun ▸ hrs),
    fun hrun => List.sublist_nil.1 (h.noAcknowledgement hrun ▸ has),
    fun hrun => List.sublist_nil.1 (h.noHeartbeat hrun ▸ hhs)⟩

/-- Those of a connection fail. -/
theorem failConnection (h : PendingInv running s) (c : ℕ) :
    PendingInv running (s.failConnection c) :=
  h.remove (h.requests.failChannel c) (h.acknowledgements.failChannel c)
    (Table.failEntries_sublist _ _) (Table.failEntries_sublist _ _) List.filter_sublist

/-- All of them fail. -/
theorem failAll (h : PendingInv running s) : PendingInv false s.failAll :=
  ⟨h.requests.failAll, h.acknowledgements.failAll, fun _ => Table.failAll_entries _,
    fun _ => Table.failAll_entries _, fun _ => rfl⟩

/-- A running node may have any. -/
theorem whileRunning (h : PendingInv running s) : PendingInv true s :=
  ⟨h.requests, h.acknowledgements, nofun, nofun, nofun⟩

/-- A request is registered. -/
theorem request (h : PendingInv true s) {key : Str} {c : ℕ} {p : Str}
    (ht : s.request cfg key c p = some t) : PendingInv true t := by
  unfold Pending.request at ht
  split at ht
  · cases ht
  · next hfree =>
      cases ht
      have hnone : s.requests.lookup key = none := by
        simpa using fun hs => hfree (.inl hs)
      exact ⟨h.requests.register rfl hnone, h.acknowledgements, nofun, nofun, nofun⟩

/-- A wait for an ACK is registered. -/
theorem acknowledge (h : PendingInv true s) {key : Str} {c : ℕ} {p : Str}
    (ht : s.acknowledge cfg key c p = some t) : PendingInv true t := by
  unfold Pending.acknowledge at ht
  split at ht
  · cases ht
  · next hfree =>
      cases ht
      have hnone : s.acknowledgements.lookup key = none := by
        simpa using fun hs => hfree (.inl hs)
      exact ⟨h.requests, h.acknowledgements.register rfl hnone, nofun, nofun, nofun⟩

end PendingInv

/-! ## Outbound channels -/

/-- What holds of the outbound channels. -/
structure ChannelsInv (running : Bool) (stop : StopPc) (n : ℕ)
    (channels : ℕ → Option OutboundChannel.Channel) : Prop where
  /-- A channel that was drained for the last time is silent. -/
  sound : ∀ c ch, channels c = some ch → OutboundChannel.Inv ch ∧ (ch.Drained → ch.Silent)
  fresh : ∀ c ch, channels c = some ch → c < n
  gathered : running = false → ∀ tasks, stop.tasks = some tasks → ∀ c ch,
    channels c = some ch → ch.registered = true → c ∈ tasks.writers
  cleared : running = false → stop.isCleared → ∀ c ch, channels c = some ch →
    ch.registered = false ∧ ch.Silent

namespace ChannelsInv

open OutboundChannel (StepSpec)

variable {cfg : Config} {running : Bool} {stop : StopPc} {n c : ℕ}
  {channels : ℕ → Option OutboundChannel.Channel} {ch ch' : OutboundChannel.Channel}

/-- There is none yet. -/
theorem initial : ChannelsInv false .idle 0 (initial (F := F)).channels :=
  ⟨fun _ _ h => (by cases h), fun _ _ h => (by cases h), fun _ _ _ _ _ h => (by cases h),
    fun _ _ _ _ h => by cases h⟩

/-- Later channels do not matter. -/
theorem mono (h : ChannelsInv running stop n channels) {n' : ℕ} (hn : n ≤ n') :
    ChannelsInv running stop n' channels :=
  { h with fresh := fun c ch hc => (h.fresh c ch hc).trans_le hn }

/-- While the node runs only these matter. -/
theorem ofRunning
    (sound : ∀ c ch, channels c = some ch → OutboundChannel.Inv ch ∧ (ch.Drained → ch.Silent))
    (fresh : ∀ c ch, channels c = some ch → c < n) : ChannelsInv true stop n channels :=
  ⟨sound, fresh, nofun, nofun⟩

/-- A channel that has just been created. -/
theorem create (h : ChannelsInv true stop n channels) (hc : c < n) {running isClosed : Bool} :
    ChannelsInv true stop n
      (Function.update channels c (some { OutboundChannel.initial with running, isClosed })) := by
  refine ofRunning (fun d ch hd => ?_) fun d ch hd => ?_
  · by_cases hdc : d = c
    · rw [hdc, Function.update_self] at hd
      cases hd
      refine ⟨⟨?_, fun _ => .inl rfl, nofun, .inl rfl, fun _ => rfl⟩, fun _ k => ?_⟩
      · exact OutboundChannel.queued_initial.congr rfl rfl rfl rfl rfl rfl rfl rfl
      · simp [OutboundChannel.initial, OutboundChannel.CallerPc.IsWaiting]
    · rw [Function.update_of_ne hdc] at hd
      exact h.sound d ch hd
  · by_cases hdc : d = c
    · exact hdc ▸ hc
    · rw [Function.update_of_ne hdc] at hd
      exact h.fresh d ch hd

/-- A step of one channel puts nothing back into `_outbound_channels`. -/
theorem registered_of_step {l : OutboundChannel.Label}
    (hs : StepSpec cfg.outbound ch l ch') (h : ch'.registered = true) : ch.registered = true := by
  cases hs with
  | closeOutboundChannel | outboundFinished => cases h
  | accepted hreg | parked hreg | stop hreg => exact hreg
  | passOn => simpa [OutboundChannel.Channel.setCaller, OutboundChannel.Channel.wakeupNext_registered] using h
  | _ => simpa [OutboundChannel.Channel.setCaller, OutboundChannel.Channel.putNowait, OutboundChannel.Channel.park] using h

/-- A channel moves. -/
theorem step (h : ChannelsInv running stop n channels) (hc : channels c = some ch)
    {l : OutboundChannel.Label} (hstep : OutboundChannel.step cfg.outbound ch l = some ch')
    (hleaves : OutboundChannel.LeavesNobody cfg.outbound ch l) :
    ChannelsInv running stop n (Function.update channels c (some ch')) := by
  obtain ⟨hinv, hdrained⟩ := h.sound c ch hc
  have hs := OutboundChannel.stepSpec_of_step hstep
  have hcases : ∀ d other, Function.update channels c (some ch') d = some other →
      (d = c ∧ other = ch') ∨ (d ≠ c ∧ channels d = some other) := by
    intro d other hd
    by_cases hdc : d = c
    · rw [hdc, Function.update_self] at hd
      exact .inl ⟨hdc, (Option.some.inj hd).symm⟩
    · rw [Function.update_of_ne hdc] at hd
      exact .inr ⟨hdc, hd⟩
  refine ⟨fun d other hd => ?_, fun d other hd => ?_,
    fun hrun tasks htasks d other hd hreg => ?_, fun hrun hstop d other hd => ?_⟩
  · obtain ⟨rfl, rfl⟩ | ⟨-, hd⟩ := hcases d other hd
    · exact ⟨OutboundChannel.inv_step hinv hs,
        OutboundChannel.silent_step hinv hdrained hleaves hs⟩
    · exact h.sound d other hd
  · obtain ⟨rfl, rfl⟩ | ⟨-, hd⟩ := hcases d other hd
    · exact h.fresh _ ch hc
    · exact h.fresh d other hd
  · obtain ⟨rfl, rfl⟩ | ⟨-, hd⟩ := hcases d other hd
    · exact h.gathered hrun tasks htasks _ ch hc (registered_of_step hs hreg)
    · exact h.gathered hrun tasks htasks d other hd hreg
  · obtain ⟨rfl, rfl⟩ | ⟨-, hd⟩ := hcases d other hd
    · obtain ⟨hreg, hsilent⟩ := h.cleared hrun hstop _ ch hc
      refine ⟨?_, hsilent.step hinv hs fun _ => .inl hreg⟩
      by_contra hne
      have := registered_of_step hs (by simpa using hne)
      rw [hreg] at this
      cases this
    · exact h.cleared hrun hstop d other hd

/-- `_stop_locked` stops every channel in `_outbound_channels`. -/
theorem beginStop (cfg : Config) (h : ChannelsInv running stop n channels) {tasks : Gathered}
    (htasks : tasks.writers =
      (List.range n).filter fun c => (channels c).any (·.registered))
    (hleaves : ∀ c ch, channels c = some ch →
      OutboundChannel.LeavesNobody cfg.outbound ch .stop) :
    ChannelsInv false (.closing tasks) n fun c => (channels c).map Node.stopChannel := by
  have hstop : ∀ ch : OutboundChannel.Channel,
      StepSpec cfg.outbound ch .stop (Node.stopChannel ch) := by
    intro ch
    unfold Node.stopChannel
    split
    · next hreg => exact .stop hreg
    · next hreg => exact .stopUnregistered (by simpa using hreg)
  have hcases : ∀ c ch', (channels c).map Node.stopChannel = some ch' →
      ∃ ch, channels c = some ch ∧ Node.stopChannel ch = ch' := fun c ch' hc =>
    Option.map_eq_some_iff.1 hc
  refine ⟨fun c ch' hc => ?_, fun c ch' hc => ?_,
    fun _ tasks' htasks' c ch' hc hreg => ?_, nofun⟩
  · obtain ⟨ch, hold, rfl⟩ := hcases c ch' hc
    obtain ⟨hinv, hdrained⟩ := h.sound c ch hold
    exact ⟨OutboundChannel.inv_step hinv (hstop ch),
      OutboundChannel.silent_step hinv hdrained (hleaves c ch hold) (hstop ch)⟩
  · obtain ⟨ch, hold, -⟩ := hcases c ch' hc
    exact h.fresh c ch hold
  · obtain ⟨ch, hold, rfl⟩ := hcases c ch' hc
    have hregistered := registered_of_step (hstop ch) hreg
    cases htasks'
    rw [htasks]
    exact List.mem_filter.2 ⟨List.mem_range.2 (h.fresh c ch hold), by simp [hold, hregistered]⟩

/-- `_stop_locked` waits, or gets on. -/
theorem later (h : ChannelsInv running stop n channels) {stop' : StopPc}
    (htasks : ∀ tasks, stop'.tasks = some tasks → stop.tasks = some tasks)
    (hcleared : stop'.isCleared → stop.isCleared) : ChannelsInv running stop' n channels :=
  { h with
    gathered := fun hrun tasks ht => h.gathered hrun tasks (htasks tasks ht)
    cleared := fun hrun hc => h.cleared hrun (hcleared hc) }

/-- `_outbound_channels` is emptied: the gathered writers are done. -/
theorem clear (cfg : Config) (h : ChannelsInv false stop n channels) {tasks : Gathered}
    (htasks : stop.tasks = some tasks)
    (hdone : ∀ c ∈ tasks.writers, ∀ ch, channels c = some ch → ch.writer = .finished)
    (hcloser : ∀ c ch, channels c = some ch → ch.closer = .waiting → ch.HasDrained) :
    ChannelsInv false .services n fun c =>
      (channels c).map fun ch => { ch with registered := false } := by
  have hcases : ∀ c ch', ((channels c).map fun ch => { ch with registered := false }) =
      some ch' → ∃ ch, channels c = some ch ∧ { ch with registered := false } = ch' :=
    fun c ch' hc => Option.map_eq_some_iff.1 hc
  have hall : ∀ c ch, channels c = some ch →
      OutboundChannel.Inv { ch with registered := false } ∧
        OutboundChannel.Channel.Silent { ch with registered := false } := by
    intro c ch hc
    obtain ⟨hinv, hdrained⟩ := h.sound c ch hc
    cases hreg : ch.registered with
    | true =>
        have hfinished := hdone c (h.gathered rfl tasks htasks c ch hc hreg) ch hc
        have hs : StepSpec cfg.outbound ch .outboundFinished { ch with registered := false } :=
          .outboundFinished hreg hfinished
        exact ⟨OutboundChannel.inv_step hinv hs,
          hdrained (OutboundChannel.drained_of_finished hinv hreg hfinished)⟩
    | false =>
        have hsame : { ch with registered := false } = ch := by rw [← hreg]
        rw [hsame]
        refine ⟨hinv, ?_⟩
        by_cases hclose : ch.closer = .waiting
        · exact (hcloser c ch hc hclose).silent hinv hdrained
        · have hfinished := (hinv.owned.resolve_left (by simp [hreg])).resolve_right hclose
          exact hdrained (.inr (.inr ⟨hfinished, hreg, hclose⟩))
  refine ⟨fun c ch' hc => ?_, fun c ch' hc => ?_, nofun, fun _ _ c ch' hc => ?_⟩
  · obtain ⟨ch, hold, rfl⟩ := hcases c ch' hc
    exact ⟨(hall c ch hold).1, fun _ => (hall c ch hold).2⟩
  · obtain ⟨ch, hold, -⟩ := hcases c ch' hc
    exact h.fresh c ch hold
  · obtain ⟨ch, hold, rfl⟩ := hcases c ch' hc
    exact ⟨rfl, (hall c ch hold).2⟩

/-- The node starts again. -/
theorem start (h : ChannelsInv running stop n channels) :
    ChannelsInv true stop n fun c => (channels c).map fun ch => { ch with running := true } := by
  refine ofRunning (fun c ch' hc => ?_) fun c ch' hc => ?_
  · obtain ⟨ch, hold, rfl⟩ := Option.map_eq_some_iff.1 hc
    obtain ⟨hinv, hdrained⟩ := h.sound c ch hold
    exact ⟨⟨hinv.queued.congr rfl rfl rfl rfl rfl rfl rfl rfl, hinv.unbegun, hinv.begun,
      hinv.owned, hinv.unclosed⟩, hdrained⟩
  · obtain ⟨ch, hold, -⟩ := Option.map_eq_some_iff.1 hc
    exact h.fresh c ch hold

end ChannelsInv

end Shutdown
end Core
end Paqto
