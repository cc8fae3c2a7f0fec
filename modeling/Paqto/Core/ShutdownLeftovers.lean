/-
# What `stop()` leaves behind

`_stop_locked` empties its tables once, before it suspends, and again at its
end what only it empties.  An open attempt whose handshake ends between the two
publishes its session into tables that nobody empties any more
(`not_left_nothing`).

`Tidy` says of each step what it must not do while the node stops; in the runs
that meet it nothing is left when `stop()` returns (`left_nothing`).
-/

import Paqto.Core.ShutdownInvariant

namespace Paqto
namespace Core

open Transition Python Correlation

namespace Shutdown

variable {F : Type}

/-- What holds in every run of the node. -/
structure Inv (s : Node F) : Prop where
  links : LinksInv s.running s.stop s.links
  pending : PendingInv s.running s.pending
  channels : ChannelsInv s.running s.stop s.links.nextConnection s.channels
  stopping : s.stop ≠ .idle → s.running = false
  known : s.stop = .services → ∀ p, s.known p = false

/-- `close_peer` does not take an attempt that is in `_outgoing_connections` away
from `close_all`. -/
def Node.MayClosePeer (s : Node F) (p : Str) : Prop :=
  s.running = true ∨ ∀ a, s.links.inFlight p = some a → a ∉ s.links.outgoing

/-- The condition on the steps.  While the node does not run, no attempt publishes
a session and `close_peer` takes no opened attempt away from `close_all`; after the last
tables were emptied no caller goes on.  The drains of the outbound channels leave nobody
inside `put`, that of `stop()` included, and where `_close_outbound_channel` is not done
when the channels are emptied, the writer has drained the queue. -/
def Tidy (cfg : Config) (s : Node F) : Label F → Prop
  | .attemptNegotiated _ session => s.running = true ∨ session.peerId = cfg.peerId
  | .resumeCaller k =>
      s.stop ≠ .services ∧ ∀ caller, s.callers k = some caller → s.MayClosePeer caller.peer
  | .closePeer p => s.MayClosePeer p
  | .outbound c l => ∀ ch, s.channels c = some ch →
      OutboundChannel.LeavesNobody cfg.outbound ch l
  | .beginStop => ∀ c ch, s.channels c = some ch →
      OutboundChannel.LeavesNobody cfg.outbound ch .stop
  | .clear => ∀ c ch, s.channels c = some ch → ch.closer = .waiting → ch.HasDrained
  | _ => True

namespace Inv

variable {cfg : Config} {s t : Node F} {a c k : ℕ} {p : Str}

/-- Before the first start. -/
theorem initial : Inv (initial (F := F)) :=
  ⟨.initial, .initial, .initial, fun h => absurd rfl h, fun _ _ => rfl⟩

/-- The connections change. -/
theorem setLinks (h : Inv s) {links : Links F} (hlinks : LinksInv s.running s.stop links)
    (hnext : links.nextConnection = s.links.nextConnection) : Inv { s with links } :=
  { h with
    links := hlinks
    channels := hnext ▸ h.channels }

/-- The correlations change. -/
theorem setPending (h : Inv s) {pending : Pending} (hpending : PendingInv s.running pending) :
    Inv { s with pending } :=
  { h with pending := hpending }

/-- A caller moves. -/
theorem setCaller (h : Inv s) (k : ℕ) (caller : Caller) : Inv (s.setCaller k caller) :=
  ⟨h.links, h.pending, h.channels, h.stopping, h.known⟩

/-- A connection is retired. -/
theorem retire (h : Inv s) (c : ℕ) : Inv (s.retire c) :=
  ⟨h.links.deactivateSession c, h.pending.failConnection c, h.channels, h.stopping, h.known⟩

/-- The one that lost is retired, if there is one. -/
theorem retireLoser (h : Inv s) (loser : Option ℕ) : Inv (s.retireLoser loser) := by
  cases loser with
  | none => exact h
  | some c => exact h.retire c

/-- A reader ends. -/
theorem readerEnds (h : Inv s) (c : ℕ) : Inv (s.readerEnds c) :=
  (h.retire c).setLinks (((h.retire c).links.discard c).setReader c (by simp)) rfl

/-- A channel is created for a connection of a node that runs. -/
theorem ensureOutboundChannel (h : Inv s) (hrun : s.running = true)
    (hc : c < s.links.nextConnection) : Inv (s.ensureOutboundChannel c) := by
  unfold Node.ensureOutboundChannel
  split
  · exact h
  · refine { h with channels := ?_ }
    have hold := h.channels
    rw [hrun] at hold
    show ChannelsInv s.running s.stop _ _
    rw [hrun]
    exact hold.create hc

/-- An attempt is past its handshake. -/
theorem settling (h : Inv s) (hrun : s.running = true) (hp : s.links.attempts a = .negotiating p)
    (tables : SessionTables F) (outgoing : Finset ℕ) (selected : ℕ) :
    Inv { s with
      links := { s.links with tables, outgoing }.setAttempt a (.settling p selected) } := by
  refine h.setLinks ?_ rfl
  have hlinks := h.links
  rw [hrun] at hlinks ⊢
  exact hlinks.settling hp tables outgoing selected

/-- The session tables change while the node runs. -/
theorem setTables (h : Inv s) (hrun : s.running = true) (tables : SessionTables F) :
    Inv { s with links := { s.links with tables } } := by
  refine h.setLinks ?_ rfl
  have hlinks := h.links
  rw [hrun] at hlinks ⊢
  exact hlinks.setTables tables

/-- **An attempt publishes its session** while the node runs. -/
theorem attemptNegotiated (h : Inv s) (hp : s.links.attempts a = .negotiating p)
    {session : ProtocolSession F} (hrun : s.running = true ∨ session.peerId = cfg.peerId) :
    Inv (s.attemptNegotiated cfg a p session) := by
  unfold Node.attemptNegotiated
  split
  · refine h.setLinks (h.links.failAttempt (by rw [hp]; rfl) ?_) rfl
    exact fun he => by cases he
  · next tables selection hselect =>
      have hrun : s.running = true :=
        hrun.resolve_right (SessionTables.ready_of_selectReadyConnection hselect).1
      split
      · refine ((h.settling hrun hp _ _ _).ensureOutboundChannel hrun ?_).retireLoser _
        exact h.links.fresh a (by rw [hp]; exact fun he => by cases he)
      · exact h.settling hrun hp _ _ _

/-- **An incoming connection publishes its session.**  The handshakes of a node
that does not run are cancelled. -/
theorem incomingNegotiated (h : Inv s) (hc : s.links.readers c = .negotiating)
    (hcancelled : s.links.readerCancelled c = false) (session : ProtocolSession F) :
    Inv (s.incomingNegotiated cfg c session) := by
  have hrun : s.running = true := by
    by_contra hne
    have := h.links.readers (by simpa using hne) c hc
    rw [hcancelled] at this
    cases this
  unfold Node.incomingNegotiated
  split
  · exact h.readerEnds c
  · next tables selection _ =>
      have htables := h.setTables hrun tables
      split
      · refine (Inv.ensureOutboundChannel (htables.setLinks
          (htables.links.setReader c (by simp)) rfl) hrun ?_).retireLoser _
        exact h.links.freshReader c hc
      · exact htables.readerEnds c

/-- A running node stops no services. -/
theorem running_notServices (h : Inv s) (hrun : s.running = true) : s.stop ≠ .services := by
  intro hstop
  have := h.stopping (by rw [hstop]; exact fun he => by cases he)
  rw [hrun] at this
  cases this

/-- A peer is remembered before the services stop. -/
theorem remember (h : Inv s) (hstop : s.stop ≠ .services) (p : Str) : Inv (s.remember p) :=
  { h with known := fun hservices => absurd hservices hstop }

/-- `close_peer` is called. -/
theorem closePeer (h : Inv s) (hmay : s.MayClosePeer p) : Inv (s.closePeer p) := by
  unfold Node.closePeer
  split
  · next a ha =>
      refine h.setLinks (h.links.closePeer ha fun hrun => ?_) rfl
      rcases hmay with hmay | hmay
      · rw [hmay] at hrun
        cases hrun
      · exact hmay a ha
  · exact h

/-- A reader is started. -/
theorem ensureReader (h : Inv s) (c : ℕ) : Inv (s.ensureReader c) := by
  unfold Node.ensureReader
  split
  · exact h
  · refine h.setLinks (h.links.remove (fun _ _ hd => hd) (fun _ _ hd => hd) subset_rfl subset_rfl
      rfl rfl rfl (fun d hd => ?_) (fun d hd => ?_) rfl) rfl
    · by_cases hdc : d = c
      · simp [Links.setReader, hdc] at hd
      · simpa [Links.setReader, hdc] using hd
    · by_cases hdc : d = c
      · simp [Links.setReader, hdc] at hd
      · simp [Links.setReader, hdc]

/-- A caller goes on with the connection of the manager. -/
theorem handOver (h : Inv s) (hstop : s.stop ≠ .services)
    (hmay : s.MayClosePeer p) (c : ℕ) : Inv (s.handOver p c) := by
  unfold Node.handOver
  split
  · exact (h.remember hstop p).ensureReader c
  · exact (h.remember hstop p).closePeer hmay

/-- An attempt is started. -/
theorem connect (h : Inv s) (hrun : s.running = true) (p : Str) (reconnecting : Bool) :
    Inv (s.connect p reconnecting) := by
  unfold Node.connect
  split
  · exact ⟨h.links, h.pending, h.channels, h.stopping, h.known⟩
  · next hp =>
      have hlinks := h.links
      have hchannels := h.channels.mono (Nat.le_succ _)
      rw [hrun] at hlinks
      exact ⟨hrun ▸ hlinks.startAttempt hp, h.pending, hchannels, h.stopping, h.known⟩

/-- `_stop_locked` begins. -/
theorem beginStop (cfg : Config) (h : Inv s) (htidy : Tidy cfg s .beginStop) : Inv s.beginStop :=
  ⟨h.links.beginStop _, h.pending.failAll, h.channels.beginStop cfg rfl htidy, fun _ => rfl,
    nofun⟩

/-- A stop calls `close_all`. -/
theorem closeAll (h : Inv s) {tasks : Gathered} (hstop : s.stop = .closing tasks) :
    Inv (s.closeAll tasks) := by
  have hrun : s.running = false := h.stopping (by rw [hstop]; exact fun he => by cases he)
  have hlinks := h.links
  have hchannels := h.channels
  rw [hstop] at hlinks hchannels
  exact ⟨hlinks.closeAll, h.pending, hchannels.later (fun _ ht => ht) nofun, fun _ => hrun,
    nofun⟩

/-- `close_all` is done. -/
theorem attemptsClosed (h : Inv s) {tasks : Gathered} {attempts : List ℕ}
    (hstop : s.stop = .closingAttempts tasks attempts)
    (hdone : attempts.all s.links.attemptDone = true) :
    Inv { s with stop := .gathering tasks, links := { s.links with closing := false } } := by
  have hrun : s.running = false := h.stopping (by rw [hstop]; exact fun he => by cases he)
  have hlinks := h.links
  have hchannels := h.channels
  rw [hstop] at hlinks hchannels
  exact ⟨hlinks.attemptsClosed (List.all_eq_true.1 hdone), h.pending,
    hchannels.later (fun _ ht => ht) nofun, fun _ => hrun, nofun⟩

/-- `_stop_locked` empties its last tables. -/
theorem clear (cfg : Config) (h : Inv s) {tasks : Gathered} (hstop : s.stop = .gathering tasks)
    (hdone : s.gathered tasks = true) (htidy : Tidy cfg s .clear) : Inv s.clear := by
  have hrun : s.running = false := h.stopping (by rw [hstop]; exact fun he => by cases he)
  have hlinks := h.links
  have hchannels := h.channels
  rw [hstop, hrun] at hlinks hchannels
  have hwriters : ∀ c ∈ tasks.writers, ∀ ch, s.channels c = some ch → ch.writer = .finished := by
    intro c hc ch hch
    simp only [Node.gathered, Bool.and_eq_true, List.all_eq_true] at hdone
    simpa [hch] using hdone.2 c hc
  refine ⟨?_, h.pending, ?_, fun _ => hrun, fun _ _ => rfl⟩
  · show LinksInv s.running .services s.links
    rw [hrun]
    exact hlinks.later rfl fun _ => id
  · show ChannelsInv s.running .services _ _
    rw [hrun]
    exact hchannels.clear cfg rfl hwriters htidy

/-- `stop()` returns. -/
theorem stopped (h : Inv s) (hstop : s.stop = .services) : Inv { s with stop := .idle } := by
  have hlinks := h.links
  have hchannels := h.channels
  rw [hstop] at hlinks hchannels
  exact ⟨hlinks.later rfl fun _ => id, h.pending,
    hchannels.later (fun _ ht => by cases ht) fun _ => rfl, fun hne => absurd rfl hne,
    nofun⟩

/-- The node starts. -/
theorem start (h : Inv s) (hstop : s.stop = .idle) :
    Inv { s with
      running := true
      channels := fun c => (s.channels c).map fun ch => { ch with running := true } } :=
  ⟨.ofRunning h.links.fresh h.links.freshReader h.links.flights, h.pending.whileRunning,
    h.channels.start, fun hne => absurd hstop hne,
    fun hservices => by rw [hstop] at hservices; cases hservices⟩

/-- The accept loop admits a connection. -/
theorem accept (h : Inv s) (hrun : s.running = true) :
    Inv { s with
      links := { s.links with
        incoming := insert s.links.nextConnection s.links.incoming
        nextConnection := s.links.nextConnection + 1 }.setReader s.links.nextConnection
          .negotiating } := by
  have hlinks := h.links
  have hchannels := h.channels.mono (Nat.le_succ _)
  rw [hrun] at hlinks
  exact ⟨hrun ▸ hlinks.accept, h.pending, hchannels, h.stopping, h.known⟩

/-- A step of one channel. -/
theorem outbound (h : Inv s) {ch ch' : OutboundChannel.Channel} {l : OutboundChannel.Label}
    (hch : s.channels c = some ch) (hs : OutboundChannel.step cfg.outbound ch l = some ch')
    (htidy : Tidy cfg s (.outbound c l)) :
    Inv { s with channels := Function.update s.channels c (some ch') } :=
  { h with channels := h.channels.step hch hs (htidy ch hch) }

/-- What registers a call of a node that runs. -/
theorem register (h : Inv s) (hrun : s.running = true) {pending : Pending}
    (hpending : PendingInv true s.pending → PendingInv true pending) :
    Inv { s with pending } := by
  refine h.setPending ?_
  have hold := h.pending
  rw [hrun] at hold ⊢
  exact hpending hold

/-- An attempt that is not done raises. -/
theorem endsAttempt (h : Inv s) {discard : Bool}
    (hs : (match s.links.attempts a with
      | .connecting p | .negotiating p => some { s with links := s.links.failAttempt a p true }
      | .settling p _ => some { s with links := s.links.failAttempt a p discard }
      | _ => none) = some t) : Inv t := by
  have hfail : ∀ {p : Str} {discard : Bool}, (s.links.attempts a).peer = some p →
      (discard = false → ∀ q, s.links.attempts a ≠ .negotiating q) →
      Inv { s with links := s.links.failAttempt a p discard } := fun hp hdiscard =>
    h.setLinks (h.links.failAttempt hp hdiscard) rfl
  split at hs
  · next p hp =>
      cases hs
      exact hfail (by rw [hp]; rfl) nofun
  · next p hp =>
      cases hs
      exact hfail (by rw [hp]; rfl) nofun
  · next p selected hp =>
      cases hs
      exact hfail (by rw [hp]; rfl) fun _ q hq => by rw [hp] at hq; cases hq
  · cases hs

/-- **Every tidy step keeps the invariant.** -/
theorem step (h : Inv s) {l : Label F} (htidy : Tidy cfg s l) (hs : step cfg s l = some t) :
    Inv t := by
  cases l with
  | start =>
      simp only [Shutdown.step] at hs
      split at hs
      · next hstop =>
          split at hs
          · cases hs
          · cases hs
            exact h.start hstop
      · cases hs
  | accept =>
      simp only [Shutdown.step] at hs
      split at hs
      · next hrun =>
          cases hs
          exact h.accept hrun.1
      · cases hs
  | connect p reconnecting =>
      simp only [Shutdown.step] at hs
      split at hs
      · next hrun =>
          cases hs
          exact h.connect hrun.1 p reconnecting
      · cases hs
  | handOver p c =>
      simp only [Shutdown.step] at hs
      split at hs
      · next hrun =>
          cases hs
          exact h.handOver (h.running_notServices hrun) (.inl hrun) c
      · cases hs
  | opened a =>
      simp only [Shutdown.step] at hs
      split at hs
      · next p hp =>
          split at hs
          · cases hs
          · next hc =>
              cases hs
              refine h.setLinks (h.links.opened hp (by simpa using hc)) ?_
              unfold Links.opened
              split <;> rfl
      · cases hs
  | attemptFails a discard =>
      simp only [Shutdown.step] at hs
      split at hs
      · cases hs
      · exact h.endsAttempt hs
  | attemptCancelled a discard =>
      simp only [Shutdown.step] at hs
      split at hs
      · exact h.endsAttempt hs
      · cases hs
  | attemptNegotiated a session =>
      simp only [Shutdown.step] at hs
      split at hs
      · next p hp =>
          split at hs
          · cases hs
            exact h.attemptNegotiated hp htidy
          · cases hs
      · cases hs
  | attemptSettles a =>
      simp only [Shutdown.step] at hs
      split at hs
      · next p selected hp =>
          split at hs
          · cases hs
          · cases hs
            refine h.setLinks (h.links.settle hp) ?_
            unfold Links.settle
            split <;> rfl
      · cases hs
  | incomingNegotiated c session =>
      simp only [Shutdown.step] at hs
      split at hs
      · next hc =>
          split at hs
          · cases hs
          · next hcancelled =>
              cases hs
              exact h.incomingNegotiated hc (by simpa using hcancelled) session
      · cases hs
  | readerEnds c =>
      simp only [Shutdown.step] at hs
      split at hs
      · cases hs
        exact h.readerEnds c
      · cases hs
        exact h.readerEnds c
      · cases hs
  | readerDone c =>
      simp only [Shutdown.step] at hs
      split at hs
      · cases hs
        exact h.setLinks (h.links.setReader c (by simp)) rfl
      · cases hs
  | resumeCaller k =>
      obtain ⟨caller, hk, hs⟩ := Option.bind_eq_some_iff.1 hs
      split at hs
      · next c _ =>
          split at hs
          · cases hs
          · cases hs
            exact (h.handOver htidy.1 (htidy.2 caller hk) c).setCaller k _
      · cases hs
  | callerEnds k =>
      obtain ⟨caller, -, rfl⟩ := Option.map_eq_some_iff.1 hs
      exact h.setCaller k _
  | closePeer p =>
      cases hs
      exact h.closePeer htidy
  | retire c =>
      cases hs
      exact h.retire c
  | discard c =>
      cases hs
      exact h.setLinks (h.links.discard c) rfl
  | close c =>
      cases hs
      exact h.setLinks (h.links.close _) rfl
  | discovered p =>
      simp only [Shutdown.step] at hs
      split at hs
      · next hrun =>
          cases hs
          exact h.remember (h.running_notServices hrun) p
      · cases hs
  | request key c p =>
      simp only [Shutdown.step] at hs
      split at hs
      · next hrun =>
          obtain ⟨pending, hpending, rfl⟩ := Option.map_eq_some_iff.1 hs
          exact h.register hrun fun hold => hold.request hpending
      · cases hs
  | acknowledge key c =>
      obtain ⟨session, hsession, hs⟩ := Option.bind_eq_some_iff.1 hs
      obtain ⟨pending, hpending, rfl⟩ := Option.map_eq_some_iff.1 hs
      have hrun : s.running = true := by
        by_contra hne
        have hnone := h.links.ready (by simpa using hne) c
        rw [SessionTables.sessionFor, hnone] at hsession
        cases hsession
      exact h.register hrun fun hold => hold.acknowledge hpending
  | resolveReply key c p =>
      cases hs
      exact h.setPending (h.pending.remove (h.pending.requests.resolve ..)
        h.pending.acknowledgements (Table.resolve_sublist ..) (List.Sublist.refl _)
        (List.Sublist.refl _))
  | resolveAcknowledgement key c p =>
      cases hs
      exact h.setPending (h.pending.remove h.pending.requests
        (h.pending.acknowledgements.resolve ..) (List.Sublist.refl _) (Table.resolve_sublist ..)
        (List.Sublist.refl _))
  | endRequest key k =>
      cases hs
      exact h.setPending (h.pending.remove (h.pending.requests.release ..)
        h.pending.acknowledgements (Table.release_sublist ..) (List.Sublist.refl _)
        (List.Sublist.refl _))
  | endAcknowledgement key k =>
      cases hs
      exact h.setPending (h.pending.remove h.pending.requests
        (h.pending.acknowledgements.release ..) (List.Sublist.refl _) (Table.release_sublist ..)
        (List.Sublist.refl _))
  | ping key c =>
      simp only [Shutdown.step] at hs
      split at hs
      · next hrun =>
          cases hs
          exact h.register hrun fun hold => ⟨hold.requests, hold.acknowledgements,
            hold.noRequest, hold.noAcknowledgement, fun hnot => by cases hnot⟩
      · cases hs
  | endPing key =>
      cases hs
      exact h.setPending (h.pending.remove h.pending.requests h.pending.acknowledgements
        (List.Sublist.refl _) (List.Sublist.refl _) List.filter_sublist)
  | outbound c l =>
      cases l with
      | stop => cases hs
      | _ =>
          obtain ⟨ch, hch, hs⟩ := Option.bind_eq_some_iff.1 hs
          obtain ⟨ch', hch', rfl⟩ := Option.map_eq_some_iff.1 hs
          exact h.outbound hch hch' htidy
  | beginStop =>
      simp only [Shutdown.step] at hs
      split at hs
      · split at hs
        · cases hs
          exact h.beginStop cfg htidy
        · cases hs
      · cases hs
  | closeAll =>
      simp only [Shutdown.step] at hs
      split at hs
      · next tasks hstop =>
          cases hs
          exact h.closeAll hstop
      · cases hs
  | attemptsClosed =>
      simp only [Shutdown.step] at hs
      split at hs
      · next tasks attempts hstop =>
          split at hs
          · next hdone =>
              cases hs
              exact h.attemptsClosed hstop hdone
          · cases hs
      · cases hs
  | clear =>
      simp only [Shutdown.step] at hs
      split at hs
      · next tasks hstop =>
          split at hs
          · next hdone =>
              cases hs
              exact h.clear cfg hstop hdone htidy
          · cases hs
      · cases hs
  | stopped =>
      simp only [Shutdown.step] at hs
      split at hs
      · next hstop =>
          cases hs
          exact h.stopped hstop
      · cases hs

end Inv

/-- **The invariant holds** in the runs that meet the condition. -/
theorem inv_of_reachable {cfg : Config} {s : Node F}
    (h : ReachableWhen (system cfg) (Tidy cfg) s) : Inv s :=
  h.invariant (fun _ hs => hs ▸ .initial) fun _ _ _ hI htidy hs => hI.step htidy hs

/-- Nothing is left when discovery and transport have stopped. -/
theorem Inv.leftNothing {s : Node F} (h : Inv s) (hstop : s.stop = .services) :
    Node.LeftNothing { s with stop := .idle } := by
  have hrun : s.running = false := h.stopping (by rw [hstop]; exact fun he => by cases he)
  have hcleared := h.channels.cleared hrun (by rw [hstop]; rfl)
  have hout : s.links.outgoing = ∅ := Finset.eq_empty_of_forall_notMem fun a ha => by
    have := h.links.outgoing hrun a ha
    rw [hstop] at this
    exact this
  refine ⟨h.links.ready hrun, fun c => ?_, h.links.peers hrun, h.known hstop,
    fun c ch hc => (hcleared c ch hc).1, h.pending.noRequest hrun, h.pending.noAcknowledgement hrun,
    h.pending.noHeartbeat hrun, ?_, h.pending.requests.done (h.pending.noRequest hrun),
    h.pending.acknowledgements.done (h.pending.noAcknowledgement hrun),
    fun c ch hc => (hcleared c ch hc).2⟩
  · show (s.links.tables.ready c).map _ = none
    rw [h.links.ready hrun c]
    rfl
  · show (s.links.incoming ∪ s.links.outgoing).card = 0
    rw [h.links.incoming hrun, hout]
    rfl

/-- **`stop()` leaves nothing behind** in the runs whose steps are tidy: when it
returns the tables are empty and every call that waited has its answer. -/
theorem left_nothing (cfg : Config) : ∀ s t : Node F, ReachableWhen (system cfg) (Tidy cfg) s →
    step cfg s .stopped = some t → t.LeftNothing := by
  intro s t h hs
  simp only [step] at hs
  split at hs
  · next hstop =>
      cases hs
      exact (inv_of_reachable h).leftNothing hstop
  · cases hs

/-! ## Where a session is left -/

/-- Node `[1]`. -/
def sampleConfig : Config where
  peerId := [1]
  maxConnections := 8
  maxPendingRequests := 8
  maxPendingAcknowledgements := 8
  outbound := ⟨.wait, 8⟩

/-- A session. -/
def sampleSession : ProtocolSession Unit where
  peerId := [2]
  version := 1
  serializerId := [106]
  capabilities := []
  maxMessageSize := 1024
  peerIdAuthenticated := false
  metadata := []

/-- The only caller of an attempt is cancelled; `stop()` begins, and the handshake
ends before `close_all` does. -/
def leftRun : List (Label Unit) :=
  [.start, .connect [2] false, .opened 0, .callerEnds 0, .beginStop,
    .attemptNegotiated 0 sampleSession, .attemptSettles 0, .closeAll, .attemptsClosed, .clear]

/-- `stop()` leaves a READY session behind. -/
theorem not_left_nothing :
    ¬ ∀ (cfg : Config) (s t : Node Unit), Reachable (system cfg) s →
      step cfg s .stopped = some t → t.LeftNothing := by
  intro h
  have hleft := h sampleConfig _ _
    (reachable_of_exec (S := system sampleConfig) rfl leftRun rfl) rfl
  have hsession := hleft.sessions 0
  cases hsession

/-- Without a channel the condition holds of both. -/
theorem tidy_noChannels {cfg : Config} {s : Node F} (h : ∀ c, s.channels c = none) :
    Tidy cfg s .beginStop ∧ Tidy cfg s .clear := by
  refine ⟨fun c ch hch => ?_, fun c ch hch => ?_⟩
  · rw [h c] at hch
    cases hch
  · rw [h c] at hch
    cases hch

/-- An open attempt is cancelled by `close_all`. -/
theorem left_nothing_sample : ∃ s t : Node Unit,
    ReachableWhen (system sampleConfig) (Tidy sampleConfig) s ∧
      step sampleConfig s .stopped = some t ∧ t.LeftNothing := by
  have hopen : ReachableWhen (system (F := Unit) sampleConfig) (Tidy sampleConfig) _ :=
    reachableWhen_of_exec (S := system sampleConfig) rfl [.start, .connect [2] false, .opened 0]
      (by simp [Tidy]) rfl
  have hstopping := hopen.step .beginStop (tidy_noChannels fun _ => rfl).1 rfl
  have hclosed := hstopping.exec [.closeAll, .attemptCancelled 0 true, .attemptsClosed]
    (by simp [Tidy]) rfl
  have hcleared := hclosed.step .clear (tidy_noChannels fun _ => rfl).2 rfl
  exact ⟨_, _, hcleared, rfl, left_nothing sampleConfig _ _ hcleared rfl⟩

end Shutdown
end Core
end Paqto
