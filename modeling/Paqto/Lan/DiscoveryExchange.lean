/-
# A request finds its peers

A call of `discover()`, a service that its request reaches, and the answer that
reaches the caller, each at any later time and among any other traffic, leave
the peer in the cache of the caller: with the endpoints that were published, and
until its time to live has passed or the caller stops (`discover_finds`).
-/

import Paqto.Lan.DiscoveryNetwork

namespace Paqto
namespace Lan

open Python Paqto.Core Transition

variable {F : Type} [PyFloat F] [UrlLib]

namespace Network

variable {s t : Network F} {i j : ℕ}

/-! ## Later states -/

omit [PyFloat F] [UrlLib] in
/-- Nothing happens. -/
theorem Later.refl (s : Network F) : Later s s := ⟨rfl, fun _ _ => id, List.prefix_refl _⟩

omit [PyFloat F] [UrlLib] in
/-- One after the other. -/
theorem Later.trans {u : Network F} (h : Later s t) (h' : Later t u) : Later s u :=
  ⟨h'.settings.trans h.settings, fun i _ hp => h'.published i (h.published i hp),
    h.air.trans h'.air⟩

/-- A run keeps the invariant, the settings and what was sent. -/
theorem Inv.run (h : s.Inv) (hrun : ReachableWhen ((system F).startingAt s) StartsTextual t) :
    t.Inv ∧ Later s t := by
  refine hrun.invariant (I := fun t => t.Inv ∧ Later s t) ?_ fun u label v hu hlabel hstep => ?_
  · rintro _ rfl
    exact ⟨h, .refl _⟩
  · obtain ⟨hv, hlater⟩ := inv_step hu.1 label hlabel hstep
    exact ⟨hv, hu.2.trans hlater⟩

omit [PyFloat F] [UrlLib] in
/-- What was sent stays where it is. -/
theorem Later.getElem? (h : Later s t) {k : ℕ} {data : Bytes} (hk : s.air[k]? = some data) :
    t.air[k]? = some data := by
  obtain ⟨rest, hrest⟩ := h.air
  rw [← hrest]
  exact (List.getElem?_append_left (List.getElem?_eq_some_iff.1 hk).1).trans hk

/-- Until it stops, a service in the network does what it does alone. -/
theorem service_run (hrun : ReachableWhen ((system F).startingAt s)
    (fun s label => StartsTextual s label ∧ label ≠ .own i .stop) t) :
    ReachableWhen ((ServiceState.system F).startingAt (s.services i)) (fun _ label => label ≠ .stop)
      (t.services i) := by
  induction hrun with
  | init heq =>
      obtain rfl := heq
      exact .init rfl
  | @step u v label _ hlabel hstep ih =>
      have hmoves := (step_moves hstep i).1
      cases hmoves with
      | stays heq => exact heq ▸ ih
      | asks timeout sendto _ hservice => exact ih.step (.discover timeout sendto) (by simp) hservice
      | hears k data addr sendto _ _ hservice =>
          exact ih.step (.datagram data addr sendto) (by simp) hservice
      | own own heq _ hservice =>
          refine ih.step own (fun hstop => hlabel.2 ?_) hservice
          rw [heq, hstop]

/-! ## The exchange -/

/-- A service that is started as `peer` calls `discover()`, and its request is sent. -/
structure Asks (s : Network F) (i : ℕ) (peer : Peer F) (request : Bytes) (t : Network F) : Prop where
  started : (s.services i).discovery.started = true
  localPeer : (s.services i).discovery.localPeer = some peer
  encodes : encodePacket (s.settings i) (requestPayload peer) = .ok request
  sent : ∃ timeout sendto, sendto request (s.settings i).broadcastAddress = none ∧
    s.step (.discover i timeout sendto) = some t

/-- The `k`-th datagram reaches a service that is started as `peer`, which it fits. -/
structure Hears (s : Network F) (i k : ℕ) (data : Bytes) (peer : Peer F)
    (addr : Option SocketAddress) (sendto : Bytes → SocketAddress → Option SendError)
    (t : Network F) : Prop where
  started : (s.services i).discovery.started = true
  localPeer : (s.services i).discovery.localPeer = some peer
  fits : data.length ≤ (s.settings i).maxDatagramSize
  delivered : s.step (.deliver i k addr sendto) = some t

/-- A call of `discover()` sleeps, or raises, and leaves the caches. -/
theorem discover_steps (s : Network F) (i : ℕ) (timeout : Option ℚ)
    (sendto : Bytes → SocketAddress → Option SendError) :
    ∃ t, s.step (.discover i timeout sendto) = some t ∧
      ∀ j, (t.services j).discovery = (s.services j).discovery ∧
        (t.services j).now = (s.services j).now := by
  have hservice : ∃ service, (s.services i).step (.discover timeout sendto) = some service ∧
      service.discovery = (s.services i).discovery ∧ service.now = (s.services i).now := by
    simp only [ServiceState.step]
    split
    · exact ⟨_, rfl, rfl, rfl⟩
    · exact ⟨_, rfl, rfl, rfl⟩
  obtain ⟨service, hstep, hdiscovery, hnow⟩ := hservice
  refine ⟨_, by rw [Network.step, hstep]; rfl, fun j => ?_⟩
  change (Function.update s.services i service j).discovery = _ ∧
    (Function.update s.services i service j).now = _
  by_cases hj : j = i
  · subst hj
    rw [Function.update_self]
    exact ⟨hdiscovery, hnow⟩
  · rw [Function.update_of_ne hj]
    exact ⟨rfl, rfl⟩

/-- The request is in the air. -/
theorem Asks.air {peer : Peer F} {request : Bytes} (h : Asks s i peer request t) :
    t.air[s.air.length]? = some request := by
  obtain ⟨timeout, sendto, hsendto, hstep⟩ := h.sent
  obtain ⟨service, -, rfl⟩ := Option.map_eq_some_iff.1 hstep
  have hsent : sentRequest ⟨(s.services i).now, sendto⟩ (s.services i).discovery = [request] := by
    have hencodes := h.encodes
    have hbroadcast : sendto request (s.services i).discovery.settings.broadcastAddress = none :=
      hsendto
    unfold Network.settings at hencodes
    simp only [sentRequest, h.localPeer, sendPacket, h.started, hencodes, hbroadcast, Bool.not_true,
      Bool.false_eq_true, if_false, bind, Except.bind]
    rfl
  change (s.air ++ sentRequest _ _)[s.air.length]? = some request
  rw [hsent, List.getElem?_append_right (Nat.le_refl _), Nat.sub_self]
  rfl

/-- **A request is answered.** -/
theorem Hears.answers (h : s.Inv) {k : ℕ} {request : Bytes} {requester peer : Peer F}
    {addr : SocketAddress} {sendto : Bytes → SocketAddress → Option SendError}
    (hk : s.air[k]? = some request) (hid : Encodable requester.id) {settings : Settings F}
    (hrequest : encodePacket settings (requestPayload requester) = .ok request)
    (hears : Hears s i k request peer (some addr) sendto t) (hne : requester.id ≠ peer.id)
    (hsendto : ∀ data, sendto data addr = none) :
    ∃ answer, (⟨peer, (s.services i).discovery.endpoints⟩ : Publication F) ∈ s.published i ∧
      encodePacket (s.settings i) (announcement (s.settings i).metadata
        ⟨peer, (s.services i).discovery.endpoints⟩) = .ok answer ∧
      t.air = s.air ++ [answer] := by
  obtain ⟨found, hfound, hmem⟩ := h.current i hears.started
  obtain rfl : peer = found := Option.some.inj (hears.localPeer.symm.trans hfound)
  obtain ⟨answer, hanswer⟩ := (h.published i _ hmem).encodes
  refine ⟨answer, hmem, hanswer, ?_⟩
  have hencoded := hanswer
  unfold Network.settings at hencoded
  have hsent : sendAnnounce ⟨(s.services i).now, sendto⟩ (s.services i).discovery (some addr) =
      .ok answer := by
    unfold sendAnnounce
    rw [announcePayload_eq hears.localPeer]
    simp only [sendPacket, hears.started, hencoded, hsendto, bind, Except.bind, Bool.not_true,
      Bool.false_eq_true, if_false, Option.getD_some]
  have hreceived := datagramReceived_request
    (requests_request hid hrequest hears.localPeer hne) hears.fits hsent
  have hstep := hears.delivered
  simp only [Network.step, hk] at hstep
  obtain ⟨service, -, rfl⟩ := Option.map_eq_some_iff.1 hstep
  change s.air ++ _ = _
  rw [hreceived]
  rfl

/-- **An announcement is taken.** -/
theorem Hears.takes (h : s.Inv) {k : ℕ} {data : Bytes} {localPeer : Peer F} {p : Publication F}
    {addr : Option SocketAddress} {sendto : Bytes → SocketAddress → Option SendError}
    (hk : s.air[k]? = some data) (hp : p ∈ s.published j)
    (hdata : encodePacket (s.settings j) (announcement (s.settings j).metadata p) = .ok data)
    (hears : Hears s i k data localPeer addr sendto t) (hne : p.peer.id ≠ localPeer.id)
    (hadmitted : Admitted (s.services i).discovery (s.services i).now p.peer.id) :
    ∃ entry, (t.services i).discovery.discovered.get? p.peer.id = some entry ∧
      entry.peer = p.peer ∧ entry.endpoints = p.endpoints ∧
      entry.metadata = (s.settings j).metadata ∧
      entry.observedAtMonotonic = (s.services i).now.monotonic := by
  have hvalid := h.published j p hp
  have hrenews := renews_announcement (h.settings j) hvalid hdata hears.localPeer hne hears.fits
  have hcached := datagramReceived_admitted ⟨(s.services i).now, sendto⟩ addr
    (h.cache i).allAnchored hrenews hadmitted
  rw [filterMap_endpointOf hvalid.lan] at hcached
  obtain ⟨t', hstep, hservice, -⟩ := deliver_steps hears.started hk addr sendto
  obtain rfl : t' = t := Option.some.inj (hstep.symm.trans hears.delivered)
  rw [hservice]
  exact hcached

variable {s₁ s₂ s₃ s₄ : Network F} {p q r : Peer F} {request : Bytes}

/-- **A request finds its peers**, through any traffic, loss of other datagrams, delays, and
starts and stops of other services: a service calls `discover()`; at any later time another
peer that is started gets the request and answers it; and if the answer reaches the caller
at any later time, while there is room for the peer, the peer is known with the endpoints
that it had published, until its time to live has passed or the caller stops. -/
theorem discover_finds (h : ReachableWhen (system F) StartsTextual s) (hasks : Asks s i p request s₁)
    (h₁₂ : ReachableWhen ((system F).startingAt s₁) StartsTextual s₂) {addr : SocketAddress}
    {sendto : Bytes → SocketAddress → Option SendError}
    (hears : Hears s₂ j s.air.length request q (some addr) sendto s₃) (hpq : p.id ≠ q.id)
    (hsendto : ∀ data, sendto data addr = none)
    (h₃₄ : ReachableWhen ((system F).startingAt s₃) StartsTextual s₄) :
    ∃ answer, encodePacket (s.settings j) (announcement (s.settings j).metadata
        ⟨q, (s₂.services j).discovery.endpoints⟩) = .ok answer ∧
      s₃.air[s₂.air.length]? = some answer ∧ ∀ addr' sendto' s₅,
      Hears s₄ i s₂.air.length answer r addr' sendto' s₅ → q.id ≠ r.id →
      Admitted (s₄.services i).discovery (s₄.services i).now q.id →
      ∃ entry, (s₅.services i).discovery.discovered.get? q.id = some entry ∧ entry.peer = q ∧
        entry.endpoints = (s₂.services j).discovery.endpoints ∧
        entry.metadata = (s.settings j).metadata ∧
        entry.observedAtMonotonic = (s₄.services i).now.monotonic ∧
        ∀ s₆, ReachableWhen ((system F).startingAt s₅)
            (fun s label => StartsTextual s label ∧ label ≠ .own i .stop) s₆ →
          (∃ entry', (s₆.services i).discovery.discovered.get? q.id = some entry' ∧
            entry.observedAtMonotonic ≤ entry'.observedAtMonotonic) ∨
          Expired (s₆.services i).discovery (s₆.services i).now entry := by
  have hinv := inv_of_reachable h
  obtain ⟨timeout, sendto₀, -, hdiscover⟩ := hasks.sent
  obtain ⟨hinv₁, hlater₁⟩ := inv_step hinv (.discover i timeout sendto₀) trivial hdiscover
  obtain ⟨hinv₂, hlater₂⟩ := hinv₁.run h₁₂
  -- the request is of a peer that was published
  have hid : Encodable p.id := by
    obtain ⟨found, hfound, hmem⟩ := hinv.current i hasks.started
    obtain rfl : p = found := Option.some.inj (hasks.localPeer.symm.trans hfound)
    exact (hinv.published i _ hmem).textual.id
  obtain ⟨answer, hpublished, hanswer, hair⟩ :=
    hears.answers hinv₂ (hlater₂.getElem? hasks.air) hid hasks.encodes hpq hsendto
  have hanswered : s₃.air[s₂.air.length]? = some answer := by
    rw [hair, List.getElem?_append_right (Nat.le_refl _), Nat.sub_self]
    rfl
  obtain ⟨hinv₃, hlater₃⟩ := inv_step hinv₂ (.deliver j s.air.length (some addr) sendto)
    trivial hears.delivered
  obtain ⟨hinv₄, hlater₄⟩ := hinv₃.run h₃₄
  have hsettings : s₄.settings = s₂.settings := hlater₄.settings.trans hlater₃.settings
  have hmetadata : s₂.settings = s.settings := hlater₂.settings.trans hlater₁.settings
  refine ⟨answer, hmetadata ▸ hanswer, hanswered, fun addr' sendto' s₅ htakes hqr hadmitted => ?_⟩
  obtain ⟨entry, hget, hpeer, hendpoints, hmeta, hobserved⟩ := htakes.takes hinv₄
    (hlater₄.getElem? hanswered) (hlater₄.published j (hlater₃.published j hpublished))
    (hsettings ▸ hanswer) hqr hadmitted
  refine ⟨entry, hget, hpeer, hendpoints, ?_, hobserved, fun s₆ hrun => ?_⟩
  · rw [hmeta, hsettings, hmetadata]
  · obtain ⟨hinv₅, -⟩ := inv_step hinv₄ (.deliver i s₂.air.length addr' sendto') trivial
      htakes.delivered
    exact (run_kept (hinv₅.cache i) hget (service_run hrun)).2

end Network

open Network in
omit [UrlLib] in
/-- **A run.**  The peer `a` calls `discover()`, `b` answers, and `a` knows `b`. -/
theorem discover_finds_sample : ∃ (s : Network SampleFloat) (entry : DiscoveredPeer SampleFloat),
    (s.services 0).discovery.discovered.get? (samplePeer true).id = some entry ∧
      entry.peer = samplePeer true := by
  obtain ⟨request, hrequest⟩ := samplePeer_requests
  have hsize : request.length ≤ sampleSettings.maxDatagramSize :=
    (encodePacket_ok hrequest).choose_spec.2.2
  have hsendto : ∀ data : Bytes, (fun _ _ => none : Bytes → SocketAddress → Option SendError) data
      sampleSettings.broadcastAddress = none := fun _ => rfl
  -- the request
  obtain ⟨s₁, hdiscover, hsame⟩ := discover_steps samplePair 0 none fun _ _ => none
  have hzero : (s₁.services 0).discovery = (sampleStarted false).discovery := (hsame 0).1
  have hone : (s₁.services 1).discovery = (sampleStarted true).discovery := (hsame 1).1
  have hasks : Asks samplePair 0 (samplePeer false) request s₁ :=
    ⟨rfl, rfl, hrequest, none, _, rfl, hdiscover⟩
  -- its answer
  obtain ⟨s₃, hanswer, -, hothers⟩ := deliver_steps (s := s₁) (i := 1) (k := 0)
    (by rw [hone]; rfl) hasks.air (some sampleSettings.broadcastAddress) fun _ _ => none
  have hears : Hears s₁ 1 0 request (samplePeer true) (some sampleSettings.broadcastAddress)
      (fun _ _ => none) s₃ :=
    ⟨by rw [hone]; rfl, by rw [hone]; rfl, by rw [settings, hone]; exact hsize, hanswer⟩
  have hzero₃ : (s₃.services 0).discovery = (sampleStarted false).discovery := by
    rw [hothers 0 (by decide), hzero]
  obtain ⟨answer, hencodes, hair, hfinds⟩ := discover_finds (r := samplePeer false)
    samplePair_reachable hasks (.init rfl) hears (by decide) hsendto (.init rfl)
  -- what the answer leaves
  have hlength : answer.length ≤ sampleSettings.maxDatagramSize :=
    (encodePacket_ok hencodes).choose_spec.2.2
  obtain ⟨s₅, htakes, -⟩ := deliver_steps (by rw [hzero₃]; rfl) hair none fun _ _ => none
  have hroom : Admitted (s₃.services 0).discovery (s₃.services 0).now (samplePeer true).id := by
    rw [hothers 0 (by decide), (hsame 0).2, hzero]
    exact .inr (by decide)
  obtain ⟨entry, hget, hpeer, -⟩ := hfinds none (fun _ _ => none) s₅
    ⟨by rw [hzero₃]; rfl, by rw [hzero₃]; rfl, by rw [settings, hzero₃]; exact hlength, htakes⟩
    (by decide) hroom
  exact ⟨s₅, entry, hget, hpeer⟩

end Lan
end Paqto
