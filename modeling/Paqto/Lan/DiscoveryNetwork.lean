/-
# A network of discovery services

Any number of `LanDiscovery` services that hear each other.  What they send goes
into the air: announcements, requests, and the answers to these.  A datagram in
the air reaches any service at any time, again and again, late and under any
sender's address, or never; services start, stop and start again as other peers
meanwhile.

Whoever a service knows is a peer that some service has published, with the
endpoints and metadata that were published (`discovered_was_published`), and a
request, its answer and what the answer leaves find their way through any
traffic (`discover_finds`).
-/

import Paqto.Lan.Publications

namespace Paqto
namespace Lan

open Python Paqto.Core Transition

variable {F : Type} [PyFloat F]

/-! ## The network -/

/-- The services, what they have sent and what they have published. -/
structure Network (F : Type) where
  services : ℕ → ServiceState F
  /-- Every datagram that was sent. -/
  air : List Bytes
  /-- What each service has published, start after start. -/
  published : ℕ → List (Publication F)

/-- The moves of the services and of the network. -/
inductive NetworkLabel (F : Type)
  /-- A turn of `_announce_periodically` -/
  | announce (i : ℕ) (sendto : Bytes → SocketAddress → Option SendError)
  | discover (i : ℕ) (timeout : Option ℚ) (sendto : Bytes → SocketAddress → Option SendError)
  /-- A datagram of the air reaches a service. -/
  | deliver (i k : ℕ) (addr : Option SocketAddress)
      (sendto : Bytes → SocketAddress → Option SendError)
  /-- A step of a service that sends nothing. -/
  | own (i : ℕ) (label : ServiceLabel F)

namespace Network

/-- A service moves. -/
def setService (s : Network F) (i : ℕ) (t : ServiceState F) : Network F :=
  { s with services := Function.update s.services i t }

/-- Datagrams are sent. -/
def send (s : Network F) (sent : List Bytes) : Network F := { s with air := s.air ++ sent }

/-- A service publishes its endpoints. -/
def publish (s : Network F) (i : ℕ) (new : List (Publication F)) : Network F :=
  { s with published := Function.update s.published i (s.published i ++ new) }

/-- One step. -/
def step [UrlLib] (s : Network F) : NetworkLabel F → Option (Network F)
  | .announce i sendto =>
      let service := s.services i
      if service.discovery.started then
        some (s.send (sendAnnounce ⟨service.now, sendto⟩ service.discovery none).toOption.toList)
      else none
  | .discover i timeout sendto =>
      let service := s.services i
      (service.step (.discover timeout sendto)).map fun t =>
        (s.setService i t).send (sentRequest ⟨service.now, sendto⟩ service.discovery)
  | .deliver i k addr sendto =>
      let service := s.services i
      match s.air[k]? with
      | none => none
      | some data =>
          (service.step (.datagram data addr sendto)).map fun t =>
            (s.setService i t).send
              ((datagramReceived ⟨service.now, sendto⟩ service.discovery data addr).sent.map
                Prod.fst).toList
  | .own i label =>
      match label with
      | .datagram .. | .discover .. => none
      | label =>
          ((s.services i).step label).map fun t =>
            (s.setService i t).publish i
              (newPublication (s.services i).discovery t.discovery)

/-- Services that have just been made, with plain metadata. -/
def Initial (s : Network F) : Prop :=
  (∀ i, (s.services i).Initial ∧ (Value.dict (s.services i).discovery.settings.metadata).Plain) ∧
    s.air = [] ∧ ∀ i, s.published i = []

/-- The runs of a network. -/
def system (F : Type) [PyFloat F] [UrlLib] : System (Network F) (NetworkLabel F) :=
  ⟨Initial, step⟩

/-- The applications start their services with such peers. -/
def StartsTextual (_ : Network F) : NetworkLabel F → Prop
  | .own _ (.start localPeer endpoints _) => Textual localPeer endpoints
  | _ => True

end Network

/-! ## The invariant -/

namespace Network

variable [UrlLib] {s t : Network F} {i : ℕ}

/-- The settings of a service. -/
def settings (s : Network F) (i : ℕ) : Settings F := (s.services i).discovery.settings

/-- A datagram that a service has sent. -/
inductive Sent (s : Network F) (data : Bytes) : Prop
  | request (i : ℕ) (p : Publication F) : p ∈ s.published i →
      encodePacket (s.settings i) (requestPayload p.peer) = .ok data → Sent s data
  | announcement (i : ℕ) (p : Publication F) : p ∈ s.published i →
      encodePacket (s.settings i) (announcement (s.settings i).metadata p) = .ok data → Sent s data

/-- What is known of a peer was published. -/
def Heard (s : Network F) (entry : DiscoveredPeer F) : Prop :=
  ∃ j p, p ∈ s.published j ∧ entry.peer = p.peer ∧ entry.endpoints = p.endpoints ∧
    entry.metadata = (s.settings j).metadata

/-- What holds in every run of the network. -/
structure Inv (s : Network F) : Prop where
  settings : ∀ i, (Value.dict (s.settings i).metadata).Plain
  published : ∀ i, ∀ p ∈ s.published i, p.Valid (s.settings i)
  current : ∀ i, (s.services i).discovery.started = true → ∃ peer,
    (s.services i).discovery.localPeer = some peer ∧
      ⟨peer, (s.services i).discovery.endpoints⟩ ∈ s.published i
  air : ∀ data ∈ s.air, s.Sent data
  cache : ∀ i, CacheInv (s.services i)
  heard : ∀ i id entry, (s.services i).discovery.discovered.get? id = some entry → s.Heard entry

/-- The settings stay, and what was published and sent. -/
structure Later (s t : Network F) : Prop where
  settings : t.settings = s.settings
  published : ∀ i, s.published i ⊆ t.published i
  air : s.air <+: t.air

omit [UrlLib] in
/-- What was sent stays sent. -/
theorem Later.sent (h : Later s t) {data : Bytes} (hsent : s.Sent data) : t.Sent data := by
  cases hsent with
  | request i p hp hdata => exact .request i p (h.published i hp) (h.settings ▸ hdata)
  | announcement i p hp hdata => exact .announcement i p (h.published i hp) (h.settings ▸ hdata)

omit [PyFloat F] [UrlLib] in
/-- What was heard stays heard. -/
theorem Later.heard (h : Later s t) {entry : DiscoveredPeer F} (hheard : s.Heard entry) :
    t.Heard entry := by
  obtain ⟨j, p, hp, hpeer, hendpoints, hmetadata⟩ := hheard
  exact ⟨j, p, h.published j hp, hpeer, hendpoints, h.settings ▸ hmetadata⟩

/-- The datagram announces what is known of the peer. -/
def Announced (s : Network F) (data : Bytes) (entry : DiscoveredPeer F) : Prop :=
  ∃ j p, p ∈ s.published j ∧ entry.peer = p.peer ∧ entry.endpoints = p.endpoints ∧
    entry.metadata = (s.settings j).metadata ∧
    encodePacket (s.settings j) (announcement (s.settings j).metadata p) = .ok data

omit [UrlLib] in
/-- An entry of an announcement was heard. -/
theorem Announced.heard {data : Bytes} {entry : DiscoveredPeer F} (h : s.Announced data entry) :
    s.Heard entry := by
  obtain ⟨j, p, hp, hpeer, hendpoints, hmetadata, -⟩ := h
  exact ⟨j, p, hp, hpeer, hendpoints, hmetadata⟩

/-- **A datagram of the air brings nobody but who was published**, and whom it announces. -/
theorem Inv.leaves (h : s.Inv) {env : Environment} {d : LanDiscovery F} {data : Bytes}
    (hdata : s.Sent data) (hanchored : AllAnchored (s.services i).discovery env.now)
    (hd : Leaves env (s.services i).discovery data d) (id : Str) (entry : DiscoveredPeer F)
    (hget : d.discovered.get? id = some entry) :
    (s.services i).discovery.discovered.get? id = some entry ∨
      s.Announced data entry ∧ entry.observedAtMonotonic = env.now.monotonic := by
  have hpruned : (pruneExpired (s.services i).discovery env.now).2.discovered.get? id = some entry →
      (s.services i).discovery.discovered.get? id = some entry := by
    intro hget
    obtain ⟨-, -, hiff⟩ := pruneExpired_spec hanchored
    exact ((hiff id entry).1 hget).1
  -- what the datagram announces was published
  have hnew : ∀ {peer items metadata}, Renews (s.services i).discovery data peer items metadata →
      ∃ j p, p ∈ s.published j ∧ peer = p.peer ∧ items.filterMap endpointOf = p.endpoints ∧
        metadata = (s.settings j).metadata ∧
        encodePacket (s.settings j) (announcement (s.settings j).metadata p) = .ok data := by
    intro peer items metadata hrenews
    cases hdata with
    | request j p hp hencoded =>
        exact absurd hrenews (not_renews_request (h.published j p hp).textual.id hencoded)
    | announcement j p hp hencoded =>
        obtain ⟨hpeer, hendpoints, hmetadata⟩ :=
          hrenews.announced (h.settings j) (h.published j p hp) hencoded
        exact ⟨j, p, hp, hpeer, hendpoints, hmetadata, hencoded⟩
  cases hd with
  | same => exact .inl hget
  | pruned => exact .inl (hpruned hget)
  | @refreshed peer items metadata old hrenews hold =>
      change ((s.services i).discovery.discovered.set peer.id _).get? id = some entry at hget
      rw [Dict.get?_set] at hget
      split at hget
      · cases hget
        exact .inr ⟨hnew hrenews, rfl⟩
      · exact .inl hget
  | @added peer items metadata hrenews hunknown hroom =>
      change ((pruneExpired _ env.now).2.discovered.set peer.id _).get? id = some entry at hget
      rw [Dict.get?_set] at hget
      split at hget
      · cases hget
        exact .inr ⟨hnew hrenews, DiscoveredPeer.create_observed ..⟩
      · exact .inl (hpruned hget)

/-- A service moves on, sends and publishes. -/
theorem Inv.advance (h : s.Inv) (i : ℕ) {service : ServiceState F} {sent : List Bytes}
    {new : List (Publication F)} (hservices : t.services = Function.update s.services i service)
    (hair : t.air = s.air ++ sent)
    (hpublished : t.published = Function.update s.published i (s.published i ++ new))
    (hsettings : service.discovery.settings = s.settings i)
    (hnew : ∀ p ∈ new, p.Valid (s.settings i))
    (hcurrent : service.discovery.started = true → ∃ peer,
      service.discovery.localPeer = some peer ∧
        (⟨peer, service.discovery.endpoints⟩ ∈ s.published i ∨
          ⟨peer, service.discovery.endpoints⟩ ∈ new))
    (hsent : ∀ data ∈ sent, s.Sent data) (hcache : CacheInv service)
    (hheard : ∀ id entry, service.discovery.discovered.get? id = some entry → s.Heard entry) :
    t.Inv ∧ Later s t := by
  have hself : t.services i = service := by rw [hservices, Function.update_self]
  have hother : ∀ {j}, j ≠ i → t.services j = s.services j := fun hj => by
    rw [hservices, Function.update_of_ne hj]
  have hlater : Later s t := by
    refine ⟨funext fun j => ?_, fun j p hp => ?_, hair ▸ List.prefix_append _ _⟩
    · by_cases hj : j = i
      · subst hj
        rw [Network.settings, hself, hsettings]
      · rw [Network.settings, hother hj, Network.settings]
    · rw [hpublished]
      by_cases hj : j = i
      · subst hj
        rw [Function.update_self]
        exact List.mem_append_left _ hp
      · rwa [Function.update_of_ne hj]
  refine ⟨⟨fun j => hlater.settings ▸ h.settings j, fun j p hp => ?_, fun j hj => ?_,
    fun data hdata => ?_, fun j => ?_, fun j id entry hget => ?_⟩, hlater⟩
  · rw [hlater.settings]
    rw [hpublished] at hp
    by_cases hj : j = i
    · subst hj
      rw [Function.update_self, List.mem_append] at hp
      exact hp.elim (h.published j p) (hnew p)
    · rw [Function.update_of_ne hj] at hp
      exact h.published j p hp
  · by_cases heq : j = i
    · subst heq
      rw [hself] at hj ⊢
      obtain ⟨peer, hpeer, hmem⟩ := hcurrent hj
      refine ⟨peer, hpeer, ?_⟩
      rw [hpublished, Function.update_self]
      exact List.mem_append.2 hmem
    · rw [hother heq] at hj ⊢
      obtain ⟨peer, hpeer, hmem⟩ := h.current j hj
      exact ⟨peer, hpeer, hlater.published j hmem⟩
  · rw [hair, List.mem_append] at hdata
    exact hlater.sent (hdata.elim (h.air data) (hsent data))
  · by_cases heq : j = i
    · subst heq
      exact hself ▸ hcache
    · exact hother heq ▸ h.cache j
  · by_cases heq : j = i
    · subst heq
      rw [hself] at hget
      exact hlater.heard (hheard id entry hget)
    · rw [hother heq] at hget
      exact hlater.heard (h.heard j id entry hget)

/-- What a started service announces was published. -/
theorem Inv.announces (h : s.Inv) {env : Environment} {addr : Option SocketAddress} {data : Bytes}
    (hdata : sendAnnounce env (s.services i).discovery addr = .ok data) : s.Sent data := by
  obtain ⟨hstarted, peer, hpeer, hencoded⟩ := sendAnnounce_ok hdata
  obtain ⟨found, hfound, hmem⟩ := h.current i hstarted
  obtain rfl : peer = found := Option.some.inj (hpeer.symm.trans hfound)
  exact .announcement i _ hmem hencoded

omit [PyFloat F] [UrlLib] in
/-- Nothing is published. -/
theorem published_same (s : Network F) (i : ℕ) : s.published = Function.update s.published i (s.published i ++ []) := by
  rw [List.append_nil, Function.update_eq_self]

omit [PyFloat F] [UrlLib] in
/-- A result is one that was returned. -/
theorem mem_toList_ok {ε α : Type} {x : Except ε α} {a : α} (h : a ∈ x.toOption.toList) :
    x = .ok a := by
  cases x with
  | error e => cases h
  | ok b =>
      obtain rfl := List.mem_singleton.1 h
      rfl

/-- A datagram changes the cache only. -/
theorem leaves_local {env : Environment} {d d' : LanDiscovery F} {data : Bytes}
    (h : Leaves env d data d') :
    d'.localPeer = d.localPeer ∧ d'.endpoints = d.endpoints ∧ d'.started = d.started := by
  cases h with
  | same | refreshed => exact ⟨rfl, rfl, rfl⟩
  | pruned | added =>
      rw [pruneExpired_eq]
      exact ⟨rfl, rfl, rfl⟩

/-- Where the service is started, it still is as what it has published. -/
theorem Inv.current_of_eq (h : s.Inv) {d : LanDiscovery F} {new : List (Publication F)}
    (hstarted : d.started = true → (s.services i).discovery.started = true)
    (hlocal : d.localPeer = (s.services i).discovery.localPeer)
    (hendpoints : d.endpoints = (s.services i).discovery.endpoints) :
    d.started = true → ∃ peer, d.localPeer = some peer ∧
      (⟨peer, d.endpoints⟩ ∈ s.published i ∨ ⟨peer, d.endpoints⟩ ∈ new) := by
  intro hnow
  obtain ⟨peer, hpeer, hmem⟩ := h.current i (hstarted hnow)
  rw [hlocal, hendpoints]
  exact ⟨peer, hpeer, .inl hmem⟩

/-- **One step keeps the invariant.** -/
theorem inv_step (h : s.Inv) (label : NetworkLabel F) (hlabel : StartsTextual s label)
    (hstep : s.step label = some t) : t.Inv ∧ Later s t := by
  cases label with
  | announce i sendto =>
      simp only [Network.step] at hstep
      split at hstep <;> cases hstep
      refine h.advance i (Function.update_eq_self ..).symm rfl (published_same s i) rfl
        (by simp) (h.current_of_eq id rfl rfl) (fun data hdata => ?_) (h.cache i) (h.heard i)
      exact h.announces (mem_toList_ok hdata)
  | discover i timeout sendto =>
      obtain ⟨service, hservice, rfl⟩ := Option.map_eq_some_iff.1 hstep
      have hsteps := service_steps (h.cache i) hservice (by simp) (by simp)
      have hsame : service.discovery = (s.services i).discovery := by
        simp only [ServiceState.step] at hservice
        split at hservice <;> cases hservice
        · rfl
        · rfl
      refine h.advance i rfl rfl (published_same s i) hsteps.settings (by simp)
        (h.current_of_eq ?_ ?_ ?_) (fun data hdata => ?_) (cacheInv_step (h.cache i) hservice)
        fun id entry hget => h.heard i id entry (hsteps.known id entry hget)
      · exact fun hnow => hsame ▸ hnow
      · rw [hsame]
      · rw [hsame]
      · obtain ⟨hstarted, peer, hpeer, hencoded⟩ := mem_sentRequest hdata
        obtain ⟨found, hfound, hmem⟩ := h.current i hstarted
        obtain rfl : peer = found := Option.some.inj (hpeer.symm.trans hfound)
        exact .request i _ hmem hencoded
  | deliver i k addr sendto =>
      simp only [Network.step] at hstep
      split at hstep
      · cases hstep
      · rename_i data hair
        obtain ⟨service, hservice, rfl⟩ := Option.map_eq_some_iff.1 hstep
        have hcache := cacheInv_step (h.cache i) hservice
        have hleaves := datagramReceived_leaves ⟨(s.services i).now, sendto⟩
          (s.services i).discovery data addr
        obtain ⟨hlocal, hendpoints, hstarted⟩ := leaves_local hleaves
        simp only [ServiceState.step] at hservice
        split at hservice <;> cases hservice
        refine h.advance i rfl rfl (published_same s i) (leaves_settings hleaves) (by simp)
          (h.current_of_eq ?_ hlocal hendpoints) (fun sent hsent => ?_) hcache
          fun id entry hget => ?_
        · exact fun hnow => hstarted.symm.trans hnow
        · obtain ⟨answer, hanswer, rfl⟩ := Option.map_eq_some_iff.1 (Option.mem_toList.1 hsent)
          exact h.announces (datagramReceived_sent hanswer).1
        · obtain hold | ⟨hnew, -⟩ := h.leaves (h.air data (List.mem_of_getElem? hair))
            (h.cache i).allAnchored hleaves id entry hget
          · exact h.heard i id entry hold
          · exact hnew.heard
  | own i label =>
      have hown : (∀ data addr sendto, label ≠ .datagram data addr sendto) ∧
          ∃ service, (s.services i).step label = some service ∧
            (s.setService i service).publish i
              (newPublication (s.services i).discovery service.discovery) = t := by
        simp only [Network.step] at hstep
        split at hstep
        · cases hstep
        · cases hstep
        · rename_i hdatagram _
          exact ⟨hdatagram, Option.map_eq_some_iff.1 hstep⟩
      obtain ⟨hdatagram, service, hservice, rfl⟩ := hown
      have hsteps := service_steps (h.cache i) hservice hdatagram fun localPeer endpoints socket heq => by
        subst heq
        exact hlabel
      refine h.advance i rfl (List.append_nil _).symm rfl hsteps.settings (fun p hp => ?_)
        (fun hnow => ?_) (by simp) (cacheInv_step (h.cache i) hservice)
        fun id entry hget => h.heard i id entry (hsteps.known id entry hget)
      · obtain ⟨hbefore, hafter, hpeer, hendpoints⟩ := mem_newPublication.1 hp
        rcases hsteps.started hafter with ⟨hstarted, -⟩ | ⟨-, found, hfound, hvalid⟩
        · cases hbefore.symm.trans hstarted
        · obtain rfl : found = p.peer := Option.some.inj (hfound.symm.trans hpeer)
          rwa [hendpoints] at hvalid
      · rcases hsteps.started hnow with ⟨hbefore, hlocal, hendpoints⟩ | ⟨hbefore, peer, hpeer, -⟩
        · exact h.current_of_eq (fun _ => hbefore) hlocal hendpoints hnow
        · exact ⟨peer, hpeer, .inr (mem_newPublication.2 ⟨hbefore, hnow, hpeer, rfl⟩)⟩

/-! ## What one service does in a step -/

/-- What a step of the network is to the service. -/
inductive Moves (s : Network F) (label : NetworkLabel F) (i : ℕ) (service : ServiceState F) : Prop
  | stays : service = s.services i → Moves s label i service
  | asks (timeout : Option ℚ) (sendto : Bytes → SocketAddress → Option SendError) :
      label = .discover i timeout sendto →
      (s.services i).step (.discover timeout sendto) = some service → Moves s label i service
  | hears (k : ℕ) (data : Bytes) (addr : Option SocketAddress)
      (sendto : Bytes → SocketAddress → Option SendError) :
      label = .deliver i k addr sendto → s.air[k]? = some data →
      (s.services i).step (.datagram data addr sendto) = some service → Moves s label i service
  | own (own : ServiceLabel F) : label = .own i own →
      (∀ data addr sendto, own ≠ .datagram data addr sendto) →
      (s.services i).step own = some service → Moves s label i service

/-- **What a step does to a service**, and to what it has published. -/
theorem step_moves {label : NetworkLabel F} (hstep : s.step label = some t) (i : ℕ) :
    Moves s label i (t.services i) ∧ (t.published i = s.published i ∨
      (∃ own, label = .own i own) ∧ t.published i = s.published i ++
        newPublication (s.services i).discovery (t.services i).discovery) := by
  have hset : ∀ {j : ℕ} {service : ServiceState F}, Moves s label j service →
      t.services = Function.update s.services j service → Moves s label i (t.services i) := by
    intro j service hmoves hservices
    rw [hservices]
    by_cases hij : i = j
    · subst hij
      rwa [Function.update_self]
    · rw [Function.update_of_ne hij]
      exact .stays rfl
  cases label with
  | announce j sendto =>
      simp only [Network.step] at hstep
      split at hstep <;> cases hstep
      exact ⟨.stays rfl, .inl rfl⟩
  | discover j timeout sendto =>
      obtain ⟨service, hservice, rfl⟩ := Option.map_eq_some_iff.1 hstep
      exact ⟨hset (.asks timeout sendto rfl hservice) rfl, .inl rfl⟩
  | deliver j k addr sendto =>
      simp only [Network.step] at hstep
      split at hstep
      · cases hstep
      · rename_i data hair
        obtain ⟨service, hservice, rfl⟩ := Option.map_eq_some_iff.1 hstep
        exact ⟨hset (.hears k data addr sendto rfl hair hservice) rfl, .inl rfl⟩
  | own j own =>
      have hown : (∀ data addr sendto, own ≠ .datagram data addr sendto) ∧
          ∃ service, (s.services j).step own = some service ∧
            (s.setService j service).publish j
              (newPublication (s.services j).discovery service.discovery) = t := by
        simp only [Network.step] at hstep
        split at hstep
        · cases hstep
        · cases hstep
        · rename_i hdatagram _
          exact ⟨hdatagram, Option.map_eq_some_iff.1 hstep⟩
      obtain ⟨hdatagram, service, hservice, rfl⟩ := hown
      refine ⟨hset (.own own rfl hdatagram hservice) rfl, ?_⟩
      change Function.update s.published j _ i = _ ∨ _ ∧ Function.update s.published j _ i =
        _ ++ newPublication _ (Function.update s.services j service i).discovery
      by_cases hij : i = j
      · subst hij
        rw [Function.update_self, Function.update_self]
        exact .inr ⟨⟨own, rfl⟩, rfl⟩
      · rw [Function.update_of_ne hij]
        exact .inl rfl

/-- **What a step brings into a cache**: what was there, or what a delivered datagram announces. -/
theorem Inv.cache_step (h : s.Inv) {label : NetworkLabel F} (hlabel : StartsTextual s label)
    (hstep : s.step label = some t) {id : Str} {entry : DiscoveredPeer F}
    (hget : (t.services i).discovery.discovered.get? id = some entry) :
    (s.services i).discovery.discovered.get? id = some entry ∨
      ∃ k addr sendto data, label = .deliver i k addr sendto ∧ s.air[k]? = some data ∧
        s.Announced data entry ∧ entry.observedAtMonotonic = (s.services i).now.monotonic := by
  cases (step_moves hstep i).1 with
  | stays heq => exact .inl (heq ▸ hget)
  | asks timeout sendto _ hservice =>
      have hsteps := service_steps (h.cache i) hservice (by simp) (by simp)
      exact .inl (hsteps.known id entry hget)
  | hears k data addr sendto hdeliver hair hservice =>
      obtain ⟨-, heq⟩ := Option.ite_none_right_eq_some.1 hservice
      rw [← Option.some.inj heq] at hget
      obtain hold | ⟨hnew, hnow⟩ := h.leaves (h.air data (List.mem_of_getElem? hair))
        (h.cache i).allAnchored (datagramReceived_leaves ⟨(s.services i).now, sendto⟩ _ data addr)
        id entry hget
      · exact .inl hold
      · exact .inr ⟨k, addr, sendto, data, hdeliver, hair, hnew, hnow⟩
  | own own heq hdatagram hservice =>
      have hsteps := service_steps (h.cache i) hservice hdatagram
        fun localPeer endpoints socket hstart => by
          subst heq hstart
          exact hlabel
      exact .inl (hsteps.known id entry hget)

/-- Nothing was sent yet. -/
theorem inv_initial (h : s.Initial) : s.Inv := by
  obtain ⟨hservices, hair, hpublished⟩ := h
  refine ⟨fun i => (hservices i).2, fun i p hp => ?_, fun i hi => ?_, fun data hdata => ?_,
    fun i => ?_, fun i id entry hget => ?_⟩
  · rw [hpublished] at hp
    cases hp
  · obtain ⟨settings, now, defaultTimeout, hs⟩ := (hservices i).1
    rw [hs] at hi
    cases hi
  · rw [hair] at hdata
    cases hdata
  · obtain ⟨settings, now, defaultTimeout, hs⟩ := (hservices i).1
    rw [hs]
    exact cacheInv_of_empty rfl
  · obtain ⟨settings, now, defaultTimeout, hs⟩ := (hservices i).1
    rw [hs] at hget
    cases hget

/-- **What holds in every run**, where peers are textual. -/
theorem inv_of_reachable (h : ReachableWhen (system F) StartsTextual s) : s.Inv :=
  h.invariant (fun _ hs => inv_initial hs) fun _ _ _ hI hl hs => (inv_step hI _ hl hs).1

/-- A started service takes what reaches it. -/
theorem deliver_steps {k : ℕ} {data : Bytes} (hstarted : (s.services i).discovery.started = true)
    (hk : s.air[k]? = some data) (addr : Option SocketAddress)
    (sendto : Bytes → SocketAddress → Option SendError) :
    ∃ t, s.step (.deliver i k addr sendto) = some t ∧
      t.services i = { s.services i with
        discovery := (datagramReceived ⟨(s.services i).now, sendto⟩ (s.services i).discovery data
          addr).discovery } ∧
      ∀ j, j ≠ i → t.services j = s.services j := by
  have hstep : s.step (.deliver i k addr sendto) = some ((s.setService i { s.services i with
      discovery := (datagramReceived ⟨(s.services i).now, sendto⟩ (s.services i).discovery data
        addr).discovery }).send ((datagramReceived ⟨(s.services i).now, sendto⟩
          (s.services i).discovery data addr).sent.map Prod.fst).toList) := by
    simp only [step, hk, ServiceState.step, hstarted, if_true, Option.map_some]
  refine ⟨_, hstep, ?_, fun j hj => ?_⟩
  · change Function.update s.services i _ i = _
    rw [Function.update_self]
  · change Function.update s.services i _ j = _
    rw [Function.update_of_ne hj]

/-- What a delivery sends: nothing, or the answer to a request. -/
theorem Inv.deliver_air (h : s.Inv) {k : ℕ} {addr : Option SocketAddress}
    {sendto : Bytes → SocketAddress → Option SendError}
    (hstep : s.step (.deliver i k addr sendto) = some t) : t.air = s.air ∨
      ∃ j p localPeer request answer, p ∈ s.published j ∧ s.air[k]? = some request ∧
        encodePacket (s.settings j) (requestPayload p.peer) = .ok request ∧
        (s.services i).discovery.localPeer = some localPeer ∧ p.peer.id ≠ localPeer.id ∧
        encodePacket (s.settings i) (announcement (s.settings i).metadata
          ⟨localPeer, (s.services i).discovery.endpoints⟩) = .ok answer ∧
        t.air = s.air ++ [answer] := by
  simp only [Network.step] at hstep
  split at hstep
  · cases hstep
  · rename_i data hair
    obtain ⟨service, -, rfl⟩ := Option.map_eq_some_iff.1 hstep
    cases hsent : (datagramReceived ⟨(s.services i).now, sendto⟩ (s.services i).discovery data
      addr).sent with
    | none =>
        exact .inl (List.append_nil s.air)
    | some answer =>
        obtain ⟨hanswer, hrequests⟩ := datagramReceived_sent hsent
        obtain ⟨-, localPeer, hlocal, hencoded⟩ := sendAnnounce_ok hanswer
        cases h.air data (List.mem_of_getElem? hair) with
        | announcement j p hp hdata =>
            exact absurd hrequests
              (not_requests_announcement (h.settings j) (h.published j p hp) hdata)
        | request j p hp hdata =>
            obtain ⟨payload, found, peerId, hpayload, -, hfound, hpeerId, hne⟩ := hrequests
            obtain rfl := Option.some.inj
              ((decodePacket_request (h.published j p hp).textual.id hdata).symm.trans hpayload)
            obtain rfl : p.peer.id = peerId := Value.str.inj (Option.some.inj hpeerId)
            obtain rfl : localPeer = found := Option.some.inj (hlocal.symm.trans hfound)
            exact .inr ⟨j, p, localPeer, data, answer.1, hp, hair, hdata, hlocal, hne, hencoded, rfl⟩

/-- **Whoever is discovered was published**, in every run of any number of services whose
datagrams are lost, repeated, reordered and late, and which start, stop and start again: a
peer that a service knows, or that its `discover()` returns, was published by some service
under that id and with these endpoints and metadata, and is not the local peer; and only a
request of another peer is answered, with one announcement. -/
theorem discovered_was_published (h : ReachableWhen (system F) StartsTextual s) (i : ℕ) :
    (∀ id entry, (s.services i).discovery.discovered.get? id = some entry →
      entry.peer.id = id ∧ s.Heard entry ∧ ∃ localPeer,
        (s.services i).discovery.localPeer = some localPeer ∧ localPeer.id ≠ id) ∧
    (∃ peers, ((s.services i).discovery.endDiscover (s.services i).now).1 = .ok peers ∧
      ∀ entry ∈ peers, s.Heard entry ∧ ¬ Expired (s.services i).discovery (s.services i).now entry) ∧
    ∀ k addr sendto t, s.step (.deliver i k addr sendto) = some t → t.air = s.air ∨
      ∃ j p localPeer request answer, p ∈ s.published j ∧ s.air[k]? = some request ∧
        encodePacket (s.settings j) (requestPayload p.peer) = .ok request ∧
        (s.services i).discovery.localPeer = some localPeer ∧ p.peer.id ≠ localPeer.id ∧
        encodePacket (s.settings i) (announcement (s.settings i).metadata
          ⟨localPeer, (s.services i).discovery.endpoints⟩) = .ok answer ∧
        t.air = s.air ++ [answer] := by
  have hinv := inv_of_reachable h
  refine ⟨fun id entry hget => ?_, ?_, fun k addr sendto t hstep => hinv.deliver_air hstep⟩
  · have hadmissible := (hinv.cache i).admissible id entry hget
    exact ⟨hadmissible.key, hinv.heard i id entry hget, hadmissible.remote⟩
  · obtain ⟨-, -, hiff⟩ := pruneExpired_spec (hinv.cache i).allAnchored
    rw [endDiscover_spec (hinv.cache i).allAnchored]
    refine ⟨_, rfl, fun entry hmem => ?_⟩
    obtain ⟨id, hget⟩ := (Dict.mem_values _).1 hmem
    obtain ⟨hknown, hfresh⟩ := (hiff id entry).1 hget
    exact ⟨hinv.heard i id entry hknown, hfresh⟩

/-! ## Two services -/

/-- A start that finds its socket. -/
theorem start_opened {settings : Settings F} {peer : Peer F} {endpoints copied : List (Endpoint F)}
    {data : Bytes} (hid : peer.id ≠ []) (hcopied : copyValidEndpoints endpoints = .ok copied)
    (hdata : encodePacket settings (announcement settings.metadata ⟨peer, copied⟩) = .ok data) :
    (LanDiscovery.new settings).start peer endpoints .opened =
      (none, ⟨settings, some peer, copied, Dict.empty, true⟩) := by
  have hencodes : LanDiscovery.ensureAnnounceIsSerializable
      ⟨settings, some peer, copied, Dict.empty, false⟩ = .ok () := by
    unfold LanDiscovery.ensureAnnounceIsSerializable
    rw [announcePayload_eq rfl]
    simp only [bind, Except.bind, hdata]
    rfl
  simp only [LanDiscovery.start, LanDiscovery.new, Bool.false_eq_true, if_false, if_neg hid, hcopied]
  rw [hencodes]

/-- A service that has just been made is started, and published. -/
theorem start_step {settings : Settings F} {now : Now} {timeout : ℚ} {peer : Peer F}
    {endpoints copied : List (Endpoint F)} {data : Bytes}
    (hservice : s.services i = ⟨.new settings, now, timeout, []⟩) (hid : peer.id ≠ [])
    (hcopied : copyValidEndpoints endpoints = .ok copied)
    (hdata : encodePacket settings (announcement settings.metadata ⟨peer, copied⟩) = .ok data) :
    s.step (.own i (.start peer endpoints .opened)) =
      some ((s.setService i ⟨⟨settings, some peer, copied, Dict.empty, true⟩, now, timeout, []⟩).publish
        i [⟨peer, copied⟩]) := by
  simp only [step, ServiceState.step, hservice, start_opened hid hcopied hdata, Option.map_some]
  rfl

end Network

section sample

open Network

/-- The peer `a` or `b`. -/
def samplePeer (b : Bool) : Peer SampleFloat := ⟨ofChars [if b then 'b' else 'a'], none, []⟩

/-- `b` has an endpoint. -/
def sampleEndpoints (b : Bool) : List (Endpoint SampleFloat) :=
  if b then [⟨transportName, balancedAddress, []⟩] else []

/-- Services that have just been made. -/
def sampleNetwork : Network SampleFloat :=
  ⟨fun _ => ⟨.new sampleSettings, ⟨0, 0⟩, 1, []⟩, [], fun _ => []⟩

/-- A service that is started as the peer. -/
def sampleStarted (b : Bool) : ServiceState SampleFloat :=
  ⟨⟨sampleSettings, some (samplePeer b), sampleEndpoints b, Dict.empty, true⟩, ⟨0, 0⟩, 1, []⟩

/-- The services `0` and `1` are started as `a` and as `b`. -/
def samplePair : Network SampleFloat :=
  ((((sampleNetwork.setService 0 (sampleStarted false)).publish 0 [⟨samplePeer false, sampleEndpoints false⟩]).setService
    1 (sampleStarted true)).publish 1 [⟨samplePeer true, sampleEndpoints true⟩])

set_option maxRecDepth 8000 in
/-- The announcement of a sample can be written. -/
theorem samplePeer_announces (b : Bool) : ∃ data,
    encodePacket sampleSettings (announcement [] ⟨samplePeer b, sampleEndpoints b⟩) = .ok data := by
  have hbits : ¬ (Nat.log2 1 + 1 > 4096) := by decide
  have hsafe : ∀ b, isSafeJsonValue (.dict (announcement [] ⟨samplePeer b, sampleEndpoints b⟩) :
      Value SampleFloat) = true := by
    intro b
    cases b
    all_goals
      simp [isSafeJsonValue, Core.isSafeJsonValue, isSafeLoop, safeNested, announcement, samplePeer,
        sampleEndpoints, endpointPayload, maxJsonNesting, bitLength, maxJsonIntegerBits,
        discoveryVersion, hbits]
  rw [encodePacket, if_pos (hsafe b)]
  cases b with
  | false => exact ⟨_, rfl⟩
  | true => exact ⟨_, rfl⟩

set_option maxRecDepth 8000 in
/-- So can its request. -/
theorem samplePeer_requests : ∃ data,
    encodePacket sampleSettings (requestPayload (samplePeer false)) = .ok data := by
  have hbits : ¬ (Nat.log2 1 + 1 > 4096) := by decide
  have hsafe : isSafeJsonValue (.dict (requestPayload (samplePeer false)) : Value SampleFloat) =
      true := by
    simp [isSafeJsonValue, Core.isSafeJsonValue, isSafeLoop, safeNested, requestPayload, samplePeer,
      maxJsonNesting, bitLength, maxJsonIntegerBits, discoveryVersion, hbits]
  rw [encodePacket, if_pos hsafe]
  exact ⟨_, rfl⟩

/-- The samples are textual. -/
theorem samplePeer_textual (b : Bool) : Textual (samplePeer b) (sampleEndpoints b) := by
  have hid : Encodable (samplePeer b).id := by cases b <;> decide
  refine ⟨hid, by simp [samplePeer], ⟨⟨trivial, List.nodup_nil⟩, trivial⟩, fun endpoint hmem => ?_⟩
  cases b with
  | false => cases hmem
  | true =>
      rw [List.mem_singleton.1 hmem]
      exact ⟨by decide, ⟨trivial, List.nodup_nil⟩, trivial⟩

/-- Both have started. -/
theorem samplePair_reachable : ReachableWhen (system SampleFloat) StartsTextual samplePair := by
  obtain ⟨first, hfirst⟩ := samplePeer_announces false
  obtain ⟨second, hsecond⟩ := samplePeer_announces true
  have hinit : ReachableWhen (system SampleFloat) StartsTextual sampleNetwork :=
    .init ⟨fun _ => ⟨⟨sampleSettings, ⟨0, 0⟩, 1, rfl⟩, ⟨⟨trivial, List.nodup_nil⟩, trivial⟩⟩, rfl,
      fun _ => rfl⟩
  have hstart := hinit.step (NetworkLabel.own 0 (.start (samplePeer false) (sampleEndpoints false) .opened))
    (samplePeer_textual false) (start_step rfl (by decide) rfl hfirst)
  exact hstart.step (NetworkLabel.own 1 (.start (samplePeer true) (sampleEndpoints true) .opened))
    (samplePeer_textual true) (start_step rfl (by decide) rfl hsecond)

/-- One of them announces itself. -/
theorem samplePair_announces {data : Bytes}
    (hdata : encodePacket sampleSettings (announcement [] ⟨samplePeer true, sampleEndpoints true⟩) =
      .ok data) :
    samplePair.step (.announce 1 fun _ _ => none) = some (samplePair.send [data]) := by
  have hsends : sendAnnounce ⟨(samplePair.services 1).now, fun _ _ => none⟩
      (samplePair.services 1).discovery none = .ok data := by
    unfold sendAnnounce
    rw [announcePayload_eq (show (samplePair.services 1).discovery.localPeer = some (samplePeer true)
      from rfl)]
    change (encodePacket sampleSettings (announcement [] ⟨samplePeer true, sampleEndpoints true⟩)).bind _ = _
    rw [hdata]
    rfl
  change some (samplePair.send (sendAnnounce _ _ none).toOption.toList) = _
  rw [hsends]
  rfl

/-- The service of `a` hears `b`. -/
theorem samplePair_hears {data : Bytes}
    (hdata : encodePacket sampleSettings (announcement [] ⟨samplePeer true, sampleEndpoints true⟩) =
      .ok data) : ∃ s d entry, (samplePair.send [data]).step (.deliver 0 0 none fun _ _ => none) = some s ∧
    s.services 0 = ⟨d, ⟨0, 0⟩, 1, []⟩ ∧ d.started = true ∧ d.localPeer = some (samplePeer false) ∧
    d.settings = sampleSettings ∧ d.discovered.get? (samplePeer true).id = some entry ∧
    entry.endpoints = sampleEndpoints true ∧ entry.observedAtMonotonic = 0 := by
  have hreached := samplePair_reachable.step (NetworkLabel.announce 1 fun _ _ => none) trivial
    (samplePair_announces hdata)
  have hinv := inv_of_reachable hreached
  have hvalid := hinv.published 1 ⟨samplePeer true, sampleEndpoints true⟩ (List.mem_singleton_self _)
  have hrenews := renews_announcement (d := (sampleStarted false).discovery) (hinv.settings 1) hvalid
    hdata rfl (by decide) (encodePacket_ok hdata).choose_spec.2.2
  have hroom : Admitted (sampleStarted false).discovery ⟨0, 0⟩ (samplePeer true).id :=
    .inr (by decide)
  obtain ⟨s, hstep, hservice, -⟩ := deliver_steps (s := samplePair.send [data]) (i := 0) (k := 0)
    rfl rfl none fun _ _ => none
  obtain ⟨entry, hget, -, hendpoints, -, hobserved⟩ :=
    datagramReceived_admitted ⟨⟨0, 0⟩, fun _ _ => none⟩ none (hinv.cache 0).allAnchored hrenews hroom
  rw [filterMap_endpointOf hvalid.lan] at hendpoints
  have hleaves := datagramReceived_leaves ⟨⟨0, 0⟩, fun _ _ => none⟩ (sampleStarted false).discovery
    data none
  obtain ⟨hlocal, -, hstarted⟩ := leaves_local hleaves
  exact ⟨s, _, entry, hstep, hservice, hstarted, hlocal, leaves_settings hleaves, hget, hendpoints,
    hobserved⟩

/-- **A run.**  Both peers start, `b` announces itself, and `a` knows it, as it was published. -/
theorem discovered_was_published_sample : ∃ s entry,
    ReachableWhen (system SampleFloat) StartsTextual s ∧
      (s.services 0).discovery.discovered.get? (samplePeer true).id = some entry ∧ s.Heard entry := by
  obtain ⟨data, hdata⟩ := samplePeer_announces true
  obtain ⟨s, d, entry, hstep, hservice, -, -, -, hget, -⟩ := samplePair_hears hdata
  have hreached := samplePair_reachable.step (NetworkLabel.announce 1 fun _ _ => none) trivial
    (samplePair_announces hdata)
  have hs := hreached.step (NetworkLabel.deliver 0 0 none fun _ _ => none) trivial hstep
  have hknown : (s.services 0).discovery.discovered.get? (samplePeer true).id = some entry := by
    rw [hservice]
    exact hget
  exact ⟨s, entry, hs, hknown, ((discovered_was_published hs 0).1 _ entry hknown).2.1⟩

end sample

end Lan
end Paqto
