/-
# A node dials what was published

In every run of any number of nodes, over a network that loses, repeats, reorders and
delays their datagrams, a node dials an endpoint of a peer only if some service has
published it for that peer, and the node has heard of it within `peer_ttl`, or if the
application itself made the `DiscoveredPeer` with it, within `peer_ttl` as well
(`dialed_was_published`): whatever `discover()` returned, went stale, was refreshed by the
service, was dropped by it, or was found in `_known_peers` again after a restart.

Between two `PEER_DISCOVERED` of a peer it has expired, or the node has stopped.
-/

import Paqto.Core.NodeDiscovery

namespace Paqto
namespace Core

open Python Transition Paqto.Lan

variable {F : Type} [PyFloat F]

namespace NodeDiscovery

/-! ## Reports -/

/-- Between two reports that a peer was discovered it has expired, or the node has stopped. -/
def Separated (reports : List Report) : Prop :=
  ∀ id a b c, reports = a ++ .discovered id :: (b ++ .discovered id :: c) →
    .expired id ∈ b ∨ .stopped ∈ b

/-- The last that was reported of the peer is that it was discovered. -/
def Standing (reports : List Report) (id : Str) : Prop :=
  ∃ a b, reports = a ++ .discovered id :: b ∧ .expired id ∉ b ∧ .stopped ∉ b

/-- The last element is the marked one, or comes after it. -/
theorem append_cons_eq_concat {α : Type} {a b l : List α} {x y : α} :
    a ++ x :: b = l ++ [y] ↔
      (a = l ∧ x = y ∧ b = []) ∨ ∃ c, b = c ++ [y] ∧ a ++ x :: c = l := by
  constructor
  · intro h
    obtain rfl | ⟨c, z, rfl⟩ := List.eq_nil_or_concat b
    · obtain ⟨ha, hx⟩ := List.append_inj' h rfl
      exact .inl ⟨ha, List.singleton_injective hx, rfl⟩
    · rw [List.concat_eq_append, ← List.cons_append, ← List.append_assoc] at h
      obtain ⟨ha, hz⟩ := List.append_inj' h rfl
      obtain rfl := List.singleton_injective hz
      exact .inr ⟨c, List.concat_eq_append .., ha⟩
  · rintro (⟨rfl, rfl, rfl⟩ | ⟨c, rfl, rfl⟩)
    · rfl
    · simp

/-- One more report. -/
theorem Separated.concat {reports : List Report} (h : Separated reports) {r : Report}
    (hr : ∀ id, r = .discovered id → ¬ Standing reports id) : Separated (reports ++ [r]) := by
  intro id a b c heq
  rw [← List.cons_append, ← List.append_assoc] at heq
  obtain ⟨hinit, rfl, -⟩ | ⟨c', -, hinit⟩ := append_cons_eq_concat.1 heq.symm
  · by_contra hnone
    rw [not_or] at hnone
    exact hr id rfl ⟨a, b, hinit.symm, hnone.1, hnone.2⟩
  · refine h id a b c' ?_
    rw [← hinit]
    simp

/-- What one more report leaves standing. -/
theorem standing_concat {reports : List Report} {r : Report} {id : Str} :
    Standing (reports ++ [r]) id ↔
      r = .discovered id ∨ Standing reports id ∧ r ≠ .expired id ∧ r ≠ .stopped := by
  constructor
  · rintro ⟨a, b, heq, hexpired, hstopped⟩
    obtain ⟨rfl, hr, rfl⟩ | ⟨c, rfl, rfl⟩ := append_cons_eq_concat.1 heq.symm
    · exact .inl hr.symm
    · rw [List.mem_append, not_or, List.mem_singleton] at hexpired hstopped
      exact .inr ⟨⟨a, c, rfl, hexpired.1, hstopped.1⟩, fun h => hexpired.2 h.symm,
        fun h => hstopped.2 h.symm⟩
  · rintro (rfl | ⟨⟨a, b, rfl, hexpired, hstopped⟩, hne, hne'⟩)
    · exact ⟨reports, [], rfl, List.not_mem_nil, List.not_mem_nil⟩
    · refine ⟨a, b ++ [r], by simp, ?_, ?_⟩
      · rw [List.mem_append, List.mem_singleton]
        exact fun h => h.elim hexpired fun h => hne h.symm
      · rw [List.mem_append, List.mem_singleton]
        exact fun h => h.elim hstopped fun h => hne' h.symm

/-! ## The invariant -/

/-- What is known of a peer was announced to the node, which has heard `log`. -/
def Learned (net : Network F) (log : List (ℚ × Bytes)) (entry : DiscoveredPeer F) : Prop :=
  ∃ data, (entry.observedAtMonotonic, data) ∈ log ∧ net.Announced data entry

/-- An object that a node has got hold of. -/
structure Sound (config : Config) (net : Network F) (log : List (ℚ × Bytes)) (i : ℕ) (ref : Ref F) :
    Prop where
  remote : ref.id ≠ config.localId
  object : ∃ d, ref.read (cache net i) = some d ∧ d.peer.id = ref.id ∧ Learned net log d ∧
    d.Anchored (now net i)

/-- **A dial that was right**: the endpoint was published for the peer, and the node had
heard so within the TTL. -/
structure Justified (config : Config) (net : Network F) (log : List (ℚ × Bytes)) (dial : Dial F) :
    Prop where
  remote : dial.id ≠ config.localId
  transport : dial.endpoint.transport = config.transport
  published : ∃ j p data time, p ∈ net.published j ∧ p.peer.id = dial.id ∧
    dial.endpoint ∈ p.endpoints ∧
    encodePacket (net.settings j) (announcement (net.settings j).metadata p) = .ok data ∧
    (time, data) ∈ log ∧ time ≤ dial.time ∧
    ∀ ttl, config.peerTtl = some ttl → dial.time - time ≤ ttl

/-- **A dial that the application asked for**: of the first endpoint of a `DiscoveredPeer` that
it made, from an observation within the TTL. -/
def Given (config : Config) (made : List (DiscoveredPeer F)) (dial : Dial F) : Prop :=
  ∃ d ∈ made, d.peer.id = dial.id ∧
    KnownPeers.endpointFor d config.transport = some dial.endpoint ∧
    d.observedAtMonotonic ≤ dial.time ∧
    ∀ ttl, config.peerTtl = some ttl → dial.time - d.observedAtMonotonic ≤ ttl

/-- The object was made by the application. -/
def View.Made (now : Now) (v : View F) (ref : Ref F) : Prop :=
  ∃ d ∈ v.made, ref = .made d ∧ d.Anchored now

/-- The node may dial the object. -/
def View.Holds (v : View F) (ref : Ref F) : Prop :=
  (∃ id, v.known.get? id = some ref) ∨ ref ∈ v.held

/-- What a node keeps is right: what its service returned to it was published, and what it may
dial was, or the application has made it. -/
structure ViewInv (config : Config) (net : Network F) (log : List (ℚ × Bytes)) (i : ℕ) (v : View F) :
    Prop where
  holds : ∀ ref, v.Holds ref → Sound config net log i ref ∨ v.Made (now net i) ref
  found : ∀ call ∈ v.returned, ∀ ref ∈ call.2, Sound config net log i ref
  keyed : ∀ id ref, v.known.get? id = some ref → ref.id = id
  remote : ∀ ref, v.known.get? config.localId ≠ some ref
  dials : ∀ dial ∈ v.dials, Justified config net log dial ∨ Given config v.made dial
  reports : Separated v.reports
  standing : ∀ id, Standing v.reports id → v.known.get? id ≠ none

/-- What holds in every run of the nodes. -/
structure Inv [UrlLib] (config : ℕ → Config) (s : Nodes F) : Prop where
  net : s.net.Inv
  own : ∀ i, ∀ p ∈ s.net.published i, p.peer.id = (config i).localId
  cached : ∀ i id entry, (cache s.net i).get? id = some entry → Learned s.net (s.heard i) entry
  views : ∀ i, ViewInv (config i) s.net (s.heard i) i (s.view i)

section view

variable {config : Config} {net : Network F} {log : List (ℚ × Bytes)} {i : ℕ} {v : View F}

/-! ## What a node does with its view -/

/-- Something else is reported. -/
theorem ViewInv.report_other (h : ViewInv config net log i v) {r : Report}
    (hr : ∀ id, r ≠ .discovered id) : ViewInv config net log i (v.report r) := by
  refine ⟨h.holds, h.found, h.keyed, h.remote, h.dials,
    h.reports.concat fun id heq => absurd heq (hr id), fun id hid => h.standing id ?_⟩
  obtain heq | ⟨hstanding, -⟩ := standing_concat.1 hid
  · exact absurd heq (hr id)
  · exact hstanding

/-- A peer is popped. -/
theorem ViewInv.expire (h : ViewInv config net log i v) (isFresh : Ref F → Bool)
    (item : Str × Ref F) : ViewInv config net log i (v.expire isFresh item) := by
  unfold View.expire
  split
  · exact h
  · have herase : ∀ {id ref}, (v.known.erase item.1).get? id = some ref →
        v.known.get? id = some ref := by
      intro id ref hget
      rw [Dict.get?_erase] at hget
      split at hget
      · cases hget
      · exact hget
    refine ⟨fun ref href => h.holds ref ?_, h.found, fun id ref hget => h.keyed id ref (herase hget),
      fun ref hget => h.remote ref (herase hget), h.dials, h.reports.concat (by simp),
      fun id hid => ?_⟩
    · obtain ⟨id, hget⟩ | href := href
      · exact .inl ⟨id, herase hget⟩
      · exact .inr href
    · obtain heq | ⟨hstanding, hne, -⟩ := standing_concat.1 hid
      · cases heq
      · have hid : id ≠ item.1 := fun heq => hne (heq ▸ rfl)
        change (v.known.erase item.1).get? id ≠ none
        rw [Dict.get?_erase, if_neg hid]
        exact h.standing id hstanding

/-- Expired peers are dropped. -/
theorem ViewInv.dropExpired (h : ViewInv config net log i v) (isFresh : Ref F → Bool) :
    ViewInv config net log i (v.dropExpired isFresh) := by
  unfold View.dropExpired
  exact List.foldlRecOn v.known.items _ h fun v hv item _ => hv.expire isFresh item

omit [PyFloat F] in
/-- What `_remember` leaves. -/
theorem remember_cases (config : Config) (cache : Dict Str (DiscoveredPeer F)) (v : View F)
    (ref : Ref F) :
    v.remember config cache ref = v ∧ (ref.id = config.localId ∨ v.known.get? ref.id ≠ none) ∨
      v.remember config cache ref = { v with known := v.known.set ref.id ref } ∧
        ref.id ≠ config.localId := by
  unfold View.remember
  split
  · next hlocal => exact .inl ⟨rfl, .inl hlocal⟩
  · next hremote =>
      split
      · next hknown _ =>
          split
          · refine .inl ⟨rfl, .inr fun hnone => ?_⟩
            rw [hnone] at hknown
            cases hknown
          · exact .inr ⟨rfl, hremote⟩
      · exact .inr ⟨rfl, hremote⟩

/-- An object is put into `_known_peers`. -/
theorem ViewInv.set (h : ViewInv config net log i v) {ref : Ref F}
    (href : Sound config net log i ref ∨ v.Made (now net i) ref) (hremote : ref.id ≠ config.localId) :
    ViewInv config net log i { v with known := v.known.set ref.id ref } := by
  refine ⟨fun other hother => ?_, h.found, fun id other hget => ?_, fun other hget => ?_, h.dials,
    h.reports, fun id hid => ?_⟩
  · obtain ⟨id, hget⟩ | hother := hother
    · change (v.known.set ref.id ref).get? id = some other at hget
      rw [Dict.get?_set] at hget
      split at hget
      · cases hget
        exact href
      · exact h.holds other (.inl ⟨id, hget⟩)
    · exact h.holds other (.inr hother)
  · change (v.known.set ref.id ref).get? id = some other at hget
    rw [Dict.get?_set] at hget
    split at hget
    · next heq =>
        cases hget
        exact heq.symm
    · exact h.keyed id other hget
  · change (v.known.set ref.id ref).get? config.localId = some other at hget
    rw [Dict.get?_set, if_neg hremote.symm] at hget
    exact h.remote other hget
  · change (v.known.set ref.id ref).get? id ≠ none
    rw [Dict.get?_set]
    split
    · simp
    · exact h.standing id hid

/-- `_remember` of what was published, or of what the application has made. -/
theorem ViewInv.remember (h : ViewInv config net log i v) {ref : Ref F}
    (href : Sound config net log i ref ∨ v.Made (now net i) ref)
    (cache : Dict Str (DiscoveredPeer F)) :
    ViewInv config net log i (v.remember config cache ref) := by
  obtain ⟨heq, -⟩ | ⟨heq, hremote⟩ := remember_cases config cache v ref
  · rw [heq]
    exact h
  · rw [heq]
    exact h.set href hremote

/-- **A peer is reported when it is new.** -/
theorem ViewInv.observe (h : ViewInv config net log i v) {ref : Ref F}
    (href : Sound config net log i ref) (cache : Dict Str (DiscoveredPeer F)) :
    ViewInv config net log i (v.observe config cache ref) := by
  unfold View.observe
  split
  · next hnew =>
      obtain ⟨-, hlocal | hknown⟩ | ⟨heq, hremote⟩ := remember_cases config cache v ref
      · exact absurd hlocal href.remote
      · exact absurd hnew hknown
      · rw [heq]
        have hset := h.set (.inl href) hremote
        refine ⟨hset.holds, hset.found, hset.keyed, hset.remote, hset.dials, h.reports.concat fun id heq hstanding => ?_,
          fun id hid => ?_⟩
        · cases heq
          exact h.standing _ hstanding hnew
        · obtain heq | ⟨hstanding, -⟩ := standing_concat.1 hid
          · cases heq
            change (v.known.set ref.id ref).get? ref.id ≠ none
            rw [Dict.get?_set, if_pos rfl]
            simp
          · exact hset.standing id hstanding
  · exact h.remember (.inl href) cache

/-- The application makes a `DiscoveredPeer`. -/
theorem ViewInv.make (h : ViewInv config net log i v) {d : DiscoveredPeer F}
    (hd : d.Anchored (now net i)) :
    ViewInv config net log i { v with held := v.held ++ [.made d], made := v.made ++ [d] } := by
  have hmade : v.made ⊆ v.made ++ [d] := List.subset_append_left _ _
  have hold : ∀ ref, v.Holds ref → Sound config net log i ref ∨
      View.Made (now net i) { v with held := v.held ++ [.made d], made := v.made ++ [d] } ref :=
    fun ref href => (h.holds ref href).imp_right fun ⟨d', hd', hmem⟩ => ⟨d', hmade hd', hmem⟩
  refine ⟨fun ref href => ?_, h.found, h.keyed, h.remote, fun dial hdial => ?_, h.reports, h.standing⟩
  · obtain hknown | hheld := href
    · exact hold ref (.inl hknown)
    · obtain hheld | hheld := List.mem_append.1 hheld
      · exact hold ref (.inr hheld)
      · exact .inr ⟨d, List.mem_append_right _ (List.mem_singleton_self d), List.mem_singleton.1 hheld,
          hd⟩
  · exact (h.dials dial hdial).imp_right fun ⟨d', hd', hgiven⟩ => ⟨d', hmade hd', hgiven⟩

omit [PyFloat F] in
/-- A peer that the application makes is anchored. -/
theorem anchored_construct (now : Now) (peer : Peer F) (endpoints : List (Endpoint F))
    {lastSeen : Datetime} (haware : lastSeen.aware = true) (metadata : List (Key F × Value F)) :
    (construct now peer endpoints lastSeen metadata).Anchored now := by
  rw [construct, DiscoveredPeer.anchorMonotonicAge, if_pos haware]
  exact ⟨haware, rfl, sub_le_self _ (le_max_left _ _)⟩

end view

/-! ## What the network does to the views -/

section net

variable [UrlLib] {configs : ℕ → Config} {s t : Nodes F} {label : NetworkLabel F} {i : ℕ}

omit [PyFloat F] [UrlLib] in
/-- The nodes start with textual peers. -/
theorem startsTextual (h : Nodes.StartsOwn configs s (.net label)) :
    Network.StartsTextual s.net label := by
  cases label with
  | own i own =>
      cases own with
      | start localPeer endpoints socket => exact h.2
      | _ => trivial
  | _ => trivial

/-- The network goes on, and what it hands to the services is heard. -/
structure Goes (s : Nodes F) (label : NetworkLabel F) (t : Nodes F) : Prop where
  step : s.net.step label = some t.net
  view : ∀ i, t.view i = (s.view i).settle (cache s.net i) (cache t.net i)
  grows : ∀ i, s.heard i ⊆ t.heard i
  hears : ∀ i k addr sendto data, label = .deliver i k addr sendto → s.net.air[k]? = some data →
    ((now s.net i).monotonic, data) ∈ t.heard i

omit [UrlLib] in
/-- What was announced stays so. -/
theorem announced_later {s t : Network F} (h : Network.Later s t) {data : Bytes}
    {entry : DiscoveredPeer F} (hannounced : s.Announced data entry) : t.Announced data entry := by
  obtain ⟨j, p, hp, hpeer, hendpoints, hmetadata, hdata⟩ := hannounced
  refine ⟨j, p, h.published j hp, hpeer, hendpoints, ?_, ?_⟩
  · rw [hmetadata, h.settings]
  · rwa [h.settings]

/-- What was learned stays learned. -/
theorem Goes.learned (hgoes : Goes s label t) (hlater : Network.Later s.net t.net)
    {entry : DiscoveredPeer F} (h : Learned s.net (s.heard i) entry) :
    Learned t.net (t.heard i) entry := by
  obtain ⟨data, hheard, hannounced⟩ := h
  exact ⟨data, hgoes.grows i hheard, announced_later hlater hannounced⟩

/-- What a service caches, its node has heard. -/
theorem Goes.cached (hgoes : Goes s label t) (h : Inv configs s)
    (hlabel : Nodes.StartsOwn configs s (.net label)) (hlater : Network.Later s.net t.net)
    {id : Str} {entry : DiscoveredPeer F} (hget : (cache t.net i).get? id = some entry) :
    Learned t.net (t.heard i) entry := by
  obtain hold | ⟨k, addr, sendto, data, hdeliver, hair, hannounced, hnow⟩ :=
    h.net.cache_step (startsTextual hlabel) hgoes.step hget
  · exact hgoes.learned hlater (h.cached i id entry hold)
  · refine ⟨data, ?_, announced_later hlater hannounced⟩
    rw [hnow]
    exact hgoes.hears i k addr sendto data hdeliver hair

/-- Time does not go back. -/
theorem Goes.time (hgoes : Goes s label t) (h : s.net.Inv) :
    (now s.net i).monotonic ≤ (now t.net i).monotonic := by
  cases (Network.step_moves hgoes.step i).1 with
  | stays heq => rw [now, now, heq]
  | asks timeout sendto _ hservice => exact step_now (h.cache i) hservice
  | hears k data addr sendto _ _ hservice => exact step_now (h.cache i) hservice
  | own own _ _ hservice => exact step_now (h.cache i) hservice

variable {config : Config}

/-- **An object stays what it was**, whatever the service does. -/
theorem Goes.sound (hgoes : Goes s label t) (h : Inv configs s)
    (hlabel : Nodes.StartsOwn configs s (.net label)) (hnet : t.net.Inv)
    (hlater : Network.Later s.net t.net) {ref : Ref F}
    (href : Sound config s.net (s.heard i) i ref) :
    (ref.settle (cache s.net i) (cache t.net i)).id = ref.id ∧
      Sound config t.net (t.heard i) i (ref.settle (cache s.net i) (cache t.net i)) := by
  obtain ⟨hremote, d, hread, hid, hlearned, hanchored⟩ := href
  have hkept : d.Anchored (now t.net i) := hanchored.later (hgoes.time h.net)
  cases ref with
  | dropped discovered | made discovered =>
      obtain rfl : discovered = d := Option.some.inj hread
      exact ⟨rfl, hremote, discovered, rfl, rfl, hgoes.learned hlater hlearned, hkept⟩
  | cached id =>
      have hget : (cache s.net i).get? id = some d := hread
      cases hget' : (cache t.net i).get? id with
      | none =>
          have hsettle : (Ref.cached id).settle (cache s.net i) (cache t.net i) = .dropped d := by
            simp only [Ref.settle, hget, hget']
          have hremote' : d.peer.id ≠ config.localId := hid ▸ hremote
          rw [hsettle]
          exact ⟨hid, hremote', d, rfl, rfl, hgoes.learned hlater hlearned, hkept⟩
      | some d' =>
          have hsettle : (Ref.cached id).settle (cache s.net i) (cache t.net i) = .cached id := by
            simp only [Ref.settle, hget, hget']
          rw [hsettle]
          have hadmissible := (hnet.cache i).admissible id d' hget'
          exact ⟨rfl, hremote, d', hget', hadmissible.key, hgoes.cached h hlabel hlater hget',
            hadmissible.anchored⟩

/-- Nobody writes to what the application has made. -/
theorem Goes.made (hgoes : Goes s label t) (h : s.net.Inv) {v : View F} {ref : Ref F}
    (href : v.Made (now s.net i) ref) :
    ref.settle (cache s.net i) (cache t.net i) = ref ∧ v.Made (now t.net i) ref := by
  obtain ⟨d, hmem, rfl, hanchored⟩ := href
  exact ⟨rfl, d, hmem, rfl, hanchored.later (hgoes.time h)⟩

/-- What was dialed for a reason was. -/
theorem Goes.justified (hgoes : Goes s label t) (hlater : Network.Later s.net t.net)
    {dial : Dial F} (h : Justified config s.net (s.heard i) dial) :
    Justified config t.net (t.heard i) dial := by
  obtain ⟨j, p, data, time, hp, hid, hmem, hdata, hheard, hle, hfresh⟩ := h.published
  refine ⟨h.remote, h.transport, j, p, data, time, hlater.published j hp, hid, hmem, ?_,
    hgoes.grows i hheard, hle, hfresh⟩
  rwa [hlater.settings]

/-- The view of a node after a step of the network. -/
theorem Goes.view_inv (hgoes : Goes s label t) (h : Inv configs s)
    (hlabel : Nodes.StartsOwn configs s (.net label)) (hnet : t.net.Inv)
    (hlater : Network.Later s.net t.net) {v : View F}
    (hv : ViewInv config s.net (s.heard i) i v) :
    ViewInv config t.net (t.heard i) i (v.settle (cache s.net i) (cache t.net i)) := by
  have hsettled : ∀ {ref}, v.Holds ref →
      (ref.settle (cache s.net i) (cache t.net i)).id = ref.id ∧
        (Sound config t.net (t.heard i) i (ref.settle (cache s.net i) (cache t.net i)) ∨
          v.Made (now t.net i) (ref.settle (cache s.net i) (cache t.net i))) := by
    intro ref href
    obtain hsound | hmade := hv.holds ref href
    · exact (hgoes.sound h hlabel hnet hlater hsound).imp_right .inl
    · obtain ⟨heq, hmade⟩ := hgoes.made h.net hmade
      rw [heq]
      exact ⟨rfl, .inr hmade⟩
  have hknown : ∀ id, (v.settle (cache s.net i) (cache t.net i)).known.get? id =
      (v.known.get? id).map (Ref.settle (cache s.net i) (cache t.net i)) := fun id => Dict.get?_map ..
  refine ⟨fun ref href => ?_, fun call hcall ref href => ?_, fun id ref hget => ?_,
    fun ref hget => ?_, fun dial hdial => (hv.dials dial hdial).imp_left (hgoes.justified hlater),
    hv.reports, fun id hid => ?_⟩
  · obtain ⟨id, hget⟩ | hmem := href
    · rw [hknown, Option.map_eq_some_iff] at hget
      obtain ⟨old, hold, rfl⟩ := hget
      exact (hsettled (.inl ⟨id, hold⟩)).2
    · obtain ⟨old, hold, rfl⟩ := List.mem_map.1 hmem
      exact (hsettled (.inr hold)).2
  · obtain ⟨old, hold, rfl⟩ := List.mem_map.1 hcall
    obtain ⟨ref', href', rfl⟩ := List.mem_map.1 href
    exact (hgoes.sound h hlabel hnet hlater (hv.found old hold ref' href')).2
  · rw [hknown, Option.map_eq_some_iff] at hget
    obtain ⟨old, hold, rfl⟩ := hget
    rw [(hsettled (.inl ⟨id, hold⟩)).1]
    exact hv.keyed id old hold
  · rw [hknown, Option.map_eq_some_iff] at hget
    obtain ⟨old, hold, -⟩ := hget
    exact hv.remote old hold
  · rw [hknown]
    exact fun hnone => hv.standing id hid (Option.map_eq_none_iff.1 hnone)

/-- **A step of the network keeps the invariant.** -/
theorem Inv.goes (h : Inv configs s) (hlabel : Nodes.StartsOwn configs s (.net label))
    (hgoes : Goes s label t) : Inv configs t := by
  obtain ⟨hnet, hlater⟩ := Network.inv_step h.net label (startsTextual hlabel) hgoes.step
  refine ⟨hnet, fun i p hp => ?_, fun i id entry hget => hgoes.cached h hlabel hlater hget,
    fun i => ?_⟩
  · obtain ⟨hmoves, heq | ⟨⟨own, rfl⟩, heq⟩⟩ := Network.step_moves hgoes.step i
    · rw [heq] at hp
      exact h.own i p hp
    · rw [heq, List.mem_append] at hp
      obtain hp | hp := hp
      · exact h.own i p hp
      · cases hmoves with
        | stays hstays =>
            rw [hstays] at hp
            obtain ⟨hbefore, hafter, -⟩ := mem_newPublication.1 hp
            cases hbefore.symm.trans hafter
        | own other hother hdatagram hservice =>
            cases hother
            obtain ⟨endpoints, socket, rfl⟩ :=
              newPublication_start (h.net.cache i) hservice hdatagram hp
            exact hlabel.1
        | asks _ _ hother => cases hother
        | hears _ _ _ _ hother => cases hother
  · rw [hgoes.view]
    exact hgoes.view_inv h hlabel hnet hlater (h.views i)

/-! ## Every step -/

/-- A node changes its view. -/
theorem Inv.setView (h : Inv configs s) {v : View F}
    (hv : ViewInv (configs i) s.net (s.heard i) i v) : Inv configs (s.setView i v) := by
  refine ⟨h.net, h.own, h.cached, fun j => ?_⟩
  change ViewInv (configs j) s.net (s.heard j) j (Function.update s.view i v j)
  by_cases hj : j = i
  · subst hj
    rwa [Function.update_self]
  · rw [Function.update_of_ne hj]
    exact h.views j

/-- What a service caches is sound for its node. -/
theorem Inv.sound_cached (h : Inv configs s) {id : Str} {entry : DiscoveredPeer F}
    (hget : (cache s.net i).get? id = some entry) :
    Sound (configs i) s.net (s.heard i) i (.cached id) := by
  have hadmissible := (h.net.cache i).admissible id entry hget
  obtain ⟨peer, hpeer, hmem⟩ := h.net.current i ((h.net.cache i).started hget)
  obtain ⟨found, hfound, hne⟩ := hadmissible.remote
  obtain rfl : peer = found := Option.some.inj (hpeer.symm.trans hfound)
  refine ⟨fun heq => hne ?_, entry, hget, hadmissible.key, h.cached i id entry hget,
    hadmissible.anchored⟩
  exact (h.own i _ hmem).trans heq.symm

omit [UrlLib] in
/-- **What is fresh is dialed for a reason.** -/
theorem Sound.justified {log : List (ℚ × Bytes)} {net : Network F} {ref : Ref F}
    (href : Sound config net log i ref) {d : DiscoveredPeer F}
    (hread : ref.read (cache net i) = some d)
    (hfresh : KnownPeers.isFresh config (now net i) d = true) {endpoint : Endpoint F}
    (hendpoint : KnownPeers.endpointFor d config.transport = some endpoint) :
    Justified config net log ⟨d.peer.id, endpoint, (now net i).monotonic⟩ := by
  obtain ⟨hremote, found, hfound, hid, ⟨data, hheard, j, p, hp, hpeer, hendpoints, -, hdata⟩,
    hanchored⟩ := href
  obtain rfl : d = found := Option.some.inj (hread.symm.trans hfound)
  have hseen := (KnownPeers.isFresh_iff (s := ⟨now net i, Dict.empty, [], []⟩)
    hanchored).1 hfresh
  refine ⟨?_, by simpa using List.find?_some hendpoint, j, p, data, _, hp, ?_, ?_, hdata, hheard,
    hanchored.past, hseen⟩
  · rw [hid]
    exact hremote
  · rw [hpeer]
  · rw [← hendpoints]
    exact List.mem_of_find?_eq_some hendpoint

omit [PyFloat F] [UrlLib] in
/-- What the application has made is dialed because it asks for it. -/
theorem View.Made.given {net : Network F} {v : View F} {ref : Ref F} (href : v.Made (now net i) ref)
    {d : DiscoveredPeer F} (hread : ref.read (cache net i) = some d)
    (hfresh : KnownPeers.isFresh config (now net i) d = true) {endpoint : Endpoint F}
    (hendpoint : KnownPeers.endpointFor d config.transport = some endpoint) :
    Given config v.made ⟨d.peer.id, endpoint, (now net i).monotonic⟩ := by
  obtain ⟨d', hmem, rfl, hanchored⟩ := href
  obtain rfl : d' = d := Option.some.inj hread
  exact ⟨d', hmem, rfl, hendpoint, hanchored.past,
    (KnownPeers.isFresh_iff (s := ⟨now net i, Dict.empty, [], []⟩) hanchored).1 hfresh⟩

/-- **One step keeps the invariant.** -/
theorem inv_step (h : Inv configs s) {l : Label F} (hl : Nodes.StartsOwn configs s l)
    (hstep : s.step configs l = some t) : Inv configs t := by
  cases l with
  | net label =>
      refine h.goes hl ?_
      simp only [Nodes.step] at hstep
      split at hstep
      · next j k addr sendto =>
          obtain ⟨net, hnet, rfl⟩ := Option.map_eq_some_iff.1 hstep
          refine ⟨hnet, fun i => rfl, fun i => ?_, fun i k addr sendto data heq hair => ?_⟩
          · change s.heard i ⊆ Function.update s.heard j _ i
            by_cases hij : i = j
            · subst hij
              rw [Function.update_self]
              exact List.subset_append_left _ _
            · rw [Function.update_of_ne hij]
              exact List.Subset.refl _
          · cases heq
            change _ ∈ Function.update s.heard j _ j
            rw [Function.update_self, hair]
            exact List.mem_append_right _ (List.mem_singleton_self _)
      · next hdeliver =>
          obtain ⟨net, hnet, rfl⟩ := Option.map_eq_some_iff.1 hstep
          exact ⟨hnet, fun i => rfl, fun i => List.Subset.refl _,
            fun i k addr sendto data heq => absurd heq (hdeliver i k addr sendto)⟩
  | start i =>
      simp only [Nodes.step] at hstep
      split at hstep
      · cases hstep
      · obtain rfl := Option.some.inj hstep
        have hv := h.views i
        exact h.setView ⟨hv.holds, hv.found, hv.keyed, hv.remote, hv.dials, hv.reports, hv.standing⟩
  | stop i =>
      obtain ⟨-, heq⟩ := Option.ite_none_right_eq_some.1 hstep
      obtain rfl := Option.some.inj heq
      have hv := h.views i
      exact h.setView ⟨hv.holds, hv.found, hv.keyed, hv.remote, hv.dials, hv.reports, hv.standing⟩
  | forget i =>
      simp only [Nodes.step] at hstep
      split at hstep
      · cases hstep
      · obtain rfl := Option.some.inj hstep
        have hv := h.views i
        refine h.setView ⟨fun ref href => hv.holds ref ?_, hv.found, fun id ref hget => (by cases hget),
          fun ref hget => (by cases hget), hv.dials, hv.reports.concat (by simp), fun id hid => ?_⟩
        · obtain ⟨id, hget⟩ | href := href
          · cases hget
          · exact .inr href
        · obtain heq | ⟨-, -, hne⟩ := standing_concat.1 hid
          · cases heq
          · exact absurd rfl hne
  | discover i =>
      obtain ⟨-, heq⟩ := Option.ite_none_right_eq_some.1 hstep
      obtain rfl := Option.some.inj heq
      have hv := (h.views i).dropExpired (s.isFresh (configs i) i)
      exact h.setView ⟨hv.holds, hv.found, hv.keyed, hv.remote, hv.dials, hv.reports, hv.standing⟩
  | collected i call waiting =>
      simp only [Nodes.step] at hstep
      split at hstep
      · next generation net _ hnet =>
          have hgoes : Goes s (.own i (.collected call)) (s.follow net) :=
            ⟨hnet, fun j => rfl, fun j => List.Subset.refl _, fun _ _ _ _ _ heq => by cases heq⟩
          have hown : Nodes.StartsOwn configs s (.net (.own i (.collected call))) := trivial
          have hinv := h.goes hown hgoes
          have hv := hinv.views i
          split at hstep
          · obtain rfl := Option.some.inj hstep
            exact hinv.setView ⟨hv.holds, hv.found, hv.keyed, hv.remote, hv.dials, hv.reports,
              hv.standing⟩
          · obtain rfl := Option.some.inj hstep
            refine hinv.setView ⟨hv.holds, fun found hmem ref href => ?_, hv.keyed, hv.remote, hv.dials,
              hv.reports, hv.standing⟩
            obtain hmem | hmem := List.mem_append.1 hmem
            · exact hv.found found hmem ref href
            · rw [List.mem_singleton.1 hmem] at href
              obtain ⟨item, hitem, rfl⟩ := List.mem_map.1 href
              exact hinv.sound_cached ((Dict.mem_items_iff _).1 hitem)
      · cases hstep
  | finish i call =>
      simp only [Nodes.step] at hstep
      split at hstep
      · cases hstep
      · next generation refs hcall =>
          have hv := h.views i
          have hmem : (generation, refs) ∈ (s.view i).returned := List.mem_of_getElem? hcall
          have herased : ∀ found ∈ (s.view i).returned.eraseIdx call, found ∈ (s.view i).returned :=
            fun found hfound => List.mem_of_mem_eraseIdx hfound
          split at hstep
          · obtain rfl := Option.some.inj hstep
            exact h.setView ⟨hv.holds, fun found hfound => hv.found found (herased found hfound), hv.keyed,
              hv.remote, hv.dials, hv.reports, hv.standing⟩
          · obtain rfl := Option.some.inj hstep
            have hsound : ∀ ref ∈ refs.filter (s.isFresh (configs i) i),
                Sound (configs i) s.net (s.heard i) i ref := fun ref href =>
              hv.found _ hmem ref (List.mem_of_mem_filter href)
            refine h.setView (List.foldlRecOn _ _ ⟨fun ref href => ?_,
              fun found hfound => hv.found found (herased found hfound), hv.keyed, hv.remote, hv.dials,
              hv.reports, hv.standing⟩ fun v hv ref href => hv.observe (hsound ref href) _)
            obtain hknown | hheld := href
            · exact hv.holds ref (.inl hknown)
            · obtain hheld | hheld := List.mem_append.1 hheld
              · exact hv.holds ref (.inr hheld)
              · exact .inl (hsound ref hheld)
  | resolve i id =>
      simp only [Nodes.step] at hstep
      split at hstep
      · cases hstep
      · next ref hknown =>
          obtain rfl := Option.some.inj hstep
          have hv := h.views i
          refine h.setView ⟨fun other hother => hv.holds other ?_, hv.found, hv.keyed, hv.remote, hv.dials,
            hv.reports, hv.standing⟩
          obtain hother | hheld := hother
          · exact .inl hother
          · obtain hheld | hheld := List.mem_append.1 hheld
            · exact .inr hheld
            · exact .inl ⟨id, List.mem_singleton.1 hheld ▸ hknown⟩
  | make i peer endpoints lastSeen metadata =>
      obtain ⟨haware, heq⟩ := Option.ite_none_right_eq_some.1 hstep
      obtain rfl := Option.some.inj heq
      exact h.setView ((h.views i).make (anchored_construct _ peer endpoints haware metadata))
  | connect i k =>
      simp only [Nodes.step] at hstep
      split at hstep
      · cases hstep
      · next discovered hheld =>
          obtain ⟨ref, href, hread⟩ := Option.bind_eq_some_iff.1 hheld
          have hv := h.views i
          have hheld := hv.holds ref (.inr (List.mem_of_getElem? href))
          split at hstep
          · next hfresh =>
              split at hstep
              · obtain rfl := Option.some.inj hstep
                exact h
              · next endpoint hendpoint =>
                  obtain rfl := Option.some.inj hstep
                  refine h.setView ⟨hv.holds, hv.found, hv.keyed, hv.remote, fun dial hdial => ?_,
                    hv.reports, hv.standing⟩
                  obtain hdial | hdial := List.mem_append.1 hdial
                  · exact hv.dials dial hdial
                  · rw [List.mem_singleton.1 hdial]
                    exact hheld.imp (fun hsound => hsound.justified hread hfresh hendpoint)
                      fun hmade => hmade.given hread hfresh hendpoint
          · obtain rfl := Option.some.inj hstep
            exact h.setView (hv.report_other (by simp))
  | connected i k =>
      simp only [Nodes.step] at hstep
      split at hstep
      · cases hstep
      · next ref href =>
          obtain rfl := Option.some.inj hstep
          have hheld := (h.views i).holds ref (.inr (List.mem_of_getElem? href))
          exact h.setView ((h.views i).remember hheld _)

/-- Nothing was dialed yet. -/
theorem inv_initial (h : s.Initial) : Inv configs s := by
  obtain ⟨hnet, hheard, hview⟩ := h
  have hinv := Network.inv_initial hnet
  refine ⟨hinv, fun i p hp => ?_, fun i id entry hget => ?_, fun i => ?_⟩
  · rw [hnet.2.2] at hp
    cases hp
  · obtain ⟨settings, now, defaultTimeout, hs⟩ := (hnet.1 i).1
    rw [cache, hs] at hget
    cases hget
  · rw [hview]
    refine ⟨fun ref href => ?_, fun call hcall => (by cases hcall), fun id ref hget => (by cases hget),
      fun ref hget => (by cases hget), fun dial hdial => (by cases hdial), fun id a b c heq => ?_,
      fun id hid => ?_⟩
    · obtain ⟨id, hget⟩ | hheld := href
      · cases hget
      · cases hheld
    · change [] = _ at heq
      simp at heq
    · obtain ⟨a, b, heq, -⟩ := hid
      change [] = _ at heq
      simp at heq

/-- **What holds in every run** of nodes with peers of their own. -/
theorem inv_of_reachable (h : ReachableWhen (Nodes.system F configs) (Nodes.StartsOwn configs) s) :
    Inv configs s :=
  h.invariant (fun _ hs => inv_initial hs) fun _ _ _ hI hl hs => inv_step hI hl hs

/-- **A node dials what was published**, in every run of any number of nodes that discover each
other over a network that loses, repeats, reorders and delays datagrams: every endpoint that
was dialed for a peer, some service had published for it, and the node had heard so within
`peer_ttl` before the dial, or it is that of a `DiscoveredPeer` of the peer that the application
made, as fresh; whoever is known is another peer, as it was announced under that id or as the
application made it; and between two `PEER_DISCOVERED` of a peer it has expired, or the node has
stopped. -/
theorem dialed_was_published (configs : ℕ → Config)
    (h : ReachableWhen (Nodes.system F configs) (Nodes.StartsOwn configs) s) (i : ℕ) :
    (∀ dial ∈ (s.view i).dials, Justified (configs i) s.net (s.heard i) dial ∨
      Given (configs i) (s.view i).made dial) ∧
      (∀ id ref, (s.view i).known.get? id = some ref → id ≠ (configs i).localId ∧
        ∃ d, ref.read (cache s.net i) = some d ∧ d.peer.id = id ∧
          (Learned s.net (s.heard i) d ∨ d ∈ (s.view i).made)) ∧
      Separated (s.view i).reports := by
  have hv := (inv_of_reachable h).views i
  refine ⟨hv.dials, fun id ref hget => ⟨fun heq => hv.remote ref (heq ▸ hget), ?_⟩, hv.reports⟩
  have hkey := hv.keyed id ref hget
  obtain ⟨-, d, hread, hid, hlearned, -⟩ | ⟨d, hmem, rfl, -⟩ := hv.holds ref (.inl ⟨id, hget⟩)
  · exact ⟨d, hread, hid.trans hkey, .inl hlearned⟩
  · exact ⟨d, rfl, hkey, .inr hmem⟩

end net

/-! ## A dial -/

section sample

/-- The configuration of the node of `a`, or of `b`. -/
def sampleNodeConfig (i : ℕ) : Config where
  localId := (samplePeer (i ≠ 0)).id
  peerTtl := some 60
  peerTtl_pos := KnownPeers.sampleTtl_pos
  transport := transportName

/-- The nodes that have just been made. -/
def sampleNodes : Nodes SampleFloat := ⟨sampleNetwork, fun _ => .initial, fun _ => []⟩

/-- A step of the network in the sample. -/
theorem sample_follows {s : Nodes SampleFloat} {label : NetworkLabel SampleFloat}
    {net : Network SampleFloat} (hlabel : ∀ i k addr sendto, label ≠ .deliver i k addr sendto)
    (hstep : s.net.step label = some net) :
    s.step sampleNodeConfig (.net label) = some (s.follow net) := by
  cases label with
  | deliver i k addr sendto => exact absurd rfl (hlabel i k addr sendto)
  | announce | discover | own =>
      simp only [Nodes.step, hstep]
      rfl

/-- Both services start, `b` announces itself, and the service of `a` hears it. -/
theorem sampleNodes_hear : ∃ net heard d entry,
    ReachableWhen (Nodes.system SampleFloat sampleNodeConfig) (Nodes.StartsOwn sampleNodeConfig)
      ⟨net, fun _ => .initial, heard⟩ ∧
    net.services 0 = ⟨d, ⟨0, 0⟩, 1, []⟩ ∧ d.started = true ∧
    d.localPeer = some (samplePeer false) ∧ d.settings = sampleSettings ∧
    d.discovered.get? (samplePeer true).id = some entry ∧
    entry.endpoints = sampleEndpoints true ∧ entry.observedAtMonotonic = 0 := by
  obtain ⟨first, hfirst⟩ := samplePeer_announces false
  obtain ⟨data, hdata⟩ := samplePeer_announces true
  have hinit : ReachableWhen (Nodes.system SampleFloat sampleNodeConfig)
      (Nodes.StartsOwn sampleNodeConfig) ⟨sampleNetwork, fun _ => .initial, fun _ => []⟩ :=
    .init ⟨⟨fun _ => ⟨⟨sampleSettings, ⟨0, 0⟩, 1, rfl⟩, ⟨⟨trivial, List.nodup_nil⟩, trivial⟩⟩, rfl,
      fun _ => rfl⟩, fun _ => rfl, fun _ => rfl⟩
  have hfirst := hinit.step
    (Label.net (.own 0 (.start (samplePeer false) (sampleEndpoints false) .opened)))
    ⟨rfl, samplePeer_textual false⟩
    (sample_follows (by simp) (Network.start_step rfl (by decide) rfl hfirst))
  have hboth : ReachableWhen (Nodes.system SampleFloat sampleNodeConfig)
      (Nodes.StartsOwn sampleNodeConfig) ⟨samplePair, fun _ => .initial, fun _ => []⟩ := hfirst.step
    (Label.net (.own 1 (.start (samplePeer true) (sampleEndpoints true) .opened)))
    ⟨rfl, samplePeer_textual true⟩
    (sample_follows (by simp) (Network.start_step rfl (by decide) rfl hdata))
  have hannounce : Nodes.step sampleNodeConfig ⟨samplePair, fun _ => .initial, fun _ => []⟩
      (.net (.announce 1 fun _ _ => none)) = some ⟨samplePair.send [data], fun _ => .initial,
        fun _ => []⟩ :=
    sample_follows (by simp) (samplePair_announces hdata)
  have hair := hboth.step (Label.net (.announce 1 fun _ _ => none)) trivial hannounce
  obtain ⟨net, d, entry, hstep, hservice⟩ := samplePair_hears hdata
  refine ⟨net, Function.update (fun _ => []) 0 [(0, data)], d, entry,
    hair.step (Label.net (.deliver 0 0 none fun _ _ => none)) trivial ?_, hservice⟩
  change (Network.step (samplePair.send [data]) (.deliver 0 0 none fun _ _ => none)).map _ = _
  rw [hstep]
  rfl

/-- The node of `a` starts and calls `discover()`, and its service sends a request. -/
theorem sampleNodes_ask : ∃ net view heard d entry,
    ReachableWhen (Nodes.system SampleFloat sampleNodeConfig) (Nodes.StartsOwn sampleNodeConfig)
      ⟨net, view, heard⟩ ∧
    view 0 = ⟨true, 1, Dict.empty, [1], [], [], [], [], []⟩ ∧ net.services 0 = ⟨d, ⟨0, 0⟩, 1, [0]⟩ ∧
    d.settings = sampleSettings ∧ d.discovered.get? (samplePeer true).id = some entry ∧
    entry.endpoints = sampleEndpoints true ∧ entry.observedAtMonotonic = 0 := by
  obtain ⟨request, hrequest⟩ := samplePeer_requests
  obtain ⟨net, heard, d, entry, hreached, hservice, hstarted, hlocal, hsettings, hentry⟩ :=
    sampleNodes_hear
  have hnode := hreached.step (Label.start 0) trivial rfl
  obtain ⟨view, hview, hcall⟩ : ∃ view : ℕ → View SampleFloat,
      view 0 = ⟨true, 1, Dict.empty, [1], [], [], [], [], []⟩ ∧
      ReachableWhen (Nodes.system SampleFloat sampleNodeConfig) (Nodes.StartsOwn sampleNodeConfig)
        ⟨net, view, heard⟩ :=
    ⟨_, rfl, hnode.step (Label.discover 0) trivial rfl⟩
  have hbegins : d.beginDiscover ⟨⟨0, 0⟩, fun _ _ => none⟩ 1 (some 0) = .ok 0 := by
    have hwindow : LanDiscovery.collectionWindow 1 (some 0) = .ok 0 := by
      norm_num [LanDiscovery.collectionWindow]
    have hsent : d.sendDiscover ⟨⟨0, 0⟩, fun _ _ => none⟩ = .ok () := by
      rw [← hsettings] at hrequest
      unfold requestPayload at hrequest
      simp only [LanDiscovery.sendDiscover, hlocal, sendPacket, hstarted, Bool.not_true,
        Bool.false_eq_true, if_false, hrequest, bind, Except.bind]
    simp only [LanDiscovery.beginDiscover, hstarted, hsent, hwindow, bind, Except.bind]
    rfl
  have hservice' : (net.services 0).step (.discover (some 0) fun _ _ => none) =
      some ⟨d, ⟨0, 0⟩, 1, [0]⟩ := by
    rw [hservice, ServiceState.step]
    simp only [hbegins]
    norm_num
  have hasks : net.step (.discover 0 (some 0) fun _ _ => none) =
      some ((net.setService 0 ⟨d, ⟨0, 0⟩, 1, [0]⟩).send
        (sentRequest ⟨(net.services 0).now, fun _ _ => none⟩ (net.services 0).discovery)) := by
    rw [Network.step, hservice']
    rfl
  have hstep : Nodes.step sampleNodeConfig ⟨net, view, heard⟩
      (.net (.discover 0 (some 0) fun _ _ => none)) = some _ := sample_follows (by simp) hasks
  refine ⟨_, _, _, d, entry,
    hcall.step (Label.net (.discover 0 (some 0) fun _ _ => none)) trivial hstep, ?_, rfl, hsettings,
    hentry⟩
  change (view 0).settle _ _ = _
  rw [hview]
  rfl

/-- The service returns, with `b` in its cache. -/
theorem sampleNodes_return : ∃ s d entry refs,
    ReachableWhen (Nodes.system SampleFloat sampleNodeConfig) (Nodes.StartsOwn sampleNodeConfig) s ∧
    s.view 0 = ⟨true, 1, Dict.empty, [], [(1, refs)], [], [], [], []⟩ ∧
    s.net.services 0 = ⟨d, ⟨0, 0⟩, 1, []⟩ ∧
    d.discovered.get? (samplePeer true).id = some entry ∧ .cached (samplePeer true).id ∈ refs ∧
    entry.endpoints = sampleEndpoints true ∧ entry.observedAtMonotonic = 0 := by
  obtain ⟨net, view, heard, d, entry, hreached, hview, hservice, hsettings, hget, hentry⟩ :=
    sampleNodes_ask
  have hanchored : AllAnchored d ⟨0, 0⟩ := by
    have hall := ((inv_of_reachable hreached).net.cache 0).allAnchored
    rwa [show Nodes.net ⟨net, view, heard⟩ = net from rfl, hservice] at hall
  have hkept : (pruneExpired d ⟨0, 0⟩).2.discovered.get? (samplePeer true).id = some entry := by
    refine ((pruneExpired_spec hanchored).2.2 _ entry).2 ⟨hget, ?_⟩
    rintro ⟨ttl, httl, hlt⟩
    rw [hsettings] at httl
    obtain rfl : (60 : ℚ) = ttl := Option.some.inj httl
    rw [hentry.2] at hlt
    norm_num at hlt
  have hends := endDiscover_spec hanchored
  have hservice' : (net.services 0).step (.collected 0) =
      some ⟨(pruneExpired d ⟨0, 0⟩).2, ⟨0, 0⟩, 1, []⟩ := by
    rw [hservice]
    simp only [ServiceState.step, hends]
    rfl
  have hcollected : net.step (.own 0 (.collected 0)) =
      some ((net.setService 0 ⟨(pruneExpired d ⟨0, 0⟩).2, ⟨0, 0⟩, 1, []⟩).publish 0
        (newPublication (net.services 0).discovery (pruneExpired d ⟨0, 0⟩).2)) := by
    simp only [Network.step, hservice']
    rfl
  have hok : ((net.services 0).discovery.endDiscover (net.services 0).now).1 =
      .ok (pruneExpired d ⟨0, 0⟩).2.discovered.values := by
    rw [hservice, hends]
  have hwaiting : (view 0).waiting[0]? = some 1 := by
    rw [hview]
    rfl
  obtain ⟨s, hstep, hs⟩ : ∃ s, Nodes.step sampleNodeConfig ⟨net, view, heard⟩
      (.collected 0 0 0) = some s ∧
      s.view 0 = ⟨true, 1, Dict.empty, [], [(1, (pruneExpired d ⟨0, 0⟩).2.discovered.items.map
        fun item => .cached item.1)], [], [], [], []⟩ ∧
      s.net.services 0 = ⟨(pruneExpired d ⟨0, 0⟩).2, ⟨0, 0⟩, 1, []⟩ := by
    simp only [Nodes.step, hwaiting, hcollected, now, hok]
    refine ⟨_, rfl, ?_, rfl⟩
    simp only [Nodes.setView, Nodes.follow, Function.update_self, hview]
    rfl
  refine ⟨s, _, entry, _, hreached.step (Label.collected 0 0 0) trivial hstep, hs.1, hs.2, hkept,
    List.mem_map.2 ⟨_, (Dict.mem_items_iff _).2 hkept, rfl⟩, hentry⟩

/-- The last loop of `discover()` leaves what the node may dial. -/
theorem foldl_observe_held {config : Config} {cache : Dict Str (DiscoveredPeer SampleFloat)}
    (refs : List (Ref SampleFloat)) (v : View SampleFloat) :
    (refs.foldl (View.observe config cache) v).held = v.held ∧
      (refs.foldl (View.observe config cache) v).made = v.made := by
  induction refs generalizing v with
  | nil => exact ⟨rfl, rfl⟩
  | cons ref refs ih =>
      have hremember : (v.remember config cache ref).held = v.held ∧
          (v.remember config cache ref).made = v.made := by
        obtain ⟨heq, -⟩ | ⟨heq, -⟩ := remember_cases config cache v ref
        · rw [heq]
          exact ⟨rfl, rfl⟩
        · rw [heq]
          exact ⟨rfl, rfl⟩
      rw [List.foldl_cons, (ih _).1, (ih _).2, View.observe]
      split
      · exact hremember
      · exact hremember

/-- `a` knows `b`, and its application has made nothing. -/
theorem sampleNodes_dial : ∃ s : Nodes SampleFloat, ∃ dial ∈ (s.view 0).dials,
    ReachableWhen (Nodes.system SampleFloat sampleNodeConfig) (Nodes.StartsOwn sampleNodeConfig) s ∧
    dial.endpoint ∈ sampleEndpoints true ∧ (s.view 0).made = [] := by
  obtain ⟨s, d, entry, refs, hreached, hview, hservice, hget, hmem, hendpoints, hobserved⟩ :=
    sampleNodes_return
  have hinv := inv_of_reachable hreached
  have hread : Ref.read (cache s.net 0) (.cached (samplePeer true).id) = some entry := by
    rw [Ref.read, cache, hservice]
    exact hget
  have hfresh : KnownPeers.isFresh (sampleNodeConfig 0) (now s.net 0) entry = true := by
    have hanchored := ((hinv.net.cache 0).admissible _ entry hread).anchored
    refine (KnownPeers.isFresh_iff (s := ⟨now s.net 0, Dict.empty, [], []⟩) hanchored).2 fun ttl httl => ?_
    obtain rfl : (60 : ℚ) = ttl := Option.some.inj httl
    change (now s.net 0).monotonic - _ ≤ _
    rw [now, hservice, hobserved]
    norm_num
  have hheld : Ref.cached (samplePeer true).id ∈ refs.filter (s.isFresh (sampleNodeConfig 0) 0) := by
    rw [List.mem_filter, Nodes.isFresh, hread]
    exact ⟨hmem, hfresh⟩
  obtain ⟨k, hk⟩ := List.mem_iff_getElem?.1 hheld
  -- the call of `discover()` goes on, and its result is dialed
  obtain ⟨s', hstep, hnet, hheld', hmade⟩ : ∃ s', Nodes.step sampleNodeConfig s (.finish 0 0) = some s' ∧
      s'.net = s.net ∧ (s'.view 0).held = refs.filter (s.isFresh (sampleNodeConfig 0) 0) ∧
      (s'.view 0).made = [] := by
    simp only [Nodes.step, hview]
    refine ⟨_, rfl, rfl, ?_⟩
    simp only [Nodes.setView, Function.update_self]
    exact foldl_observe_held ..
  have hfound := hreached.step (Label.finish 0 0) trivial hstep
  obtain ⟨s'', hstep, hdial, hmade'⟩ : ∃ s'', Nodes.step sampleNodeConfig s' (.connect 0 k) = some s'' ∧
      (⟨entry.peer.id, ⟨transportName, balancedAddress, []⟩, (now s.net 0).monotonic⟩ :
        Dial SampleFloat) ∈ (s''.view 0).dials ∧ (s''.view 0).made = [] := by
    have hendpoint : KnownPeers.endpointFor entry (sampleNodeConfig 0).transport =
        some ⟨transportName, balancedAddress, []⟩ := by
      rw [KnownPeers.endpointFor, hendpoints]
      rfl
    simp only [Nodes.step, hheld', hk, hnet, Option.bind_some, hread, hfresh, if_true, hendpoint]
    refine ⟨_, rfl, ?_⟩
    simp only [Nodes.setView, Function.update_self]
    exact ⟨List.mem_append_right _ (List.mem_singleton_self _), hmade⟩
  exact ⟨s'', _, hdial, hfound.step (Label.connect 0 k) trivial hstep, List.mem_singleton_self _, hmade'⟩

/-- The application makes a `DiscoveredPeer` of `b` with an endpoint that nobody has published,
and passes it to `connect()`. -/
theorem sampleNodes_given : ∃ s : Nodes SampleFloat, ∃ dial ∈ (s.view 0).dials,
    ReachableWhen (Nodes.system SampleFloat sampleNodeConfig) (Nodes.StartsOwn sampleNodeConfig) s ∧
    dial.id = (samplePeer true).id ∧ ∀ j, s.net.published j = [] := by
  have hinit : ReachableWhen (Nodes.system SampleFloat sampleNodeConfig)
      (Nodes.StartsOwn sampleNodeConfig) sampleNodes :=
    .init ⟨⟨fun _ => ⟨⟨sampleSettings, ⟨0, 0⟩, 1, rfl⟩, ⟨⟨trivial, List.nodup_nil⟩, trivial⟩⟩, rfl,
      fun _ => rfl⟩, fun _ => rfl, fun _ => rfl⟩
  let d : DiscoveredPeer SampleFloat :=
    construct (now sampleNetwork 0) (samplePeer true) (sampleEndpoints true) ⟨true, 0⟩ []
  obtain ⟨s, hstep, hnet, hheld⟩ : ∃ s, Nodes.step sampleNodeConfig sampleNodes
      (.make 0 (samplePeer true) (sampleEndpoints true) ⟨true, 0⟩ []) = some s ∧
      s.net = sampleNetwork ∧ (s.view 0).held = [.made d] :=
    ⟨_, rfl, rfl, rfl⟩
  have hmade := hinit.step
    (Label.make 0 (samplePeer true) (sampleEndpoints true) ⟨true, 0⟩ []) trivial hstep
  have hanchored : d.Anchored (now sampleNetwork 0) := anchored_construct _ _ _ rfl _
  have hfresh : KnownPeers.isFresh (sampleNodeConfig 0) (now sampleNetwork 0) d = true := by
    refine (KnownPeers.isFresh_iff (s := ⟨now sampleNetwork 0, Dict.empty, [], []⟩) hanchored).2
      fun ttl httl => ?_
    obtain rfl : (60 : ℚ) = ttl := Option.some.inj httl
    norm_num [d, construct, DiscoveredPeer.anchorMonotonicAge, now, sampleNetwork]
  have hendpoint : KnownPeers.endpointFor d (sampleNodeConfig 0).transport =
      some ⟨transportName, balancedAddress, []⟩ := rfl
  have hread : (s.view 0).held[0]?.bind (Ref.read (cache s.net 0)) = some d := by
    rw [hheld]
    rfl
  obtain ⟨t, hstep, hdial, hnet'⟩ : ∃ t, Nodes.step sampleNodeConfig s (.connect 0 0) = some t ∧
      (⟨(samplePeer true).id, ⟨transportName, balancedAddress, []⟩, (now s.net 0).monotonic⟩ :
        Dial SampleFloat) ∈ (t.view 0).dials ∧ t.net = sampleNetwork := by
    rw [← hnet] at hfresh
    simp only [Nodes.step, hread, hfresh, if_true, hendpoint]
    refine ⟨_, rfl, ?_, hnet⟩
    simp only [Nodes.setView, Function.update_self]
    exact List.mem_append_right _ (List.mem_singleton_self _)
  exact ⟨t, _, hdial, hmade.step (Label.connect 0 0) trivial hstep, rfl, fun j => by rw [hnet']; rfl⟩

/-- **Two runs.**  `a` knows `b` and dials what it has published; and the application of `a`
has it dial `b` where nobody has published anything. -/
theorem dialed_was_published_sample :
    (∃ s : Nodes SampleFloat, ∃ dial ∈ (s.view 0).dials, dial.endpoint ∈ sampleEndpoints true ∧
      Justified (sampleNodeConfig 0) s.net (s.heard 0) dial) ∧
    ∃ s : Nodes SampleFloat, ∃ dial ∈ (s.view 0).dials, dial.id = (samplePeer true).id ∧
      Given (sampleNodeConfig 0) (s.view 0).made dial := by
  constructor
  · obtain ⟨s, dial, hdial, hreached, hendpoint, hmade⟩ := sampleNodes_dial
    refine ⟨s, dial, hdial, hendpoint, ?_⟩
    obtain hjustified | ⟨d, hd, -⟩ := (dialed_was_published sampleNodeConfig hreached 0).1 dial hdial
    · exact hjustified
    · rw [hmade] at hd
      cases hd
  · obtain ⟨s, dial, hdial, hreached, hid, hpublished⟩ := sampleNodes_given
    refine ⟨s, dial, hdial, hid, ?_⟩
    obtain hjustified | hgiven := (dialed_was_published sampleNodeConfig hreached 0).1 dial hdial
    · obtain ⟨j, p, -, -, hp, -⟩ := hjustified.published
      rw [hpublished] at hp
      cases hp
    · exact hgiven

end sample

end NodeDiscovery

end Core
end Paqto
