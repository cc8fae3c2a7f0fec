/-
# The discovery cache under any traffic

Without an application that sets `last_seen`, every entry of the cache carries the
monotonic time of its last announcement (`DiscoveredPeer.Anchored`), so expiry drops
exactly the entries past the TTL (`get?_pruneExpired`).  From this and the local
peer that `start()` sets and `stop()` clears along with the cache, the admission
rules follow for every run (`cache_admission`).
-/

import Paqto.Lan.Datagrams
import Paqto.Lan.DiscoveryLifecycle

namespace Paqto
namespace Lan

open Python Paqto.Core Transition

variable {F : Type} [PyFloat F]

/-! ## Expiry -/

namespace DiscoveredPeer

/-- The timestamp is that of the last observation, which is past. -/
structure Anchored (now : Now) (entry : DiscoveredPeer F) : Prop where
  aware : entry.lastSeen.aware = true
  snapshot : entry.lastSeen = entry.lastSeenSnapshot
  past : entry.observedAtMonotonic ≤ now.monotonic

variable {now : Now} {entry : DiscoveredPeer F}

omit [PyFloat F] in
/-- An anchored entry needs no correction. -/
theorem Anchored.synchronize (h : entry.Anchored now) : entry.synchronize now = entry :=
  if_neg fun hne => hne h.snapshot

omit [PyFloat F] in
/-- The age of an entry is the time since its last announcement. -/
theorem Anchored.isFresh (h : entry.Anchored now) (ttl : ℚ) :
    entry.isFresh ttl now = some (decide (now.monotonic - entry.observedAtMonotonic ≤ ttl)) := by
  have hage : max 0 (now.monotonic - entry.observedAtMonotonic) =
      now.monotonic - entry.observedAtMonotonic := max_eq_right (sub_nonneg.2 h.past)
  rw [DiscoveredPeer.isFresh, if_pos h.aware, h.synchronize, hage]

omit [PyFloat F] in
/-- It stays anchored. -/
theorem Anchored.later (h : entry.Anchored now) {later : Now}
    (hle : now.monotonic ≤ later.monotonic) : entry.Anchored later :=
  ⟨h.aware, h.snapshot, h.past.trans hle⟩

omit [PyFloat F] in
/-- An entry is observed when it is created. -/
theorem create_observed (now : Now) (peer : Peer F) (endpoints : List (Endpoint F))
    (metadata : List (Key F × Value F)) :
    (create now peer endpoints metadata).observedAtMonotonic = now.monotonic := by
  simp [create, anchorMonotonicAge]

omit [PyFloat F] in
/-- A new entry is anchored. -/
theorem anchored_create (now : Now) (peer : Peer F) (endpoints : List (Endpoint F))
    (metadata : List (Key F × Value F)) : (create now peer endpoints metadata).Anchored now :=
  ⟨rfl, rfl, (create_observed now peer endpoints metadata).le⟩

omit [PyFloat F] in
/-- So is one that was seen again. -/
theorem anchored_touch (entry : DiscoveredPeer F) (now : Now) : (entry.touch now).Anchored now :=
  ⟨rfl, rfl, le_refl _⟩

end DiscoveredPeer

/-- The entry is past the TTL. -/
def Expired (d : LanDiscovery F) (now : Now) (entry : DiscoveredPeer F) : Prop :=
  ∃ ttl, d.settings.peerTtl = some ttl ∧ ttl < now.monotonic - entry.observedAtMonotonic

omit [PyFloat F] in
/-- The loop of `_prune_expired` drops the expired ones of its items, and no others. -/
theorem pruneLoop_spec (ttl : ℚ) (now : Now) (items : List (Str × DiscoveredPeer F))
    (cache : Dict Str (DiscoveredPeer F)) (hnodup : (items.map Prod.fst).Nodup)
    (hitems : ∀ id entry, (id, entry) ∈ items →
      cache.get? id = some entry ∧ entry.Anchored now) :
    (pruneLoop ttl now items cache).1 = none ∧
      (pruneLoop ttl now items cache).2.size ≤ cache.size ∧
      ∀ id entry, (pruneLoop ttl now items cache).2.get? id = some entry ↔
        cache.get? id = some entry ∧
          ((id, entry) ∈ items → now.monotonic - entry.observedAtMonotonic ≤ ttl) := by
  induction items generalizing cache with
  | nil => simp [pruneLoop]
  | cons item items ih =>
      obtain ⟨key, discovered⟩ := item
      obtain ⟨hget, hanchored⟩ := hitems key discovered List.mem_cons_self
      rw [List.map_cons, List.nodup_cons] at hnodup
      have hkey : ∀ entry, (key, entry) ∉ items := fun entry hmem =>
        hnodup.1 (List.mem_map.2 ⟨_, hmem, rfl⟩)
      -- What the loop sets is what is there.
      have hsame : ∀ id, (cache.set key discovered).get? id = cache.get? id := by
        intro id
        rw [Dict.get?_set]
        split
        · rename_i heq
          rw [heq, hget]
        · rfl
      have hsize : (cache.set key discovered).size = cache.size := by
        rw [Dict.size_set, if_neg (by simp [hget])]
      have hrest : ∀ id entry, (id, entry) ∈ items → id ≠ key ∧
          cache.get? id = some entry ∧ entry.Anchored now := by
        intro id entry hmem
        refine ⟨?_, hitems id entry (List.mem_cons_of_mem _ hmem)⟩
        rintro rfl
        exact hkey entry hmem
      by_cases hfresh : now.monotonic - discovered.observedAtMonotonic ≤ ttl
      · have hstep : pruneLoop ttl now ((key, discovered) :: items) cache =
            pruneLoop ttl now items (cache.set key discovered) := by
          simp only [pruneLoop, hanchored.synchronize, hanchored.isFresh, hfresh, decide_true]
        obtain ⟨hraised, hle, hiff⟩ := ih (cache.set key discovered) hnodup.2 fun id entry hmem => by
          rw [hsame]
          exact (hrest id entry hmem).2
        rw [hstep]
        refine ⟨hraised, hle.trans hsize.le, fun id entry => ?_⟩
        rw [hiff, hsame, List.mem_cons]
        refine and_congr_right fun _ => ⟨fun h hmem => ?_, fun h hmem => h (.inr hmem)⟩
        rcases hmem with heq | hmem
        · obtain ⟨rfl, rfl⟩ := Prod.mk.inj heq
          exact hfresh
        · exact h hmem
      · have hstep : pruneLoop ttl now ((key, discovered) :: items) cache =
            pruneLoop ttl now items ((cache.set key discovered).erase key) := by
          simp only [pruneLoop, hanchored.synchronize, hanchored.isFresh, hfresh, decide_false]
        have herase : ∀ id, ((cache.set key discovered).erase key).get? id =
            if id = key then none else cache.get? id := by
          intro id
          rw [Dict.get?_erase, hsame]
        obtain ⟨hraised, hle, hiff⟩ := ih ((cache.set key discovered).erase key) hnodup.2
          fun id entry hmem => by
            obtain ⟨hne, hin⟩ := hrest id entry hmem
            rw [herase, if_neg hne]
            exact hin
        rw [hstep]
        refine ⟨hraised, ?_, fun id entry => ?_⟩
        · exact hle.trans ((Dict.size_erase_le _ key).trans hsize.le)
        · rw [hiff, herase, List.mem_cons]
          by_cases hid : id = key
          · subst hid
            simp only [if_true, reduceCtorEq, false_and, false_iff, not_and]
            intro hentry hall
            obtain rfl : discovered = entry := Option.some.inj (hget.symm.trans hentry)
            exact hfresh (hall (.inl rfl))
          · rw [if_neg hid]
            refine and_congr_right fun _ => ⟨fun h hmem => ?_, fun h hmem => h (.inr hmem)⟩
            rcases hmem with heq | hmem
            · exact absurd (Prod.mk.inj heq).1 hid
            · exact h hmem

/-- Every entry is anchored. -/
def AllAnchored (d : LanDiscovery F) (now : Now) : Prop :=
  ∀ id entry, d.discovered.get? id = some entry → entry.Anchored now

omit [PyFloat F] in
/-- **Expiry drops exactly the entries past the TTL**, and does not raise. -/
theorem pruneExpired_spec {d : LanDiscovery F} {now : Now} (h : AllAnchored d now) :
    (pruneExpired d now).1 = none ∧
      (pruneExpired d now).2.discovered.size ≤ d.discovered.size ∧
      ∀ id entry, (pruneExpired d now).2.discovered.get? id = some entry ↔
        d.discovered.get? id = some entry ∧ ¬ Expired d now entry := by
  unfold pruneExpired Expired
  cases httl : d.settings.peerTtl with
  | none => simp
  | some ttl =>
      have hitems : ∀ id entry, (id, entry) ∈ d.discovered.items →
          d.discovered.get? id = some entry ∧ entry.Anchored now := by
        intro id entry hmem
        have hget := (Dict.mem_items_iff d.discovered).1 hmem
        exact ⟨hget, h id entry hget⟩
      obtain ⟨hraised, hle, hiff⟩ := pruneLoop_spec ttl now d.discovered.items d.discovered
        d.discovered.nodup hitems
      refine ⟨hraised, hle, fun id entry => ?_⟩
      simp only [Option.some.injEq, exists_eq_left', not_lt]
      rw [hiff, Dict.mem_items_iff]
      constructor
      · rintro ⟨hget, hfresh⟩
        exact ⟨hget, hfresh hget⟩
      · rintro ⟨hget, hfresh⟩
        exact ⟨hget, fun _ => hfresh⟩

omit [PyFloat F] in
/-- Expiry changes the cache only. -/
theorem pruneExpired_eq (d : LanDiscovery F) (now : Now) :
    (pruneExpired d now).2 = { d with discovered := (pruneExpired d now).2.discovered } := by
  unfold pruneExpired
  split <;> rfl

/-! ## What a datagram leaves -/

section Url

variable [UrlLib]

/-- A LAN endpoint whose address `parse_tcp_address` accepts. -/
def IsLanEndpoint (endpoint : Endpoint F) : Prop :=
  endpoint.transport = transportName ∧ ∃ address, parseTcpAddress endpoint.address = .ok address

omit [PyFloat F] in
/-- What is read is an endpoint of the LAN. -/
theorem endpointOf_lan {item : Value F} {endpoint : Endpoint F}
    (h : endpointOf item = some endpoint) : IsLanEndpoint endpoint := by
  unfold endpointOf at h
  split at h
  · split at h
    · split at h
      · split at h
        · rename_i haddress
          obtain rfl := Option.some.inj h
          exact ⟨rfl, _, haddress⟩
        · cases h
      · cases h
    · cases h
  · cases h

omit [PyFloat F] in
/-- So is each of a list. -/
theorem filterMap_endpointOf_lan {items : List (Value F)} {endpoint : Endpoint F}
    (h : endpoint ∈ items.filterMap endpointOf) : IsLanEndpoint endpoint := by
  obtain ⟨item, -, hitem⟩ := List.mem_filterMap.1 h
  exact endpointOf_lan hitem

/-- The entry of a known peer, announced again. -/
def refreshed (now : Now) (entry : DiscoveredPeer F) (peer : Peer F)
    (endpoints : List (Endpoint F)) (metadata : List (Key F × Value F)) : DiscoveredPeer F :=
  ({ entry with peer, endpoints, metadata } : DiscoveredPeer F).touch now

/-- A well-formed announcement, of whose endpoints `urlparse` raises on none. -/
structure Renews (d : LanDiscovery F) (data : Bytes) (peer : Peer F) (items : List (Value F))
    (metadata : List (Key F × Value F)) : Prop where
  announces : Announces d data peer items metadata
  parses : ∀ item ∈ items, ¬ MalformedUrl item

/-- The states that a datagram may leave: the same one; or the announced entry
refreshed; or the expired entries gone, and the announced peer added if it fits. -/
inductive Leaves (env : Environment) (d : LanDiscovery F) (data : Bytes) : LanDiscovery F → Prop
  | same : Leaves env d data d
  | refreshed {peer : Peer F} {items : List (Value F)} {metadata : List (Key F × Value F)}
      {entry : DiscoveredPeer F} (renews : Renews d data peer items metadata)
      (known : d.discovered.get? peer.id = some entry) :
      Leaves env d data { d with
        discovered := d.discovered.set peer.id
          (refreshed env.now entry peer (items.filterMap endpointOf) metadata) }
  | pruned : Leaves env d data (pruneExpired d env.now).2
  | added {peer : Peer F} {items : List (Value F)} {metadata : List (Key F × Value F)}
      (renews : Renews d data peer items metadata)
      (new : d.discovered.get? peer.id = none)
      (room : (pruneExpired d env.now).2.discovered.size < d.settings.maxDiscoveredPeers) :
      Leaves env d data { (pruneExpired d env.now).2 with
        discovered := (pruneExpired d env.now).2.discovered.set peer.id
          (.create env.now peer (items.filterMap endpointOf) metadata) }

/-- **What a datagram can do to the service.** -/
theorem datagramReceived_leaves (env : Environment) (d : LanDiscovery F) (data : Bytes)
    (addr : Option SocketAddress) :
    Leaves env d data (datagramReceived env d data addr).discovery := by
  rcases datagramReceived_cases env d data addr with
    ⟨payload, peer, items, hdecl, heq⟩ | ⟨-, -, hsame⟩
  · rw [heq]
    rcases handleAnnounce_declared env.now hdecl with ⟨-, hraise⟩ | ⟨hparses, hhandle⟩
    · rw [hraise]
      exact .same
    · rw [hhandle]
      cases hmeta : optionalDict (dictGet payload metadataKey) with
      | none => exact .same
      | some metadata =>
          have hrenews : Renews d data peer items metadata := ⟨⟨payload, hdecl, hmeta⟩, hparses⟩
          simp only [cacheAnnounce]
          cases hget : d.discovered.get? peer.id with
          | some entry => exact .refreshed hrenews hget
          | none =>
              have hpruned : Leaves env d data (pruneExpired d env.now).2 := .pruned
              have hset := pruneExpired_settings d env.now
              have hadded := @Leaves.added _ _ _ env d data _ _ _ hrenews hget
              rcases hp : pruneExpired d env.now with ⟨raised, pruned⟩
              rw [hp] at hpruned hset hadded
              cases raised with
              | some e => exact hpruned
              | none =>
                  simp only
                  split
                  · exact hpruned
                  · rename_i hroom
                    rw [hset, ge_iff_le, not_le] at hroom
                    exact hadded hroom
  · rw [hsame]
    exact .same

/-! ## The invariant -/

omit [UrlLib] in
/-- An announcement is of another peer. -/
theorem Announces.remote {d : LanDiscovery F} {data : Bytes} {peer : Peer F}
    {items : List (Value F)} {metadata : List (Key F × Value F)}
    (h : Announces d data peer items metadata) :
    ∃ localPeer, d.localPeer = some localPeer ∧ localPeer.id ≠ peer.id := by
  obtain ⟨payload, hdecl, -⟩ := h.payload
  obtain ⟨localPeer, hlocal, hne⟩ := hdecl.remote
  exact ⟨localPeer, hlocal, fun heq => hne heq.symm⟩

/-- What a datagram announces does not depend on the cache. -/
theorem Renews.of_eq {d d' : LanDiscovery F} {data : Bytes} {peer : Peer F}
    {items : List (Value F)} {metadata : List (Key F × Value F)}
    (h : Renews d data peer items metadata) (hsettings : d'.settings = d.settings)
    (hlocal : d'.localPeer = d.localPeer) : Renews d' data peer items metadata := by
  obtain ⟨⟨payload, hdecl, hmeta⟩, hparses⟩ := h
  refine ⟨⟨payload, ⟨?_, hdecl.decoded, hdecl.kind, hdecl.declared, ?_, hdecl.endpoints⟩, hmeta⟩,
    hparses⟩
  · rw [hsettings]
    exact hdecl.small
  · rw [hlocal]
    exact hdecl.remote

/-- What every entry is: that of its key, which is not the local peer's, with LAN
endpoints, and anchored; and there is a datagram that renews it. -/
structure Admissible (s : ServiceState F) (id : Str) (entry : DiscoveredPeer F) : Prop where
  key : entry.peer.id = id
  remote : ∃ localPeer, s.discovery.localPeer = some localPeer ∧ localPeer.id ≠ id
  lan : ∀ endpoint ∈ entry.endpoints, IsLanEndpoint endpoint
  anchored : entry.Anchored s.now
  renewable : ∃ data peer items metadata, peer.id = id ∧ Renews s.discovery data peer items metadata

/-- The admission rules, and that a service that is not started knows nobody. -/
structure CacheInv (s : ServiceState F) : Prop where
  bounded : s.discovery.discovered.size ≤ s.discovery.settings.maxDiscoveredPeers
  admissible : ∀ id entry, s.discovery.discovered.get? id = some entry → Admissible s id entry
  stopped : s.discovery.started = false → s.discovery.discovered = Dict.empty

variable {s t : ServiceState F}

/-- An entry stays admissible with the same settings. -/
theorem Admissible.of_eq {id : Str} {entry : DiscoveredPeer F} (h : Admissible s id entry)
    (hsettings : t.discovery.settings = s.discovery.settings)
    (hlocal : t.discovery.localPeer = s.discovery.localPeer)
    (hnow : s.now.monotonic ≤ t.now.monotonic) : Admissible t id entry := by
  obtain ⟨data, peer, items, metadata, hid, hrenews⟩ := h.renewable
  refine ⟨h.key, ?_, h.lan, h.anchored.later hnow, data, peer, items, metadata, hid,
    hrenews.of_eq hsettings hlocal⟩
  rw [hlocal]
  exact h.remote

/-- Every entry is anchored. -/
theorem CacheInv.allAnchored (h : CacheInv s) : AllAnchored s.discovery s.now :=
  fun id entry hget => (h.admissible id entry hget).anchored

/-- Whoever is known is known to a service that is started. -/
theorem CacheInv.started (h : CacheInv s) {id : Str} {entry : DiscoveredPeer F}
    (hget : s.discovery.discovered.get? id = some entry) : s.discovery.started = true := by
  by_contra hoff
  rw [h.stopped (Bool.eq_false_iff.2 hoff)] at hget
  cases hget

/-- An empty cache. -/
theorem cacheInv_of_empty (h : s.discovery.discovered = Dict.empty) : CacheInv s where
  bounded := by
    rw [h]
    exact Nat.zero_le _
  admissible id entry hget := by
    rw [h] at hget
    cases hget
  stopped _ := h

/-- An admissible entry that fits. -/
theorem CacheInv.set (h : CacheInv s) (hstarted : s.discovery.started = true) {id : Str}
    {entry : DiscoveredPeer F} (hadm : Admissible s id entry)
    (hroom : s.discovery.discovered.get? id = none →
      s.discovery.discovered.size < s.discovery.settings.maxDiscoveredPeers) :
    CacheInv { s with
      discovery := { s.discovery with discovered := s.discovery.discovered.set id entry } } where
  bounded := by
    change (s.discovery.discovered.set id entry).size ≤ _
    rw [Dict.size_set]
    split
    · rename_i hnone
      exact hroom hnone
    · exact h.bounded
  admissible id' entry' hget := by
    change (s.discovery.discovered.set id entry).get? id' = some entry' at hget
    rw [Dict.get?_set] at hget
    split at hget
    · rename_i heq
      obtain rfl := Option.some.inj hget
      subst heq
      exact hadm.of_eq rfl rfl le_rfl
    · exact (h.admissible id' entry' hget).of_eq rfl rfl le_rfl
  stopped hoff := by
    change s.discovery.started = false at hoff
    rw [hstarted] at hoff
    cases hoff

/-- Expired entries are dropped. -/
theorem CacheInv.prune (h : CacheInv s) :
    CacheInv { s with discovery := (pruneExpired s.discovery s.now).2 } := by
  obtain ⟨-, hle, hiff⟩ := pruneExpired_spec h.allAnchored
  rw [pruneExpired_eq]
  refine ⟨hle.trans h.bounded, fun id entry hget => ?_, fun hoff => ?_⟩
  · exact (h.admissible id entry ((hiff id entry).1 hget).1).of_eq rfl rfl le_rfl
  · rw [h.stopped hoff] at hle
    exact Dict.eq_empty_of_size (Nat.le_zero.1 hle)

/-- A datagram is received. -/
theorem CacheInv.leaves (h : CacheInv s) (hstarted : s.discovery.started = true)
    {env : Environment} (hnow : env.now = s.now) {data : Bytes} {d : LanDiscovery F}
    (hd : Leaves env s.discovery data d) : CacheInv { s with discovery := d } := by
  cases hd with
  | same => exact h
  | pruned =>
      rw [hnow]
      exact h.prune
  | @refreshed peer items metadata entry hrenews hget =>
      refine h.set hstarted ⟨rfl, hrenews.announces.remote, fun endpoint hmem => ?_, ?_,
        data, peer, items, metadata, rfl, hrenews⟩ fun hnone => ?_
      · exact filterMap_endpointOf_lan hmem
      · rw [hnow]
        exact DiscoveredPeer.anchored_touch _ s.now
      · rw [hget] at hnone
        cases hnone
  | @added peer items metadata hrenews hnew hroom =>
      rw [hnow] at hroom ⊢
      have hpruned := h.prune
      rw [pruneExpired_eq] at hpruned ⊢
      refine hpruned.set hstarted ⟨rfl, hrenews.announces.remote, fun endpoint hmem => ?_, ?_,
        data, peer, items, metadata, rfl, hrenews.of_eq rfl rfl⟩ fun _ => hroom
      · exact filterMap_endpointOf_lan hmem
      · exact DiscoveredPeer.anchored_create s.now peer _ metadata

/-- `start()` keeps the cache, and in a service that is started everything. -/
theorem start_spec (d : LanDiscovery F) (localPeer : Peer F) (endpoints : List (Endpoint F))
    (socket : SocketOutcome) :
    (d.start localPeer endpoints socket).2.discovered = d.discovered ∧
      (d.started = true → (d.start localPeer endpoints socket).2 = d) := by
  refine ⟨?_, fun hstarted => by simp [LanDiscovery.start, hstarted]⟩
  simp only [LanDiscovery.start]
  repeat' split
  all_goals rfl

/-- The discovery starts. -/
theorem CacheInv.start (h : CacheInv s) (localPeer : Peer F) (endpoints : List (Endpoint F))
    (socket : SocketOutcome) :
    CacheInv { s with discovery := (s.discovery.start localPeer endpoints socket).2 } := by
  obtain ⟨hcache, hsame⟩ := start_spec s.discovery localPeer endpoints socket
  cases hstarted : s.discovery.started with
  | true =>
      rw [hsame hstarted]
      exact h
  | false => exact cacheInv_of_empty (hcache.trans (h.stopped hstarted))

omit [PyFloat F] [UrlLib] in
/-- `discover()` leaves what expiry leaves, and returns it. -/
theorem endDiscover_spec {d : LanDiscovery F} {now : Now} (h : AllAnchored d now) :
    d.endDiscover now = (.ok (pruneExpired d now).2.discovered.values, (pruneExpired d now).2) := by
  have hraised := (pruneExpired_spec h).1
  unfold LanDiscovery.endDiscover
  rcases hp : pruneExpired d now with ⟨raised, pruned⟩
  rw [hp] at hraised
  obtain rfl : raised = none := hraised
  rfl

/-- **Every step keeps the cache.** -/
theorem cacheInv_step (h : CacheInv s) {label : ServiceLabel F} (hstep : s.step label = some t) :
    CacheInv t := by
  cases label with
  | datagram data addr sendto =>
      simp only [ServiceState.step] at hstep
      split at hstep
      · rename_i hstarted
        obtain rfl := Option.some.inj hstep
        exact h.leaves hstarted rfl (datagramReceived_leaves ⟨s.now, sendto⟩ s.discovery data addr)
      · cases hstep
  | time now =>
      simp only [ServiceState.step] at hstep
      split at hstep
      · rename_i hle
        obtain rfl := Option.some.inj hstep
        exact ⟨h.bounded, fun id entry hget => (h.admissible id entry hget).of_eq rfl rfl hle,
          h.stopped⟩
      · cases hstep
  | prune =>
      obtain rfl := Option.some.inj hstep
      exact h.prune
  | discover timeout sendto =>
      simp only [ServiceState.step] at hstep
      split at hstep
      · exact Option.some.inj hstep ▸ h
      · obtain rfl := Option.some.inj hstep
        exact ⟨h.bounded, fun id entry hget => (h.admissible id entry hget).of_eq rfl rfl le_rfl,
          h.stopped⟩
  | collected call =>
      simp only [ServiceState.step] at hstep
      split at hstep
      · cases hstep
      · split at hstep
        · obtain rfl := Option.some.inj hstep
          rw [endDiscover_spec h.allAnchored]
          have hpruned := h.prune
          exact ⟨hpruned.bounded,
            fun id entry hget => (hpruned.admissible id entry hget).of_eq rfl rfl le_rfl,
            hpruned.stopped⟩
        · cases hstep
  | start localPeer endpoints socket =>
      obtain rfl := Option.some.inj hstep
      exact h.start localPeer endpoints socket
  | stop =>
      obtain rfl := Option.some.inj hstep
      exact cacheInv_of_empty rfl

/-- **What holds of the cache in every run.** -/
theorem cacheInv_of_reachable (h : Reachable (ServiceState.system F) s) : CacheInv s := by
  have hinit : ∀ s : ServiceState F, s.Initial → CacheInv s := by
    rintro s ⟨settings, now, defaultTimeout, rfl⟩
    exact cacheInv_of_empty rfl
  exact Reachable.invariant (I := CacheInv) hinit (fun _ _ _ hs hstep => cacheInv_step hs hstep) h

/-! ## The admission rules -/

/-- An entry that a datagram changes is the one it announces, or is expired and gone. -/
theorem datagram_frame (h : CacheInv s) {env : Environment} (hnow : env.now = s.now) {data : Bytes}
    {d : LanDiscovery F} (hd : Leaves env s.discovery data d) (id : Str) :
    d.discovered.get? id = s.discovery.discovered.get? id ∨
      (∃ peer items metadata entry, Announces s.discovery data peer items metadata ∧
        peer.id = id ∧ d.discovered.get? id = some entry ∧ entry.peer = peer ∧
        entry.observedAtMonotonic = s.now.monotonic) ∨
      ∃ entry, s.discovery.discovered.get? id = some entry ∧ Expired s.discovery s.now entry ∧
        d.discovered.get? id = none := by
  have hpruned : (pruneExpired s.discovery s.now).2.discovered.get? id =
        s.discovery.discovered.get? id ∨
      ∃ entry, s.discovery.discovered.get? id = some entry ∧ Expired s.discovery s.now entry ∧
        (pruneExpired s.discovery s.now).2.discovered.get? id = none := by
    obtain ⟨-, -, hiff⟩ := pruneExpired_spec h.allAnchored
    cases hget : s.discovery.discovered.get? id with
    | none =>
        refine .inl (Option.eq_none_iff_forall_ne_some.2 fun entry hentry => ?_)
        have hsome := ((hiff id entry).1 hentry).1
        rw [hget] at hsome
        cases hsome
    | some entry =>
        by_cases hexpired : Expired s.discovery s.now entry
        · refine .inr ⟨entry, rfl, hexpired, ?_⟩
          refine Option.eq_none_iff_forall_ne_some.2 fun entry' hentry' => ?_
          obtain ⟨hsome, hfresh⟩ := (hiff id entry').1 hentry'
          obtain rfl := Option.some.inj (hget.symm.trans hsome)
          exact hfresh hexpired
        · exact .inl ((hiff id entry).2 ⟨hget, hexpired⟩)
  cases hd with
  | same => exact .inl rfl
  | pruned =>
      rw [hnow]
      exact hpruned.imp_right .inr
  | @refreshed peer items metadata entry hrenews hget =>
      by_cases hid : id = peer.id
      · refine .inr (.inl ⟨peer, items, metadata,
          refreshed env.now entry peer (items.filterMap endpointOf) metadata, hrenews.announces, hid.symm, ?_, rfl, ?_⟩)
        · rw [Dict.get?_set, if_pos hid]
        · change env.now.monotonic = s.now.monotonic
          rw [hnow]
      · refine .inl ?_
        change (s.discovery.discovered.set peer.id _).get? id = _
        rw [Dict.get?_set, if_neg hid]
  | @added peer items metadata hrenews hnew hroom =>
      by_cases hid : id = peer.id
      · refine .inr (.inl ⟨peer, items, metadata,
          .create env.now peer (items.filterMap endpointOf) metadata, hrenews.announces, hid.symm, ?_, rfl, ?_⟩)
        · rw [Dict.get?_set, if_pos hid]
        · rw [hnow]
          exact DiscoveredPeer.create_observed s.now peer _ metadata
      · have hset : ∀ entry, ((pruneExpired s.discovery s.now).2.discovered.set peer.id entry).get? id =
            (pruneExpired s.discovery s.now).2.discovered.get? id := by
          intro entry
          rw [Dict.get?_set, if_neg hid]
        rw [hnow]
        change ((pruneExpired s.discovery s.now).2.discovered.set peer.id _).get? id = _ ∨ _ ∨ _
        simp only [hset]
        exact hpruned.imp_right .inr

/-- What is announced again is refreshed, however full the cache is. -/
theorem datagramReceived_refreshed {env : Environment} {d : LanDiscovery F} {data : Bytes}
    {addr : Option SocketAddress} {peer : Peer F} {items : List (Value F)}
    {metadata : List (Key F × Value F)} (h : Renews d data peer items metadata)
    {entry : DiscoveredPeer F} (hget : d.discovered.get? peer.id = some entry) :
    (datagramReceived env d data addr).discovery.discovered.get? peer.id =
      some (refreshed env.now entry peer (items.filterMap endpointOf) metadata) := by
  obtain ⟨⟨payload, hdecl, hmeta⟩, hparses⟩ := h
  rcases datagramReceived_cases env d data addr with ⟨_, _, _, hdecl', heq⟩ | ⟨hnone, -⟩
  · obtain ⟨rfl, rfl, rfl⟩ := hdecl.unique hdecl'
    rcases handleAnnounce_declared env.now hdecl with ⟨⟨item, hmem, hbad⟩, -⟩ | ⟨-, hhandle⟩
    · exact absurd hbad (hparses item hmem)
    · rw [heq, hhandle, hmeta]
      simp only [cacheAnnounce, hget, ignored_discovery]
      rw [Dict.get?_set, if_pos rfl]
      rfl
  · exact absurd hdecl (hnone _ _ _)

/-- A datagram keeps an entry that is not expired, or renews it. -/
theorem leaves_kept (h : CacheInv s) {env : Environment} (hnow : env.now = s.now) {data : Bytes}
    {d : LanDiscovery F} (hd : Leaves env s.discovery data d) {id : Str} {entry : DiscoveredPeer F}
    (hget : s.discovery.discovered.get? id = some entry)
    (hfresh : ¬ Expired s.discovery s.now entry) :
    ∃ entry', d.discovered.get? id = some entry' ∧
      entry.observedAtMonotonic ≤ entry'.observedAtMonotonic := by
  have hpruned : (pruneExpired s.discovery s.now).2.discovered.get? id = some entry :=
    ((pruneExpired_spec h.allAnchored).2.2 id entry).2 ⟨hget, hfresh⟩
  cases hd with
  | same => exact ⟨entry, hget, le_rfl⟩
  | pruned => exact ⟨entry, hnow ▸ hpruned, le_rfl⟩
  | @refreshed peer items metadata old hrenews hold =>
      simp only [Dict.get?_set]
      split
      · rename_i hid
        refine ⟨_, rfl, ?_⟩
        change entry.observedAtMonotonic ≤ env.now.monotonic
        rw [hnow]
        exact (h.allAnchored id entry hget).past
      · exact ⟨entry, hget, le_rfl⟩
  | @added peer items metadata hrenews hnew hroom =>
      have hid : id ≠ peer.id := by
        rintro rfl
        rw [hget] at hnew
        cases hnew
      simp only [Dict.get?_set, if_neg hid]
      exact ⟨entry, hnow ▸ hpruned, le_rfl⟩

/-- A datagram changes no setting. -/
theorem leaves_settings {env : Environment} {d d' : LanDiscovery F} {data : Bytes}
    (h : Leaves env d data d') : d'.settings = d.settings := by
  cases h with
  | same | refreshed => rfl
  | pruned => exact pruneExpired_settings d env.now
  | added => exact pruneExpired_settings d env.now

/-- Nor does a start. -/
theorem start_settings (d : LanDiscovery F) (localPeer : Peer F) (endpoints : List (Endpoint F))
    (socket : SocketOutcome) :
    (d.start localPeer endpoints socket).2.settings = d.settings := by
  simp only [LanDiscovery.start]
  repeat' split
  all_goals rfl

/-- Time goes on, the settings stay, and only a stop makes the service forget an entry
that is not expired. -/
theorem step_kept (h : CacheInv s) {label : ServiceLabel F} (hlabel : label ≠ .stop)
    (hstep : s.step label = some t) :
    s.now.monotonic ≤ t.now.monotonic ∧ t.discovery.settings = s.discovery.settings ∧
      ∀ id entry, s.discovery.discovered.get? id = some entry →
        ¬ Expired s.discovery s.now entry →
        ∃ entry', t.discovery.discovered.get? id = some entry' ∧
          entry.observedAtMonotonic ≤ entry'.observedAtMonotonic := by
  have hprune : ∀ id entry, s.discovery.discovered.get? id = some entry →
      ¬ Expired s.discovery s.now entry →
      (pruneExpired s.discovery s.now).2.discovered.get? id = some entry := fun id entry hget hfresh =>
    ((pruneExpired_spec h.allAnchored).2.2 id entry).2 ⟨hget, hfresh⟩
  cases label with
  | datagram data addr sendto =>
      have hleaves := datagramReceived_leaves ⟨s.now, sendto⟩ s.discovery data addr
      simp only [ServiceState.step] at hstep
      split at hstep
      · obtain rfl := Option.some.inj hstep
        exact ⟨le_rfl, leaves_settings hleaves,
          fun id entry hget hfresh => leaves_kept h rfl hleaves hget hfresh⟩
      · cases hstep
  | time now =>
      simp only [ServiceState.step] at hstep
      split at hstep
      · rename_i hle
        obtain rfl := Option.some.inj hstep
        exact ⟨hle, rfl, fun id entry hget _ => ⟨entry, hget, le_rfl⟩⟩
      · cases hstep
  | prune =>
      obtain rfl := Option.some.inj hstep
      exact ⟨le_rfl, pruneExpired_settings s.discovery s.now,
        fun id entry hget hfresh => ⟨entry, hprune id entry hget hfresh, le_rfl⟩⟩
  | discover timeout sendto =>
      simp only [ServiceState.step] at hstep
      split at hstep
      all_goals
        obtain rfl := Option.some.inj hstep
        exact ⟨le_rfl, rfl, fun id entry hget _ => ⟨entry, hget, le_rfl⟩⟩
  | collected call =>
      simp only [ServiceState.step] at hstep
      split at hstep
      · cases hstep
      · split at hstep
        · obtain rfl := Option.some.inj hstep
          rw [endDiscover_spec h.allAnchored]
          exact ⟨le_rfl, pruneExpired_settings s.discovery s.now,
            fun id entry hget hfresh => ⟨entry, hprune id entry hget hfresh, le_rfl⟩⟩
        · cases hstep
  | start localPeer endpoints socket =>
      obtain rfl := Option.some.inj hstep
      obtain ⟨hcache, -⟩ := start_spec s.discovery localPeer endpoints socket
      refine ⟨le_rfl, start_settings s.discovery localPeer endpoints socket,
        fun id entry hget _ => ⟨entry, ?_, le_rfl⟩⟩
      change (s.discovery.start localPeer endpoints socket).2.discovered.get? id = some entry
      rw [hcache]
      exact hget
  | stop => exact absurd rfl hlabel

/-- The entry, or a later one of the same peer, is there, or its TTL has passed. -/
theorem run_kept (h : CacheInv s) {id : Str} {entry : DiscoveredPeer F}
    (hget : s.discovery.discovered.get? id = some entry)
    (hrun : ReachableWhen ((ServiceState.system F).startingAt s) (fun _ label => label ≠ .stop) t) :
    CacheInv t ∧ ((∃ entry', t.discovery.discovered.get? id = some entry' ∧
        entry.observedAtMonotonic ≤ entry'.observedAtMonotonic) ∨
      Expired t.discovery t.now entry) := by
  induction hrun with
  | init heq =>
      obtain rfl := heq
      exact ⟨h, .inl ⟨entry, hget, le_rfl⟩⟩
  | @step u v label _ hlabel hstep ih =>
      obtain ⟨hu, hkept⟩ := ih
      obtain ⟨htime, hsettings, hkeep⟩ := step_kept hu hlabel hstep
      refine ⟨cacheInv_step hu hstep, ?_⟩
      -- Whoever was past the TTL stays so.
      have hlater : ∀ old : DiscoveredPeer F, entry.observedAtMonotonic ≤ old.observedAtMonotonic →
          Expired u.discovery u.now old → Expired v.discovery v.now entry := by
        rintro old hle ⟨ttl, httl, hlt⟩
        refine ⟨ttl, hsettings ▸ httl, lt_of_lt_of_le hlt ?_⟩
        exact sub_le_sub htime hle
      rcases hkept with ⟨old, hold, hle⟩ | hexpired
      · by_cases hexpired : Expired u.discovery u.now old
        · exact .inr (hlater old hle hexpired)
        · obtain ⟨new, hnew, hle'⟩ := hkeep id old hold hexpired
          exact .inl ⟨new, hnew, hle.trans hle'⟩
      · exact .inr (hlater entry le_rfl hexpired)

/-- The admission rules. -/
structure Admission (s : ServiceState F) : Prop where
  bounded : s.discovery.discovered.size ≤ s.discovery.settings.maxDiscoveredPeers
  keyed : ∀ id entry, s.discovery.discovered.get? id = some entry → entry.peer.id = id ∧
    ∃ localPeer, s.discovery.localPeer = some localPeer ∧ localPeer.id ≠ id
  lan : ∀ id entry, s.discovery.discovered.get? id = some entry →
    ∀ endpoint ∈ entry.endpoints, IsLanEndpoint endpoint
  /-- A datagram changes the entry it announces, or removes expired ones. -/
  datagram : ∀ data addr sendto t, s.step (.datagram data addr sendto) = some t → ∀ id,
    t.discovery.discovered.get? id = s.discovery.discovered.get? id ∨
    (∃ peer items metadata entry, Announces s.discovery data peer items metadata ∧
      peer.id = id ∧ t.discovery.discovered.get? id = some entry ∧ entry.peer = peer ∧
      entry.observedAtMonotonic = s.now.monotonic) ∨
    ∃ entry, s.discovery.discovered.get? id = some entry ∧ Expired s.discovery s.now entry ∧
      t.discovery.discovered.get? id = none
  /-- Until the service stops, an entry is there while its TTL has not passed. -/
  kept : ∀ id entry, s.discovery.discovered.get? id = some entry →
    ∀ t, ReachableWhen ((ServiceState.system F).startingAt s) (fun _ label => label ≠ .stop) t →
    ¬ Expired t.discovery t.now entry →
    ∃ entry', t.discovery.discovered.get? id = some entry' ∧
      entry.observedAtMonotonic ≤ entry'.observedAtMonotonic
  /-- Some datagram renews every entry. -/
  renewable : ∀ id entry, s.discovery.discovered.get? id = some entry →
    ∃ data peer items metadata, peer.id = id ∧ Renews s.discovery data peer items metadata
  /-- Whatever renews an entry is taken, also at capacity. -/
  renewed : ∀ data peer items metadata entry, Renews s.discovery data peer items metadata →
    s.discovery.discovered.get? peer.id = some entry → ∀ addr sendto,
    ∃ t, s.step (.datagram data addr sendto) = some t ∧
      t.discovery.discovered.get? peer.id =
        some (refreshed s.now entry peer (items.filterMap endpointOf) metadata)
  /-- `discover()` returns, and nothing past the TTL. -/
  discover : ∀ call t, s.step (.collected call) = some t →
    ∃ peers, (s.discovery.endDiscover s.now).1 = .ok peers ∧
      ∀ entry ∈ peers, ¬ Expired s.discovery s.now entry

/-- **The cache obeys its admission rules under any traffic.**  After every sequence
of datagrams, time steps, prunes, calls of `discover()`, starts and stops, the cache is
bounded and well keyed, with LAN endpoints only; the next datagram touches the entry it
announces and expired ones; entries stay until their TTL has passed and can be renewed;
and `discover()` returns none that is past the TTL. -/
theorem cache_admission (h : Reachable (ServiceState.system F) s) : Admission s := by
  have hinv := cacheInv_of_reachable h
  obtain ⟨-, -, hpruned⟩ := pruneExpired_spec hinv.allAnchored
  refine ⟨hinv.bounded, fun id entry hget => ?_, fun id entry hget => ?_, ?_, ?_,
    fun id entry hget => (hinv.admissible id entry hget).renewable, ?_, ?_⟩
  · exact ⟨(hinv.admissible id entry hget).key, (hinv.admissible id entry hget).remote⟩
  · exact (hinv.admissible id entry hget).lan
  · intro data addr sendto t hstep id
    simp only [ServiceState.step] at hstep
    split at hstep
    · obtain rfl := Option.some.inj hstep
      exact datagram_frame hinv rfl (datagramReceived_leaves ⟨s.now, sendto⟩ s.discovery data addr) id
    · cases hstep
  · intro id entry hget t hrun hfresh
    rcases (run_kept hinv hget hrun).2 with hkept | hexpired
    · exact hkept
    · exact absurd hexpired hfresh
  · intro data peer items metadata entry hrenews hget addr sendto
    refine ⟨_, if_pos (hinv.started hget), ?_⟩
    exact datagramReceived_refreshed hrenews hget
  · intro call t hstep
    refine ⟨_, by rw [endDiscover_spec hinv.allAnchored], fun entry hmem => ?_⟩
    obtain ⟨id, hget⟩ := (Dict.mem_values _).1 hmem
    exact ((hpruned id entry).1 hget).2

end Url

/-! ## A run -/

/-- An announcement of peer `b`. -/
def renewalPayload : List (Key SampleFloat × Value SampleFloat) :=
  [(.str paqtoKey, .int discoveryVersion),
    (.str kindKey, .str announceKind),
    (.str peerKey, .dict [(.str idKey, .str (ofChars ['b']))]),
    (.str endpointsKey, .list [sampleEndpoint balancedAddress])]

/-- The payload of the sample is JSON. -/
theorem renewalPayload_native : (Value.dict renewalPayload).Native := by
  simp [Value.Native, Value.NativeMembers, Value.NativeItems, renewalPayload, sampleEndpoint, paqtoKey,
    kindKey, peerKey, endpointsKey, transportKey, addressKey, ofChars]

/-- The datagram of `renewalPayload`. -/
def renewalDatagram : Bytes := ((dumps (.dict renewalPayload)).bind encodeUtf8).getD []

set_option maxRecDepth 8000 in
/-- The datagram of the sample is its text. -/
theorem renewalDatagram_eq : ∃ text, dumps (.dict renewalPayload) = some text ∧
    encodeUtf8 text = some renewalDatagram :=
  ⟨_, rfl, rfl⟩

set_option maxRecDepth 8000 in
/-- It is small enough. -/
theorem renewalDatagram_small : renewalDatagram.length ≤ maxUdpDatagramSize := by decide

/-- It is read. -/
theorem renewalDatagram_decodes : decodePacket renewalDatagram = some renewalPayload := by
  obtain ⟨text, htext, hdata⟩ := renewalDatagram_eq
  have hloads : loads uniqueJsonObject text = some (.dict renewalPayload) :=
    loads_dumps uniqueJsonObject_of_nodup renewalPayload_native htext
  have hbits : ¬ (Nat.log2 1 + 1 > 4096) := by decide
  have hsafe : isSafeJsonValue (.dict renewalPayload : Value SampleFloat) = true := by
    simp [isSafeJsonValue, Core.isSafeJsonValue, isSafeLoop, safeNested, renewalPayload,
      sampleEndpoint, maxJsonNesting, bitLength, maxJsonIntegerBits, discoveryVersion, hbits]
  rw [decodePacket, decodeUtf8_encodeUtf8 hdata, Option.bind_some, hloads]
  simp only [hsafe]
  rfl

/-- What the sample service announces. -/
def sampleAnnouncement : List (Key SampleFloat × Value SampleFloat) :=
  [(.str paqtoKey, .int discoveryVersion), (.str kindKey, .str announceKind),
    (.str peerKey, .dict [(.str idKey, .str (ofChars ['a'])), (.str nameKey, .none),
      (.str metadataKey, .dict [])]),
    (.str endpointsKey, .list []), (.str metadataKey, .dict [])]

set_option maxRecDepth 8000 in
/-- It can be written. -/
theorem encodePacket_sampleAnnouncement :
    ∃ data, encodePacket sampleSettings sampleAnnouncement = .ok data := by
  have hbits : ¬ (Nat.log2 1 + 1 > 4096) := by decide
  have hsafe : isSafeJsonValue (.dict sampleAnnouncement : Value SampleFloat) = true := by
    simp [isSafeJsonValue, Core.isSafeJsonValue, isSafeLoop, safeNested, sampleAnnouncement,
      maxJsonNesting, bitLength, maxJsonIntegerBits, discoveryVersion, hbits]
  rw [encodePacket, if_pos hsafe]
  exact ⟨_, rfl⟩

/-- The sample service is what a start as peer `a` leaves. -/
theorem sampleDiscovery_starts :
    ((LanDiscovery.new sampleSettings).start ⟨ofChars ['a'], none, []⟩ [] .opened).2 =
      sampleDiscovery := by
  obtain ⟨data, hdata⟩ := encodePacket_sampleAnnouncement
  have hencodes : ({ LanDiscovery.new sampleSettings with
      localPeer := some ⟨ofChars ['a'], none, []⟩, endpoints := [] } :
        LanDiscovery SampleFloat).ensureAnnounceIsSerializable = .ok () := by
    change (encodePacket sampleSettings sampleAnnouncement).bind (fun _ => .ok ()) = _
    rw [hdata]
    rfl
  have hcopied : copyValidEndpoints ([] : List (Endpoint SampleFloat)) = .ok [] := rfl
  have hid : ¬ ofChars ['a'] = [] := by decide
  simp only [LanDiscovery.start, if_neg hid, hcopied]
  rw [hencodes]
  rfl

/-- The sample service that has just started. -/
def sampleService : ServiceState SampleFloat := ⟨sampleDiscovery, ⟨0, 0⟩, 1, []⟩

/-- The sample service when peer `b` has been heard. -/
def sampleHeard : ServiceState SampleFloat :=
  { sampleService with
    discovery := (datagramReceived sampleEnvironment sampleDiscovery renewalDatagram none).discovery }

/-- A run that receives it. -/
theorem sampleHeard_reachable : Reachable (ServiceState.system SampleFloat) sampleHeard := by
  have hstart : Reachable (ServiceState.system SampleFloat) sampleService := by
    refine Reachable.next (.init ⟨sampleSettings, ⟨0, 0⟩, 1, rfl⟩)
      (.start ⟨ofChars ['a'], none, []⟩ [] .opened) ?_
    have hstep : ∀ d, some { sampleService with discovery := d } = some sampleService ↔
        d = sampleDiscovery := by
      intro d
      simp [sampleService]
    exact (hstep _).2 sampleDiscovery_starts
  exact hstart.next (.datagram renewalDatagram none fun _ _ => none) rfl

/-- **A run.**  Peer `a` starts and hears of peer `b`; its cache holds `b`, and obeys
the rules. -/
theorem cache_admission_sample :
    (sampleHeard.discovery.discovered.get? (ofChars ['b'])).isSome ∧ Admission sampleHeard := by
  refine ⟨?_, cache_admission sampleHeard_reachable⟩
  have hsize : ¬ renewalDatagram.length > sampleDiscovery.settings.maxDatagramSize :=
    Nat.not_lt.2 renewalDatagram_small
  rw [sampleHeard, datagramReceived, if_neg hsize, renewalDatagram_decodes]
  decide

end Lan
end Paqto
