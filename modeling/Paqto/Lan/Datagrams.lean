/-
# No datagram makes discovery fail, but for two `ValueError`s

`_datagram_received` ignores what is not a well-formed announcement of another
peer, and of an announcement it takes the valid endpoints and skips the others
(`datagramReceived_total`).  Two `ValueError`s leave it.  `_parse_endpoint`
catches the `TransportError`s of `parse_tcp_address` and not the `ValueError` of
`urlparse`, so an endpoint with a malformed network location hides the whole
announcement; and expiry meets a timestamp that the application has left without
a time zone.
-/

import Paqto.Core.Negotiation
import Paqto.Lan.Discovery

namespace Paqto
namespace Lan

open Python Paqto.Core

variable {F : Type} [PyFloat F]

/-! ## Endpoints -/

section Url

variable [UrlLib]

/-- The endpoint of a valid entry: a LAN endpoint whose address is a TCP address
and whose metadata, if any, is a dict. -/
def endpointOf : Value F → Option (Endpoint F)
  | .dict members =>
      if isStr (dictGet members transportKey) transportName then
        match dictGet members addressKey, optionalDict (dictGet members metadataKey) with
        | some (.str address), some metadata =>
            match parseTcpAddress address with
            | .ok _ => some ⟨transportName, address, metadata⟩
            | .error _ => none
        | _, _ => none
      else none
  | _ => none

/-- The entry is a LAN endpoint whose address `urlparse` raises on. -/
def MalformedUrl (item : Value F) : Prop :=
  ∃ members address, item = .dict members ∧
    isStr (dictGet members transportKey) transportName = true ∧
    dictGet members addressKey = some (.str address) ∧ UrlLib.urlparse address = none

omit [PyFloat F] in
/-- **An entry raises, or gives its endpoint, or is skipped.** -/
theorem parseEndpoint_spec (item : Value F) :
    (MalformedUrl item ∧ parseEndpoint item = .error .malformedUrl) ∨
      (¬ MalformedUrl item ∧ parseEndpoint item = .ok (endpointOf item)) := by
  cases item with
  | dict members =>
      by_cases ht : isStr (dictGet members transportKey) transportName = true
      · simp only [parseEndpoint, endpointOf, ht, Bool.not_true, Bool.false_eq_true, if_false,
          if_true]
        have hother : ∀ {v : Option (Value F)}, dictGet members addressKey = v →
            (∀ address, v ≠ some (.str address)) → ¬ MalformedUrl (.dict members) := by
          rintro v hv hne ⟨_, address, ⟨⟩, _, haddr, _⟩
          exact hne address (hv.symm.trans haddr)
        cases ha : dictGet members addressKey with
        | none => exact Or.inr ⟨hother ha (by simp), rfl⟩
        | some v =>
            cases v with
            | str address =>
                have hurl' : parseTcpAddress address ≠ .error .valueError →
                    ¬ MalformedUrl (.dict members) := by
                  rintro hne ⟨_, address', ⟨⟩, _, haddr, hnone⟩
                  obtain rfl : address = address' := by simpa [ha] using haddr
                  exact hne (parseTcpAddress_eq_valueError.2 hnone)
                cases hurl : parseTcpAddress address with
                | error e =>
                    cases e with
                    | valueError =>
                        refine Or.inl ⟨⟨members, address, rfl, ht, ha, ?_⟩, ?_⟩
                        · exact parseTcpAddress_eq_valueError.1 hurl
                        · simp only [hurl]
                    | _ =>
                        refine Or.inr ⟨hurl' (by simp [hurl]), ?_⟩
                        simp only [hurl]
                        cases optionalDict (dictGet members metadataKey) <;> simp [hurl]
                | ok a =>
                    refine Or.inr ⟨hurl' (by simp [hurl]), ?_⟩
                    simp only [hurl]
                    cases optionalDict (dictGet members metadataKey) <;> simp [hurl]
            | _ => exact Or.inr ⟨hother ha (by simp), rfl⟩
      · rw [Bool.not_eq_true] at ht
        refine Or.inr ⟨?_, by simp [parseEndpoint, endpointOf, ht]⟩
        rintro ⟨_, _, ⟨⟩, ht', _⟩
        rw [ht] at ht'
        cases ht'
  | _ =>
      refine Or.inr ⟨?_, rfl⟩
      rintro ⟨_, _, ⟨⟩, _⟩

omit [PyFloat F] in
/-- **The loop gives the valid entries, or raises on the first malformed one.** -/
theorem parseEndpointItems_spec (items : List (Value F)) :
    ((∃ item ∈ items, MalformedUrl item) ∧ parseEndpointItems items = .error .malformedUrl) ∨
      ((∀ item ∈ items, ¬ MalformedUrl item) ∧
        parseEndpointItems items = .ok (items.filterMap endpointOf)) := by
  induction items with
  | nil => exact Or.inr ⟨by simp, rfl⟩
  | cons item items ih =>
      rcases parseEndpoint_spec item with ⟨hbad, hraise⟩ | ⟨hgood, hok⟩
      · refine Or.inl ⟨⟨item, List.mem_cons_self, hbad⟩, ?_⟩
        rw [parseEndpointItems, hraise]
        rfl
      · rcases ih with ⟨⟨bad, hmem, hbad⟩, hraise⟩ | ⟨hall, hrest⟩
        · refine Or.inl ⟨⟨bad, List.mem_cons_of_mem _ hmem, hbad⟩, ?_⟩
          rw [parseEndpointItems, hok, hraise]
          rfl
        · refine Or.inr ⟨by simpa using ⟨hgood, hall⟩, ?_⟩
          rw [parseEndpointItems, hok, hrest, List.filterMap_cons]
          cases endpointOf item <;> rfl

end Url

/-! ## Expiry -/

/-- A timestamp without a time zone. -/
def HasNaive (items : List (Str × DiscoveredPeer F)) : Prop :=
  ∃ entry ∈ items, entry.2.lastSeen.aware = false

omit [PyFloat F] in
/-- **Expiry raises exactly when it meets a timestamp without a time zone.** -/
theorem pruneLoop_raised (ttl : ℚ) (now : Now) (items : List (Str × DiscoveredPeer F))
    (cache : Dict Str (DiscoveredPeer F)) :
    (pruneLoop ttl now items cache).1 = none ↔ ¬ HasNaive items := by
  induction items generalizing cache with
  | nil => simp [pruneLoop, HasNaive]
  | cons entry items ih =>
      obtain ⟨peerId, discovered⟩ := entry
      cases haware : discovered.lastSeen.aware with
      | false =>
          have hnone : discovered.isFresh ttl now = none := by
            simp [DiscoveredPeer.isFresh, haware]
          have hnaive : HasNaive ((peerId, discovered) :: items) :=
            ⟨_, List.mem_cons_self, haware⟩
          simp [pruneLoop, hnone, hnaive]
      | true =>
          have hcons : HasNaive ((peerId, discovered) :: items) ↔ HasNaive items := by
            simp [HasNaive, haware]
          rw [hcons]
          have hsome : ∃ b, discovered.isFresh ttl now = some b := by
            simp [DiscoveredPeer.isFresh, haware]
          obtain ⟨b, hb⟩ := hsome
          cases b <;> simp [pruneLoop, hb, ih]

/-- Expiry is on, and some entry has a timestamp without a time zone. -/
def NaiveExpiry (d : LanDiscovery F) : Prop :=
  d.settings.peerTtl ≠ none ∧ HasNaive d.discovered.items

omit [PyFloat F] in
/-- **When `_prune_expired` raises.** -/
theorem pruneExpired_raised (d : LanDiscovery F) (now : Now) :
    (pruneExpired d now).1 = none ↔ ¬ NaiveExpiry d := by
  unfold pruneExpired NaiveExpiry
  cases httl : d.settings.peerTtl with
  | none => simp
  | some ttl =>
      simp only [ne_eq, reduceCtorEq, not_false_eq_true, true_and]
      exact pruneLoop_raised ttl now d.discovered.items d.discovered

omit [PyFloat F] in
/-- It changes no setting. -/
theorem pruneExpired_settings (d : LanDiscovery F) (now : Now) :
    (pruneExpired d now).2.settings = d.settings := by
  unfold pruneExpired
  split <;> rfl

/-! ## Announcements -/

/-- The datagram is an announcement of another peer, with a list of endpoints. -/
structure Declares (d : LanDiscovery F) (data : Bytes) (payload : List (Key F × Value F))
    (peer : Peer F) (items : List (Value F)) : Prop where
  small : data.length ≤ d.settings.maxDatagramSize
  decoded : decodePacket data = some payload
  kind : isStr (dictGet payload kindKey) announceKind = true
  declared : parsePeer (dictGet payload peerKey) = some peer
  remote : ∃ localPeer, d.localPeer = some localPeer ∧ peer.id ≠ localPeer.id
  endpoints : dictGet payload endpointsKey = some (.list items)

/-- The datagram is a well-formed announcement of another peer. -/
structure Announces (d : LanDiscovery F) (data : Bytes) (peer : Peer F) (items : List (Value F))
    (metadata : List (Key F × Value F)) : Prop where
  payload : ∃ payload, Declares d data payload peer items ∧
    optionalDict (dictGet payload metadataKey) = some metadata

/-- The cache has the peer, or room for it once it is pruned. -/
def Admitted (d : LanDiscovery F) (now : Now) (peerId : Str) : Prop :=
  d.discovered.get? peerId ≠ none ∨
    (pruneExpired d now).2.discovered.size < d.settings.maxDiscoveredPeers

/-- The datagram reaches a `ValueError` that nothing catches: a malformed network
location among the endpoints of another peer, or expiry for a new peer while some
timestamp has no time zone. -/
def ReachesValueError [UrlLib] (d : LanDiscovery F) (data : Bytes) : Prop :=
  (∃ payload peer items, Declares d data payload peer items ∧
    ∃ item ∈ items, MalformedUrl item) ∨
  (∃ peer items metadata, Announces d data peer items metadata ∧
    d.discovered.get? peer.id = none ∧ NaiveExpiry d)

/-- The callback returns; only a well-formed announcement changes the cache; and
an admitted one is cached with its valid endpoints, the others skipped. -/
structure Tolerates [UrlLib] (env : Environment) (d : LanDiscovery F) (data : Bytes)
    (addr : Option SocketAddress) : Prop where
  returns : (datagramReceived env d data addr).raised = none
  unchanged : (∀ peer items metadata, ¬ Announces d data peer items metadata) →
    (datagramReceived env d data addr).discovery = d
  cached : ∀ peer items metadata, Announces d data peer items metadata →
    Admitted d env.now peer.id →
    ∃ entry, (datagramReceived env d data addr).discovery.discovered.get? peer.id = some entry ∧
      entry.peer = peer ∧ entry.endpoints = items.filterMap endpointOf ∧ entry.metadata = metadata

omit [PyFloat F] in
/-- A packet that is ignored raises nothing. -/
@[simp] theorem ignored_raised (d : LanDiscovery F) : (ignored d).raised = none := rfl

omit [PyFloat F] in
/-- It changes nothing. -/
@[simp] theorem ignored_discovery (d : LanDiscovery F) : (ignored d).discovery = d := rfl

omit [PyFloat F] in
/-- **What is declared is cached, unless expiry raises.** -/
theorem cacheAnnounce_spec (now : Now) (d : LanDiscovery F) (peer : Peer F)
    (endpoints : List (Endpoint F)) (metadata : List (Key F × Value F)) :
    ((cacheAnnounce now d peer endpoints metadata).raised = none ↔
      ¬ (d.discovered.get? peer.id = none ∧ NaiveExpiry d)) ∧
    ((cacheAnnounce now d peer endpoints metadata).raised = none → Admitted d now peer.id →
      ∃ entry, (cacheAnnounce now d peer endpoints metadata).discovery.discovered.get? peer.id =
          some entry ∧
        entry.peer = peer ∧ entry.endpoints = endpoints ∧ entry.metadata = metadata) := by
  have hprune := pruneExpired_raised d now
  have hset := pruneExpired_settings d now
  cases hget : d.discovered.get? peer.id with
  | some entry =>
      refine ⟨by simp [cacheAnnounce, hget], fun _ _ => ?_⟩
      simp only [cacheAnnounce, hget, ignored_discovery, Dict.get?_set, if_true, Option.some.injEq,
        exists_eq_left']
      exact ⟨rfl, rfl, rfl⟩
  | none =>
      rcases hp : pruneExpired d now with ⟨raised, pruned⟩
      rw [hp] at hprune hset
      cases raised with
      | some e =>
          have hnaive : NaiveExpiry d := by
            by_contra hn
            cases hprune.2 hn
          simp [cacheAnnounce, hget, hp, hnaive]
      | none =>
          have hnaive : ¬ NaiveExpiry d := hprune.1 rfl
          refine ⟨?_, fun _ hadm => ?_⟩
          · simp only [cacheAnnounce, hget, hp, hnaive, and_false, not_false_eq_true, iff_true]
            split <;> rfl
          · have hroom : pruned.discovered.size < pruned.settings.maxDiscoveredPeers := by
              rcases hadm with hadm | hadm
              · exact absurd hget hadm
              · rw [hp] at hadm
                exact hset ▸ hadm
            simp only [cacheAnnounce, hget, hp, if_neg (Nat.not_le.2 hroom), ignored_discovery,
              Dict.get?_set, if_true, Option.some.injEq, exists_eq_left']
            exact ⟨rfl, rfl, rfl⟩

/-- A datagram declares one peer and one list of endpoints. -/
theorem Declares.unique {d : LanDiscovery F} {data : Bytes} {payload payload' : List (Key F × Value F)}
    {peer peer' : Peer F} {items items' : List (Value F)}
    (h : Declares d data payload peer items) (h' : Declares d data payload' peer' items') :
    payload = payload' ∧ peer = peer' ∧ items = items' := by
  obtain rfl : payload = payload' := Option.some.inj (h.decoded.symm.trans h'.decoded)
  have hitems := Option.some.inj (h.endpoints.symm.trans h'.endpoints)
  exact ⟨rfl, Option.some.inj (h.declared.symm.trans h'.declared), Value.list.inj hitems⟩

/-- A request raises nothing. -/
theorem handleDiscover_ignored (env : Environment) (d : LanDiscovery F)
    (payload : List (Key F × Value F)) (addr : Option SocketAddress) :
    (handleDiscover env d payload addr).raised = none ∧
      (handleDiscover env d payload addr).discovery = d := by
  unfold handleDiscover
  repeat' split
  all_goals exact ⟨rfl, rfl⟩

section Url

variable [UrlLib]

/-- What `_handle_announce` does with the announcement of another peer. -/
theorem handleAnnounce_declared {d : LanDiscovery F} {data : Bytes}
    {payload : List (Key F × Value F)} {peer : Peer F} {items : List (Value F)} (now : Now)
    (h : Declares d data payload peer items) :
    ((∃ item ∈ items, MalformedUrl item) ∧
      handleAnnounce now d payload = ⟨some .malformedUrl, d, none⟩) ∨
    ((∀ item ∈ items, ¬ MalformedUrl item) ∧
      handleAnnounce now d payload =
        match optionalDict (dictGet payload metadataKey) with
        | none => ignored d
        | some metadata => cacheAnnounce now d peer (items.filterMap endpointOf) metadata) := by
  obtain ⟨localPeer, hlocal, hne⟩ := h.remote
  rcases parseEndpointItems_spec items with ⟨hbad, hraise⟩ | ⟨hgood, hok⟩
  · refine Or.inl ⟨hbad, ?_⟩
    simp only [handleAnnounce, hlocal, h.declared, if_neg hne, h.endpoints, parseEndpoints, hraise]
    rfl
  · refine Or.inr ⟨hgood, ?_⟩
    simp only [handleAnnounce, hlocal, h.declared, if_neg hne, h.endpoints, parseEndpoints, hok]
    rfl

/-- What is not the announcement of another peer changes nothing. -/
theorem handleAnnounce_ignored {d : LanDiscovery F} {data : Bytes}
    {payload : List (Key F × Value F)} (now : Now)
    (hsmall : data.length ≤ d.settings.maxDatagramSize) (hdec : decodePacket data = some payload)
    (hkind : isStr (dictGet payload kindKey) announceKind = true)
    (h : ∀ peer items, ¬ Declares d data payload peer items) :
    handleAnnounce now d payload = ignored d := by
  unfold handleAnnounce
  split
  · rfl
  · rename_i localPeer hlocal
    split
    · rfl
    · rename_i peer hpeer
      split
      · rfl
      · rename_i hne
        cases hlist : dictGet payload endpointsKey with
        | none => rfl
        | some v =>
            cases v with
            | list items =>
                exact absurd ⟨hsmall, hdec, hkind, hpeer, ⟨localPeer, hlocal, hne⟩, hlist⟩
                  (h peer items)
            | _ => rfl

/-- A datagram is the announcement of another peer, or changes nothing. -/
theorem datagramReceived_cases (env : Environment) (d : LanDiscovery F) (data : Bytes)
    (addr : Option SocketAddress) :
    (∃ payload peer items, Declares d data payload peer items ∧
      datagramReceived env d data addr = handleAnnounce env.now d payload) ∨
    ((∀ payload peer items, ¬ Declares d data payload peer items) ∧
      (datagramReceived env d data addr).raised = none ∧
      (datagramReceived env d data addr).discovery = d) := by
  by_cases hsize : data.length > d.settings.maxDatagramSize
  · refine Or.inr ⟨fun _ _ _ h => absurd h.small (Nat.not_le.2 hsize), ?_⟩
    simp [datagramReceived, hsize]
  · cases hdec : decodePacket (F := F) data with
    | none =>
        refine Or.inr ⟨fun _ _ _ h => ?_, ?_⟩
        · have hsome := h.decoded
          rw [hdec] at hsome
          cases hsome
        · simp [datagramReceived, hsize, hdec]
    | some payload =>
        have hdecl : ∀ {payload' peer items}, Declares d data payload' peer items →
            payload' = payload ∧ isStr (dictGet payload kindKey) announceKind = true := by
          intro payload' peer items h
          obtain rfl : payload = payload' := Option.some.inj (hdec.symm.trans h.decoded)
          exact ⟨rfl, h.kind⟩
        by_cases hdisc : isStr (dictGet payload kindKey) discoverKind = true
        · have hann : isStr (dictGet payload kindKey) announceKind = false := by
            unfold isStr at hdisc ⊢
            split at hdisc
            · simp only [decide_eq_true_eq] at hdisc
              rw [hdisc]
              rfl
            · cases hdisc
          refine Or.inr ⟨fun _ _ _ h => ?_, ?_⟩
          · have hkind := (hdecl h).2
            rw [hann] at hkind
            cases hkind
          · simp only [datagramReceived, if_neg hsize, hdec, if_pos hdisc]
            exact handleDiscover_ignored env d payload addr
        · by_cases hann : isStr (dictGet payload kindKey) announceKind = true
          · have heq : datagramReceived env d data addr = handleAnnounce env.now d payload := by
              simp only [datagramReceived, if_neg hsize, hdec, if_neg hdisc, if_pos hann]
            by_cases hex : ∃ peer items, Declares d data payload peer items
            · obtain ⟨peer, items, h⟩ := hex
              exact Or.inl ⟨payload, peer, items, h, heq⟩
            · have hnone : ∀ peer items, ¬ Declares d data payload peer items :=
                fun peer items h => hex ⟨peer, items, h⟩
              refine Or.inr ⟨fun payload' peer items h => ?_, ?_⟩
              · obtain ⟨rfl, _⟩ := hdecl h
                exact hnone peer items h
              · rw [heq, handleAnnounce_ignored env.now (Nat.le_of_not_lt hsize) hdec hann hnone]
                exact ⟨rfl, rfl⟩
          · refine Or.inr ⟨fun _ _ _ h => hann (hdecl h).2, ?_⟩
            simp [datagramReceived, hsize, hdec, hdisc, hann]

/-- **A datagram cannot make discovery fail, unless it reaches one of two
`ValueError`s.**  For every state, datagram and sender: the callback returns,
changes the cache for well-formed announcements only, and caches the valid
endpoints of an admitted one, exactly when the datagram does not reach the
`ValueError` of `urlparse` or that of a timestamp without a time zone. -/
theorem datagramReceived_total (env : Environment) (d : LanDiscovery F) (data : Bytes)
    (addr : Option SocketAddress) :
    Tolerates env d data addr ↔ ¬ ReachesValueError d data := by
  rcases datagramReceived_cases env d data addr with
    ⟨payload, peer, items, hdecl, heq⟩ | ⟨hnone, hret, hsame⟩
  · rcases handleAnnounce_declared env.now hdecl with ⟨hbad, hraise⟩ | ⟨hgood, hhandle⟩
    · refine iff_of_false (fun h => ?_) (fun h => h (Or.inl ⟨payload, peer, items, hdecl, hbad⟩))
      have hreturns := h.returns
      rw [heq, hraise] at hreturns
      cases hreturns
    · have hurl : ¬ ∃ payload peer items, Declares d data payload peer items ∧
          ∃ item ∈ items, MalformedUrl item := by
        rintro ⟨_, _, _, h, item, hmem, hitem⟩
        obtain ⟨_, _, rfl⟩ := hdecl.unique h
        exact hgood item hmem hitem
      cases hmeta : optionalDict (dictGet payload metadataKey) with
      | none =>
          have hann : ∀ peer items metadata, ¬ Announces d data peer items metadata := by
            rintro _ _ _ ⟨_, h, hm⟩
            obtain ⟨rfl, _, _⟩ := hdecl.unique h
            rw [hmeta] at hm
            cases hm
          simp only [hmeta] at hhandle
          refine iff_of_true ⟨?_, fun _ => ?_, fun _ _ _ h => absurd h (hann _ _ _)⟩ ?_
          · rw [heq, hhandle]
            rfl
          · rw [heq, hhandle]
            rfl
          · rintro (h | ⟨_, _, _, h, _⟩)
            · exact hurl h
            · exact hann _ _ _ h
      | some metadata =>
          have hann : Announces d data peer items metadata := ⟨payload, hdecl, hmeta⟩
          have huniq : ∀ {peer' items' metadata'}, Announces d data peer' items' metadata' →
              peer' = peer ∧ items' = items ∧ metadata' = metadata := by
            rintro _ _ _ ⟨_, h, hm⟩
            obtain ⟨rfl, rfl, rfl⟩ := hdecl.unique h
            exact ⟨rfl, rfl, Option.some.inj (hm.symm.trans hmeta)⟩
          simp only [hmeta] at hhandle
          obtain ⟨hraised, hcached⟩ := cacheAnnounce_spec env.now d peer
            (items.filterMap endpointOf) metadata
          rw [← hhandle, ← heq] at hraised hcached
          constructor
          · rintro h (hbad | ⟨_, _, _, hann', hfull, hnaive⟩)
            · exact hurl hbad
            · obtain ⟨rfl, _, _⟩ := huniq hann'
              exact hraised.1 h.returns ⟨hfull, hnaive⟩
          · intro h
            have hret : (datagramReceived env d data addr).raised = none :=
              hraised.2 fun hn => h (Or.inr ⟨peer, items, metadata, hann, hn⟩)
            refine ⟨hret, fun hno => absurd hann (hno _ _ _), fun _ _ _ hann' hadm => ?_⟩
            obtain ⟨rfl, rfl, rfl⟩ := huniq hann'
            exact hcached hret hadm
  · refine iff_of_true ⟨hret, fun _ => hsame, ?_⟩ ?_
    · rintro _ _ _ ⟨_, h, _⟩ _
      exact absurd h (hnone _ _ _)
    · rintro (⟨_, _, _, h, _⟩ | ⟨_, _, _, ⟨_, h, _⟩, _⟩)
      · exact hnone _ _ _ h
      · exact hnone _ _ _ h

end Url

/-! ## An announcement that is lost -/

/-- `urlparse` on addresses that start with `tcp://`: a network location with an
unbalanced bracket raises, and `HOST:PORT` is taken apart. -/
def sampleUrlparse (address : Str) : Option ParseResult :=
  let netloc := address.drop 6
  if 91 ∈ netloc ∧ 93 ∉ netloc ∨ 93 ∈ netloc ∧ 91 ∉ netloc then none
  else some
    { scheme := address.take 3
      path := []
      params := []
      query := []
      fragment := []
      username := none
      password := none
      hostname := some (netloc.takeWhile (· ≠ 58))
      port := some (some (digitsValue (netloc.dropWhile (· ≠ 58)).tail)) }

/-- `urlparse` for the samples. -/
instance sampleUrlLib : UrlLib := ⟨sampleUrlparse⟩

/-- Default settings. -/
def sampleSettings : Settings SampleFloat where
  broadcastAddress := ⟨ofChars ['2', '5', '5', '.', '2', '5', '5', '.', '2', '5', '5', '.', '2', '5', '5'], 37020⟩
  metadata := []
  maxDatagramSize := maxUdpDatagramSize
  maxDatagramSize_pos := by decide
  maxDatagramSize_le := le_refl _
  peerTtl := some 60
  peerTtl_pos := by simp
  maxDiscoveredPeers := 1024
  maxDiscoveredPeers_pos := by decide

/-- A service that has just started, as peer `a`. -/
def sampleDiscovery : LanDiscovery SampleFloat where
  settings := sampleSettings
  localPeer := some ⟨ofChars ['a'], none, []⟩
  endpoints := []
  discovered := Dict.empty
  started := true

/-- A clock and a socket. -/
def sampleEnvironment : Environment := ⟨⟨0, 0⟩, fun _ _ => none⟩

/-- `tcp://[` -/
def unbalancedAddress : Str := ofChars ['t', 'c', 'p', ':', '/', '/', '[']

/-- `tcp://10.0.0.2:9000` -/
def balancedAddress : Str :=
  ofChars ['t', 'c', 'p', ':', '/', '/', '1', '0', '.', '0', '.', '0', '.', '2', ':',
    '9', '0', '0', '0']

/-- An endpoint at an address. -/
def sampleEndpoint (address : Str) : Value SampleFloat :=
  .dict [(.str transportKey, .str transportName), (.str addressKey, .str address)]

/-- An announcement of peer `b` with a malformed endpoint and a valid one. -/
def samplePayload : List (Key SampleFloat × Value SampleFloat) :=
  [(.str paqtoKey, .int discoveryVersion),
    (.str kindKey, .str announceKind),
    (.str peerKey, .dict [(.str idKey, .str (ofChars ['b']))]),
    (.str endpointsKey, .list [sampleEndpoint unbalancedAddress, sampleEndpoint balancedAddress])]

/-- The payload of the sample is JSON. -/
theorem samplePayload_native : (Value.dict samplePayload).Native := by
  simp [Value.Native, Value.NativeMembers, Value.NativeItems, samplePayload, sampleEndpoint, paqtoKey,
    kindKey, peerKey, endpointsKey, transportKey, addressKey, ofChars]

/-- The datagram of `samplePayload`. -/
def sampleDatagram : Bytes := ((dumps (.dict samplePayload)).bind encodeUtf8).getD []

set_option maxRecDepth 8000 in
/-- The datagram of the sample is its text. -/
theorem sampleDatagram_eq : ∃ text, dumps (.dict samplePayload) = some text ∧
    encodeUtf8 text = some sampleDatagram :=
  ⟨_, rfl, rfl⟩

set_option maxRecDepth 8000 in
/-- It is small enough. -/
theorem sampleDatagram_small : sampleDatagram.length ≤ maxUdpDatagramSize := by decide

/-- It is read. -/
theorem sampleDatagram_decodes : decodePacket sampleDatagram = some samplePayload := by
  obtain ⟨text, htext, hdata⟩ := sampleDatagram_eq
  have hloads : loads uniqueJsonObject text = some (.dict samplePayload) :=
    loads_dumps uniqueJsonObject_of_nodup samplePayload_native htext
  have hbits : ¬ (Nat.log2 1 + 1 > 4096) := by decide
  have hsafe : isSafeJsonValue (.dict samplePayload : Value SampleFloat) = true := by
    simp [isSafeJsonValue, Core.isSafeJsonValue, isSafeLoop, safeNested, samplePayload,
      sampleEndpoint, maxJsonNesting, bitLength, maxJsonIntegerBits, discoveryVersion, hbits]
  rw [decodePacket, decodeUtf8_encodeUtf8 hdata, Option.bind_some, hloads]
  simp only [hsafe]
  rfl

/-- It is an announcement of two endpoints. -/
theorem sampleDatagram_declares : ∃ peer, Declares sampleDiscovery sampleDatagram samplePayload peer
    [sampleEndpoint unbalancedAddress, sampleEndpoint balancedAddress] :=
  ⟨⟨ofChars ['b'], none, []⟩, sampleDatagram_small, sampleDatagram_decodes, rfl, rfl,
    ⟨_, rfl, by decide⟩, rfl⟩

/-- **A datagram that makes the callback raise**, in a service that has just
started, for every sender. -/
theorem datagramReceived_raises (addr : Option SocketAddress) :
    (datagramReceived sampleEnvironment sampleDiscovery sampleDatagram addr).raised =
      some .malformedUrl := by
  obtain ⟨peer, hdecl⟩ := sampleDatagram_declares
  have hbad : ∃ item ∈ [sampleEndpoint unbalancedAddress, sampleEndpoint balancedAddress],
      MalformedUrl item :=
    ⟨_, List.mem_cons_self, _, _, rfl, rfl, rfl, by decide⟩
  have hhandle : handleAnnounce sampleEnvironment.now sampleDiscovery samplePayload =
      ⟨some .malformedUrl, sampleDiscovery, none⟩ := by
    rcases handleAnnounce_declared sampleEnvironment.now hdecl with ⟨_, h⟩ | ⟨hgood, _⟩
    · exact h
    · obtain ⟨item, hmem, hitem⟩ := hbad
      exact absurd hitem (hgood item hmem)
  have hsize : ¬ sampleDatagram.length > sampleDiscovery.settings.maxDatagramSize :=
    Nat.not_lt.2 sampleDatagram_small
  have hdisc : isStr (dictGet samplePayload kindKey) discoverKind = false := by decide
  have hann : isStr (dictGet samplePayload kindKey) announceKind = true := by decide
  rw [datagramReceived, if_neg hsize, sampleDatagram_decodes]
  simp only [hdisc, hann, hhandle, Bool.false_eq_true, if_false, if_true]

/-- Not every datagram is tolerated: with `urlparse` raising on `tcp://[`, an
announcement with that address and a valid one makes the callback raise. -/
theorem datagramReceived_not_total :
    ¬ ∀ (env : Environment) (d : LanDiscovery SampleFloat) (data : Bytes)
      (addr : Option SocketAddress), Tolerates env d data addr := by
  intro h
  have hret := (h sampleEnvironment sampleDiscovery sampleDatagram none).returns
  rw [datagramReceived_raises] at hret
  cases hret

end Lan
end Paqto
