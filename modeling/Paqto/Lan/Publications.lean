/-
# What discovery services publish

A service that is started announces its peer and the LAN endpoints of it, and answers
the requests of other peers with the same announcement.  What was started with encodable
strings and plain metadata comes back from its packets as it is, and other services take
it (`renews_announcement`); a request is answered (`datagramReceived_request`).
-/

import Paqto.Lan.Acceptance
import Paqto.Lan.DiscoveryCache
import Paqto.Python.JsonAtoms

namespace Paqto
namespace Lan

open Python Paqto.Core

variable {F : Type} [PyFloat F]

/-! ## Publications -/

/-- What a service publishes while it is started. -/
structure Publication (F : Type) where
  peer : Peer F
  endpoints : List (Endpoint F)

/-- The packet of `_send_discover`. -/
def requestPayload (localPeer : Peer F) : List (Key F × Value F) :=
  [(.str paqtoKey, .int discoveryVersion), (.str kindKey, .str discoverKind),
    (.str peerIdKey, .str localPeer.id)]

/-- What `_send_discover` sends. -/
def sentRequest (env : Environment) (d : LanDiscovery F) : List Bytes :=
  match d.localPeer with
  | none => []
  | some localPeer =>
      (sendPacket env d (requestPayload localPeer) d.settings.broadcastAddress).toOption.toList

/-- What a call of `start()` has published. -/
def newPublication (d d' : LanDiscovery F) : List (Publication F) :=
  if !d.started && d'.started then d'.localPeer.toList.map fun peer => ⟨peer, d'.endpoints⟩ else []

/-- What a peer is started with: encodable strings and plain metadata. -/
structure Textual (peer : Peer F) (endpoints : List (Endpoint F)) : Prop where
  id : Encodable peer.id
  name : ∀ name, peer.name = some name → Encodable name
  metadata : (Value.dict peer.metadata).Plain
  endpoints : ∀ endpoint ∈ endpoints, Encodable endpoint.address ∧
    (Value.dict endpoint.metadata).Plain

/-! ## Packets come back -/

section packets

/-- A packet of plain data is decoded to its payload. -/
theorem decodePacket_plain {settings : Settings F} {payload : List (Key F × Value F)} {data : Bytes}
    (hplain : (Value.dict payload).Plain) (hversion : isDiscoveryVersion (dictGet payload paqtoKey) = true)
    (h : encodePacket settings payload = .ok data) : decodePacket data = some payload := by
  obtain ⟨text, htext, hutf, -⟩ := encodePacket_ok h
  have hsafe : Safe 0 (.dict payload) := by
    unfold encodePacket at h
    split at h
    · rename_i hsafe
      exact (isSafeJsonValue_iff _).1 hsafe
    · cases h
  exact (decodePacket_iff htext hutf).2
    ⟨reread_encodable uniqueJsonObject_of_nodup _ hplain.native hplain.encodable, hsafe, hversion⟩

/-- The payload of an announcement. -/
def announcement (metadata : List (Key F × Value F)) (publication : Publication F) :
    List (Key F × Value F) :=
  [(.str paqtoKey, .int discoveryVersion),
    (.str kindKey, .str announceKind),
    (.str peerKey, .dict
      [(.str idKey, .str publication.peer.id),
        (.str nameKey, (publication.peer.name.map .str).getD .none),
        (.str metadataKey, .dict publication.peer.metadata)]),
    (.str endpointsKey, .list (publication.endpoints.map endpointPayload)),
    (.str metadataKey, .dict metadata)]

omit [PyFloat F] in
/-- What a started discovery announces. -/
theorem announcePayload_eq {d : LanDiscovery F} {peer : Peer F} (h : d.localPeer = some peer) :
    announcePayload d = .ok (announcement d.settings.metadata ⟨peer, d.endpoints⟩) := by
  unfold announcePayload
  rw [h]
  rfl

omit [PyFloat F] in
/-- A request is plain. -/
theorem requestPayload_plain {peer : Peer F} (h : Encodable peer.id) :
    (Value.dict (requestPayload peer)).Plain := by
  refine Value.plain_dict [paqtoKey, kindKey, peerIdKey] rfl (by decide) (by decide) ?_
  simp only [requestPayload, List.forall_mem_cons, List.not_mem_nil, false_implies, implies_true,
    and_true]
  exact ⟨⟨trivial, trivial⟩, ⟨trivial, (by decide : Encodable discoverKind)⟩, ⟨trivial, h⟩⟩

omit [PyFloat F] in
/-- An endpoint is plain. -/
theorem endpointPayload_plain {endpoint : Endpoint F} (htransport : Encodable endpoint.transport)
    (haddress : Encodable endpoint.address) (hmetadata : (Value.dict endpoint.metadata).Plain) :
    (endpointPayload endpoint).Plain := by
  refine Value.plain_dict [transportKey, addressKey, metadataKey] rfl (by decide)
    (by decide) ?_
  simp only [List.forall_mem_cons, List.not_mem_nil, false_implies, implies_true, and_true]
  exact ⟨⟨trivial, htransport⟩, ⟨trivial, haddress⟩, hmetadata⟩

omit [PyFloat F] in
/-- An announcement is plain. -/
theorem announcement_plain {metadata : List (Key F × Value F)} {publication : Publication F}
    (hmetadata : (Value.dict metadata).Plain)
    (h : Textual publication.peer publication.endpoints)
    (hlan : ∀ endpoint ∈ publication.endpoints, endpoint.transport = transportName) :
    (Value.dict (announcement metadata publication)).Plain := by
  have hname : (((publication.peer.name.map .str).getD .none : Value F)).Plain := by
    cases hn : publication.peer.name with
    | none => exact ⟨trivial, trivial⟩
    | some name => exact ⟨trivial, h.name name hn⟩
  have hpeer : (Value.dict [(.str idKey, .str publication.peer.id),
      (.str nameKey, (publication.peer.name.map .str).getD .none),
      (.str metadataKey, .dict publication.peer.metadata)] : Value F).Plain := by
    refine Value.plain_dict [idKey, nameKey, metadataKey] rfl (by decide) (by decide) ?_
    simp only [List.forall_mem_cons, List.not_mem_nil, false_implies, implies_true, and_true]
    exact ⟨⟨trivial, h.id⟩, hname, h.metadata⟩
  have hendpoints : (Value.list (publication.endpoints.map endpointPayload) : Value F).Plain := by
    refine Value.plain_list fun v hv => ?_
    obtain ⟨endpoint, hmem, rfl⟩ := List.mem_map.1 hv
    refine endpointPayload_plain ?_ (h.endpoints endpoint hmem).1 (h.endpoints endpoint hmem).2
    rw [hlan endpoint hmem]
    decide
  refine Value.plain_dict [paqtoKey, kindKey, peerKey, endpointsKey, metadataKey] rfl
    (by decide) (by decide) ?_
  simp only [announcement, List.forall_mem_cons, List.not_mem_nil, false_implies, implies_true,
    and_true]
  exact ⟨⟨trivial, trivial⟩, ⟨trivial, (by decide : Encodable announceKind)⟩, hpeer, hendpoints,
    hmetadata⟩

/-! ## Packets are understood -/

omit [PyFloat F] in
/-- The peer is read back. -/
theorem parsePeer_announcement {metadata : List (Key F × Value F)} {publication : Publication F}
    (hid : publication.peer.id ≠ []) :
    parsePeer (dictGet (announcement metadata publication) peerKey) = some publication.peer := by
  obtain ⟨⟨id, name, peerMetadata⟩, endpoints⟩ := publication
  cases id with
  | nil => exact absurd rfl hid
  | cons a id =>
      cases name with
      | none => rfl
      | some name => rfl

variable [UrlLib]

omit [PyFloat F] in
/-- An endpoint is read back. -/
theorem endpointOf_endpointPayload {endpoint : Endpoint F} (h : IsLanEndpoint endpoint) :
    endpointOf (endpointPayload endpoint) = some endpoint := by
  obtain ⟨transport, address, metadata⟩ := endpoint
  obtain ⟨rfl, parsed, hparsed⟩ := h
  have htransport : isStr (dictGet (F := F) [(.str transportKey, .str transportName),
      (.str addressKey, .str address), (.str metadataKey, .dict metadata)] transportKey)
      transportName = true := by
    change decide (transportName = transportName) = true
    exact decide_eq_true rfl
  have haddress : dictGet (F := F) [(.str transportKey, .str transportName),
      (.str addressKey, .str address), (.str metadataKey, .dict metadata)] addressKey =
      some (.str address) := rfl
  have hmetadata : optionalDict (dictGet (F := F) [(.str transportKey, .str transportName),
      (.str addressKey, .str address), (.str metadataKey, .dict metadata)] metadataKey) =
      some metadata := rfl
  simp only [endpointPayload, endpointOf, htransport, haddress, hmetadata, hparsed, if_true]

omit [PyFloat F] in
/-- So are all of them. -/
theorem filterMap_endpointOf {endpoints : List (Endpoint F)}
    (h : ∀ endpoint ∈ endpoints, IsLanEndpoint endpoint) :
    (endpoints.map endpointPayload).filterMap endpointOf = endpoints := by
  induction endpoints with
  | nil => rfl
  | cons endpoint endpoints ih =>
      rw [List.map_cons, List.filterMap_cons, endpointOf_endpointPayload (h _ List.mem_cons_self),
        ih fun e he => h e (List.mem_cons_of_mem endpoint he)]

omit [PyFloat F] in
/-- An endpoint of the LAN has an address that can be parsed. -/
theorem not_malformedUrl_endpointPayload {endpoint : Endpoint F} (h : IsLanEndpoint endpoint) :
    ¬ MalformedUrl (endpointPayload endpoint) := by
  rintro ⟨members, address, hmembers, -, haddress, hnone⟩
  obtain ⟨-, parsed, hparsed⟩ := h
  obtain rfl := Value.dict.inj hmembers
  obtain rfl : endpoint.address = address := Value.str.inj (Option.some.inj haddress)
  rw [parseTcpAddress_eq_valueError.2 hnone] at hparsed
  cases hparsed

/-- A publication that its service can announce. -/
structure Publication.Valid (settings : Settings F) (publication : Publication F) : Prop where
  textual : Textual publication.peer publication.endpoints
  id : publication.peer.id ≠ []
  lan : ∀ endpoint ∈ publication.endpoints, IsLanEndpoint endpoint
  encodes : ∃ data, encodePacket settings (announcement settings.metadata publication) = .ok data

variable {settings : Settings F} {publication : Publication F} {data : Bytes} {d : LanDiscovery F}
  {env : Environment}

/-- **An announcement is read back.** -/
theorem decodePacket_announcement (hsettings : (Value.dict settings.metadata).Plain)
    (h : publication.Valid settings)
    (hdata : encodePacket settings (announcement settings.metadata publication) = .ok data) :
    decodePacket data = some (announcement settings.metadata publication) :=
  decodePacket_plain
    (announcement_plain hsettings h.textual fun endpoint hmem => (h.lan endpoint hmem).1) rfl hdata

omit [UrlLib] in
/-- **A request is read back.** -/
theorem decodePacket_request {peer : Peer F} (hid : Encodable peer.id)
    (hdata : encodePacket settings (requestPayload peer) = .ok data) :
    decodePacket data = some (requestPayload peer) :=
  decodePacket_plain (requestPayload_plain hid) rfl hdata

/-- **A service takes an announcement of another peer.** -/
theorem renews_announcement (hsettings : (Value.dict settings.metadata).Plain)
    (h : publication.Valid settings)
    (hdata : encodePacket settings (announcement settings.metadata publication) = .ok data)
    {localPeer : Peer F} (hlocal : d.localPeer = some localPeer)
    (hne : publication.peer.id ≠ localPeer.id) (hsize : data.length ≤ d.settings.maxDatagramSize) :
    Renews d data publication.peer (publication.endpoints.map endpointPayload) settings.metadata := by
  have hdecoded := decodePacket_announcement hsettings h hdata
  refine ⟨⟨_, ⟨hsize, hdecoded, rfl, parsePeer_announcement h.id, ⟨localPeer, hlocal, hne⟩, rfl⟩,
    rfl⟩, fun item hitem => ?_⟩
  obtain ⟨endpoint, hmem, rfl⟩ := List.mem_map.1 hitem
  exact not_malformedUrl_endpointPayload (h.lan endpoint hmem)

/-- What it takes is what was published. -/
theorem Renews.announced (hsettings : (Value.dict settings.metadata).Plain)
    (h : publication.Valid settings)
    (hdata : encodePacket settings (announcement settings.metadata publication) = .ok data)
    {peer : Peer F} {items : List (Value F)} {metadata : List (Key F × Value F)}
    (hrenews : Renews d data peer items metadata) :
    peer = publication.peer ∧ items.filterMap endpointOf = publication.endpoints ∧
      metadata = settings.metadata := by
  obtain ⟨payload, hdeclares, hmetadata⟩ := hrenews.announces.payload
  obtain rfl : announcement settings.metadata publication = payload :=
    Option.some.inj ((decodePacket_announcement hsettings h hdata).symm.trans hdeclares.decoded)
  have hpeer := hdeclares.declared
  rw [parsePeer_announcement h.id] at hpeer
  obtain rfl : publication.endpoints.map endpointPayload = items :=
    Value.list.inj (Option.some.inj hdeclares.endpoints)
  exact ⟨(Option.some.inj hpeer).symm, filterMap_endpointOf h.lan, (Option.some.inj hmetadata).symm⟩

/-- A request announces nobody. -/
theorem not_renews_request {requester : Peer F} (hid : Encodable requester.id)
    (hdata : encodePacket settings (requestPayload requester) = .ok data) {peer : Peer F}
    {items : List (Value F)} {metadata : List (Key F × Value F)} :
    ¬ Renews d data peer items metadata := by
  intro hrenews
  obtain ⟨payload, hdeclares, -⟩ := hrenews.announces.payload
  obtain rfl : requestPayload requester = payload :=
    Option.some.inj ((decodePacket_request hid hdata).symm.trans hdeclares.decoded)
  have hkind : isStr (dictGet (requestPayload requester) kindKey) announceKind = false := by
    change decide (discoverKind = announceKind) = false
    decide
  rw [hdeclares.kind] at hkind
  cases hkind

/-! ## What is sent -/

omit [UrlLib] in
/-- What is sent was encoded. -/
theorem sendPacket_ok {payload : List (Key F × Value F)} {addr : SocketAddress}
    (h : sendPacket env d payload addr = .ok data) :
    d.started = true ∧ encodePacket d.settings payload = .ok data := by
  unfold sendPacket at h
  split at h
  · cases h
  · rename_i hstarted
    simp only [bind, Except.bind] at h
    split at h
    · cases h
    · rename_i encoded hencoded
      split at h <;> cases h
      exact ⟨by simpa using hstarted, hencoded⟩

omit [UrlLib] in
/-- A service announces what it has published. -/
theorem sendAnnounce_ok {addr : Option SocketAddress} (h : sendAnnounce env d addr = .ok data) :
    d.started = true ∧ ∃ peer, d.localPeer = some peer ∧
      encodePacket d.settings (announcement d.settings.metadata ⟨peer, d.endpoints⟩) = .ok data := by
  unfold sendAnnounce at h
  cases hlocal : d.localPeer with
  | none =>
      unfold announcePayload at h
      rw [hlocal] at h
      cases h
  | some peer =>
      rw [announcePayload_eq hlocal] at h
      obtain ⟨hstarted, hencoded⟩ := sendPacket_ok h
      exact ⟨hstarted, peer, rfl, hencoded⟩

omit [UrlLib] in
/-- A request is sent by a started discovery. -/
theorem mem_sentRequest (h : data ∈ sentRequest env d) :
    d.started = true ∧ ∃ peer, d.localPeer = some peer ∧
      encodePacket d.settings (requestPayload peer) = .ok data := by
  unfold sentRequest at h
  split at h
  · cases h
  · rename_i peer hlocal
    cases hsent : sendPacket env d (requestPayload peer) d.settings.broadcastAddress with
    | error e =>
        rw [hsent] at h
        cases h
    | ok encoded =>
        rw [hsent] at h
        obtain rfl := List.mem_singleton.1 h
        obtain ⟨hstarted, hencoded⟩ := sendPacket_ok hsent
        exact ⟨hstarted, peer, hlocal, hencoded⟩

/-- A request of another peer. -/
def Requests (d : LanDiscovery F) (data : Bytes) : Prop :=
  ∃ payload localPeer peerId, decodePacket (F := F) data = some payload ∧
    isStr (dictGet payload kindKey) discoverKind = true ∧ d.localPeer = some localPeer ∧
    dictGet payload peerIdKey = some (.str peerId) ∧ peerId ≠ localPeer.id

/-- **Only a request is answered**, with the announcement. -/
theorem datagramReceived_sent {addr : Option SocketAddress} {answer : Bytes × SocketAddress}
    (h : (datagramReceived env d data addr).sent = some answer) :
    sendAnnounce env d (some answer.2) = .ok answer.1 ∧ Requests d data := by
  have hannounce : ∀ payload, (handleAnnounce env.now d payload).sent = none := by
    intro payload
    unfold handleAnnounce cacheAnnounce
    repeat' split
    all_goals rfl
  unfold datagramReceived at h
  split at h
  · cases h
  · split at h
    · cases h
    · rename_i payload hpayload
      split at h
      · rename_i hkind
        unfold handleDiscover at h
        split at h
        · cases h
        · rename_i localPeer hlocal
          split at h
          · rename_i peerId hpeerId
            split at h
            · cases h
            · rename_i hne
              split at h
              · cases h
              · split at h
                · cases h
                · rename_i addr _ sent hsent
                  cases h
                  exact ⟨hsent, payload, localPeer, peerId, hpayload, hkind, hlocal, hpeerId, hne⟩
          · cases h
      · split at h
        · rw [hannounce] at h
          cases h
        · cases h

/-- A request of another peer that fits is answered, where the socket sends. -/
theorem datagramReceived_request (h : Requests d data)
    (hsize : data.length ≤ d.settings.maxDatagramSize) {addr : SocketAddress} {answer : Bytes}
    (hanswer : sendAnnounce env d (some addr) = .ok answer) :
    (datagramReceived env d data (some addr)).sent = some (answer, addr) := by
  obtain ⟨payload, localPeer, peerId, hpayload, hkind, hlocal, hpeerId, hne⟩ := h
  simp only [datagramReceived, if_neg (Nat.not_lt.2 hsize), hpayload, hkind, if_true, handleDiscover,
    hlocal, hpeerId, if_neg hne, hanswer]

omit [UrlLib] in
/-- A request of another peer is one. -/
theorem requests_request {requester localPeer : Peer F} (hid : Encodable requester.id)
    (hdata : encodePacket settings (requestPayload requester) = .ok data)
    (hlocal : d.localPeer = some localPeer) (hne : requester.id ≠ localPeer.id) : Requests d data := by
  refine ⟨_, localPeer, requester.id, decodePacket_request hid hdata, ?_, hlocal, rfl, hne⟩
  change decide (discoverKind = discoverKind) = true
  exact decide_eq_true rfl

/-- An announcement requests nothing. -/
theorem not_requests_announcement (hsettings : (Value.dict settings.metadata).Plain)
    (h : publication.Valid settings)
    (hdata : encodePacket settings (announcement settings.metadata publication) = .ok data) :
    ¬ Requests d data := by
  rintro ⟨payload, -, -, hpayload, hkind, -⟩
  obtain rfl := Option.some.inj ((decodePacket_announcement hsettings h hdata).symm.trans hpayload)
  have hother : isStr (dictGet (announcement settings.metadata publication) kindKey) discoverKind =
      false := by
    change decide (announceKind = discoverKind) = false
    decide
  rw [hkind] at hother
  cases hother

end packets

/-! ## One service -/

section service

variable [UrlLib] {s t : ServiceState F}

/-- **An admitted announcement is cached**, as seen now. -/
theorem datagramReceived_admitted (env : Environment) {d : LanDiscovery F} {data : Bytes}
    (addr : Option SocketAddress) {peer : Peer F} {items : List (Value F)}
    {metadata : List (Key F × Value F)} (hanchored : AllAnchored d env.now)
    (h : Renews d data peer items metadata) (hadmitted : Admitted d env.now peer.id) :
    ∃ entry, (datagramReceived env d data addr).discovery.discovered.get? peer.id = some entry ∧
      entry.peer = peer ∧ entry.endpoints = items.filterMap endpointOf ∧
      entry.metadata = metadata ∧ entry.observedAtMonotonic = env.now.monotonic := by
  cases hget : d.discovered.get? peer.id with
  | some entry => exact ⟨_, datagramReceived_refreshed h hget, rfl, rfl, rfl, rfl⟩
  | none =>
      obtain ⟨⟨payload, hdeclares, hmetadata⟩, hparses⟩ := h
      rcases datagramReceived_cases env d data addr with ⟨_, _, _, hdeclares', heq⟩ | ⟨hnone, -⟩
      · obtain ⟨rfl, rfl, rfl⟩ := hdeclares.unique hdeclares'
        rcases handleAnnounce_declared env.now hdeclares with ⟨⟨item, hmem, hbad⟩, -⟩ | ⟨-, hhandle⟩
        · exact absurd hbad (hparses item hmem)
        · have hraised := (pruneExpired_spec hanchored).1
          have hsettings := pruneExpired_settings d env.now
          have hroom := hadmitted.resolve_left (not_not.2 hget)
          rcases hp : pruneExpired d env.now with ⟨raised, pruned⟩
          rw [hp] at hraised hsettings hroom
          obtain rfl : raised = none := hraised
          rw [← hsettings] at hroom
          refine ⟨.create env.now peer (items.filterMap endpointOf) metadata, ?_, rfl, rfl, rfl,
            DiscoveredPeer.create_observed ..⟩
          rw [heq, hhandle, hmetadata]
          simp only [cacheAnnounce, hget, hp, if_neg (Nat.not_le.2 hroom), ignored_discovery]
          rw [Dict.get?_set, if_pos rfl]
      · exact absurd hdeclares (hnone _ _ _)

omit [PyFloat F] in
/-- The endpoints that are published are LAN endpoints among those given. -/
theorem copyValidEndpoints_ok {endpoints copied : List (Endpoint F)}
    (h : copyValidEndpoints endpoints = .ok copied) :
    ∀ endpoint ∈ copied, IsLanEndpoint endpoint ∧ ∃ given ∈ endpoints,
      endpoint.address = given.address ∧ endpoint.metadata = given.metadata := by
  induction endpoints generalizing copied with
  | nil =>
      cases h
      intro endpoint hmem
      cases hmem
  | cons first endpoints ih =>
      simp only [copyValidEndpoints, bind, Except.bind, pure, Except.pure] at h
      split at h
      · cases h
      · rename_i found hfound
        split at h
        · cases h
        · rename_i rest hrest
          cases h
          intro endpoint hmem
          rcases List.mem_append.1 hmem with hmem | hmem
          · have hcopied : copyValidEndpoint first = .ok (some endpoint) := by
              rw [hfound]
              exact congrArg _ (Option.mem_toList.1 hmem)
            unfold copyValidEndpoint at hcopied
            split at hcopied
            · cases hcopied
            · split at hcopied
              · cases hcopied
              · cases hcopied
              · rename_i parsed hparsed
                cases hcopied
                exact ⟨⟨rfl, parsed, hparsed⟩, first, List.mem_cons_self, rfl, rfl⟩
          · obtain ⟨hlan, given, hgiven, heq⟩ := ih hrest endpoint hmem
            exact ⟨hlan, given, List.mem_cons_of_mem first hgiven, heq⟩

/-- What a start leaves that has started the service. -/
theorem start_starts {d : LanDiscovery F} {localPeer : Peer F} {endpoints : List (Endpoint F)}
    {socket : SocketOutcome} (hstopped : d.started = false)
    (hstarted : (d.start localPeer endpoints socket).2.started = true) :
    localPeer.id ≠ [] ∧ ∃ copied, copyValidEndpoints endpoints = .ok copied ∧
      (∃ data, encodePacket d.settings (announcement d.settings.metadata ⟨localPeer, copied⟩) =
        .ok data) ∧
      (d.start localPeer endpoints socket).2 =
        ⟨d.settings, some localPeer, copied, d.discovered, true⟩ := by
  unfold LanDiscovery.start at hstarted ⊢
  rw [hstopped] at hstarted ⊢
  simp only [Bool.false_eq_true, if_false] at hstarted ⊢
  split at hstarted
  · cases hstopped.symm.trans hstarted
  · rename_i hid
    rw [if_neg hid]
    split at hstarted
    · exact absurd hstarted Bool.false_ne_true
    · rename_i copied hcopied
      split at hstarted
      · exact absurd hstarted Bool.false_ne_true
      · rename_i hencodes
        split at hstarted
        · exact absurd hstarted Bool.false_ne_true
        · exact absurd hstarted Bool.false_ne_true
        · refine ⟨hid, copied, hcopied, ?_, rfl⟩
          unfold LanDiscovery.ensureAnnounceIsSerializable at hencodes
          rw [announcePayload_eq rfl] at hencodes
          simp only [bind, Except.bind] at hencodes
          split at hencodes
          · cases hencodes
          · rename_i data hdata
            exact ⟨data, hdata⟩

/-- **What a start publishes is valid.** -/
theorem start_valid {d : LanDiscovery F} {localPeer : Peer F} {endpoints : List (Endpoint F)}
    {socket : SocketOutcome} (htextual : Textual localPeer endpoints)
    (hstopped : d.started = false)
    (hstarted : (d.start localPeer endpoints socket).2.started = true) :
    (d.start localPeer endpoints socket).2.localPeer = some localPeer ∧
      Publication.Valid d.settings
        ⟨localPeer, (d.start localPeer endpoints socket).2.endpoints⟩ := by
  obtain ⟨hid, copied, hcopied, hencodes, heq⟩ := start_starts hstopped hstarted
  rw [heq]
  refine ⟨rfl, ⟨htextual.id, htextual.name, htextual.metadata, fun endpoint hmem => ?_⟩, hid,
    fun endpoint hmem => (copyValidEndpoints_ok hcopied endpoint hmem).1, hencodes⟩
  obtain ⟨-, given, hgiven, haddress, hmetadata⟩ := copyValidEndpoints_ok hcopied endpoint hmem
  rw [haddress, hmetadata]
  exact htextual.endpoints given hgiven

/-- **A step that no datagram causes.**  The settings stay; a service that is started then
was started before, as the same peer, or a call of `start()` has published; and it knows
nobody that it did not know. -/
structure Steps (s t : ServiceState F) : Prop where
  settings : t.discovery.settings = s.discovery.settings
  started : t.discovery.started = true → s.discovery.started = true ∧
      t.discovery.localPeer = s.discovery.localPeer ∧
      t.discovery.endpoints = s.discovery.endpoints ∨
    s.discovery.started = false ∧ ∃ peer, t.discovery.localPeer = some peer ∧
      Publication.Valid s.discovery.settings ⟨peer, t.discovery.endpoints⟩
  known : ∀ id entry, t.discovery.discovered.get? id = some entry →
    s.discovery.discovered.get? id = some entry

/-- Nothing is published and nothing forgotten. -/
theorem steps_of_eq (hsettings : t.discovery.settings = s.discovery.settings)
    (hlocal : t.discovery.localPeer = s.discovery.localPeer)
    (hendpoints : t.discovery.endpoints = s.discovery.endpoints)
    (hstarted : t.discovery.started = s.discovery.started)
    (hknown : ∀ id entry, t.discovery.discovered.get? id = some entry →
      s.discovery.discovered.get? id = some entry) : Steps s t :=
  ⟨hsettings, fun h => .inl ⟨hstarted.symm.trans h, hlocal, hendpoints⟩, hknown⟩

/-- Expired entries are dropped. -/
theorem steps_prune (h : CacheInv s) :
    Steps s { s with discovery := (pruneExpired s.discovery s.now).2 } := by
  obtain ⟨-, -, hiff⟩ := pruneExpired_spec h.allAnchored
  rw [pruneExpired_eq]
  exact steps_of_eq rfl rfl rfl rfl fun id entry hget => ((hiff id entry).1 hget).1

/-- **What a service does** that receives nothing. -/
theorem service_steps (h : CacheInv s) {label : ServiceLabel F} (hstep : s.step label = some t)
    (hlabel : ∀ data addr sendto, label ≠ .datagram data addr sendto)
    (hstart : ∀ localPeer endpoints socket, label = .start localPeer endpoints socket →
      Textual localPeer endpoints) : Steps s t := by
  have hrefl : ∀ now collecting, Steps s { s with now := now, collecting := collecting } :=
    fun _ _ => steps_of_eq rfl rfl rfl rfl fun _ _ hget => hget
  cases label with
  | datagram data addr sendto => exact absurd rfl (hlabel data addr sendto)
  | time now =>
      simp only [ServiceState.step] at hstep
      split at hstep <;> cases hstep
      exact hrefl _ _
  | prune =>
      cases hstep
      exact steps_prune h
  | discover timeout sendto =>
      simp only [ServiceState.step] at hstep
      split at hstep <;> cases hstep
      · exact hrefl _ _
      · exact hrefl _ _
  | collected call =>
      simp only [ServiceState.step] at hstep
      split at hstep
      · cases hstep
      · split at hstep <;> cases hstep
        rw [endDiscover_spec h.allAnchored]
        have hpruned := steps_prune h
        exact ⟨hpruned.settings, hpruned.started, hpruned.known⟩
  | start localPeer endpoints socket =>
      cases hstep
      obtain ⟨hcache, hsame⟩ := start_spec s.discovery localPeer endpoints socket
      cases hstarted : s.discovery.started with
      | true =>
          rw [hsame hstarted]
          exact hrefl _ _
      | false =>
          refine ⟨start_settings .., fun hnow => .inr ⟨hstarted, localPeer, ?_⟩,
            fun id entry hget => ?_⟩
          · exact start_valid (hstart _ _ _ rfl) hstarted hnow
          · change (s.discovery.start localPeer endpoints socket).2.discovered.get? id = _ at hget
            rwa [hcache] at hget
  | stop =>
      cases hstep
      refine ⟨rfl, fun hnow => ?_, fun id entry hget => ?_⟩
      · cases hnow
      · cases hget

omit [PyFloat F] [UrlLib] in
/-- A start publishes the endpoints. -/
theorem mem_newPublication {d d' : LanDiscovery F} {p : Publication F} :
    p ∈ newPublication d d' ↔ d.started = false ∧ d'.started = true ∧
      d'.localPeer = some p.peer ∧ d'.endpoints = p.endpoints := by
  unfold newPublication
  split
  · rename_i hstarts
    rw [Bool.and_eq_true, Bool.not_eq_true'] at hstarts
    rw [List.mem_map, and_iff_right hstarts.1, and_iff_right hstarts.2]
    constructor
    · rintro ⟨peer, hpeer, rfl⟩
      exact ⟨Option.mem_toList.1 hpeer, rfl⟩
    · rintro ⟨hpeer, hendpoints⟩
      exact ⟨p.peer, Option.mem_toList.2 hpeer, by rw [hendpoints]⟩
  · rename_i hstarts
    rw [Bool.and_eq_true, Bool.not_eq_true'] at hstarts
    exact iff_of_false List.not_mem_nil fun h => hstarts ⟨h.1, h.2.1⟩

/-- Only a start publishes, and the peer that it is called with. -/
theorem newPublication_start (h : CacheInv s) {label : ServiceLabel F}
    (hstep : s.step label = some t) (hlabel : ∀ data addr sendto, label ≠ .datagram data addr sendto)
    {p : Publication F} (hp : p ∈ newPublication s.discovery t.discovery) :
    ∃ endpoints socket, label = .start p.peer endpoints socket := by
  obtain ⟨hbefore, hafter, hpeer, -⟩ := mem_newPublication.1 hp
  have hchanged : t.discovery.started ≠ s.discovery.started := by
    rw [hbefore, hafter]
    exact Bool.false_ne_true.symm
  have hpruned : ((pruneExpired s.discovery s.now).2).started = s.discovery.started := by
    rw [pruneExpired_eq]
  cases label with
  | datagram data addr sendto => exact absurd rfl (hlabel data addr sendto)
  | time now =>
      obtain ⟨-, ⟨⟩⟩ := Option.ite_none_right_eq_some.1 hstep
      exact absurd rfl hchanged
  | prune =>
      obtain rfl := Option.some.inj hstep
      exact absurd hpruned hchanged
  | discover timeout sendto =>
      simp only [ServiceState.step] at hstep
      split at hstep
      all_goals
        obtain rfl := Option.some.inj hstep
        exact absurd rfl hchanged
  | collected call =>
      simp only [ServiceState.step] at hstep
      split at hstep
      · cases hstep
      · split at hstep
        · obtain rfl := Option.some.inj hstep
          rw [endDiscover_spec h.allAnchored] at hchanged
          exact absurd hpruned hchanged
        · cases hstep
  | start localPeer endpoints socket =>
      obtain rfl := Option.some.inj hstep
      have hlocal : (s.discovery.start localPeer endpoints socket).2.localPeer = some localPeer := by
        obtain ⟨-, copied, -, -, heq⟩ := start_starts hbefore hafter
        rw [heq]
      obtain rfl : localPeer = p.peer := Option.some.inj (hlocal.symm.trans hpeer)
      exact ⟨endpoints, socket, rfl⟩
  | stop =>
      obtain rfl := Option.some.inj hstep
      exact absurd hafter Bool.false_ne_true

/-- Time does not go back. -/
theorem step_now (h : CacheInv s) {label : ServiceLabel F} (hstep : s.step label = some t) :
    s.now.monotonic ≤ t.now.monotonic := by
  by_cases hstop : label = .stop
  · subst hstop
    obtain rfl := Option.some.inj hstep
    exact le_rfl
  · exact (step_kept h hstop hstep).1

end service

end Lan
end Paqto
