/-
# Which observation of a peer the node remembers

`_known_peers` of `core/node.py`: `_remember` compares the wall-clock times of two
observations of a peer (`last_seen`), while their expiry goes by the monotonic clock
alone.  In the runs in which the two clocks order the observations of every peer
alike, and none is passed that is older than one already dropped (`InOrder`), the
node remembers the newest observation, finds it fresh while it is, and dials its
endpoint; the first step outside this condition breaks it (`remembers_newest`).

A step is what one task does between two suspensions; `clocks` moves the two clocks
in between, the monotonic one not back.
-/

import Paqto.Lan.DiscoveryCache

namespace Paqto
namespace Core

open Python Transition Paqto.Lan

namespace KnownPeers

variable {F : Type}

/-- What the node was made with. -/
structure Config where
  /-- `peer.id` of the node -/
  localId : Str
  /-- `peer_ttl`; `None` disables expiration. -/
  peerTtl : Option ℚ
  peerTtl_pos : ∀ ttl, peerTtl = some ttl → 0 < ttl
  /-- `transport.name` -/
  transport : Str

/-- The known peers, and what was observed. -/
structure Node (F : Type) where
  now : Now
  /-- `_known_peers` -/
  known : Dict Str (DiscoveredPeer F)
  /-- The observations that were made. -/
  made : List (DiscoveredPeer F)
  /-- The observations that were passed to `_remember`, oldest first. -/
  passed : List (DiscoveredPeer F)

/-- `endpoint_for` -/
def endpointFor (d : DiscoveredPeer F) (transport : Str) : Option (Endpoint F) :=
  d.endpoints.find? fun endpoint => endpoint.transport = transport

/-- `is_fresh(config.peer_ttl)` -/
def isFresh (config : Config) (now : Now) (d : DiscoveredPeer F) : Bool :=
  match config.peerTtl with
  | none => true
  | some ttl => d.isFresh ttl now = some true

/-- `_remember` -/
def remember (config : Config) (known : Dict Str (DiscoveredPeer F)) (discovered : DiscoveredPeer F) :
    Dict Str (DiscoveredPeer F) :=
  if discovered.peer.id = config.localId then known
  else
    match known.get? discovered.peer.id with
    | some existing =>
        if existing.lastSeen.instant > discovered.lastSeen.instant then known
        else known.set discovered.peer.id discovered
    | none => known.set discovered.peer.id discovered

/-- The expired observations that `discover()` pops. -/
def dropExpired (config : Config) (s : Node F) : Dict Str (DiscoveredPeer F) :=
  s.known.filter (isFresh config s.now)

/-- The observation with which `_schedule_reconnect` starts a loop. -/
def reconnectObservation (config : Config) (s : Node F) (id : Str) : Option (DiscoveredPeer F) :=
  (s.known.get? id).filter (isFresh config s.now)

/-- How `connect` of a `Peer` begins. -/
inductive ConnectOutcome (F : Type)
  /-- The READY connection is returned. -/
  | existing
  /-- `PeerNotFoundError` -/
  | notFound
  /-- `PeerExpiredError` -/
  | expired
  /-- `NoEndpointError` -/
  | noEndpoint
  | dials (endpoint : Endpoint F)

/-- `connect` of a `Peer` up to its dial; `ready` is whether it has a READY
connection. -/
def connectPeer (config : Config) (s : Node F) (id : Str) (ready : Bool) : ConnectOutcome F :=
  if ready then .existing
  else
    match s.known.get? id with
    | none => .notFound
    | some discovered =>
        if isFresh config s.now discovered then
          match endpointFor discovered config.transport with
          | some endpoint => .dials endpoint
          | none => .noEndpoint
        else .expired

/-- The moves of the clocks and of the node. -/
inductive Label (F : Type)
  /-- Time passes; the wall clock may be set. -/
  | clocks (now : Now)
  /-- A `DiscoveredPeer` is made. -/
  | observe (peer : Peer F) (endpoints : List (Endpoint F)) (metadata : List (Key F × Value F))
  /-- `_remember` of the `i`-th of them, by `discover()` or `connect()`. -/
  | remember (i : ℕ)
  /-- `discover()` begins. -/
  | dropExpired

/-- One step. -/
def step (config : Config) (s : Node F) : Label F → Option (Node F)
  | .clocks now => if s.now.monotonic ≤ now.monotonic then some { s with now } else none
  | .observe peer endpoints metadata =>
      some { s with made := s.made ++ [DiscoveredPeer.create s.now peer endpoints metadata] }
  | .remember i =>
      s.made[i]?.map fun discovered =>
        { s with
          known := KnownPeers.remember config s.known discovered
          passed := s.passed ++ [discovered] }
  | .dropExpired => some { s with known := KnownPeers.dropExpired config s }

/-- A node that has just started, at any clocks. -/
def Initial (s : Node F) : Prop := s.known = Dict.empty ∧ s.made = [] ∧ s.passed = []

/-- The runs of a node until it stops. -/
def system (F : Type) (config : Config) : System (Node F) (Label F) where
  init := Initial
  step := step config

variable {config : Config} {s t : Node F}

/-- The node has seen the peer within the TTL. -/
def SeenWithin (config : Config) (s : Node F) (d : DiscoveredPeer F) : Prop :=
  ∀ ttl, config.peerTtl = some ttl → s.now.monotonic - d.observedAtMonotonic ≤ ttl

/-- No observation of the peer that was passed is more recent. -/
def Newest (s : Node F) (id : Str) (d : DiscoveredPeer F) : Prop :=
  ∀ e ∈ s.passed, e.peer.id = id → e.observedAtMonotonic ≤ d.observedAtMonotonic

/-- **The node remembers the most recent observations.** -/
structure RemembersNewest (config : Config) (s : Node F) : Prop where
  newest : ∀ id d, s.known.get? id = some d → Newest s id d
  /-- A peer that was seen within the TTL is not treated as expired, and its newest
  endpoint is dialed. -/
  usable : ∀ e ∈ s.passed, e.peer.id ≠ config.localId → SeenWithin config s e →
    ∃ d ∈ s.passed, d.peer.id = e.peer.id ∧ Newest s e.peer.id d ∧
      reconnectObservation config s e.peer.id = some d ∧
      connectPeer config s e.peer.id false =
        match endpointFor d config.transport with
        | some endpoint => .dials endpoint
        | none => .noEndpoint

/-- An observation that is passed has the same order in both clocks to the one that is
remembered of its peer; if none is, it is not older than one that was passed. -/
def InOrder (config : Config) (s : Node F) (l : Label F) : Prop :=
  ∀ i d, l = .remember i → s.made[i]? = some d → d.peer.id ≠ config.localId →
    match s.known.get? d.peer.id with
    | some e =>
        (e.observedAtMonotonic < d.observedAtMonotonic → e.lastSeen.instant ≤ d.lastSeen.instant) ∧
        (d.observedAtMonotonic < e.observedAtMonotonic → d.lastSeen.instant < e.lastSeen.instant)
    | none => Newest s d.peer.id d

/-! ## The invariant -/

/-- What holds in every run. -/
structure Inv (config : Config) (s : Node F) : Prop where
  anchored : ∀ d ∈ s.made, d.Anchored s.now
  passed : ∀ d ∈ s.passed, d ∈ s.made
  keyed : ∀ id d, s.known.get? id = some d → d.peer.id = id ∧ id ≠ config.localId ∧ d ∈ s.passed
  newest : ∀ id d, s.known.get? id = some d → Newest s id d
  /-- Whoever is not remembered was not seen within the TTL. -/
  kept : ∀ e ∈ s.passed, e.peer.id ≠ config.localId → s.known.get? e.peer.id = none →
    ¬ SeenWithin config s e

/-- Freshness of an observation goes by its monotonic age. -/
theorem isFresh_iff {d : DiscoveredPeer F} (h : d.Anchored s.now) :
    isFresh config s.now d = true ↔ SeenWithin config s d := by
  unfold isFresh SeenWithin
  split
  · next hnone =>
      rw [hnone]
      exact iff_of_true rfl (by rintro _ ⟨⟩)
  · next ttl hsome =>
      rw [hsome, h.isFresh]
      simp

/-- A later observation is within the TTL too. -/
theorem SeenWithin.of_le {d e : DiscoveredPeer F} (h : SeenWithin config s e)
    (hle : e.observedAtMonotonic ≤ d.observedAtMonotonic) : SeenWithin config s d :=
  fun ttl httl => (sub_le_sub_left hle s.now.monotonic).trans (h ttl httl)

/-- What the invariant says. -/
theorem Inv.remembersNewest (h : Inv config s) : RemembersNewest config s where
  newest := h.newest
  usable e he hremote hseen := by
    cases hknown : s.known.get? e.peer.id with
    | none => exact absurd hseen (h.kept e he hremote hknown)
    | some d =>
        obtain ⟨hkey, -, hpassed⟩ := h.keyed _ d hknown
        have hnewest := h.newest _ d hknown
        have hfresh : isFresh config s.now d = true :=
          (isFresh_iff (h.anchored d (h.passed d hpassed))).2 (hseen.of_le (hnewest e he rfl))
        refine ⟨d, hpassed, hkey, hnewest, ?_, ?_⟩
        · rw [reconnectObservation, hknown, Option.filter_some, if_pos hfresh]
        · simp only [connectPeer, Bool.false_eq_true, if_false, hknown, hfresh, if_true]

/-- Nobody is known yet. -/
theorem inv_initial (h : Initial s) : Inv config s := by
  obtain ⟨hknown, hmade, hpassed⟩ := h
  exact
    { anchored := by simp [hmade]
      passed := by simp [hpassed]
      keyed := by simp [hknown]
      newest := by simp [hknown]
      kept := by simp [hpassed] }

/-- Time passes. -/
theorem Inv.clocks (h : Inv config s) {now : Now} (hle : s.now.monotonic ≤ now.monotonic) :
    Inv config { s with now } where
  anchored d hd := (h.anchored d hd).later hle
  passed := h.passed
  keyed := h.keyed
  newest := h.newest
  kept e he hremote hknown hseen := by
    refine h.kept e he hremote hknown fun ttl httl => ?_
    exact (sub_le_sub_right hle _).trans (hseen ttl httl)

/-- Expired peers are dropped. -/
theorem Inv.dropExpired (h : Inv config s) :
    Inv config { s with known := dropExpired config s } where
  anchored := h.anchored
  passed := h.passed
  keyed id d hget := by
    rw [KnownPeers.dropExpired, Dict.get?_filter, Option.filter_eq_some_iff] at hget
    exact h.keyed id d hget.1
  newest id d hget := by
    rw [KnownPeers.dropExpired, Dict.get?_filter, Option.filter_eq_some_iff] at hget
    exact h.newest id d hget.1
  kept e he hremote hget hseen := by
    cases hknown : s.known.get? e.peer.id with
    | none => exact h.kept e he hremote hknown hseen
    | some d =>
        obtain ⟨-, -, hpassed⟩ := h.keyed _ d hknown
        have hfresh : isFresh config s.now d = true :=
          (isFresh_iff (h.anchored d (h.passed d hpassed))).2
            (SeenWithin.of_le hseen (h.newest _ d hknown e he rfl))
        simp only [KnownPeers.dropExpired, Dict.get?_filter, hknown, Option.filter_some, hfresh,
          if_true] at hget
        cases hget

/-- **What `_remember` does**: nothing, when the remembered observation has the later
wall-clock time, and otherwise it replaces it. -/
theorem remember_cases {known : Dict Str (DiscoveredPeer F)} {d : DiscoveredPeer F}
    (hremote : d.peer.id ≠ config.localId) :
    (∃ e, known.get? d.peer.id = some e ∧ d.lastSeen.instant < e.lastSeen.instant ∧
      remember config known d = known) ∨
    (∀ e, known.get? d.peer.id = some e → e.lastSeen.instant ≤ d.lastSeen.instant) ∧
      remember config known d = known.set d.peer.id d := by
  unfold remember
  rw [if_neg hremote]
  cases hknown : known.get? d.peer.id with
  | none =>
      refine Or.inr ⟨?_, rfl⟩
      rintro _ ⟨⟩
  | some e =>
      by_cases hlater : e.lastSeen.instant > d.lastSeen.instant
      · exact Or.inl ⟨e, rfl, hlater, if_pos hlater⟩
      · refine Or.inr ⟨?_, if_neg hlater⟩
        rintro _ ⟨⟩
        exact not_lt.1 hlater

/-- The node as `_remember` leaves it. -/
def Node.passes (s : Node F) (config : Config) (d : DiscoveredPeer F) : Node F :=
  { s with known := remember config s.known d, passed := s.passed ++ [d] }

/-- The newest of one more observation. -/
theorem newest_passes {id : Str} {d e : DiscoveredPeer F} :
    Newest (s.passes config d) id e ↔
      Newest s id e ∧ (d.peer.id = id → d.observedAtMonotonic ≤ e.observedAtMonotonic) := by
  simp only [Newest, Node.passes, List.mem_append, List.mem_singleton, or_imp, forall_and,
    forall_eq]

/-- An observation of the node itself is not remembered. -/
theorem Inv.passes_local (h : Inv config s) {d : DiscoveredPeer F} (hmade : d ∈ s.made)
    (hlocal : d.peer.id = config.localId) : Inv config (s.passes config d) := by
  have hknown : (s.passes config d).known = s.known := if_pos hlocal
  refine
    { anchored := h.anchored
      passed := ?_
      keyed := fun id e he => ?_
      newest := fun id e he => ?_
      kept := fun e he hremote hget => ?_ }
  · rintro e he
    obtain he | he := List.mem_append.1 he
    · exact h.passed e he
    · exact List.mem_singleton.1 he ▸ hmade
  · rw [hknown] at he
    obtain ⟨hkey, hremote, hpassed⟩ := h.keyed id e he
    exact ⟨hkey, hremote, List.mem_append_left _ hpassed⟩
  · rw [hknown] at he
    refine newest_passes.2 ⟨h.newest id e he, fun heq => ?_⟩
    exact absurd (heq.symm.trans hlocal) (h.keyed id e he).2.1
  · rw [hknown] at hget
    obtain he | he := List.mem_append.1 he
    · exact h.kept e he hremote hget
    · exact absurd (List.mem_singleton.1 he ▸ hlocal) hremote

/-- **An observation is passed**, in order with the one that is remembered. -/
theorem Inv.passes (h : Inv config s) {d : DiscoveredPeer F} (hmade : d ∈ s.made)
    (hremote : d.peer.id ≠ config.localId)
    (horder : match s.known.get? d.peer.id with
      | some e =>
          (e.observedAtMonotonic < d.observedAtMonotonic → e.lastSeen.instant ≤ d.lastSeen.instant) ∧
          (d.observedAtMonotonic < e.observedAtMonotonic → d.lastSeen.instant < e.lastSeen.instant)
      | none => Newest s d.peer.id d) :
    Inv config (s.passes config d) := by
  have hpassed : ∀ e ∈ s.passed ++ [d], e ∈ s.made := by
    intro e he
    obtain he | he := List.mem_append.1 he
    · exact h.passed e he
    · exact List.mem_singleton.1 he ▸ hmade
  obtain ⟨e, hget, hlater, hsame⟩ | ⟨hle, hset⟩ := remember_cases hremote
  · -- The remembered observation is the later one in both clocks.
    have hknown : (s.passes config d).known = s.known := hsame
    rw [hget] at horder
    have hobserved : d.observedAtMonotonic ≤ e.observedAtMonotonic := by
      by_contra hlt
      exact absurd (horder.1 (not_le.1 hlt)) (not_le.2 hlater)
    refine
      { anchored := h.anchored
        passed := hpassed
        keyed := fun id f hf => ?_
        newest := fun id f hf => ?_
        kept := fun f hf hr hnone => ?_ }
    · rw [hknown] at hf
      obtain ⟨hkey, hne, hin⟩ := h.keyed id f hf
      exact ⟨hkey, hne, List.mem_append_left _ hin⟩
    · rw [hknown] at hf
      refine newest_passes.2 ⟨h.newest id f hf, fun heq => ?_⟩
      rw [← heq, hget] at hf
      cases hf
      exact hobserved
    · rw [hknown] at hnone
      obtain hf | hf := List.mem_append.1 hf
      · exact h.kept f hf hr hnone
      · rw [List.mem_singleton.1 hf, hget] at hnone
        cases hnone
  · have hknown : (s.passes config d).known = s.known.set d.peer.id d := hset
    have hnewest : Newest s d.peer.id d := by
      cases hget : s.known.get? d.peer.id with
      | none =>
          rw [hget] at horder
          exact horder
      | some e =>
          rw [hget] at horder
          have hobserved : e.observedAtMonotonic ≤ d.observedAtMonotonic := by
            by_contra hlt
            exact absurd (horder.2 (not_le.1 hlt)) (not_lt.2 (hle e hget))
          exact fun f hf heq => (h.newest _ e hget f hf heq).trans hobserved
    refine
      { anchored := h.anchored
        passed := hpassed
        keyed := fun id f hf => ?_
        newest := fun id f hf => ?_
        kept := fun f hf hr hnone => ?_ }
    · rw [hknown, Dict.get?_set] at hf
      split at hf
      · next heq =>
          cases hf
          exact ⟨heq.symm, heq ▸ hremote, List.mem_append_right _ List.mem_cons_self⟩
      · obtain ⟨hkey, hne, hin⟩ := h.keyed id f hf
        exact ⟨hkey, hne, List.mem_append_left _ hin⟩
    · rw [hknown, Dict.get?_set] at hf
      split at hf
      · next heq =>
          cases hf
          subst heq
          exact newest_passes.2 ⟨hnewest, fun _ => le_rfl⟩
      · next hne =>
          exact newest_passes.2 ⟨h.newest id f hf, fun heq => absurd heq.symm hne⟩
    · rw [hknown, Dict.get?_set] at hnone
      split at hnone
      · cases hnone
      · next hne =>
          obtain hf | hf := List.mem_append.1 hf
          · exact h.kept f hf hr hnone
          · exact absurd (congrArg (fun e => e.peer.id) (List.mem_singleton.1 hf)) hne

/-- What `_remember` is called with was observed. -/
theorem step_remember {i : ℕ} (ht : step config s (.remember i) = some t) :
    ∃ d, s.made[i]? = some d ∧ d ∈ s.made ∧ t = s.passes config d := by
  obtain ⟨d, hd, rfl⟩ := Option.map_eq_some_iff.1 ht
  exact ⟨d, hd, List.mem_of_getElem? hd, rfl⟩

/-- **One step in order keeps the newest observations.** -/
theorem inv_step (h : Inv config s) {l : Label F} (hG : InOrder config s l)
    (ht : step config s l = some t) : Inv config t := by
  cases l with
  | clocks now =>
      simp only [step] at ht
      split at ht
      · next hle =>
          cases ht
          exact h.clocks hle
      · cases ht
  | observe peer endpoints metadata =>
      cases ht
      have hmade : ∀ d ∈ s.made ++ [DiscoveredPeer.create s.now peer endpoints metadata],
          d.Anchored s.now := by
        intro d hd
        obtain hd | hd := List.mem_append.1 hd
        · exact h.anchored d hd
        · exact List.mem_singleton.1 hd ▸ DiscoveredPeer.anchored_create s.now peer endpoints metadata
      exact
        { anchored := hmade
          passed := fun d hd => List.mem_append_left _ (h.passed d hd)
          keyed := h.keyed
          newest := h.newest
          kept := h.kept }
  | remember i =>
      obtain ⟨d, hi, hmade, rfl⟩ := step_remember ht
      by_cases hremote : d.peer.id = config.localId
      · exact h.passes_local hmade hremote
      · exact h.passes hmade hremote (hG i d rfl hi hremote)
  | dropExpired =>
      cases ht
      exact h.dropExpired

/-- **The invariant holds** in the runs that meet the condition. -/
theorem inv_of_reachableWhen (h : ReachableWhen (system F config) (InOrder config) s) :
    Inv config s :=
  h.invariant (I := Inv config) (fun _ => inv_initial) fun _ _ _ hI hG ht => inv_step hI hG ht

/-- **A step out of order is seen at once**: an observation is passed, and an older one
is remembered. -/
theorem not_newest_of_step (h : Inv config s) {l : Label F} (hG : ¬ InOrder config s l)
    (ht : step config s l = some t) : ¬ RemembersNewest config t := by
  simp only [InOrder, not_forall] at hG
  obtain ⟨i, d, rfl, hi, hremote, hdisorder⟩ := hG
  obtain ⟨d', hi', -, rfl⟩ := step_remember ht
  obtain rfl : d = d' := Option.some.inj (hi.symm.trans hi')
  intro hremembers
  obtain ⟨e, hget, hlater, hsame⟩ | ⟨hle, hset⟩ := remember_cases hremote
  · rw [hget] at hdisorder
    have hknown : (s.passes config d).known.get? d.peer.id = some e := by
      rw [Node.passes, hsame]
      exact hget
    have hobserved := (newest_passes.1 (hremembers.newest _ e hknown)).2 rfl
    exact hdisorder ⟨fun hlt => absurd hobserved (not_le.2 hlt), fun _ => hlater⟩
  · have hknown : (s.passes config d).known.get? d.peer.id = some d := by
      rw [Node.passes, hset, Dict.get?_set, if_pos rfl]
    have hnewest := (newest_passes.1 (hremembers.newest _ d hknown)).1
    cases hget : s.known.get? d.peer.id with
    | none =>
        rw [hget] at hdisorder
        exact hdisorder hnewest
    | some e =>
        rw [hget] at hdisorder
        obtain ⟨hkey, -, hpassed⟩ := h.keyed _ e hget
        have hobserved := hnewest e hpassed hkey
        exact hdisorder ⟨fun _ => hle e hget, fun hlt => absurd hobserved (not_le.2 hlt)⟩

/-- **The node remembers the most recent observations** in every run in which the
observations of a peer come in one order in both clocks, as far as they are
remembered, and in no run beyond. -/
theorem remembers_newest (config : Config) :
    (∀ s, ReachableWhen (system F config) (InOrder config) s → RemembersNewest config s) ∧
      ∀ s l t, ReachableWhen (system F config) (InOrder config) s → ¬ InOrder config s l →
        step config s l = some t → ¬ RemembersNewest config t :=
  ⟨fun _ h => (inv_of_reachableWhen h).remembersNewest,
    fun _ _ _ h hG ht => not_newest_of_step (inv_of_reachableWhen h) hG ht⟩

/-! ## The wall clock is set back -/

/-- The TTL of the sample. -/
theorem sampleTtl_pos : ∀ ttl : ℚ, some (60 : ℚ) = some ttl → 0 < ttl := by
  rintro _ ⟨⟩
  norm_num

/-- A TTL of a minute. -/
def sampleConfig : Config where
  localId := ofChars ['a']
  peerTtl := some 60
  peerTtl_pos := sampleTtl_pos
  transport := ofChars ['l', 'a', 'n']

/-- A peer. -/
def samplePeer : Peer SampleFloat := ⟨ofChars ['b'], none, []⟩

/-- A node that has just started. -/
def sampleStart : Node SampleFloat := ⟨⟨0, 1000⟩, Dict.empty, [], []⟩

/-- What is seen before the wall clock is set back. -/
def firstSeen : DiscoveredPeer SampleFloat := DiscoveredPeer.create ⟨0, 1000⟩ samplePeer [] []

/-- What is seen after it. -/
def secondSeen : DiscoveredPeer SampleFloat := DiscoveredPeer.create ⟨50, 900⟩ samplePeer [] []

/-- A peer is seen, and once more when the wall clock was set back: the second observation
is not remembered, and eleven seconds later the peer counts as expired. -/
def sampleEnd : Node SampleFloat :=
  ⟨⟨61, 911⟩, Dict.empty.set samplePeer.id firstSeen, [firstSeen, secondSeen],
    [firstSeen, secondSeen]⟩

/-- A run in which the wall clock is set back. -/
theorem sampleEnd_reachable : Reachable (system SampleFloat sampleConfig) sampleEnd :=
  reachable_of_exec (S := system SampleFloat sampleConfig) (s := sampleStart) ⟨rfl, rfl, rfl⟩
    [.observe samplePeer [] [], .remember 0, .clocks ⟨50, 900⟩, .observe samplePeer [] [],
      .remember 1, .clocks ⟨61, 911⟩] rfl

/-- **The newest observation is not remembered** in that run. -/
theorem not_remembers_newest :
    ¬ ∀ s, Reachable (system SampleFloat sampleConfig) s → RemembersNewest sampleConfig s := by
  intro h
  have hnewest := (h sampleEnd sampleEnd_reachable).newest samplePeer.id firstSeen rfl secondSeen
    (by simp [sampleEnd]) rfl
  rw [firstSeen, secondSeen, DiscoveredPeer.create_observed, DiscoveredPeer.create_observed] at hnewest
  norm_num at hnewest

end KnownPeers

end Core
end Paqto
