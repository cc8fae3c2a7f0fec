/-
# Identity binding

With `require_authenticated_peer_id_match` everything that reaches the
application comes over a connection whose authenticated peer id is the peer id
of its session; without it no session contradicts an authenticated id; and over
TLS such an id comes from the resolver and a verified certificate only
(`identity_binding`).
-/

import Paqto.Core.MessagingRuns
import Paqto.Lan.Security

namespace Paqto
namespace Core
namespace Messaging

open Transition Python

variable {F P : Type} [PyFloat F]
variable {cfg : Config F P} {s : Node F P}

/-- The sessions that a node has in a state: those of its tables, of its tasks
and of the messages it has received. -/
inductive Node.HasSession (s : Node F P) (c : ℕ) (session : ProtocolSession F) : Prop
  | table (ready : ReadySession F) : s.tables.ready c = some ready → ready.session = session →
      HasSession s c session
  | task (pc : TaskPc F) : s.tasks c = pc →
      (pc = .ready session ∨ pc = .receiving session ∨ pc = .pongQueued session ∨
        (∃ frame, pc = .ponging session frame) ∨
        (∃ r frame, pc = .acknowledging session r frame) ∨
        (∃ r, pc = .ackQueued session r) ∨ ∃ r, pc = .enqueueing session r) →
      HasSession s c session
  | receipt (r : ℕ) (receipt : Receipt F P) : s.receipts r = some receipt →
      receipt.connection = c → receipt.session = session → HasSession s c session

/-- A message came from the peer of its session and is meant for this node. -/
structure Receipt.FromPeer (cfg : Config F P) (receipt : Receipt F P) : Prop where
  bound : Bound cfg receipt.connection receipt.session
  sender : receipt.message.sender = .str receipt.session.peerId
  recipient : receipt.message.recipient = .none ∨ receipt.message.recipient = .str cfg.peerId

/-- What reaches the application is bound to the identity of its peer. -/
structure Node.IdentityBound (cfg : Config F P) (s : Node F P) : Prop where
  handlers : ∀ r ∈ s.handled, ∃ receipt, s.receipts r = some receipt ∧ receipt.FromPeer cfg
  replies : ∀ k call target reply, s.calls k = some call → call.args.kind = .request target →
    call.pc = .returned reply →
      ∃ r receipt, reply = some r ∧ s.receipts r = some receipt ∧ receipt.FromPeer cfg
  acknowledgements : ∀ k call, s.calls k = some call → call.acked = true →
    ∃ a, Acknowledges cfg call a
  sessions : ∀ c session, s.HasSession c session → Bound cfg c session

/-- A session is bound to its peer. -/
theorem bound_of_hasSession {E : Evidence} (h : Inv cfg E none s) {c : ℕ}
    {session : ProtocolSession F} (hs : s.HasSession c session) : Bound cfg c session := by
  have hholds : ∀ {r receipt}, Holds s.receipts c session r receipt → Bound cfg c session := by
    intro r receipt hold
    have := (h.receipts r receipt hold.found).bound
    rwa [hold.connection, hold.session] at this
  cases hs with
  | table ready hready hsession => exact hsession ▸ h.sessions c ready hready
  | task pc hpc hsession =>
      have hfit := h.tasks c (by simp)
      rw [hpc] at hfit
      rcases hsession with rfl | rfl | rfl | ⟨_, rfl⟩ | ⟨_, _, rfl⟩ | ⟨_, rfl⟩ | ⟨_, rfl⟩
      · exact hfit
      · exact hfit
      · exact hfit
      · exact hfit.1
      · obtain ⟨_, hold, _⟩ := hfit
        exact hholds hold
      · obtain ⟨_, hold, _⟩ := hfit
        exact hholds hold
      · obtain ⟨_, hold, _⟩ := hfit
        exact hholds hold
  | receipt r receipt hr hc hsession =>
      have := (h.receipts r receipt hr).bound
      rwa [hc, hsession] at this

/-- What the invariant says of identities. -/
theorem identityBound_of_inv {E : Evidence} (h : Inv cfg E none s) : s.IdentityBound cfg where
  handlers r hr := by
    obtain ⟨receipt, hfound, _⟩ := h.handled r hr
    have hacc := h.receipts r receipt hfound
    exact ⟨receipt, hfound, hacc.bound, hacc.sender, hacc.recipient⟩
  replies k call target reply hk hkind hpc := by
    obtain ⟨r, rfl, receipt, hr, _⟩ := (h.calls k call hk).returned target reply hkind hpc
    have hacc := h.receipts r receipt hr
    exact ⟨r, receipt, rfl, hr, hacc.bound, hacc.sender, hacc.recipient⟩
  acknowledgements k call hk hacked := by
    obtain ⟨a, ha, _⟩ := (h.calls k call hk).acked hacked
    exact ⟨a, ha⟩
  sessions _ _ hs := bound_of_hasSession h hs

/-- **Identities are bound end to end** in every run of a node, over
connections with any security properties and whatever the remote ends send;
and the authenticated id of a TLS stream is what the resolver made of a
verified certificate, in a mode that verifies. -/
theorem identity_binding (cfg : Config F P) :
    (∀ s, Reachable (system cfg) s → s.IdentityBound cfg) ∧
      (∀ (C : Type) (tls : Option (Lan.Tls C)) (host : Str) (writer : Lan.Writer C) info p,
        Lan.outgoingSecurityInfo tls host writer = .ok info →
        info.authenticatedPeerId = some p → info.authenticated = true ∧
          ∃ t, tls = some t ∧ t.clientVerifyMode ≠ .certNone ∧
            Lan.Resolved writer t.peerIdentityResolver p) ∧
      ∀ (C : Type) (tls : Option (Lan.Tls C)) (writer : Lan.Writer C) info p,
        Lan.incomingSecurityInfo tls writer = .ok info →
        info.authenticatedPeerId = some p → info.authenticated = true ∧
          ∃ t, tls = some t ∧ t.serverVerifyMode ≠ .certNone ∧
            Lan.Resolved writer t.peerIdentityResolver p := by
  refine ⟨fun s h => identityBound_of_inv (inv_of_reachable h), ?_, ?_⟩
  · intro C tls host writer info p h hp
    cases tls with
    | none =>
        cases h
        cases hp
    | some tls =>
        obtain ⟨hmode, hauth, hres⟩ := Lan.resolved_of_securityInfoFromWriter h hp
        exact ⟨hauth, tls, rfl, by simpa using hmode, hres⟩
  · intro C tls writer info p h hp
    cases tls with
    | none =>
        cases h
        cases hp
    | some tls =>
        obtain ⟨hmode, hauth, hres⟩ := Lan.resolved_of_securityInfoFromWriter h hp
        exact ⟨hauth, tls, rfl, by simpa using hmode, hres⟩

end Messaging
end Core
end Paqto
