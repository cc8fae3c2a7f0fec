/-
# Security metadata of TLS streams

`security_info_from_writer` (`lan/security.py`) and its two callers: the
transport for an outgoing stream (`lan/transport.py`) and the listener for an
accepted one (`lan/listener.py`).

What the TLS layer did is in `SslObject`: `verified` says that it has validated
the certificate of the peer.  `ssl` documents that `getpeercert()` gives the
fields of a certificate only if that certificate was validated, and an empty
dict otherwise (`validated`).
-/

import Paqto.Core.Message

namespace Paqto
namespace Lan

open Paqto.Core Python

/-- What `getpeercert()` returns; `C` is the type of a decoded certificate. -/
inductive PeerCertificate (C : Type)
  | none
  | empty
  | mapping (certificate : C)
  | notMapping

/-- `not certificate` -/
def PeerCertificate.isMissing {C : Type} : PeerCertificate C → Bool
  | none | empty => true
  | _ => false

/-- What TLS says of a connection. -/
structure SslObject (C : Type) where
  certificate : PeerCertificate C
  /-- `getpeercert(binary_form=True)` -/
  binaryCertificate : Option Bytes
  version : Option Str
  /-- The name in `cipher()`. -/
  cipher : Option Str
  verified : Bool
  validated : ∀ c, certificate = .mapping c → verified = true

/-- What `get_extra_info` of a stream writer offers. -/
inductive Writer (C : Type)
  | noMetadata
  | notEncrypted
  | tls (object : SslObject C)

/-- `TlsPeerIdentityResolver`; `none` when it raises. -/
abbrev PeerIdentityResolver (C : Type) := C → Option Attr

/-- What is kept of it. -/
structure TlsMetadata where
  peerCertificatePresent : Bool
  tlsVersion : Option Str
  cipher : Option Str
  verifiedServerName : Option Str
  deriving DecidableEq, Repr

/-- `SecurityInfo` with what only the transport reads. -/
structure ConnectionSecurity extends SecurityInfo where
  encrypted : Bool
  mechanism : Option Str
  metadata : Option TlsMetadata
  deriving DecidableEq, Repr

/-- `SecurityInfo()` -/
def ConnectionSecurity.unclaimed : ConnectionSecurity where
  authenticated := false
  authenticatedPeerId := none
  encrypted := false
  mechanism := none
  metadata := none

/-- `"tls"` -/
def tlsMechanism : Str := ofChars ['t', 'l', 's']

/-- `TransportError` of `security_info_from_writer` -/
inductive TlsError
  | noMetadata
  | notEncrypted
  | noCertificate
  | notMapping
  | resolverFailed
  | resolverResult
  deriving DecidableEq, Repr

variable {C : Type}

/-- Whether there is a certificate in binary form. -/
def SslObject.hasBinary (o : SslObject C) : Bool := o.binaryCertificate.any (· ≠ [])

/-- The authenticated id of a verified stream. -/
def resolvePeerId (certificate : PeerCertificate C)
    (identityResolver : Option (PeerIdentityResolver C)) : Except TlsError (Option Str) :=
  match identityResolver, certificate with
  | none, _ => .ok none
  | some resolver, .mapping c =>
      match resolver c with
      | none => .error .resolverFailed
      | some .none => .ok none
      | some (.str s) => if s = [] then .error .resolverResult else .ok (some s)
      | some .other => .error .resolverResult
  | some _, _ => .error .notMapping

/-- `security_info_from_writer` -/
def securityInfoFromWriter (writer : Writer C) (peerAuthenticated : Bool)
    (identityResolver : Option (PeerIdentityResolver C)) (verifiedServerName : Option Str)
    (peerCertificateRequired : Bool) : Except TlsError ConnectionSecurity := do
  match writer with
  | .noMetadata => .error .noMetadata
  | .notEncrypted => .error .notEncrypted
  | .tls o =>
      let missing := o.certificate.isMissing || !o.hasBinary
      if peerAuthenticated && missing && peerCertificateRequired then .error .noCertificate
      else
        let peerAuthenticated := peerAuthenticated && !missing
        let authenticatedPeerId ←
          if peerAuthenticated then resolvePeerId o.certificate identityResolver else .ok none
        return {
          authenticated := peerAuthenticated
          authenticatedPeerId
          encrypted := true
          mechanism := some tlsMechanism
          metadata := some {
            peerCertificatePresent := o.hasBinary
            tlsVersion := o.version
            cipher := o.cipher
            verifiedServerName := if peerAuthenticated then verifiedServerName else none } }

/-- `ssl.VerifyMode` -/
inductive VerifyMode
  | certNone
  | certOptional
  | certRequired
  deriving DecidableEq, Repr

/-- What `TlsConfig` and `TlsContextConfig` tell the transport.  The context that
`TlsConfig` makes for outgoing streams verifies if `verify_peer` is set, the one
for accepted streams if `require_client_certificate` is. -/
structure Tls (C : Type) where
  clientVerifyMode : VerifyMode
  serverVerifyMode : VerifyMode
  checkHostname : Bool
  peerIdentityResolver : Option (PeerIdentityResolver C)

/-- `TlsConfig` -/
def Tls.ofConfig (verifyPeer checkHostname requireClientCertificate : Bool)
    (peerIdentityResolver : Option (PeerIdentityResolver C)) : Tls C where
  clientVerifyMode := if verifyPeer then .certRequired else .certNone
  serverVerifyMode := if requireClientCertificate then .certRequired else .certNone
  checkHostname
  peerIdentityResolver

/-- `LanTransport.connect` -/
def outgoingSecurityInfo (tls : Option (Tls C)) (host : Str) (writer : Writer C) :
    Except TlsError ConnectionSecurity :=
  match tls with
  | none => .ok .unclaimed
  | some tls =>
      securityInfoFromWriter writer (tls.clientVerifyMode ≠ .certNone) tls.peerIdentityResolver
        (if tls.checkHostname then some host else none) true

/-- `TcpListener._handle_client` -/
def incomingSecurityInfo (tls : Option (Tls C)) (writer : Writer C) :
    Except TlsError ConnectionSecurity :=
  match tls with
  | none => .ok .unclaimed
  | some tls =>
      securityInfoFromWriter writer (tls.serverVerifyMode ≠ .certNone) tls.peerIdentityResolver
        none (tls.serverVerifyMode = .certRequired)

/-- `p` is what the resolver made of the verified certificate of a stream. -/
def Resolved (writer : Writer C) (identityResolver : Option (PeerIdentityResolver C)) (p : Str) :
    Prop :=
  ∃ o c resolver, writer = .tls o ∧ o.certificate = .mapping c ∧ o.verified = true ∧
    identityResolver = some resolver ∧ resolver c = some (.str p)

/-- An id that is resolved comes from a verified certificate. -/
theorem resolvePeerId_some {certificate : PeerCertificate C}
    {identityResolver : Option (PeerIdentityResolver C)} {p : Str}
    (h : resolvePeerId certificate identityResolver = .ok (some p)) :
    ∃ c resolver, certificate = .mapping c ∧ identityResolver = some resolver ∧
      resolver c = some (.str p) := by
  unfold resolvePeerId at h
  split at h
  · cases h
  · rename_i resolver c
    split at h
    · cases h
    · cases h
    · rename_i s hs
      split at h <;> cases h
      exact ⟨c, resolver, rfl, rfl, hs⟩
    · cases h
  · cases h

/-- **Only the resolver authenticates a peer id**, on a stream that the caller
declares authenticated and whose certificate was verified. -/
theorem resolved_of_securityInfoFromWriter {writer : Writer C} {peerAuthenticated : Bool}
    {identityResolver : Option (PeerIdentityResolver C)} {verifiedServerName : Option Str}
    {peerCertificateRequired : Bool} {info : ConnectionSecurity} {p : Str}
    (h : securityInfoFromWriter writer peerAuthenticated identityResolver verifiedServerName
      peerCertificateRequired = .ok info)
    (hp : info.authenticatedPeerId = some p) :
    peerAuthenticated = true ∧ info.authenticated = true ∧
      Resolved writer identityResolver p := by
  unfold securityInfoFromWriter at h
  split at h
  · cases h
  · cases h
  · rename_i o
    dsimp only at h
    split at h
    · cases h
    · cases hauth : peerAuthenticated && !(o.certificate.isMissing || !o.hasBinary) with
      | false =>
          rw [hauth] at h
          cases h
          cases hp
      | true =>
          rw [hauth, if_pos rfl] at h
          cases hres : resolvePeerId o.certificate identityResolver with
          | error e =>
              rw [hres] at h
              cases h
          | ok id =>
              rw [hres] at h
              cases h
              obtain rfl : id = some p := hp
              obtain ⟨c, resolver, hc, hr, hrc⟩ := resolvePeerId_some hres
              rw [Bool.and_eq_true] at hauth
              exact ⟨hauth.1, rfl, o, c, resolver, rfl, hc, o.validated c hc, hr, hrc⟩

end Lan
end Paqto
