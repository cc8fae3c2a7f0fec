/-
# LAN TCP addresses

`parse_tcp_address` of `lan/address.py`.  `urllib.parse.urlparse` is a parameter:
it raises `ValueError` for some malformed network locations, and the `port` of
what it returns raises one for a port that is no number up to 65535.
-/

import Paqto.Python.Text

namespace Paqto
namespace Lan

open Python

/-- What `urlparse` returns, with the properties of the network location. -/
structure ParseResult where
  scheme : Str
  path : Str
  params : Str
  query : Str
  fragment : Str
  username : Option Str
  password : Option Str
  hostname : Option Str
  /-- `none` is the `ValueError` of the property. -/
  port : Option (Option ℕ)
  deriving DecidableEq

/-- `urllib.parse` -/
class UrlLib where
  /-- `urlparse`; `none` is its `ValueError`. -/
  urlparse : Str → Option ParseResult

/-- `TRANSPORT_NAME` -/
def transportName : Str := ofChars ['l', 'a', 'n']

/-- `TCP_SCHEME` -/
def tcpScheme : Str := ofChars ['t', 'c', 'p']

/-- A host and a port. -/
structure TcpAddress where
  host : Str
  port : ℕ
  deriving DecidableEq, Repr

/-- What `parse_tcp_address` raises. -/
inductive AddressError
  /-- The `ValueError` of `urlparse`, which it does not catch. -/
  | valueError
  /-- `TransportError`, "LAN endpoint addresses must use the 'tcp' scheme." -/
  | scheme
  /-- `TransportError`, "LAN endpoint addresses must not include user info." -/
  | userInfo
  /-- `TransportError`, "LAN endpoint addresses must have the form tcp://HOST:PORT." -/
  | form
  /-- `TransportError`, "LAN endpoint address is missing a host." -/
  | missingHost
  /-- `TransportError`, "LAN endpoint address contains an invalid port." -/
  | invalidPort
  /-- `TransportError`, "LAN endpoint address is missing a port." -/
  | missingPort
  deriving DecidableEq, Repr

/-- The truth value of an optional string. -/
def truthy : Option Str → Bool
  | none => false
  | some s => s ≠ []

/-- `parse_tcp_address` -/
def parseTcpAddress [UrlLib] (address : Str) : Except AddressError TcpAddress :=
  match UrlLib.urlparse address with
  | none => .error .valueError
  | some parsed =>
      if parsed.scheme ≠ tcpScheme then .error .scheme
      else if truthy parsed.username || truthy parsed.password then .error .userInfo
      else if parsed.path ≠ [] ∨ parsed.params ≠ [] ∨ parsed.query ≠ [] ∨ parsed.fragment ≠ [] then
        .error .form
      else
        match parsed.hostname with
        | none | some [] => .error .missingHost
        | some host =>
            match parsed.port with
            | none => .error .invalidPort
            | some none => .error .missingPort
            | some (some port) => .ok ⟨host, port⟩

/-- **The only `ValueError` is that of `urlparse`.** -/
theorem parseTcpAddress_eq_valueError [UrlLib] {address : Str} :
    parseTcpAddress address = .error .valueError ↔ UrlLib.urlparse address = none := by
  refine ⟨fun h => ?_, fun h => by rw [parseTcpAddress, h]⟩
  unfold parseTcpAddress at h
  split at h
  · assumption
  · repeat' split at h
    all_goals cases h

end Lan
end Paqto
