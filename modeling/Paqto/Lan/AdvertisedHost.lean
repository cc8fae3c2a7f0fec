/-
# The host that a listener publishes

`choose_advertised_host`, `build_tcp_address` and `endpoint_from_host_port` of
`lan/address.py`, and `_build_local_endpoint` of `TcpListener`.  A host is put into the
address as it is; only one with a colon gets brackets.

`DialedBack` is what the published endpoint is for: `parse_tcp_address` reads the port and
the host out of it again, and `_copy_valid_endpoint` keeps it.  That holds exactly of the
hosts of `Publishable` (`advertised_dialed_back`).
-/

import Paqto.Python.Url
import Paqto.Lan.DiscoveryLifecycle

namespace Paqto
namespace Lan

open Python

variable {F : Type}

/-! ## Addresses -/

/-- `urlparse` -/
instance urlLib [UrlRuntime] : UrlLib where
  urlparse url := (urlsplit url).map fun s =>
    { scheme := s.scheme
      path := s.pathParams.1
      params := s.pathParams.2
      query := s.query
      fragment := s.fragment
      username := s.userinfo.1
      password := s.userinfo.2
      hostname := s.hostname
      port := s.port }

/-- A host in brackets. -/
def bracket (host : Str) : Str := 91 :: (host ++ [93])

/-- `host.startswith("[") and host.endswith("]")` -/
def isBracketed (host : Str) : Bool := host.head? = some 91 && host.getLast? = some 93

/-- `_format_host` -/
def formatHost (host : Str) : Str :=
  if 58 ∈ host ∧ isBracketed host = false then bracket host else host

/-- What the publication of an endpoint raises. -/
inductive PublishError
  /-- `TransportError`, "TCP port out of range: …." -/
  | portOutOfRange (port : ℤ)
  /-- `TypeError`, "advertised_host must be a string or None." -/
  | hostType
  /-- `ValueError`, "advertised_host must be a non-empty string or None." -/
  | emptyHost
  deriving DecidableEq, Repr

/-- `build_tcp_address` -/
def buildTcpAddress (host : Str) (port : ℤ) : Except PublishError Str :=
  if port < 0 ∨ 65535 < port then .error (.portOutOfRange port)
  else .ok (tcpScheme ++ 58 :: 47 :: 47 :: (formatHost host ++ 58 :: intText port))

/-- `endpoint_from_host_port` -/
def endpointFromHostPort (host : Str) (port : ℤ) (metadata : List (Key F × Value F)) :
    Except PublishError (Endpoint F) := do
  let address ← buildTcpAddress host port
  return ⟨transportName, address, metadata⟩

/-! ## The choice of a host -/

inductive Family
  | inet
  | inet6
  deriving DecidableEq, Repr

/-- `ipaddress` -/
structure IpAddress where
  isLoopback : Bool
  isUnspecified : Bool
  deriving DecidableEq, Repr

/-- What the choice of a host asks the system. -/
class HostLib where
  /-- `socket.getaddrinfo` of the own host name: the hosts of its answers, `none` for one that
  is no string; `none` is its `OSError`. -/
  getaddrinfo : Family → Option (List (Option Str))
  /-- `ip_address`; `none` is its `ValueError`. -/
  ipAddress : Str → Option IpAddress

/-- `_resolve_hostname_address` -/
def resolveHostnameAddress [HostLib] (family : Family) : Option Str :=
  (HostLib.getaddrinfo family).bind fun infos =>
    infos.findSome? fun info =>
      info.bind fun host =>
        (HostLib.ipAddress (partition 37 host).1).bind fun parsed =>
          if !parsed.isLoopback && !parsed.isUnspecified then some host else none

/-- Where a host is from, as the metadata say. -/
inductive HostSource
  | configured
  | bindHost
  | hostnameIpv6
  | hostnameIpv4
  deriving DecidableEq, Repr

/-- The text of a source in an error. -/
def HostSource.text : HostSource → Str
  | .configured => ofChars ['c', 'o', 'n', 'f', 'i', 'g', 'u', 'r', 'e', 'd']
  | .bindHost => ofChars ['b', 'i', 'n', 'd', '_', 'h', 'o', 's', 't']
  | .hostnameIpv6 => ofChars ['h', 'o', 's', 't', 'n', 'a', 'm', 'e', '_', 'i', 'p', 'v', '6']
  | .hostnameIpv4 => ofChars ['h', 'o', 's', 't', 'n', 'a', 'm', 'e', '_', 'i', 'p', 'v', '4']

/-- `"0.0.0.0"` -/
def anyIpv4 : Str := ofChars ['0', '.', '0', '.', '0', '.', '0']

/-- `"::"` -/
def anyIpv6 : Str := ofChars [':', ':']

/-- `choose_advertised_host` -/
def chooseAdvertisedHost [HostLib] (bindHost : Str) :
    Value F → Except PublishError (Str × HostSource)
  | .none =>
      if bindHost ∉ [anyIpv4, anyIpv6, []] then .ok (bindHost, .bindHost)
      else
        let family := if bindHost = anyIpv6 then Family.inet6 else .inet
        match resolveHostnameAddress family with
        | some resolved =>
            .ok (resolved, if family = .inet6 then .hostnameIpv6 else .hostnameIpv4)
        | none => .ok (if bindHost = [] then anyIpv4 else bindHost, .bindHost)
  | .str host => if host = [] then .error .emptyHost else .ok (host, .configured)
  | _ => .error .hostType

/-- `"bind_host"` -/
def bindHostKey : Str := ofChars ['b', 'i', 'n', 'd', '_', 'h', 'o', 's', 't']

/-- `"advertised_host_source"` -/
def sourceKey : Str :=
  ofChars ['a', 'd', 'v', 'e', 'r', 't', 'i', 's', 'e', 'd', '_', 'h', 'o', 's', 't', '_', 's', 'o',
    'u', 'r', 'c', 'e']

/-- The key is that string. -/
def isKey (name : Str) : Key F → Bool
  | .str s => s = name
  | _ => false

/-- A member of a dict is set. -/
def setMember (items : List (Key F × Value F)) (name : Str) (value : Value F) :
    List (Key F × Value F) :=
  if items.any (isKey name ·.1) then
    items.map fun item => if isKey name item.1 then (item.1, value) else item
  else items ++ [(.str name, value)]

/-- `_build_local_endpoint` -/
def buildLocalEndpoint [HostLib] (metadata : List (Key F × Value F)) (advertisedHost : Value F)
    (bindHost : Str) (port : ℤ) : Except PublishError (Endpoint F) := do
  let (host, source) ← chooseAdvertisedHost bindHost advertisedHost
  endpointFromHostPort host port
    (setMember (setMember metadata bindHostKey (.str bindHost)) sourceKey (.str source.text))

/-! ## What a published endpoint is for -/

/-- The host without its brackets. -/
def unbracketed (host : Str) : Str := if isBracketed host then host.tail.dropLast else host

/-- The same host, up to the case of ASCII letters and an outer pair of brackets. -/
def SameHost (a b : Str) : Prop :=
  (unbracketed a).map asciiLower = (unbracketed b).map asciiLower

/-- **The endpoint can be dialed back**: it is read as this host and port, and kept. -/
def DialedBack [UrlRuntime] (endpoint : Endpoint F) (host : Str) (port : ℤ) : Prop :=
  (∃ address, parseTcpAddress endpoint.address = .ok address ∧ address.port = port ∧
    SameHost address.host host) ∧
  copyValidEndpoint endpoint = .ok (some endpoint)

/-- **A host that can be published**: no character of a URL's own, none that the parser
removes, refuses or changes, and brackets only around an address. -/
structure Publishable [UrlRuntime] (host : Str) : Prop where
  nonempty : unbracketed host ≠ []
  /-- No `/`, `?`, `#` or `@`, no tab or line break. -/
  plain : ∀ c ∈ host, isDelimiter c = false ∧ c ≠ 64 ∧ isLineBreak c = false
  notConfusable : ∀ c ∈ host, c ∉ confusables
  closing : 93 ∉ unbracketed host
  /-- What stands in brackets passes the check of bracketed hosts. -/
  literal : 58 ∈ host ∨ isBracketed host = true → UrlRuntime.bracketedHost (unbracketed host) = true
  opening : 58 ∉ host → isBracketed host = false → 91 ∉ host
  /-- Up to the zone of an address, no letters but ASCII letters have a lower case. -/
  lowered : (UrlRuntime.lower (partition 37 (unbracketed host)).1).map asciiLower =
    (partition 37 (unbracketed host)).1.map asciiLower

/-! ## Hosts and their brackets -/

variable {host : Str}

/-- A bracketed host is its inner part in brackets. -/
theorem bracket_unbracketed (h : isBracketed host = true) : bracket (unbracketed host) = host := by
  rw [unbracketed, if_pos h]
  rw [isBracketed, Bool.and_eq_true, decide_eq_true_eq, decide_eq_true_eq] at h
  obtain ⟨hhead, hlast⟩ := h
  cases host with
  | nil => cases hhead
  | cons c host =>
      cases Option.some.inj hhead
      have hne : host ≠ [] := by
        rintro rfl
        cases hlast
      have hget : host.getLast hne = 93 := by
        rw [List.getLast?_cons_of_ne_nil hne, List.getLast?_eq_some_getLast hne] at hlast
        exact Option.some.inj hlast
      change 91 :: (host.dropLast ++ [93]) = 91 :: host
      rw [← hget, List.dropLast_append_getLast hne]

/-- Another host is left as it is. -/
theorem unbracketed_of_not (h : isBracketed host = false) : unbracketed host = host := by
  rw [unbracketed, h]
  rfl

/-- A name without a closing bracket is not in brackets. -/
theorem unbracketed_of_not_mem (h : 93 ∉ host) : unbracketed host = host := by
  refine unbracketed_of_not ?_
  rw [← Bool.not_eq_true]
  intro hbracketed
  rw [← bracket_unbracketed hbracketed] at h
  exact h (List.mem_cons_of_mem _ (List.mem_append_right _ (List.mem_cons_self ..)))

/-- What is published of a host with a colon or brackets. -/
theorem formatHost_bracketed (h : 58 ∈ host ∨ isBracketed host = true) :
    formatHost host = bracket (unbracketed host) := by
  unfold formatHost
  split
  · next hcolon => rw [unbracketed_of_not hcolon.2]
  · next hcolon =>
      have hbracketed : isBracketed host = true := by
        obtain h | h := h
        · rw [← Bool.not_eq_false]
          exact fun hfalse => hcolon ⟨h, hfalse⟩
        · exact h
      exact (bracket_unbracketed hbracketed).symm

/-- A host without a colon is written as it is. -/
theorem formatHost_plain (h : 58 ∉ host) : formatHost host = host :=
  if_neg fun hcolon => h hcolon.1

/-- The inner part is a part of the host. -/
theorem mem_of_mem_unbracketed {c : ℕ} (h : c ∈ unbracketed host) : c ∈ host := by
  by_cases hbracketed : isBracketed host = true
  · rw [← bracket_unbracketed hbracketed]
    exact List.mem_cons_of_mem _ (List.mem_append_left _ h)
  · rwa [unbracketed_of_not (Bool.not_eq_true _ ▸ hbracketed)] at h

/-- Only brackets are taken off. -/
theorem mem_unbracketed {c : ℕ} (hopen : c ≠ 91) (hclose : c ≠ 93) (h : c ∈ host) :
    c ∈ unbracketed host := by
  by_cases hbracketed : isBracketed host = true
  · rw [← bracket_unbracketed hbracketed, bracket, List.mem_cons, List.mem_append,
      List.mem_singleton] at h
    obtain h | h | h := h
    · exact absurd h hopen
    · exact h
    · exact absurd h hclose
  · rwa [unbracketed_of_not (Bool.not_eq_true _ ▸ hbracketed)]

/-- A host is written with all its characters. -/
theorem mem_formatHost {c : ℕ} (h : c ∈ host) : c ∈ formatHost host := by
  unfold formatHost
  split
  · exact List.mem_cons_of_mem _ (List.mem_append_left _ h)
  · exact h

/-- Only brackets are added. -/
theorem of_mem_formatHost {c : ℕ} (h : c ∈ formatHost host) : c ∈ host ∨ c = 91 ∨ c = 93 := by
  unfold formatHost at h
  split at h
  · rw [bracket, List.mem_cons, List.mem_append, List.mem_singleton] at h
    tauto
  · exact Or.inl h

/-! ## The address of a host -/

variable {port : ℕ}

/-- A host and a port, as `build_tcp_address` writes them. -/
def hostPort (host : Str) (port : ℕ) : Str := formatHost host ++ 58 :: natText port

/-- `tcp://HOST:PORT` -/
def tcpUrl (host : Str) (port : ℕ) : Str := tcpScheme ++ 58 :: 47 :: 47 :: hostPort host port

/-- The address of a valid port. -/
theorem buildTcpAddress_eq (hport : port ≤ 65535) :
    buildTcpAddress host port = .ok (tcpUrl host port) := by
  refine if_neg ?_
  omega

/-- The endpoint of a valid port. -/
theorem endpointFromHostPort_eq {metadata : List (Key F × Value F)} (hport : port ≤ 65535) :
    endpointFromHostPort host port metadata =
      .ok ⟨transportName, tcpUrl host port, metadata⟩ := by
  rw [endpointFromHostPort, buildTcpAddress_eq hport]
  rfl

/-- Nothing that a URL gives a meaning to is in the digits of a port. -/
theorem isDigit_port {c : ℕ} (h : c ∈ natText port) : 48 ≤ c ∧ c ≤ 57 := by
  have hdigit := isDigit_natText port c h
  rwa [isDigit, Bool.and_eq_true, decide_eq_true_eq, decide_eq_true_eq] at hdigit

/-- The characters of a location. -/
theorem mem_hostPort {c : ℕ} (h : c ∈ hostPort host port) :
    c ∈ formatHost host ∨ c = 58 ∨ 48 ≤ c ∧ c ≤ 57 := by
  obtain h | h := List.mem_append.1 h
  · exact Or.inl h
  · obtain h | h := List.mem_cons.1 h
    · exact Or.inr (Or.inl h)
    · exact Or.inr (Or.inr (isDigit_port h))

/-- A location without its line breaks. -/
theorem filter_hostPort : (hostPort host port).filter (!isLineBreak ·) =
    (formatHost host).filter (!isLineBreak ·) ++ 58 :: natText port := by
  have hport : (58 :: natText port).filter (!isLineBreak ·) = 58 :: natText port := by
    refine List.filter_eq_self.2 fun c hc => ?_
    rw [isLineBreak]
    obtain rfl | hc := List.mem_cons.1 hc
    · rfl
    · have hdigit := isDigit_port hc
      simp only [Bool.not_eq_true', Bool.or_eq_false_iff, decide_eq_false_iff_not]
      omega
  rw [hostPort, List.filter_append, hport]

/-- `tcp` addresses have no parameters. -/
theorem pathParams_tcp {s : SplitResult} (h : s.scheme = tcpScheme) :
    s.pathParams = (s.path, []) := by
  refine if_neg fun hparams => ?_
  rw [h] at hparams
  exact absurd hparams.1 (by decide)

/-- A host without a delimiter ends with its port. -/
theorem takeWhile_hostPort {f : Str} (port : ℕ) (hf : ∀ c ∈ f, isDelimiter c = false) :
    (f ++ 58 :: natText port).takeWhile (!isDelimiter ·) = f ++ 58 :: natText port ∧
      (f ++ 58 :: natText port).dropWhile (!isDelimiter ·) = [] := by
  have hall : ∀ c ∈ f ++ 58 :: natText port, (!isDelimiter c) = true := by
    intro c hc
    obtain hc | hc := List.mem_append.1 hc
    · rw [hf c hc]
      rfl
    · obtain rfl | hc := List.mem_cons.1 hc
      · rfl
      · have hdigit := isDigit_port hc
        simp only [isDelimiter, Bool.not_eq_true', Bool.or_eq_false_iff, decide_eq_false_iff_not]
        omega
  exact ⟨List.takeWhile_eq_self_iff.2 hall, List.dropWhile_eq_nil_iff.2 hall⟩

/-- A character that is no letter is in a host if it is in the same host. -/
theorem SameHost.mem {a b : Str} {c : ℕ} (h : SameHost a b) (hletter : isAsciiLetter c = false)
    (hc : c ∈ unbracketed b) : c ∈ a := by
  have hlower : c ∈ (unbracketed a).map asciiLower := by
    rw [h]
    refine List.mem_map.2 ⟨c, hc, if_neg fun hupper => ?_⟩
    simp only [isAsciiLetter, Bool.or_eq_false_iff, Bool.and_eq_false_iff,
      decide_eq_false_iff_not] at hletter
    omega
  obtain ⟨d, hd, hdc⟩ := List.mem_map.1 hlower
  have heq : d = c := by
    simp only [isAsciiLetter, Bool.or_eq_false_iff, Bool.and_eq_false_iff,
      decide_eq_false_iff_not] at hletter
    unfold asciiLower at hdc
    split at hdc <;> omega
  exact heq ▸ mem_of_mem_unbracketed hd

/-- A plain host has no line break to lose. -/
theorem filter_formatHost (hplain : ∀ c ∈ host, isLineBreak c = false) :
    (formatHost host).filter (!isLineBreak ·) = formatHost host := by
  refine List.filter_eq_self.2 fun c hc => ?_
  obtain hc | rfl | rfl := of_mem_formatHost hc
  · rw [hplain c hc]
    rfl
  · rfl
  · rfl

/-- A host without `@` has no user information. -/
theorem not_mem_hostPort (hplain : 64 ∉ host) : 64 ∉ hostPort host port := by
  intro hc
  obtain hc | hc | hc := mem_hostPort hc
  · obtain hc | hc | hc := of_mem_formatHost hc
    · exact hplain hc
    · cases hc
    · cases hc
  · cases hc
  · omega

/-- A character that is no digit comes from the host. -/
theorem not_mem_hostPort_plain {c : ℕ} (hcolon : 58 ∉ host) (hhost : c ∉ host)
    (hchar : c < 48 ∨ 58 < c) : c ∉ hostPort host port := by
  intro hmem
  obtain hmem | hmem | hmem := mem_hostPort hmem
  · rw [formatHost_plain hcolon] at hmem
    exact hhost hmem
  · omega
  · omega

/-- The host that is read of an address, before its letters are lowered. -/
theorem hostinfo_hostPort (huser : 64 ∉ host) (hclosing : 93 ∉ unbracketed host)
    (hopening : 58 ∉ host → isBracketed host = false → 91 ∉ host) :
    (SplitResult.mk tcpScheme (hostPort host port) [] [] []).hostinfo =
      (unbracketed host, natText port) := by
  by_cases hbracketed : 58 ∈ host ∨ isBracketed host = true
  · refine SplitResult.hostinfo_bracketed ?_ (not_mem_hostPort huser) hclosing
    change formatHost host ++ 58 :: natText port = _
    rw [formatHost_bracketed hbracketed, bracket, List.cons_append, List.append_assoc,
      List.singleton_append]
  · rw [not_or, Bool.not_eq_true] at hbracketed
    obtain ⟨hcolon, hbracketed⟩ := hbracketed
    rw [unbracketed_of_not hbracketed]
    refine SplitResult.hostinfo_plain ?_ (not_mem_hostPort huser)
      (not_mem_hostPort_plain hcolon (hopening hcolon hbracketed) (by decide)) hcolon
    change formatHost host ++ 58 :: natText port = _
    rw [formatHost_plain hcolon]

section Runtime

variable [UrlRuntime]

/-- **How the address is split.** -/
theorem urlsplit_tcpUrl : urlsplit (tcpUrl host port) =
    splitLocation tcpScheme
      (((formatHost host).filter (!isLineBreak ·) ++ 58 :: natText port).takeWhile (!isDelimiter ·))
      (((formatHost host).filter (!isLineBreak ·) ++ 58 :: natText port).dropWhile
        (!isDelimiter ·)) := by
  rw [tcpUrl, urlsplit_scheme tcpScheme rfl rfl, filter_hostPort]
  rfl

/-- What `parse_tcp_address` has read. -/
theorem parseTcpAddress_ok {url : Str} {address : TcpAddress}
    (h : parseTcpAddress url = .ok address) :
    ∃ s, urlsplit url = some s ∧ (s.path = [] ∧ s.query = [] ∧ s.fragment = []) ∧
      s.hostname = some address.host ∧ s.port = some (some address.port) := by
  cases hs : urlsplit url with
  | none =>
      rw [parseTcpAddress_eq_valueError.2 (Option.map_eq_none_iff.2 hs)] at h
      cases h
  | some s =>
      have hparse : UrlLib.urlparse url = Option.map _ (some s) := congrArg (Option.map _) hs
      rw [parseTcpAddress, hparse] at h
      dsimp only [Option.map_some] at h
      split at h
      · cases h
      · next hscheme =>
          split at h
          · cases h
          · split at h
            · cases h
            · next hform =>
                rw [pathParams_tcp (not_not.1 hscheme)] at hform
                push Not at hform
                refine ⟨s, rfl, ⟨hform.1, hform.2.2.1, hform.2.2.2⟩, ?_⟩
                split at h
                · cases h
                · cases h
                · next host _ hhost =>
                    split at h
                    · cases h
                    · cases h
                    · next port hport =>
                        cases h
                        exact ⟨hhost, hport⟩

/-- `parse_tcp_address` of a URL without user information that is a network location. -/
theorem parseTcpAddress_location {url netloc hostname : Str} (hhost : hostname ≠ [])
    (hs : urlsplit url = some ⟨tcpScheme, netloc, [], [], []⟩)
    (huser : 64 ∉ netloc)
    (hinfo : (SplitResult.mk tcpScheme netloc [] [] []).hostinfo = (hostname, natText port))
    (hport : port ≤ 65535) (hlower : SplitResult.lowerHost hostname ≠ []) :
    parseTcpAddress url = .ok ⟨SplitResult.lowerHost hostname, port⟩ := by
  have hparse : UrlLib.urlparse url = Option.map _ (some _) := congrArg (Option.map _) hs
  have hname : (SplitResult.mk tcpScheme netloc [] [] []).hostname =
      some (SplitResult.lowerHost hostname) := by
    rw [SplitResult.hostname, hinfo]
    exact if_neg hhost
  have hnumber : (SplitResult.mk tcpScheme netloc [] [] []).port = some (some port) :=
    SplitResult.port_eq (by rw [hinfo]) hport
  rw [parseTcpAddress, hparse]
  dsimp only [Option.map_some]
  rw [SplitResult.userinfo_eq_none huser, pathParams_tcp rfl, hname, hnumber]
  cases hlowered : SplitResult.lowerHost hostname with
  | nil => exact absurd hlowered hlower
  | cons c s => rfl

/-! ## What is read back -/

/-- **A host with a delimiter in it is not read.** -/
theorem isDelimiter_eq_false {address : TcpAddress}
    (h : parseTcpAddress (tcpUrl host port) = .ok address) :
    ∀ c ∈ formatHost host, isDelimiter c = false := by
  intro c hc
  rw [← Bool.not_eq_true]
  intro hdelimiter
  obtain ⟨s, hs, ⟨hpath, hquery, hfragment⟩, -⟩ := parseTcpAddress_ok h
  rw [urlsplit_tcpUrl] at hs
  have hmem : c ∈ (formatHost host).filter (!isLineBreak ·) := by
    refine List.mem_filter.2 ⟨hc, ?_⟩
    simp only [isDelimiter, Bool.or_eq_true, decide_eq_true_eq] at hdelimiter
    simp only [isLineBreak, Bool.not_eq_true', Bool.or_eq_false_iff, decide_eq_false_iff_not]
    omega
  -- The address ends with a digit, which is behind the delimiter.
  obtain ⟨digits, d, hdigits⟩ : ∃ digits d, natText port = digits ++ [d] := by
    obtain hzero | ⟨d, ds, htext, -⟩ := natText_intPart port
    · exact ⟨[], 48, hzero⟩
    · exact ⟨(d :: ds).dropLast, _, htext.trans (List.dropLast_append_getLast (List.cons_ne_nil d ds)).symm⟩
  have hd : isDelimiter d = false := by
    have hdigit : 48 ≤ d ∧ d ≤ 57 := isDigit_port (hdigits ▸ List.mem_append_right _ (.head _))
    simp only [isDelimiter, Bool.or_eq_false_iff, decide_eq_false_iff_not]
    omega
  have hne : ((formatHost host).filter (!isLineBreak ·)).dropWhile (!isDelimiter ·) ≠ [] := by
    intro hnil
    have hno := List.dropWhile_eq_nil_iff.1 hnil c hmem
    rw [hdelimiter] at hno
    cases hno
  have hdrop : ((formatHost host).filter (!isLineBreak ·) ++ 58 :: natText port).dropWhile
      (!isDelimiter ·) = (((formatHost host).filter (!isLineBreak ·)).dropWhile
        (!isDelimiter ·) ++ 58 :: digits) ++ [d] := by
    rw [List.dropWhile_append, if_neg (by simpa using hne), hdigits, List.append_assoc,
      List.cons_append]
  rw [hdrop] at hs
  obtain hgoes | hgoes | hgoes := splitLocation_append hd hs
  · exact hgoes hpath
  · exact hgoes hquery
  · exact hgoes hfragment

/-- The same for a host without a delimiter. -/
theorem urlsplit_location (hplain : ∀ c ∈ formatHost host, isDelimiter c = false) :
    urlsplit (tcpUrl host port) =
      if validNetloc ((formatHost host).filter (!isLineBreak ·) ++ 58 :: natText port) then
        some ⟨tcpScheme, (formatHost host).filter (!isLineBreak ·) ++ 58 :: natText port, [], [], []⟩
      else none := by
  obtain ⟨htake, hdrop⟩ := takeWhile_hostPort port
    (f := (formatHost host).filter (!isLineBreak ·)) fun c hc => hplain c (List.mem_filter.1 hc).1
  rw [urlsplit_tcpUrl, htake, hdrop, splitLocation_nil]

/-- The check of a network location, for the hosts that it can pass. -/
theorem validNetloc_hostPort (hclosing : 93 ∉ unbracketed host)
    (hopening : 58 ∉ host → isBracketed host = false → 91 ∉ host) :
    validNetloc (hostPort host port) = true ↔
      (58 ∈ host ∨ isBracketed host = true →
        UrlRuntime.bracketedHost (unbracketed host) = true) ∧ ∀ c ∈ host, c ∉ confusables := by
  have hconfusable : (hostPort host port).all (· ∉ confusables) = true ↔
      ∀ c ∈ host, c ∉ confusables := by
    simp only [List.all_eq_true, decide_eq_true_eq]
    refine ⟨fun h c hc => h c (List.mem_append_left _ (mem_formatHost hc)), fun h c hc => ?_⟩
    have hascii : ∀ {c : ℕ}, c < 128 → c ∉ confusables := by
      intro c hc hmem
      have hlarge : ∀ d ∈ confusables, 128 ≤ d := by decide
      have hle := hlarge c hmem
      omega
    obtain hc | hc | hc := mem_hostPort hc
    · obtain hc | rfl | rfl := of_mem_formatHost hc
      · exact h c hc
      · exact hascii (by omega)
      · exact hascii (by omega)
    · exact hascii (by omega)
    · exact hascii (by omega)
  rw [validNetloc, Bool.and_eq_true, Bool.and_eq_true, hconfusable]
  refine and_congr_left fun _ => ?_
  by_cases hbracketed : 58 ∈ host ∨ isBracketed host = true
  · have hnetloc : hostPort host port = 91 :: (unbracketed host ++ 93 :: 58 :: natText port) := by
      rw [hostPort, formatHost_bracketed hbracketed, bracket, List.cons_append, List.append_assoc,
        List.singleton_append]
    have hopen : 91 ∈ hostPort host port := hnetloc ▸ List.mem_cons_self ..
    have hclose : 93 ∈ hostPort host port := by
      rw [hnetloc]
      exact List.mem_cons_of_mem _ (List.mem_append_right _ (List.mem_cons_self ..))
    have hafter : (partition 91 (hostPort host port)).2.2 =
        unbracketed host ++ 93 :: 58 :: natText port := by
      rw [hnetloc]
      rfl
    rw [hafter, partition_append _ hclosing]
    simp only [hopen, hclose, hbracketed, not_true_eq_false, decide_true, decide_false,
      Bool.false_or, true_and, forall_const, iff_self]
  · have hplain := hbracketed
    rw [not_or, Bool.not_eq_true] at hplain
    obtain ⟨hcolon, hnot⟩ := hplain
    have hopen : 91 ∉ hostPort host port :=
      not_mem_hostPort_plain hcolon (hopening hcolon hnot) (by decide)
    have hclose : 93 ∉ hostPort host port :=
      not_mem_hostPort_plain hcolon (unbracketed_of_not hnot ▸ hclosing) (by decide)
    simp only [hopen, hclose, hbracketed, not_false_eq_true, decide_true, Bool.true_or,
      iff_self, true_and, false_imp_iff]

/-- A host survives `hostname` when its part before `%` survives `lower`. -/
theorem lowered_iff {name : Str} :
    (SplitResult.lowerHost name).map asciiLower = name.map asciiLower ↔
      (UrlRuntime.lower (partition 37 name).1).map asciiLower =
        (partition 37 name).1.map asciiLower := by
  by_cases hzone : 37 ∈ name
  · obtain ⟨a, b, rfl, ha⟩ := List.eq_append_cons_of_mem hzone
    rw [SplitResult.lowerHost, partition_append b ha, List.map_append, List.map_append,
      List.append_left_inj]
  · rw [SplitResult.lowerHost, partition_of_not_mem hzone]

/-- A character that is no letter and was not read is not in the name that is read. -/
theorem not_mem_lowerHost {name : Str} {c : ℕ} (hc : c < 128) (hletter : isAsciiLetter c = false)
    (hread : c ∉ name) : c ∉ SplitResult.lowerHost name := by
  intro hmem
  rw [← List.count_pos_iff, SplitResult.count_lowerHost hc hletter, List.count_pos_iff] at hmem
  exact hread hmem

/-- A network location that passes its check has both brackets or none. -/
theorem brackets_of_validNetloc {netloc : Str} (h : validNetloc netloc = true) :
    91 ∈ netloc ↔ 93 ∈ netloc := by
  rw [validNetloc, Bool.and_eq_true, Bool.and_eq_true, decide_eq_true_eq] at h
  exact h.1.1

/-- A name that is not in brackets has no opening one. -/
theorem not_mem_of_validNetloc (h : validNetloc (hostPort host port) = true)
    (hclosing : 93 ∉ unbracketed host) (hcolon : 58 ∉ host) (hbracketed : isBracketed host = false) :
    91 ∉ host := by
  intro hopen
  have hin : 93 ∈ hostPort host port :=
    (brackets_of_validNetloc h).1 (List.mem_append_left _ (mem_formatHost hopen))
  rw [unbracketed_of_not hbracketed] at hclosing
  exact not_mem_hostPort_plain hcolon hclosing (by decide) hin

/-- **A host that is read back can be published.** -/
theorem publishable_of_sameHost {address : TcpAddress}
    (h : parseTcpAddress (tcpUrl host port) = .ok address) (hsame : SameHost address.host host) :
    Publishable host := by
  have hdelimiter := isDelimiter_eq_false h
  obtain ⟨s, hs, -, hname, -⟩ := parseTcpAddress_ok h
  rw [urlsplit_location hdelimiter] at hs
  obtain ⟨hvalid, hs⟩ := Option.ite_none_right_eq_some.1 hs
  have hnetloc : s.netloc = (formatHost host).filter (!isLineBreak ·) ++ 58 :: natText port := by
    rw [← Option.some.inj hs]
  obtain ⟨hne, hlower⟩ := Option.ite_none_left_eq_some.1 hname
  have hlower : SplitResult.lowerHost s.hostinfo.1 = address.host := Option.some.inj hlower
  -- A character that is no letter and not in what was read is not in the host.
  have hmem : ∀ {c : ℕ}, c < 128 → isAsciiLetter c = false → c ∉ s.hostinfo.1 →
      c ∉ address.host :=
    fun hc hletter hread => hlower ▸ not_mem_lowerHost hc hletter hread
  have hnot : ∀ {c : ℕ}, c < 128 → isAsciiLetter c = false → c ∉ s.hostinfo.1 →
      c ∉ unbracketed host :=
    fun hc hletter hread hhost => hmem hc hletter hread (hsame.mem hletter hhost)
  have huser : 64 ∉ host := fun hc =>
    hnot (by decide) rfl (fun hread => (SplitResult.mem_hostinfo hread).2 rfl)
      (mem_unbracketed (by decide) (by decide) hc)
  have hbreak : ∀ c ∈ host, isLineBreak c = false := by
    intro c hc
    rw [← Bool.not_eq_true]
    intro hbreak
    have hascii : c = 9 ∨ c = 13 ∨ c = 10 := by
      simpa [isLineBreak, or_assoc] using hbreak
    refine hnot (c := c) (by omega) ?_ (fun hread => ?_)
      (mem_unbracketed (by omega) (by omega) hc)
    · obtain rfl | rfl | rfl := hascii <;> rfl
    · have hin := (SplitResult.mem_hostinfo hread).1
      rw [hnetloc, ← filter_hostPort] at hin
      have hkept := (List.mem_filter.1 hin).2
      rw [hbreak] at hkept
      cases hkept
  rw [filter_formatHost hbreak] at hnetloc hvalid
  have hnetloc : s.netloc = hostPort host port := hnetloc
  have hvalid : validNetloc (hostPort host port) = true := hvalid
  have huser' : 64 ∉ s.netloc := hnetloc ▸ not_mem_hostPort huser
  have hclosing : 93 ∉ unbracketed host := by
    intro hclose
    have hin : 93 ∈ hostPort host port :=
      List.mem_append_left _ (mem_formatHost (mem_of_mem_unbracketed hclose))
    refine hnot (by decide) rfl ?_ hclose
    exact SplitResult.not_mem_hostinfo (hnetloc ▸ (brackets_of_validNetloc hvalid).2 hin) huser'
  have hopening := not_mem_of_validNetloc hvalid hclosing
  obtain ⟨hliteral, hconfusable⟩ := (validNetloc_hostPort hclosing hopening).1 hvalid
  have hinfo : s.hostinfo.1 = unbracketed host := by
    rw [← Option.some.inj hs, filter_formatHost hbreak]
    exact congrArg Prod.fst (hostinfo_hostPort huser hclosing hopening)
  rw [hinfo] at hne hlower
  refine ⟨hne, fun c hc => ⟨hdelimiter c (mem_formatHost hc), fun heq => huser (heq ▸ hc),
    hbreak c hc⟩, hconfusable, hclosing, hliteral, hopening, ?_⟩
  have hread : unbracketed address.host = address.host :=
    unbracketed_of_not_mem (hmem (by decide) rfl (hinfo ▸ hclosing))
  unfold SameHost at hsame
  rw [hread, ← hlower] at hsame
  exact lowered_iff.1 hsame

/-- **A host that can be published is read back.** -/
theorem Publishable.parse (h : Publishable host) (hport : port ≤ 65535) :
    ∃ read, parseTcpAddress (tcpUrl host port) = .ok ⟨read, port⟩ ∧ SameHost read host := by
  have huser : 64 ∉ host := fun hc => (h.plain 64 hc).2.1 rfl
  have hbreak : ∀ c ∈ host, isLineBreak c = false := fun c hc => (h.plain c hc).2.2
  have hdelimiter : ∀ c ∈ formatHost host, isDelimiter c = false := by
    intro c hc
    obtain hc | rfl | rfl := of_mem_formatHost hc
    · exact (h.plain c hc).1
    · rfl
    · rfl
  have hvalid : validNetloc (hostPort host port) = true :=
    (validNetloc_hostPort h.closing h.opening).2 ⟨h.literal, h.notConfusable⟩
  have hs : urlsplit (tcpUrl host port) = some ⟨tcpScheme, hostPort host port, [], [], []⟩ := by
    rw [urlsplit_location hdelimiter, filter_formatHost hbreak]
    exact if_pos hvalid
  have hlowered := lowered_iff.2 h.lowered
  have hlower : SplitResult.lowerHost (unbracketed host) ≠ [] := by
    intro hnil
    rw [hnil] at hlowered
    exact h.nonempty (List.map_eq_nil_iff.1 hlowered.symm)
  refine ⟨_, parseTcpAddress_location h.nonempty hs (not_mem_hostPort huser)
    (hostinfo_hostPort huser h.closing h.opening) hport hlower, ?_⟩
  have hread : isBracketed (SplitResult.lowerHost (unbracketed host)) = false := by
    rw [← Bool.not_eq_true]
    intro hbracketed
    refine h.closing ?_
    rw [← List.count_pos_iff, ← SplitResult.count_lowerHost (by decide) rfl, List.count_pos_iff,
      ← bracket_unbracketed hbracketed]
    exact List.mem_cons_of_mem _ (List.mem_append_right _ (List.mem_cons_self ..))
  rw [SameHost, unbracketed_of_not hread]
  exact hlowered

/-! ## Publication -/

/-- **What is published is dialed back** exactly for a publishable host. -/
theorem dialedBack_iff {metadata : List (Key F × Value F)} (hport : port ≤ 65535) :
    DialedBack ⟨transportName, tcpUrl host port, metadata⟩ host port ↔ Publishable host := by
  constructor
  · rintro ⟨⟨address, hparse, -, hsame⟩, -⟩
    exact publishable_of_sameHost hparse hsame
  · intro h
    obtain ⟨read, hparse, hsame⟩ := h.parse hport
    refine ⟨⟨_, hparse, rfl, hsame⟩, ?_⟩
    rw [copyValidEndpoint, hparse]
    rfl

/-- **What a listener publishes can be dialed back exactly when its host can be published**,
for a configured host and for a bind host. -/
theorem advertised_dialed_back [HostLib] (metadata : List (Key F × Value F))
    (advertisedHost : Value F) (bindHost host : Str) (source : HostSource) (port : ℤ)
    (hhost : chooseAdvertisedHost bindHost advertisedHost = .ok (host, source)) (hport : 0 ≤ port)
    (hport' : port ≤ 65535) :
    ∃ endpoint, buildLocalEndpoint metadata advertisedHost bindHost port = .ok endpoint ∧
      (DialedBack endpoint host port ↔ Publishable host) := by
  obtain ⟨port, rfl⟩ := Int.eq_ofNat_of_zero_le hport
  have hle : port ≤ 65535 := by omega
  refine ⟨⟨transportName, tcpUrl host port, setMember (setMember metadata bindHostKey
    (.str bindHost)) sourceKey (.str source.text)⟩, ?_, dialedBack_iff hle⟩
  rw [buildLocalEndpoint, hhost]
  exact endpointFromHostPort_eq hle

end Runtime

/-! ## A configured host -/

section Sample

/-- A runtime for ASCII names. -/
local instance sampleRuntime : UrlRuntime where
  lower s := s.map asciiLower
  count_lower c s hc hletter := by
    simp only [isAsciiLetter, Bool.or_eq_false_iff, Bool.and_eq_false_iff,
      decide_eq_false_iff_not] at hletter
    induction s with
    | nil => rfl
    | cons d s ih =>
        have hiff : asciiLower d = c ↔ d = c := by
          unfold asciiLower
          split <;> omega
        rw [List.map_cons, List.count_cons, List.count_cons, ih]
        simp only [beq_iff_eq, hiff]
  bracketedHost s := s.any (· = 58)

/-- A resolver for the samples. -/
local instance sampleHosts : HostLib where
  getaddrinfo _ := none
  ipAddress _ := none

/-- `"Node.lan"` -/
def nodeLan : Str := ofChars ['N', 'o', 'd', 'e', '.', 'l', 'a', 'n']

/-- `"node/lan"` -/
def nodeSlash : Str := ofChars ['n', 'o', 'd', 'e', '/', 'l', 'a', 'n']

/-- `node.lan` is publishable. -/
theorem publishable_nodeLan : Publishable nodeLan where
  nonempty := by decide
  plain := by decide
  notConfusable := by decide
  closing := by decide
  literal := by decide
  opening := by decide
  lowered := by decide

/-- A configured name, at port 8080. -/
theorem advertised_dialed_back_sample : ∃ endpoint,
    buildLocalEndpoint (F := Unit) [] (.str nodeLan) [] 8080 = .ok endpoint ∧
      DialedBack endpoint nodeLan 8080 := by
  obtain ⟨endpoint, hbuild, hdialed⟩ := advertised_dialed_back (F := Unit) [] (.str nodeLan) []
    nodeLan .configured 8080 rfl (by decide) (by decide)
  exact ⟨endpoint, hbuild, hdialed.2 publishable_nodeLan⟩

/-- **A host with a path in it is published, and its endpoint is dropped** without an error. -/
theorem not_advertised_dialed_back : ∃ endpoint,
    buildLocalEndpoint (F := Unit) [] (.str nodeSlash) [] 8080 = .ok endpoint ∧
      parseTcpAddress endpoint.address = .error .form ∧
      copyValidEndpoint endpoint = .ok none ∧ ¬ DialedBack endpoint nodeSlash 8080 := by
  refine ⟨_, rfl, rfl, rfl, ?_⟩
  rintro ⟨⟨address, hparse, -⟩, -⟩
  cases hparse

end Sample

end Lan
end Paqto
