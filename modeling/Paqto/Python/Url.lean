/-
# Python's `urllib.parse`

`urlsplit`, `urlparse` and the properties of their results.  What depends on the runtime
is a parameter (`UrlRuntime`): `str.lower`, of which only what it does to characters that
are no letters is said, and the check of the text between the brackets of a network
location, which releases before 3.11.4 do not make.

The characters that NFKC takes to one of `/ ? # @ :` are a list (`confusables`).
-/

import Paqto.Python.JsonAtoms

namespace Paqto
namespace Python

/-! ## Strings -/

/-- `str.partition` of a character: what is before it, whether it is there, and what is
after it. -/
def partition (c : ℕ) : Str → Str × Bool × Str
  | [] => ([], false, [])
  | d :: s =>
      if d = c then ([], true, s)
      else (d :: (partition c s).1, (partition c s).2)

/-- `str.rpartition` -/
def rpartition (c : ℕ) (s : Str) : Str × Bool × Str :=
  match partition c s.reverse with
  | (after, true, before) => (before.reverse, true, after.reverse)
  | (_, false, _) => ([], false, s)

/-- Without the separator all is before it. -/
theorem partition_of_not_mem {c : ℕ} {s : Str} (h : c ∉ s) : partition c s = (s, false, []) := by
  induction s with
  | nil => rfl
  | cons d s ih =>
      obtain ⟨hd, hs⟩ := List.ne_and_not_mem_of_not_mem_cons h
      rw [partition, if_neg (Ne.symm hd), ih hs]

/-- What comes before the first separator, and after it. -/
theorem partition_append {c : ℕ} {s : Str} (t : Str) (h : c ∉ s) :
    partition c (s ++ c :: t) = (s, true, t) := by
  induction s with
  | nil => exact if_pos rfl
  | cons d s ih =>
      obtain ⟨hd, hs⟩ := List.ne_and_not_mem_of_not_mem_cons h
      rw [List.cons_append, partition, if_neg (Ne.symm hd), ih hs]

/-- What is before the separator is of the text, and no separator. -/
theorem mem_partition {c d : ℕ} {s : Str} (h : d ∈ (partition c s).1) : d ∈ s ∧ d ≠ c := by
  by_cases hc : c ∈ s
  · obtain ⟨a, b, rfl, ha⟩ := List.eq_append_cons_of_mem hc
    rw [partition_append b ha] at h
    exact ⟨List.mem_append_left _ h, fun hd => ha (hd ▸ h)⟩
  · rw [partition_of_not_mem hc] at h
    exact ⟨h, fun hd => hc (hd ▸ h)⟩

/-- What comes after it is a part. -/
theorem mem_partition_after {c d : ℕ} {s : Str} (h : d ∈ (partition c s).2.2) : d ∈ s := by
  by_cases hc : c ∈ s
  · obtain ⟨a, b, rfl, ha⟩ := List.eq_append_cons_of_mem hc
    rw [partition_append b ha] at h
    exact List.mem_append_right _ (List.mem_cons_of_mem _ h)
  · rw [partition_of_not_mem hc] at h
    cases h

/-- Without the separator all is after it. -/
theorem rpartition_of_not_mem {c : ℕ} {s : Str} (h : c ∉ s) : rpartition c s = ([], false, s) := by
  rw [rpartition, partition_of_not_mem (by rwa [List.mem_reverse])]

/-- What comes before the last separator, and after it. -/
theorem rpartition_append {c : ℕ} {t : Str} (s : Str) (h : c ∉ t) :
    rpartition c (s ++ c :: t) = (s, true, t) := by
  have hsplit : (s ++ c :: t).reverse = t.reverse ++ c :: s.reverse := by simp
  rw [rpartition, hsplit, partition_append _ (by rwa [List.mem_reverse])]
  simp only [List.reverse_reverse]

/-- The last occurrence of a character splits a text. -/
theorem exists_append_of_mem_last {c : ℕ} {s : Str} (h : c ∈ s) :
    ∃ u t, s = u ++ c :: t ∧ c ∉ t := by
  obtain ⟨t, u, hs, ht⟩ := List.eq_append_cons_of_mem (List.mem_reverse.2 h)
  refine ⟨u.reverse, t.reverse, ?_, by rwa [List.mem_reverse]⟩
  rw [← List.reverse_reverse s, hs]
  simp

/-- What comes after it is a part without a separator. -/
theorem mem_rpartition {c d : ℕ} {s : Str} (h : d ∈ (rpartition c s).2.2) : d ∈ s ∧ d ≠ c := by
  by_cases hc : c ∈ s
  · obtain ⟨a, b, rfl, hb⟩ := exists_append_of_mem_last hc
    rw [rpartition_append a hb] at h
    exact ⟨List.mem_append_right _ (List.mem_cons_of_mem _ h), fun hd => hb (hd ▸ h)⟩
  · rw [rpartition_of_not_mem hc] at h
    exact ⟨h, fun hd => hc (hd ▸ h)⟩

/-- `str.lower` of an ASCII character. -/
def asciiLower (c : ℕ) : ℕ := if 65 ≤ c ∧ c ≤ 90 then c + 32 else c

/-- A letter of ASCII. -/
def isAsciiLetter (c : ℕ) : Bool := (65 ≤ c && c ≤ 90) || (97 ≤ c && c ≤ 122)

/-- What `urllib.parse` leaves to the runtime. -/
class UrlRuntime where
  /-- `str.lower` -/
  lower : Str → Str
  /-- An ASCII character that is no letter is kept, and no other becomes one. -/
  count_lower : ∀ c s, c < 128 → isAsciiLetter c = false → (lower s).count c = s.count c
  /-- `_check_bracketed_host` does not raise. -/
  bracketedHost : Str → Bool

/-! ## Splitting -/

/-- The parts of an address. -/
structure SplitResult where
  scheme : Str
  netloc : Str
  path : Str
  query : Str
  fragment : Str
  deriving DecidableEq, Repr

/-- `scheme_chars` -/
def isSchemeChar (c : ℕ) : Bool := isAsciiLetter c || isDigit c || c = 43 || c = 45 || c = 46

/-- The scheme of a URL, and what follows it. -/
def splitScheme (url : Str) : Str × Str :=
  match partition 58 url with
  | (name, true, rest) =>
      if name.head?.any isAsciiLetter && name.all isSchemeChar then (name.map asciiLower, rest)
      else ([], url)
  | (_, false, _) => ([], url)

/-- `/`, `?` or `#` -/
def isDelimiter (c : ℕ) : Bool := c = 47 || c = 63 || c = 35

/-- `_splitnetloc`, for a URL that begins with `//`. -/
def splitNetloc (url : Str) : Str × Str :=
  match url with
  | 47 :: 47 :: rest => (rest.takeWhile (!isDelimiter ·), rest.dropWhile (!isDelimiter ·))
  | _ => ([], url)

/-- The characters that NFKC takes to a text with one of `/ ? # @ :` in it. -/
def confusables : List ℕ :=
  [0x2047, 0x2048, 0x2049, 0x2100, 0x2101, 0x2105, 0x2106, 0x2a74, 0xfe13, 0xfe16, 0xfe55, 0xfe56,
    0xfe5f, 0xfe6b, 0xff03, 0xff0f, 0xff1a, 0xff1f, 0xff20]

/-- The checks that `urlsplit` makes of a network location. -/
def validNetloc [UrlRuntime] (netloc : Str) : Bool :=
  (91 ∈ netloc ↔ 93 ∈ netloc) &&
    (91 ∉ netloc || UrlRuntime.bracketedHost (partition 93 (partition 91 netloc).2.2).1) &&
    netloc.all (· ∉ confusables)

/-- A tab or a line break. -/
def isLineBreak (c : ℕ) : Bool := c = 9 || c = 13 || c = 10

/-- C0 control characters and spaces at the beginning, and tabs and line breaks anywhere, are
no part of a URL. -/
def stripUrl (url : Str) : Str :=
  (url.dropWhile (· ≤ 32)).filter (!isLineBreak ·)

/-- The components of a URL with this scheme and network location. -/
def splitLocation [UrlRuntime] (scheme netloc url : Str) : Option SplitResult :=
  let (url, _, fragment) := partition 35 url
  let (path, _, query) := partition 63 url
  if validNetloc netloc then some ⟨scheme, netloc, path, query, fragment⟩ else none

/-- `urlsplit`; `none` is its `ValueError`. -/
def urlsplit [UrlRuntime] (url : Str) : Option SplitResult :=
  let (scheme, url) := splitScheme (stripUrl url)
  let (netloc, url) := splitNetloc url
  splitLocation scheme netloc url

/-- `uses_params` -/
def usesParams : List Str :=
  [[], ofChars ['f', 't', 'p'], ofChars ['h', 'd', 'l'],
    ofChars ['p', 'r', 'o', 's', 'p', 'e', 'r', 'o'], ofChars ['h', 't', 't', 'p'],
    ofChars ['i', 'm', 'a', 'p'], ofChars ['h', 't', 't', 'p', 's'],
    ofChars ['s', 'h', 't', 't', 'p'], ofChars ['r', 't', 's', 'p'],
    ofChars ['r', 't', 's', 'p', 's'], ofChars ['r', 't', 's', 'p', 'u'], ofChars ['s', 'i', 'p'],
    ofChars ['s', 'i', 'p', 's'], ofChars ['m', 'm', 's'], ofChars ['s', 'f', 't', 'p'],
    ofChars ['t', 'e', 'l']]

/-- `_splitparams`: the parameters of the last segment. -/
def splitParams (path : Str) : Str × Str :=
  match rpartition 47 path with
  | (before, true, last) =>
      let (segment, _, params) := partition 59 last
      (before ++ 47 :: segment, params)
  | (_, false, _) =>
      let (segment, _, params) := partition 59 path
      (segment, params)

namespace SplitResult

/-- Path and parameters, as `urlparse` has them. -/
def pathParams (s : SplitResult) : Str × Str :=
  if s.scheme ∈ usesParams ∧ 59 ∈ s.path then splitParams s.path else (s.path, [])

/-- `_userinfo` -/
def userinfo (s : SplitResult) : Option Str × Option Str :=
  match rpartition 64 s.netloc with
  | (info, true, _) =>
      match partition 58 info with
      | (username, true, password) => (some username, some password)
      | (username, false, _) => (some username, none)
  | (_, false, _) => (none, none)

/-- `_hostinfo` -/
def hostinfo (s : SplitResult) : Str × Str :=
  let hostinfo := (rpartition 64 s.netloc).2.2
  match partition 91 hostinfo with
  | (_, true, bracketed) =>
      let (hostname, _, port) := partition 93 bracketed
      (hostname, (partition 58 port).2.2)
  | (_, false, _) =>
      let (hostname, _, port) := partition 58 hostinfo
      (hostname, port)

/-- The lower-case letters of a host name, but for the zone of an address. -/
def lowerHost [UrlRuntime] (hostname : Str) : Str :=
  match partition 37 hostname with
  | (name, true, zone) => UrlRuntime.lower name ++ 37 :: zone
  | (name, false, _) => UrlRuntime.lower name

/-- `hostname` -/
def hostname [UrlRuntime] (s : SplitResult) : Option Str :=
  if s.hostinfo.1 = [] then none else some (lowerHost s.hostinfo.1)

/-- `port`; `none` is its `ValueError`. -/
def port (s : SplitResult) : Option (Option ℕ) :=
  let port := s.hostinfo.2
  if port = [] then some none
  else if port.all isDigit ∧ port.length ≤ maxStrDigits ∧ digitsValue port ≤ 65535 then
    some (some (digitsValue port))
  else none

end SplitResult

/-! ## A URL of a scheme and a network location -/

namespace SplitResult

variable {s : SplitResult}

/-- The host name is of the network location, and behind its user information. -/
theorem mem_hostinfo {c : ℕ} (h : c ∈ s.hostinfo.1) : c ∈ s.netloc ∧ c ≠ 64 := by
  refine mem_rpartition (s := s.netloc) ?_
  unfold hostinfo at h
  dsimp only at h
  split at h
  · next bracketed heq =>
      have hmem : c ∈ (partition 91 (rpartition 64 s.netloc).2.2).2.2 := by
        rw [heq]
        exact (mem_partition h).1
      exact mem_partition_after hmem
  · exact (mem_partition h).1

/-- No host name in brackets has a closing bracket in it. -/
theorem not_mem_hostinfo (hopen : 91 ∈ s.netloc) (huser : 64 ∉ s.netloc) :
    93 ∉ s.hostinfo.1 := by
  obtain ⟨a, b, hab, ha⟩ := List.eq_append_cons_of_mem hopen
  intro h
  rw [hostinfo, rpartition_of_not_mem huser] at h
  simp only [hab, partition_append b ha] at h
  exact (mem_partition h).2 rfl

/-- A network location with a host in brackets. -/
theorem hostinfo_bracketed {host port : Str} (hnetloc : s.netloc = 91 :: (host ++ 93 :: 58 :: port))
    (huser : 64 ∉ s.netloc) (hhost : 93 ∉ host) : s.hostinfo = (host, port) := by
  rw [hostinfo, rpartition_of_not_mem huser, hnetloc]
  have hopen : partition 91 (91 :: (host ++ 93 :: 58 :: port)) =
      ([], true, host ++ 93 :: 58 :: port) := rfl
  simp only [hopen, partition_append _ hhost]
  rfl

/-- A network location without brackets. -/
theorem hostinfo_plain {host port : Str} (hnetloc : s.netloc = host ++ 58 :: port)
    (huser : 64 ∉ s.netloc) (hopen : 91 ∉ s.netloc) (hhost : 58 ∉ host) :
    s.hostinfo = (host, port) := by
  rw [hostinfo, rpartition_of_not_mem huser]
  simp only [partition_of_not_mem hopen]
  rw [hnetloc, partition_append _ hhost]

/-- Without `@` there is no user. -/
theorem userinfo_eq_none (huser : 64 ∉ s.netloc) : s.userinfo = (none, none) := by
  rw [userinfo, rpartition_of_not_mem huser]

/-- A port is read back. -/
theorem port_eq {n : ℕ} (h : s.hostinfo.2 = natText n) (hn : n ≤ 65535) :
    s.port = some (some n) := by
  have hne : natText n ≠ [] := by
    obtain hzero | ⟨d, ds, htext, -⟩ := natText_intPart n
    · rw [hzero]
      exact List.cons_ne_nil _ _
    · rw [htext]
      exact List.cons_ne_nil _ _
  have hlength : (natText n).length ≤ maxStrDigits := by
    unfold natText
    split
    · decide
    · rw [List.length_map, List.length_reverse]
      have hle : (Nat.digits 10 n).length ≤ 5 :=
        (Nat.digits_length_le_iff (by decide) _).2 (by omega)
      exact hle.trans (by decide)
  have hdigits : (natText n).all isDigit = true := List.all_eq_true.2 (isDigit_natText n)
  rw [port, h, if_neg hne, digitsValue_natText, if_pos ⟨hdigits, hlength, hn⟩]

/-- Only letters are changed. -/
theorem count_lowerHost [UrlRuntime] {c : ℕ} {host : Str} (hc : c < 128)
    (hletter : isAsciiLetter c = false) : (lowerHost host).count c = host.count c := by
  by_cases hzone : 37 ∈ host
  · obtain ⟨a, b, rfl, ha⟩ := List.eq_append_cons_of_mem hzone
    rw [lowerHost, partition_append b ha, List.count_append, List.count_append,
      UrlRuntime.count_lower c a hc hletter]
  · rw [lowerHost, partition_of_not_mem hzone]
    exact UrlRuntime.count_lower c host hc hletter

end SplitResult

/-- An address with a scheme has nothing to strip. -/
theorem stripUrl_scheme {name rest : Str} (hhead : name.head?.any isAsciiLetter = true)
    (hname : name.all isSchemeChar = true) :
    stripUrl (name ++ 58 :: 47 :: 47 :: rest) =
      name ++ 58 :: 47 :: 47 :: rest.filter (!isLineBreak ·) := by
  have hkept : name.filter (!isLineBreak ·) = name := by
    refine List.filter_eq_self.2 fun c hc => ?_
    have hchar := List.all_eq_true.1 hname c hc
    simp only [isSchemeChar, isAsciiLetter, isDigit, Bool.or_eq_true, Bool.and_eq_true,
      decide_eq_true_eq] at hchar
    simp only [isLineBreak, Bool.not_eq_true', Bool.or_eq_false_iff, decide_eq_false_iff_not]
    omega
  cases name with
  | nil => cases hhead
  | cons c name =>
      have hc : 32 < c := by
        simp only [List.head?_cons, Option.any_some, isAsciiLetter, Bool.or_eq_true,
          Bool.and_eq_true, decide_eq_true_eq] at hhead
        omega
      rw [stripUrl, List.cons_append, List.dropWhile_cons_of_neg (by simpa using hc),
        ← List.cons_append, List.filter_append, hkept]
      rfl

/-- The scheme is split off. -/
theorem splitScheme_of_scheme {name rest : Str} (hhead : name.head?.any isAsciiLetter = true)
    (hname : name.all isSchemeChar = true) :
    splitScheme (name ++ 58 :: rest) = (name.map asciiLower, rest) := by
  have hcolon : 58 ∉ name := fun hc => absurd (List.all_eq_true.1 hname 58 hc) (by decide)
  rw [splitScheme, partition_append rest hcolon]
  simp only [hhead, hname, Bool.and_self, if_true]

variable [UrlRuntime]

/-- **How an address with a scheme is split.** -/
theorem urlsplit_scheme (name : Str) {rest : Str}
    (hhead : name.head?.any isAsciiLetter = true)
    (hname : name.all isSchemeChar = true) :
    urlsplit (name ++ 58 :: 47 :: 47 :: rest) =
      splitLocation (name.map asciiLower)
        ((rest.filter (!isLineBreak ·)).takeWhile (!isDelimiter ·))
        ((rest.filter (!isLineBreak ·)).dropWhile (!isDelimiter ·)) := by
  rw [urlsplit, stripUrl_scheme hhead hname, splitScheme_of_scheme hhead hname]
  rfl

/-- A URL that is a network location and no more. -/
theorem splitLocation_nil {scheme netloc : Str} :
    splitLocation scheme netloc [] =
      if validNetloc netloc then some ⟨scheme, netloc, [], [], []⟩ else none :=
  rfl

/-- **A URL that goes on after the network location** has a path, a query or a fragment,
unless it ends with its delimiter. -/
theorem splitLocation_append {scheme netloc url : Str} {d : ℕ} {r : SplitResult}
    (hd : isDelimiter d = false)
    (h : splitLocation scheme netloc (url ++ [d]) = some r) :
    r.path ≠ [] ∨ r.query ≠ [] ∨ r.fragment ≠ [] := by
  have hne : ∀ {s : Str}, s ++ [d] ≠ [] := List.append_ne_nil_of_right_ne_nil _ (List.cons_ne_nil d [])
  have hmem : ∀ {c : ℕ} {s : Str}, isDelimiter c = true → c ∈ s ++ [d] → c ∈ s := by
    intro c s hc hs
    obtain hs | hs := List.mem_append.1 hs
    · exact hs
    · rw [← List.mem_singleton.1 hs, hc] at hd
      cases hd
  unfold splitLocation at h
  by_cases hfragment : 35 ∈ url ++ [d]
  · obtain ⟨a, b, hab, ha⟩ := List.eq_append_cons_of_mem (hmem rfl hfragment)
    have hpart : partition 35 (url ++ [d]) = (a, true, b ++ [d]) := by
      rw [hab, List.append_assoc, List.cons_append, partition_append _ ha]
    rw [hpart] at h
    obtain ⟨-, ⟨⟩⟩ := Option.ite_none_right_eq_some.1 h
    exact Or.inr (Or.inr hne)
  · rw [partition_of_not_mem hfragment] at h
    dsimp only at h
    by_cases hquery : 63 ∈ url ++ [d]
    · obtain ⟨a, b, hab, ha⟩ := List.eq_append_cons_of_mem (hmem rfl hquery)
      have hpart : partition 63 (url ++ [d]) = (a, true, b ++ [d]) := by
        rw [hab, List.append_assoc, List.cons_append, partition_append _ ha]
      rw [hpart] at h
      obtain ⟨-, ⟨⟩⟩ := Option.ite_none_right_eq_some.1 h
      exact Or.inr (Or.inl hne)
    · rw [partition_of_not_mem hquery] at h
      obtain ⟨-, ⟨⟩⟩ := Option.ite_none_right_eq_some.1 h
      exact Or.inl hne

end Python
end Paqto
