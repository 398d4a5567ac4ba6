import UHorse.Agent.SessionKey
import UHorse.Lib.IpAddr
import UHorse.Lib.Text
import UHorse.Protocol.Types

/-!
# The targets of planned browser commands

The Hub reads the shown host of a URL as an address once more. An address of version 4 is shown and
read back as it is, in whatever notation the URL had it; one of version 6 is shown in brackets, with
which no text is an address, so it is taken whatever it is for. Of the names below `localhost` only
`localhost` itself is refused.
-/

namespace UHorse.Hub.Web

open Agent (isWhitespace)
open Lib.IpAddr Lib.Text Protocol

inductive Host
  | domain (name : List Char)
  | ipv4 (address : Ipv4Addr)
  | ipv6 (address : Ipv6Addr)

structure Url where
  scheme : String
  host : Option Host

/-- How the `url` crate reads a text and shows an address of version 6. The domain of a URL whose
scheme is special is in lower case and without white space. -/
structure UrlCrate where
  parse : String → Option Url
  displayIpv6 : Ipv6Addr → List Char
  plain : ∀ {text : String} {url : Url} {name : List Char}, parse text = some url →
    url.scheme = "http" ∨ url.scheme = "https" → url.host = some (.domain name) →
      ∀ c ∈ name, isWhitespace c = false ∧ c.toLower = c

/-- `Url::host_str`. -/
def UrlCrate.hostStr (crate : UrlCrate) : Host → List Char
  | .domain name => name
  | .ipv4 address => address.display
  | .ipv6 address => '[' :: crate.displayIpv6 address ++ [']']

def refusedIpv4 (address : Ipv4Addr) : Bool :=
  address.isLoopback || address.isPrivate || address.isLinkLocal || address.isUnspecified ||
    address.isBroadcast || address.isDocumentation

def refusedIpv6 (address : Ipv6Addr) : Bool :=
  address.isLoopback || address.isUniqueLocal || address.isUnicastLinkLocal ||
    address.isUnspecified

def localNames : List (List Char) := ["localhost".toList, "localhost.localdomain".toList]

def validateHost (shown : List Char) : Except String Unit :=
  let host := (trim isWhitespace shown).map Char.toLower
  if host ∈ localNames then .error "禁止访问 localhost 目标。"
  else
    match parse host with
    | some (.v4 address) =>
      if refusedIpv4 address then .error "禁止访问本机或私网 IPv4 目标。" else .ok ()
    | some (.v6 address) =>
      if refusedIpv6 address then .error "禁止访问本机或私网 IPv6 目标。" else .ok ()
    | none => .ok ()

def validateBrowserTargetUrl (crate : UrlCrate) (url : String) : Except String Unit :=
  match crate.parse url with
  | none => .error "浏览器 URL 非法。"
  | some parsed =>
    if parsed.scheme = "http" ∨ parsed.scheme = "https" then
      match parsed.host with
      | none => .error "浏览器 URL 缺少主机名。"
      | some host => validateHost (crate.hostStr host)
    else .error "浏览器命令只允许 http/https URL。"

/-! ## Internal hosts -/

/-- The labels of a name; a dot behind the last one is the root. -/
def labels (name : List Char) : List (List Char) :=
  let pieces := name.splitOn '.'
  if pieces.getLast? = some [] then pieces.dropLast else pieces

/-- `localhost` or a name below it. -/
def IsLocalhost (name : List Char) : Prop := (labels name).getLast? = some "localhost".toList

def internalIpv4 (address : Ipv4Addr) : Bool :=
  address.isLoopback || address.isPrivate || address.isLinkLocal || address.isUnspecified

/-- Loopback, private, link-local or unspecified, itself or by the address of version 4 in it. -/
def internalIpv6 (address : Ipv6Addr) : Bool :=
  address.isLoopback || address.isUniqueLocal || address.isUnicastLinkLocal ||
    address.isUnspecified || address.embedded.any internalIpv4

def IsInternal : Host → Prop
  | .domain name => IsLocalhost name
  | .ipv4 address => internalIpv4 address = true
  | .ipv6 address => internalIpv6 address = true

/-- The hosts that are internal only if they are refused: a name below `localhost` but itself, and
an internal address of version 6, are not among them. -/
def RefusedIfInternal : Host → Prop
  | .domain name => IsLocalhost name → name = "localhost".toList
  | .ipv4 _ => True
  | .ipv6 address => internalIpv6 address = false

/-! ## Which hosts pass -/

/-- Neither white space nor capital letters are in an address of version 4. -/
theorem display_plain (address : Ipv4Addr) :
    ∀ c ∈ address.display, isWhitespace c = false ∧ c.toLower = c := by
  intro c member
  obtain rfl | digit := digits_of_display c member
  · exact ⟨rfl, rfl⟩
  · have range : 48 ≤ c.toNat ∧ c.toNat ≤ 57 := Char.isDigit_iff_toNat.mp digit
    refine ⟨?_, dif_neg fun capital => ?_⟩
    · rw [isWhitespace]
      simp
      omega
    · have low : 65 ≤ c.toNat := UInt32.le_iff_toNat_le.mp capital.1
      omega

theorem normalized {text : List Char}
    (plain : ∀ c ∈ text, isWhitespace c = false ∧ c.toLower = c) :
    (trim isWhitespace text).map Char.toLower = text := by
  rw [trim_of_ends fun c first => (plain c (List.mem_of_mem_head? first)).1]
  · exact (List.map_congr_left fun c member => (plain c member).2).trans (List.map_id text)
  · exact fun c last => (plain c (List.mem_of_getLast? last)).1

/-- A bracketed text is no address, and no name either. -/
theorem validateHost_bracketed (shown : List Char) :
    validateHost ('[' :: shown ++ [']']) = .ok () := by
  have whole : trim isWhitespace ('[' :: shown ++ [']']) = '[' :: shown ++ [']'] := by
    refine trim_of_ends ?_ ?_
    · rintro c ⟨⟩
      rfl
    · rw [List.getLast?_concat]
      rintro c ⟨⟩
      rfl
  have bracket : '[' ∈ ('[' :: shown ++ [']']).map Char.toLower :=
    List.mem_map.mpr ⟨'[', by simp, rfl⟩
  have other : ('[' :: shown ++ [']']).map Char.toLower ∉ localNames := by
    intro listed
    have each : ∀ name ∈ localNames, '[' ∉ name := by decide
    exact each _ listed bracket
  simp only [validateHost, whole, if_neg other, parse_eq_none bracket rfl]

theorem validateHost_ipv4 (address : Ipv4Addr) :
    validateHost address.display = .ok () ↔ refusedIpv4 address = false := by
  have other : address.display ∉ localNames := by
    intro listed
    have each : ∀ name ∈ localNames, 'l' ∈ name := by decide
    have letter := letters_of_parse (parse_display address) 'l' (each _ listed)
    cases letter
  simp only [validateHost, normalized (display_plain address), if_neg other, parse_display]
  cases refusedIpv4 address <;> simp

theorem refusedIpv4_of_internal {address : Ipv4Addr} (internal : internalIpv4 address = true) :
    refusedIpv4 address = true := by
  rw [refusedIpv4]
  rw [Bool.or_assoc]
  exact Bool.or_eq_true_iff.mpr (.inl internal)

theorem mem_of_isLocalhost {name : List Char} (local_ : IsLocalhost name) : 'l' ∈ name := by
  have piece : "localhost".toList ∈ name.splitOn '.' := by
    have last := List.mem_of_getLast? local_
    simp only [labels] at last
    split_ifs at last with root
    · exact List.mem_of_mem_dropLast last
    · exact last
  exact (exists_mem_splitOn.mp ⟨_, piece, by decide⟩).1

/-- Of the names below `localhost` only the one itself is refused. -/
theorem validateHost_localhost {name : List Char} (local_ : IsLocalhost name)
    (plain : ∀ c ∈ name, isWhitespace c = false ∧ c.toLower = c) :
    validateHost name = .ok () ↔ name ≠ "localhost".toList := by
  have letter : isLetter 'l' = false := by decide
  have domain : name ≠ "localhost.localdomain".toList := by
    rintro rfl
    revert local_
    rw [IsLocalhost]
    decide
  have listed : name ∈ localNames ↔ name = "localhost".toList := by
    simp only [localNames, List.mem_cons, List.not_mem_nil, or_false, domain]
  simp only [validateHost, normalized plain, listed,
    parse_eq_none (mem_of_isLocalhost local_) letter]
  by_cases itself : name = "localhost".toList
  · rw [if_pos itself]
    exact ⟨fun accepted => (by cases accepted), fun other => absurd itself other⟩
  · rw [if_neg itself]
    exact ⟨fun _ => itself, fun _ => rfl⟩

/-- What the Hub accepts is no internal host just when the host is guarded: it is not a name below
`localhost` other than that name, and not an internal address of version 6. -/
theorem accepted_not_internal_iff (crate : UrlCrate) (url : String) :
    (validateBrowserTargetUrl crate url = .ok () → ∀ parsed, crate.parse url = some parsed →
        ∀ host, parsed.host = some host → ¬ IsInternal host) ↔
      ∀ parsed, crate.parse url = some parsed → parsed.scheme = "http" ∨ parsed.scheme = "https" →
        ∀ host, parsed.host = some host → RefusedIfInternal host := by
  constructor
  · intro safe parsed found scheme host shown
    have accepted : validateHost (crate.hostStr host) = .ok () → ¬ IsInternal host := by
      intro taken
      refine safe ?_ parsed found host shown
      simp only [validateBrowserTargetUrl, found, if_pos scheme, shown, taken]
    cases host with
    | domain name =>
      intro local_
      by_contra other
      have plain := crate.plain found scheme shown
      exact accepted ((validateHost_localhost local_ plain).mpr other) local_
    | ipv4 address => trivial
    | ipv6 address =>
      exact Bool.eq_false_iff.mpr (accepted (validateHost_bracketed _))
  · intro guarded taken parsed found host shown internal
    simp only [validateBrowserTargetUrl, found, shown] at taken
    split_ifs at taken with scheme
    have fits := guarded parsed found scheme host shown
    cases host with
    | domain name =>
      have plain := crate.plain found scheme shown
      exact (validateHost_localhost internal plain).mp taken (fits internal)
    | ipv4 address =>
      have unrefused := (validateHost_ipv4 address).mp taken
      rw [refusedIpv4_of_internal internal] at unrefused
      cases unrefused
    | ipv6 address =>
      have open_ : internalIpv6 address = false := fits
      have closed : internalIpv6 address = true := internal
      rw [open_] at closed
      cases closed

/-- The `url` crate at two texts. -/
def sampleCrate : UrlCrate where
  parse text :=
    if text = "http://[::1]/" then some ⟨"http", some (.ipv6 (.ofList [0, 0, 0, 0, 0, 0, 0, 1]))⟩
    else if text = "http://admin.localhost/" then
      some ⟨"http", some (.domain "admin.localhost".toList)⟩
    else none
  displayIpv6 _ := "::1".toList
  plain := by
    intro text url name parsed _ shown
    split_ifs at parsed
    · obtain rfl := Option.some.inj parsed
      cases shown
    · obtain rfl := Option.some.inj parsed
      obtain rfl := Host.domain.inj (Option.some.inj shown)
      have each : "admin.localhost".toList.all
          (fun c => !isWhitespace c && c.toLower == c) = true := by decide
      intro c member
      simpa using List.all_eq_true.mp each c member

/-- The loopback address of version 6 and a name below `localhost` are accepted. -/
theorem internal_accepted :
    (validateBrowserTargetUrl sampleCrate "http://[::1]/" = .ok () ∧
      ∃ parsed host, sampleCrate.parse "http://[::1]/" = some parsed ∧
        parsed.host = some host ∧ IsInternal host) ∧
    validateBrowserTargetUrl sampleCrate "http://admin.localhost/" = .ok () ∧
      ∃ parsed host, sampleCrate.parse "http://admin.localhost/" = some parsed ∧
        parsed.host = some host ∧ IsInternal host := by
  refine ⟨⟨by decide, _, _, rfl, rfl, ?_⟩, by decide, _, _, rfl, rfl, ?_⟩
  · show internalIpv6 _ = true
    decide
  · show (labels _).getLast? = _
    decide

end UHorse.Hub.Web
