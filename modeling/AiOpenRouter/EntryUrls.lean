/-
The URL that is written into agents (`services/integration_service.rs`).

`buildGroupEntryUrl` takes the first base that it can use: the override, the two addresses of the
status, the configured host, the address that a UDP socket gets, and at last 127.0.0.1.

The `url` crate is the parser of `WebUrls`.

* `buildGroupEntryUrl_eq`: the URL is the one of the source that is taken;
* `dialable_iff`: when it can be dialled.
-/
import AiOpenRouter.ConfigValidation
import AiOpenRouter.HostAndPort
import AiOpenRouter.JsonText
import AiOpenRouter.RemoteRequests
import AiOpenRouter.ServerAddresses

namespace AiOpenRouter.EntryUrl

open WebUrls

/-! ### Bases -/

/-- `is_wildcard_host`. -/
def isWildcardHost (host : List Char) : Bool :=
  host = "0.0.0.0".toList || host = "::".toList || host = "::0".toList

/-- `is_loopback_or_localhost_host`. -/
def isLoopbackOrLocalhostHost (host : List Char) : Bool :=
  host = "localhost".toList || host = "127.0.0.1".toList || host = "::1".toList

def withScheme (raw : List Char) : List Char :=
  if "http://".toList.isPrefixOf raw || "https://".toList.isPrefixOf raw then raw
  else "http://".toList ++ raw

def hostText (parsed : WebUrl) : List Char := (Text.trim parsed.host).map Char.toLower

section

variable (std : UrlStandard)

def parsedAddress (raw : List Char) : Option WebUrl :=
  let raw := Text.trim raw
  if raw = [] then none else std.parse (withScheme raw)

def baseUrl (parsed : WebUrl) (fallbackPort : ℕ) : List Char :=
  Text.trimEndMatches (· = '/')
    (if parsed.port = none then parsed.setPort fallbackPort else parsed).clearPath.serialize

def acceptedBaseUrl (rejects : List Char → Bool) (raw : List Char) (fallbackPort : ℕ) :
    Option (List Char) :=
  (parsedAddress std raw).bind fun parsed =>
    if rejects (hostText parsed) then none else some (baseUrl parsed fallbackPort)

def rejectsOverride (host : List Char) : Bool := host = [] || isWildcardHost host

/-- `normalize_base_url_override`. -/
def normalizeBaseUrlOverride (raw : List Char) (fallbackPort : ℕ) : Option (List Char) :=
  acceptedBaseUrl std rejectsOverride raw fallbackPort

def rejectsStatus (host : List Char) : Bool :=
  isLoopbackOrLocalhostHost host || isWildcardHost host

/-- `choose_ip_base_url_from_status`. -/
def chooseIpBaseUrlFromStatus (raw : Option (List Char)) (fallbackPort : ℕ) :
    Option (List Char) :=
  raw.bind fun raw => acceptedBaseUrl std rejectsStatus raw fallbackPort

end

/-- `choose_ip_host_from_config`. -/
def chooseIpHostFromConfig (rawHost : List Char) : Option (List Char) :=
  let host := (trimMatches (fun c => c = '[' || c = ']') (Text.trim rawHost)).map Char.toLower
  if host = [] || isWildcardHost host || isLoopbackOrLocalhostHost host then none else some host

/-- `detect_local_ipv4`, on the address that the socket gets. -/
def detectLocalIpv4 : Option Net.IpAddr → Option Net.Ipv4Addr
  | some (.v4 v4) => if (Net.IpAddr.v4 v4).isLoopback then none else some v4
  | _ => none

def ipv4Text (ip : Net.Ipv4Addr) : List Char := UrlStandard.dottedText ip.a ip.b ip.c ip.d

def entryPath (groupId : List Char) : List Char := ['/', 'o', 'c', '/'] ++ groupId

/-- What `build_group_entry_url` is given besides the configuration and the group. -/
structure Surroundings where
  baseUrlOverride : Option (List Char)
  /-- `status.lan_address`. -/
  lanAddress : Option (List Char)
  /-- `status.address`. -/
  address : Option (List Char)
  /-- The local address of the UDP socket: none when it cannot be had. -/
  localAddr : Option Net.IpAddr

/-- `build_group_entry_url`. -/
def buildGroupEntryUrl (std : UrlStandard) (around : Surroundings) (config : ProxyConfig)
    (groupId : List Char) : List Char :=
  let port := config.server.port.toNat
  match around.baseUrlOverride.bind fun raw => normalizeBaseUrlOverride std raw port with
  | some baseUrl => baseUrl ++ entryPath groupId
  | none =>
    match chooseIpBaseUrlFromStatus std around.lanAddress port with
    | some baseUrl => baseUrl ++ entryPath groupId
    | none =>
      match chooseIpBaseUrlFromStatus std around.address port with
      | some baseUrl => baseUrl ++ entryPath groupId
      | none =>
        match chooseIpHostFromConfig config.server.host.toList with
        | some host => hostAndPort host port (entryPath groupId)
        | none =>
          match detectLocalIpv4 around.localAddr with
          | some ip => hostAndPort (ipv4Text ip) port (entryPath groupId)
          | none => hostAndPort "127.0.0.1".toList port (entryPath groupId)

/-! ### Where the host comes from -/

inductive Source where
  /-- The override or an address of the status, with the URL that it is read as. -/
  | given (raw : List Char) (parsed : WebUrl)
  | configured (host : List Char)
  | detected (ip : Net.Ipv4Addr)
  | loopback

namespace Source

/-- The URL that is built. -/
def url (groupId : List Char) (port : ℕ) : Source → List Char
  | given _ parsed => baseUrl parsed port ++ entryPath groupId
  | configured host => hostAndPort host port (entryPath groupId)
  | detected ip => hostAndPort (ipv4Text ip) port (entryPath groupId)
  | loopback => hostAndPort "127.0.0.1".toList port (entryPath groupId)

/-- The port that the text names, or else the one of the server. -/
def port (serverPort : ℕ) : Source → ℕ
  | given raw _ => (explicitPort (withScheme (Text.trim raw))).getD serverPort
  | _ => serverPort

end Source

section

variable (std : UrlStandard)

def givenSource (rejects : List Char → Bool) (raw : Option (List Char)) : Option Source :=
  raw.bind fun raw =>
    ((parsedAddress std raw).filter fun parsed => !rejects (hostText parsed)).map (.given raw)

/-- The source that is taken: the first one that can be used. -/
def entrySource (around : Surroundings) (host : List Char) : Source :=
  ((givenSource std rejectsOverride around.baseUrlOverride).or <|
    (givenSource std rejectsStatus around.lanAddress).or <|
    (givenSource std rejectsStatus around.address).or <|
    ((chooseIpHostFromConfig host).map .configured).or
      ((detectLocalIpv4 around.localAddr).map .detected)).getD .loopback

end

section

variable {std : UrlStandard}

theorem givenSource_eq_some {rejects : List Char → Bool} {raw : Option (List Char)}
    {source : Source} (h : givenSource std rejects raw = some source) :
    ∃ text parsed, raw = some text ∧ source = .given text parsed ∧
      parsedAddress std text = some parsed ∧ rejects (hostText parsed) = false := by
  obtain ⟨text, rfl, h⟩ := Option.bind_eq_some_iff.1 h
  obtain ⟨parsed, hparsed, rfl⟩ := Option.map_eq_some_iff.1 h
  obtain ⟨hparsed, hkept⟩ := Option.filter_eq_some_iff.1 hparsed
  exact ⟨text, parsed, rfl, rfl, hparsed, by simpa using hkept⟩

theorem base_of_givenSource (rejects : List Char → Bool) (raw : Option (List Char)) (port : ℕ) :
    (givenSource std rejects raw = none ∧
        (raw.bind fun raw => acceptedBaseUrl std rejects raw port) = none) ∨
      ∃ text parsed, givenSource std rejects raw = some (.given text parsed) ∧
        (raw.bind fun raw => acceptedBaseUrl std rejects raw port) =
          some (baseUrl parsed port) := by
  cases raw with
  | none => exact .inl ⟨rfl, rfl⟩
  | some text =>
    rw [givenSource, Option.bind_some, Option.bind_some, acceptedBaseUrl]
    cases parsedAddress std text with
    | none => exact .inl ⟨rfl, rfl⟩
    | some parsed =>
      rw [Option.filter_some, Option.bind_some]
      cases rejects (hostText parsed) with
      | true => exact .inl ⟨rfl, rfl⟩
      | false => exact .inr ⟨text, parsed, rfl, rfl⟩

theorem buildGroupEntryUrl_eq (around : Surroundings) (config : ProxyConfig)
    (groupId : List Char) :
    buildGroupEntryUrl std around config groupId =
      (entrySource std around config.server.host.toList).url groupId config.server.port.toNat := by
  unfold buildGroupEntryUrl entrySource normalizeBaseUrlOverride chooseIpBaseUrlFromStatus
  dsimp only
  rcases base_of_givenSource rejectsOverride around.baseUrlOverride config.server.port.toNat
    with ⟨hsource, hbase⟩ | ⟨text, parsed, hsource, hbase⟩
  case inr =>
    rw [hsource, hbase]
    rfl
  rw [hsource, hbase]
  rcases base_of_givenSource rejectsStatus around.lanAddress config.server.port.toNat
    with ⟨hsource, hbase⟩ | ⟨text, parsed, hsource, hbase⟩
  case inr =>
    rw [hsource, hbase]
    rfl
  rw [hsource, hbase]
  rcases base_of_givenSource rejectsStatus around.address config.server.port.toNat
    with ⟨hsource, hbase⟩ | ⟨text, parsed, hsource, hbase⟩
  case inr =>
    rw [hsource, hbase]
    rfl
  rw [hsource, hbase]
  cases chooseIpHostFromConfig config.server.host.toList with
  | some host => rfl
  | none => cases detectLocalIpv4 around.localAddr <;> rfl

/-! ### What can be dialled -/

def IsWildcard (host : List Char) : Prop :=
  host = "0.0.0.0".toList ∨ host = "::".toList ∨ host = "[::]".toList

/-- A text is the URL of a group at a port, on a host that can be dialled. -/
def Dialable (std : UrlStandard) (text groupId : List Char) (port : ℕ) : Prop :=
  ∃ url, std.parse text = some url ∧ url.path = entryPath groupId ∧ ¬IsWildcard url.host ∧
    (':' ∈ url.host → ∃ address, url.host = '[' :: (address ++ [']'])) ∧ url.effectivePort = port

/-- A host text that can be dialled: no separator ends it, and what follows the user information
is a host, and no wildcard. -/
def NamesHost (std : UrlStandard) (host : List Char) : Prop :=
  (∀ c ∈ afterSlashes host, endsAuthority c = false) ∧ namedHost host ≠ [] ∧
    ∃ address, std.parseHost (namedHost host) = some address ∧ ¬IsWildcard address

/-- When the URL of a source can be dialled. A default port that is written out is lost, unless it
is the one of the server. -/
def Source.Sound (std : UrlStandard) (serverPort : ℕ) : Source → Prop
  | given raw parsed => parsed.host ≠ "[::]".toList ∧
      (explicitPort (withScheme (Text.trim raw)) = some (defaultPort parsed.secure) →
        serverPort = defaultPort parsed.secure)
  | configured host => NamesHost std host
  | detected ip => ip ≠ ⟨0, 0, 0, 0⟩
  | loopback => True

theorem bracketed_of_colon {host : List Char} (h : HostText host) (hcolon : ':' ∈ host) :
    ∃ address, host = '[' :: (address ++ [']']) := by
  rcases h.shape with ⟨hnone, -, -⟩ | ⟨address, heq, -, -⟩
  · exact absurd hcolon hnone
  · exact ⟨address, heq⟩

section

variable {groupId : List Char} (hchars : ∀ c ∈ groupId, UrlStandard.isPathChar c = true)

include hchars

theorem isPathChar_entryPath :
    ∀ c ∈ ['o', 'c', '/'] ++ groupId, UrlStandard.isPathChar c = true := by
  intro c hc
  rcases List.mem_append.1 hc with hmem | hmem
  · have hall : ['o', 'c', '/'].all UrlStandard.isPathChar = true := by decide
    exact List.all_eq_true.1 hall c hmem
  · exact hchars c hmem

/-- **A host and a port** can be dialled exactly where the host is one. -/
theorem dialable_hostAndPort_iff (hstd : std.Lawful) {host : List Char} {port : ℕ}
    (hport : port ≤ 65535) :
    Dialable std (hostAndPort host port (entryPath groupId)) groupId port ↔ NamesHost std host := by
  have hpath := isPathChar_entryPath hchars
  by_cases hopen : ∀ c ∈ afterSlashes host, endsAuthority c = false
  · have hparse := parse_hostAndPort hstd hport hpath hopen
    constructor
    · rintro ⟨url, hurl, -, hwildcard, -, -⟩
      have hurl := hparse.symm.trans hurl
      by_cases hnil : namedHost host = []
      · rw [if_pos hnil] at hurl
        cases hurl
      rw [if_neg hnil] at hurl
      obtain ⟨address, haddress, rfl⟩ := Option.map_eq_some_iff.1 hurl
      exact ⟨hopen, hnil, address, haddress, hwildcard⟩
    · rintro ⟨-, hnil, address, haddress, hwildcard⟩
      rw [if_neg hnil, haddress] at hparse
      refine ⟨_, hparse, rfl, hwildcard, bracketed_of_colon (std.hostText haddress), ?_⟩
      rw [WebUrl.effectivePort]
      dsimp only
      split_ifs with hdefault
      · exact hdefault.symm
      · rfl
  · refine iff_of_false ?_ fun hnames => hopen hnames.1
    rintro ⟨url, hurl, hread, -⟩
    have hcolon := colon_mem_path hstd hpath hopen hurl
    rw [hread] at hcolon
    rcases List.mem_cons.1 hcolon with heq | hmem
    · exact absurd heq (by decide)
    · exact absurd (hpath _ hmem) (by decide)

end

/-! ### IPv4 addresses -/

theorem digits_dot_inj {m n : ℕ} {s t : List Char}
    (h : Nat.toDigits 10 m ++ '.' :: s = Nat.toDigits 10 n ++ '.' :: t) : m = n ∧ s = t := by
  have hkeep : ∀ k : ℕ, ∀ c ∈ Nat.toDigits 10 k, decide (c ≠ '.') = true := fun k c hc =>
    decide_eq_true fun heq => absurd (heq ▸ isDigit_of_mem_digits hc) (by decide)
  have htake := congrArg (List.takeWhile (decide <| · ≠ '.')) h
  have hdrop := congrArg (List.dropWhile (decide <| · ≠ '.')) h
  rw [List.takeWhile_append_of_pos (hkeep m), List.takeWhile_append_of_pos (hkeep n),
    List.takeWhile_cons_of_neg (by simp), List.takeWhile_cons_of_neg (by simp), List.append_nil,
    List.append_nil] at htake
  rw [List.dropWhile_append_of_pos (hkeep m), List.dropWhile_append_of_pos (hkeep n),
    List.dropWhile_cons_of_neg (by simp), List.dropWhile_cons_of_neg (by simp)] at hdrop
  exact ⟨toDigits_injective htake, (List.cons.inj hdrop).2⟩

theorem ipv4Text_injective {ip ip' : Net.Ipv4Addr} (h : ipv4Text ip = ipv4Text ip') : ip = ip' := by
  obtain ⟨a, b, c, d⟩ := ip
  obtain ⟨a', b', c', d'⟩ := ip'
  obtain ⟨ha, h⟩ := digits_dot_inj h
  obtain ⟨hb, h⟩ := digits_dot_inj h
  obtain ⟨hc, h⟩ := digits_dot_inj h
  obtain rfl : a = a' := UInt8.toNat_inj.1 ha
  obtain rfl : b = b' := UInt8.toNat_inj.1 hb
  obtain rfl : c = c' := UInt8.toNat_inj.1 hc
  obtain rfl : d = d' := UInt8.toNat_inj.1 (toDigits_injective h)
  rfl

theorem namesHost_ipv4Text_iff (hstd : std.Lawful) (ip : Net.Ipv4Addr) :
    NamesHost std (ipv4Text ip) ↔ ip ≠ ⟨0, 0, 0, 0⟩ := by
  have hchar : ∀ c ∈ ipv4Text ip, IsPlain c ∧ c ≠ ':' ∧ c ≠ '[' ∧ c ≠ ']' := fun c hc =>
    UrlStandard.isPlain_of_isHostChar (UrlStandard.isHostChar_of_mem_dottedText hc)
  have hafter : afterSlashes (ipv4Text ip) = ipv4Text ip :=
    afterSlashes_of_plain fun c hc => (hchar c hc).1
  have hnamed : namedHost (ipv4Text ip) = ipv4Text ip := by
    rw [namedHost, hafter, splitUserinfo, if_neg fun hat => (hchar _ hat).1.noAt rfl]
  have hzero : ipv4Text ⟨0, 0, 0, 0⟩ = "0.0.0.0".toList := by decide
  have hwildcard : IsWildcard (ipv4Text ip) ↔ ip = ⟨0, 0, 0, 0⟩ := by
    constructor
    · rintro (heq | heq | heq)
      · exact ipv4Text_injective (heq.trans hzero.symm)
      · have hmem : ':' ∈ ipv4Text ip := heq ▸ by decide
        exact absurd rfl (hchar _ hmem).2.1
      · have hmem : ':' ∈ ipv4Text ip := heq ▸ by decide
        exact absurd rfl (hchar _ hmem).2.1
    · rintro rfl
      exact .inl hzero
  have hhost : std.parseHost (ipv4Text ip) = some (ipv4Text ip) :=
    hstd.parseHost_dottedText ip.a ip.b ip.c ip.d
  have hne : ipv4Text ip ≠ [] := (std.hostText hhost).ne_nil
  rw [NamesHost, hafter, hnamed, hhost]
  constructor
  · rintro ⟨-, -, address, haddress, hnot⟩ heq
    cases haddress
    exact hnot (hwildcard.2 heq)
  · intro hip
    exact ⟨fun c hc => (hchar c hc).1.inside, hne, _, rfl, fun hwild => hip (hwildcard.1 hwild)⟩

/-! ### Overrides and addresses -/

def withPort (parsed : WebUrl) (fallbackPort : ℕ) : WebUrl :=
  if parsed.port = none then parsed.setPort fallbackPort else parsed

variable {parsed : WebUrl} {groupId raw : List Char} {port : ℕ}

theorem parse_baseUrl (hstd : std.Lawful) (hchars : ∀ c ∈ groupId, UrlStandard.isPathChar c = true)
    (h : std.Normal parsed) (port : ℕ) :
    std.parse (baseUrl parsed port ++ entryPath groupId) =
      some { withPort parsed port with path := entryPath groupId } := by
  have hnormal : std.Normal (withPort parsed port) := by
    rw [withPort]
    split_ifs
    · exact h.setPort port
    · exact h
  have hbase : baseUrl parsed port = (withPort parsed port).base := withoutSlashes_serialize hnormal
  have hpath := isPathChar_entryPath hchars
  have hvisible : ∀ c ∈ entryPath groupId, 32 < c.toNat := by
    intro c hc
    rcases List.mem_cons.1 hc with rfl | hc
    · decide
    · exact visible_of_isPathChar (hpath c hc)
  have hencode : std.encodePath (entryPath groupId) = entryPath groupId :=
    hstd.encodePath_plain hpath
  have hend : ∀ c ∈ (entryPath groupId).head?, endsAuthority c = true := by
    intro c hc
    cases hc
    decide
  rw [hbase, UrlStandard.parse_base_append hnormal hvisible hend, hencode]

theorem effectivePort_withPort_iff {text : List Char} (h : std.parse text = some parsed)
    (hport : port ≤ 65535) :
    (withPort parsed port).effectivePort = (explicitPort text).getD port ↔
      (explicitPort text = some (defaultPort parsed.secure) →
        port = defaultPort parsed.secure) := by
  have hread := UrlStandard.port_of_parse h
  rw [withPort]
  cases hexplicit : explicitPort text with
  | none =>
    rw [hexplicit, Option.filter_none] at hread
    rw [if_pos hread, WebUrl.effectivePort_setPort hport]
    exact iff_of_true rfl fun hnone => absurd hnone (by simp)
  | some named =>
    rw [hexplicit, Option.filter_some] at hread
    by_cases hdefault : named = defaultPort parsed.secure
    · rw [if_neg (by simpa using hdefault)] at hread
      rw [if_pos hread, WebUrl.effectivePort_setPort hport, hdefault]
      exact ⟨fun heq _ => heq, fun heq => heq rfl⟩
    · rw [if_pos (by simpa using hdefault)] at hread
      rw [if_neg (by simp [hread]), WebUrl.effectivePort, hread]
      exact iff_of_true rfl fun heq => absurd (Option.some.inj heq) hdefault

theorem parse_of_parsedAddress (h : parsedAddress std raw = some parsed) :
    std.parse (withScheme (Text.trim raw)) = some parsed := by
  rw [parsedAddress] at h
  split_ifs at h with hnil
  exact h

theorem isWildcard_of_accepted (h : isWildcardHost (hostText parsed) = false) :
    IsWildcard parsed.host ↔ parsed.host = "[::]".toList := by
  have hspelled : ∀ host : List Char, parsed.host = host →
      isWildcardHost ((Text.trim host).map Char.toLower) = false := by
    rintro host rfl
    exact h
  constructor
  · rintro (heq | heq | heq)
    · exact absurd (hspelled _ heq) (by decide)
    · exact absurd (hspelled _ heq) (by decide)
    · exact heq
  · exact fun heq => .inr (.inr heq)

/-- **An override or an address** that passes the checks. -/
theorem dialable_given_iff (hstd : std.Lawful)
    (hchars : ∀ c ∈ groupId, UrlStandard.isPathChar c = true)
    (hparsed : parsedAddress std raw = some parsed)
    (haccepted : isWildcardHost (hostText parsed) = false) (hport : port ≤ 65535) :
    Dialable std (baseUrl parsed port ++ entryPath groupId) groupId
        ((explicitPort (withScheme (Text.trim raw))).getD port) ↔
      (Source.given raw parsed).Sound std port := by
  have htext := parse_of_parsedAddress hparsed
  have hnormal := UrlStandard.normal_of_parse htext
  have hread := parse_baseUrl hstd hchars hnormal port
  have hhost : (withPort parsed port).host = parsed.host := by
    rw [withPort]
    split_ifs
    · exact WebUrl.setPort_host parsed port
    · rfl
  rw [Source.Sound, ← effectivePort_withPort_iff htext hport, ne_eq,
    ← isWildcard_of_accepted haccepted]
  constructor
  · rintro ⟨url, hurl, -, hwildcard, -, hport⟩
    obtain rfl := Option.some.inj (hread.symm.trans hurl)
    have hwildcard : ¬IsWildcard (withPort parsed port).host := hwildcard
    rw [hhost] at hwildcard
    exact ⟨hwildcard, hport⟩
  · rintro ⟨hwildcard, hport⟩
    refine ⟨_, hread, rfl, ?_, ?_, hport⟩
    · show ¬IsWildcard (withPort parsed port).host
      rwa [hhost]
    · show ':' ∈ (withPort parsed port).host → _
      rw [hhost]
      exact bracketed_of_colon (std.hostText hnormal.host)

/-! ### The URL of a group -/

theorem accepted_of_entrySource {around : Surroundings} {host : List Char}
    (h : entrySource std around host = .given raw parsed) :
    parsedAddress std raw = some parsed ∧ isWildcardHost (hostText parsed) = false := by
  have hgiven : ∀ (rejects : List Char → Bool) (text : Option (List Char)) (source : Source),
      (∀ host, rejects host = false → isWildcardHost host = false) →
      givenSource std rejects text = some source → source = .given raw parsed →
      parsedAddress std raw = some parsed ∧ isWildcardHost (hostText parsed) = false := by
    rintro rejects text source hrejects hsource rfl
    obtain ⟨_, _, -, heq, hparsed, hkept⟩ := givenSource_eq_some hsource
    cases heq
    exact ⟨hparsed, hrejects _ hkept⟩
  have hoverride : ∀ host, rejectsOverride host = false → isWildcardHost host = false :=
    fun host hkept => (Bool.or_eq_false_iff.1 hkept).2
  have hstatus : ∀ host, rejectsStatus host = false → isWildcardHost host = false :=
    fun host hkept => (Bool.or_eq_false_iff.1 hkept).2
  rw [entrySource] at h
  -- the sources in the order in which they are asked
  cases hfirst : givenSource std rejectsOverride around.baseUrlOverride with
  | some source =>
    rw [hfirst] at h
    exact hgiven _ _ source hoverride hfirst h
  | none =>
    rw [hfirst, Option.none_or] at h
    cases hlan : givenSource std rejectsStatus around.lanAddress with
    | some source =>
      rw [hlan] at h
      exact hgiven _ _ source hstatus hlan h
    | none =>
      rw [hlan, Option.none_or] at h
      cases haddress : givenSource std rejectsStatus around.address with
      | some source =>
        rw [haddress] at h
        exact hgiven _ _ source hstatus haddress h
      | none =>
        rw [haddress, Option.none_or] at h
        cases hhost : chooseIpHostFromConfig host with
        | some host =>
          rw [hhost] at h
          cases h
        | none =>
          rw [hhost] at h
          cases hip : detectLocalIpv4 around.localAddr with
          | some ip =>
            rw [hip] at h
            cases h
          | none =>
            rw [hip] at h
            cases h

theorem dialable_source_iff (hstd : std.Lawful)
    (hchars : ∀ c ∈ groupId, UrlStandard.isPathChar c = true) {source : Source}
    (haccepted : ∀ raw parsed, source = .given raw parsed → parsedAddress std raw = some parsed ∧
      isWildcardHost (hostText parsed) = false)
    (hport : port ≤ 65535) :
    Dialable std (source.url groupId port) groupId (source.port port) ↔ source.Sound std port := by
  cases source with
  | given raw parsed =>
    obtain ⟨hparsed, hkept⟩ := haccepted raw parsed rfl
    exact dialable_given_iff hstd hchars hparsed hkept hport
  | configured host => exact dialable_hostAndPort_iff hchars hstd hport
  | detected ip =>
    exact (dialable_hostAndPort_iff hchars hstd hport).trans (namesHost_ipv4Text_iff hstd ip)
  | loopback =>
    have hnames := (namesHost_ipv4Text_iff hstd ⟨127, 0, 0, 1⟩).2 (by decide)
    have htext : ipv4Text ⟨127, 0, 0, 1⟩ = "127.0.0.1".toList := by decide
    rw [htext] at hnames
    exact iff_of_true ((dialable_hostAndPort_iff hchars hstd hport).2 hnames) trivial

theorem isPathChar_of_groupChar {c : Char} (h : (c.isAlphanum || c = '_' || c = '-') = true) :
    UrlStandard.isPathChar c = true := by
  rw [UrlStandard.isPathChar, h]
  rfl

/-- **The URL of a group** can be dialled exactly where the source that is taken is sound. -/
theorem dialable_iff (std : UrlStandard) (hstd : std.Lawful) (around : Surroundings)
    {config : ProxyConfig} (hvalid : Valid config) {group : Group}
    (hgroup : group ∈ config.groups) :
    Dialable std (buildGroupEntryUrl std around config group.id.toList) group.id.toList
        ((entrySource std around config.server.host.toList).port config.server.port.toNat) ↔
      (entrySource std around config.server.host.toList).Sound std config.server.port.toNat := by
  have hchars : ∀ c ∈ group.id.toList, UrlStandard.isPathChar c = true := fun c hc =>
    isPathChar_of_groupChar (List.all_eq_true.1 (hvalid.groups group hgroup).chars c hc)
  have hport : config.server.port.toNat ≤ 65535 :=
    Nat.le_of_lt_succ config.server.port.toNat_lt
  rw [buildGroupEntryUrl_eq]
  exact dialable_source_iff hstd hchars (fun _ _ => accepted_of_entrySource) hport

end

def devGroup : Group where
  id := "dev"
  name := "Dev"
  routingTable := []
  models := none
  providerIds := some []
  activeProviderId := none
  providers := none
  failover := none

def devConfig : ProxyConfig := { defaultConfig with groups := [devGroup] }

def overriddenBy (raw : List Char) : Surroundings := ⟨some raw, none, none, none⟩

theorem valid_devConfig : Valid devConfig := validateConfig_ok_iff.1 rfl

theorem dialable_override :
    Dialable UrlStandard.hosts "https://remote-aor.test:17777/oc/dev".toList "dev".toList
      17777 := by
  have hiff := dialable_iff UrlStandard.hosts UrlStandard.lawful_hosts
    (overriddenBy "https://remote-aor.test:17777".toList) valid_devConfig
    (List.mem_singleton_self devGroup)
  have htext : buildGroupEntryUrl UrlStandard.hosts
      (overriddenBy "https://remote-aor.test:17777".toList) devConfig devGroup.id.toList =
        "https://remote-aor.test:17777/oc/dev".toList := by decide
  have hport : (entrySource UrlStandard.hosts (overriddenBy "https://remote-aor.test:17777".toList)
      devConfig.server.host.toList).port devConfig.server.port.toNat = 17777 := by decide
  rw [htext, hport] at hiff
  refine hiff.2 ⟨by decide, fun hdefault => ?_⟩
  exact absurd hdefault (by decide)

/-- An override that writes out the default port gets the one of the server. -/
theorem override_default_port :
    Valid devConfig ∧ devGroup ∈ devConfig.groups ∧
      buildGroupEntryUrl UrlStandard.hosts (overriddenBy "https://remote-aor.test:443".toList)
        devConfig devGroup.id.toList = "https://remote-aor.test:8899/oc/dev".toList ∧
      explicitPort "https://remote-aor.test:443".toList = some 443 ∧
      ¬Dialable UrlStandard.hosts "https://remote-aor.test:8899/oc/dev".toList "dev".toList
        443 := by
  refine ⟨valid_devConfig, List.mem_singleton_self _, by decide, by decide, ?_⟩
  rintro ⟨url, hurl, -, -, -, hport⟩
  have hread : UrlStandard.hosts.parse "https://remote-aor.test:8899/oc/dev".toList =
      some ⟨true, [], "remote-aor.test".toList, some 8899, "/oc/dev".toList⟩ := by decide
  obtain rfl := Option.some.inj (hread.symm.trans hurl)
  exact absurd hport (by decide)

end AiOpenRouter.EntryUrl
