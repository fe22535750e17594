/-
The server addresses that the renderer lists (`renderer/utils/serverAddress.ts`).

`resolveReachableServerBaseUrls` lists the origin of the page and the addresses of the status, or
else the configured host and port, each once. An address without a port gets the configured one.

The URL class is the parser of `WebUrls`.

* `listed_iff`: an address is listed with its scheme, host and port exactly where it has a port
  other than the default one, or the configured port makes no difference.
-/
import AiOpenRouter.WebUrls

namespace AiOpenRouter

open WebUrls

/-! ### Hosts -/

/-- `host.replace(/^\[|\]$/g, "")`. -/
def withoutBrackets (host : List Char) : List Char :=
  let host := if host.head? = some '[' then host.tail else host
  if host.getLast? = some ']' then host.dropLast else host

def comparedHost (host : List Char) : List Char := (withoutBrackets host).map Char.toLower

/-- `isWildcardHost`. -/
def isWildcardHost (host : List Char) : Bool :=
  comparedHost host = "0.0.0.0".toList || comparedHost host = "::".toList ||
    comparedHost host = "::0".toList

/-- `isLoopbackHost`. -/
def isLoopbackHost (host : List Char) : Bool :=
  comparedHost host = "127.0.0.1".toList || comparedHost host = "::1".toList ||
    comparedHost host = "localhost".toList

def localhostName : List Char := ['l', 'o', 'c', 'a', 'l', 'h', 'o', 's', 't']

def countedHost (host : List Char) : List Char :=
  if isWildcardHost host || isLoopbackHost host then localhostName else host

/-! ### Addresses -/

/-- `/^https?:\/\//i.test(rawAddress)`. -/
def hasProtocol (rawAddress : List Char) : Bool :=
  (rawAddress.take 7).map Char.toLower = ['h', 't', 't', 'p', ':', '/', '/'] ||
    (rawAddress.take 8).map Char.toLower = ['h', 't', 't', 'p', 's', ':', '/', '/']

/-- `text.replace(/\/+$/, "")`. -/
def withoutSlashes (text : List Char) : List Char :=
  (text.reverse.dropWhile (· = '/')).reverse

/-- `ResolveServerAddressParams`. -/
structure ResolveServerAddressParams where
  currentOrigin : Option (List Char)
  statusAddress : Option (List Char)
  statusLanAddress : Option (List Char)
  configHost : Option (List Char)
  configPort : Option ℕ

/-- `params.configPort ?? 8899`. -/
def ResolveServerAddressParams.fallbackPort (params : ResolveServerAddressParams) : ℕ :=
  params.configPort.getD 8899

section

variable (std : UrlStandard)

/-- `toHttpUrl`. -/
def toHttpUrl (rawAddress : List Char) : Option WebUrl :=
  std.parse (if hasProtocol rawAddress then rawAddress
    else ['h', 't', 't', 'p', ':', '/', '/'] ++ rawAddress)

/-- `new URL("http://localhost")`. -/
def localUrl : WebUrl := ⟨false, [], localhostName, none, ['/']⟩

/-- `buildBaseUrl`. -/
def buildBaseUrl (host : List Char) (port : ℕ) : List Char :=
  withoutSlashes
    ((std.setHostname localUrl (withoutBrackets host)).setPort port).clearPath.serialize

/-- What `normalizeBaseUrl` makes of a URL. -/
def normalizedUrl (fallbackPort : ℕ) (parsed : WebUrl) : WebUrl :=
  let parsed :=
    if isWildcardHost parsed.host || isLoopbackHost parsed.host then
      std.setHostname parsed localhostName
    else parsed
  (if parsed.port = none then parsed.setPort fallbackPort else parsed).clearPath

/-- `normalizeBaseUrl`. -/
def normalizeBaseUrl (rawAddress : List Char) (fallbackPort : ℕ) : Option (List Char) :=
  (toHttpUrl std rawAddress).map fun parsed =>
    withoutSlashes (normalizedUrl std fallbackPort parsed).serialize

/-- The key of a URL in `dedupeBaseUrls`. -/
def baseUrlKey (parsed : WebUrl) : List Char :=
  comparedHost parsed.host ++ ':' :: Nat.toDigits 10 parsed.effectivePort

/-- The loop of `dedupeBaseUrls`. -/
def dedupeLoop : List (List Char) → List (List Char) → List (List Char)
  | _, [] => []
  | seen, raw :: urls =>
    match toHttpUrl std raw with
    | none => dedupeLoop seen urls
    | some parsed =>
      if baseUrlKey parsed ∈ seen then dedupeLoop seen urls
      else raw :: dedupeLoop (baseUrlKey parsed :: seen) urls

/-- `dedupeBaseUrls`. -/
def dedupeBaseUrls (urls : List (List Char)) : List (List Char) := dedupeLoop std [] urls

def candidateUrl (address : Option (List Char)) (fallbackPort : ℕ) : List (List Char) :=
  ((address.filter (· ≠ [])).bind fun raw => normalizeBaseUrl std raw fallbackPort).toList

/-- The host of `buildBaseUrl` in `resolveReachableServerBaseUrls`. -/
def configuredHost (configHost : Option (List Char)) : List Char :=
  match configHost.filter (· ≠ []) with
  | some host => countedHost host
  | none => localhostName

/-- `resolveReachableServerBaseUrls`. -/
def resolveReachableServerBaseUrls (params : ResolveServerAddressParams) : List (List Char) :=
  let urls := candidateUrl std params.currentOrigin params.fallbackPort ++
    candidateUrl std params.statusAddress params.fallbackPort ++
    candidateUrl std params.statusLanAddress params.fallbackPort
  dedupeBaseUrls std
    (if urls = [] then [buildBaseUrl std (configuredHost params.configHost) params.fallbackPort]
      else urls)

end

/-! ### What is listed for an address -/

section

variable {std : UrlStandard}

theorem parseHost_localhost : std.parseHost localhostName = some localhostName := by
  refine std.parseHost_letters (by simp [localhostName]) fun c hc => ?_
  have hletters : localhostName.all Char.isLower = true := rfl
  exact List.all_eq_true.1 hletters c hc

theorem setHostname_localhost (url : WebUrl) :
    std.setHostname url localhostName = { url with host := localhostName } := by
  have htext : (localhostName.filter fun c => c ≠ '\t' && c ≠ '\n' && c ≠ '\r').takeWhile
      (fun c => !endsAuthority c) = localhostName := by decide
  rw [UrlStandard.setHostname, htext, if_neg (by decide), if_neg (by decide), parseHost_localhost]

def countedUrl (parsed : WebUrl) : WebUrl := { parsed with host := countedHost parsed.host }

variable {parsed : WebUrl} {raw : List Char} (fallbackPort : ℕ)

theorem normalizedUrl_eq (parsed : WebUrl) :
    normalizedUrl std fallbackPort parsed =
      (if parsed.port = none then (countedUrl parsed).setPort fallbackPort
        else countedUrl parsed).clearPath := by
  have hhost : (if isWildcardHost parsed.host || isLoopbackHost parsed.host then
      std.setHostname parsed localhostName else parsed) = countedUrl parsed := by
    rw [setHostname_localhost, countedUrl, countedHost]
    split_ifs <;> rfl
  rw [normalizedUrl, hhost]
  rfl

theorem normal_countedUrl (h : std.Normal parsed) : std.Normal (countedUrl parsed) := by
  refine ⟨h.credentials, ?_, h.port⟩
  show std.parseHost (countedHost parsed.host) = some (countedHost parsed.host)
  rw [countedHost]
  split_ifs
  · exact parseHost_localhost
  · exact h.host

theorem normal_normalizedUrl (h : std.Normal parsed) (fallbackPort : ℕ) :
    std.Normal (normalizedUrl std fallbackPort parsed) := by
  rw [normalizedUrl_eq]
  refine UrlStandard.Normal.clearPath ?_
  split_ifs
  · exact (normal_countedUrl h).setPort fallbackPort
  · exact normal_countedUrl h

/-- The configured port makes no difference to a URL: it has a port, or gets its default one. -/
def PortStands (fallbackPort : ℕ) (parsed : WebUrl) : Prop :=
  parsed.port ≠ none ∨ fallbackPort = defaultPort parsed.secure ∨ 65535 < fallbackPort

theorem normalizedUrl_effectivePort_iff (parsed : WebUrl) :
    (normalizedUrl std fallbackPort parsed).effectivePort = parsed.effectivePort ↔
      PortStands fallbackPort parsed := by
  rw [normalizedUrl_eq, PortStands]
  cases hport : parsed.port with
  | some port =>
    rw [if_neg (by simp)]
    exact iff_of_true rfl (.inl (by simp))
  | none =>
    have hdefault : parsed.effectivePort = defaultPort parsed.secure := by
      rw [WebUrl.effectivePort, hport]
      rfl
    rw [if_pos rfl, hdefault]
    show ((countedUrl parsed).setPort fallbackPort).effectivePort = _ ↔ _
    by_cases hle : fallbackPort ≤ 65535
    · rw [WebUrl.effectivePort_setPort hle]
      refine ⟨fun h => .inr (.inl h), ?_⟩
      rintro (hne | heq | hlt)
      · exact absurd rfl hne
      · exact heq
      · omega
    · have hkeep : (countedUrl parsed).setPort fallbackPort = countedUrl parsed := if_neg hle
      rw [hkeep]
      exact iff_of_true hdefault (.inr (.inr (Nat.lt_of_not_le hle)))

theorem withoutSlashes_snoc {text : List Char} (h : ∀ c ∈ text.getLast?, c ≠ '/') :
    withoutSlashes (text ++ ['/']) = text := by
  rw [withoutSlashes, List.reverse_append]
  show ((('/' :: text.reverse).dropWhile _).reverse : List Char) = text
  rw [List.dropWhile_cons_of_pos (by simp)]
  cases hreverse : text.reverse with
  | nil => exact (List.reverse_eq_nil_iff.1 hreverse).symm
  | cons c rest =>
    have hlast : text.getLast? = some c := by
      rw [← List.head?_reverse, hreverse]
      rfl
    rw [List.dropWhile_cons_of_neg (by simpa using h c hlast), ← hreverse, List.reverse_reverse]

theorem withoutSlashes_serialize {url : WebUrl} (h : std.Normal url) :
    withoutSlashes url.clearPath.serialize = url.base := by
  refine withoutSlashes_snoc fun c hc => ?_
  have hauthority : c ∈ url.authority := by
    rw [WebUrl.clearPath_base, WebUrl.base, List.getLast?_append] at hc
    cases hlast : url.authority.getLast? with
    | none => exact absurd (List.getLast?_eq_none_iff.1 hlast) h.authority_ne_nil
    | some d =>
      rw [hlast] at hc
      exact List.mem_of_getLast? (hlast.trans hc)
  have hinside := (h.authority_inside c hauthority).2
  rintro rfl
  exact absurd hinside (by decide)

theorem hasProtocol_base (url : WebUrl) : hasProtocol url.base = true := by
  unfold hasProtocol WebUrl.base
  cases url.secure <;> simp

theorem toHttpUrl_base {url : WebUrl} (h : std.Normal url) :
    toHttpUrl std url.base = some url.clearPath := by
  rw [toHttpUrl, hasProtocol_base, if_pos rfl, UrlStandard.parse_base h]

/-- What `normalizeBaseUrl` gives for an address. -/
theorem normalizeBaseUrl_of_parsed (h : toHttpUrl std raw = some parsed) (fallbackPort : ℕ) :
    normalizeBaseUrl std raw fallbackPort = some (normalizedUrl std fallbackPort parsed).base ∧
      toHttpUrl std (normalizedUrl std fallbackPort parsed).base =
        some (normalizedUrl std fallbackPort parsed) := by
  have hnormal := normal_normalizedUrl (UrlStandard.normal_of_parse h) fallbackPort
  have hclear : (normalizedUrl std fallbackPort parsed).clearPath =
      normalizedUrl std fallbackPort parsed := rfl
  refine ⟨?_, by rw [toHttpUrl_base hnormal, hclear]⟩
  rw [normalizeBaseUrl, h, Option.map_some, ← hclear, withoutSlashes_serialize hnormal, hclear]

/-- A listed text has the scheme, the host and the port of a URL. -/
def SameServer (std : UrlStandard) (text : List Char) (url : WebUrl) : Prop :=
  ∃ listed, toHttpUrl std text = some listed ∧ listed.secure = url.secure ∧
    countedHost listed.host = countedHost url.host ∧ listed.effectivePort = url.effectivePort

theorem countedHost_idem (host : List Char) :
    countedHost (countedHost host) = countedHost host := by
  have hlocal : countedHost localhostName = localhostName := by decide
  by_cases h : (isWildcardHost host || isLoopbackHost host) = true
  · have hhost : countedHost host = localhostName := if_pos h
    rw [hhost, hlocal]
  · have hhost : countedHost host = host := if_neg h
    rw [hhost, hhost]

theorem normalizedUrl_secure (parsed : WebUrl) :
    (normalizedUrl std fallbackPort parsed).secure = parsed.secure := by
  rw [normalizedUrl_eq]
  split_ifs
  · exact WebUrl.setPort_secure _ fallbackPort
  · rfl

theorem normalizedUrl_host (parsed : WebUrl) :
    (normalizedUrl std fallbackPort parsed).host = countedHost parsed.host := by
  rw [normalizedUrl_eq]
  split_ifs
  · exact WebUrl.setPort_host _ fallbackPort
  · rfl

theorem sameServer_iff {text : List Char} {fallbackPort : ℕ} (h : toHttpUrl std raw = some parsed)
    (htext : normalizeBaseUrl std raw fallbackPort = some text) :
    SameServer std text parsed ↔ PortStands fallbackPort parsed := by
  obtain ⟨hbase, hread⟩ := normalizeBaseUrl_of_parsed h fallbackPort
  obtain rfl := Option.some.inj (hbase.symm.trans htext)
  rw [← normalizedUrl_effectivePort_iff]
  constructor
  · rintro ⟨listed, hlisted, -, -, hport⟩
    obtain rfl := Option.some.inj (hread.symm.trans hlisted)
    exact hport
  · intro hport
    refine ⟨_, hread, normalizedUrl_secure fallbackPort parsed, ?_, hport⟩
    rw [normalizedUrl_host, countedHost_idem]

/-! ### The list -/

theorem dedupeLoop_pairwise (urls : List (List Char)) : ∀ seen : List (List Char),
    (∀ text ∈ dedupeLoop std seen urls, ∀ parsed, toHttpUrl std text = some parsed →
      baseUrlKey parsed ∉ seen) ∧
    (dedupeLoop std seen urls).Pairwise fun text text' => ∀ parsed parsed',
      toHttpUrl std text = some parsed → toHttpUrl std text' = some parsed' →
      baseUrlKey parsed ≠ baseUrlKey parsed' := by
  induction urls with
  | nil => exact fun seen => ⟨fun text hmem => absurd hmem List.not_mem_nil, List.Pairwise.nil⟩
  | cons raw urls ih =>
    intro seen
    rw [dedupeLoop]
    cases hraw : toHttpUrl std raw with
    | none => exact ih seen
    | some parsed =>
      dsimp only
      split_ifs with hseen
      · exact ih seen
      · obtain ⟨hfresh, hpairwise⟩ := ih (baseUrlKey parsed :: seen)
        refine ⟨fun text hmem parsed' hparsed' => ?_, List.Pairwise.cons ?_ hpairwise⟩
        · rcases List.mem_cons.1 hmem with rfl | hmem
          · rw [hraw] at hparsed'
            cases hparsed'
            exact hseen
          · exact fun hold => hfresh text hmem parsed' hparsed' (List.mem_cons_of_mem _ hold)
        · intro text hmem first second hfirst hsecond hkey
          rw [hraw] at hfirst
          cases hfirst
          exact hfresh text hmem second hsecond (hkey ▸ List.mem_cons_self)

theorem dedupeBaseUrls_cons (h : toHttpUrl std raw = some parsed) (urls : List (List Char)) :
    ∃ rest, dedupeBaseUrls std (raw :: urls) = raw :: rest := by
  rw [dedupeBaseUrls, dedupeLoop, h]
  exact ⟨_, if_neg List.not_mem_nil⟩

/-- **Listed addresses.** The first address is the origin of the page, with its scheme, host and
port exactly where the port stands; so is each address of the status that is listed; and no two
listed addresses have one host and port. -/
theorem listed_iff (std : UrlStandard) (params : ResolveServerAddressParams) :
    (∀ (origin : List Char) (url : WebUrl), params.currentOrigin = some origin → origin ≠ [] →
      toHttpUrl std origin = some url →
      ∃ first rest, resolveReachableServerBaseUrls std params = first :: rest ∧
        (SameServer std first url ↔ PortStands params.fallbackPort url)) ∧
    (∀ (address text : List Char) (url : WebUrl),
      params.statusAddress = some address ∨ params.statusLanAddress = some address →
      toHttpUrl std address = some url →
      normalizeBaseUrl std address params.fallbackPort = some text →
      text ∈ resolveReachableServerBaseUrls std params →
      (SameServer std text url ↔ PortStands params.fallbackPort url)) ∧
    (resolveReachableServerBaseUrls std params).Pairwise fun text text' => ∀ url url',
      toHttpUrl std text = some url → toHttpUrl std text' = some url' →
      ¬(url.host = url'.host ∧ url.effectivePort = url'.effectivePort) := by
  refine ⟨fun origin url horigin hne hurl => ?_, fun address text url _ hurl htext _ => ?_, ?_⟩
  · obtain ⟨hbase, hread⟩ := normalizeBaseUrl_of_parsed hurl params.fallbackPort
    have hcandidate : candidateUrl std params.currentOrigin params.fallbackPort =
        [(normalizedUrl std params.fallbackPort url).base] := by
      rw [candidateUrl, horigin, Option.filter_some, if_pos (by simpa using hne), Option.bind_some,
        hbase, Option.toList_some]
    rw [resolveReachableServerBaseUrls, hcandidate]
    obtain ⟨rest, hrest⟩ := dedupeBaseUrls_cons hread
      (candidateUrl std params.statusAddress params.fallbackPort ++
        candidateUrl std params.statusLanAddress params.fallbackPort)
    exact ⟨_, rest, hrest, sameServer_iff hurl hbase⟩
  · exact sameServer_iff hurl htext
  · refine (dedupeLoop_pairwise _ []).2.imp fun hkeys url url' hurl hurl' hsame => ?_
    refine hkeys url url' hurl hurl' ?_
    rw [baseUrlKey, baseUrlKey, hsame.1, hsame.2]

end

/-- A page that was loaded from an origin, with the configured port 8899. -/
def loadedFrom (origin : List Char) : ResolveServerAddressParams :=
  ⟨some origin, none, none, none, some 8899⟩

theorem listed_with_port :
    SameServer UrlStandard.names "http://aor.test:17777".toList
      ⟨false, [], "aor.test".toList, some 17777, ['/']⟩ := by
  obtain ⟨first, rest, hlist, hsame⟩ := (listed_iff UrlStandard.names
    (loadedFrom "http://aor.test:17777".toList)).1 "http://aor.test:17777".toList
    ⟨false, [], "aor.test".toList, some 17777, ['/']⟩ rfl (by decide) (by decide)
  have hfirst : (resolveReachableServerBaseUrls UrlStandard.names
      (loadedFrom "http://aor.test:17777".toList)).head? = some "http://aor.test:17777".toList := by
    decide
  rw [hlist] at hfirst
  rw [← Option.some.inj hfirst]
  exact hsame.2 (.inl (by decide))

/-- An origin with the default port is listed with the configured one. -/
theorem listed_without_port :
    resolveReachableServerBaseUrls UrlStandard.names (loadedFrom "https://aor.test".toList) =
        ["https://aor.test:8899".toList] ∧
      toHttpUrl UrlStandard.names "https://aor.test".toList =
        some ⟨true, [], "aor.test".toList, none, ['/']⟩ ∧
      ¬SameServer UrlStandard.names "https://aor.test:8899".toList
        ⟨true, [], "aor.test".toList, none, ['/']⟩ := by
  refine ⟨by decide, by decide, ?_⟩
  rintro ⟨listed, hlisted, -, -, hport⟩
  have hread : toHttpUrl UrlStandard.names "https://aor.test:8899".toList =
      some ⟨true, [], "aor.test".toList, some 8899, ['/']⟩ := by decide
  obtain rfl := Option.some.inj (hread.symm.trans hlisted)
  exact absurd hport (by decide)

end AiOpenRouter
