/-
URLs of the schemes `http` and `https`, after the URL standard.

The parser is the one of the standard, for a text with one of these schemes: it cuts the text at the
separators of the authority, of the user information and of the port. What happens to the parts in
between is left to a `UrlStandard`: the host parser, the encoding of user names and passwords, and
that of paths.

* `normal_of_parse`: the parts of a parsed URL are as the standard serializes them;
* `parse_base_append`: a URL with such parts is read back from its text, with the path that follows.
-/
import Mathlib

namespace WebUrls

/-! ### Texts -/

def endsAuthority (c : Char) : Bool := c = '/' || c = '\\' || c = '?' || c = '#'

/-- A character of an authority that stands for itself: it is no control, space or separator. -/
structure IsPlain (c : Char) : Prop where
  visible : 32 < c.toNat
  inside : endsAuthority c = false
  noAt : c ≠ '@'

/-- A serialized host: a name or an IPv4 address, or an IPv6 address in its brackets. -/
structure HostText (host : List Char) : Prop where
  ne_nil : host ≠ []
  plain : ∀ c ∈ host, IsPlain c
  shape : (':' ∉ host ∧ '[' ∉ host ∧ ']' ∉ host) ∨
    ∃ address, host = '[' :: (address ++ [']']) ∧ '[' ∉ address ∧ ']' ∉ address

/-- What the standard does with the parts of a URL. -/
structure UrlStandard where
  /-- The host parser, with the serialization of its result. -/
  parseHost : List Char → Option (List Char)
  /-- User name and password, as they are serialized. -/
  encodeUserinfo : List Char → List Char
  /-- Path, query and fragment, as they are serialized. -/
  encodePath : List Char → List Char
  hostText {text host : List Char} : parseHost text = some host → HostText host
  parseHost_host {text host : List Char} : parseHost text = some host → parseHost host = some host
  /-- A name of small letters is its own serialization. -/
  parseHost_letters {host : List Char} : host ≠ [] → (∀ c ∈ host, c.isLower = true) →
    parseHost host = some host
  plain_encodeUserinfo {text : List Char} {c : Char} : c ∈ encodeUserinfo text → IsPlain c
  encodeUserinfo_nil : encodeUserinfo [] = []
  encodeUserinfo_idem (text : List Char) :
    encodeUserinfo (encodeUserinfo text) = encodeUserinfo text
  encodePath_nil : encodePath [] = ['/']

/-- A parsed URL. -/
structure WebUrl where
  secure : Bool
  credentials : List Char
  host : List Char
  /-- None for the default port of the scheme. -/
  port : Option ℕ
  /-- Path, query and fragment. -/
  path : List Char
  deriving DecidableEq

def defaultPort (secure : Bool) : ℕ := if secure then 443 else 80

namespace WebUrl

/-- The port that a URL stands for. -/
def effectivePort (url : WebUrl) : ℕ := url.port.getD (defaultPort url.secure)

def setPort (url : WebUrl) (port : ℕ) : WebUrl :=
  if port ≤ 65535 then
    { url with port := if port = defaultPort url.secure then none else some port }
  else url

def clearPath (url : WebUrl) : WebUrl := { url with path := ['/'] }

def portText : Option ℕ → List Char
  | some port => ':' :: Nat.toDigits 10 port
  | none => []

def authority (url : WebUrl) : List Char :=
  (if url.credentials = [] then [] else url.credentials ++ ['@']) ++
    (url.host ++ portText url.port)

def base (url : WebUrl) : List Char :=
  (if url.secure then ['h', 't', 't', 'p', 's', ':', '/', '/'] else
    ['h', 't', 't', 'p', ':', '/', '/']) ++ url.authority

def serialize (url : WebUrl) : List Char := url.base ++ url.path

variable (url : WebUrl) (port : ℕ)

@[simp] theorem clearPath_base : url.clearPath.base = url.base := rfl

@[simp] theorem setPort_secure : (url.setPort port).secure = url.secure := by
  unfold setPort
  split_ifs <;> rfl

@[simp] theorem setPort_host : (url.setPort port).host = url.host := by
  unfold setPort
  split_ifs <;> rfl

theorem effectivePort_setPort {url : WebUrl} {port : ℕ} (h : port ≤ 65535) :
    (url.setPort port).effectivePort = port := by
  rw [effectivePort, setPort_secure, setPort, if_pos h]
  split_ifs with hdefault
  · exact hdefault.symm
  · rfl

end WebUrl

/-! ### The parser -/

/-- Controls and spaces around a text, and tabs and line breaks in it, are left out. -/
def clean (text : List Char) : List Char :=
  (((text.dropWhile (·.toNat ≤ 32)).reverse.dropWhile (·.toNat ≤ 32)).reverse).filter
    fun c => c ≠ '\t' && c ≠ '\n' && c ≠ '\r'

def schemeOf (text : List Char) : Option (Bool × List Char) :=
  if (text.take 5).map Char.toLower = ['h', 't', 't', 'p', ':'] then some (false, text.drop 5)
  else if (text.take 6).map Char.toLower = ['h', 't', 't', 'p', 's', ':'] then
    some (true, text.drop 6)
  else none

def splitUserinfo (authority : List Char) : List Char × List Char :=
  if '@' ∈ authority then
    ((authority.reverse.dropWhile (· ≠ '@')).tail.reverse,
      (authority.reverse.takeWhile (· ≠ '@')).reverse)
  else ([], authority)

def splitPort : Bool → List Char → List Char × List Char
  | _, [] => ([], [])
  | inside, c :: rest =>
    if c = ':' ∧ inside = false then ([], rest)
    else
      let next := splitPort (if c = '[' then true else if c = ']' then false else inside) rest
      (c :: next.1, next.2)

def parsePort (secure : Bool) (digits : List Char) : Option (Option ℕ) :=
  if digits = [] then some none
  else if digits.all Char.isDigit then
    let port := digits.foldl (fun n c => 10 * n + (c.toNat - '0'.toNat)) 0
    if port ≤ 65535 then some (if port = defaultPort secure then none else some port) else none
  else none

namespace UrlStandard

variable (std : UrlStandard)

def parseAfterScheme (secure : Bool) (text : List Char) : Option WebUrl :=
  let rest := text.dropWhile fun c => c = '/' || c = '\\'
  let authority := rest.takeWhile fun c => !endsAuthority c
  let parts := splitUserinfo authority
  let address := splitPort false parts.2
  if address.1 = [] then none
  else
    match std.parseHost address.1, parsePort secure address.2 with
    | some host, some port =>
      some
        { secure, host, port
          credentials := std.encodeUserinfo parts.1
          path := std.encodePath (rest.dropWhile fun c => !endsAuthority c) }
    | _, _ => none

def parse (text : List Char) : Option WebUrl :=
  match schemeOf (clean text) with
  | some (secure, rest) => std.parseAfterScheme secure rest
  | none => none

def setHostname (url : WebUrl) (text : List Char) : WebUrl :=
  let host := (text.filter fun c => c ≠ '\t' && c ≠ '\n' && c ≠ '\r').takeWhile
    fun c => !endsAuthority c
  if (splitPort false host).1 ≠ host then url
  else if host = [] then url
  else
    match std.parseHost host with
    | some host => { url with host }
    | none => url

/-- The parts of a URL are as the standard serializes them. -/
structure Normal (url : WebUrl) : Prop where
  credentials : std.encodeUserinfo url.credentials = url.credentials
  host : std.parseHost url.host = some url.host
  port : ∀ port ∈ url.port, port ≤ 65535 ∧ port ≠ defaultPort url.secure

variable {std}

variable {url : WebUrl}

theorem Normal.setPort (h : std.Normal url) (port : ℕ) : std.Normal (url.setPort port) := by
  unfold WebUrl.setPort
  split_ifs with hport hdefault
  · exact ⟨h.credentials, h.host, fun _ hnone => absurd hnone (by simp)⟩
  · refine ⟨h.credentials, h.host, fun n hn => ?_⟩
    cases hn
    exact ⟨hport, hdefault⟩
  · exact h

theorem Normal.clearPath (h : std.Normal url) : std.Normal url.clearPath :=
  ⟨h.credentials, h.host, h.port⟩

theorem parsePort_valid {secure : Bool} {digits : List Char} {port : Option ℕ}
    (h : parsePort secure digits = some port) :
    ∀ n ∈ port, n ≤ 65535 ∧ n ≠ defaultPort secure := by
  rw [parsePort] at h
  dsimp only at h
  split_ifs at h with hnil hdigits hle hdefault
  · cases h
    exact fun n hn => absurd hn (by simp)
  · cases h
    exact fun n hn => absurd hn (by simp)
  · cases h
    intro n hn
    cases hn
    exact ⟨hle, hdefault⟩

theorem normal_of_parse {text : List Char} (h : std.parse text = some url) : std.Normal url := by
  rw [parse] at h
  cases hscheme : schemeOf (clean text) with
  | none =>
    rw [hscheme] at h
    cases h
  | some parts =>
    rw [hscheme] at h
    obtain ⟨secure, rest⟩ := parts
    have h : std.parseAfterScheme secure rest = some url := h
    rw [parseAfterScheme] at h
    split_ifs at h with hnil
    split at h
    · next host port hhost hport =>
      cases h
      exact ⟨std.encodeUserinfo_idem _, std.parseHost_host hhost, parsePort_valid hport⟩
    · cases h

/-! ### Reading a URL back -/

theorem clean_of_visible {text : List Char} (h : ∀ c ∈ text, 32 < c.toNat) : clean text = text := by
  have hdrop : ∀ l : List Char, (∀ c ∈ l, 32 < c.toNat) → l.dropWhile (·.toNat ≤ 32) = l := by
    intro l hl
    cases l with
    | nil => rfl
    | cons c l =>
      rw [List.dropWhile_cons_of_neg]
      have := hl c List.mem_cons_self
      simpa using this
  rw [clean, hdrop text h, hdrop text.reverse fun c hc => h c (List.mem_reverse.1 hc),
    List.reverse_reverse]
  refine List.filter_eq_self.2 fun c hc => ?_
  have hvisible := h c hc
  have hne : ∀ d : Char, d.toNat ≤ 32 → c ≠ d := by
    rintro d hd rfl
    omega
  simp [hne '\t' (by decide), hne '\n' (by decide), hne '\r' (by decide)]

theorem schemeOf_http (rest : List Char) :
    schemeOf ('h' :: 't' :: 't' :: 'p' :: ':' :: rest) = some (false, rest) := by
  rw [schemeOf, if_pos (by simp)]
  rfl

theorem schemeOf_https (rest : List Char) :
    schemeOf ('h' :: 't' :: 't' :: 'p' :: 's' :: ':' :: rest) = some (true, rest) := by
  rw [schemeOf, if_neg (by simp), if_pos (by simp)]
  rfl

theorem cut_authority {authority tail : List Char}
    (hauthority : ∀ c ∈ authority, endsAuthority c = false)
    (htail : ∀ c ∈ tail.head?, endsAuthority c = true) :
    ((authority ++ tail).takeWhile fun c => !endsAuthority c) = authority ∧
      ((authority ++ tail).dropWhile fun c => !endsAuthority c) = tail := by
  have hinside : ∀ c ∈ authority, (!endsAuthority c) = true := fun c hc => by
    rw [hauthority c hc]
    rfl
  rw [List.takeWhile_append_of_pos hinside, List.dropWhile_append_of_pos hinside]
  cases tail with
  | nil => exact ⟨List.append_nil _, rfl⟩
  | cons c tail =>
    have hc : (!endsAuthority c) = false := by
      rw [htail c rfl]
      rfl
    rw [List.takeWhile_cons, List.dropWhile_cons, hc]
    exact ⟨List.append_nil _, rfl⟩

theorem splitUserinfo_append {userinfo address : List Char} (h : '@' ∉ address) :
    splitUserinfo (userinfo ++ '@' :: address) = (userinfo, address) := by
  have hkeep : ∀ c ∈ address.reverse, decide (c ≠ '@') = true := fun c hc =>
    decide_eq_true fun heq => h (heq ▸ List.mem_reverse.1 hc)
  have hreverse : (userinfo ++ '@' :: address).reverse =
      address.reverse ++ '@' :: userinfo.reverse := by
    rw [List.reverse_append, List.reverse_cons, List.append_assoc]
    rfl
  rw [splitUserinfo, if_pos (by simp), hreverse, List.dropWhile_append_of_pos hkeep,
    List.takeWhile_append_of_pos hkeep, List.dropWhile_cons_of_neg (by simp),
    List.takeWhile_cons_of_neg (by simp), List.tail_cons, List.append_nil, List.reverse_reverse,
    List.reverse_reverse]

theorem splitPort_append {host : List Char}
    (h : (':' ∉ host ∧ '[' ∉ host ∧ ']' ∉ host) ∨
      ∃ address, host = '[' :: (address ++ [']']) ∧ '[' ∉ address ∧ ']' ∉ address)
    (tail : List Char) :
    splitPort false (host ++ tail) =
      (host ++ (splitPort false tail).1, (splitPort false tail).2) := by
  rcases h with ⟨hcolon, hopen, hclose⟩ | ⟨address, rfl, hopen, hclose⟩
  · induction host with
    | nil => rfl
    | cons c host ih =>
      obtain ⟨hc, hcolon⟩ := not_or.1 (mt List.mem_cons.2 hcolon)
      obtain ⟨ho, hopen⟩ := not_or.1 (mt List.mem_cons.2 hopen)
      obtain ⟨hb, hclose⟩ := not_or.1 (mt List.mem_cons.2 hclose)
      rw [List.cons_append, splitPort, if_neg fun hif => hc hif.1.symm, if_neg (Ne.symm ho),
        if_neg (Ne.symm hb), ih hcolon hopen hclose]
      rfl
  · have hinside : ∀ address : List Char, '[' ∉ address → ']' ∉ address →
        splitPort true (address ++ ']' :: tail) =
          (address ++ ']' :: (splitPort false tail).1, (splitPort false tail).2) := by
      intro address hopen hclose
      induction address with
      | nil => rfl
      | cons c address ih =>
        obtain ⟨ho, hopen⟩ := not_or.1 (mt List.mem_cons.2 hopen)
        obtain ⟨hb, hclose⟩ := not_or.1 (mt List.mem_cons.2 hclose)
        rw [List.cons_append, splitPort, if_neg (by simp), if_neg (Ne.symm ho), if_neg (Ne.symm hb),
          ih hopen hclose]
        rfl
    rw [List.cons_append, List.append_assoc, splitPort, if_neg (by simp), if_pos rfl]
    rw [List.singleton_append, hinside address hopen hclose]
    simp

theorem parsePort_toDigits {secure : Bool} {port : ℕ} (h : port ≤ 65535) :
    parsePort secure (Nat.toDigits 10 port) =
      some (if port = defaultPort secure then none else some port) := by
  have hdigits : (Nat.toDigits 10 port).all Char.isDigit = true :=
    List.all_eq_true.2 fun c hc => Nat.isDigit_of_mem_toDigits (by decide) (by decide) hc
  have hvalue : (Nat.toDigits 10 port).foldl (fun n c => 10 * n + (c.toNat - '0'.toNat)) 0 = port :=
    Nat.ofDigitChars_toDigits (by decide) (by decide)
  rw [parsePort, if_neg Nat.toDigits_ne_nil, if_pos hdigits]
  dsimp only
  rw [hvalue, if_pos h]

theorem isPlain_of_isDigit {c : Char} (h : c.isDigit = true) : IsPlain c := by
  rw [Char.isDigit, Bool.and_eq_true, decide_eq_true_eq, decide_eq_true_eq] at h
  have hlow : 48 ≤ c.toNat := h.1
  have hhigh : c.toNat ≤ 57 := h.2
  have hne : ∀ d : Char, d.toNat < 48 ∨ 57 < d.toNat → c ≠ d := by
    rintro d hd rfl
    omega
  refine ⟨by omega, ?_, hne '@' (by decide)⟩
  simp [endsAuthority, hne '/' (by decide), hne '\\' (by decide), hne '?' (by decide),
    hne '#' (by decide)]

theorem isPlain_portText (port : Option ℕ) : ∀ c ∈ WebUrl.portText port, IsPlain c := by
  cases port with
  | none => exact fun c hc => absurd hc List.not_mem_nil
  | some port =>
    intro c hc
    rcases List.mem_cons.1 hc with rfl | hdigit
    · exact ⟨by decide, by decide, by decide⟩
    · exact isPlain_of_isDigit (Nat.isDigit_of_mem_toDigits (by decide) (by decide) hdigit)

theorem Normal.isPlain_address (h : std.Normal url) :
    ∀ c ∈ url.host ++ WebUrl.portText url.port, IsPlain c := fun c hc =>
  (List.mem_append.1 hc).elim ((std.hostText h.host).plain c) (isPlain_portText url.port c)

theorem Normal.isPlain_credentials (h : std.Normal url) :
    ∀ c ∈ url.credentials, IsPlain c := fun c hc => by
  rw [← h.credentials] at hc
  exact std.plain_encodeUserinfo hc

theorem Normal.authority_inside (h : std.Normal url) :
    ∀ c ∈ url.authority, 32 < c.toNat ∧ endsAuthority c = false := by
  intro c hc
  rw [WebUrl.authority] at hc
  rcases List.mem_append.1 hc with hinfo | haddress
  · split_ifs at hinfo
    · exact absurd hinfo List.not_mem_nil
    · rcases List.mem_append.1 hinfo with hcredentials | hat
      · exact ⟨(h.isPlain_credentials c hcredentials).visible,
          (h.isPlain_credentials c hcredentials).inside⟩
      · rw [List.mem_singleton.1 hat]
        decide
  · exact ⟨(h.isPlain_address c haddress).visible, (h.isPlain_address c haddress).inside⟩

theorem Normal.authority_ne_nil (h : std.Normal url) : url.authority ≠ [] := by
  have hhost := (std.hostText h.host).ne_nil
  simp [WebUrl.authority, hhost]

theorem Normal.splitUserinfo_authority (h : std.Normal url) :
    splitUserinfo url.authority = (url.credentials, url.host ++ WebUrl.portText url.port) := by
  have hat : '@' ∉ url.host ++ WebUrl.portText url.port := fun hmem =>
    (h.isPlain_address '@' hmem).noAt rfl
  rw [WebUrl.authority]
  split_ifs with hnil
  · rw [List.nil_append, splitUserinfo, if_neg hat, hnil]
  · rw [List.append_assoc]
    exact splitUserinfo_append hat

theorem Normal.parsePort_portText (h : std.Normal url) :
    (splitPort false (WebUrl.portText url.port)).1 = [] ∧
      parsePort url.secure (splitPort false (WebUrl.portText url.port)).2 = some url.port := by
  cases hport : url.port with
  | none => exact ⟨rfl, rfl⟩
  | some port =>
    obtain ⟨hle, hdefault⟩ := h.port port hport
    refine ⟨rfl, (parsePort_toDigits hle).trans ?_⟩
    rw [if_neg hdefault]

theorem Normal.parseAfterScheme_authority (h : std.Normal url) {tail : List Char}
    (htail : ∀ c ∈ tail.head?, endsAuthority c = true) :
    std.parseAfterScheme url.secure ('/' :: '/' :: (url.authority ++ tail)) =
      some { url with path := std.encodePath tail } := by
  have hslashes : ('/' :: '/' :: (url.authority ++ tail)).dropWhile
      (fun c => c = '/' || c = '\\') = url.authority ++ tail := by
    rw [List.dropWhile_cons_of_pos (by simp), List.dropWhile_cons_of_pos (by simp)]
    cases hauthority : url.authority with
    | nil => exact absurd hauthority h.authority_ne_nil
    | cons c rest =>
      have hinside := (h.authority_inside c (hauthority ▸ List.mem_cons_self)).2
      rw [List.cons_append, List.dropWhile_cons_of_neg]
      rw [endsAuthority] at hinside
      simp only [Bool.or_eq_false_iff] at hinside
      simp [hinside.1.1.1, hinside.1.1.2]
  obtain ⟨hcut, hrest⟩ := cut_authority (fun c hc => (h.authority_inside c hc).2) htail
  obtain ⟨hnone, hport⟩ := h.parsePort_portText
  have hhost := std.hostText h.host
  rw [parseAfterScheme, hslashes, hcut, hrest, h.splitUserinfo_authority,
    splitPort_append hhost.shape, hnone, List.append_nil, if_neg hhost.ne_nil, h.host, hport,
    h.credentials]

/-- **A URL is read back from its text**, with the path that follows it. -/
theorem parse_base_append {url : WebUrl} (h : std.Normal url) {tail : List Char}
    (hvisible : ∀ c ∈ tail, 32 < c.toNat) (htail : ∀ c ∈ tail.head?, endsAuthority c = true) :
    std.parse (url.base ++ tail) = some { url with path := std.encodePath tail } := by
  have hhttp : ∀ c ∈ ['h', 't', 't', 'p', ':', '/', '/'], 32 < c.toNat := by simp
  have hhttps : ∀ c ∈ ['h', 't', 't', 'p', 's', ':', '/', '/'], 32 < c.toNat := by simp
  have hclean : clean (url.base ++ tail) = url.base ++ tail := by
    refine clean_of_visible fun c hc => ?_
    rcases List.mem_append.1 hc with hbase | hmem
    · rw [WebUrl.base] at hbase
      rcases List.mem_append.1 hbase with hscheme | hauthority
      · split_ifs at hscheme
        · exact hhttps c hscheme
        · exact hhttp c hscheme
      · exact (h.authority_inside c hauthority).1
    · exact hvisible c hmem
  have hparse := h.parseAfterScheme_authority htail
  rw [parse, hclean, WebUrl.base]
  cases hsecure : url.secure with
  | false =>
    rw [hsecure] at hparse
    simp only [List.cons_append, List.nil_append, Bool.false_eq_true, if_false, schemeOf_http]
    exact hparse
  | true =>
    rw [hsecure] at hparse
    simp only [List.cons_append, List.nil_append, if_true, schemeOf_https]
    exact hparse

theorem parse_base (h : std.Normal url) : std.parse url.base = some url.clearPath := by
  have hparse := @parse_base_append std url h [] (by simp) (by simp)
  rw [List.append_nil, std.encodePath_nil] at hparse
  exact hparse

/-! ### Names as hosts -/

def isNameChar (c : Char) : Bool := c.isLower || c = '.' || c = '-'

theorem isPlain_of_isNameChar {c : Char} (h : isNameChar c = true) :
    IsPlain c ∧ c ≠ ':' ∧ c ≠ '[' ∧ c ≠ ']' := by
  rw [isNameChar, Bool.or_eq_true, Bool.or_eq_true, decide_eq_true_eq, decide_eq_true_eq] at h
  rcases h with (hlower | rfl) | rfl
  · rw [Char.isLower, Bool.and_eq_true, decide_eq_true_eq, decide_eq_true_eq] at hlower
    have hlow : 97 ≤ c.toNat := hlower.1
    have hhigh : c.toNat ≤ 122 := hlower.2
    have hne : ∀ d : Char, d.toNat < 97 ∨ 122 < d.toNat → c ≠ d := by
      rintro d hd rfl
      omega
    refine ⟨⟨by omega, ?_, hne '@' (by decide)⟩, hne ':' (by decide), hne '[' (by decide),
      hne ']' (by decide)⟩
    simp [endsAuthority, hne '/' (by decide), hne '\\' (by decide), hne '?' (by decide),
      hne '#' (by decide)]
  · exact ⟨⟨by decide, by decide, by decide⟩, by decide, by decide, by decide⟩
  · exact ⟨⟨by decide, by decide, by decide⟩, by decide, by decide, by decide⟩

/-- The standard on names of small letters, dots and hyphens, without user information. -/
def names : UrlStandard where
  parseHost text := if text ≠ [] ∧ text.all isNameChar = true then some text else none
  encodeUserinfo _ := []
  encodePath text := if text = [] then ['/'] else text
  hostText {text host} h := by
    split_ifs at h with hname
    obtain rfl := Option.some.inj h
    have hchar : ∀ c ∈ text, IsPlain c ∧ c ≠ ':' ∧ c ≠ '[' ∧ c ≠ ']' := fun c hc =>
      isPlain_of_isNameChar (List.all_eq_true.1 hname.2 c hc)
    exact ⟨hname.1, fun c hc => (hchar c hc).1, .inl ⟨fun hmem => (hchar _ hmem).2.1 rfl,
      fun hmem => (hchar _ hmem).2.2.1 rfl, fun hmem => (hchar _ hmem).2.2.2 rfl⟩⟩
  parseHost_host {text host} h := by
    split_ifs at h with hname
    obtain rfl := Option.some.inj h
    exact if_pos hname
  parseHost_letters hne hletters := if_pos ⟨hne, List.all_eq_true.2 fun c hc => by
    rw [isNameChar, hletters c hc]
    rfl⟩
  plain_encodeUserinfo hmem := absurd hmem List.not_mem_nil
  encodeUserinfo_nil := rfl
  encodeUserinfo_idem _ := rfl
  encodePath_nil := rfl

end UrlStandard

end WebUrls
