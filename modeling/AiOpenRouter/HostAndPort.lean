/-
URLs that are written as a host, a colon, a port and a path.

* `port_of_parse`: the port of a URL is the one that its text names, unless it is the default one;
* `parse_hostAndPort`: what such a text is read as, where the host has no separator;
* `colon_mem_path`: with a separator in the host, the port is read as a part of the path.
-/
import AiOpenRouter.WebUrls

namespace WebUrls

/-! ### Explicit ports -/

def portNumber (digits : List Char) : ℕ :=
  digits.foldl (fun n c => 10 * n + (c.toNat - '0'.toNat)) 0

def authorityOf (text : List Char) : List Char :=
  (text.dropWhile fun c => c = '/' || c = '\\').takeWhile fun c => !endsAuthority c

/-- The port that the text of a URL names. -/
def explicitPort (text : List Char) : Option ℕ :=
  (schemeOf (clean text)).bind fun parts =>
    let digits := (splitPort false (splitUserinfo (authorityOf parts.2)).2).2
    if digits = [] then none else some (portNumber digits)

theorem parsePort_eq {secure : Bool} {digits : List Char} {port : Option ℕ}
    (h : parsePort secure digits = some port) :
    port = (if digits = [] then none else some (portNumber digits)).filter
      (· ≠ defaultPort secure) := by
  rw [parsePort] at h
  dsimp only at h
  split_ifs at h with hnil hdigits hle hdefault
  · rw [if_pos hnil]
    exact (Option.some.inj h).symm
  · have hdefault : portNumber digits = defaultPort secure := hdefault
    rw [if_neg hnil, Option.filter_some, if_neg (by simpa using hdefault)]
    exact (Option.some.inj h).symm
  · have hdefault : portNumber digits ≠ defaultPort secure := hdefault
    rw [if_neg hnil, Option.filter_some, if_pos (by simpa using hdefault)]
    exact (Option.some.inj h).symm

namespace UrlStandard

variable {std : UrlStandard}

theorem parseAfterScheme_parts {secure : Bool} {text : List Char} {url : WebUrl}
    (h : std.parseAfterScheme secure text = some url) :
    url.secure = secure ∧
      std.parseHost (splitPort false (splitUserinfo (authorityOf text)).2).1 = some url.host ∧
      parsePort secure (splitPort false (splitUserinfo (authorityOf text)).2).2 = some url.port ∧
      url.path = std.encodePath ((text.dropWhile fun c => c = '/' || c = '\\').dropWhile
        fun c => !endsAuthority c) := by
  rw [parseAfterScheme] at h
  split_ifs at h with hnil
  split at h
  · next host port hhost hport =>
    cases h
    exact ⟨rfl, hhost, hport, rfl⟩
  · cases h

/-- **The port of a URL** is the one that its text names, unless it is the default one. -/
theorem port_of_parse {text : List Char} {url : WebUrl} (h : std.parse text = some url) :
    url.port = (explicitPort text).filter (· ≠ defaultPort url.secure) := by
  rw [parse] at h
  rw [explicitPort]
  cases hscheme : schemeOf (clean text) with
  | none =>
    rw [hscheme] at h
    cases h
  | some parts =>
    rw [hscheme] at h
    obtain ⟨secure, rest⟩ := parts
    obtain ⟨rfl, -, hport, -⟩ := parseAfterScheme_parts h
    exact parsePort_eq hport

/-! ### What the standard says of plain texts -/

def isPathChar (c : Char) : Bool := c.isAlphanum || c = '_' || c = '-' || c = '/'

def dottedText (a b c d : UInt8) : List Char :=
  Nat.toDigits 10 a.toNat ++ '.' :: (Nat.toDigits 10 b.toNat ++ '.' ::
    (Nat.toDigits 10 c.toNat ++ '.' :: Nat.toDigits 10 d.toNat))

/-- What the standard says of the texts that a host and a path are read from. -/
structure Lawful (std : UrlStandard) : Prop where
  /-- Colons and brackets stand in IPv6 addresses only. -/
  parseHost_shape {text host : List Char} : std.parseHost text = some host →
    (':' ∉ text ∧ '[' ∉ text ∧ ']' ∉ text) ∨
      ∃ address, text = '[' :: (address ++ [']']) ∧ '[' ∉ address ∧ ']' ∉ address
  parseHost_dottedText (a b c d : UInt8) :
    std.parseHost (dottedText a b c d) = some (dottedText a b c d)
  /-- A path of letters and digits is its own serialization. -/
  encodePath_plain {path : List Char} : (∀ c ∈ path, isPathChar c = true) →
    std.encodePath ('/' :: path) = '/' :: path
  /-- A colon is not encoded, and its segment is no dot segment; nor is one of letters and
  digits. -/
  encodePath_colon {c : Char} {front path : List Char} : endsAuthority c = true →
    (∀ d ∈ path, isPathChar d = true) → ':' ∈ std.encodePath (c :: (front ++ ':' :: path))

end UrlStandard

/-! ### Hosts and ports as they are written -/

/-- A text of a host, a port and a path, with the scheme `http`. -/
def hostAndPort (host : List Char) (port : ℕ) (path : List Char) : List Char :=
  'h' :: 't' :: 't' :: 'p' :: ':' :: '/' :: '/' ::
    (host ++ ':' :: (Nat.toDigits 10 port ++ path))

def afterSlashes (host : List Char) : List Char :=
  (host.filter fun c => c ≠ '\t' && c ≠ '\n' && c ≠ '\r').dropWhile fun c => c = '/' || c = '\\'

theorem splitPort_colon {digits : List Char} (h : ∀ c ∈ digits, c.isDigit = true)
    (host : List Char) : ∀ inside : Bool,
    ':' ∈ (splitPort inside (host ++ ':' :: digits)).2 ∨
      splitPort inside (host ++ ':' :: digits) = (host, digits) ∨
      splitPort inside (host ++ ':' :: digits) = (host ++ ':' :: digits, []) := by
  have hdigits : ∀ l : List Char, (∀ c ∈ l, c.isDigit = true) → splitPort true l = (l, []) := by
    intro l hl
    induction l with
    | nil => rfl
    | cons c l ih =>
      have hne : ∀ d : Char, d.isDigit = false → c ≠ d := by
        rintro d hd rfl
        exact absurd (hl c List.mem_cons_self) (by simp [hd])
      rw [splitPort, if_neg (by simp), if_neg (hne '[' rfl), if_neg (hne ']' rfl),
        ih fun d hd => hl d (List.mem_cons_of_mem _ hd)]
  induction host with
  | nil =>
    rintro (_ | _)
    · exact .inr (.inl rfl)
    · refine .inr (.inr ?_)
      rw [List.nil_append, splitPort, if_neg (by simp), if_neg (by decide), if_neg (by decide),
        hdigits digits h]
  | cons c host ih =>
    intro inside
    rw [List.cons_append, splitPort]
    split_ifs with hcolon hopen hclose
    · exact .inl (List.mem_append_right _ List.mem_cons_self)
    all_goals
      dsimp only
      rcases ih _ with hmem | heq | heq
      · exact .inl hmem
      · rw [heq]
        exact .inr (.inl rfl)
      · rw [heq]
        exact .inr (.inr rfl)

def namedHost (host : List Char) : List Char := (splitUserinfo (afterSlashes host)).2

theorem splitUserinfo_append_right {tail : List Char} (h : '@' ∉ tail) (text : List Char) :
    splitUserinfo (text ++ tail) = ((splitUserinfo text).1, (splitUserinfo text).2 ++ tail) := by
  have hkeep : ∀ c ∈ tail.reverse, decide (c ≠ '@') = true := fun c hc =>
    decide_eq_true fun heq => h (heq ▸ List.mem_reverse.1 hc)
  by_cases hat : '@' ∈ text
  · rw [splitUserinfo, splitUserinfo, if_pos (List.mem_append_left _ hat), if_pos hat,
      List.reverse_append, List.dropWhile_append_of_pos hkeep, List.takeWhile_append_of_pos hkeep,
      List.reverse_append, List.reverse_reverse]
  · have hnone : '@' ∉ text ++ tail := fun hmem => (List.mem_append.1 hmem).elim hat h
    rw [splitUserinfo, splitUserinfo, if_neg hnone, if_neg hat]

theorem clean_of_ends {text : List Char} (hhead : ∀ c ∈ text.head?, 32 < c.toNat)
    (hlast : ∀ c ∈ text.getLast?, 32 < c.toNat) :
    clean text = text.filter fun c => c ≠ '\t' && c ≠ '\n' && c ≠ '\r' := by
  have hdrop : ∀ l : List Char, (∀ c ∈ l.head?, 32 < c.toNat) →
      l.dropWhile (·.toNat ≤ 32) = l := by
    intro l hl
    cases l with
    | nil => rfl
    | cons c l =>
      rw [List.dropWhile_cons_of_neg]
      simpa using hl c rfl
  rw [clean, hdrop text hhead, hdrop text.reverse (by rwa [List.head?_reverse]),
    List.reverse_reverse]

theorem visible_of_isPathChar {c : Char} (h : UrlStandard.isPathChar c = true) :
    32 < c.toNat := by
  rw [UrlStandard.isPathChar, Char.isAlphanum, Char.isAlpha, Char.isUpper, Char.isLower,
    Char.isDigit] at h
  simp only [Bool.or_eq_true, Bool.and_eq_true, decide_eq_true_eq] at h
  have hnat : ∀ n : UInt32, n ≤ c.val → n.toNat ≤ c.toNat := fun n hn => hn
  rcases h with ((((hupper | hlower) | hdigit) | rfl) | rfl) | rfl
  · exact Nat.lt_of_lt_of_le (by decide) (hnat _ hupper.1)
  · exact Nat.lt_of_lt_of_le (by decide) (hnat _ hlower.1)
  · exact Nat.lt_of_lt_of_le (by decide) (hnat _ hdigit.1)
  · decide
  · decide
  · decide

theorem afterSlashes_of_plain {host : List Char} (h : ∀ c ∈ host, IsPlain c) :
    afterSlashes host = host := by
  have hkept : host.filter (fun c => c ≠ '\t' && c ≠ '\n' && c ≠ '\r') = host := by
    refine List.filter_eq_self.2 fun c hc => ?_
    have hvisible := (h c hc).visible
    have hne : ∀ d : Char, d.toNat ≤ 32 → c ≠ d := by
      rintro d hd rfl
      omega
    simp [hne '\t' (by decide), hne '\n' (by decide), hne '\r' (by decide)]
  rw [afterSlashes, hkept]
  cases host with
  | nil => rfl
  | cons c host =>
    have hinside := (h c List.mem_cons_self).inside
    rw [endsAuthority] at hinside
    simp only [Bool.or_eq_false_iff] at hinside
    rw [List.dropWhile_cons_of_neg]
    simp [hinside.1.1.1, hinside.1.1.2]

section

variable {host path : List Char} {port : ℕ}

theorem isDigit_of_mem_digits {c : Char} (h : c ∈ Nat.toDigits 10 port) : c.isDigit = true :=
  Nat.isDigit_of_mem_toDigits (by decide) (by decide) h

theorem clean_hostAndPort (hpath : ∀ c ∈ path, UrlStandard.isPathChar c = true) :
    clean (hostAndPort host port ('/' :: path)) =
      'h' :: 't' :: 't' :: 'p' :: ':' :: '/' :: '/' ::
        ((host.filter fun c => c ≠ '\t' && c ≠ '\n' && c ≠ '\r') ++
          ':' :: (Nat.toDigits 10 port ++ '/' :: path)) := by
  have htail : ∀ c ∈ ':' :: (Nat.toDigits 10 port ++ '/' :: path), 32 < c.toNat := by
    intro c hc
    rcases List.mem_cons.1 hc with rfl | hc
    · decide
    rcases List.mem_append.1 hc with hdigit | hc
    · exact (UrlStandard.isPlain_of_isDigit (isDigit_of_mem_digits hdigit)).visible
    rcases List.mem_cons.1 hc with rfl | hc
    · decide
    · exact visible_of_isPathChar (hpath c hc)
  have hkept : (':' :: (Nat.toDigits 10 port ++ '/' :: path)).filter
      (fun c => c ≠ '\t' && c ≠ '\n' && c ≠ '\r') =
        ':' :: (Nat.toDigits 10 port ++ '/' :: path) := by
    refine List.filter_eq_self.2 fun c hc => ?_
    have hvisible := htail c hc
    have hne : ∀ d : Char, d.toNat ≤ 32 → c ≠ d := by
      rintro d hd rfl
      omega
    simp [hne '\t' (by decide), hne '\n' (by decide), hne '\r' (by decide)]
  have hlast : ∀ c ∈ (hostAndPort host port ('/' :: path)).getLast?, 32 < c.toNat := by
    intro c hc
    have hsplit : hostAndPort host port ('/' :: path) =
        ('h' :: 't' :: 't' :: 'p' :: ':' :: '/' :: '/' :: host) ++
          ':' :: (Nat.toDigits 10 port ++ '/' :: path) := rfl
    rw [hsplit, List.getLast?_append, List.getLast?_cons, Option.some_or] at hc
    exact htail c (List.mem_of_getLast? (List.getLast?_cons.trans hc))
  rw [clean_of_ends (by simp [hostAndPort]) hlast, hostAndPort]
  simp only [List.filter_cons, List.filter_append] at hkept ⊢
  rw [hkept]
  simp

theorem dropWhile_slashes (tail : List Char) :
    ('/' :: '/' :: ((host.filter fun c => c ≠ '\t' && c ≠ '\n' && c ≠ '\r') ++
      ':' :: tail)).dropWhile (fun c => c = '/' || c = '\\') =
        afterSlashes host ++ ':' :: tail := by
  rw [List.dropWhile_cons_of_pos (by simp), List.dropWhile_cons_of_pos (by simp), afterSlashes,
    List.dropWhile_append]
  split_ifs with hempty
  · rw [List.isEmpty_iff.1 hempty, List.dropWhile_cons_of_neg (by simp)]
    rfl
  · rfl

theorem parsePort_of_colon {secure : Bool} {digits : List Char} (h : ':' ∈ digits) :
    parsePort secure digits = none := by
  have hall : digits.all Char.isDigit = false :=
    List.all_eq_false.2 ⟨':', h, by decide⟩
  rw [parsePort, if_neg (List.ne_nil_of_mem h), if_neg (by simp [hall])]

variable {std : UrlStandard}

theorem parseHost_splitPort (hstd : std.Lawful) (host : List Char) (port : ℕ) (secure : Bool) :
    (splitPort false (host ++ ':' :: Nat.toDigits 10 port) = (host, Nat.toDigits 10 port)) ∨
      std.parseHost host = none ∧
        (std.parseHost (splitPort false (host ++ ':' :: Nat.toDigits 10 port)).1 = none ∨
          parsePort secure (splitPort false (host ++ ':' :: Nat.toDigits 10 port)).2 = none) := by
  have hdigit : ∀ c ∈ Nat.toDigits 10 port, c.isDigit = true := fun c => isDigit_of_mem_digits
  cases hhost : std.parseHost host with
  | some address =>
    refine .inl ((UrlStandard.splitPort_append (hstd.parseHost_shape hhost) _).trans ?_)
    rw [splitPort, if_pos ⟨rfl, rfl⟩, List.append_nil]
  | none =>
    rcases splitPort_colon hdigit host false with hcolon | heq | heq
    · exact .inr ⟨rfl, .inr (parsePort_of_colon hcolon)⟩
    · exact .inl heq
    · refine .inr ⟨rfl, .inl ?_⟩
      rw [heq]
      cases hread : std.parseHost (host ++ ':' :: Nat.toDigits 10 port) with
      | none => rfl
      | some address =>
        rcases hstd.parseHost_shape hread with ⟨hcolon, -, -⟩ | ⟨inner, hinner, -, -⟩
        · exact absurd (List.mem_append_right _ List.mem_cons_self) hcolon
        · -- The text ends with the last digit of the port, not with a bracket.
          have hlast : (host ++ ':' :: Nat.toDigits 10 port).getLast? = some ']' := by
            rw [hinner, ← List.cons_append, List.getLast?_append]
            rfl
          rw [List.getLast?_append, List.getLast?_cons, Option.some_or] at hlast
          have hmem := List.mem_of_getLast? (List.getLast?_cons.trans hlast)
          rcases List.mem_cons.1 hmem with heq | hmem
          · exact absurd heq (by decide)
          · exact absurd (hdigit _ hmem) (by decide)

/-- **A host without separators**: the text is a URL exactly where its host, without the user
information, is one. -/
theorem parse_hostAndPort (hstd : std.Lawful) (hport : port ≤ 65535)
    (hpath : ∀ c ∈ path, UrlStandard.isPathChar c = true)
    (hopen : ∀ c ∈ afterSlashes host, endsAuthority c = false) :
    std.parse (hostAndPort host port ('/' :: path)) =
      if namedHost host = [] then none
      else (std.parseHost (namedHost host)).map fun address =>
        { secure := false
          credentials := std.encodeUserinfo (splitUserinfo (afterSlashes host)).1
          host := address
          port := if port = 80 then none else some port
          path := '/' :: path } := by
  have hdigit : ∀ c ∈ Nat.toDigits 10 port, c.isDigit = true := fun c => isDigit_of_mem_digits
  have hinside : ∀ c ∈ afterSlashes host ++ ':' :: Nat.toDigits 10 port,
      endsAuthority c = false := by
    intro c hc
    rcases List.mem_append.1 hc with hc | hc
    · exact hopen c hc
    rcases List.mem_cons.1 hc with rfl | hc
    · decide
    · exact (UrlStandard.isPlain_of_isDigit (hdigit c hc)).inside
  have hat : '@' ∉ ':' :: Nat.toDigits 10 port := by
    intro hmem
    rcases List.mem_cons.1 hmem with heq | hmem
    · exact absurd heq (by decide)
    · exact absurd (hdigit _ hmem) (by decide)
  have hend : ∀ c ∈ ('/' :: path).head?, endsAuthority c = true := by
    rintro c hc
    cases hc
    decide
  obtain ⟨hcut, hrest⟩ := UrlStandard.cut_authority hinside hend
  rw [List.append_assoc, List.cons_append] at hcut hrest
  rw [UrlStandard.parse, clean_hostAndPort hpath, UrlStandard.schemeOf_http]
  dsimp only
  rw [UrlStandard.parseAfterScheme, dropWhile_slashes, hcut, hrest, splitUserinfo_append_right hat,
    hstd.encodePath_plain hpath]
  dsimp only
  rw [← namedHost]
  rcases parseHost_splitPort hstd (namedHost host) port false with heq | ⟨hnone, hor⟩
  · rw [heq, UrlStandard.parsePort_toDigits hport]
    dsimp only
    by_cases hnil : namedHost host = []
    · rw [if_pos hnil, if_pos hnil]
    · rw [if_neg hnil, if_neg hnil]
      cases std.parseHost (namedHost host) <;> rfl
  · rw [hnone, Option.map_none, ite_self]
    split_ifs with hnil
    · rfl
    · split
      · next hhost hport =>
        rcases hor with hnone | hnone
        · exact absurd (hhost.symm.trans hnone) (by simp)
        · exact absurd (hport.symm.trans hnone) (by simp)
      · rfl

theorem colon_mem_path (hstd : std.Lawful) (hpath : ∀ c ∈ path, UrlStandard.isPathChar c = true)
    (hended : ¬∀ c ∈ afterSlashes host, endsAuthority c = false) {url : WebUrl}
    (h : std.parse (hostAndPort host port ('/' :: path)) = some url) : ':' ∈ url.path := by
  rw [UrlStandard.parse, clean_hostAndPort hpath, UrlStandard.schemeOf_http] at h
  obtain ⟨-, -, -, hread⟩ := UrlStandard.parseAfterScheme_parts h
  rw [dropWhile_slashes, List.dropWhile_append] at hread
  have hrest : (afterSlashes host).dropWhile (fun c => !endsAuthority c) ≠ [] := by
    intro hnil
    refine hended fun c hc => ?_
    have hinside := List.dropWhile_eq_nil_iff.1 hnil c hc
    simpa using hinside
  cases hdrop : (afterSlashes host).dropWhile fun c => !endsAuthority c with
  | nil => exact absurd hdrop hrest
  | cons c front =>
    have hhead := List.head?_dropWhile_not (fun c => !endsAuthority c) (afterSlashes host)
    rw [hdrop] at hhead
    have hend : endsAuthority c = true := by simpa using hhead
    rw [hdrop, if_neg (by simp), List.cons_append] at hread
    rw [hread]
    refine hstd.encodePath_colon hend fun d hd => ?_
    rcases List.mem_append.1 hd with hdigit | hd
    · have hdigit : d.isDigit = true := isDigit_of_mem_digits hdigit
      rw [UrlStandard.isPathChar, Char.isAlphanum, hdigit, Bool.or_true]
      rfl
    rcases List.mem_cons.1 hd with rfl | hd
    · decide
    · exact hpath d hd

end

/-! ### Names and IPv4 addresses as hosts -/

namespace UrlStandard

def isHostChar (c : Char) : Bool := isNameChar c || c.isDigit

theorem isPlain_of_isHostChar {c : Char} (h : isHostChar c = true) :
    IsPlain c ∧ c ≠ ':' ∧ c ≠ '[' ∧ c ≠ ']' := by
  rw [isHostChar, Bool.or_eq_true] at h
  rcases h with hname | hdigit
  · exact isPlain_of_isNameChar hname
  · refine ⟨isPlain_of_isDigit hdigit, ?_, ?_, ?_⟩
    all_goals
      rintro rfl
      exact absurd hdigit (by decide)

theorem isHostChar_of_mem_dottedText {a b c d : UInt8} {e : Char} (h : e ∈ dottedText a b c d) :
    isHostChar e = true := by
  have hdigit : ∀ n : UInt8, e ∈ Nat.toDigits 10 n.toNat → isHostChar e = true := by
    intro n hn
    rw [isHostChar, isDigit_of_mem_digits hn, Bool.or_true]
  have hdot : isHostChar '.' = true := by decide
  simp only [dottedText, List.mem_append, List.mem_cons] at h
  rcases h with ha | rfl | hb | rfl | hc | rfl | hd
  · exact hdigit a ha
  · exact hdot
  · exact hdigit b hb
  · exact hdot
  · exact hdigit c hc
  · exact hdot
  · exact hdigit d hd

/-- The standard on names and IPv4 addresses, without user information. -/
def hosts : UrlStandard where
  parseHost text := if text ≠ [] ∧ text.all isHostChar = true then some text else none
  encodeUserinfo _ := []
  encodePath text := if text = [] then ['/'] else text
  hostText {text host} h := by
    split_ifs at h with hname
    obtain rfl := Option.some.inj h
    have hchar : ∀ c ∈ text, IsPlain c ∧ c ≠ ':' ∧ c ≠ '[' ∧ c ≠ ']' := fun c hc =>
      isPlain_of_isHostChar (List.all_eq_true.1 hname.2 c hc)
    exact ⟨hname.1, fun c hc => (hchar c hc).1, .inl ⟨fun hmem => (hchar _ hmem).2.1 rfl,
      fun hmem => (hchar _ hmem).2.2.1 rfl, fun hmem => (hchar _ hmem).2.2.2 rfl⟩⟩
  parseHost_host {text host} h := by
    split_ifs at h with hname
    obtain rfl := Option.some.inj h
    exact if_pos hname
  parseHost_letters hne hletters := if_pos ⟨hne, List.all_eq_true.2 fun c hc => by
    rw [isHostChar, isNameChar, hletters c hc]
    rfl⟩
  plain_encodeUserinfo := @names.plain_encodeUserinfo
  encodeUserinfo_nil := names.encodeUserinfo_nil
  encodeUserinfo_idem := names.encodeUserinfo_idem
  encodePath_nil := names.encodePath_nil

theorem lawful_hosts : hosts.Lawful where
  parseHost_shape {text host} h := by
    refine .inl ?_
    have h : (if text ≠ [] ∧ text.all isHostChar = true then some text else none) = some host := h
    split_ifs at h with hname
    have hchar := fun c hc => (isPlain_of_isHostChar (List.all_eq_true.1 hname.2 c hc)).2
    exact ⟨fun hmem => (hchar _ hmem).1 rfl, fun hmem => (hchar _ hmem).2.1 rfl,
      fun hmem => (hchar _ hmem).2.2 rfl⟩
  parseHost_dottedText a b c d := by
    refine if_pos ⟨?_, List.all_eq_true.2 fun e he => isHostChar_of_mem_dottedText he⟩
    simp [dottedText]
  encodePath_plain _ := rfl
  encodePath_colon {c front path} _ _ := by
    have hpath : hosts.encodePath (c :: (front ++ ':' :: path)) = c :: (front ++ ':' :: path) :=
      rfl
    rw [hpath]
    exact List.mem_cons_of_mem _ (List.mem_append_right _ List.mem_cons_self)

end UrlStandard

end WebUrls
