/-
Which requests count as remote (`auth.rs`), behind a reverse proxy on a loopback
address.

`isRemoteRequestWithHeaders` takes the first address that it can read, of `Forwarded`
and then of `X-Forwarded-For`; a proxy appends the address of the client last.

* `parseForwardedIp_render`: every spelling of an address is read;
* `proxied_isRemote_iff`: a request that a proxy forwards counts as remote exactly when
  nothing that the client sent comes before that address.
-/
import AiOpenRouter.ForwardHeaders
import AiOpenRouter.IpAddresses
import AiOpenRouter.SseBlocks

open Net

namespace AiOpenRouter

/-! ### The scan -/

/-- The values of the lines of the two headers, in their order. -/
structure ForwardingHeaders where
  forwarded : List (List UInt8)
  xForwardedFor : List (List UInt8)

def headerText (value : Option (List UInt8)) : Option (List Char) :=
  (value.bind headerValueToStr).map String.toList

/-- `str::trim_matches`. -/
def trimMatches (p : Char → Bool) (s : List Char) : List Char :=
  Text.trimEndMatches p (s.dropWhile p)

/-- `parse_forwarded_ip`. -/
def parseForwardedIp (raw : List Char) : Option IpAddr :=
  let trimmed := trimMatches (· = '"') (Text.trim raw)
  if trimmed = [] ∨ trimmed.map Char.toLower = "unknown".toList then none
  else parseIpAddr <|
    if trimmed.head? = some '[' then trimmed.tail.takeWhile (· ≠ ']')
    else if trimmed.count ':' = 1 ∧ '.' ∈ trimmed then trimmed.takeWhile (· ≠ ':')
    else trimmed

/-- The address of a part of an element of `Forwarded`. -/
def forPart (part : List Char) : Option IpAddr :=
  (Text.stripPrefix "for=" (Text.trim part)).bind parseForwardedIp

/-- The first address of the text of `Forwarded`. -/
def forwardedForIn (text : List Char) : Option IpAddr :=
  (text.splitOn ',').findSome? fun entry => (entry.splitOn ';').findSome? forPart

/-- `forwarded_for_ip`, which reads the first line. -/
def forwardedForIp (headers : ForwardingHeaders) : Option IpAddr :=
  (headerText headers.forwarded.head?).bind forwardedForIn

/-- The first address of the text of `X-Forwarded-For`. -/
def xForwardedForIn (text : List Char) : Option IpAddr :=
  (text.splitOn ',').findSome? parseForwardedIp

/-- `x_forwarded_for_ip`, which reads the first line. -/
def xForwardedForIp (headers : ForwardingHeaders) : Option IpAddr :=
  (headerText headers.xForwardedFor.head?).bind xForwardedForIn

/-- `forwarded_client_ip`. -/
def forwardedClientIp (headers : ForwardingHeaders) : Option IpAddr :=
  (forwardedForIp headers).or (xForwardedForIp headers)

/-- `is_remote_request`. -/
def isRemoteRequest (socketAddr : Option IpAddr) : Bool :=
  (socketAddr.map fun ip => !ip.isLoopback).getD false

/-- `is_remote_request_with_headers`. -/
def isRemoteRequestWithHeaders (socketAddr : Option IpAddr) (headers : ForwardingHeaders) : Bool :=
  if isRemoteRequest socketAddr then true
  else ((forwardedClientIp headers).map fun ip => !ip.isLoopback).getD false

/-! ### The guards -/

/-- What a guard does with a request. -/
inductive GuardAnswer where
  | next
  | unauthorized
  | login
  | internal (message : String)
  deriving DecidableEq

/-- `require_remote_admin_auth`, by whether the request is remote, whether a password is set, and
what `authenticate_request` says. -/
def requireRemoteAdminAuth (remote configured : Bool) (authenticated : Except String Bool) :
    GuardAnswer :=
  if !remote || !configured then .next
  else match authenticated with
    | .ok true => .next
    | .ok false => .unauthorized
    | .error message => .internal message

/-- `is_management_auth_path`. -/
def isManagementAuthPath (path : String) : Bool :=
  path = "/management/auth" || path = "/management/auth/"
    || "/management/auth/".toList.isPrefixOf path.toList

/-- `is_management_asset_path`. -/
def isManagementAssetPath (path : String) : Bool :=
  path = "/management/assets" || "/management/assets/".toList.isPrefixOf path.toList

/-- `require_management_page_auth`. -/
def requireManagementPageAuth (path : String) (remote configured : Bool)
    (authenticated : Except String Bool) : GuardAnswer :=
  if isManagementAuthPath path || isManagementAssetPath path then .next
  else if !remote || !configured then .next
  else match authenticated with
    | .ok true => .next
    | .ok false => .login
    | .error message => .internal message

/-! ### What a proxy appends -/

/-- A character that an address is spelled with, outside the quotes. -/
structure IsNodeChar (c : Char) : Prop where
  visible : 32 < c.toNat ∧ c.toNat < 127
  plain : c ≠ '"' ∧ c ≠ ',' ∧ c ≠ ';'

/-- A spelling of an address: its text, maybe in brackets, with a port, in quotes. -/
structure NodeSpelling where
  text : List Char
  bracketed : Bool
  port : Option (List Char)
  quoted : Bool

namespace NodeSpelling

/-- The address in its brackets. -/
def host (node : NodeSpelling) : List Char :=
  if node.bracketed then '[' :: (node.text ++ [']']) else node.text

/-- The port behind its colon. -/
def portPart (node : NodeSpelling) : List Char :=
  node.port.elim [] fun port => ':' :: port

/-- The quotes at one end. -/
def quotes (node : NodeSpelling) : List Char :=
  if node.quoted then ['"'] else []

def render (node : NodeSpelling) : List Char :=
  node.quotes ++ (node.host ++ node.portPart) ++ node.quotes

/-- A spelling of an address: an IPv6 address with a port stands in brackets. -/
structure Spells (node : NodeSpelling) (address : IpAddr) : Prop where
  text : parseIpAddr node.text = some address
  port : ∀ port, node.port = some port → ∀ c ∈ port, IsNodeChar c ∧ c ≠ ':'
  brackets : node.port ≠ none → node.bracketed = true ∨ ∃ ipv4, address = .v4 ipv4

end NodeSpelling

/-- The header that a proxy appends to; in `Forwarded` with its spelling of `for`. -/
inductive ProxyHeader where
  | xForwardedFor
  | forwarded (name : List Char)

/-- What a proxy appends: a spelling of an address, behind blanks, in a line of its own or to the
last line. -/
structure ProxyElement where
  header : ProxyHeader
  ownLine : Bool
  blanks : List Char
  node : NodeSpelling

def asciiBytes (s : List Char) : List UInt8 := s.map fun c => UInt8.ofNat c.toNat

/-- Appends an element to the list of a header. -/
def appendElement (value : Option (List UInt8)) (blanks element : List Char) : List UInt8 :=
  value.elim (asciiBytes element) fun value => value ++ asciiBytes (',' :: (blanks ++ element))

/-- Appends an element to the lines of a header. -/
def appendLine (ownLine : Bool) (lines : List (List UInt8)) (blanks element : List Char) :
    List (List UInt8) :=
  if ownLine then lines ++ [appendElement none blanks element]
  else lines.dropLast ++ [appendElement lines.getLast? blanks element]

/-- The headers that a proxy sends, from those that the client sent. -/
def ProxyElement.appendTo (element : ProxyElement) (client : ForwardingHeaders) :
    ForwardingHeaders :=
  match element.header with
  | .xForwardedFor =>
    { client with
      xForwardedFor := appendLine element.ownLine client.xForwardedFor element.blanks
        element.node.render }
  | .forwarded name =>
    { client with
      forwarded := appendLine element.ownLine client.forwarded element.blanks
        (name ++ '=' :: element.node.render) }

/-- The word `for`, each letter in either case. -/
def IsForName (name : List Char) : Prop :=
  ∃ f ∈ ['f', 'F'], ∃ o ∈ ['o', 'O'], ∃ r ∈ ['r', 'R'], name = [f, o, r]

/-- The element names an address, with `for` in any case. -/
structure ProxyElement.Names (element : ProxyElement) (address : IpAddr) : Prop where
  blanks : ∀ c ∈ element.blanks, c = ' ' ∨ c = '\t'
  node : element.node.Spells address
  name : ∀ name, element.header = .forwarded name → IsForName name

/-! ### Every spelling is read -/

theorem isNodeChar_of_isDigit {c : Char} (h : IsDigit 16 c) : IsNodeChar c := by
  have hbounds : (48 ≤ c.toNat ∧ c.toNat ≤ 57) ∨ (97 ≤ c.toNat ∧ c.toNat ≤ 122) ∨
      (65 ≤ c.toNat ∧ c.toNat ≤ 90) := by
    unfold IsDigit toDigit at h
    split_ifs at h with h₁ h₂ h₃
    · exact .inl h₁
    · exact .inr (.inl h₂)
    · exact .inr (.inr h₃)
    · cases h
  refine ⟨by omega, ?_, ?_, ?_⟩ <;>
  · rintro rfl
    revert hbounds
    decide

theorem isNodeChar_of_isAddressChar {c : Char} (h : IsAddressChar c) : IsNodeChar c := by
  rcases h with hdigit | rfl | rfl
  · exact isNodeChar_of_isDigit hdigit
  · exact ⟨by decide, by decide⟩
  · exact ⟨by decide, by decide⟩

theorem trimMatches_between {p : Char → Bool} {before s after : List Char}
    (hbefore : ∀ c ∈ before, p c = true) (hs : ∀ c ∈ s, p c = false)
    (hafter : ∀ c ∈ after, p c = true) (hne : s ≠ []) :
    trimMatches p (before ++ s ++ after) = s := by
  have hdrop : ∀ {xs ys : List Char}, (∀ c ∈ xs, p c = true) → (∀ c ∈ ys, p c = false) →
      ys ≠ [] → ∀ zs, (xs ++ (ys ++ zs)).dropWhile p = ys ++ zs := by
    intro xs ys hxs hys hys_ne zs
    obtain ⟨y, ys, rfl⟩ := List.exists_cons_of_ne_nil hys_ne
    rw [List.dropWhile_append_of_pos hxs, List.cons_append,
      List.dropWhile_cons_of_neg (by simp [hys y List.mem_cons_self])]
  rw [trimMatches, Text.trimEndMatches, List.append_assoc, hdrop hbefore hs hne,
    List.reverse_append]
  have hlast := hdrop (fun c hc => hafter c (List.mem_reverse.1 hc))
    (fun c hc => hs c (List.mem_reverse.1 hc)) (by simpa using hne) ([] : List Char)
  rw [List.append_nil] at hlast
  rw [hlast, List.reverse_reverse]

theorem trim_eq_trimMatches (s : List Char) : Text.trim s = trimMatches Text.isWhitespace s := rfl

theorem trim_blanks_append {blanks s : List Char} (hblanks : ∀ c ∈ blanks, c = ' ' ∨ c = '\t')
    (hs : ∀ c ∈ s, Text.isWhitespace c = false) (hne : s ≠ []) : Text.trim (blanks ++ s) = s := by
  have hwhite : ∀ c ∈ blanks, Text.isWhitespace c = true := by
    intro c hc
    rcases hblanks c hc with rfl | rfl <;> decide
  have h := @trimMatches_between Text.isWhitespace blanks s [] hwhite hs
    (fun c hc => absurd hc List.not_mem_nil) hne
  rwa [List.append_nil, ← trim_eq_trimMatches] at h

namespace NodeSpelling.Spells

variable {node : NodeSpelling} {address : IpAddr}

theorem addressChars (h : node.Spells address) : ∀ c ∈ node.text, IsAddressChar c := by
  have htext := text_of_parseIpAddr h.text
  cases address with
  | v4 ipv4 => exact IsIpv4Text.addressChars htext
  | v6 segments => exact htext.chars

theorem nodeChars (h : node.Spells address) : ∀ c ∈ node.host ++ node.portPart, IsNodeChar c := by
  intro c hc
  rcases List.mem_append.1 hc with hhost | hport
  · unfold NodeSpelling.host at hhost
    split_ifs at hhost
    · rcases List.mem_cons.1 hhost with rfl | hhost
      · exact ⟨by decide, by decide⟩
      · rcases List.mem_append.1 hhost with htext | hclose
        · exact isNodeChar_of_isAddressChar (h.addressChars c htext)
        · rw [List.mem_singleton.1 hclose]
          exact ⟨by decide, by decide⟩
    · exact isNodeChar_of_isAddressChar (h.addressChars c hhost)
  · unfold NodeSpelling.portPart at hport
    cases hnode : node.port with
    | none =>
      rw [hnode] at hport
      cases hport
    | some port =>
      rw [hnode] at hport
      rcases List.mem_cons.1 hport with rfl | hport
      · exact ⟨by decide, by decide⟩
      · exact (h.port port hnode c hport).1

theorem dotOrColon (h : node.Spells address) : '.' ∈ node.text ∨ ':' ∈ node.text := by
  have htext := text_of_parseIpAddr h.text
  cases address with
  | v4 ipv4 => exact .inl htext.dot
  | v6 segments =>
    refine .inr (List.count_pos_iff.1 ?_)
    have hcolons := htext.colons
    omega

theorem mem_host (h : node.Spells address) : '.' ∈ node.host ∨ ':' ∈ node.host := by
  unfold NodeSpelling.host
  split_ifs
  · refine h.dotOrColon.imp (fun hmem => ?_) fun hmem => ?_ <;>
      exact List.mem_cons_of_mem _ (List.mem_append_left _ hmem)
  · exact h.dotOrColon

/-- **What stands between the quotes is the host of the address.** -/
theorem host_eq (h : node.Spells address) :
    (if (node.host ++ node.portPart).head? = some '[' then
        (node.host ++ node.portPart).tail.takeWhile (· ≠ ']')
      else if (node.host ++ node.portPart).count ':' = 1 ∧
          '.' ∈ node.host ++ node.portPart then
        (node.host ++ node.portPart).takeWhile (· ≠ ':')
      else node.host ++ node.portPart) = node.text := by
  -- a text is read up to a character that it does not contain
  have hstop : ∀ {stop : Char} {s : List Char} (rest : List Char), stop ∉ s →
      (s ++ stop :: rest).takeWhile (· ≠ stop) = s := by
    intro stop s rest hnot
    rw [List.takeWhile_append_of_pos fun c hc => by
      simpa using fun heq : c = stop => hnot (heq ▸ hc)]
    simp
  by_cases hbrackets : node.bracketed = true
  · have hhost : node.host ++ node.portPart = '[' :: (node.text ++ ']' :: node.portPart) := by
      unfold NodeSpelling.host
      rw [if_pos hbrackets]
      simp
    have hclose : ']' ∉ node.text := fun hmem => by
      rcases h.addressChars _ hmem with hdigit | heq | heq
      · cases hdigit
      · cases heq
      · cases heq
    rw [hhost, if_pos (List.head?_cons), List.tail_cons, hstop _ hclose]
  · have hhost : node.host = node.text := by
      unfold NodeSpelling.host
      rw [if_neg hbrackets]
    rw [hhost]
    -- an address without brackets does not begin with one
    have hopen : (node.text ++ node.portPart).head? ≠ some '[' := by
      intro hhead
      obtain ⟨c, text, htext⟩ : ∃ c text, node.text = c :: text := by
        refine List.exists_cons_of_ne_nil fun hnil => ?_
        have hmem := h.dotOrColon
        rw [hnil] at hmem
        rcases hmem with hmem | hmem <;> cases hmem
      rw [htext, List.cons_append, List.head?_cons, Option.some_inj] at hhead
      have hchar := h.addressChars c (htext ▸ List.mem_cons_self)
      rw [hhead] at hchar
      rcases hchar with hdigit | heq | heq
      · cases hdigit
      · cases heq
      · cases heq
    rw [if_neg hopen]
    have htext := text_of_parseIpAddr h.text
    cases hport : node.port with
    | none =>
      have hpart : node.portPart = [] := by
        unfold NodeSpelling.portPart
        rw [hport]
        rfl
      rw [hpart, List.append_nil]
      refine if_neg fun hone => ?_
      cases address with
      | v4 ipv4 =>
        -- an IPv4 address has no colon, and an IPv6 address has more than one
        have hcolon : ':' ∈ node.text := List.count_pos_iff.1 (by omega)
        rcases htext.chars _ hcolon with hdigit | heq
        · cases hdigit
        · cases heq
      | v6 segments =>
        have hcolons := htext.colons
        omega
    | some port =>
      have hpart : node.portPart = ':' :: port := by
        unfold NodeSpelling.portPart
        rw [hport]
        rfl
      -- a port without brackets stands behind an IPv4 address
      obtain ⟨ipv4, rfl⟩ :=
        (h.brackets (by rw [hport]; exact Option.some_ne_none port)).resolve_left
        hbrackets
      have hcolon : ':' ∉ node.text := fun hmem => by
        rcases htext.chars _ hmem with hdigit | heq
        · cases hdigit
        · cases heq
      have hportColon : ':' ∉ port := fun hmem => (h.port port hport _ hmem).2 rfl
      rw [hpart, if_pos, hstop _ hcolon]
      refine ⟨?_, List.mem_append_left _ htext.dot⟩
      rw [List.count_append, List.count_eq_zero.2 hcolon, List.count_cons_self,
        List.count_eq_zero.2 hportColon]

theorem host_ne_nil (h : node.Spells address) : node.host ++ node.portPart ≠ [] := by
  intro hnil
  have hmem := h.mem_host
  rw [(List.append_eq_nil_iff.1 hnil).1] at hmem
  rcases hmem with hmem | hmem <;> cases hmem

theorem quotes_eq (node : NodeSpelling) : ∀ c ∈ node.quotes, c = '"' := by
  intro c hc
  unfold NodeSpelling.quotes at hc
  split_ifs at hc
  · exact List.mem_singleton.1 hc
  · cases hc

theorem render_ne_nil (h : node.Spells address) : node.render ≠ [] := by
  intro hnil
  exact h.host_ne_nil (List.append_eq_nil_iff.1 (List.append_eq_nil_iff.1 hnil).1).2

theorem render_chars (h : node.Spells address) :
    ∀ c ∈ node.render, (32 < c.toNat ∧ c.toNat < 127) ∧ c ≠ ',' ∧ c ≠ ';' := by
  intro c hc
  have hquote : ∀ c ∈ node.quotes, (32 < c.toNat ∧ c.toNat < 127) ∧ c ≠ ',' ∧ c ≠ ';' := by
    intro c hc
    rw [quotes_eq node c hc]
    decide
  rcases List.mem_append.1 hc with hc | hc
  · rcases List.mem_append.1 hc with hc | hc
    · exact hquote c hc
    · have hnode := h.nodeChars c hc
      exact ⟨hnode.visible, hnode.plain.2⟩
  · exact hquote c hc

theorem render_not_isWhitespace (h : node.Spells address) :
    ∀ c ∈ node.render, Text.isWhitespace c = false := by
  intro c hc
  have hvisible := (h.render_chars c hc).1
  simp only [Text.isWhitespace, Bool.or_eq_false_iff, Bool.and_eq_false_iff,
    decide_eq_false_iff_not]
  omega

/-- **Every spelling of an address is read.** -/
theorem parseForwardedIp_render (h : node.Spells address) {blanks : List Char}
    (hblanks : ∀ c ∈ blanks, c = ' ' ∨ c = '\t') :
    parseForwardedIp (blanks ++ node.render) = some address := by
  have htrim : trimMatches (· = '"') (Text.trim (blanks ++ node.render)) =
      node.host ++ node.portPart := by
    rw [trim_blanks_append hblanks h.render_not_isWhitespace h.render_ne_nil]
    refine trimMatches_between ?_ ?_ ?_ h.host_ne_nil
    · exact fun c hc => decide_eq_true (quotes_eq node c hc)
    · exact fun c hc => decide_eq_false (h.nodeChars c hc).plain.1
    · exact fun c hc => decide_eq_true (quotes_eq node c hc)
  unfold parseForwardedIp
  rw [htrim]
  dsimp only
  rw [if_neg, h.host_eq, h.text]
  rintro (hnil | hunknown)
  · exact h.host_ne_nil hnil
  · -- a dot or a colon is no part of the word
    have hmem : '.' ∈ (node.host ++ node.portPart).map Char.toLower ∨
        ':' ∈ (node.host ++ node.portPart).map Char.toLower := by
      rcases h.mem_host with hmem | hmem
      · exact .inl (List.mem_map.2 ⟨'.', List.mem_append_left _ hmem, by decide⟩)
      · exact .inr (List.mem_map.2 ⟨':', List.mem_append_left _ hmem, by decide⟩)
    rw [hunknown] at hmem
    revert hmem
    decide

end NodeSpelling.Spells

/-! ### What the appended element adds to the scan -/

/-- A text of visible characters and tabs. -/
def IsVisibleText (s : List Char) : Prop :=
  ∀ c ∈ s, (32 ≤ c.toNat ∧ c.toNat < 127) ∨ c = '\t'

theorem toNat_ofNat_of_visible {c : Char} (h : (32 ≤ c.toNat ∧ c.toNat < 127) ∨ c = '\t') :
    (UInt8.ofNat c.toNat).toNat = c.toNat := by
  rw [UInt8.toNat_ofNat']
  rcases h with h | rfl
  · omega
  · rfl

theorem headerValueToStr_append {s : List Char} (hs : IsVisibleText s) (value : List UInt8) :
    (headerValueToStr (value ++ asciiBytes s)).map String.toList =
      ((headerValueToStr value).map String.toList).map (· ++ s) := by
  have hall : (asciiBytes s).all (fun b => (32 ≤ b && b < 127) || b = 9) = true := by
    rw [asciiBytes, List.all_map, List.all_eq_true]
    intro c hc
    have hnat := toNat_ofNat_of_visible (hs c hc)
    simp only [Function.comp_apply, Bool.or_eq_true, Bool.and_eq_true, decide_eq_true_eq,
      UInt8.le_iff_toNat_le, UInt8.lt_iff_toNat_lt, ← UInt8.toNat_inj, hnat]
    rcases hs c hc with h | rfl
    · exact .inl h
    · exact .inr rfl
  have hback : (asciiBytes s).map (fun b => Char.ofNat b.toNat) = s := by
    rw [asciiBytes, List.map_map]
    refine (List.map_congr_left fun c hc => ?_).trans (List.map_id s)
    rw [Function.comp_apply, toNat_ofNat_of_visible (hs c hc), Char.ofNat_toNat]
    rfl
  unfold headerValueToStr
  rw [List.all_append, hall, Bool.and_true]
  split_ifs
  · simp [hback]
  · rfl

theorem headerText_appendElement {value : Option (List UInt8)} {blanks element : List Char}
    (hblanks : ∀ c ∈ blanks, c = ' ' ∨ c = '\t') (helement : IsVisibleText element) :
    headerText (some (appendElement value blanks element)) =
      value.elim (some element) fun value =>
        (headerText (some value)).map (· ++ ',' :: (blanks ++ element)) := by
  cases value with
  | none =>
    have h := headerValueToStr_append helement []
    rw [List.nil_append] at h
    exact h
  | some value =>
    refine headerValueToStr_append (fun c hc => ?_) value
    rcases List.mem_cons.1 hc with rfl | hc
    · decide
    · rcases List.mem_append.1 hc with hc | hc
      · rcases hblanks c hc with rfl | rfl <;> decide
      · exact helement c hc

theorem xForwardedForIn_append (text rest : List Char) :
    xForwardedForIn (text ++ ',' :: rest) = (xForwardedForIn text).or (xForwardedForIn rest) := by
  rw [xForwardedForIn, List.splitOn_append_cons_self, List.findSome?_append]
  rfl

theorem forwardedForIn_append (text rest : List Char) :
    forwardedForIn (text ++ ',' :: rest) = (forwardedForIn text).or (forwardedForIn rest) := by
  rw [forwardedForIn, List.splitOn_append_cons_self, List.findSome?_append]
  rfl

section

variable {node : NodeSpelling} {address : IpAddr} {blanks : List Char}

theorem isVisibleText_render (h : node.Spells address) : IsVisibleText node.render := by
  intro c hc
  have hvisible := (h.render_chars c hc).1
  exact .inl ⟨by omega, hvisible.2⟩

theorem notMem_blanks {stop : Char} (hblanks : ∀ c ∈ blanks, c = ' ' ∨ c = '\t')
    (hspace : stop ≠ ' ') (htab : stop ≠ '\t') : stop ∉ blanks :=
  fun hmem => (hblanks stop hmem).elim hspace htab

theorem xForwardedForIn_element (h : node.Spells address)
    (hblanks : ∀ c ∈ blanks, c = ' ' ∨ c = '\t') :
    xForwardedForIn (blanks ++ node.render) = some address := by
  have hcomma : ',' ∉ blanks ++ node.render := by
    rw [List.mem_append, not_or]
    exact ⟨notMem_blanks hblanks (by decide) (by decide), fun hmem =>
      (h.render_chars _ hmem).2.1 rfl⟩
  rw [xForwardedForIn, List.splitOn_eq_singleton hcomma, List.findSome?_singleton,
    h.parseForwardedIp_render hblanks]

theorem IsForName.isNodeChar {name : List Char} (h : IsForName name) :
    ∀ c ∈ name, IsNodeChar c := by
  obtain ⟨f, hf, o, ho, r, hr, rfl⟩ := h
  have hletters : ∀ c ∈ [f, o, r], c ∈ ['f', 'F', 'o', 'O', 'r', 'R'] := by
    intro c hc
    simp only [List.mem_cons, List.not_mem_nil, or_false] at hf ho hr hc ⊢
    rcases hc with rfl | rfl | rfl
    · exact hf.imp_right .inl
    · exact .inr (.inr (ho.imp_right .inl))
    · exact .inr (.inr (.inr (.inr hr)))
  intro c hc
  have hletter := hletters c hc
  simp only [List.mem_cons, List.not_mem_nil, or_false] at hletter
  rcases hletter with rfl | rfl | rfl | rfl | rfl | rfl <;> exact ⟨by decide, by decide⟩

theorem forwardedForIn_element (h : node.Spells address)
    (hblanks : ∀ c ∈ blanks, c = ' ' ∨ c = '\t') {name : List Char} (hname : IsForName name) :
    forwardedForIn (blanks ++ (name ++ '=' :: node.render)) =
      if name = "for".toList then some address else none := by
  have hchars : ∀ c ∈ name ++ '=' :: node.render,
      (32 < c.toNat ∧ c.toNat < 127) ∧ c ≠ ',' ∧ c ≠ ';' := by
    intro c hc
    rcases List.mem_append.1 hc with hc | hc
    · have hnode := hname.isNodeChar c hc
      exact ⟨hnode.visible, hnode.plain.2⟩
    · rcases List.mem_cons.1 hc with rfl | hc
      · decide
      · exact h.render_chars c hc
  -- neither separator occurs, so the element is one piece
  have hcomma : ',' ∉ blanks ++ (name ++ '=' :: node.render) := by
    rw [List.mem_append, not_or]
    exact ⟨notMem_blanks hblanks (by decide) (by decide), fun hmem => (hchars _ hmem).2.1 rfl⟩
  have hsemicolon : ';' ∉ blanks ++ (name ++ '=' :: node.render) := by
    rw [List.mem_append, not_or]
    exact ⟨notMem_blanks hblanks (by decide) (by decide), fun hmem => (hchars _ hmem).2.2 rfl⟩
  have htrim : Text.trim (blanks ++ (name ++ '=' :: node.render)) = name ++ '=' :: node.render := by
    refine trim_blanks_append hblanks (fun c hc => ?_) (by simp)
    have hvisible := (hchars c hc).1
    simp only [Text.isWhitespace, Bool.or_eq_false_iff, Bool.and_eq_false_iff,
      decide_eq_false_iff_not]
    omega
  rw [forwardedForIn, List.splitOn_eq_singleton hcomma, List.findSome?_singleton,
    List.splitOn_eq_singleton hsemicolon, List.findSome?_singleton, forPart, htrim]
  by_cases hfor : name = "for".toList
  · have hprefix : name ++ '=' :: node.render = "for=".toList ++ node.render := by
      rw [hfor]
      rfl
    rw [if_pos hfor, hprefix, Text.stripPrefix_append, Option.bind_some]
    exact @NodeSpelling.Spells.parseForwardedIp_render node address h []
      fun c hc => absurd hc List.not_mem_nil
  · rw [if_neg hfor]
    -- another spelling of the name is not read
    cases hstrip : Text.stripPrefix "for=" (name ++ '=' :: node.render) with
    | none => rfl
    | some rest =>
      obtain ⟨f, -, o, -, r, -, rfl⟩ := hname
      have heq := stripPrefix_eq_some hstrip
      have hletters : [f, o, r] = "for".toList := by
        have htake := congrArg (List.take 3) heq
        exact htake
      exact absurd hletters hfor

end

/-! ### When the client stays remote -/

/-- A value that is absent, or has a text. -/
def IsReadable (value : Option (List UInt8)) : Prop :=
  value = none ∨ headerText value ≠ none

/-- An address that is there, and no loopback address. -/
def IsForeign (ip : Option IpAddr) : Prop :=
  ∃ address, ip = some address ∧ address.isLoopback = false

/-- The scan comes to the appended element: it is in the first line. -/
def ProxyElement.Reached (element : ProxyElement) (lines : List (List UInt8)) : Prop :=
  lines = [] ∨ element.ownLine = false ∧ lines.length = 1

/-- **Nothing that the client sent takes the place of its address**: what is read of its `Forwarded`
is foreign; and where nothing is read of it, so is what is read of its `X-Forwarded-For`, or the
scan comes to the appended element. -/
def ProxyElement.NothingBefore (element : ProxyElement) (client : ForwardingHeaders) : Prop :=
  match element.header with
  | .xForwardedFor =>
    IsForeign (forwardedForIp client) ∨
      forwardedForIp client = none ∧
        (element.Reached client.xForwardedFor ∧ IsReadable client.xForwardedFor.head? ∧
            xForwardedForIp client = none ∨
          IsForeign (xForwardedForIp client))
  | .forwarded name =>
    IsForeign (forwardedForIp client) ∨
      forwardedForIp client = none ∧
        (element.Reached client.forwarded ∧ IsReadable client.forwarded.head? ∧
            name = "for".toList ∨
          IsForeign (xForwardedForIp client))

theorem isRemote_iff {peer : IpAddr} (hpeer : peer.isLoopback = true)
    (headers : ForwardingHeaders) :
    isRemoteRequestWithHeaders (some peer) headers = true ↔
      IsForeign (forwardedClientIp headers) := by
  unfold isRemoteRequestWithHeaders isRemoteRequest IsForeign
  rw [Option.map_some, Option.getD_some, hpeer]
  cases forwardedClientIp headers with
  | none => simp
  | some ip => simp

theorem isForeign_or_iff (first second : Option IpAddr) :
    IsForeign (first.or second) ↔ IsForeign first ∨ first = none ∧ IsForeign second := by
  cases first with
  | none => simp [IsForeign]
  | some ip => simp [IsForeign]

theorem isForeign_some {address : IpAddr} (h : address.isLoopback = false) :
    IsForeign (some address) := ⟨address, rfl, h⟩

theorem not_isForeign_none : ¬ IsForeign none := by
  rintro ⟨address, heq, -⟩
  cases heq

theorem bind_appendElement {scan : List Char → Option IpAddr}
    (happend : ∀ text rest, scan (text ++ ',' :: rest) = (scan text).or (scan rest))
    {value : Option (List UInt8)} {blanks element : List Char}
    (hblanks : ∀ c ∈ blanks, c = ' ' ∨ c = '\t') (helement : IsVisibleText element)
    (hscan : scan element = scan (blanks ++ element)) :
    (IsReadable value → (headerText (some (appendElement value blanks element))).bind scan =
        ((headerText value).bind scan).or (scan element)) ∧
      (¬ IsReadable value → (headerText (some (appendElement value blanks element))).bind scan =
        none) := by
  rw [headerText_appendElement hblanks helement]
  cases value with
  | none => exact ⟨fun _ => rfl, fun h => absurd (.inl rfl) h⟩
  | some value =>
    cases htext : headerText (some value) with
    | none =>
      refine ⟨fun h => ?_, fun _ => by rw [Option.elim_some, htext]; rfl⟩
      rcases h with h | h
      · cases h
      · exact absurd htext h
    | some text =>
      refine ⟨fun _ => ?_, fun h => absurd (.inr (by rw [htext]; exact Option.some_ne_none text)) h⟩
      rw [Option.elim_some, htext, Option.map_some, Option.bind_some, Option.bind_some, happend,
        hscan]

theorem head?_appendLine (element : ProxyElement) (lines : List (List UInt8))
    (blanks text : List Char) :
    (element.Reached lines → (appendLine element.ownLine lines blanks text).head? =
        some (appendElement lines.head? blanks text)) ∧
      (¬ element.Reached lines →
        (appendLine element.ownLine lines blanks text).head? = lines.head?) := by
  unfold appendLine ProxyElement.Reached
  cases element.ownLine with
  | true =>
    cases lines with
    | nil => exact ⟨fun _ => rfl, fun h => absurd (.inl rfl) h⟩
    | cons line lines => exact ⟨fun h => by simp at h, fun _ => rfl⟩
  | false =>
    cases lines with
    | nil => exact ⟨fun _ => rfl, fun h => absurd (.inl rfl) h⟩
    | cons line lines =>
      cases lines with
      | nil => exact ⟨fun _ => rfl, fun h => absurd (.inr ⟨rfl, rfl⟩) h⟩
      | cons next lines => exact ⟨fun h => by simp at h, fun _ => rfl⟩

theorem eq_none_of_not_isReadable {value : Option (List UInt8)} (h : ¬ IsReadable value)
    (scan : List Char → Option IpAddr) : (headerText value).bind scan = none := by
  unfold IsReadable at h
  rw [not_or, not_not] at h
  rw [h.2]
  rfl

theorem isForeign_appended_iff {scan : List Char → Option IpAddr}
    (happend : ∀ text rest, scan (text ++ ',' :: rest) = (scan text).or (scan rest))
    (element : ProxyElement) (lines : List (List UInt8)) {blanks text : List Char}
    (hblanks : ∀ c ∈ blanks, c = ' ' ∨ c = '\t') (htext : IsVisibleText text)
    (hscan : scan text = scan (blanks ++ text)) :
    let found := (headerText (appendLine element.ownLine lines blanks text).head?).bind scan
    let given := (headerText lines.head?).bind scan
    (found = none ↔ given = none ∧
        (element.Reached lines ∧ IsReadable lines.head? → scan text = none)) ∧
      (IsForeign found ↔ IsForeign given ∨
        given = none ∧ (element.Reached lines ∧ IsReadable lines.head?) ∧
          IsForeign (scan text)) := by
  dsimp only
  obtain ⟨hreached, hmissed⟩ := head?_appendLine element lines blanks text
  by_cases hlines : element.Reached lines
  · obtain ⟨hread, hunread⟩ := @bind_appendElement scan happend lines.head? blanks text hblanks
      htext hscan
    rw [hreached hlines]
    by_cases hreadable : IsReadable lines.head?
    · rw [hread hreadable, isForeign_or_iff, Option.or_eq_none_iff]
      simp only [hlines, hreadable, and_self, true_and, forall_const]
    · rw [hunread hreadable, eq_none_of_not_isReadable hreadable]
      simp only [hreadable, and_false, false_and, false_implies, and_self, or_false]
  · rw [hmissed hlines]
    simp only [hlines, false_and, and_false, false_implies, and_true, or_false, and_self]

/-- Whether a request with an appended element is remote. -/
theorem isRemote_appendTo_iff {peer address : IpAddr} {element : ProxyElement}
    (hpeer : peer.isLoopback = true) (haddress : address.isLoopback = false)
    (helement : element.Names address) (client : ForwardingHeaders) :
    isRemoteRequestWithHeaders (some peer) (element.appendTo client) = true ↔
      element.NothingBefore client := by
  obtain ⟨hblanks, hnode, hname⟩ := helement
  have hforeign := isForeign_some haddress
  rw [isRemote_iff hpeer, forwardedClientIp, isForeign_or_iff]
  cases hheader : element.header with
  | xForwardedFor =>
    -- `Forwarded` is the client's and goes first; then its `X-Forwarded-For`, before the element
    have hscan := xForwardedForIn_element hnode hblanks
    have hbare := @xForwardedForIn_element element.node address [] hnode
      fun c hc => absurd hc List.not_mem_nil
    rw [List.nil_append] at hbare
    -- the element is read alone as it is behind its blanks, so it may be appended
    obtain ⟨-, hfound⟩ := isForeign_appended_iff xForwardedForIn_append element
      client.xForwardedFor hblanks (isVisibleText_render hnode) (hbare.trans hscan.symm)
    rw [ProxyElement.NothingBefore, ProxyElement.appendTo, hheader]
    refine or_congr_right (and_congr_right fun _ => ?_)
    refine hfound.trans ?_
    rw [hbare, or_comm]
    simp only [hforeign, and_true]
    exact or_congr_left ⟨fun h => ⟨h.2.1, h.2.2, h.1⟩, fun h => ⟨h.2.2, h.1, h.2.1⟩⟩
  | forwarded name =>
    -- `X-Forwarded-For` is the client's, and counts where `Forwarded` has no address at all
    have hname := hname name hheader
    have hscan := forwardedForIn_element hnode hblanks hname
    have hbare := @forwardedForIn_element element.node address [] hnode
      (fun c hc => absurd hc List.not_mem_nil) name hname
    rw [List.nil_append] at hbare
    have hvisible : IsVisibleText (name ++ '=' :: element.node.render) := by
      intro c hc
      rcases List.mem_append.1 hc with hc | hc
      · have hletter := (hname.isNodeChar c hc).visible
        exact .inl ⟨by omega, hletter.2⟩
      · rcases List.mem_cons.1 hc with rfl | hc
        · decide
        · exact isVisibleText_render hnode c hc
    obtain ⟨hnone, hfound⟩ := isForeign_appended_iff forwardedForIn_append element
      client.forwarded hblanks hvisible (hbare.trans hscan.symm)
    rw [ProxyElement.NothingBefore, ProxyElement.appendTo, hheader]
    refine (or_congr hfound (and_congr_left fun _ => hnone)).trans ?_
    rw [hbare]
    -- the element is read in its lower-case spelling only
    by_cases hfor : name = "for".toList
    · simp only [hfor, if_true, hforeign, and_true, reduceCtorEq]
      constructor
      · rintro ((hown | ⟨hown, hread⟩) | ⟨⟨hown, -⟩, hother⟩)
        · exact .inl hown
        · exact .inr ⟨hown, .inl hread⟩
        · exact .inr ⟨hown, .inr hother⟩
      · rintro (hown | ⟨hown, hread | hother⟩)
        · exact .inl (.inl hown)
        · exact .inl (.inr ⟨hown, hread⟩)
        · by_cases hread : element.Reached client.forwarded ∧ IsReadable client.forwarded.head?
          · exact .inl (.inr ⟨hown, hread⟩)
          · exact .inr ⟨⟨hown, hread⟩, hother⟩
    · simp only [hfor, if_false, and_false, false_or, not_isForeign_none, or_false, implies_true,
        and_true]
      rfl

/-- **A request that a proxy on a loopback address forwards counts as remote, and has to be
authenticated, exactly when nothing that the client sent takes the place of its address.** -/
theorem proxied_isRemote_iff {peer address : IpAddr} {element : ProxyElement}
    (hpeer : peer.isLoopback = true) (haddress : address.isLoopback = false)
    (helement : element.Names address) (client : ForwardingHeaders) :
    (isRemoteRequestWithHeaders (some peer) (element.appendTo client) = true ↔
        element.NothingBefore client) ∧
      (requireRemoteAdminAuth (isRemoteRequestWithHeaders (some peer) (element.appendTo client))
          true (.ok false) = .unauthorized ↔ element.NothingBefore client) ∧
      ∀ path, isManagementAuthPath path = false → isManagementAssetPath path = false →
        (requireManagementPageAuth path
          (isRemoteRequestWithHeaders (some peer) (element.appendTo client)) true (.ok false) =
            .login ↔ element.NothingBefore client) := by
  have hremote := isRemote_appendTo_iff hpeer haddress helement client
  refine ⟨hremote, ?_, fun path hauth hasset => ?_⟩
  · rw [← hremote]
    cases isRemoteRequestWithHeaders (some peer) (element.appendTo client) <;>
      simp [requireRemoteAdminAuth]
  · rw [← hremote]
    cases isRemoteRequestWithHeaders (some peer) (element.appendTo client) <;>
      simp [requireManagementPageAuth, hauth, hasset]

/-- The IPv4 loopback address. -/
def localhost : IpAddr := .v4 ⟨127, 0, 0, 1⟩

/-- What a proxy appends to `X-Forwarded-For` for the client 203.0.113.7. -/
def sampleElement : ProxyElement where
  header := .xForwardedFor
  ownLine := false
  blanks := [' ']
  node := { text := "203.0.113.7".toList, bracketed := false, port := none, quoted := false }

/-- A client that sends a line of `Forwarded` without an address, and two of `X-Forwarded-For`. -/
def sampleClient : ForwardingHeaders where
  forwarded := [asciiBytes "proto=https".toList]
  xForwardedFor := [asciiBytes "unknown, 198.51.100.9".toList, asciiBytes "127.0.0.1".toList]

theorem proxied_isRemote_sampleClient :
    isRemoteRequestWithHeaders (some localhost) (sampleElement.appendTo sampleClient) = true := by
  refine (@proxied_isRemote_iff localhost (.v4 ⟨203, 0, 113, 7⟩) sampleElement rfl rfl
    ⟨?_, ⟨by decide, ?_, ?_⟩, ?_⟩ sampleClient).1.2 ?_
  · intro c hc
    exact .inl (List.mem_singleton.1 hc)
  · intro port hport
    cases hport
  · exact fun h => absurd rfl h
  · intro name hname
    cases hname
  · exact .inr ⟨by decide, .inr ⟨.v4 ⟨198, 51, 100, 9⟩, by decide, by decide⟩⟩

/-- A client that sends a loopback address of its own looks local. -/
theorem not_isRemote_spoofed :
    isRemoteRequestWithHeaders (some localhost)
        (sampleElement.appendTo ⟨[], [asciiBytes "127.0.0.1".toList]⟩) = false ∧
      requireRemoteAdminAuth (isRemoteRequestWithHeaders (some localhost)
        (sampleElement.appendTo ⟨[], [asciiBytes "127.0.0.1".toList]⟩)) true (.ok false) =
          .next := by
  have hlocal : isRemoteRequestWithHeaders (some localhost)
      (sampleElement.appendTo ⟨[], [asciiBytes "127.0.0.1".toList]⟩) = false := by
    decide
  rw [hlocal]
  exact ⟨rfl, rfl⟩

end AiOpenRouter
