/-
Paths into a WSL distribution (`wsl.rs`).

`normalizeWindowsPath` looks for its markers in a lower-cased copy of the path, anywhere, and cuts
the path itself at the offset that it finds there.

* `normalizeWindowsPath_short`, `normalizeWindowsPath_of_found`: what is cut off;
* `splitRemainder_spec`, `solid_splitRemainder`: distribution and Linux path keep every character;
* `handledRight_iff`: the paths that are recognised, normalised and resolved as they should be.
-/
import AiOpenRouter.CaseMappings
import AiOpenRouter.ThinkTags
import AiOpenRouter.TrimmedPieces

namespace AiOpenRouter

open Text

/-! ### Normalising -/

/-- `SHORT_PREFIX`. -/
def shortPrefix : List Char := "\\\\wsl$\\".toList

def isSlash (c : Char) : Bool := c = '\\' || c = '/'

/-- `trim_start_matches` at the slashes. -/
def trimSlashes (s : List Char) : List Char := s.dropWhile isSlash

/-- `replace('/', "\\")`. -/
def toBackslashes (s : List Char) : List Char := s.map fun c => if c = '/' then '\\' else c

/-- `replace('\\', "/")`. -/
def toSlashes (s : List Char) : List Char := s.map fun c => if c = '\\' then '/' else c

def localhostMarkers : List (List Char) := ["wsl.localhost\\".toList, "wsl.localhost/".toList]

/-- The loop of `normalize_windows_path`: none where a slice panics. -/
def cutAtMarker (lower path : List Char) : List (List Char) → Option (Option (List Char))
  | [] => some none
  | marker :: markers =>
    match splitFirst marker lower with
    | some (before, _) =>
      (sliceFrom path (byteLength before + byteLength marker)).map fun after =>
        some (shortPrefix ++ toBackslashes (trimSlashes after))
    | none => cutAtMarker lower path markers

/-- `normalize_windows_path`: none where a slice panics. -/
def normalizeWindowsPath (mapping : CaseMapping) (path : List Char) :
    Option (Option (List Char)) :=
  if shortPrefix <+: mapping.toLowercase path then
    (sliceFrom path (byteLength shortPrefix)).map fun remainder =>
      some (shortPrefix ++ toBackslashes remainder)
  else cutAtMarker (mapping.toLowercase path) path localhostMarkers

/-- `is_wsl_path`. -/
def isWslPath (mapping : CaseMapping) (path : List Char) : Option Bool :=
  (normalizeWindowsPath mapping path).map Option.isSome

/-! ### Resolving -/

/-- `WslPath`. -/
structure WslPath where
  distro : List Char
  linuxPath : List Char
  deriving DecidableEq

def splitRemainder (remainder : List Char) : WslPath where
  distro := trim ((trimSlashes remainder).takeWhile fun c => !isSlash c)
  linuxPath :=
    '/' :: toSlashes (trimSlashes ((trimSlashes remainder).dropWhile fun c => !isSlash c))

def WslPath.named (path : WslPath) : Option WslPath := if path.distro = [] then none else some path

/-- `resolve_path`: none where a slice panics. -/
def resolvePath (mapping : CaseMapping) (path : List Char) : Option (Option WslPath) :=
  (normalizeWindowsPath mapping path).map fun normalized =>
    normalized.bind fun normalized =>
      (normalized.dropPrefix? shortPrefix).bind fun remainder => (splitRemainder remainder).named

/-! ### What counts as a path into WSL -/

def spells (p c : Char) : Bool := if p = '\\' then isSlash c else c.toLower = p

def stripSpelled : List Char → List Char → Option (List Char)
  | [], path => some path
  | p :: pattern, c :: path => if spells p c then stripSpelled pattern path else none
  | _ :: _, [] => none

/-- What a path into WSL opens with: two slashes, or the form for long names. -/
def openings : List (List Char) := ["\\\\".toList, "\\\\?\\unc\\".toList]

/-- The names of the shares. -/
def hosts : List (List Char) := ["wsl$".toList, "wsl.localhost".toList]

def wslPrefixes : List (List Char) :=
  hosts.flatMap fun host => openings.map fun opening => opening ++ (host ++ ['\\'])

/-- What follows the share of a path into WSL. -/
def wslRest (path : List Char) : Option (List Char) :=
  wslPrefixes.findSome? fun start => stripSpelled start path

/-- **A path is handled right**: no slice panics, it is recognised exactly when it starts like a
path into WSL, its normal form stays as it is and resolves alike, and distribution and Linux path
are those of what follows the share. -/
def HandledRight (mapping : CaseMapping) (path : List Char) : Prop :=
  ∃ result, normalizeWindowsPath mapping path = some result ∧
    (result.isSome ↔ (wslRest path).isSome) ∧
    (∀ normal, result = some normal → normalizeWindowsPath mapping normal = some (some normal) ∧
      resolvePath mapping normal = resolvePath mapping path) ∧
    ∀ rest, wslRest path = some rest → ∃ kept, result = some (shortPrefix ++ kept) ∧
      splitRemainder kept = splitRemainder rest ∧
      resolvePath mapping path = some (splitRemainder rest).named

/-- A marker occurs in a path, in any letter case. -/
def Names (marker path : List Char) : Prop := marker <:+: path.map Char.toLower

/-- **No marker misleads the search**: the path is none into WSL and has no marker; or it starts
with the short share, with backslashes; or with the other share, and no marker with a backslash
comes behind one with a slash. -/
def NotMisled (path : List Char) : Prop :=
  (wslRest path = none ∧ ∀ marker ∈ localhostMarkers, ¬ Names marker path) ∨
    shortPrefix <+: path.map Char.toLower ∨
    ∃ opening ∈ openings, ∃ sep rest,
      stripSpelled (opening ++ "wsl.localhost".toList) path = some (sep :: rest) ∧
        (sep = '\\' ∨ sep = '/' ∧ ¬ Names "wsl.localhost\\".toList rest)

/-! ### Spellings -/

theorem stripSpelled_append (first second path : List Char) :
    stripSpelled (first ++ second) path = (stripSpelled first path).bind (stripSpelled second) := by
  induction first generalizing path with
  | nil => rfl
  | cons p first ih =>
    cases path with
    | nil => rfl
    | cons c path =>
      rw [List.cons_append, stripSpelled, stripSpelled]
      split_ifs
      · exact ih path
      · rfl

variable {path rest host opening pattern start : List Char} {sep : Char} (s : List Char)

theorem exists_of_stripSpelled (h : stripSpelled pattern path = some rest) :
    ∃ start, path = start ++ rest ∧ start.length = pattern.length ∧
      ∀ c ∈ start, ∃ p ∈ pattern, spells p c = true := by
  induction pattern generalizing path with
  | nil =>
    cases h
    exact ⟨[], rfl, rfl, fun c hc => absurd hc List.not_mem_nil⟩
  | cons p pattern ih =>
    cases path with
    | nil => cases h
    | cons c path =>
      rw [stripSpelled] at h
      split_ifs at h with hspells
      obtain ⟨start, rfl, hlength, hstart⟩ := ih h
      refine ⟨c :: start, rfl, congrArg Nat.succ hlength, ?_⟩
      rw [List.forall_mem_cons]
      exact ⟨⟨p, List.mem_cons_self, hspells⟩, fun d hd =>
        (hstart d hd).imp fun q hq => ⟨List.mem_cons_of_mem p hq.1, hq.2⟩⟩

theorem stripSpelled_eq_some_iff (hpattern : '\\' ∉ pattern) :
    stripSpelled pattern path = some rest ↔
      ∃ start, path = start ++ rest ∧ start.map Char.toLower = pattern := by
  induction pattern generalizing path with
  | nil =>
    constructor
    · intro h
      exact ⟨[], Option.some.inj h, rfl⟩
    · rintro ⟨start, rfl, hstart⟩
      rw [List.map_eq_nil_iff.1 hstart]
      rfl
  | cons p pattern ih =>
    obtain ⟨hp, hrest⟩ := not_or.1 (fun h => hpattern (List.mem_cons.2 h))
    cases path with
    | nil =>
      refine iff_of_false (fun h => nomatch h) ?_
      rintro ⟨start, hpath, hstart⟩
      rw [(List.append_eq_nil_iff.1 hpath.symm).1] at hstart
      cases hstart
    | cons c path =>
      have hspells : spells p c = true ↔ c.toLower = p := by
        rw [spells, if_neg (Ne.symm hp), decide_eq_true_eq]
      rw [stripSpelled]
      constructor
      · intro h
        split_ifs at h with hc
        obtain ⟨start, rfl, hstart⟩ := (ih hrest).1 h
        exact ⟨c :: start, rfl, by rw [List.map_cons, hspells.1 hc, hstart]⟩
      · rintro ⟨start, hpath, hstart⟩
        cases start with
        | nil => cases hstart
        | cons d start =>
          obtain ⟨rfl, htail⟩ := List.cons.inj hpath
          obtain ⟨hc, hmap⟩ := List.cons.inj hstart
          rw [if_pos (hspells.2 hc)]
          exact (ih hrest).2 ⟨start, htail, hmap⟩

/-- What a path opens with has no letter of the names of the shares. -/
structure IsOpening (start : List Char) : Prop where
  ascii : ∀ c ∈ start, c.toNat < 128
  notMem : 'w' ∉ start.map Char.toLower

theorem IsOpening.ne_w (h : IsOpening start) :
    ∀ c ∈ start.map Char.toLower, decide (c ≠ 'w') = true := fun _ hc =>
  decide_eq_true fun heq => h.notMem (heq ▸ hc)

theorem isOpening_of_mem (hopening : opening ∈ openings)
    (h : stripSpelled opening path = some rest) :
    ∃ start, path = start ++ rest ∧ start.length = opening.length ∧ IsOpening start := by
  obtain ⟨start, hpath, hlength, hstart⟩ := exists_of_stripSpelled h
  have hchars : ∀ c ∈ start, c = '\\' ∨ c = '/' ∨ c.toLower ∈ ['?', 'u', 'n', 'c'] := by
    intro c hc
    obtain ⟨p, hp, hspells⟩ := hstart c hc
    rw [spells] at hspells
    split_ifs at hspells with hslash
    · rw [isSlash, Bool.or_eq_true, decide_eq_true_eq, decide_eq_true_eq] at hspells
      exact hspells.imp_right .inl
    · rw [decide_eq_true_eq] at hspells
      have hall : ∀ opening ∈ openings,
          opening.all (fun p => p ≠ '\\' → p ∈ ['?', 'u', 'n', 'c']) = true := by
        decide
      have hletter := of_decide_eq_true (List.all_eq_true.1 (hall opening hopening) p hp) hslash
      exact .inr (.inr (hspells ▸ hletter))
  refine ⟨start, hpath, hlength, ⟨fun c hc => ?_, fun hw => ?_⟩⟩
  · rcases hchars c hc with rfl | rfl | hmem
    · decide
    · decide
    · have hall : ['?', 'u', 'n', 'c'].all (fun d => d.toNat < 128) = true := by decide
      exact ascii_of_toLower (of_decide_eq_true (List.all_eq_true.1 hall _ hmem))
  · obtain ⟨c, hc, hlower⟩ := List.mem_map.1 hw
    rcases hchars c hc with rfl | rfl | hmem
    · exact absurd hlower (by decide)
    · exact absurd hlower (by decide)
    · rw [hlower] at hmem
      exact absurd hmem (by decide)

/-! ### Shares -/

structure IsShare (host path rest opening name : List Char) (sep : Char) : Prop where
  path_eq : path = opening ++ (name ++ sep :: rest)
  isOpening : IsOpening opening
  name_eq : name.map Char.toLower = host
  slash : isSlash sep = true

theorem exists_isShare (hopening : opening ∈ openings) (hhost : host ∈ hosts)
    (h : stripSpelled (opening ++ host) path = some (sep :: rest)) (hsep : isSlash sep = true) :
    ∃ start name, IsShare host path rest start name sep := by
  rw [stripSpelled_append] at h
  obtain ⟨behind, hstart, hname⟩ := Option.bind_eq_some_iff.1 h
  obtain ⟨start, rfl, -, hisOpening⟩ := isOpening_of_mem hopening hstart
  have hplain : '\\' ∉ host := by
    have hall : ∀ host ∈ hosts, '\\' ∉ host := by decide
    exact hall host hhost
  obtain ⟨name, rfl, hmap⟩ := (stripSpelled_eq_some_iff hplain).1 hname
  exact ⟨start, name, rfl, hisOpening, hmap, hsep⟩

theorem eq_of_isSlash {c : Char} (h : isSlash c = true) : c = '\\' ∨ c = '/' := by
  rwa [isSlash, Bool.or_eq_true, decide_eq_true_eq, decide_eq_true_eq] at h

theorem toLower_of_isSlash {c : Char} (h : isSlash c = true) : c.toLower = c := by
  rcases eq_of_isSlash h with rfl | rfl <;> decide

theorem mem_hosts (h : host ∈ hosts) : host = "wsl$".toList ∨ host = "wsl.localhost".toList := by
  rw [hosts, List.mem_cons, List.mem_singleton] at h
  exact h

namespace IsShare

variable {host path rest opening name : List Char} {sep : Char}

theorem ascii (h : IsShare host path rest opening name sep) (hhost : host ∈ hosts) :
    ∀ c ∈ opening ++ (name ++ [sep]), c.toNat < 128 := by
  have hnames : ∀ c ∈ name, c.toNat < 128 := by
    intro c hc
    have hall : ∀ host ∈ hosts, host.all (fun d => d.toNat < 128) = true := by decide
    exact ascii_of_toLower (of_decide_eq_true
      (List.all_eq_true.1 (hall host hhost) _ (h.name_eq ▸ List.mem_map_of_mem hc)))
  intro c hc
  rcases List.mem_append.1 hc with hc | hc
  · exact h.isOpening.ascii c hc
  · rcases List.mem_append.1 hc with hc | hc
    · exact hnames c hc
    · obtain rfl := List.mem_singleton.1 hc
      rcases eq_of_isSlash h.slash with rfl | rfl <;> decide

theorem map_start (h : IsShare host path rest opening name sep) :
    (opening ++ (name ++ [sep])).map Char.toLower =
      opening.map Char.toLower ++ (host ++ [sep]) := by
  rw [List.map_append, List.map_append, h.name_eq, List.map_singleton, toLower_of_isSlash h.slash]

theorem eq_start_append (h : IsShare host path rest opening name sep) :
    path = opening ++ (name ++ [sep]) ++ rest := by
  rw [h.path_eq, List.append_assoc, List.append_assoc, List.singleton_append]

theorem toLowercase_eq (h : IsShare host path rest opening name sep) (hhost : host ∈ hosts)
    (mapping : CaseMapping) :
    mapping.toLowercase path = opening.map Char.toLower ++ (host ++ [sep]) ++
      mapping.images (opening ++ (name ++ [sep])) rest [] := by
  rw [CaseMapping.toLowercase, h.eq_start_append, CaseMapping.images_append,
    CaseMapping.images_ascii (h.ascii hhost), h.map_start, List.nil_append]

theorem unique {host' rest' opening' name' : List Char} {sep' : Char}
    (h : IsShare host path rest opening name sep) (hhost : host ∈ hosts)
    (h' : IsShare host' path rest' opening' name' sep') (hhost' : host' ∈ hosts) :
    rest = rest' := by
  have hlower : ∀ {host rest opening name : List Char} {sep : Char},
      IsShare host path rest opening name sep → path.map Char.toLower =
        opening.map Char.toLower ++ (host ++ sep.toLower :: rest.map Char.toLower) := by
    intro host rest opening name sep h
    rw [h.path_eq, List.map_append, List.map_append, h.name_eq, List.map_cons]
  have hsame := (hlower h).symm.trans (hlower h')
  have hlengths : opening.length = opening'.length ∧ host = host' := by
    have hcut : ∀ {tail tail' : List Char},
        opening.map Char.toLower ++ 'w' :: tail = opening'.map Char.toLower ++ 'w' :: tail' →
          opening.length = opening'.length ∧ tail = tail' := by
      intro tail tail' heq
      obtain ⟨hmap, htail⟩ := @TrimmedPieces.append_inj_of_blanks _ (fun c => decide (c ≠ 'w'))
        _ _ _ _ h.isOpening.ne_w h'.isOpening.ne_w (by simp) (by simp) heq
      have hlength := congrArg List.length hmap
      rw [List.length_map, List.length_map] at hlength
      exact ⟨hlength, (List.cons.inj htail).2⟩
    rcases mem_hosts hhost with rfl | rfl <;> rcases mem_hosts hhost' with rfl | rfl
    · exact ⟨(hcut hsame).1, rfl⟩
    · exact absurd (List.cons.inj (List.cons.inj (List.cons.inj (hcut hsame).2).2).2).1 (by decide)
    · exact absurd (List.cons.inj (List.cons.inj (List.cons.inj (hcut hsame).2).2).2).1 (by decide)
    · exact ⟨(hcut hsame).1, rfl⟩
  have hname := congrArg List.length (h.name_eq.trans (hlengths.2.trans h'.name_eq.symm))
  rw [List.length_map, List.length_map] at hname
  obtain ⟨-, hbehind⟩ := List.append_inj (h.path_eq.symm.trans h'.path_eq) hlengths.1
  obtain ⟨-, hrest⟩ := List.append_inj hbehind hname
  exact (List.cons.inj hrest).2

end IsShare

theorem exists_of_mem_wslPrefixes (hstart : start ∈ wslPrefixes)
    (h : stripSpelled start path = some rest) :
    ∃ host ∈ hosts, ∃ opening ∈ openings, ∃ sep, isSlash sep = true ∧
      stripSpelled (opening ++ host) path = some (sep :: rest) := by
  obtain ⟨host, hhost, hmap⟩ := List.mem_flatMap.1 hstart
  obtain ⟨opening, hopening, rfl⟩ := List.mem_map.1 hmap
  rw [← List.append_assoc, stripSpelled_append] at h
  obtain ⟨behind, hshare, hsep⟩ := Option.bind_eq_some_iff.1 h
  refine ⟨host, hhost, opening, hopening, ?_⟩
  cases behind with
  | nil => cases hsep
  | cons sep behind =>
    have hspells : spells '\\' sep = isSlash sep := rfl
    rw [stripSpelled, hspells] at hsep
    split_ifs at hsep with hslash
    cases hsep
    exact ⟨sep, hslash, hshare⟩

theorem IsShare.wslRest_eq {name : List Char} (h : IsShare host path rest opening name sep)
    (hhost : host ∈ hosts) (hsome : (wslRest path).isSome = true) : wslRest path = some rest := by
  obtain ⟨found, hfound⟩ := Option.isSome_iff_exists.1 hsome
  obtain ⟨start, hstart, hstrip⟩ := List.exists_of_findSome?_eq_some hfound
  obtain ⟨host', hhost', opening', hopening', sep', hsep', hshare'⟩ :=
    exists_of_mem_wslPrefixes hstart hstrip
  obtain ⟨first, name', h'⟩ := exists_isShare hopening' hhost' hshare' hsep'
  rw [hfound, h'.unique hhost' h hhost]

theorem wslRest_isSome {start path rest : List Char} (hstart : start ∈ wslPrefixes)
    (h : stripSpelled start path = some rest) : (wslRest path).isSome = true := by
  rw [wslRest, List.findSome?_isSome_iff]
  exact ⟨start, hstart, by rw [h]; rfl⟩

theorem wslRest_of_share (hhost : host ∈ hosts) (hopening : opening ∈ openings)
    (h : stripSpelled (opening ++ host) path = some (sep :: rest)) (hsep : isSlash sep = true) :
    wslRest path = some rest := by
  obtain ⟨first, name, hshare⟩ := exists_isShare hopening hhost h hsep
  have hmem : opening ++ (host ++ ['\\']) ∈ wslPrefixes :=
    List.mem_flatMap.2 ⟨host, hhost, List.mem_map.2 ⟨opening, hopening, rfl⟩⟩
  refine hshare.wslRest_eq hhost (@wslRest_isSome _ _ rest hmem ?_)
  have hspells : spells '\\' sep = isSlash sep := rfl
  rw [← List.append_assoc, stripSpelled_append, h, Option.bind_some, stripSpelled, hspells,
    if_pos hsep]
  rfl

/-! ### The lower-cased copy -/

theorem isPlainPattern_shortPrefix : IsPlainPattern shortPrefix :=
  isPlainPattern_of_all (by decide)

theorem isPlainPattern_marker {marker : List Char} (h : marker ∈ localhostMarkers) :
    IsPlainPattern marker ∧ marker ≠ [] := by
  have hall : ∀ marker ∈ localhostMarkers,
      marker.all (fun d => d.toNat < 128 ∧ d ≠ 'i' ∧ d ≠ 'k') = true ∧ marker ≠ [] := by
    decide
  exact (hall marker h).imp_left isPlainPattern_of_all

theorem infix_toLowercase_iff (hpattern : IsPlainPattern pattern) (hne : pattern ≠ [])
    (mapping : CaseMapping) (path : List Char) :
    pattern <:+: mapping.toLowercase path ↔ Names pattern path := by
  constructor
  · rintro ⟨x, y, hxy⟩
    rw [List.append_assoc] at hxy
    obtain ⟨front, own, back, rfl, hown, -⟩ := CaseMapping.exists_of_images_eq hpattern hne hxy.symm
    refine ⟨front.map Char.toLower, back.map Char.toLower, ?_⟩
    rw [List.map_append, List.map_append, hown, List.append_assoc]
  · rintro ⟨x, y, hxy⟩
    rw [List.append_assoc] at hxy
    obtain ⟨front, behind, rfl, -, hbehind⟩ := List.map_eq_append_iff.1 hxy.symm
    obtain ⟨own, back, rfl, hown, -⟩ := List.map_eq_append_iff.1 hbehind
    have hascii : ∀ d ∈ own.map Char.toLower, d.toNat < 128 := fun d hd =>
      (hpattern d (hown ▸ hd)).1
    rw [CaseMapping.toLowercase, CaseMapping.images_own hascii, hown]
    exact ⟨_, _, List.append_assoc ..⟩

theorem prefix_toLowercase_iff (mapping : CaseMapping) (path : List Char) :
    shortPrefix <+: mapping.toLowercase path ↔
      ∃ start rest, path = start ++ rest ∧ start.map Char.toLower = shortPrefix := by
  constructor
  · rintro ⟨y, hy⟩
    obtain ⟨own, rest, hpath, hown, -⟩ :=
      CaseMapping.exists_of_images_eq_append isPlainPattern_shortPrefix hy.symm
    exact ⟨own, rest, hpath, hown⟩
  · rintro ⟨start, rest, rfl, hstart⟩
    have hascii : ∀ d ∈ start.map Char.toLower, d.toNat < 128 := fun d hd =>
      (isPlainPattern_shortPrefix d (hstart ▸ hd)).1
    have himages := @CaseMapping.images_own mapping _ hascii [] [] rest []
    rw [List.nil_append] at himages
    rw [CaseMapping.toLowercase, himages, hstart]
    exact ⟨_, rfl⟩

theorem prefix_map_iff (path : List Char) :
    shortPrefix <+: path.map Char.toLower ↔
      ∃ start rest, path = start ++ rest ∧ start.map Char.toLower = shortPrefix := by
  constructor
  · rintro ⟨y, hy⟩
    obtain ⟨start, rest, rfl, hstart, -⟩ := List.map_eq_append_iff.1 hy.symm
    exact ⟨start, rest, rfl, hstart⟩
  · rintro ⟨start, rest, rfl, hstart⟩
    rw [List.map_append, hstart]
    exact ⟨_, rfl⟩

theorem byteLength_ascii {s : List Char} (h : ∀ c ∈ s, c.toNat < 128) :
    byteLength s = s.length := by
  induction s with
  | nil => rfl
  | cons c s ih =>
    rw [byteLength, utf8Size_ascii (h c List.mem_cons_self),
      ih fun d hd => h d (List.mem_cons_of_mem c hd), List.length_cons, Nat.add_comm]

theorem IsShare.byteLength_start {name : List Char} (h : IsShare host path rest opening name sep)
    (hhost : host ∈ hosts) :
    byteLength (opening.map Char.toLower ++ (host ++ [sep])) =
      byteLength (opening ++ (name ++ [sep])) := by
  have hascii := h.ascii hhost
  rw [← h.map_start, byteLength_ascii hascii, byteLength_ascii, List.length_map]
  intro d hd
  obtain ⟨c, hc, rfl⟩ := List.mem_map.1 hd
  exact toLower_ascii (hascii c hc)

/-- **The short share** is cut off. -/
theorem normalizeWindowsPath_short (mapping : CaseMapping)
    (h : start.map Char.toLower = shortPrefix) (rest : List Char) :
    normalizeWindowsPath mapping (start ++ rest) =
      some (some (shortPrefix ++ toBackslashes rest)) := by
  have hascii : ∀ c ∈ start, c.toNat < 128 := fun c hc =>
    ascii_of_toLower (isPlainPattern_shortPrefix _ (h ▸ List.mem_map_of_mem hc)).1
  have hlength : byteLength shortPrefix = byteLength start := by
    rw [byteLength_ascii hascii, byteLength_ascii fun c hc => (isPlainPattern_shortPrefix c hc).1,
      ← h, List.length_map]
  rw [normalizeWindowsPath, if_pos ((prefix_toLowercase_iff mapping _).2 ⟨start, rest, rfl, h⟩),
    hlength, sliceFrom_append]
  rfl

/-! ### Remainders -/

theorem isSlash_toBackslash (c : Char) : isSlash (if c = '/' then '\\' else c) = isSlash c := by
  split_ifs with hc
  · rw [hc]
    rfl
  · rfl

theorem dropWhile_toBackslashes {p : Char → Bool}
    (hp : ∀ c, p (if c = '/' then '\\' else c) = p c) (s : List Char) :
    (toBackslashes s).dropWhile p = toBackslashes (s.dropWhile p) := by
  have hcomp : (p ∘ fun c => if c = '/' then '\\' else c) = p := funext hp
  rw [toBackslashes, List.dropWhile_map, hcomp]
  rfl

theorem trimSlashes_toBackslashes : trimSlashes (toBackslashes s) = toBackslashes (trimSlashes s) :=
  dropWhile_toBackslashes isSlash_toBackslash s

theorem toSlashes_toBackslashes : toSlashes (toBackslashes s) = toSlashes s := by
  rw [toSlashes, toBackslashes, List.map_map, toSlashes]
  refine List.map_congr_left fun c _ => ?_
  rw [Function.comp_apply]
  by_cases hc : c = '/'
  · subst hc
    rfl
  · rw [if_neg hc]

theorem toBackslashes_toBackslashes : toBackslashes (toBackslashes s) = toBackslashes s := by
  rw [toBackslashes, toBackslashes, List.map_map]
  refine List.map_congr_left fun c _ => ?_
  rw [Function.comp_apply]
  by_cases hc : c = '/'
  · subst hc
    rfl
  · rw [if_neg hc, if_neg hc]

theorem splitRemainder_toBackslashes : splitRemainder (toBackslashes s) = splitRemainder s := by
  have hnot : ∀ c, (!isSlash (if c = '/' then '\\' else c)) = !isSlash c := fun c =>
    congrArg not (isSlash_toBackslash c)
  have htake : ∀ t : List Char, (toBackslashes t).takeWhile (fun c => !isSlash c) =
      t.takeWhile fun c => !isSlash c := by
    intro t
    have hcomp : ((fun c => !isSlash c) ∘ fun c => if c = '/' then '\\' else c) =
        fun c => !isSlash c := funext hnot
    rw [toBackslashes, List.takeWhile_map, hcomp]
    refine (List.map_congr_left fun c hc => ?_).trans (List.map_id _)
    have hslash := List.mem_takeWhile_imp hc
    refine if_neg ?_
    rintro rfl
    exact absurd hslash (by decide)
  rw [splitRemainder, splitRemainder, trimSlashes_toBackslashes, htake,
    dropWhile_toBackslashes hnot, trimSlashes_toBackslashes, toSlashes_toBackslashes]

theorem splitRemainder_trimSlashes : splitRemainder (trimSlashes s) = splitRemainder s := by
  have htwice : trimSlashes (trimSlashes s) = trimSlashes s :=
    TrimmedPieces.dropWhile_of_head TrimmedPieces.dropWhile_head
  rw [splitRemainder, splitRemainder, htwice]

/-- **Distribution and Linux path keep every character** but the slashes in front of them and the
blanks around the name. -/
theorem splitRemainder_spec :
    ∃ lead name gap tail, s = lead ++ (name ++ (gap ++ tail)) ∧
      (∀ c ∈ lead ++ gap, isSlash c = true) ∧ (∀ c ∈ name, isSlash c = false) ∧
        splitRemainder s = ⟨trim name, '/' :: toSlashes tail⟩ := by
  refine ⟨s.takeWhile isSlash, (trimSlashes s).takeWhile fun c => !isSlash c,
    ((trimSlashes s).dropWhile fun c => !isSlash c).takeWhile isSlash,
    trimSlashes ((trimSlashes s).dropWhile fun c => !isSlash c), ?_, ?_, ?_, rfl⟩
  · simp only [trimSlashes, List.takeWhile_append_dropWhile]
  · intro c hc
    rcases List.mem_append.1 hc with hc | hc
    · exact List.mem_takeWhile_imp hc
    · exact List.mem_takeWhile_imp hc
  · intro c hc
    have hnot := List.mem_takeWhile_imp hc
    rwa [Bool.not_eq_true'] at hnot

def solid (c : Char) : Bool := !isSlash c && !isWhitespace c

theorem countP_dropWhile {p q : Char → Bool} (h : ∀ c, p c = true → q c = false) (s : List Char) :
    (s.dropWhile p).countP q = s.countP q := by
  induction s with
  | nil => rfl
  | cons c s ih =>
    rw [List.dropWhile_cons]
    split_ifs with hc
    · rw [ih, List.countP_cons_of_neg (Bool.eq_false_iff.1 (h c hc))]
    · rfl

theorem solid_trim : (trim s).countP solid = s.countP solid := by
  have hblank : ∀ c, isWhitespace c = true → solid c = false := fun c hc => by
    rw [solid, hc, Bool.not_true, Bool.and_false]
  rw [trim, trimEndMatches, List.countP_reverse, countP_dropWhile hblank, List.countP_reverse,
    trimStart, countP_dropWhile hblank]

/-- **No solid character is lost.** -/
theorem solid_splitRemainder :
    (splitRemainder s).distro.countP solid + (splitRemainder s).linuxPath.countP solid =
      s.countP solid := by
  obtain ⟨lead, name, gap, tail, rfl, hslashes, -, hsplit⟩ := splitRemainder_spec s
  have hslash : ∀ t : List Char, (∀ c ∈ t, isSlash c = true) → t.countP solid = 0 := by
    intro t ht
    rw [List.countP_eq_zero]
    intro c hc
    rw [solid, ht c hc]
    exact Bool.false_ne_true
  have hslashes' : (toSlashes tail).countP solid = tail.countP solid := by
    rw [toSlashes, List.countP_map]
    refine List.countP_congr fun c _ => ?_
    rw [Function.comp_apply]
    split_ifs with hc
    · rw [hc]
      decide
    · rfl
  rw [hsplit]
  dsimp only
  rw [List.countP_cons_of_neg (by decide), hslashes', List.countP_append, List.countP_append,
    List.countP_append, hslash lead fun c hc => hslashes c (List.mem_append_left _ hc),
    hslash gap fun c hc => hslashes c (List.mem_append_right _ hc), solid_trim]
  omega

/-! ### Paths that are handled right -/

section

variable {mapping : CaseMapping} {path rest kept : List Char}

theorem resolvePath_of_normalized
    (h : normalizeWindowsPath mapping path = some (some (shortPrefix ++ kept))) :
    resolvePath mapping path = some (splitRemainder kept).named := by
  have hstrip : (shortPrefix ++ kept).dropPrefix? shortPrefix = some kept :=
    List.dropPrefix?_eq_some_iff.2 ⟨shortPrefix, rfl, beq_self_eq_true shortPrefix⟩
  rw [resolvePath, h, Option.map_some, Option.bind_some, hstrip, Option.bind_some]

theorem handledRight_of_normalized (hrest : wslRest path = some rest)
    (h : normalizeWindowsPath mapping path = some (some (shortPrefix ++ kept)))
    (hkept : toBackslashes kept = kept) (hsplit : splitRemainder kept = splitRemainder rest) :
    HandledRight mapping path := by
  have hagain : normalizeWindowsPath mapping (shortPrefix ++ kept) =
      some (some (shortPrefix ++ kept)) := by
    have hlower : shortPrefix.map Char.toLower = shortPrefix := by decide
    rw [normalizeWindowsPath_short mapping hlower, hkept]
  refine ⟨_, h, iff_of_true rfl (by rw [hrest]; rfl), ?_, ?_⟩
  · intro normal hnormal
    cases hnormal
    exact ⟨hagain, (resolvePath_of_normalized hagain).trans (resolvePath_of_normalized h).symm⟩
  · intro rest' hrest'
    obtain rfl := Option.some.inj (hrest.symm.trans hrest')
    exact ⟨kept, rfl, hsplit, by rw [resolvePath_of_normalized h, hsplit]⟩

theorem spells_of_toLower {p c : Char} (h : c.toLower = p) : spells p c = true := by
  rw [spells]
  split_ifs with hp
  · have hback : ∀ n : Fin 128, (Char.ofNat n).toLower = '\\' → isSlash (Char.ofNat n) = true := by
      decide +kernel
    have hascii : c.toNat < 128 := by
      refine ascii_of_toLower ?_
      rw [h, hp]
      decide
    have hc := hback ⟨c.toNat, hascii⟩
    rw [Char.ofNat_toNat] at hc
    exact hc (h.trans hp)
  · exact decide_eq_true h

variable {name opening pattern x y : List Char} {sep : Char}

theorem stripSpelled_of_map {start : List Char} (h : start.map Char.toLower = pattern)
    (rest : List Char) : stripSpelled pattern (start ++ rest) = some rest := by
  subst h
  induction start with
  | nil => rfl
  | cons c start ih =>
    rw [List.map_cons, List.cons_append, stripSpelled, if_pos (spells_of_toLower rfl)]
    exact ih

/-- **The short share**, with backslashes. -/
theorem handledRight_short (h : shortPrefix <+: path.map Char.toLower) :
    HandledRight mapping path := by
  obtain ⟨start, rest, rfl, hstart⟩ := (prefix_map_iff path).1 h
  have hmem : shortPrefix ∈ wslPrefixes := by decide
  obtain ⟨host, hhost, opening, hopening, sep, hsep, hshare⟩ :=
    exists_of_mem_wslPrefixes hmem (stripSpelled_of_map hstart rest)
  exact handledRight_of_normalized (wslRest_of_share hhost hopening hshare hsep)
    (normalizeWindowsPath_short mapping hstart rest) (toBackslashes_toBackslashes rest)
    (splitRemainder_toBackslashes rest)

theorem normalizeWindowsPath_of_plain (hshort : ¬ shortPrefix <+: path.map Char.toLower)
    (hnames : ∀ marker ∈ localhostMarkers, ¬ Names marker path) :
    normalizeWindowsPath mapping path = some none := by
  have hnone : ∀ marker ∈ localhostMarkers,
      splitFirst marker (mapping.toLowercase path) = none := by
    intro marker hmarker
    obtain ⟨hpattern, hne⟩ := isPlainPattern_marker hmarker
    rw [splitFirst_eq_none_iff, infix_toLowercase_iff hpattern hne]
    exact hnames marker hmarker
  rw [prefix_map_iff, ← prefix_toLowercase_iff mapping] at hshort
  rw [normalizeWindowsPath, if_neg hshort, localhostMarkers, cutAtMarker,
    hnone _ (by decide)]
  dsimp only
  rw [cutAtMarker, hnone _ (by decide)]
  rfl

/-- **An occurrence behind a start** that has the first letter of the pattern once, and then goes on
in another way. -/
theorem exists_behind {w : Char} {front tail behind : List Char} (hfront : w ∉ front)
    (htail : w ∉ tail) (hnot : ¬ pattern <+: tail ++ behind)
    (h : front ++ w :: tail ++ behind = x ++ (w :: pattern ++ y)) :
    ∃ x', x = front ++ w :: tail ++ x' ∧ behind = x' ++ (w :: pattern ++ y) := by
  rcases List.append_eq_append_iff.1 h with ⟨gap, hx, hbehind⟩ | ⟨gap, hstart, hpattern⟩
  · exact ⟨gap, hx, hbehind⟩
  · cases gap with
    | nil =>
      rw [List.append_nil] at hstart
      exact ⟨[], by rw [hstart, List.append_nil], hpattern.symm⟩
    | cons c gap =>
      obtain ⟨rfl, hgap⟩ := List.cons.inj hpattern
      obtain ⟨-, -, rfl⟩ := (List.append_cons_inj_of_notMem hfront htail).1 hstart
      exact absurd ⟨y, hgap⟩ hnot

theorem not_names_of_slash (h : IsShare "wsl.localhost".toList path rest opening name '/')
    (hnames : ¬ Names "wsl.localhost\\".toList rest) : ¬ Names "wsl.localhost\\".toList path := by
  have hmarker : "wsl.localhost\\".toList = 'w' :: "sl.localhost\\".toList := by decide
  have hshare : "wsl.localhost".toList ++ ['/'] = 'w' :: "sl.localhost/".toList := by decide
  have hnot : ¬ "sl.localhost\\".toList <+: "sl.localhost/".toList ++ rest.map Char.toLower := by
    rintro ⟨t, ht⟩
    exact absurd (List.append_inj ht (by decide)).1 (by decide)
  rintro ⟨x, y, hxy⟩
  have hpath : path.map Char.toLower = opening.map Char.toLower ++
      'w' :: "sl.localhost/".toList ++ rest.map Char.toLower := by
    rw [h.eq_start_append, List.map_append, h.map_start, hshare]
  rw [hpath, List.append_assoc x, hmarker] at hxy
  obtain ⟨x', -, hbehind⟩ := exists_behind h.isOpening.notMem (by decide) hnot hxy.symm
  refine hnames ⟨x', y, ?_⟩
  rw [hbehind, hmarker, List.append_assoc]

theorem normalizeWindowsPath_of_found (hshort : ¬ shortPrefix <+: path.map Char.toLower)
    {marker : List Char} (hfound : splitFirst marker (mapping.toLowercase path) = some (x, y))
    (hfirst : marker = "wsl.localhost\\".toList ∨
      marker = "wsl.localhost/".toList ∧ ¬ Names "wsl.localhost\\".toList path) :
    normalizeWindowsPath mapping path =
      (sliceFrom path (byteLength x + byteLength marker)).map fun after =>
        some (shortPrefix ++ toBackslashes (trimSlashes after)) := by
  rw [prefix_map_iff, ← prefix_toLowercase_iff mapping] at hshort
  rw [normalizeWindowsPath, if_neg hshort, localhostMarkers, cutAtMarker]
  rcases hfirst with rfl | ⟨rfl, hnames⟩
  · rw [hfound]
  · have hmem : "wsl.localhost\\".toList ∈ localhostMarkers := by decide
    obtain ⟨hpattern, hne⟩ := isPlainPattern_marker hmem
    rw [← infix_toLowercase_iff hpattern hne mapping, ← splitFirst_eq_none_iff] at hnames
    rw [hnames]
    dsimp only
    rw [cutAtMarker, hfound]

/-- **The share of the local host**, unless a marker with a backslash comes behind a slash. -/
theorem handledRight_localhost (h : IsShare "wsl.localhost".toList path rest opening name sep)
    (hrest : wslRest path = some rest) (hshort : ¬ shortPrefix <+: path.map Char.toLower)
    (hsep : sep = '\\' ∨ sep = '/' ∧ ¬ Names "wsl.localhost\\".toList rest) :
    HandledRight mapping path := by
  have hhost : "wsl.localhost".toList ∈ hosts := by decide
  have hfound : splitFirst ("wsl.localhost".toList ++ [sep]) (mapping.toLowercase path) =
      some (opening.map Char.toLower, mapping.images (opening ++ (name ++ [sep])) rest []) := by
    have hw : "wsl.localhost".toList ++ [sep] = 'w' :: ("sl.localhost".toList ++ [sep]) := by
      rw [← List.cons_append]
      exact congrArg (· ++ [sep]) (by decide)
    have hfirst : EndsFirst ("wsl.localhost".toList ++ [sep]) (opening.map Char.toLower) := by
      rw [hw]
      exact endsFirst_of_notMem h.isOpening.notMem
    rw [h.toLowercase_eq hhost]
    exact splitFirst_of_endsFirst _ hfirst
  have hslice : sliceFrom path (byteLength (opening.map Char.toLower) +
      byteLength ("wsl.localhost".toList ++ [sep])) = some rest := by
    rw [← byteLength_append, h.byteLength_start hhost, h.eq_start_append, sliceFrom_append]
  have hcut := normalizeWindowsPath_of_found hshort hfound (by
    rcases hsep with rfl | ⟨rfl, hnames⟩
    · exact .inl (by decide)
    · exact .inr ⟨by decide, not_names_of_slash h hnames⟩)
  rw [hslice] at hcut
  refine handledRight_of_normalized hrest hcut (toBackslashes_toBackslashes _) ?_
  rw [splitRemainder_toBackslashes, splitRemainder_trimSlashes]

/-! ### Paths that are not -/

/-- What is cut off up to a marker and as many bytes more is not slashes and blanks alone: these
have as many bytes as their small letters, so the cut would be behind the start of the marker. -/
theorem solid_of_cut {before after front own back cutOff : List Char} {w : Char}
    (hrest : front ++ (own ++ back) = cutOff ++ after) (hown : own.map Char.toLower = w :: pattern)
    (hw : ∀ c : Char, c.toLower = w → solid c = true)
    (hlength : byteLength (mapping.images before front (own ++ back ++ [])) < byteLength cutOff) :
    0 < cutOff.countP solid := by
  by_contra hzero
  have hnone : ∀ c ∈ cutOff, ¬ solid c = true :=
    List.countP_eq_zero.1 (Nat.eq_zero_of_not_pos hzero)
  have hblank : ∀ c ∈ cutOff, c.toNat < 128 ∨ isWhitespace c = true := by
    intro c hc
    have hsolid := hnone c hc
    rw [solid, Bool.and_eq_true, Bool.not_eq_true', Bool.not_eq_true', not_and_or,
      Bool.not_eq_false, Bool.not_eq_false] at hsolid
    rcases hsolid with hslash | hblank
    · rcases eq_of_isSlash hslash with rfl | rfl
      · exact .inl (by decide)
      · exact .inl (by decide)
    · exact .inr hblank
  rcases List.append_eq_append_iff.1 hrest with ⟨gap, rfl, hbehind⟩ | ⟨gap, rfl, -⟩
  · cases gap with
    | nil =>
      simp only [List.append_nil] at hblank hlength
      rw [CaseMapping.byteLength_images hblank] at hlength
      exact absurd hlength (Nat.lt_irrefl _)
    | cons c gap =>
      -- the first letter of the marker is cut off
      cases own with
      | nil => cases hown
      | cons d own =>
        obtain ⟨rfl, -⟩ := List.cons.inj hbehind
        exact hnone d (List.mem_append_right _ List.mem_cons_self) (hw d (List.cons.inj hown).1)
  · rw [CaseMapping.images_append, byteLength_append,
      CaseMapping.byteLength_images hblank] at hlength
    omega

theorem solid_of_toLower {c : Char} (h : c.toLower = 'w') : solid c = true := by
  have hall : ∀ n : Fin 128, (Char.ofNat n).toLower = 'w' → solid (Char.ofNat n) = true := by
    decide +kernel
  have hascii : c.toNat < 128 := ascii_of_toLower (by rw [h]; decide)
  have hc := hall ⟨c.toNat, hascii⟩
  rw [Char.ofNat_toNat] at hc
  exact hc h

/-- **A cut behind the share** loses what stands before it. -/
theorem not_handledRight_of_cut {host : List Char} (h : IsShare host path rest opening name sep)
    (hhost : host ∈ hosts) (hrest : wslRest path = some rest) {tail : List Char}
    (htail : host ++ [sep] = 'w' :: tail) (hw : 'w' ∉ tail)
    (hpattern : IsPlainPattern ('w' :: pattern)) (hnot : ∀ behind, ¬ pattern <+: tail ++ behind)
    (hfound : splitFirst ('w' :: pattern) (mapping.toLowercase path) = some (x, y))
    (hcut : normalizeWindowsPath mapping path =
      (sliceFrom path (byteLength x + byteLength ('w' :: pattern))).map fun after =>
        some (shortPrefix ++ toBackslashes (trimSlashes after))) :
    ¬ HandledRight mapping path := by
  rintro ⟨result, hresult, -, -, hkeeps⟩
  obtain ⟨kept, rfl, hsplit, -⟩ := hkeeps rest hrest
  rw [hcut] at hresult
  obtain ⟨after, hslice, heq⟩ := Option.map_eq_some_iff.1 hresult
  obtain rfl := List.append_cancel_left (Option.some.inj heq)
  rw [splitRemainder_toBackslashes, splitRemainder_trimSlashes] at hsplit
  have hsolid : after.countP solid = rest.countP solid := by
    rw [← solid_splitRemainder after, ← solid_splitRemainder rest, hsplit]
  -- where the marker is in what follows the share
  have hlower := splitFirst_eq_some hfound
  rw [h.toLowercase_eq hhost, htail, List.append_assoc x] at hlower
  obtain ⟨x', rfl, hbehind⟩ := exists_behind h.isOpening.notMem hw (hnot _) hlower
  obtain ⟨front, own, back, rfl, hown, hfront⟩ :=
    CaseMapping.exists_of_images_eq hpattern (List.cons_ne_nil _ _) hbehind
  have hstart := h.byteLength_start hhost
  rw [htail] at hstart
  rw [byteLength_append, hstart, Nat.add_assoc, h.eq_start_append] at hslice
  obtain ⟨cutOff, hcutOff, hlength⟩ := exists_of_sliceFrom_append hslice
  have hpos : 0 < byteLength ('w' :: pattern) := Nat.pos_of_ne_zero fun hzero =>
    List.cons_ne_nil _ _ (byteLength_eq_zero hzero)
  have hlost := solid_of_cut hcutOff hown (fun c hc => solid_of_toLower hc)
    (by rw [hfront, hlength]; omega)
  rw [hcutOff, List.countP_append] at hsolid
  omega

theorem exists_splitFirst (mapping : CaseMapping) {marker : List Char}
    (hmarker : marker ∈ localhostMarkers) (hnames : Names marker path) :
    ∃ x y, splitFirst marker (mapping.toLowercase path) = some (x, y) := by
  obtain ⟨hpattern, hne⟩ := isPlainPattern_marker hmarker
  rw [← infix_toLowercase_iff hpattern hne mapping, ← not_not (a := _ <:+: _),
    ← splitFirst_eq_none_iff] at hnames
  obtain ⟨⟨x, y⟩, hxy⟩ := Option.ne_none_iff_exists'.1 hnames
  exact ⟨x, y, hxy⟩

theorem exists_found (mapping : CaseMapping)
    (h : ∃ marker ∈ localhostMarkers, Names marker path) :
    ∃ marker x y, marker ∈ localhostMarkers ∧ (marker = "wsl.localhost\\".toList ∨
        marker = "wsl.localhost/".toList ∧ ¬ Names "wsl.localhost\\".toList path) ∧
      splitFirst marker (mapping.toLowercase path) = some (x, y) := by
  by_cases hfirst : Names "wsl.localhost\\".toList path
  · obtain ⟨x, y, hxy⟩ := exists_splitFirst mapping (by decide) hfirst
    exact ⟨_, x, y, by decide, .inl rfl, hxy⟩
  · obtain ⟨marker, hmarker, hnames⟩ := h
    rw [localhostMarkers, List.mem_cons, List.mem_singleton] at hmarker
    rcases hmarker with rfl | rfl
    · exact absurd hnames hfirst
    · obtain ⟨x, y, hxy⟩ := exists_splitFirst mapping (by decide) hnames
      exact ⟨_, x, y, by decide, .inr ⟨rfl, hfirst⟩, hxy⟩

theorem HandledRight.isSome_of_found (h : HandledRight mapping path)
    (hshort : ¬ shortPrefix <+: path.map Char.toLower)
    (hnames : ∃ marker ∈ localhostMarkers, Names marker path) :
    (wslRest path).isSome = true := by
  obtain ⟨result, hresult, hrecognised, -⟩ := h
  obtain ⟨marker, x, y, -, hfirst, hfound⟩ := exists_found mapping hnames
  rw [normalizeWindowsPath_of_found hshort hfound hfirst] at hresult
  obtain ⟨after, -, rfl⟩ := Option.map_eq_some_iff.1 hresult
  exact hrecognised.1 rfl

theorem not_handledRight_short (h : IsShare "wsl$".toList path rest opening name sep)
    (hrest : wslRest path = some rest) (hshort : ¬ shortPrefix <+: path.map Char.toLower) :
    ¬ HandledRight mapping path := by
  intro hright
  by_cases hnames : ∃ marker ∈ localhostMarkers, Names marker path
  · obtain ⟨marker, x, y, hmarker, hfirst, hfound⟩ := exists_found mapping hnames
    have hcut := normalizeWindowsPath_of_found hshort hfound hfirst
    have htail : "wsl$".toList ++ [sep] = 'w' :: ("sl$".toList ++ [sep]) := rfl
    have hw : 'w' ∉ "sl$".toList ++ [sep] := by
      rcases eq_of_isSlash h.slash with rfl | rfl <;> decide
    obtain ⟨pattern, rfl, hnot⟩ : ∃ pattern, marker = 'w' :: 's' :: 'l' :: '.' :: pattern ∧
        ∀ behind, ¬ 's' :: 'l' :: '.' :: pattern <+: "sl$".toList ++ [sep] ++ behind := by
      have hdiffers : ∀ pattern behind : List Char,
          ¬ 's' :: 'l' :: '.' :: pattern <+: "sl$".toList ++ [sep] ++ behind := by
        rintro pattern behind ⟨t, ht⟩
        exact absurd (List.cons.inj (List.cons.inj (List.cons.inj ht).2).2).1 (by decide)
      rw [localhostMarkers, List.mem_cons, List.mem_singleton] at hmarker
      rcases hmarker with rfl | rfl
      · exact ⟨_, rfl, hdiffers _⟩
      · exact ⟨_, rfl, hdiffers _⟩
    exact not_handledRight_of_cut h (by decide) hrest htail hw (isPlainPattern_marker hmarker).1
      hnot hfound hcut hright
  · obtain ⟨result, hresult, hrecognised, -⟩ := hright
    rw [normalizeWindowsPath_of_plain hshort fun marker hmarker hname =>
      hnames ⟨marker, hmarker, hname⟩] at hresult
    cases hresult
    rw [hrest] at hrecognised
    exact absurd (hrecognised.2 rfl) Bool.false_ne_true

theorem not_handledRight_localhost (h : IsShare "wsl.localhost".toList path rest opening name '/')
    (hrest : wslRest path = some rest) (hshort : ¬ shortPrefix <+: path.map Char.toLower)
    (hnames : Names "wsl.localhost\\".toList rest) : ¬ HandledRight mapping path := by
  have hpath : Names "wsl.localhost\\".toList path := by
    rw [h.eq_start_append, Names, List.map_append]
    exact hnames.trans (List.suffix_append _ _).isInfix
  have hmarker : "wsl.localhost\\".toList = 'w' :: "sl.localhost\\".toList := by decide
  have htail : "wsl.localhost".toList ++ ['/'] = 'w' :: "sl.localhost/".toList := by decide
  have hmem : "wsl.localhost\\".toList ∈ localhostMarkers := by decide
  obtain ⟨x, y, hfound⟩ := exists_splitFirst mapping hmem hpath
  have hcut := normalizeWindowsPath_of_found hshort hfound (.inl rfl)
  have hplain := (isPlainPattern_marker hmem).1
  rw [hmarker] at hfound hcut hplain
  refine not_handledRight_of_cut h (by decide) hrest htail (by decide) hplain ?_ hfound hcut
  rintro behind ⟨t, ht⟩
  exact absurd (List.append_inj ht (by decide)).1 (by decide)

theorem exists_of_wslRest (h : wslRest path = some rest) :
    ∃ host ∈ hosts, ∃ opening ∈ openings, ∃ sep, isSlash sep = true ∧
      stripSpelled (opening ++ host) path = some (sep :: rest) := by
  obtain ⟨start, hstart, hstrip⟩ := List.exists_of_findSome?_eq_some h
  exact exists_of_mem_wslPrefixes hstart hstrip

/-- **Which paths are handled right**, for every case mapping. -/
theorem handledRight_iff (mapping : CaseMapping) (path : List Char) :
    HandledRight mapping path ↔ NotMisled path := by
  constructor
  · intro hright
    by_contra hmisled
    have hshort : ¬ shortPrefix <+: path.map Char.toLower := fun h => hmisled (.inr (.inl h))
    -- is the path taken for a share?
    cases hrest : wslRest path with
    | none =>
      have hnames : ∃ marker ∈ localhostMarkers, Names marker path := by
        by_contra hnone
        exact hmisled (.inl ⟨hrest, fun marker hmarker hname => hnone ⟨marker, hmarker, hname⟩⟩)
      have hsome := hright.isSome_of_found hshort hnames
      rw [hrest] at hsome
      exact Bool.false_ne_true hsome
    | some rest =>
      obtain ⟨host, hhost, opening, hopening, sep, hsep, hshare⟩ := exists_of_wslRest hrest
      obtain ⟨start, name, h⟩ := exists_isShare hopening hhost hshare hsep
      rcases mem_hosts hhost with rfl | rfl
      · exact not_handledRight_short h hrest hshort hright
      · rcases eq_of_isSlash hsep with rfl | rfl
        · exact hmisled (.inr (.inr ⟨opening, hopening, _, rest, hshare, .inl rfl⟩))
        · by_cases hnames : Names "wsl.localhost\\".toList rest
          · exact not_handledRight_localhost h hrest hshort hnames hright
          · exact hmisled (.inr (.inr ⟨opening, hopening, _, rest, hshare, .inr ⟨rfl, hnames⟩⟩))
  · by_cases hshort : shortPrefix <+: path.map Char.toLower
    · exact fun _ => handledRight_short hshort
    rintro (⟨hrest, hnames⟩ | h | ⟨opening, hopening, sep, rest, hshare, hsep⟩)
    · refine ⟨none, normalizeWindowsPath_of_plain hshort hnames, ?_, ?_, ?_⟩
      · rw [hrest]
      · exact fun normal hnormal => nomatch hnormal
      · intro rest h
        rw [hrest] at h
        cases h
    · exact absurd h hshort
    · have hslash : isSlash sep = true := by
        rcases hsep with rfl | ⟨rfl, -⟩ <;> rfl
      have hhost : "wsl.localhost".toList ∈ hosts := by decide
      obtain ⟨start, name, h⟩ := exists_isShare hopening hhost hshare hslash
      exact handledRight_localhost h (wslRest_of_share hhost hopening hshare hslash) hshort hsep

end

/-- A local path that has the name of the share in it is taken for one into WSL; and behind a
character that is longer in the copy, the slice starts inside of a character. -/
theorem localPath_misled :
    (wslRest "C:\\backup\\wsl.localhost\\notes.txt".toList = none ∧
      normalizeWindowsPath CaseMapping.dotted "C:\\backup\\wsl.localhost\\notes.txt".toList =
        some (some "\\\\wsl$\\notes.txt".toList) ∧
      ¬ HandledRight CaseMapping.dotted "C:\\backup\\wsl.localhost\\notes.txt".toList) ∧
    normalizeWindowsPath CaseMapping.dotted "C:\\\u0130\\wsl.localhost\\\u00e9".toList = none ∧
      ¬ HandledRight CaseMapping.dotted "C:\\\u0130\\wsl.localhost\\\u00e9".toList := by
  have hlocal : wslRest "C:\\backup\\wsl.localhost\\notes.txt".toList = none := by decide
  have htaken : normalizeWindowsPath CaseMapping.dotted
      "C:\\backup\\wsl.localhost\\notes.txt".toList =
        some (some "\\\\wsl$\\notes.txt".toList) := by
    decide +kernel
  have hpanics : normalizeWindowsPath CaseMapping.dotted
      "C:\\\u0130\\wsl.localhost\\\u00e9".toList = none := by
    decide +kernel
  refine ⟨⟨hlocal, htaken, ?_⟩, hpanics, ?_⟩
  · rintro ⟨result, hresult, hrecognised, -⟩
    rw [htaken] at hresult
    obtain rfl := Option.some.inj hresult
    rw [hlocal] at hrecognised
    exact Bool.false_ne_true (hrecognised.1 rfl)
  · rintro ⟨result, hresult, -⟩
    rw [hpanics] at hresult
    cases hresult

end AiOpenRouter
