/-
Templates: texts with placeholders that are filled in one after another.

A placeholder is a pattern of which no other one begins inside. `pieces` cuts a text at its
placeholders, and filling them at once is `textOf` the values. Replacing one pattern after another
can go wrong where a value, alone or with what stands around it, makes a new placeholder.

* `isOwn_pieces`: every occurrence of a pattern is a hole of the pieces;
* `replaceFrom_textOf`: replacing a pattern fills its holes, when nothing else is one;
* `replaceAll_iff`: so replacing one pattern after another fills the holes at once, and replaces
  nothing else, exactly when no occurrence but a hole comes up on the way.
-/
import Mathlib.Data.List.Basic
import Mathlib.Data.List.Induction
import Mathlib.Data.Nat.Notation
import Mathlib.Logic.Function.Basic

namespace TextTemplates

variable {α ι : Type*} [DecidableEq α] [DecidableEq ι]

/-! ### Replacing a pattern -/

def replaceFrom (pattern value : List α) : ℕ → List α → List α
  | _, [] => []
  | skip + 1, _ :: rest => replaceFrom pattern value skip rest
  | 0, c :: rest =>
    if pattern.isPrefixOf (c :: rest) then
      value ++ replaceFrom pattern value (pattern.length - 1) rest
    else c :: replaceFrom pattern value 0 rest

theorem replaceFrom_append (pattern value s t : List α) :
    replaceFrom pattern value s.length (s ++ t) = replaceFrom pattern value 0 t := by
  induction s with
  | nil => rfl
  | cons c s ih =>
    rw [List.length_cons, List.cons_append, replaceFrom]
    exact ih

variable {pattern : List α}

theorem replaceFrom_pattern (hne : pattern ≠ []) (value t : List α) :
    replaceFrom pattern value 0 (pattern ++ t) = value ++ replaceFrom pattern value 0 t := by
  obtain ⟨c, rest, rfl⟩ := List.exists_cons_of_ne_nil hne
  have hprefix : (c :: rest).isPrefixOf (c :: (rest ++ t)) = true :=
    List.isPrefixOf_iff_prefix.2 ⟨t, rfl⟩
  rw [List.cons_append, replaceFrom, if_pos hprefix]
  exact congrArg (value ++ ·) (replaceFrom_append ..)

theorem replaceFrom_of_none {s t : List α} (value : List α)
    (hnone : ∀ k < s.length, ¬ pattern <+: (s ++ t).drop k) :
    replaceFrom pattern value 0 (s ++ t) = s ++ replaceFrom pattern value 0 t := by
  induction s with
  | nil => rfl
  | cons c s ih =>
    have hstart : ¬ pattern.isPrefixOf (c :: (s ++ t)) = true := fun hprefix =>
      hnone 0 (Nat.succ_pos _) (List.isPrefixOf_iff_prefix.1 hprefix)
    rw [List.cons_append, replaceFrom, if_neg hstart,
      ih fun k hk => hnone (k + 1) (Nat.succ_lt_succ hk), List.cons_append]

/-! ### Pieces -/

inductive Piece (α ι : Type*) where
  | literal (c : α)
  | hole (name : ι)

namespace Piece

/-- A piece with something in place of the holes. -/
def text (shown : ι → List α) : Piece α ι → List α
  | .literal c => [c]
  | .hole name => shown name

end Piece

def textOf (shown : ι → List α) (pieces : List (Piece α ι)) : List α :=
  pieces.flatMap (Piece.text shown)

omit [DecidableEq α] [DecidableEq ι] in
theorem textOf_cons (shown : ι → List α) (piece : Piece α ι) (pieces : List (Piece α ι)) :
    textOf shown (piece :: pieces) = piece.text shown ++ textOf shown pieces := List.flatMap_cons

def IsOwn (shown : ι → List α) (pieces : List (Piece α ι)) (name : ι) (pattern text : List α) :
    Prop :=
  ∀ before after, text = before ++ (pattern ++ after) →
    ∃ front back, pieces = front ++ Piece.hole name :: back ∧ textOf shown front = before

omit [DecidableEq α] [DecidableEq ι] in
theorem IsOwn.tail {shown : ι → List α} {piece : Piece α ι} {pieces : List (Piece α ι)} {name : ι}
    (hne : piece = .hole name → shown name ≠ [])
    (h : IsOwn shown (piece :: pieces) name pattern (textOf shown (piece :: pieces))) :
    IsOwn shown pieces name pattern (textOf shown pieces) := by
  intro before after htext
  have hwhole : textOf shown (piece :: pieces) =
      (piece.text shown ++ before) ++ (pattern ++ after) := by
    rw [textOf_cons, htext, List.append_assoc]
  obtain ⟨front, back, hpieces, hfront⟩ := h _ after hwhole
  cases front with
  | nil =>
    -- the first piece itself: then its text is not empty
    obtain ⟨rfl, -⟩ := List.cons.inj hpieces
    exact absurd (List.append_eq_nil_iff.1 hfront.symm).1 (hne rfl)
  | cons first front =>
    obtain ⟨rfl, hback⟩ := List.cons.inj hpieces
    rw [textOf_cons] at hfront
    exact ⟨front, back, hback, List.append_cancel_left hfront⟩

omit [DecidableEq α] [DecidableEq ι] in
theorem IsOwn.not_prefix_drop {shown : ι → List α} {piece : Piece α ι} {pieces : List (Piece α ι)}
    {name : ι} (hother : piece ≠ .hole name)
    (h : IsOwn shown (piece :: pieces) name pattern (textOf shown (piece :: pieces))) {k : ℕ}
    (hk : k < (piece.text shown).length) :
    ¬ pattern <+: (piece.text shown ++ textOf shown pieces).drop k := by
  rintro ⟨after, hafter⟩
  have hlength : k ≤ (piece.text shown ++ textOf shown pieces).length := by
    rw [List.length_append]
    omega
  obtain ⟨front, back, hpieces, hfront⟩ := h _ after (by
    rw [hafter, textOf_cons, List.take_append_drop k])
  cases front with
  | nil => exact hother (List.cons.inj hpieces).1
  | cons first front =>
    obtain ⟨rfl, -⟩ := List.cons.inj hpieces
    have hlengths := congrArg List.length hfront
    rw [textOf_cons, List.length_append, List.length_take_of_le hlength] at hlengths
    omega

/-- **Replacing a pattern fills its holes**, when nothing else is an occurrence of it. -/
theorem replaceFrom_textOf {shown : ι → List α} {pieces : List (Piece α ι)} {name : ι}
    (hne : shown name ≠ []) (hown : IsOwn shown pieces name (shown name) (textOf shown pieces))
    (value : List α) :
    replaceFrom (shown name) value 0 (textOf shown pieces) =
      textOf (Function.update shown name value) pieces := by
  induction pieces with
  | nil => rfl
  | cons piece pieces ih =>
    have htail := ih (hown.tail fun _ => hne)
    rw [textOf_cons, textOf_cons, ← htail]
    by_cases hpiece : piece = .hole name
    · subst hpiece
      rw [Piece.text, Piece.text, Function.update_self]
      exact replaceFrom_pattern hne value _
    · have hsame : piece.text (Function.update shown name value) = piece.text shown := by
        cases piece with
        | literal c => rfl
        | hole other => exact Function.update_of_ne (fun heq => hpiece (by rw [heq])) ..
      rw [hsame]
      exact replaceFrom_of_none value fun k hk => hown.not_prefix_drop hpiece hk

/-! ### Cutting a text at its placeholders -/

def pieces (placeholder : ι → List α) (names : List ι) : ℕ → List α → List (Piece α ι)
  | _, [] => []
  | skip + 1, _ :: rest => pieces placeholder names skip rest
  | 0, c :: rest =>
    match names.find? fun name => (placeholder name).isPrefixOf (c :: rest) with
    | some name => .hole name :: pieces placeholder names ((placeholder name).length - 1) rest
    | none => .literal c :: pieces placeholder names 0 rest

omit [DecidableEq ι] in
theorem pieces_append (placeholder : ι → List α) (names : List ι) (s t : List α) :
    pieces placeholder names s.length (s ++ t) = pieces placeholder names 0 t := by
  induction s with
  | nil => rfl
  | cons c s ih =>
    rw [List.length_cons, List.cons_append, pieces]
    exact ih

omit [DecidableEq ι] in
theorem pieces_literal {placeholder : ι → List α} {names : List ι} {c : α} {rest : List α}
    (hnone : ∀ name ∈ names, ¬ placeholder name <+: c :: rest) :
    pieces placeholder names 0 (c :: rest) = .literal c :: pieces placeholder names 0 rest := by
  have hfind : names.find? (fun name => (placeholder name).isPrefixOf (c :: rest)) = none := by
    rw [List.find?_eq_none]
    exact fun name hname hprefix => hnone name hname (List.isPrefixOf_iff_prefix.1 hprefix)
  rw [pieces, hfind]

omit [DecidableEq ι] in
theorem exists_pieces_hole {placeholder : ι → List α} {names : List ι}
    (hne : ∀ name ∈ names, placeholder name ≠ []) {s : List α}
    (hsome : ∃ name ∈ names, placeholder name <+: s) :
    ∃ name ∈ names, ∃ rest, s = placeholder name ++ rest ∧
      pieces placeholder names 0 s = .hole name :: pieces placeholder names 0 rest := by
  obtain ⟨some_name, hmem, hprefix⟩ := hsome
  cases s with
  | nil => exact absurd (List.prefix_nil.1 hprefix) (hne some_name hmem)
  | cons c s =>
    cases hfind : names.find? fun name => (placeholder name).isPrefixOf (c :: s) with
    | none =>
      have hnot := List.find?_eq_none.1 hfind some_name hmem
      exact absurd (List.isPrefixOf_iff_prefix.2 hprefix) hnot
    | some name =>
      have hname := List.mem_of_find?_eq_some hfind
      have hfound :=
        @List.find?_some _ (fun name => (placeholder name).isPrefixOf (c :: s)) _ _ hfind
      obtain ⟨rest, hrest⟩ := List.isPrefixOf_iff_prefix.1 hfound
      obtain ⟨d, inner, hinner⟩ := List.exists_cons_of_ne_nil (hne name hname)
      refine ⟨name, hname, rest, hrest.symm, ?_⟩
      have hs : s = inner ++ rest := by
        rw [hinner, List.cons_append] at hrest
        exact (List.cons.inj hrest).2.symm
      rw [pieces, hfind]
      dsimp only
      rw [hinner, hs]
      exact congrArg (Piece.hole name :: ·) (pieces_append ..)

omit [DecidableEq ι] in
/-- **Induction along the pieces of a text.** -/
theorem pieces_induction {placeholder : ι → List α} {names : List ι}
    (hne : ∀ name ∈ names, placeholder name ≠ []) (P : List α → List (Piece α ι) → Prop)
    (nil : P [] [])
    (literal : ∀ c rest, (∀ name ∈ names, ¬ placeholder name <+: c :: rest) →
      P rest (pieces placeholder names 0 rest) →
        P (c :: rest) (.literal c :: pieces placeholder names 0 rest))
    (hole : ∀ name ∈ names, ∀ rest, P rest (pieces placeholder names 0 rest) →
      P (placeholder name ++ rest) (.hole name :: pieces placeholder names 0 rest))
    (s : List α) : P s (pieces placeholder names 0 s) := by
  induction hlength : s.length using Nat.strongRecOn generalizing s with
  | _ n ih =>
    by_cases hsome : ∃ name ∈ names, placeholder name <+: s
    · obtain ⟨name, hname, rest, rfl, hpieces⟩ := exists_pieces_hole hne hsome
      have hpos := List.length_pos_iff.2 (hne name hname)
      rw [List.length_append] at hlength
      rw [hpieces]
      exact hole name hname rest (ih rest.length (by omega) rest rfl)
    · cases s with
      | nil => exact nil
      | cons c rest =>
        have hnone : ∀ name ∈ names, ¬ placeholder name <+: c :: rest := fun name hname hprefix =>
          hsome ⟨name, hname, hprefix⟩
        rw [List.length_cons] at hlength
        rw [pieces_literal hnone]
        exact literal c rest hnone (ih rest.length (by omega) rest rfl)

omit [DecidableEq ι] in
theorem textOf_pieces {placeholder : ι → List α} {names : List ι}
    (hne : ∀ name ∈ names, placeholder name ≠ []) (s : List α) :
    textOf placeholder (pieces placeholder names 0 s) = s := by
  refine pieces_induction hne (fun s pieces => textOf placeholder pieces = s) rfl
    (fun c rest _ ih => ?_) (fun name _ rest ih => ?_) s
  · rw [textOf_cons, ih]
    rfl
  · rw [textOf_cons, ih]
    rfl

omit [DecidableEq ι] in
theorem mem_of_hole_mem_pieces {placeholder : ι → List α} {names : List ι}
    (hne : ∀ name ∈ names, placeholder name ≠ []) (s : List α) :
    ∀ name, Piece.hole name ∈ pieces placeholder names 0 s → name ∈ names := by
  refine pieces_induction hne (fun _ pieces => ∀ name, Piece.hole name ∈ pieces → name ∈ names) ?_
    (fun c rest _ ih => ?_) (fun hole hhole rest ih => ?_) s
  · exact fun name hname => absurd hname List.not_mem_nil
  · intro name hname
    rcases List.mem_cons.1 hname with heq | hname
    · cases heq
    · exact ih name hname
  · intro name hname
    rcases List.mem_cons.1 hname with heq | hname
    · cases heq
      exact hhole
    · exact ih name hname

def Separate (placeholder : ι → List α) (names : List ι) : Prop :=
  ∀ outer ∈ names, ∀ inner ∈ names, ∀ k < (placeholder outer).length, k ≠ 0 ∨ inner ≠ outer →
    ¬ placeholder inner <+: (placeholder outer).drop k ∧
      ¬ (placeholder outer).drop k <+: placeholder inner

omit [DecidableEq ι] in
/-- **Every occurrence of a placeholder is a hole** of the pieces. -/
theorem isOwn_pieces {placeholder : ι → List α} {names : List ι}
    (hne : ∀ name ∈ names, placeholder name ≠ []) (hseparate : Separate placeholder names)
    {name : ι} (hname : name ∈ names) (s : List α) :
    IsOwn placeholder (pieces placeholder names 0 s) name (placeholder name) s := by
  refine pieces_induction hne
    (fun s pieces => IsOwn placeholder pieces name (placeholder name) s) ?_
    (fun c rest hnone ih => ?_) (fun outer houter rest ih => ?_) s
  · intro before after hnil
    have happend := List.append_eq_nil_iff.1 hnil.symm
    exact absurd (List.append_eq_nil_iff.1 happend.2).1 (hne name hname)
  · intro before after htext
    cases before with
    | nil => exact absurd ⟨after, htext.symm⟩ (hnone name hname)
    | cons d before =>
      obtain ⟨rfl, hrest⟩ := List.cons.inj htext
      obtain ⟨front, back, hpieces, hfront⟩ := ih before after hrest
      refine ⟨.literal c :: front, back, by rw [hpieces]; rfl, ?_⟩
      rw [textOf_cons, hfront]
      rfl
  · intro before after htext
    rcases List.append_eq_append_iff.1 htext with ⟨gap, hbefore, hrest⟩ | ⟨gap, houterText, hinside⟩
    · obtain ⟨front, back, hpieces, hfront⟩ := ih gap after hrest
      refine ⟨.hole outer :: front, back, by rw [hpieces]; rfl, ?_⟩
      rw [textOf_cons, hfront, hbefore]
      rfl
    · by_cases hgap : gap = []
      · subst hgap
        obtain ⟨front, back, hpieces, hfront⟩ := ih [] after hinside.symm
        refine ⟨.hole outer :: front, back, by rw [hpieces]; rfl, ?_⟩
        rw [textOf_cons, hfront, Piece.text, houterText, List.append_nil, List.append_nil]
      · have hdrop : (placeholder outer).drop before.length = gap := by
          rw [houterText, List.drop_left]
        have hlength : before.length < (placeholder outer).length := by
          have hpos := List.length_pos_iff.2 hgap
          rw [houterText, List.length_append]
          omega
        -- both stand at the start of the same text
        have hcomparable : placeholder name <+: gap ∨ gap <+: placeholder name :=
          List.prefix_or_prefix_of_prefix ⟨after, rfl⟩ ⟨rest, hinside.symm⟩
        by_cases hsame : before = [] ∧ name = outer
        · obtain ⟨rfl, rfl⟩ := hsame
          exact ⟨[], pieces placeholder names 0 rest, rfl, rfl⟩
        · have hother : before.length ≠ 0 ∨ name ≠ outer := by
            rcases not_and_or.1 hsame with hbefore | hname
            · exact .inl fun hzero => hbefore (List.eq_nil_of_length_eq_zero hzero)
            · exact .inr hname
          obtain ⟨hnot, hnot'⟩ := hseparate outer houter name hname _ hlength hother
          rw [hdrop] at hnot hnot'
          exact (hcomparable.elim hnot hnot').elim

/-! ### Replacing one after another -/

def filled (placeholder value : ι → List α) (done : List ι) (name : ι) : List α :=
  if name ∈ done then value name else placeholder name

def replaceAll (placeholder value : ι → List α) (names : List ι) (s : List α) : List α :=
  names.foldl (fun text name => replaceFrom (placeholder name) (value name) 0 text) s

variable {placeholder value : ι → List α} {names : List ι}

omit [DecidableEq α] in
theorem update_filled (done : List ι) (name : ι) :
    Function.update (filled placeholder value done) name (value name) =
      filled placeholder value (done ++ [name]) := by
  funext other
  rw [filled]
  by_cases hother : other = name
  · subst hother
    rw [Function.update_self, if_pos (by simp)]
  · have hmem : other ∈ done ++ [name] ↔ other ∈ done := by simp [hother]
    rw [Function.update_of_ne hother, filled]
    simp only [hmem]

def EachOwn (placeholder value : ι → List α) (names : List ι) (ps : List (Piece α ι))
    (reached : List ι → List α) : Prop :=
  ∀ done name rest, names = done ++ name :: rest →
    IsOwn (filled placeholder value done) ps name (placeholder name) (reached done)

theorem replaceAll_of_own (value : ι → List α) (hne : ∀ name ∈ names, placeholder name ≠ [])
    (hnodup : names.Nodup) (s : List α)
    (hown : ∀ done name rest, names = done ++ name :: rest →
      replaceAll placeholder value done s =
        textOf (filled placeholder value done) (pieces placeholder names 0 s) →
      IsOwn (filled placeholder value done) (pieces placeholder names 0 s) name (placeholder name)
        (textOf (filled placeholder value done) (pieces placeholder names 0 s)))
    (done rest : List ι) (hnames : names = done ++ rest) :
    replaceAll placeholder value done s =
      textOf (filled placeholder value done) (pieces placeholder names 0 s) := by
  induction done using List.reverseRecOn generalizing rest with
  | nil =>
    have hfilled : filled placeholder value [] = placeholder := by
      funext name
      exact if_neg List.not_mem_nil
    rw [hfilled, textOf_pieces hne]
    rfl
  | append_singleton done name ih =>
    rw [List.append_assoc, List.singleton_append] at hnames
    have hprevious := ih (name :: rest) hnames
    have hnot : name ∉ done := by
      rw [hnames, List.nodup_append] at hnodup
      exact fun hmem => hnodup.2.2 name hmem name List.mem_cons_self rfl
    have hmem : name ∈ names := by simp [hnames]
    have hshown : filled placeholder value done name = placeholder name := if_neg hnot
    have hreplace := replaceFrom_textOf (hshown ▸ hne name hmem)
      (hshown.symm ▸ hown done name rest hnames hprevious) (value name)
    have hlast : replaceAll placeholder value (done ++ [name]) s =
        replaceFrom (placeholder name) (value name) 0 (replaceAll placeholder value done s) := by
      rw [replaceAll, List.foldl_append]
      rfl
    rw [hlast, hprevious, ← update_filled, ← hreplace, hshown]

omit [DecidableEq α] in
theorem textOf_filled {ps : List (Piece α ι)}
    (hnames : ∀ name, Piece.hole name ∈ ps → name ∈ names) :
    textOf (filled placeholder value names) ps = textOf value ps := by
  refine List.flatMap_congr fun piece hpiece => ?_
  cases piece with
  | literal c => rfl
  | hole name => exact if_pos (hnames name hpiece)

/-- **Replacing one placeholder after another** fills the holes of a text at once and replaces
nothing else, exactly when nothing but a hole comes up on the way. -/
theorem replaceAll_iff (hne : ∀ name ∈ names, placeholder name ≠ []) (hnodup : names.Nodup)
    (s : List α) :
    (replaceAll placeholder value names s = textOf value (pieces placeholder names 0 s) ∧
        EachOwn placeholder value names (pieces placeholder names 0 s)
          fun done => replaceAll placeholder value done s) ↔
      EachOwn placeholder value names (pieces placeholder names 0 s)
        fun done => textOf (filled placeholder value done) (pieces placeholder names 0 s) := by
  constructor
  · rintro ⟨-, hown⟩ done name rest hnames
    have hreached := replaceAll_of_own value hne hnodup s
      (fun done name rest hnames hreached => hreached ▸ hown done name rest hnames)
      done (name :: rest) hnames
    dsimp only
    rw [← hreached]
    exact hown done name rest hnames
  · intro hown
    have hreached := replaceAll_of_own value hne hnodup s
      fun done name rest hnames _ => hown done name rest hnames
    refine ⟨?_, fun done name rest hnames => ?_⟩
    · rw [hreached names [] (List.append_nil names).symm,
        textOf_filled (mem_of_hole_mem_pieces hne s)]
    · dsimp only
      rw [hreached done (name :: rest) hnames]
      exact hown done name rest hnames

end TextTemplates
