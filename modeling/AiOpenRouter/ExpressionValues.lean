/-
The evaluation of quota expressions as they are written.

`normalize_expression` makes calls of inline references before an expression is read. Without
backslashes nothing else is changed (`normalizeLoop_spelled`), and what spells a tree with a value
behind the normalization spelled it before (`spelled_of_normalizeLoop`).

The numbers are those of an ordered field in place of `f64` (`fieldArithmetic`).

* `expressionArithmetic`: an expression has the value of the tree that it spells, or an error where
  a reference is not numeric, a divisor is near zero or the result is not finite; a text that spells
  no tree is rejected.
-/
import AiOpenRouter.ExpressionDescent
import Mathlib.Algebra.Order.Field.Basic
import Mathlib.Algebra.Order.Ring.Rat

namespace AiOpenRouter

open Text

/-! ### Inline references -/

theorem unescape_escapeLiteral (path : List Char) : unescape (escapeLiteral path) = path := by
  induction path with
  | nil => rfl
  | cons c path ih =>
    rw [escapeLiteral, List.flatMap_cons]
    split_ifs with hc
    · show unescape ('\\' :: c :: escapeLiteral path) = _
      rw [unescape, if_pos rfl, ih]
    · show unescape (c :: escapeLiteral path) = _
      rw [unescape_plain fun h => hc (.inr h), ih]

theorem callReference_pathCallText (path : List Char) :
    CallReference (pathCallText (escapeLiteral path)) path := by
  have hcall := @CallReference.mk [] [] [] (escapeLiteral path) '\'' rfl rfl rfl
    (.inl rfl) (literalBody_escapeLiteral path)
  rw [unescape_escapeLiteral] at hcall
  exact hcall

variable {s path rest space : List Char} {c : Char} (raw : List Char)

theorem delimited_space_cons (hspace : IsSpace space) (hc : endsReference c = true) :
    Delimited (space ++ c :: s) := by
  intro d hd
  cases space with
  | nil =>
    rw [← Option.some.inj hd]
    exact hc
  | cons b space =>
    rw [IsSpace, List.all_cons, Bool.and_eq_true] at hspace
    rw [← Option.some.inj hd, endsReference, hspace.1, Bool.true_or]

theorem delimited_space (hspace : IsSpace space) : Delimited space := by
  intro d hd
  cases space with
  | nil => cases hd
  | cons b space =>
    rw [IsSpace, List.all_cons, Bool.and_eq_true] at hspace
    rw [← Option.some.inj hd, endsReference, hspace.1, Bool.true_or]

theorem ExprOperator.endsReference_char (operator : ExprOperator) :
    endsReference operator.char = true := by
  cases operator <;> decide

/-- **Inline references are made calls**, and nothing else is changed. -/
theorem normalizeLoop_spelled {level : ExprLevel} {tree : ExprTree}
    (h : Spelled InlineReference level s tree) (hslash : '\\' ∉ s) :
    ∃ s', Spelled CallReference level s' tree ∧
      ∀ rest, Delimited rest → normalizeLoop (s ++ rest) none = s' ++ normalizeLoop rest none := by
  -- along the spelling: what follows the text must not go on with a reference
  induction h with
  | @number space digits hspace hdigits =>
    refine ⟨_, .number hspace hdigits, fun rest _ => normalizeLoop_append fun hmem => ?_⟩
    rcases List.mem_append.1 hmem with hmem | hmem
    · exact hspace.not_mem (by decide) hmem
    · exact hdigits.not_mem (by decide) hmem
  | @reference space _ _ hspace hs =>
    cases hs with
    | @mk token htoken =>
      -- a path without backslashes is its own literal
      have hplain : ∀ c ∈ '$' :: token, c ≠ '\\' := fun c hc hc' =>
        hslash (List.mem_append_right _ (hc' ▸ hc))
      refine ⟨_, .reference hspace (callReference_pathCallText ('$' :: token)),
        fun rest hrest => ?_⟩
      rw [List.append_assoc, normalizeLoop_append (hspace.not_mem (by decide)), List.cons_append,
        normalizeLoop, if_pos rfl, normalizeLoop_token ['$'] htoken hrest, List.singleton_append,
        escapeQuotes_eq_escapeLiteral hplain, List.append_assoc]
  | @parens space s space' tree hspace hspace' _ ih =>
    obtain ⟨s', hs', hloop⟩ := ih fun hmem => hslash
      (List.mem_append_right _ (List.mem_cons_of_mem _ (List.mem_append_left _ hmem)))
    refine ⟨_, .parens hspace hspace' hs', fun rest _ => ?_⟩
    have hclose : normalizeLoop (')' :: rest) none = ')' :: normalizeLoop rest none := by
      rw [normalizeLoop, if_neg (by decide)]
    have hopen : ∀ t, normalizeLoop ('(' :: t) none = '(' :: normalizeLoop t none := fun t => by
      rw [normalizeLoop, if_neg (by decide)]
    have hinput : space ++ '(' :: (s ++ (space' ++ [')'])) ++ rest =
        space ++ '(' :: (s ++ (space' ++ ')' :: rest)) := by
      simp only [List.append_assoc, List.cons_append, List.nil_append]
    rw [hinput, normalizeLoop_append (hspace.not_mem (by decide)), hopen,
      hloop _ (delimited_space_cons hspace' (by decide)),
      normalizeLoop_append (hspace'.not_mem (by decide)), hclose]
    simp only [List.append_assoc, List.cons_append, List.nil_append]
  | ofPrimary _ ih =>
    obtain ⟨s', hs', hloop⟩ := ih hslash
    exact ⟨s', .ofPrimary hs', hloop⟩
  | @positive space s tree hspace _ ih =>
    obtain ⟨s', hs', hloop⟩ := ih fun hmem =>
      hslash (List.mem_append_right _ (List.mem_cons_of_mem _ hmem))
    refine ⟨_, .positive hspace hs', fun rest hrest => ?_⟩
    rw [List.append_assoc, normalizeLoop_append (hspace.not_mem (by decide)), List.cons_append,
      normalizeLoop, if_neg (by decide), hloop rest hrest, List.append_assoc, List.cons_append]
  | @negative space s tree hspace _ ih =>
    obtain ⟨s', hs', hloop⟩ := ih fun hmem =>
      hslash (List.mem_append_right _ (List.mem_cons_of_mem _ hmem))
    refine ⟨_, .negative hspace hs', fun rest hrest => ?_⟩
    rw [List.append_assoc, normalizeLoop_append (hspace.not_mem (by decide)), List.cons_append,
      normalizeLoop, if_neg (by decide), hloop rest hrest, List.append_assoc, List.cons_append]
  | ofUnary _ ih =>
    obtain ⟨s', hs', hloop⟩ := ih hslash
    exact ⟨s', .ofUnary hs', hloop⟩
  | ofProduct _ ih =>
    obtain ⟨s', hs', hloop⟩ := ih hslash
    exact ⟨s', .ofProduct hs', hloop⟩
  | @binary s space t _ _ left right operator hlevel hoperand hspace _ _ ihleft ihright =>
    obtain ⟨s', hs', hleft⟩ := ihleft fun hmem => hslash (List.mem_append_left _ hmem)
    obtain ⟨t', ht', hright⟩ := ihright fun hmem => hslash
      (List.mem_append_right _ (List.mem_append_right _ (List.mem_cons_of_mem _ hmem)))
    refine ⟨_, .binary operator hlevel hoperand hspace hs' ht', fun rest hrest => ?_⟩
    -- an operator ends a reference, so the left operand is delimited
    have hchar : operator.char ≠ '$' := by cases operator <;> decide
    have hinput : s ++ (space ++ operator.char :: t) ++ rest =
        s ++ (space ++ operator.char :: (t ++ rest)) := by
      rw [List.append_assoc, List.append_assoc, List.cons_append]
    rw [hinput, hleft _ (delimited_space_cons hspace operator.endsReference_char),
      normalizeLoop_append (hspace.not_mem (by decide)), normalizeLoop, if_neg hchar,
      hright rest hrest]
    simp only [List.append_assoc, List.cons_append]

theorem exists_token :
    ∃ token behind, raw = token ++ behind ∧
    (∀ c ∈ token, endsReference c = false) ∧ Delimited behind := by
  refine ⟨raw.takeWhile fun c => !endsReference c, raw.dropWhile fun c => !endsReference c,
    List.takeWhile_append_dropWhile.symm, fun c hc => ?_, fun c hc => ?_⟩
  · have hnot := List.mem_takeWhile_imp hc
    rwa [Bool.not_eq_true'] at hnot
  · have hnot := List.head?_dropWhile_not (fun c => !endsReference c) raw
    rw [Option.mem_def.1 hc] at hnot
    simpa using hnot

theorem normalizeLoop_dollar :
    ∃ token behind, raw = token ++ behind ∧
    (∀ c ∈ token, endsReference c = false) ∧
      normalizeLoop ('$' :: raw) none =
        pathCallText (escapeQuotes ('$' :: token)) ++ normalizeLoop behind none := by
  obtain ⟨token, behind, rfl, htoken, hbehind⟩ := exists_token raw
  refine ⟨token, behind, rfl, htoken, ?_⟩
  rw [normalizeLoop, if_pos rfl, normalizeLoop_token ['$'] htoken hbehind, List.singleton_append]

theorem of_cons_normalizeLoop {raw : List Char} (h : c :: rest = normalizeLoop raw none)
    (hc : c ≠ 'p') : ∃ raw', raw = c :: raw' ∧ rest = normalizeLoop raw' none := by
  cases raw with
  | nil => cases h
  | cons d raw =>
    by_cases hd : d = '$'
    · obtain ⟨token, behind, -, -, hloop⟩ := normalizeLoop_dollar raw
      rw [hd, hloop] at h
      exact absurd (List.head_eq_of_cons_eq h) hc
    · rw [normalizeLoop, if_neg hd] at h
      obtain rfl := List.head_eq_of_cons_eq h
      exact ⟨raw, rfl, List.tail_eq_of_cons_eq h⟩

theorem of_append_normalizeLoop {front raw rest : List Char}
    (h : front ++ rest = normalizeLoop raw none) (hfront : 'p' ∉ front) :
    ∃ raw', raw = front ++ raw' ∧ rest = normalizeLoop raw' none := by
  induction front generalizing raw with
  | nil => exact ⟨raw, rfl, h⟩
  | cons c front ih =>
    obtain ⟨raw', rfl, htail⟩ := of_cons_normalizeLoop h fun hc => hfront (hc ▸ List.mem_cons_self)
    obtain ⟨raw'', rfl, hrest⟩ := ih htail fun hp => hfront (List.mem_cons_of_mem _ hp)
    exact ⟨raw'', rfl, hrest⟩

/-- No `$` is left in front. -/
theorem normalizeLoop_ne_dollar (rest : List Char) : normalizeLoop raw none ≠ '$' :: rest := by
  intro h
  obtain ⟨raw', rfl, -⟩ := of_cons_normalizeLoop h.symm (by decide)
  obtain ⟨token, behind, -, -, hloop⟩ := normalizeLoop_dollar raw'
  rw [hloop] at h
  exact absurd (List.head_eq_of_cons_eq h) (by decide)

theorem IsSpace.eq_nil {t : List Char} (h : IsSpace space) (hc : isWhitespace c = false)
    (heq : space ++ s = c :: t) : space = [] := by
  cases space with
  | nil => rfl
  | cons b space =>
    rw [List.head_eq_of_cons_eq heq] at h
    exact absurd List.mem_cons_self (h.not_mem hc)

theorem CallReference.exists_parts (h : CallReference s path) :
    ∃ space space' space'' body quote, IsSpace space ∧ IsSpace space' ∧ IsSpace space'' ∧
      (quote = '\'' ∨ quote = '"') ∧ LiteralBody quote body ∧ path = unescape body ∧
        ∀ rest, s ++ rest = "path".toList ++ (space ++ '(' :: (space' ++ quote :: (body ++ quote ::
          (space'' ++ ')' :: rest)))) := by
  cases h with
  | @mk space space' space'' body quote hspace hspace' hspace'' hquote hbody =>
    refine ⟨space, space', space'', body, quote, hspace, hspace', hspace'', hquote, hbody, rfl,
      fun rest => ?_⟩
    simp only [List.append_assoc, List.cons_append, List.nil_append]

theorem CallReference.eq_of_append {path' rest' : List Char} (hs : CallReference s path)
    (h : s ++ rest = pathCallText (escapeLiteral path') ++ rest') :
    path = path' ∧ rest = rest' := by
  obtain ⟨space₁, space₂, space₃, body, quote, hspace₁, hspace₂, hspace₃, -, hbody, rfl, hparts⟩ :=
    hs.exists_parts
  have hcall : pathCallText (escapeLiteral path') ++ rest' = "path".toList ++
      ('(' :: '\'' :: (escapeLiteral path' ++ '\'' :: ')' :: rest')) := by
    show (['p', 'a', 't', 'h', '(', '\''] ++ (escapeLiteral path' ++ ['\'', ')'])) ++ rest' = _
    simp only [List.append_assoc, List.cons_append, List.nil_append]
    rfl
  have hopen := List.append_cancel_left ((hparts rest).symm.trans (h.trans hcall))
  obtain rfl := hspace₁.eq_nil (by decide) hopen
  have hliteral := List.tail_eq_of_cons_eq hopen
  obtain rfl := hspace₂.eq_nil (by decide) hliteral
  obtain rfl : quote = '\'' := List.head_eq_of_cons_eq hliteral
  have hinside := List.tail_eq_of_cons_eq hliteral
  have hclose := hbody.unique (literalBody_escapeLiteral _) hinside
  rw [hclose] at hinside
  have hbody' : body = escapeLiteral path' := List.append_cancel_right hinside
  obtain rfl := hspace₃.eq_nil (by decide) hclose
  exact ⟨by rw [hbody', unescape_escapeLiteral], List.tail_eq_of_cons_eq hclose⟩

theorem not_dollar_of_normalizeLoop {raw : List Char} (hs : CallReference s path) (hc : c ≠ '$')
    (hslash : '\\' ∉ c :: raw) (h : s ++ rest = normalizeLoop (c :: raw) none) (tail : List Char) :
    path ≠ '$' :: tail := by
  intro hpath
  obtain ⟨space₁, space₂, space₃, body, quote, hspace₁, hspace₂, -, hquote, hbody, rfl, hparts⟩ :=
    hs.exists_parts
  rw [hparts, normalizeLoop, if_neg hc] at h
  have hquoteChar : quote ≠ 'p' := by
    rcases hquote with rfl | rfl <;> decide
  -- up to the opening quote every character was there before
  obtain ⟨raw₁, rfl, hspaced⟩ := @of_append_normalizeLoop "ath".toList _
    (space₁ ++ '(' :: (space₂ ++ quote :: (body ++ quote :: (space₃ ++ ')' :: rest))))
    (List.tail_eq_of_cons_eq h) (by decide)
  obtain ⟨raw₂, rfl, hopen⟩ := of_append_normalizeLoop hspaced (hspace₁.not_mem (by decide))
  obtain ⟨raw₃, rfl, hspaced'⟩ := of_cons_normalizeLoop hopen (by decide)
  obtain ⟨raw₄, rfl, hquoted⟩ := of_append_normalizeLoop hspaced' (hspace₂.not_mem (by decide))
  obtain ⟨raw₅, rfl, hinside⟩ := of_cons_normalizeLoop hquoted hquoteChar
  cases hbody with
  | nil => cases hpath
  | escaped _ _ =>
    obtain ⟨raw₆, rfl, -⟩ := of_cons_normalizeLoop hinside (by decide)
    exact hslash (List.mem_cons_of_mem _ (List.mem_append_right _ (List.mem_append_right _
      (List.mem_cons_of_mem _ (List.mem_append_right _
        (List.mem_cons_of_mem _ List.mem_cons_self))))))
  | plain _ hplain _ =>
    rw [unescape_plain hplain] at hpath
    rw [List.head_eq_of_cons_eq hpath] at hinside
    exact normalizeLoop_ne_dollar _ _ hinside.symm

theorem reference_of_normalizeLoop {raw : List Char} {root : Json} (hs : CallReference s path)
    (hresolves : (extractJsonPath root path).isSome = true) (hslash : '\\' ∉ raw)
    (h : s ++ rest = normalizeLoop raw none) :
    ∃ raw', raw = path ++ raw' ∧ rest = normalizeLoop raw' none ∧ InlineReference path path := by
  obtain ⟨tail, hpath⟩ := exists_dollar_of_resolves ⟨root, hresolves⟩
  cases raw with
  | nil =>
    obtain ⟨space₁, space₂, space₃, body, quote, -, -, -, -, -, -, hparts⟩ := hs.exists_parts
    rw [hparts] at h
    cases h
  | cons c raw =>
    by_cases hc : c = '$'
    · subst hc
      obtain ⟨token, behind, rfl, htoken, hloop⟩ := normalizeLoop_dollar raw
      have hplain : ∀ d ∈ '$' :: token, d ≠ '\\' := by
        rintro d hd rfl
        exact hslash (List.mem_append_left behind hd)
      rw [hloop, escapeQuotes_eq_escapeLiteral hplain] at h
      obtain ⟨rfl, hrest⟩ := hs.eq_of_append h
      exact ⟨behind, rfl, hrest, .mk htoken⟩
    · exact absurd hpath (not_dollar_of_normalizeLoop hs hc hslash h tail)

section

variable {α : Type} (ops : Arithmetic α) (payload : Json)

def ExprTree.Resolves : ExprTree → Prop
  | number _ => True
  | reference path => (extractJsonPath payload path).isSome = true
  | positive operand => operand.Resolves
  | negative operand => operand.Resolves
  | binary left _ right => left.Resolves ∧ right.Resolves

variable {ops payload}

variable {tree : ExprTree}

theorem ExprTree.resolves_of_value {value : α} (h : tree.value ops payload = .ok value) :
    tree.Resolves payload := by
  induction tree generalizing value with
  | number digits => trivial
  | reference path =>
    rw [ExprTree.value] at h
    show (extractJsonPath payload path).isSome = true
    cases hfound : extractJsonPath payload path with
    | none =>
      rw [hfound] at h
      cases h
    | some found => rfl
  | positive operand ih => exact ih h
  | negative operand ih =>
    rw [ExprTree.value] at h
    cases hvalue : operand.value ops payload with
    | error error =>
      rw [hvalue] at h
      cases h
    | ok value => exact ih hvalue
  | binary left operator right ihleft ihright =>
    rw [ExprTree.value] at h
    cases hleft : left.value ops payload with
    | error error =>
      rw [hleft] at h
      cases h
    | ok l =>
      cases hright : right.value ops payload with
      | error error =>
        rw [hleft, hright] at h
        cases h
      | ok r => exact ⟨ihleft hleft, ihright hright⟩

/-- **A normalized text that spells a tree with a value came from one with inline references.** -/
theorem spelled_of_normalizeLoop {level : ExprLevel} {s : List Char}
    (hs : Spelled CallReference level s tree) (hresolves : tree.Resolves payload)
    {raw rest : List Char} (hslash : '\\' ∉ raw) (h : s ++ rest = normalizeLoop raw none) :
    ∃ s' raw', raw = s' ++ raw' ∧ rest = normalizeLoop raw' none ∧
      Spelled InlineReference level s' tree := by
  -- along the spelling that came out of the loop, with what went into it
  induction hs generalizing raw rest with
  | @number space digits hspace hdigits =>
    -- a text without p holds no call, so it is copied
    have hnotp : 'p' ∉ space ++ digits := fun hmem => by
      rcases List.mem_append.1 hmem with hmem | hmem
      · exact hspace.not_mem (by decide) hmem
      · exact hdigits.not_mem (by decide) hmem
    obtain ⟨raw', rfl, hrest⟩ := of_append_normalizeLoop h hnotp
    exact ⟨_, raw', rfl, hrest, .number hspace hdigits⟩
  | @reference space s path hspace hs =>
    rw [List.append_assoc] at h
    obtain ⟨raw₁, rfl, hcall⟩ := of_append_normalizeLoop h (hspace.not_mem (by decide))
    -- a call that comes out was an inline reference
    obtain ⟨raw', rfl, hrest, hinline⟩ := reference_of_normalizeLoop hs hresolves
      (fun hmem => hslash (List.mem_append_right _ hmem)) hcall
    exact ⟨_, raw', (List.append_assoc _ _ _).symm, hrest, .reference hspace hinline⟩
  | @parens space s space' tree hspace hspace' _ ih =>
    have hinput : space ++ '(' :: (s ++ (space' ++ ')' :: rest)) = normalizeLoop raw none := by
      rw [← h]
      simp only [List.append_assoc, List.cons_append, List.nil_append]
    obtain ⟨raw₁, rfl, hopen⟩ := of_append_normalizeLoop hinput (hspace.not_mem (by decide))
    obtain ⟨raw₂, rfl, hinside⟩ := of_cons_normalizeLoop hopen (by decide)
    obtain ⟨s', raw₃, rfl, hspaced, hs'⟩ := ih hresolves (fun hmem =>
      hslash (List.mem_append_right _ (List.mem_cons_of_mem _ hmem))) hinside
    obtain ⟨raw₄, rfl, hclose⟩ := of_append_normalizeLoop hspaced (hspace'.not_mem (by decide))
    obtain ⟨raw', rfl, hrest⟩ := of_cons_normalizeLoop hclose (by decide)
    refine ⟨_, raw', ?_, hrest, .parens hspace hspace' hs'⟩
    simp only [List.append_assoc, List.cons_append, List.nil_append]
  | ofPrimary _ ih =>
    obtain ⟨s', raw', hraw, hrest, hs'⟩ := ih hresolves hslash h
    exact ⟨s', raw', hraw, hrest, .ofPrimary hs'⟩
  | @positive space s tree hspace _ ih =>
    rw [List.append_assoc, List.cons_append] at h
    obtain ⟨raw₁, rfl, hsign⟩ := of_append_normalizeLoop h (hspace.not_mem (by decide))
    obtain ⟨raw₂, rfl, hinside⟩ := of_cons_normalizeLoop hsign (by decide)
    obtain ⟨s', raw', rfl, hrest, hs'⟩ := ih hresolves (fun hmem =>
      hslash (List.mem_append_right _ (List.mem_cons_of_mem _ hmem))) hinside
    refine ⟨_, raw', ?_, hrest, .positive hspace hs'⟩
    rw [List.append_assoc, List.cons_append]
  | @negative space s tree hspace _ ih =>
    rw [List.append_assoc, List.cons_append] at h
    obtain ⟨raw₁, rfl, hsign⟩ := of_append_normalizeLoop h (hspace.not_mem (by decide))
    obtain ⟨raw₂, rfl, hinside⟩ := of_cons_normalizeLoop hsign (by decide)
    obtain ⟨s', raw', rfl, hrest, hs'⟩ := ih hresolves (fun hmem =>
      hslash (List.mem_append_right _ (List.mem_cons_of_mem _ hmem))) hinside
    refine ⟨_, raw', ?_, hrest, .negative hspace hs'⟩
    rw [List.append_assoc, List.cons_append]
  | ofUnary _ ih =>
    obtain ⟨s', raw', hraw, hrest, hs'⟩ := ih hresolves hslash h
    exact ⟨s', raw', hraw, hrest, .ofUnary hs'⟩
  | ofProduct _ ih =>
    obtain ⟨s', raw', hraw, hrest, hs'⟩ := ih hresolves hslash h
    exact ⟨s', raw', hraw, hrest, .ofProduct hs'⟩
  | @binary s space t _ _ left right operator hlevel hoperand hspace _ _ ihleft ihright =>
    have hinput : s ++ (space ++ operator.char :: (t ++ rest)) = normalizeLoop raw none := by
      rw [← h]
      simp only [List.append_assoc, List.cons_append]
    have hchar : operator.char ≠ 'p' := by cases operator <;> decide
    obtain ⟨s', raw₁, rfl, hspaced, hs'⟩ := ihleft hresolves.1 hslash hinput
    obtain ⟨raw₂, rfl, hoperator⟩ := of_append_normalizeLoop hspaced (hspace.not_mem (by decide))
    obtain ⟨raw₃, rfl, hbehind⟩ := of_cons_normalizeLoop hoperator hchar
    obtain ⟨t', raw', rfl, hrest, ht'⟩ := ihright hresolves.2 (fun hmem => hslash
      (List.mem_append_right _ (List.mem_append_right _ (List.mem_cons_of_mem _ hmem)))) hbehind
    refine ⟨_, raw', ?_, hrest, .binary operator hlevel hoperand hspace hs' ht'⟩
    simp only [List.append_assoc, List.cons_append]

theorem not_value_error {error : ExprError} :
    ¬∃ value : α, (Except.error error : Except ExprError α) = .ok value := by
  rintro ⟨_, h⟩
  cases h

theorem Spelled.value_iff (hops : ops.ReadsNumerals) {refs : List Char → List Char → Prop}
    {level : ExprLevel} {s : List Char} {tree : ExprTree} (h : Spelled refs level s tree) :
    (∃ value, tree.value ops payload = .ok value) ↔ tree.HasValue ops payload := by
  induction h with
  | @number space digits _ hdigits =>
    refine iff_of_true ?_ trivial
    obtain ⟨value, hvalue⟩ := Option.isSome_iff_exists.1 ((hops digits hdigits.all).2 hdigits)
    exact ⟨value, by rw [ExprTree.value, hvalue]⟩
  | @reference space s path _ _ =>
    rw [ExprTree.value, ExprTree.HasValue]
    cases (extractJsonPath payload path).bind (valueToF64 ops) with
    | none => exact iff_of_false not_value_error Bool.false_ne_true
    | some value => exact iff_of_true ⟨value, rfl⟩ rfl
  | parens _ _ _ ih => exact ih
  | ofPrimary _ ih => exact ih
  | positive _ _ ih => exact ih
  | @negative space s tree _ _ ih =>
    rw [ExprTree.HasValue, ← ih, ExprTree.value]
    cases tree.value ops payload with
    | error error => exact iff_of_false not_value_error not_value_error
    | ok value => exact iff_of_true ⟨_, rfl⟩ ⟨_, rfl⟩
  | ofUnary _ ih => exact ih
  | ofProduct _ ih => exact ih
  | @binary _ _ _ _ _ left right operator _ _ _ _ _ ihleft ihright =>
    rw [ExprTree.HasValue, ← ihleft, ← ihright, ExprTree.value]
    cases left.value ops payload with
    | error error => exact iff_of_false not_value_error fun h => not_value_error h.1
    | ok l =>
      cases right.value ops payload with
      | error error => exact iff_of_false not_value_error fun h => not_value_error h.2.1
      | ok r =>
        have hoperands : (∃ value, (Except.ok l : Except ExprError α) = .ok value) ∧
            ∃ value, (Except.ok r : Except ExprError α) = .ok value := ⟨⟨l, rfl⟩, r, rfl⟩
        cases operator with
        | plus => exact iff_of_true ⟨_, rfl⟩ ⟨hoperands.1, hoperands.2, by rintro ⟨⟩⟩
        | minus => exact iff_of_true ⟨_, rfl⟩ ⟨hoperands.1, hoperands.2, by rintro ⟨⟩⟩
        | times => exact iff_of_true ⟨_, rfl⟩ ⟨hoperands.1, hoperands.2, by rintro ⟨⟩⟩
        -- only a division asks something of its operands
        | slash =>
          have hcompute : (Except.ok l >>= fun l => Except.ok r >>= fun r =>
              ExprOperator.compute ops l r .slash) =
                if ops.isTiny r then .error .divisionByZero else .ok (ops.div l r) := rfl
          rw [hcompute]
          cases htiny : ops.isTiny r with
          | true =>
            refine iff_of_false not_value_error fun h => ?_
            have hdivisor := h.2.2 rfl r rfl
            rw [htiny] at hdivisor
            cases hdivisor
          | false =>
            refine iff_of_true ⟨_, rfl⟩ ⟨hoperands.1, hoperands.2, fun _ divisor hdivisor => ?_⟩
            rw [← Except.ok.inj hdivisor, htiny]

/-! ### Evaluating a text -/

variable (ops payload) in
theorem evaluateNormalized_spelled {text : List Char} (h : SpelledText CallReference text tree) :
    (evaluateNormalized ops payload text).mapError ExprError.text = tree.outcome ops payload := by
  obtain ⟨s, space, hspace, hs, rfl⟩ := h
  obtain ⟨pos', hread⟩ := readLevel_spelled ops payload hs 0 (ends_space .sum hspace)
  obtain ⟨pos'', hskip⟩ := skip_append hspace pos' []
  rw [List.append_nil] at hskip
  have hend : Cursor.skip ⟨pos', space⟩ = ⟨pos'', []⟩ := hskip
  refine congrArg (Except.mapError ExprError.text) ?_
  show (readLevel ops payload .sum ⟨0, s ++ space⟩ >>= fun p => _) = _
  rw [hread]
  cases tree.value ops payload with
  | error error => rfl
  | ok value =>
    show (levelLoop ops payload .sum value ⟨pos', space⟩ >>= fun p => _) = _
    rw [levelLoop_sum_stop ops payload value (by rw [hend]; exact fun _ _ _ h => nomatch h), hend]
    show (if !ops.isFinite value then Except.error ExprError.notFinite else .ok value) =
      (if ops.isFinite value then .ok value else .error .notFinite)
    cases ops.isFinite value with
    | true => rfl
    | false => rfl

theorem spelled_of_evaluateNormalized (hops : ops.ReadsNumerals) {text : List Char} {value : α}
    (h : evaluateNormalized ops payload text = .ok value) :
    ∃ tree, SpelledText CallReference text tree ∧ tree.value ops payload = .ok value := by
  have hcomputes := (computes_all payload hops (exprFuel text)).1 .sum ⟨0, text⟩
  rw [evaluateNormalized] at h
  change Computes ops payload .sum text
    (parseAddSub ops payload (exprFuel text) ⟨0, text⟩) at hcomputes
  cases hparsed : parseAddSub ops payload (exprFuel text) ⟨0, text⟩ with
  | error error =>
    rw [hparsed] at h
    cases h
  | ok parsed =>
    rw [hparsed] at h hcomputes
    obtain ⟨s, space, tree, hspace, hs, hvalue, rfl⟩ := hcomputes
    change (if !parsed.2.skip.rest.isEmpty then _ else _) = _ at h
    split_ifs at h with hrest hfinite
    obtain ⟨space', hspace', hskip⟩ := exists_space_skip parsed.2
    have hnil : parsed.2.skip.rest = [] := by simpa using hrest
    rw [hnil, List.append_nil] at hskip
    refine ⟨tree, ⟨s, space ++ space', hspace.append hspace', hs, by rw [hskip]⟩, ?_⟩
    rw [hvalue, Except.ok.inj h]

end

theorem normalizeExpression_of_call {text : List Char}
    (h : textContains "path(" text = true ∨ '$' ∉ text) : normalizeExpression text = text := by
  rw [normalizeExpression]
  split_ifs with hcall
  · rfl
  · have hloop := normalizeLoop_append (t := []) (h.resolve_left hcall)
    rwa [List.append_nil, normalizeLoop, List.append_nil] at hloop

section

variable {α : Type} {ops : Arithmetic α} {payload : Json}

variable (ops payload) in
theorem evaluateExpression_written {text : List Char} {tree : ExprTree} (h : Written text tree) :
    evaluateExpression ops text payload = tree.outcome ops payload := by
  rcases h with ⟨hcall, hspelled⟩ | ⟨hcall, hslash, s, space, hspace, hs, rfl⟩
  · rw [evaluateExpression, normalizeExpression_of_call hcall]
    exact evaluateNormalized_spelled ops payload hspelled
  · obtain ⟨s', hs', hloop⟩ := normalizeLoop_spelled hs fun hmem =>
      hslash (List.mem_append_left _ hmem)
    have hspaces : normalizeLoop space none = space := by
      have hkept := normalizeLoop_append (t := []) (hspace.not_mem (c := '$') (by decide))
      rwa [List.append_nil, normalizeLoop, List.append_nil] at hkept
    rw [evaluateExpression, normalizeExpression, hcall, if_neg Bool.false_ne_true,
      hloop space (delimited_space hspace), hspaces]
    exact evaluateNormalized_spelled ops payload ⟨s', space, hspace, hs', rfl⟩

theorem spelled_of_evaluateExpression (hops : ops.ReadsNumerals) {text : List Char}
    (htext : textContains "path(" text = true ∨ '$' ∉ text ∨ '\\' ∉ text) {value : α}
    (h : evaluateExpression ops text payload = .ok value) :
    ∃ tree, SpelledText EitherReference text tree := by
  have hvalue : evaluateNormalized ops payload (normalizeExpression text) = .ok value := by
    rw [evaluateExpression] at h
    cases hnormalized : evaluateNormalized ops payload (normalizeExpression text) with
    | error error =>
      rw [hnormalized] at h
      cases h
    | ok value' =>
      rw [hnormalized] at h
      rw [← Except.ok.inj h]
  obtain ⟨tree, ⟨s, space, hspace, hs, htree⟩, hok⟩ := spelled_of_evaluateNormalized hops hvalue
  -- a text with a call is parsed as it stands
  by_cases hcall : textContains "path(" text = true ∨ '$' ∉ text
  · rw [normalizeExpression_of_call hcall] at htree
    exact ⟨tree, s, space, hspace, hs.mono fun _ _ => .inl, htree⟩
  · have hslash : '\\' ∉ text := by
      rcases htext with htext | htext | htext
      · exact absurd (.inl htext) hcall
      · exact absurd (.inr htext) hcall
      · exact htext
    rw [normalizeExpression, if_neg fun hpath => hcall (.inl hpath)] at htree
    obtain ⟨s', raw', rfl, hrest, hs'⟩ :=
      spelled_of_normalizeLoop hs (ExprTree.resolves_of_value hok) hslash htree.symm
    obtain ⟨raw'', rfl, hnil⟩ := @of_append_normalizeLoop _ _ []
      (by rw [List.append_nil]; exact hrest) (hspace.not_mem (by decide))
    -- nothing stands behind the expression
    have hend : raw'' = [] := by
      cases raw'' with
      | nil => rfl
      | cons c raw'' =>
        by_cases hc : c = '$'
        · obtain ⟨token, behind, -, -, hloop⟩ := normalizeLoop_dollar raw''
          rw [hc, hloop] at hnil
          cases hnil
        · rw [normalizeLoop, if_neg hc] at hnil
          cases hnil
    rw [hend, List.append_nil]
    exact ⟨tree, s', space, hspace, hs'.mono fun _ _ => .inr, rfl⟩

end

/-! ### Ordered fields -/

def readDigits (digits : List Char) : ℕ := digits.foldl (fun n c => 10 * n + (c.toNat - 48)) 0

def readSign : List Char → Bool × List Char
  | '-' :: rest => (true, rest)
  | '+' :: rest => (false, rest)
  | s => (false, s)

def readMantissa (s : List Char) : Option (List Char × List Char) :=
  let whole := s.takeWhile Char.isDigit
  match s.drop whole.length with
  | [] => if whole.isEmpty then none else some (whole, [])
  | c :: fraction =>
    if c = '.' && fraction.all Char.isDigit && !(whole ++ fraction).isEmpty then
      some (whole, fraction)
    else none

def readExponent : List Char → Option ℤ
  | [] => some 0
  | _ :: s =>
    let digits := (readSign s).2
    if digits.isEmpty || !digits.all Char.isDigit then none
    else if (readSign s).1 then some (-(readDigits digits)) else some (readDigits digits)

/-- `str::parse::<f64>`, for the finite numbers and without rounding. -/
def readDecimal (K : Type) [Field K] (text : String) : Option K :=
  let body := (readSign text.toList).2
  let mantissa := body.takeWhile fun c => c ≠ 'e' && c ≠ 'E'
  match readMantissa mantissa, readExponent (body.drop mantissa.length) with
  | some (whole, fraction), some exponent =>
    let magnitude := (readDigits (whole ++ fraction) : K) * 10 ^ (exponent - fraction.length)
    some (if (readSign text.toList).1 then -magnitude else magnitude)
  | _, _ => none

/-- The arithmetic of an ordered field in place of `f64`, where some results count as finite. -/
def fieldArithmetic {K : Type} [Field K] [LinearOrder K] (finite : K → Bool) (print : K → String) :
    Arithmetic K where
  parse := readDecimal K
  ofNumber
    | .int n => n
    | .float text => (readDecimal K text).getD 0
  add := (· + ·)
  sub := (· - ·)
  mul := (· * ·)
  div := (· / ·)
  neg := (- ·)
  isTiny x := |x| < 1 / 2 ^ 52
  isFinite := finite
  print := print

theorem readMantissa_isSome_iff (s : List Char) : (readMantissa s).isSome = true ↔ IsNumeral s := by
  constructor
  · intro h
    rw [readMantissa] at h
    have hsplit : s.takeWhile Char.isDigit ++ s.drop (s.takeWhile Char.isDigit).length = s :=
      List.prefix_iff_eq_append.1 (List.takeWhile_prefix _)
    have hwhole : (s.takeWhile Char.isDigit).all Char.isDigit = true :=
      List.all_eq_true.2 fun c hc => List.mem_takeWhile_imp hc
    cases hrest : s.drop (s.takeWhile Char.isDigit).length with
    | nil =>
      rw [hrest, List.append_nil] at hsplit
      simp only [hrest] at h
      refine ⟨_, [], hwhole, rfl, fun hempty => ?_, .inl ⟨hsplit.symm, rfl⟩⟩
      rw [List.append_nil] at hempty
      rw [hempty] at h
      cases h
    | cons c fraction =>
      rw [hrest] at hsplit
      simp only [hrest] at h
      split_ifs at h with hc
      · rw [Bool.and_eq_true, Bool.and_eq_true, decide_eq_true_eq] at hc
        refine ⟨_, fraction, hwhole, hc.1.2, fun hempty => ?_, .inr (by rw [← hc.1.1, hsplit])⟩
        rw [hempty] at hc
        cases hc.2
      · cases h
  · rintro ⟨whole, fraction, hwhole, hfraction, hne, hs⟩
    rw [readMantissa]
    rcases hs with ⟨rfl, rfl⟩ | rfl
    · have htake : s.takeWhile Char.isDigit = s :=
        List.takeWhile_eq_self_iff.2 (List.all_eq_true.1 hwhole)
      rw [List.append_nil] at hne
      rw [htake, List.drop_length]
      cases s with
      | nil => exact absurd rfl hne
      | cons c s => rfl
    · have htake : (whole ++ '.' :: fraction).takeWhile Char.isDigit = whole := by
        rw [List.takeWhile_append_of_pos (List.all_eq_true.1 hwhole), List.takeWhile_cons,
          if_neg (by decide), List.append_nil]
      have hempty : (whole ++ fraction).isEmpty = false := List.isEmpty_eq_false_iff.2 hne
      rw [htake, List.drop_left]
      dsimp only
      rw [hfraction, hempty]
      rfl

theorem readsNumerals_fieldArithmetic {K : Type} [Field K] [LinearOrder K] (finite : K → Bool)
    (print : K → String) : (fieldArithmetic finite print).ReadsNumerals := by
  intro digits hdigits
  have hsign : readSign digits = (false, digits) := by
    rw [readSign.eq_def]
    split
    · cases hdigits
    · cases hdigits
    · rfl
  have hmantissa : (digits.takeWhile fun c => c ≠ 'e' && c ≠ 'E') = digits := by
    refine List.takeWhile_eq_self_iff.2 fun c hc => ?_
    have hnumeral := List.all_eq_true.1 hdigits c hc
    by_contra hletter
    rw [Bool.and_eq_true, decide_eq_true_eq, decide_eq_true_eq, not_and_or, not_not, not_not]
      at hletter
    rcases hletter with rfl | rfl
    · cases hnumeral
    · cases hnumeral
  rw [← readMantissa_isSome_iff]
  show (readDecimal K (String.ofList digits)).isSome = true ↔ _
  rw [readDecimal, String.toList_ofList, hsign]
  dsimp only
  rw [hmantissa, List.drop_length, readExponent]
  cases readMantissa digits with
  | none => exact Iff.rfl
  | some parts => exact Iff.rfl

/-- **The evaluation of an expression is ordinary arithmetic**: an expression has the value of the
tree that it spells, or an error where a reference is not numeric, a divisor is near zero or the
result is not finite, and a text that spells no tree is rejected. -/
theorem expressionArithmetic {K : Type} [Field K] [LinearOrder K] (finite : K → Bool)
    (print : K → String) (payload : Json) (text : List Char) :
    (∀ tree, Written text tree →
      evaluateExpression (fieldArithmetic finite print) text payload =
          tree.outcome (fieldArithmetic finite print) payload ∧
        ((∃ error, evaluateExpression (fieldArithmetic finite print) text payload = .error error) ↔
          ¬ tree.HasValue (fieldArithmetic finite print) payload ∨
            ∃ value, tree.value (fieldArithmetic finite print) payload = .ok value ∧
              finite value = false)) ∧
      (textContains "path(" text = true ∨ '$' ∉ text ∨ '\\' ∉ text →
        (∀ tree, ¬ SpelledText EitherReference text tree) →
          ∃ error, evaluateExpression (fieldArithmetic finite print) text payload =
            .error error) := by
  have hops := readsNumerals_fieldArithmetic finite print
  refine ⟨fun tree hwritten => ?_, fun htext hnone => ?_⟩
  · have hspelled : ∃ refs s, Spelled refs .sum s tree := by
      rcases hwritten with ⟨-, s, -, -, hs, -⟩ | ⟨-, -, s, -, -, hs, -⟩
      · exact ⟨_, s, hs⟩
      · exact ⟨_, s, hs⟩
    obtain ⟨refs, s, hs⟩ := hspelled
    have hvalue := @Spelled.value_iff _ _ payload hops _ _ _ _ hs
    refine ⟨evaluateExpression_written _ payload hwritten, ?_⟩
    rw [evaluateExpression_written _ payload hwritten, ← hvalue, ExprTree.outcome]
    cases htree : tree.value (fieldArithmetic finite print) payload with
    | error error => exact iff_of_true ⟨_, rfl⟩ (.inl fun ⟨_, h⟩ => nomatch h)
    | ok value =>
      have houtcome : ((Except.ok value >>= fun value =>
          if (fieldArithmetic finite print).isFinite value then .ok value else .error .notFinite) :
            Except ExprError K) = if finite value then .ok value else .error .notFinite := rfl
      rw [houtcome]
      cases hfinite : finite value with
      | true =>
        refine iff_of_false (fun ⟨_, h⟩ => nomatch h) fun h => ?_
        rcases h with h | ⟨value', hvalue', hnot⟩
        · exact h ⟨value, rfl⟩
        · rw [← Except.ok.inj hvalue', hfinite] at hnot
          cases hnot
      | false => exact iff_of_true ⟨_, rfl⟩ (.inr ⟨value, rfl, hfinite⟩)
  · cases hresult : evaluateExpression (fieldArithmetic finite print) text payload with
    | error error => exact ⟨error, rfl⟩
    | ok value =>
      obtain ⟨tree, htree⟩ := spelled_of_evaluateExpression hops htext hresult
      exact absurd htree (hnone tree)

example : Written "(7 - path('$.used')) / -2".toList
    (.binary (.binary (.number ['7']) .minus (.reference "$.used".toList)) .slash
      (.negative (.number ['2']))) := by
  have hnumeral : ∀ c : Char, c.isDigit = true → IsNumeral [c] := fun c hc =>
    ⟨[c], [], by rw [List.all_cons, hc]; rfl, rfl, by simp, .inl ⟨rfl, rfl⟩⟩
  have hcall : CallReference "path('$.used')".toList "$.used".toList :=
    @CallReference.mk [] [] [] "$.used".toList '\'' rfl rfl rfl (.inl rfl)
      (literalBody_escapeLiteral "$.used".toList)
  have hdifference : Spelled CallReference .sum "7 - path('$.used')".toList
      (.binary (.number ['7']) .minus (.reference "$.used".toList)) :=
    @Spelled.binary _ ['7'] [' '] " path('$.used')".toList _ _ _ _ .minus rfl rfl rfl
      (.ofProduct (.ofUnary (.ofPrimary (@Spelled.number _ [] _ rfl (hnumeral '7' rfl)))))
      (.ofUnary (.ofPrimary (@Spelled.reference _ [' '] _ _ rfl hcall)))
  have hquotient : Spelled CallReference .product "(7 - path('$.used')) / -2".toList _ :=
    @Spelled.binary _ "(7 - path('$.used'))".toList [' '] " -2".toList _ _ _ _ .slash rfl rfl rfl
      (.ofUnary (.ofPrimary (@Spelled.parens _ [] _ [] _ rfl rfl hdifference)))
      (@Spelled.negative _ [' '] _ _ rfl
        (.ofPrimary (@Spelled.number _ [] _ rfl (hnumeral '2' rfl))))
  exact .inl ⟨.inl (by decide), _, [], rfl, .ofProduct hquotient, rfl⟩

/-- A text of calls begins with no `$`. -/
theorem Spelled.exists_head {level : ExprLevel} {tree : ExprTree}
    (h : Spelled CallReference level s tree) : ∃ c tail, s = c :: tail ∧ c ≠ '$' := by
  have hhead : ∀ {space t : List Char} {c : Char}, IsSpace space → c ≠ '$' →
      ∃ d tail, space ++ c :: t = d :: tail ∧ d ≠ '$' := by
    intro space t c hspace hc
    cases space with
    | nil => exact ⟨c, t, rfl, hc⟩
    | cons b space =>
      exact ⟨b, _, rfl, fun hb => hspace.not_mem (c := '$') (by decide) (hb ▸ List.mem_cons_self)⟩
  induction h with
  | number hspace hdigits =>
    obtain ⟨c, tail, rfl, hc⟩ := hdigits.exists_cons
    refine hhead hspace ?_
    rintro rfl
    cases hc
  | reference hspace hs =>
    cases hs with
    | mk quote _ _ _ _ _ => exact hhead hspace (c := 'p') (by decide)
  | parens hspace _ _ _ => exact hhead hspace (by decide)
  | ofPrimary _ ih => exact ih
  | positive hspace _ _ => exact hhead hspace (by decide)
  | negative hspace _ _ => exact hhead hspace (by decide)
  | ofUnary _ ih => exact ih
  | ofProduct _ ih => exact ih
  | binary operator _ _ _ _ _ ihleft _ =>
    obtain ⟨c, tail, rfl, hc⟩ := ihleft
    exact ⟨c, _, rfl, hc⟩

/-- `$.a` has no call, and is evaluated. -/
theorem inlineReference_evaluated :
    (∀ tree, ¬ SpelledText CallReference "$.a".toList tree) ∧
      evaluateExpression (fieldArithmetic (fun _ : ℚ => true) fun _ => "") "$.a".toList
        (.obj [("a", .num (.int 1))]) = .ok 1 := by
  refine ⟨fun tree ⟨s, space, _, hs, htext⟩ => ?_, ?_⟩
  · obtain ⟨c, tail, rfl, hc⟩ := hs.exists_head
    exact hc (List.head_eq_of_cons_eq htext).symm
  · rfl

end AiOpenRouter
