/-
Inline references and the path function of quota expressions.

`normalize_expression` turns inline references into calls of the path function, unless the text has
such a call already. It cuts a reference at the first space, operator or parenthesis.

* `interchangeable`: calls may be replaced by their bare paths when no call is left and the paths
  have none of the characters that cut them, nor a backslash; and where the expression has a value
  before and behind, either nothing was replaced or no call was left.
-/
import AiOpenRouter.QuotaMappings

namespace AiOpenRouter

open Text

/-! ### Replacing calls -/

def escapeLiteral (path : List Char) : List Char :=
  path.flatMap fun c => if c = '\'' ∨ c = '\\' then ['\\', c] else [c]

/-- A use of a path in an expression: whether it is the bare path before and behind the
replacement, and the text that stands behind it. -/
structure PathUse where
  path : List Char
  bareBefore : Bool
  bareAfter : Bool
  behind : List Char

/-- The text from a use on to the next. -/
def PathUse.text (use : PathUse) (bare : Bool) : List Char :=
  (if bare then use.path else pathCallText (escapeLiteral use.path)) ++ use.behind

def usesText (bare : PathUse → Bool) (uses : List PathUse) : List Char :=
  uses.flatMap fun use => use.text (bare use)

def Delimited (text : List Char) : Prop := ∀ c ∈ text.head?, endsReference c = true

def DelimitedUses (bare : PathUse → Bool) : List PathUse → Prop
  | [] => True
  | use :: uses =>
    (bare use = true → Delimited (use.behind ++ usesText bare uses)) ∧ DelimitedUses bare uses

/-- An expression in which some calls of the path function are replaced by their bare paths. -/
structure Replacement where
  head : List Char
  uses : List PathUse
  lexemes_head : Lexemes head
  lexemes_behind : ∀ use ∈ uses, Lexemes use.behind
  resolves : ∀ use ∈ uses, ∃ root, (extractJsonPath root use.path).isSome = true
  replaces : ∀ use ∈ uses, use.bareBefore = true → use.bareAfter = true
  delimited_before : DelimitedUses PathUse.bareBefore uses
  delimited_after : DelimitedUses PathUse.bareAfter uses

namespace Replacement

/-- The expression. -/
def before (r : Replacement) : List Char := r.head ++ usesText PathUse.bareBefore r.uses

/-- The expression with the calls replaced. -/
def after (r : Replacement) : List Char := r.head ++ usesText PathUse.bareAfter r.uses

/-- No call is replaced. -/
def Unchanged (r : Replacement) : Prop := ∀ use ∈ r.uses, use.bareBefore = use.bareAfter

/-- Every use was a call, and no call is left. -/
def ReplacesAll (r : Replacement) : Prop :=
  (∀ use ∈ r.uses, use.bareBefore = false) ∧ textContains "path(" r.after = false

/-- The paths are cut where they end, and there is no other `$`. -/
def Plain (r : Replacement) : Prop :=
  (∀ use ∈ r.uses, ∀ c ∈ use.path, endsReference c = false ∧ c ≠ '\\') ∧
    '$' ∉ r.head ∧ ∀ use ∈ r.uses, '$' ∉ use.behind

end Replacement

/-! ### Lexemes of a text -/

variable {s t : List Char} {uses : List PathUse}

theorem LiteralBody.unique {quote : Char} {body body' s' : List Char}
    (hbody : LiteralBody quote body) (hbody' : LiteralBody quote body')
    (h : body ++ quote :: s = body' ++ quote :: s') : s = s' := by
  induction hbody generalizing body' with
  | nil =>
    cases hbody' with
    | nil => exact List.tail_eq_of_cons_eq h
    | escaped hquote _ => exact absurd (List.head_eq_of_cons_eq h) hquote
    | plain hquote _ _ => exact absurd (List.head_eq_of_cons_eq h).symm hquote
  | escaped hquote _ ih =>
    cases hbody' with
    | nil => exact absurd (List.head_eq_of_cons_eq h).symm hquote
    | escaped _ hbody' =>
      exact ih hbody' (List.tail_eq_of_cons_eq (List.tail_eq_of_cons_eq h))
    | plain _ hslash _ => exact absurd (List.head_eq_of_cons_eq h).symm hslash
  | plain hquote hslash _ ih =>
    cases hbody' with
    | nil => exact absurd (List.head_eq_of_cons_eq h) hquote
    | escaped _ _ => exact absurd (List.head_eq_of_cons_eq h) hslash
    | plain _ _ hbody' => exact ih hbody' (List.tail_eq_of_cons_eq h)

theorem isBare_quote {quote : Char} (h : quote = '\'' ∨ quote = '"') : isBare quote = false := by
  rcases h with rfl | rfl <;> decide

theorem Lexemes.tail (hs : Lexemes s) (h : Lexemes (s ++ t)) : Lexemes t := by
  induction hs with
  | nil => exact h
  | @bare c s hc _ ih =>
    generalize htext : c :: s ++ t = text at h
    rw [List.cons_append] at htext
    cases h with
    | nil => cases htext
    | bare _ h =>
      rw [← List.tail_eq_of_cons_eq htext] at h
      exact ih h
    | literal hquote _ _ =>
      rw [List.head_eq_of_cons_eq htext, isBare_quote hquote] at hc
      cases hc
  | @literal quote body s hquote hbody _ ih =>
    generalize htext : quote :: (body ++ quote :: s) ++ t = text at h
    rw [List.cons_append, List.append_assoc, List.cons_append] at htext
    cases h with
    | nil => cases htext
    | bare hc _ =>
      rw [← List.head_eq_of_cons_eq htext, isBare_quote hquote] at hc
      cases hc
    | literal _ hbody' h =>
      obtain rfl := List.head_eq_of_cons_eq htext
      rw [← hbody.unique hbody' (List.tail_eq_of_cons_eq htext)] at h
      exact ih h

theorem not_lexemes_dollar : ¬ Lexemes ('$' :: s) := by
  intro h
  generalize htext : '$' :: s = text at h
  cases h with
  | nil => cases htext
  | bare hc _ =>
    rw [← List.head_eq_of_cons_eq htext] at hc
    exact absurd hc (by decide)
  | literal hquote _ _ =>
    rw [← List.head_eq_of_cons_eq htext] at hquote
    exact absurd hquote (by decide)

theorem literalBody_escapeLiteral (path : List Char) : LiteralBody '\'' (escapeLiteral path) := by
  induction path with
  | nil => exact .nil
  | cons c path ih =>
    rw [escapeLiteral, List.flatMap_cons]
    split_ifs with h
    · exact .escaped (by decide) ih
    · exact .plain (fun hc => h (.inl hc)) (fun hc => h (.inr hc)) ih

theorem lexemes_pathCallText {literal : List Char} (h : LiteralBody '\'' literal) :
    Lexemes (pathCallText literal) := by
  have hname : Lexemes "path(".toList := lexemes_of_bare (by decide)
  have hclose : Lexemes [')'] := lexemes_of_bare (by decide)
  exact hname.append (.literal (.inl rfl) h hclose)

/-- A path that leads anywhere begins with `$`. -/
theorem exists_dollar_of_resolves {path : List Char}
    (h : ∃ root, (extractJsonPath root path).isSome = true) : ∃ tail, path = '$' :: tail := by
  obtain ⟨root, h⟩ := h
  unfold extractJsonPath at h
  split at h
  · exact ⟨_, rfl⟩
  · cases h

theorem not_bare_of_lexemes {bare : PathUse → Bool} (hbehind : ∀ use ∈ uses, Lexemes use.behind)
    (hresolves : ∀ use ∈ uses, ∃ root, (extractJsonPath root use.path).isSome = true)
    (h : Lexemes (usesText bare uses)) : ∀ use ∈ uses, bare use = false := by
  induction uses with
  | nil => exact fun use huse => absurd huse List.not_mem_nil
  | cons use uses ih =>
    rw [usesText, List.flatMap_cons, PathUse.text] at h
    cases hbare : bare use with
    | true =>
      obtain ⟨tail, htail⟩ := exists_dollar_of_resolves (hresolves use List.mem_cons_self)
      rw [hbare, if_pos rfl, htail] at h
      exact absurd h not_lexemes_dollar
    | false =>
      rw [hbare, if_neg Bool.false_ne_true, List.append_assoc] at h
      have hrest := (hbehind use List.mem_cons_self).tail
        ((lexemes_pathCallText (literalBody_escapeLiteral use.path)).tail h)
      intro other hother
      rcases List.mem_cons.1 hother with rfl | hother
      · exact hbare
      · exact ih (fun u hu => hbehind u (List.mem_cons_of_mem _ hu))
          (fun u hu => hresolves u (List.mem_cons_of_mem _ hu)) hrest other hother

/-! ### Calls in a text -/

theorem textContains_iff {pattern : String} {text : List Char} :
    textContains pattern text = true ↔ pattern.toList <:+: text := by
  simp only [textContains, decide_eq_true_eq]

theorem textContains_usesText {bare : PathUse → Bool} {use : PathUse} {front : List Char}
    (huse : use ∈ uses) (hbare : bare use = false) :
    textContains "path(" (front ++ usesText bare uses) = true := by
  have htext : use.text (bare use) = pathCallText (escapeLiteral use.path) ++ use.behind := by
    rw [hbare, PathUse.text, if_neg Bool.false_ne_true]
  have hcall : "path(".toList <:+: use.text (bare use) := by
    have hname : "path(".toList <+: pathCallText (escapeLiteral use.path) :=
      ⟨'\'' :: (escapeLiteral use.path ++ "')".toList), rfl⟩
    exact htext ▸ (hname.trans (List.prefix_append _ _)).isInfix
  have huses : use.text (bare use) <:+: usesText bare uses := by
    obtain ⟨s, t, rfl⟩ := List.append_of_mem huse
    rw [usesText, List.flatMap_append, List.flatMap_cons]
    exact ⟨_, _, List.append_assoc _ _ _⟩
  exact textContains_iff.2 (hcall.trans (huses.trans (List.suffix_append _ _).isInfix))

/-! ### Normalizing bare paths -/

theorem normalizeLoop_append (h : '$' ∉ s) :
    normalizeLoop (s ++ t) none = s ++ normalizeLoop t none := by
  induction s with
  | nil => rfl
  | cons c s ih =>
    have hc : c ≠ '$' := fun hc => h (hc ▸ List.mem_cons_self)
    rw [List.cons_append, normalizeLoop, if_neg hc, ih fun hs => h (List.mem_cons_of_mem _ hs),
      List.cons_append]

theorem normalizeLoop_token {tail : List Char} (token : List Char)
    (htail : ∀ c ∈ tail, endsReference c = false) (ht : Delimited t) :
    normalizeLoop (tail ++ t) (some token) =
      pathCallText (escapeQuotes (token ++ tail)) ++ normalizeLoop t none := by
  induction tail generalizing token with
  | nil =>
    rw [List.nil_append, List.append_nil]
    cases t with
    | nil => rw [normalizeLoop, normalizeLoop, List.append_nil]
    | cons c t =>
      have hends : endsReference c = true := ht c rfl
      have hc : c ≠ '$' := by
        rintro rfl
        exact absurd hends (by decide)
      have hcut : normalizeLoop (c :: t) (some token) =
          pathCallText (escapeQuotes token) ++ c :: normalizeLoop t none := by
        rw [normalizeLoop, if_pos hends]
      rw [hcut, normalizeLoop, if_neg hc]
  | cons c tail ih =>
    have hends := htail c List.mem_cons_self
    rw [List.cons_append, normalizeLoop, if_neg (by rw [hends]; exact Bool.false_ne_true),
      ih _ fun d hd => htail d (List.mem_cons_of_mem _ hd), List.append_assoc,
      List.singleton_append]

theorem escapeQuotes_eq_escapeLiteral {path : List Char} (h : ∀ c ∈ path, c ≠ '\\') :
    escapeQuotes path = escapeLiteral path := by
  refine List.flatMap_congr fun c hc => ?_
  by_cases hquote : c = '\''
  · rw [if_pos hquote, if_pos (.inl hquote), hquote]
  · rw [if_neg hquote, if_neg (not_or.2 ⟨hquote, h c hc⟩)]

theorem normalizeLoop_usesText
    (hresolves : ∀ use ∈ uses, ∃ root, (extractJsonPath root use.path).isSome = true)
    (hbefore : ∀ use ∈ uses, use.bareBefore = false) (hafter : ∀ use ∈ uses, use.bareAfter = true)
    (hpath : ∀ use ∈ uses, ∀ c ∈ use.path, endsReference c = false ∧ c ≠ '\\')
    (hbehind : ∀ use ∈ uses, '$' ∉ use.behind) (hdelimited : DelimitedUses PathUse.bareAfter uses) :
    normalizeLoop (usesText PathUse.bareAfter uses) none = usesText PathUse.bareBefore uses := by
  induction uses with
  | nil => rfl
  | cons use uses ih =>
    have hmem : use ∈ use :: uses := List.mem_cons_self
    obtain ⟨tail, htail⟩ := exists_dollar_of_resolves (hresolves use hmem)
    have hcut : ∀ c ∈ tail, endsReference c = false := fun c hc =>
      (hpath use hmem c (htail ▸ List.mem_cons_of_mem _ hc)).1
    have hrest := ih (fun u hu => hresolves u (List.mem_cons_of_mem _ hu))
      (fun u hu => hbefore u (List.mem_cons_of_mem _ hu))
      (fun u hu => hafter u (List.mem_cons_of_mem _ hu))
      (fun u hu => hpath u (List.mem_cons_of_mem _ hu))
      (fun u hu => hbehind u (List.mem_cons_of_mem _ hu)) hdelimited.2
    calc normalizeLoop (usesText PathUse.bareAfter (use :: uses)) none
        = normalizeLoop (tail ++ (use.behind ++ usesText PathUse.bareAfter uses))
            (some ['$']) := by
          rw [usesText, List.flatMap_cons, PathUse.text, hafter use hmem, if_pos rfl,
            List.append_assoc, htail, List.cons_append, normalizeLoop, if_pos rfl]
          rfl
      _ = pathCallText (escapeQuotes use.path) ++
            normalizeLoop (use.behind ++ usesText PathUse.bareAfter uses) none := by
          rw [normalizeLoop_token ['$'] hcut (hdelimited.1 (hafter use hmem)), htail]
          rfl
      _ = pathCallText (escapeLiteral use.path) ++
            (use.behind ++ usesText PathUse.bareBefore uses) := by
          rw [escapeQuotes_eq_escapeLiteral fun c hc => (hpath use hmem c hc).2,
            normalizeLoop_append (hbehind use hmem), hrest]
      _ = usesText PathUse.bareBefore (use :: uses) := by
          have hcall : use.text use.bareBefore =
              pathCallText (escapeLiteral use.path) ++ use.behind := by
            rw [PathUse.text, hbefore use hmem, if_neg Bool.false_ne_true]
          rw [← List.append_assoc, ← hcall]
          rfl

/-! ### Values -/

section

variable {α : Type} (ops : Arithmetic α)

variable {payload : Json} {value : α}

theorem lexemes_of_evaluateNormalized {text : List Char}
    (h : evaluateNormalized ops payload text = .ok value) : Lexemes text := by
  have hparses := parseAddSub_fed ops payload text
  unfold evaluateNormalized at h
  cases hparsed : parseAddSub ops payload (exprFuel text) ⟨0, text⟩ with
  | error error =>
    rw [hparsed] at h
    cases h
  | ok parsed =>
    rw [hparsed] at h hparses
    have hread := ReadsTo.trans hparses (readsTo_skip parsed.2)
    change (if !parsed.2.skip.rest.isEmpty then _ else _) = _ at h
    cases hrest : parsed.2.skip.rest with
    | nil =>
      rw [hrest] at hread
      obtain ⟨read, hlexemes, rfl⟩ := hread
      rwa [List.append_nil]
    | cons c rest =>
      rw [hrest] at h
      cases h

theorem lexemes_of_evaluateExpression {text : List Char} (hcall : textContains "path(" text = true)
    (h : evaluateExpression ops text payload = .ok value) : Lexemes text := by
  rw [evaluateExpression, normalizeExpression, if_pos hcall] at h
  cases hvalue : evaluateNormalized ops payload text with
  | error error =>
    rw [hvalue] at h
    cases h
  | ok value' => exact lexemes_of_evaluateNormalized ops hvalue

theorem not_bare_of_value {head : List Char} {bare : PathUse → Bool} {uses : List PathUse}
    (hhead : Lexemes head) (hbehind : ∀ use ∈ uses, Lexemes use.behind)
    (hresolves : ∀ use ∈ uses, ∃ root, (extractJsonPath root use.path).isSome = true)
    (hcall : textContains "path(" (head ++ usesText bare uses) = true)
    (h : evaluateExpression ops (head ++ usesText bare uses) payload = .ok value) :
    ∀ use ∈ uses, bare use = false :=
  not_bare_of_lexemes hbehind hresolves
    (hhead.tail (lexemes_of_evaluateExpression ops hcall h))

namespace Replacement

variable {r : Replacement}

theorem before_eq_after (h : r.Unchanged) : r.after = r.before := by
  rw [after, before, usesText, usesText]
  refine congrArg _ (List.flatMap_congr fun use huse => ?_)
  rw [h use huse]

theorem bare_of_noCall {head : List Char} {bare : PathUse → Bool} {uses : List PathUse}
    (h : textContains "path(" (head ++ usesText bare uses) = false) :
    ∀ use ∈ uses, bare use = true := by
  intro use huse
  by_contra hbare
  rw [textContains_usesText huse (Bool.eq_false_iff.2 hbare)] at h
  cases h

theorem normalizeExpression_after (hall : r.ReplacesAll) (hplain : r.Plain) :
    normalizeExpression r.after = r.before := by
  obtain ⟨hbefore, hcall⟩ := hall
  obtain ⟨hpath, hhead, hbehind⟩ := hplain
  rw [normalizeExpression, hcall, if_neg Bool.false_ne_true, after, normalizeLoop_append hhead,
    normalizeLoop_usesText r.resolves hbefore (bare_of_noCall hcall) hpath hbehind
      r.delimited_after]
  rfl

theorem normalizeExpression_before (hbefore : ∀ use ∈ r.uses, use.bareBefore = false)
    (hne : r.uses ≠ []) : normalizeExpression r.before = r.before := by
  obtain ⟨use, huse⟩ := List.exists_mem_of_ne_nil _ hne
  rw [normalizeExpression, before, textContains_usesText huse (hbefore use huse), if_pos rfl]

/-- **Calls of the path function and their bare paths are interchangeable** when no call is left and
the paths are plain; and an expression that has a value before and behind the replacement has
nothing replaced, or no call left. -/
theorem interchangeable (r : Replacement) :
    (r.Unchanged ∨ (r.ReplacesAll ∧ r.Plain) → ∀ payload,
        evaluateExpression ops r.after payload = evaluateExpression ops r.before payload) ∧
      ∀ payload value, evaluateExpression ops r.before payload = .ok value →
        evaluateExpression ops r.after payload = .ok value → r.Unchanged ∨ r.ReplacesAll := by
  constructor
  · rintro (hsame | ⟨hall, hplain⟩) payload
    · rw [before_eq_after hsame]
    · by_cases hne : r.uses = []
      · have hsame : r.Unchanged := fun use huse => absurd (hne ▸ huse) List.not_mem_nil
        rw [before_eq_after hsame]
      · rw [evaluateExpression, evaluateExpression, normalizeExpression_after hall hplain,
          normalizeExpression_before hall.1 hne]
  · intro payload value hbefore hafter
    cases hleft : textContains "path(" r.after with
    | true =>
      -- what is a call behind the replacement was one before
      have hcalls := not_bare_of_value ops r.lexemes_head r.lexemes_behind r.resolves hleft hafter
      refine Or.inl fun use huse => ?_
      cases hbare : use.bareBefore with
      | true =>
        have hreplaced := r.replaces use huse hbare
        rw [hcalls use huse] at hreplaced
        cases hreplaced
      | false => exact (hcalls use huse).symm
    | false =>
      have hbares := bare_of_noCall hleft
      cases hcall : textContains "path(" r.before with
      | true =>
        exact Or.inr ⟨not_bare_of_value ops r.lexemes_head r.lexemes_behind r.resolves hcall
          hbefore, hleft⟩
      | false =>
        refine Or.inl fun use huse => ?_
        rw [bare_of_noCall hcall use huse, hbares use huse]

/-- A payload with two numbers. -/
def quotaPayload : Json := .obj [("left", .int 6), ("used", .int 2)]

theorem isSome_left : (extractJsonPath quotaPayload "$.left".toList).isSome = true := by
  decide +kernel

theorem isSome_used : (extractJsonPath quotaPayload "$.used".toList).isSome = true := by
  decide +kernel

/-- `path('$.left') / path('$.used')`, with some of the calls replaced. -/
def leftOverUsed (bareLeft bareUsed : Bool) : Replacement where
  head := []
  uses := [⟨"$.left".toList, false, bareLeft, " / ".toList⟩,
    ⟨"$.used".toList, false, bareUsed, []⟩]
  lexemes_head := .nil
  lexemes_behind := by
    intro use huse
    rcases List.mem_cons.1 huse with rfl | huse
    · exact lexemes_of_bare (s := " / ".toList) (by decide)
    · obtain rfl := List.mem_singleton.1 huse
      exact .nil
  resolves := by
    intro use huse
    rcases List.mem_cons.1 huse with rfl | huse
    · exact ⟨quotaPayload, isSome_left⟩
    · obtain rfl := List.mem_singleton.1 huse
      exact ⟨quotaPayload, isSome_used⟩
  replaces := by
    intro use huse
    rcases List.mem_cons.1 huse with rfl | huse
    · exact fun h => nomatch h
    · obtain rfl := List.mem_singleton.1 huse
      exact fun h => nomatch h
  delimited_before := ⟨fun h => (nomatch h), fun h => (nomatch h), trivial⟩
  delimited_after := by
    refine ⟨fun _ c hc => ?_, fun _ c hc => ?_, trivial⟩
    · obtain rfl := Option.some.inj hc
      decide
    · cases hc

theorem plain_leftOverUsed : (leftOverUsed true true).Plain := by
  have hchars : ∀ path : List Char,
      (path.all fun c => !endsReference c && decide (c ≠ '\\')) = true →
        ∀ c ∈ path, endsReference c = false ∧ c ≠ '\\' := by
    intro path h c hc
    simpa using List.all_eq_true.1 h c hc
  refine ⟨fun use huse => ?_, List.not_mem_nil, fun use huse => ?_⟩
  · rcases List.mem_cons.1 huse with rfl | huse
    · exact hchars _ (by decide)
    · obtain rfl := List.mem_singleton.1 huse
      exact hchars _ (by decide)
  · rcases List.mem_cons.1 huse with rfl | huse
    · decide
    · obtain rfl := List.mem_singleton.1 huse
      decide

theorem interchangeable_both :
    evaluateExpression Arithmetic.whole (leftOverUsed true true).after quotaPayload =
      evaluateExpression Arithmetic.whole (leftOverUsed true true).before quotaPayload :=
  (interchangeable Arithmetic.whole (leftOverUsed true true)).1
    (.inr ⟨⟨by decide, by decide +kernel⟩, plain_leftOverUsed⟩) quotaPayload

/-- With one of the two calls replaced the expression has no value. -/
theorem not_interchangeable_one :
    evaluateExpression Arithmetic.whole (leftOverUsed false true).before quotaPayload = .ok 3 ∧
      evaluateExpression Arithmetic.whole (leftOverUsed false true).after quotaPayload =
        .error "expected number at byte 17" ∧
      ¬ ∀ (r : Replacement) payload, evaluateExpression Arithmetic.whole r.after payload =
        evaluateExpression Arithmetic.whole r.before payload := by
  have hbefore : evaluateExpression Arithmetic.whole (leftOverUsed false true).before
      quotaPayload = .ok 3 := by decide +kernel
  have hafter : evaluateExpression Arithmetic.whole (leftOverUsed false true).after
      quotaPayload = .error "expected number at byte 17" := by decide +kernel
  refine ⟨hbefore, hafter, fun h => ?_⟩
  have hsame := h (leftOverUsed false true) quotaPayload
  rw [hbefore, hafter] at hsame
  cases hsame

end Replacement

end

end AiOpenRouter
