/-
Quota mappings that are written as bare strings.

A bare string is a path or an expression, and `is_expression_string` decides which of the two from
its characters. A minus does not count unless it is the first character, or has a space on both
sides.

* `bareString_iff`: an expression with an operator means the same as a bare string and under
  `expr` exactly when `isExpressionString` accepts it.
-/
import AiOpenRouter.AgentConfigs
import AiOpenRouter.QuotaExpressions
import AiOpenRouter.SseParsers

namespace AiOpenRouter

open Text

/-! ### Expressions -/

inductive ExprOperator where
  | plus
  | minus
  | times
  | slash

def ExprOperator.char : ExprOperator → Char
  | plus => '+'
  | minus => '-'
  | times => '*'
  | slash => '/'

/-- An arithmetic expression as it is written: its numbers and paths are texts, and its spaces are
kept. -/
inductive WrittenExpr where
  | number (digits : List Char)
  | path (reference : List Char)
  | signed (operator : ExprOperator) (spaces : List Char) (operand : WrittenExpr)
  | binary (left : WrittenExpr) (before : List Char) (operator : ExprOperator)
      (after : List Char) (right : WrittenExpr)
  | parens (before : List Char) (inner : WrittenExpr) (after : List Char)

namespace WrittenExpr

def text : WrittenExpr → List Char
  | number digits => digits
  | path reference => reference
  | signed operator spaces operand => operator.char :: (spaces ++ operand.text)
  | binary left before operator after right =>
    left.text ++ (before ++ operator.char :: (after ++ right.text))
  | parens before inner after => '(' :: (before ++ (inner.text ++ (after ++ [')'])))

/-- The operators of an expression, from left to right. -/
def operators : WrittenExpr → List ExprOperator
  | number _ => []
  | path _ => []
  | signed operator _ operand => operator :: operand.operators
  | binary left _ operator _ right => left.operators ++ operator :: right.operators
  | parens _ inner _ => inner.operators

theorem char_mem_text {expr : WrittenExpr} {operator : ExprOperator}
    (h : operator ∈ expr.operators) : operator.char ∈ expr.text := by
  induction expr with
  | number digits => cases h
  | path reference => cases h
  | signed operator' spaces operand ih =>
    rcases List.mem_cons.1 h with rfl | h
    · exact List.mem_cons_self
    · exact List.mem_cons_of_mem _ (List.mem_append_right _ (ih h))
  | binary left before operator' after right ihleft ihright =>
    rcases List.mem_append.1 h with h | h
    · exact List.mem_append_left _ (ihleft h)
    · rcases List.mem_cons.1 h with rfl | h
      · exact List.mem_append_right _ (List.mem_append_right _ List.mem_cons_self)
      · exact List.mem_append_right _ (List.mem_append_right _
          (List.mem_cons_of_mem _ (List.mem_append_right _ (ihright h))))
  | parens before inner after ih =>
    exact List.mem_cons_of_mem _ (List.mem_append_right _ (List.mem_append_left _ (ih h)))

end WrittenExpr

theorem ExprOperator.char_not_blank (operator : ExprOperator) :
    isWhitespace operator.char = false := by
  cases operator <;> decide

/-! ### Paths into nothing -/

theorem pathStep_null {c : Char} {rest : List Char} {next : Json × List Char}
    (h : pathStep .null c rest = some next) : isWhitespace c = true ∧ next = (.null, rest) := by
  have hkey : ∀ key, Json.null.getTrimmed key = none := fun _ => rfl
  have hindex : ∀ index, Json.null.getIndex index = none := fun _ => rfl
  have hquoted : ∀ quote inside, quotedStep .null quote inside = none := by
    intro quote inside
    simp only [quotedStep, hkey, Option.map_none]
    split <;> rfl
  have hindexed : ∀ rest, indexStep .null rest = none := by
    intro rest
    simp only [indexStep, hindex, Option.map_none]
    have hnone : ∀ found : Option ℕ, (found.bind fun _ => (none : Option (Json × List Char))) =
        none :=
      fun found => by cases found <;> rfl
    rw [hnone, ite_self]
    split <;> rfl
  simp only [pathStep, hkey, Option.map_none, ite_self] at h
  split_ifs at h with hblank
  · exact ⟨hblank, (Option.some.inj h).symm⟩
  · cases rest with
    | nil => cases h
    | cons quote inside =>
      dsimp only at h
      rw [hquoted, hindexed, ite_self] at h
      cases h

theorem followPath_null {fuel : ℕ} {path : List Char} {value : Json}
    (h : followPath fuel .null path = some value) : ∀ c ∈ path, isWhitespace c = true := by
  induction fuel generalizing path with
  | zero =>
    cases path with
    | nil => exact fun c hc => absurd hc List.not_mem_nil
    | cons c path => cases h
  | succ fuel ih =>
    cases path with
    | nil => exact fun c hc => absurd hc List.not_mem_nil
    | cons c path =>
      obtain ⟨next, hstep, hrest⟩ := Option.bind_eq_some_iff.1 h
      obtain ⟨hblank, rfl⟩ := pathStep_null hstep
      intro d hd
      rcases List.mem_cons.1 hd with rfl | hd
      · exact hblank
      · exact ih hrest d hd

variable {text : List Char}

theorem extractJsonPath_null {operator : ExprOperator} (h : operator.char ∈ text) :
    extractJsonPath .null text = none := by
  cases hfound : extractJsonPath .null text with
  | none => rfl
  | some value =>
    unfold extractJsonPath at hfound
    split at hfound
    · rename_i rest
      rcases List.mem_cons.1 h with hdollar | hmem
      · cases operator <;> exact absurd hdollar (by decide)
      · have hblank := followPath_null hfound operator.char hmem
        rw [operator.char_not_blank] at hblank
        cases hblank
    · cases hfound

/-! ### Bare strings -/

theorem mem_trim {c : Char} {s : List Char} (hc : c ∈ s) (hblank : isWhitespace c = false) :
    c ∈ trim s := by
  have hstart : c ∈ trimStart s := by
    rw [← List.takeWhile_append_dropWhile (p := isWhitespace) (l := s)] at hc
    rcases List.mem_append.1 hc with hbefore | hbehind
    · rw [List.mem_takeWhile_imp hbefore] at hblank
      cases hblank
    · exact hbehind
  have hreverse : c ∈ (trimStart s).reverse := List.mem_reverse.2 hstart
  rw [trim, trimEndMatches, List.mem_reverse]
  rw [← List.takeWhile_append_dropWhile (p := isWhitespace) (l := (trimStart s).reverse)]
    at hreverse
  rcases List.mem_append.1 hreverse with hbefore | hbehind
  · rw [List.mem_takeWhile_imp hbefore] at hblank
    cases hblank
  · exact hbehind

def bareMapping (text : List Char) : Json := .str (String.ofList text)

/-- A mapping object with the text as its expression. -/
def exprMapping (text : List Char) : Json := .obj [("expr", .str (String.ofList text))]

theorem parseMappingSpec_exprMapping (hne : trim text ≠ []) :
    parseMappingSpec (exprMapping text) = .expr (trim text) := by
  have hfield : mappingField [("expr", .str (String.ofList text))] "expr" = some (trim text) := by
    unfold mappingField
    rw [List.lookup_cons_self, Option.bind_some, Json.asStr, Option.map_some, String.toList_ofList,
      Option.filter_some, if_pos (decide_eq_true hne)]
  unfold parseMappingSpec exprMapping
  dsimp only
  rw [hfield]

theorem parseMappingSpec_bareMapping (hne : trim text ≠ []) :
    parseMappingSpec (bareMapping text) =
      if isExpressionString (trim text) then .expr (trim text) else .path (trim text) := by
  unfold parseMappingSpec bareMapping
  dsimp only
  rw [String.toList_ofList, if_neg (by rwa [List.isEmpty_iff])]

/-- **An expression with an operator means the same as a bare string and as the expression of a
mapping object, for every payload, exactly when `isExpressionString` accepts it.** -/
theorem bareString_iff {α : Type} (ops : Arithmetic α) (expr : WrittenExpr)
    (hoperators : expr.operators ≠ []) :
    (∀ payload, evaluateMappingNumber ops (bareMapping expr.text) payload =
        evaluateMappingNumber ops (exprMapping expr.text) payload) ↔
      isExpressionString (trim expr.text) = true := by
  obtain ⟨operator, hmem⟩ := List.exists_mem_of_ne_nil _ hoperators
  have htrim := mem_trim (WrittenExpr.char_mem_text hmem) operator.char_not_blank
  have hne : trim expr.text ≠ [] := List.ne_nil_of_mem htrim
  constructor
  · intro h
    by_contra hpath
    have hnull := h .null
    unfold evaluateMappingNumber at hnull
    rw [parseMappingSpec_exprMapping hne, parseMappingSpec_bareMapping hne, if_neg hpath] at hnull
    dsimp only at hnull
    rw [extractJsonPath_null htrim] at hnull
    -- an expression has a number or an error, and never nothing
    cases hvalue : evaluateExpression ops (trim expr.text) .null with
    | error message =>
      rw [hvalue] at hnull
      cases hnull
    | ok value =>
      rw [hvalue] at hnull
      cases hnull
  · intro hexpression payload
    unfold evaluateMappingNumber
    rw [parseMappingSpec_exprMapping hne, parseMappingSpec_bareMapping hne, if_pos hexpression]

/-- `$.total-$.used`, with spaces before and behind the minus. -/
def differenceExpr (before after : List Char) : WrittenExpr :=
  .binary (.path "$.total".toList) before .minus after (.path "$.used".toList)

/-- A payload with two numbers. -/
def totalPayload : Json := .obj [("total", .int 10), ("used", .int 4)]

theorem bareString_spaced :
    evaluateMappingNumber Arithmetic.whole (bareMapping (differenceExpr [' '] [' ']).text)
        totalPayload =
      evaluateMappingNumber Arithmetic.whole (exprMapping (differenceExpr [' '] [' ']).text)
        totalPayload :=
  (bareString_iff Arithmetic.whole (differenceExpr [' '] [' ']) (by simp [differenceExpr,
    WrittenExpr.operators])).2 (by decide +kernel) totalPayload

/-- A difference without spaces is read as a path that leads nowhere. -/
theorem not_bareString_unspaced :
    evaluateMappingNumber Arithmetic.whole (bareMapping (differenceExpr [] []).text)
        totalPayload = .ok none ∧
      evaluateMappingNumber Arithmetic.whole (exprMapping (differenceExpr [] []).text)
        totalPayload = .ok (some 6) ∧
      ¬ ∀ payload, evaluateMappingNumber Arithmetic.whole
          (bareMapping (differenceExpr [] []).text) payload =
        evaluateMappingNumber Arithmetic.whole
          (exprMapping (differenceExpr [] []).text) payload := by
  have hbare : evaluateMappingNumber Arithmetic.whole (bareMapping (differenceExpr [] []).text)
      totalPayload = .ok none := by decide +kernel
  have hexpr : evaluateMappingNumber Arithmetic.whole (exprMapping (differenceExpr [] []).text)
      totalPayload = .ok (some 6) := by decide +kernel
  refine ⟨hbare, hexpr, fun h => ?_⟩
  have hsame := h totalPayload
  rw [hbare, hexpr] at hsame
  cases hsame

end AiOpenRouter
