/-
The grammar of quota expressions (`quota/parser.rs`).

`evaluate_expression` computes while it reads. Here are the trees of arithmetic with their values
(`ExprTree.value`), and the texts that spell a tree (`Spelled`): products bind tighter than sums,
signs tighter than products, equal operators associate to the left, and spaces may stand between any
two tokens.

References are a parameter of the grammar. They are calls of the path function (`CallReference`) or
inline (`InlineReference`), and `Written` says which of the two an expression is read with.
-/
import AiOpenRouter.PathReferences

namespace AiOpenRouter

open Text

/-! ### Trees -/

inductive ExprTree where
  | number (digits : List Char)
  | reference (path : List Char)
  | positive (operand : ExprTree)
  | negative (operand : ExprTree)
  | binary (left : ExprTree) (operator : ExprOperator) (right : ExprTree)

section

variable {α : Type} (ops : Arithmetic α) (payload : Json)

def ExprOperator.compute (left right : α) : ExprOperator → Except ExprError α
  | plus => .ok (ops.add left right)
  | minus => .ok (ops.sub left right)
  | times => .ok (ops.mul left right)
  | slash => if ops.isTiny right then .error .divisionByZero else .ok (ops.div left right)

/-- The value of a tree. It has none when a reference is not numeric or a divisor is near zero. -/
def ExprTree.value : ExprTree → Except ExprError α
  | number digits =>
    match ops.parse (String.ofList digits) with
    | some value => .ok value
    | none => .error (.invalidNumber digits)
  | reference path =>
    match (extractJsonPath payload path).bind (valueToF64 ops) with
    | some value => .ok value
    | none => .error (.notNumeric path)
  | positive operand => operand.value
  | negative operand => operand.value.map ops.neg
  | binary left operator right =>
    left.value >>= fun l => right.value >>= fun r => operator.compute ops l r

/-- A tree has a value unless a reference is not numeric or a divisor is near zero. -/
def ExprTree.HasValue : ExprTree → Prop
  | number _ => True
  | reference path => ((extractJsonPath payload path).bind (valueToF64 ops)).isSome = true
  | positive operand => operand.HasValue
  | negative operand => operand.HasValue
  | binary left operator right =>
    left.HasValue ∧ right.HasValue ∧ (operator = .slash →
      ∀ divisor, right.value ops payload = .ok divisor → ops.isTiny divisor = false)

/-- What an evaluation makes of a tree. -/
def ExprTree.outcome (tree : ExprTree) : Except String α :=
  (tree.value ops payload >>= fun value =>
    if ops.isFinite value then .ok value else .error .notFinite).mapError ExprError.text

end

/-! ### Texts of a tree -/

inductive ExprLevel where
  | primary
  | unary
  | product
  | sum

def ExprOperator.level : ExprOperator → ExprLevel
  | plus | minus => .sum
  | times | slash => .product

def ExprOperator.operandLevel : ExprOperator → ExprLevel
  | plus | minus => .product
  | times | slash => .unary

def IsSpace (s : List Char) : Prop := s.all isWhitespace = true

variable {s : List Char}

theorem IsSpace.append {t : List Char} (hs : IsSpace s) (ht : IsSpace t) : IsSpace (s ++ t) := by
  rw [IsSpace, List.all_append, hs, ht, Bool.and_self]

theorem IsSpace.not_mem {space : List Char} (h : IsSpace space) {c : Char}
    (hc : isWhitespace c = false) : c ∉ space := fun hmem => by
  rw [List.all_eq_true.1 h c hmem] at hc
  cases hc

def IsNumeral (s : List Char) : Prop :=
  ∃ whole fraction, whole.all Char.isDigit = true ∧ fraction.all Char.isDigit = true ∧
    whole ++ fraction ≠ [] ∧ ((s = whole ∧ fraction = []) ∨ s = whole ++ '.' :: fraction)

theorem IsNumeral.all (h : IsNumeral s) : (s.all fun c => c.isDigit || c = '.') = true := by
  obtain ⟨whole, fraction, hwhole, hfraction, -, hs⟩ := h
  have hmem : ∀ s : List Char, s.all Char.isDigit = true →
      (s.all fun c => c.isDigit || c = '.') = true := fun s hs =>
    List.all_eq_true.2 fun c hc => by rw [List.all_eq_true.1 hs c hc, Bool.true_or]
  rcases hs with ⟨rfl, -⟩ | rfl
  · exact hmem _ hwhole
  · rw [List.all_append, List.all_cons, hmem _ hwhole, hmem _ hfraction]
    rfl

theorem IsNumeral.exists_cons (h : IsNumeral s) :
    ∃ c tail, s = c :: tail ∧ (c.isDigit || c = '.') = true := by
  have hall := h.all
  obtain ⟨whole, fraction, -, -, hne, hs⟩ := h
  have hs' : s ≠ [] := by
    rcases hs with ⟨rfl, rfl⟩ | rfl
    · rwa [List.append_nil] at hne
    · exact List.append_ne_nil_of_right_ne_nil _ (List.cons_ne_nil _ _)
  obtain ⟨c, tail, rfl⟩ := List.exists_cons_of_ne_nil hs'
  rw [List.all_cons, Bool.and_eq_true] at hall
  exact ⟨c, tail, rfl, hall.1⟩

theorem IsNumeral.not_mem (h : IsNumeral s) {c : Char} (hc : (c.isDigit || c = '.') = false) :
    c ∉ s := fun hmem => by
  rw [List.all_eq_true.1 h.all c hmem] at hc
  cases hc

/-- The texts that spell a tree at a level, where `refs` are the texts of references with their
paths. -/
inductive Spelled (refs : List Char → List Char → Prop) : ExprLevel → List Char → ExprTree → Prop
  | number {space digits : List Char} : IsSpace space → IsNumeral digits →
      Spelled refs .primary (space ++ digits) (.number digits)
  | reference {space s path : List Char} : IsSpace space → refs s path →
      Spelled refs .primary (space ++ s) (.reference path)
  | parens {space s space' : List Char} {tree : ExprTree} : IsSpace space → IsSpace space' →
      Spelled refs .sum s tree →
      Spelled refs .primary (space ++ '(' :: (s ++ (space' ++ [')']))) tree
  | ofPrimary {s : List Char} {tree : ExprTree} : Spelled refs .primary s tree →
      Spelled refs .unary s tree
  | positive {space s : List Char} {tree : ExprTree} : IsSpace space → Spelled refs .unary s tree →
      Spelled refs .unary (space ++ '+' :: s) (.positive tree)
  | negative {space s : List Char} {tree : ExprTree} : IsSpace space → Spelled refs .unary s tree →
      Spelled refs .unary (space ++ '-' :: s) (.negative tree)
  | ofUnary {s : List Char} {tree : ExprTree} : Spelled refs .unary s tree →
      Spelled refs .product s tree
  | ofProduct {s : List Char} {tree : ExprTree} : Spelled refs .product s tree →
      Spelled refs .sum s tree
  | binary {s space s' : List Char} {level operandLevel : ExprLevel} {left right : ExprTree}
      (operator : ExprOperator) : operator.level = level → operator.operandLevel = operandLevel →
      IsSpace space → Spelled refs level s left → Spelled refs operandLevel s' right →
      Spelled refs level (s ++ (space ++ operator.char :: s')) (.binary left operator right)

/-- A whole text that spells a tree. -/
def SpelledText (refs : List Char → List Char → Prop) (text : List Char) (tree : ExprTree) : Prop :=
  ∃ s space, IsSpace space ∧ Spelled refs .sum s tree ∧ text = s ++ space

def unescape : List Char → List Char
  | [] => []
  | [c] => [c]
  | c :: d :: rest => if c = '\\' then d :: unescape rest else c :: unescape (d :: rest)

/-- A call of the path function, and its path. -/
inductive CallReference : List Char → List Char → Prop
  | mk {space space' space'' body : List Char} (quote : Char) : IsSpace space → IsSpace space' →
      IsSpace space'' → (quote = '\'' ∨ quote = '"') → LiteralBody quote body →
      CallReference
        ("path".toList ++ (space ++ '(' :: (space' ++ quote :: (body ++ quote ::
          (space'' ++ [')'])))))
        (unescape body)

inductive InlineReference : List Char → List Char → Prop
  | mk {token : List Char} : (∀ c ∈ token, endsReference c = false) →
      InlineReference ('$' :: token) ('$' :: token)

def EitherReference (s path : List Char) : Prop := CallReference s path ∨ InlineReference s path

/-- How an expression is written as it is read: with calls when one has no space behind its name or
there is no `$` to take for an inline reference, and else with inline references that have no
backslashes. -/
def Written (text : List Char) (tree : ExprTree) : Prop :=
  ((textContains "path(" text = true ∨ '$' ∉ text) ∧ SpelledText CallReference text tree) ∨
    (textContains "path(" text = false ∧ '\\' ∉ text ∧ SpelledText InlineReference text tree)

theorem Spelled.mono {refs refs' : List Char → List Char → Prop}
    (h : ∀ s path, refs s path → refs' s path) {level : ExprLevel} {tree : ExprTree}
    (hs : Spelled refs level s tree) : Spelled refs' level s tree := by
  induction hs with
  | number hspace hdigits => exact .number hspace hdigits
  | reference hspace hs => exact .reference hspace (h _ _ hs)
  | parens hspace hspace' _ ih => exact .parens hspace hspace' ih
  | ofPrimary _ ih => exact .ofPrimary ih
  | positive hspace _ ih => exact .positive hspace ih
  | negative hspace _ ih => exact .negative hspace ih
  | ofUnary _ ih => exact .ofUnary ih
  | ofProduct _ ih => exact .ofProduct ih
  | binary operator hlevel hoperand hspace _ _ ih ih' =>
    exact .binary operator hlevel hoperand hspace ih ih'

theorem Spelled.space {refs : List Char → List Char → Prop} {space s : List Char} {tree : ExprTree}
    (hspace : IsSpace space) (h : Spelled refs .primary s tree) :
    Spelled refs .primary (space ++ s) tree := by
  cases h with
  | number hspace' hdigits =>
    rw [← List.append_assoc]
    exact .number (hspace.append hspace') hdigits
  | reference hspace' hs =>
    rw [← List.append_assoc]
    exact .reference (hspace.append hspace') hs
  | parens hspace' hspace'' hs =>
    rw [← List.append_assoc]
    exact .parens (hspace.append hspace') hspace'' hs
  | binary operator hlevel _ _ _ _ => cases operator <;> cases hlevel

end AiOpenRouter
