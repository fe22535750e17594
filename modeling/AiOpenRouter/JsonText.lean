/-
The compact text of a JSON value, its fields in the order they come.

This is what `serde_json` prints of a structure, whose hash maps it walks.  A
float is printed with a point or an exponent; any other text of a float, which
no number has, is printed as a string with a mark before it.

* `text_injective`: the text determines the value.
-/
import AiOpenRouter.JsonPrinting
import Mathlib.Data.List.TakeWhile
import Mathlib.Tactic.IntervalCases

namespace AiOpenRouter

/-! ### Numbers -/

def isNumberChar (c : Char) : Bool :=
  c.isDigit || c = '-' || c = '+' || c = '.' || c = 'e'

def isFloatText (text : String) : Bool :=
  text.toList.all isNumberChar && text.toList.any fun c => c = '.' || c = 'e'

def quoted (s : List Char) : List Char := '"' :: (s.flatMap Json.escapeChar ++ ['"'])

def JsonNumber.chars : JsonNumber → List Char
  | .int n => (toString n).toList
  | .float text => if isFloatText text then text.toList else '~' :: quoted text.toList

def NumberEnds (rest : List Char) : Prop := ∀ c ∈ rest.head?, isNumberChar c = false

variable {rest : List Char}

theorem takeWhile_isNumberChar {text : List Char} (htext : ∀ c ∈ text, isNumberChar c = true)
    (hrest : NumberEnds rest) : (text ++ rest).takeWhile isNumberChar = text := by
  rw [List.takeWhile_append_of_pos htext]
  cases rest with
  | nil => rw [List.takeWhile_nil, List.append_nil]
  | cons c rest =>
    rw [List.takeWhile_cons_of_neg (Bool.eq_false_iff.1 (hrest c rfl)), List.append_nil]

theorem number_append_inj {text text' rest' : List Char} (htext : ∀ c ∈ text, isNumberChar c = true)
    (htext' : ∀ c ∈ text', isNumberChar c = true) (hrest : NumberEnds rest)
    (hrest' : NumberEnds rest') (h : text ++ rest = text' ++ rest') :
    text = text' ∧ rest = rest' := by
  have heq : text = text' := by
    rw [← takeWhile_isNumberChar htext hrest, h, takeWhile_isNumberChar htext' hrest']
  subst heq
  exact ⟨rfl, List.append_cancel_left h⟩

/-! ### Integers -/

theorem toDigits_injective {n n' : ℕ} (h : Nat.toDigits 10 n = Nat.toDigits 10 n') : n = n' := by
  rw [← Nat.ofDigitChars_toDigits (n := n) (by decide : 1 < 10) (by decide), h,
    Nat.ofDigitChars_toDigits (by decide) (by decide)]

theorem int_injective {n n' : ℤ} (h : (toString n).toList = (toString n').toList) : n = n' := by
  have hsign : ∀ k k' : ℕ, Nat.toDigits 10 k ≠ '-' :: Nat.toDigits 10 (k' + 1) := by
    intro k k' heq
    have hmem : '-' ∈ Nat.toDigits 10 k := by
      rw [heq]
      exact List.mem_cons_self
    exact absurd (Nat.isDigit_of_mem_toDigits (by decide) (by decide) hmem) (by decide)
  cases n with
  | ofNat n =>
    rw [Int.ofNat_eq_natCast, toList_toString_ofNat] at h
    cases n' with
    | ofNat n' =>
      rw [Int.ofNat_eq_natCast, toList_toString_ofNat] at h
      rw [toDigits_injective h]
    | negSucc n' =>
      rw [toList_toString_negSucc] at h
      exact absurd h (hsign n n')
  | negSucc n =>
    rw [toList_toString_negSucc] at h
    cases n' with
    | ofNat n' =>
      rw [Int.ofNat_eq_natCast, toList_toString_ofNat] at h
      exact absurd h.symm (hsign n' n)
    | negSucc n' =>
      rw [toList_toString_negSucc] at h
      have hsucc := toDigits_injective (List.cons.inj h).2
      rw [Nat.succ.inj hsucc]

/-! ### Strings -/

def hexValue (c : Char) : ℕ := if c.isDigit then c.toNat - 48 else c.toNat - 87

def readEscape : List Char → Option (Char × List Char)
  | '"' :: rest => some ('"', rest)
  | '\\' :: rest => some ('\\', rest)
  | 'b' :: rest => some (Char.ofNat 8, rest)
  | 't' :: rest => some (Char.ofNat 9, rest)
  | 'n' :: rest => some (Char.ofNat 10, rest)
  | 'f' :: rest => some (Char.ofNat 12, rest)
  | 'r' :: rest => some (Char.ofNat 13, rest)
  | 'u' :: '0' :: '0' :: high :: low :: rest =>
    some (Char.ofNat (16 * hexValue high + hexValue low), rest)
  | _ => none

def readChar : List Char → Option (Char × List Char)
  | [] => none
  | c :: rest =>
    if c = '"' then none else if c = '\\' then readEscape rest else some (c, rest)

theorem hexValue_digitChar {n : ℕ} (h : n < 16) : hexValue (Nat.digitChar n) = n := by
  interval_cases n <;> rfl

/-- **An escaped character is read back.** -/
theorem readChar_escapeChar (c : Char) (rest : List Char) :
    readChar (Json.escapeChar c ++ rest) = some (c, rest) := by
  have hcode : Char.ofNat c.toNat = c := Char.ofNat_toNat c
  unfold Json.escapeChar
  split_ifs with hquote hbackslash hb ht hn hf hr hcontrol
  · rw [hquote]
    rfl
  · rw [hbackslash]
    rfl
  · rw [← hcode, hb]
    rfl
  · rw [← hcode, ht]
    rfl
  · rw [← hcode, hn]
    rfl
  · rw [← hcode, hf]
    rfl
  · rw [← hcode, hr]
    rfl
  · have hread : ∀ high low, readChar (['\\', 'u', '0', '0', high, low] ++ rest) =
        some (Char.ofNat (16 * hexValue high + hexValue low), rest) := fun _ _ => rfl
    rw [hread, hexValue_digitChar (by omega), hexValue_digitChar (by omega), Nat.div_add_mod, hcode]
  · rw [List.singleton_append, readChar, if_neg hquote, if_neg hbackslash]

theorem quoted_append_inj {s s' rest' : List Char} (h : quoted s ++ rest = quoted s' ++ rest') :
    s = s' ∧ rest = rest' := by
  have hclosed : ∀ s rest, quoted s ++ rest =
      '"' :: (s.flatMap Json.escapeChar ++ '"' :: rest) := by
    intro s rest
    rw [quoted, List.cons_append, List.append_assoc]
    rfl
  rw [hclosed, hclosed, List.cons.injEq] at h
  replace h := h.2
  induction s generalizing s' with
  | nil =>
    cases s' with
    | nil => exact ⟨rfl, (List.cons.inj h).2⟩
    | cons c' s' =>
      -- the closing quote is no character of the other one
      have hread := congrArg readChar h
      rw [List.flatMap_cons, List.append_assoc, readChar_escapeChar] at hread
      cases hread
  | cons c s ih =>
    cases s' with
    | nil =>
      have hread := congrArg readChar h
      rw [List.flatMap_cons, List.append_assoc, readChar_escapeChar] at hread
      cases hread
    | cons c' s' =>
      have hread := congrArg readChar h
      rw [List.flatMap_cons, List.flatMap_cons, List.append_assoc, List.append_assoc,
        readChar_escapeChar, readChar_escapeChar, Option.some_inj, Prod.mk.injEq] at hread
      obtain ⟨rfl, hrest⟩ := hread
      obtain ⟨rfl, htail⟩ := ih hrest
      exact ⟨rfl, htail⟩

/-! ### The text of a number -/

namespace JsonNumber

def IsPlain (n : JsonNumber) : Prop := n.chars ≠ [] ∧ ∀ c ∈ n.chars, isNumberChar c = true

theorem plain_or_marked (n : JsonNumber) :
    n.IsPlain ∨ ∃ text, n = .float text ∧ n.chars = '~' :: quoted text.toList := by
  cases n with
  | int n =>
    refine .inl ⟨fun hnil => ?_, fun c hmem => ?_⟩
    · have hdigits : ∀ k, Nat.toDigits 10 k ≠ [] := fun k => Nat.toDigits_ne_nil
      cases n with
      | ofNat n => exact hdigits n (by rwa [← toList_toString_ofNat])
      | negSucc n =>
        rw [chars, toList_toString_negSucc] at hnil
        cases hnil
    · unfold isNumberChar
      rcases isDigit_of_mem_int hmem with hdigit | rfl
      · rw [hdigit]
        rfl
      · rfl
  | float text =>
    by_cases hfloat : isFloatText text = true
    · have hchars : chars (.float text) = text.toList := if_pos hfloat
      rw [isFloatText, Bool.and_eq_true, List.all_eq_true, List.any_eq_true] at hfloat
      obtain ⟨hall, c, hmem, -⟩ := hfloat
      rw [IsPlain, hchars]
      exact .inl ⟨List.ne_nil_of_mem hmem, hall⟩
    · exact .inr ⟨text, rfl, if_neg hfloat⟩

variable {text : String}

theorem isFloatText_of_plain (h : (float text).IsPlain) : isFloatText text = true := by
  by_contra hfloat
  have hchars : chars (.float text) = '~' :: quoted text.toList := if_neg hfloat
  have hmark := h.2 '~' (hchars ▸ List.mem_cons_self)
  exact absurd hmark (by decide)

theorem chars_of_plain (h : (float text).IsPlain) :
    chars (.float text) = text.toList := if_pos (isFloatText_of_plain h)

theorem int_ne_float {n : ℤ} (h : (float text).IsPlain) : chars (.int n) ≠ chars (.float text) := by
  intro heq
  have hfloat := isFloatText_of_plain h
  rw [isFloatText, Bool.and_eq_true, List.any_eq_true] at hfloat
  obtain ⟨-, c, hmem, hc⟩ := hfloat
  rw [← chars_of_plain h, ← heq] at hmem
  rw [Bool.or_eq_true, decide_eq_true_eq, decide_eq_true_eq] at hc
  rcases isDigit_of_mem_int hmem with hdigit | rfl
  · rcases hc with rfl | rfl
    · exact absurd hdigit (by decide)
    · exact absurd hdigit (by decide)
  · exact absurd hc (by decide)

theorem eq_of_plain {n n' : JsonNumber} (h : n.IsPlain) (h' : n'.IsPlain)
    (heq : n.chars = n'.chars) : n = n' := by
  cases n with
  | int n =>
    cases n' with
    | int n' => rw [int_injective heq]
    | float text' => exact absurd heq (int_ne_float h')
  | float text =>
    cases n' with
    | int n' => exact absurd heq.symm (int_ne_float h)
    | float text' =>
      rw [chars_of_plain h, chars_of_plain h'] at heq
      rw [String.toList_injective heq]

theorem plain_append_ne {n : JsonNumber} (h : n.IsPlain) (rest marked : List Char) :
    n.chars ++ rest ≠ '~' :: marked := by
  intro heq
  obtain ⟨c, text, hchars⟩ := List.exists_cons_of_ne_nil h.1
  have hc := h.2 c (hchars ▸ List.mem_cons_self)
  rw [hchars, List.cons_append, List.cons.injEq] at heq
  rw [heq.1] at hc
  exact absurd hc (by decide)

/-- **A number is read as far as it goes, and determined by its text.** -/
theorem chars_append_inj {n n' : JsonNumber} {rest rest' : List Char}
    (hrest : NumberEnds rest) (hrest' : NumberEnds rest')
    (h : n.chars ++ rest = n'.chars ++ rest') : n = n' ∧ rest = rest' := by
  rcases plain_or_marked n with hplain | ⟨text, hn, hmarked⟩
  · rcases plain_or_marked n' with hplain' | ⟨text', -, hmarked'⟩
    · obtain ⟨hchars, hend⟩ := number_append_inj hplain.2 hplain'.2 hrest hrest' h
      exact ⟨eq_of_plain hplain hplain' hchars, hend⟩
    · rw [hmarked', List.cons_append] at h
      exact absurd h (plain_append_ne hplain rest _)
  · rcases plain_or_marked n' with hplain' | ⟨text', hn', hmarked'⟩
    · rw [hmarked, List.cons_append] at h
      exact absurd h.symm (plain_append_ne hplain' rest' _)
    · rw [hmarked, hmarked', List.cons_append, List.cons_append, List.cons.injEq] at h
      obtain ⟨htext, hend⟩ := quoted_append_inj h.2
      rw [hn, hn', String.toList_injective htext]
      exact ⟨rfl, hend⟩

end JsonNumber

/-! ### Values -/

namespace Json

mutual

/-- The text of a value. -/
def chars : Json → List Char
  | .null => ['n', 'u', 'l', 'l']
  | .bool true => ['t', 'r', 'u', 'e']
  | .bool false => ['f', 'a', 'l', 's', 'e']
  | .num n => n.chars
  | .str s => quoted s.toList
  | .arr items => '[' :: charsItems [] items
  | .obj fields => '\x7b' :: charsFields [] fields

def charsItems (separator : List Char) : List Json → List Char
  | [] => [']']
  | item :: items => separator ++ (item.chars ++ charsItems [','] items)

/-- The fields of an object, each behind a comma except the first, and the closing brace. -/
def charsFields (separator : List Char) : List (String × Json) → List Char
  | [] => ['\x7d']
  | (key, value) :: fields =>
    separator ++ (quoted key.toList ++ ':' :: (value.chars ++ charsFields [','] fields))

end

/-- The compact text of a value, its fields in the order they come. -/
def text (value : Json) : String := String.ofList value.chars

def kindOf : List Char → ℕ
  | 'n' :: _ => 0
  | 't' :: _ => 1
  | 'f' :: _ => 2
  | '"' :: _ => 3
  | '[' :: _ => 4
  | '\x7b' :: _ => 5
  | ']' :: _ => 6
  | '\x7d' :: _ => 6
  | _ => 7

/-- The kind of a value. -/
def kind : Json → ℕ
  | .null => 0
  | .bool true => 1
  | .bool false => 2
  | .str _ => 3
  | .arr _ => 4
  | .obj _ => 5
  | .num _ => 7

theorem kindOf_cons {c : Char} (h : isNumberChar c = true ∨ c = '~') (rest : List Char) :
    kindOf (c :: rest) = 7 := by
  unfold kindOf
  split
  all_goals first
    | rfl
    | rename_i heq
      rw [List.cons.injEq] at heq
      rw [heq.1] at h
      exact absurd h (by decide)

theorem kindOf_chars (value : Json) (rest : List Char) :
    kindOf (value.chars ++ rest) = value.kind := by
  cases value with
  | null => rfl
  | bool b => cases b <;> rfl
  | str s => rfl
  | arr items => rfl
  | obj fields => rfl
  | num n =>
    rw [chars]
    rcases n.plain_or_marked with hplain | ⟨text, -, hmarked⟩
    · obtain ⟨c, more, hchars⟩ := List.exists_cons_of_ne_nil hplain.1
      rw [hchars]
      exact kindOf_cons (.inl (hplain.2 c (hchars ▸ List.mem_cons_self))) _
    · rw [hmarked]
      exact kindOf_cons (.inr rfl) _

theorem numberEnds_items (items : List Json) (rest : List Char) :
    NumberEnds (charsItems [','] items ++ rest) := by
  cases items with
  | nil => exact fun c hc => by cases hc; rfl
  | cons item items => exact fun c hc => by cases hc; rfl

theorem numberEnds_fields (fields : List (String × Json)) (rest : List Char) :
    NumberEnds (charsFields [','] fields ++ rest) := by
  cases fields with
  | nil => exact fun c hc => by cases hc; rfl
  | cons field fields => exact fun c hc => by cases hc; rfl

theorem bracket_ne {separator : List Char} (hseparator : separator = [] ∨ separator = [','])
    (item : Json) (items : List Json) (rest rest' : List Char) :
    ']' :: rest ≠ charsItems separator (item :: items) ++ rest' := by
  intro h
  rcases hseparator with rfl | rfl
  · have hkind := congrArg kindOf h
    rw [charsItems, List.nil_append, List.append_assoc, kindOf_chars] at hkind
    have hbracket : kindOf (']' :: rest) = 6 := rfl
    rw [hbracket] at hkind
    cases item with
    | bool b => cases b <;> cases hkind
    | _ => cases hkind
  · cases h

theorem brace_ne {separator : List Char} (hseparator : separator = [] ∨ separator = [','])
    (field : String × Json) (fields : List (String × Json)) (rest rest' : List Char) :
    '\x7d' :: rest ≠ charsFields separator (field :: fields) ++ rest' := by
  rcases hseparator with rfl | rfl <;> exact fun h => nomatch h

/-- Two values of one kind: the same constant, or two of one constructor. -/
inductive SameKind : Json → Json → Prop
  | null : SameKind .null .null
  | bool (b : Bool) : SameKind (.bool b) (.bool b)
  | num (n n' : JsonNumber) : SameKind (.num n) (.num n')
  | str (s s' : String) : SameKind (.str s) (.str s')
  | arr (items items' : List Json) : SameKind (.arr items) (.arr items')
  | obj (fields fields' : List (String × Json)) : SameKind (.obj fields) (.obj fields')

theorem sameKind_of_kind_eq {value value' : Json} (h : value.kind = value'.kind) :
    SameKind value value' := by
  rcases value with _ | (_ | _) | n | s | items | fields <;>
    rcases value' with _ | (_ | _) | n' | s' | items' | fields' <;>
    first | constructor | cases h

theorem sameKind {value value' : Json} {rest rest' : List Char}
    (h : value.chars ++ rest = value'.chars ++ rest') : SameKind value value' := by
  refine sameKind_of_kind_eq ?_
  rw [← kindOf_chars value rest, h, kindOf_chars]

mutual

/-- **A value is read as far as it goes.** -/
theorem chars_append_inj : ∀ (value value' : Json) {rest rest' : List Char},
    NumberEnds rest → NumberEnds rest' → value.chars ++ rest = value'.chars ++ rest' →
      value = value' ∧ rest = rest'
  | .null, _, _, _, _, _, h => by
    cases sameKind h
    exact ⟨rfl, List.append_cancel_left h⟩
  | .bool b, _, _, _, _, _, h => by
    cases sameKind h
    exact ⟨rfl, List.append_cancel_left h⟩
  | .num n, _, _, _, hrest, hrest', h => by
    cases sameKind h
    obtain ⟨rfl, hend⟩ := JsonNumber.chars_append_inj hrest hrest' h
    exact ⟨rfl, hend⟩
  | .str s, _, _, _, _, _, h => by
    cases sameKind h
    obtain ⟨hs, hend⟩ := quoted_append_inj h
    rw [String.toList_injective hs]
    exact ⟨rfl, hend⟩
  | .arr items, _, _, _, _, _, h => by
    cases sameKind h with
    | arr _ items' =>
      obtain ⟨rfl, hend⟩ := charsItems_append_inj items items' (.inl rfl) (List.cons.inj h).2
      exact ⟨rfl, hend⟩
  | .obj fields, _, _, _, _, _, h => by
    cases sameKind h with
    | obj _ fields' =>
      obtain ⟨rfl, hend⟩ := charsFields_append_inj fields fields' (.inl rfl) (List.cons.inj h).2
      exact ⟨rfl, hend⟩

theorem charsItems_append_inj : ∀ (items items' : List Json) {separator rest rest' : List Char},
    separator = [] ∨ separator = [','] →
      charsItems separator items ++ rest = charsItems separator items' ++ rest' →
        items = items' ∧ rest = rest'
  | [], [], _, _, _, _, h => ⟨rfl, (List.cons.inj h).2⟩
  | [], item' :: items', _, rest, rest', hseparator, h =>
    absurd h (bracket_ne hseparator item' items' rest rest')
  | item :: items, [], _, rest, rest', hseparator, h =>
    absurd h.symm (bracket_ne hseparator item items rest' rest)
  | item :: items, item' :: items', separator, rest, rest', hseparator, h => by
    rw [charsItems, charsItems, List.append_assoc, List.append_assoc, List.append_assoc,
      List.append_assoc] at h
    obtain ⟨rfl, hrest⟩ := chars_append_inj item item' (numberEnds_items items rest)
      (numberEnds_items items' rest') (List.append_cancel_left h)
    obtain ⟨rfl, hend⟩ := charsItems_append_inj items items' (.inr rfl) hrest
    exact ⟨rfl, hend⟩

theorem charsFields_append_inj : ∀ (fields fields' : List (String × Json))
    {separator rest rest' : List Char}, separator = [] ∨ separator = [','] →
      charsFields separator fields ++ rest = charsFields separator fields' ++ rest' →
        fields = fields' ∧ rest = rest'
  | [], [], _, _, _, _, h => ⟨rfl, (List.cons.inj h).2⟩
  | [], field' :: fields', _, rest, rest', hseparator, h =>
    absurd h (brace_ne hseparator field' fields' rest rest')
  | field :: fields, [], _, rest, rest', hseparator, h =>
    absurd h.symm (brace_ne hseparator field fields rest' rest)
  | (key, value) :: fields, (key', value') :: fields', separator, rest, rest', hseparator, h => by
    rw [charsFields, charsFields, List.append_assoc, List.append_assoc, List.append_assoc,
      List.append_assoc] at h
    obtain ⟨hkey, hvalue⟩ := quoted_append_inj (List.append_cancel_left h)
    rw [List.cons_append, List.cons_append, List.cons.injEq, List.append_assoc,
      List.append_assoc] at hvalue
    obtain ⟨rfl, hrest⟩ := chars_append_inj value value' (numberEnds_fields fields rest)
      (numberEnds_fields fields' rest') hvalue.2
    obtain ⟨rfl, hend⟩ := charsFields_append_inj fields fields' (.inr rfl) hrest
    rw [String.toList_injective hkey]
    exact ⟨rfl, hend⟩

end

/-- **The text determines the value.** -/
theorem text_injective : Function.Injective text := by
  intro value value' h
  have hchars := congrArg String.toList h
  rw [text, text, String.toList_ofList, String.toList_ofList] at hchars
  refine (@chars_append_inj value value' [] [] ?_ ?_ ?_).1
  · exact fun c hc => nomatch hc
  · exact fun c hc => nomatch hc
  · rw [List.append_nil, List.append_nil, hchars]

end Json

end AiOpenRouter
