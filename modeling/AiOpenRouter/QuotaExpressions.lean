/-
The quota mappings of a provider and their expressions (`quota/parser.rs`).

A mapping is a path into the payload of the quota query, an expression over such paths, or a value.
The numbers are `f64`, which the model takes as a type with operations (`Arithmetic`): nothing here
depends on how they compute. The parser is a recursive descent over the rest of the text, and
`fuel` stands for the depth of its calls.

* `parses_all`: what the parser reads are lexemes, and the fuel of an evaluation is enough for it
  (`parseAddSub_fed`).
-/
import AiOpenRouter.Json
import AiOpenRouter.Sse
import Mathlib.Data.List.DropRight
import Mathlib.Data.List.Infix

namespace AiOpenRouter

open Text

/-! ### Numbers -/

/-- The operations on `f64` that an evaluation uses. -/
structure Arithmetic (α : Type) where
  /-- `str::parse::<f64>`. -/
  parse : String → Option α
  /-- `Number::as_f64`. -/
  ofNumber : JsonNumber → α
  add : α → α → α
  sub : α → α → α
  mul : α → α → α
  div : α → α → α
  neg : α → α
  /-- `abs() < f64::EPSILON`. -/
  isTiny : α → Bool
  isFinite : α → Bool
  /-- `format!("{}")`. -/
  print : α → String

/-- `value_to_f64`. -/
def valueToF64 {α : Type} (ops : Arithmetic α) (value : Json) : Option α :=
  match value with
  | .num number => some (ops.ofNumber number)
  | .str text =>
    let trimmed := trim text.toList
    if trimmed.isEmpty then none
    else
      let strippedPercent := trim (trimEndMatches (· = '%') trimmed)
      ops.parse (String.ofList (strippedPercent.filter (· ≠ ',')))
  | _ => none

/-! ### Paths -/

/-- `Value::get` with an index. -/
def Json.getIndex : Json → ℕ → Option Json
  | .arr items, index => items[index]?
  | _, _ => none

/-- `current.get(key.trim())`. -/
def Json.getTrimmed (current : Json) (key : List Char) : Option Json :=
  current.get (String.ofList (trim key))

/-- The number that the digits of an index spell, when it is a `usize`. -/
def readIndex (digits : List Char) : Option ℕ :=
  ((String.ofList digits).toNat?).filter (· < 18446744073709551616)

def quotedStep (current : Json) (quote : Char) (inside : List Char) : Option (Json × List Char) :=
  let key := inside.takeWhile (· ≠ quote)
  match inside.drop key.length with
  | _ :: ']' :: behind => (current.getTrimmed key).map fun value => (value, behind)
  | _ => none

def indexStep (current : Json) (rest : List Char) : Option (Json × List Char) :=
  let digits := rest.takeWhile Char.isDigit
  match rest.drop digits.length with
  | ']' :: behind =>
    if digits.isEmpty then none
    else (readIndex digits).bind fun index =>
      (current.getIndex index).map fun value => (value, behind)
  | _ => none

def pathStep (current : Json) (c : Char) (rest : List Char) : Option (Json × List Char) :=
  if isWhitespace c then some (current, rest)
  else if c = '.' then
    let key := rest.takeWhile fun c => c ≠ '.' && c ≠ '['
    if key.isEmpty then none
    else (current.getTrimmed key).map fun value => (value, rest.drop key.length)
  else if c = '[' then
    match rest with
    | [] => none
    | quote :: inside =>
      if quote = '\'' ∨ quote = '"' then quotedStep current quote inside
      else indexStep current rest
  else none

/-- The loop of `extract_json_path`. -/
def followPath : ℕ → Json → List Char → Option Json
  | _, current, [] => some current
  | 0, _, _ :: _ => none
  | fuel + 1, current, c :: rest =>
    (pathStep current c rest).bind fun next => followPath fuel next.1 next.2

/-- `extract_json_path`. Every part of a path takes a character at least. -/
def extractJsonPath (root : Json) (path : List Char) : Option Json :=
  match path with
  | '$' :: rest => followPath rest.length root rest
  | _ => none

/-! ### Errors -/

inductive ExprError where
  | unexpectedToken (byte : ℕ)
  | notFinite
  | divisionByZero
  | missingClosing
  | missingOpeningAfterPath
  | missingClosingAfterPath
  | notNumeric (path : List Char)
  | expectedNumber (byte : ℕ)
  | invalidNumber (raw : List Char)
  | expectedString
  | invalidEscape
  | unterminatedString
  /-- No error of the source: the model ran out of fuel. -/
  | outOfFuel
  deriving DecidableEq

def ExprError.text : ExprError → String
  | unexpectedToken byte => "unexpected token near byte " ++ toString byte ++ " in expression"
  | notFinite => "expression result is not finite"
  | divisionByZero => "division by zero in expression"
  | missingClosing => "missing closing ')' in expression"
  | missingOpeningAfterPath => "missing '(' after path function"
  | missingClosingAfterPath => "missing ')' after path function"
  | notNumeric path => "path value is not numeric: " ++ String.ofList path
  | expectedNumber byte => "expected number at byte " ++ toString byte
  | invalidNumber raw => "invalid number in expression: " ++ String.ofList raw
  | expectedString => "expected quoted string in expression"
  | invalidEscape => "invalid escape in expression string"
  | unterminatedString => "unterminated string literal in expression"
  | outOfFuel => ""

/-! ### The parser -/

/-- A position in a text: the bytes before it, and the text behind it. -/
structure Cursor where
  pos : ℕ
  rest : List Char

/-- `skip_whitespace`. -/
def skipWhitespace (pos : ℕ) : List Char → Cursor
  | [] => ⟨pos, []⟩
  | c :: rest => if isWhitespace c then skipWhitespace (pos + c.utf8Size) rest else ⟨pos, c :: rest⟩

def Cursor.skip (cursor : Cursor) : Cursor := skipWhitespace cursor.pos cursor.rest

def utf8Length (s : List Char) : ℕ := (s.map Char.utf8Size).foldl (· + ·) 0

/-- `parse_string_literal` behind the opening quote. -/
def parseQuoted (quote : Char) (pos : ℕ) : List Char → Except ExprError (List Char × Cursor)
  | [] => .error .unterminatedString
  | [c] =>
    if c = quote then .ok ([], ⟨pos + c.utf8Size, []⟩)
    else if c = '\\' then .error .invalidEscape
    else .error .unterminatedString
  | c :: d :: rest =>
    if c = quote then .ok ([], ⟨pos + c.utf8Size, d :: rest⟩)
    else if c = '\\' then
      (parseQuoted quote (pos + c.utf8Size + d.utf8Size) rest).map fun parsed =>
        (d :: parsed.1, parsed.2)
    else (parseQuoted quote (pos + c.utf8Size) (d :: rest)).map fun parsed =>
        (c :: parsed.1, parsed.2)

/-- `parse_string_literal`. -/
def parseStringLiteral (cursor : Cursor) : Except ExprError (List Char × Cursor) :=
  match cursor.rest with
  | [] => .error .expectedString
  | quote :: rest =>
    if quote = '\'' ∨ quote = '"' then parseQuoted quote (cursor.pos + quote.utf8Size) rest
    else .error .expectedString

section

variable {α : Type} (ops : Arithmetic α) (payload : Json)

/-- `parse_number`. -/
def parseNumber (cursor : Cursor) : Except ExprError (α × Cursor) :=
  let cursor := cursor.skip
  let raw := cursor.rest.takeWhile fun c => c.isDigit || c = '.'
  if raw.isEmpty then .error (.expectedNumber cursor.pos)
  else
    match ops.parse (String.ofList raw) with
    | some value => .ok (value, ⟨cursor.pos + utf8Length raw, cursor.rest.drop raw.length⟩)
    | none => .error (.invalidNumber raw)

def parsePathCall (cursor : Cursor) : Except ExprError (α × Cursor) := do
  let cursor := cursor.skip
  match cursor.rest with
  | '(' :: rest =>
    let (path, cursor) ← parseStringLiteral (Cursor.skip ⟨cursor.pos + 1, rest⟩)
    let cursor := cursor.skip
    match cursor.rest with
    | ')' :: rest =>
      match (extractJsonPath payload path).bind (valueToF64 ops) with
      | some value => .ok (value, ⟨cursor.pos + 1, rest⟩)
      | none => .error (.notNumeric path)
    | _ => .error .missingClosingAfterPath
  | _ => .error .missingOpeningAfterPath

mutual

/-- `parse_add_sub`. -/
def parseAddSub : ℕ → Cursor → Except ExprError (α × Cursor)
  | 0, _ => .error .outOfFuel
  | fuel + 1, cursor => do
    let (value, cursor) ← parseMulDiv fuel cursor
    addSubLoop fuel value cursor

/-- The loop of `parse_add_sub`. -/
def addSubLoop : ℕ → α → Cursor → Except ExprError (α × Cursor)
  | 0, _, _ => .error .outOfFuel
  | fuel + 1, value, cursor =>
    let cursor := cursor.skip
    match cursor.rest with
    | '+' :: rest => do
      let (right, cursor) ← parseMulDiv fuel ⟨cursor.pos + 1, rest⟩
      addSubLoop fuel (ops.add value right) cursor
    | '-' :: rest => do
      let (right, cursor) ← parseMulDiv fuel ⟨cursor.pos + 1, rest⟩
      addSubLoop fuel (ops.sub value right) cursor
    | _ => .ok (value, cursor)

/-- `parse_mul_div`. -/
def parseMulDiv : ℕ → Cursor → Except ExprError (α × Cursor)
  | 0, _ => .error .outOfFuel
  | fuel + 1, cursor => do
    let (value, cursor) ← parseUnary fuel cursor
    mulDivLoop fuel value cursor

/-- The loop of `parse_mul_div`. -/
def mulDivLoop : ℕ → α → Cursor → Except ExprError (α × Cursor)
  | 0, _, _ => .error .outOfFuel
  | fuel + 1, value, cursor =>
    let cursor := cursor.skip
    match cursor.rest with
    | '*' :: rest => do
      let (right, cursor) ← parseUnary fuel ⟨cursor.pos + 1, rest⟩
      mulDivLoop fuel (ops.mul value right) cursor
    | '/' :: rest => do
      let (divisor, cursor) ← parseUnary fuel ⟨cursor.pos + 1, rest⟩
      if ops.isTiny divisor then .error .divisionByZero
      else mulDivLoop fuel (ops.div value divisor) cursor
    | _ => .ok (value, cursor)

/-- `parse_unary`. -/
def parseUnary : ℕ → Cursor → Except ExprError (α × Cursor)
  | 0, _ => .error .outOfFuel
  | fuel + 1, cursor =>
    let cursor := cursor.skip
    match cursor.rest with
    | '-' :: rest => do
      let (value, cursor) ← parseUnary fuel ⟨cursor.pos + 1, rest⟩
      .ok (ops.neg value, cursor)
    | '+' :: rest => parseUnary fuel ⟨cursor.pos + 1, rest⟩
    | _ => parsePrimary fuel cursor

/-- `parse_primary`. -/
def parsePrimary : ℕ → Cursor → Except ExprError (α × Cursor)
  | 0, _ => .error .outOfFuel
  | fuel + 1, cursor =>
    let cursor := cursor.skip
    match cursor.rest with
    | '(' :: rest => do
      let (value, cursor) ← parseAddSub fuel ⟨cursor.pos + 1, rest⟩
      let cursor := cursor.skip
      match cursor.rest with
      | ')' :: rest => .ok (value, ⟨cursor.pos + 1, rest⟩)
      | _ => .error .missingClosing
    | 'p' :: 'a' :: 't' :: 'h' :: rest => parsePathCall ops payload ⟨cursor.pos + 4, rest⟩
    | _ => parseNumber ops cursor

end

end

/-! ### Evaluation -/

/-- `matches!(current, '+' | '-' | '*' | '/' | '(' | ')')`. -/
def isExprOperator (c : Char) : Bool :=
  c = '+' || c = '-' || c = '*' || c = '/' || c = '(' || c = ')'

def endsReference (c : Char) : Bool := isWhitespace c || isExprOperator c

/-- `token.replace('\'', "\\'")`. -/
def escapeQuotes (token : List Char) : List Char :=
  token.flatMap fun c => if c = '\'' then ['\\', '\''] else [c]

/-- `path('` ... `')`. -/
def pathCallText (literal : List Char) : List Char :=
  "path('".toList ++ (literal ++ "')".toList)

/-- The loop of `normalize_expression`. The second argument is the token that is read, when the loop
is in one. -/
def normalizeLoop : List Char → Option (List Char) → List Char
  | [], none => []
  | [], some token => pathCallText (escapeQuotes token)
  | c :: rest, none => if c = '$' then normalizeLoop rest (some ['$'])
    else c :: normalizeLoop rest none
  | c :: rest, some token =>
    if endsReference c then pathCallText (escapeQuotes token) ++ c :: normalizeLoop rest none
    else normalizeLoop rest (some (token ++ [c]))

/-- `text.contains(pattern)`. -/
def textContains (pattern : String) (text : List Char) : Bool :=
  decide (pattern.toList <:+: text)

/-- `normalize_expression`. -/
def normalizeExpression (raw : List Char) : List Char :=
  if textContains "path(" raw then raw else normalizeLoop raw none

def exprFuel (text : List Char) : ℕ := 4 * text.length + 4

section

variable {α : Type} (ops : Arithmetic α)

/-- `evaluate_expression`, with its error as a value. -/
def evaluateNormalized (payload : Json) (normalized : List Char) : Except ExprError α := do
  let (result, cursor) ← parseAddSub ops payload (exprFuel normalized) ⟨0, normalized⟩
  let cursor := cursor.skip
  if !cursor.rest.isEmpty then .error (.unexpectedToken cursor.pos)
  else if !ops.isFinite result then .error .notFinite
  else .ok result

/-- `evaluate_expression`. -/
def evaluateExpression (expression : List Char) (payload : Json) : Except String α :=
  (evaluateNormalized ops payload (normalizeExpression expression)).mapError ExprError.text

end

/-! ### Mappings -/

/-- `MappingSpec`. -/
inductive MappingSpec where
  | empty
  | path (path : List Char)
  | expr (expr : List Char)
  | literal (value : Json)

/-- `is_expression_string`. -/
def isExpressionString (source : List Char) : Bool :=
  textContains "path(" source ||
    (source.contains '+' || source.contains '*' || source.contains '/' || source.contains '(' ||
      source.contains ')' || source.head? = some '-' || textContains " - " source)

def mappingField (fields : List (String × Json)) (key : String) : Option (List Char) :=
  (((fields.lookup key).bind Json.asStr).map fun text => trim text.toList).filter (· ≠ [])

/-- `parse_mapping_spec`. -/
def parseMappingSpec (source : Json) : MappingSpec :=
  match source with
  | .null => .empty
  | .str raw =>
    let trimmed := trim raw.toList
    if trimmed.isEmpty then .empty
    else if isExpressionString trimmed then .expr trimmed
    else .path trimmed
  | .obj fields =>
    match mappingField fields "expr" with
    | some expr => .expr expr
    | none =>
      match mappingField fields "path" with
      | some path => .path path
      | none =>
        match fields.lookup "value" with
        | some value => .literal value
        | none => .empty
  | .num _ | .bool _ => .literal source
  | .arr _ => .empty

/-- `value_to_string`. -/
def valueToString (printNumber : JsonNumber → String) (value : Json) : Option String :=
  match value with
  | .null => none
  | .str text => some text
  | .num number => some (printNumber number)
  | .bool flag => some (toString flag)
  | _ => none

section

variable {α : Type} (ops : Arithmetic α)

/-- `evaluate_mapping_number`. -/
def evaluateMappingNumber (source payload : Json) : Except String (Option α) :=
  match parseMappingSpec source with
  | .empty => .ok none
  | .path path => .ok ((extractJsonPath payload path).bind (valueToF64 ops))
  | .expr expr => (evaluateExpression ops expr payload).map some
  | .literal value => .ok (valueToF64 ops value)

end

/-! ### What a parse reads -/

inductive LiteralBody (quote : Char) : List Char → Prop
  | nil : LiteralBody quote []
  | escaped {c : Char} {s : List Char} : quote ≠ '\\' → LiteralBody quote s →
      LiteralBody quote ('\\' :: c :: s)
  | plain {c : Char} {s : List Char} : c ≠ quote → c ≠ '\\' → LiteralBody quote s →
      LiteralBody quote (c :: s)

def isBare (c : Char) : Bool := c ≠ '$' && c ≠ '\'' && c ≠ '"'

/-- What the parser can read: literals, and other characters than `$`. -/
inductive Lexemes : List Char → Prop
  | nil : Lexemes []
  | bare {c : Char} {s : List Char} : isBare c = true → Lexemes s → Lexemes (c :: s)
  | literal {quote : Char} {body s : List Char} : (quote = '\'' ∨ quote = '"') →
      LiteralBody quote body → Lexemes s → Lexemes (quote :: (body ++ quote :: s))

variable {s t : List Char}

theorem Lexemes.append (hs : Lexemes s) (ht : Lexemes t) : Lexemes (s ++ t) := by
  induction hs with
  | nil => exact ht
  | bare hc _ ih => exact .bare hc ih
  | literal hquote hbody _ ih =>
    rw [List.cons_append, List.append_assoc, List.cons_append]
    exact .literal hquote hbody ih

theorem lexemes_of_bare (h : s.all isBare = true) : Lexemes s := by
  induction s with
  | nil => exact .nil
  | cons c s ih =>
    rw [List.all_cons, Bool.and_eq_true] at h
    exact .bare h.1 (ih h.2)

def ReadsTo (input rest : List Char) : Prop := ∃ read, Lexemes read ∧ input = read ++ rest

theorem ReadsTo.refl (s : List Char) : ReadsTo s s := ⟨[], .nil, rfl⟩

theorem ReadsTo.trans {u : List Char} (h : ReadsTo s t) (h' : ReadsTo t u) : ReadsTo s u := by
  obtain ⟨read, hread, rfl⟩ := h
  obtain ⟨read', hread', rfl⟩ := h'
  exact ⟨read ++ read', hread.append hread', by rw [List.append_assoc]⟩

theorem ReadsTo.cons {c : Char} {s t : List Char} (hc : isBare c = true) (h : ReadsTo s t) :
    ReadsTo (c :: s) t := by
  obtain ⟨read, hread, rfl⟩ := h
  exact ⟨c :: read, .bare hc hread, rfl⟩

theorem ReadsTo.length_le (h : ReadsTo s t) : t.length ≤ s.length := by
  obtain ⟨read, -, rfl⟩ := h
  rw [List.length_append]
  exact Nat.le_add_left _ _

def Parses {β : Type} (input : List Char) : Except ExprError (β × Cursor) → Prop
  | .error error => error ≠ .outOfFuel
  | .ok parsed => ReadsTo input parsed.2.rest

theorem Parses.bind {β γ : Type} {input : List Char} {parsed : Except ExprError (β × Cursor)}
    {next : β × Cursor → Except ExprError (γ × Cursor)} (h : Parses input parsed)
    (hnext : ∀ value cursor, ReadsTo input cursor.rest →
      Parses cursor.rest (next (value, cursor))) : Parses input (parsed >>= next) := by
  cases parsed with
  | error error => exact h
  | ok parsed =>
    have hrest := hnext parsed.1 parsed.2 h
    change Parses input (next parsed)
    cases hparsed : next parsed with
    | error error =>
      rw [hparsed] at hrest
      exact hrest
    | ok final =>
      rw [hparsed] at hrest
      exact ReadsTo.trans h hrest

theorem Parses.of_readsTo {β : Type} {input rest : List Char}
    {parsed : Except ExprError (β × Cursor)} (hread : ReadsTo input rest)
    (h : Parses rest parsed) : Parses input parsed := by
  cases parsed with
  | error error => exact h
  | ok parsed => exact hread.trans h

theorem isBare_of_isWhitespace {c : Char} (h : isWhitespace c = true) : isBare c = true := by
  simp only [isBare, Bool.and_eq_true, decide_eq_true_eq]
  refine ⟨⟨?_, ?_⟩, ?_⟩ <;>
  · rintro rfl
    exact absurd h (by decide)

theorem readsTo_skipWhitespace (pos : ℕ) (s : List Char) :
    ReadsTo s (skipWhitespace pos s).rest := by
  induction s generalizing pos with
  | nil => exact .refl _
  | cons c s ih =>
    rw [skipWhitespace]
    split_ifs with hblank
    · exact (ih _).cons (isBare_of_isWhitespace hblank)
    · exact .refl _

theorem readsTo_skip (cursor : Cursor) : ReadsTo cursor.rest cursor.skip.rest :=
  readsTo_skipWhitespace _ _

def ReadsLiteral (quote : Char) (input : List Char) : Except ExprError (List Char × Cursor) → Prop
  | .error error => error ≠ .outOfFuel
  | .ok parsed => ∃ body, LiteralBody quote body ∧ input = body ++ quote :: parsed.2.rest

theorem ReadsLiteral.map {quote : Char} {front input : List Char} {value : List Char → List Char}
    {parsed : Except ExprError (List Char × Cursor)}
    (hfront : ∀ body, LiteralBody quote body → LiteralBody quote (front ++ body))
    (h : ReadsLiteral quote input parsed) :
    ReadsLiteral quote (front ++ input) (parsed.map fun parsed => (value parsed.1, parsed.2)) := by
  cases parsed with
  | error error => exact h
  | ok parsed =>
    obtain ⟨body, hbody, rfl⟩ := h
    exact ⟨front ++ body, hfront body hbody, by rw [List.append_assoc]⟩

theorem readsLiteral_parseQuoted {quote : Char} (hquote : quote ≠ '\\') (pos : ℕ) (s : List Char) :
    ReadsLiteral quote s (parseQuoted quote pos s) := by
  have hend : ∀ pos rest, ReadsLiteral quote (quote :: rest) (.ok ([], ⟨pos, rest⟩)) :=
    fun _ _ => ⟨[], .nil, rfl⟩
  have hfails : ∀ input, ReadsLiteral quote input (.error .unterminatedString) :=
    fun _ h => nomatch h
  induction pos, s using parseQuoted.induct quote with
  | case1 pos => exact hfails _
  | case2 pos =>
    rw [parseQuoted, if_pos rfl]
    exact hend _ _
  | case3 pos hne =>
    rw [parseQuoted, if_neg hne, if_pos rfl]
    exact fun h => nomatch h
  | case4 pos c hne hslash =>
    rw [parseQuoted, if_neg hne, if_neg hslash]
    exact hfails _
  | case5 pos d rest =>
    rw [parseQuoted, if_pos rfl]
    exact hend _ _
  | case6 pos d rest hne ih =>
    rw [parseQuoted, if_neg hne, if_pos rfl]
    exact @ReadsLiteral.map quote ['\\', d] rest (d :: ·) _ (fun _ => .escaped hquote) ih
  | case7 pos c d rest hne hslash ih =>
    rw [parseQuoted, if_neg hne, if_neg hslash]
    exact @ReadsLiteral.map quote [c] (d :: rest) (c :: ·) _ (fun _ => .plain hne hslash) ih

theorem parses_parseStringLiteral (cursor : Cursor) :
    Parses cursor.rest (parseStringLiteral cursor) := by
  unfold parseStringLiteral
  cases hrest : cursor.rest with
  | nil => exact fun h => nomatch h
  | cons quote rest =>
    dsimp only
    split_ifs with hquote
    · have hslash : quote ≠ '\\' := by
        rcases hquote with rfl | rfl <;> decide
      have hliteral := readsLiteral_parseQuoted hslash (cursor.pos + quote.utf8Size) rest
      cases hparsed : parseQuoted quote (cursor.pos + quote.utf8Size) rest with
      | error error =>
        rw [hparsed] at hliteral
        exact hliteral
      | ok parsed =>
        rw [hparsed] at hliteral
        obtain ⟨body, hbody, hs⟩ := hliteral
        exact ⟨quote :: (body ++ [quote]), .literal hquote hbody .nil, by
          rw [hs, List.cons_append, List.append_assoc, List.singleton_append]⟩
    · exact fun h => nomatch h

section

variable {α : Type} (ops : Arithmetic α) (payload : Json)

theorem Parses.behind {β : Type} {cursor : Cursor} {c : Char} {rest : List Char}
    {parsed : Except ExprError (β × Cursor)} (hrest : cursor.skip.rest = c :: rest)
    (hc : isBare c = true) (h : Parses rest parsed) : Parses cursor.rest parsed := by
  have hread := readsTo_skip cursor
  rw [hrest] at hread
  exact Parses.of_readsTo (hread.trans ((ReadsTo.refl rest).cons hc)) h

theorem parses_parseNumber (cursor : Cursor) : Parses cursor.rest (parseNumber ops cursor) := by
  have hskip := readsTo_skip cursor
  unfold parseNumber
  dsimp only
  split_ifs
  · exact fun h => nomatch h
  · cases ops.parse (String.ofList (cursor.skip.rest.takeWhile fun c => c.isDigit || c = '.')) with
    | none => exact fun h => nomatch h
    | some value =>
      have hread : ∀ c ∈ cursor.skip.rest.takeWhile fun c => c.isDigit || c = '.',
          isBare c = true := by
        intro c hc
        have hdigit := List.mem_takeWhile_imp hc
        simp only [isBare, Bool.and_eq_true, decide_eq_true_eq]
        refine ⟨⟨?_, ?_⟩, ?_⟩ <;>
        · rintro rfl
          exact absurd hdigit (by decide)
      exact hskip.trans ⟨_, lexemes_of_bare (List.all_eq_true.2 hread),
        (List.prefix_iff_eq_append.1 (List.takeWhile_prefix _)).symm⟩

theorem parses_parsePathCall (cursor : Cursor) :
    Parses cursor.rest (parsePathCall ops payload cursor) := by
  unfold parsePathCall
  dsimp only
  split
  · rename_i rest hopen
    refine Parses.behind hopen (by decide) ?_
    have hliteral := Parses.of_readsTo (readsTo_skip ⟨cursor.skip.pos + 1, rest⟩)
      (parses_parseStringLiteral (Cursor.skip ⟨cursor.skip.pos + 1, rest⟩))
    refine Parses.bind hliteral fun path cursor' _ => ?_
    dsimp only
    split
    · rename_i rest' hclose
      refine Parses.behind hclose (by decide) ?_
      cases (extractJsonPath payload path).bind (valueToF64 ops) with
      | none => exact fun h => nomatch h
      | some value => exact ReadsTo.refl _
    · exact fun h => nomatch h
  · exact fun h => nomatch h

/-- **What the parser reads**: with enough fuel for the characters that are left it does not run out
of it, and it reads lexemes. -/
theorem parses_all (fuel : ℕ) :
    (∀ cursor, 4 * cursor.rest.length + 4 ≤ fuel →
        Parses cursor.rest (parseAddSub ops payload fuel cursor)) ∧
      (∀ value cursor, 4 * cursor.rest.length + 1 ≤ fuel →
        Parses cursor.rest (addSubLoop ops payload fuel value cursor)) ∧
      (∀ cursor, 4 * cursor.rest.length + 3 ≤ fuel →
        Parses cursor.rest (parseMulDiv ops payload fuel cursor)) ∧
      (∀ value cursor, 4 * cursor.rest.length + 1 ≤ fuel →
        Parses cursor.rest (mulDivLoop ops payload fuel value cursor)) ∧
      (∀ cursor, 4 * cursor.rest.length + 2 ≤ fuel →
        Parses cursor.rest (parseUnary ops payload fuel cursor)) ∧
      ∀ cursor, 4 * cursor.rest.length + 1 ≤ fuel →
        Parses cursor.rest (parsePrimary ops payload fuel cursor) := by
  -- a character that was read leaves fuel for one more call
  have hshorter : ∀ {cursor : Cursor} {c : Char} {rest : List Char}, cursor.skip.rest = c :: rest →
      rest.length + 1 ≤ cursor.rest.length := by
    intro cursor c rest hrest
    have hle := (readsTo_skip cursor).length_le
    rw [hrest, List.length_cons] at hle
    exact hle
  induction fuel with
  | zero => simp
  | succ fuel ih =>
    obtain ⟨hadd, haddLoop, hmul, hmulLoop, hunary, hprimary⟩ := ih
    refine ⟨?_, ?_, ?_, ?_, ?_, ?_⟩
    · intro cursor hfuel
      rw [parseAddSub]
      refine Parses.bind (hmul cursor (by omega)) fun value cursor' hread => ?_
      have hle := hread.length_le
      exact haddLoop value cursor' (by omega)
    · intro value cursor hfuel
      have hsum : ∀ (op : α → α) (c : Char) rest, cursor.skip.rest = c :: rest → isBare c = true →
          Parses cursor.rest (do
            let (right, cursor) ← parseMulDiv ops payload fuel ⟨cursor.skip.pos + 1, rest⟩
            addSubLoop ops payload fuel (op right) cursor) := by
        intro op c rest hrest hc
        have hlength := hshorter hrest
        refine Parses.behind hrest hc (Parses.bind (hmul ⟨_, rest⟩ ?_) fun right cursor' hread =>
          ?_)
        · dsimp only
          omega
        · have hle := hread.length_le
          exact haddLoop _ cursor' (by omega)
      rw [addSubLoop]
      dsimp only
      split
      · rename_i rest hrest
        exact hsum (ops.add value) '+' rest hrest (by decide)
      · rename_i rest hrest
        exact hsum (ops.sub value) '-' rest hrest (by decide)
      · exact readsTo_skip cursor
    · intro cursor hfuel
      rw [parseMulDiv]
      refine Parses.bind (hunary cursor (by omega)) fun value cursor' hread => ?_
      have hle := hread.length_le
      exact hmulLoop value cursor' (by omega)
    · intro value cursor hfuel
      rw [mulDivLoop]
      dsimp only
      split
      · rename_i rest hrest
        have hlength := hshorter hrest
        refine Parses.behind hrest (by decide) (Parses.bind (hunary ⟨_, rest⟩ ?_)
          fun right cursor' hread => ?_)
        · dsimp only
          omega
        · have hle := hread.length_le
          exact hmulLoop _ cursor' (by omega)
      · rename_i rest hrest
        have hlength := hshorter hrest
        refine Parses.behind hrest (by decide) (Parses.bind (hunary ⟨_, rest⟩ ?_)
          fun divisor cursor' hread => ?_)
        · dsimp only
          omega
        · have hle := hread.length_le
          dsimp only
          split_ifs
          · exact fun h => nomatch h
          · exact hmulLoop _ cursor' (by omega)
      · exact readsTo_skip cursor
    · intro cursor hfuel
      rw [parseUnary]
      dsimp only
      split
      · rename_i rest hrest
        have hlength := hshorter hrest
        refine Parses.behind hrest (by decide) (Parses.bind (hunary ⟨_, rest⟩ ?_)
          fun value cursor' hread => ?_)
        · dsimp only
          omega
        · exact ReadsTo.refl _
      · rename_i rest hrest
        have hlength := hshorter hrest
        refine Parses.behind hrest (by decide) (hunary ⟨_, rest⟩ ?_)
        dsimp only
        omega
      · have hle := (readsTo_skip cursor).length_le
        exact Parses.of_readsTo (readsTo_skip cursor) (hprimary _ (by omega))
    · intro cursor hfuel
      rw [parsePrimary]
      dsimp only
      split
      · rename_i rest hrest
        have hlength := hshorter hrest
        refine Parses.behind hrest (by decide) (Parses.bind (hadd ⟨_, rest⟩ ?_)
          fun value cursor' hread => ?_)
        · dsimp only
          omega
        · dsimp only
          split
          · rename_i rest' hclose
            exact Parses.behind hclose (by decide) (ReadsTo.refl _)
          · exact fun h => nomatch h
      · rename_i rest hrest
        have hread := readsTo_skip cursor
        rw [hrest] at hread
        have hname : ReadsTo ('p' :: 'a' :: 't' :: 'h' :: rest) rest :=
          ⟨['p', 'a', 't', 'h'], lexemes_of_bare (by decide), rfl⟩
        exact Parses.of_readsTo (hread.trans hname) (parses_parsePathCall ops payload ⟨_, rest⟩)
      · exact Parses.of_readsTo (readsTo_skip cursor) (parses_parseNumber ops _)

end

/-- **The fuel of an evaluation is enough.** -/
theorem parseAddSub_fed {α : Type} (ops : Arithmetic α) (payload : Json) (text : List Char) :
    Parses text (parseAddSub ops payload (exprFuel text) ⟨0, text⟩) :=
  (parses_all ops payload (exprFuel text)).1 ⟨0, text⟩ (Nat.le_refl _)

def Arithmetic.whole : Arithmetic ℤ where
  parse text := text.toInt?
  ofNumber
    | .int n => n
    | .float _ => 0
  add := (· + ·)
  sub := (· - ·)
  mul := (· * ·)
  div := Int.tdiv
  neg := (- ·)
  isTiny n := n = 0
  isFinite _ := true
  print n := toString n

end AiOpenRouter
