/-
The recursive descent of quota expressions (`quota/parser.rs`).

The functions of the parser are taken by the level that they read (`readAt`) and by the loop of a
level (`loopAt`). Fuel beyond the need changes nothing (`parse_stable`), so that a level can be read
with just enough of it (`readLevel`, `levelLoop`).

* `readLevel_spelled`: a text that spells a tree is read as that tree;
* `computes_all`: what was read with a value spells a tree with this value.
-/
import AiOpenRouter.ExpressionGrammar

namespace AiOpenRouter

open Text

/-! ### Skipping spaces -/

theorem skip_append {space : List Char} (h : IsSpace space) (pos : ℕ) (rest : List Char) :
    ∃ pos', Cursor.skip ⟨pos, space ++ rest⟩ = Cursor.skip ⟨pos', rest⟩ := by
  induction space generalizing pos with
  | nil => exact ⟨pos, rfl⟩
  | cons c space ih =>
    rw [IsSpace, List.all_cons, Bool.and_eq_true] at h
    obtain ⟨pos', hskip⟩ := ih h.2 (pos + c.utf8Size)
    refine ⟨pos', Eq.trans ?_ hskip⟩
    show skipWhitespace pos (c :: (space ++ rest)) = _
    rw [skipWhitespace, if_pos h.1]
    rfl

theorem skip_of_not_space {c : Char} (h : isWhitespace c = false) (pos : ℕ) (rest : List Char) :
    Cursor.skip ⟨pos, c :: rest⟩ = ⟨pos, c :: rest⟩ := by
  show skipWhitespace pos (c :: rest) = _
  rw [skipWhitespace, h, if_neg Bool.false_ne_true]

theorem skip_append_cons {space : List Char} (h : IsSpace space) {c : Char}
    (hc : isWhitespace c = false) (pos : ℕ) (rest : List Char) :
    ∃ pos', Cursor.skip ⟨pos, space ++ c :: rest⟩ = ⟨pos', c :: rest⟩ := by
  obtain ⟨pos', hskip⟩ := skip_append h pos (c :: rest)
  exact ⟨pos', hskip.trans (skip_of_not_space hc pos' rest)⟩

theorem exists_space_skip (cursor : Cursor) :
    ∃ space, IsSpace space ∧ cursor.rest = space ++ cursor.skip.rest := by
  obtain ⟨pos, rest⟩ := cursor
  show ∃ space, IsSpace space ∧ rest = space ++ (skipWhitespace pos rest).rest
  induction rest generalizing pos with
  | nil => exact ⟨[], rfl, rfl⟩
  | cons c rest ih =>
    rw [skipWhitespace]
    split_ifs with hc
    · obtain ⟨space, hspace, hrest⟩ := ih (pos + c.utf8Size)
      refine ⟨c :: space, ?_, by rw [List.cons_append, ← hrest]⟩
      rw [IsSpace, List.all_cons, hc, hspace, Bool.and_self]
    · exact ⟨[], rfl, rfl⟩

theorem skip_skip (cursor : Cursor) : cursor.skip.skip = cursor.skip := by
  obtain ⟨pos, rest⟩ := cursor
  show (skipWhitespace pos rest).skip = skipWhitespace pos rest
  induction rest generalizing pos with
  | nil => rfl
  | cons c rest ih =>
    rw [skipWhitespace]
    split_ifs with hc
    · exact ih _
    · exact skip_of_not_space (Bool.eq_false_iff.2 hc) pos rest

/-! ### The descent by levels -/

def ExprLevel.rank : ExprLevel → ℕ
  | primary => 1
  | unary => 2
  | product => 3
  | sum => 4

section

variable {α : Type} (ops : Arithmetic α) (payload : Json)

def readAt : ExprLevel → ℕ → Cursor → Except ExprError (α × Cursor)
  | .primary => parsePrimary ops payload
  | .unary => parseUnary ops payload
  | .product => parseMulDiv ops payload
  | .sum => parseAddSub ops payload

def loopAt : ExprLevel → ℕ → α → Cursor → Except ExprError (α × Cursor)
  | .primary, _ => fun value cursor => .ok (value, cursor)
  | .unary, _ => fun value cursor => .ok (value, cursor)
  | .product, fuel => mulDivLoop ops payload fuel
  | .sum, fuel => addSubLoop ops payload fuel

def closeParens (parsed : α × Cursor) : Except ExprError (α × Cursor) :=
  match parsed.2.skip.rest with
  | ')' :: rest => .ok (parsed.1, ⟨parsed.2.skip.pos + 1, rest⟩)
  | _ => .error .missingClosing

variable {cursor : Cursor} {rest s space : List Char} {c : Char} {level : ExprLevel}
  (operator : ExprOperator) (fuel : ℕ) (value : α)

theorem readAt_sum (cursor : Cursor) :
    readAt ops payload .sum (fuel + 1) cursor =
      readAt ops payload .product fuel cursor >>= fun p =>
        loopAt ops payload .sum fuel p.1 p.2 := by
  show parseAddSub ops payload (fuel + 1) cursor = _
  rw [parseAddSub]
  rfl

theorem readAt_product (cursor : Cursor) :
    readAt ops payload .product (fuel + 1) cursor =
      readAt ops payload .unary fuel cursor >>= fun p =>
        loopAt ops payload .product fuel p.1 p.2 := by
  show parseMulDiv ops payload (fuel + 1) cursor = _
  rw [parseMulDiv]
  rfl

theorem loopAt_operator (h : cursor.skip.rest = operator.char :: rest) :
    loopAt ops payload operator.level (fuel + 1) value cursor =
      readAt ops payload operator.operandLevel fuel ⟨cursor.skip.pos + 1, rest⟩ >>= fun p =>
        operator.compute ops value p.1 >>= fun value' =>
          loopAt ops payload operator.level fuel value' p.2 := by
  cases operator with
  | plus =>
    show addSubLoop ops payload (fuel + 1) value cursor = _
    rw [addSubLoop]
    simp only [h, ExprOperator.char]
    rfl
  | minus =>
    show addSubLoop ops payload (fuel + 1) value cursor = _
    rw [addSubLoop]
    simp only [h, ExprOperator.char]
    rfl
  | times =>
    show mulDivLoop ops payload (fuel + 1) value cursor = _
    rw [mulDivLoop]
    simp only [h, ExprOperator.char]
    rfl
  | slash =>
    show mulDivLoop ops payload (fuel + 1) value cursor = _
    rw [mulDivLoop]
    simp only [h, ExprOperator.char]
    show (_ >>= _ : Except ExprError (α × Cursor)) = _
    refine congrArg (parseUnary ops payload fuel ⟨cursor.skip.pos + 1, rest⟩ >>= ·)
      (funext fun p => ?_)
    show (if ops.isTiny p.1 then _ else _) = (if ops.isTiny p.1 then _ else _) >>= _
    split_ifs <;> rfl

def NoOperator (level : ExprLevel) (s : List Char) : Prop :=
  ∀ operator : ExprOperator, operator.level = level → ∀ rest, s ≠ operator.char :: rest

theorem operator_or_not (level : ExprLevel) (s : List Char) :
    (∃ (operator : ExprOperator) (rest : List Char),
      operator.level = level ∧ s = operator.char :: rest) ∨ NoOperator level s := by
  by_cases h : ∃ (operator : ExprOperator) (rest : List Char),
      operator.level = level ∧ s = operator.char :: rest
  · exact .inl h
  · exact .inr fun operator hlevel rest hs => h ⟨operator, rest, hlevel, hs⟩

theorem loopAt_sum_stop (h : NoOperator .sum cursor.skip.rest) :
    loopAt ops payload .sum (fuel + 1) value cursor = .ok (value, cursor.skip) := by
  show addSubLoop ops payload (fuel + 1) value cursor = _
  rw [addSubLoop]
  dsimp only
  split
  · rename_i rest hrest
    exact absurd hrest (h .plus rfl rest)
  · rename_i rest hrest
    exact absurd hrest (h .minus rfl rest)
  · rfl

theorem loopAt_product_stop (h : NoOperator .product cursor.skip.rest) :
    loopAt ops payload .product (fuel + 1) value cursor = .ok (value, cursor.skip) := by
  show mulDivLoop ops payload (fuel + 1) value cursor = _
  rw [mulDivLoop]
  dsimp only
  split
  · rename_i rest hrest
    exact absurd hrest (h .times rfl rest)
  · rename_i rest hrest
    exact absurd hrest (h .slash rfl rest)
  · rfl

theorem readAt_positive (h : cursor.skip.rest = '+' :: rest) :
    readAt ops payload .unary (fuel + 1) cursor =
      readAt ops payload .unary fuel ⟨cursor.skip.pos + 1, rest⟩ := by
  show parseUnary ops payload (fuel + 1) cursor = _
  rw [parseUnary]
  simp only [h]
  rfl

theorem readAt_negative (h : cursor.skip.rest = '-' :: rest) :
    readAt ops payload .unary (fuel + 1) cursor =
      readAt ops payload .unary fuel ⟨cursor.skip.pos + 1, rest⟩ >>= fun p =>
        .ok (ops.neg p.1, p.2) := by
  show parseUnary ops payload (fuel + 1) cursor = _
  rw [parseUnary]
  simp only [h]
  rfl

def NoSign (s : List Char) : Prop := ∀ rest, s ≠ '+' :: rest ∧ s ≠ '-' :: rest

theorem readAt_unsigned (h : NoSign cursor.skip.rest) :
    readAt ops payload .unary (fuel + 1) cursor = readAt ops payload .primary fuel cursor.skip := by
  show parseUnary ops payload (fuel + 1) cursor = _
  rw [parseUnary]
  dsimp only
  split
  · rename_i rest hrest
    exact absurd hrest (h rest).2
  · rename_i rest hrest
    exact absurd hrest (h rest).1
  · rfl

theorem readAt_parens (h : cursor.skip.rest = '(' :: rest) :
    readAt ops payload .primary (fuel + 1) cursor =
      readAt ops payload .sum fuel ⟨cursor.skip.pos + 1, rest⟩ >>= closeParens := by
  show parsePrimary ops payload (fuel + 1) cursor = _
  rw [parsePrimary]
  simp only [h]
  rfl

theorem readAt_path (h : cursor.skip.rest = "path".toList ++ rest) :
    readAt ops payload .primary (fuel + 1) cursor =
      parsePathCall ops payload ⟨cursor.skip.pos + 4, rest⟩ := by
  have hpath : cursor.skip.rest = 'p' :: 'a' :: 't' :: 'h' :: rest := h
  show parsePrimary ops payload (fuel + 1) cursor = _
  rw [parsePrimary]
  simp only [hpath]

/-- Neither a parenthesis nor the path function stands in front of a text. -/
def NoCall (s : List Char) : Prop := ∀ rest, s ≠ '(' :: rest ∧ s ≠ "path".toList ++ rest

theorem readAt_number (h : NoCall cursor.skip.rest) :
    readAt ops payload .primary (fuel + 1) cursor = parseNumber ops cursor.skip := by
  show parsePrimary ops payload (fuel + 1) cursor = _
  rw [parsePrimary]
  dsimp only
  split
  · rename_i rest hrest
    exact absurd hrest (h rest).1
  · rename_i rest hrest
    exact absurd hrest (h rest).2
  · rfl

theorem sign_or_not (s : List Char) :
    (∃ rest, s = '+' :: rest) ∨ (∃ rest, s = '-' :: rest) ∨ NoSign s := by
  by_cases hplus : ∃ rest, s = '+' :: rest
  · exact .inl hplus
  · by_cases hminus : ∃ rest, s = '-' :: rest
    · exact .inr (.inl hminus)
    · exact .inr (.inr fun rest => ⟨fun h => hplus ⟨rest, h⟩, fun h => hminus ⟨rest, h⟩⟩)

theorem call_or_not (s : List Char) :
    (∃ rest, s = '(' :: rest) ∨ (∃ rest, s = "path".toList ++ rest) ∨ NoCall s := by
  by_cases hparens : ∃ rest, s = '(' :: rest
  · exact .inl hparens
  · by_cases hpath : ∃ rest, s = "path".toList ++ rest
    · exact .inr (.inl hpath)
    · exact .inr (.inr fun rest => ⟨fun h => hparens ⟨rest, h⟩, fun h => hpath ⟨rest, h⟩⟩)

/-! ### Fuel -/

theorem parses_readAt (level : ExprLevel) {fuel : ℕ} {cursor : Cursor}
    (h : 4 * cursor.rest.length + level.rank ≤ fuel) :
    Parses cursor.rest (readAt ops payload level fuel cursor) := by
  obtain ⟨hsum, -, hproduct, -, hunary, hprimary⟩ := parses_all ops payload fuel
  cases level with
  | primary => exact hprimary cursor h
  | unary => exact hunary cursor h
  | product => exact hproduct cursor h
  | sum => exact hsum cursor h

theorem Parses.bind_congr {β γ : Type} {input : List Char}
    {parsed parsed' : Except ExprError (β × Cursor)}
    {next next' : β × Cursor → Except ExprError (γ × Cursor)} (h : Parses input parsed)
    (heq : parsed = parsed')
    (hnext : ∀ value cursor, cursor.rest.length ≤ input.length →
      next (value, cursor) = next' (value, cursor)) :
    parsed >>= next = parsed' >>= next' := by
  subst heq
  cases parsed with
  | error error => rfl
  | ok parsed => exact hnext parsed.1 parsed.2 (ReadsTo.length_le h)

theorem skip_length_le (cursor : Cursor) : cursor.skip.rest.length ≤ cursor.rest.length :=
  (readsTo_skip cursor).length_le

theorem length_lt_of_skip (h : cursor.skip.rest = c :: rest) :
    rest.length < cursor.rest.length := by
  have hle := skip_length_le cursor
  rw [h, List.length_cons] at hle
  omega

/-- **Fuel beyond the need changes nothing.** -/
theorem parse_stable :
    ∀ fuel',
    (∀ level cursor, 4 * cursor.rest.length + level.rank ≤ fuel →
      4 * cursor.rest.length + level.rank ≤ fuel' →
      readAt ops payload level fuel cursor = readAt ops payload level fuel' cursor) ∧
    ∀ level value cursor, 4 * cursor.rest.length + 1 ≤ fuel →
      4 * cursor.rest.length + 1 ≤ fuel' →
      loopAt ops payload level fuel value cursor = loopAt ops payload level fuel' value cursor := by
  have hrank : ∀ level : ExprLevel, 1 ≤ level.rank := fun level => by cases level <;> decide
  -- one fuel goes down with the other
  induction fuel with
  | zero =>
    refine fun fuel' => ⟨fun level cursor h _ => ?_, fun level value cursor h _ => by omega⟩
    have := hrank level
    omega
  | succ fuel ih =>
    intro fuel'
    cases fuel' with
    | zero =>
      refine ⟨fun level cursor _ h => ?_, fun level value cursor _ h => by omega⟩
      have := hrank level
      omega
    -- each level hands less to what it calls, by the text that it takes or by its rank
    | succ fuel' =>
      obtain ⟨hread, hloop⟩ := ih fuel'
      refine ⟨fun level cursor h h' => ?_, fun level value cursor h h' => ?_⟩
      · cases level with
        | sum =>
          simp only [ExprLevel.rank] at h h'
          have hparses : Parses cursor.rest (readAt ops payload .product fuel cursor) :=
            parses_readAt ops payload .product (by simp only [ExprLevel.rank]; omega)
          rw [readAt_sum, readAt_sum]
          refine hparses.bind_congr (hread .product cursor ?_ ?_) fun value cursor' hle => ?_
          · simp only [ExprLevel.rank]; omega
          · simp only [ExprLevel.rank]; omega
          · exact hloop .sum value cursor' (by omega) (by omega)
        | product =>
          simp only [ExprLevel.rank] at h h'
          have hparses : Parses cursor.rest (readAt ops payload .unary fuel cursor) :=
            parses_readAt ops payload .unary (by simp only [ExprLevel.rank]; omega)
          rw [readAt_product, readAt_product]
          refine hparses.bind_congr (hread .unary cursor ?_ ?_) fun value cursor' hle => ?_
          · simp only [ExprLevel.rank]; omega
          · simp only [ExprLevel.rank]; omega
          · exact hloop .product value cursor' (by omega) (by omega)
        | unary =>
          simp only [ExprLevel.rank] at h h'
          rcases sign_or_not cursor.skip.rest with ⟨rest, hrest⟩ | ⟨rest, hrest⟩ | hnone
          · have hlt := length_lt_of_skip hrest
            rw [readAt_positive ops payload fuel hrest, readAt_positive ops payload fuel' hrest]
            exact hread .unary ⟨_, rest⟩ (by simp only [ExprLevel.rank]; omega)
              (by simp only [ExprLevel.rank]; omega)
          · have hlt := length_lt_of_skip hrest
            rw [readAt_negative ops payload fuel hrest, readAt_negative ops payload fuel' hrest,
              hread .unary ⟨_, rest⟩ (by simp only [ExprLevel.rank]; omega)
                (by simp only [ExprLevel.rank]; omega)]
          · have hle := skip_length_le cursor
            rw [readAt_unsigned ops payload fuel hnone, readAt_unsigned ops payload fuel' hnone]
            exact hread .primary _ (by simp only [ExprLevel.rank]; omega)
              (by simp only [ExprLevel.rank]; omega)
        | primary =>
          simp only [ExprLevel.rank] at h h'
          rcases call_or_not cursor.skip.rest with ⟨rest, hrest⟩ | ⟨rest, hrest⟩ | hnone
          · have hlt := length_lt_of_skip hrest
            rw [readAt_parens ops payload fuel hrest, readAt_parens ops payload fuel' hrest,
              hread .sum ⟨_, rest⟩ (by simp only [ExprLevel.rank]; omega)
                (by simp only [ExprLevel.rank]; omega)]
          · rw [readAt_path ops payload fuel hrest, readAt_path ops payload fuel' hrest]
          · rw [readAt_number ops payload fuel hnone, readAt_number ops payload fuel' hnone]
      -- the loop has taken its operator, so the rest is shorter
      · rcases operator_or_not level cursor.skip.rest with ⟨operator, rest, rfl, hrest⟩ | hnone
        · have hlt := length_lt_of_skip hrest
          have hneeds : operator.operandLevel.rank ≤ 3 := by cases operator <;> decide
          have hparses := @parses_readAt _ ops payload operator.operandLevel fuel
            ⟨cursor.skip.pos + 1, rest⟩ (by show 4 * rest.length + _ ≤ _; omega)
          rw [loopAt_operator ops payload operator fuel value hrest,
            loopAt_operator ops payload operator fuel' value hrest]
          refine hparses.bind_congr (hread _ _ ?_ ?_) fun right cursor' hle => ?_
          · show 4 * rest.length + _ ≤ _
            omega
          · show 4 * rest.length + _ ≤ _
            omega
          · have hshorter : cursor'.rest.length ≤ rest.length := hle
            exact congrArg (operator.compute ops value right >>= ·)
              (funext fun value' => hloop operator.level value' cursor' (by omega) (by omega))
        · cases level with
          | primary => rfl
          | unary => rfl
          | product =>
            rw [loopAt_product_stop ops payload fuel value hnone,
              loopAt_product_stop ops payload fuel' value hnone]
          | sum =>
            rw [loopAt_sum_stop ops payload fuel value hnone,
              loopAt_sum_stop ops payload fuel' value hnone]

def readLevel (level : ExprLevel) (cursor : Cursor) : Except ExprError (α × Cursor) :=
  readAt ops payload level (4 * cursor.rest.length + level.rank) cursor

def levelLoop (level : ExprLevel) (value : α) (cursor : Cursor) : Except ExprError (α × Cursor) :=
  loopAt ops payload level (4 * cursor.rest.length + 1) value cursor

theorem readAt_eq_readLevel {fuel : ℕ} (h : 4 * cursor.rest.length + level.rank ≤ fuel) :
    readAt ops payload level fuel cursor = readLevel ops payload level cursor :=
  (parse_stable ops payload fuel _).1 level cursor h (Nat.le_refl _)

theorem loopAt_eq_levelLoop {fuel : ℕ} (h : 4 * cursor.rest.length + 1 ≤ fuel) :
    loopAt ops payload level fuel value cursor = levelLoop ops payload level value cursor :=
  (parse_stable ops payload fuel _).2 level value cursor h (Nat.le_refl _)

theorem readLevel_sum (cursor : Cursor) :
    readLevel ops payload .sum cursor =
      readLevel ops payload .product cursor >>= fun p => levelLoop ops payload .sum p.1 p.2 := by
  show readAt ops payload .sum (4 * cursor.rest.length + 3 + 1) cursor = _
  rw [readAt_sum]
  refine (parses_readAt ops payload .product (Nat.le_refl _)).bind_congr rfl
    fun value cursor' hle => ?_
  exact loopAt_eq_levelLoop ops payload value (by show 4 * cursor'.rest.length + 1 ≤ _; omega)

theorem readLevel_product (cursor : Cursor) :
    readLevel ops payload .product cursor =
      readLevel ops payload .unary cursor >>= fun p => levelLoop ops payload .product p.1 p.2 := by
  show readAt ops payload .product (4 * cursor.rest.length + 2 + 1) cursor = _
  rw [readAt_product]
  refine (parses_readAt ops payload .unary (Nat.le_refl _)).bind_congr rfl
    fun value cursor' hle => ?_
  exact loopAt_eq_levelLoop ops payload value (by show 4 * cursor'.rest.length + 1 ≤ _; omega)

theorem levelLoop_operator (h : cursor.skip.rest = operator.char :: rest) :
    levelLoop ops payload operator.level value cursor =
      readLevel ops payload operator.operandLevel ⟨cursor.skip.pos + 1, rest⟩ >>= fun p =>
        operator.compute ops value p.1 >>= fun value' =>
          levelLoop ops payload operator.level value' p.2 := by
  have hlt := length_lt_of_skip h
  have hneeds : operator.operandLevel.rank ≤ 3 := by cases operator <;> decide
  have hfuel : 4 * rest.length + operator.operandLevel.rank ≤ 4 * cursor.rest.length := by omega
  show loopAt ops payload operator.level (4 * cursor.rest.length + 1) value cursor = _
  rw [loopAt_operator ops payload operator _ value h]
  refine (parses_readAt ops payload operator.operandLevel hfuel).bind_congr
    (readAt_eq_readLevel ops payload hfuel) fun right cursor' hle => ?_
  have hshorter : cursor'.rest.length ≤ rest.length := hle
  exact congrArg (operator.compute ops value right >>= ·)
    (funext fun value' => loopAt_eq_levelLoop ops payload value'
      (by show 4 * cursor'.rest.length + 1 ≤ _; omega))

theorem levelLoop_sum_stop (h : NoOperator .sum cursor.skip.rest) :
    levelLoop ops payload .sum value cursor = .ok (value, cursor.skip) :=
  loopAt_sum_stop ops payload _ value h

theorem levelLoop_product_stop (h : NoOperator .product cursor.skip.rest) :
    levelLoop ops payload .product value cursor = .ok (value, cursor.skip) :=
  loopAt_product_stop ops payload _ value h

theorem levelLoop_sum_skip (cursor : Cursor) :
    levelLoop ops payload .sum value cursor.skip = levelLoop ops payload .sum value cursor := by
  have hskip := skip_skip cursor
  rcases operator_or_not .sum cursor.skip.rest with ⟨operator, rest, hlevel, hrest⟩ | hnone
  · rw [← hlevel, levelLoop_operator ops payload operator value hrest,
      levelLoop_operator ops payload operator value (by rw [hskip]; exact hrest), hskip]
  · rw [levelLoop_sum_stop ops payload value hnone,
      levelLoop_sum_stop ops payload value (by rw [hskip]; exact hnone), hskip]

theorem readLevel_positive (h : cursor.skip.rest = '+' :: rest) :
    readLevel ops payload .unary cursor =
      readLevel ops payload .unary ⟨cursor.skip.pos + 1, rest⟩ := by
  have hlt := length_lt_of_skip h
  show readAt ops payload .unary (4 * cursor.rest.length + 1 + 1) cursor = _
  rw [readAt_positive ops payload _ h]
  exact readAt_eq_readLevel ops payload (by show 4 * rest.length + 2 ≤ _; omega)

theorem readLevel_negative (h : cursor.skip.rest = '-' :: rest) :
    readLevel ops payload .unary cursor =
      readLevel ops payload .unary ⟨cursor.skip.pos + 1, rest⟩ >>= fun p =>
        .ok (ops.neg p.1, p.2) := by
  have hlt := length_lt_of_skip h
  show readAt ops payload .unary (4 * cursor.rest.length + 1 + 1) cursor = _
  rw [readAt_negative ops payload _ h]
  rw [readAt_eq_readLevel ops payload (by show 4 * rest.length + 2 ≤ _; omega)]

theorem readLevel_unsigned (h : NoSign cursor.skip.rest) :
    readLevel ops payload .unary cursor = readLevel ops payload .primary cursor.skip := by
  have hle := skip_length_le cursor
  show readAt ops payload .unary (4 * cursor.rest.length + 1 + 1) cursor = _
  rw [readAt_unsigned ops payload _ h]
  exact readAt_eq_readLevel ops payload (by simp only [ExprLevel.rank]; omega)

theorem readLevel_parens (h : cursor.skip.rest = '(' :: rest) :
    readLevel ops payload .primary cursor =
      readLevel ops payload .sum ⟨cursor.skip.pos + 1, rest⟩ >>= closeParens := by
  have hlt := length_lt_of_skip h
  show readAt ops payload .primary (4 * cursor.rest.length + 1) cursor = _
  rw [readAt_parens ops payload _ h]
  rw [readAt_eq_readLevel ops payload (by show 4 * rest.length + 4 ≤ _; omega)]

theorem readLevel_primary_skip (cursor : Cursor) :
    readLevel ops payload .primary cursor.skip = readLevel ops payload .primary cursor := by
  have hskip := skip_skip cursor
  rcases call_or_not cursor.skip.rest with ⟨rest, hrest⟩ | ⟨rest, hrest⟩ | hnone
  · rw [readLevel_parens ops payload hrest,
      readLevel_parens ops payload (by rw [hskip]; exact hrest), hskip]
  · rw [readLevel, readLevel, ExprLevel.rank, readAt_path ops payload _ hrest,
      readAt_path ops payload _ (by rw [hskip]; exact hrest), hskip]
  · rw [readLevel, readLevel, ExprLevel.rank, readAt_number ops payload _ hnone,
      readAt_number ops payload _ (by rw [hskip]; exact hnone), hskip]

/-! ### Texts that spell a tree are read -/

def NumeralEnds (rest : List Char) : Prop := ∀ c ∈ rest.head?, (c.isDigit || c = '.') = false

def Ends (level : ExprLevel) (rest : List Char) : Prop :=
  NumeralEnds rest ∧ (level = .sum → ∀ pos, NoOperator .product (Cursor.skip ⟨pos, rest⟩).rest)

theorem not_numeral_of_isWhitespace (h : isWhitespace c = true) :
    (c.isDigit || c = '.') = false := by
  rw [Bool.eq_false_iff]
  intro hc
  rw [Bool.or_eq_true, decide_eq_true_eq] at hc
  rcases hc with hdigit | rfl
  · simp only [Char.isDigit, Bool.and_eq_true, decide_eq_true_eq, ge_iff_le,
      UInt32.le_iff_toNat_le] at hdigit
    have hlow : 48 ≤ c.toNat := hdigit.1
    have hhigh : c.toNat ≤ 57 := hdigit.2
    simp only [isWhitespace, Bool.or_eq_true, Bool.and_eq_true, decide_eq_true_eq] at h
    omega
  · exact absurd h (by decide)

theorem ends_space_cons (hspace : IsSpace space) (hc : isWhitespace c = false)
    (hnumber : (c.isDigit || c = '.') = false) (hoperator : level = .sum → c ≠ '*' ∧ c ≠ '/') :
    Ends level (space ++ c :: s) := by
  refine ⟨?_, fun hlevel pos operator hproduct rest hrest => ?_⟩
  · cases space with
    | nil =>
      intro d hd
      rw [← Option.some.inj hd]
      exact hnumber
    | cons b space =>
      intro d hd
      rw [← Option.some.inj hd]
      rw [IsSpace, List.all_cons, Bool.and_eq_true] at hspace
      exact not_numeral_of_isWhitespace hspace.1
  · obtain ⟨pos', hskip⟩ := skip_append_cons hspace hc pos s
    rw [hskip] at hrest
    have hhead : c = operator.char := List.head_eq_of_cons_eq hrest
    cases operator with
    | plus => cases hproduct
    | minus => cases hproduct
    | times => exact (hoperator hlevel).1 hhead
    | slash => exact (hoperator hlevel).2 hhead

theorem ends_operator (hspace : IsSpace space) (operator : ExprOperator) :
    Ends operator.level (space ++ operator.char :: s) := by
  refine ends_space_cons hspace operator.char_not_blank ?_ fun hlevel => ?_
  · cases operator <;> decide
  · cases operator with
    | plus => decide
    | minus => decide
    | times => cases hlevel
    | slash => cases hlevel

theorem ends_space (level : ExprLevel) (hspace : IsSpace space) : Ends level space := by
  refine ⟨fun c hc => ?_, fun _ pos operator _ rest hrest => ?_⟩
  · cases space with
    | nil => cases hc
    | cons b space =>
      rw [← Option.some.inj hc]
      rw [IsSpace, List.all_cons, Bool.and_eq_true] at hspace
      exact not_numeral_of_isWhitespace hspace.1
  · obtain ⟨pos', hskip⟩ := skip_append hspace pos []
    rw [List.append_nil] at hskip
    rw [hskip] at hrest
    cases hrest

theorem operand_stop (h : Ends operator.level rest) (pos : ℕ) :
    ∃ cursor, (∀ value, levelLoop ops payload operator.operandLevel value ⟨pos, rest⟩ =
        .ok (value, cursor)) ∧
      ∀ value, levelLoop ops payload operator.level value cursor =
        levelLoop ops payload operator.level value ⟨pos, rest⟩ := by
  have hsum : NoOperator .product (Cursor.skip ⟨pos, rest⟩).rest →
      ∃ cursor, (∀ value, levelLoop ops payload .product value ⟨pos, rest⟩ = .ok (value, cursor)) ∧
        ∀ value, levelLoop ops payload .sum value cursor =
          levelLoop ops payload .sum value ⟨pos, rest⟩ := fun hnone =>
    ⟨Cursor.skip ⟨pos, rest⟩, fun value => levelLoop_product_stop ops payload value hnone,
      fun value => levelLoop_sum_skip ops payload value ⟨pos, rest⟩⟩
  cases operator with
  | plus => exact hsum (h.2 rfl pos)
  | minus => exact hsum (h.2 rfl pos)
  | times => exact ⟨⟨pos, rest⟩, fun _ => rfl, fun _ => rfl⟩
  | slash => exact ⟨⟨pos, rest⟩, fun _ => rfl, fun _ => rfl⟩

theorem readLevel_numeral {digits : List Char} (hspace : IsSpace space) (hdigits : IsNumeral digits)
    (hends : NumeralEnds rest) (pos : ℕ) :
    ∃ pos', readLevel ops payload .primary ⟨pos, (space ++ digits) ++ rest⟩ =
      (ExprTree.number digits).value ops payload >>= fun value => .ok (value, ⟨pos', rest⟩) := by
  have hall := hdigits.all
  obtain ⟨c, tail, rfl, hc⟩ := hdigits.exists_cons
  have hnot : isWhitespace c = false := Bool.eq_false_iff.2 fun hblank =>
    absurd hc (by rw [not_numeral_of_isWhitespace hblank]; exact Bool.false_ne_true)
  obtain ⟨pos', hskip⟩ := skip_append_cons hspace hnot pos (tail ++ rest)
  have hinput : space ++ (c :: tail) ++ rest = space ++ c :: (tail ++ rest) := by
    rw [List.append_assoc, List.cons_append]
  have hnone : NoCall (c :: (tail ++ rest)) := by
    refine fun rest' => ⟨fun h => ?_, fun h => ?_⟩
    · rw [List.head_eq_of_cons_eq h] at hc
      exact absurd hc (by decide)
    · have hp : c = 'p' := List.head_eq_of_cons_eq h
      rw [hp] at hc
      exact absurd hc (by decide)
  have htake : (c :: (tail ++ rest)).takeWhile (fun c => c.isDigit || c = '.') = c :: tail := by
    have hrest : rest.takeWhile (fun c => c.isDigit || c = '.') = [] := by
      cases rest with
      | nil => rfl
      | cons d rest => rw [List.takeWhile_cons, hends d rfl, if_neg Bool.false_ne_true]
    rw [← List.cons_append, List.takeWhile_append_of_pos (List.all_eq_true.1 hall), hrest,
      List.append_nil]
  refine ⟨pos' + utf8Length (c :: tail), ?_⟩
  rw [hinput, readLevel, ExprLevel.rank, readAt_number ops payload _ (by rw [hskip]; exact hnone),
    hskip, parseNumber, skip_of_not_space hnot]
  dsimp only
  rw [htake, if_neg (by exact Bool.false_ne_true), ExprTree.value]
  cases ops.parse (String.ofList (c :: tail)) with
  | none => rfl
  | some value =>
    have hdrop : (c :: (tail ++ rest)).drop (c :: tail).length = rest := by
      rw [← List.cons_append, List.drop_left]
    show Except.ok (value, _) = Except.ok (value, _)
    rw [hdrop]

omit ops payload in
theorem unescape_plain (hc : c ≠ '\\') (s : List Char) : unescape (c :: s) = c :: unescape s := by
  cases s with
  | nil => rfl
  | cons d s => rw [unescape, if_neg hc]

omit ops payload in
theorem parseQuoted_body {quote : Char} {body : List Char} (hbody : LiteralBody quote body)
    (rest : List Char) (pos : ℕ) :
    ∃ pos', parseQuoted quote pos (body ++ quote :: rest) = .ok (unescape body, ⟨pos', rest⟩) := by
  induction hbody generalizing pos with
  | nil =>
    refine ⟨pos + quote.utf8Size, ?_⟩
    cases rest with
    | nil => rw [List.nil_append, parseQuoted, if_pos rfl]; rfl
    | cons d rest => rw [List.nil_append, parseQuoted, if_pos rfl]; rfl
  | @escaped c s hquote _ ih =>
    obtain ⟨pos', hparsed⟩ := ih (pos + '\\'.utf8Size + c.utf8Size)
    refine ⟨pos', ?_⟩
    rw [List.cons_append, List.cons_append, parseQuoted, if_neg hquote.symm, if_pos rfl, hparsed,
      unescape, if_pos rfl]
    rfl
  | @plain c s hquote hslash _ ih =>
    obtain ⟨pos', hparsed⟩ := ih (pos + c.utf8Size)
    refine ⟨pos', ?_⟩
    obtain ⟨d, tail, htail⟩ : ∃ d tail, s ++ quote :: rest = d :: tail :=
      List.exists_cons_of_ne_nil (List.append_ne_nil_of_right_ne_nil _ (List.cons_ne_nil _ _))
    rw [htail] at hparsed
    rw [List.cons_append, htail, parseQuoted, if_neg hquote, if_neg hslash, hparsed,
      unescape_plain hslash]
    rfl

def closePathCall (parsed : List Char × Cursor) : Except ExprError (α × Cursor) :=
  match parsed.2.skip.rest with
  | ')' :: rest =>
    match (extractJsonPath payload parsed.1).bind (valueToF64 ops) with
    | some value => .ok (value, ⟨parsed.2.skip.pos + 1, rest⟩)
    | none => .error (.notNumeric parsed.1)
  | _ => .error .missingClosingAfterPath

theorem parsePathCall_open (h : cursor.skip.rest = '(' :: rest) :
    parsePathCall ops payload cursor =
      parseStringLiteral (Cursor.skip ⟨cursor.skip.pos + 1, rest⟩) >>=
        closePathCall ops payload := by
  rw [parsePathCall]
  simp only [h]
  rfl

theorem closePathCall_closed {path : List Char} (h : cursor.skip.rest = ')' :: rest) :
    closePathCall ops payload (path, cursor) =
      (ExprTree.reference path).value ops payload >>= fun value =>
        .ok (value, ⟨cursor.skip.pos + 1, rest⟩) := by
  rw [closePathCall, ExprTree.value]
  simp only [h]
  cases (extractJsonPath payload path).bind (valueToF64 ops) with
  | none => rfl
  | some value => rfl

theorem parsePathCall_spelled {space space' space'' body rest : List Char} {quote : Char}
    (hspace : IsSpace space) (hspace' : IsSpace space') (hspace'' : IsSpace space'')
    (hquote : quote = '\'' ∨ quote = '"') (hbody : LiteralBody quote body) (pos : ℕ) :
    ∃ pos', parsePathCall ops payload
        ⟨pos, space ++ '(' :: (space' ++ quote :: (body ++ quote :: (space'' ++ ')' :: rest)))⟩ =
      (ExprTree.reference (unescape body)).value ops payload >>= fun value =>
        .ok (value, ⟨pos', rest⟩) := by
  have hnot : isWhitespace quote = false := by
    rcases hquote with rfl | rfl <;> decide
  obtain ⟨pos₁, hopen⟩ := @skip_append_cons space hspace '(' (by decide) pos
    (space' ++ quote :: (body ++ quote :: (space'' ++ ')' :: rest)))
  obtain ⟨pos₂, hliteral⟩ := @skip_append_cons space' hspace' quote hnot (pos₁ + 1)
    (body ++ quote :: (space'' ++ ')' :: rest))
  obtain ⟨pos₃, hparsed⟩ := parseQuoted_body hbody (space'' ++ ')' :: rest)
    (pos₂ + quote.utf8Size)
  obtain ⟨pos₄, hclose⟩ := @skip_append_cons space'' hspace'' ')' (by decide) pos₃ rest
  have hstring : parseStringLiteral ⟨pos₂, quote :: (body ++ quote :: (space'' ++ ')' :: rest))⟩ =
      .ok (unescape body, ⟨pos₃, space'' ++ ')' :: rest⟩) := by
    rw [parseStringLiteral]
    dsimp only
    rw [if_pos hquote, hparsed]
  refine ⟨pos₄ + 1, ?_⟩
  rw [parsePathCall_open ops payload (by rw [hopen]), hopen, hliteral, hstring]
  show closePathCall ops payload (unescape body, _) = _
  rw [closePathCall_closed ops payload (by rw [hclose]), hclose]

omit ops payload in
theorem Spelled.noSign {tree : ExprTree} (h : Spelled CallReference .primary s tree) (pos : ℕ) :
    NoSign (Cursor.skip ⟨pos, s ++ rest⟩).rest := by
  have hhead : ∀ {space t : List Char} {c : Char}, IsSpace space → isWhitespace c = false →
      c ≠ '+' → c ≠ '-' → NoSign (Cursor.skip ⟨pos, space ++ c :: t⟩).rest := by
    intro space t c hspace hc hplus hminus rest
    obtain ⟨pos', hskip⟩ := skip_append_cons hspace hc pos t
    rw [hskip]
    exact ⟨fun h => hplus (List.head_eq_of_cons_eq h), fun h => hminus (List.head_eq_of_cons_eq h)⟩
  cases h with
  | @number space digits hspace hdigits =>
    obtain ⟨c, t, rfl, hc⟩ := hdigits.exists_cons
    rw [List.append_assoc, List.cons_append]
    refine hhead hspace (Bool.eq_false_iff.2 fun hblank => ?_) ?_ ?_
    · rw [not_numeral_of_isWhitespace hblank] at hc
      cases hc
    · rintro rfl
      cases hc
    · rintro rfl
      cases hc
  | @reference space s path hspace hs =>
    cases hs with
    | mk quote _ _ _ _ _ =>
      rw [List.append_assoc]
      exact hhead hspace (c := 'p') (by decide) (by decide) (by decide)
  | parens hspace _ _ =>
    rw [List.append_assoc, List.cons_append]
    exact hhead hspace (by decide) (by decide) (by decide)
  | binary operator hlevel _ _ _ _ => cases operator <;> cases hlevel

/-- **A text that spells a tree is read as this tree**: what is left is the loop of its level. -/
theorem readLevel_spelled {tree : ExprTree} (h : Spelled CallReference level s tree) (pos : ℕ)
    (hends : Ends level rest) :
    ∃ pos', readLevel ops payload level ⟨pos, s ++ rest⟩ =
      tree.value ops payload >>= fun value => levelLoop ops payload level value ⟨pos', rest⟩ := by
  -- along the spelling; the position is generalised, and so is what follows the text
  induction h generalizing pos rest with
  | number hspace hdigits => exact readLevel_numeral ops payload hspace hdigits hends.1 pos
  | @reference space _ _ hspace hs =>
    cases hs with
    | @mk space₁ space₂ space₃ body quote hspace₁ hspace₂ hspace₃ hquote hbody =>
      -- behind the spaces the reader stands at the name of the function
      have hinput : space ++ ("path".toList ++ (space₁ ++ '(' :: (space₂ ++ quote ::
            (body ++ quote :: (space₃ ++ [')']))))) ++ rest =
          space ++ 'p' :: ("ath".toList ++ (space₁ ++ '(' :: (space₂ ++ quote :: (body ++ quote ::
            (space₃ ++ ')' :: rest))))) := by
        simp only [List.append_assoc, List.cons_append, List.nil_append]
        rfl
      obtain ⟨pos₁, hskip⟩ := @skip_append_cons space hspace 'p' (by decide) pos
        ("ath".toList ++ (space₁ ++ '(' :: (space₂ ++ quote :: (body ++ quote ::
          (space₃ ++ ')' :: rest)))))
      obtain ⟨pos', hcall⟩ := @parsePathCall_spelled α ops payload space₁ space₂ space₃ body rest
        quote hspace₁ hspace₂ hspace₃ hquote hbody (pos₁ + 4)
      refine ⟨pos', ?_⟩
      rw [hinput, readLevel, ExprLevel.rank, readAt_path ops payload _ (by rw [hskip]; rfl), hskip]
      exact hcall
  | @parens space s space' tree hspace hspace' _ ih =>
    have hinput : space ++ '(' :: (s ++ (space' ++ [')'])) ++ rest =
        space ++ '(' :: (s ++ (space' ++ ')' :: rest)) := by
      simp only [List.append_assoc, List.cons_append, List.nil_append]
    obtain ⟨pos₁, hskip⟩ := @skip_append_cons space hspace '(' (by decide) pos
      (s ++ (space' ++ ')' :: rest))
    -- the parenthesis ends the sum inside
    have hclose : Ends .sum (space' ++ ')' :: rest) :=
      ends_space_cons hspace' (by decide) (by decide) fun _ => by decide
    obtain ⟨pos₂, hread⟩ := ih (pos₁ + 1) hclose
    obtain ⟨pos₃, hskip'⟩ := @skip_append_cons space' hspace' ')' (by decide) pos₂ rest
    refine ⟨pos₃ + 1, ?_⟩
    rw [hinput, readLevel_parens ops payload (by rw [hskip]), hskip, hread]
    cases tree.value ops payload with
    | error error => rfl
    | ok value =>
      -- so its loop stops there, and the parenthesis is taken
      have hnone : NoOperator .sum (Cursor.skip ⟨pos₂, space' ++ ')' :: rest⟩).rest := by
        rw [hskip']
        intro operator hlevel rest' hrest
        have hhead : ')' = operator.char := List.head_eq_of_cons_eq hrest
        cases operator <;> exact absurd hhead (by decide)
      show (levelLoop ops payload .sum value ⟨pos₂, space' ++ ')' :: rest⟩ >>= closeParens) = _
      rw [levelLoop_sum_stop ops payload value hnone]
      show closeParens (value, _) = _
      rw [closeParens, hskip', skip_of_not_space (by decide)]
      rfl
  -- levels without an operator of their own
  | ofPrimary hs ih =>
    obtain ⟨pos', hread⟩ := ih pos ⟨hends.1, fun hlevel => by cases hlevel⟩
    refine ⟨pos', ?_⟩
    rw [readLevel_unsigned ops payload (hs.noSign pos), readLevel_primary_skip]
    exact hread
  | @positive space s tree hspace _ ih =>
    obtain ⟨pos₁, hskip⟩ := @skip_append_cons space hspace '+' (by decide) pos (s ++ rest)
    obtain ⟨pos', hread⟩ := ih (pos₁ + 1) hends
    refine ⟨pos', ?_⟩
    rw [List.append_assoc, List.cons_append, readLevel_positive ops payload (by rw [hskip]), hskip]
    exact hread
  | @negative space s tree hspace _ ih =>
    obtain ⟨pos₁, hskip⟩ := @skip_append_cons space hspace '-' (by decide) pos (s ++ rest)
    obtain ⟨pos', hread⟩ := ih (pos₁ + 1) hends
    refine ⟨pos', ?_⟩
    rw [List.append_assoc, List.cons_append, readLevel_negative ops payload (by rw [hskip]), hskip,
      hread, ExprTree.value]
    cases tree.value ops payload with
    | error error => rfl
    | ok value => rfl
  | @ofUnary s tree _ ih =>
    obtain ⟨pos', hread⟩ := ih pos ⟨hends.1, fun hlevel => by cases hlevel⟩
    refine ⟨pos', ?_⟩
    rw [readLevel_product, hread]
    cases tree.value ops payload with
    | error error => rfl
    | ok value => rfl
  | @ofProduct s tree _ ih =>
    obtain ⟨pos', hread⟩ := ih pos ⟨hends.1, fun hlevel => by cases hlevel⟩
    -- what ends a sum ends its only product, and the loop of sums goes on there
    obtain ⟨cursor, hstop, hloop⟩ := operand_stop ops payload .plus hends pos'
    refine ⟨pos', ?_⟩
    rw [readLevel_sum, hread]
    cases tree.value ops payload with
    | error error => rfl
    | ok value =>
      show (levelLoop ops payload .product value ⟨pos', rest⟩ >>= fun p =>
        levelLoop ops payload .sum p.1 p.2) = _
      rw [show levelLoop ops payload .product value ⟨pos', rest⟩ = .ok (value, cursor) from
        hstop value]
      exact hloop value
  | @binary s space s' level operandLevel left right operator hlevel hoperand hspace _ _ ihleft
      ihright =>
    subst hlevel hoperand
    have hinput : s ++ (space ++ operator.char :: s') ++ rest =
        s ++ (space ++ operator.char :: (s' ++ rest)) := by
      rw [List.append_assoc, List.append_assoc, List.cons_append]
    have hnever : operator.operandLevel ≠ .sum := by cases operator <;> exact fun h => nomatch h
    -- the left operand leaves its level's loop in front of the operator
    obtain ⟨pos₁, hleft⟩ := ihleft pos (ends_operator (s := s' ++ rest) hspace operator)
    obtain ⟨pos₂, hskip⟩ := skip_append_cons hspace operator.char_not_blank pos₁ (s' ++ rest)
    -- which reads the right operand, and goes on behind it
    obtain ⟨pos₃, hright⟩ := ihright (pos₂ + 1) ⟨hends.1, fun hlevel => absurd hlevel hnever⟩
    obtain ⟨cursor, hstop, hloop⟩ := operand_stop ops payload operator hends pos₃
    refine ⟨pos₃, ?_⟩
    rw [hinput, hleft, ExprTree.value]
    cases left.value ops payload with
    | error error => rfl
    | ok l =>
      show levelLoop ops payload operator.level l ⟨pos₁, _⟩ =
        ((right.value ops payload >>= fun r => operator.compute ops l r) >>= _)
      rw [levelLoop_operator ops payload operator l (by rw [hskip]), hskip, hright]
      cases right.value ops payload with
      | error error => rfl
      | ok r =>
        show (levelLoop ops payload operator.operandLevel r ⟨pos₃, rest⟩ >>= _) =
          (operator.compute ops l r >>= _)
        rw [hstop r]
        show (operator.compute ops l r >>= fun value' =>
          levelLoop ops payload operator.level value' cursor) = _
        rw [funext hloop]

end

/-! ### What is read spells a tree -/

def Arithmetic.ReadsNumerals {α : Type} (ops : Arithmetic α) : Prop :=
  ∀ digits, (digits.all fun c => c.isDigit || c = '.') = true →
    ((ops.parse (String.ofList digits)).isSome = true ↔ IsNumeral digits)

section

variable {α : Type} (ops : Arithmetic α) (payload : Json)

def Computes (level : ExprLevel) (input : List Char) : Except ExprError (α × Cursor) → Prop
  | .error _ => True
  | .ok parsed => ∃ s space tree, IsSpace space ∧ Spelled CallReference level s tree ∧
      tree.value ops payload = .ok parsed.1 ∧ input = s ++ (space ++ parsed.2.rest)

variable {ops payload}

theorem Computes.bind {level level' : ExprLevel} {input input' : List Char}
    {parsed : Except ExprError (α × Cursor)} {next : α × Cursor → Except ExprError (α × Cursor)}
    (h : Computes ops payload level input parsed)
    (hnext : ∀ s space tree value cursor, IsSpace space → Spelled CallReference level s tree →
      tree.value ops payload = .ok value → input = s ++ (space ++ cursor.rest) →
      Computes ops payload level' input' (next (value, cursor))) :
    Computes ops payload level' input' (parsed >>= next) := by
  cases parsed with
  | error error => trivial
  | ok parsed =>
    obtain ⟨s, space, tree, hspace, hs, hvalue, hinput⟩ := h
    exact hnext s space tree parsed.1 parsed.2 hspace hs hvalue hinput

theorem Computes.level {level level' : ExprLevel} {input front : List Char}
    {parsed : Except ExprError (α × Cursor)} (h : Computes ops payload level input parsed)
    (hlevel : ∀ s tree, Spelled CallReference level s tree →
      ∃ tree', Spelled CallReference level' (front ++ s) tree' ∧
        tree'.value ops payload = tree.value ops payload) :
    Computes ops payload level' (front ++ input) parsed := by
  cases parsed with
  | error error => trivial
  | ok parsed =>
    obtain ⟨s, space, tree, hspace, hs, hvalue, rfl⟩ := h
    obtain ⟨tree', hs', hvalue'⟩ := hlevel s tree hs
    exact ⟨front ++ s, space, tree', hspace, hs', hvalue'.trans hvalue, by
      rw [List.append_assoc]⟩

variable (payload) in
theorem computes_parseNumber (hops : ops.ReadsNumerals) (cursor : Cursor) :
    Computes ops payload .primary cursor.rest (parseNumber ops cursor.skip) := by
  obtain ⟨space, hspace, hrest⟩ := exists_space_skip cursor
  rw [parseNumber, skip_skip]
  split_ifs with hempty
  · trivial
  · generalize hraw : cursor.skip.rest.takeWhile (fun c => c.isDigit || c = '.') = raw at hempty ⊢
    have hall : (raw.all fun c => c.isDigit || c = '.') = true := by
      rw [← hraw]
      refine List.all_eq_true.2 fun c hc => ?_
      exact @List.mem_takeWhile_imp _ (fun c => c.isDigit || c = '.') _ _ hc
    cases hvalue : ops.parse (String.ofList raw) with
    | none => trivial
    | some value =>
      have hnumeral := (hops raw hall).1 (by rw [hvalue]; rfl)
      have hsplit : raw ++ cursor.skip.rest.drop raw.length = cursor.skip.rest := by
        rw [← hraw]
        exact List.prefix_iff_eq_append.1 (List.takeWhile_prefix _)
      refine ⟨space ++ raw, [], .number raw, rfl, .number hspace hnumeral, ?_, ?_⟩
      · rw [ExprTree.value, hvalue]
      · show cursor.rest = _
        rw [List.nil_append, List.append_assoc, hsplit]
        exact hrest

omit ops payload in
theorem literalBody_of_parseQuoted {quote : Char} (hquote : quote ≠ '\\') {pos : ℕ}
    {s path : List Char} {cursor : Cursor} (h : parseQuoted quote pos s = .ok (path, cursor)) :
    ∃ body, LiteralBody quote body ∧ s = body ++ quote :: cursor.rest ∧ path = unescape body := by
  have hliteral := readsLiteral_parseQuoted hquote pos s
  rw [h] at hliteral
  obtain ⟨body, hbody, rfl⟩ := hliteral
  obtain ⟨pos', hparsed⟩ := parseQuoted_body hbody cursor.rest pos
  refine ⟨body, hbody, rfl, ?_⟩
  exact congrArg Prod.fst (Except.ok.inj (h.symm.trans hparsed))

variable (ops payload) in
theorem computes_parsePathCall {cursor : Cursor} {space rest : List Char} (hspace : IsSpace space)
    (hrest : cursor.rest = space ++ ("path".toList ++ rest)) (pos : ℕ) :
    Computes ops payload .primary cursor.rest (parsePathCall ops payload ⟨pos, rest⟩) := by
  obtain ⟨space₁, hspace₁, hopen⟩ := exists_space_skip ⟨pos, rest⟩
  rw [parsePathCall]
  dsimp only
  split
  · rename_i rest₁ hrest₁
    obtain ⟨space₂, hspace₂, hliteral⟩ :=
      exists_space_skip ⟨(Cursor.skip ⟨pos, rest⟩).pos + 1, rest₁⟩
    generalize hcursor :
      Cursor.skip ⟨(Cursor.skip ⟨pos, rest⟩).pos + 1, rest₁⟩ = cursor₂ at hliteral ⊢
    cases hstring : parseStringLiteral cursor₂ with
    | error error => trivial
    | ok parsed =>
      obtain ⟨path, cursor₃⟩ := parsed
      show Computes ops payload .primary cursor.rest (match cursor₃.skip.rest with
        | ')' :: rest => _
        | _ => _)
      -- the literal as it stands in the text
      obtain ⟨quote, body, hquote, hbody, hbehind, rfl⟩ : ∃ quote body,
          (quote = '\'' ∨ quote = '"') ∧ LiteralBody quote body ∧
            cursor₂.rest = quote :: (body ++ quote :: cursor₃.rest) ∧ path = unescape body := by
        rw [parseStringLiteral] at hstring
        cases hquoted : cursor₂.rest with
        | nil =>
          rw [hquoted] at hstring
          cases hstring
        | cons quote inside =>
          rw [hquoted] at hstring
          dsimp only at hstring
          split_ifs at hstring with hquote
          have hslash : quote ≠ '\\' := by
            rcases hquote with rfl | rfl <;> decide
          obtain ⟨body, hbody, rfl, hpath⟩ := literalBody_of_parseQuoted hslash hstring
          exact ⟨quote, body, hquote, hbody, rfl, hpath⟩
      split
      · rename_i rest₃ hclose
        obtain ⟨space₃, hspace₃, hend⟩ := exists_space_skip cursor₃
        cases hvalue : (extractJsonPath payload (unescape body)).bind (valueToF64 ops) with
        | none => trivial
        | some value =>
          refine ⟨_, [], .reference (unescape body), rfl,
            .reference hspace (.mk quote hspace₁ hspace₂ hspace₃ hquote hbody), ?_, ?_⟩
          · rw [ExprTree.value, hvalue]
          · -- the pieces that were read, put together again
            have hrest' : rest = space₁ ++ '(' :: (space₂ ++ quote :: (body ++ quote ::
                (space₃ ++ ')' :: rest₃))) := by
              rw [← hclose, ← hend, ← hbehind, ← hliteral, ← hrest₁, ← hopen]
            show cursor.rest = _ ++ ([] ++ rest₃)
            rw [hrest, hrest']
            simp only [List.append_assoc, List.cons_append, List.nil_append]
      · trivial
  · trivial

variable (payload) in
theorem computes_all (hops : ops.ReadsNumerals) (fuel : ℕ) :
    (∀ level cursor,
      Computes ops payload level cursor.rest (readAt ops payload level fuel cursor)) ∧
    ∀ level value cursor s space tree, IsSpace space → Spelled CallReference level s tree →
      tree.value ops payload = .ok value →
      Computes ops payload level (s ++ (space ++ cursor.rest))
        (loopAt ops payload level fuel value cursor) := by
  -- on the fuel: readers and loops of all levels at once
  induction fuel with
  | zero =>
    refine ⟨fun level cursor => ?_, fun level value cursor s space tree hspace hs hvalue => ?_⟩
    · cases level <;> trivial
    · cases level with
      | primary => exact ⟨s, space, tree, hspace, hs, hvalue, rfl⟩
      | unary => exact ⟨s, space, tree, hspace, hs, hvalue, rfl⟩
      | product => trivial
      | sum => trivial
  | succ fuel ih =>
    obtain ⟨hread, hloop⟩ := ih
    refine ⟨fun level cursor => ?_, fun level value cursor s space tree hspace hs hvalue => ?_⟩
    · obtain ⟨space, hspace, hskip⟩ := exists_space_skip cursor
      cases level with
      | sum =>
        rw [readAt_sum]
        refine (hread .product cursor).bind
          fun s space tree value cursor' hspace hs hvalue hinput => ?_
        rw [hinput]
        -- what the product spells is the first operand of the loop
        exact hloop .sum value cursor' s space tree hspace (.ofProduct hs) hvalue
      | product =>
        rw [readAt_product]
        refine (hread .unary cursor).bind
          fun s space tree value cursor' hspace hs hvalue hinput => ?_
        rw [hinput]
        exact hloop .product value cursor' s space tree hspace (.ofUnary hs) hvalue
      | unary =>
        rcases sign_or_not cursor.skip.rest with ⟨rest, hrest⟩ | ⟨rest, hrest⟩ | hnone
        -- the sign belongs to the text, with the spaces in front of it
        · rw [readAt_positive ops payload fuel hrest, hskip, hrest,
            ← List.singleton_append, ← List.append_assoc]
          refine (hread .unary ⟨cursor.skip.pos + 1, rest⟩).level fun s tree hs => ?_
          refine ⟨.positive tree, ?_, rfl⟩
          rw [List.append_assoc]
          exact .positive hspace hs
        · rw [readAt_negative ops payload fuel hrest]
          refine (hread .unary ⟨cursor.skip.pos + 1, rest⟩).bind
            fun s space' tree value cursor' hspace' hs hvalue hinput => ?_
          refine ⟨space ++ '-' :: s, space', .negative tree, hspace', .negative hspace hs, ?_, ?_⟩
          · rw [ExprTree.value, hvalue]
            rfl
          · rw [hskip, hrest, show rest = _ from hinput, List.append_assoc, List.cons_append]
        · rw [readAt_unsigned ops payload fuel hnone, hskip]
          exact (hread .primary cursor.skip).level fun s tree hs =>
            ⟨tree, .ofPrimary (hs.space hspace), rfl⟩
      | primary =>
        -- a parenthesis, a call or a number
        rcases call_or_not cursor.skip.rest with ⟨rest, hrest⟩ | ⟨rest, hrest⟩ | hnone
        · rw [readAt_parens ops payload fuel hrest]
          refine (hread .sum ⟨cursor.skip.pos + 1, rest⟩).bind
            fun s space' tree value cursor' hspace' hs hvalue hinput => ?_
          obtain ⟨space'', hspace'', hskip'⟩ := exists_space_skip cursor'
          rw [closeParens]
          dsimp only
          split
          · rename_i rest' hrest'
            refine ⟨space ++ '(' :: (s ++ ((space' ++ space'') ++ [')'])), [], tree, rfl,
              .parens hspace (hspace'.append hspace'') hs, hvalue, ?_⟩
            rw [hskip, hrest, show rest = _ from hinput, hskip', hrest']
            simp only [List.append_assoc, List.cons_append, List.nil_append]
          · trivial
        · rw [readAt_path ops payload fuel hrest]
          exact computes_parsePathCall ops payload hspace (by rw [hskip, hrest]) _
        · rw [readAt_number ops payload fuel hnone]
          exact computes_parseNumber payload hops cursor
    -- the loop: an operator makes a greater tree of what was read, or it stops
    · rcases operator_or_not level cursor.skip.rest with ⟨operator, rest, rfl, hrest⟩ | hnone
      · obtain ⟨space', hspace', hskip⟩ := exists_space_skip cursor
        rw [loopAt_operator ops payload operator fuel value hrest]
        refine (hread operator.operandLevel ⟨cursor.skip.pos + 1, rest⟩).bind
          fun s' space'' right r cursor' hspace'' hs' hright hinput => ?_
        cases hcompute : operator.compute ops value r with
        | error error => trivial
        | ok value' =>
          have hbinary : (ExprTree.binary tree operator right).value ops payload = .ok value' := by
            rw [ExprTree.value, hvalue, hright]
            exact hcompute
          have hnext := hloop operator.level value' cursor' _ space'' _ hspace''
            (.binary operator rfl rfl (hspace.append hspace') hs hs') hbinary
          -- the text so far, the operator and the operand are what was there
          have hall : s ++ (space ++ cursor.rest) =
              s ++ ((space ++ space') ++ operator.char :: s') ++ (space'' ++ cursor'.rest) := by
            rw [hskip, hrest, show rest = _ from hinput]
            simp only [List.append_assoc, List.cons_append]
          rw [hall]
          exact hnext
      · obtain ⟨space', hspace', hskip⟩ := exists_space_skip cursor
        have hstop : Computes ops payload level (s ++ (space ++ cursor.rest))
            (.ok (value, cursor.skip)) :=
          ⟨s, space ++ space', tree, hspace.append hspace', hs, hvalue, by
            rw [List.append_assoc, ← hskip]⟩
        cases level with
        | primary => exact ⟨s, space, tree, hspace, hs, hvalue, rfl⟩
        | unary => exact ⟨s, space, tree, hspace, hs, hvalue, rfl⟩
        | product =>
          rw [loopAt_product_stop ops payload fuel value hnone]
          exact hstop
        | sum =>
          rw [loopAt_sum_stop ops payload fuel value hnone]
          exact hstop

end

end AiOpenRouter
