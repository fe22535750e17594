/-
What is known of a printed JSON value.

* `isPlainLine_compact`: an object that prints in printable ASCII prints as one
  plain line, which an event block carries as it is;
* `length_compact_of_getStr`: the text of an object is as long as the strings in it;
* `fromStr_ofValues`: an environment of values reads the text of each of them.
-/
import AiOpenRouter.Json
import AiOpenRouter.SseBlocks
import AiOpenRouter.Sequences

namespace AiOpenRouter

/-! ### Integers -/

theorem toList_toString_ofNat (n : ℕ) : (toString (n : ℤ)).toList = Nat.toDigits 10 n :=
  Nat.toList_repr

theorem toList_toString_negSucc (n : ℕ) :
    (toString (Int.negSucc n)).toList = '-' :: Nat.toDigits 10 (n + 1) := by
  have htext : toString (Int.negSucc n) = "-" ++ (n + 1).repr := rfl
  rw [htext, String.toList_append, Nat.toList_repr]
  rfl

theorem isDigit_of_mem_int {n : ℤ} {c : Char} (h : c ∈ (toString n).toList) :
    c.isDigit = true ∨ c = '-' := by
  cases n with
  | ofNat n =>
    rw [Int.ofNat_eq_natCast, toList_toString_ofNat] at h
    exact .inl (Nat.isDigit_of_mem_toDigits (by decide) (by decide) h)
  | negSucc n =>
    rw [toList_toString_negSucc] at h
    rcases List.mem_cons.1 h with rfl | h
    · exact .inr rfl
    · exact .inl (Nat.isDigit_of_mem_toDigits (by decide) (by decide) h)

namespace Json

/-! ### Numbers in a value -/

variable {key : String} {data : Json}

theorem getI64_of_get {n : ℤ} (hget : data.get key = some (.int n))
    (h : -9223372036854775808 ≤ n ∧ n < 9223372036854775808) : data.getI64 key = some n := by
  rw [getI64, hget, Option.bind_some, int, asI64, if_pos h]

theorem getI64_of_get_nat {n : ℕ} (hget : data.get key = some (.int n))
    (h : n < 9223372036854775808) : data.getI64 key = some n :=
  getI64_of_get hget (by omega)

/-! ### Printable values -/

def isPrintable (c : Char) : Bool := 32 ≤ c.toNat && c.toNat < 127

mutual

def printable : Json → Bool
  | .null | .bool _ | .num (.int _) => true
  | .num (.float text) => text.toList.all isPrintable
  | .str s => s.toList.all isPrintable
  | .arr items => printableItems items
  | .obj fields => printableFields fields

def printableItems : List Json → Bool
  | [] => true
  | item :: items => item.printable && printableItems items

def printableFields : List (String × Json) → Bool
  | [] => true
  | (key, value) :: fields =>
    key.toList.all isPrintable && value.printable && printableFields fields

end

/-! ### Printed values -/

def PrintableText (s : String) : Prop := ∀ c ∈ s.toList, isPrintable c = true

instance (s : String) : Decidable (PrintableText s) := List.decidableBAll _ s.toList

theorem PrintableText.append {s t : String} (hs : PrintableText s) (ht : PrintableText t) :
    PrintableText (s ++ t) := by
  intro c hc
  rw [String.toList_append] at hc
  exact (List.mem_append.1 hc).elim (hs c) (ht c)

theorem PrintableText.intercalate {sep : String} {xs : List String} (hsep : PrintableText sep)
    (h : ∀ x ∈ xs, PrintableText x) : PrintableText (sep.intercalate xs) := by
  induction xs using List.reverseRecOn with
  | nil => exact fun c hc => absurd hc (by simp)
  | append_singleton xs x ih =>
    have hx : PrintableText x := h x (List.mem_append_right _ List.mem_cons_self)
    have hxs := ih fun y hy => h y (List.mem_append_left _ hy)
    rw [intercalate_concat]
    split_ifs
    · exact hx
    · exact (hxs.append hsep).append hx

theorem printableText_int (n : ℤ) : PrintableText (toString n) := by
  intro c hc
  rcases isDigit_of_mem_int hc with hdigit | rfl
  · have hdigits : '0'.toNat = 48 ∧ '9'.toNat = 57 := by decide
    rw [Char.isDigit_iff_toNat] at hdigit
    rw [isPrintable, Bool.and_eq_true, decide_eq_true_iff, decide_eq_true_iff]
    omega
  · decide

theorem printableText_quote {s : String} (h : PrintableText s) : PrintableText (quote s) := by
  have hquotes : PrintableText "\"" := fun c hc => by
    rw [List.mem_singleton.1 hc]
    decide
  refine (hquotes.append fun c hc => ?_).append hquotes
  rw [String.toList_ofList] at hc
  obtain ⟨d, hd, hc⟩ := List.mem_flatMap.1 hc
  have hprintable := h d hd
  have hrange : 32 ≤ d.toNat ∧ d.toNat < 127 := by
    rwa [isPrintable, Bool.and_eq_true, decide_eq_true_iff, decide_eq_true_iff] at hprintable
  -- a printable character is escaped by a backslash or not at all
  unfold escapeChar at hc
  split_ifs at hc <;> first | omega | skip
  · simp only [List.mem_cons, List.not_mem_nil, or_false] at hc
    rcases hc with rfl | rfl <;> decide
  · simp only [List.mem_cons, List.not_mem_nil, or_false] at hc
    rcases hc with rfl | rfl <;> decide
  · rwa [List.mem_singleton.1 hc]

mutual

theorem printableText_compact : ∀ {data : Json}, data.printable = true →
    PrintableText data.compact
  | .null, _ => by decide
  | .bool true, _ => by decide
  | .bool false, _ => by decide
  | .num (.int n), _ => by
    rw [compact]
    exact printableText_int n
  | .num (.float text), h => by
    rw [compact]
    exact List.all_eq_true.1 h
  | .str s, h => by
    rw [compact]
    exact printableText_quote (List.all_eq_true.1 h)
  | .arr items, h => by
    rw [compact]
    exact (((by decide : PrintableText "[").append (.intercalate (by decide)
      (printableText_compactItems h))).append (by decide))
  | .obj fields, h => by
    rw [compact]
    refine ((by decide : PrintableText "\x7b").append (.intercalate (by decide) fun x hx =>
      ?_)).append
      (by decide)
    obtain ⟨field, hfield, rfl⟩ := List.mem_map.1 hx
    have hmem := (List.mem_insertionSort fun a b : String × String => a.1 ≤ b.1).1 hfield
    obtain ⟨hkey, hvalue⟩ := printableText_compactFields h field hmem
    exact ((printableText_quote hkey).append (by decide)).append hvalue

theorem printableText_compactItems : ∀ {items : List Json}, printableItems items = true →
    ∀ x ∈ compactItems items, PrintableText x
  | [], _, _, hx => nomatch hx
  | item :: items, h, x, hx => by
    rw [printableItems, Bool.and_eq_true] at h
    rw [compactItems] at hx
    rcases List.mem_cons.1 hx with rfl | hx
    · exact printableText_compact h.1
    · exact printableText_compactItems h.2 x hx

theorem printableText_compactFields : ∀ {fields : List (String × Json)},
    printableFields fields = true →
      ∀ field ∈ compactFields fields, PrintableText field.1 ∧ PrintableText field.2
  | [], _, _, hfield => nomatch hfield
  | (key, value) :: fields, h, field, hfield => by
    rw [printableFields, Bool.and_eq_true, Bool.and_eq_true] at h
    rw [compactFields] at hfield
    rcases List.mem_cons.1 hfield with rfl | hfield
    · exact ⟨List.all_eq_true.1 h.1.1, printableText_compact h.1.2⟩
    · exact printableText_compactFields h.2 field hfield

end

theorem isPlainLine_compact {fields : List (String × Json)}
    (h : (obj fields).printable = true) : Text.IsPlainLine (obj fields).compact := by
  refine ⟨fun c hc => ?_, '\x7d', ?_, by decide⟩
  · have hc := printableText_compact h c hc
    rwa [isPrintable, Bool.and_eq_true, decide_eq_true_iff, decide_eq_true_iff] at hc
  · rw [compact, String.toList_append, List.getLast?_append]
    exact rfl

theorem compactItems_eq_map (items : List Json) : compactItems items = items.map compact := by
  induction items with
  | nil => rw [compactItems, List.map_nil]
  | cons item items ih => rw [compactItems, ih, List.map_cons]

theorem mem_compactFields {fields : List (String × Json)} {value : Json}
    (h : fields.lookup key = some value) : (key, value.compact) ∈ compactFields fields := by
  induction fields with
  | nil => simp at h
  | cons field fields ih =>
    rw [List.lookup_cons] at h
    rw [compactFields]
    split at h
    · rename_i heq
      obtain rfl := eq_of_beq heq
      cases h
      exact List.mem_cons_self
    · exact List.mem_cons_of_mem _ (ih h)

/-! ### Lengths -/

theorem length_le_intercalate {sep x : String} {xs : List String} (h : x ∈ xs) :
    x.length ≤ (sep.intercalate xs).length := by
  induction xs using List.reverseRecOn with
  | nil => simp at h
  | append_singleton xs y ih =>
    rw [intercalate_concat]
    split_ifs with hnil
    · rw [hnil, List.nil_append, List.mem_singleton] at h
      rw [h]
    · rw [String.length_append, String.length_append]
      rcases List.mem_append.1 h with h | h
      · have hle := ih h
        omega
      · rw [List.mem_singleton.1 h]
        omega

theorem length_le_quote (s : String) : s.length ≤ (quote s).length := by
  have hle : s.toList.length ≤ (s.toList.flatMap escapeChar).length := by
    induction s.toList with
    | nil => exact le_rfl
    | cons c s ih =>
      have hc : 1 ≤ (escapeChar c).length := by
        unfold escapeChar
        split_ifs <;> simp
      rw [List.flatMap_cons, List.length_append, List.length_cons]
      omega
  have hlength : (String.ofList (s.toList.flatMap escapeChar)).length =
      (s.toList.flatMap escapeChar).length := String.length_ofList
  rw [String.length_toList] at hle
  rw [quote, String.length_append, String.length_append, hlength]
  omega

theorem length_compact_of_getStr {text : String} (h : data.getStr key = some text) :
    text.length ≤ data.compact.length := by
  obtain ⟨value, hget, hstr⟩ := Option.bind_eq_some_iff.1 h
  cases data with
  | obj fields =>
    have hvalue : value = .str text := by
      cases value with
      | str s => exact congrArg Json.str (Option.some.inj hstr)
      | _ => cases hstr
    have hmem := mem_compactFields hget
    have hsorted := (List.mem_insertionSort fun a b : String × String => a.1 ≤ b.1).2 hmem
    have hmapped := @List.mem_map_of_mem _ _ _ _
      (fun field : String × String => quote field.1 ++ ":" ++ field.2) hsorted
    have hfield := @length_le_intercalate "," _ _ hmapped
    have hquote := length_le_quote text
    rw [hvalue, compact, String.length_append, String.length_append] at hfield
    dsimp only at hfield
    rw [compact, String.length_append, String.length_append]
    omega
  | _ => cases hget

end Json

/-! ### An environment of values -/

theorem compact_of_fromStr_ofValues {values : List Json} {text : String} {value : Json}
    (h : (Env.ofValues values).fromStr text = .ok value) :
    value ∈ values ∧ value.compact = text := by
  simp only [Env.ofValues] at h
  split at h
  · rename_i found hfound
    cases h
    have htext := List.find?_some hfound
    exact ⟨List.mem_of_find?_eq_some hfound, eq_of_beq htext⟩
  · cases h

/-- **The text of a value is read back**, where no two values have one text. -/
theorem fromStr_ofValues {values : List Json} (hnodup : (values.map Json.compact).Nodup)
    {value : Json} (hmem : value ∈ values) :
    (Env.ofValues values).fromStr value.compact = .ok value := by
  cases hfound : values.find? fun other => other.compact == value.compact with
  | none => exact absurd (List.find?_eq_none.1 hfound value hmem) (by simp)
  | some found =>
    have htext := List.find?_some hfound
    have hsame : found = value := List.inj_on_of_nodup_map hnodup
      (List.mem_of_find?_eq_some hfound) hmem (eq_of_beq htext)
    simp only [Env.ofValues, hfound, hsame]

end AiOpenRouter
