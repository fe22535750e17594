/-
Where an embedded JSON object ends (`find_json_object_end`).

The depth of the scan is an `i32` that wraps around, which ends a deeper object early.

* `spans_of_spells`: with an exact depth, the text of a part leaves the scan where it was;
* `scan_wrapI32`: the wrapped depth ends an object where the exact one does when its braces nest at
  most `2 ^ 32` deep, and too early when they nest deeper;
* `findJsonObjectEnd_iff`, `offeredWhole`: so for the bytes of a text around it, and for what the
  fallback offers to the JSON parser.
-/
import AiOpenRouter.JsonTexts
import AiOpenRouter.LossyDecoding
import AiOpenRouter.TextToolCalls

namespace AiOpenRouter

open JsonText Text

/-! ### The scan -/

structure ObjectMarks (α : Type) where
  quote : α
  backslash : α
  opening : α
  closing : α

namespace ObjectMarks

variable {α : Type} [DecidableEq α]

/-- The loop of `find_json_object_end`: how much further the object ends. -/
def scan (marks : ObjectMarks α) (wrap : ℤ → ℤ) (depth : ℤ) (inString escaped : Bool) :
    List α → Option ℕ
  | [] => none
  | b :: rest =>
    if inString then
      if escaped then (scan marks wrap depth true false rest).map (· + 1)
      else (scan marks wrap depth (b ≠ marks.quote) (b = marks.backslash) rest).map (· + 1)
    else if b = marks.quote then (scan marks wrap depth true false rest).map (· + 1)
    else if b = marks.opening then
      (scan marks wrap (wrap (depth + 1)) false false rest).map (· + 1)
    else if b = marks.closing then
      if wrap (depth - 1) = 0 then some 0
      else (scan marks wrap (wrap (depth - 1)) false false rest).map (· + 1)
    else (scan marks wrap depth false false rest).map (· + 1)

end ObjectMarks

def charMarks : ObjectMarks Char := ⟨'"', '\\', '\x7b', '\x7d'⟩

def byteMarks : ObjectMarks UInt8 := ⟨34, 92, 123, 125⟩

/-- `find_json_object_end`. -/
def findJsonObjectEnd (bytes : Bytes) (start : ℕ) : Option ℕ :=
  if bytes[start]? = some byteMarks.opening then
    (byteMarks.scan wrapI32 0 false false (bytes.drop start)).map (start + ·)
  else none

theorem scanObject_eq (depth : ℤ) (inString escaped : Bool) (s : List Char) :
    scanObject depth inString escaped s = charMarks.scan wrapI32 depth inString escaped s := by
  induction s generalizing depth inString escaped with
  | nil => rfl
  | cons c s ih =>
    rw [scanObject, ObjectMarks.scan, ih, ih, ih, ih, ih]
    rfl

/-! ### Bytes and characters -/

/-- The bytes of a text. -/
def utf8 (s : List Char) : Bytes := s.flatMap String.utf8EncodeChar

theorem utf8_append (s t : List Char) : utf8 (s ++ t) = utf8 s ++ utf8 t := List.flatMap_append

theorem utf8_cons (c : Char) (s : List Char) : utf8 (c :: s) = String.utf8EncodeChar c ++ utf8 s :=
  List.flatMap_cons

variable {s : List Char} {c : Char}

theorem one_byte_le (h : 128 ≤ c.toNat) : ∀ b ∈ String.utf8EncodeChar c, 128 ≤ b.toNat := by
  have hvalid : c.toNat < 0xD800 ∨ (0xDFFF < c.toNat ∧ c.toNat < 0x110000) := c.valid
  have hval : c.val.toNat = c.toNat := rfl
  have hbyte : ∀ n, 128 ≤ n → n < 256 → 128 ≤ (UInt8.ofNat n).toNat := fun n hlow hhigh => by
    rw [UInt8.toNat_ofNat_of_lt' hhigh]
    exact hlow
  unfold String.utf8EncodeChar
  dsimp only
  rw [hval]
  split_ifs with h1 h2 h3
  · omega
  · simp only [List.forall_mem_cons]
    exact ⟨hbyte _ (by omega) (by omega), hbyte _ (by omega) (by omega), by simp⟩
  · simp only [List.forall_mem_cons]
    exact ⟨hbyte _ (by omega) (by omega), hbyte _ (by omega) (by omega),
      hbyte _ (by omega) (by omega), by simp⟩
  · simp only [List.forall_mem_cons]
    exact ⟨hbyte _ (by omega) (by omega), hbyte _ (by omega) (by omega),
      hbyte _ (by omega) (by omega), hbyte _ (by omega) (by omega), by simp⟩

namespace ObjectMarks

variable {α : Type} [DecidableEq α] {marks : ObjectMarks α} {wrap : ℤ → ℤ}

def IsOther (marks : ObjectMarks α) (b : α) : Prop :=
  b ≠ marks.quote ∧ b ≠ marks.backslash ∧ b ≠ marks.opening ∧ b ≠ marks.closing

theorem scan_other {b : α} (h : marks.IsOther b) (depth : ℤ) (inString escaped : Bool)
    (rest : List α) : marks.scan wrap depth inString escaped (b :: rest) =
      (marks.scan wrap depth inString false rest).map (· + 1) := by
  obtain ⟨hquote, hbackslash, hopening, hclosing⟩ := h
  rw [scan]
  cases inString with
  | false => rw [if_neg Bool.false_ne_true, if_neg hquote, if_neg hopening, if_neg hclosing]
  | true =>
    rw [if_pos rfl, decide_eq_true hquote, decide_eq_false hbackslash]
    cases escaped with
    | false => rfl
    | true => rfl

theorem scan_others {bs : List α} (hbs : ∀ b ∈ bs, marks.IsOther b) (hne : bs ≠ []) (depth : ℤ)
    (inString escaped : Bool) (rest : List α) :
    marks.scan wrap depth inString escaped (bs ++ rest) =
      (marks.scan wrap depth inString false rest).map (· + bs.length) := by
  induction bs generalizing escaped with
  | nil => exact absurd rfl hne
  | cons b bs ih =>
    rw [List.cons_append, scan_other (hbs b List.mem_cons_self)]
    cases bs with
    | nil => rfl
    | cons b' bs =>
      rw [ih (fun x hx => hbs x (List.mem_cons_of_mem b hx)) (List.cons_ne_nil b' bs),
        Option.map_map]
      rfl

theorem scan_append {depth : ℤ} {inString escaped : Bool} {s : List α} {last : ℕ}
    (h : marks.scan wrap depth inString escaped s = some last) (t : List α) :
    marks.scan wrap depth inString escaped (s ++ t) = some last := by
  induction s generalizing depth inString escaped last with
  | nil => cases h
  | cons b s ih =>
    have hmap : ∀ {depth : ℤ} {inString escaped : Bool},
        (marks.scan wrap depth inString escaped s).map (· + 1) = some last →
        (marks.scan wrap depth inString escaped (s ++ t)).map (· + 1) = some last := by
      intro depth inString escaped hsome
      obtain ⟨last', hlast', rfl⟩ := Option.map_eq_some_iff.1 hsome
      rw [ih hlast']
      rfl
    rw [List.cons_append, scan]
    rw [scan] at h
    split_ifs at h ⊢
    · exact hmap h
    · exact hmap h
    · exact hmap h
    · exact hmap h
    · exact h
    · exact hmap h
    · exact hmap h

end ObjectMarks

theorem isOther_of_nonAscii (h : 128 ≤ c.toNat) :
    charMarks.IsOther c ∧ ∀ b ∈ String.utf8EncodeChar c, byteMarks.IsOther b := by
  constructor
  · refine ⟨?_, ?_, ?_, ?_⟩
    all_goals
      rintro rfl
      exact absurd h (by decide)
  · intro b hb
    have hle := one_byte_le h b hb
    refine ⟨?_, ?_, ?_, ?_⟩
    all_goals
      rintro rfl
      exact absurd hle (by decide)

theorem ofNat_eq_iff {c mark : Char} (hc : c.toNat < 128) (hmark : mark.toNat < 128) :
    UInt8.ofNat c.toNat = UInt8.ofNat mark.toNat ↔ c = mark := by
  have hsize : (128 : ℕ) < UInt8.size := by decide
  rw [← UInt8.toNat_inj, UInt8.toNat_ofNat_of_lt' (hc.trans hsize),
    UInt8.toNat_ofNat_of_lt' (hmark.trans hsize)]
  exact Char.toNat_inj

/-- **The scan over the bytes of a text** ends where the scan over its characters does. -/
theorem scan_flatMap (wrap : ℤ → ℤ) (depth : ℤ) (inString escaped : Bool) (s : List Char) :
    byteMarks.scan wrap depth inString escaped (utf8 s) =
      (charMarks.scan wrap depth inString escaped s).map
          fun last => (utf8 (s.take last)).length := by
  induction s generalizing depth inString escaped with
  | nil => rfl
  | cons c s ih =>
    have hshift : ∀ (depth : ℤ) (inString escaped : Bool),
        (byteMarks.scan wrap depth inString escaped (utf8 s)).map
            (· + (String.utf8EncodeChar c).length) =
          ((charMarks.scan wrap depth inString escaped s).map (· + 1)).map fun last =>
            (utf8 ((c :: s).take last)).length := by
      intro depth inString escaped
      rw [ih, Option.map_map, Option.map_map]
      refine Option.map_congr fun last _ => ?_
      rw [Function.comp_apply, Function.comp_apply, List.take_succ_cons, utf8_cons,
        List.length_append, Nat.add_comm]
    rw [utf8_cons]
    -- an ASCII character is one byte and the same mark; the others are no marks
    by_cases hc : c.toNat < 128
    · have hencode : String.utf8EncodeChar c = [UInt8.ofNat c.toNat] := utf8EncodeChar_ascii hc
      have hquote : UInt8.ofNat c.toNat = byteMarks.quote ↔ c = charMarks.quote :=
        @ofNat_eq_iff c '"' hc (by decide)
      have hbackslash : UInt8.ofNat c.toNat = byteMarks.backslash ↔ c = charMarks.backslash :=
        @ofNat_eq_iff c '\\' hc (by decide)
      have hopening : UInt8.ofNat c.toNat = byteMarks.opening ↔ c = charMarks.opening :=
        @ofNat_eq_iff c '\x7b' hc (by decide)
      have hclosing : UInt8.ofNat c.toNat = byteMarks.closing ↔ c = charMarks.closing :=
        @ofNat_eq_iff c '\x7d' hc (by decide)
      rw [hencode] at hshift
      rw [hencode, List.singleton_append, ObjectMarks.scan, ObjectMarks.scan]
      cases inString with
      | true =>
        cases escaped with
        | true => exact hshift depth true false
        | false =>
          rw [decide_eq_decide.2 hbackslash, decide_eq_decide.2 (not_congr hquote)]
          exact hshift ..
      | false =>
        simp only [hquote, hopening, hclosing, Bool.false_eq_true, if_false]
        split_ifs with h₁ h₂ h₃ h₄
        · exact hshift ..
        · exact hshift ..
        · rfl
        · exact hshift ..
        · exact hshift ..
    · obtain ⟨hother, hothers⟩ := isOther_of_nonAscii (Nat.le_of_not_lt hc)
      rw [ObjectMarks.scan_others hothers (utf8EncodeChar_ne_nil c), ObjectMarks.scan_other hother]
      exact hshift depth inString false

/-! ### An exact depth -/

abbrev exactScan : ℤ → Bool → Bool → List Char → Option ℕ := charMarks.scan id

def Spans (s : List Char) : Prop :=
  ∀ depth : ℤ, 1 ≤ depth → ∀ rest, exactScan depth false false (s ++ rest) =
    (exactScan depth false false rest).map (· + s.length)

theorem exactScan_other (hc : c ≠ '"' ∧ c ≠ '\x7b' ∧ c ≠ '\x7d') (depth : ℤ) (rest : List Char) :
    exactScan depth false false (c :: rest) =
      (exactScan depth false false rest).map (· + 1) := by
  have hquote : c ≠ charMarks.quote := hc.1
  have hopening : c ≠ charMarks.opening := hc.2.1
  have hclosing : c ≠ charMarks.closing := hc.2.2
  rw [exactScan, ObjectMarks.scan, if_neg Bool.false_ne_true, if_neg hquote, if_neg hopening,
    if_neg hclosing]

theorem exactScan_inString (hquote : c ≠ '"') (hbackslash : c ≠ '\\') (depth : ℤ)
    (rest : List Char) :
    exactScan depth true false (c :: rest) =
      (exactScan depth true false rest).map (· + 1) := by
  have hopen : decide (c ≠ charMarks.quote) = true := decide_eq_true hquote
  have hplain : decide (c = charMarks.backslash) = false := decide_eq_false hbackslash
  rw [exactScan, ObjectMarks.scan, if_pos rfl, if_neg Bool.false_ne_true, hopen, hplain]

theorem map_length (s t : List Char) (found : Option ℕ) :
    (found.map (· + t.length)).map (· + s.length) = found.map (· + (s ++ t).length) := by
  rw [Option.map_map, List.length_append, Nat.add_comm s.length]
  exact Option.map_congr fun last _ => Nat.add_assoc ..

theorem Spans.nil : Spans [] := by
  intro depth _ rest
  simp

theorem Spans.append {t : List Char} (hs : Spans s) (ht : Spans t) : Spans (s ++ t) := by
  intro depth hdepth rest
  rw [List.append_assoc, hs depth hdepth, ht depth hdepth, map_length]

theorem spans_singleton (hc : c ≠ '"' ∧ c ≠ '\x7b' ∧ c ≠ '\x7d') : Spans [c] := by
  intro depth _ rest
  exact exactScan_other hc depth rest

theorem Spans.cons {c : Char} {s : List Char} (hc : c ≠ '"' ∧ c ≠ '\x7b' ∧ c ≠ '\x7d')
    (hs : Spans s) : Spans (c :: s) :=
  (spans_singleton hc).append hs

theorem spans_of_plain (h : ∀ c ∈ s, isPlain c = true) : Spans s := by
  induction s with
  | nil => exact Spans.nil
  | cons c s ih =>
    have hc := h c List.mem_cons_self
    simp only [isPlain, Bool.and_eq_true, decide_eq_true_eq] at hc
    obtain ⟨⟨⟨⟨hquote, hopening⟩, -⟩, hclosing⟩, -⟩ := hc
    exact (ih fun d hd => h d (List.mem_cons_of_mem c hd)).cons ⟨hquote, hopening, hclosing⟩

theorem spans_of_blank (h : Blank s) : Spans s :=
  spans_of_plain fun c hc => isPlain_of_isBlank (h c hc)

theorem Spans.inBrackets (hs : Spans s) : Spans ('[' :: (s ++ [']'])) :=
  (hs.append (spans_singleton (by decide))).cons (by decide)

theorem Spans.inBraces (hs : Spans s) : Spans ('\x7b' :: (s ++ ['\x7d'])) := by
  intro depth hdepth rest
  have hopening : exactScan depth false false ('\x7b' :: (s ++ '\x7d' :: rest)) =
      (exactScan (depth + 1) false false (s ++ '\x7d' :: rest)).map (· + 1) := rfl
  have hclosing : exactScan (depth + 1) false false ('\x7d' :: rest) =
      if depth + 1 - 1 = 0 then some 0
      else (exactScan (depth + 1 - 1) false false rest).map (· + 1) := rfl
  have hlength : ('\x7b' :: (s ++ ['\x7d'])).length = (['\x7b'] ++ (s ++ ['\x7d'])).length := rfl
  rw [List.cons_append, List.append_assoc, List.singleton_append, hopening,
    hs (depth + 1) (by omega), hclosing, if_neg (by omega), Int.add_sub_cancel, hlength,
    ← map_length, ← map_length]
  rfl

theorem exactScan_quoted (h : Quoted s) (depth : ℤ) (rest : List Char) :
    exactScan depth true false (s ++ rest) =
      (exactScan depth true false rest).map (· + s.length) := by
  induction h with
  | nil => simp
  | @unescaped c s hquote hbackslash _ _ ih =>
    rw [List.cons_append, exactScan_inString hquote hbackslash, ih, ← List.singleton_append,
      ← map_length]
    rfl
  | @escape c s _ _ ih =>
    have hescape : exactScan depth true false ('\\' :: c :: (s ++ rest)) =
        ((exactScan depth true false (s ++ rest)).map (· + 1)).map (· + 1) := rfl
    have hlength : ('\\' :: c :: s).length = (['\\'] ++ ([c] ++ s)).length := rfl
    rw [List.cons_append, List.cons_append, hescape, ih, hlength, ← map_length, ← map_length]
    rfl
  | @unicode a b c d s hdigits _ ih =>
    have hescape : ∀ behind, exactScan depth true false ('\\' :: 'u' :: behind) =
        ((exactScan depth true false behind).map (· + 1)).map (· + 1) := fun _ => rfl
    have hdigit : ∀ digit ∈ [a, b, c, d], ∀ behind, exactScan depth true false (digit :: behind) =
        (exactScan depth true false behind).map (· + 1) := by
      intro digit hmem behind
      have hhex := hdigits digit hmem
      refine exactScan_inString ?_ ?_ depth behind
      · rintro rfl
        exact absurd hhex (by decide)
      · rintro rfl
        exact absurd hhex (by decide)
    have hlength : ('\\' :: 'u' :: a :: b :: c :: d :: s).length =
        (['\\'] ++ (['u'] ++ ([a] ++ ([b] ++ ([c] ++ ([d] ++ s)))))).length := rfl
    simp only [List.cons_append]
    rw [hescape, hdigit a (by simp), hdigit b (by simp), hdigit c (by simp), hdigit d (by simp), ih,
      hlength, ← map_length, ← map_length, ← map_length, ← map_length, ← map_length, ← map_length]
    rfl

theorem spans_of_quoted (h : Quoted s) : Spans (quotedText s) := by
  intro depth _ rest
  have hopening : exactScan depth false false ('"' :: (s ++ '"' :: rest)) =
      (exactScan depth true false (s ++ '"' :: rest)).map (· + 1) := rfl
  have hclosing : exactScan depth true false ('"' :: rest) =
      (exactScan depth false false rest).map (· + 1) := rfl
  rw [quotedText, List.cons_append, List.append_assoc, List.singleton_append, hopening,
    exactScan_quoted h, hclosing, ← List.singleton_append, ← map_length, ← map_length]
  rfl

/-- **A derived text** leaves the exact scan of an object where it was. -/
theorem spans_of_spells {part : Part} (h : Spells part s) : Spans s := by
  have hcomma : ',' ≠ '"' ∧ ',' ≠ '\x7b' ∧ ',' ≠ '\x7d' := by decide
  have hcolon : ':' ≠ '"' ∧ ':' ≠ '\x7b' ∧ ':' ≠ '\x7d' := by decide
  induction h with
  | null | yes | no => exact spans_of_plain (List.all_eq_true.1 (by decide))
  | number hnumber => exact spans_of_plain hnumber.plain
  | string hquoted => exact spans_of_quoted hquoted
  | emptyArray hblank => exact (spans_of_blank hblank).inBrackets
  | array _ ih => exact ih.inBrackets
  | emptyObject hblank => exact (spans_of_blank hblank).inBraces
  | object _ ih => exact ih.inBraces
  | element hbefore _ hafter ih =>
    exact (spans_of_blank hbefore).append (ih.append (spans_of_blank hafter))
  | elements hbefore _ hafter _ ih ihrest =>
    exact (spans_of_blank hbefore).append (ih.append ((spans_of_blank hafter).append
      (ihrest.cons hcomma)))
  | member hbefore hkey hbetween hinner _ hafter ih =>
    exact (spans_of_blank hbefore).append ((spans_of_quoted hkey).append
      ((spans_of_blank hbetween).append (((spans_of_blank hinner).append
        (ih.append (spans_of_blank hafter))).cons hcolon)))
  | members hbefore hkey hbetween hinner _ hafter _ ih ihrest =>
    exact (spans_of_blank hbefore).append ((spans_of_quoted hkey).append
      ((spans_of_blank hbetween).append (((spans_of_blank hinner).append
        (ih.append ((spans_of_blank hafter).append (ihrest.cons hcomma)))).cons hcolon)))

theorem exactScan_object (h : Spells (.value .object) s) :
    exactScan 0 false false s = some (s.length - 1) := by
  have hbraces : ∀ body, Spans body →
      exactScan 0 false false ('\x7b' :: (body ++ ['\x7d'])) =
        some (('\x7b' :: (body ++ ['\x7d'])).length - 1) := by
    intro body hbody
    have hopening : exactScan 0 false false ('\x7b' :: (body ++ ['\x7d'])) =
        (exactScan 1 false false (body ++ ['\x7d'])).map (· + 1) := rfl
    have hclosing : exactScan 1 false false ['\x7d'] = some 0 := rfl
    rw [hopening, hbody 1 (by omega), hclosing]
    simp
  cases h with
  | emptyObject hblank => exact hbraces _ (spans_of_blank hblank)
  | object hmembers => exact hbraces _ (spans_of_spells hmembers)

/-! ### A depth that wraps around -/

def nesting (depth : ℕ) (inString escaped : Bool) : List Char → ℕ
  | [] => depth
  | c :: rest =>
    if inString then
      if escaped then nesting depth true false rest
      else nesting depth (c ≠ charMarks.quote) (c = charMarks.backslash) rest
    else if c = charMarks.quote then nesting depth true false rest
    else if c = charMarks.opening then nesting (depth + 1) false false rest
    else if c = charMarks.closing then max depth (nesting (depth - 1) false false rest)
    else nesting depth false false rest

/-- How deep the braces of an object nest. -/
def braceDepth (s : List Char) : ℕ := nesting 0 false false s

theorem le_nesting (depth : ℕ) (inString escaped : Bool) (s : List Char) :
    depth ≤ nesting depth inString escaped s := by
  induction s generalizing depth inString escaped with
  | nil => exact Nat.le_refl _
  | cons c s ih =>
    rw [nesting]
    split_ifs
    · exact ih ..
    · exact ih ..
    · exact ih ..
    · exact (Nat.le_succ depth).trans (ih ..)
    · exact Nat.le_max_left ..
    · exact ih ..

theorem wrapI32_add_one (n : ℤ) : wrapI32 (wrapI32 n + 1) = wrapI32 (n + 1) := by
  unfold wrapI32
  omega

theorem wrapI32_sub_one (n : ℤ) : wrapI32 (wrapI32 n - 1) = wrapI32 (n - 1) := by
  unfold wrapI32
  omega

theorem wrapI32_eq_zero_iff (n : ℤ) : wrapI32 n = 0 ↔ n % 4294967296 = 0 := by
  unfold wrapI32
  omega

theorem scan_wrapI32_of_deep {depth : ℤ} (hdeep : 4294967296 < depth) {inString escaped : Bool}
    {last : ℕ} (h : exactScan depth inString escaped s = some last) :
    ∃ early < last, charMarks.scan wrapI32 (wrapI32 depth) inString escaped s = some early := by
  induction s generalizing depth inString escaped last with
  | nil => cases h
  | cons c s ih =>
    have hmap : ∀ {depth : ℤ} {inString escaped : Bool}, 4294967296 < depth →
        (exactScan depth inString escaped s).map (· + 1) = some last →
        ∃ early < last, (charMarks.scan wrapI32 (wrapI32 depth) inString escaped s).map (· + 1) =
          some early := by
      intro depth inString escaped hdeep hsome
      obtain ⟨last', hlast', rfl⟩ := Option.map_eq_some_iff.1 hsome
      obtain ⟨early, hearly, hscan⟩ := ih hdeep hlast'
      exact ⟨early + 1, Nat.succ_lt_succ hearly, by rw [hscan]; rfl⟩
    rw [exactScan, ObjectMarks.scan] at h
    rw [ObjectMarks.scan]
    split_ifs at h ⊢ with hstring hescaped hquote hopening hclosing hwrapped hexact hexact
    · exact hmap hdeep h
    · exact hmap hdeep h
    · exact hmap hdeep h
    · rw [wrapI32_add_one]
      exact hmap (by omega) h
    · exact absurd (show depth - 1 = 0 from hexact) (by omega)
    · -- the wrapped depth is zero, the exact one is not
      obtain ⟨last', -, rfl⟩ := Option.map_eq_some_iff.1 h
      exact ⟨0, Nat.succ_pos last', rfl⟩
    · exact absurd (show depth - 1 = 0 from hexact) (by omega)
    · rw [wrapI32_sub_one, wrapI32_eq_zero_iff] at hwrapped
      rw [wrapI32_sub_one]
      exact hmap (by omega) h
    · exact hmap hdeep h

/-- **The wrapped depth ends an object where the exact one does** when its braces nest at most
`2 ^ 32` deep, and too early when they nest deeper. -/
theorem scan_wrapI32 {depth : ℕ} (hpos : 1 ≤ depth) (hdepth : depth ≤ 4294967296)
    {inString escaped : Bool} {s : List Char} {last : ℕ}
    (h : exactScan depth inString escaped s = some last) (hlast : last + 1 = s.length) :
    (nesting depth inString escaped s ≤ 4294967296 ∧
        charMarks.scan wrapI32 (wrapI32 depth) inString escaped s = some last) ∨
      (4294967296 < nesting depth inString escaped s ∧
        ∃ early < last,
          charMarks.scan wrapI32 (wrapI32 depth) inString escaped s = some early) := by
  induction s generalizing depth inString escaped last with
  | nil => cases h
  | cons c s ih =>
    -- one character further, the two scans still go together
    have hmap : ∀ {depth : ℕ} {inString escaped : Bool}, 1 ≤ depth → depth ≤ 4294967296 →
        (exactScan depth inString escaped s).map (· + 1) = some last →
        (nesting depth inString escaped s ≤ 4294967296 ∧
            (charMarks.scan wrapI32 (wrapI32 depth) inString escaped s).map (· + 1) = some last) ∨
          (4294967296 < nesting depth inString escaped s ∧ ∃ early < last,
            (charMarks.scan wrapI32 (wrapI32 depth) inString escaped s).map (· + 1) =
              some early) := by
      intro depth inString escaped hpos hdepth hsome
      obtain ⟨last', hlast', rfl⟩ := Option.map_eq_some_iff.1 hsome
      rcases ih hpos hdepth hlast' (Nat.succ.inj hlast) with
        ⟨hle, hscan⟩ | ⟨hlt, early, hearly, hscan⟩
      · exact .inl ⟨hle, by rw [hscan]; rfl⟩
      · exact .inr ⟨hlt, early + 1, Nat.succ_lt_succ hearly, by rw [hscan]; rfl⟩
    rw [exactScan, ObjectMarks.scan] at h
    rw [ObjectMarks.scan, nesting]
    split_ifs at h ⊢ with hstring hescaped hquote hopening hclosing hwrapped hexact hexact
    · exact hmap hpos hdepth h
    · exact hmap hpos hdepth h
    · exact hmap hpos hdepth h
    · rw [wrapI32_add_one]
      -- an opening brace: only here can the depth leave the range
      by_cases hfits : depth + 1 ≤ 4294967296
      · exact hmap (Nat.le_add_left 1 depth) hfits h
      · obtain ⟨last', hlast', rfl⟩ := Option.map_eq_some_iff.1 h
        have hdeep : (4294967296 : ℤ) < depth + 1 := by omega
        obtain ⟨early, hearly, hscan⟩ := scan_wrapI32_of_deep hdeep hlast'
        refine .inr ⟨(Nat.lt_of_not_le hfits).trans_le (le_nesting ..), early + 1,
          Nat.succ_lt_succ hearly, ?_⟩
        rw [hscan]
        rfl
    · -- the brace that closes the object is the last character
      obtain rfl : s = [] := by
        cases h
        exact List.eq_nil_of_length_eq_zero (Nat.succ.inj hlast).symm
      exact .inl ⟨Nat.max_le.2 ⟨hdepth, (Nat.sub_le depth 1).trans hdepth⟩, h⟩
    · rw [wrapI32_sub_one, wrapI32_eq_zero_iff] at hwrapped
      exact absurd (show (depth : ℤ) - 1 = 0 by omega) hexact
    · rw [wrapI32_sub_one, wrapI32_eq_zero_iff] at hwrapped
      exact absurd (show (depth : ℤ) - 1 = 0 from hexact) (by omega)
    · -- a closing brace that leaves the object open
      have hone : (depth : ℤ) - 1 ≠ 0 := hexact
      have hcast : (depth : ℤ) - 1 = ((depth - 1 : ℕ) : ℤ) := by omega
      have hmax : ∀ n : ℕ, 4294967296 < max depth n ↔ 4294967296 < n := by
        intro n
        omega
      rw [wrapI32_sub_one, hcast, Nat.max_le, and_iff_right hdepth, hmax]
      refine hmap (by omega) (by omega) ?_
      rw [← hcast]
      exact h
    · exact hmap hpos hdepth h

/-- **The end of an object**, with any text behind it. -/
theorem scan_object (h : Spells (.value .object) s) (after : List Char) :
    (braceDepth s ≤ 4294967296 ∧
        charMarks.scan wrapI32 0 false false (s ++ after) = some (s.length - 1)) ∨
      (4294967296 < braceDepth s ∧ ∃ early < s.length - 1,
        charMarks.scan wrapI32 0 false false (s ++ after) = some early) := by
  obtain ⟨body, hbody, -⟩ := h.exists_body
  have hexact := exactScan_object h
  have hopening : ∀ wrap : ℤ → ℤ, charMarks.scan wrap 0 false false s =
      (charMarks.scan wrap (wrap 1) false false (body ++ ['\x7d'])).map (· + 1) := by
    intro wrap
    rw [hbody]
    rfl
  have hdepth : braceDepth s = nesting 1 false false (body ++ ['\x7d']) := by
    rw [hbody]
    rfl
  have hlength : s.length - 1 = body.length + 1 := by simp [hbody]
  have hfound : ∀ {last : ℕ},
      charMarks.scan wrapI32 (wrapI32 (1 : ℕ)) false false (body ++ ['\x7d']) = some last →
        charMarks.scan wrapI32 0 false false (s ++ after) = some (last + 1) := by
    intro last hscan
    refine ObjectMarks.scan_append ?_ after
    rw [hopening]
    exact congrArg (Option.map (· + 1)) hscan
  rw [exactScan, hopening, hlength] at hexact
  obtain ⟨last, hlast, hsame⟩ := Option.map_eq_some_iff.1 hexact
  obtain rfl : last = body.length := Nat.succ.inj hsame
  rw [hdepth, hlength]
  have hwrapped := @scan_wrapI32 1 (Nat.le_refl 1) (by omega) false false (body ++ ['\x7d'])
    body.length hlast (by simp)
  rcases hwrapped with ⟨hle, hscan⟩ | ⟨hlt, early, hearly, hscan⟩
  · exact .inl ⟨hle, hfound hscan⟩
  · exact .inr ⟨hlt, early + 1, Nat.succ_lt_succ hearly, hfound hscan⟩

/-! ### In a text -/

theorem length_utf8_take {m n : ℕ} (hmn : m < n) (hn : n ≤ s.length) :
    (utf8 (s.take m)).length < (utf8 (s.take n)).length := by
  obtain ⟨c, rest, hrest⟩ : ∃ c rest, (s.take n).drop m = c :: rest := by
    refine List.exists_cons_of_length_pos ?_
    rw [List.length_drop, List.length_take_of_le hn]
    omega
  have hsplit : s.take n = s.take m ++ c :: rest := by
    have htake : (s.take n).take m = s.take m := by rw [List.take_take, Nat.min_eq_left hmn.le]
    rw [← hrest, ← htake, List.take_append_drop]
  have hpos := List.length_pos_iff.2 (utf8EncodeChar_ne_nil c)
  rw [hsplit, utf8_append, utf8_cons, List.length_append, List.length_append]
  omega

theorem findJsonObjectEnd_eq (before rest : List Char) :
    findJsonObjectEnd (utf8 (before ++ '\x7b' :: rest)) (utf8 before).length =
      (scanObject 0 false false ('\x7b' :: rest)).map fun last =>
        (utf8 before).length + (utf8 (('\x7b' :: rest).take last)).length := by
  have hbrace : (utf8 before ++ utf8 ('\x7b' :: rest))[(utf8 before).length]? =
      some byteMarks.opening := by
    rw [List.getElem?_append_right (Nat.le_refl _), Nat.sub_self]
    rfl
  rw [utf8_append, findJsonObjectEnd, if_pos hbrace, List.drop_left, scan_flatMap, Option.map_map,
    scanObject_eq]
  rfl

/-- **`find_json_object_end`** finds the last byte of an object. -/
theorem findJsonObjectEnd_iff (h : Spells (.value .object) s) (before after : List Char) :
    findJsonObjectEnd (utf8 (before ++ (s ++ after))) (utf8 before).length =
        some ((utf8 before).length + (utf8 s).length - 1) ↔
      braceDepth s ≤ 4294967296 := by
  obtain ⟨body, hbody, -⟩ := h.exists_body
  have htext : s ++ after = '\x7b' :: (body ++ ['\x7d'] ++ after) := by
    rw [hbody]
    rfl
  -- the last character has one byte
  have hlast : (utf8 s).length = (utf8 (s.take (s.length - 1))).length + 1 := by
    have htake : s.take (s.length - 1) = '\x7b' :: body := by simp [hbody]
    have hs : s = '\x7b' :: body ++ ['\x7d'] := hbody
    rw [htake, hs, utf8_append, List.length_append]
    rfl
  have hwithin : ∀ n ≤ s.length, (s ++ after).take n = s.take n := fun n hn =>
    List.take_append_of_le_length hn
  rw [htext, findJsonObjectEnd_eq, ← htext, scanObject_eq]
  rcases scan_object h after with ⟨hle, hscan⟩ | ⟨hlt, early, hearly, hscan⟩
  · refine iff_of_true ?_ hle
    rw [hscan, Option.map_some, hwithin _ (Nat.sub_le ..), hlast]
    rfl
  · refine iff_of_false ?_ (Nat.not_le_of_lt hlt)
    have hless := length_utf8_take hearly (Nat.sub_le s.length 1)
    rw [hscan, Option.map_some, hwithin _ (by omega), hlast]
    intro hsame
    have := Option.some.inj hsame
    omega

/-! ### What is offered -/

/-- What the fallback offers to the JSON parser, from every opening brace on. -/
def offeredTexts : List Char → List (List Char)
  | [] => []
  | c :: rest =>
    if c = '\x7b' then
      ((scanObject 0 false false (c :: rest)).map fun last => (c :: rest).take (last + 1)).toList ++
        offeredTexts rest
    else offeredTexts rest

theorem findCommandArray_cons (env : Env) (hc : c ≠ '\x7b') (rest : List Char) :
    findCommandArray env (c :: rest) = findCommandArray env rest := by
  have hsplit : splitFirst ['\x7b'] (c :: rest) =
      (splitFirst ['\x7b'] rest).map fun parts => (c :: parts.1, parts.2) := by
    rw [splitFirst]
    simp [List.dropPrefix?, hc]
  rw [findCommandArray_eq, findCommandArray_eq env rest, hsplit]
  cases splitFirst ['\x7b'] rest with
  | none => rfl
  | some parts => rfl

theorem findCommandArray_brace (env : Env) (rest : List Char) :
    findCommandArray env ('\x7b' :: rest) =
      (((scanObject 0 false false ('\x7b' :: rest)).bind fun last =>
        (env.fromStr (String.ofList (('\x7b' :: rest).take (last + 1)))).toOption).bind
          normalizeBashCommandArrayArguments).or (findCommandArray env rest) := by
  have hsplit : splitFirst ['\x7b'] ('\x7b' :: rest) = some ([], rest) := by
    rw [splitFirst]
    simp [List.dropPrefix?]
  rw [findCommandArray_eq, hsplit]
  dsimp only
  split
  · next arguments harguments => rw [harguments, Option.some_or]
  · next hnone => rw [hnone, Option.none_or]

/-- **The fallback offers one text after another**, until one is a command. -/
theorem findCommandArray_eq_findSome (env : Env) (text : List Char) :
    findCommandArray env text = (offeredTexts text).findSome? fun offered =>
      (env.fromStr (String.ofList offered)).toOption.bind normalizeBashCommandArrayArguments := by
  induction text with
  | nil =>
    rw [findCommandArray_eq]
    rfl
  | cons c rest ih =>
    rw [offeredTexts]
    split_ifs with hc
    · subst hc
      rw [findCommandArray_brace, List.findSome?_append, ih]
      cases scanObject 0 false false ('\x7b' :: rest) with
      | none => rfl
      | some last =>
        rw [Option.map_some, Option.toList_some, List.findSome?_singleton, Option.bind_some]
    · rw [findCommandArray_cons env hc, ih]

theorem offeredTexts_append (before after : List Char) :
    offeredTexts after ⊆ offeredTexts (before ++ after) := by
  induction before with
  | nil => exact List.Subset.refl _
  | cons c before ih =>
    rw [List.cons_append, offeredTexts]
    split_ifs with hc
    · exact fun offered h => List.mem_append_right _ (ih h)
    · exact ih

theorem mem_offeredTexts (h : Spells (.value .object) s) (hdepth : braceDepth s ≤ 4294967296)
    (before after : List Char) : s ∈ offeredTexts (before ++ (s ++ after)) := by
  refine offeredTexts_append before _ ?_
  obtain ⟨body, hbody, -⟩ := h.exists_body
  have hscan : scanObject 0 false false (s ++ after) = some (s.length - 1) := by
    rw [scanObject_eq]
    rcases scan_object h after with ⟨-, hscan⟩ | ⟨hlt, -⟩
    · exact hscan
    · exact absurd hdepth (Nat.not_le_of_lt hlt)
  have hpos : s.length - 1 + 1 = s.length := by simp [hbody]
  have htext : s ++ after = '\x7b' :: (body ++ ['\x7d'] ++ after) := by
    rw [hbody]
    rfl
  rw [htext] at hscan ⊢
  rw [offeredTexts, if_pos rfl, hscan, Option.map_some, Option.toList_some, hpos, ← htext,
    List.take_left]
  exact List.mem_append_left _ (List.mem_singleton.2 rfl)

/-- **Every embedded object is offered whole**, unless its braces nest more than `2 ^ 32` deep: its
end is found, and the fallback offers the objects one after another until one is a command. -/
theorem offeredWhole {s : List Char} (h : Spells (.value .object) s) (before after : List Char) :
    (findJsonObjectEnd (utf8 (before ++ (s ++ after))) (utf8 before).length =
          some ((utf8 before).length + (utf8 s).length - 1) ↔ braceDepth s ≤ 4294967296) ∧
      (braceDepth s ≤ 4294967296 → s ∈ offeredTexts (before ++ (s ++ after))) ∧
      ∀ (env : Env) (allowedToolNames : List String),
        parseCommandArrayTextToolCall env allowedToolNames (before ++ (s ++ after)) =
          (resolveAllowedToolName allowedToolNames "Bash").bind fun name =>
            ((offeredTexts (before ++ (s ++ after))).findSome? fun offered =>
              (env.fromStr (String.ofList offered)).toOption.bind
                normalizeBashCommandArrayArguments).map fun arguments => ⟨name, arguments⟩ := by
  refine ⟨findJsonObjectEnd_iff h before after,
    fun hdepth => mem_offeredTexts h hdepth before after,
    fun env allowedToolNames => ?_⟩
  rw [parseCommandArrayTextToolCall, findCommandArray_eq_findSome]

/-- An object with an escaped quote and a brace in its key. -/
def quotedBraces : List Char := "\x7b\"\\\"\x7d\":\x7b\x7d\x7d".toList

theorem offeredWhole_quotedBraces :
    findJsonObjectEnd (utf8 ("run ".toList ++ (quotedBraces ++ " now".toList)))
        (utf8 "run ".toList).length =
      some ((utf8 "run ".toList).length + (utf8 quotedBraces).length - 1) := by
  have hnone : Blank [] := fun c hc => absurd hc List.not_mem_nil
  have hkey : Quoted ['\\', '"', '\x7d'] :=
    .escape (by decide) (.unescaped (by decide) (by decide) (by decide) .nil)
  have hspells : Spells (.value .object) quotedBraces :=
    .object (.member hnone hkey hnone hnone (.emptyObject hnone) hnone)
  exact (offeredWhole hspells "run ".toList " now".toList).1.2 (by decide)

/-- Objects in one another. -/
def nested : ℕ → List Char
  | 0 => ['\x7b', '\x7d']
  | n + 1 => '\x7b' :: ((quotedText [] ++ ':' :: nested n) ++ ['\x7d'])

theorem spells_nested (n : ℕ) : Spells (.value .object) (nested n) := by
  have hnone : Blank [] := fun c hc => absurd hc List.not_mem_nil
  induction n with
  | zero => exact .emptyObject hnone
  | succ n ih =>
    have hmember := Spells.member hnone .nil hnone hnone ih hnone
    rw [List.append_nil] at hmember
    exact .object hmember

theorem lt_nesting_nested (n depth : ℕ) (rest : List Char) :
    depth + n < nesting depth false false (nested n ++ rest) := by
  induction n generalizing depth rest with
  | zero => exact le_nesting (depth + 1) false false ('\x7d' :: rest)
  | succ n ih =>
    have hinner := ih (depth + 1) ('\x7d' :: rest)
    have hopening : nesting depth false false (nested (n + 1) ++ rest) =
        nesting (depth + 1) false false (nested n ++ ['\x7d'] ++ rest) := rfl
    rw [hopening, List.append_assoc]
    exact (show depth + (n + 1) = depth + 1 + n by omega) ▸ hinner

theorem findJsonObjectEnd_nested {n : ℕ} (hn : 4294967296 ≤ n) :
    findJsonObjectEnd (utf8 (nested n)) 0 ≠ some ((utf8 (nested n)).length - 1) := by
  intro hend
  have hiff := findJsonObjectEnd_iff (spells_nested n) [] []
  have hdeep : 0 + n < braceDepth (nested n) := by
    have hlt := lt_nesting_nested n 0 []
    rwa [List.append_nil] at hlt
  rw [List.append_nil] at hiff
  have hdepth : braceDepth (nested n) ≤ 4294967296 := by
    refine hiff.1 (hend.trans ?_)
    rw [show (utf8 []).length = 0 from rfl, Nat.zero_add]
  omega

/-- One object more than the depth can count. -/
theorem missedEnd_nested :
    Spells (.value .object) (nested 4294967296) ∧
      findJsonObjectEnd (utf8 (nested 4294967296)) 0 ≠
        some ((utf8 (nested 4294967296)).length - 1) :=
  ⟨spells_nested 4294967296, findJsonObjectEnd_nested (Nat.le_refl 4294967296)⟩

end AiOpenRouter
