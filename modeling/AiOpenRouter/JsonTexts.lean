/-
The grammar of JSON texts (RFC 8259), and that an object ends where its braces do.

`Spells` derives the texts of values, of the elements of an array and of the members of an
object. `scan` reads a text with a depth and a mode (outside of strings, in a string, behind a
backslash), and stops below depth zero: every derived text leaves it where it was
(`Spells.balanced`).

* `eq_of_prefix_object`: no object is a proper prefix of another one;
* `blank_of_object_append`: behind the text of an object only blanks make a text again.
-/
import Mathlib.Data.List.Basic

namespace AiOpenRouter

namespace JsonText

/-! ### The grammar -/

inductive Kind where
  | null
  | bool
  | number
  | string
  | array
  | object
  deriving DecidableEq

/-- A character of `ws`. -/
def isBlank (c : Char) : Bool := c = ' ' || c = '\t' || c = '\n' || c = '\r'

/-- `ws`. -/
def Blank (s : List Char) : Prop := ∀ c ∈ s, isBlank c = true

/-- A digit of a `\u` escape. -/
def isHexDigit (c : Char) : Bool :=
  c.isDigit || ('a' ≤ c && c ≤ 'f') || ('A' ≤ c && c ≤ 'F')

inductive Quoted : List Char → Prop
  | nil : Quoted []
  | unescaped {c : Char} {s : List Char} : c ≠ '"' → c ≠ '\\' → 0x20 ≤ c.toNat → Quoted s →
      Quoted (c :: s)
  | escape {c : Char} {s : List Char} : c ∈ ['"', '\\', '/', 'b', 'f', 'n', 'r', 't'] →
      Quoted s → Quoted ('\\' :: c :: s)
  | unicode {a b c d : Char} {s : List Char} : (∀ digit ∈ [a, b, c, d], isHexDigit digit = true) →
      Quoted s → Quoted ('\\' :: 'u' :: a :: b :: c :: d :: s)

def quotedText (s : List Char) : List Char := '"' :: (s ++ ['"'])

def Digits (s : List Char) : Prop := s ≠ [] ∧ ∀ c ∈ s, c.isDigit = true

/-- `number`: a sign, a whole part without leading zeros, a fraction and an exponent. -/
structure IsNumber (s : List Char) : Prop where
  parts : ∃ sign whole fraction exponent, s = sign ++ (whole ++ (fraction ++ exponent)) ∧
    (sign = [] ∨ sign = ['-']) ∧ Digits whole ∧ (whole.head? = some '0' → whole = ['0']) ∧
    (fraction = [] ∨ ∃ digits, Digits digits ∧ fraction = '.' :: digits) ∧
    (exponent = [] ∨ ∃ mark sign digits, (mark = 'e' ∨ mark = 'E') ∧
      (sign = [] ∨ sign = ['+'] ∨ sign = ['-']) ∧ Digits digits ∧
        exponent = mark :: (sign ++ digits))

inductive Part where
  | value (kind : Kind)
  | elements
  | members

/-- **The grammar of the values**, of the elements of an array that is not empty and of the
members of an object that is not empty. -/
inductive Spells : Part → List Char → Prop
  | null : Spells (.value .null) ['n', 'u', 'l', 'l']
  | yes : Spells (.value .bool) ['t', 'r', 'u', 'e']
  | no : Spells (.value .bool) ['f', 'a', 'l', 's', 'e']
  | number {s : List Char} : IsNumber s → Spells (.value .number) s
  | string {s : List Char} : Quoted s → Spells (.value .string) (quotedText s)
  | emptyArray {blanks : List Char} : Blank blanks →
    Spells (.value .array) ('[' :: (blanks ++ [']']))
  | array {s : List Char} : Spells .elements s → Spells (.value .array) ('[' :: (s ++ [']']))
  | emptyObject {blanks : List Char} : Blank blanks →
      Spells (.value .object) ('\x7b' :: (blanks ++ ['\x7d']))
  | object {s : List Char} : Spells .members s →
      Spells (.value .object) ('\x7b' :: (s ++ ['\x7d']))
  | element {before s after : List Char} {kind : Kind} : Blank before → Spells (.value kind) s →
      Blank after → Spells .elements (before ++ (s ++ after))
  | elements {before s after rest : List Char} {kind : Kind} : Blank before →
      Spells (.value kind) s → Blank after → Spells .elements rest →
        Spells .elements (before ++ (s ++ (after ++ ',' :: rest)))
  | member {before key between inner s after : List Char} {kind : Kind} : Blank before →
      Quoted key → Blank between → Blank inner → Spells (.value kind) s → Blank after →
        Spells .members (before ++ (quotedText key ++ (between ++ ':' :: (inner ++ (s ++ after)))))
  | members {before key between inner s after rest : List Char} {kind : Kind} : Blank before →
      Quoted key → Blank between → Blank inner → Spells (.value kind) s → Blank after →
        Spells .members rest → Spells .members (before ++ (quotedText key ++
          (between ++ ':' :: (inner ++ (s ++ (after ++ ',' :: rest))))))

/-- `JSON-text`: a value between blanks. -/
def IsText (kind : Kind) (s : List Char) : Prop :=
  ∃ before value after, s = before ++ (value ++ after) ∧ Blank before ∧
    Spells (.value kind) value ∧ Blank after

/-! ### Scanning -/

inductive Mode where
  | outside
  | quoted
  | escaped
  deriving DecidableEq

/-- One character. A closing bracket at depth zero ends the scan. -/
def step : ℕ × Mode → Char → Option (ℕ × Mode)
  | (depth, .escaped), _ => some (depth, .quoted)
  | (depth, .quoted), c =>
    some (depth, if c = '"' then .outside else if c = '\\' then .escaped else .quoted)
  | (depth, .outside), c =>
    if c = '"' then some (depth, .quoted)
    else if c = '\x7b' ∨ c = '[' then some (depth + 1, .outside)
    else if c = '\x7d' ∨ c = ']' then if depth = 0 then none else some (depth - 1, .outside)
    else some (depth, .outside)

def scan (state : ℕ × Mode) : List Char → Option (ℕ × Mode)
  | [] => some state
  | c :: s => (step state c).bind fun state => scan state s

theorem scan_append (state : ℕ × Mode) (s t : List Char) :
    scan state (s ++ t) = (scan state s).bind fun state => scan state t := by
  induction s generalizing state with
  | nil => rfl
  | cons c s ih =>
    rw [List.cons_append, scan, scan]
    cases step state c with
    | none => rfl
    | some state => exact ih state

variable {s t : List Char} {c : Char} {kind : Kind}

theorem step_add {depth : ℕ} {mode : Mode} {state : ℕ × Mode} (extra : ℕ)
    (h : step (depth, mode) c = some state) :
    step (depth + extra, mode) c = some (state.1 + extra, state.2) := by
  cases mode with
  | escaped =>
    cases h
    rfl
  | quoted =>
    cases h
    rfl
  | outside =>
    simp only [step] at h ⊢
    split_ifs at h ⊢
    · cases h
      rfl
    · cases h
      rw [Nat.add_right_comm]
    · omega
    · cases h
      dsimp only
      rw [Nat.sub_add_comm (by omega)]
    · cases h
      rfl

theorem scan_add {depth : ℕ} {mode : Mode} {state : ℕ × Mode} (extra : ℕ)
    (h : scan (depth, mode) s = some state) :
    scan (depth + extra, mode) s = some (state.1 + extra, state.2) := by
  induction s generalizing depth mode with
  | nil =>
    cases h
    rfl
  | cons c s ih =>
    obtain ⟨⟨depth', mode'⟩, hstep, hscan⟩ := Option.bind_eq_some_iff.1 h
    rw [scan, step_add extra hstep, Option.bind_some]
    exact ih hscan

def Balanced (s : List Char) : Prop := scan (0, .outside) s = some (0, .outside)

theorem Balanced.scan {s : List Char} (h : Balanced s) (depth : ℕ) :
    scan (depth, .outside) s = some (depth, .outside) := by
  have hadd := scan_add depth h
  rw [Nat.zero_add] at hadd
  exact hadd

theorem Balanced.append (hs : Balanced s) (ht : Balanced t) : Balanced (s ++ t) := by
  unfold Balanced
  rw [scan_append, hs, Option.bind_some, ht]

/-- A character outside of strings that is no quote and no bracket. -/
def isPlain (c : Char) : Bool :=
  c ≠ '"' && c ≠ '\x7b' && c ≠ '[' && c ≠ '\x7d' && c ≠ ']'

theorem step_plain (h : isPlain c = true) (depth : ℕ) :
    step (depth, .outside) c = some (depth, .outside) := by
  simp only [isPlain, Bool.and_eq_true, decide_eq_true_eq] at h
  obtain ⟨⟨⟨⟨hquote, hbrace⟩, hbracket⟩, hbrace'⟩, hbracket'⟩ := h
  rw [step, if_neg hquote, if_neg (not_or.2 ⟨hbrace, hbracket⟩),
    if_neg (not_or.2 ⟨hbrace', hbracket'⟩)]

theorem balanced_of_plain (h : s.all isPlain = true) : Balanced s := by
  induction s with
  | nil => rfl
  | cons c s ih =>
    rw [List.all_cons, Bool.and_eq_true] at h
    unfold Balanced
    rw [JsonText.scan, step_plain h.1, Option.bind_some]
    exact ih h.2

theorem Balanced.bracketed {opening closing : Char} (hopening : opening = '\x7b' ∨ opening = '[')
    (hclosing : closing = '\x7d' ∨ closing = ']') (h : Balanced s) :
    Balanced (opening :: (s ++ [closing])) := by
  have hopen : step (0, .outside) opening = some (1, .outside) := by
    rcases hopening with rfl | rfl <;> rfl
  have hclose : JsonText.scan (1, .outside) [closing] = some (0, .outside) := by
    rcases hclosing with rfl | rfl <;> rfl
  unfold Balanced
  rw [JsonText.scan, hopen, Option.bind_some, scan_append, h.scan, Option.bind_some, hclose]

theorem isPlain_of_isBlank (h : isBlank c = true) : isPlain c = true := by
  simp only [isBlank, Bool.or_eq_true, decide_eq_true_eq] at h
  rcases h with ((rfl | rfl) | rfl) | rfl <;> decide

theorem isPlain_of_isDigit (h : c.isDigit = true) : isPlain c = true := by
  simp only [isPlain, Bool.and_eq_true, decide_eq_true_eq]
  refine ⟨⟨⟨⟨?_, ?_⟩, ?_⟩, ?_⟩, ?_⟩ <;>
    · rintro rfl
      exact absurd h (by decide)

theorem Blank.balanced (h : Blank s) : Balanced s :=
  balanced_of_plain (List.all_eq_true.2 fun c hc => isPlain_of_isBlank (h c hc))

theorem IsNumber.plain {s : List Char} (h : IsNumber s) : ∀ c ∈ s, isPlain c = true := by
  obtain ⟨sign, whole, fraction, exponent, rfl, hsign, hwhole, -, hfraction, hexponent⟩ := h.parts
  intro c hc
  rw [List.mem_append, List.mem_append, List.mem_append] at hc
  rcases hc with hc | hc | hc | hc
  · rcases hsign with rfl | rfl
    · cases hc
    · rw [List.mem_singleton.1 hc]
      decide
  · exact isPlain_of_isDigit (hwhole.2 c hc)
  · rcases hfraction with rfl | ⟨digits, hdigits, rfl⟩
    · cases hc
    · rcases List.mem_cons.1 hc with rfl | hc
      · decide
      · exact isPlain_of_isDigit (hdigits.2 c hc)
  · rcases hexponent with rfl | ⟨mark, sign', digits, hmark, hsign', hdigits, rfl⟩
    · cases hc
    · rcases List.mem_cons.1 hc with rfl | hc
      · rcases hmark with rfl | rfl <;> decide
      · rcases List.mem_append.1 hc with hc | hc
        · rcases hsign' with rfl | rfl | rfl
          · cases hc
          · rw [List.mem_singleton.1 hc]
            decide
          · rw [List.mem_singleton.1 hc]
            decide
        · exact isPlain_of_isDigit (hdigits.2 c hc)

theorem Quoted.scan {s : List Char} (h : Quoted s) (depth : ℕ) :
    scan (depth, .quoted) s = some (depth, .quoted) := by
  have hstep : ∀ c : Char, c ≠ '"' → c ≠ '\\' →
      step (depth, .quoted) c = some (depth, .quoted) := by
    intro c hquote hslash
    simp only [step]
    rw [if_neg hquote, if_neg hslash]
  induction h with
  | nil => rfl
  | unescaped hquote hslash hcontrol hrest ih =>
    rw [JsonText.scan, hstep _ hquote hslash, Option.bind_some, ih]
  | escape hmem hrest ih => exact ih
  | @unicode a b c d s hdigits hrest ih =>
    have hdigit : ∀ digit : Char, isHexDigit digit = true →
        step (depth, .quoted) digit = some (depth, .quoted) := by
      intro digit h
      refine hstep digit ?_ ?_ <;>
      · rintro rfl
        exact absurd h (by decide)
    have hfour : JsonText.scan (depth, .quoted) (a :: b :: c :: d :: s) =
        some (depth, .quoted) := by
      rw [JsonText.scan, hdigit a (hdigits a (by simp)), Option.bind_some,
        JsonText.scan, hdigit b (hdigits b (by simp)), Option.bind_some,
        JsonText.scan, hdigit c (hdigits c (by simp)), Option.bind_some,
        JsonText.scan, hdigit d (hdigits d (by simp)), Option.bind_some, ih]
    exact hfour

theorem Quoted.balanced (h : Quoted s) : Balanced (quotedText s) := by
  have hscan : JsonText.scan (0, .quoted) (s ++ ['"']) = some (0, .outside) := by
    rw [scan_append, h.scan, Option.bind_some]
    rfl
  exact hscan

theorem Balanced.cons {c : Char} {s : List Char} (hc : isPlain c = true) (h : Balanced s) :
    Balanced (c :: s) := by
  unfold Balanced
  rw [JsonText.scan, step_plain hc, Option.bind_some]
  exact h

/-- **A derived text leaves a scan where it was.** -/
theorem Spells.balanced {part : Part} (h : Spells part s) : Balanced s := by
  induction h with
  | null | yes | no => exact balanced_of_plain (by decide)
  | number hnumber => exact balanced_of_plain (List.all_eq_true.2 hnumber.plain)
  | string hquoted => exact hquoted.balanced
  | emptyArray hblank => exact hblank.balanced.bracketed (.inr rfl) (.inr rfl)
  | array _ ih => exact ih.bracketed (.inr rfl) (.inr rfl)
  | emptyObject hblank => exact hblank.balanced.bracketed (.inl rfl) (.inl rfl)
  | object _ ih => exact ih.bracketed (.inl rfl) (.inl rfl)
  | element hbefore _ hafter ih => exact hbefore.balanced.append (ih.append hafter.balanced)
  | elements hbefore _ hafter _ ih ihrest =>
    exact hbefore.balanced.append (ih.append (hafter.balanced.append (ihrest.cons (by decide))))
  | member hbefore hkey hbetween hinner _ hafter ih =>
    exact hbefore.balanced.append (hkey.balanced.append (hbetween.balanced.append
      ((hinner.balanced.append (ih.append hafter.balanced)).cons (by decide))))
  | members hbefore hkey hbetween hinner _ hafter _ ih ihrest =>
    exact hbefore.balanced.append (hkey.balanced.append (hbetween.balanced.append
      ((hinner.balanced.append (ih.append (hafter.balanced.append
        (ihrest.cons (by decide))))).cons (by decide))))

/-! ### The end of an object -/

theorem Spells.exists_body (h : Spells (.value .object) s) :
    ∃ body, s = '\x7b' :: (body ++ ['\x7d']) ∧ Balanced body := by
  cases h with
  | emptyObject hblank => exact ⟨_, rfl, hblank.balanced⟩
  | object hmembers => exact ⟨_, rfl, hmembers.balanced⟩

theorem Spells.kind_eq_object (h : Spells (.value kind) ('\x7b' :: s)) : kind = .object := by
  cases h with
  | number hnumber => exact absurd (hnumber.plain '\x7b' List.mem_cons_self) (by decide)
  | emptyObject _ => rfl
  | object _ => rfl

theorem not_balanced_of_proper {body : List Char} (hbody : Balanced body) (h : s <+: body) :
    ¬ Balanced ('\x7b' :: s) := by
  intro hbalanced
  obtain ⟨rest, rfl⟩ := h
  unfold Balanced at hbody
  rw [scan_append] at hbody
  obtain ⟨⟨depth, mode⟩, hs, -⟩ := Option.bind_eq_some_iff.1 hbody
  have hdeep := scan_add 1 hs
  have hscan : JsonText.scan (1, .outside) s = some (0, .outside) := hbalanced
  rw [Nat.zero_add, hscan] at hdeep
  exact absurd (congrArg Prod.fst (Option.some.inj hdeep)) (by simp)

/-- **No object is a proper prefix of another one.** -/
theorem eq_of_prefix_object (hs : Spells (.value .object) s) (ht : Spells (.value .object) t)
    (h : s <+: t) : s = t := by
  obtain ⟨body, rfl, hbody⟩ := hs.exists_body
  obtain ⟨body', rfl, hbody'⟩ := ht.exists_body
  have hinner : body ++ ['\x7d'] <+: body' ++ ['\x7d'] := List.prefix_cons_inj _ |>.mp h
  rcases List.prefix_concat_iff.1 hinner with heq | hprefix
  · rw [heq]
  · exact absurd hs.balanced (not_balanced_of_proper hbody' hprefix)

theorem Spells.head_not_blank (h : Spells (.value kind) s) :
    ∃ c rest, s = c :: rest ∧ isBlank c = false := by
  cases h with
  | null | yes | no => exact ⟨_, _, rfl, by decide⟩
  | number hnumber =>
    obtain ⟨sign, whole, fraction, exponent, rfl, hsign, ⟨hne, hdigits⟩, -⟩ := hnumber.parts
    obtain ⟨digit, digits, rfl⟩ := List.exists_cons_of_ne_nil hne
    rcases hsign with rfl | rfl
    · refine ⟨digit, _, rfl, Bool.eq_false_iff.2 fun hblank => ?_⟩
      simp only [isBlank, Bool.or_eq_true, decide_eq_true_eq] at hblank
      have hdigit := hdigits digit List.mem_cons_self
      rcases hblank with ((rfl | rfl) | rfl) | rfl <;> exact absurd hdigit (by decide)
    · exact ⟨_, _, rfl, by decide⟩
  | string _ => exact ⟨_, _, rfl, by decide⟩
  | emptyArray _ | array _ => exact ⟨_, _, rfl, by decide⟩
  | emptyObject _ | object _ => exact ⟨_, _, rfl, by decide⟩

theorem eq_of_blank_append {before before' s s' : List Char} {c c' : Char} (hbefore : Blank before)
    (hbefore' : Blank before') (hc : isBlank c = false) (hc' : isBlank c' = false)
    (h : before ++ c :: s = before' ++ c' :: s') : before = before' ∧ c :: s = c' :: s' := by
  induction before generalizing before' with
  | nil =>
    cases before' with
    | nil => exact ⟨rfl, h⟩
    | cons d before' =>
      obtain rfl : c = d := (List.cons.inj h).1
      rw [hbefore' c List.mem_cons_self] at hc
      cases hc
  | cons d before ih =>
    cases before' with
    | nil =>
      obtain rfl : d = c' := (List.cons.inj h).1
      rw [hbefore d List.mem_cons_self] at hc'
      cases hc'
    | cons d' before' =>
      obtain ⟨rfl, hrest⟩ := List.cons.inj h
      obtain ⟨rfl, heq⟩ := ih (fun x hx => hbefore x (List.mem_cons_of_mem _ hx))
        (fun x hx => hbefore' x (List.mem_cons_of_mem _ hx)) hrest
      exact ⟨rfl, heq⟩

theorem blank_of_object_append (hs : IsText .object s) (hst : IsText kind (s ++ t)) : Blank t := by
  obtain ⟨before, value, after, rfl, hbefore, hvalue, hafter⟩ := hs
  obtain ⟨before', value', after', heq, hbefore', hvalue', hafter'⟩ := hst
  obtain ⟨body, hbody, -⟩ := hvalue.exists_body
  obtain ⟨c, rest, hc, hhead⟩ := hvalue'.head_not_blank
  obtain ⟨-, hfrom⟩ : before = before' ∧ value ++ (after ++ t) = value' ++ after' := by
    have hsplit := @eq_of_blank_append before before' (body ++ ['\x7d'] ++ (after ++ t))
      (rest ++ after') '\x7b' c hbefore hbefore' (by decide) hhead (by
        rw [← List.cons_append, ← hbody, ← List.cons_append, ← hc, ← heq]
        simp only [List.append_assoc])
    rw [hbody, hc]
    exact hsplit
  obtain rfl : kind = .object := by
    have hbrace : value' = '\x7b' :: rest := by
      rw [hbody, hc] at hfrom
      rw [hc, (List.cons.inj hfrom).1]
    exact (hbrace ▸ hvalue').kind_eq_object
  obtain rfl : value = value' := by
    rcases List.append_eq_append_iff.1 hfrom with ⟨more, hmore, -⟩ | ⟨more, hmore, -⟩
    · exact eq_of_prefix_object hvalue hvalue' ⟨more, hmore.symm⟩
    · exact (eq_of_prefix_object hvalue' hvalue ⟨more, hmore.symm⟩).symm
  have hrest := List.append_cancel_left hfrom
  intro d hd
  exact hafter' d (hrest ▸ List.mem_append_right _ hd)

end JsonText

end AiOpenRouter
