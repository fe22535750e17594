/-
`<think>` tags in a text (`split_think_tagged_text`).

The converters of whole answers cut a text at its tags: what stands between a
`<think>` and the next `</think>` is thinking, the rest is text, and empty
pieces are left out.  A text keeps all its characters as text exactly when it
has no opening tag (`length_textChars_eq_iff`).
-/
import AiOpenRouter.Sse
import Mathlib.Tactic.Common

namespace AiOpenRouter

/-! ### The first occurrence of a pattern -/

namespace Text

/-- `str::find` with the two slices it is used for: what comes before the first occurrence of a
pattern, and what comes after it. -/
def splitFirst (pattern : List Char) : List Char → Option (List Char × List Char)
  | [] => if pattern = [] then some ([], []) else none
  | c :: s =>
    match (c :: s).dropPrefix? pattern with
    | some after => some ([], after)
    | none => (splitFirst pattern s).map fun parts => (c :: parts.1, parts.2)

variable {pattern before s after : List Char}

theorem splitFirst_eq_some (h : splitFirst pattern s = some (before, after)) :
    s = before ++ pattern ++ after := by
  induction s generalizing before with
  | nil =>
    rw [splitFirst] at h
    split_ifs at h with hnil
    obtain ⟨rfl, rfl⟩ : before = [] ∧ after = [] := by simpa [eq_comm] using h
    simp [hnil]
  | cons c s ih =>
    rw [splitFirst] at h
    cases hdrop : (c :: s).dropPrefix? pattern with
    | some rest =>
      rw [hdrop] at h
      obtain ⟨rfl, rfl⟩ : before = [] ∧ after = rest := by simpa [eq_comm] using h
      obtain ⟨pattern', hs, hpattern⟩ := List.dropPrefix?_eq_some_iff.1 hdrop
      rw [hs, eq_of_beq hpattern, List.nil_append]
    | none =>
      rw [hdrop] at h
      obtain ⟨parts, hparts, heq⟩ := Option.map_eq_some_iff.1 h
      obtain ⟨rfl, rfl⟩ := Prod.mk.inj heq
      rw [ih hparts]
      rfl

def EndsFirst (pattern before : List Char) : Prop :=
  ∀ left right, before ++ pattern = left ++ pattern ++ right → right = []

theorem endsFirst_of_notMem {c : Char} {pattern before : List Char} (h : c ∉ before) :
    EndsFirst (c :: pattern) before := by
  intro left right heq
  rw [List.append_assoc] at heq
  rcases List.append_eq_append_iff.1 heq with ⟨between, -, hpattern⟩ | ⟨between, hbefore, hpattern⟩
  · have hlength := congrArg List.length hpattern
    simp only [List.length_append] at hlength
    exact List.eq_nil_of_length_eq_zero (by omega)
  · cases between with
    | nil => exact List.append_right_eq_self.1 hpattern
    | cons d between =>
      obtain rfl : c = d := (List.cons.inj hpattern).1
      exact absurd (hbefore ▸ List.mem_append_right _ List.mem_cons_self) h

theorem endsFirst_of_notInfix {c : Char} {pattern before : List Char} (hc : c ∉ pattern)
    (h : ¬ (c :: pattern) <:+: before) : EndsFirst (c :: pattern) before := by
  intro left right heq
  rw [List.append_assoc] at heq
  rcases List.append_eq_append_iff.1 heq with ⟨between, -, hpattern⟩ | ⟨between, hbefore, hpattern⟩
  · have hlength := congrArg List.length hpattern
    simp only [List.length_append] at hlength
    exact List.eq_nil_of_length_eq_zero (by omega)
  · cases between with
    | nil => exact List.append_right_eq_self.1 hpattern
    | cons d between =>
      obtain ⟨rfl, hrest⟩ := List.cons.inj hpattern
      rcases List.append_eq_append_iff.1 hrest with ⟨more, hmore, -⟩ | ⟨more, hmore, hfrom⟩
      · rw [hmore, ← List.cons_append] at hbefore
        exact absurd ⟨left, more, by rw [hbefore, List.append_assoc]⟩ h
      · cases more with
        | nil =>
          rw [List.append_nil] at hmore
          rw [← hmore] at hbefore
          exact absurd ⟨left, [], by rw [List.append_nil, hbefore]⟩ h
        | cons e more =>
          obtain rfl : c = e := (List.cons.inj hfrom).1
          exact absurd (hmore ▸ List.mem_append_right _ List.mem_cons_self) hc

theorem splitFirst_endsFirst (hne : pattern ≠ [])
    (h : splitFirst pattern s = some (before, after)) :
    EndsFirst pattern before := by
  induction s generalizing before with
  | nil =>
    rw [splitFirst, if_neg hne] at h
    cases h
  | cons c s ih =>
    intro left right heq
    rw [splitFirst] at h
    cases hdrop : (c :: s).dropPrefix? pattern with
    | some rest =>
      rw [hdrop] at h
      obtain ⟨rfl, -⟩ := Prod.mk.inj (Option.some.inj h)
      have hlength := congrArg List.length heq
      simp only [List.length_append, List.length_nil] at hlength
      exact List.eq_nil_of_length_eq_zero (by omega)
    | none =>
      rw [hdrop] at h
      obtain ⟨parts, hparts, hpair⟩ := Option.map_eq_some_iff.1 h
      obtain ⟨rfl, rfl⟩ := Prod.mk.inj hpair
      cases left with
      | nil =>
        -- the text would begin with the pattern
        have hs := splitFirst_eq_some hparts
        have hbegins : c :: s = pattern ++ (right ++ parts.2) := by
          rw [hs, ← List.cons_append, ← List.cons_append, heq, List.nil_append, List.append_assoc]
        have hsome : (c :: s).dropPrefix? pattern = some (right ++ parts.2) :=
          List.dropPrefix?_eq_some_iff.2 ⟨pattern, hbegins, beq_self_eq_true pattern⟩
        rw [hdrop] at hsome
        cases hsome
      | cons d left => exact ih hparts left right (List.cons.inj heq).2

theorem splitFirst_of_endsFirst (after : List Char) (h : EndsFirst pattern before) :
    splitFirst pattern (before ++ pattern ++ after) = some (before, after) := by
  induction before with
  | nil =>
    cases pattern with
    | nil => cases after <;> rfl
    | cons c pattern =>
      have hsome : ((c :: pattern) ++ after).dropPrefix? (c :: pattern) = some after :=
        List.dropPrefix?_eq_some_iff.2 ⟨c :: pattern, rfl, beq_self_eq_true _⟩
      rw [List.nil_append, List.cons_append, splitFirst, ← List.cons_append, hsome]
  | cons c before ih =>
    have hrest : EndsFirst pattern before := fun left right heq =>
      h (c :: left) right (by rw [List.cons_append, heq]; rfl)
    have hnone : (c :: (before ++ pattern ++ after)).dropPrefix? pattern = none := by
      cases hdrop : (c :: (before ++ pattern ++ after)).dropPrefix? pattern with
      | none => rfl
      | some rest =>
        obtain ⟨pattern', hs, hsame⟩ := List.dropPrefix?_eq_some_iff.1 hdrop
        rw [eq_of_beq hsame] at hs
        -- the pattern at the start would end before the one behind the text
        have hprefix : pattern <+: c :: (before ++ pattern) := by
          refine @List.prefix_of_prefix_length_le _ _ _ (c :: (before ++ pattern ++ after))
            ⟨rest, hs.symm⟩ ⟨after, by simp⟩ ?_
          simp only [List.length_cons, List.length_append]
          omega
        obtain ⟨right, hright⟩ := hprefix
        have hnil := h [] right (by rw [List.nil_append, hright]; rfl)
        have hlength := congrArg List.length hright
        rw [hnil] at hlength
        simp only [List.length_append, List.length_nil, List.length_cons] at hlength
        omega
    rw [List.cons_append, List.cons_append, splitFirst, hnone, ih hrest]
    rfl

theorem splitFirst_eq_some_iff (hne : pattern ≠ []) :
    splitFirst pattern s = some (before, after) ↔
      s = before ++ pattern ++ after ∧ EndsFirst pattern before :=
  ⟨fun h => ⟨splitFirst_eq_some h, splitFirst_endsFirst hne h⟩,
    fun ⟨hs, h⟩ => hs ▸ splitFirst_of_endsFirst after h⟩

theorem splitFirst_eq_none_iff : splitFirst pattern s = none ↔ ¬ pattern <:+: s := by
  induction s with
  | nil =>
    rw [splitFirst, List.infix_nil]
    split_ifs with hnil
    · exact ⟨fun h => (nomatch h), fun h => absurd hnil h⟩
    · exact ⟨fun _ => hnil, fun _ => rfl⟩
  | cons c s ih =>
    rw [splitFirst, List.infix_cons_iff, not_or, ← ih]
    cases hdrop : (c :: s).dropPrefix? pattern with
    | some rest =>
      obtain ⟨pattern', hs, hsame⟩ := List.dropPrefix?_eq_some_iff.1 hdrop
      rw [eq_of_beq hsame] at hs
      exact ⟨fun h => (nomatch h), fun h => absurd ⟨rest, hs.symm⟩ h.1⟩
    | none =>
      have hnot : ¬ pattern <+: c :: s := by
        rintro ⟨rest, hrest⟩
        have hsome : (c :: s).dropPrefix? pattern = some rest :=
          List.dropPrefix?_eq_some_iff.2 ⟨pattern, hrest.symm, beq_self_eq_true pattern⟩
        rw [hdrop] at hsome
        cases hsome
      rw [Option.map_eq_none_iff]
      exact ⟨fun h => ⟨hnot, h⟩, fun h => h.2⟩

end Text

open Text

/-! ### Cutting a text -/

/-- A piece of a tagged text. -/
inductive TaggedPiece where
  | text (s : List Char)
  | thinking (s : List Char)
  deriving DecidableEq

/-- `THINK_TAG_OPEN`. -/
def thinkTagOpen : List Char := "<think>".toList

/-- `THINK_TAG_CLOSE`. -/
def thinkTagClose : List Char := "</think>".toList

def nonemptyPiece (piece : List Char → TaggedPiece) (s : List Char) : List TaggedPiece :=
  if s = [] then [] else [piece s]

variable {s before : List Char}

theorem length_of_splitFirst {pattern after : List Char}
    (h : splitFirst pattern s = some (before, after)) :
    s.length = before.length + pattern.length + after.length := by
  rw [splitFirst_eq_some h, List.length_append, List.length_append]

/-- `split_think_tagged_text`: an opening tag without a closing one makes the rest a text. -/
def splitThinkTaggedText (remaining : List Char) : List TaggedPiece :=
  match _hopen : splitFirst thinkTagOpen remaining with
  | none => nonemptyPiece .text remaining
  | some (before, inside) =>
    nonemptyPiece .text before ++
      match _hclose : splitFirst thinkTagClose inside with
      | none => nonemptyPiece .text inside
      | some (thinking, rest) =>
        nonemptyPiece .thinking thinking ++ splitThinkTaggedText rest
termination_by remaining.length
decreasing_by
  have hlength := length_of_splitFirst _hopen
  have hlength' := length_of_splitFirst _hclose
  have htag : thinkTagOpen.length = 7 := by decide
  omega

/-! ### Texts without tags -/

def Untagged (s : List Char) : Prop := splitFirst thinkTagOpen s = none

instance (s : List Char) : Decidable (Untagged s) := inferInstanceAs (Decidable (_ = none))

def textChars (pieces : List TaggedPiece) : List Char :=
  pieces.flatMap fun
    | .text s => s
    | .thinking _ => []

@[simp] theorem textChars_append (pieces pieces' : List TaggedPiece) :
    textChars (pieces ++ pieces') = textChars pieces ++ textChars pieces' := List.flatMap_append

@[simp] theorem textChars_nonemptyPiece_text (s : List Char) :
    textChars (nonemptyPiece .text s) = s := by
  unfold nonemptyPiece
  split_ifs with h
  · rw [h]
    rfl
  · simp [textChars]

@[simp] theorem textChars_nonemptyPiece_thinking (s : List Char) :
    textChars (nonemptyPiece .thinking s) = [] := by
  unfold nonemptyPiece
  split_ifs <;> rfl

theorem splitThinkTaggedText_of_untagged (h : Untagged s) :
    splitThinkTaggedText s = nonemptyPiece .text s := by
  rw [Untagged] at h
  rw [splitThinkTaggedText]
  split
  · rfl
  · rename_i heq
    rw [h] at heq
    cases heq

theorem splitThinkTaggedText_of_unclosed {inside : List Char}
    (hopen : splitFirst thinkTagOpen s = some (before, inside))
    (hclose : splitFirst thinkTagClose inside = none) :
    splitThinkTaggedText s = nonemptyPiece .text before ++ nonemptyPiece .text inside := by
  rw [splitThinkTaggedText]
  split
  · rename_i heq
    rw [hopen] at heq
    cases heq
  · rename_i heq
    rw [hopen] at heq
    cases heq
    split
    · rfl
    · rename_i heq
      rw [hclose] at heq
      cases heq

theorem splitThinkTaggedText_of_closed {inside thinking rest : List Char}
    (hopen : splitFirst thinkTagOpen s = some (before, inside))
    (hclose : splitFirst thinkTagClose inside = some (thinking, rest)) :
    splitThinkTaggedText s = nonemptyPiece .text before ++
      (nonemptyPiece .thinking thinking ++ splitThinkTaggedText rest) := by
  rw [splitThinkTaggedText]
  split
  · rename_i heq
    rw [hopen] at heq
    cases heq
  · rename_i heq
    rw [hopen] at heq
    cases heq
    split
    · rename_i heq
      rw [hclose] at heq
      cases heq
    · rename_i heq
      rw [hclose] at heq
      cases heq
      rfl

theorem length_textChars (s : List Char) :
    (textChars (splitThinkTaggedText s)).length ≤ s.length ∧
      (¬ Untagged s → (textChars (splitThinkTaggedText s)).length < s.length) := by
  have htag : thinkTagOpen.length = 7 := by decide
  induction s using splitThinkTaggedText.induct with
  | case1 s hopen =>
    have huntagged : Untagged s := hopen
    rw [splitThinkTaggedText_of_untagged huntagged, textChars_nonemptyPiece_text]
    exact ⟨Nat.le_refl _, fun h => absurd huntagged h⟩
  | case2 s before inside hopen ih =>
    have hlength := length_of_splitFirst hopen
    cases hclose : splitFirst thinkTagClose inside with
    | none =>
      rw [splitThinkTaggedText_of_unclosed hopen hclose]
      simp only [textChars_append, textChars_nonemptyPiece_text, List.length_append]
      omega
    | some parts =>
      obtain ⟨hrest, -⟩ := ih parts.1 parts.2 hclose
      have hlength' := length_of_splitFirst hclose
      rw [splitThinkTaggedText_of_closed hopen hclose]
      simp only [textChars_append, textChars_nonemptyPiece_text,
        textChars_nonemptyPiece_thinking, List.length_append, List.length_nil]
      omega

/-- **A text keeps its length as text exactly when it has no opening tag.** -/
theorem length_textChars_eq_iff (s : List Char) :
    (textChars (splitThinkTaggedText s)).length = s.length ↔ Untagged s := by
  obtain ⟨-, hlt⟩ := length_textChars s
  constructor
  · intro h
    by_contra hnot
    have hless := hlt hnot
    omega
  · intro h
    rw [splitThinkTaggedText_of_untagged h, textChars_nonemptyPiece_text]

end AiOpenRouter
