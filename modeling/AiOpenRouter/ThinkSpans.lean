/-
What `split_think_tagged_text` cuts a text into.

A tag opens a span only outside of one, and the next closing tag ends it; a last
opening tag that is not closed is left out, and what follows it is text.

* `Cuts` reads this off the text alone;
* `splitThinkTaggedText_cuts`: the pieces are the non-empty spans, in order.
-/
import AiOpenRouter.ThinkTags

namespace AiOpenRouter

open Text

/-- A part of a tagged text: a span, or a tag. -/
inductive TextPart where
  | text (s : List Char)
  | thinking (s : List Char)
  | openTag
  | closeTag

/-- The characters of a part. -/
def TextPart.chars : TextPart → List Char
  | .text s => s
  | .thinking s => s
  | .openTag => thinkTagOpen
  | .closeTag => thinkTagClose

def TextPart.isTag : TextPart → Bool
  | .text _ => false
  | .thinking _ => false
  | .openTag => true
  | .closeTag => true

/-- The piece of a span that is not empty. -/
def TextPart.piece : TextPart → List TaggedPiece
  | .text s => nonemptyPiece .text s
  | .thinking s => nonemptyPiece .thinking s
  | .openTag => []
  | .closeTag => []

/-- The payload of a block. -/
def TaggedPiece.payload : TaggedPiece → List Char
  | .text s => s
  | .thinking s => s

/-- **The parts of a text**: an opening tag is the first one outside of a span, a closing tag the
first one behind it. -/
inductive Cuts : List Char → List TextPart → Prop
  | untagged {s : List Char} (hopen : ¬ thinkTagOpen <:+: s) : Cuts s [.text s]
  | unclosed {before inside : List Char} (hopen : EndsFirst thinkTagOpen before)
      (hclose : ¬ thinkTagClose <:+: inside) :
      Cuts (before ++ thinkTagOpen ++ inside) [.text before, .openTag, .text inside]
  | closed {before thinking rest : List Char} {parts : List TextPart}
      (hopen : EndsFirst thinkTagOpen before) (hclose : EndsFirst thinkTagClose thinking)
      (hrest : Cuts rest parts) :
      Cuts (before ++ thinkTagOpen ++ (thinking ++ thinkTagClose ++ rest))
        (.text before :: .openTag :: .thinking thinking :: .closeTag :: parts)

theorem thinkTagOpen_ne_nil : thinkTagOpen ≠ [] := by decide

theorem thinkTagClose_ne_nil : thinkTagClose ≠ [] := by decide

section Cuts

variable {s before inside thinking rest : List Char} {parts parts' : List TextPart}

theorem Cuts.flatMap_chars (h : Cuts s parts) : parts.flatMap TextPart.chars = s := by
  induction h with
  | untagged hopen => exact List.flatMap_singleton TextPart.chars _
  | unclosed hopen hclose => simp [TextPart.chars]
  | closed hopen hclose hrest ih => simp [TextPart.chars, ih]

theorem Cuts.of_untagged (h : Cuts s parts) (hopen : splitFirst thinkTagOpen s = none) :
    parts = [.text s] := by
  cases h with
  | untagged _ => rfl
  | unclosed hends _ =>
    rw [splitFirst_of_endsFirst _ hends] at hopen
    cases hopen
  | closed hends _ _ =>
    rw [splitFirst_of_endsFirst _ hends] at hopen
    cases hopen

theorem Cuts.of_unclosed (h : Cuts s parts)
    (hopen : splitFirst thinkTagOpen s = some (before, inside))
    (hclose : splitFirst thinkTagClose inside = none) :
    parts = [.text before, .openTag, .text inside] := by
  cases h with
  | untagged hnone =>
    rw [splitFirst_eq_none_iff.2 hnone] at hopen
    cases hopen
  | unclosed hends _ =>
    rw [splitFirst_of_endsFirst _ hends] at hopen
    cases hopen
    rfl
  | closed hends hcloses _ =>
    rw [splitFirst_of_endsFirst _ hends] at hopen
    cases hopen
    rw [splitFirst_of_endsFirst _ hcloses] at hclose
    cases hclose

theorem Cuts.of_closed (h : Cuts s parts)
    (hopen : splitFirst thinkTagOpen s = some (before, inside))
    (hclose : splitFirst thinkTagClose inside = some (thinking, rest)) :
    ∃ parts', Cuts rest parts' ∧
      parts = .text before :: .openTag :: .thinking thinking :: .closeTag :: parts' := by
  cases h with
  | untagged hnone =>
    rw [splitFirst_eq_none_iff.2 hnone] at hopen
    cases hopen
  | unclosed hends hnone =>
    rw [splitFirst_of_endsFirst _ hends] at hopen
    cases hopen
    rw [splitFirst_eq_none_iff.2 hnone] at hclose
    cases hclose
  | closed hends hcloses hrest =>
    rw [splitFirst_of_endsFirst _ hends] at hopen
    cases hopen
    rw [splitFirst_of_endsFirst _ hcloses] at hclose
    cases hclose
    exact ⟨_, hrest, rfl⟩

end Cuts

theorem exists_cuts (s : List Char) : ∃ parts, Cuts s parts ∧
    (∀ other, Cuts s other → other = parts) ∧
    splitThinkTaggedText s = parts.flatMap TextPart.piece := by
  induction s using splitThinkTaggedText.induct with
  | case1 s hopen =>
    refine ⟨[.text s], .untagged (splitFirst_eq_none_iff.1 hopen),
      fun other h => h.of_untagged hopen, ?_⟩
    rw [splitThinkTaggedText_of_untagged hopen]
    exact (List.flatMap_singleton TextPart.piece (.text s)).symm
  | case2 s before inside hopen ih =>
    obtain ⟨hs, hends⟩ := (splitFirst_eq_some_iff thinkTagOpen_ne_nil).1 hopen
    cases hclose : splitFirst thinkTagClose inside with
    | none =>
      refine ⟨[.text before, .openTag, .text inside],
        hs ▸ .unclosed hends (splitFirst_eq_none_iff.1 hclose),
        fun other h => h.of_unclosed hopen hclose, ?_⟩
      rw [splitThinkTaggedText_of_unclosed hopen hclose]
      simp [TextPart.piece]
    | some found =>
      obtain ⟨thinking, rest⟩ := found
      obtain ⟨hinside, hcloses⟩ := (splitFirst_eq_some_iff thinkTagClose_ne_nil).1 hclose
      obtain ⟨parts, hparts, hunique, hpieces⟩ := ih thinking rest hclose
      refine ⟨.text before :: .openTag :: .thinking thinking :: .closeTag :: parts, ?_,
        fun other h => ?_, ?_⟩
      · rw [hs, hinside]
        exact .closed hends hcloses hparts
      · obtain ⟨parts', hparts', rfl⟩ := h.of_closed hopen hclose
        rw [hunique parts' hparts']
      · rw [splitThinkTaggedText_of_closed hopen hclose, hpieces]
        simp [TextPart.piece]

theorem payload_piece (part : TextPart) :
    part.piece.flatMap TaggedPiece.payload = if part.isTag then [] else part.chars := by
  cases part with
  | text s =>
    show (nonemptyPiece .text s).flatMap TaggedPiece.payload = s
    unfold nonemptyPiece
    split_ifs with hnil
    · exact hnil.symm
    · exact List.flatMap_singleton TaggedPiece.payload _
  | thinking s =>
    show (nonemptyPiece .thinking s).flatMap TaggedPiece.payload = s
    unfold nonemptyPiece
    split_ifs with hnil
    · exact hnil.symm
    · exact List.flatMap_singleton TaggedPiece.payload _
  | openTag => rfl
  | closeTag => rfl

theorem payload_ne_nil {part : TextPart} {piece : TaggedPiece} (h : piece ∈ part.piece) :
    piece.payload ≠ [] := by
  have hnonempty : ∀ (make : List Char → TaggedPiece) (s : List Char), (∀ s, (make s).payload = s) →
      piece ∈ nonemptyPiece make s → piece.payload ≠ [] := by
    intro make s hmake hmem
    unfold nonemptyPiece at hmem
    split_ifs at hmem with hnil
    · cases hmem
    · rw [List.mem_singleton.1 hmem, hmake]
      exact hnil
  cases part with
  | text s => exact hnonempty .text s (fun _ => rfl) h
  | thinking s => exact hnonempty .thinking s (fun _ => rfl) h
  | openTag => cases h
  | closeTag => cases h

/-- **The pieces of a text are its non-empty spans**: their payloads are the text without its tags,
and no piece is empty. -/
theorem splitThinkTaggedText_cuts (s : List Char) :
    ∃ parts, Cuts s parts ∧ (∀ other, Cuts s other → other = parts) ∧
      parts.flatMap TextPart.chars = s ∧ splitThinkTaggedText s = parts.flatMap TextPart.piece ∧
      (splitThinkTaggedText s).flatMap TaggedPiece.payload =
        (parts.filter fun part => !part.isTag).flatMap TextPart.chars ∧
      ∀ piece ∈ splitThinkTaggedText s, piece.payload ≠ [] := by
  obtain ⟨parts, hparts, hunique, hpieces⟩ := exists_cuts s
  refine ⟨parts, hparts, hunique, hparts.flatMap_chars, hpieces, ?_, fun piece hmem => ?_⟩
  · rw [hpieces, List.flatMap_assoc]
    clear hparts hunique hpieces
    induction parts with
    | nil => rfl
    | cons part parts ih =>
      rw [List.flatMap_cons, ih, payload_piece]
      cases htag : part.isTag with
      | true => rw [List.filter_cons_of_neg (by simp [htag]), if_pos rfl, List.nil_append]
      | false => rw [List.filter_cons_of_pos (by simp [htag]), List.flatMap_cons, if_neg (by simp)]
  · rw [hpieces] at hmem
    obtain ⟨part, -, hpiece⟩ := List.mem_flatMap.1 hmem
    exact payload_ne_nil hpiece

end AiOpenRouter
