/-
Byte offsets in a text and in its lower-cased copy.

A case mapping gives every character some characters, by what stands around it. Patterns in ASCII
without `i` and `k` come from themselves only, so where the copy has one the text has it too; but
the offset in bytes is one of the copy.

* `sliceFrom_eq_some_iff`: what a slice from an offset on is;
* `exists_of_images_eq`: where an occurrence in the copy comes from;
* `byteLength_images`: a text of ASCII and blanks keeps its length.
-/
import AiOpenRouter.Sse
import Mathlib

namespace AiOpenRouter

namespace Text

/-! ### Slices -/

def byteLength : List Char → ℕ
  | [] => 0
  | c :: s => c.utf8Size + byteLength s

@[simp] theorem byteLength_append (s t : List Char) :
    byteLength (s ++ t) = byteLength s + byteLength t := by
  induction s with
  | nil => exact (Nat.zero_add _).symm
  | cons c s ih => rw [List.cons_append, byteLength, ih, byteLength, Nat.add_assoc]

/-- `str[start..]`, none where the slice panics: behind the end, or inside of a character. -/
def sliceFrom : List Char → ℕ → Option (List Char)
  | s, 0 => some s
  | [], _ + 1 => none
  | c :: s, n + 1 => if c.utf8Size ≤ n + 1 then sliceFrom s (n + 1 - c.utf8Size) else none

variable {s : List Char}

/-- **A slice** is what follows as many bytes. -/
theorem sliceFrom_eq_some_iff {t : List Char} {n : ℕ} :
    sliceFrom s n = some t ↔ ∃ before, s = before ++ t ∧ byteLength before = n := by
  induction s generalizing n with
  | nil =>
    cases n with
    | zero =>
      constructor
      · intro h
        exact ⟨[], Option.some.inj h, rfl⟩
      · rintro ⟨before, hs, -⟩
        rw [(List.append_eq_nil_iff.1 hs.symm).2]
        rfl
    | succ n =>
      refine iff_of_false (fun h => nomatch h) ?_
      rintro ⟨before, hs, hlength⟩
      rw [(List.append_eq_nil_iff.1 hs.symm).1] at hlength
      cases hlength
  | cons c s ih =>
    have hpos : 0 < c.utf8Size := Char.utf8Size_pos c
    cases n with
    | zero =>
      constructor
      · intro h
        exact ⟨[], Option.some.inj h, rfl⟩
      · rintro ⟨before, hs, hlength⟩
        cases before with
        | nil => exact congrArg some hs
        | cons d before =>
          have hpos' : 0 < d.utf8Size := Char.utf8Size_pos d
          rw [byteLength] at hlength
          omega
    | succ n =>
      rw [sliceFrom]
      constructor
      · intro h
        split_ifs at h with hfits
        obtain ⟨before, rfl, hlength⟩ := ih.1 h
        exact ⟨c :: before, rfl, by rw [byteLength, hlength]; omega⟩
      · rintro ⟨before, hs, hlength⟩
        cases before with
        | nil => cases hlength
        | cons d before =>
          obtain ⟨rfl, hs'⟩ := List.cons.inj hs
          rw [byteLength] at hlength
          rw [if_pos (by omega)]
          exact ih.2 ⟨before, hs', by omega⟩

theorem sliceFrom_append (s t : List Char) : sliceFrom (s ++ t) (byteLength s) = some t :=
  sliceFrom_eq_some_iff.2 ⟨s, rfl, rfl⟩

theorem byteLength_eq_zero (h : byteLength s = 0) : s = [] := by
  cases s with
  | nil => rfl
  | cons c s =>
    have hpos : 0 < c.utf8Size := Char.utf8Size_pos c
    rw [byteLength] at h
    omega

theorem exists_of_sliceFrom_append {t u : List Char} {n : ℕ}
    (h : sliceFrom (s ++ t) (byteLength s + n) = some u) :
    ∃ before, t = before ++ u ∧ byteLength before = n := by
  obtain ⟨before, hs, hlength⟩ := sliceFrom_eq_some_iff.1 h
  rcases List.append_eq_append_iff.1 hs with ⟨gap, rfl, ht⟩ | ⟨gap, rfl, hu⟩
  · rw [byteLength_append] at hlength
    exact ⟨gap, ht, by omega⟩
  · rw [byteLength_append] at hlength
    obtain rfl := byteLength_eq_zero (s := gap) (by omega)
    exact ⟨[], hu.symm, by rw [byteLength]; omega⟩

end Text

open Text

/-! ### Case mappings -/

/-- The small letters of the characters, each by what stands before and behind it: an ASCII
character has the one that ASCII gives it, no other character has one in ASCII but `i` and `k`, and
white space stays as it is. -/
structure CaseMapping where
  image : List Char → Char → List Char → List Char
  nonempty : ∀ before c after, image before c after ≠ []
  ascii : ∀ {before c after}, c.toNat < 128 → image before c after = [c.toLower]
  nonAscii : ∀ {before c after d}, 128 ≤ c.toNat → d ∈ image before c after → d.toNat < 128 →
    d = 'i' ∨ d = 'k'
  whitespace : ∀ {before c after}, isWhitespace c = true → image before c after = [c]

def IsPlainPattern (pattern : List Char) : Prop :=
  ∀ d ∈ pattern, d.toNat < 128 ∧ d ≠ 'i' ∧ d ≠ 'k'

theorem isPlainPattern_of_all {pattern : List Char}
    (h : pattern.all (fun d => d.toNat < 128 ∧ d ≠ 'i' ∧ d ≠ 'k') = true) :
    IsPlainPattern pattern := fun d hd => of_decide_eq_true (List.all_eq_true.1 h d hd)

theorem ascii_of_toLower {c : Char} (h : c.toLower.toNat < 128) : c.toNat < 128 := by
  rw [Char.toLower] at h
  split_ifs at h with hupper
  · have hle : c.toNat ≤ 90 := hupper.2
    omega
  · exact h

theorem utf8Size_ascii {c : Char} (h : c.toNat < 128) : c.utf8Size = 1 := by
  rw [Char.utf8Size_eq_one_iff, UInt32.le_iff_toNat_le]
  exact Nat.le_of_lt_succ h

theorem toLower_ascii {c : Char} (h : c.toNat < 128) : c.toLower.toNat < 128 := by
  have hall : ∀ n : Fin 128, (Char.ofNat n).toLower.toNat < 128 := by decide +kernel
  have hc := hall ⟨c.toNat, h⟩
  rwa [Char.ofNat_toNat] at hc

namespace CaseMapping

variable (mapping : CaseMapping)

def images (before : List Char) : List Char → List Char → List Char
  | [], _ => []
  | c :: s, after => mapping.image before c (s ++ after) ++ images (before ++ [c]) s after

/-- `str::to_lowercase`. -/
def toLowercase (s : List Char) : List Char := mapping.images [] s []

variable {mapping}

theorem images_append (before s t after : List Char) :
    mapping.images before (s ++ t) after =
      mapping.images before s (t ++ after) ++ mapping.images (before ++ s) t after := by
  induction s generalizing before with
  | nil => rw [List.nil_append, images, List.nil_append, List.append_nil]
  | cons c s ih =>
    rw [List.cons_append, images, ih, images, List.append_assoc, List.append_assoc,
      List.append_assoc, List.singleton_append]

variable {s : List Char}

theorem images_ascii (h : ∀ c ∈ s, c.toNat < 128) (before after : List Char) :
    mapping.images before s after = s.map Char.toLower := by
  induction s generalizing before with
  | nil => rfl
  | cons c s ih =>
    rw [images, mapping.ascii (h c List.mem_cons_self),
      ih fun d hd => h d (List.mem_cons_of_mem c hd)]
    rfl

theorem exists_of_images_eq_append {pattern : List Char} (hpattern : IsPlainPattern pattern)
    {before after y : List Char} (h : mapping.images before s after = pattern ++ y) :
    ∃ own rest, s = own ++ rest ∧ own.map Char.toLower = pattern ∧
      mapping.images (before ++ own) rest after = y := by
  induction pattern generalizing before s with
  | nil => exact ⟨[], s, rfl, rfl, by rw [List.append_nil]; exact h⟩
  | cons d pattern ih =>
    obtain ⟨⟨hascii, hi, hk⟩, hrest⟩ := List.forall_mem_cons.1 hpattern
    cases s with
    | nil => cases h
    | cons c s =>
      rw [images] at h
      by_cases hc : c.toNat < 128
      · rw [mapping.ascii hc] at h
        obtain ⟨rfl, htail⟩ := List.cons.inj h
        obtain ⟨own, rest, rfl, rfl, hy⟩ := ih hrest htail
        rw [List.append_assoc] at hy
        exact ⟨c :: own, rest, rfl, rfl, hy⟩
      · -- the first character of the image is the one of the pattern
        obtain ⟨e, image, himage⟩ := List.exists_cons_of_ne_nil
          (mapping.nonempty before c (s ++ after))
        rw [himage] at h
        obtain ⟨rfl, -⟩ := List.cons.inj h
        have hmem : e ∈ mapping.image before c (s ++ after) := himage ▸ List.mem_cons_self
        rcases mapping.nonAscii (Nat.le_of_not_lt hc) hmem hascii with heq | heq
        · exact absurd heq hi
        · exact absurd heq hk

/-- **Where an occurrence in the copy comes from.** -/
theorem exists_of_images_eq {pattern : List Char} (hpattern : IsPlainPattern pattern)
    (hne : pattern ≠ []) {before after x y : List Char}
    (h : mapping.images before s after = x ++ (pattern ++ y)) :
    ∃ front own back, s = front ++ (own ++ back) ∧ own.map Char.toLower = pattern ∧
      mapping.images before front (own ++ back ++ after) = x := by
  induction s generalizing before x with
  | nil => exact absurd (List.append_eq_nil_iff.1 (List.append_eq_nil_iff.1 h.symm).2).1 hne
  | cons c s ih =>
    have hwhole := h
    rw [images] at h
    -- the pattern begins behind the image of the first character, or inside it
    rcases List.append_eq_append_iff.1 h with ⟨gap, rfl, hs⟩ | ⟨gap, himage, hs⟩
    · obtain ⟨front, own, back, rfl, hown, rfl⟩ := ih hs
      refine ⟨c :: front, own, back, rfl, hown, ?_⟩
      rw [images, ← List.append_assoc front (own ++ back) after]
    · by_cases hgap : gap = []
      · subst hgap
        obtain ⟨front, own, back, rfl, hown, hfront⟩ := @ih (before ++ [c]) [] hs.symm
        refine ⟨c :: front, own, back, rfl, hown, ?_⟩
        rw [images, ← List.append_assoc front (own ++ back) after, hfront, himage]
        simp
      · -- the pattern begins in the image of the character, which is then its own
        obtain ⟨d, gap', rfl⟩ := List.exists_cons_of_ne_nil hgap
        obtain ⟨e, pattern', rfl⟩ := List.exists_cons_of_ne_nil hne
        obtain ⟨rfl, -⟩ := List.cons.inj hs
        obtain ⟨hascii, hi, hk⟩ := hpattern e List.mem_cons_self
        have hmem : e ∈ mapping.image before c (s ++ after) := by
          rw [himage]
          exact List.mem_append_right x List.mem_cons_self
        have hc : c.toNat < 128 := by
          by_contra hc
          rcases mapping.nonAscii (Nat.le_of_not_lt hc) hmem hascii with heq | heq
          · exact hi heq
          · exact hk heq
        have hx : x = [] := by
          rw [mapping.ascii hc] at himage
          cases x with
          | nil => rfl
          | cons f x => simp at himage
        subst hx
        obtain ⟨own, back, hsplit, hown, -⟩ := exists_of_images_eq_append hpattern hwhole
        exact ⟨[], own, back, hsplit, hown, rfl⟩

theorem images_own {own : List Char} (hown : ∀ d ∈ own.map Char.toLower, d.toNat < 128)
    (before front back after : List Char) :
    mapping.images before (front ++ (own ++ back)) after =
      mapping.images before front (own ++ back ++ after) ++ (own.map Char.toLower ++
        mapping.images (before ++ front ++ own) back after) := by
  have hascii : ∀ c ∈ own, c.toNat < 128 := fun c hc =>
    ascii_of_toLower (hown _ (List.mem_map_of_mem hc))
  rw [images_append, images_append, images_ascii hascii]

theorem byteLength_images (h : ∀ c ∈ s, c.toNat < 128 ∨ isWhitespace c = true)
    (before after : List Char) : byteLength (mapping.images before s after) = byteLength s := by
  induction s generalizing before with
  | nil => rfl
  | cons c s ih =>
    have hc : byteLength (mapping.image before c (s ++ after)) = c.utf8Size := by
      rcases h c List.mem_cons_self with hascii | hblank
      · rw [mapping.ascii hascii, byteLength, byteLength, utf8Size_ascii hascii,
          utf8Size_ascii (toLower_ascii hascii)]
      · rw [mapping.whitespace hblank]
        rfl
    rw [images, byteLength_append, hc, byteLength, ih fun d hd => h d (List.mem_cons_of_mem c hd)]

end CaseMapping

/-- The small letters of ASCII and of the capital I with a dot, which is longer in the copy;
everything else stays as it is. -/
def CaseMapping.dotted : CaseMapping where
  image _ c _ := if c = '\u0130' then ['i', '\u0307'] else [c.toLower]
  nonempty _ c _ := by split_ifs <;> exact List.cons_ne_nil _ _
  ascii := by
    intro _ c _ hc
    rw [if_neg]
    rintro rfl
    exact absurd hc (by decide)
  nonAscii := by
    intro _ c _ d hc hmem hd
    split_ifs at hmem
    · rcases List.mem_cons.1 hmem with rfl | hdot
      · exact .inl rfl
      · rw [List.mem_singleton.1 hdot] at hd
        exact absurd hd (by decide)
    · obtain rfl := List.mem_singleton.1 hmem
      exact absurd (ascii_of_toLower hd) (Nat.not_lt_of_le hc)
  whitespace := by
    intro _ c _ hblank
    have hne : c ≠ '\u0130' := by
      rintro rfl
      exact absurd hblank (by decide)
    have hlower : c.toLower = c := by
      rw [Char.toLower]
      split_ifs with hupper
      · have hlow : 65 ≤ c.toNat := hupper.1
        have hhigh : c.toNat ≤ 90 := hupper.2
        simp only [isWhitespace, Bool.or_eq_true, Bool.and_eq_true, decide_eq_true_eq] at hblank
        omega
      · rfl
    rw [if_neg hne, hlower]

end AiOpenRouter
