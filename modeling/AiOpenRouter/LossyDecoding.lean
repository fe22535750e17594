/-
`String::from_utf8_lossy` on the pieces of a UTF-8 text that is cut anywhere.

A character that is cut becomes one or more U+FFFD, every other one stays:
`Smudged` relates the text to what is decoded piece by piece
(`smudged_flatMap`).  What is decoded without U+FFFD stands in the bytes
(`prefix_fromUtf8Lossy_iff`).
-/
import AiOpenRouter.SseBlocks

namespace AiOpenRouter

namespace Text

/-! ### One character -/

/-- What the bytes of a character are, by their number. -/
inductive Encoded (c : Char) : Bytes → Prop
  | one (h : c.toNat < 128) : Encoded c [UInt8.ofNat c.toNat]
  | two {b0 b1 : UInt8} (h0 : 0xC2 ≤ b0 ∧ b0 ≤ 0xDF) (h1 : isContinuation b1 = true)
      (hc : Char.ofNat (b0.toNat % 32 * 64 + low6 b1) = c) : Encoded c [b0, b1]
  | three {b0 b1 b2 : UInt8} (h0 : 0xE0 ≤ b0 ∧ b0 ≤ 0xEF) (h1 : isSecond b0 b1 = true)
      (h2 : isContinuation b2 = true)
      (hc : Char.ofNat ((b0.toNat % 16 * 64 + low6 b1) * 64 + low6 b2) = c) :
      Encoded c [b0, b1, b2]
  | four {b0 b1 b2 b3 : UInt8} (h0 : 0xF0 ≤ b0 ∧ b0 ≤ 0xF4) (h1 : isSecond b0 b1 = true)
      (h2 : isContinuation b2 = true) (h3 : isContinuation b3 = true)
      (hc : Char.ofNat (((b0.toNat % 8 * 64 + low6 b1) * 64 + low6 b2) * 64 + low6 b3) = c) :
      Encoded c [b0, b1, b2, b3]

variable {b : UInt8} {c : Char} {n : ℕ} {bytes : Bytes}

theorem toNat_ofNat_of_lt (h : n < 256) : (UInt8.ofNat n).toNat = n := by
  rw [UInt8.toNat_ofNat']
  exact Nat.mod_eq_of_lt h

theorem isContinuation_ofNat (h : 128 ≤ n ∧ n ≤ 191) : isContinuation (UInt8.ofNat n) = true := by
  rw [isContinuation, Bool.and_eq_true, decide_eq_true_eq, decide_eq_true_eq,
    UInt8.le_iff_toNat_le, UInt8.le_iff_toNat_le, toNat_ofNat_of_lt (by omega)]
  exact h

theorem low6_ofNat (h : n < 256) : low6 (UInt8.ofNat n) = n % 64 := by
  rw [low6, toNat_ofNat_of_lt h]

theorem isSecond_ofNat {m : ℕ} (hm : m < 256) (hn : 128 ≤ n ∧ n ≤ 191) (he0 : m = 0xE0 → 0xA0 ≤ n)
    (hed : m = 0xED → n ≤ 0x9F) (hf0 : m = 0xF0 → 0x90 ≤ n) (hf4 : m = 0xF4 → n ≤ 0x8F) :
    isSecond (UInt8.ofNat m) (UInt8.ofNat n) = true := by
  have hfirst : ∀ k : ℕ, k < 256 → (UInt8.ofNat m = UInt8.ofNat k ↔ m = k) := by
    intro k hk
    rw [← UInt8.toNat_inj, toNat_ofNat_of_lt hm, toNat_ofNat_of_lt hk]
  have hle : ∀ k : ℕ, k < 256 → ((UInt8.ofNat k ≤ UInt8.ofNat n ↔ k ≤ n) ∧
      (UInt8.ofNat n ≤ UInt8.ofNat k ↔ n ≤ k)) := by
    intro k hk
    rw [UInt8.le_iff_toNat_le, UInt8.le_iff_toNat_le, toNat_ofNat_of_lt hk,
      toNat_ofNat_of_lt (by omega)]
    exact ⟨Iff.rfl, Iff.rfl⟩
  unfold isSecond
  split_ifs with h1 h2 h3 h4
  · have := he0 ((hfirst 0xE0 (by omega)).1 h1)
    rw [Bool.and_eq_true, decide_eq_true_eq, decide_eq_true_eq]
    exact ⟨(hle 0xA0 (by omega)).1.2 this, (hle 0xBF (by omega)).2.2 hn.2⟩
  · have := hed ((hfirst 0xED (by omega)).1 h2)
    rw [Bool.and_eq_true, decide_eq_true_eq, decide_eq_true_eq]
    exact ⟨(hle 0x80 (by omega)).1.2 hn.1, (hle 0x9F (by omega)).2.2 this⟩
  · have := hf0 ((hfirst 0xF0 (by omega)).1 h3)
    rw [Bool.and_eq_true, decide_eq_true_eq, decide_eq_true_eq]
    exact ⟨(hle 0x90 (by omega)).1.2 this, (hle 0xBF (by omega)).2.2 hn.2⟩
  · have := hf4 ((hfirst 0xF4 (by omega)).1 h4)
    rw [Bool.and_eq_true, decide_eq_true_eq, decide_eq_true_eq]
    exact ⟨(hle 0x80 (by omega)).1.2 hn.1, (hle 0x8F (by omega)).2.2 this⟩
  · exact isContinuation_ofNat hn

theorem between_ofNat {low n high : ℕ} (hlow : low ≤ n) (hhigh : n ≤ high) (h : high < 256) :
    UInt8.ofNat low ≤ UInt8.ofNat n ∧ UInt8.ofNat n ≤ UInt8.ofNat high := by
  rw [UInt8.le_iff_toNat_le, UInt8.le_iff_toNat_le, toNat_ofNat_of_lt h,
    toNat_ofNat_of_lt (by omega), toNat_ofNat_of_lt (by omega)]
  exact ⟨hlow, hhigh⟩

/-- **The bytes of a character.** -/
theorem encoded (c : Char) : Encoded c (String.utf8EncodeChar c) := by
  have hvalid : c.toNat < 0xD800 ∨ (0xDFFF < c.toNat ∧ c.toNat < 0x110000) := c.valid
  have hval : c.val.toNat = c.toNat := rfl
  unfold String.utf8EncodeChar
  dsimp only
  rw [hval]
  have hback : ∀ n, n = c.toNat → Char.ofNat n = c := fun n hn => by rw [hn, Char.ofNat_toNat]
  split_ifs with h1 h2 h3
  · exact .one (by omega)
  · refine .two (@between_ofNat 0xC2 _ 0xDF (by omega) (by omega) (by omega))
      (isContinuation_ofNat (by omega)) (hback _ ?_)
    rw [low6_ofNat (by omega), toNat_ofNat_of_lt (by omega)]
    omega
  · refine .three (@between_ofNat 0xE0 _ 0xEF (by omega) (by omega) (by omega))
      (isSecond_ofNat (by omega) (by omega) ?_ ?_ ?_ ?_) (isContinuation_ofNat (by omega))
      (hback _ ?_)
    · omega
    · omega
    · omega
    · omega
    · rw [low6_ofNat (by omega), low6_ofNat (by omega), toNat_ofNat_of_lt (by omega)]
      omega
  · refine .four (@between_ofNat 0xF0 _ 0xF4 (by omega) (by omega) (by omega))
      (isSecond_ofNat (by omega) (by omega) ?_ ?_ ?_ ?_) (isContinuation_ofNat (by omega))
      (isContinuation_ofNat (by omega)) (hback _ ?_)
    · omega
    · omega
    · omega
    · omega
    · rw [low6_ofNat (by omega), low6_ofNat (by omega), low6_ofNat (by omega),
        toNat_ofNat_of_lt (by omega)]
      omega

theorem not_lt_of_le {k m : UInt8} (h : k ≤ b) (hkm : m.toNat ≤ k.toNat) : ¬ b < m := by
  rw [UInt8.lt_iff_toNat_lt]
  have := UInt8.le_iff_toNat_le.1 h
  omega

theorem not_between_of_lt {b k low high : UInt8} (h : k ≤ b) (hhigh : high.toNat < k.toNat) :
    ¬ (decide (low ≤ b) && decide (b ≤ high)) = true := by
  rw [Bool.and_eq_true, decide_eq_true_eq, decide_eq_true_eq, UInt8.le_iff_toNat_le,
    UInt8.le_iff_toNat_le]
  have := UInt8.le_iff_toNat_le.1 h
  omega

theorem between_of {low high : UInt8} (h : low ≤ b ∧ b ≤ high) :
    (decide (low ≤ b) && decide (b ≤ high)) = true := by
  rw [Bool.and_eq_true, decide_eq_true_eq, decide_eq_true_eq]
  exact h

/-! ### Whole and cut characters -/

theorem isContinuation_of_isSecond {b0 b1 : UInt8} (h : isSecond b0 b1 = true) :
    isContinuation b1 = true := by
  unfold isSecond at h
  unfold isContinuation at h ⊢
  simp only [Bool.and_eq_true, decide_eq_true_eq, UInt8.le_iff_toNat_le] at h ⊢
  split_ifs at h with h1 h2 h3 h4
  all_goals
    simp only [Bool.and_eq_true, decide_eq_true_eq] at h
    simp at h ⊢
    omega

theorem Encoded.decode (h : Encoded c bytes) (rest : Bytes) :
    fromUtf8Lossy (bytes ++ rest) = c :: fromUtf8Lossy rest := by
  cases h with
  | one h =>
    have hnat : (UInt8.ofNat c.toNat).toNat = c.toNat := toNat_ofNat_of_lt (by omega)
    have hlt : UInt8.ofNat c.toNat < 0x80 := by
      rw [UInt8.lt_iff_toNat_lt, hnat]
      exact h
    rw [List.singleton_append, fromUtf8Lossy.eq_def]
    dsimp only
    rw [if_pos hlt, hnat, Char.ofNat_toNat]
  | two h0 h1 hc =>
    rw [← hc, List.cons_append, List.singleton_append, fromUtf8Lossy.eq_def]
    dsimp only
    rw [if_neg (not_lt_of_le h0.1 (by decide)), if_pos (between_of h0), if_pos h1]
  | three h0 h1 h2 hc =>
    rw [← hc, List.cons_append, List.cons_append, List.singleton_append, fromUtf8Lossy.eq_def]
    dsimp only
    rw [if_neg (not_lt_of_le h0.1 (by decide)), if_neg (not_between_of_lt h0.1 (by decide)),
      if_pos (between_of h0), if_pos h1, if_pos h2]
  | four h0 h1 h2 h3 hc =>
    rw [← hc, List.cons_append, List.cons_append, List.cons_append, List.singleton_append,
      fromUtf8Lossy.eq_def]
    dsimp only
    rw [if_neg (not_lt_of_le h0.1 (by decide)), if_neg (not_between_of_lt h0.1 (by decide)),
      if_neg (not_between_of_lt h0.1 (by decide)), if_pos (between_of h0), if_pos h1, if_pos h2,
      if_pos h3]

theorem Encoded.decode_cut {head tail : Bytes} (h : Encoded c (b :: head ++ tail))
    (htail : tail ≠ []) :
    fromUtf8Lossy (b :: head) = ['\uFFFD'] ∧ ∀ d ∈ tail, isContinuation d = true := by
  generalize hbytes : b :: head ++ tail = bytes at h
  -- the cut stands behind 1, 2 or 3 bytes; each piece is short of its own length
  cases h with
  | one h =>
    rcases head with _ | ⟨x, head⟩
    · simp [htail] at hbytes
    · simp at hbytes
  | two h0 h1 hc =>
    rcases head with _ | ⟨x, head⟩
    · obtain ⟨rfl, rfl⟩ : _ ∧ _ := by simpa using hbytes
      rw [fromUtf8Lossy.eq_def]
      dsimp only
      rw [if_neg (not_lt_of_le h0.1 (by decide)), if_pos (between_of h0)]
      exact ⟨rfl, by simpa using h1⟩
    · simp [htail] at hbytes
  | three h0 h1 h2 hc =>
    rcases head with _ | ⟨x, _ | ⟨y, head⟩⟩
    · obtain ⟨rfl, rfl⟩ : _ ∧ _ := by simpa using hbytes
      rw [fromUtf8Lossy.eq_def]
      dsimp only
      rw [if_neg (not_lt_of_le h0.1 (by decide)), if_neg (not_between_of_lt h0.1 (by decide)),
        if_pos (between_of h0)]
      exact ⟨rfl, by simpa using ⟨isContinuation_of_isSecond h1, h2⟩⟩
    · obtain ⟨rfl, rfl, rfl⟩ : _ ∧ _ ∧ _ := by simpa using hbytes
      rw [fromUtf8Lossy.eq_def]
      dsimp only
      rw [if_neg (not_lt_of_le h0.1 (by decide)), if_neg (not_between_of_lt h0.1 (by decide)),
        if_pos (between_of h0), if_pos h1]
      exact ⟨rfl, by simpa using h2⟩
    · simp [htail] at hbytes
  | four h0 h1 h2 h3 hc =>
    have hlt := not_lt_of_le (m := 0x80) h0.1 (by decide)
    have htwo := @not_between_of_lt _ _ 0xC2 0xDF h0.1 (by decide)
    have hthree := @not_between_of_lt _ _ 0xE0 0xEF h0.1 (by decide)
    have h1' := isContinuation_of_isSecond h1
    rcases head with _ | ⟨x, _ | ⟨y, _ | ⟨z, head⟩⟩⟩
    · obtain ⟨rfl, rfl⟩ : _ ∧ _ := by simpa using hbytes
      rw [fromUtf8Lossy.eq_def]
      dsimp only
      rw [if_neg hlt, if_neg htwo, if_neg hthree, if_pos (between_of h0)]
      exact ⟨rfl, by simpa using ⟨h1', h2, h3⟩⟩
    · obtain ⟨rfl, rfl, rfl⟩ : _ ∧ _ ∧ _ := by simpa using hbytes
      rw [fromUtf8Lossy.eq_def]
      dsimp only
      rw [if_neg hlt, if_neg htwo, if_neg hthree, if_pos (between_of h0), if_pos h1]
      exact ⟨rfl, by simpa using ⟨h2, h3⟩⟩
    · obtain ⟨rfl, rfl, rfl, rfl⟩ : _ ∧ _ ∧ _ ∧ _ := by simpa using hbytes
      rw [fromUtf8Lossy.eq_def]
      dsimp only
      rw [if_neg hlt, if_neg htwo, if_neg hthree, if_pos (between_of h0), if_pos h1, if_pos h2]
      exact ⟨rfl, by simpa using h3⟩
    · simp [htail] at hbytes

theorem fromUtf8Lossy_continuation (h : isContinuation b = true) (rest : Bytes) :
    fromUtf8Lossy (b :: rest) = '\uFFFD' :: fromUtf8Lossy rest := by
  rw [isContinuation, Bool.and_eq_true, decide_eq_true_eq, decide_eq_true_eq] at h
  have hle : ∀ low high : UInt8, 0xBF < low.toNat →
      ¬ (decide (low ≤ b) && decide (b ≤ high)) = true := by
    intro low high hlow hb
    rw [Bool.and_eq_true, decide_eq_true_eq, decide_eq_true_eq] at hb
    have h1 : b.toNat ≤ 0xBF := UInt8.le_iff_toNat_le.1 h.2
    have h2 := UInt8.le_iff_toNat_le.1 hb.1
    omega
  rw [fromUtf8Lossy.eq_def]
  dsimp only
  rw [if_neg (not_lt_of_le h.1 (by decide)), if_neg (hle _ _ (by decide)),
    if_neg (hle _ _ (by decide)), if_neg (hle _ _ (by decide))]

theorem fromUtf8Lossy_continuations (h : ∀ b ∈ bytes, isContinuation b = true) (rest : Bytes) :
    fromUtf8Lossy (bytes ++ rest) =
      List.replicate bytes.length '\uFFFD' ++ fromUtf8Lossy rest := by
  induction bytes with
  | nil => rfl
  | cons b bytes ih =>
    rw [List.cons_append, fromUtf8Lossy_continuation (h b List.mem_cons_self),
      ih fun d hd => h d (List.mem_cons_of_mem b hd)]
    rfl

theorem le_toNat_of_length {head tail : Bytes} (h : String.utf8EncodeChar c = b :: head ++ tail)
    (htail : tail ≠ []) : 128 ≤ c.toNat := by
  by_contra hlt
  rw [utf8EncodeChar_ascii (by omega)] at h
  rcases head with _ | ⟨x, head⟩
  · simp [htail] at h
  · simp at h

/-! ### What is decoded -/

theorem isContinuation_iff : isContinuation b = true ↔ 128 ≤ b.toNat ∧ b.toNat ≤ 191 := by
  rw [isContinuation, Bool.and_eq_true, decide_eq_true_eq, decide_eq_true_eq,
    UInt8.le_iff_toNat_le, UInt8.le_iff_toNat_le]
  exact Iff.rfl

theorem isSecond_range {b0 b1 : UInt8} (h : isSecond b0 b1 = true) :
    (b0.toNat = 0xE0 → 0xA0 ≤ b1.toNat) ∧ (b0.toNat = 0xED → b1.toNat ≤ 0x9F) ∧
      (b0.toNat = 0xF0 → 0x90 ≤ b1.toNat) ∧ (b0.toNat = 0xF4 → b1.toNat ≤ 0x8F) := by
  have heq : ∀ k : UInt8, b0 = k ↔ b0.toNat = k.toNat := fun k => UInt8.toNat_inj.symm
  simp only [isSecond, heq, UInt8.le_iff_toNat_le, isContinuation, UInt8.reduceToNat] at h
  split_ifs at h with h1 h2 h3 h4 <;>
    simp only [Bool.and_eq_true, decide_eq_true_eq] at h <;> omega

theorem ofNat_eq_of_toNat (h : n = b.toNat) : UInt8.ofNat n = b := by
  rw [h, UInt8.ofNat_toNat]

theorem toNat_of_ofNat_eq (h : Char.ofNat n = c) (hn : n < 0xD800 ∨ (0xDFFF < n ∧ n < 0x110000)) :
    c.toNat = n := by
  rw [← h, Char.ofNat, dif_pos hn]
  rfl

theorem Encoded.utf8EncodeChar_eq (h : Encoded c bytes) : String.utf8EncodeChar c = bytes := by
  have hval : c.val.toNat = c.toNat := rfl
  cases h with
  | one h => exact utf8EncodeChar_ascii h
  | two h0 h1 hc =>
    obtain ⟨h1, h1'⟩ := isContinuation_iff.1 h1
    rw [UInt8.le_iff_toNat_le, UInt8.le_iff_toNat_le] at h0
    simp only [UInt8.reduceToNat] at h0
    have hn := toNat_of_ofNat_eq hc (by rw [low6]; omega)
    rw [low6] at hn
    unfold String.utf8EncodeChar
    dsimp only
    rw [hval, if_neg (by omega), if_pos (by omega)]
    simp only [List.cons.injEq, and_true]
    exact ⟨ofNat_eq_of_toNat (by omega), ofNat_eq_of_toNat (by omega)⟩
  | three h0 h1 h2 hc =>
    obtain ⟨he0, hed, -, -⟩ := isSecond_range h1
    obtain ⟨h1, h1'⟩ := isContinuation_iff.1 (isContinuation_of_isSecond h1)
    obtain ⟨h2, h2'⟩ := isContinuation_iff.1 h2
    rw [UInt8.le_iff_toNat_le, UInt8.le_iff_toNat_le] at h0
    simp only [UInt8.reduceToNat] at h0
    have hn := toNat_of_ofNat_eq hc (by rw [low6, low6]; omega)
    rw [low6, low6] at hn
    unfold String.utf8EncodeChar
    dsimp only
    rw [hval, if_neg (by omega), if_neg (by omega), if_pos (by omega)]
    simp only [List.cons.injEq, and_true]
    exact ⟨ofNat_eq_of_toNat (by omega), ofNat_eq_of_toNat (by omega),
      ofNat_eq_of_toNat (by omega)⟩
  | four h0 h1 h2 h3 hc =>
    obtain ⟨-, -, hf0, hf4⟩ := isSecond_range h1
    obtain ⟨h1, h1'⟩ := isContinuation_iff.1 (isContinuation_of_isSecond h1)
    obtain ⟨h2, h2'⟩ := isContinuation_iff.1 h2
    obtain ⟨h3, h3'⟩ := isContinuation_iff.1 h3
    rw [UInt8.le_iff_toNat_le, UInt8.le_iff_toNat_le] at h0
    simp only [UInt8.reduceToNat] at h0
    have hn := toNat_of_ofNat_eq hc (by rw [low6, low6, low6]; omega)
    rw [low6, low6, low6] at hn
    unfold String.utf8EncodeChar
    dsimp only
    rw [hval, if_neg (by omega), if_neg (by omega), if_neg (by omega)]
    simp only [List.cons.injEq, and_true]
    exact ⟨ofNat_eq_of_toNat (by omega), ofNat_eq_of_toNat (by omega),
      ofNat_eq_of_toNat (by omega), ofNat_eq_of_toNat (by omega)⟩

/-- **A decoded character other than U+FFFD stands in the bytes.** -/
theorem exists_encoded {s : List Char} (h : fromUtf8Lossy bytes = c :: s) (hc : c ≠ '\uFFFD') :
    ∃ rest, bytes = String.utf8EncodeChar c ++ rest ∧ fromUtf8Lossy rest = s := by
  -- a replacement mark in front is not `c`
  have hmark : ∀ t : List Char, '\uFFFD' :: t ≠ c :: s := fun t ht =>
    hc (List.cons.inj ht).1.symm
  have hcons : ∀ {piece rest : Bytes} {d : Char}, Encoded d piece →
      d :: fromUtf8Lossy rest = c :: s →
      ∃ rest', piece ++ rest = String.utf8EncodeChar c ++ rest' ∧ fromUtf8Lossy rest' = s := by
    intro piece rest d hpiece hd
    obtain ⟨rfl, hs⟩ := List.cons.inj hd
    exact ⟨rest, by rw [hpiece.utf8EncodeChar_eq], hs⟩
  -- the decoder accepts in four places, one for each length of an encoding
  cases bytes with
  | nil => rw [fromUtf8Lossy] at h; cases h
  | cons b0 rest =>
    rw [fromUtf8Lossy.eq_def] at h
    dsimp only at h
    split_ifs at h with h1 h2 h3 h4
    · refine @hcons [b0] rest _ ?_ h
      have hb : b0.toNat < 128 := UInt8.lt_iff_toNat_lt.1 h1
      have htoNat := toNat_of_ofNat_eq (c := Char.ofNat b0.toNat) rfl (by omega)
      have hone := Encoded.one (c := Char.ofNat b0.toNat) (by omega)
      rwa [htoNat, UInt8.ofNat_toNat] at hone
    · rw [Bool.and_eq_true, decide_eq_true_eq, decide_eq_true_eq] at h2
      split at h
      · exact absurd h (hmark _)
      · next b1 rest1 =>
        split_ifs at h with hb1
        · exact hcons (.two h2 hb1 rfl) h
        · exact absurd h (hmark _)
    · rw [Bool.and_eq_true, decide_eq_true_eq, decide_eq_true_eq] at h3
      split at h
      · exact absurd h (hmark _)
      · next b1 rest1 =>
        split_ifs at h with hb1
        · split at h
          · exact absurd h (hmark _)
          · next b2 rest2 =>
            split_ifs at h with hb2
            · exact hcons (.three h3 hb1 hb2 rfl) h
            · exact absurd h (hmark _)
        · exact absurd h (hmark _)
    · rw [Bool.and_eq_true, decide_eq_true_eq, decide_eq_true_eq] at h4
      split at h
      · exact absurd h (hmark _)
      · next b1 rest1 =>
        split_ifs at h with hb1
        · split at h
          · exact absurd h (hmark _)
          · next b2 rest2 =>
            split_ifs at h with hb2
            · split at h
              · exact absurd h (hmark _)
              · next b3 rest3 =>
                split_ifs at h with hb3
                · exact hcons (.four h4 hb1 hb2 hb3 rfl) h
                · exact absurd h (hmark _)
            · exact absurd h (hmark _)
        · exact absurd h (hmark _)
    · exact absurd h (hmark _)

theorem fromUtf8Lossy_append (text : List Char) (rest : Bytes) :
    fromUtf8Lossy (text.flatMap String.utf8EncodeChar ++ rest) = text ++ fromUtf8Lossy rest := by
  induction text with
  | nil => rfl
  | cons c text ih =>
    rw [List.flatMap_cons, List.append_assoc, (encoded c).decode, ih]
    rfl

/-- **What bytes are decoded to starts with a text exactly where they start with its bytes.** -/
theorem prefix_fromUtf8Lossy_iff {text : List Char} (h : '\uFFFD' ∉ text) :
    text <+: fromUtf8Lossy bytes ↔ text.flatMap String.utf8EncodeChar <+: bytes := by
  constructor
  · induction text generalizing bytes with
    | nil => exact fun _ => List.nil_prefix
    | cons c text ih =>
      rintro ⟨more, hmore⟩
      obtain ⟨hc, htext⟩ := not_or.1 (mt List.mem_cons.2 h)
      obtain ⟨rest, rfl, hrest⟩ := exists_encoded hmore.symm (Ne.symm hc)
      rw [List.flatMap_cons]
      exact (List.prefix_append_right_inj _).2 (ih htext ⟨more, hrest.symm⟩)
  · rintro ⟨rest, rfl⟩
    exact ⟨fromUtf8Lossy rest, (fromUtf8Lossy_append text rest).symm⟩

/-! ### A text that is cut -/

/-- A text in which characters outside ASCII became one or more U+FFFD each. -/
inductive Smudged : List Char → List Char → Prop
  | nil : Smudged [] []
  | keep {s t} (c : Char) (h : Smudged s t) : Smudged (c :: s) (c :: t)
  | smudge {s t} {c : Char} (hc : 128 ≤ c.toNat) (n : ℕ) (h : Smudged s t) :
      Smudged (c :: s) ('\uFFFD' :: (List.replicate n '\uFFFD' ++ t))

namespace Smudged

theorem refl : ∀ s : List Char, Smudged s s
  | [] => nil
  | c :: s => keep c (refl s)

theorem append {s t s' t' : List Char} (h : Smudged s t) (h' : Smudged s' t') :
    Smudged (s ++ s') (t ++ t') := by
  induction h with
  | nil => exact h'
  | keep c h ih => exact keep c ih
  | smudge hc n h ih =>
    rw [List.cons_append, List.cons_append, List.append_assoc]
    exact smudge hc n ih

end Smudged

theorem fromUtf8Lossy_piece {s : List Char} {piece rest : Bytes}
    (h : piece ++ rest = s.flatMap String.utf8EncodeChar) :
    (∃ s1 s2, s = s1 ++ s2 ∧ fromUtf8Lossy piece = s1 ∧
      rest = s2.flatMap String.utf8EncodeChar) ∨
    ∃ s1 c s2 tail, s = s1 ++ c :: s2 ∧ 128 ≤ c.toNat ∧
      fromUtf8Lossy piece = s1 ++ ['\uFFFD'] ∧ (∀ b ∈ tail, isContinuation b = true) ∧
      rest = tail ++ s2.flatMap String.utf8EncodeChar := by
  induction s generalizing piece with
  | nil =>
    obtain ⟨rfl, rfl⟩ := List.append_eq_nil_iff.1 h
    exact .inl ⟨[], [], rfl, rfl, rfl⟩
  | cons c s ih =>
    rw [List.flatMap_cons] at h
    rcases List.append_eq_append_iff.1 h with ⟨tail, hc, hrest⟩ | ⟨more, rfl, hmore⟩
    · rcases piece with _ | ⟨b, piece⟩
      · refine .inl ⟨[], c :: s, rfl, rfl, ?_⟩
        rw [List.flatMap_cons, hrest, hc]
        rfl
      · rcases eq_or_ne tail [] with rfl | htail
        · refine .inl ⟨[c], s, rfl, ?_, hrest⟩
          have hdecode := (encoded c).decode []
          rw [List.append_nil] at hc hdecode
          rw [← hc, hdecode]
          rfl
        · obtain ⟨hpiece, hcont⟩ := Encoded.decode_cut (hc ▸ encoded c) htail
          exact .inr ⟨[], c, s, tail, rfl, le_toNat_of_length hc htail, hpiece, hcont, hrest⟩
    · have hdecode := (encoded c).decode more
      rcases ih hmore.symm with
        ⟨s1, s2, rfl, hs1, hrest⟩ | ⟨s1, d, s2, tail, rfl, hd, hs1, htail, hrest⟩
      · exact .inl ⟨c :: s1, s2, rfl, by rw [hdecode, hs1], hrest⟩
      · exact .inr ⟨c :: s1, d, s2, tail, rfl, hd, by rw [hdecode, hs1]; rfl, htail, hrest⟩

theorem utf8EncodeChar_ne_nil (c : Char) : String.utf8EncodeChar c ≠ [] := by
  intro h
  have hlen := String.length_utf8EncodeChar c
  have hpos := Char.utf8Size_pos c
  rw [h, List.length_nil] at hlen
  omega

theorem smudged_pieces {chunks : List Bytes} {s : List Char} {tail : Bytes}
    (htail : ∀ b ∈ tail, isContinuation b = true)
    (h : chunks.flatten = tail ++ s.flatMap String.utf8EncodeChar) :
    ∃ t, chunks.flatMap fromUtf8Lossy = List.replicate tail.length '\uFFFD' ++ t ∧
      Smudged s t := by
  induction chunks generalizing s tail with
  | nil =>
    obtain ⟨rfl, hs⟩ := List.append_eq_nil_iff.1 h.symm
    rcases s with _ | ⟨c, s⟩
    · exact ⟨[], rfl, .nil⟩
    · rw [List.flatMap_cons] at hs
      exact absurd (List.append_eq_nil_iff.1 hs).1 (utf8EncodeChar_ne_nil c)
  | cons chunk chunks ih =>
    rw [List.flatten_cons] at h
    rw [List.flatMap_cons]
    rcases List.append_eq_append_iff.1 h with ⟨tail', rfl, hrest⟩ | ⟨piece, rfl, hpiece⟩
    · -- the chunk ends before the cut character does
      have hchunk := fromUtf8Lossy_continuations
        (fun b hb => htail b (List.mem_append_left tail' hb)) []
      obtain ⟨t, ht, hst⟩ := ih (fun b hb => htail b (List.mem_append_right chunk hb)) hrest
      refine ⟨t, ?_, hst⟩
      rw [List.append_nil] at hchunk
      rw [hchunk, ht, fromUtf8Lossy, List.append_nil, ← List.append_assoc,
        List.replicate_append_replicate, List.length_append]
    · rw [fromUtf8Lossy_continuations htail]
      rcases fromUtf8Lossy_piece hpiece.symm with
        ⟨s1, s2, rfl, hs1, hrest⟩ | ⟨s1, c, s2, tail', rfl, hc, hs1, htail', hrest⟩
      · obtain ⟨t, ht, hst⟩ := @ih s2 [] (by simp) hrest
        refine ⟨s1 ++ t, ?_, (Smudged.refl s1).append hst⟩
        rw [hs1, ht, List.append_assoc]
        rfl
      · obtain ⟨t, ht, hst⟩ := ih htail' hrest
        refine ⟨s1 ++ '\uFFFD' :: (List.replicate tail'.length '\uFFFD' ++ t), ?_,
          (Smudged.refl s1).append (hst.smudge hc tail'.length)⟩
        rw [hs1, ht, List.append_assoc, List.append_assoc]
        rfl

theorem utf8Bytes_eq (s : String) : utf8Bytes s = s.toList.flatMap String.utf8EncodeChar := by
  show s.toByteArray.data.toList = _
  rw [← String.utf8Encode_toList, List.utf8Encode, List.toList_data_toByteArray]

/-- **Decoding a text piece by piece smudges the characters that are cut.** -/
theorem smudged_flatMap {chunks : List Bytes} {text : String}
    (h : chunks.flatten = utf8Bytes text) :
    Smudged text.toList (chunks.flatMap fromUtf8Lossy) := by
  obtain ⟨t, ht, hst⟩ := @smudged_pieces chunks text.toList [] (by simp)
    (h.trans (utf8Bytes_eq text))
  rw [ht]
  exact hst

/-! ### What smudging leaves alone -/

theorem splitOn_append_of_not_mem {a : Char} {l : List Char} (h : a ∉ l) (t : List Char) :
    (l ++ t).splitOn a = (t.splitOn a).modifyHead (l ++ ·) := by
  induction l with
  | nil =>
    rcases hs : t.splitOn a with _ | ⟨x, xs⟩
    · exact absurd hs (List.splitOn_ne_nil a t)
    · rw [List.nil_append, hs]
      rfl
  | cons b l ih =>
    rw [List.mem_cons, not_or] at h
    obtain ⟨hb, hl⟩ := h
    rw [List.cons_append, List.splitOn_cons_eq_if_modifyHead, if_neg (by simpa using Ne.symm hb),
      ih hl, List.modifyHead_modifyHead]
    rfl

namespace Smudged

variable {s t : List Char}

theorem ascii_left (h : Smudged s t) (hs : ∀ c ∈ s, c.toNat < 128) : t = s := by
  induction h with
  | nil => rfl
  | keep c h ih => rw [ih fun d hd => hs d (List.mem_cons_of_mem c hd)]
  | smudge hc n h ih =>
    have := hs _ List.mem_cons_self
    omega

theorem ascii_right (h : Smudged s t) (ht : ∀ c ∈ t, c.toNat < 128) : t = s := by
  induction h with
  | nil => rfl
  | keep c h ih => rw [ih fun d hd => ht d (List.mem_cons_of_mem c hd)]
  | smudge hc n h ih => exact absurd (ht _ List.mem_cons_self) (by decide)

theorem modifyHead_cons (c : Char) {ls ms : List (List Char)} (h : List.Forall₂ Smudged ls ms) :
    List.Forall₂ Smudged (ls.modifyHead (c :: ·)) (ms.modifyHead (c :: ·)) := by
  cases h with
  | nil => exact .nil
  | cons hl hls => exact .cons (hl.keep c) hls

theorem modifyHead_smudge {c : Char} (hc : 128 ≤ c.toNat) (n : ℕ) {ls ms : List (List Char)}
    (h : List.Forall₂ Smudged ls ms) : List.Forall₂ Smudged (ls.modifyHead (c :: ·))
      (ms.modifyHead (List.replicate (n + 1) '\uFFFD' ++ ·)) := by
  cases h with
  | nil => exact .nil
  | cons hl hls => exact .cons (hl.smudge hc n) hls

theorem splitOn {a : Char} (ha : a.toNat < 128) (h : Smudged s t) :
    List.Forall₂ Smudged (s.splitOn a) (t.splitOn a) := by
  induction h with
  | nil => exact .cons .nil .nil
  | keep c h ih =>
    rw [List.splitOn_cons_eq_if_modifyHead, List.splitOn_cons_eq_if_modifyHead]
    split_ifs with hc
    · exact .cons .nil ih
    · exact modifyHead_cons c ih
  | @smudge s t c hc n h ih =>
    have hne : ¬ (c == a) = true := by
      rw [beq_iff_eq]
      rintro rfl
      omega
    have hmem : a ∉ List.replicate (n + 1) '\uFFFD' := by
      intro hmem
      rw [List.eq_of_mem_replicate hmem] at ha
      exact absurd ha (by decide)
    rw [List.splitOn_cons_eq_if_modifyHead, if_neg hne, ← List.cons_append,
      ← List.replicate_succ, splitOn_append_of_not_mem hmem]
    exact modifyHead_smudge hc n ih

theorem exists_append {s' : List Char} (h : Smudged (s ++ s') t) :
    ∃ t1 t2, t = t1 ++ t2 ∧ Smudged s t1 ∧ Smudged s' t2 := by
  induction s generalizing t with
  | nil => exact ⟨[], t, rfl, .nil, h⟩
  | cons c s ih =>
    rw [List.cons_append] at h
    cases h with
    | keep _ h =>
      obtain ⟨t1, t2, rfl, h1, h2⟩ := ih h
      exact ⟨c :: t1, t2, rfl, h1.keep c, h2⟩
    | smudge hc n h =>
      obtain ⟨t1, t2, rfl, h1, h2⟩ := ih h
      refine ⟨_, t2, ?_, h1.smudge hc n, h2⟩
      rw [List.cons_append, List.append_assoc]

theorem exists_append_ascii {l : List Char} (hl : ∀ c ∈ l, c.toNat < 128)
    (h : Smudged s (l ++ t)) : ∃ s', s = l ++ s' ∧ Smudged s' t := by
  induction l generalizing s with
  | nil => exact ⟨s, rfl, h⟩
  | cons c l ih =>
    generalize hu : c :: l ++ t = u at h
    cases h with
    | nil => cases hu
    | keep d h =>
      obtain ⟨rfl, rfl⟩ := List.cons_eq_cons.1 hu
      obtain ⟨s', rfl, hs'⟩ := ih (fun d hd => hl d (List.mem_cons_of_mem c hd)) h
      exact ⟨s', rfl, hs'⟩
    | smudge hc n h =>
      rw [List.cons_append] at hu
      obtain ⟨rfl, -⟩ := List.cons_eq_cons.1 hu
      exact absurd (hl _ List.mem_cons_self) (by decide)

theorem stripPrefix {pre : String} (hpre : ∀ c ∈ pre.toList, c.toNat < 128) (h : Smudged s t) :
    Option.Rel Smudged (Text.stripPrefix pre s) (Text.stripPrefix pre t) := by
  have hsome : ∀ {u rest}, Text.stripPrefix pre u = some rest → u = pre.toList ++ rest := by
    intro u rest hu
    rw [Text.stripPrefix, List.dropPrefix?_eq_some_iff] at hu
    obtain ⟨p, hp, hbeq⟩ := hu
    rw [hp, eq_of_beq hbeq]
  rcases hs : Text.stripPrefix pre s with _ | rest
  · rcases ht : Text.stripPrefix pre t with _ | rest
    · exact .none
    · rw [hsome ht] at h
      obtain ⟨s', rfl, -⟩ := exists_append_ascii hpre h
      rw [stripPrefix_append] at hs
      cases hs
  · rw [hsome hs] at h
    obtain ⟨t1, t2, rfl, h1, h2⟩ := exists_append h
    rw [h1.ascii_left hpre, stripPrefix_append]
    exact .some h2

theorem trimStart (h : Smudged s t) :
    (s.takeWhile isWhitespace = t.takeWhile isWhitespace ∧
      Smudged (Text.trimStart s) (Text.trimStart t)) ∨
    (s.takeWhile isWhitespace ≠ t.takeWhile isWhitespace ∧
      ∃ t', Text.trimStart t = '\uFFFD' :: t') := by
  induction h with
  | nil => exact .inl ⟨rfl, .nil⟩
  | @keep s t c h ih =>
    simp only [Text.trimStart] at ih ⊢
    by_cases hc : isWhitespace c = true
    · rw [List.takeWhile_cons_of_pos hc, List.takeWhile_cons_of_pos hc,
        List.dropWhile_cons_of_pos hc, List.dropWhile_cons_of_pos hc, List.cons_inj_right, ne_eq,
        List.cons_inj_right]
      exact ih
    · rw [List.takeWhile_cons_of_neg hc, List.takeWhile_cons_of_neg hc,
        List.dropWhile_cons_of_neg hc, List.dropWhile_cons_of_neg hc]
      exact .inl ⟨rfl, h.keep c⟩
  | @smudge s t c hc n h ih =>
    have hmark : ¬ isWhitespace '\uFFFD' = true := by decide
    simp only [Text.trimStart]
    rw [List.takeWhile_cons_of_neg hmark, List.dropWhile_cons_of_neg hmark]
    by_cases hblank : isWhitespace c = true
    · rw [List.takeWhile_cons_of_pos hblank]
      exact .inr ⟨by simp, _, rfl⟩
    · rw [List.takeWhile_cons_of_neg hblank, List.dropWhile_cons_of_neg hblank]
      exact .inl ⟨rfl, h.smudge hc n⟩

end Smudged

end Text

end AiOpenRouter
