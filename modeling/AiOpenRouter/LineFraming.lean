/-
Frames that end with a given element.

`endingAt a` cuts after the first `a`; draining a buffer gives the pieces of
`List.splitOn a`, and the last piece is what stays in the buffer
(`drain_endingAt`).  `drainChunks_endingAt` says the same for a buffer that is
filled chunk by chunk.
-/
import AiOpenRouter.Framing

namespace Framing

variable {α : Type*} [BEq α]

/-- A frame ends with its first `a`. -/
def endingAt (a : α) : Finder α where
  find b := (b.findIdx? (· == a)).map (· + 1)
  pos := by
    intro b n h
    obtain ⟨i, -, rfl⟩ := Option.map_eq_some_iff.1 h
    omega
  le_length := by
    intro b n h
    obtain ⟨i, hi, rfl⟩ := Option.map_eq_some_iff.1 h
    obtain ⟨hlt, -⟩ := List.findIdx?_eq_some_iff_findIdx_eq.1 hi
    omega
  stable := by
    intro b n h c
    obtain ⟨i, hi, rfl⟩ := Option.map_eq_some_iff.1 h
    rw [List.findIdx?_append, hi]
    rfl

variable [LawfulBEq α] {a : α}

theorem not_mem_of_pop_eq_none {b : List α} (h : (endingAt a).pop b = none) : a ∉ b := by
  have hfind : b.findIdx? (· == a) = none := by
    rw [Finder.pop, Option.map_eq_none_iff] at h
    exact Option.map_eq_none_iff.1 h
  intro hmem
  exact absurd (List.findIdx?_eq_none_iff.1 hfind a hmem) (by simp)

theorem exists_line_of_pop {b frame rest : List α} (h : (endingAt a).pop b = some (frame, rest)) :
    ∃ line, frame = line ++ [a] ∧ a ∉ line ∧ b = line ++ a :: rest := by
  have hb := Finder.pop_append h
  obtain ⟨n, hn, hframe, -⟩ := Finder.pop_eq_some h
  obtain ⟨i, hi, rfl⟩ := Option.map_eq_some_iff.1 hn
  obtain ⟨hlt, ha, hbefore⟩ := List.findIdx?_eq_some_iff_getElem.1 hi
  have hline : frame = b.take i ++ [a] := by
    rw [hframe, List.take_succ_eq_append_getElem hlt, eq_of_beq ha]
  refine ⟨b.take i, hline, ?_, ?_⟩
  · intro hmem
    obtain ⟨j, hj, hja⟩ := List.mem_take_iff_getElem.1 hmem
    exact hbefore j (by omega) (by simp [hja])
  · rw [hline, List.append_assoc] at hb
    exact hb

/-- **Draining gives the pieces between the ends.** -/
theorem drain_endingAt (b : List α) :
    ((endingAt a).drain b).1.map List.dropLast ++ [((endingAt a).drain b).2] = b.splitOn a := by
  induction b using (endingAt a).drain_induction with
  | hnone b h =>
    rw [Finder.drain_of_none h, List.splitOn_eq_singleton (not_mem_of_pop_eq_none h)]
    rfl
  | hsome b frame rest h ih =>
    obtain ⟨line, hframe, hline, hb⟩ := exists_line_of_pop h
    rw [Finder.drain_of_some h, hb, List.splitOn_append_cons_self_of_not_mem hline, ← ih,
      List.map_cons, hframe, List.dropLast_concat]
    rfl

/-- **However the buffer is filled, its lines are those of the whole.** -/
theorem drainChunks_endingAt (chunks : List (List α)) :
    ((endingAt a).drainChunks [] chunks).1.map List.dropLast =
      (chunks.flatten.splitOn a).dropLast := by
  have hpop : (endingAt a).pop [] = none := rfl
  rw [Finder.drainChunks_eq hpop, List.nil_append, ← drain_endingAt, List.dropLast_concat]

end Framing
