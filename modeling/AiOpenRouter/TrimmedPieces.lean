/-
Pieces of a list that are trimmed one by one and joined again.

The elements that count as blanks are given by a predicate. `core` is what trimming leaves of a
piece, and `cores` the pieces of which something is left.

* `intercalate_cores_iff`: the cores of the pieces, joined with one separator, are the list that the
  pieces were cut from exactly where what is trimmed off between two cores is that separator.
-/
import Mathlib.Data.List.DropRight
import Mathlib.Data.List.TakeWhile

namespace TrimmedPieces

variable {α : Type*} (p : α → Bool)

def core (s : List α) : List α := (s.dropWhile p).rdropWhile p

def cores (pieces : List (List α)) : List (List α) :=
  (pieces.map (core p)).filter fun s => !s.isEmpty

def NoEdges (s : List α) : Prop := (∀ a ∈ s.head?, p a = false) ∧ ∀ a ∈ s.getLast?, p a = false

/-- What stands between the core of a piece and the next one is a separator and nothing else; a gap
is what stands behind the last core so far. -/
def SeparatedBy (sep : α) : Option (List α) → List (List α) → Prop
  | _, [] => True
  | gap, s :: pieces =>
    if core p s = [] then SeparatedBy sep (gap.map (· ++ s)) pieces
    else (∀ g ∈ gap, g ++ s.takeWhile p = [sep]) ∧ SeparatedBy sep (some (s.rtakeWhile p)) pieces

variable {p}

/-! ### One piece -/

variable {s : List α} {ss : List (List α)} (sep : α)

theorem core_eq_nil_iff : core p s = [] ↔ ∀ a ∈ s, p a = true := by
  rw [core, List.rdropWhile_eq_nil_iff]
  constructor
  · intro h a ha
    rw [← @List.takeWhile_append_dropWhile _ p s] at ha
    exact (List.mem_append.1 ha).elim List.mem_takeWhile_imp (h a)
  · exact fun h a ha => h a (List.dropWhile_subset p ha)

theorem rdropWhile_getLast : ∀ a ∈ (s.rdropWhile p).getLast?, p a = false := by
  intro a ha
  have hne : s.rdropWhile p ≠ [] := fun hnil => by
    rw [hnil] at ha
    cases ha
  have hnot := List.rdropWhile_last_not p s hne
  rw [List.getLast?_eq_some_getLast hne, Option.mem_some_iff] at ha
  rw [ha] at hnot
  exact Bool.eq_false_iff.2 hnot

theorem dropWhile_head {s : List α} : ∀ a ∈ (s.dropWhile p).head?, p a = false := by
  intro a ha
  have hnot := List.head?_dropWhile_not p s
  rw [show (s.dropWhile p).head? = some a from ha] at hnot
  exact hnot

theorem noEdges_core (s : List α) : NoEdges p (core p s) := by
  refine ⟨fun a ha => @dropWhile_head _ p s a ?_, rdropWhile_getLast⟩
  obtain ⟨rest, hrest⟩ := List.rdropWhile_prefix p (s.dropWhile p)
  rw [← hrest, List.head?_append, show (List.rdropWhile _ _).head? = some a from ha]
  rfl

theorem dropWhile_of_head (h : ∀ a ∈ s.head?, p a = false) : s.dropWhile p = s := by
  cases s with
  | nil => rfl
  | cons a s => exact List.dropWhile_cons_of_neg (Bool.eq_false_iff.1 (h a rfl))

theorem core_eq_self (h : NoEdges p s) : core p s = s := by
  rw [core, dropWhile_of_head h.1, List.rdropWhile_eq_self_iff]
  exact fun hne => Bool.eq_false_iff.1 (h.2 _ (List.getLast?_eq_some_getLast hne))

theorem rtakeWhile_append {rest : List α} (hs : ∀ a ∈ s.getLast?, p a = false)
    (hrest : ∀ a ∈ rest, p a = true) : (s ++ rest).rtakeWhile p = rest := by
  rw [List.rtakeWhile, List.reverse_append, List.takeWhile_append_of_pos
    fun a ha => hrest a (List.mem_reverse.1 ha)]
  cases hreverse : s.reverse with
  | nil => rw [List.takeWhile_nil, List.append_nil, List.reverse_reverse]
  | cons a tail =>
    have ha : p a = false := hs a (by rw [← List.head?_reverse, hreverse]; rfl)
    rw [List.takeWhile_cons_of_neg (Bool.eq_false_iff.1 ha), List.append_nil, List.reverse_reverse]

theorem eq_core_between (h : core p s ≠ []) :
    s = s.takeWhile p ++ (core p s ++ s.rtakeWhile p) := by
  have hsplit : s.dropWhile p = core p s ++ (s.dropWhile p).rtakeWhile p :=
    (List.rdropWhile_append_rtakeWhile ..).symm
  have hs : s = (s.takeWhile p ++ core p s) ++ (s.dropWhile p).rtakeWhile p := by
    rw [List.append_assoc, ← hsplit, List.takeWhile_append_dropWhile]
  have hend : s.rtakeWhile p = (s.dropWhile p).rtakeWhile p := by
    conv => lhs; rw [hs]
    refine rtakeWhile_append (fun a ha => (noEdges_core s).2 a ?_) fun a ha =>
      List.mem_rtakeWhile_imp ha
    rwa [List.getLast?_append_of_ne_nil _ h] at ha
  rw [hend, ← List.append_assoc]
  exact hs

theorem core_subset (s : List α) : core p s ⊆ s := fun _ ha =>
  List.dropWhile_subset p ((List.rdropWhile_prefix p (s.dropWhile p)).subset ha)

theorem dropWhile_append_cons {a : α} (ha : p a = false) (s t : List α) :
    (s ++ a :: t).dropWhile p = s.dropWhile p ++ a :: t := by
  rw [List.dropWhile_append]
  split_ifs with hempty
  · rw [List.isEmpty_iff.1 hempty, List.dropWhile_cons_of_neg (Bool.eq_false_iff.1 ha)]
    rfl
  · rfl

theorem rdropWhile_append_cons {a : α} (ha : p a = false) (s t : List α) :
    (s ++ a :: t).rdropWhile p = s ++ a :: t.rdropWhile p := by
  have hreverse : (s ++ a :: t).reverse = t.reverse ++ a :: s.reverse := by simp
  rw [List.rdropWhile, hreverse, dropWhile_append_cons ha, List.reverse_append, List.reverse_cons,
    List.reverse_reverse, List.append_assoc]
  rfl

/-- Only what stands in front of an element that is no blank is trimmed at the start, and only what
stands behind it at the end. -/
theorem core_append_cons {a : α} (ha : p a = false) (s t : List α) :
    core p (s ++ a :: t) = s.dropWhile p ++ a :: t.rdropWhile p := by
  rw [core, dropWhile_append_cons ha, rdropWhile_append_cons ha]

theorem core_dropWhile (s : List α) : core p (s.dropWhile p) = core p s := by
  rw [core, dropWhile_of_head dropWhile_head, core]

theorem core_rdropWhile (s : List α) : core p (s.rdropWhile p) = core p s := by
  by_cases hblank : core p s = []
  · rw [List.rdropWhile_eq_nil_iff.2 (core_eq_nil_iff.1 hblank), hblank]
    rfl
  · obtain ⟨a, rest, hcore⟩ := List.exists_cons_of_ne_nil hblank
    have ha : p a = false := (noEdges_core s).1 a (by rw [hcore]; rfl)
    have hs : s = s.takeWhile p ++ a :: (rest ++ s.rtakeWhile p) := by
      rw [← List.cons_append, ← hcore]
      exact eq_core_between hblank
    rw [hs, rdropWhile_append_cons ha, core_append_cons ha, core_append_cons ha,
      List.rdropWhile_idempotent]

/-! ### Joining -/

theorem append_inj_of_blanks {g g' s s' : List α} (hg : ∀ a ∈ g, p a = true)
    (hg' : ∀ a ∈ g', p a = true) (hs : ∀ a ∈ s.head?, p a = false)
    (hs' : ∀ a ∈ s'.head?, p a = false) (h : g ++ s = g' ++ s') : g = g' ∧ s = s' := by
  have htake : ∀ {g s : List α}, (∀ a ∈ g, p a = true) → (∀ a ∈ s.head?, p a = false) →
      (g ++ s).takeWhile p = g := by
    intro g s hg hs
    rw [List.takeWhile_append_of_pos hg]
    cases s with
    | nil => exact List.append_nil g
    | cons a s =>
      rw [List.takeWhile_cons_of_neg (Bool.eq_false_iff.1 (hs a rfl)), List.append_nil]
  have hgap : g = g' := by rw [← htake hg hs, h, htake hg' hs']
  exact ⟨hgap, List.append_cancel_left (hgap ▸ h)⟩

def joinedTail (sep : α) (ss : List (List α)) : List α := ss.flatMap (sep :: ·)

theorem intercalate_cons_eq (s : List α) (ss : List (List α)) :
    [sep].intercalate (s :: ss) = s ++ joinedTail sep ss := by
  induction ss generalizing s with
  | nil => rw [List.intercalate_singleton, joinedTail, List.flatMap_nil, List.append_nil]
  | cons s' ss ih =>
    rw [List.intercalate_cons_cons, ih, joinedTail, joinedTail, List.flatMap_cons]
    simp

theorem cores_cons_of_nil (h : core p s = []) (pieces : List (List α)) :
    cores p (s :: pieces) = cores p pieces := by
  rw [cores, List.map_cons, h]
  rfl

theorem cores_cons_of_ne_nil (h : core p s ≠ []) (pieces : List (List α)) :
    cores p (s :: pieces) = core p s :: cores p pieces := by
  rw [cores, List.map_cons, List.filter_cons_of_pos (by simpa using h)]
  rfl

/-- Behind a core: the blanks `gap`, and then the other pieces. The induction is on the pieces, and
moves the blanks of a piece without a core to the gap. -/
theorem tail_iff {sep : α} (hsep : p sep = true) (pieces : List (List α)) : ∀ gap : List α,
    (∀ a ∈ gap, p a = true) → (∀ a ∈ (gap ++ pieces.flatten).getLast?, p a = false) →
    (joinedTail sep (cores p pieces) = gap ++ pieces.flatten ↔
      SeparatedBy p sep (some gap) pieces) := by
  induction pieces with
  | nil =>
    intro gap hgap hlast
    have hnil : gap = [] := by
      rw [List.flatten_nil, List.append_nil] at hlast
      by_contra hne
      have hfalse := hlast _ (List.getLast?_eq_some_getLast hne)
      rw [hgap _ (List.getLast_mem hne)] at hfalse
      cases hfalse
    rw [hnil, SeparatedBy]
    exact iff_of_true rfl trivial
  | cons s pieces ih =>
    intro gap hgap hlast
    rw [List.flatten_cons, ← List.append_assoc] at hlast ⊢
    rw [SeparatedBy]
    -- a blank piece widens the gap, another one ends it
    by_cases hcore : core p s = []
    · have hblank : ∀ a ∈ gap ++ s, p a = true := fun a ha =>
        (List.mem_append.1 ha).elim (hgap a) (core_eq_nil_iff.1 hcore a)
      rw [if_pos hcore, cores_cons_of_nil hcore, ih (gap ++ s) hblank hlast, Option.map_some]
    · rw [if_neg hcore, cores_cons_of_ne_nil hcore]
      have htrail : ∀ a ∈ s.rtakeWhile p, p a = true := fun a ha => List.mem_rtakeWhile_imp ha
      have hlead : ∀ a ∈ gap ++ s.takeWhile p, p a = true := fun a ha =>
        (List.mem_append.1 ha).elim (hgap a) List.mem_takeWhile_imp
      have htext : gap ++ s ++ pieces.flatten =
          (gap ++ s.takeWhile p) ++ (core p s ++ (s.rtakeWhile p ++ pieces.flatten)) := by
        conv => lhs; rw [eq_core_between hcore]
        simp only [List.append_assoc]
      have hhead : ∀ rest : List α, ∀ a ∈ (core p s ++ rest).head?, p a = false := by
        intro rest a ha
        rw [List.head?_append_of_ne_nil _ hcore] at ha
        exact (noEdges_core s).1 a ha
      have hrest : ∀ a ∈ (s.rtakeWhile p ++ pieces.flatten).getLast?, p a = false := by
        intro a ha
        refine hlast a ?_
        rw [htext, List.getLast?_append, List.getLast?_append,
          show List.getLast? _ = some a from ha]
        rfl
      have hih := ih (s.rtakeWhile p) htrail hrest
      have hjoin : joinedTail sep (core p s :: cores p pieces) =
          [sep] ++ (core p s ++ joinedTail sep (cores p pieces)) := rfl
      rw [htext, hjoin]
      -- both texts are cut behind their blanks
      constructor
      · intro h
        obtain ⟨hgap, hcores⟩ := append_inj_of_blanks (by simpa using hsep) hlead (hhead _)
          (hhead _) h
        refine ⟨fun g hg => ?_, hih.1 (List.append_cancel_left hcores)⟩
        cases hg
        exact hgap.symm
      · rintro ⟨hgap, hcores⟩
        rw [hgap gap rfl, hih.2 hcores]

/-- **Trimmed pieces joined again.** -/
theorem intercalate_cores_iff {sep : α} (hsep : p sep = true) {pieces : List (List α)}
    (hne : pieces.flatten ≠ []) (hedges : NoEdges p pieces.flatten) :
    [sep].intercalate (cores p pieces) = pieces.flatten ↔ SeparatedBy p sep none pieces := by
  induction pieces with
  | nil => exact absurd rfl hne
  | cons s pieces ih =>
    rw [SeparatedBy]
    by_cases hcore : core p s = []
    · -- a blank piece in front of the text is empty
      have hnil : s = [] := by
        cases s with
        | nil => rfl
        | cons a s =>
          have hfalse := hedges.1 a rfl
          rw [core_eq_nil_iff.1 hcore a List.mem_cons_self] at hfalse
          cases hfalse
      have hflatten : (s :: pieces).flatten = pieces.flatten := by rw [hnil]; rfl
      rw [hflatten] at hne hedges
      rw [if_pos hcore, cores_cons_of_nil hcore, hflatten, Option.map_none, ih hne hedges]
    · have htrail : ∀ a ∈ s.rtakeWhile p, p a = true := fun a ha => List.mem_rtakeWhile_imp ha
      have hlead : s.takeWhile p = [] := by
        obtain ⟨a, s, rfl⟩ := List.exists_cons_of_ne_nil
          (fun hnil : s = [] => hcore (by rw [hnil]; rfl))
        exact List.takeWhile_cons_of_neg (Bool.eq_false_iff.1 (hedges.1 a rfl))
      have htext : (s :: pieces).flatten = core p s ++ (s.rtakeWhile p ++ pieces.flatten) := by
        rw [List.flatten_cons, ← List.append_assoc]
        conv => lhs; rw [eq_core_between hcore, hlead, List.nil_append]
      have hrest : ∀ a ∈ (s.rtakeWhile p ++ pieces.flatten).getLast?, p a = false := by
        intro a ha
        refine hedges.2 a ?_
        rw [htext, List.getLast?_append, show List.getLast? _ = some a from ha]
        rfl
      rw [if_neg hcore, cores_cons_of_ne_nil hcore, intercalate_cons_eq, htext,
        List.append_cancel_left_eq, tail_iff hsep pieces _ htrail hrest]
      exact ⟨fun h => ⟨fun g hg => absurd hg (by simp), h⟩, fun h => h.2⟩

theorem noEdges_of_mem_cores {pieces : List (List α)} (h : s ∈ cores p pieces) :
    s ≠ [] ∧ NoEdges p s := by
  obtain ⟨hmem, hne⟩ := List.mem_filter.1 h
  obtain ⟨piece, -, rfl⟩ := List.mem_map.1 hmem
  exact ⟨by simpa using hne, noEdges_core piece⟩

theorem noEdges_intercalate (hss : ∀ s ∈ ss, s ≠ [] ∧ NoEdges p s) :
    NoEdges p ([sep].intercalate ss) := by
  cases ss with
  | nil => exact ⟨fun a ha => absurd ha (by simp), fun a ha => absurd ha (by simp)⟩
  | cons s ss =>
    induction ss generalizing s with
    | nil =>
      rw [List.intercalate_singleton]
      exact (hss s List.mem_cons_self).2
    | cons s' ss ih =>
      obtain ⟨hne, hedges⟩ := hss s List.mem_cons_self
      have htail := ih s' fun t ht => hss t (List.mem_cons_of_mem s ht)
      have hs' : [sep].intercalate (s' :: ss) ≠ [] := by
        rw [intercalate_cons_eq]
        exact fun hnil => (hss s' (by simp)).1 (List.append_eq_nil_iff.1 hnil).1
      rw [List.intercalate_cons_cons]
      constructor
      · intro a ha
        rw [List.append_assoc, List.head?_append_of_ne_nil _ hne] at ha
        exact hedges.1 a ha
      · intro a ha
        rw [List.getLast?_append_of_ne_nil _ hs'] at ha
        exact htail.2 a ha

theorem length_lt_joinedTail (h : s ∈ ss) : s.length < (joinedTail sep ss).length := by
  induction ss with
  | nil => cases h
  | cons s' ss ih =>
    have hjoin : joinedTail sep (s' :: ss) = sep :: (s' ++ joinedTail sep ss) := rfl
    rw [hjoin, List.length_cons, List.length_append]
    rcases List.mem_cons.1 h with rfl | hmem
    · omega
    · have := ih hmem
      omega

theorem length_lt_intercalate (h : s ∈ ss) (hss : 1 < ss.length) :
    s.length < ([sep].intercalate ss).length := by
  cases ss with
  | nil => cases h
  | cons s' ss =>
    rw [intercalate_cons_eq, List.length_append]
    rcases List.mem_cons.1 h with rfl | hmem
    · obtain ⟨t, ss, rfl⟩ := List.exists_cons_of_ne_nil
        (fun hnil : ss = [] => absurd hss (by rw [hnil]; simp))
      have := length_lt_joinedTail sep (@List.mem_cons_self _ t ss)
      omega
    · have := length_lt_joinedTail sep hmem
      omega

end TrimmedPieces
