/-
The routing rule in the renderer (`findRoute`).

The renderer takes the first of the longest patterns and counts UTF-16 code units, the
proxy takes the last of the longest and counts bytes.

* `maxByKey_eq_some_iff`: the last of the largest elements is ahead of all others;
* `findRoute_eq_selectEntry_iff`: both choose one row exactly when one is ahead in both
  orders.
-/
import AiOpenRouter.Routing
import Mathlib.Algebra.Ring.Nat

namespace AiOpenRouter

/-! ### The first of the longest -/

/-- `String.length`: the UTF-16 code units. -/
def jsLength (s : String) : ℕ := (s.toList.map fun c => if c.toNat < 65536 then 1 else 2).sum

/-- `findRoute`. -/
def findRoute (routes : List RouteEntry) (incomingModel : String) : Option RouteEntry :=
  match routes.filter fun route => containsText incomingModel route.requestModel with
  | [] => routes.find? (·.requestModel = "default")
  | first :: rest =>
    some (rest.foldl
      (fun best current =>
        if jsLength best.requestModel < jsLength current.requestModel then current else best)
      first)

/-! ### Who is ahead -/

section Ahead

variable {α : Type} [DecidableEq α] {key : α → ℕ}

/-- An element is larger than another, or as large and found before it. -/
def Ahead (key : α → ℕ) (xs : List α) (x y : α) : Prop :=
  key y < key x ∨ key y = key x ∧ xs.idxOf x < xs.idxOf y

theorem Ahead.asymm {xs : List α} {x y : α} (h : Ahead key xs x y) : ¬ Ahead key xs y x := by
  unfold Ahead at *
  omega

theorem ahead_of_split {before after : List α} {x y : α} (hbefore : ∀ z ∈ before, key z < key x)
    (hafter : ∀ z ∈ after, key z ≤ key x) (hmem : y ∈ before ++ x :: after) (hne : y ≠ x) :
    Ahead key (before ++ x :: after) x y := by
  have hx : x ∉ before := fun h => lt_irrefl _ (hbefore x h)
  by_cases hy : y ∈ before
  · exact .inl (hbefore y hy)
  · have hin : y ∈ after := by
      rcases List.mem_append.1 hmem with h | h
      · exact absurd h hy
      · exact (List.mem_cons.1 h).resolve_left hne
    have hindex : (before ++ x :: after).idxOf x < (before ++ x :: after).idxOf y := by
      rw [List.idxOf_append_of_notMem hx, List.idxOf_append_of_notMem hy, List.idxOf_cons_self,
        List.idxOf_cons_ne _ (Ne.symm hne)]
      omega
    rcases (hafter y hin).lt_or_eq with hlt | heq
    · exact .inl hlt
    · exact .inr ⟨heq, hindex⟩

/-- **The last of the largest** is ahead of all others, from behind. -/
theorem maxByKey_eq_some_iff {xs : List α} {x : α} :
    maxByKey key xs = some x ↔ x ∈ xs ∧ ∀ y ∈ xs, y ≠ x → Ahead key xs.reverse x y := by
  have hahead : ∀ {z : α}, maxByKey key xs = some z →
      z ∈ xs ∧ ∀ y ∈ xs, y ≠ z → Ahead key xs.reverse z y := by
    intro z hz
    obtain ⟨before, after, rfl, hbefore, hafter⟩ := split_of_maxByKey hz
    refine ⟨List.mem_append_right _ List.mem_cons_self, fun y hy hne => ?_⟩
    have hreverse : (before ++ z :: after).reverse = after.reverse ++ z :: before.reverse := by
      simp
    rw [← List.mem_reverse, hreverse] at hy
    rw [hreverse]
    exact ahead_of_split (fun w hw => hafter w (List.mem_reverse.1 hw))
      (fun w hw => hbefore w (List.mem_reverse.1 hw)) hy hne
  refine ⟨hahead, fun ⟨hmem, hall⟩ => ?_⟩
  cases hmax : maxByKey key xs with
  | none =>
    rw [maxByKey_eq_none_iff.1 hmax] at hmem
    cases hmem
  | some z =>
    obtain ⟨hz, hothers⟩ := hahead hmax
    by_contra hne
    have hdiffer : z ≠ x := fun heq => hne (congrArg some heq)
    exact (hothers x hmem hdiffer.symm).asymm (hall z hz hdiffer)

end Ahead

theorem foldl_eq_maxByKey {α : Type} (key : α → ℕ) (first : α) (rest : List α) :
    some (rest.foldl (fun best current => if key best < key current then current else best) first) =
      maxByKey key (first :: rest).reverse := by
  rw [List.reverse_cons, maxByKey_concat]
  induction rest generalizing first with
  | nil => rfl
  | cons next rest ih =>
    rw [List.foldl_cons, ih, List.reverse_cons, maxByKey_concat]
    cases maxByKey key rest.reverse with
    | none =>
      by_cases hlt : key first < key next
      · simp [hlt]
      · simp [hlt]
    | some best =>
      simp only [Option.any_some, decide_eq_true_eq]
      by_cases hlt : key first < key next
      · rw [if_pos hlt]
        by_cases hbest : key next < key best
        · rw [if_pos hbest, Option.any_some, if_pos (decide_eq_true (hlt.trans hbest))]
        · rw [if_neg hbest, Option.any_some, if_pos (decide_eq_true hlt)]
      · rw [if_neg hlt]
        by_cases hbest : key next < key best
        · rw [if_pos hbest, Option.any_some]
          simp only [decide_eq_true_eq]
        · have hnot : ¬ key first < key best := by omega
          rw [if_neg hbest, Option.any_some, if_neg hnot, if_neg (by simpa using hlt)]

/-! ### The same row -/

/-- One row is ahead of all others: in UTF-16 code units from the front, in bytes from behind. -/
def OneAhead (rows : List RouteEntry) : Prop :=
  ∃ row ∈ rows, ∀ other ∈ rows, other ≠ row →
    Ahead (fun entry => jsLength entry.requestModel) rows row other ∧
      Ahead (fun entry => entry.requestModel.utf8ByteSize) rows.reverse row other

theorem findRoute_eq {routes : List RouteEntry} {incomingModel : String}
    (h : (routes.filter fun route => containsText incomingModel route.requestModel) ≠ []) :
    findRoute routes incomingModel = maxByKey (fun entry => jsLength entry.requestModel)
      (routes.filter fun route => containsText incomingModel route.requestModel).reverse := by
  unfold findRoute
  cases hfound : routes.filter fun route => containsText incomingModel route.requestModel with
  | nil => exact absurd hfound h
  | cons first rest =>
    exact foldl_eq_maxByKey (fun entry : RouteEntry => jsLength entry.requestModel) first rest

/-- **The renderer and the proxy choose the same row** exactly when no row is found, or one is
ahead of all others in both orders. -/
theorem findRoute_eq_selectEntry_iff (routes : List RouteEntry) (incomingModel : String) :
    findRoute routes incomingModel = selectEntry routes incomingModel ↔
      (routes.filter fun route => containsText incomingModel route.requestModel) = [] ∨
        OneAhead (routes.filter fun route => containsText incomingModel route.requestModel) := by
  by_cases hnone : (routes.filter fun route => containsText incomingModel route.requestModel) = []
  · have hsame : findRoute routes incomingModel = selectEntry routes incomingModel := by
      unfold findRoute selectEntry
      dsimp only
      rw [hnone, if_pos rfl]
    exact ⟨fun _ => .inl hnone, fun _ => hsame⟩
  · have hselect : selectEntry routes incomingModel =
        maxByKey (fun entry => entry.requestModel.utf8ByteSize)
          (routes.filter fun route => containsText incomingModel route.requestModel) :=
      if_neg hnone
    rw [findRoute_eq hnone, hselect, or_iff_right hnone]
    generalize (routes.filter fun route => containsText incomingModel route.requestModel) = found
      at hnone
    constructor
    · intro heq
      obtain ⟨row, hrow⟩ := Option.ne_none_iff_exists'.1
        (mt (@maxByKey_eq_none_iff _ (fun entry : RouteEntry => entry.requestModel.utf8ByteSize)
          found).1 hnone)
      rw [hrow] at heq
      obtain ⟨hmem, hbytes⟩ := maxByKey_eq_some_iff.1 hrow
      obtain ⟨-, hunits⟩ := maxByKey_eq_some_iff.1 heq
      rw [List.reverse_reverse] at hunits
      exact ⟨row, hmem, fun other hother hne =>
        ⟨hunits other (List.mem_reverse.2 hother) hne, hbytes other hother hne⟩⟩
    · rintro ⟨row, hmem, hahead⟩
      have hunits : maxByKey (fun entry : RouteEntry => jsLength entry.requestModel)
          found.reverse = some row := by
        refine maxByKey_eq_some_iff.2 ⟨List.mem_reverse.2 hmem, fun other hother hne => ?_⟩
        rw [List.reverse_reverse]
        exact (hahead other (List.mem_reverse.1 hother) hne).1
      have hbytes : maxByKey (fun entry : RouteEntry => entry.requestModel.utf8ByteSize) found =
          some row :=
        maxByKey_eq_some_iff.2 ⟨hmem, fun other hother hne => (hahead other hother hne).2⟩
      rw [hunits, hbytes]

/-- Two rows with one pattern, and the default row. -/
def twoRows : List RouteEntry :=
  [⟨"gpt", "p1", "a"⟩, ⟨"gpt", "p2", "b"⟩, ⟨"default", "p1", "a"⟩]

/-- The renderer chooses the first of them, the proxy the second. -/
theorem findRoute_ne_selectEntry_twoRows :
    twoRows.any (·.requestModel = "default") = true ∧
      findRoute twoRows "gpt-4" ≠ selectEntry twoRows "gpt-4" := by
  decide

end AiOpenRouter
