/-
Queries with `GROUP BY`, as functions on the rows of a table.

* `groupBy` gives the rows of each key;
* `sum_groupBy`: a sum over the groups is the sum over the rows, whatever the key.
-/
import Mathlib.Algebra.BigOperators.Group.List.Basic
import Mathlib.Algebra.Ring.Nat
import Mathlib.Data.List.Dedup
import Mathlib.Data.List.DropRight

namespace Sql

/-! ### Texts -/

/-- `TRIM(text)`: spaces at both ends go. -/
def trim (text : String) : String :=
  String.ofList ((text.toList.dropWhile (· = ' ')).rdropWhile (· = ' '))

/-- `NULLIF(text, '')`. -/
def nullIfEmpty (text : Option String) : Option String :=
  text.filter fun text => !text.isEmpty

/-- `NULLIF(TRIM(text), '')`. -/
def trimmedOrNull (text : Option String) : Option String :=
  nullIfEmpty (text.map trim)

/-! ### Groups -/

section

variable {α κ : Type*} [DecidableEq κ] (key : α → κ)

/-- `GROUP BY key`: each key with its rows. -/
def groupBy (rows : List α) : List (κ × List α) :=
  (rows.map key).dedup.map fun k => (k, rows.filter fun row => key row = k)

theorem map_fst_groupBy (rows : List α) :
    (groupBy key rows).map Prod.fst = (rows.map key).dedup := by
  rw [groupBy, List.map_map]
  exact List.map_id _

variable {key}

theorem mem_groupBy_iff {rows : List α} {k : κ} {members : List α} :
    (k, members) ∈ groupBy key rows ↔
      (∃ row ∈ rows, key row = k) ∧ members = rows.filter fun row => key row = k := by
  rw [groupBy, List.mem_map]
  constructor
  · rintro ⟨k', hk', heq⟩
    obtain ⟨rfl, rfl⟩ := Prod.mk.inj heq
    exact ⟨List.mem_map.1 (List.mem_dedup.1 hk'), rfl⟩
  · rintro ⟨hk, rfl⟩
    exact ⟨k, List.mem_dedup.2 (List.mem_map.2 hk), rfl⟩

theorem length_pos_of_mem_groupBy {rows : List α} {group : κ × List α}
    (h : group ∈ groupBy key rows) : 0 < group.2.length := by
  obtain ⟨⟨row, hrow, hkey⟩, hmembers⟩ := mem_groupBy_iff.1 h
  rw [hmembers]
  exact List.length_pos_of_mem (List.mem_filter.2 ⟨hrow, decide_eq_true hkey⟩)

omit [DecidableEq κ] in
theorem sum_map_zero (keys : List κ) : (keys.map fun _ => 0).sum = 0 := by
  induction keys with
  | nil => rfl
  | cons k keys ih => rw [List.map_cons, List.sum_cons, ih]

theorem sum_ite_eq_of_mem {keys : List κ} (hnodup : keys.Nodup) {k : κ} (hmem : k ∈ keys) (n : ℕ) :
    (keys.map fun k' => if k = k' then n else 0).sum = n := by
  obtain ⟨before, after, rfl⟩ := List.append_of_mem hmem
  rw [List.nodup_middle, List.nodup_cons, List.mem_append, not_or] at hnodup
  have hzero : ∀ others : List κ, k ∉ others →
      (others.map fun k' => if k = k' then n else 0).sum = 0 := by
    intro others hnot
    rw [List.map_congr_left fun k' hk' => if_neg fun heq : k = k' => hnot (heq ▸ hk')]
    exact sum_map_zero others
  rw [List.map_append, List.sum_append, List.map_cons, List.sum_cons, hzero _ hnodup.1.1,
    hzero _ hnodup.1.2, if_pos rfl, Nat.zero_add, Nat.add_zero]

theorem sum_filter_keys (f : α → ℕ) {keys : List κ} (hnodup : keys.Nodup) (rows : List α)
    (hkeys : ∀ row ∈ rows, key row ∈ keys) :
    (keys.map fun k => ((rows.filter fun row => key row = k).map f).sum).sum =
      (rows.map f).sum := by
  induction rows with
  | nil => simp
  | cons row rows ih =>
    have hrow : (keys.map fun k => if key row = k then f row else 0).sum = f row :=
      sum_ite_eq_of_mem hnodup (hkeys row List.mem_cons_self) (f row)
    have hsplit : ∀ k, (((row :: rows).filter fun row => key row = k).map f).sum =
        (if key row = k then f row else 0) +
          ((rows.filter fun row => key row = k).map f).sum := by
      intro k
      by_cases hk : key row = k
      · rw [List.filter_cons_of_pos (by simpa using hk), if_pos hk, List.map_cons, List.sum_cons]
      · rw [List.filter_cons_of_neg (by simpa using hk), if_neg hk, Nat.zero_add]
    rw [List.map_congr_left fun k _ => hsplit k, List.sum_map_add, hrow,
      ih fun other hother => hkeys other (List.mem_cons_of_mem _ hother), List.map_cons,
      List.sum_cons]

theorem sum_groupBy (f : α → ℕ) (rows : List α) :
    ((groupBy key rows).map fun group => (group.2.map f).sum).sum = (rows.map f).sum := by
  rw [groupBy, List.map_map]
  refine sum_filter_keys f (List.nodup_dedup _) rows fun row hrow => ?_
  exact List.mem_dedup.2 (List.mem_map_of_mem hrow)

theorem sum_length_groupBy (rows : List α) :
    ((groupBy key rows).map fun group => group.2.length).sum = rows.length := by
  have hones : ∀ rows : List α, (rows.map fun _ => 1).sum = rows.length := by
    intro rows
    rw [List.map_const', List.sum_const_nat, Nat.mul_one]
  have h := @sum_groupBy α κ _ key (fun _ => 1) rows
  rw [hones] at h
  rw [← h]
  exact congrArg List.sum (List.map_congr_left fun group _ => (hones group.2).symm)

end

end Sql
