/-
Interleavings of the steps of several parties.

* `Interleaves` takes at every step the first step that is left of some party;
* `Interleaves.perm`: the steps are those of the parties, in some order;
* `Interleaves.sum_map`, `Interleaves.countP`: what is summed or counted over the steps is so over
  each party.
-/
import Mathlib.Algebra.BigOperators.Group.List.Basic
import Mathlib.Algebra.Ring.Nat

/-- A list of steps is an interleaving of the lists of some parties. -/
inductive Interleaves {ε : Type*} : List (List ε) → List ε → Prop
  | nil {parties : List (List ε)} : (∀ party ∈ parties, party = []) → Interleaves parties []
  | cons {before after : List (List ε)} {step : ε} {rest steps : List ε} :
      Interleaves (before ++ rest :: after) steps →
      Interleaves (before ++ (step :: rest) :: after) (step :: steps)

namespace Interleaves

variable {ε : Type*} {parties : List (List ε)} {steps : List ε}

theorem perm (h : Interleaves parties steps) : steps.Perm parties.flatten := by
  induction h with
  | nil hnil => rw [List.flatten_eq_nil_iff.2 hnil]
  | @cons before after step rest steps _ ih =>
    rw [List.flatten_append, List.flatten_cons] at ih ⊢
    rw [List.cons_append]
    exact (ih.cons step).trans List.perm_middle.symm

theorem append {party : List ε} (h : Interleaves parties steps) :
    Interleaves (party :: parties) (party ++ steps) := by
  induction party with
  | nil =>
    rw [List.nil_append]
    induction h with
    | nil hnil => exact .nil (List.forall_mem_cons.2 ⟨rfl, hnil⟩)
    | @cons before after step rest steps _ ih =>
      exact @cons ε ([] :: before) after step rest steps ih
  | cons step party ih => exact @cons ε [] parties step party _ ih

theorem flatten (parties : List (List ε)) : Interleaves parties parties.flatten := by
  induction parties with
  | nil => exact .nil fun party hparty => absurd hparty List.not_mem_nil
  | cons party parties ih => exact ih.append

theorem sum_map {M : Type*} [AddCommMonoid M] (h : Interleaves parties steps) (f : ε → M) :
    (steps.map f).sum = (parties.map fun party => (party.map f).sum).sum := by
  rw [(h.perm.map f).sum_eq, List.map_flatten, List.sum_flatten, List.map_map]
  rfl

theorem countP (h : Interleaves parties steps) (p : ε → Bool) :
    steps.countP p = (parties.map (List.countP p)).sum := by
  rw [h.perm.countP_eq, List.countP_flatten]

end Interleaves
