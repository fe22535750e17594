/-
Lists read with what follows each element.

`Followed P xs` says that every element of `xs`, with the list after it, has
`P`.  It is the shape of a protocol rule such as "every request is answered
next", and it composes: `followed_append_iff` splits it along an append.
-/
import Mathlib.Data.List.Basic
import Mathlib.Data.List.Induction
import Mathlib.Algebra.Order.BigOperators.Group.List
import Mathlib.Algebra.Order.Group.Nat
import Mathlib.Algebra.Ring.Nat

namespace AiOpenRouter

variable {α β : Type*}

/-- `filterMap` adds what it reads in each element. -/
theorem filterMap_cons_eq_append (f : α → Option β) (x : α) (xs : List α) :
    (x :: xs).filterMap f = (f x).toList ++ xs.filterMap f := by
  cases h : f x <;> simp [h]

variable {xs : List α} {P : α → List α → Prop}

theorem exists_mem_of_forall₂ {R : α → β → Prop} {ys : List β} (h : List.Forall₂ R xs ys) {x : α}
    (hmem : x ∈ xs) : ∃ y ∈ ys, R x y := by
  induction h with
  | nil => cases hmem
  | cons hxy _ ih =>
    rcases List.mem_cons.1 hmem with rfl | hmem
    · exact ⟨_, List.mem_cons_self, hxy⟩
    · obtain ⟨y, hy, hR⟩ := ih hmem
      exact ⟨y, List.mem_cons_of_mem _ hy, hR⟩

theorem flatten_of_forall₂ {R : α → List β → Prop} {f : α → List β} {given : List (List β)}
    (hR : ∀ x ∈ xs, ∀ ys, R x ys → ys = f x) (h : List.Forall₂ R xs given) :
    given.flatten = xs.flatMap f := by
  induction h with
  | nil => rfl
  | @cons x ys xs given hx _ ih =>
    rw [List.flatten_cons, List.flatMap_cons, hR x List.mem_cons_self ys hx,
      ih fun y hy => hR y (List.mem_cons_of_mem x hy)]

/-- Every element, with the list that follows it, has `P`. -/
def Followed (P : α → List α → Prop) : List α → Prop
  | [] => True
  | x :: xs => P x xs ∧ Followed P xs

@[simp] theorem followed_nil (P : α → List α → Prop) : Followed P [] := trivial

@[simp] theorem followed_cons_iff {x : α} : Followed P (x :: xs) ↔ P x xs ∧ Followed P xs := Iff.rfl

theorem followed_append_iff {ys : List α} :
    Followed P (xs ++ ys) ↔ Followed (fun x rest => P x (rest ++ ys)) xs ∧ Followed P ys := by
  induction xs with
  | nil => simp
  | cons x xs ih => simp [ih, and_assoc]

theorem followed_of_forall (h : ∀ x ∈ xs, ∀ rest, P x rest) : Followed P xs := by
  induction xs with
  | nil => trivial
  | cons x xs ih =>
    exact ⟨h x List.mem_cons_self xs, ih fun y hy => h y (List.mem_cons_of_mem x hy)⟩

instance Followed.decidable {P : α → List α → Prop} [∀ x xs, Decidable (P x xs)] :
    (xs : List α) → Decidable (Followed P xs)
  | [] => isTrue trivial
  | _ :: xs => @instDecidableAnd _ _ inferInstance (Followed.decidable xs)

/-! ### Prefixes -/

/-- Two readings that find something at the same places find the same exactly when they agree on
each element. -/
theorem filterMap_eq_filterMap_iff {β : Type*} {f g : α → Option β}
    (h : ∀ x, (f x).isSome = (g x).isSome) :
    xs.filterMap f = xs.filterMap g ↔ ∀ x ∈ xs, f x = g x := by
  induction xs with
  | nil => simp
  | cons x xs ih =>
    rw [List.forall_mem_cons, ← ih]
    have hx := h x
    cases hf : f x with
    | none =>
      have hg : g x = none := by simpa [hf] using hx
      rw [List.filterMap_cons_none hf, List.filterMap_cons_none hg, hg, eq_self, true_and]
    | some y =>
      obtain ⟨z, hg⟩ : ∃ z, g x = some z := Option.isSome_iff_exists.1 (by rw [← hx, hf]; rfl)
      rw [List.filterMap_cons_some hf, List.filterMap_cons_some hg, List.cons.injEq, hg,
        Option.some_inj]

theorem flatMap_eq_flatMap_iff {f g : α → List β} (h : ∀ x, (f x).length = (g x).length) :
    xs.flatMap f = xs.flatMap g ↔ ∀ x ∈ xs, f x = g x := by
  induction xs with
  | nil => simp
  | cons x xs ih =>
    rw [List.flatMap_cons, List.flatMap_cons, List.append_eq_append_iff_of_size_eq_left (h x), ih,
      List.forall_mem_cons]

/-- A reading finds something in every element, and what another one says is there. -/
theorem filterMap_eq_map_iff {f : α → Option β} {g : α → β} (h : ∀ x, ∀ y ∈ f x, y = g x) :
    xs.filterMap f = xs.map g ↔ ∀ x ∈ xs, (f x).isSome := by
  constructor
  · intro heq x hmem
    have hlength := congrArg List.length heq
    rw [List.length_map] at hlength
    exact List.filterMap_length_eq_length.1 hlength x hmem
  · intro hall
    rw [← List.filterMap_eq_map]
    refine List.filterMap_congr fun x hmem => ?_
    obtain ⟨y, hy⟩ := Option.isSome_iff_exists.1 (hall x hmem)
    rw [hy, h x y hy]
    rfl

/-! ### Joined texts -/

theorem intercalate_concat (sep x : String) (xs : List String) :
    sep.intercalate (xs ++ [x]) = if xs = [] then x else sep.intercalate xs ++ sep ++ x := by
  split_ifs with h
  · rw [h, List.nil_append, String.intercalate_singleton]
  · rw [String.intercalate_append_of_ne_nil h (List.cons_ne_nil x []),
      String.intercalate_singleton]

theorem intercalate_eq_empty_iff (sep : String) {xs : List String} (h : ∀ x ∈ xs, x ≠ "") :
    sep.intercalate xs = "" ↔ xs = [] := by
  induction xs using List.reverseRecOn with
  | nil => simp
  | append_singleton xs x _ =>
    have hx : x ≠ "" := h x (by simp)
    rw [intercalate_concat]
    split_ifs <;> simp [hx]

theorem toList_intercalate_empty (xs : List String) :
    ("".intercalate xs).toList = xs.flatMap String.toList := by
  rw [String.toList_intercalate, List.flatMap]
  induction xs.map String.toList with
  | nil => rfl
  | cons y ys ih =>
    cases ys with
    | nil => simp
    | cons z zs => simpa using ih

theorem intercalate_empty_append (xs ys : List String) :
    "".intercalate (xs ++ ys) = "".intercalate xs ++ "".intercalate ys := by
  rw [← String.toList_inj, String.toList_append, toList_intercalate_empty,
    toList_intercalate_empty, toList_intercalate_empty, List.flatMap_append]

theorem intercalate_empty_cons (x : String) (xs : List String) :
    "".intercalate (x :: xs) = x ++ "".intercalate xs := by
  have h := intercalate_empty_append [x] xs
  rwa [String.intercalate_singleton] at h

/-- The texts that one reading finds are no longer than those of another, behind separators that
are no longer either. -/
theorem length_intercalate_filterMap_le {f : α → Option String} {g : α → String} {sep sep' : String}
    (hsep : sep.length ≤ sep'.length) (h : ∀ x ∈ xs, ∀ y ∈ f x, y.length ≤ (g x).length) :
    (sep.intercalate (xs.filterMap f)).length ≤ (sep'.intercalate (xs.map g)).length := by
  induction xs using List.reverseRecOn with
  | nil => simp
  | append_singleton xs x ih =>
    have hxs := ih fun y hy => h y (List.mem_append_left _ hy)
    have hx := h x (by simp)
    have hle : (sep'.intercalate (xs.map g)).length ≤
        (sep'.intercalate ((xs ++ [x]).map g)).length := by
      rw [List.map_append, List.map_singleton, intercalate_concat]
      split_ifs with hnil
      · rw [hnil]
        simp
      · simp only [String.length_append]
        omega
    rw [List.filterMap_append]
    cases hf : f x with
    | none =>
      rw [List.filterMap_cons_none hf, List.filterMap_nil, List.append_nil]
      omega
    | some y =>
      have hy := hx y hf
      rw [List.filterMap_cons_some hf, List.filterMap_nil, List.map_append, List.map_singleton,
        intercalate_concat, intercalate_concat]
      by_cases hnil : xs = []
      · rw [hnil]
        simpa using hy
      · rw [if_neg (by simpa using hnil : xs.map g ≠ [])]
        split_ifs <;> simp only [String.length_append] <;> omega

/-- When every text of one reading is at least as long as the other's, they join to texts of
the same length only if every two are of the same length. -/
theorem length_eq_of_intercalate_eq {f g : α → String} (hle : ∀ x ∈ xs, (g x).length ≤ (f x).length)
    (h : ("".intercalate (xs.map f)).length = ("".intercalate (xs.map g)).length) :
    ∀ x ∈ xs, (f x).length = (g x).length := by
  have hjoin : ∀ {f g : α → String} {xs : List α}, (∀ x ∈ xs, (g x).length ≤ (f x).length) →
      ("".intercalate (xs.map g)).length ≤ ("".intercalate (xs.map f)).length := by
    intro f g xs hle
    induction xs with
    | nil => simp
    | cons x xs ih =>
      have hx := hle x List.mem_cons_self
      have hxs := ih fun y hy => hle y (List.mem_cons_of_mem x hy)
      simp only [List.map_cons, intercalate_empty_cons, String.length_append]
      omega
  induction xs with
  | nil => simp
  | cons x xs ih =>
    have hx := hle x List.mem_cons_self
    have hle' : ∀ y ∈ xs, (g y).length ≤ (f y).length :=
      fun y hy => hle y (List.mem_cons_of_mem x hy)
    have hxs := hjoin hle'
    simp only [List.map_cons, intercalate_empty_cons, String.length_append] at h
    intro y hy
    rcases List.mem_cons.1 hy with rfl | hy
    · omega
    · exact ih hle' (by omega) y hy

def joined (sep : String) (texts : List String) : Option String :=
  if texts = [] then none else some (sep.intercalate texts)

def Shorter : Option String → Option String → Prop
  | none, some _ => True
  | some x, some y => x.length < y.length
  | _, none => False

def room (sep : String) (text : Option String) : ℕ :=
  text.elim 0 fun text => text.length + sep.length

variable {sep : String}

theorem shorter_iff_room_lt (hsep : sep ≠ "") {x y : Option String} :
    Shorter x y ↔ room sep x < room sep y := by
  have hpos : 0 < sep.length :=
    Nat.pos_of_ne_zero fun hzero => hsep (String.length_eq_zero_iff.1 hzero)
  cases x with
  | none =>
    cases y with
    | none => exact iff_of_false id (lt_irrefl _)
    | some y => exact iff_of_true trivial (Nat.add_pos_right _ hpos)
  | some x =>
    cases y with
    | none => exact iff_of_false id (Nat.not_lt_zero _)
    | some y => exact (Nat.add_lt_add_iff_right).symm

theorem room_joined (texts : List String) :
    room sep (joined sep texts) = (texts.map fun text => text.length + sep.length).sum := by
  induction texts using List.reverseRecOn with
  | nil => rfl
  | append_singleton texts text ih =>
    have hne : texts ++ [text] ≠ [] := by simp
    rw [joined, if_neg hne, List.map_append, List.sum_append, ← ih, intercalate_concat, joined]
    split_ifs
    · simp [room]
    · simp only [room, Option.elim_some, String.length_append, List.map_singleton,
        List.sum_singleton]
      omega

theorem sum_map_filterMap (f : α → Option String) :
    ((xs.filterMap f).map fun text => text.length + sep.length).sum =
      (xs.map fun x => room sep (f x)).sum := by
  induction xs with
  | nil => rfl
  | cons x xs ih =>
    rw [List.map_cons, List.sum_cons, ← ih]
    cases hf : f x with
    | none => rw [List.filterMap_cons_none hf, room, Option.elim_none, Nat.zero_add]
    | some text => rw [List.filterMap_cons_some hf, List.map_cons, List.sum_cons]; rfl

/-- **A reading that finds less wherever it differs** joins to a shorter text, unless it differs
nowhere. -/
theorem joined_filterMap_shorter (hsep : sep ≠ "") {f g : α → Option String}
    (h : ∀ x ∈ xs, f x = g x ∨ Shorter (f x) (g x)) (before : List String) :
    (∀ x ∈ xs, f x = g x) ∨
      Shorter (joined sep (before ++ xs.filterMap f)) (joined sep (before ++ xs.filterMap g)) := by
  by_cases hall : ∀ x ∈ xs, f x = g x
  · exact .inl hall
  · right
    have hle : ∀ x ∈ xs, room sep (f x) ≤ room sep (g x) := by
      intro x hmem
      rcases h x hmem with heq | hshorter
      · exact le_of_eq (congrArg _ heq)
      · exact ((shorter_iff_room_lt hsep).1 hshorter).le
    have hlt : ∃ x ∈ xs, room sep (f x) < room sep (g x) := by
      push Not at hall
      obtain ⟨x, hmem, hne⟩ := hall
      exact ⟨x, hmem, (shorter_iff_room_lt hsep).1 ((h x hmem).resolve_left hne)⟩
    rw [shorter_iff_room_lt hsep, room_joined, room_joined, List.map_append, List.map_append,
      List.sum_append, List.sum_append, sum_map_filterMap, sum_map_filterMap]
    exact Nat.add_lt_add_left (List.sum_lt_sum _ _ hle hlt) _

theorem joined_filterMap_eq_iff (hsep : sep ≠ "") {f g : α → Option String}
    (h : ∀ x ∈ xs, f x = g x ∨ Shorter (f x) (g x)) (before : List String) :
    joined sep (before ++ xs.filterMap f) = joined sep (before ++ xs.filterMap g) ↔
      ∀ x ∈ xs, f x = g x := by
  constructor
  · intro heq
    refine (joined_filterMap_shorter hsep h before).resolve_right fun hshorter => ?_
    rw [heq, shorter_iff_room_lt hsep] at hshorter
    exact lt_irrefl _ hshorter
  · intro hall
    rw [List.filterMap_congr hall]

end AiOpenRouter
