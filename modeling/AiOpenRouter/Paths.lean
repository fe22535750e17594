/-
Paths, and where they lead.

A path is resolved by its text alone: `..` goes back over the name before it, and an
absolute path that is joined takes the place of what it is joined to.

* `join` and `resolve`, with `resolve_join`: a relative path goes on from where the
  base leads;
* `Within` and `Below`: a path leads into, or below, where another one leads;
* `within_foldl_iff`: when a relative path stays in its base.
-/
import Mathlib.Data.List.Basic
import Mathlib.Data.List.Infix

namespace Paths

/-- A path from the root. -/
def isAbsolute (path : String) : Bool := path.toList.head? = some '/'

/-- `Path::join` -/
def join (base path : String) : String :=
  if isAbsolute path then path
  else if base = "" ∨ base.toList.getLast? = some '/' then base ++ path
  else base ++ "/" ++ path

/-- The components of a path, without the empty ones and `.`. -/
def components (path : String) : List (List Char) :=
  (path.toList.splitOn '/').filter fun component => component ≠ [] ∧ component ≠ ['.']

/-- Where a path leads: from the root or not, some levels up, and down through names, of which the
innermost comes first. -/
@[ext] structure Lexical where
  rooted : Bool
  up : ℕ
  names : List (List Char)
  deriving DecidableEq

namespace Lexical

def parent (here : Lexical) : Lexical :=
  match here.names with
  | [] => if here.rooted then here else { here with up := here.up + 1 }
  | _ :: names => { here with names := names }

def enter (here : Lexical) (name : List Char) : Lexical := { here with names := name :: here.names }

/-- A component of a path. -/
def step (here : Lexical) (component : List Char) : Lexical :=
  if component = ['.', '.'] then here.parent else here.enter component

def climb (here : Lexical) : ℕ → Lexical
  | 0 => here
  | k + 1 => (here.climb k).parent

def descend (here : Lexical) (names : List (List Char)) : Lexical :=
  { here with names := names ++ here.names }

/-- The path leads into where the base leads. -/
def Within (base path : Lexical) : Prop :=
  path.rooted = base.rooted ∧ path.up = base.up ∧ base.names <:+ path.names

instance (base path : Lexical) : Decidable (base.Within path) :=
  inferInstanceAs (Decidable (_ ∧ _ ∧ _))

def Below (base path : Lexical) : Prop := base.Within path ∧ base.names ≠ path.names

instance (base path : Lexical) : Decidable (base.Below path) :=
  inferInstanceAs (Decidable (_ ∧ _))

end Lexical

/-- Where a relative path leads. -/
def walk (path : List (List Char)) : Lexical := path.foldl Lexical.step ⟨false, 0, []⟩

/-- Where a path leads. -/
def resolve (path : String) : Lexical :=
  (components path).foldl Lexical.step ⟨isAbsolute path, 0, []⟩

/-- A path leads into where the base leads. -/
def Within (base path : String) : Prop := (resolve base).Within (resolve path)

def Below (base path : String) : Prop := (resolve base).Below (resolve path)

instance (base path : String) : Decidable (Within base path) :=
  inferInstanceAs (Decidable (Lexical.Within _ _))

instance (base path : String) : Decidable (Below base path) :=
  inferInstanceAs (Decidable (Lexical.Below _ _))

/-! ### Joined paths -/

variable {base name : String}

theorem join_of_absolute {path : String} (h : isAbsolute path = true) : join base path = path := by
  rw [join, if_pos h]

theorem components_slash {path text : String}
    (h : text.toList = base.toList ++ '/' :: path.toList) :
    components text = components base ++ components path := by
  rw [components, components, components, h, List.splitOn_append_cons_self, List.filter_append]

theorem isAbsolute_append {rest : String} (h : base ≠ "") :
    isAbsolute (base ++ rest) = isAbsolute base := by
  have hne : base.toList ≠ [] := fun hnil => h (String.toList_inj.1 (hnil.trans rfl))
  rw [isAbsolute, isAbsolute, String.toList_append, List.head?_append_of_ne_nil _ hne]

section Join

variable {base path : String} (hpath : isAbsolute path = false)
include hpath

theorem components_join : components (join base path) = components base ++ components path := by
  rw [join, hpath, if_neg Bool.false_ne_true]
  split_ifs with hbase
  · rcases hbase with rfl | hslash
    · rfl
    · obtain ⟨front, hfront⟩ := List.getLast?_eq_some_iff.1 hslash
      have hjoined : (base ++ path).toList =
          (String.ofList front).toList ++ '/' :: path.toList := by
        rw [String.toList_append, hfront, String.toList_ofList, List.append_assoc]
        rfl
      have hbase : base.toList = (String.ofList front).toList ++ '/' :: "".toList := by
        rw [hfront, String.toList_ofList]
        rfl
      rw [components_slash hjoined, components_slash hbase]
      exact congrArg (· ++ components path) (List.append_nil _).symm
  · refine components_slash ?_
    rw [String.toList_append, String.toList_append, List.append_assoc]
    rfl

theorem isAbsolute_join : isAbsolute (join base path) = isAbsolute base := by
  rw [join, hpath, if_neg Bool.false_ne_true]
  split_ifs with hbase
  · by_cases hempty : base = ""
    · subst hempty
      exact hpath
    · exact isAbsolute_append hempty
  · have hne : base ≠ "" := fun h => hbase (.inl h)
    rw [String.append_assoc, isAbsolute_append hne]

/-- **A relative path goes on from where the base leads.** -/
theorem resolve_join : resolve (join base path) =
    (components path).foldl Lexical.step (resolve base) := by
  rw [resolve, components_join hpath, isAbsolute_join hpath, List.foldl_append, resolve]

end Join

/-- A name: a relative path of one component, which is not `..`. -/
def IsName (name : String) : Prop :=
  isAbsolute name = false ∧ components name = [name.toList] ∧ name.toList ≠ ['.', '.']

instance (name : String) : Decidable (IsName name) := inferInstanceAs (Decidable (_ ∧ _ ∧ _))

theorem resolve_join_name (h : IsName name) :
    resolve (join base name) = (resolve base).enter name.toList := by
  rw [resolve_join h.1, h.2.1]
  exact if_neg h.2.2

theorem below_join_name_iff {folder : String} (h : IsName name) :
    Below base (join folder name) ↔ Within base folder := by
  rw [Below, resolve_join_name h]
  constructor
  · rintro ⟨⟨hrooted, hup, hnames⟩, hne⟩
    exact ⟨hrooted, hup, (List.suffix_cons_iff.1 hnames).resolve_left hne⟩
  · rintro ⟨hrooted, hup, hnames⟩
    refine ⟨⟨hrooted, hup, hnames.trans (List.suffix_cons _ _)⟩, fun heq => ?_⟩
    have hlength := hnames.length_le
    rw [heq, Lexical.enter, List.length_cons] at hlength
    exact absurd hlength (by omega)

theorem Within.join_name {folder : String} (h : Within base folder) (hname : IsName name) :
    Within base (join folder name) :=
  ((below_join_name_iff hname).2 h).1

theorem Within.refl (base : String) : Within base base := ⟨rfl, rfl, List.suffix_refl _⟩

/-! ### Relative paths -/

namespace Lexical

theorem parent_rooted (here : Lexical) : here.parent.rooted = here.rooted := by
  obtain ⟨rooted, up, names⟩ := here
  cases names with
  | nil => cases rooted <;> rfl
  | cons name names => rfl

theorem step_rooted (here : Lexical) (component : List Char) :
    (here.step component).rooted = here.rooted := by
  rw [step]
  split_ifs
  · exact here.parent_rooted
  · rfl

theorem climb_of_le {here : Lexical} {k : ℕ} (h : k ≤ here.names.length) :
    here.climb k = { here with names := here.names.drop k } := by
  induction k with
  | zero => rfl
  | succ k ih =>
    rw [climb, ih (by omega), parent, List.drop_eq_getElem_cons h]

/-- Above what is there, the root stays the root, and otherwise the levels count. -/
theorem climb_add (here : Lexical) (k : ℕ) :
    here.climb (here.names.length + k) =
      { here with
        up := if here.rooted then here.up else here.up + k
        names := [] } := by
  induction k with
  | zero =>
    rw [Nat.add_zero, climb_of_le (le_refl _), List.drop_length]
    simp
  | succ k ih =>
    rw [← Nat.add_assoc, climb, ih, parent]
    cases here.rooted <;> simp [Nat.add_assoc]

end Lexical

theorem walk_concat (path : List (List Char)) (component : List Char) :
    walk (path ++ [component]) = (walk path).step component := by
  rw [walk, List.foldl_append, ← walk]
  rfl

theorem walk_rooted (path : List (List Char)) : (walk path).rooted = false := by
  induction path using List.reverseRecOn with
  | nil => rfl
  | append_singleton path component ih => rw [walk_concat, Lexical.step_rooted, ih]

/-- **A relative path first climbs and then goes down, wherever it starts.** -/
theorem foldl_step (here : Lexical) (path : List (List Char)) :
    path.foldl Lexical.step here = (here.climb (walk path).up).descend (walk path).names := by
  induction path using List.reverseRecOn with
  | nil => rfl
  | append_singleton path component ih =>
    have hrooted := walk_rooted path
    rw [walk_concat, List.foldl_append, ih]
    show Lexical.step _ component = _
    rw [Lexical.step, Lexical.step]
    by_cases hparent : component = ['.', '.']
    · rw [if_pos hparent, if_pos hparent]
      cases hnames : (walk path).names with
      | nil =>
        have hup : (walk path).parent = ⟨false, (walk path).up + 1, []⟩ := by
          rw [Lexical.parent, hnames, hrooted]
          rfl
        rw [hup]
        rfl
      | cons name names => simp [Lexical.parent, Lexical.descend, hnames]
    · rw [if_neg hparent, if_neg hparent]
      rfl

/-- A relative path comes back to the base that it leaves: through the names by which it went up. -/
def Lexical.Returns (base walked : Lexical) : Prop :=
  (base.rooted = true ∨ walked.up ≤ base.names.length) ∧
    base.names.take walked.up <:+ walked.names

instance (base walked : Lexical) : Decidable (base.Returns walked) :=
  inferInstanceAs (Decidable (_ ∧ _))

/-- **A relative path stays in its base just if it never climbs above it, or comes back.** -/
theorem within_foldl_iff (base : Lexical) (path : List (List Char)) :
    base.Within (path.foldl Lexical.step base) ↔ base.Returns (walk path) := by
  rw [foldl_step, Lexical.Within, Lexical.Returns]
  by_cases hle : (walk path).up ≤ base.names.length
  · rw [Lexical.climb_of_le hle]
    have hiff := @List.suffix_append_self_iff _ (base.names.take (walk path).up)
      (walk path).names (base.names.drop (walk path).up)
    rw [List.take_append_drop] at hiff
    simpa only [Lexical.descend, true_and, hle, or_true] using hiff
  · obtain ⟨k, hk⟩ : ∃ k, (walk path).up = base.names.length + (k + 1) :=
      ⟨(walk path).up - base.names.length - 1, by omega⟩
    rw [hk, Lexical.climb_add, List.take_of_length_le (by omega)]
    cases hrooted : base.rooted with
    | true => simp [Lexical.descend]
    | false =>
      refine iff_of_false (fun h => ?_) fun h => ?_
      · have hup : base.up + (k + 1) = base.up := h.2.1
        omega
      · have hup : base.names.length + (k + 1) ≤ base.names.length :=
          h.1.resolve_left Bool.false_ne_true
        omega

end Paths
