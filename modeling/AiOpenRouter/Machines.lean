/-
Runs of a state machine whose steps may be refused.

A step takes an action, which names the party that moves and its choices, so a
list of actions is one interleaving.

* `run` makes the actions of a list in turn;
* `EachStep` says that every step of a run meets a condition on the state before it;
* `run_invariant` carries an invariant through the runs whose steps meet it;
* `EachStep.of_invariant` derives from an invariant what every step is like;
* `along_iff` says by its steps alone when an invariant holds all along a run.
-/
import Mathlib.Data.List.Basic

namespace Machine

variable {σ α : Type*} (step : σ → α → Option σ)

/-- The state behind a list of actions, none when one of them is refused. -/
def run : σ → List α → Option σ
  | s, [] => some s
  | s, a :: actions => (step s a).bind fun s' => run s' actions

/-- Every step of a run meets a condition on the state before it. -/
def EachStep (condition : σ → α → Prop) : σ → List α → Prop
  | _, [] => True
  | s, a :: actions =>
    condition s a ∧ ∀ s', step s a = some s' → EachStep condition s' actions

/-- A property of the states that holds before, between and after the steps of a run. -/
def Along (holds : σ → Prop) : σ → List α → Prop
  | s, [] => holds s
  | s, a :: actions => holds s ∧ ∀ s', step s a = some s' → Along holds s' actions

variable {step}

theorem EachStep.cons {condition : σ → α → Prop} {s s' : σ} {a : α} {actions : List α}
    (hstep : step s a = some s') (hcondition : condition s a)
    (hrest : EachStep step condition s' actions) : EachStep step condition s (a :: actions) :=
  ⟨hcondition, fun _ hnext => Option.some.inj (hstep.symm.trans hnext) ▸ hrest⟩

theorem run_append (s : σ) (first second : List α) :
    run step s (first ++ second) = (run step s first).bind fun s' => run step s' second := by
  induction first generalizing s with
  | nil => rfl
  | cons a first ih =>
    rw [List.cons_append, run, run, Option.bind_assoc]
    exact Option.bind_congr fun s' _ => ih s'

variable {s : σ} {actions : List α} {condition : σ → α → Prop}

theorem EachStep.append {first second : List α} (hfirst : EachStep step condition s first)
    (hsecond : ∀ s', run step s first = some s' → EachStep step condition s' second) :
    EachStep step condition s (first ++ second) := by
  induction first generalizing s with
  | nil => exact hsecond s rfl
  | cons a first ih =>
    refine ⟨hfirst.1, fun s' hnext => ih (hfirst.2 s' hnext) fun s'' hrun => hsecond s'' ?_⟩
    rw [run, hnext, Option.bind_some]
    exact hrun

/-- **What every step that meets the condition preserves, a run of such steps preserves.** -/
theorem run_invariant {Inv : σ → Prop}
    (hstep : ∀ s a s', Inv s → condition s a → step s a = some s' → Inv s') {s' : σ} (hinv : Inv s)
    (hall : EachStep step condition s actions) (hrun : run step s actions = some s') : Inv s' := by
  induction actions generalizing s with
  | nil =>
    cases hrun
    exact hinv
  | cons a actions ih =>
    obtain ⟨next, hnext, hrest⟩ := Option.bind_eq_some_iff.1 hrun
    exact ih (hstep s a next hinv hall.1 hnext) (hall.2 next hnext) hrest

/-- **What the invariant and the condition say of one step, they say of every step of a run.** -/
theorem EachStep.of_invariant {condition good : σ → α → Prop} {Inv : σ → Prop}
    (hstep : ∀ s a s', Inv s → condition s a → step s a = some s' → Inv s')
    (hgood : ∀ s a, Inv s → condition s a → good s a) {s : σ} {actions : List α} (hinv : Inv s)
    (hall : EachStep step condition s actions) : EachStep step good s actions := by
  induction actions generalizing s with
  | nil => trivial
  | cons a actions ih =>
    refine ⟨hgood s a hinv hall.1, fun s' hnext => ?_⟩
    exact ih (hstep s a s' hinv hall.1 hnext) (hall.2 s' hnext)

theorem EachStep.imp {weaker : σ → α → Prop} (himp : ∀ s a, condition s a → weaker s a)
    (hall : EachStep step condition s actions) : EachStep step weaker s actions := by
  induction actions generalizing s with
  | nil => trivial
  | cons a actions ih =>
    exact ⟨himp s a hall.1, fun s' hnext => ih (hall.2 s' hnext)⟩

theorem EachStep.and {first second : σ → α → Prop} (hfirst : EachStep step first s actions)
    (hsecond : EachStep step second s actions) :
    EachStep step (fun s a => first s a ∧ second s a) s actions := by
  induction actions generalizing s with
  | nil => trivial
  | cons a actions ih =>
    refine ⟨⟨hfirst.1, hsecond.1⟩, fun s' hnext => ?_⟩
    exact ih (hfirst.2 s' hnext) (hsecond.2 s' hnext)

/-- An invariant holds all along a run whose steps meet the condition. -/
theorem Along.of_invariant {condition : σ → α → Prop} {Inv : σ → Prop}
    (hstep : ∀ s a s', Inv s → condition s a → step s a = some s' → Inv s') {s : σ}
    {actions : List α} (hinv : Inv s) (hall : EachStep step condition s actions) :
    Along step Inv s actions := by
  induction actions generalizing s with
  | nil => exact hinv
  | cons a actions ih =>
    refine ⟨hinv, fun s' hnext => ?_⟩
    exact ih (hstep s a s' hinv hall.1 hnext) (hall.2 s' hnext)

/-- **When a step keeps the invariant just if it meets a condition, the invariant holds all along a
run just if every step of it does.** -/
theorem along_iff {Inv : σ → Prop} {assumed : σ → α → Prop}
    (hstep : ∀ s a, Inv s → assumed s a → ((∀ s', step s a = some s' → Inv s') ↔ condition s a))
    (hinv : Inv s) (hassumed : EachStep step assumed s actions) :
    Along step Inv s actions ↔ EachStep step condition s actions := by
  constructor
  · intro halong
    induction actions generalizing s with
    | nil => trivial
    | cons a actions ih =>
      have hkept : ∀ s', step s a = some s' → Inv s' := by
        intro s' hnext
        have hrest := halong.2 s' hnext
        cases actions with
        | nil => exact hrest
        | cons b actions => exact hrest.1
      refine ⟨(hstep s a hinv hassumed.1).1 hkept, fun s' hnext => ?_⟩
      exact ih (hkept s' hnext) (hassumed.2 s' hnext) (halong.2 s' hnext)
  · intro hall
    have hboth := hassumed.and hall
    exact Along.of_invariant (fun s a s' hinv hcondition hnext =>
      (hstep s a hinv hcondition.1).2 hcondition.2 s' hnext) hinv hboth

theorem EachStep.trivial : EachStep step (fun _ _ => True) s actions := by
  induction actions generalizing s with
  | nil => exact True.intro
  | cons a actions ih => exact ⟨True.intro, fun _ _ => ih⟩

end Machine
