/-
Runs of a transducer on inputs that stand for typed events.

The inputs of a transducer are raw (bytes), the events they carry are typed,
and a step on an input is a pure function of the event it carries.  A run of
the transducer is then a run of that function, `runOn`, which never fails and
splits along an append of the events.
-/
import AiOpenRouter.Trace

namespace Trace

variable {ι κ ο σ ε : Type*}

def runOn (f : κ → σ → List ο × σ) : σ → List κ → List ο × σ
  | s, [] => ([], s)
  | s, e :: es => ((f e s).1 ++ (runOn f (f e s).2 es).1, (runOn f (f e s).2 es).2)

variable {f : κ → σ → List ο × σ}

@[simp] theorem runOn_nil (s : σ) : runOn f s [] = ([], s) := rfl

@[simp] theorem runOn_cons (s : σ) (e : κ) (es : List κ) :
    runOn f s (e :: es) =
      ((f e s).1 ++ (runOn f (f e s).2 es).1, (runOn f (f e s).2 es).2) := rfl

theorem runOn_append (s : σ) (es es' : List κ) :
    runOn f s (es ++ es') =
      ((runOn f s es).1 ++ (runOn f (runOn f s es).2 es').1,
        (runOn f (runOn f s es).2 es').2) := by
  induction es generalizing s with
  | nil => rfl
  | cons e es ih => simp [ih]

theorem runOn_map {α : Type*} {g : α → κ} {h : α → ο} {xs : List α} {s : σ}
    (hstep : ∀ x ∈ xs, f (g x) s = ([h x], s)) : runOn f s (xs.map g) = (xs.map h, s) := by
  induction xs with
  | nil => rfl
  | cons x xs ih =>
    rw [List.map_cons, runOn_cons, hstep x List.mem_cons_self,
      ih fun y hy => hstep y (List.mem_cons_of_mem x hy)]
    rfl

theorem runOn_filter {p : κ → Bool} (hsilent : ∀ e, p e = false → ∀ s, f e s = ([], s)) (s : σ)
    (es : List κ) : runOn f s es = runOn f s (es.filter p) := by
  induction es generalizing s with
  | nil => rfl
  | cons e es ih =>
    by_cases hp : p e = true
    · rw [List.filter_cons_of_pos hp, runOn_cons, runOn_cons, ih]
    · rw [List.filter_cons_of_neg hp, runOn_cons, hsilent e (by simpa using hp), ih]
      rfl

theorem feed_eq_runOn {step : ι → σ → Except ε (List ο × σ)} {R : ι → κ → Prop}
    (hstep : ∀ i e, R i e → ∀ s, step i s = .ok (f e s)) {is : List ι} {es : List κ}
    (h : List.Forall₂ R is es) (s : σ) :
    feed step s is = ⟨(runOn f s es).1, (runOn f s es).2, none⟩ := by
  induction h generalizing s with
  | nil => rfl
  | cons hi _ ih => rw [feed_cons_ok (hstep _ _ hi s), ih, runOn_cons]

theorem runOn_invariant {R : σ → List ο → Prop}
    (hstep : ∀ s t e, R s t → R (f e s).2 (t ++ (f e s).1)) (es : List κ) {s : σ} {t : List ο}
    (h : R s t) : R (runOn f s es).2 (t ++ (runOn f s es).1) := by
  induction es generalizing s t with
  | nil => simpa using h
  | cons e es ih =>
    rw [runOn_cons, ← List.append_assoc]
    exact ih (hstep s t e h)

end Trace
