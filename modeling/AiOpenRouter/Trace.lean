/-
Traces of a fallible stream transducer.

A transducer reads one input at a time, and either fails or emits a list of
outputs and moves to its next state.  `feed` runs it over a list of inputs up
to the first failure.  The properties of interest are history-dependent:
`Permits allowed t` says that every output of `t` is allowed by the outputs
before it.

* `feed_invariant` — a relation between the state and the outputs so far that
  every step preserves holds at the end of every run;
* `permits_feed_iff` — if, under an invariant, one step stays permitted
  exactly when a condition on the state before it holds, then a whole run
  stays permitted exactly when every one of its steps meets that condition.
-/
import Mathlib.Data.List.Basic

namespace Trace

variable {ι ο σ ε : Type*}

/-! ### History-dependent properties -/

/-- Every element of `t` is allowed by the elements before it. -/
def Permits (allowed : List ο → ο → Prop) (t : List ο) : Prop :=
  ∀ pre e post, t = pre ++ e :: post → allowed pre e

variable {allowed : List ο → ο → Prop}

@[simp] theorem permits_nil : Permits allowed [] := by
  intro pre e post h
  simp at h

variable {s : σ} {is : List ι} {t o : List ο} {R : σ → List ο → Prop} {i : ι} {C : ι → Prop}

theorem Permits.of_append {u : List ο} (h : Permits allowed (t ++ u)) : Permits allowed t := by
  intro pre e post ht
  refine h pre e (post ++ u) ?_
  rw [ht, List.append_assoc, List.cons_append]

theorem eq_or_of_snoc_eq {pre post : List ο} {e e' : ο} (h : t ++ [e] = pre ++ e' :: post) :
    (pre = t ∧ e' = e ∧ post = []) ∨ ∃ post', t = pre ++ e' :: post' := by
  rcases List.eq_nil_or_concat post with rfl | ⟨post', last, rfl⟩
  · obtain ⟨rfl, h1⟩ := List.append_inj' h rfl
    exact Or.inl ⟨rfl, (List.singleton_inj.1 h1).symm, rfl⟩
  · have h' : t ++ [e] = (pre ++ e' :: post') ++ [last] := by
      rw [h, List.append_assoc, List.cons_append, List.concat_eq_append]
    exact Or.inr ⟨post', (List.append_inj' h' rfl).1⟩

@[simp] theorem permits_snoc {e : ο} :
    Permits allowed (t ++ [e]) ↔ Permits allowed t ∧ allowed t e := by
  constructor
  · intro h
    exact ⟨h.of_append, h t e [] rfl⟩
  · rintro ⟨ht, he⟩ pre e' post h
    rcases eq_or_of_snoc_eq h with ⟨rfl, rfl, -⟩ | ⟨post', rfl⟩
    · exact he
    · exact ht pre e' post' rfl

theorem permits_iff_forall_get :
    Permits allowed t ↔ ∀ k : Fin t.length, allowed (t.take k) (t.get k) := by
  constructor
  · intro h k
    refine h (t.take k) (t.get k) (t.drop (k + 1)) ?_
    rw [List.get_eq_getElem, List.getElem_cons_drop, List.take_append_drop]
  · rintro h pre e post rfl
    have hk := h ⟨pre.length, by simp⟩
    simpa using hk

instance [∀ pre e, Decidable (allowed pre e)] (t : List ο) : Decidable (Permits allowed t) :=
  decidable_of_iff _ permits_iff_forall_get.symm

/-! ### Runs -/

/-- What a run over a list of inputs gives: the outputs, the last state, and
the error that stopped it. -/
structure Outcome (ο σ ε : Type*) where
  out : List ο
  state : σ
  error : Option ε

/-- Feed the inputs one after another, up to the first failure. -/
def feed (step : ι → σ → Except ε (List ο × σ)) : σ → List ι → Outcome ο σ ε
  | s, [] => ⟨[], s, none⟩
  | s, i :: is =>
    match step i s with
    | .error e => ⟨[], s, some e⟩
    | .ok (o, s') =>
      let rest := feed step s' is
      ⟨o ++ rest.out, rest.state, rest.error⟩

variable {step : ι → σ → Except ε (List ο × σ)}

@[simp] theorem feed_nil (s : σ) : feed step s [] = ⟨[], s, none⟩ := rfl

theorem feed_cons_ok {s' : σ} (h : step i s = .ok (o, s')) (is : List ι) :
    feed step s (i :: is)
      = ⟨o ++ (feed step s' is).out, (feed step s' is).state, (feed step s' is).error⟩ := by
  rw [feed, h]

theorem feed_cons_error {e : ε} (h : step i s = .error e) (is : List ι) :
    feed step s (i :: is) = ⟨[], s, some e⟩ := by
  rw [feed, h]

/-- A run over `is ++ js` whose first part does not fail goes on with `js`. -/
theorem feed_append (h : (feed step s is).error = none) (js : List ι) :
    feed step s (is ++ js)
      = ⟨(feed step s is).out ++ (feed step (feed step s is).state js).out,
         (feed step (feed step s is).state js).state,
         (feed step (feed step s is).state js).error⟩ := by
  induction is generalizing s with
  | nil => simp
  | cons i is ih =>
    rcases hi : step i s with e | ⟨o, s'⟩
    · rw [feed_cons_error hi] at h
      exact absurd h (by simp)
    · rw [feed_cons_ok hi] at h ⊢
      rw [List.cons_append, feed_cons_ok hi, ih h, List.append_assoc]

theorem feed_append_of_error {e : ε} (h : (feed step s is).error = some e) (js : List ι) :
    feed step s (is ++ js) = feed step s is := by
  induction is generalizing s with
  | nil => exact absurd h (by simp)
  | cons i is ih =>
    rcases hi : step i s with e' | ⟨o, s'⟩
    · rw [List.cons_append, feed_cons_error hi, feed_cons_error hi]
    · rw [feed_cons_ok hi] at h
      rw [List.cons_append, feed_cons_ok hi, feed_cons_ok hi, ih h]

theorem feed_snoc {s' : σ} (h : (feed step s is).error = none)
    (hi : step i (feed step s is).state = .ok (o, s')) :
    feed step s (is ++ [i]) = ⟨(feed step s is).out ++ o, s', none⟩ := by
  rw [feed_append h, feed_cons_ok hi, feed_nil, List.append_nil]

theorem feed_error_eq_none : ∀ {is : List ι}, (∀ i ∈ is, ∀ s, ∃ r, step i s = .ok r) →
    ∀ s, (feed step s is).error = none := by
  intro is
  induction is with
  | nil =>
    intro _ s
    rfl
  | cons i is ih =>
    intro hok s
    obtain ⟨⟨o, s'⟩, hr⟩ := hok i (by simp) s
    rw [feed_cons_ok hr]
    exact ih (fun j hj => hok j (by simp [hj])) s'

theorem feed_map {β : Type*} (f : ο → List β) : ∀ (is : List ι) (s : σ),
    feed (fun i s => (step i s).map fun r => (r.1.flatMap f, r.2)) s is
      = ⟨(feed step s is).out.flatMap f, (feed step s is).state, (feed step s is).error⟩ := by
  intro is
  induction is with
  | nil =>
    intro s
    rfl
  | cons i is ih =>
    intro s
    rcases hi : step i s with e | ⟨o, s'⟩
    · rw [feed_cons_error hi, feed_cons_error (by rw [hi]; rfl)]
      rfl
    · have hmap : (step i s).map (fun r => (r.1.flatMap f, r.2)) = .ok (o.flatMap f, s') := by
        rw [hi]
        rfl
      rw [feed_cons_ok hi, feed_cons_ok hmap, ih, List.flatMap_append]

/-- The invariant rule for a relation that also sees the inputs, along a run that does not
fail. -/
theorem feed_history {R : List ι → σ → List ο → Prop}
    (hstep : ∀ is s t i o s', R is s t → step i s = .ok (o, s') → R (is ++ [i]) s' (t ++ o)) :
    ∀ (is : List ι) {js : List ι} {s : σ} {t : List ο}, R js s t → (feed step s is).error = none →
      R (js ++ is) (feed step s is).state (t ++ (feed step s is).out) := by
  intro is
  induction is with
  | nil =>
    intro js s t h _
    simpa using h
  | cons i is ih =>
    intro js s t h hok
    rcases hi : step i s with e | ⟨o, s'⟩
    · rw [feed_cons_error hi] at hok
      exact absurd hok (by simp)
    · rw [feed_cons_ok hi] at hok ⊢
      rw [← List.append_assoc, List.append_cons js i is]
      exact ih (hstep js s t i o s' h hi) hok

/-- Every successful step of a run meets `C`, a condition on the state and the
outputs before the step and on its input. -/
def StepsMeet (step : ι → σ → Except ε (List ο × σ)) (C : σ → List ο → ι → Prop) :
    σ → List ο → List ι → Prop
  | _, _, [] => True
  | s, t, i :: is =>
    match step i s with
    | .error _ => True
    | .ok (o, s') => C s t i ∧ StepsMeet step C s' (t ++ o) is

/-- The invariant rule for runs whose steps meet a condition. -/
theorem feed_invariant_of_stepsMeet {C : σ → List ο → ι → Prop}
    (hstep : ∀ s t i o s', R s t → C s t i → step i s = .ok (o, s') → R s' (t ++ o)) :
    ∀ (is : List ι) {s : σ} {t : List ο}, R s t → StepsMeet step C s t is →
      R (feed step s is).state (t ++ (feed step s is).out) := by
  intro is
  induction is with
  | nil =>
    intro s t h _
    simpa using h
  | cons i is ih =>
    intro s t h hC
    rcases hi : step i s with e | ⟨o, s'⟩
    · rw [feed_cons_error hi]
      simpa using h
    · rw [StepsMeet, hi] at hC
      rw [feed_cons_ok hi, ← List.append_assoc]
      exact ih (hstep s t i o s' h hC.1 hi) hC.2

theorem stepsMeet_of_forall :
    ∀ {is : List ι} {s : σ} {t : List ο},
    (∀ i ∈ is, C i) → StepsMeet step (fun _ _ i => C i) s t is := by
  intro is
  induction is with
  | nil =>
    intro s t _
    trivial
  | cons i is ih =>
    intro s t hC
    rw [StepsMeet]
    rcases step i s with e | ⟨o, s'⟩
    · trivial
    · exact ⟨hC i (by simp), ih fun j hj => hC j (by simp [hj])⟩

/-- The invariant rule: what every successful step preserves holds of every run. -/
theorem feed_invariant (hstep : ∀ s t i o s', R s t → step i s = .ok (o, s') → R s' (t ++ o))
    (is : List ι) {s : σ} {t : List ο} (h : R s t) :
    R (feed step s is).state (t ++ (feed step s is).out) :=
  feed_invariant_of_stepsMeet (fun s t i o s' h _ => hstep s t i o s' h) is h
    (stepsMeet_of_forall fun _ _ => trivial)

/-- The invariant rule for inputs of one kind. -/
theorem feed_invariant_of_forall
    (hstep : ∀ s t i o s', R s t → C i → step i s = .ok (o, s') → R s' (t ++ o))
    (hC : ∀ i ∈ is, C i) (h : R s t) : R (feed step s is).state (t ++ (feed step s is).out) :=
  feed_invariant_of_stepsMeet hstep is h (stepsMeet_of_forall hC)

theorem forall_mem_feed_out {P : ο → Prop}
    (hstep : ∀ i s o s', C i → step i s = .ok (o, s') → ∀ e ∈ o, P e) (hC : ∀ i ∈ is, C i) (s : σ) :
    ∀ e ∈ (feed step s is).out, P e := by
  have hkeep : ∀ s t i o s', (∀ e ∈ t, P e) → C i → step i s = .ok (o, s') →
      ∀ e ∈ t ++ o, P e := by
    intro s t i o s' ht hi hs e he
    rcases List.mem_append.1 he with he | he
    · exact ht e he
    · exact hstep i s o s' hi hs e he
  have h := feed_invariant_of_forall (R := fun _ t => ∀ e ∈ t, P e) hkeep hC (s := s) (t := [])
    (by simp)
  simpa using h

theorem permits_feed_iff {C : σ → List ο → ι → Prop}
    (hexact : ∀ s t i o s', R s t → Permits allowed t → step i s = .ok (o, s') →
      (Permits allowed (t ++ o) ↔ C s t i))
    (hstep : ∀ s t i o s', R s t → Permits allowed t → C s t i → step i s = .ok (o, s') →
      R s' (t ++ o)) :
    ∀ (is : List ι) {s : σ} {t : List ο}, R s t → Permits allowed t →
      (Permits allowed (t ++ (feed step s is).out) ↔ StepsMeet step C s t is) := by
  intro is
  induction is with
  | nil =>
    intro s t _ ht
    simpa [StepsMeet] using ht
  | cons i is ih =>
    intro s t h ht
    rcases hi : step i s with e | ⟨o, s'⟩
    · rw [feed_cons_error hi, StepsMeet, hi]
      simpa using ht
    · rw [feed_cons_ok hi, StepsMeet, hi, ← List.append_assoc]
      by_cases hC : C s t i
      · have ho : Permits allowed (t ++ o) := (hexact s t i o s' h ht hi).2 hC
        rw [ih (hstep s t i o s' h ht hC hi) ho]
        simp [hC]
      · constructor
        · intro hp
          exact absurd ((hexact s t i o s' h ht hi).1 hp.of_append) hC
        · intro hmeet
          exact absurd hmeet.1 hC

/-! ### Ghost state -/

variable {γ : Type*}

/-- A step that records something about its inputs besides; what is recorded
never influences the step. -/
def withGhost (step : ι → σ → Except ε (List ο × σ)) (record : ι → σ → γ → γ) :
    ι → σ × γ → Except ε (List ο × (σ × γ)) :=
  fun i s =>
    match step i s.1 with
    | .error e => .error e
    | .ok (o, s') => .ok (o, (s', record i s.1 s.2))

theorem feed_withGhost {record : ι → σ → γ → γ} (is : List ι) (s : σ) (c : γ) :
    (feed (withGhost step record) (s, c) is).out = (feed step s is).out ∧
    (feed (withGhost step record) (s, c) is).state.1 = (feed step s is).state ∧
    (feed (withGhost step record) (s, c) is).error = (feed step s is).error := by
  induction is generalizing s c with
  | nil => exact ⟨rfl, rfl, rfl⟩
  | cons i is ih =>
    rcases hi : step i s with e | ⟨o, s'⟩
    · have hg : withGhost step record i (s, c) = .error e := by rw [withGhost, hi]
      rw [feed_cons_error hi, feed_cons_error hg]
      exact ⟨rfl, rfl, rfl⟩
    · have hg : withGhost step record i (s, c) = .ok (o, (s', record i s c)) := by
        rw [withGhost, hi]
      rw [feed_cons_ok hi, feed_cons_ok hg]
      obtain ⟨hout, hstate, herror⟩ := ih s' (record i s c)
      exact ⟨congrArg (o ++ ·) hout, hstate, herror⟩

theorem withGhost_eq_ok {record : ι → σ → γ → γ} {c : γ} {s' : σ × γ}
    (h : withGhost step record i (s, c) = .ok (o, s')) :
    step i s = .ok (o, s'.1) ∧ s'.2 = record i s c := by
  rw [withGhost] at h
  rcases hi : step i s with e | ⟨o', s''⟩
  · rw [hi] at h
    exact absurd h (by simp)
  · rw [hi] at h
    obtain ⟨rfl, rfl⟩ := Prod.mk.inj (Except.ok.inj h)
    exact ⟨rfl, rfl⟩

end Trace
