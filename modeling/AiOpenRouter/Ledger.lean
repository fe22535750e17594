/-
Ledgers: abstract bookkeeping of what a transducer was asked to do.

A ledger is updated by abstract operations, each of which may or may not fit it.
A piece of a transducer *realises* a list of operations when, in every state the
ledger describes, its outputs stay permitted exactly if the operations fit, and
then the new ledger describes the new state.  Realisations compose, so a long
step is analysed helper by helper, and `Realises.permits_feed_iff` reads the
permitted runs off the operations of their inputs alone.  `Carries` is the
weaker notion for an invariant that only fitting operations keep.
-/
import AiOpenRouter.Trace

open Trace

namespace Ledger

structure OpSystem (l ω : Type*) where
  /-- the ledger after an operation -/
  next : l → ω → l
  /-- when an operation fits -/
  fits : l → ω → Prop

variable {l ω σ ο ι ε : Type*}

namespace OpSystem

variable (S : OpSystem l ω)

/-- The ledger after a list of operations. -/
def run (b : l) (ops : List ω) : l := ops.foldl S.next b

/-- Every operation of a list fits the ledger it meets. -/
def Fits : l → List ω → Prop
  | _, [] => True
  | b, op :: ops => S.fits b op ∧ Fits (S.next b op) ops

variable (b : l)

@[simp] theorem run_nil : S.run b [] = b := rfl

@[simp] theorem run_cons (op : ω) (ops : List ω) :
    S.run b (op :: ops) = S.run (S.next b op) ops := rfl

theorem run_append (ops ops' : List ω) : S.run b (ops ++ ops') = S.run (S.run b ops) ops' :=
  List.foldl_append

@[simp] theorem fits_nil : S.Fits b [] := trivial

@[simp] theorem fits_cons (op : ω) (ops : List ω) :
    S.Fits b (op :: ops) ↔ S.fits b op ∧ S.Fits (S.next b op) ops := Iff.rfl

theorem fits_append (ops ops' : List ω) :
    S.Fits b (ops ++ ops') ↔ S.Fits b ops ∧ S.Fits (S.run b ops) ops' := by
  induction ops generalizing b with
  | nil => simp
  | cons op ops ih =>
    rw [List.cons_append, fits_cons, ih, fits_cons, run_cons, and_assoc]

instance decidableFits [∀ b op, Decidable (S.fits b op)] : ∀ b ops, Decidable (S.Fits b ops)
  | _, [] => .isTrue trivial
  | b, op :: ops =>
    have := decidableFits (S.next b op) ops
    inferInstanceAs (Decidable (_ ∧ _))

end OpSystem

namespace OpSystem

/-- Every operation of `S` is a list of operations of the finer system `T`. -/
structure Expands {ω' : Type*} (S : OpSystem l ω) (T : OpSystem l ω') (expand : ω → List ω') :
    Prop where
  fits : ∀ b op, T.Fits b (expand op) ↔ S.fits b op
  next : ∀ b op, S.fits b op → T.run b (expand op) = S.next b op

variable {ω' : Type*} {S : OpSystem l ω} {T : OpSystem l ω'} {expand : ω → List ω'}

theorem Expands.fits_flatMap (h : Expands S T expand) (b : l) (ops : List ω) :
    T.Fits b (ops.flatMap expand) ↔ S.Fits b ops := by
  induction ops generalizing b with
  | nil => simp
  | cons op ops ih =>
    rw [List.flatMap_cons, fits_append, h.fits, fits_cons]
    constructor
    · rintro ⟨hop, hops⟩
      rw [h.next b op hop] at hops
      exact ⟨hop, (ih _).1 hops⟩
    · rintro ⟨hop, hops⟩
      rw [h.next b op hop]
      exact ⟨hop, (ih _).2 hops⟩

theorem Expands.run_flatMap (h : Expands S T expand) (b : l) (ops : List ω)
    (hfits : S.Fits b ops) : T.run b (ops.flatMap expand) = S.run b ops := by
  induction ops generalizing b with
  | nil => rfl
  | cons op ops ih =>
    rw [List.flatMap_cons, run_append, h.next b op hfits.1, run_cons]
    exact ih _ hfits.2

end OpSystem

/-- From `s` to `s'`, emitting `o`, the operations `ops` are carried out: the outputs stay
permitted iff they fit. -/
def Realises (S : OpSystem l ω) (R : l → σ → List ο → Prop) (allowed : List ο → ο → Prop)
    (ops : List ω) (s : σ) (o : List ο) (s' : σ) : Prop :=
  ∀ b t, R b s t → Permits allowed t →
    (Permits allowed (t ++ o) ↔ S.Fits b ops) ∧
    (S.Fits b ops → R (S.run b ops) s' (t ++ o))

variable {S : OpSystem l ω} {R : l → σ → List ο → Prop} {allowed : List ο → ο → Prop}

theorem Realises.nil (s : σ) : Realises S R allowed [] s [] s := by
  intro b t hR hP
  rw [List.append_nil]
  exact ⟨iff_of_true hP trivial, fun _ => hR⟩

variable {o : List ο}

theorem Realises.append {ops ops' : List ω} {s s' s'' : σ} {o' : List ο}
    (h : Realises S R allowed ops s o s') (h' : Realises S R allowed ops' s' o' s'') :
    Realises S R allowed (ops ++ ops') s (o ++ o') s'' := by
  intro b t hR hP
  obtain ⟨hiff, hnext⟩ := h b t hR hP
  rw [← List.append_assoc, S.fits_append, S.run_append]
  by_cases hfits : S.Fits b ops
  · obtain ⟨hiff', hnext'⟩ := h' _ _ (hnext hfits) (hiff.2 hfits)
    rw [hiff']
    exact ⟨(and_iff_right hfits).symm, fun hall => hnext' hall.2⟩
  · refine ⟨iff_of_false ?_ fun hall => hfits hall.1, fun hall => absurd hall.1 hfits⟩
    intro hp
    exact hfits (hiff.1 hp.of_append)

/-- Realising no operation: nothing forbidden is emitted, and the ledger stays. -/
theorem Realises.of_silent {s s' : σ}
    (h : ∀ b t, R b s t → Permits allowed t → Permits allowed (t ++ o) ∧ R b s' (t ++ o)) :
    Realises S R allowed [] s o s' := by
  intro b t hR hP
  obtain ⟨hp, hr⟩ := h b t hR hP
  exact ⟨iff_of_true hp trivial, fun _ => hr⟩

theorem Realises.of_expands {ω' : Type*} {T : OpSystem l ω'} {expand : ω → List ω'}
    (hexp : OpSystem.Expands S T expand) {ops : List ω} {s s' : σ}
    (h : Realises T R allowed (ops.flatMap expand) s o s') : Realises S R allowed ops s o s' := by
  intro b t hR hP
  obtain ⟨hiff, hnext⟩ := h b t hR hP
  rw [hexp.fits_flatMap] at hiff hnext
  refine ⟨hiff, fun hfits => ?_⟩
  rw [← hexp.run_flatMap b ops hfits]
  exact hnext hfits

/-- The inputs before the first one that is refused. -/
def acceptedOps (accepts : ι → Bool) (opsOf : ι → List ω) (is : List ι) : List ω :=
  (is.takeWhile accepts).flatMap opsOf

section

variable {step : ι → σ → Except ε (List ο × σ)} {accepts : ι → Bool} {opsOf : ι → List ω}

theorem feed_of_append {Q : List ω → σ → List ο → σ → Prop} (hnil : ∀ s, Q [] s [] s)
    (happend : ∀ {ops ops' s o s' o' s''}, Q ops s o s' → Q ops' s' o' s'' →
      Q (ops ++ ops') s (o ++ o') s'')
    (hrefuse : ∀ i s, accepts i = false → ∃ e, step i s = .error e)
    (haccept : ∀ i s, accepts i = true → ∃ o s', step i s = .ok (o, s') ∧ Q (opsOf i) s o s')
    (is : List ι) (s : σ) :
    Q (acceptedOps accepts opsOf is) s (feed step s is).out (feed step s is).state := by
  induction is generalizing s with
  | nil => exact hnil s
  | cons i is ih =>
    rw [acceptedOps, List.takeWhile_cons]
    rcases hacc : accepts i with _ | _
    · obtain ⟨e, he⟩ := hrefuse i s hacc
      rw [feed_cons_error he]
      exact hnil s
    · obtain ⟨o, s', hs', hstep⟩ := haccept i s hacc
      rw [feed_cons_ok hs', if_pos rfl, List.flatMap_cons]
      exact happend hstep (ih s')

theorem Realises.permits_feed_iff
    (hrefuse : ∀ i s, accepts i = false → ∃ e, step i s = .error e)
    (haccept : ∀ i s, accepts i = true → ∃ o s', step i s = .ok (o, s') ∧
      Realises S R allowed (opsOf i) s o s') (is : List ι) {b : l} {s : σ} {t : List ο}
    (hR : R b s t) (hP : Permits allowed t) :
    (Permits allowed (t ++ (feed step s is).out) ↔ S.Fits b (acceptedOps accepts opsOf is)) ∧
      (S.Fits b (acceptedOps accepts opsOf is) →
        R (S.run b (acceptedOps accepts opsOf is)) (feed step s is).state
          (t ++ (feed step s is).out)) :=
  feed_of_append Realises.nil Realises.append hrefuse haccept is s b t hR hP

end

/-! ### Invariants that fitting operations keep -/

/-- From `s` to `s'`, emitting `o`, operations that fit take the ledger along. -/
def Carries (S : OpSystem l ω) (R : l → σ → List ο → Prop) (ops : List ω) (s : σ) (o : List ο)
    (s' : σ) : Prop :=
  ∀ b t, R b s t → S.Fits b ops → R (S.run b ops) s' (t ++ o)

theorem Carries.nil (s : σ) : Carries S R [] s [] s := by
  intro b t hR _
  rwa [List.append_nil]

theorem Carries.append {ops ops' : List ω} {s s' s'' : σ} {o' : List ο}
    (h : Carries S R ops s o s') (h' : Carries S R ops' s' o' s'') :
    Carries S R (ops ++ ops') s (o ++ o') s'' := by
  intro b t hR hfits
  rw [S.fits_append] at hfits
  rw [S.run_append, ← List.append_assoc]
  exact h' _ _ (h b t hR hfits.1) hfits.2

theorem Carries.feed {step : ι → σ → Except ε (List ο × σ)} {accepts : ι → Bool}
    {opsOf : ι → List ω} (hrefuse : ∀ i s, accepts i = false → ∃ e, step i s = .error e)
    (haccept : ∀ i s, accepts i = true → ∃ o s', step i s = .ok (o, s') ∧
      Carries S R (opsOf i) s o s') (is : List ι) {b : l} {s : σ} {t : List ο} (hR : R b s t)
    (hfits : S.Fits b (acceptedOps accepts opsOf is)) :
    R (S.run b (acceptedOps accepts opsOf is)) (Trace.feed step s is).state
      (t ++ (Trace.feed step s is).out) :=
  feed_of_append Carries.nil Carries.append hrefuse haccept is s b t hR hfits

end Ledger
