/-
The per-stream state the converters share (`StreamContext`), and the pair
of that state with the output of the running call.

Hash maps are functions to `Option`, the set of open indices is a `Finset`.
The `i32` counters wrap (`wrapI32`), as in the release profile, where overflow
checks are off.  `uuidsDrawn` counts the random uuids taken so far, so that a
converter is a function of its arguments.
-/
import Mathlib.Data.Finset.Sort
import AiOpenRouter.Json
import AiOpenRouter.Ledger

namespace AiOpenRouter

/-! ### `i32` arithmetic -/

/-- The `i32` with the low 32 bits of `n`: `as i32`, and the result of `i32` arithmetic. -/
def wrapI32 (n : ℤ) : ℤ := (n + 2147483648) % 4294967296 - 2147483648

theorem wrapI32_of_mem {n : ℤ} (h0 : -2147483648 ≤ n) (h1 : n < 2147483648) :
    wrapI32 n = n := by
  unfold wrapI32
  omega

/-- An `i32`. -/
def IsI32 (n : ℤ) : Prop := -2147483648 ≤ n ∧ n < 2147483648

instance (n : ℤ) : Decidable (IsI32 n) := inferInstanceAs (Decidable (_ ∧ _))

theorem IsI32.wrapI32 {n : ℤ} (h : IsI32 n) : wrapI32 n = n := wrapI32_of_mem h.1 h.2

theorem isI32_wrapI32 (n : ℤ) : IsI32 (AiOpenRouter.wrapI32 n) := by
  unfold AiOpenRouter.wrapI32 IsI32
  omega

theorem wrapI32_natCast_inj {k m : ℕ} (hk : k < 4294967296) (hm : m < 4294967296)
    (h : wrapI32 k = wrapI32 m) : k = m := by
  unfold wrapI32 at h
  omega

theorem wrapI32_wrapI32_add_one (n : ℤ) : wrapI32 (wrapI32 n + 1) = wrapI32 (n + 1) := by
  unfold wrapI32
  omega

/-! ### The context -/

/-- `StreamContext`: the fields the stream converters read or write. -/
structure StreamContext where
  messageStartSent : Bool
  contentBlockStarted : Bool
  thinkingBlockStarted : Bool
  toolBlockStarted : Bool
  messageId : String
  modelName : String
  inputTokens : ℤ
  outputTokens : ℤ
  contentIndex : ℤ
  thinkingIndex : ℤ
  toolIndex : ℤ
  finishReasonSent : Bool
  currentToolId : String
  currentToolName : String
  toolArguments : String
  responsesHasToolUse : Bool
  responsesNextContentIndex : ℤ
  responsesIndexByKey : String → Option ℤ
  responsesOpenIndices : Finset ℤ
  responsesFallbackOpenIndex : Option ℤ
  responsesToolIndexByItemId : String → Option ℤ
  responsesLastToolIndex : Option ℤ
  uuidsDrawn : ℕ

/-- `StreamContext::new`. -/
def StreamContext.new : StreamContext where
  messageStartSent := false
  contentBlockStarted := false
  thinkingBlockStarted := false
  toolBlockStarted := false
  messageId := ""
  modelName := ""
  inputTokens := 0
  outputTokens := 0
  contentIndex := 0
  thinkingIndex := 0
  toolIndex := 0
  finishReasonSent := false
  currentToolId := ""
  currentToolName := ""
  toolArguments := ""
  responsesHasToolUse := false
  responsesNextContentIndex := 0
  responsesIndexByKey := fun _ => none
  responsesOpenIndices := ∅
  responsesFallbackOpenIndex := none
  responsesToolIndexByItemId := fun _ => none
  responsesLastToolIndex := none
  uuidsDrawn := 0

/-- The context at the start of a stream. -/
def StreamContext.forModel (targetModel : String) : StreamContext :=
  { StreamContext.new with modelName := targetModel }

/-! ### A running conversion -/

/-- The `ctx` and `result` arguments that the helpers of a converter pass along. -/
structure Emit (ο : Type) where
  ctx : StreamContext
  result : List ο

namespace Emit

variable {ο : Type}

def start (ctx : StreamContext) : Emit ο := ⟨ctx, []⟩

/-- `result.extend(event)`. -/
def push (st : Emit ο) (event : ο) : Emit ο := { st with result := st.result ++ [event] }

def withCtx (st : Emit ο) (f : StreamContext → StreamContext) : Emit ο :=
  { st with ctx := f st.ctx }

variable (st : Emit ο)

@[simp] theorem start_ctx (ctx : StreamContext) : (start ctx : Emit ο).ctx = ctx := rfl
@[simp] theorem start_result (ctx : StreamContext) : (start ctx : Emit ο).result = [] := rfl
@[simp] theorem push_ctx (e : ο) : (st.push e).ctx = st.ctx := rfl
@[simp] theorem push_result (e : ο) : (st.push e).result = st.result ++ [e] := rfl
@[simp] theorem withCtx_ctx (f : StreamContext → StreamContext) :
    (st.withCtx f).ctx = f st.ctx := rfl
@[simp] theorem withCtx_result (f : StreamContext → StreamContext) :
    (st.withCtx f).result = st.result := rfl

/-- What a call returns: the output and the context. -/
def finish (st : Emit ο) : List ο × StreamContext := (st.result, st.ctx)

section Realises

variable {l ω : Type*} {S : Ledger.OpSystem l ω} {R : l → StreamContext → List ο → Prop}
  {allowed : List ο → ο → Prop}

/-- A helper that goes from `st` to `st'` carries out the operations `ops` on the ledger. -/
def Realises (S : Ledger.OpSystem l ω) (R : l → StreamContext → List ο → Prop)
    (allowed : List ο → ο → Prop) (ops : List ω) (st st' : Emit ο) : Prop :=
  ∃ q, st'.result = st.result ++ q ∧ Ledger.Realises S R allowed ops st.ctx q st'.ctx

theorem Realises.refl (st : Emit ο) : Realises S R allowed [] st st :=
  ⟨[], by simp, Ledger.Realises.nil _⟩

theorem Realises.trans {ops ops' : List ω} {st st' st'' : Emit ο}
    (h : Realises S R allowed ops st st') (h' : Realises S R allowed ops' st' st'') :
    Realises S R allowed (ops ++ ops') st st'' := by
  obtain ⟨q, hq, hr⟩ := h
  obtain ⟨q', hq', hr'⟩ := h'
  exact ⟨q ++ q', by rw [hq', hq, List.append_assoc], hr.append hr'⟩

theorem Realises.finish {ops : List ω} {ctx : StreamContext} {st : Emit ο}
    (h : Realises S R allowed ops (start ctx) st) :
    Ledger.Realises S R allowed ops ctx st.finish.1 st.finish.2 := by
  obtain ⟨q, hq, hr⟩ := h
  rw [start_result, List.nil_append] at hq
  rw [← hq] at hr
  exact hr

end Realises

section Carries

variable {l ω : Type*} {S : Ledger.OpSystem l ω} {R : l → StreamContext → List ο → Prop}

/-- A helper that goes from `st` to `st'` takes the ledger along the operations `ops`. -/
def Carries (S : Ledger.OpSystem l ω) (R : l → StreamContext → List ο → Prop) (ops : List ω)
    (st st' : Emit ο) : Prop :=
  ∀ b t, R b st.ctx (t ++ st.result) → S.Fits b ops →
    R (S.run b ops) st'.ctx (t ++ st'.result)

theorem Carries.refl (st : Emit ο) : Carries S R [] st st := by
  intro b t hR _
  exact hR

theorem Carries.trans {ops ops' : List ω} {st st' st'' : Emit ο} (h : Carries S R ops st st')
    (h' : Carries S R ops' st' st'') : Carries S R (ops ++ ops') st st'' := by
  intro b t hR hfits
  rw [S.fits_append] at hfits
  rw [S.run_append]
  exact h' _ t (h b t hR hfits.1) hfits.2

theorem Carries.foldl {α : Type*} {f : Emit ο → α → Emit ο} {opsOf : α → List ω}
    (h : ∀ a st, Carries S R (opsOf a) st (f st a)) :
    ∀ (as : List α) (st : Emit ο), Carries S R (as.flatMap opsOf) st (as.foldl f st) := by
  intro as
  induction as with
  | nil => exact Carries.refl
  | cons a as ih => exact fun st => (h a st).trans (ih (f st a))

theorem Carries.finish {ops : List ω} {ctx : StreamContext} {st : Emit ο}
    (h : Carries S R ops (start ctx) st) :
    Ledger.Carries S R ops ctx st.finish.1 st.finish.2 := by
  intro b t hR hfits
  refine h b t ?_ hfits
  rwa [start_result, List.append_nil]

end Carries

end Emit

end AiOpenRouter
