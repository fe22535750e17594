/-
The chat → Claude stream converter (`openai_stream_to_claude`).

At most one of three flags says that a block is open: `thinking_block_started`,
`content_block_started` (text) and `tool_block_started`.  The helpers that open
a block close what the others left open, and advance `content_index`.  They
pass the context and the emitted events along in an `Emit`.
-/
import AiOpenRouter.ClaudeEvents
import AiOpenRouter.ChatChunk

namespace AiOpenRouter

/-- `map_openai_finish_reason`. -/
def mapOpenaiFinishReason (reason : String) : String :=
  match reason with
  | "tool_calls" => "tool_use"
  | "length" => "max_tokens"
  | _ => "end_turn"

/-- `build_usage_delta_event`. -/
def usageDelta (inputTokens outputTokens : ℤ) : ClaudeEvent :=
  .messageDelta (.obj [])
    (.obj [("input_tokens", .int inputTokens), ("output_tokens", .int outputTokens)])

/-- The `message_delta` that carries a stop reason. -/
def stopReasonDelta (stopReason : String) : ClaudeEvent :=
  .messageDelta (.obj [("stop_reason", .str stopReason), ("stop_sequence", .null)])
    (.obj [("output_tokens", .int 0)])

/-! ### Closing blocks -/

/-- `close_text_block`. -/
def closeTextBlock (st : Emit ClaudeEvent) : Emit ClaudeEvent :=
  if st.ctx.contentBlockStarted then
    (st.push (.contentBlockStop st.ctx.contentIndex)).withCtx fun ctx =>
      { ctx with contentBlockStarted := false }
  else st

/-- `close_thinking_block`. -/
def closeThinkingBlock (st : Emit ClaudeEvent) : Emit ClaudeEvent :=
  if st.ctx.thinkingBlockStarted then
    (st.push (.contentBlockStop st.ctx.thinkingIndex)).withCtx fun ctx =>
      { ctx with thinkingBlockStarted := false
                 contentIndex := wrapI32 (ctx.thinkingIndex + 1) }
  else st

/-- `close_tool_block`. -/
def closeToolBlock (st : Emit ClaudeEvent) : Emit ClaudeEvent :=
  if st.ctx.toolBlockStarted then
    (st.push (.contentBlockStop st.ctx.toolIndex)).withCtx fun ctx =>
      { ctx with toolBlockStarted := false }
  else st

/-- `ctx.content_index += 1`. -/
def bumpContentIndex (ctx : StreamContext) : StreamContext :=
  { ctx with contentIndex := wrapI32 (ctx.contentIndex + 1) }

/-- The blocks `if ctx.content_block_started { close_text_block(..); ctx.content_index += 1; }`. -/
def leaveTextBlock (st : Emit ClaudeEvent) : Emit ClaudeEvent :=
  if st.ctx.contentBlockStarted then (closeTextBlock st).withCtx bumpContentIndex else st

/-- The blocks `if ctx.tool_block_started { close_tool_block(..); ctx.content_index += 1; }`. -/
def leaveToolBlock (st : Emit ClaudeEvent) : Emit ClaudeEvent :=
  if st.ctx.toolBlockStarted then (closeToolBlock st).withCtx bumpContentIndex else st

def closeBlocks (st : Emit ClaudeEvent) : Emit ClaudeEvent :=
  closeToolBlock (closeTextBlock (closeThinkingBlock st))

/-! ### Text and thinking -/

/-- The block `if !ctx.content_block_started { … }` of `emit_text_delta`. -/
def ensureTextBlock (st : Emit ClaudeEvent) : Emit ClaudeEvent :=
  if st.ctx.contentBlockStarted then st
  else
    (st.withCtx fun ctx => { ctx with contentBlockStarted := true }).push
      (.contentBlockStart st.ctx.contentIndex (.text ""))

/-- `emit_text_delta`. -/
def emitTextDelta (text : String) (st : Emit ClaudeEvent) : Emit ClaudeEvent :=
  if text = "" then st
  else
    let st := ensureTextBlock (leaveToolBlock (closeThinkingBlock st))
    st.push (.contentBlockDelta st.ctx.contentIndex (.textDelta text))

/-- The block `if !ctx.thinking_block_started { … }` of `emit_thinking_delta`. -/
def ensureThinkingBlock (st : Emit ClaudeEvent) : Emit ClaudeEvent :=
  if st.ctx.thinkingBlockStarted then st
  else
    (st.withCtx fun ctx =>
      { ctx with thinkingBlockStarted := true, thinkingIndex := ctx.contentIndex }).push
      (.contentBlockStart st.ctx.contentIndex (.thinking ""))

/-- `emit_thinking_delta`. -/
def emitThinkingDelta (text : String) (st : Emit ClaudeEvent) : Emit ClaudeEvent :=
  if text = "" then st
  else
    let st := ensureThinkingBlock (leaveToolBlock (leaveTextBlock st))
    st.push (.contentBlockDelta st.ctx.thinkingIndex (.thinkingDelta text))

/-! ### Tool calls -/

/-- The `content_block_start` of the current tool call. -/
def toolBlockStart (ctx : StreamContext) : ClaudeEvent :=
  .contentBlockStart ctx.toolIndex
    (.toolUse ctx.currentToolId ctx.currentToolName (some (.obj [])))

def openToolCall (toolCall : OpenAIToolCall) (st : Emit ClaudeEvent) : Emit ClaudeEvent :=
  if toolCall.id = "" then st
  else
    let st := leaveToolBlock (leaveTextBlock (closeThinkingBlock st))
    let st := st.withCtx fun ctx =>
      { ctx with toolBlockStarted := true, toolIndex := ctx.contentIndex
                 currentToolId := toolCall.id, currentToolName := toolCall.function.name
                 toolArguments := "" }
    st.push (toolBlockStart st.ctx)

def ensureToolBlock (toolCall : OpenAIToolCall) (st : Emit ClaudeEvent) : Emit ClaudeEvent :=
  if st.ctx.toolBlockStarted then st
  else
    let st := st.withCtx fun ctx =>
      { ctx with toolBlockStarted := true, toolIndex := ctx.contentIndex }
    let st := st.withCtx fun ctx =>
      { ctx with
        currentToolId :=
          if ctx.currentToolId = "" then "tool_" ++ toString ctx.toolIndex else ctx.currentToolId
        currentToolName :=
          if ctx.currentToolName = "" then
            if toolCall.function.name = "" then "unknown" else toolCall.function.name
          else ctx.currentToolName }
    st.push (toolBlockStart st.ctx)

def emitToolArguments (toolCall : OpenAIToolCall) (st : Emit ClaudeEvent) : Emit ClaudeEvent :=
  if toolCall.function.arguments = "" then st
  else
    let st := ensureToolBlock toolCall st
    let st := st.withCtx fun ctx =>
      { ctx with toolArguments := ctx.toolArguments ++ toolCall.function.arguments }
    st.push (.contentBlockDelta st.ctx.toolIndex (.inputJsonDelta toolCall.function.arguments))

/-- One iteration over `tool_calls`. -/
def onToolCall (st : Emit ClaudeEvent) (toolCall : OpenAIToolCall) : Emit ClaudeEvent :=
  emitToolArguments toolCall (openToolCall toolCall st)

/-! ### The converter -/

/-- `message_start`, before the first chunk. -/
def emitChatMessageStart (env : Env) (chunk : OpenAIStreamChunk) (st : Emit ClaudeEvent) :
    Emit ClaudeEvent :=
  let st :=
    if chunk.id = "" ∧ st.ctx.messageId = "" then
      st.withCtx fun ctx =>
        { ctx with messageId := "msg_" ++ env.uuidV4 ctx.uuidsDrawn
                   uuidsDrawn := ctx.uuidsDrawn + 1 }
    else st
  let messageId := if chunk.id = "" then st.ctx.messageId else chunk.id
  if st.ctx.messageStartSent then st
  else
    let st := st.withCtx fun ctx => { ctx with messageStartSent := true, messageId := messageId }
    let modelName := if chunk.model = "" then st.ctx.modelName else chunk.model
    st.push (.messageStart (.obj
      [("id", .str messageId), ("type", .str "message"), ("role", .str "assistant"),
       ("content", .arr []), ("model", .str modelName), ("stop_reason", .null),
       ("stop_sequence", .null),
       ("usage", .obj [("input_tokens", .int 0), ("output_tokens", .int 0)])]))

theorem drawMessageId_eq (env : Env) (chunk : OpenAIStreamChunk) (st : Emit ClaudeEvent) :
    ∃ id drawn, (if chunk.id = "" ∧ st.ctx.messageId = "" then
      st.withCtx fun ctx => { ctx with messageId := "msg_" ++ env.uuidV4 ctx.uuidsDrawn
                                       uuidsDrawn := ctx.uuidsDrawn + 1 }
      else st) = ⟨{ st.ctx with messageId := id, uuidsDrawn := drawn }, st.result⟩ := by
  split_ifs
  · exact ⟨_, _, rfl⟩
  · exact ⟨st.ctx.messageId, st.ctx.uuidsDrawn, rfl⟩

theorem emitChatMessageStart_cases (env : Env) (chunk : OpenAIStreamChunk)
    (st : Emit ClaudeEvent) :
    (st.ctx.messageStartSent = true ∧ ∃ id drawn, emitChatMessageStart env chunk st
      = ⟨{ st.ctx with messageId := id, uuidsDrawn := drawn }, st.result⟩) ∨
    (st.ctx.messageStartSent = false ∧ ∃ id drawn message, emitChatMessageStart env chunk st
      = ⟨{ st.ctx with messageStartSent := true, messageId := id, uuidsDrawn := drawn },
         st.result ++ [.messageStart message]⟩) := by
  obtain ⟨id, drawn, heq⟩ := drawMessageId_eq env chunk st
  rw [emitChatMessageStart]
  simp only [heq]
  rcases hsent : st.ctx.messageStartSent with _ | _
  · exact Or.inr ⟨rfl, _, drawn, _, rfl⟩
  · refine Or.inl ⟨rfl, id, drawn, ?_⟩
    rw [if_pos rfl]

def emitUsage (usage : Option OpenAIUsage) (st : Emit ClaudeEvent) : Emit ClaudeEvent :=
  match usage with
  | some usage => st.push (usageDelta usage.promptTokens usage.completionTokens)
  | none => st

/-- The `finish_reason` of a choice: close the blocks and send the stop reason, once. -/
def onFinishReason (finishReason : Option String) (st : Emit ClaudeEvent) : Emit ClaudeEvent :=
  match finishReason with
  | none => st
  | some reason =>
    if reason ≠ "" ∧ st.ctx.finishReasonSent = false then
      ((closeBlocks st).push (stopReasonDelta (mapOpenaiFinishReason reason))).withCtx fun ctx =>
        { ctx with finishReasonSent := true }
    else st

/-- Whether a chunk with usage carries nothing else (the source's `has_payload`). -/
def isUsageOnly (choice : OpenAIStreamChoice) : Bool :=
  choice.delta.role.getD "" = "" && choice.delta.content.getD "" = "" &&
    choice.delta.reasoningContent.getD "" = "" &&
    (choice.delta.toolCalls.map List.isEmpty).getD true && choice.finishReason.isNone

def onChoice (choice : OpenAIStreamChoice) (st : Emit ClaudeEvent) : Emit ClaudeEvent :=
  let st :=
    match choice.delta.reasoningContent with
    | some reasoning => emitThinkingDelta reasoning st
    | none => st
  let st :=
    match choice.delta.content with
    | some text => emitTextDelta text st
    | none => st
  let st := (choice.delta.toolCalls.getD []).foldl onToolCall st
  onFinishReason choice.finishReason st

theorem onChoice_elim (choice : OpenAIStreamChoice) (st : Emit ClaudeEvent) :
    onChoice choice st =
      let st := choice.delta.reasoningContent.elim st fun reasoning =>
        emitThinkingDelta reasoning st
      let st := choice.delta.content.elim st fun text => emitTextDelta text st
      onFinishReason choice.finishReason
        ((choice.delta.toolCalls.getD []).foldl onToolCall st) := by
  unfold onChoice
  cases choice.delta.reasoningContent <;> cases choice.delta.content <;> rfl

def convertChatChunk (env : Env) (chunk : OpenAIStreamChunk) (st : Emit ClaudeEvent) :
    Emit ClaudeEvent :=
  let st := emitChatMessageStart env chunk st
  match chunk.choices with
  | [] => emitUsage chunk.usage st
  | choice :: _ =>
    if chunk.usage.isSome && isUsageOnly choice then emitUsage chunk.usage st
    else emitUsage chunk.usage (onChoice choice st)

/-- `finalize_openai_stream_to_claude`. -/
def finalizeOpenaiStreamToClaude (ctx : StreamContext) : List ClaudeEvent × StreamContext :=
  let st := closeBlocks (Emit.start ctx)
  let st :=
    if st.ctx.messageStartSent ∧ st.ctx.finishReasonSent = false then
      (st.push (stopReasonDelta "end_turn")).withCtx fun ctx =>
        { ctx with finishReasonSent := true }
    else st
  let st := if st.ctx.messageStartSent then st.push .messageStop else st
  st.finish

/-- `openai_stream_to_claude`. -/
def openaiStreamToClaude (env : Env) (event : Bytes) (ctx : StreamContext) :
    Except String (List ClaudeEvent × StreamContext) :=
  match readChatInput env event with
  | .skip => .ok ([], ctx)
  | .done => .ok (finalizeOpenaiStreamToClaude ctx)
  | .chunk chunk => .ok (convertChatChunk env chunk (Emit.start ctx)).finish
  | .bad error => .error error

/-- Whether an upstream block is read without an error. -/
def acceptsChat (env : Env) (event : Bytes) : Bool :=
  match readChatInput env event with
  | .bad _ => false
  | _ => true

theorem openaiStreamToClaude_of_accepts {env : Env} {event : Bytes}
    (h : acceptsChat env event = true) (ctx : StreamContext) :
    ∃ r, openaiStreamToClaude env event ctx = .ok r := by
  rw [acceptsChat] at h
  rw [openaiStreamToClaude]
  rcases hread : readChatInput env event with _ | _ | chunk | error
  case bad => exact absurd h (by simp [hread])
  all_goals exact ⟨_, rfl⟩

theorem openaiStreamToClaude_of_not_accepts {env : Env} {event : Bytes}
    (h : acceptsChat env event = false) (ctx : StreamContext) :
    ∃ e, openaiStreamToClaude env event ctx = .error e := by
  rw [acceptsChat] at h
  rw [openaiStreamToClaude]
  rcases hread : readChatInput env event with _ | _ | chunk | error
  case bad => exact ⟨error, rfl⟩
  all_goals exact absurd h (by simp [hread])

/-! ### The finaliser -/

theorem closeBlocks_spec (st : Emit ClaudeEvent) :
    ∃ q, (closeBlocks st).result = st.result ++ q ∧ (∀ e ∈ q, ∃ i, e = .contentBlockStop i) ∧
      (closeBlocks st).ctx.messageStartSent = st.ctx.messageStartSent ∧
      (closeBlocks st).ctx.finishReasonSent = st.ctx.finishReasonSent ∧
      (closeBlocks st).ctx.thinkingBlockStarted = false ∧
      (closeBlocks st).ctx.contentBlockStarted = false ∧
      (closeBlocks st).ctx.toolBlockStarted = false := by
  rw [closeBlocks, closeThinkingBlock]
  rcases hthinking : st.ctx.thinkingBlockStarted with _ | _ <;>
    rcases hcontent : st.ctx.contentBlockStarted with _ | _ <;>
    rcases htool : st.ctx.toolBlockStarted with _ | _ <;>
    simp [closeTextBlock, closeToolBlock, hthinking, hcontent, htool]

variable {ctx : StreamContext}

theorem closeBlocks_of_closed (hthinking : ctx.thinkingBlockStarted = false)
    (hcontent : ctx.contentBlockStarted = false) (htool : ctx.toolBlockStarted = false) :
    closeBlocks (Emit.start ctx) = Emit.start ctx := by
  rw [closeBlocks, closeThinkingBlock, Emit.start_ctx, hthinking, if_neg (by simp),
    closeTextBlock, Emit.start_ctx, hcontent, if_neg (by simp),
    closeToolBlock, Emit.start_ctx, htool, if_neg (by simp)]

theorem finalizeOpenaiStreamToClaude_of_started (h : ctx.messageStartSent = true) :
    ∃ pre, (finalizeOpenaiStreamToClaude ctx).1 = pre ++ [.messageStop] ∧ .messageStop ∉ pre ∧
      (finalizeOpenaiStreamToClaude ctx).2.messageStartSent = true := by
  obtain ⟨q, hq, hstops, hsent, hfinish, -⟩ := closeBlocks_spec (Emit.start ctx)
  rw [Emit.start_result, List.nil_append] at hq
  rw [Emit.start_ctx, h] at hsent
  have hmem : .messageStop ∉ q := by
    intro hmem
    obtain ⟨i, hi⟩ := hstops _ hmem
    exact absurd hi (by simp)
  rw [finalizeOpenaiStreamToClaude]
  rcases hfinished : (closeBlocks (Emit.start ctx)).ctx.finishReasonSent with _ | _
  · refine ⟨q ++ [stopReasonDelta "end_turn"], ?_, ?_, ?_⟩
    · simp [hsent, Emit.finish, hq]
    · simp [hmem, stopReasonDelta]
    · simp [hsent, Emit.finish]
  · refine ⟨q, ?_, hmem, ?_⟩
    · simp [hsent, Emit.finish, hq]
    · simp [hsent, Emit.finish]

theorem finalizeOpenaiStreamToClaude_of_not_started (h : ctx.messageStartSent = false) :
    .messageStop ∉ (finalizeOpenaiStreamToClaude ctx).1 ∧
    (finalizeOpenaiStreamToClaude ctx).2.messageStartSent = false ∧
    (finalizeOpenaiStreamToClaude (finalizeOpenaiStreamToClaude ctx).2).1 = [] := by
  obtain ⟨q, hq, hstops, hsent, -, hthinking, hcontent, htool⟩ := closeBlocks_spec (Emit.start ctx)
  rw [Emit.start_result, List.nil_append] at hq
  rw [Emit.start_ctx, h] at hsent
  have heq : finalizeOpenaiStreamToClaude ctx = (q, (closeBlocks (Emit.start ctx)).ctx) := by
    rw [finalizeOpenaiStreamToClaude]
    simp [hsent, Emit.finish, hq]
  rw [heq]
  refine ⟨fun hmem => ?_, hsent, ?_⟩
  · obtain ⟨i, hi⟩ := hstops _ hmem
    exact absurd hi (by simp)
  · rw [finalizeOpenaiStreamToClaude, closeBlocks_of_closed hthinking hcontent htool]
    simp [hsent, Emit.finish]

/-- The events that a sequence of upstream blocks is converted to, from a fresh context. -/
def chatToClaudeRun (env : Env) (events : List Bytes) :
    Trace.Outcome ClaudeEvent StreamContext String :=
  Trace.feed (openaiStreamToClaude env) StreamContext.new events

end AiOpenRouter
