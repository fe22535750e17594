/-
The Responses → Claude stream converter (`openai_responses_stream_to_claude`).

One call converts one upstream event block.  The branches of the source's
`match` on the event name are definitions of their own, from `onCreated` to
`onCompleted`; they pass the context and the emitted events along in an `Emit`.

Content events share their index bookkeeping (`resolveContentIndex`), tool
events theirs (`toolIndexOfEvent`), and four branches start a block unless its
index is open (`startUnlessOpen`).
-/
import AiOpenRouter.ClaudeEvents

namespace AiOpenRouter

/-! ### Usage and stop reason -/

/-- `map_responses_stop_reason`. -/
def mapResponsesStopReason (status : Option String) (hasToolUse : Bool)
    (incompleteReason : Option String) : String :=
  match status.getD "completed" with
  | "completed" => if hasToolUse then "tool_use" else "end_turn"
  | "incomplete" =>
    if incompleteReason = some "max_output_tokens" ∨ incompleteReason = some "max_tokens" ∨
        incompleteReason = none then "max_tokens"
    else "end_turn"
  | _ => "end_turn"

/-- `build_anthropic_usage_from_responses`. -/
def buildAnthropicUsageFromResponses (usage : Option Json) : Json :=
  match usage with
  | none | some .null => .obj [("input_tokens", .int 0), ("output_tokens", .int 0)]
  | some u =>
    let inputTokens := (u.getI64 "input_tokens").getD 0
    let outputTokens := (u.getI64 "output_tokens").getD 0
    let usageJson : List (String × Json) :=
      [("input_tokens", .int inputTokens), ("output_tokens", .int outputTokens)]
    let usageJson :=
      match (u.pointer ["input_tokens_details", "cached_tokens"]).bind Json.asI64 with
      | some cached => Json.insertField usageJson "cache_read_input_tokens" (.int cached)
      | none =>
        match (u.pointer ["prompt_tokens_details", "cached_tokens"]).bind Json.asI64 with
        | some cached => Json.insertField usageJson "cache_read_input_tokens" (.int cached)
        | none => usageJson
    let usageJson :=
      match u.get "cache_read_input_tokens" with
      | some v => Json.insertField usageJson "cache_read_input_tokens" v
      | none => usageJson
    let usageJson :=
      match u.get "cache_creation_input_tokens" with
      | some v => Json.insertField usageJson "cache_creation_input_tokens" v
      | none => usageJson
    .obj usageJson

/-! ### Keys and indices -/

/-- `response_object_from_event`. -/
def responseObjectFromEvent (data : Json) : Json := (data.get "response").getD data

/-- `content_part_key`. -/
def contentPartKey (data : Json) : Option String :=
  match data.getStr "item_id", data.getI64 "content_index" with
  | some itemId, some contentIndex =>
    some ("part:" ++ itemId ++ ":" ++ toString contentIndex)
  | _, _ =>
    match data.getI64 "output_index", data.getI64 "content_index" with
    | some outputIndex, some contentIndex =>
      some ("part:out:" ++ toString outputIndex ++ ":" ++ toString contentIndex)
    | _, _ => none

/-- `tool_item_key_from_event`. -/
def toolItemKeyFromEvent (data : Json) : Option String :=
  match data.getStr "item_id" with
  | some itemId => some ("tool:" ++ itemId)
  | none =>
    match data.getI64 "output_index" with
    | some outputIndex => some ("tool:out:" ++ toString outputIndex)
    | none => none

/-- `tool_item_key_from_added`. -/
def toolItemKeyFromAdded (data item : Json) : Option String :=
  match item.getStr "id" with
  | some itemId => some ("tool:" ++ itemId)
  | none => toolItemKeyFromEvent data

/-- `next_index`. -/
def nextIndex (ctx : StreamContext) : ℤ × StreamContext :=
  (ctx.responsesNextContentIndex,
   { ctx with responsesNextContentIndex := wrapI32 (ctx.responsesNextContentIndex + 1) })

def indexForKey (ctx : StreamContext) (key : String) : ℤ × StreamContext :=
  match ctx.responsesIndexByKey key with
  | some existing => (existing, ctx)
  | none =>
    let (assigned, ctx) := nextIndex ctx
    (assigned, { ctx with
      responsesIndexByKey := Function.update ctx.responsesIndexByKey key (some assigned) })

def contentTarget (ctx : StreamContext) (data : Json) : Option ℤ :=
  match contentPartKey data with
  | some key => ctx.responsesIndexByKey key
  | none => ctx.responsesFallbackOpenIndex

/-- `resolve_content_index`. -/
def resolveContentIndex (ctx : StreamContext) (data : Json) : ℤ × StreamContext :=
  match contentPartKey data with
  | some key => indexForKey ctx key
  | none =>
    match ctx.responsesFallbackOpenIndex with
    | some existing => (existing, ctx)
    | none =>
      let (assigned, ctx) := nextIndex ctx
      (assigned, { ctx with responsesFallbackOpenIndex := some assigned })

def toolIndexOfEvent (ctx : StreamContext) (data : Json) : Option ℤ :=
  ((data.getStr "item_id").bind ctx.responsesToolIndexByItemId
    <|> (toolItemKeyFromEvent data).bind ctx.responsesIndexByKey)
    <|> ctx.responsesLastToolIndex

/-! ### Context updates -/

/-- `ctx.responses_has_tool_use = true`. -/
def setHasToolUse (ctx : StreamContext) : StreamContext :=
  { ctx with responsesHasToolUse := true }

/-- `ctx.responses_last_tool_index = Some(index)`. -/
def setLastToolIndex (index : ℤ) (ctx : StreamContext) : StreamContext :=
  { ctx with responsesLastToolIndex := some index }

/-- Insert into `responses_tool_index_by_item_id`, when there is an item id. -/
def setToolIndex (itemId : Option String) (index : ℤ) (ctx : StreamContext) : StreamContext :=
  match itemId with
  | some itemId =>
    { ctx with responsesToolIndexByItemId :=
        Function.update ctx.responsesToolIndexByItemId itemId (some index) }
  | none => ctx

/-- Remove from `responses_tool_index_by_item_id`, when there is an item id. -/
def removeToolIndex (itemId : Option String) (ctx : StreamContext) : StreamContext :=
  match itemId with
  | some itemId =>
    { ctx with responsesToolIndexByItemId :=
        Function.update ctx.responsesToolIndexByItemId itemId none }
  | none => ctx

/-- `responses_tool_index_by_item_id.clear()` and the two slots set to `None`. -/
def clearToolIndices (ctx : StreamContext) : StreamContext :=
  { ctx with responsesToolIndexByItemId := fun _ => none
             responsesLastToolIndex := none
             responsesFallbackOpenIndex := none }

/-- `ctx.responses_fallback_open_index = None`. -/
def clearFallback (ctx : StreamContext) : StreamContext :=
  { ctx with responsesFallbackOpenIndex := none }

/-- `ctx.finish_reason_sent = true`. -/
def setFinishReasonSent (ctx : StreamContext) : StreamContext :=
  { ctx with finishReasonSent := true }

/-- The message id and the model of a `response.created`. -/
def setMessageIdAndModel (id model : Option String) (ctx : StreamContext) : StreamContext :=
  { ctx with messageId := id.getD ctx.messageId, modelName := model.getD ctx.modelName }

/-- The output tokens of a usage object, as an `i32`. -/
def setOutputTokens (outputTokens : Option ℤ) (ctx : StreamContext) : StreamContext :=
  { ctx with outputTokens := (outputTokens.map wrapI32).getD ctx.outputTokens }

/-! ### Emitting helpers -/

/-- `emit_message_start_if_needed`. -/
def emitMessageStartIfNeeded (env : Env) (usage : Option Json) (st : Emit ClaudeEvent) :
    Emit ClaudeEvent :=
  if st.ctx.messageStartSent then st
  else
    let ctx := st.ctx
    let ctx :=
      if ctx.messageId = "" then
        { ctx with messageId := "msg_" ++ env.uuidV4 ctx.uuidsDrawn
                   uuidsDrawn := ctx.uuidsDrawn + 1 }
      else ctx
    let usageJson := buildAnthropicUsageFromResponses usage
    let ctx :=
      match usageJson.getI64 "input_tokens" with
      | some inputTokens => { ctx with inputTokens := wrapI32 inputTokens }
      | none => ctx
    let st : Emit ClaudeEvent := { st with ctx := ctx }
    let st := st.push (.messageStart (.obj
      [("id", .str ctx.messageId), ("type", .str "message"), ("role", .str "assistant"),
       ("content", .arr []), ("model", .str ctx.modelName), ("stop_reason", .null),
       ("stop_sequence", .null), ("usage", usageJson)]))
    st.withCtx fun ctx => { ctx with messageStartSent := true }

/-- The blocks `if !ctx.responses_open_indices.contains(&index) { … }` of four branches. -/
def startUnlessOpen (index : ℤ) (block : ClaudeBlock) (st : Emit ClaudeEvent) :
    Emit ClaudeEvent :=
  if index ∈ st.ctx.responsesOpenIndices then st
  else
    (st.push (.contentBlockStart index block)).withCtx fun ctx =>
      { ctx with responsesOpenIndices := insert index ctx.responsesOpenIndices }

/-- `close_open_index`. -/
def closeOpenIndex (st : Emit ClaudeEvent) (index : ℤ) : Emit ClaudeEvent :=
  if index ∈ st.ctx.responsesOpenIndices then
    let st := st.withCtx fun ctx =>
      { ctx with responsesOpenIndices := ctx.responsesOpenIndices.erase index }
    let st := st.push (.contentBlockStop index)
    if st.ctx.responsesFallbackOpenIndex = some index then
      st.withCtx fun ctx => { ctx with responsesFallbackOpenIndex := none }
    else st
  else st

/-- `close_all_open_indices`. -/
def closeAllOpenIndices (st : Emit ClaudeEvent) : Emit ClaudeEvent :=
  (st.ctx.responsesOpenIndices.sort (· ≤ ·)).foldl closeOpenIndex st

/-- `finalize_openai_responses_stream_to_claude_done`. -/
def finalizeOpenaiResponsesStreamToClaudeDone (st : Emit ClaudeEvent) : Emit ClaudeEvent :=
  let st := closeAllOpenIndices st
  let st := st.withCtx clearToolIndices
  if !st.ctx.finishReasonSent && st.ctx.messageStartSent then
    (st.push .messageStop).withCtx setFinishReasonSent
  else st

/-- `finalize_openai_responses_stream_to_claude`. -/
def finalizeOpenaiResponsesStreamToClaude (ctx : StreamContext) :
    List ClaudeEvent × StreamContext :=
  if ctx.finishReasonSent ∨
      (¬ ctx.messageStartSent ∧ ctx.responsesOpenIndices = ∅ ∧ ¬ ctx.toolBlockStarted ∧
        ¬ ctx.contentBlockStarted ∧ ¬ ctx.thinkingBlockStarted) then ([], ctx)
  else (finalizeOpenaiResponsesStreamToClaudeDone (Emit.start ctx)).finish

/-! ### The branches -/

/-- `response.created`. -/
def onCreated (env : Env) (data : Json) (st : Emit ClaudeEvent) : Emit ClaudeEvent :=
  let responseObj := responseObjectFromEvent data
  let st := st.withCtx
    (setMessageIdAndModel (responseObj.getStr "id") (responseObj.getStr "model"))
  emitMessageStartIfNeeded env (responseObj.get "usage") st

/-- `response.content_part.added`. -/
def onContentPartAdded (env : Env) (data : Json) (st : Emit ClaudeEvent) : Emit ClaudeEvent :=
  match data.get "part" with
  | none => st
  | some part =>
    if part.getStr "type" = some "output_text" ∨ part.getStr "type" = some "refusal" then
      let st := emitMessageStartIfNeeded env none st
      let (index, ctx) := resolveContentIndex st.ctx data
      startUnlessOpen index (.text "") { st with ctx := ctx }
    else st

def emitContentDelta (env : Env) (data : Json) (block : ClaudeBlock) (delta : ClaudeDelta)
    (st : Emit ClaudeEvent) : Emit ClaudeEvent :=
  let st := emitMessageStartIfNeeded env none st
  let (index, ctx) := resolveContentIndex st.ctx data
  (startUnlessOpen index block { st with ctx := ctx }).push (.contentBlockDelta index delta)

/-- `response.output_text.delta` and `response.refusal.delta`. -/
def onOutputTextDelta (env : Env) (data : Json) (st : Emit ClaudeEvent) : Emit ClaudeEvent :=
  match data.getStr "delta" with
  | some delta => emitContentDelta env data (.text "") (.textDelta delta) st
  | none => st

/-- The text of a `response.reasoning.delta`: `delta`, or `text` when there is no `delta`. -/
def reasoningText (data : Json) : Option String :=
  (data.get "delta" <|> data.get "text").bind Json.asStr

/-- `response.reasoning.delta`. -/
def onReasoningDelta (env : Env) (data : Json) (st : Emit ClaudeEvent) : Emit ClaudeEvent :=
  match reasoningText data with
  | some delta => emitContentDelta env data (.thinking "") (.thinkingDelta delta) st
  | none => st

/-- `response.content_part.done`, `response.refusal.done` and `response.reasoning.done`. -/
def onContentPartDone (data : Json) (st : Emit ClaudeEvent) : Emit ClaudeEvent :=
  match contentTarget st.ctx data with
  | some index => closeOpenIndex st index
  | none => st

def addedTarget (ctx : StreamContext) (data item : Json) : Option ℤ :=
  (toolItemKeyFromAdded data item).bind ctx.responsesIndexByKey

def resolveAddedIndex (ctx : StreamContext) (data item : Json) : ℤ × StreamContext :=
  match toolItemKeyFromAdded data item with
  | some key => indexForKey ctx key
  | none => nextIndex ctx

def addedItemId (data item : Json) : Option String :=
  item.getStr "id" <|> data.getStr "item_id"

/-- The `tool_use` block of an added function call. -/
def addedToolUse (item : Json) : ClaudeBlock :=
  .toolUse (((item.get "call_id" <|> item.get "id").bind Json.asStr).getD "")
    ((item.getStr "name").getD "") none

/-- `response.output_item.added`. -/
def onOutputItemAdded (env : Env) (data : Json) (st : Emit ClaudeEvent) : Emit ClaudeEvent :=
  match data.get "item" with
  | none => st
  | some item =>
    if item.getStr "type" = some "function_call" then
      let st := emitMessageStartIfNeeded env none (st.withCtx setHasToolUse)
      let (index, ctx) := resolveAddedIndex st.ctx data item
      let ctx := setLastToolIndex index (setToolIndex (addedItemId data item) index ctx)
      startUnlessOpen index (addedToolUse item) { st with ctx := ctx }
    else st

def resolveArgumentsIndex (ctx : StreamContext) (data : Json) : ℤ × StreamContext :=
  match toolIndexOfEvent ctx data with
  | some index => (index, ctx)
  | none => nextIndex ctx

/-- `response.function_call_arguments.delta`. -/
def onArgumentsDelta (env : Env) (data : Json) (st : Emit ClaudeEvent) : Emit ClaudeEvent :=
  match data.getStr "delta" with
  | none => st
  | some delta =>
    let st := emitMessageStartIfNeeded env none st
    let (index, ctx) := resolveArgumentsIndex st.ctx data
    let ctx := setLastToolIndex index ctx
    let block : ClaudeBlock :=
      .toolUse ((data.getStr "call_id" <|> data.getStr "item_id").getD "")
        ((data.getStr "name").getD "") none
    (startUnlessOpen index block { st with ctx := ctx }).push
      (.contentBlockDelta index (.inputJsonDelta delta))

/-- `response.function_call_arguments.done`. -/
def onArgumentsDone (data : Json) (st : Emit ClaudeEvent) : Emit ClaudeEvent :=
  match toolIndexOfEvent st.ctx data with
  | none => st
  | some index =>
    let st := closeOpenIndex st index
    st.withCtx (removeToolIndex (data.getStr "item_id"))

/-- `response.completed`. -/
def onCompleted (env : Env) (data : Json) (st : Emit ClaudeEvent) : Emit ClaudeEvent :=
  if st.ctx.finishReasonSent then st
  else
    let responseObj := responseObjectFromEvent data
    let st := emitMessageStartIfNeeded env (responseObj.get "usage") st
    let st := closeAllOpenIndices st
    let st := st.withCtx clearFallback
    let stopReason := mapResponsesStopReason (responseObj.getStr "status")
      st.ctx.responsesHasToolUse
      ((responseObj.pointer ["incomplete_details", "reason"]).bind Json.asStr)
    let usageJson := buildAnthropicUsageFromResponses (responseObj.get "usage")
    let st := st.withCtx (setOutputTokens (usageJson.getI64 "output_tokens"))
    let st := st.push (.messageDelta
      (.obj [("stop_reason", .str stopReason), ("stop_sequence", .null)]) usageJson)
    (st.push .messageStop).withCtx setFinishReasonSent

/-- The `match` on the event name. -/
def convertResponsesEvent (env : Env) (eventName : String) (data : Json)
    (st : Emit ClaudeEvent) : Emit ClaudeEvent :=
  match eventName with
  | "response.created" => onCreated env data st
  | "response.content_part.added" => onContentPartAdded env data st
  | "response.output_text.delta" | "response.refusal.delta" => onOutputTextDelta env data st
  | "response.content_part.done" | "response.refusal.done" | "response.reasoning.done" =>
    onContentPartDone data st
  | "response.output_item.added" => onOutputItemAdded env data st
  | "response.function_call_arguments.delta" => onArgumentsDelta env data st
  | "response.function_call_arguments.done" => onArgumentsDone data st
  | "response.reasoning.delta" => onReasoningDelta env data st
  | "response.completed" => onCompleted env data st
  -- `response.output_text.done`, `response.output_item.done`, `response.in_progress`
  -- and unknown events have no Claude counterpart
  | _ => st

/-! ### What the helpers do -/

variable (env : Env) (st : Emit ClaudeEvent) (ctx : StreamContext) (index : ℤ) (usage : Option Json)
  (data : Json)

theorem emitMessageStartIfNeeded_cases (st : Emit ClaudeEvent) :
    (st.ctx.messageStartSent = true ∧ emitMessageStartIfNeeded env usage st = st) ∨
    (st.ctx.messageStartSent = false ∧ ∃ message id drawn tokens,
      emitMessageStartIfNeeded env usage st
        = ⟨{ st.ctx with messageStartSent := true, messageId := id, uuidsDrawn := drawn,
                         inputTokens := tokens },
           st.result ++ [.messageStart message]⟩) := by
  by_cases hs : st.ctx.messageStartSent = true
  · exact Or.inl ⟨hs, by rw [emitMessageStartIfNeeded, if_pos hs]⟩
  · refine Or.inr ⟨by simpa using hs, ?_⟩
    rw [emitMessageStartIfNeeded, if_neg hs]
    by_cases hid : st.ctx.messageId = ""
    · rcases hu : (buildAnthropicUsageFromResponses usage).getI64 "input_tokens" with _ | n
      · simp only [hid, hu, if_true]
        exact ⟨_, _, _, _, rfl⟩
      · simp only [hid, hu, if_true]
        exact ⟨_, _, _, _, rfl⟩
    · rcases hu : (buildAnthropicUsageFromResponses usage).getI64 "input_tokens" with _ | n
      · simp only [hid, hu, if_false]
        exact ⟨_, _, _, _, rfl⟩
      · simp only [hid, hu, if_false]
        exact ⟨_, _, _, _, rfl⟩

@[simp] theorem emitMessageStartIfNeeded_finishReasonSent (st : Emit ClaudeEvent) :
    (emitMessageStartIfNeeded env usage st).ctx.finishReasonSent = st.ctx.finishReasonSent := by
  rcases emitMessageStartIfNeeded_cases env usage st with ⟨-, heq⟩ | ⟨-, _, _, _, _, heq⟩
  · rw [heq]
  · rw [heq]

/-- What comes before the work of a branch: at most a `message_start`, and no index
is touched. -/
def Preamble (st st' : Emit ClaudeEvent) : Prop :=
  ∃ (q : List ClaudeEvent) (started hasToolUse : Bool) (id : String) (drawn : ℕ) (tokens : ℤ),
    (∀ e ∈ q, ∃ message, e = .messageStart message) ∧
    st' = ⟨{ st.ctx with messageStartSent := started, responsesHasToolUse := hasToolUse,
                         messageId := id, uuidsDrawn := drawn, inputTokens := tokens },
           st.result ++ q⟩

theorem preamble_emitMessageStart (st : Emit ClaudeEvent) :
    Preamble st (emitMessageStartIfNeeded env usage st) := by
  rcases emitMessageStartIfNeeded_cases env usage st with ⟨-, heq⟩ | ⟨-, message, _, _, _, heq⟩
  · refine ⟨[], st.ctx.messageStartSent, st.ctx.responsesHasToolUse, st.ctx.messageId,
      st.ctx.uuidsDrawn, st.ctx.inputTokens, by simp, ?_⟩
    rw [heq, List.append_nil]
  · exact ⟨[.messageStart message], _, _, _, _, _, by simp, heq⟩

theorem preamble_hasToolUse (st : Emit ClaudeEvent) :
    Preamble st (emitMessageStartIfNeeded env usage (st.withCtx setHasToolUse)) := by
  obtain ⟨q, _, _, _, _, _, hq, heq⟩ :=
    preamble_emitMessageStart env usage (st.withCtx setHasToolUse)
  exact ⟨q, _, _, _, _, _, hq, heq⟩

/-- What `close_open_index` does: nothing when the index is not open, otherwise
one `content_block_stop`, the index leaving the open set and the fallback slot. -/
theorem closeOpenIndex_cases :
    (index ∉ st.ctx.responsesOpenIndices ∧ closeOpenIndex st index = st) ∨
    (index ∈ st.ctx.responsesOpenIndices ∧
      closeOpenIndex st index
        = ⟨{ st.ctx with
              responsesOpenIndices := st.ctx.responsesOpenIndices.erase index
              responsesFallbackOpenIndex :=
                if st.ctx.responsesFallbackOpenIndex = some index then none
                else st.ctx.responsesFallbackOpenIndex },
           st.result ++ [.contentBlockStop index]⟩) := by
  by_cases hmem : index ∈ st.ctx.responsesOpenIndices
  · refine Or.inr ⟨hmem, ?_⟩
    rw [closeOpenIndex, if_pos hmem]
    by_cases hfb : st.ctx.responsesFallbackOpenIndex = some index
    · simp [Emit.withCtx, Emit.push, hfb]
    · simp [Emit.withCtx, Emit.push, hfb]
  · exact Or.inl ⟨hmem, by rw [closeOpenIndex, if_neg hmem]⟩

theorem closeOpenIndex_flags :
    (closeOpenIndex st index).ctx.messageStartSent = st.ctx.messageStartSent ∧
    (closeOpenIndex st index).ctx.finishReasonSent = st.ctx.finishReasonSent := by
  rcases closeOpenIndex_cases st index with ⟨-, heq⟩ | ⟨-, heq⟩
  · rw [heq]
    exact ⟨rfl, rfl⟩
  · rw [heq]
    exact ⟨rfl, rfl⟩

theorem closeOpenIndex_foldl_open (indices : List ℤ) (st : Emit ClaudeEvent) :
    (indices.foldl closeOpenIndex st).ctx.responsesOpenIndices
      = st.ctx.responsesOpenIndices \ indices.toFinset := by
  induction indices generalizing st with
  | nil => simp
  | cons index indices ih =>
    rw [List.foldl_cons, ih]
    have hclose : (closeOpenIndex st index).ctx.responsesOpenIndices
        = st.ctx.responsesOpenIndices.erase index := by
      rcases closeOpenIndex_cases st index with ⟨hmem, heq⟩ | ⟨-, heq⟩
      · rw [heq, Finset.erase_eq_of_notMem hmem]
      · rw [heq]
    ext i
    rw [hclose, List.toFinset_cons]
    simp only [Finset.mem_sdiff, Finset.mem_erase, Finset.mem_insert]
    tauto

theorem closeAllOpenIndices_open : (closeAllOpenIndices st).ctx.responsesOpenIndices = ∅ := by
  rw [closeAllOpenIndices, closeOpenIndex_foldl_open, Finset.sort_toFinset, Finset.sdiff_self]

theorem closeAllOpenIndices_induction {P : Emit ClaudeEvent → Prop} {st : Emit ClaudeEvent}
    (hclose : ∀ st index, P st → P (closeOpenIndex st index)) (h : P st) :
    P (closeAllOpenIndices st) := by
  rw [closeAllOpenIndices]
  induction st.ctx.responsesOpenIndices.sort (· ≤ ·) generalizing st with
  | nil => exact h
  | cons index indices ih => exact ih (hclose st index h)

theorem closeAllOpenIndices_flags :
    (closeAllOpenIndices st).ctx.messageStartSent = st.ctx.messageStartSent ∧
    (closeAllOpenIndices st).ctx.finishReasonSent = st.ctx.finishReasonSent := by
  refine closeAllOpenIndices_induction (P := fun st' =>
    st'.ctx.messageStartSent = st.ctx.messageStartSent ∧
      st'.ctx.finishReasonSent = st.ctx.finishReasonSent) ?_ ⟨rfl, rfl⟩
  rintro st' index ⟨hstart, hfinish⟩
  obtain ⟨hstart', hfinish'⟩ := closeOpenIndex_flags st' index
  exact ⟨hstart'.trans hstart, hfinish'.trans hfinish⟩

@[simp] theorem startUnlessOpen_finishReasonSent (block : ClaudeBlock) (st : Emit ClaudeEvent) :
    (startUnlessOpen index block st).ctx.finishReasonSent = st.ctx.finishReasonSent := by
  rw [startUnlessOpen]
  split_ifs
  · rfl
  · rfl

theorem mem_startUnlessOpen (block : ClaudeBlock) (st : Emit ClaudeEvent) :
    index ∈ (startUnlessOpen index block st).ctx.responsesOpenIndices := by
  rw [startUnlessOpen]
  split_ifs with hmem
  · exact hmem
  · exact Finset.mem_insert_self _ _

inductive Resolves (ctx : StreamContext) : Option ℤ → ℤ × StreamContext → Prop
  | found (i : ℤ) : Resolves ctx (some i) (i, ctx)
  | fresh (byKey : String → Option ℤ) (fallback : Option ℤ)
      (hkey : ∀ k i, byKey k = some i →
        ctx.responsesIndexByKey k = some i ∨ i = ctx.responsesNextContentIndex)
      (hfallback : ∀ i, fallback = some i →
        ctx.responsesFallbackOpenIndex = some i ∨ i = ctx.responsesNextContentIndex) :
      Resolves ctx none (ctx.responsesNextContentIndex,
        { ctx with
          responsesNextContentIndex := wrapI32 (ctx.responsesNextContentIndex + 1)
          responsesIndexByKey := byKey
          responsesFallbackOpenIndex := fallback })

theorem Resolves.finishReasonSent_eq {ctx : StreamContext} {target : Option ℤ}
    {r : ℤ × StreamContext} (h : Resolves ctx target r) :
    r.2.finishReasonSent = ctx.finishReasonSent := by
  rcases h with i | ⟨_, _, _, _⟩
  · rfl
  · rfl

theorem resolves_indexForKey (key : String) :
    Resolves ctx (ctx.responsesIndexByKey key) (indexForKey ctx key) := by
  rw [indexForKey]
  rcases ctx.responsesIndexByKey key with _ | i
  · refine Resolves.fresh _ _ (fun k i hk => ?_) fun i hi => Or.inl hi
    by_cases hkey : k = key
    · rw [hkey, Function.update_self] at hk
      exact Or.inr (Option.some_inj.1 hk).symm
    · rw [Function.update_of_ne hkey] at hk
      exact Or.inl hk
  · exact Resolves.found i

theorem resolves_nextIndex : Resolves ctx none (nextIndex ctx) :=
  Resolves.fresh _ _ (fun _ _ hk => Or.inl hk) fun _ hi => Or.inl hi

theorem resolves_resolveContentIndex :
    Resolves ctx (contentTarget ctx data) (resolveContentIndex ctx data) := by
  rw [contentTarget, resolveContentIndex]
  rcases contentPartKey data with _ | key
  · rcases ctx.responsesFallbackOpenIndex with _ | i
    · exact Resolves.fresh _ _ (fun _ _ hk => Or.inl hk)
        fun i hi => Or.inr (Option.some_inj.1 hi).symm
    · exact Resolves.found i
  · exact resolves_indexForKey ctx key

theorem resolves_resolveAddedIndex (item : Json) :
    Resolves ctx (addedTarget ctx data item) (resolveAddedIndex ctx data item) := by
  rw [addedTarget, resolveAddedIndex]
  rcases toolItemKeyFromAdded data item with _ | key
  · exact resolves_nextIndex ctx
  · exact resolves_indexForKey ctx key

theorem resolves_resolveArgumentsIndex :
    Resolves ctx (toolIndexOfEvent ctx data) (resolveArgumentsIndex ctx data) := by
  rw [resolveArgumentsIndex]
  rcases toolIndexOfEvent ctx data with _ | i
  · exact resolves_nextIndex ctx
  · exact Resolves.found i

/-! ### The converter -/

inductive ResponsesInput where
  | skip
  | done
  | event (name : String) (data : Json)

/-- Read one event block: blocks without data or with unparsable data are skipped,
and the event name falls back to the `type` field. -/
def readResponsesInput (env : Env) (event : Bytes) : ResponsesInput :=
  match parseSseBlock event with
  | none => .skip
  | some (eventType, jsonData) =>
    if jsonData = "[DONE]" then .done
    else
      match env.fromStr jsonData with
      | .error _ => .skip
      | .ok data =>
        .event (if eventType = "" then (data.getStr "type").getD "" else eventType) data

/-- `openai_responses_stream_to_claude`. -/
def openaiResponsesStreamToClaude (env : Env) (event : Bytes) (ctx : StreamContext) :
    Except String (List ClaudeEvent × StreamContext) :=
  match readResponsesInput env event with
  | .skip => .ok ([], ctx)
  | .done => .ok (finalizeOpenaiResponsesStreamToClaudeDone (Emit.start ctx)).finish
  | .event name data => .ok (convertResponsesEvent env name data (Emit.start ctx)).finish

/-- The events that a sequence of upstream blocks is converted to, from a fresh context. -/
def responsesToClaudeRun (env : Env) (events : List Bytes) :
    Trace.Outcome ClaudeEvent StreamContext String :=
  Trace.feed (openaiResponsesStreamToClaude env) StreamContext.new events

end AiOpenRouter
