/-
Responses → chat, streamed and at once.

* `openaiResponsesToChat` is the converter of a whole response
  (`openai_responses_to_chat`);
* `openaiResponsesStreamToChat_carried` says what the stream converter does with
  each event of a response stream, as a pure function `chatAnswerStep`;
* `foldChat_responsesStream` gives what the chunks of a response stream fold to;
* `responsesToChat_agree_iff`: the folded chunks and the converted response have
  the same text, tool calls, finish reason and usage exactly when the response is
  a `PlainAnswer`.
-/
import AiOpenRouter.ChatAssembly
import AiOpenRouter.ResponsesStream

namespace AiOpenRouter

open Trace

/-! ### The converter of a whole response -/

def outputPartText (part : Json) : String :=
  if part.getStr "type" = some "output_text" then (part.getStr "text").getD "" else ""

def chatItemText (item : Json) : String :=
  if item.getStr "type" = some "message" then
    "".intercalate ((((item.get "content").bind Json.asArray).getD []).map outputPartText)
  else ""

def chatItemCall (item : Json) : Option Json :=
  if item.getStr "type" = some "function_call" then
    some (.obj [("id", .str ((item.getStr "id").getD "")), ("type", .str "function"),
      ("function", .obj [("name", .str ((item.getStr "name").getD "")),
        ("arguments", .str ((item.getStr "arguments").getD "\x7b\x7d"))])])
  else none

/-- A token count of a response, as an `i32`. -/
def responseCount (resp : Json) (key : String) : ℤ :=
  wrapI32 (((resp.get "usage").bind fun usage => usage.getI64 key).getD 0)

def chatUsage (inputTokens outputTokens : ℤ) : Json :=
  .obj [("prompt_tokens", .int inputTokens), ("completion_tokens", .int outputTokens),
    ("total_tokens", .int (wrapI32 (inputTokens + outputTokens)))]

def answerMessage (text : String) (toolCalls : List Json) : Json :=
  if toolCalls = [] then Json.obj [("role", .str "assistant"), ("content", .str text)]
  else Json.obj [("role", .str "assistant"),
    ("content", if text = "" then .null else .str text), ("tool_calls", .arr toolCalls)]

/-- `openai_responses_to_chat`, between its `serde` calls. -/
def openaiResponsesToChat (resp : Json) : Json :=
  let output := ((resp.get "output").bind Json.asArray).getD []
  let text := "".intercalate (output.map chatItemText)
  let toolCalls := output.filterMap chatItemCall
  let finishReason := if toolCalls = [] then "stop" else "tool_calls"
  .obj [("id", (resp.get "id").getD (.str "chatcmpl-id")), ("object", .str "chat.completion"),
    ("created", .int 1234567890), ("model", (resp.get "model").getD (.str "gpt-4")),
    ("choices", .arr [.obj [("index", .int 0), ("message", answerMessage text toolCalls),
      ("finish_reason", .str finishReason)]]),
    ("usage", chatUsage (responseCount resp "input_tokens") (responseCount resp "output_tokens"))]

/-! ### The stream converter on a response stream -/

/-- The entry of `tool_calls` that starts a call. -/
def callEntry (index : ℤ) (id name : String) : Json :=
  .obj [("index", .int index), ("id", .str id), ("type", .str "function"),
    ("function", .obj [("name", .str name), ("arguments", .str "")])]

/-- The entry of `tool_calls` that extends a call. -/
def argumentsEntry (index : ℤ) (delta : String) : Json :=
  .obj [("index", .int index), ("function", .obj [("arguments", .str delta)])]

def takeResponsesEvent (e : ResponsesStreamEvent) (st : Emit ChatEvent) : Emit ChatEvent :=
  match e with
  | .created id => st.withCtx fun ctx => { ctx with messageId := id }
  | .functionCallAdded outputIndex id _ name =>
    let st := st.withCtx fun ctx =>
      { ctx with currentToolId := id, currentToolName := name, toolIndex := wrapI32 outputIndex }
    st.push (responsesChatChunk st.ctx 0
      (.obj [("tool_calls", .arr [callEntry (wrapI32 outputIndex) id name])]) none none)
  | .partDelta .text place delta =>
    let st := ensureRole st
    st.push (responsesChatChunk st.ctx (wrapI32 place.outputIndex)
      (.obj [("content", .str delta)]) none none)
  | .argumentsDelta outputIndex _ delta =>
    let st := st.withCtx fun ctx => { ctx with toolArguments := ctx.toolArguments ++ delta }
    st.push (responsesChatChunk st.ctx 0
      (.obj [("tool_calls", .arr [argumentsEntry (wrapI32 outputIndex) delta])]) none none)
  | .finished true object =>
    st.push (responsesChatChunk st.ctx 0 (.obj [])
      (some (completedFinishReason ((object.getStr "status").getD "completed") st.ctx))
      (some (chatUsage st.ctx.inputTokens st.ctx.outputTokens)))
  | _ => st

def chatAnswerStep (e : ResponsesStreamEvent) (ctx : StreamContext) :
    List ChatEvent × StreamContext := (takeResponsesEvent e (Emit.start ctx)).finish

theorem convertResponsesToChat_read {e : ResponsesStreamEvent} {data : Json}
    (htype : data.getStr "type" = some e.eventType) (h : e.Says data) (st : Emit ChatEvent) :
    convertResponsesToChat data st = takeResponsesEvent e st := by
  unfold convertResponsesToChat
  rw [htype, Option.getD_some]
  cases e with
  | created id =>
    obtain ⟨response, hresponse, hid⟩ := h
    simp [ResponsesStreamEvent.eventType, onChatCreated, hresponse, hid, takeResponsesEvent]
  | messageAdded outputIndex id =>
    obtain ⟨item, -, hitem, htype, -⟩ := h
    simp [ResponsesStreamEvent.eventType, onChatItemAdded, hitem, htype, takeResponsesEvent]
  | reasoningAdded outputIndex id =>
    obtain ⟨item, -, hitem, htype, -⟩ := h
    simp [ResponsesStreamEvent.eventType, onChatItemAdded, hitem, htype, takeResponsesEvent]
  | functionCallAdded outputIndex id callId name =>
    obtain ⟨item, ⟨hindex, hitem, htype, hid⟩, -, hname⟩ := h
    simp [ResponsesStreamEvent.eventType, onChatItemAdded, hitem, htype, startChatToolCall, hid,
      hname, eventOutputIndex, hindex, takeResponsesEvent, callEntry]
  | partAdded kind place => rfl
  | partDelta kind place delta =>
    obtain ⟨⟨-, hindex, -⟩, hdelta⟩ := h
    cases kind with
    | text =>
      simp [ResponsesStreamEvent.eventType, onChatTextDelta, eventOutputIndex, hindex, eventDelta,
        hdelta, takeResponsesEvent]
    | refusal => rfl
  | refusalDone place => rfl
  | partDone kind place => rfl
  | reasoningDelta place delta =>
    cases delta with
    | mk isSummary text => cases isSummary <;> rfl
  | reasoningDone place => rfl
  | argumentsDelta outputIndex itemId delta =>
    obtain ⟨hindex, -, hdelta⟩ := h
    simp [ResponsesStreamEvent.eventType, onChatArgumentsDelta, eventOutputIndex, hindex,
      eventDelta, hdelta, takeResponsesEvent, argumentsEntry]
  | argumentsDone outputIndex itemId => rfl
  | finished completes object =>
    cases completes with
    | true =>
      have hget : data.get "response" = some object := h
      simp [ResponsesStreamEvent.eventType, onChatCompleted, hget, takeResponsesEvent,
        chatUsage]
    | false => rfl
  | other eventType =>
    have hother : eventType ∉ ResponsesStreamEvent.knownTypes := h
    simp only [ResponsesStreamEvent.knownTypes, List.mem_cons, not_or] at hother
    simp only [ResponsesStreamEvent.eventType, takeResponsesEvent]
    split <;> simp_all

theorem openaiResponsesStreamToChat_carried (env : Env) (block : Bytes) (e : ResponsesStreamEvent)
    (h : e.CarriedBy env block) (ctx : StreamContext) :
    openaiResponsesStreamToChat env block ctx = .ok (chatAnswerStep e ctx) := by
  obtain ⟨name, text, data, hparse, -, -, hne, hdone, hdata, htype, hsays⟩ := h
  have hread : readDataBlock env block = .data data := by
    rw [readDataBlock, hparse]
    dsimp only
    rw [if_neg hdone, if_neg hne, hdata]
  rw [openaiResponsesStreamToChat, hread]
  dsimp only
  rw [convertResponsesToChat_read htype hsays, chatAnswerStep]

variable {calls : List FoldedCall} {index : ℤ} {r : StreamedResponse}

theorem feed_responsesStreamToChat {env : Env} {ctx : StreamContext} {blocks : List Bytes}
    (h : r.StreamedAs env blocks) :
    (feed (openaiResponsesStreamToChat env) ctx blocks).out =
      (runOn chatAnswerStep ctx r.events).1 := by
  obtain ⟨es, hcarried, hfilter⟩ := h
  have hsilent : ∀ e : ResponsesStreamEvent, e.isKnown = false →
      ∀ ctx, chatAnswerStep e ctx = ([], ctx) := by
    intro e he ctx
    cases e with
    | other eventType => rfl
    | _ => cases he
  rw [feed_eq_runOn (openaiResponsesStreamToChat_carried env) hcarried,
    runOn_filter hsilent, hfilter]

/-! ### What the chunks fold to -/

theorem entryIndex_of_get {entry : Json} (hget : entry.get "index" = some (.int index))
    (h : IsI32 index) : entryIndex entry = index := by
  have hi64 : (Json.int index).asI64 = some index := by
    unfold IsI32 at h
    exact if_pos (by omega)
  rw [entryIndex, Json.getI64, hget, Option.bind_some, hi64, Option.getD_some]

theorem foldCall_callEntry (id name : String) (h : IsI32 index) (calls : List FoldedCall) :
    foldCall calls (callEntry index id name) = joinCall ⟨index, id, name, ""⟩ calls := by
  have hindex : entryIndex (callEntry index id name) = index := entryIndex_of_get rfl h
  rw [foldCall, hindex]
  rfl

theorem foldCall_argumentsEntry (delta : String) (h : IsI32 index)
    (hany : calls.any (·.index = index) = true) :
    foldCall calls (argumentsEntry index delta) = extendCalls index delta calls := by
  have hindex : entryIndex (argumentsEntry index delta) = index := entryIndex_of_get rfl h
  rw [foldCall, hindex, if_pos hany]
  rfl

/-- What events fold to: an update of the message, and of the id of the last tool call. -/
structure FoldsTo (es : List ResponsesStreamEvent) (f : FoldedMessage → FoldedMessage)
    (g : String → String) : Prop where
  message : ∀ ctx msg, (runOn chatAnswerStep ctx es).1.foldl foldChatEvent msg = f msg
  toolId : ∀ ctx, (runOn chatAnswerStep ctx es).2.currentToolId = g ctx.currentToolId
  tokens : ∀ ctx, (runOn chatAnswerStep ctx es).2.inputTokens = ctx.inputTokens ∧
    (runOn chatAnswerStep ctx es).2.outputTokens = ctx.outputTokens

theorem FoldsTo.append {es es' : List ResponsesStreamEvent} {f f' : FoldedMessage → FoldedMessage}
    {g g' : String → String} (h : FoldsTo es f g) (h' : FoldsTo es' f' g') :
    FoldsTo (es ++ es') (f' ∘ f) (g' ∘ g) := by
  refine ⟨?_, ?_, ?_⟩
  · intro ctx msg
    rw [runOn_append, List.foldl_append, h.message, h'.message, Function.comp_apply]
  · intro ctx
    rw [runOn_append, h'.toolId, h.toolId, Function.comp_apply]
  · intro ctx
    obtain ⟨hinput, houtput⟩ := h.tokens ctx
    obtain ⟨hinput', houtput'⟩ := h'.tokens (runOn chatAnswerStep ctx es).2
    rw [runOn_append]
    exact ⟨hinput'.trans hinput, houtput'.trans houtput⟩

theorem foldsTo_silent {es : List ResponsesStreamEvent}
    (h : ∀ e ∈ es, ∀ ctx, chatAnswerStep e ctx = ([], ctx)) : FoldsTo es id id := by
  have hrun : ∀ ctx, runOn chatAnswerStep ctx es = ([], ctx) := by
    intro ctx
    induction es with
    | nil => rfl
    | cons e es ih =>
      rw [runOn_cons, h e List.mem_cons_self, ih fun e he => h e (List.mem_cons_of_mem _ he)]
      rfl
  refine ⟨?_, ?_, ?_⟩
  · intro ctx msg
    rw [hrun]
    rfl
  · intro ctx
    rw [hrun]
    rfl
  · intro ctx
    rw [hrun]
    exact ⟨rfl, rfl⟩

def FoldedMessage.addText (text : String) (msg : FoldedMessage) : FoldedMessage :=
  { msg with text := msg.text ++ text }

def FoldedMessage.addCall (call : FoldedCall) (msg : FoldedMessage) : FoldedMessage :=
  { msg with toolCalls := joinCall call msg.toolCalls }

def choiceText (outputIndex : ℕ) (text : String) : String :=
  if wrapI32 outputIndex = 0 then text else ""

theorem foldChatEvent_role (ctx : StreamContext) (msg : FoldedMessage) :
    foldChatEvent msg (responsesChatChunk ctx 0 (.obj [("role", .str "assistant")]) none none) =
      msg := by
  simp [foldChatEvent, responsesChatChunk, foldChunk, Json.getStr, Json.get, List.lookup_cons]

theorem foldChatEvent_text (ctx : StreamContext) (msg : FoldedMessage) (outputIndex : ℕ)
    (delta : String) :
    foldChatEvent msg (responsesChatChunk ctx (wrapI32 outputIndex)
      (.obj [("content", .str delta)]) none none) = msg.addText (choiceText outputIndex delta) := by
  unfold choiceText
  split_ifs with h
  · simp [foldChatEvent, responsesChatChunk, foldChunk, h, Json.getStr, Json.get, Json.asStr,
      FoldedMessage.addText, List.lookup_cons]
  · simp [foldChatEvent, responsesChatChunk, foldChunk, h, FoldedMessage.addText]

theorem foldChatEvent_toolCalls (ctx : StreamContext) (msg : FoldedMessage) (entry : Json) :
    foldChatEvent msg (responsesChatChunk ctx 0 (.obj [("tool_calls", .arr [entry])]) none none) =
      { msg with toolCalls := foldCall msg.toolCalls entry } := by
  simp [foldChatEvent, responsesChatChunk, foldChunk, Json.getStr, Json.get, Json.asArray,
    List.lookup_cons]

theorem chatAnswerStep_textDelta (place : PartPlace) (delta : String) (ctx : StreamContext) :
    ∃ before ctx', chatAnswerStep (.partDelta .text place delta) ctx =
        (before ++ [responsesChatChunk ctx' (wrapI32 place.outputIndex)
          (.obj [("content", .str delta)]) none none], ctx') ∧
      (∀ msg, before.foldl foldChatEvent msg = msg) ∧ ctx'.currentToolId = ctx.currentToolId ∧
      ctx'.inputTokens = ctx.inputTokens ∧ ctx'.outputTokens = ctx.outputTokens := by
  by_cases hrole : ctx.messageStartSent = true
  · have hensure : ensureRole (Emit.start ctx) = Emit.start ctx := if_pos hrole
    refine ⟨[], ctx, ?_, fun _ => rfl, rfl, rfl, rfl⟩
    rw [chatAnswerStep, takeResponsesEvent, hensure]
    rfl
  · have hensure : ensureRole (Emit.start ctx) =
        ⟨{ ctx with messageStartSent := true },
          [responsesChatChunk ctx 0 (.obj [("role", .str "assistant")]) none none]⟩ := if_neg hrole
    refine ⟨[responsesChatChunk ctx 0 (.obj [("role", .str "assistant")]) none none],
      { ctx with messageStartSent := true }, ?_, foldChatEvent_role ctx, rfl, rfl, rfl⟩
    rw [chatAnswerStep, takeResponsesEvent, hensure]
    rfl

theorem foldsTo_textDelta (place : PartPlace) (delta : String) :
    FoldsTo [.partDelta .text place delta]
      (FoldedMessage.addText (choiceText place.outputIndex delta)) id := by
  refine ⟨?_, ?_, ?_⟩
  · intro ctx msg
    obtain ⟨before, ctx', hstep, hbefore, -⟩ := chatAnswerStep_textDelta place delta ctx
    rw [runOn_cons, hstep, runOn_nil, List.append_nil, List.foldl_append, hbefore, List.foldl_cons,
      List.foldl_nil, foldChatEvent_text]
  · intro ctx
    obtain ⟨before, ctx', hstep, -, htool, -⟩ := chatAnswerStep_textDelta place delta ctx
    rw [runOn_cons, hstep]
    exact htool
  · intro ctx
    obtain ⟨before, ctx', hstep, -, -, htokens⟩ := chatAnswerStep_textDelta place delta ctx
    rw [runOn_cons, hstep]
    exact htokens

theorem foldsTo_textDeltas (place : PartPlace) (deltas : List String) :
    FoldsTo (deltas.map (.partDelta .text place))
      (FoldedMessage.addText (choiceText place.outputIndex ("".intercalate deltas))) id := by
  induction deltas with
  | nil =>
    have hnone : FoldedMessage.addText (choiceText place.outputIndex ("".intercalate [])) = id := by
      funext msg
      simp [FoldedMessage.addText, choiceText]
    rw [hnone]
    exact foldsTo_silent (by simp)
  | cons delta deltas ih =>
    have hcons : FoldedMessage.addText
        (choiceText place.outputIndex ("".intercalate (delta :: deltas))) =
          FoldedMessage.addText (choiceText place.outputIndex ("".intercalate deltas)) ∘
            FoldedMessage.addText (choiceText place.outputIndex delta) := by
      funext msg
      unfold choiceText
      split_ifs <;> simp [FoldedMessage.addText, intercalate_empty_cons, String.append_assoc]
    rw [hcons]
    exact (foldsTo_textDelta place delta).append ih

def StreamedPart.outputText (part : StreamedPart) : String :=
  match part.kind with
  | .text => part.text
  | .refusal => ""

theorem addText_choiceText_empty (outputIndex : ℕ) :
    FoldedMessage.addText (choiceText outputIndex "") = id := by
  funext msg
  simp [FoldedMessage.addText, choiceText]

theorem addText_choiceText_append (outputIndex : ℕ) (s t : String) :
    FoldedMessage.addText (choiceText outputIndex t) ∘
        FoldedMessage.addText (choiceText outputIndex s) =
      FoldedMessage.addText (choiceText outputIndex (s ++ t)) := by
  funext msg
  unfold choiceText
  split_ifs <;> simp [FoldedMessage.addText, String.append_assoc]

theorem foldsTo_part (place : PartPlace) (part : StreamedPart) :
    FoldsTo (part.events place)
      (FoldedMessage.addText (choiceText place.outputIndex part.outputText)) id := by
  obtain ⟨kind, deltas⟩ := part
  cases kind with
  | text =>
    have hadded : FoldsTo [.partAdded .text place] id id := foldsTo_silent (by
      rintro e he ctx
      rw [List.mem_singleton.1 he]
      rfl)
    have hdone : FoldsTo [.partDone .text place] id id := foldsTo_silent (by
      rintro e he ctx
      rw [List.mem_singleton.1 he]
      rfl)
    exact hadded.append ((foldsTo_textDeltas place deltas).append hdone)
  | refusal =>
    have hnone : StreamedPart.outputText ⟨.refusal, deltas⟩ = "" := rfl
    rw [hnone, addText_choiceText_empty]
    refine foldsTo_silent ?_
    intro e he ctx
    simp only [StreamedPart.events, List.mem_cons, List.mem_append, List.mem_map,
      List.not_mem_nil, or_false] at he
    obtain rfl | ⟨_, _, rfl⟩ | rfl | rfl := he <;> rfl

def partsText (parts : List StreamedPart) : String :=
  "".intercalate (parts.map StreamedPart.outputText)

theorem foldsTo_parts (outputIndex : ℕ) (itemId : String) (contentIndex : ℕ)
    (parts : List StreamedPart) :
    FoldsTo (partsEvents outputIndex itemId contentIndex parts)
      (FoldedMessage.addText (choiceText outputIndex (partsText parts))) id := by
  induction parts generalizing contentIndex with
  | nil =>
    have hnone : partsText [] = "" := rfl
    rw [hnone, addText_choiceText_empty]
    exact foldsTo_silent (by simp [partsEvents])
  | cons part parts ih =>
    rw [partsText, List.map_cons, intercalate_empty_cons, ← addText_choiceText_append]
    exact (foldsTo_part ⟨itemId, outputIndex, contentIndex⟩ part).append (ih (contentIndex + 1))

theorem foldsTo_toolCalls {e : ResponsesStreamEvent} {entry : Json} {g : String → String}
    (hstep : ∀ ctx, ∃ ctx', chatAnswerStep e ctx =
        ([responsesChatChunk ctx' 0 (.obj [("tool_calls", .arr [entry])]) none none], ctx') ∧
      ctx'.currentToolId = g ctx.currentToolId ∧ ctx'.inputTokens = ctx.inputTokens ∧
      ctx'.outputTokens = ctx.outputTokens) :
    FoldsTo [e] (fun msg => { msg with toolCalls := foldCall msg.toolCalls entry }) g := by
  refine ⟨?_, ?_, ?_⟩
  · intro ctx msg
    obtain ⟨ctx', heq, -⟩ := hstep ctx
    rw [runOn_cons, heq, runOn_nil, List.append_nil, List.foldl_cons, List.foldl_nil,
      foldChatEvent_toolCalls]
  · intro ctx
    obtain ⟨ctx', heq, htool, -⟩ := hstep ctx
    rw [runOn_cons, heq]
    exact htool
  · intro ctx
    obtain ⟨ctx', heq, -, htokens⟩ := hstep ctx
    rw [runOn_cons, heq]
    exact htokens

theorem foldsTo_functionCallAdded (outputIndex : ℕ) (id callId name : String) :
    FoldsTo [.functionCallAdded outputIndex id callId name]
      (FoldedMessage.addCall ⟨wrapI32 outputIndex, id, name, ""⟩) fun _ => id := by
  have hcall : FoldedMessage.addCall ⟨wrapI32 outputIndex, id, name, ""⟩ = fun msg =>
      { msg with
        toolCalls := foldCall msg.toolCalls (callEntry (wrapI32 outputIndex) id name) } := by
    funext msg
    rw [foldCall_callEntry id name (isI32_wrapI32 _), FoldedMessage.addCall]
  rw [hcall]
  refine foldsTo_toolCalls fun ctx => ⟨{ ctx with currentToolId := id, currentToolName := name
                                                  toolIndex := wrapI32 outputIndex }, ?_⟩
  exact ⟨rfl, rfl, rfl, rfl⟩

theorem foldsTo_argumentsDelta (outputIndex : ℕ) (itemId delta : String) :
    FoldsTo [.argumentsDelta outputIndex itemId delta]
      (fun msg => { msg with
        toolCalls := foldCall msg.toolCalls (argumentsEntry (wrapI32 outputIndex) delta) }) id := by
  refine foldsTo_toolCalls fun ctx =>
    ⟨{ ctx with toolArguments := ctx.toolArguments ++ delta }, ?_⟩
  exact ⟨rfl, rfl, rfl, rfl⟩

theorem foldsTo_functionCall (outputIndex : ℕ) (id callId name : String)
    (fragments : List String) :
    FoldsTo (.functionCallAdded outputIndex id callId name ::
        fragments.map (.argumentsDelta outputIndex id))
      (FoldedMessage.addCall ⟨wrapI32 outputIndex, id, name, "".intercalate fragments⟩)
      fun _ => id := by
  induction fragments using List.reverseRecOn with
  | nil => exact foldsTo_functionCallAdded outputIndex id callId name
  | append_singleton fragments fragment ih =>
    have hjoin : (fun msg : FoldedMessage => { msg with
          toolCalls := foldCall msg.toolCalls (argumentsEntry (wrapI32 outputIndex) fragment) }) ∘
        FoldedMessage.addCall ⟨wrapI32 outputIndex, id, name, "".intercalate fragments⟩ =
          FoldedMessage.addCall
            ⟨wrapI32 outputIndex, id, name, "".intercalate (fragments ++ [fragment])⟩ := by
      funext msg
      have hextend := extendCalls_joinCall
        ⟨wrapI32 outputIndex, id, name, "".intercalate fragments⟩ fragment msg.toolCalls
      rw [Function.comp_apply, FoldedMessage.addCall, FoldedMessage.addCall]
      dsimp only
      rw [foldCall_argumentsEntry fragment (isI32_wrapI32 _) (any_index_joinCall _ _), hextend,
        intercalate_empty_append, String.intercalate_singleton]
    rw [List.map_append, ← List.cons_append, ← hjoin]
    exact ih.append (foldsTo_argumentsDelta outputIndex id fragment)

def StreamedItem.fold (outputIndex : ℕ) : StreamedItem → FoldedMessage → FoldedMessage
  | message _ parts => FoldedMessage.addText (choiceText outputIndex (partsText parts))
  | reasoning _ _ => fun msg => msg
  | functionCall id _ name fragments =>
    FoldedMessage.addCall ⟨wrapI32 outputIndex, id, name, "".intercalate fragments⟩

def StreamedItem.toolId (last : String) : StreamedItem → String
  | functionCall id _ _ _ => id
  | _ => last

theorem foldsTo_item (outputIndex : ℕ) (item : StreamedItem) :
    FoldsTo (item.events outputIndex) (item.fold outputIndex) item.toolId := by
  cases item with
  | message itemId parts =>
    have hadded : FoldsTo [.messageAdded outputIndex itemId] id id := foldsTo_silent (by
      rintro e he ctx
      rw [List.mem_singleton.1 he]
      rfl)
    exact hadded.append (foldsTo_parts outputIndex itemId 0 parts)
  | reasoning itemId deltas =>
    have hsilent : FoldsTo ((StreamedItem.reasoning itemId deltas).events outputIndex) id id := by
      refine foldsTo_silent ?_
      intro e he ctx
      rw [StreamedItem.events, List.mem_cons, List.mem_append, List.mem_map] at he
      obtain rfl | ⟨_, _, rfl⟩ | hdone := he
      · rfl
      · rfl
      · split_ifs at hdone
        · cases hdone
        · rw [List.mem_singleton.1 hdone]
          rfl
    exact hsilent
  | functionCall itemId callId name fragments =>
    have hdone : FoldsTo [.argumentsDone outputIndex itemId] id id := foldsTo_silent (by
      rintro e he ctx
      rw [List.mem_singleton.1 he]
      rfl)
    exact (foldsTo_functionCall outputIndex itemId callId name fragments).append hdone

def StreamedItem.outputText : StreamedItem → String
  | message _ parts => partsText parts
  | _ => ""

/-- The call that an item adds, at an output index. -/
def StreamedItem.call (outputIndex : ℕ) : StreamedItem → Option FoldedCall
  | functionCall id _ name fragments =>
    some ⟨wrapI32 outputIndex, id, name, "".intercalate fragments⟩
  | _ => none

namespace StreamedResponse

def choiceTexts (items : List (ℕ × StreamedItem)) : String :=
  "".intercalate (items.map fun item => choiceText item.1 item.2.outputText)

def itemCalls (items : List (ℕ × StreamedItem)) : List FoldedCall :=
  items.filterMap fun item => item.2.call item.1

end StreamedResponse

open StreamedResponse (choiceTexts itemCalls)

def joinCalls (calls : List FoldedCall) (acc : List FoldedCall) : List FoldedCall :=
  calls.foldl (fun acc call => joinCall call acc) acc

theorem foldsTo_items (items : List (ℕ × StreamedItem)) :
    FoldsTo (items.flatMap fun item => item.2.events item.1)
      (fun msg => { msg with text := msg.text ++ choiceTexts items
                             toolCalls := joinCalls (itemCalls items) msg.toolCalls })
      (fun last => ((itemCalls items).map FoldedCall.id).getLast?.getD last) := by
  induction items with
  | nil =>
    have hnone : (fun msg : FoldedMessage => { msg with
        text := msg.text ++ choiceTexts [], toolCalls := joinCalls (itemCalls []) msg.toolCalls }) =
          id := by
      funext msg
      simp [choiceTexts, itemCalls, joinCalls]
    rw [hnone]
    exact foldsTo_silent (by simp)
  | cons item items ih =>
    obtain ⟨outputIndex, item⟩ := item
    have happend := (foldsTo_item outputIndex item).append ih
    rw [List.flatMap_cons]
    convert happend using 1
    · funext msg
      cases item <;>
        simp [StreamedItem.fold, choiceTexts, itemCalls, StreamedItem.call, StreamedItem.outputText,
          intercalate_empty_cons, FoldedMessage.addText, FoldedMessage.addCall, joinCalls,
          choiceText, String.append_assoc]
    · funext last
      cases item with
      | message itemId parts => simp [StreamedItem.toolId, itemCalls, StreamedItem.call]
      | reasoning itemId deltas => simp [StreamedItem.toolId, itemCalls, StreamedItem.call]
      | functionCall itemId callId name fragments =>
        simp [StreamedItem.toolId, itemCalls, StreamedItem.call, List.getLast?_cons]

theorem foldChat_responsesStream {env : Env} {model : String} {blocks : List Bytes}
    (h : r.StreamedAs env blocks) (hfinal : r.completes = true) :
    foldChat (feed (openaiResponsesStreamToChat env) (.forModel model) blocks).out =
      { text := choiceTexts r.items
        toolCalls := joinCalls (itemCalls r.items) []
        finishReason := some (
          if (r.object.getStr "status").getD "completed" = "completed" ∧
              ((itemCalls r.items).map FoldedCall.id).getLast?.getD "" ≠ "" then "tool_calls"
          else "stop")
        usage := some (chatUsage 0 0) } := by
  let ctx : StreamContext := { StreamContext.forModel model with messageId := r.id }
  have hcreated : chatAnswerStep (.created r.id) (.forModel model) = ([], ctx) := rfl
  have hitems := foldsTo_items r.items
  have htool := hitems.toolId ctx
  obtain ⟨hinput, houtput⟩ := hitems.tokens ctx
  rw [feed_responsesStreamToChat h, StreamedResponse.events, runOn_cons, hcreated, runOn_append,
    List.nil_append, foldChat, List.foldl_append, hitems.message, hfinal]
  generalize (runOn chatAnswerStep ctx (r.items.flatMap fun item => item.2.events item.1)).2 =
    last at htool hinput houtput
  have hfinished : chatAnswerStep (.finished true r.object) last =
      ([responsesChatChunk last 0 (.obj [])
        (some (completedFinishReason ((r.object.getStr "status").getD "completed") last))
        (some (chatUsage last.inputTokens last.outputTokens))], last) := rfl
  have hlast : last.currentToolId = ((itemCalls r.items).map FoldedCall.id).getLast?.getD "" :=
    htool
  have hin : last.inputTokens = 0 := hinput
  have hout : last.outputTokens = 0 := houtput
  rw [runOn_cons, hfinished, hin, hout, completedFinishReason, hlast]
  simp [foldChatEvent, responsesChatChunk, foldChunk, Json.getStr, Json.get]

/-! ### The converted response -/

theorem StreamedPart.AssemblesTo.outputPartText {part : StreamedPart} {content : Json}
    (h : part.AssemblesTo content) : outputPartText content = part.outputText := by
  obtain ⟨kind, deltas⟩ := part
  obtain ⟨htype, htext⟩ := h
  cases kind with
  | text => simp [AiOpenRouter.outputPartText, htype, htext, PartKind.name, outputText]
  | refusal => simp [AiOpenRouter.outputPartText, htype, PartKind.name, outputText]

theorem map_outputPartText {parts : List StreamedPart} {content : List Json}
    (h : List.Forall₂ (fun part content => part.AssemblesTo content) parts content) :
    content.map outputPartText = parts.map StreamedPart.outputText := by
  induction h with
  | nil => rfl
  | cons hpart _ ih => rw [List.map_cons, List.map_cons, hpart.outputPartText, ih]

theorem StreamedItem.AssemblesTo.chatItemText {item : StreamedItem} {out : Json}
    (h : item.AssemblesTo out) : chatItemText out = item.outputText := by
  cases item with
  | message id parts =>
    obtain ⟨htype, -, content, hcontent, hparts⟩ := h
    simp [AiOpenRouter.chatItemText, htype, hcontent, Json.asArray, map_outputPartText hparts,
      outputText, partsText]
  | reasoning id deltas => simp [AiOpenRouter.chatItemText, h.1, outputText]
  | functionCall id callId name fragments => simp [AiOpenRouter.chatItemText, h.1, outputText]

def readCall (call : Json) : String × String × String :=
  ((call.getStr "id").getD "", entryFunction call "name", entryFunction call "arguments")

theorem StreamedItem.AssemblesTo.chatItemCall {item : StreamedItem} {out : Json}
    (h : item.AssemblesTo out) (outputIndex : ℕ) :
    (chatItemCall out).map readCall = (item.call outputIndex).map FoldedCall.read := by
  cases item with
  | message id parts => simp [AiOpenRouter.chatItemCall, h.1, call]
  | reasoning id deltas => simp [AiOpenRouter.chatItemCall, h.1, call]
  | functionCall id callId name fragments =>
    obtain ⟨htype, hid, -, hname, harguments⟩ := h
    rw [AiOpenRouter.chatItemCall, if_pos htype, hid, hname, harguments]
    rfl

theorem chatItems_eq {items : List (ℕ × StreamedItem)} {output : List Json}
    (h : List.Forall₂ (fun item out => item.2.AssemblesTo out) items output) :
    output.map chatItemText = items.map (fun item => item.2.outputText) ∧
      (output.filterMap chatItemCall).map readCall = (itemCalls items).map FoldedCall.read := by
  induction h with
  | nil => exact ⟨rfl, rfl⟩
  | @cons item out items output hitem _ ih =>
    obtain ⟨htexts, hcalls⟩ := ih
    refine ⟨by rw [List.map_cons, List.map_cons, hitem.chatItemText, htexts], ?_⟩
    have hcons : itemCalls (item :: items) = (item.2.call item.1).toList ++ itemCalls items :=
      filterMap_cons_eq_append _ item items
    rw [filterMap_cons_eq_append, hcons, List.map_append, List.map_append, hcalls,
      ← Option.toList_map, ← Option.toList_map, hitem.chatItemCall item.1]

/-- The message of a chat completion. -/
def completionMessage (completion : Json) : Json :=
  ((firstChoice completion).get "message").getD .null

/-- A folded message says what a chat completion says: the text, the calls, the finish reason and
the usage. -/
structure SaysCompletion (msg : FoldedMessage) (completion : Json) : Prop where
  text : msg.text = ((completionMessage completion).getStr "content").getD ""
  calls : msg.toolCalls.map FoldedCall.read =
    ((((completionMessage completion).get "tool_calls").bind Json.asArray).getD []).map readCall
  finishReason : msg.finishReason = (firstChoice completion).getStr "finish_reason"
  usage : msg.usage = completion.get "usage"

theorem answerMessage_content (text : String) (toolCalls : List Json) :
    ((answerMessage text toolCalls).getStr "content").getD "" = text := by
  unfold answerMessage
  split_ifs with hcalls htext
  · simp [Json.getStr, Json.get, Json.asStr, List.lookup_cons]
  · rw [htext]
    simp [Json.getStr, Json.get, Json.asStr, List.lookup_cons]
  · simp [Json.getStr, Json.get, Json.asStr, List.lookup_cons]

theorem answerMessage_toolCalls (text : String) (toolCalls : List Json) :
    (((answerMessage text toolCalls).get "tool_calls").bind Json.asArray).getD [] = toolCalls := by
  unfold answerMessage
  split_ifs with hcalls htext
  · rw [hcalls]
    rfl
  · rfl
  · rfl

theorem openaiResponsesToChat_read (h : r.Assembles) :
    ((completionMessage (openaiResponsesToChat r.object)).getStr "content").getD "" =
        "".intercalate (r.items.map fun item => item.2.outputText) ∧
      ((((completionMessage (openaiResponsesToChat r.object)).get "tool_calls").bind
        Json.asArray).getD []).map readCall = (itemCalls r.items).map FoldedCall.read ∧
      (firstChoice (openaiResponsesToChat r.object)).getStr "finish_reason" =
        some (if itemCalls r.items = [] then "stop" else "tool_calls") ∧
      (openaiResponsesToChat r.object).get "usage" = some (chatUsage
        (responseCount r.object "input_tokens") (responseCount r.object "output_tokens")) := by
  obtain ⟨output, houtput, hforall⟩ := h.output
  obtain ⟨htexts, hcalls⟩ := chatItems_eq hforall
  have hnil : output.filterMap chatItemCall = [] ↔ itemCalls r.items = [] := by
    rw [← List.map_eq_nil_iff (f := readCall), hcalls, List.map_eq_nil_iff]
  have hchoice : firstChoice (openaiResponsesToChat r.object) = .obj [("index", .int 0),
      ("message", answerMessage ("".intercalate (output.map chatItemText))
        (output.filterMap chatItemCall)),
      ("finish_reason", .str (if output.filterMap chatItemCall = [] then "stop"
        else "tool_calls"))] := by
    rw [openaiResponsesToChat, houtput]
    rfl
  have hmessage : completionMessage (openaiResponsesToChat r.object) =
      answerMessage ("".intercalate (output.map chatItemText))
        (output.filterMap chatItemCall) := by
    rw [completionMessage, hchoice]
    rfl
  rw [← htexts, ← hcalls]
  refine ⟨?_, ?_, ?_, rfl⟩
  · rw [hmessage, answerMessage_content]
  · rw [hmessage, answerMessage_toolCalls]
  · rw [hchoice]
    simp [Json.getStr, Json.get, Json.asStr, List.lookup_cons, hnil]

/-! ### Agreement -/

theorem choiceTexts_eq_iff {items : List (ℕ × StreamedItem)} :
    choiceTexts items = "".intercalate (items.map fun item => item.2.outputText) ↔
      ∀ item ∈ items, wrapI32 item.1 ≠ 0 → item.2.outputText = "" := by
  have hle : ∀ item ∈ items,
      (choiceText item.1 item.2.outputText).length ≤ item.2.outputText.length := by
    intro item _
    unfold choiceText
    split_ifs <;> simp
  constructor
  · intro h item hmem hindex
    have hlength := length_eq_of_intercalate_eq hle (congrArg String.length h.symm) item hmem
    rw [choiceText, if_neg hindex] at hlength
    exact String.length_eq_zero_iff.1 hlength
  · intro h
    have hsame : ∀ item ∈ items, choiceText item.1 item.2.outputText = item.2.outputText := by
      intro item hmem
      by_cases hindex : wrapI32 item.1 = 0
      · rw [choiceText, if_pos hindex]
      · rw [choiceText, if_neg hindex, h item hmem hindex]
    rw [choiceTexts, List.map_congr_left hsame]

theorem length_joinCall (call : FoldedCall) (acc : List FoldedCall) :
    (joinCall call acc).length =
      if acc.any (·.index = call.index) then acc.length else acc.length + 1 := by
  unfold joinCall
  split_ifs <;> simp [extendCalls]

theorem length_joinCalls_le (calls acc : List FoldedCall) :
    (joinCalls calls acc).length ≤ acc.length + calls.length := by
  induction calls generalizing acc with
  | nil => exact le_rfl
  | cons call calls ih =>
    have hrest := ih (joinCall call acc)
    have hjoin := length_joinCall call acc
    rw [joinCalls, List.foldl_cons]
    rw [joinCalls] at hrest
    rw [List.length_cons]
    split_ifs at hjoin <;> omega

theorem joinCalls_of_nodup {acc : List FoldedCall}
    (h : ((acc ++ calls).map FoldedCall.index).Nodup) :
    joinCalls calls acc = acc ++ calls := by
  induction calls generalizing acc with
  | nil => simp [joinCalls]
  | cons call calls ih =>
    have hfresh : ¬ acc.any (·.index = call.index) = true := by
      intro hany
      obtain ⟨other, hmem, heq⟩ := List.any_eq_true.1 hany
      rw [List.map_append, List.map_cons] at h
      have hdisjoint := (List.nodup_append.1 h).2.2
      exact hdisjoint _ (List.mem_map_of_mem hmem) _ List.mem_cons_self (by simpa using heq)
    rw [joinCalls, List.foldl_cons, joinCall, if_neg hfresh]
    have hrest : joinCalls calls (acc ++ [call]) = acc ++ [call] ++ calls := ih (by simpa using h)
    rw [joinCalls] at hrest
    rw [hrest, List.append_assoc]
    rfl

theorem nodup_of_length_joinCalls {acc : List FoldedCall} (hacc : (acc.map FoldedCall.index).Nodup)
    (h : (joinCalls calls acc).length = acc.length + calls.length) :
    ((acc ++ calls).map FoldedCall.index).Nodup := by
  induction calls generalizing acc with
  | nil => simpa using hacc
  | cons call calls ih =>
    rw [joinCalls, List.foldl_cons] at h
    have hle := length_joinCalls_le calls (joinCall call acc)
    rw [joinCalls] at hle
    have hjoin := length_joinCall call acc
    by_cases hany : acc.any (·.index = call.index) = true
    · rw [if_pos hany] at hjoin
      rw [List.length_cons] at h
      omega
    · rw [joinCall, if_neg hany] at h
      have hnodup : ((acc ++ [call]).map FoldedCall.index).Nodup := by
        rw [List.map_append, List.nodup_append]
        refine ⟨hacc, by simp, ?_⟩
        intro i hi j hj heq
        obtain ⟨other, hmem, rfl⟩ := List.mem_map.1 hi
        refine hany (List.any_eq_true.2 ⟨other, hmem, ?_⟩)
        rw [List.map_singleton, List.mem_singleton] at hj
        simpa using heq.trans hj
      have hrest := ih hnodup (by
        rw [joinCalls, h, List.length_append, List.length_cons, List.length_singleton]
        omega)
      simpa using hrest

theorem joinCalls_read_iff :
    (joinCalls calls []).map FoldedCall.read = calls.map FoldedCall.read ↔
      (calls.map FoldedCall.index).Nodup := by
  constructor
  · intro h
    have hlength := congrArg List.length h
    rw [List.length_map, List.length_map] at hlength
    have hempty : (([] : List FoldedCall).map FoldedCall.index).Nodup := List.nodup_nil
    exact nodup_of_length_joinCalls hempty (by simpa using hlength)
  · intro h
    have hjoin : joinCalls calls [] = [] ++ calls := joinCalls_of_nodup (by simpa using h)
    rw [hjoin, List.nil_append]

/-- The responses that both ways treat alike.  Output text is at an output index that is 0 as an
`i32`; the function calls are at output indices that differ as `i32`; when there is a call, the
status is `completed` and the last call has an id; the usage counts are 0. -/
structure PlainAnswer (r : StreamedResponse) : Prop where
  text : ∀ item ∈ r.items, wrapI32 item.1 ≠ 0 → item.2.outputText = ""
  callIndices : ((itemCalls r.items).map FoldedCall.index).Nodup
  finish : itemCalls r.items ≠ [] → (r.object.getStr "status").getD "completed" = "completed" ∧
    ((itemCalls r.items).map FoldedCall.id).getLast?.getD "" ≠ ""
  usage : responseCount r.object "input_tokens" = 0 ∧ responseCount r.object "output_tokens" = 0

theorem finishReason_eq_iff {status : String} :
    (if status = "completed" ∧ (calls.map FoldedCall.id).getLast?.getD "" ≠ "" then "tool_calls"
        else "stop") = (if calls = [] then "stop" else "tool_calls") ↔
      (calls ≠ [] → status = "completed" ∧ (calls.map FoldedCall.id).getLast?.getD "" ≠ "") := by
  by_cases hcalls : calls = []
  · simp [hcalls]
  · by_cases hstatus : status = "completed" ∧ (calls.map FoldedCall.id).getLast?.getD "" ≠ ""
    · simp only [if_pos hstatus, if_neg hcalls]
      exact ⟨fun _ _ => hstatus, fun _ => trivial⟩
    · simp only [if_neg hstatus, if_neg hcalls]
      exact ⟨fun h => absurd h (by decide), fun h => absurd (h hcalls) hstatus⟩

theorem chatUsage_eq_iff {inputTokens outputTokens : ℤ} :
    chatUsage 0 0 = chatUsage inputTokens outputTokens ↔ inputTokens = 0 ∧ outputTokens = 0 := by
  constructor
  · intro h
    simp only [chatUsage, Json.obj.injEq, List.cons.injEq, Prod.mk.injEq, true_and, Json.int,
      Json.num.injEq, JsonNumber.int.injEq] at h
    exact ⟨h.1.symm, h.2.1.symm⟩
  · rintro ⟨rfl, rfl⟩
    rfl

/-- **Streaming and not streaming agree exactly on plain answers.** -/
theorem responsesToChat_agree_iff (env : Env) (model : String) (r : StreamedResponse)
    (blocks : List Bytes) (hstream : r.StreamedAs env blocks) (hresp : r.Assembles)
    (hfinal : r.completes = true) :
    SaysCompletion (foldChat (feed (openaiResponsesStreamToChat env) (.forModel model) blocks).out)
        (openaiResponsesToChat r.object) ↔
      PlainAnswer r := by
  obtain ⟨htext, hcalls, hfinish, husage⟩ := openaiResponsesToChat_read hresp
  rw [foldChat_responsesStream hstream hfinal]
  constructor
  · intro h
    have htext' := h.text
    have hcalls' := h.calls
    have hfinish' := h.finishReason
    have husage' := h.usage
    rw [htext] at htext'
    rw [hcalls] at hcalls'
    rw [hfinish, Option.some_inj] at hfinish'
    rw [husage, Option.some_inj] at husage'
    exact ⟨choiceTexts_eq_iff.1 htext', joinCalls_read_iff.1 hcalls',
      finishReason_eq_iff.1 hfinish', chatUsage_eq_iff.1 husage'⟩
  · rintro ⟨htext', hcalls', hfinish', husage'⟩
    refine ⟨?_, ?_, ?_, ?_⟩
    · rw [htext]
      exact choiceTexts_eq_iff.2 htext'
    · rw [hcalls]
      exact joinCalls_read_iff.2 hcalls'
    · rw [hfinish, Option.some_inj]
      exact finishReason_eq_iff.2 hfinish'
    · rw [husage, Option.some_inj]
      exact chatUsage_eq_iff.2 husage'

/-- A response with a text and a call, and the given usage counts. -/
def callResponse (inputTokens outputTokens : ℤ) : StreamedResponse where
  id := "resp_1"
  items := [(0, .message "msg_1" [⟨.text, ["Hel", "lo"]⟩]),
    (1, .functionCall "fc_1" "call_1" "Bash" ["\x7b", "\x7d"])]
  completes := true
  object := .obj [("id", .str "resp_1"), ("status", .str "completed"),
    ("output", .arr [.obj [("type", .str "message"), ("id", .str "msg_1"),
        ("content", .arr [.obj [("type", .str "output_text"), ("text", .str "Hello")]])],
      .obj [("type", .str "function_call"), ("id", .str "fc_1"), ("call_id", .str "call_1"),
        ("name", .str "Bash"), ("arguments", .str "\x7b\x7d")]]),
    ("usage", .obj [("input_tokens", .int inputTokens), ("output_tokens", .int outputTokens)])]

theorem callResponse_assembles (inputTokens outputTokens : ℤ) :
    (callResponse inputTokens outputTokens).Assembles := by
  refine ⟨by simp [callResponse], by simp [callResponse, StreamedItem.id], _, rfl, ?_⟩
  exact .cons ⟨rfl, rfl, _, rfl, .cons ⟨rfl, by decide⟩ .nil⟩
    (.cons ⟨rfl, rfl, rfl, rfl, by decide⟩ .nil)

theorem responsesToChat_agree_call :
    SaysCompletion
      (foldChat (feed (openaiResponsesStreamToChat (Env.ofValues (callResponse 0 0).values))
        (.forModel "gpt") ((callResponse 0 0).events.map ResponsesStreamEvent.render)).out)
      (openaiResponsesToChat (callResponse 0 0).object) :=
  (responsesToChat_agree_iff _ _ (callResponse 0 0) _
    (StreamedResponse.streamedAs_render (by decide +kernel) (fun _ hmem => List.mem_map_of_mem hmem)
      (by decide +kernel))
    (callResponse_assembles 0 0) rfl).2
    ⟨by simp [callResponse, StreamedItem.outputText, wrapI32], by decide, by decide, by decide⟩

/-- The usage of a streamed answer is not passed on. -/
theorem not_responsesToChat_agree_usage :
    (callResponse 3 2).StreamedAs (Env.ofValues (callResponse 3 2).values)
        ((callResponse 3 2).events.map ResponsesStreamEvent.render) ∧
      (callResponse 3 2).Assembles ∧ (callResponse 3 2).completes = true ∧
      ¬ SaysCompletion
        (foldChat (feed (openaiResponsesStreamToChat (Env.ofValues (callResponse 3 2).values))
          (.forModel "gpt") ((callResponse 3 2).events.map ResponsesStreamEvent.render)).out)
        (openaiResponsesToChat (callResponse 3 2).object) := by
  have hstream : (callResponse 3 2).StreamedAs (Env.ofValues (callResponse 3 2).values)
      ((callResponse 3 2).events.map ResponsesStreamEvent.render) :=
    StreamedResponse.streamedAs_render (by decide +kernel)
      (fun _ hmem => List.mem_map_of_mem hmem) (by decide +kernel)
  refine ⟨hstream, callResponse_assembles 3 2, rfl, ?_⟩
  intro h
  have husage := h.usage
  rw [foldChat_responsesStream hstream rfl] at husage
  have hcounts : chatUsage 0 0 = chatUsage 3 2 := Option.some.inj husage
  exact absurd (chatUsage_eq_iff.1 hcounts).1 (by decide)

end AiOpenRouter
