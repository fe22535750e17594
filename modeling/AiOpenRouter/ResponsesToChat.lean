/-
The Responses → chat stream converter (`openai_responses_stream_to_chat`).

The finish chunk comes with `response.completed`, the done marker with the
upstream's own.
-/
import AiOpenRouter.ChatEvents
import AiOpenRouter.ChatToResponses

namespace AiOpenRouter

def responsesChatChunk (ctx : StreamContext) (index : ℤ) (delta : Json)
    (finishReason : Option String) (usage : Option Json) : ChatEvent :=
  .chunk { id := ctx.messageId, created := some 1234567890, model := ctx.modelName, index := index
           delta := delta, finishReason := finishReason, usage := usage }

def eventOutputIndex (data : Json) : ℤ := wrapI32 ((data.getI64 "output_index").getD 0)

def eventDelta (data : Json) : String := (data.getStr "delta").getD ""

/-- `response.created`: the message id. -/
def onChatCreated (data : Json) (st : Emit ChatEvent) : Emit ChatEvent :=
  match (data.get "response").bind fun response => response.getStr "id" with
  | some id => st.withCtx fun ctx => { ctx with messageId := id }
  | none => st

def ensureRole (st : Emit ChatEvent) : Emit ChatEvent :=
  if st.ctx.messageStartSent then st
  else
    (st.push (responsesChatChunk st.ctx 0 (.obj [("role", .str "assistant")]) none none)).withCtx
      fun ctx => { ctx with messageStartSent := true }

/-- `response.output_text.delta`. -/
def onChatTextDelta (data : Json) (st : Emit ChatEvent) : Emit ChatEvent :=
  let st := ensureRole st
  st.push (responsesChatChunk st.ctx (eventOutputIndex data)
    (.obj [("content", .str (eventDelta data))]) none none)

def startChatToolCall (data item : Json) (st : Emit ChatEvent) : Emit ChatEvent :=
  match item.getStr "id", item.getStr "name" with
  | some id, some name =>
    let outputIndex := eventOutputIndex data
    let st := st.withCtx fun ctx =>
      { ctx with currentToolId := id, currentToolName := name, toolIndex := outputIndex }
    st.push (responsesChatChunk st.ctx 0
      (.obj [("tool_calls", .arr [.obj [("index", .int outputIndex), ("id", .str id),
        ("type", .str "function"),
        ("function", .obj [("name", .str name), ("arguments", .str "")])]])]) none none)
  | _, _ => st

/-- `response.output_item.added`: function calls only. -/
def onChatItemAdded (data : Json) (st : Emit ChatEvent) : Emit ChatEvent :=
  match data.get "item" with
  | none => st
  | some item =>
    if item.getStr "type" = some "function_call" then startChatToolCall data item st else st

/-- `response.function_call_arguments.delta`. -/
def onChatArgumentsDelta (data : Json) (st : Emit ChatEvent) : Emit ChatEvent :=
  let st := st.withCtx fun ctx =>
    { ctx with toolArguments := ctx.toolArguments ++ eventDelta data }
  st.push (responsesChatChunk st.ctx 0
    (.obj [("tool_calls", .arr [.obj [("index", .int (eventOutputIndex data)),
      ("function", .obj [("arguments", .str (eventDelta data))])]])]) none none)

def completedFinishReason (status : String) (ctx : StreamContext) : String :=
  if status = "completed" ∧ ctx.currentToolId ≠ "" then "tool_calls" else "stop"

/-- `response.completed`: the finish chunk. -/
def onChatCompleted (data : Json) (st : Emit ChatEvent) : Emit ChatEvent :=
  let status := ((data.get "response").bind fun response =>
    response.getStr "status").getD "completed"
  st.push (responsesChatChunk st.ctx 0 (.obj []) (some (completedFinishReason status st.ctx))
    (some (.obj [("prompt_tokens", .int st.ctx.inputTokens),
      ("completion_tokens", .int st.ctx.outputTokens),
      ("total_tokens", .int (wrapI32 (st.ctx.inputTokens + st.ctx.outputTokens)))])))

def convertResponsesToChat (data : Json) (st : Emit ChatEvent) : Emit ChatEvent :=
  match (data.getStr "type").getD "" with
  | "response.created" => onChatCreated data st
  | "response.output_text.delta" => onChatTextDelta data st
  | "response.output_item.added" => onChatItemAdded data st
  | "response.function_call_arguments.delta" => onChatArgumentsDelta data st
  | "response.completed" => onChatCompleted data st
  | _ => st

/-- `openai_responses_stream_to_chat`. -/
def openaiResponsesStreamToChat (env : Env) (event : Bytes) (ctx : StreamContext) :
    Except String (List ChatEvent × StreamContext) :=
  match readDataBlock env event with
  | .done => .ok ([.doneMarker], ctx)
  | .skip => .ok ([], ctx)
  | .data data => .ok (convertResponsesToChat data (Emit.start ctx)).finish
  | .bad error => .error error

end AiOpenRouter
