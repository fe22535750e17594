/-
The chat → Responses stream converter (`openai_chat_stream_to_responses`).

`content_block_started` says that the message item is open and
`tool_block_started` that a function call item is; `tool_arguments` collects
the arguments of the open call.  The `[DONE]` branch and the `finish_reason`
branch of the source close the items and complete the response in the same
way, once: `completeResponse`.
-/
import AiOpenRouter.ResponsesEvents

namespace AiOpenRouter

/-! ### Reading a block -/

/-- What one event block of data is to the converters that look at the JSON value only. -/
inductive DataBlock where
  | skip
  | done
  | data (data : Json)
  | bad (error : String)

def readDataBlock (env : Env) (event : Bytes) : DataBlock :=
  let jsonData := (parseSse event).2
  if jsonData = "[DONE]" then .done
  else if jsonData = "" then .skip
  else
    match env.fromStr jsonData with
    | .error e => .bad ("parse: " ++ e)
    | .ok data => .data data

def readChatData (env : Env) (event : Bytes) : DataBlock :=
  match readDataBlock env event with
  | .data data =>
    match (data.pointer ["error", "message"]).bind Json.asStr with
    | some errMsg => .bad ("upstream error: " ++ errMsg)
    | none => .data data
  | block => block

/-! ### The chunk's id and usage -/

def takeMessageId (env : Env) (data : Json) (ctx : StreamContext) : StreamContext :=
  if ctx.messageId = "" then
    match data.getStr "id" with
    | some id => { ctx with messageId := id }
    | none =>
      { ctx with messageId := "chatcmpl_" ++ env.uuidV4 ctx.uuidsDrawn
                 uuidsDrawn := ctx.uuidsDrawn + 1 }
  else ctx

def usageCount (usage : Json) (key : String) (known : ℤ) : ℤ :=
  match usage.getI64 key with
  | some count => wrapI32 count
  | none => known

def takeUsage (data : Json) (ctx : StreamContext) : StreamContext :=
  match data.get "usage" with
  | some usage =>
    { ctx with inputTokens := usageCount usage "prompt_tokens" ctx.inputTokens
               outputTokens := usageCount usage "completion_tokens" ctx.outputTokens }
  | none => ctx

/-! ### The message item -/

def messageItemId (ctx : StreamContext) : String :=
  "msg_" ++ ctx.messageId ++ "_" ++ toString ctx.contentIndex

/-- `response.created`, before the first delta. -/
def ensureCreated (st : Emit ResponsesEvent) : Emit ResponsesEvent :=
  if st.ctx.messageStartSent then st
  else
    (st.push (.created st.ctx.messageId)).withCtx fun ctx => { ctx with messageStartSent := true }

/-- The block `if !ctx.content_block_started { … }`. -/
def ensureMessageItem (st : Emit ResponsesEvent) : Emit ResponsesEvent :=
  if st.ctx.contentBlockStarted then st
  else
    let st := st.withCtx fun ctx => { ctx with contentBlockStarted := true, contentIndex := 0 }
    (st.push (.outputItemAdded st.ctx.contentIndex (.message (messageItemId st.ctx)))).push
      (.contentPartAdded st.ctx.contentIndex)

def emitContent (content : String) (st : Emit ResponsesEvent) : Emit ResponsesEvent :=
  let st := ensureMessageItem st
  st.push (.outputTextDelta st.ctx.contentIndex content)

/-- The message item ends because a tool call comes: no `response.content_part.done` here. -/
def leaveMessageItem (st : Emit ResponsesEvent) : Emit ResponsesEvent :=
  if st.ctx.contentBlockStarted then
    ((st.push (.outputTextDone st.ctx.contentIndex)).push
      (.outputItemDone st.ctx.contentIndex (.message (messageItemId st.ctx)))).withCtx fun ctx =>
        { ctx with contentBlockStarted := false }
  else st

def closeMessageItem (st : Emit ResponsesEvent) : Emit ResponsesEvent :=
  if st.ctx.contentBlockStarted then
    (((st.push (.outputTextDone st.ctx.contentIndex)).push
      (.contentPartDone st.ctx.contentIndex)).push
      (.outputItemDone st.ctx.contentIndex (.message (messageItemId st.ctx)))).withCtx fun ctx =>
        { ctx with contentBlockStarted := false }
  else st

/-! ### The function call item -/

def takeToolName (id function : Json) (ctx : StreamContext) : StreamContext :=
  match id.asStr, function.getStr "name" with
  | some id, some name => { ctx with currentToolId := id, currentToolName := name }
  | _, _ => ctx

def openFunctionCall (toolIdx : ℤ) (id function : Json) (st : Emit ResponsesEvent) :
    Emit ResponsesEvent :=
  if st.ctx.toolBlockStarted = false ∨ st.ctx.toolIndex ≠ toolIdx then
    let st := st.withCtx fun ctx =>
      takeToolName id function
        { ctx with toolBlockStarted := true, toolIndex := toolIdx, toolArguments := "" }
    st.push (.outputItemAdded toolIdx
      (.functionCall st.ctx.currentToolId st.ctx.currentToolName ""))
  else st

def startFunctionCall (toolIdx : ℤ) (id function : Option Json) (st : Emit ResponsesEvent) :
    Emit ResponsesEvent :=
  match id, function with
  | some id, some function => openFunctionCall toolIdx id function (leaveMessageItem st)
  | _, _ => st

def emitArguments (function : Option Json) (st : Emit ResponsesEvent) : Emit ResponsesEvent :=
  match function.bind fun function => function.getStr "arguments" with
  | some args =>
    let st := st.withCtx fun ctx => { ctx with toolArguments := ctx.toolArguments ++ args }
    st.push (.functionCallArgumentsDelta st.ctx.toolIndex args)
  | none => st

def toolCallIndex (tc : Json) : ℤ := (tc.getI64 "index").getD 0

/-- The output index of a tool call: `index as i32 + 1`. -/
def toolOutputIndex (index : ℤ) : ℤ := wrapI32 (wrapI32 index + 1)

/-- One iteration over `tool_calls`. -/
def onToolCallDelta (st : Emit ResponsesEvent) (tc : Json) : Emit ResponsesEvent :=
  emitArguments (tc.get "function")
    (startFunctionCall (toolOutputIndex (toolCallIndex tc)) (tc.get "id") (tc.get "function") st)

def closeFunctionCall (st : Emit ResponsesEvent) : Emit ResponsesEvent :=
  if st.ctx.toolBlockStarted then
    let id :=
      if st.ctx.currentToolId = "" then "call_" ++ toString st.ctx.toolIndex
      else st.ctx.currentToolId
    let name := if st.ctx.currentToolName = "" then "unknown" else st.ctx.currentToolName
    ((st.push (.functionCallArgumentsDone st.ctx.toolIndex st.ctx.toolArguments)).push
      (.outputItemDone st.ctx.toolIndex (.functionCall id name st.ctx.toolArguments))).withCtx
        fun ctx => { ctx with toolBlockStarted := false }
  else st

/-! ### The converter -/

/-- The usage that `response.completed` reports. -/
def reportedUsage (ctx : StreamContext) : ResponsesUsage where
  inputTokens := ctx.inputTokens
  outputTokens := ctx.outputTokens
  totalTokens := wrapI32 (ctx.inputTokens + ctx.outputTokens)

def completeResponse (st : Emit ResponsesEvent) : Emit ResponsesEvent :=
  if st.ctx.finishReasonSent then st
  else
    let st := closeMessageItem (closeFunctionCall st)
    ((st.push (.completed st.ctx.messageId (reportedUsage st.ctx))).push .doneMarker).withCtx
      fun ctx => { ctx with finishReasonSent := true }

def onDelta (delta : Json) (st : Emit ResponsesEvent) : Emit ResponsesEvent :=
  let st := ensureCreated st
  let st :=
    match delta.getStr "content" with
    | some content => emitContent content st
    | none => st
  (((delta.get "tool_calls").bind Json.asArray).getD []).foldl onToolCallDelta st

theorem onDelta_elim (delta : Json) (st : Emit ResponsesEvent) :
    onDelta delta st =
      (((delta.get "tool_calls").bind Json.asArray).getD []).foldl onToolCallDelta
        ((delta.getStr "content").elim (ensureCreated st)
          fun content => emitContent content (ensureCreated st)) := by
  unfold onDelta
  cases delta.getStr "content" <;> rfl

def onFinish (choice : Json) (st : Emit ResponsesEvent) : Emit ResponsesEvent :=
  match choice.getStr "finish_reason" with
  | some finishReason => if finishReason = "" then st else completeResponse st
  | none => st

/-- One iteration over `choices`. -/
def onStreamChoice (st : Emit ResponsesEvent) (choice : Json) : Emit ResponsesEvent :=
  onFinish choice
    (match choice.get "delta" with
    | some delta => onDelta delta st
    | none => st)

theorem onStreamChoice_elim (choice : Json) (st : Emit ResponsesEvent) :
    onStreamChoice st choice =
      onFinish choice ((choice.get "delta").elim st fun delta => onDelta delta st) := by
  unfold onStreamChoice
  cases choice.get "delta" <;> rfl

def convertChatData (env : Env) (data : Json) (st : Emit ResponsesEvent) : Emit ResponsesEvent :=
  let st := st.withCtx fun ctx => takeUsage data (takeMessageId env data ctx)
  (((data.get "choices").bind Json.asArray).getD []).foldl onStreamChoice st

/-- `openai_chat_stream_to_responses`. -/
def openaiChatStreamToResponses (env : Env) (event : Bytes) (ctx : StreamContext) :
    Except String (List ResponsesEvent × StreamContext) :=
  match readChatData env event with
  | .skip => .ok ([], ctx)
  | .done => .ok (completeResponse (Emit.start ctx)).finish
  | .data data => .ok (convertChatData env data (Emit.start ctx)).finish
  | .bad error => .error error

/-- The events that a sequence of upstream blocks is converted to, from a fresh context. -/
def chatToResponsesRun (env : Env) (events : List Bytes) :
    Trace.Outcome ResponsesEvent StreamContext String :=
  Trace.feed (openaiChatStreamToResponses env) StreamContext.new events

end AiOpenRouter
