/-
The Claude → Responses stream converter (`claude_stream_to_openai_responses`).

A content block becomes an output item at the block's index; the response is
completed by `message_stop`.
-/
import AiOpenRouter.ResponsesEvents
import AiOpenRouter.ChatToResponses
import AiOpenRouter.ClaudeToChat

namespace AiOpenRouter

def readClaudeChecked (env : Env) (event : Bytes) : ClaudeInput :=
  match readClaudeBlock env event with
  | .event eventType data =>
    if data.getStr "type" = some "error" then
      match (data.pointer ["error", "message"]).bind Json.asStr with
      | some message => .bad ("upstream error: " ++ message)
      | none => .bad "upstream error"
    else .event eventType data
  | input => input

/-- The block index of an event, as an `i64`. -/
def claudeIndex (data : Json) : ℤ := (data.getI64 "index").getD 0

/-- The message item of the block at `idx`. -/
def claudeMessageItem (ctx : StreamContext) (idx : ℤ) : OutputItem :=
  .message ("msg_" ++ ctx.messageId ++ "_" ++ toString idx)

/-- The finished function call item of the block at `idx`. -/
def claudeToolItem (ctx : StreamContext) (idx : ℤ) : OutputItem :=
  .functionCall (if ctx.currentToolId = "" then "tool_" ++ toString idx else ctx.currentToolId)
    (if ctx.currentToolName = "" then "unknown" else ctx.currentToolName) ctx.toolArguments

def takeClaudeMessage (msg : Json) (ctx : StreamContext) : StreamContext :=
  { ctx with
    messageId := (msg.getStr "id").getD ctx.messageId
    inputTokens :=
      match msg.get "usage" with
      | some usage => usageCount usage "input_tokens" ctx.inputTokens
      | none => ctx.inputTokens }

/-- `message_start`. -/
def onMessageStart (data : Json) (st : Emit ResponsesEvent) : Emit ResponsesEvent :=
  let st :=
    match data.get "message" with
    | some msg => st.withCtx (takeClaudeMessage msg)
    | none => st
  st.push (.created st.ctx.messageId)

def startTextItem (idx : ℤ) (st : Emit ResponsesEvent) : Emit ResponsesEvent :=
  let st := st.withCtx fun ctx =>
    { ctx with contentBlockStarted := true, contentIndex := wrapI32 idx }
  (st.push (.outputItemAdded idx (claudeMessageItem st.ctx idx))).push (.contentPartAdded idx)

def startToolItem (idx : ℤ) (block : Json) (st : Emit ResponsesEvent) : Emit ResponsesEvent :=
  let st := st.withCtx fun ctx =>
    { ctx with toolBlockStarted := true, toolIndex := wrapI32 idx
               currentToolId := (block.getStr "id").getD ctx.currentToolId
               currentToolName := (block.getStr "name").getD ctx.currentToolName }
  st.push (.outputItemAdded idx (.functionCall st.ctx.currentToolId st.ctx.currentToolName ""))

/-- `content_block_start`. -/
def onBlockStart (data : Json) (st : Emit ResponsesEvent) : Emit ResponsesEvent :=
  match data.get "content_block" with
  | none => st
  | some block =>
    match block.getStr "type" with
    | some "text" => startTextItem (claudeIndex data) st
    | some "tool_use" => startToolItem (claudeIndex data) block st
    | _ => st

/-- A message id, and `response.created`, when no `message_start` came. -/
def ensureMessageId (env : Env) (st : Emit ResponsesEvent) : Emit ResponsesEvent :=
  if st.ctx.messageId = "" then
    let st := st.withCtx fun ctx =>
      { ctx with messageId := "msg_" ++ env.uuidV4 ctx.uuidsDrawn
                 uuidsDrawn := ctx.uuidsDrawn + 1 }
    st.push (.created st.ctx.messageId)
  else st

/-- `text_delta`. -/
def onTextDelta (idx : ℤ) (delta : Json) (st : Emit ResponsesEvent) : Emit ResponsesEvent :=
  let st := if st.ctx.contentBlockStarted then st else startTextItem idx st
  match delta.getStr "text" with
  | some text => st.push (.outputTextDelta st.ctx.contentIndex text)
  | none => st

/-- A tool block that no `content_block_start` opened. -/
def ensureToolItem (idx : ℤ) (st : Emit ResponsesEvent) : Emit ResponsesEvent :=
  if st.ctx.toolBlockStarted then st
  else
    let id := "tool_" ++ toString idx
    (st.push (.outputItemAdded idx (.functionCall id "unknown" ""))).withCtx fun ctx =>
      { ctx with toolBlockStarted := true, toolIndex := idx
                 currentToolId := if ctx.currentToolId = "" then id else ctx.currentToolId }

/-- `input_json_delta`. -/
def onInputJsonDelta (idx : ℤ) (delta : Json) (st : Emit ResponsesEvent) : Emit ResponsesEvent :=
  let st := ensureToolItem idx st
  match delta.getStr "partial_json" with
  | some partialJson =>
    let st := st.withCtx fun ctx =>
      { ctx with toolArguments := ctx.toolArguments ++ partialJson }
    st.push (.functionCallArgumentsDelta st.ctx.toolIndex partialJson)
  | none => st

/-- `content_block_delta`. -/
def onBlockDelta (env : Env) (data : Json) (st : Emit ResponsesEvent) : Emit ResponsesEvent :=
  match data.get "delta" with
  | none => st
  | some delta =>
    let idx := wrapI32 (claudeIndex data)
    let st := ensureMessageId env st
    match delta.getStr "type" with
    | some "text_delta" => onTextDelta idx delta st
    | some "input_json_delta" => onInputJsonDelta idx delta st
    | _ => st

def pushToolDone (idx : ℤ) (st : Emit ResponsesEvent) : Emit ResponsesEvent :=
  (st.push (.functionCallArgumentsDone idx st.ctx.toolArguments)).push
    (.outputItemDone idx (claudeToolItem st.ctx idx))

/-- `content_block_stop`. -/
def onBlockStop (data : Json) (st : Emit ResponsesEvent) : Emit ResponsesEvent :=
  let idx := claudeIndex data
  if st.ctx.toolBlockStarted ∧ idx = st.ctx.toolIndex then
    (pushToolDone idx st).withCtx fun ctx =>
      { ctx with toolBlockStarted := false, toolArguments := "" }
  else if st.ctx.contentBlockStarted ∧ idx = st.ctx.contentIndex then
    (((st.push (.outputTextDone idx)).push (.contentPartDone idx)).push
      (.outputItemDone idx (claudeMessageItem st.ctx idx))).withCtx fun ctx =>
        { ctx with contentBlockStarted := false }
  else st

/-- `message_delta`: the output count. -/
def onMessageDelta (data : Json) (st : Emit ResponsesEvent) : Emit ResponsesEvent :=
  match data.get "usage" with
  | some usage => st.withCtx fun ctx =>
      { ctx with outputTokens := usageCount usage "output_tokens" ctx.outputTokens }
  | none => st

/-- `message_stop`: an open tool item ends, and the response is completed. -/
def onMessageStop (st : Emit ResponsesEvent) : Emit ResponsesEvent :=
  let st := if st.ctx.toolBlockStarted then pushToolDone st.ctx.toolIndex st else st
  (st.push (.completed st.ctx.messageId (reportedUsage st.ctx))).push .doneMarker

def convertClaudeToResponses (env : Env) (eventType : String) (data : Json)
    (st : Emit ResponsesEvent) : Emit ResponsesEvent :=
  match eventType with
  | "message_start" => onMessageStart data st
  | "content_block_start" => onBlockStart data st
  | "content_block_delta" => onBlockDelta env data st
  | "content_block_stop" => onBlockStop data st
  | "message_delta" => onMessageDelta data st
  | "message_stop" => onMessageStop st
  | _ => st

/-- `claude_stream_to_openai_responses`. -/
def claudeStreamToOpenaiResponses (env : Env) (event : Bytes) (ctx : StreamContext) :
    Except String (List ResponsesEvent × StreamContext) :=
  match readClaudeChecked env event with
  | .skip => .ok ([], ctx)
  | .event eventType data =>
    .ok (convertClaudeToResponses env eventType data (Emit.start ctx)).finish
  | .bad error => .error error

end AiOpenRouter
