/-
The Claude → chat stream converter (`claude_stream_to_openai`).

It keeps no blocks: a text delta is a content chunk, the stop reason is the
finish chunk, and `message_stop` is the done marker.
-/
import AiOpenRouter.ChatEvents

namespace AiOpenRouter

/-! ### Reading a block -/

inductive ClaudeInput where
  | skip
  | event (eventType : String) (data : Json)
  | bad (error : String)

def readClaudeBlock (env : Env) (event : Bytes) : ClaudeInput :=
  let parsed := parseSse event
  if parsed.2 = "" then .skip
  else
    match env.fromStr parsed.2 with
    | .error e => .bad ("parse: " ++ e)
    | .ok data => .event parsed.1 data

/-! ### The converter -/

def chatFinishReason (reason : String) : String :=
  match reason with
  | "end_turn" => "stop"
  | "max_tokens" => "length"
  | "tool_use" => "tool_calls"
  | _ => "stop"

def claudeChatChunk (ctx : StreamContext) (delta : Json) (finishReason : Option String) :
    ChatEvent :=
  .chunk { id := ctx.messageId, created := none, model := ctx.modelName, index := 0
           delta := delta, finishReason := finishReason, usage := none }

/-- `message_start`: the message id. -/
def onClaudeMessageStart (data : Json) (st : Emit ChatEvent) : Emit ChatEvent :=
  match (data.get "message").bind fun msg => msg.getStr "id" with
  | some id => st.withCtx fun ctx => { ctx with messageId := id }
  | none => st

/-- `content_block_delta`: text only. -/
def onClaudeDelta (data : Json) (st : Emit ChatEvent) : Emit ChatEvent :=
  match data.get "delta" with
  | none => st
  | some delta =>
    if delta.getStr "type" = some "text_delta" then
      match delta.getStr "text" with
      | some text => st.push (claudeChatChunk st.ctx (.obj [("content", .str text)]) none)
      | none => st
    else st

/-- `message_delta`: the stop reason. -/
def onClaudeMessageDelta (data : Json) (st : Emit ChatEvent) : Emit ChatEvent :=
  match (data.get "delta").bind fun delta => delta.getStr "stop_reason" with
  | some reason => st.push (claudeChatChunk st.ctx (.obj []) (some (chatFinishReason reason)))
  | none => st

def convertClaudeToChat (eventType : String) (data : Json) (st : Emit ChatEvent) :
    Emit ChatEvent :=
  match eventType with
  | "message_start" => onClaudeMessageStart data st
  | "content_block_delta" => onClaudeDelta data st
  | "message_delta" => onClaudeMessageDelta data st
  | "message_stop" => st.push .doneMarker
  | _ => st

/-- `claude_stream_to_openai`. -/
def claudeStreamToOpenai (env : Env) (event : Bytes) (ctx : StreamContext) :
    Except String (List ChatEvent × StreamContext) :=
  match readClaudeBlock env event with
  | .skip => .ok ([], ctx)
  | .event eventType data => .ok (convertClaudeToChat eventType data (Emit.start ctx)).finish
  | .bad error => .error error

end AiOpenRouter
