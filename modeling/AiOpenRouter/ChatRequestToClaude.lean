/-
The chat → Claude request converter (`openai_req_to_claude`).

* `claudeMessageOfChat` is what one chat message becomes: its content, the tool
  uses of its calls behind it, and one tool result in place of both for a `tool`
  message;
* `openaiReqToClaude` is the converter, between its `serde` calls.
-/
import AiOpenRouter.ChatRequestToResponses

namespace AiOpenRouter

/-! ### Contents -/

/-- The text of a part of type `text`, `input_text` or `output_text`. -/
def openaiPartText (item : Json) : Option String :=
  match item.getStr "type" with
  | some "text" | some "input_text" | some "output_text" => item.getStr "text"
  | _ => none

def joinOpenaiParts (env : Env) (separator : String) : Option Json → String
  | some (.arr items) => separator.intercalate (items.filterMap openaiPartText)
  | content => jsonValueToString env content

/-- `extract_openai_text_content`. -/
def extractOpenaiTextContent (env : Env) (content : Option Json) : String :=
  joinOpenaiParts env "" content

/-- `extract_openai_tool_result_content`. -/
def extractOpenaiToolResultContent (env : Env) (content : Option Json) : String :=
  joinOpenaiParts env "\n" content

/-- `convert_data_url_to_claude_image`. -/
def convertDataUrlToClaudeImage (url : String) : Option Json :=
  if (Text.stripPrefix "data:" url.toList).isSome then
    let header := url.toList.takeWhile (· ≠ ',')
    match url.toList.dropWhile (· ≠ ',') with
    | [] => none
    | _ :: data =>
      let mediaType := ((Text.stripPrefix "data:" header).getD []).takeWhile (· ≠ ';')
      if mediaType = [] then none
      else
        some (.obj [("type", .str "image"),
          ("source", .obj [("type", .str "base64"), ("media_type", .str (String.ofList mediaType)),
            ("data", .str (String.ofList data))])])
  else none

def claudeBlockOfPart (item : Json) : Option Json :=
  match (item.getStr "type").getD "" with
  | "text" | "input_text" | "output_text" =>
    (item.getStr "text").map fun text => .obj [("type", .str "text"), ("text", .str text)]
  | "image_url" =>
    ((item.get "image_url").bind (·.getStr "url")).bind convertDataUrlToClaudeImage
  | _ => none

/-- `convert_openai_content_to_claude_blocks`. -/
def convertOpenaiContentToClaudeBlocks (content : Json) : List Json :=
  (content.asArray.getD []).filterMap claudeBlockOfPart

def claudeContentOfChat (env : Env) : Option Json → Json
  | some (.str text) => .str text
  | some (.arr items) => .arr (convertOpenaiContentToClaudeBlocks (.arr items))
  | some other => .str (jsonValueToString env (some other))
  | none => .str ""

/-! ### Messages -/

def contentBlocks : Json → List Json
  | .str text => if text ≠ "" then [.obj [("type", .str "text"), ("text", .str text)]] else []
  | .arr existing => existing
  | _ => []

/-- The `tool_use` block of a tool call: arguments that do not parse are the empty object. -/
def toolUseOfChat (env : Env) (toolCall : Json) : Json :=
  let call := readToolCall toolCall
  .obj [("type", .str "tool_use"), ("id", .str call.1), ("name", .str call.2.1),
    ("input", ((env.fromStr call.2.2).toOption).getD (.obj []))]

def claudeMessageOfChat (env : Env) (msg : Json) : ClaudeMessage :=
  let role := itemRole msg
  let content := claudeContentOfChat env (msg.get "content")
  let content := match (msg.get "tool_calls").bind Json.asArray with
    | some toolCalls => .arr (contentBlocks content ++ toolCalls.map (toolUseOfChat env))
    | none => content
  if role = "tool" then
    { role := "user"
      content := .arr [.obj [("type", .str "tool_result"),
        ("tool_use_id", .str ((msg.getStr "tool_call_id").getD "")),
        ("content", .str (extractOpenaiToolResultContent env (msg.get "content")))]] }
  else { role := role, content := content }

def systemTextOfChat (env : Env) (msg : Json) : Option String :=
  let text := extractOpenaiTextContent env (msg.get "content")
  if Text.trim text.toList ≠ [] then some text else none

/-! ### The request -/

def claudeToolOfChat (tool : Json) : Option Json := do
  guard (tool.getStr "type" = some "function")
  let function ← tool.get "function"
  let name ← function.get "name"
  let parameters ← function.get "parameters"
  return .obj [("name", name), ("description", (function.get "description").getD .null),
    ("input_schema", parameters)]

def claudeToolsOfChat (req : Json) : Option Json :=
  (((req.get "tools").bind Json.asArray).map fun tools => tools.filterMap claudeToolOfChat).bind
    fun tools => if tools = [] then none else some (.arr tools)

/-- `openai_req_to_claude`, between its `serde` calls. -/
def openaiReqToClaude (env : Env) (req : Json) (model : String) : Json :=
  let systemMessages := (chatMessages req).filter fun msg => itemRole msg = "system"
  let otherMessages := (chatMessages req).filter fun msg => itemRole msg ≠ "system"
  let systemPrompt := systemMessages.filterMap (systemTextOfChat env)
  let fields : List (String × Json) :=
    [("model", .str model), ("max_tokens", .int 8192),
      ("stream", (req.get "stream").getD (.bool false))]
  let fields := Json.insertSome fields "max_tokens"
    (req.get "max_tokens" <|> req.get "max_completion_tokens")
  let fields := Json.insertSome fields "temperature" (req.get "temperature")
  let fields := Json.insertSome fields "thinking" ((req.get "thinking").filter (¬ ·.isNull))
  let fields := Json.insertSome fields "system"
    (if systemPrompt = [] then none
      else some (.str (String.ofList (Text.trim ("\n".intercalate systemPrompt).toList))))
  let fields := Json.insertField fields "messages"
    (.arr ((otherMessages.map (claudeMessageOfChat env)).map ClaudeMessage.toJson))
  .obj (Json.insertSome fields "tools" (claudeToolsOfChat req))

end AiOpenRouter
