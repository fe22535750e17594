/-
The chat-completion chunk types, with the decoding `serde` derives for them.

A struct is read from an object (unknown keys ignored, an `Option` field may be
absent) or from an array with one item per field.  A `String` field must be a
JSON string and an `i32` or `i64` field an integer in range.
-/
import AiOpenRouter.Sse
import AiOpenRouter.Json

namespace AiOpenRouter

/-! ### The types -/

/-- `OpenAIFunction`. -/
structure OpenAIFunction where
  name : String
  arguments : String
  deriving DecidableEq

/-- `OpenAIToolCall`. -/
structure OpenAIToolCall where
  index : Option ℤ
  id : String
  callType : String
  function : OpenAIFunction
  deriving DecidableEq

/-- `OpenAIDelta`. -/
structure OpenAIDelta where
  role : Option String
  content : Option String
  reasoningContent : Option String
  toolCalls : Option (List OpenAIToolCall)
  deriving DecidableEq

/-- `OpenAIStreamChoice`. -/
structure OpenAIStreamChoice where
  index : ℤ
  delta : OpenAIDelta
  finishReason : Option String
  deriving DecidableEq

/-- `OpenAIUsage`. -/
structure OpenAIUsage where
  promptTokens : ℤ
  completionTokens : ℤ
  totalTokens : ℤ
  deriving DecidableEq

/-- `OpenAIStreamChunk`. -/
structure OpenAIStreamChunk where
  id : String
  object : String
  created : ℤ
  model : String
  choices : List OpenAIStreamChoice
  usage : Option OpenAIUsage
  deriving DecidableEq

/-! ### Decoding -/

namespace Decode

/-- The values of a struct's fields: by key from an object, by position from an array. -/
def fields (names : List String) : Json → Option (List (Option Json))
  | .obj entries => some (names.map fun name => entries.lookup name)
  | .arr items => if items.length = names.length then some (items.map some) else none
  | _ => none

/-- A `String` field. -/
def string : Option Json → Option String
  | some (.str s) => some s
  | _ => none

def integer (lo hi : ℤ) : Option Json → Option ℤ
  | some (.num (.int n)) => if lo ≤ n ∧ n ≤ hi then some n else none
  | _ => none

/-- An `i32` field. -/
def i32 : Option Json → Option ℤ := integer (-2147483648) 2147483647

/-- An `i64` field. -/
def i64 : Option Json → Option ℤ := integer (-9223372036854775808) 9223372036854775807

/-- An `Option` field: absent and `null` are `None`. -/
def optional {α : Type} (decode : Option Json → Option α) : Option Json → Option (Option α)
  | none | some .null => some none
  | some value => (decode (some value)).map some

/-- A `Vec` field. -/
def list {α : Type} (decode : Option Json → Option α) : Option Json → Option (List α)
  | some (.arr items) => items.mapM fun item => decode (some item)
  | _ => none

/-- `OpenAIFunction`. -/
def openAIFunction : Option Json → Option OpenAIFunction
  | some value =>
    match fields ["name", "arguments"] value with
    | some [name, arguments] => do
      return { name := ← string name, arguments := ← string arguments }
    | _ => none
  | none => none

/-- `OpenAIToolCall`. -/
def openAIToolCall : Option Json → Option OpenAIToolCall
  | some value =>
    match fields ["index", "id", "type", "function"] value with
    | some [index, id, callType, function] => do
      return { index := ← optional i32 index, id := ← string id, callType := ← string callType
               function := ← openAIFunction function }
    | _ => none
  | none => none

/-- `OpenAIDelta`, with a decoder for its tool calls. -/
def openAIDelta (toolCall : Option Json → Option OpenAIToolCall) :
    Option Json → Option OpenAIDelta
  | some value =>
    match fields ["role", "content", "reasoning_content", "tool_calls"] value with
    | some [role, content, reasoningContent, toolCalls] => do
      return { role := ← optional string role, content := ← optional string content
               reasoningContent := ← optional string reasoningContent
               toolCalls := ← optional (list toolCall) toolCalls }
    | _ => none
  | none => none

/-- `OpenAIStreamChoice`, with a decoder for its tool calls. -/
def openAIStreamChoice (toolCall : Option Json → Option OpenAIToolCall) :
    Option Json → Option OpenAIStreamChoice
  | some value =>
    match fields ["index", "delta", "finish_reason"] value with
    | some [index, delta, finishReason] => do
      return { index := ← i32 index, delta := ← openAIDelta toolCall delta
               finishReason := ← optional string finishReason }
    | _ => none
  | none => none

/-- `OpenAIUsage`. -/
def openAIUsage : Option Json → Option OpenAIUsage
  | some value =>
    match fields ["prompt_tokens", "completion_tokens", "total_tokens"] value with
    | some [promptTokens, completionTokens, totalTokens] => do
      return { promptTokens := ← i32 promptTokens, completionTokens := ← i32 completionTokens
               totalTokens := ← i32 totalTokens }
    | _ => none
  | none => none

/-- `OpenAIStreamChunk`, with a decoder for its tool calls. -/
def openAIStreamChunkOf (toolCall : Option Json → Option OpenAIToolCall) (value : Json) :
    Option OpenAIStreamChunk :=
  match fields ["id", "object", "created", "model", "choices", "usage"] value with
  | some [id, object, created, model, choices, usage] => do
    return { id := ← string id, object := ← string object, created := ← i64 created
             model := ← string model, choices := ← list (openAIStreamChoice toolCall) choices
             usage := ← optional openAIUsage usage }
  | _ => none

/-- `OpenAIStreamChunk`. -/
def openAIStreamChunk : Json → Option OpenAIStreamChunk := openAIStreamChunkOf openAIToolCall

end Decode

/-! ### Event blocks -/

/-- What one event block is to the chat → Claude converter. -/
inductive ChatInput where
  | skip
  | done
  | chunk (chunk : OpenAIStreamChunk)
  | bad (error : String)

/-- Read one event block: blocks without data are skipped, and data that is no chunk is
an error. -/
def readChatInput (env : Env) (event : Bytes) : ChatInput :=
  let jsonData := (parseSse event).2
  if jsonData = "" then .skip
  else if jsonData = "[DONE]" then .done
  else
    match env.fromStr jsonData with
    | .error e => .bad ("parse openai stream chunk: " ++ e)
    | .ok data =>
      match Decode.openAIStreamChunk data with
      | some chunk => .chunk chunk
      | none => .bad ("parse openai stream chunk: " ++ env.chunkError jsonData)

end AiOpenRouter
