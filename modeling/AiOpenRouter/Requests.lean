/-
The request types of the Claude and the chat-completion protocol, as `serde`
hands them to the request converters and as the converters give them back.
-/
import AiOpenRouter.ChatChunk

namespace AiOpenRouter

/-! ### Claude -/

/-- `ClaudeMessage`. -/
structure ClaudeMessage where
  role : String
  content : Json

/-- `ClaudeTool`. -/
structure ClaudeTool where
  name : String
  description : Option String
  inputSchema : Json

/-- `ClaudeRequest`. -/
structure ClaudeRequest where
  model : String
  messages : List ClaudeMessage
  maxTokens : Option ℤ := none
  temperature : Option JsonNumber := none
  stream : Option Bool := none
  system : Option Json := none
  tools : Option (List ClaudeTool) := none
  toolChoice : Option Json := none
  thinking : Option Json := none

/-- The content blocks of a message: none when its content is no array. -/
def ClaudeMessage.blocks (msg : ClaudeMessage) : List Json := msg.content.asArray.getD []

/-! ### Chat completions -/

/-- `OpenAIMessage`. -/
structure OpenAIMessage where
  role : String
  content : Option Json
  toolCalls : Option (List OpenAIToolCall)
  toolCallId : Option String

/-- `OpenAIToolFunction`. -/
structure OpenAIToolFunction where
  name : String
  description : Option String
  parameters : Json

/-- `OpenAITool`. -/
structure OpenAITool where
  toolType : String
  function : OpenAIToolFunction

/-- `OpenAIStreamOptions`. -/
structure OpenAIStreamOptions where
  includeUsage : Bool

/-- `OpenAIRequest`. -/
structure OpenAIRequest where
  model : String
  messages : List OpenAIMessage
  maxTokens : Option ℤ
  maxCompletionTokens : Option ℤ
  temperature : Option JsonNumber
  stream : Option Bool
  streamOptions : Option OpenAIStreamOptions
  tools : Option (List OpenAITool)
  toolChoice : Option Json
  reasoningEffort : Option String

/-! ### Building JSON objects -/

/-- The JSON object of a message. -/
def ClaudeMessage.toJson (msg : ClaudeMessage) : Json :=
  .obj [("role", .str msg.role), ("content", msg.content)]

/-- `Value::as_bool`. -/
def Json.asBool : Json → Option Bool
  | .bool b => some b
  | _ => none

/-- `Value::is_null`. -/
def Json.isNull : Json → Bool
  | .null => true
  | _ => false

/-- `value[key] = field` when there is a field to set. -/
def Json.insertSome (fields : List (String × Json)) (key : String) (value : Option Json) :
    List (String × Json) :=
  match value with
  | some value => Json.insertField fields key value
  | none => fields

variable (fields : List (String × Json)) (key key' : String) (value : Json)

theorem lookup_map_replace (h : key' ≠ key) :
    (fields.map fun field => if field.1 = key then (key, value) else field).lookup key' =
      fields.lookup key' := by
  induction fields with
  | nil => rfl
  | cons field fields ih =>
    rw [List.map_cons]
    by_cases hk : field.1 = key
    · rw [if_pos hk, List.lookup_cons, List.lookup_cons, ih, hk, beq_false_of_ne h]
    · rw [if_neg hk, List.lookup_cons, List.lookup_cons, ih]

theorem lookup_map_replace_self (h : fields.any (·.1 = key)) :
    (fields.map fun field => if field.1 = key then (key, value) else field).lookup key =
      some value := by
  induction fields with
  | nil => simp at h
  | cons field fields ih =>
    rw [List.map_cons]
    by_cases hk : field.1 = key
    · rw [if_pos hk]
      simp
    · rw [if_neg hk, List.lookup_cons, beq_false_of_ne (Ne.symm hk)]
      exact ih (by simpa [hk] using h)

@[simp] theorem lookup_insertField :
    (Json.insertField fields key value).lookup key' =
      if key' = key then some value else fields.lookup key' := by
  unfold Json.insertField
  by_cases hany : fields.any (·.1 = key) = true
  · rw [if_pos hany]
    by_cases hk : key' = key
    · rw [if_pos hk, hk, lookup_map_replace_self fields key value hany]
    · rw [if_neg hk, lookup_map_replace fields key key' value hk]
  · rw [if_neg hany, List.lookup_append]
    by_cases hk : key' = key
    · have hnone : fields.lookup key = none := by
        rw [List.lookup_eq_none_iff]
        intro field hmem
        rw [bne_iff_ne]
        rintro rfl
        exact hany (List.any_eq_true.2 ⟨field, hmem, by simp⟩)
      rw [hk, hnone]
      simp
    · simp [List.lookup_cons, hk, beq_false_of_ne hk]

@[simp] theorem lookup_insertSome (value : Option Json) :
    (Json.insertSome fields key value).lookup key' =
      if key' = key then value.or (fields.lookup key) else fields.lookup key' := by
  cases value with
  | none => by_cases h : key' = key <;> simp [Json.insertSome, h]
  | some value => simp [Json.insertSome]

theorem Json.get_of_getStr {data : Json} {key s : String} (h : data.getStr key = some s) :
    data.get key = some (.str s) := by
  obtain ⟨value, hvalue, hstr⟩ := Option.bind_eq_some_iff.1 h
  cases value with
  | str t => rw [hvalue, ← Option.some.inj hstr]
  | _ => cases hstr

/-! ### Texts inside requests -/

/-- The `text` values of the blocks of an array. -/
def blockTexts (blocks : List Json) : List String :=
  blocks.filterMap fun block => block.getStr "text"

/-- `extract_system_text`. -/
def extractSystemText : Json → String
  | .str s => s
  | .arr blocks => "\n".intercalate (blockTexts blocks)
  | _ => ""

/-- `extract_tool_result_content`. -/
def extractToolResultContent (env : Env) : Json → String
  | .str s => s
  | .arr blocks => "\n".intercalate (blockTexts blocks)
  | content => env.toStr content

end AiOpenRouter
