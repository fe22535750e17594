/-
The text of a tool result on the two OpenAI routes.

`claude_req_to_openai` and `claude_req_to_openai_responses` read the content of a
`tool_result` block with an extractor each.

* `toolTexts` and `outputTexts` are the answers that the two requests carry: the
  id that is answered, and the text;
* `extractToolResultContent_eq_iff`: the extractors agree on one content exactly
  when it is there and no array;
* `sameToolTexts_iff`: the two requests carry the same answers exactly when every
  tool result has such a content.
-/
import AiOpenRouter.ClaudeRequestToResponses
import AiOpenRouter.JsonPrinting

namespace AiOpenRouter

/-! ### The answers that a request carries -/

def toolMessageText (message : OpenAIMessage) : Option (String × String) :=
  message.toolCallId.map fun id => (id, (message.content.bind Json.asStr).getD "")

/-- The answers of a chat request. -/
def toolTexts (req : OpenAIRequest) : List (String × String) :=
  req.messages.filterMap toolMessageText

/-- The answer of a `function_call_output` item. -/
def outputText (item : Json) : Option (String × String) :=
  if item.getStr "type" = some "function_call_output" then
    some ((item.getStr "call_id").getD "", (item.getStr "output").getD "")
  else none

/-- The answers of a Responses request. -/
def outputTexts (req : Json) : List (String × String) :=
  (((req.get "input").bind Json.asArray).getD []).filterMap outputText

def IsAnswer (block : Json) : Prop :=
  block.getStr "type" = some "tool_result" ∧ (block.getStr "tool_use_id").getD "" ≠ ""

instance (block : Json) : Decidable (IsAnswer block) := inferInstanceAs (Decidable (_ ∧ _))

/-- A content that both extractors read alike: it is there, and no array. -/
def ContentReadAlike (block : Json) : Prop :=
  ∃ content, block.get "content" = some content ∧ content.asArray = none

/-! ### One content -/

theorem intercalate_blockTexts_ne_compact (blocks : List Json) :
    "\n".intercalate (blockTexts blocks) ≠ (Json.arr blocks).compact := by
  intro heq
  have hblock : ∀ block ∈ blocks, ∀ text ∈ block.getStr "text",
      text.length ≤ block.compact.length :=
    fun block _ text htext => Json.length_compact_of_getStr htext
  have hle := length_intercalate_filterMap_le (show "\n".length ≤ ",".length by decide) hblock
  have hlength := congrArg String.length heq
  rw [Json.compact, Json.compactItems_eq_map, String.length_append, String.length_append,
    show "[".length = 1 by decide, show "]".length = 1 by decide] at hlength
  have hsame : ("\n".intercalate (blockTexts blocks)).length =
      ("\n".intercalate (blocks.filterMap fun block => block.getStr "text")).length := rfl
  omega

/-- **The extractors agree on a content exactly when it is there and no array.** -/
theorem extractToolResultContent_eq_iff {env : Env} (henv : env.toStr = Json.compact)
    (block : Json) :
    extractToolResultContent env ((block.get "content").getD .null) =
      toolResultToString env (block.get "content") ↔ ContentReadAlike block := by
  unfold ContentReadAlike
  cases hcontent : block.get "content" with
  | none =>
    -- a missing content is the text `null` for chat, and no text for Responses
    simp [extractToolResultContent, toolResultToString, henv, Json.compact]
  | some content =>
    cases content with
    | arr blocks =>
      simpa [extractToolResultContent, toolResultToString, henv, Json.asArray] using
        intercalate_blockTexts_ne_compact blocks
    | _ => simp [extractToolResultContent, toolResultToString, Json.asArray]

/-! ### The answers of the two requests -/

def chatAnswer (env : Env) (block : Json) : Option (String × String) :=
  (resultBlock env block).bind toolMessageText

def responsesAnswer (env : Env) (block : Json) : Option (String × String) :=
  if block.getStr "type" = some "tool_result" then
    some ((block.getStr "tool_use_id").getD "", toolResultToString env (block.get "content"))
  else none

theorem speech_toolMessageText (groups : BlockGroups) (role : String) :
    (groups.speech role).filterMap toolMessageText = [] := by
  unfold BlockGroups.speech
  split_ifs <;> rfl

variable (env : Env) (role : String)

theorem toolTexts_claudeReqToOpenai (req : ClaudeRequest) (model : String) :
    toolTexts (claudeReqToOpenai env req model) =
      (req.messages.flatMap ClaudeMessage.blocks).filterMap (chatAnswer env) := by
  have hsystem : (chatSystemMessage req.system).filterMap toolMessageText = [] := by
    unfold chatSystemMessage
    split
    · split_ifs <;> rfl
    · rfl
  have hmessage : ∀ msg : ClaudeMessage, (convertClaudeMessage env msg).filterMap toolMessageText =
      msg.blocks.filterMap (chatAnswer env) := by
    intro msg
    rcases convertClaudeMessage_eq env msg with ⟨text, htext, h⟩ | h
    · rw [h, ClaudeMessage.blocks, htext]
      rfl
    · rw [h, List.filterMap_append, speech_toolMessageText, List.nil_append,
        ClaudeMessage.toolResults, List.filterMap_filterMap]
      rfl
  rw [toolTexts, claudeReqToOpenai, List.filterMap_append, hsystem, List.nil_append,
    List.filterMap_flatMap, List.filterMap_flatMap]
  simp only [hmessage]

theorem flushMessage_outputTexts (st : MessageItemsState) :
    (flushMessage role st).items.filterMap outputText = st.items.filterMap outputText := by
  unfold flushMessage
  split_ifs
  · rfl
  · rw [List.filterMap_append]
    exact List.append_nil _

theorem readContentBlock_outputTexts (st : MessageItemsState) (block : Json) :
    (readContentBlock env role st block).items.filterMap outputText =
      st.items.filterMap outputText ++ (responsesAnswer env block).toList := by
  have hcall : ∀ st : MessageItemsState,
      (st.items ++ [toolUseItem env block]).filterMap outputText =
      st.items.filterMap outputText := by
    intro st
    rw [List.filterMap_append]
    exact List.append_nil _
  have hresult : ∀ st : MessageItemsState,
      (st.items ++ [toolResultItem env block]).filterMap outputText =
        st.items.filterMap outputText ++ [((block.getStr "tool_use_id").getD "",
          toolResultToString env (block.get "content"))] := by
    intro st
    rw [List.filterMap_append]
    rfl
  unfold readContentBlock responsesAnswer
  split
  · rename_i htype
    rw [htype]
    split <;> simp
  · rename_i htype
    rw [htype]
    split <;> simp
  · rename_i htype
    simp [htype]
  · rename_i htype
    dsimp only
    rw [htype, hcall, flushMessage_outputTexts]
    simp
  · rename_i htype
    dsimp only
    rw [htype, hresult, flushMessage_outputTexts]
    simp
  · rename_i hresult
    rw [if_neg hresult]
    simp

theorem foldl_readContentBlock_outputTexts (blocks : List Json) (st : MessageItemsState) :
    (blocks.foldl (readContentBlock env role) st).items.filterMap outputText =
      st.items.filterMap outputText ++ blocks.filterMap (responsesAnswer env) := by
  induction blocks generalizing st with
  | nil => simp
  | cons block blocks ih =>
    rw [List.foldl_cons, ih, readContentBlock_outputTexts, List.append_assoc,
      filterMap_cons_eq_append]

theorem outputTexts_claudeReqToOpenaiResponses (req : ClaudeRequest) (model : String) :
    outputTexts (claudeReqToOpenaiResponses env req model) =
      (req.messages.flatMap ClaudeMessage.blocks).filterMap (responsesAnswer env) := by
  have hmessage : ∀ msg : ClaudeMessage, (responsesItems env msg).filterMap outputText =
      msg.blocks.filterMap (responsesAnswer env) := by
    intro msg
    unfold responsesItems ClaudeMessage.blocks
    cases msg.content with
    | arr blocks =>
      dsimp only
      rw [convertClaudeMessageToOpenaiResponsesItems, flushMessage_outputTexts,
        foldl_readContentBlock_outputTexts]
      rfl
    | _ => rfl
  rw [outputTexts, (claudeReqToOpenaiResponses_get env req model).1, Option.bind_some,
    Json.asArray, Option.getD_some, List.filterMap_flatMap, List.filterMap_flatMap]
  simp only [hmessage]

/-! ### The same answers -/

theorem chatAnswer_eq (block : Json) :
    chatAnswer env block =
      if IsAnswer block then
        some ((block.getStr "tool_use_id").getD "",
          extractToolResultContent env ((block.get "content").getD .null))
      else none := by
  have htype : blockType block = "tool_result" ↔ block.getStr "type" = some "tool_result" := by
    unfold blockType
    cases block.getStr "type" <;> simp
  unfold chatAnswer resultBlock toolMessageOf IsAnswer
  by_cases hblock : block.getStr "type" = some "tool_result"
  · by_cases hid : (block.getStr "tool_use_id").getD "" = ""
    · simp [htype, hblock, hid]
    · simp [htype, hblock, hid, toolMessageText, Json.asStr]
  · simp [htype, hblock]

theorem responsesAnswer_filter_eq (block : Json) :
    (responsesAnswer env block).filter (·.1 ≠ "") =
      if IsAnswer block then
        some ((block.getStr "tool_use_id").getD "", toolResultToString env (block.get "content"))
      else none := by
  unfold responsesAnswer IsAnswer
  by_cases hblock : block.getStr "type" = some "tool_result" <;> simp [hblock, Option.filter]

theorem answers_eq_iff {env : Env} (henv : env.toStr = Json.compact) (blocks : List Json) :
    blocks.filterMap (chatAnswer env) = (blocks.filterMap (responsesAnswer env)).filter (·.1 ≠ "") ↔
      ∀ block ∈ blocks, IsAnswer block → ContentReadAlike block := by
  have hsome : ∀ block, (chatAnswer env block).isSome =
      ((responsesAnswer env block).filter (·.1 ≠ "")).isSome := by
    intro block
    rw [chatAnswer_eq, responsesAnswer_filter_eq]
    split_ifs <;> rfl
  have hsame : ∀ block, chatAnswer env block = (responsesAnswer env block).filter (·.1 ≠ "") ↔
      (IsAnswer block → ContentReadAlike block) := by
    intro block
    rw [chatAnswer_eq, responsesAnswer_filter_eq, ← extractToolResultContent_eq_iff henv]
    by_cases hanswer : IsAnswer block <;> simp [hanswer]
  rw [List.filter_filterMap, filterMap_eq_filterMap_iff hsome]
  simp only [hsame]

/-- **Both requests carry the same answers exactly when every answering tool result has a
content that is there and no array.** -/
theorem sameToolTexts_iff (env : Env) (henv : env.toStr = Json.compact) (req : ClaudeRequest)
    (model model' : String) :
    toolTexts (claudeReqToOpenai env req model) =
        (outputTexts (claudeReqToOpenaiResponses env req model')).filter (·.1 ≠ "") ↔
      ∀ msg ∈ req.messages, ∀ block ∈ msg.blocks, IsAnswer block → ContentReadAlike block := by
  rw [toolTexts_claudeReqToOpenai, outputTexts_claudeReqToOpenaiResponses, answers_eq_iff henv]
  simp only [List.mem_flatMap]
  exact ⟨fun h msg hmsg block hblock => h block ⟨msg, hmsg, hblock⟩,
    fun h block ⟨msg, hmsg, hblock⟩ => h msg hmsg block hblock⟩

/-- A request that answers one call with a content. -/
def oneToolResult (content : Json) : ClaudeRequest where
  model := "claude"
  messages := [{ role := "user", content := .arr [.obj [("type", .str "tool_result"),
    ("tool_use_id", .str "toolu_1"), ("content", content)]] }]

theorem sameToolTexts_text :
    toolTexts (claudeReqToOpenai (Env.ofValues []) (oneToolResult (.str "ok")) "gpt-4.1") =
      (outputTexts (claudeReqToOpenaiResponses (Env.ofValues []) (oneToolResult (.str "ok"))
        "gpt-4.1")).filter (·.1 ≠ "") := by
  refine (sameToolTexts_iff (Env.ofValues []) rfl (oneToolResult (.str "ok")) "gpt-4.1"
    "gpt-4.1").2 ?_
  intro msg hmsg block hblock _
  obtain rfl := List.mem_singleton.1 hmsg
  obtain rfl := List.mem_singleton.1 hblock
  exact ⟨.str "ok", rfl, rfl⟩

/-- Of an array of text blocks, chat gets the texts and Responses the printed array. -/
theorem not_sameToolTexts_array :
    let request := oneToolResult (.arr [textBlockOf (.str "ok")])
    toolTexts (claudeReqToOpenai (Env.ofValues []) request "gpt-4.1") ≠
      (outputTexts (claudeReqToOpenaiResponses (Env.ofValues []) request "gpt-4.1")).filter
        (·.1 ≠ "") := by
  intro request h
  rw [toolTexts_claudeReqToOpenai, outputTexts_claudeReqToOpenaiResponses, answers_eq_iff rfl] at h
  obtain ⟨content, hcontent, harray⟩ := h _ List.mem_cons_self (by decide)
  obtain rfl := Option.some.inj hcontent
  cases harray

end AiOpenRouter
