/-
The Responses → Claude request converter (`openai_responses_req_to_claude`).

Tool uses and tool results wait in two buffers, and each buffer becomes one
message when an item of another kind arrives.

* `readInputItem` is one turn of the loop over the input items;
* `flattenMessage` reads a Claude message back as conversation entries, and
  `entriesOf` is what the converter reads in an input item;
* `conversation_openaiResponsesReqToClaude`: the messages of the result flatten
  to what is read in the items, in order, and the system prompt is the instructions
  followed by the system texts that are read.
-/
import AiOpenRouter.Requests
import AiOpenRouter.Sequences

namespace AiOpenRouter

/-! ### The parts of a message -/

/-- The non-empty text of a part: of a `refusal` its refusal. -/
def messagePartText (part : Json) : Option String :=
  match part.getStr "type" with
  | some "input_text" | some "output_text" => (part.getStr "text").filter (· ≠ "")
  | some "refusal" => (part.getStr "refusal").filter (· ≠ "")
  | _ => none

/-- `extract_openai_responses_message_text`. -/
def extractOpenaiResponsesMessageText : Option Json → String
  | some (.str text) => text
  | some (.arr parts) => "\n".intercalate (parts.filterMap messagePartText)
  | _ => ""

def textBlockOf (text : Json) : Json := .obj [("type", .str "text"), ("text", text)]

def messagePartBlock (part : Json) : Option Json :=
  match part.getStr "type" with
  | some "input_text" | some "output_text" => some (textBlockOf ((part.get "text").getD (.str "")))
  | some "refusal" => (part.getStr "refusal").map fun text => textBlockOf (.str text)
  | _ => none

/-- `convert_openai_responses_content_to_claude`: one text block is given as its text. -/
def convertOpenaiResponsesContentToClaude : Option Json → Json
  | some (.arr items) =>
    let result := items.filterMap messagePartBlock
    match result with
    | [block] =>
      match block.getStr "text" with
      | some text => .str text
      | none => .arr result
    | _ => .arr result
  | some content => content
  | none => .str ""

/-- `tool_result_to_string`. -/
def toolResultToString (env : Env) : Option Json → String
  | some (.str text) => text
  | some other => env.toStr other
  | none => ""

/-! ### The loop over the input -/

structure InputState where
  messages : List ClaudeMessage := []
  pendingToolUses : List Json := []
  pendingToolResults : List Json := []
  systemChunks : List String := []

namespace InputState

def flushToolUses (st : InputState) : InputState :=
  if st.pendingToolUses = [] then st
  else
    { st with
      messages := st.messages ++ [{ role := "assistant", content := .arr st.pendingToolUses }]
      pendingToolUses := [] }

def flushToolResults (st : InputState) : InputState :=
  if st.pendingToolResults = [] then st
  else
    { st with
      messages := st.messages ++ [{ role := "user", content := .arr st.pendingToolResults }]
      pendingToolResults := [] }

end InputState

/-- A message item: of type `message`, or a role without a type. -/
def isMessageItem (item : Json) : Bool :=
  item.getStr "type" = some "message" ||
    ((item.getStr "type").isNone && (item.get "role").isSome)

def itemRole (item : Json) : String := (item.getStr "role").getD "user"

def itemCallId (item : Json) : String :=
  (((item.get "call_id").or (item.get "id")).bind Json.asStr).getD ""

def itemInput (env : Env) (item : Json) : Json :=
  (env.fromStr ((item.getStr "arguments").getD "\x7b\x7d")).toOption.getD (.obj [])

/-- The `tool_use` block of a call item. -/
def toolUseOf (env : Env) (item : Json) : Json :=
  .obj [("type", .str "tool_use"), ("id", .str (itemCallId item)),
    ("name", .str ((item.getStr "name").getD "")), ("input", itemInput env item)]

/-- The `tool_result` block of an output item. -/
def toolResultOf (env : Env) (item : Json) : Json :=
  .obj [("type", .str "tool_result"), ("tool_use_id", .str ((item.getStr "call_id").getD "")),
    ("content", .str (toolResultToString env (item.get "output")))]

def readMessageItem (item : Json) (st : InputState) : InputState :=
  let role := itemRole item
  if role = "developer" ∨ role = "system" then
    let systemText := extractOpenaiResponsesMessageText (item.get "content")
    if systemText ≠ "" then { st with systemChunks := st.systemChunks ++ [systemText] } else st
  else
    { st with
      messages := st.messages ++
        [{ role := if role = "assistant" then "assistant" else "user"
           content := convertOpenaiResponsesContentToClaude (item.get "content") }] }

def readInputItem (env : Env) (st : InputState) (item : Json) : InputState :=
  if isMessageItem item then readMessageItem item st.flushToolUses.flushToolResults
  else
    match item.getStr "type" with
    | some "function_call" =>
      let st := st.flushToolResults
      { st with pendingToolUses := st.pendingToolUses ++ [toolUseOf env item] }
    | some "function_call_output" =>
      let st := st.flushToolUses
      { st with pendingToolResults := st.pendingToolResults ++ [toolResultOf env item] }
    | _ => st

def instructionChunks (req : Json) : List String :=
  ((req.getStr "instructions").filter (· ≠ "")).toList

def readInput (env : Env) (req : Json) : InputState :=
  let start : InputState := { systemChunks := instructionChunks req }
  let st : InputState :=
    match req.get "input" with
    | some (.str text) => { start with messages := [{ role := "user", content := .str text }] }
    | some (.arr input) => input.foldl (readInputItem env) start
    | _ => start
  st.flushToolUses.flushToolResults

/-! ### The request -/

def customToolSchema : Json :=
  .obj [("type", .str "object"),
    ("properties", .obj [("input", .obj [("type", .str "string"),
      ("description", .str "The input for this tool")])]),
    ("required", .arr [.str "input"])]

def claudeToolOf (t : Json) : Option Json :=
  (t.get "name").bind fun name =>
    let description := (t.get "description").getD (.str "")
    match t.getStr "type" with
    | some "function" =>
      some (.obj [("name", name), ("description", description),
        ("input_schema", (t.get "parameters").getD
          (.obj [("type", .str "object"), ("properties", .obj [])]))])
    | some "custom" =>
      some (.obj [("name", name), ("description", description),
        ("input_schema", customToolSchema)])
    | _ => none

def claudeTools (req : Json) : Option Json :=
  (((req.get "tools").bind Json.asArray).map fun tools => tools.filterMap claudeToolOf).bind
    fun tools => if tools = [] then none else some (.arr tools)

/-- `openai_responses_req_to_claude`, between its `serde` calls. -/
def openaiResponsesReqToClaude (env : Env) (req : Json) (model : String) : Json :=
  let st := readInput env req
  let fields : List (String × Json) :=
    [("model", .str model), ("max_tokens", .int 8192),
      ("stream", .bool (((req.get "stream").bind Json.asBool).getD false))]
  let fields := Json.insertSome fields "max_tokens"
    (((req.getI64 "max_output_tokens").filter (0 < ·)).map Json.int)
  let fields := Json.insertSome fields "temperature" (req.get "temperature")
  let fields := Json.insertSome fields "thinking" ((req.get "thinking").filter (¬ ·.isNull))
  let fields := Json.insertField fields "messages" (.arr (st.messages.map ClaudeMessage.toJson))
  let fields := Json.insertSome fields "system"
    (if st.systemChunks = [] then none else some (.str ("\n\n".intercalate st.systemChunks)))
  .obj (Json.insertSome fields "tools" (claudeTools req))

/-! ### The conversation -/

/-- One entry of a conversation: who says which texts, who calls what, who answers what. -/
inductive Entry where
  | text (role : String) (texts : List Json)
  | toolUse (role id name : String) (input : Json)
  | toolResult (role toolUseId output : String)

def isToolBlock (block : Json) : Bool :=
  block.getStr "type" = some "tool_use" || block.getStr "type" = some "tool_result"

def flattenBlock (role : String) (block : Json) : Entry :=
  match block.getStr "type" with
  | some "tool_use" =>
    .toolUse role ((block.getStr "id").getD "") ((block.getStr "name").getD "")
      ((block.get "input").getD .null)
  | some "tool_result" =>
    .toolResult role ((block.getStr "tool_use_id").getD "") ((block.getStr "content").getD "")
  | _ => .text role [(block.get "text").getD .null]

def flattenMessage (msg : ClaudeMessage) : List Entry :=
  match msg.content with
  | .arr blocks =>
    if blocks.any isToolBlock then blocks.map (flattenBlock msg.role)
    else [.text msg.role (blocks.map fun block => (block.get "text").getD .null)]
  | content => [.text msg.role [content]]

/-- The text that is read in a part of a message item: of a `refusal` its refusal. -/
def partText (part : Json) : Option Json :=
  match part.getStr "type" with
  | some "input_text" | some "output_text" => some ((part.get "text").getD (.str ""))
  | some "refusal" => (part.getStr "refusal").map Json.str
  | _ => none

def itemTexts : Option Json → List Json
  | some (.arr parts) => parts.filterMap partText
  | some content => [content]
  | none => [.str ""]

def isSystemRole (role : String) : Prop := role = "developer" ∨ role = "system"

instance (role : String) : Decidable (isSystemRole role) := inferInstanceAs (Decidable (_ ∨ _))

def entriesOf (env : Env) (item : Json) : List Entry :=
  if isMessageItem item then
    if isSystemRole (itemRole item) then []
    else [.text (if itemRole item = "assistant" then "assistant" else "user")
      (itemTexts (item.get "content"))]
  else
    match item.getStr "type" with
    | some "function_call" =>
      [.toolUse "assistant" (itemCallId item) ((item.getStr "name").getD "") (itemInput env item)]
    | some "function_call_output" =>
      [.toolResult "user" ((item.getStr "call_id").getD "")
        (toolResultToString env (item.get "output"))]
    | _ => []

def systemTextOf (item : Json) : Option String :=
  if isMessageItem item ∧ isSystemRole (itemRole item) then
    (some (extractOpenaiResponsesMessageText (item.get "content"))).filter (· ≠ "")
  else none

def systemPrompt (chunks : List String) : Option Json :=
  if chunks = [] then none else some (.str ("\n\n".intercalate chunks))

/-! ### Reading the messages back -/

theorem flattenMessage_tools {role : String} {blocks : List Json} (hne : blocks ≠ [])
    (htool : ∀ block ∈ blocks, isToolBlock block) :
    flattenMessage { role := role, content := .arr blocks } = blocks.map (flattenBlock role) := by
  obtain ⟨block, hmem⟩ := List.exists_mem_of_ne_nil blocks hne
  exact if_pos (List.any_eq_true.2 ⟨block, hmem, htool block hmem⟩)

theorem messagePartBlock_eq (part : Json) :
    messagePartBlock part = (partText part).map textBlockOf := by
  unfold messagePartBlock partText
  split
  · rfl
  · rfl
  · rw [Option.map_map]
    rfl
  · rfl

theorem flattenMessage_content (role : String) (content : Option Json) :
    flattenMessage { role := role, content := convertOpenaiResponsesContentToClaude content } =
      [.text role (itemTexts content)] := by
  have hblocks : ∀ texts : List Json,
      flattenMessage { role := role, content := .arr (texts.map textBlockOf) } =
        [.text role texts] := by
    intro texts
    have hany : (texts.map textBlockOf).any isToolBlock = false := by
      rw [List.any_map, List.any_eq_false]
      intro text _
      simp [isToolBlock, textBlockOf, Json.getStr, Json.get, Json.asStr]
    have hmap : (texts.map textBlockOf).map (fun block => (block.get "text").getD .null) =
        texts := by
      rw [List.map_map]
      exact List.map_id'' (fun text => rfl) texts
    rw [flattenMessage]
    simp only [hany, hmap]
    rfl
  unfold convertOpenaiResponsesContentToClaude itemTexts
  split
  · rename_i parts
    have hresult : parts.filterMap messagePartBlock =
        (parts.filterMap partText).map textBlockOf := by
      rw [List.map_filterMap]
      exact List.filterMap_congr fun part _ => messagePartBlock_eq part
    dsimp only
    rw [hresult]
    cases htexts : parts.filterMap partText with
    | nil => exact hblocks []
    | cons text texts =>
      cases texts with
      | nil =>
        -- A single text block is given as its text when that is a string.
        cases text with
        | str s => rfl
        | _ => exact hblocks _
      | cons next texts => exact hblocks _
  · rename_i hno
    rename_i content
    cases content with
    | arr parts => exact absurd rfl (hno parts)
    | _ => rfl
  · rfl

/-! ### The two buffers -/

/-- What holds between two items: at most one buffer is in use, and each holds blocks of its
own kind. -/
structure InputState.Tidy (st : InputState) : Prop where
  oneBuffer : st.pendingToolUses = [] ∨ st.pendingToolResults = []
  toolUses : ∀ block ∈ st.pendingToolUses, isToolBlock block
  toolResults : ∀ block ∈ st.pendingToolResults, isToolBlock block

/-- The entries built so far, the buffered ones included. -/
def InputState.entries (st : InputState) : List Entry :=
  st.messages.flatMap flattenMessage ++ st.pendingToolUses.map (flattenBlock "assistant") ++
    st.pendingToolResults.map (flattenBlock "user")

theorem tidy_of_empty {st : InputState} (huses : st.pendingToolUses = [])
    (hresults : st.pendingToolResults = []) : st.Tidy :=
  ⟨Or.inl huses, by simp [huses], by simp [hresults]⟩

theorem entries_flushToolUses {st : InputState} (h : st.Tidy) :
    st.flushToolUses.entries = st.entries := by
  unfold InputState.flushToolUses
  by_cases huses : st.pendingToolUses = []
  · rw [if_pos huses]
  · have hresults := h.oneBuffer.resolve_left huses
    rw [if_neg huses]
    simp [InputState.entries, hresults, flattenMessage_tools huses h.toolUses]

variable (item : Json) (st : InputState) (env : Env)

theorem flushToolUses_pendingToolUses : st.flushToolUses.pendingToolUses = [] := by
  unfold InputState.flushToolUses
  split_ifs with huses
  · exact huses
  · rfl

@[simp] theorem flushToolUses_pendingToolResults :
    st.flushToolUses.pendingToolResults = st.pendingToolResults := by
  unfold InputState.flushToolUses
  split_ifs <;> rfl

@[simp] theorem flushToolUses_systemChunks : st.flushToolUses.systemChunks = st.systemChunks := by
  unfold InputState.flushToolUses
  split_ifs <;> rfl

theorem InputState.Tidy.flushToolUses {st : InputState} (h : st.Tidy) : st.flushToolUses.Tidy where
  oneBuffer := Or.inl (flushToolUses_pendingToolUses st)
  toolUses := by simp [flushToolUses_pendingToolUses]
  toolResults := by simpa using h.toolResults

theorem entries_flushToolResults {st : InputState} (h : st.Tidy) :
    st.flushToolResults.entries = st.entries := by
  unfold InputState.flushToolResults
  by_cases hresults : st.pendingToolResults = []
  · rw [if_pos hresults]
  · have huses := h.oneBuffer.resolve_right hresults
    rw [if_neg hresults]
    simp [InputState.entries, huses, flattenMessage_tools hresults h.toolResults]

theorem flushToolResults_pendingToolResults : st.flushToolResults.pendingToolResults = [] := by
  unfold InputState.flushToolResults
  split_ifs with hresults
  · exact hresults
  · rfl

@[simp] theorem flushToolResults_pendingToolUses :
    st.flushToolResults.pendingToolUses = st.pendingToolUses := by
  unfold InputState.flushToolResults
  split_ifs <;> rfl

@[simp] theorem flushToolResults_systemChunks :
    st.flushToolResults.systemChunks = st.systemChunks := by
  unfold InputState.flushToolResults
  split_ifs <;> rfl

theorem InputState.Tidy.flushToolResults {st : InputState} (h : st.Tidy) :
    st.flushToolResults.Tidy where
  oneBuffer := Or.inr (flushToolResults_pendingToolResults st)
  toolUses := by simpa using h.toolUses
  toolResults := by simp [flushToolResults_pendingToolResults]

theorem entries_flushed {st : InputState} (h : st.Tidy) :
    st.flushToolUses.flushToolResults.messages.flatMap flattenMessage = st.entries := by
  rw [← entries_flushToolUses h, ← entries_flushToolResults h.flushToolUses, InputState.entries,
    flushToolResults_pendingToolResults, flushToolResults_pendingToolUses,
    flushToolUses_pendingToolUses]
  simp

/-! ### One item -/

theorem readMessageItem_pending :
    (readMessageItem item st).pendingToolUses = st.pendingToolUses ∧
      (readMessageItem item st).pendingToolResults = st.pendingToolResults := by
  unfold readMessageItem
  dsimp only
  split_ifs <;> exact ⟨rfl, rfl⟩

theorem readMessageItem_messages :
    (readMessageItem item st).messages.flatMap flattenMessage =
      st.messages.flatMap flattenMessage ++
        (if isSystemRole (itemRole item) then []
        else [.text (if itemRole item = "assistant" then "assistant" else "user")
          (itemTexts (item.get "content"))]) := by
  unfold readMessageItem
  by_cases hsys : isSystemRole (itemRole item)
  · have hsys' := hsys
    unfold isSystemRole at hsys'
    rw [if_pos hsys]
    dsimp only
    rw [if_pos hsys']
    split_ifs <;> simp
  · have hsys' := hsys
    unfold isSystemRole at hsys'
    rw [if_neg hsys]
    dsimp only
    rw [if_neg hsys']
    simp [flattenMessage_content]

theorem readMessageItem_systemChunks :
    (readMessageItem item st).systemChunks = st.systemChunks ++
      (if isSystemRole (itemRole item) then
        (some (extractOpenaiResponsesMessageText (item.get "content"))).filter (· ≠ "")
      else none).toList := by
  by_cases hsys : isSystemRole (itemRole item)
  · have hsys' := hsys
    unfold isSystemRole at hsys'
    rw [readMessageItem, if_pos hsys', if_pos hsys]
    dsimp only
    by_cases htext : extractOpenaiResponsesMessageText (item.get "content") ≠ ""
    · rw [if_pos htext]
      simp [Option.filter, htext]
    · rw [if_neg htext]
      simp [Option.filter, htext]
  · have hsys' := hsys
    unfold isSystemRole at hsys'
    rw [readMessageItem, if_neg hsys', if_neg hsys]
    simp

theorem readInputItem_spec {st : InputState} (h : st.Tidy) (item : Json) :
    (readInputItem env st item).Tidy ∧
      (readInputItem env st item).entries = st.entries ++ entriesOf env item ∧
      (readInputItem env st item).systemChunks = st.systemChunks ++ (systemTextOf item).toList := by
  by_cases hmsg : isMessageItem item = true
  · obtain ⟨huses, hresults⟩ := readMessageItem_pending item st.flushToolUses.flushToolResults
    rw [flushToolResults_pendingToolUses, flushToolUses_pendingToolUses] at huses
    rw [flushToolResults_pendingToolResults] at hresults
    rw [readInputItem, if_pos hmsg, entriesOf, if_pos hmsg]
    refine ⟨tidy_of_empty huses hresults, ?_, ?_⟩
    · rw [InputState.entries, huses, hresults, readMessageItem_messages, entries_flushed h]
      simp
    · rw [readMessageItem_systemChunks]
      simp [systemTextOf, hmsg]
  · have hsystem : systemTextOf item = none := if_neg fun hc => hmsg hc.1
    rw [readInputItem, if_neg hmsg, entriesOf, if_neg hmsg, hsystem]
    -- A call flushes the results, an output the uses; both then add to their own buffer.
    by_cases hcall : item.getStr "type" = some "function_call"
    · rw [hcall]
      refine ⟨⟨Or.inr (flushToolResults_pendingToolResults st), ?_, ?_⟩, ?_, by simp⟩
      · intro block hmem
        rcases List.mem_append.1 hmem with hold | hnew
        · exact h.flushToolResults.toolUses block hold
        · rw [List.mem_singleton.1 hnew]
          rfl
      · exact h.flushToolResults.toolResults
      · rw [← entries_flushToolResults h]
        simp [InputState.entries, flushToolResults_pendingToolResults, flattenBlock, toolUseOf,
          Json.getStr, Json.get, Json.asStr, List.lookup_cons]
    · by_cases hout : item.getStr "type" = some "function_call_output"
      · rw [hout]
        refine ⟨⟨Or.inl (flushToolUses_pendingToolUses st), ?_, ?_⟩, ?_, by simp⟩
        · exact h.flushToolUses.toolUses
        · intro block hmem
          rcases List.mem_append.1 hmem with hold | hnew
          · exact h.flushToolUses.toolResults block hold
          · rw [List.mem_singleton.1 hnew]
            rfl
        · rw [← entries_flushToolUses h]
          simp [InputState.entries, flattenBlock, toolResultOf, Json.getStr, Json.get, Json.asStr,
            List.lookup_cons]
      · split
        · contradiction
        · contradiction
        · exact ⟨h, by simp, by simp⟩

theorem foldl_readInputItem_spec (input : List Json) {st : InputState} (h : st.Tidy) :
    (input.foldl (readInputItem env) st).Tidy ∧
      (input.foldl (readInputItem env) st).entries =
        st.entries ++ input.flatMap (entriesOf env) ∧
      (input.foldl (readInputItem env) st).systemChunks =
        st.systemChunks ++ input.filterMap systemTextOf := by
  induction input generalizing st with
  | nil => exact ⟨h, by simp, by simp⟩
  | cons item input ih =>
    obtain ⟨htidy, hentries, hchunks⟩ := readInputItem_spec env h item
    obtain ⟨htidy', hentries', hchunks'⟩ := ih htidy
    refine ⟨htidy', ?_, ?_⟩
    · rw [List.foldl_cons, hentries', hentries, List.flatMap_cons, List.append_assoc]
    · rw [List.foldl_cons, hchunks', hchunks, filterMap_cons_eq_append, List.append_assoc]

theorem readInput_spec {req : Json} {input : List Json} (h : req.get "input" = some (.arr input)) :
    (readInput env req).messages.flatMap flattenMessage = input.flatMap (entriesOf env) ∧
      (readInput env req).systemChunks = instructionChunks req ++ input.filterMap systemTextOf := by
  have hstart : InputState.Tidy { systemChunks := instructionChunks req } := tidy_of_empty rfl rfl
  obtain ⟨htidy, hentries, hchunks⟩ := foldl_readInputItem_spec env input hstart
  unfold readInput
  rw [h]
  dsimp only
  refine ⟨?_, ?_⟩
  · rw [entries_flushed htidy, hentries]
    rfl
  · simpa using hchunks

/-! ### The request that is sent -/

theorem openaiResponsesReqToClaude_messages (req : Json) (model : String) :
    (openaiResponsesReqToClaude env req model).get "messages" =
      some (.arr ((readInput env req).messages.map ClaudeMessage.toJson)) := by
  simp [openaiResponsesReqToClaude, Json.get]

theorem openaiResponsesReqToClaude_system (req : Json) (model : String) :
    (openaiResponsesReqToClaude env req model).get "system" =
      systemPrompt (readInput env req).systemChunks := by
  simp [openaiResponsesReqToClaude, systemPrompt, Json.get, List.lookup_cons]

/-- **The messages of the result flatten to what is read in the items, in order**, with the
instructions and the system texts in the system prompt. -/
theorem conversation_openaiResponsesReqToClaude (env : Env) (req : Json) (model : String)
    (input : List Json) (h : req.get "input" = some (.arr input)) :
    ∃ messages : List ClaudeMessage,
      (openaiResponsesReqToClaude env req model).get "messages" =
        some (.arr (messages.map ClaudeMessage.toJson)) ∧
      messages.flatMap flattenMessage = input.flatMap (entriesOf env) ∧
      (openaiResponsesReqToClaude env req model).get "system" =
        systemPrompt (instructionChunks req ++ input.filterMap systemTextOf) := by
  obtain ⟨hentries, hchunks⟩ := readInput_spec env h
  refine ⟨(readInput env req).messages, openaiResponsesReqToClaude_messages env req model,
    hentries, ?_⟩
  rw [openaiResponsesReqToClaude_system, hchunks]

end AiOpenRouter
