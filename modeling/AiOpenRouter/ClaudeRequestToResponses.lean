/-
The Claude → Responses request converter (`claude_req_to_openai_responses`), and
the way back (`openai_responses_req_to_claude`).

The texts of a message wait in a buffer that becomes a message item before each
tool item, and on the way back the tool items wait in two buffers of their own.

* `readContentBlock` is one turn of the loop over the blocks of a message;
* `messageEntries` reads a Claude message as (role, block) pairs;
* `claudeEntries_roundTrip`: every pair comes back in its place, a tool use as the
  assistant's and a tool result as the user's, with the system text and the tools.
-/
import AiOpenRouter.ClaudeRequestToChat
import AiOpenRouter.ResponsesRequestToChat

namespace AiOpenRouter

/-! ### The blocks of a message -/

/-- What the loop over the blocks of a message has built. -/
structure MessageItemsState where
  items : List Json := []
  messageParts : List Json := []

def textType (role : String) : String :=
  if role = "assistant" then "output_text" else "input_text"

def textPartOf (role text : String) : Json :=
  .obj [("type", .str (textType role)), ("text", .str text)]

/-- A `message` item. -/
def messageItemOf (role : String) (parts : List Json) : Json :=
  .obj [("type", .str "message"), ("role", .str role), ("content", .arr parts)]

def imagePartOf (source : Json) : Json :=
  let mediaType := (source.getStr "media_type").getD "image/png"
  let data := (source.getStr "data").getD ""
  .obj [("type", .str "input_image"),
    ("image_url", .str ("data:" ++ mediaType ++ ";base64," ++ data))]

/-- The `function_call` item of a `tool_use` block. -/
def toolUseItem (env : Env) (block : Json) : Json :=
  .obj [("type", .str "function_call"), ("call_id", .str ((block.getStr "id").getD "")),
    ("name", .str ((block.getStr "name").getD "")),
    ("arguments", .str (env.toStr ((block.get "input").getD (.obj []))))]

/-- The `function_call_output` item of a `tool_result` block. -/
def toolResultItem (env : Env) (block : Json) : Json :=
  .obj [("type", .str "function_call_output"),
    ("call_id", .str ((block.getStr "tool_use_id").getD "")),
    ("output", .str (toolResultToString env (block.get "content")))]

/-- `flush_message`: the waiting parts become a message item. -/
def flushMessage (role : String) (st : MessageItemsState) : MessageItemsState :=
  if st.messageParts = [] then st
  else { items := st.items ++ [messageItemOf role st.messageParts], messageParts := [] }

def readContentBlock (env : Env) (role : String) (st : MessageItemsState) (block : Json) :
    MessageItemsState :=
  match block.getStr "type" with
  | some "text" =>
    match block.getStr "text" with
    | some text => { st with messageParts := st.messageParts ++ [textPartOf role text] }
    | none => st
  | some "image" =>
    match block.get "source" with
    | some source => { st with messageParts := st.messageParts ++ [imagePartOf source] }
    | none => st
  | some "thinking" => st
  | some "tool_use" =>
    let st := flushMessage role st
    { st with items := st.items ++ [toolUseItem env block] }
  | some "tool_result" =>
    let st := flushMessage role st
    { st with items := st.items ++ [toolResultItem env block] }
  | _ => st

/-- `convert_claude_message_to_openai_responses_items`. -/
def convertClaudeMessageToOpenaiResponsesItems (env : Env) (blocks : List Json) (role : String) :
    List Json :=
  (flushMessage role (blocks.foldl (readContentBlock env role) {})).items

def responsesItems (env : Env) (msg : ClaudeMessage) : List Json :=
  match msg.content with
  | .str s => [messageItemOf msg.role [textPartOf msg.role s]]
  | .arr blocks => convertClaudeMessageToOpenaiResponsesItems env blocks msg.role
  | .null => [.obj [("role", .str msg.role)]]
  | _ => []

/-! ### The request -/

/-- `claude_thinking_to_openai_reasoning`. -/
def claudeThinkingToOpenaiReasoning (thinking : Option Json) (model : String) : Option Json :=
  (claudeThinkingToOpenaiReasoningEffort thinking model).map fun effort =>
    .obj [("effort", .str effort)]

/-- `map_claude_tool_choice_to_openai_responses`. -/
def mapClaudeToolChoiceToOpenaiResponses : Option Json → Option Json
  | some (.obj tc) =>
    match (Json.obj tc).getStr "type" with
    | some "tool" =>
      (((Json.obj tc).getStr "name").filter (· ≠ "")).map fun name =>
        .obj [("type", .str "function"), ("name", .str name)]
    | some "any" => some (.str "required")
    | some "auto" => some (.str "auto")
    | some "none" => some (.str "none")
    | _ => none
  | some (.str tc) =>
    match tc with
    | "any" => some (.str "required")
    | "auto" => some (.str "auto")
    | "none" => some (.str "none")
    | other => if other ≠ "" then some (.str other) else none
  | _ => none

/-- `has_claude_tool_result`. -/
def hasClaudeToolResult (messages : List ClaudeMessage) : Bool :=
  messages.any fun msg => msg.blocks.any fun block => block.getStr "type" = some "tool_result"

def responsesToolOfClaude (tool : ClaudeTool) : Json :=
  .obj [("type", .str "function"), ("name", .str tool.name),
    ("description", (tool.description.map Json.str).getD .null), ("parameters", tool.inputSchema)]

/-- The `tool_choice` of the result, which a request with tools always has. -/
def responsesToolChoice (req : ClaudeRequest) : Json :=
  match mapClaudeToolChoiceToOpenaiResponses req.toolChoice with
  | some mapped => mapped
  | none => if hasClaudeToolResult req.messages then .str "auto" else .str "required"

/-- `claude_req_to_openai_responses`, between its `serde` calls. -/
def claudeReqToOpenaiResponses (env : Env) (req : ClaudeRequest) (model : String) : Json :=
  let fields : List (String × Json) :=
    [("model", .str model), ("stream", .bool (req.stream.getD true))]
  let fields := Json.insertSome fields "instructions"
    (((req.system.map extractSystemText).filter (· ≠ "")).map Json.str)
  let fields := Json.insertSome fields "max_output_tokens"
    ((req.maxTokens.filter (0 < ·)).map Json.int)
  let fields := Json.insertSome fields "temperature" (req.temperature.map Json.num)
  let fields := Json.insertSome fields "reasoning"
    (claudeThinkingToOpenaiReasoning req.thinking model)
  let fields := Json.insertField fields "input"
    (.arr (req.messages.flatMap (responsesItems env)))
  match req.tools.getD [] with
  | [] => .obj fields
  | tools =>
    let fields := Json.insertField fields "tools" (.arr (tools.map responsesToolOfClaude))
    .obj (Json.insertField fields "tool_choice" (responsesToolChoice req))

/-! ### The pairs of a request -/

/-- The (role, block) pairs of a message: a string content is one text block. -/
def messageEntries (msg : ClaudeMessage) : List Entry :=
  match msg.content with
  | .arr blocks => blocks.map (flattenBlock msg.role)
  | content => [.text msg.role [content]]

/-- The pairs of a request. -/
def claudeEntries (request : Json) : List Entry :=
  (((request.get "messages").bind Json.asArray).getD []).flatMap fun message =>
    messageEntries (claudeMessageOf message)

def systemText (system : Option Json) : String := (system.map extractSystemText).getD ""

def toolSchemas (request : Json) : List (Option Json × Option Json) :=
  (((request.get "tools").bind Json.asArray).getD []).map fun tool =>
    (tool.get "name", tool.get "input_schema")

def IsConversationBlock (block : Json) : Prop :=
  (block.getStr "type" = some "text" ∧ ∃ text, block.getStr "text" = some text) ∨
    (block.getStr "type" = some "tool_use" ∧ ∃ input, block.get "input" = some input) ∨
      (block.getStr "type" = some "tool_result" ∧ ∃ text, block.getStr "content" = some text)

/-- A user or assistant message whose content is a string or an array of such blocks. -/
def IsConversationMessage (msg : ClaudeMessage) : Prop :=
  (msg.role = "user" ∨ msg.role = "assistant") ∧
    ((∃ text, msg.content = .str text) ∨
      ∃ blocks, msg.content = .arr blocks ∧ ∀ block ∈ blocks, IsConversationBlock block)

/-- The inputs of the tool uses of a message are read back from their printed form. -/
def InputsReadBack (env : Env) (msg : ClaudeMessage) : Prop :=
  ∀ block ∈ msg.blocks, ∀ input, block.get "input" = some input →
    env.fromStr (env.toStr input) = .ok input

/-- An entry in the role of the item that carries it: a `function_call` item is read as the
assistant's and a `function_call_output` item as the user's. -/
def Entry.ofItem : Entry → Entry
  | .text role texts => .text role texts
  | .toolUse _ id name input => .toolUse "assistant" id name input
  | .toolResult _ toolUseId output => .toolResult "user" toolUseId output

/-! ### The pairs of the items -/

def Entry.pairs : Entry → List Entry
  | .text role texts => texts.map fun text => .text role [text]
  | entry => [entry]

variable (env : Env) (req : ClaudeRequest) (model model' role : String)

theorem flattenBlock_pairs (block : Json) :
    (flattenBlock role block).pairs = [flattenBlock role block] := by
  unfold flattenBlock
  split <;> rfl

theorem flattenBlock_text {role : String} {block : Json} (h : isToolBlock block = false) :
    flattenBlock role block = .text role [(block.get "text").getD .null] := by
  rw [isToolBlock, Bool.or_eq_false_iff, decide_eq_false_iff_not, decide_eq_false_iff_not] at h
  unfold flattenBlock
  split
  · exact absurd ‹_› h.1
  · exact absurd ‹_› h.2
  · rfl

theorem messageEntries_eq (msg : ClaudeMessage) :
    messageEntries msg = (flattenMessage msg).flatMap Entry.pairs := by
  unfold messageEntries flattenMessage
  cases msg.content with
  | arr blocks =>
    dsimp only
    split_ifs with hany
    · rw [List.flatMap_map]
      simp only [flattenBlock_pairs]
      exact List.map_eq_flatMap
    · rw [List.flatMap_singleton, Entry.pairs, List.map_map]
      refine List.map_congr_left fun block hmem => flattenBlock_text ?_
      simpa using fun h => hany (List.any_eq_true.2 ⟨block, hmem, h⟩)
  | _ => rfl

def itemPairs (env : Env) (item : Json) : List Entry := (entriesOf env item).flatMap Entry.pairs

def partPairs (role : String) (parts : List Json) : List Entry :=
  (parts.filterMap partText).map fun text => .text role [text]

theorem itemPairs_messageItemOf {role : String} (hrole : role = "user" ∨ role = "assistant")
    (parts : List Json) : itemPairs env (messageItemOf role parts) = partPairs role parts := by
  rcases hrole with rfl | rfl <;> exact List.append_nil _

theorem partText_textPartOf (text : String) :
    partText (textPartOf role text) = some (.str text) := by
  unfold textPartOf textType
  split <;> rfl

theorem itemPairs_toolUseItem (env : Env) (role : String) {block input : Json}
    (htype : block.getStr "type" = some "tool_use") (hinput : block.get "input" = some input)
    (hparse : env.fromStr (env.toStr input) = .ok input) :
    itemPairs env (toolUseItem env block) = [(flattenBlock role block).ofItem] := by
  have hitem : itemInput env (toolUseItem env block) = input := by
    show ((env.fromStr (env.toStr ((block.get "input").getD (.obj [])))).toOption).getD (.obj []) =
      input
    rw [hinput, Option.getD_some, hparse]
    rfl
  have hpairs : itemPairs env (toolUseItem env block) =
      [.toolUse "assistant" ((block.getStr "id").getD "") ((block.getStr "name").getD "")
        (itemInput env (toolUseItem env block))] := rfl
  rw [hpairs, hitem, flattenBlock, htype, hinput]
  rfl

theorem itemPairs_toolResultItem (env : Env) (role : String) {block : Json} {text : String}
    (htype : block.getStr "type" = some "tool_result")
    (hcontent : block.getStr "content" = some text) :
    itemPairs env (toolResultItem env block) = [(flattenBlock role block).ofItem] := by
  have hpairs : itemPairs env (toolResultItem env block) =
      [.toolResult "user" ((block.getStr "tool_use_id").getD "")
        (toolResultToString env (block.get "content"))] := rfl
  rw [hpairs, Json.get_of_getStr hcontent, flattenBlock, htype, hcontent]
  rfl

/-! ### The loop over the blocks -/

/-- The items built so far and the waiting parts give these pairs, and no system text. -/
structure MessageItemsState.Gives (env : Env) (role : String) (st : MessageItemsState)
    (pairs : List Entry) : Prop where
  pairs : st.items.flatMap (itemPairs env) ++ partPairs role st.messageParts = pairs
  system : st.items.filterMap systemTextOf = []

namespace MessageItemsState.Gives

variable {env : Env} {role : String} {st : MessageItemsState} {pairs : List Entry}

theorem part (h : st.Gives env role pairs) (text : String) :
    Gives env role { st with messageParts := st.messageParts ++ [textPartOf role text] }
      (pairs ++ [.text role [.str text]]) where
  pairs := by
    rw [← h.pairs, List.append_assoc]
    simp [partPairs, partText_textPartOf]
  system := h.system

theorem item (h : st.Gives env role pairs) (hparts : st.messageParts = []) {item : Json}
    (hsystem : systemTextOf item = none) :
    Gives env role { st with items := st.items ++ [item] } (pairs ++ itemPairs env item) where
  pairs := by
    rw [← h.pairs, hparts]
    simp [partPairs]
  system := by simp [h.system, hsystem]

theorem flush (hrole : role = "user" ∨ role = "assistant") (h : st.Gives env role pairs) :
    (flushMessage role st).messageParts = [] ∧ (flushMessage role st).Gives env role pairs := by
  unfold flushMessage
  by_cases hparts : st.messageParts = []
  · rw [if_pos hparts]
    exact ⟨hparts, h⟩
  · rw [if_neg hparts]
    have hsystem : systemTextOf (messageItemOf role st.messageParts) = none := by
      rcases hrole with rfl | rfl <;> rfl
    refine ⟨rfl, ?_, ?_⟩
    · rw [List.flatMap_append, List.flatMap_singleton, itemPairs_messageItemOf env hrole, ← h.pairs]
      exact List.append_nil _
    · rw [List.filterMap_append, h.system, List.nil_append]
      exact List.filterMap_cons_none hsystem

/-- **The step lemma: a block adds its pair.** -/
theorem block (hrole : role = "user" ∨ role = "assistant") (h : st.Gives env role pairs)
    {block : Json} (hblock : IsConversationBlock block)
    (hinputs : ∀ input, block.get "input" = some input →
      env.fromStr (env.toStr input) = .ok input) :
    (readContentBlock env role st block).Gives env role
      (pairs ++ [(flattenBlock role block).ofItem]) := by
  obtain ⟨hparts, hflush⟩ := h.flush hrole
  rcases hblock with ⟨htype, text, htext⟩ | ⟨htype, input, hinput⟩ | ⟨htype, text, hcontent⟩
  · have hpair : (flattenBlock role block).ofItem = .text role [.str text] := by
      rw [flattenBlock_text (by rw [isToolBlock, htype]; rfl), Json.get_of_getStr htext]
      rfl
    rw [readContentBlock, htype, htext, hpair]
    exact h.part text
  · rw [readContentBlock, htype,
      ← itemPairs_toolUseItem env role htype hinput (hinputs input hinput)]
    exact hflush.item hparts rfl
  · rw [readContentBlock, htype, ← itemPairs_toolResultItem env role htype hcontent]
    exact hflush.item hparts rfl

/-- The run lemma: the blocks add their pairs, in order. -/
theorem blocks (hrole : role = "user" ∨ role = "assistant") (h : st.Gives env role pairs)
    {blocks : List Json} (hblocks : ∀ block ∈ blocks, IsConversationBlock block)
    (hinputs : ∀ block ∈ blocks, ∀ input, block.get "input" = some input →
      env.fromStr (env.toStr input) = .ok input) :
    (blocks.foldl (readContentBlock env role) st).Gives env role
      (pairs ++ (blocks.map (flattenBlock role)).map Entry.ofItem) := by
  induction blocks generalizing st pairs with
  | nil => simpa using h
  | cons block blocks ih =>
    rw [List.forall_mem_cons] at hblocks hinputs
    have hrest := ih (h.block hrole hblocks.1 hinputs.1) hblocks.2 hinputs.2
    rw [List.append_assoc] at hrest
    exact hrest

end MessageItemsState.Gives

theorem responsesItems_spec {env : Env} {msg : ClaudeMessage} (h : IsConversationMessage msg)
    (hinputs : InputsReadBack env msg) :
    (responsesItems env msg).flatMap (itemPairs env) = (messageEntries msg).map Entry.ofItem ∧
      (responsesItems env msg).filterMap systemTextOf = [] := by
  obtain ⟨hrole, ⟨text, hcontent⟩ | ⟨blocks, hcontent, hblocks⟩⟩ := h
  · rw [responsesItems, messageEntries, hcontent]
    dsimp only
    rw [List.flatMap_singleton, itemPairs_messageItemOf env hrole]
    refine ⟨by simp [partPairs, partText_textPartOf, Entry.ofItem], ?_⟩
    rcases hrole with hrole | hrole <;> rw [hrole] <;> rfl
  · have hempty : MessageItemsState.Gives env msg.role {} [] := ⟨rfl, rfl⟩
    have hrun := hempty.blocks hrole hblocks
        (by simpa [InputsReadBack, ClaudeMessage.blocks, hcontent,
      Json.asArray] using hinputs)
    obtain ⟨hparts, hpairs, hsystem⟩ := hrun.flush hrole
    rw [responsesItems, messageEntries, hcontent]
    refine ⟨?_, hsystem⟩
    rw [hparts] at hpairs
    simpa [partPairs, convertClaudeMessageToOpenaiResponsesItems] using hpairs

/-! ### The request that comes back -/

theorem claudeReqToOpenaiResponses_get :
    (claudeReqToOpenaiResponses env req model).get "input" =
        some (.arr (req.messages.flatMap (responsesItems env))) ∧
      (claudeReqToOpenaiResponses env req model).get "instructions" =
        ((req.system.map extractSystemText).filter (· ≠ "")).map Json.str ∧
      (claudeReqToOpenaiResponses env req model).get "tools" =
        if req.tools.getD [] = [] then none
        else some (.arr ((req.tools.getD []).map responsesToolOfClaude)) := by
  unfold claudeReqToOpenaiResponses
  cases req.tools.getD [] <;> simp [Json.get, List.lookup_cons]

theorem toolSchemas_roundTrip :
    toolSchemas (openaiResponsesReqToClaude env (claudeReqToOpenaiResponses env req model) model') =
      (req.tools.getD []).map fun tool => (some (.str tool.name), some tool.inputSchema) := by
  have hback : (openaiResponsesReqToClaude env (claudeReqToOpenaiResponses env req model)
      model').get "tools" = claudeTools (claudeReqToOpenaiResponses env req model) := by
    simp [openaiResponsesReqToClaude, Json.get, List.lookup_cons]
  have hconverted : ∀ tool, claudeToolOf (responsesToolOfClaude tool) = some (.obj
      [("name", .str tool.name), ("description", (tool.description.map Json.str).getD .null),
        ("input_schema", tool.inputSchema)]) := fun tool => rfl
  rw [toolSchemas, hback, claudeTools, (claudeReqToOpenaiResponses_get env req model).2.2]
  cases req.tools.getD [] with
  | nil => rfl
  | cons tool tools =>
    rw [if_neg (List.cons_ne_nil tool tools)]
    simp [Json.asArray, List.filterMap_map, Function.comp_def, hconverted, Json.get,
      List.lookup_cons]

theorem systemText_roundTrip
    (hitems : (req.messages.flatMap (responsesItems env)).filterMap systemTextOf = []) :
    systemText ((openaiResponsesReqToClaude env (claudeReqToOpenaiResponses env req model)
      model').get "system") = systemText req.system := by
  obtain ⟨hinput, hinstructions, -⟩ := claudeReqToOpenaiResponses_get env req model
  rw [openaiResponsesReqToClaude_system, (readInput_spec env hinput).2, hitems, List.append_nil,
    instructionChunks, Json.getStr, hinstructions, systemText, systemText]
  cases req.system with
  | none => rfl
  | some system =>
    by_cases htext : extractSystemText system = ""
    · simp [systemPrompt, Option.filter, htext]
    · have hstr : ∀ s, extractSystemText (.str s) = s := fun s => rfl
      simp [systemPrompt, Option.filter, htext, Json.asStr, hstr]

theorem claudeEntries_roundTrip
    (hitems : ∀ msg ∈ req.messages, (responsesItems env msg).flatMap (itemPairs env) =
      (messageEntries msg).map Entry.ofItem) :
    claudeEntries (openaiResponsesReqToClaude env (claudeReqToOpenaiResponses env req model)
      model') = (req.messages.flatMap messageEntries).map Entry.ofItem := by
  have hentries := (readInput_spec env (claudeReqToOpenaiResponses_get env req model).1).1
  have hread : claudeEntries (openaiResponsesReqToClaude env
      (claudeReqToOpenaiResponses env req model) model') =
        (req.messages.flatMap (responsesItems env)).flatMap (itemPairs env) := by
    rw [claudeEntries, openaiResponsesReqToClaude_messages, Option.bind_some, Json.asArray,
      Option.getD_some, List.flatMap_map]
    simp only [claudeMessageOf_toJson, messageEntries_eq]
    rw [← List.flatMap_assoc, hentries, List.flatMap_assoc]
    rfl
  rw [hread, List.flatMap_assoc, List.map_flatMap]
  exact List.flatMap_congr hitems

/-- **A request comes back with every pair in its place**, a tool use as the assistant's and a
tool result as the user's, and with the system text and the tools. -/
theorem claudeRequest_roundTrip (env : Env) (req : ClaudeRequest) (model model' : String)
    (hmessages : ∀ msg ∈ req.messages, IsConversationMessage msg)
    (hinputs : ∀ msg ∈ req.messages, InputsReadBack env msg) :
    let back := openaiResponsesReqToClaude env (claudeReqToOpenaiResponses env req model) model'
    claudeEntries back = (req.messages.flatMap messageEntries).map Entry.ofItem ∧
      systemText (back.get "system") = systemText req.system ∧
      toolSchemas back =
        (req.tools.getD []).map fun tool => (some (.str tool.name), some tool.inputSchema) := by
  intro back
  have hitems := fun msg hmem => responsesItems_spec (hmessages msg hmem) (hinputs msg hmem)
  refine ⟨claudeEntries_roundTrip env req model model' fun msg hmem => (hitems msg hmem).1, ?_,
    toolSchemas_roundTrip env req model model'⟩
  refine systemText_roundTrip env req model model' ?_
  rw [List.filterMap_eq_nil_iff]
  intro item hitem
  obtain ⟨msg, hmem, hitem⟩ := List.mem_flatMap.1 hitem
  exact List.filterMap_eq_nil_iff.1 (hitems msg hmem).2 item hitem

def emptyToolUse : Json :=
  .obj [("type", .str "tool_use"), ("id", .str "toolu_1"), ("name", .str "Bash"),
    ("input", .obj [])]

/-- A request with one message that calls a tool. -/
def oneToolUse (role : String) : ClaudeRequest where
  model := "claude"
  messages := [{ role := role, content := .arr [textBlockOf (.str "run it"), emptyToolUse] }]

theorem isConversationMessage_oneToolUse {role : String} (h : role = "user" ∨ role = "assistant") :
    ∀ msg ∈ (oneToolUse role).messages, IsConversationMessage msg := by
  intro msg hmem
  obtain rfl := List.mem_singleton.1 hmem
  refine ⟨h, Or.inr ⟨_, rfl, ?_⟩⟩
  rw [List.forall_mem_cons, List.forall_mem_singleton]
  exact ⟨Or.inl ⟨rfl, "run it", rfl⟩, Or.inr (Or.inl ⟨rfl, .obj [], rfl⟩)⟩

theorem inputsReadBack_oneToolUse :
    ∀ msg ∈ (oneToolUse role).messages, InputsReadBack (Env.ofValues [.obj []]) msg := by
  intro msg hmem
  obtain rfl := List.mem_singleton.1 hmem
  intro block hblock input hinput
  simp only [ClaudeMessage.blocks, Json.asArray, Option.getD_some, List.mem_cons,
    List.not_mem_nil, or_false] at hblock
  rcases hblock with rfl | rfl
  · cases hinput
  · obtain rfl : .obj [] = input := Option.some.inj hinput
    simp [Env.ofValues]

theorem claudeRequest_roundTrip_oneToolUse :
    let back := openaiResponsesReqToClaude (Env.ofValues [.obj []])
      (claudeReqToOpenaiResponses (Env.ofValues [.obj []]) (oneToolUse "assistant") "gpt-4.1")
        "claude"
    claudeEntries back = [.text "assistant" [.str "run it"],
      .toolUse "assistant" "toolu_1" "Bash" (.obj [])] ∧
      systemText (back.get "system") = "" ∧ toolSchemas back = [] :=
  claudeRequest_roundTrip (Env.ofValues [.obj []]) (oneToolUse "assistant") "gpt-4.1" "claude"
    (isConversationMessage_oneToolUse (Or.inr rfl)) (inputsReadBack_oneToolUse "assistant")

/-- A tool use in a user message comes back as the assistant's. -/
theorem not_sameEntries_userToolUse :
    (∀ msg ∈ (oneToolUse "user").messages, IsConversationMessage msg) ∧
      (∀ msg ∈ (oneToolUse "user").messages, InputsReadBack (Env.ofValues [.obj []]) msg) ∧
      claudeEntries (openaiResponsesReqToClaude (Env.ofValues [.obj []])
        (claudeReqToOpenaiResponses (Env.ofValues [.obj []]) (oneToolUse "user") "gpt-4.1")
        "claude") ≠ (oneToolUse "user").messages.flatMap messageEntries := by
  have hmessages := isConversationMessage_oneToolUse (Or.inl rfl)
  have hinputs := inputsReadBack_oneToolUse "user"
  refine ⟨hmessages, hinputs, ?_⟩
  rw [claudeEntries_roundTrip _ _ _ _ fun msg hmem =>
    (responsesItems_spec (hmessages msg hmem) (hinputs msg hmem)).1]
  intro h
  -- The second pair is the assistant's on one side and the user's on the other.
  have hpair := (List.cons.inj (List.cons.inj h).2).1
  exact absurd (Entry.toolUse.inj hpair).1 (by decide)

end AiOpenRouter
