/-
The Claude → chat request converter (`claude_req_to_openai`).

A message whose content is an array is split into three groups: its texts and
its tool calls go into one chat message, and its tool results into one chat
message each, behind it, wherever they stood in the array.

* `claudeReqToOpenai` is the converter, on the request that `serde` read;
* `convertClaudeMessage_eq` says what one message becomes, with each group as a
  `filterMap` of the blocks;
* `callsAnsweredNext_iff`: when every tool use is answered in the next user
  message, the tool messages directly follow the assistant message exactly when
  no answering message speaks (`AnsweredSilently`).
-/
import AiOpenRouter.Requests
import AiOpenRouter.Sequences

namespace AiOpenRouter

/-! ### The reasoning effort -/

/-- `model_supports_xhigh`. -/
def modelSupportsXhigh (normalizedModel : List Char) : Bool :=
  "gpt-5.2".toList.isPrefixOf normalizedModel
    || "gpt-5.2-codex".toList.isPrefixOf normalizedModel
    || "gpt-5.2-chat".toList.isPrefixOf normalizedModel
    || "gpt-5.2-pro".toList.isPrefixOf normalizedModel

/-- `clamp_openai_reasoning_effort_for_model`. -/
def clampOpenaiReasoningEffortForModel (desired model : String) : String :=
  let normalized := (Text.trim model.toList).map Char.toLower
  if "gpt-5-pro".toList.isPrefixOf normalized then "high"
  else if "gpt-5.2-pro".toList.isPrefixOf normalized then
    match desired with
    | "low" => "medium"
    | "medium" | "high" | "xhigh" => desired
    | _ => "medium"
  else if "gpt-5.1".toList.isPrefixOf normalized then
    match desired with
    | "xhigh" => "high"
    | "low" | "medium" | "high" => desired
    | _ => "medium"
  else if modelSupportsXhigh normalized then desired
  else
    match desired with
    | "xhigh" => "high"
    | "low" | "medium" | "high" => desired
    | _ => "medium"

def desiredReasoningEffort (budgetTokens : Option ℤ) : String :=
  match budgetTokens.filter (0 < ·) with
  | some budget =>
    if budget ≤ 2048 then "low"
    else if budget ≤ 8192 then "medium"
    else if budget ≤ 24576 then "high"
    else "xhigh"
  | none => "medium"

/-- `claude_thinking_to_openai_reasoning_effort`. -/
def claudeThinkingToOpenaiReasoningEffort (thinking : Option Json) (model : String) :
    Option String :=
  if thinking.bind (·.getStr "type") = some "enabled" then
    some (clampOpenaiReasoningEffortForModel
      (desiredReasoningEffort (thinking.bind (·.getI64 "budget_tokens"))) model)
  else none

/-! ### The blocks of a message -/

/-- What the loop over the blocks of a message collects. -/
structure BlockGroups where
  textParts : List String := []
  toolCalls : List OpenAIToolCall := []
  toolResults : List OpenAIMessage := []
  hasThinking : Bool := false

/-- The `type` of a block. -/
def blockType (block : Json) : String := (block.getStr "type").getD ""

/-- The tool call of a `tool_use` block: none when its id or its name is missing or empty. -/
def toolCallOf (env : Env) (block : Json) : Option OpenAIToolCall :=
  let id := (block.getStr "id").getD ""
  let name := (block.getStr "name").getD ""
  if id ≠ "" ∧ name ≠ "" then
    some { index := none, id := id, callType := "function"
           function :=
             { name := name, arguments := env.toStr ((block.get "input").getD (.obj [])) } }
  else none

/-- The tool message of a `tool_result` block: none when it answers no id. -/
def toolMessageOf (env : Env) (block : Json) : Option OpenAIMessage :=
  let callId := (block.getStr "tool_use_id").getD ""
  if callId ≠ "" then
    some { role := "tool"
           content := some (.str (extractToolResultContent env ((block.get "content").getD .null)))
           toolCalls := none, toolCallId := some callId }
  else none

def BlockGroups.add (env : Env) (groups : BlockGroups) (block : Json) : BlockGroups :=
  match blockType block with
  | "text" =>
    match block.getStr "text" with
    | some text => { groups with textParts := groups.textParts ++ [text] }
    | none => groups
  | "thinking" => { groups with hasThinking := true }
  | "tool_use" =>
    match toolCallOf env block with
    | some call => { groups with toolCalls := groups.toolCalls ++ [call] }
    | none => groups
  | "tool_result" =>
    match toolMessageOf env block with
    | some message => { groups with toolResults := groups.toolResults ++ [message] }
    | none => groups
  | _ => groups

def blockGroups (env : Env) (blocks : List Json) : BlockGroups :=
  blocks.foldl (BlockGroups.add env) {}

def BlockGroups.speech (groups : BlockGroups) (role : String) : List OpenAIMessage :=
  if groups.textParts ≠ [] ∨ groups.toolCalls ≠ [] then
    [{ role := role
       content := if groups.textParts = [] then none
                  else some (.str ("".intercalate groups.textParts))
       toolCalls := if groups.toolCalls = [] then none else some groups.toolCalls
       toolCallId := none }]
  else if groups.hasThinking ∧ role = "assistant" then
    [{ role := "assistant", content := some (.str "(thinking...)"), toolCalls := none
       toolCallId := none }]
  else []

def convertClaudeMessage (env : Env) (msg : ClaudeMessage) : List OpenAIMessage :=
  match msg.content with
  | .str text =>
    [{ role := msg.role, content := some (.str text), toolCalls := none, toolCallId := none }]
  | .arr blocks =>
    let groups := blockGroups env blocks
    groups.speech msg.role ++ groups.toolResults
  | _ => []

def chatSystemMessage (system : Option Json) : List OpenAIMessage :=
  match system with
  | some system =>
    if extractSystemText system ≠ "" then
      [{ role := "system", content := some (.str (extractSystemText system)), toolCalls := none
         toolCallId := none }]
    else []
  | none => []

/-- `claude_req_to_openai`, between its `serde` calls. -/
def claudeReqToOpenai (env : Env) (req : ClaudeRequest) (model : String) : OpenAIRequest where
  model := model
  messages := chatSystemMessage req.system ++ req.messages.flatMap (convertClaudeMessage env)
  maxTokens := none
  maxCompletionTokens := req.maxTokens
  temperature := req.temperature
  stream := req.stream
  streamOptions := (req.stream.filter id).map fun _ => { includeUsage := true }
  tools := (req.tools.filter (· ≠ [])).map fun tools => tools.map fun tool =>
    { toolType := "function"
      function := { name := tool.name, description := tool.description
                    parameters := tool.inputSchema } }
  toolChoice := none
  reasoningEffort := claudeThinkingToOpenaiReasoningEffort req.thinking model

/-! ### What the groups hold -/

/-- The text of a `text` block. -/
def textBlock (block : Json) : Option String :=
  if blockType block = "text" then block.getStr "text" else none

def callBlock (env : Env) (block : Json) : Option OpenAIToolCall :=
  if blockType block = "tool_use" then toolCallOf env block else none

def resultBlock (env : Env) (block : Json) : Option OpenAIMessage :=
  if blockType block = "tool_result" then toolMessageOf env block else none

theorem BlockGroups.add_eq (env : Env) (groups : BlockGroups) (block : Json) :
    groups.add env block =
      { textParts := groups.textParts ++ (textBlock block).toList
        toolCalls := groups.toolCalls ++ (callBlock env block).toList
        toolResults := groups.toolResults ++ (resultBlock env block).toList
        hasThinking := groups.hasThinking || blockType block = "thinking" } := by
  unfold BlockGroups.add textBlock callBlock resultBlock
  split
  · rename_i h
    cases ht : block.getStr "text" <;> simp [h]
  · rename_i h
    simp [h]
  · rename_i h
    cases hc : toolCallOf env block <;> simp [h]
  · rename_i h
    cases hm : toolMessageOf env block <;> simp [h]
  · rename_i h₁ h₂ h₃ h₄
    rw [if_neg h₁, if_neg h₃, if_neg h₄, decide_eq_false h₂]
    simp

theorem foldl_add_eq (env : Env) (blocks : List Json) (groups : BlockGroups) :
    blocks.foldl (BlockGroups.add env) groups =
      { textParts := groups.textParts ++ blocks.filterMap textBlock
        toolCalls := groups.toolCalls ++ blocks.filterMap (callBlock env)
        toolResults := groups.toolResults ++ blocks.filterMap (resultBlock env)
        hasThinking := groups.hasThinking || blocks.any (blockType · = "thinking") } := by
  induction blocks generalizing groups with
  | nil => simp
  | cons block blocks ih =>
    rw [List.foldl_cons, ih, BlockGroups.add_eq]
    simp only [filterMap_cons_eq_append, List.append_assoc, List.any_cons, Bool.or_assoc]

theorem blockGroups_eq (env : Env) (blocks : List Json) :
    blockGroups env blocks =
      { textParts := blocks.filterMap textBlock
        toolCalls := blocks.filterMap (callBlock env)
        toolResults := blocks.filterMap (resultBlock env)
        hasThinking := blocks.any (blockType · = "thinking") } := by
  simp [blockGroups, foldl_add_eq]

def IsCall (block : Json) : Prop :=
  blockType block = "tool_use" ∧ (block.getStr "id").getD "" ≠ "" ∧
    (block.getStr "name").getD "" ≠ ""

instance (block : Json) : Decidable (IsCall block) := inferInstanceAs (Decidable (_ ∧ _ ∧ _))

variable {env : Env} {msg : ClaudeMessage} {block : Json}

theorem callBlock_eq_some_iff {call : OpenAIToolCall} (h : callBlock env block = some call) :
    IsCall block ∧ block.getStr "id" = some call.id ∧ call.id ≠ "" := by
  unfold callBlock at h
  split at h
  · rename_i ht
    dsimp only [toolCallOf] at h
    split at h
    · rename_i hid
      have hcall := Option.some.inj h
      refine ⟨⟨ht, hid⟩, ?_, ?_⟩
      · cases hget : block.getStr "id" with
        | none => simp [hget] at hid
        | some id => rw [← hcall]; simp [hget]
      · rw [← hcall]; exact hid.1
    · cases h
  · cases h

theorem callBlock_isSome_iff (env : Env) : (callBlock env block).isSome ↔ IsCall block := by
  by_cases ht : blockType block = "tool_use"
  · by_cases hid : (block.getStr "id").getD "" ≠ "" ∧ (block.getStr "name").getD "" ≠ ""
    · simp [callBlock, toolCallOf, IsCall, ht, hid]
    · rw [callBlock, if_pos ht, toolCallOf, if_neg hid]
      exact ⟨fun h => (nomatch h), fun h => absurd h.2 hid⟩
  · simp [callBlock, IsCall, ht]

theorem filterMap_callBlock_ne_nil_iff (env : Env) {blocks : List Json} :
    blocks.filterMap (callBlock env) ≠ [] ↔ ∃ block ∈ blocks, IsCall block := by
  simp only [Ne, List.filterMap_eq_nil_iff, ← callBlock_isSome_iff env,
    Option.isSome_iff_ne_none, not_forall, exists_prop]

/-! ### Tool messages behind the calls -/

/-- Whether a block is a tool result for the tool use `id`. -/
def answersToolUse (id : String) (block : Json) : Bool :=
  blockType block = "tool_result" && block.getStr "tool_use_id" = some id

/-- Each `tool_use` block of an assistant message is answered by one `tool_result` block of the
directly following user message. -/
def ToolUsesAnswered : List ClaudeMessage → Prop :=
  Followed fun msg rest => msg.role = "assistant" → ∀ block ∈ msg.blocks,
    blockType block = "tool_use" → ∀ id, block.getStr "id" = some id →
      msg.blocks.countP (answersToolUse id) = 0 ∧
        ∃ user, rest.head? = some user ∧ user.role = "user" ∧
          user.blocks.countP (answersToolUse id) = 1

def AnsweredNext (calls : List OpenAIToolCall) (messages : List OpenAIMessage) : Prop :=
  ∃ run after, messages = run ++ after ∧ (∀ message ∈ run, message.role = "tool") ∧
    ∀ call ∈ calls, run.countP (·.toolCallId = some call.id) = 1

/-- The tool messages for an assistant message's calls directly follow it. -/
def CallsAnsweredNext : List OpenAIMessage → Prop :=
  Followed fun message rest => message.role = "assistant" →
    ∀ calls, message.toolCalls = some calls → AnsweredNext calls rest

def Speaks (msg : ClaudeMessage) : Prop :=
  ∃ block ∈ msg.blocks, (textBlock block).isSome ∨ IsCall block

/-- The message after an assistant message with calls holds results only. -/
def AnsweredSilently : List ClaudeMessage → Prop :=
  Followed fun msg rest => msg.role = "assistant" → (∃ block ∈ msg.blocks, IsCall block) →
    ∀ user, rest.head? = some user → ¬ Speaks user

def ClaudeMessage.toolResults (env : Env) (msg : ClaudeMessage) : List OpenAIMessage :=
  msg.blocks.filterMap (resultBlock env)

theorem resultBlock_role {message : OpenAIMessage} (h : resultBlock env block = some message) :
    message.role = "tool" := by
  dsimp only [resultBlock, toolMessageOf] at h
  split at h
  · split at h
    · rw [← Option.some.inj h]
    · cases h
  · cases h

theorem toolResults_role {message : OpenAIMessage} (h : message ∈ msg.toolResults env) :
    message.role = "tool" := by
  obtain ⟨block, -, hblock⟩ := List.mem_filterMap.1 h
  exact resultBlock_role hblock

theorem resultBlock_hasId {id : String} (hid : id ≠ "") (block : Json) :
    ((resultBlock env block).map fun message => decide (message.toolCallId = some id)).getD false =
      answersToolUse id block := by
  dsimp only [resultBlock, toolMessageOf, answersToolUse]
  split <;> rename_i ht
  · cases hget : block.getStr "tool_use_id" with
    | none => simp
    | some callId =>
      by_cases he : callId = "" <;> simp [ht, he, hid.symm]
  · simp [ht]

theorem countP_toolResults {id : String} (hid : id ≠ "") (msg : ClaudeMessage) :
    (msg.toolResults env).countP (·.toolCallId = some id) =
      msg.blocks.countP (answersToolUse id) := by
  rw [ClaudeMessage.toolResults, List.countP_filterMap]
  congr 1
  funext block
  exact resultBlock_hasId hid block

theorem convertClaudeMessage_eq (env : Env) (msg : ClaudeMessage) :
    (∃ text, msg.content = .str text ∧ convertClaudeMessage env msg =
        [{ role := msg.role, content := some (.str text), toolCalls := none
           toolCallId := none }]) ∨
      convertClaudeMessage env msg =
        (blockGroups env msg.blocks).speech msg.role ++ msg.toolResults env := by
  unfold convertClaudeMessage
  split
  · rename_i text h
    exact Or.inl ⟨text, h, rfl⟩
  · rename_i blocks h
    have hb : msg.blocks = blocks := by simp [ClaudeMessage.blocks, h, Json.asArray]
    refine Or.inr ?_
    rw [ClaudeMessage.toolResults, hb]
    simp only [blockGroups_eq]
  · rename_i h₁ h₂
    have hb : msg.blocks = [] := by
      cases h : msg.content <;>
        first
          | exact absurd h (h₂ _)
          | simp [ClaudeMessage.blocks, h, Json.asArray]
    refine Or.inr ?_
    rw [ClaudeMessage.toolResults, hb]
    simp [blockGroups_eq, BlockGroups.speech]

theorem speech_of_speaks (env : Env) (h : Speaks msg) :
    ∃ message, (blockGroups env msg.blocks).speech msg.role = [message] ∧
      message.role = msg.role := by
  obtain ⟨block, hmem, hblock⟩ := h
  have hne : (blockGroups env msg.blocks).textParts ≠ [] ∨
      (blockGroups env msg.blocks).toolCalls ≠ [] := by
    rw [blockGroups_eq]
    rcases hblock with htext | hcall
    · left
      intro hnil
      rw [List.filterMap_eq_nil_iff.1 hnil block hmem] at htext
      cases htext
    · right
      exact (filterMap_callBlock_ne_nil_iff env).2 ⟨block, hmem, hcall⟩
  exact ⟨_, if_pos hne, rfl⟩

theorem speech_of_not_speaks (h : ¬ Speaks msg) (hrole : msg.role = "user") :
    (blockGroups env msg.blocks).speech msg.role = [] := by
  have htexts : (blockGroups env msg.blocks).textParts = [] := by
    rw [blockGroups_eq]
    refine List.filterMap_eq_nil_iff.2 fun block hmem => ?_
    rw [← Option.not_isSome_iff_eq_none]
    exact fun htext => h ⟨block, hmem, Or.inl htext⟩
  have hcalls : (blockGroups env msg.blocks).toolCalls = [] := by
    rw [blockGroups_eq]
    by_contra hne
    obtain ⟨block, hmem, hcall⟩ := (filterMap_callBlock_ne_nil_iff env).1 hne
    exact h ⟨block, hmem, Or.inr hcall⟩
  rw [BlockGroups.speech, if_neg (by simp [htexts, hcalls]), if_neg (by simp [hrole])]

theorem answeredNext_iff {user : ClaudeMessage} (after : List OpenAIMessage)
    (hcall : ∃ block ∈ msg.blocks, IsCall block) (hrole : user.role = "user")
    (hanswers : ∀ block ∈ msg.blocks, blockType block = "tool_use" → ∀ id,
      block.getStr "id" = some id → msg.blocks.countP (answersToolUse id) = 0 ∧
      user.blocks.countP (answersToolUse id) = 1) :
    AnsweredNext (msg.blocks.filterMap (callBlock env))
        (msg.toolResults env ++ (convertClaudeMessage env user ++ after)) ↔ ¬ Speaks user := by
  -- The counts of the answers to one of the calls, in the two groups of tool messages.
  have hcounts : ∀ call ∈ msg.blocks.filterMap (callBlock env),
      (msg.toolResults env).countP (·.toolCallId = some call.id) = 0 ∧
        (user.toolResults env).countP (·.toolCallId = some call.id) = 1 := by
    intro call hmem
    obtain ⟨block, hblock, heq⟩ := List.mem_filterMap.1 hmem
    obtain ⟨his, hid, hne⟩ := callBlock_eq_some_iff heq
    rw [countP_toolResults hne, countP_toolResults hne]
    exact hanswers block hblock his.1 call.id hid
  have hconv : convertClaudeMessage env user =
      (blockGroups env user.blocks).speech user.role ++ user.toolResults env := by
    rcases convertClaudeMessage_eq env user with ⟨text, htext, -⟩ | h
    · obtain ⟨call, hmem⟩ := List.exists_mem_of_ne_nil _
        ((filterMap_callBlock_ne_nil_iff env).2 hcall)
      have hone := (hcounts call hmem).2
      simp [ClaudeMessage.toolResults, ClaudeMessage.blocks, htext, Json.asArray] at hone
    · exact h
  constructor
  · rintro ⟨run, rest, heq, htool, hone⟩ hspeaks
    obtain ⟨message, hspeech, hsame⟩ := speech_of_speaks env hspeaks
    rw [hconv, hspeech] at heq
    -- The run of tool messages ends before the answering message's own text.
    have hle : run <+: msg.toolResults env := by
      rcases List.append_eq_append_iff.1 heq with ⟨more, hrun, htail⟩ | ⟨more, hrun, -⟩
      · cases more with
        | nil => simp [hrun]
        | cons first more =>
          have hfirst : first = message := by
            simp only [List.cons_append, List.nil_append] at htail
            exact (List.cons.inj htail).1.symm
          have hbad := htool first (by simp [hrun])
          rw [hfirst, hsame, hrole] at hbad
          simp at hbad
      · exact ⟨more, hrun.symm⟩
    obtain ⟨call, hmem⟩ := List.exists_mem_of_ne_nil _
      ((filterMap_callBlock_ne_nil_iff env).2 hcall)
    have hcount := hle.sublist.countP_le (p := fun m => decide (m.toolCallId = some call.id))
    have hzero := (hcounts call hmem).1
    have hrun := hone call hmem
    omega
  · intro hsilent
    rw [hconv, speech_of_not_speaks hsilent hrole, List.nil_append]
    refine ⟨msg.toolResults env ++ user.toolResults env, after, by simp, ?_, ?_⟩
    · intro message hmem
      rcases List.mem_append.1 hmem with h | h
      · exact toolResults_role h
      · exact toolResults_role h
    · intro call hmem
      rw [List.countP_append, (hcounts call hmem).1, (hcounts call hmem).2]

theorem followed_convertClaudeMessage_iff (msg : ClaudeMessage) (rest : List OpenAIMessage) :
    Followed (fun message more => message.role = "assistant" →
        ∀ calls, message.toolCalls = some calls → AnsweredNext calls (more ++ rest))
        (convertClaudeMessage env msg) ↔
      (msg.role = "assistant" → (∃ block ∈ msg.blocks, IsCall block) →
        AnsweredNext (msg.blocks.filterMap (callBlock env)) (msg.toolResults env ++ rest)) := by
  rcases convertClaudeMessage_eq env msg with ⟨text, htext, h⟩ | h
  · rw [h]
    simp [ClaudeMessage.blocks, htext, Json.asArray]
  · have hresults : Followed (fun message more => message.role = "assistant" →
        ∀ calls, message.toolCalls = some calls → AnsweredNext calls (more ++ rest))
        (msg.toolResults env) := by
      refine followed_of_forall fun message hmem more hrole => ?_
      rw [toolResults_role hmem] at hrole
      simp at hrole
    rw [h, followed_append_iff, and_iff_left hresults, BlockGroups.speech, blockGroups_eq]
    dsimp only
    rw [← filterMap_callBlock_ne_nil_iff env]
    by_cases hcalls : msg.blocks.filterMap (callBlock env) = []
    · split_ifs <;> simp [hcalls]
    · rw [if_pos (Or.inr hcalls)]
      simp [hcalls]

/-- **Tool messages follow their calls exactly when no answering message speaks.** -/
theorem callsAnsweredNext_iff (env : Env) (req : ClaudeRequest) (model : String)
    (hanswered : ToolUsesAnswered req.messages) :
    CallsAnsweredNext (claudeReqToOpenai env req model).messages ↔
      AnsweredSilently req.messages := by
  have hsystem : Followed (fun message rest => message.role = "assistant" →
      ∀ calls, message.toolCalls = some calls →
        AnsweredNext calls (rest ++ req.messages.flatMap (convertClaudeMessage env)))
      (chatSystemMessage req.system) := by
    unfold chatSystemMessage
    split
    · split_ifs <;> simp
    · trivial
  rw [claudeReqToOpenai, CallsAnsweredNext, followed_append_iff, and_iff_right hsystem]
  generalize req.messages = messages at hanswered
  unfold ToolUsesAnswered at hanswered
  unfold AnsweredSilently
  -- Message by message, with what the later messages become behind it.
  induction messages with
  | nil => simp
  | cons msg messages ih =>
    rw [List.flatMap_cons, followed_append_iff, followed_cons_iff]
    refine and_congr ?_ (ih hanswered.2)
    rw [followed_convertClaudeMessage_iff]
    refine imp_congr_right fun hrole => imp_congr_right fun hcall => ?_
    obtain ⟨block, hmem, his⟩ := id hcall
    obtain ⟨id, hid⟩ : ∃ id, block.getStr "id" = some id := by
      cases hget : block.getStr "id" with
      | none => exact absurd (by simp [hget]) his.2.1
      | some id => exact ⟨id, rfl⟩
    obtain ⟨-, user, huser, huserRole, -⟩ := hanswered.1 hrole block hmem his.1 id hid
    cases messages with
    | nil => cases huser
    | cons next messages =>
      obtain rfl : next = user := Option.some.inj huser
      rw [List.flatMap_cons, answeredNext_iff _ hcall huserRole]
      · simp
      · intro block hblock htype id hid
        obtain ⟨hzero, user, huser, -, hone⟩ := hanswered.1 hrole block hblock htype id hid
        obtain rfl : next = user := Option.some.inj huser
        exact ⟨hzero, hone⟩

/-- An assistant message with one call, and a user message with its answer. -/
def oneCall (userBlocks : List Json) : ClaudeRequest where
  model := "claude"
  messages :=
    [{ role := "assistant"
       content := .arr [.obj [("type", .str "tool_use"), ("id", .str "call_1"),
         ("name", .str "Bash"), ("input", .obj [])]] },
     { role := "user"
       content := .arr (userBlocks ++ [.obj [("type", .str "tool_result"),
         ("tool_use_id", .str "call_1"), ("content", .str "ok")]]) }]

theorem toolUsesAnswered_oneCall {userBlocks : List Json}
    (h : userBlocks.countP (answersToolUse "call_1") = 0) :
    ToolUsesAnswered (oneCall userBlocks).messages := by
  refine ⟨?_, ?_, trivial⟩
  · intro _ block hmem _ id hid
    obtain rfl := List.mem_singleton.1 hmem
    obtain rfl : "call_1" = id := Option.some.inj hid
    refine ⟨by decide, _, rfl, rfl, ?_⟩
    show (userBlocks ++ [_]).countP (answersToolUse "call_1") = 1
    rw [List.countP_append, h]
    decide
  · intro hrole
    simp at hrole

theorem callsAnsweredNext_oneCall :
    CallsAnsweredNext (claudeReqToOpenai (Env.ofValues []) (oneCall []) "gpt-4.1").messages := by
  refine (callsAnsweredNext_iff (Env.ofValues []) (oneCall []) "gpt-4.1"
    (toolUsesAnswered_oneCall rfl)).2 ⟨?_, ?_, trivial⟩
  · rintro - - user huser ⟨block, hmem, hblock⟩
    obtain rfl := Option.some.inj huser
    obtain rfl := List.mem_singleton.1 hmem
    revert hblock
    decide
  · intro hrole
    simp at hrole

/-- A user who also writes a text comes between the call and its answer. -/
theorem not_callsAnsweredNext_textAndResult :
    ToolUsesAnswered (oneCall [.obj [("type", .str "text"), ("text", .str "go on")]]).messages ∧
      ¬ CallsAnsweredNext (claudeReqToOpenai (Env.ofValues [])
        (oneCall [.obj [("type", .str "text"), ("text", .str "go on")]]) "gpt-4.1").messages := by
  refine ⟨toolUsesAnswered_oneCall (by decide), ?_⟩
  rintro ⟨h, -⟩
  obtain ⟨run, after, heq, htool, hone⟩ := h rfl _ rfl
  cases run with
  | nil => exact absurd (hone _ List.mem_cons_self) (by decide)
  | cons message run =>
    have hmessage := (List.cons.inj heq).1
    have hrole := htool message List.mem_cons_self
    rw [← hmessage] at hrole
    exact absurd hrole (by decide)

end AiOpenRouter
