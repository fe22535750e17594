/-
The chat → Responses request converter (`openai_chat_to_responses`), and the way
back (`openai_responses_req_to_chat`).

* `readChatMessage` is one turn of the loop over the chat messages;
* `chatTurnOf` reads a chat message as what was said, called or answered;
* `regroup` says which turns come back: the calls of assistant messages wait
  until another message closes their group;
* `roundTrip_iff`: the conversation comes back as it was exactly when its messages
  are `Kept`.
-/
import AiOpenRouter.JsonPrinting
import AiOpenRouter.ResponsesRequestToChat
import Mathlib.Data.List.Chain

namespace AiOpenRouter

/-! ### The converter -/

structure ChatMessagesState where
  input : List Json := []
  instructions : Option String := none

def messageToolCalls (msg : Json) : Option (List Json) :=
  if itemRole msg = "assistant" then (msg.get "tool_calls").bind Json.asArray else none

def readToolCall (tc : Json) : String × String × String :=
  ((tc.getStr "id").getD "", ((tc.get "function").bind (·.getStr "name")).getD "",
    ((tc.get "function").bind (·.getStr "arguments")).getD "\x7b\x7d")

/-- The `function_call` item of a tool call. -/
def functionCallItem (tc : Json) : Json :=
  let call := readToolCall tc
  .obj [("type", .str "function_call"), ("id", .str call.1), ("call_id", .str call.1),
    ("name", .str call.2.1), ("arguments", .str call.2.2), ("status", .str "completed")]

/-- The `function_call_output` item of a tool message. -/
def functionCallOutputItem (env : Env) (msg : Json) : Json :=
  .obj [("type", .str "function_call_output"),
    ("call_id", .str ((msg.getStr "tool_call_id").getD "")),
    ("output", .str (jsonValueToString env (msg.get "content")))]

def inputTextPart (text : String) : Json := .obj [("type", .str "input_text"), ("text", .str text)]

def chatPartText (part : Json) : Option String :=
  if part.getStr "type" = some "text" then part.getStr "text" else none

def chatContentTexts : Option Json → List String
  | some (.str s) => [s]
  | some (.arr parts) => parts.filterMap chatPartText
  | _ => []

/-- The `message` item of a user or assistant message. -/
def chatMessageItem (msg : Json) : Json :=
  .obj [("type", .str "message"), ("role", .str (itemRole msg)),
    ("content", .arr ((chatContentTexts (msg.get "content")).map inputTextPart))]

def readChatMessage (env : Env) (st : ChatMessagesState) (msg : Json) : ChatMessagesState :=
  if itemRole msg = "system" then
    match msg.get "content" with
    | some content => { st with instructions := some (jsonValueToString env (some content)) }
    | none => st
  else
    match messageToolCalls msg with
    | some toolCalls => { st with input := st.input ++ toolCalls.map functionCallItem }
    | none =>
      if itemRole msg = "tool" then
        { st with input := st.input ++ [functionCallOutputItem env msg] }
      else { st with input := st.input ++ [chatMessageItem msg] }

def responsesToolOf (t : Json) : Option Json := do
  let function ← if t.getStr "type" = some "function" then t.get "function" else none
  let name ← function.get "name"
  let parameters ← function.get "parameters"
  return .obj [("type", .str "function"), ("name", name),
    ("description", (function.get "description").getD .null), ("parameters", parameters)]

def responsesTools (req : Json) : Option Json :=
  (((req.get "tools").bind Json.asArray).map fun tools => tools.filterMap responsesToolOf).bind
    fun tools => if tools = [] then none else some (.arr tools)

/-- The messages of a request. -/
def chatMessages (req : Json) : List Json := ((req.get "messages").bind Json.asArray).getD []

/-- `openai_chat_to_responses`, between its `serde` calls. -/
def openaiChatToResponses (env : Env) (req : Json) (model : String) : Json :=
  let st := (chatMessages req).foldl (readChatMessage env) {}
  let fields : List (String × Json) :=
    [("model", .str model), ("input", .arr st.input),
      ("stream", (req.get "stream").getD (.bool false))]
  let fields := Json.insertSome fields "instructions" (st.instructions.map Json.str)
  let fields := Json.insertSome fields "tools" (responsesTools req)
  .obj (Json.insertSome fields "max_output_tokens"
    (req.get "max_completion_tokens" <|> req.get "max_tokens"))

/-! ### The conversation of a chat request -/

def chatContentText (content : Option Json) : String := "".intercalate (chatContentTexts content)

/-- What one chat message says: its text, its calls (id, name and arguments), and the call it
answers. -/
structure ChatTurn where
  role : String
  text : String
  calls : List (String × String × String) := []
  answers : Option String := none
  deriving DecidableEq

def chatTurnOf (msg : Json) : ChatTurn where
  role := itemRole msg
  text := chatContentText (msg.get "content")
  calls := ((messageToolCalls msg).getD []).map readToolCall
  answers := if itemRole msg = "tool" then some ((msg.getStr "tool_call_id").getD "") else none

def IsTextContent (content : Json) : Prop :=
  (∃ s, content = .str s) ∨ ∃ parts, content = .arr parts ∧
    ∀ part ∈ parts, part.getStr "type" = some "text" ∧ ∃ s, part.getStr "text" = some s

/-- A message whose content is text: the content of a message with tool calls may be missing. -/
def HasTextContent (msg : Json) : Prop :=
  (∃ content, msg.get "content" = some content ∧ IsTextContent content) ∨
    ((messageToolCalls msg).isSome ∧
      (msg.get "content" = none ∨ msg.get "content" = some .null))

/-! ### The way there and back -/

def callsTurn (calls : List (String × String × String)) : ChatTurn where
  role := "assistant"
  text := ""
  calls := calls

def groupTurns (calls : List (String × String × String)) : List ChatTurn :=
  if calls = [] then [] else [callsTurn calls]

def returnedTurn (env : Env) (msg : Json) : ChatTurn where
  role := itemRole msg
  text := if itemRole msg = "tool" then jsonValueToString env (msg.get "content")
          else chatContentText (msg.get "content")
  answers := if itemRole msg = "tool" then some ((msg.getStr "tool_call_id").getD "") else none

def regroup (env : Env) : List (String × String × String) → List Json → List ChatTurn
  | calls, [] => groupTurns calls
  | calls, msg :: msgs =>
    if itemRole msg = "system" then regroup env calls msgs
    else
      match messageToolCalls msg with
      | some toolCalls => regroup env (calls ++ toolCalls.map readToolCall) msgs
      | none => groupTurns calls ++ returnedTurn env msg :: regroup env [] msgs

def messageInstructions (env : Env) (msg : Json) : Option String :=
  if itemRole msg = "system" then
    (msg.get "content").map fun content => jsonValueToString env (some content)
  else none

def messageItems (env : Env) (msg : Json) : List Json :=
  if itemRole msg = "system" then []
  else
    match messageToolCalls msg with
    | some toolCalls => toolCalls.map functionCallItem
    | none =>
      if itemRole msg = "tool" then [functionCallOutputItem env msg] else [chatMessageItem msg]

variable {msg : Json} {msgs : List Json} (env : Env)

/-- The items are those of the messages, the instructions those of the last system message. -/
theorem foldl_readChatMessage (msgs : List Json) (st : ChatMessagesState) :
    msgs.foldl (readChatMessage env) st =
      { input := st.input ++ msgs.flatMap (messageItems env)
        instructions := (msgs.filterMap (messageInstructions env)).getLast?.or
          st.instructions } := by
  induction msgs generalizing st with
  | nil => simp
  | cons msg msgs ih =>
    have hstep : readChatMessage env st msg =
        { input := st.input ++ messageItems env msg
          instructions := (messageInstructions env msg).or st.instructions } := by
      unfold readChatMessage messageItems messageInstructions
      by_cases hsystem : itemRole msg = "system"
      · rw [if_pos hsystem, if_pos hsystem, if_pos hsystem, List.append_nil]
        cases msg.get "content" <;> rfl
      · rw [if_neg hsystem, if_neg hsystem, if_neg hsystem]
        cases messageToolCalls msg with
        | some toolCalls => rfl
        | none =>
          dsimp only
          split_ifs <;> rfl
    rw [List.foldl_cons, ih, hstep, List.flatMap_cons, List.append_assoc,
      filterMap_cons_eq_append, List.getLast?_append]
    cases messageInstructions env msg <;> simp

namespace ChatInputState

def chatTurns (st : ChatInputState) : List ChatTurn :=
  st.messages.map chatTurnOf ++ groupTurns (st.pendingToolCalls.map readToolCall)

theorem chatTurnOf_toolCallsMessage (toolCalls : List Json) :
    chatTurnOf (toolCallsMessage toolCalls) = callsTurn (toolCalls.map readToolCall) := rfl

theorem flush_spec (st : ChatInputState) :
    (flushPendingToolCalls st).pendingToolCalls = [] ∧
      (flushPendingToolCalls st).messages.map chatTurnOf = st.chatTurns := by
  unfold flushPendingToolCalls chatTurns groupTurns
  by_cases h : st.pendingToolCalls = []
  · rw [if_pos h, if_pos (by simp [h])]
    exact ⟨h, (List.append_nil _).symm⟩
  · rw [if_neg h, if_neg (by simpa using h)]
    refine ⟨rfl, ?_⟩
    rw [List.map_append, List.map_singleton, chatTurnOf_toolCallsMessage]

variable (env : Env)

theorem foldl_functionCalls (toolCalls : List Json) (st : ChatInputState) :
    (toolCalls.map functionCallItem).foldl (readChatItem env) st =
      { st with pendingToolCalls := st.pendingToolCalls ++
          (toolCalls.map functionCallItem).map chatToolCallOf } := by
  induction toolCalls generalizing st with
  | nil => simp
  | cons tc toolCalls ih =>
    have hstep : readChatItem env st (functionCallItem tc) =
        { st with pendingToolCalls := st.pendingToolCalls ++
            [chatToolCallOf (functionCallItem tc)] } := rfl
    rw [List.map_cons, List.foldl_cons, hstep, ih]
    simp

theorem chatTurnOf_textMessage {role : String} (h : role ≠ "tool") (text : String) :
    chatTurnOf (textMessage role text) = { role := role, text := text } := by
  have hrole : itemRole (textMessage role text) = role := rfl
  have hcalls : messageToolCalls (textMessage role text) = none := by
    unfold messageToolCalls
    split_ifs <;> rfl
  have htext : chatContentText ((textMessage role text).get "content") = text :=
    String.intercalate_singleton
  rw [chatTurnOf, hrole, hcalls, htext, if_neg h]
  rfl

theorem chatTurnOf_toolMessage {msg : Json} (h : itemRole msg = "tool") :
    chatTurnOf (chatToolMessageOf env (functionCallOutputItem env msg)) = returnedTurn env msg := by
  have htext : chatContentText ((chatToolMessageOf env (functionCallOutputItem env msg)).get
      "content") = jsonValueToString env (msg.get "content") := String.intercalate_singleton
  rw [chatTurnOf, htext, returnedTurn, h, if_pos rfl, if_pos rfl]
  rfl

theorem extractOpenai2Text_inputTextParts (texts : List String) :
    extractOpenai2Text (some (.arr (texts.map inputTextPart))) = "".intercalate texts := by
  unfold extractOpenai2Text
  dsimp only
  rw [List.filterMap_map]
  congr 1
  exact List.filterMap_some

theorem readChatItem_chatMessageItem (msg : Json) (st : ChatInputState) :
    readChatItem env st (chatMessageItem msg) =
      { flushPendingToolCalls st with
        messages := (flushPendingToolCalls st).messages ++
          [textMessage (itemRole msg) (chatContentText (msg.get "content"))] } := by
  have htext : extractOpenai2Text ((chatMessageItem msg).get "content") =
      chatContentText (msg.get "content") := extractOpenai2Text_inputTextParts _
  have hstep : readChatItem env st (chatMessageItem msg) =
      { flushPendingToolCalls st with
        messages := (flushPendingToolCalls st).messages ++
          [textMessage (itemRole msg)
            (extractOpenai2Text ((chatMessageItem msg).get "content"))] } :=
    rfl
  rw [hstep, htext]

/-- **The messages come back as `regroup` says.** -/
theorem foldl_messageItems (msgs : List Json) (st : ChatInputState) :
    (flushPendingToolCalls ((msgs.flatMap (messageItems env)).foldl
        (readChatItem env) st)).messages.map chatTurnOf =
      st.messages.map chatTurnOf ++ regroup env (st.pendingToolCalls.map readToolCall) msgs := by
  induction msgs generalizing st with
  | nil => exact (flush_spec st).2
  | cons msg msgs ih =>
    obtain ⟨hpending, hmessages⟩ := flush_spec st
    rw [List.flatMap_cons, List.foldl_append, ih, regroup]
    unfold messageItems
    by_cases hsystem : itemRole msg = "system"
    · rw [if_pos hsystem, if_pos hsystem]
      rfl
    · rw [if_neg hsystem, if_neg hsystem]
      cases hcalls : messageToolCalls msg with
      | some toolCalls =>
        dsimp only
        rw [foldl_functionCalls]
        dsimp only
        rw [List.map_append, List.map_map, List.map_map]
        rfl
      | none =>
        dsimp only
        by_cases htool : itemRole msg = "tool"
        · rw [if_pos htool]
          have hstep : [functionCallOutputItem env msg].foldl (readChatItem env) st =
              { flushPendingToolCalls st with
                messages := (flushPendingToolCalls st).messages ++
                  [chatToolMessageOf env (functionCallOutputItem env msg)] } := rfl
          rw [hstep]
          dsimp only
          rw [hpending, List.map_append, hmessages, List.map_singleton,
            chatTurnOf_toolMessage env htool]
          simp [chatTurns]
        · rw [if_neg htool, List.foldl_cons, List.foldl_nil, readChatItem_chatMessageItem]
          dsimp only
          rw [hpending, List.map_append, hmessages, List.map_singleton,
            chatTurnOf_textMessage htool]
          simp [chatTurns, returnedTurn, htool]

end ChatInputState

def systemTurn (instructions : String) : ChatTurn where
  role := "system"
  text := instructions

def lastInstructions (env : Env) (msgs : List Json) : Option String :=
  (msgs.filterMap (messageInstructions env)).getLast?

/-- **The turns that come back** for a request. -/
theorem chatTurns_roundTrip (req : Json) (model model' : String) :
    (chatMessages (openaiResponsesReqToChat env (openaiChatToResponses env req model)
        model')).map chatTurnOf =
      ((lastInstructions env (chatMessages req)).map systemTurn).toList ++
        regroup env [] (chatMessages req) := by
  -- the request in the middle, by its two fields
  have hrequest : ∀ st : ChatMessagesState, ∀ fields : List (String × Json),
      openaiChatToResponses env req model = .obj fields →
        (chatMessages req).foldl (readChatMessage env) {} = st →
          fields.lookup "input" = some (.arr st.input) ∧
            fields.lookup "instructions" = st.instructions.map Json.str := by
    rintro st fields hfields rfl
    rw [openaiChatToResponses, Json.obj.injEq] at hfields
    rw [← hfields]
    simp [List.lookup_cons]
  obtain ⟨fields, hfields⟩ : ∃ fields, openaiChatToResponses env req model = .obj fields :=
    ⟨_, rfl⟩
  obtain ⟨hinput, hinstructions⟩ := hrequest _ fields hfields rfl
  have hmessages : chatMessages (openaiResponsesReqToChat env (.obj fields) model') =
      readChatMessages env (.obj fields) := by
    rw [chatMessages, openaiResponsesReqToChat]
    simp [Json.get, Json.asArray, List.lookup_cons]
  rw [foldl_readChatMessage, List.nil_append] at hinput hinstructions
  rw [Option.or_none] at hinstructions
  have hget : (Json.obj fields).get "input" =
      some (.arr ((chatMessages req).flatMap (messageItems env))) := hinput
  have hstr : (Json.obj fields).getStr "instructions" =
      lastInstructions env (chatMessages req) := by
    rw [Json.getStr, Json.get, hinstructions]
    unfold lastInstructions
    cases ((chatMessages req).filterMap (messageInstructions env)).getLast? <;> rfl
  have hsystem : (((lastInstructions env (chatMessages req)).map (textMessage "system")).toList).map
      chatTurnOf = ((lastInstructions env (chatMessages req)).map systemTurn).toList := by
    cases lastInstructions env (chatMessages req) with
    | none => rfl
    | some instructions =>
      exact congrArg (fun turn => [turn])
        (ChatInputState.chatTurnOf_textMessage (by decide) instructions)
  rw [hfields, hmessages, readChatMessages, hget, hstr]
  dsimp only
  rw [ChatInputState.foldl_messageItems, hsystem]
  rfl

/-! ### What is kept -/

def HasCalls (msg : Json) : Prop := (messageToolCalls msg).isSome = true

instance (msg : Json) : Decidable (HasCalls msg) := inferInstanceAs (Decidable (_ = true))

/-- A message that is kept: with tool calls it has at least one and no text, the content of a tool
message is a string. -/
structure KeptMessage (msg : Json) : Prop where
  calls : ∀ toolCalls, messageToolCalls msg = some toolCalls →
    toolCalls ≠ [] ∧ chatContentText (msg.get "content") = ""
  tool : itemRole msg = "tool" → ∃ s, msg.get "content" = some (.str s)

/-- Messages without a system message that are kept: no two with tool calls are next to each
other. -/
structure KeptTalk (msgs : List Json) : Prop where
  user : ∀ msg ∈ msgs, itemRole msg ≠ "system"
  kept : ∀ msg ∈ msgs, KeptMessage msg
  apart : msgs.IsChain fun msg next => ¬ (HasCalls msg ∧ HasCalls next)

/-- Messages that are kept: only the first may be a system message, with a string. -/
def Kept : List Json → Prop
  | [] => True
  | msg :: msgs =>
    if itemRole msg = "system" then (∃ s, msg.get "content" = some (.str s)) ∧ KeptTalk msgs
    else KeptTalk (msg :: msgs)

theorem length_regroup (msgs : List Json) (calls : List (String × String × String)) :
    (regroup env calls msgs).length +
        (msgs.filter fun msg => itemRole msg = "system").length ≤
      (groupTurns calls).length + msgs.length := by
  have hgroup : ∀ calls calls' : List (String × String × String),
      (groupTurns (calls ++ calls')).length ≤ (groupTurns calls).length + 1 := by
    intro calls calls'
    unfold groupTurns
    split_ifs <;> simp
  induction msgs generalizing calls with
  | nil => simp [regroup]
  | cons msg msgs ih =>
    rw [regroup]
    by_cases hsystem : itemRole msg = "system"
    · rw [if_pos hsystem, List.filter_cons_of_pos (by simpa using hsystem)]
      have hrest := ih calls
      simp only [List.length_cons]
      omega
    · rw [if_neg hsystem, List.filter_cons_of_neg (by simpa using hsystem)]
      cases messageToolCalls msg with
      | some toolCalls =>
        have hrest := ih (calls ++ toolCalls.map readToolCall)
        have hadded := hgroup calls (toolCalls.map readToolCall)
        dsimp only
        simp only [List.length_cons]
        omega
      | none =>
        have hrest := ih []
        have hnone : groupTurns [] = [] := rfl
        rw [hnone, List.length_nil] at hrest
        dsimp only
        simp only [List.length_append, List.length_cons]
        omega

theorem regroup_head (msgs : List Json) {calls : List (String × String × String)} (h : calls ≠ []) :
    ∃ more turns, regroup env calls msgs = callsTurn (calls ++ more) :: turns := by
  induction msgs generalizing calls with
  | nil => exact ⟨[], [], by rw [regroup, groupTurns, if_neg h, List.append_nil]⟩
  | cons msg msgs ih =>
    rw [regroup]
    by_cases hsystem : itemRole msg = "system"
    · rw [if_pos hsystem]
      exact ih h
    · rw [if_neg hsystem]
      cases messageToolCalls msg with
      | some toolCalls =>
        have hne : calls ++ toolCalls.map readToolCall ≠ [] := by simp [h]
        obtain ⟨more, turns, heq⟩ := ih hne
        exact ⟨toolCalls.map readToolCall ++ more, turns, by rw [← List.append_assoc]; exact heq⟩
      | none =>
        refine ⟨[], returnedTurn env msg :: regroup env [] msgs, ?_⟩
        dsimp only
        rw [groupTurns, if_neg h, List.append_nil]
        rfl

theorem chatContentText_ne_compact {content : Json} (h : ∀ s, content ≠ .str s)
    (htext : IsTextContent content) : content.compact ≠ chatContentText (some content) := by
  obtain ⟨s, rfl⟩ | ⟨parts, rfl, hparts⟩ := htext
  · exact absurd rfl (h s)
  · have hpart : ∀ part ∈ parts, ∀ text ∈ chatPartText part,
        text.length ≤ part.compact.length := by
      intro part hmem text htext
      obtain ⟨htype, -⟩ := hparts part hmem
      rw [chatPartText, if_pos htype] at htext
      exact Json.length_compact_of_getStr htext
    have hle := length_intercalate_filterMap_le (show "".length ≤ ",".length by decide) hpart
    intro heq
    have hlength := congrArg String.length heq
    rw [Json.compact, Json.compactItems_eq_map, String.length_append, String.length_append,
      show "[".length = 1 by decide, show "]".length = 1 by decide] at hlength
    have hsame : (chatContentText (some (.arr parts))).length =
        ("".intercalate (parts.filterMap chatPartText)).length := rfl
    omega

theorem returnedTurn_eq_iff {env : Env} (henv : env.toStr = Json.compact)
    (hcalls : messageToolCalls msg = none) (htext : HasTextContent msg) :
    returnedTurn env msg = chatTurnOf msg ↔ KeptMessage msg := by
  obtain ⟨content, hcontent, htext⟩ : ∃ content, msg.get "content" = some content ∧
      IsTextContent content := htext.resolve_right fun hmissing => by simp [hcalls] at hmissing
  have hturn : returnedTurn env msg = chatTurnOf msg ↔
      (itemRole msg = "tool" → jsonValueToString env (some content) =
        chatContentText (some content)) := by
    rw [returnedTurn, chatTurnOf, hcalls, hcontent, ChatTurn.mk.injEq]
    by_cases htool : itemRole msg = "tool" <;> simp [htool]
  rw [hturn]
  constructor
  · intro h
    refine ⟨fun toolCalls hsome => by simp [hcalls] at hsome, fun htool => ?_⟩
    have heq := h htool
    by_contra hnot
    have hne : ∀ s, content ≠ .str s := fun s hs => hnot ⟨s, by rw [hcontent, hs]⟩
    refine chatContentText_ne_compact hne htext ?_
    rw [← heq, jsonValueToString, henv]
    exact fun s hs => absurd hs (hne s)
  · intro h htool
    obtain ⟨s, hs⟩ := h.tool htool
    rw [hcontent] at hs
    rw [hs, chatContentText]
    exact String.intercalate_singleton.symm

theorem keptTalk_cons_iff :
    KeptTalk (msg :: msgs) ↔ itemRole msg ≠ "system" ∧ KeptMessage msg ∧
      (∀ next ∈ msgs.head?, ¬ (HasCalls msg ∧ HasCalls next)) ∧ KeptTalk msgs := by
  constructor
  · rintro ⟨huser, hkept, hapart⟩
    obtain ⟨hnext, hapart⟩ := List.isChain_cons.1 hapart
    exact ⟨huser msg List.mem_cons_self, hkept msg List.mem_cons_self, hnext,
      fun msg hmem => huser msg (List.mem_cons_of_mem _ hmem),
      fun msg hmem => hkept msg (List.mem_cons_of_mem _ hmem), hapart⟩
  · rintro ⟨huser, hkept, hnext, h⟩
    exact ⟨List.forall_mem_cons.2 ⟨huser, h.user⟩, List.forall_mem_cons.2 ⟨hkept, h.kept⟩,
      List.isChain_cons.2 ⟨hnext, h.apart⟩⟩

theorem itemRole_of_messageToolCalls {toolCalls : List Json}
    (h : messageToolCalls msg = some toolCalls) : itemRole msg = "assistant" := by
  unfold messageToolCalls at h
  split_ifs at h with hrole
  exact hrole

theorem chatTurnOf_of_calls {toolCalls : List Json} (h : messageToolCalls msg = some toolCalls)
    (htext : chatContentText (msg.get "content") = "") :
    chatTurnOf msg = callsTurn (toolCalls.map readToolCall) := by
  have hrole := itemRole_of_messageToolCalls h
  rw [chatTurnOf, htext, h, hrole, if_neg (by decide)]
  rfl

/-- **Messages without a system message come back, behind waiting calls, exactly when they are
kept** and do not start with more calls. -/
theorem regroup_eq_iff {env : Env} (henv : env.toStr = Json.compact)
    (huser : ∀ msg ∈ msgs, itemRole msg ≠ "system") (htext : ∀ msg ∈ msgs, HasTextContent msg)
    (calls : List (String × String × String)) :
    regroup env calls msgs = groupTurns calls ++ msgs.map chatTurnOf ↔
      KeptTalk msgs ∧ (calls ≠ [] → ∀ next ∈ msgs.head?, ¬ HasCalls next) := by
  -- on the messages, with the calls that wait for their turn
  induction msgs generalizing calls with
  | nil =>
    have hkept : KeptTalk [] := ⟨by simp, by simp, .nil⟩
    simp [regroup, hkept]
  | cons msg msgs ih =>
    have hsystem : itemRole msg ≠ "system" := huser msg List.mem_cons_self
    have hih := ih (fun msg hmem => huser msg (List.mem_cons_of_mem _ hmem))
      fun msg hmem => htext msg (List.mem_cons_of_mem _ hmem)
    have hhead : (∀ next ∈ (msg :: msgs).head?, ¬ HasCalls next) ↔ ¬ HasCalls msg := by simp
    rw [keptTalk_cons_iff, hhead, regroup, if_neg hsystem, List.map_cons]
    cases hcalls : messageToolCalls msg with
    | none =>
      -- a message without calls ends the group in front of it
      have hnone : ¬ HasCalls msg := by simp [HasCalls, hcalls]
      have hmsg := returnedTurn_eq_iff henv hcalls (htext msg List.mem_cons_self)
      have hrest := hih []
      rw [show groupTurns [] = [] from rfl, List.nil_append] at hrest
      dsimp only
      rw [List.append_cancel_left_eq, List.cons.injEq, hmsg, hrest]
      constructor
      · rintro ⟨hkept, htalk, -⟩
        exact ⟨⟨hsystem, hkept, fun _ _ h => hnone h.1, htalk⟩, fun _ => hnone⟩
      · rintro ⟨⟨-, hkept, -, htalk⟩, -⟩
        exact ⟨hkept, htalk, fun h => absurd rfl h⟩
    | some toolCalls =>
      have hsome : HasCalls msg := by simp [HasCalls, hcalls]
      have hlength := length_regroup env msgs (calls ++ toolCalls.map readToolCall)
      dsimp only
      by_cases hwait : calls = []
      · subst hwait
        rw [List.nil_append] at hlength ⊢
        rw [show groupTurns [] = [] from rfl, List.nil_append]
        by_cases hempty : toolCalls = []
        · -- a message with an empty array of calls does not come back
          constructor
          · intro heq
            rw [heq, hempty] at hlength
            simp only [List.map_nil, groupTurns, if_true, List.length_nil, List.length_cons,
              List.length_map] at hlength
            omega
          · rintro ⟨⟨-, hkept, -⟩, -⟩
            exact absurd hempty (hkept.calls toolCalls hcalls).1
        · have hne : toolCalls.map readToolCall ≠ [] := by simpa using hempty
          have hrest := hih (toolCalls.map readToolCall)
          rw [groupTurns, if_neg hne, List.singleton_append] at hrest
          constructor
          · intro heq
            have hnotext : chatContentText (msg.get "content") = "" := by
              obtain ⟨more, turns, hturns⟩ := regroup_head env msgs hne
              rw [hturns] at heq
              exact congrArg ChatTurn.text (List.cons.inj heq).1.symm
            rw [chatTurnOf_of_calls hcalls hnotext] at heq
            obtain ⟨htalk, hnext⟩ := hrest.1 heq
            refine ⟨⟨hsystem, ⟨fun other hother => ?_, fun htool => ?_⟩,
              fun next hmem h => hnext hne next hmem h.2, htalk⟩, fun h => absurd rfl h⟩
            · rw [← Option.some_inj.1 (hcalls.symm.trans hother)]
              exact ⟨hempty, hnotext⟩
            · rw [itemRole_of_messageToolCalls hcalls] at htool
              exact absurd htool (by decide)
          · rintro ⟨⟨-, hkept, hnext, htalk⟩, -⟩
            rw [chatTurnOf_of_calls hcalls (hkept.calls toolCalls hcalls).2]
            exact hrest.2 ⟨htalk, fun _ next hmem h => hnext next hmem ⟨hsome, h⟩⟩
      · -- the calls join those that wait, and a turn is missing
        constructor
        · intro heq
          rw [heq] at hlength
          have hgroup : groupTurns calls = [callsTurn calls] := if_neg hwait
          have hgroup' : groupTurns (calls ++ toolCalls.map readToolCall) =
              [callsTurn (calls ++ toolCalls.map readToolCall)] := if_neg (by simp [hwait])
          rw [hgroup, hgroup'] at hlength
          simp only [List.length_append, List.length_cons, List.length_nil,
            List.length_map] at hlength
          omega
        · rintro ⟨-, h⟩
          exact absurd hsome (h hwait)

theorem lastInstructions_of_user (h : ∀ msg ∈ msgs, itemRole msg ≠ "system") :
    lastInstructions env msgs = none := by
  have hnil : msgs.filterMap (messageInstructions env) = [] :=
    List.filterMap_eq_nil_iff.2 fun msg hmem => if_neg (h msg hmem)
  rw [lastInstructions, hnil]
  rfl

theorem content_of_system (hsystem : itemRole msg = "system") (htext : HasTextContent msg) :
    ∃ content, msg.get "content" = some content ∧ IsTextContent content := by
  refine htext.resolve_right fun hmissing => ?_
  have hcalls : messageToolCalls msg = none := if_neg (by rw [hsystem]; decide)
  rw [hcalls] at hmissing
  exact Bool.false_ne_true hmissing.1

theorem systemTurn_eq_iff {env : Env} (henv : env.toStr = Json.compact) {content : Json}
    (hsystem : itemRole msg = "system") (hcontent : msg.get "content" = some content)
    (htext : IsTextContent content) :
    systemTurn (jsonValueToString env (some content)) = chatTurnOf msg ↔
      ∃ s, msg.get "content" = some (.str s) := by
  have hcalls : messageToolCalls msg = none := if_neg (by rw [hsystem]; decide)
  have hturn : chatTurnOf msg = systemTurn (chatContentText (some content)) := by
    rw [chatTurnOf, hcalls, hcontent, hsystem, if_neg (by decide)]
    rfl
  rw [hturn, systemTurn, systemTurn, ChatTurn.mk.injEq, hcontent]
  constructor
  · rintro ⟨-, heq, -⟩
    by_contra hnot
    have hne : ∀ s, content ≠ .str s := fun s hs => hnot ⟨s, by rw [hs]⟩
    refine chatContentText_ne_compact hne htext ?_
    rw [← heq, jsonValueToString, henv]
    exact fun s hs => absurd hs (hne s)
  · rintro ⟨s, hs⟩
    rw [hs]
    exact ⟨rfl, String.intercalate_singleton.symm, rfl, rfl⟩

/-- **The turns that come back are those of the messages exactly when these are `Kept`.** -/
theorem regroup_instructions_iff {env : Env} (henv : env.toStr = Json.compact)
    (htext : ∀ msg ∈ msgs, HasTextContent msg) :
    ((lastInstructions env msgs).map systemTurn).toList ++ regroup env [] msgs =
      msgs.map chatTurnOf ↔ Kept msgs := by
  cases msgs with
  | nil => exact ⟨fun _ => trivial, fun _ => rfl⟩
  | cons msg rest =>
    have hrestText : ∀ msg ∈ rest, HasTextContent msg :=
      fun msg hmem => htext msg (List.mem_cons_of_mem _ hmem)
    by_cases hsystem : itemRole msg = "system"
    -- the first message is the system message
    · obtain ⟨content, hcontent, hisText⟩ :=
        content_of_system hsystem (htext msg List.mem_cons_self)
      have hinstructions : messageInstructions env msg =
          some (jsonValueToString env (some content)) := by
        rw [messageInstructions, if_pos hsystem, hcontent]
        rfl
      rw [Kept, if_pos hsystem, regroup, if_pos hsystem, List.map_cons]
      by_cases huser : ∀ msg ∈ rest, itemRole msg ≠ "system"
      -- and the only one, so it becomes the instructions
      · have hnone : rest.filterMap (messageInstructions env) = [] :=
          List.filterMap_eq_nil_iff.2 fun msg hmem => if_neg (huser msg hmem)
        have hlast : lastInstructions env (msg :: rest) =
            some (jsonValueToString env (some content)) := by
          rw [lastInstructions, filterMap_cons_eq_append, hinstructions, hnone]
          rfl
        have hrest := regroup_eq_iff henv huser hrestText []
        rw [show groupTurns [] = [] from rfl, List.nil_append] at hrest
        rw [hlast, Option.map_some, Option.toList_some, List.singleton_append, List.cons.injEq,
          systemTurn_eq_iff henv hsystem hcontent hisText, hrest]
        exact and_congr_right fun _ => and_iff_left fun h => absurd rfl h
      · -- a second system message gives no turn of its own
        obtain ⟨other, hmem, hother⟩ : ∃ other ∈ rest, itemRole other = "system" := by
          simpa using huser
        have hfilter : 0 < (rest.filter fun msg => itemRole msg = "system").length :=
          List.length_pos_of_mem (List.mem_filter.2 ⟨hmem, by simpa using hother⟩)
        constructor
        · intro heq
          have hlength := length_regroup env rest []
          have hlength' := congrArg List.length heq
          have hone : ((lastInstructions env (msg :: rest)).map systemTurn).toList.length ≤ 1 := by
            cases lastInstructions env (msg :: rest) <;> simp
          simp only [groupTurns, if_true, List.length_nil, List.length_append, List.length_cons,
            List.length_map] at hlength hlength'
          omega
        · rintro ⟨-, htalk⟩
          exact absurd hother (htalk.user other hmem)
    · rw [Kept, if_neg hsystem]
      by_cases huser : ∀ msg ∈ rest, itemRole msg ≠ "system"
      · have hall : ∀ msg' ∈ msg :: rest, itemRole msg' ≠ "system" :=
          List.forall_mem_cons.2 ⟨hsystem, huser⟩
        have hiff := regroup_eq_iff henv hall htext []
        rw [show groupTurns [] = [] from rfl, List.nil_append] at hiff
        rw [lastInstructions_of_user env hall]
        exact hiff.trans (and_iff_left fun h => absurd rfl h)
      · -- the instructions come first
        obtain ⟨other, hmem, hother⟩ : ∃ other ∈ rest, itemRole other = "system" := by
          simpa using huser
        obtain ⟨content, hcontent, -⟩ := content_of_system hother (hrestText other hmem)
        constructor
        · intro heq
          have hne : (msg :: rest).filterMap (messageInstructions env) ≠ [] := by
            intro hnil
            have hnone := List.filterMap_eq_nil_iff.1 hnil other (List.mem_cons_of_mem _ hmem)
            rw [messageInstructions, if_pos hother, hcontent] at hnone
            cases hnone
          obtain ⟨instructions, hlast⟩ : ∃ instructions,
              lastInstructions env (msg :: rest) = some instructions :=
            ⟨_, List.getLast?_eq_some_getLast hne⟩
          rw [hlast, List.map_cons] at heq
          have hrole := congrArg ChatTurn.role (List.cons.inj heq).1
          exact absurd hrole.symm hsystem
        · intro htalk
          exact absurd hother (htalk.user other (List.mem_cons_of_mem _ hmem))

/-- **A chat request comes back with the same conversation exactly when its messages are
kept.** -/
theorem roundTrip_iff (env : Env) (henv : env.toStr = Json.compact) (req : Json)
    (model model' : String) (htext : ∀ msg ∈ chatMessages req, HasTextContent msg) :
    (chatMessages (openaiResponsesReqToChat env (openaiChatToResponses env req model)
        model')).map chatTurnOf = (chatMessages req).map chatTurnOf ↔ Kept (chatMessages req) := by
  rw [chatTurns_roundTrip]
  exact regroup_instructions_iff henv htext

def callMessages (assistantContent : Json) : List Json :=
  [textMessage "system" "Be brief.",
    .obj [("role", .str "user"),
      ("content", .arr [.obj [("type", .str "text"), ("text", .str "List the files.")]])],
    .obj [("role", .str "assistant"), ("content", assistantContent),
      ("tool_calls", .arr [.obj [("id", .str "call_1"), ("type", .str "function"),
        ("function", .obj [("name", .str "Bash"), ("arguments", .str "\x7b\x7d")])]])],
    .obj [("role", .str "tool"), ("tool_call_id", .str "call_1"), ("content", .str "a.txt")]]

/-- The request of these messages. -/
def callRequest (assistantContent : Json) : Json :=
  .obj [("model", .str "gpt"), ("messages", .arr (callMessages assistantContent))]

theorem hasTextContent_callMessages {assistantContent : Json}
    (h : assistantContent = .null ∨ IsTextContent assistantContent) :
    ∀ msg ∈ callMessages assistantContent, HasTextContent msg := by
  simp only [callMessages, List.forall_mem_cons]
  refine ⟨Or.inl ⟨_, rfl, Or.inl ⟨_, rfl⟩⟩, Or.inl ⟨_, rfl, Or.inr ⟨_, rfl, ?_⟩⟩, ?_,
    Or.inl ⟨_, rfl, Or.inl ⟨_, rfl⟩⟩, by simp⟩
  · intro part hpart
    rw [List.mem_singleton.1 hpart]
    exact ⟨rfl, _, rfl⟩
  · rcases h with rfl | h
    · exact Or.inr ⟨rfl, Or.inr rfl⟩
    · exact Or.inl ⟨_, rfl, h⟩

theorem roundTrip_call :
    (chatMessages (openaiResponsesReqToChat (Env.ofValues [])
        (openaiChatToResponses (Env.ofValues []) (callRequest .null) "gpt") "gpt")).map chatTurnOf =
      (chatMessages (callRequest .null)).map chatTurnOf := by
  refine (roundTrip_iff (Env.ofValues []) rfl (callRequest .null) "gpt" "gpt"
    (hasTextContent_callMessages (Or.inl rfl))).2 ⟨⟨_, rfl⟩, ?_⟩
  have hnext : ∀ {msg next : Json} {msgs : List Json}, ¬ (HasCalls msg ∧ HasCalls next) →
      ∀ next' ∈ (next :: msgs).head?, ¬ (HasCalls msg ∧ HasCalls next') := by
    rintro msg next msgs h next' hmem
    rwa [← Option.some_inj.1 hmem]
  refine keptTalk_cons_iff.2 ⟨by decide, { calls := ?_, tool := ?_ }, hnext (by decide),
    keptTalk_cons_iff.2 ⟨by decide, { calls := ?_, tool := ?_ }, hnext (by decide),
      keptTalk_cons_iff.2 ⟨by decide, { calls := ?_, tool := fun _ => ⟨_, rfl⟩ }, by simp,
        by simp, by simp, .nil⟩⟩⟩
  · intro toolCalls h
    cases h
  · intro h
    exact absurd h (by decide)
  · intro toolCalls h
    obtain rfl := Option.some_inj.1 h
    exact ⟨List.cons_ne_nil _ _, rfl⟩
  · intro h
    exact absurd h (by decide)
  · intro toolCalls h
    cases h

/-- The text of an assistant message with tool calls is lost. -/
theorem not_roundTrip_text :
    (∀ msg ∈ chatMessages (callRequest (.str "Let me look.")), HasTextContent msg) ∧
      (chatMessages (openaiResponsesReqToChat (Env.ofValues [])
        (openaiChatToResponses (Env.ofValues []) (callRequest (.str "Let me look.")) "gpt")
        "gpt")).map chatTurnOf ≠
      (chatMessages (callRequest (.str "Let me look."))).map chatTurnOf :=
  ⟨hasTextContent_callMessages (Or.inr (Or.inl ⟨_, rfl⟩)), by decide +kernel⟩

end AiOpenRouter
