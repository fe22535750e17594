/-
The body that a client is answered with (`map_response_body`).

An upstream body goes through the converter of the route.  Three converters read
it into a typed structure first, and what they cannot read goes to the client as
it came.  Three leave out fields that every answer of their entry has.

* `TransformerName.transformResponse` is the converter of each route;
* `HasShape` is the response shape of each entry endpoint;
* `answeredInShape_iff`: a body is answered in the shape of the entry exactly when
  the converter reads it and sends every field of the shape (`SendsShape`).
-/
import AiOpenRouter.ChatRequestToResponses
import AiOpenRouter.ClaudeStreamToChat
import AiOpenRouter.ClaudeStreamToResponses
import AiOpenRouter.ResponsesStreamToClaude
import AiOpenRouter.StreamLoop

namespace AiOpenRouter

/-! ### Typed bodies -/

namespace Decode

/-- A `Value` field of an `Option` or a `Vec`. -/
def value : Option Json → Option Json := id

/-- `OpenAIMessage`. -/
def openAIMessage : Option Json → Option OpenAIMessage
  | some json =>
    match fields ["role", "content", "tool_calls", "tool_call_id"] json with
    | some [role, content, toolCalls, toolCallId] => do
      return { role := ← string role, content := ← optional value content
               toolCalls := ← optional (list openAIToolCall) toolCalls
               toolCallId := ← optional string toolCallId }
    | _ => none
  | none => none

/-- `OpenAIChoice`. -/
def openAIChoice : Option Json → Option OpenAIChoice
  | some json =>
    match fields ["index", "message", "finish_reason"] json with
    | some [index, message, finishReason] => do
      return { index := ← i32 index, message := ← openAIMessage message
               finishReason := ← string finishReason }
    | _ => none
  | none => none

/-- `OpenAIResponse`. -/
def openAIResponse (json : Json) : Option OpenAIResponse :=
  match fields ["id", "object", "created", "model", "choices", "usage"] json with
  | some [id, object, created, model, choices, usage] => do
    return { id := ← string id, object := ← string object, created := ← i64 created
             model := ← string model, choices := ← list openAIChoice choices
             usage := ← openAIUsage usage }
  | _ => none

/-- An `i32` field, with its range. -/
def rangedI32 : Option Json → Option { n : ℤ // IsI32 n }
  | some (.num (.int n)) => if h : IsI32 n then some ⟨n, h⟩ else none
  | _ => none

/-- `ClaudeUsage`. -/
def claudeUsage : Option Json → Option ClaudeUsage
  | some json =>
    match fields ["input_tokens", "output_tokens"] json with
    | some [inputTokens, outputTokens] => do
      let ⟨input, hinput⟩ ← rangedI32 inputTokens
      let ⟨output, houtput⟩ ← rangedI32 outputTokens
      return ⟨input, output, hinput, houtput⟩
    | _ => none
  | none => none

/-- `ClaudeResponse`. -/
def claudeResponse (json : Json) : Option ClaudeResponse :=
  match fields ["id", "type", "role", "content", "model", "stop_reason", "usage"] json with
  | some [id, responseType, role, content, model, stopReason, usage] => do
    return { id := ← string id, responseType := ← string responseType, role := ← string role
             content := ← list value content, model := ← string model
             stopReason := ← string stopReason, usage := ← claudeUsage usage }
  | _ => none

end Decode

/-! ### The converter of a whole chat completion, to Responses -/

/-- The `message` item of a choice: none without text. -/
def completionTextItems (resp message : Json) : List Json :=
  match message.getStr "content" with
  | some text =>
    if text = "" then []
    else [.obj [("type", .str "message"), ("id", .str ("msg_" ++ (resp.getStr "id").getD "id")),
      ("role", .str ((message.getStr "role").getD "assistant")), ("status", .str "completed"),
      ("content", .arr [.obj [("type", .str "output_text"), ("text", .str text)]])]]
  | none => []

/-- The output items of a choice: its text, then its tool calls. -/
def completionItems (resp choice : Json) : List Json :=
  match choice.get "message" with
  | some message => completionTextItems resp message ++
      (((message.get "tool_calls").bind Json.asArray).getD []).map functionCallItem
  | none => []

/-- `openai_chat_resp_to_responses`, between its `serde` calls. -/
def openaiChatRespToResponses (resp : Json) : Json :=
  let choices := ((resp.get "choices").bind Json.asArray).getD []
  let inputTokens := responseCount resp "prompt_tokens"
  let outputTokens := responseCount resp "completion_tokens"
  .obj [("id", (resp.get "id").getD (.str "resp-id")), ("object", .str "response"),
    ("created_at", .int 1234567890), ("status", .str "completed"),
    ("model", (resp.get "model").getD (.str "gpt-4")),
    ("output", .arr (choices.flatMap (completionItems resp))),
    ("usage", .obj [("input_tokens", .int inputTokens), ("output_tokens", .int outputTokens),
      ("total_tokens", .int (wrapI32 (inputTokens + outputTokens)))])]

/-! ### The answer of the proxy -/

namespace TransformerName

/-- `transform_response`: none where it fails. -/
def transformResponse (env : Env) (options : ResponsesToClaudeOptions) (model : String)
    (name : TransformerName) (body : Json) : Option Json :=
  match name with
  | ccOpenai => (Decode.openAIResponse body).bind fun resp => (openaiRespToClaude env resp).toOption
  | ccOpenai2 => some (openaiResponsesRespToClaudeWithOptions env options body)
  | cxChatClaude => (Decode.claudeResponse body).map fun resp => claudeRespToOpenai env resp model
  | cxChatOpenai2 => some (openaiResponsesToChat body)
  | cxRespClaude => (Decode.claudeResponse body).map (claudeRespToOpenaiResponses env)
  | cxRespOpenai => some (openaiChatRespToResponses body)

/-- `map_response_body`: what is not converted stays as it is. -/
def mapResponseBody (env : Env) (options : ResponsesToClaudeOptions) (model : String)
    (name : TransformerName) (upstreamJson : Json) : Json :=
  (name.transformResponse env options model upstreamJson).getD upstreamJson

end TransformerName

/-- What the client receives: a status and a JSON body. -/
structure ProxyAnswer where
  status : ℕ
  body : Json

/-- The answer to a JSON body that the upstream sent with a status below 400. -/
def answerUpstream (env : Env) (options : ResponsesToClaudeOptions) (model : String)
    (name : TransformerName) (upstreamJson : Json) : ProxyAnswer where
  status := 200
  body := name.mapResponseBody env options model upstreamJson

/-! ### The response shapes -/

/-- A block or an item with a type. -/
def IsTyped (value : Json) : Prop := ∃ type, value.getStr "type" = some type

/-- An array of blocks or items with types. -/
def IsTypedArray (value : Option Json) : Prop :=
  ∃ values, value = some (.arr values) ∧ ∀ value ∈ values, IsTyped value

def CountsUsage (keys : List String) (body : Json) : Prop :=
  ∃ usage, body.get "usage" = some usage ∧ ∀ key ∈ keys, ∃ n, usage.get key = some (.int n)

def HoldsText (body : Json) (key : String) : Prop := ∃ text, body.getStr key = some text

/-- A field that holds an integer. -/
def HoldsInt (body : Json) (key : String) : Prop := ∃ n, body.get key = some (.int n)

/-- A Claude message. -/
structure IsClaudeMessage (body : Json) : Prop where
  id : HoldsText body "id"
  kind : body.getStr "type" = some "message"
  role : body.getStr "role" = some "assistant"
  content : IsTypedArray (body.get "content")
  model : HoldsText body "model"
  stopReason : HoldsText body "stop_reason"
  usage : CountsUsage ["input_tokens", "output_tokens"] body

/-- A choice of a chat completion. -/
structure IsChatChoice (choice : Json) : Prop where
  index : HoldsInt choice "index"
  message : ∃ message, choice.get "message" = some message ∧
    message.getStr "role" = some "assistant"
  finishReason : HoldsText choice "finish_reason"

/-- A chat completion. -/
structure IsChatCompletion (body : Json) : Prop where
  id : HoldsText body "id"
  kind : body.getStr "object" = some "chat.completion"
  created : HoldsInt body "created"
  model : HoldsText body "model"
  choices : ∃ choices, body.get "choices" = some (.arr choices) ∧ choices ≠ [] ∧
    ∀ choice ∈ choices, IsChatChoice choice
  usage : CountsUsage ["prompt_tokens", "completion_tokens", "total_tokens"] body

/-- A Responses object. -/
structure IsResponsesObject (body : Json) : Prop where
  id : HoldsText body "id"
  kind : body.getStr "object" = some "response"
  createdAt : HoldsInt body "created_at"
  status : HoldsText body "status"
  model : HoldsText body "model"
  output : IsTypedArray (body.get "output")
  usage : CountsUsage ["input_tokens", "output_tokens", "total_tokens"] body

def EntryEndpoint.HasShape : EntryEndpoint → Json → Prop
  | messages => IsClaudeMessage
  | chatCompletions => IsChatCompletion
  | responses => IsResponsesObject

/-! ### What the converters send -/

theorem isTyped_taggedBlocks (text : String) : ∀ block ∈ taggedBlocks text, IsTyped block := by
  intro block hmem
  obtain ⟨piece, -, rfl⟩ := List.mem_map.1 hmem
  cases piece <;> exact ⟨_, rfl⟩

theorem isTyped_messageContentBlocks (content : Option Json) :
    ∀ block ∈ messageContentBlocks content, IsTyped block := by
  intro block hmem
  unfold messageContentBlocks at hmem
  split at hmem
  · exact isTyped_taggedBlocks _ block hmem
  · obtain ⟨part, -, hpart⟩ := List.mem_flatMap.1 hmem
    unfold contentPartBlocks at hpart
    dsimp only at hpart
    split_ifs at hpart
    · split at hpart
      · exact isTyped_taggedBlocks _ block hpart
      · cases hpart
    · cases hpart
  · cases hmem

theorem isClaudeMessage_openaiRespToClaude {env : Env} {resp : OpenAIResponse} {body : Json}
    (h : openaiRespToClaude env resp = .ok body) : IsClaudeMessage body := by
  unfold openaiRespToClaude at h
  split at h
  · cases h
  · cases h
    refine ⟨⟨_, rfl⟩, rfl, rfl, ⟨_, rfl, ?_⟩, ⟨_, rfl⟩, ⟨_, rfl⟩, ⟨_, rfl, ?_⟩⟩
    · rw [List.forall_mem_append]
      refine ⟨isTyped_messageContentBlocks _, fun block hmem => ?_⟩
      obtain ⟨call, -, rfl⟩ := List.mem_map.1 hmem
      exact ⟨"tool_use", rfl⟩
    · simp [Json.get, List.lookup_cons]

variable {env : Env} {options : ResponsesToClaudeOptions} {model : String} {body : Json}

/-- `cc_openai2` sends no model. -/
theorem not_isClaudeMessage_openaiResponsesRespToClaude :
    ¬ IsClaudeMessage (openaiResponsesRespToClaudeWithOptions env options body) := by
  intro h
  obtain ⟨text, hmodel⟩ := h.model
  cases hmodel

/-- `cx_chat_claude` sends no time of creation. -/
theorem not_isChatCompletion_claudeRespToOpenai (resp : ClaudeResponse) :
    ¬ IsChatCompletion (claudeRespToOpenai env resp model) := by
  intro h
  obtain ⟨n, hcreated⟩ := h.created
  cases hcreated

/-- `cx_resp_claude` sends neither a time of creation nor a model. -/
theorem not_isResponsesObject_claudeRespToOpenaiResponses (resp : ClaudeResponse) :
    ¬ IsResponsesObject (claudeRespToOpenaiResponses env resp) := by
  intro h
  obtain ⟨n, hcreated⟩ := h.createdAt
  cases hcreated

/-- What a body has under a key is a text. -/
def TextIfAny (body : Json) (key : String) : Prop :=
  ∀ value, body.get key = some value → ∃ text, value = .str text

theorem asStr_getD_iff {key default : String} :
    (∃ text, ((body.get key).getD (.str default)).asStr = some text) ↔ TextIfAny body key := by
  unfold TextIfAny
  cases body.get key with
  | none => exact iff_of_true ⟨default, rfl⟩ fun _ h => absurd h (by simp)
  | some value =>
    rw [Option.getD_some]
    constructor
    · rintro ⟨text, htext⟩ other hother
      obtain rfl := Option.some.inj hother
      cases value with
      | str s => exact ⟨s, rfl⟩
      | _ => cases htext
    · intro h
      obtain ⟨text, rfl⟩ := h value rfl
      exact ⟨text, rfl⟩

theorem isChatCompletion_openaiResponsesToChat_iff :
    IsChatCompletion (openaiResponsesToChat body) ↔
      TextIfAny body "id" ∧ TextIfAny body "model" := by
  rw [← @asStr_getD_iff body "id" "chatcmpl-id", ← @asStr_getD_iff body "model" "gpt-4"]
  constructor
  · exact fun h => ⟨h.id, h.model⟩
  · rintro ⟨hid, hmodel⟩
    refine ⟨hid, rfl, ⟨_, rfl⟩, hmodel, ⟨_, rfl, List.cons_ne_nil _ _, ?_⟩,
      ⟨_, rfl, by simp [chatUsage, Json.get, List.lookup_cons]⟩⟩
    rw [List.forall_mem_singleton]
    refine ⟨⟨_, rfl⟩, ⟨_, rfl, ?_⟩, ⟨_, rfl⟩⟩
    unfold answerMessage
    split_ifs <;> rfl

theorem isTyped_completionItems {choice : Json} :
    ∀ item ∈ completionItems body choice, IsTyped item := by
  intro item hitem
  unfold completionItems at hitem
  split at hitem
  · rcases List.mem_append.1 hitem with hitem | hitem
    · unfold completionTextItems at hitem
      split at hitem
      · split_ifs at hitem
        · cases hitem
        · obtain rfl := List.mem_singleton.1 hitem
          exact ⟨"message", rfl⟩
      · cases hitem
    · obtain ⟨call, -, rfl⟩ := List.mem_map.1 hitem
      exact ⟨"function_call", rfl⟩
  · cases hitem

theorem isResponsesObject_openaiChatRespToResponses_iff :
    IsResponsesObject (openaiChatRespToResponses body) ↔
      TextIfAny body "id" ∧ TextIfAny body "model" := by
  rw [← @asStr_getD_iff body "id" "resp-id", ← @asStr_getD_iff body "model" "gpt-4"]
  constructor
  · exact fun h => ⟨h.id, h.model⟩
  · rintro ⟨hid, hmodel⟩
    refine ⟨hid, rfl, ⟨_, rfl⟩, ⟨_, rfl⟩, hmodel, ⟨_, rfl, fun item hmem => ?_⟩,
      ⟨_, rfl, by simp [Json.get, List.lookup_cons]⟩⟩
    obtain ⟨choice, -, hitem⟩ := List.mem_flatMap.1 hmem
    exact isTyped_completionItems item hitem

/-! ### Which bodies are answered in the shape of the entry -/

/-- A body that the converter of a route reads, and of which it sends every field of the shape:
`cc_openai` needs the fields of `OpenAIResponse` and a choice, two routes pass the id and the model
on, and three never send all fields. -/
def TransformerName.SendsShape (name : TransformerName) (body : Json) : Prop :=
  match name with
  | ccOpenai => ∃ resp, Decode.openAIResponse body = some resp ∧ resp.choices ≠ []
  | cxChatOpenai2 | cxRespOpenai => TextIfAny body "id" ∧ TextIfAny body "model"
  | ccOpenai2 | cxChatClaude | cxRespClaude => False

/-- A body answered with success has the shape of the entry, and one that is not converted is
answered with an error. -/
structure AnsweredInShape (env : Env) (options : ResponsesToClaudeOptions) (model : String)
    (name : TransformerName) (body : Json) : Prop where
  shape : (answerUpstream env options model name body).status = 200 →
    name.entry.HasShape (answerUpstream env options model name body).body
  refused : name.transformResponse env options model body = none →
    400 ≤ (answerUpstream env options model name body).status

theorem openaiRespToClaude_isOk_iff {resp : OpenAIResponse} :
    (∃ answer, openaiRespToClaude env resp = .ok answer) ↔ resp.choices ≠ [] := by
  unfold openaiRespToClaude
  cases resp.choices <;> simp

/-- **What a converter gives has the shape of the entry exactly when it sends every field.** -/
theorem transformResponse_shape_iff (name : TransformerName) :
    (∃ answer, name.transformResponse env options model body = some answer ∧
      name.entry.HasShape answer) ↔ name.SendsShape body := by
  cases name with
  | ccOpenai =>
    constructor
    · rintro ⟨answer, hanswer, -⟩
      obtain ⟨resp, hread, hsome⟩ := Option.bind_eq_some_iff.1 hanswer
      refine ⟨resp, hread, (@openaiRespToClaude_isOk_iff env resp).1 ?_⟩
      cases hconverted : openaiRespToClaude env resp with
      | error message =>
        rw [hconverted] at hsome
        cases hsome
      | ok converted => exact ⟨converted, rfl⟩
    · rintro ⟨resp, hread, hchoices⟩
      obtain ⟨answer, hanswer⟩ := (@openaiRespToClaude_isOk_iff env resp).2 hchoices
      exact ⟨answer, Option.bind_eq_some_iff.2 ⟨resp, hread, by rw [hanswer]; rfl⟩,
        isClaudeMessage_openaiRespToClaude hanswer⟩
  | ccOpenai2 =>
    refine iff_of_false ?_ id
    rintro ⟨answer, hanswer, hshape⟩
    cases hanswer
    exact not_isClaudeMessage_openaiResponsesRespToClaude hshape
  | cxChatClaude =>
    refine iff_of_false ?_ id
    rintro ⟨answer, hanswer, hshape⟩
    obtain ⟨resp, -, rfl⟩ := Option.map_eq_some_iff.1 hanswer
    exact not_isChatCompletion_claudeRespToOpenai resp hshape
  | cxRespClaude =>
    refine iff_of_false ?_ id
    rintro ⟨answer, hanswer, hshape⟩
    obtain ⟨resp, -, rfl⟩ := Option.map_eq_some_iff.1 hanswer
    exact not_isResponsesObject_claudeRespToOpenaiResponses resp hshape
  | cxChatOpenai2 =>
    refine Iff.trans ?_ isChatCompletion_openaiResponsesToChat_iff
    constructor
    · rintro ⟨_, hanswer, hshape⟩
      exact Option.some.inj hanswer ▸ hshape
    · exact fun hshape => ⟨_, rfl, hshape⟩
  | cxRespOpenai =>
    refine Iff.trans ?_ isResponsesObject_openaiChatRespToResponses_iff
    constructor
    · rintro ⟨_, hanswer, hshape⟩
      exact Option.some.inj hanswer ▸ hshape
    · exact fun hshape => ⟨_, rfl, hshape⟩

/-- **A body is answered in the shape of the entry exactly when the converter reads it and sends
every field of the shape.** -/
theorem answeredInShape_iff (env : Env) (options : ResponsesToClaudeOptions) (model : String)
    (name : TransformerName) (body : Json) :
    AnsweredInShape env options model name body ↔ name.SendsShape body := by
  rw [← @transformResponse_shape_iff env options model]
  have hbody : ∀ {answer}, name.transformResponse env options model body = some answer →
      (answerUpstream env options model name body).body = answer := by
    intro answer hanswer
    rw [answerUpstream, TransformerName.mapResponseBody, hanswer, Option.getD_some]
  constructor
  · intro h
    cases hanswer : name.transformResponse env options model body with
    | none => exact absurd (h.refused hanswer) (show ¬ 400 ≤ 200 by decide)
    | some answer => exact ⟨answer, rfl, hbody hanswer ▸ h.shape rfl⟩
  · rintro ⟨answer, hanswer, hshape⟩
    refine ⟨fun _ => (hbody hanswer).symm ▸ hshape, fun hnone => ?_⟩
    rw [hanswer] at hnone
    cases hnone

def completionWithoutUsage : Json :=
  .obj [("id", .str "chatcmpl-1"), ("object", .str "chat.completion"), ("created", .int 1),
    ("model", .str "gpt-4.1"), ("choices", .arr [.obj [("index", .int 0),
      ("message", .obj [("role", .str "assistant"), ("content", .str "hello")]),
      ("finish_reason", .str "stop")]])]

/-- A chat completion without a usage reaches the Claude client as it came. -/
theorem not_answeredInShape_withoutUsage :
    answerUpstream (Env.ofValues []) ⟨false, []⟩ "gpt-4.1" .ccOpenai completionWithoutUsage =
        ⟨200, completionWithoutUsage⟩ ∧
      ¬ AnsweredInShape (Env.ofValues []) ⟨false, []⟩ "gpt-4.1" .ccOpenai
        completionWithoutUsage := by
  refine ⟨rfl, fun h => ?_⟩
  have hkind : completionWithoutUsage.getStr "type" = some "message" := (h.shape rfl).kind
  cases hkind

end AiOpenRouter
