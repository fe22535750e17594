/-
The identity of tool calls over a full turn: Responses → chat → Responses.

A chat client takes the assistant message of a converted response, answers each
of its calls with a tool message, and sends all of it back.

* `nextMessages` are the messages that the client sends;
* `sentItems` are the tool items of the request that goes out, with their call
  ids;
* `callIdsKept_iff`: the items carry the call ids of the response exactly when
  every call has the same text as its id and its call id; streamed, the output
  indices of the calls must differ too.
-/
import AiOpenRouter.ChatRequestToResponses
import AiOpenRouter.ResponsesStreamToChat

namespace AiOpenRouter

open Trace
open StreamedResponse (itemCalls)

/-! ### The next turn -/

def assistantCalls (assistant : Json) : List Json :=
  ((assistant.get "tool_calls").bind Json.asArray).getD []

def toolCallId (call : Json) : String := (call.getStr "id").getD ""

def toolAnswer (content : Json → Json) (call : Json) : Json :=
  .obj [("role", .str "tool"), ("tool_call_id", .str (toolCallId call)), ("content", content call)]

def nextMessages (history : List Json) (assistant : Json) (content : Json → Json) : List Json :=
  history ++ assistant :: (assistantCalls assistant).map (toolAnswer content)

def chatRequestWith (fields : List (String × Json)) (messages : List Json) : Json :=
  .obj (Json.insertField fields "messages" (.arr messages))

/-- The assistant message that a client keeps of a folded stream. -/
def FoldedMessage.assistant (msg : FoldedMessage) : Json :=
  answerMessage msg.text (msg.toolCalls.map fun call =>
    .obj [("id", .str call.id), ("type", .str "function"),
      ("function", .obj [("name", .str call.name), ("arguments", .str call.arguments)])])

/-! ### The tool items of a request -/

def toolItem (item : Json) : Option (String × String) :=
  let itemType := (item.getStr "type").getD ""
  if itemType = "function_call" ∨ itemType = "function_call_output" then
    some (itemType, (item.getStr "call_id").getD "")
  else none

def sentItems (req : Json) : List (String × String) :=
  (((req.get "input").bind Json.asArray).getD []).filterMap toolItem

/-- The call ids of the function calls of a response. -/
def outputCallIds (resp : Json) : List String :=
  (((resp.get "output").bind Json.asArray).getD []).filterMap fun item =>
    if item.getStr "type" = some "function_call" then some ((item.getStr "call_id").getD "")
      else none

def StreamedItem.callId : StreamedItem → Option String
  | functionCall _ callId _ _ => some callId
  | _ => none

def StreamedResponse.callIds (r : StreamedResponse) : List String :=
  r.items.filterMap fun item => item.2.callId

/-- The next request carries a call and an output for each call id, in order, behind what the
messages before gave. -/
def CallIdsKept (env : Env) (fields : List (String × Json)) (model : String) (history : List Json)
    (assistant : Json) (content : Json → Json) (callIds : List String) : Prop :=
  sentItems (openaiChatToResponses env
      (chatRequestWith fields (nextMessages history assistant content)) model) =
    sentItems (openaiChatToResponses env (chatRequestWith fields history) model) ++
      (callIds.map (Prod.mk "function_call") ++ callIds.map (Prod.mk "function_call_output"))

/-! ### The ids that come back -/

variable (env : Env) (fields : List (String × Json)) (model : String)

theorem sentItems_openaiChatToResponses (messages : List Json) (model : String) :
    sentItems (openaiChatToResponses env (chatRequestWith fields messages) model) =
      (messages.flatMap (messageItems env)).filterMap toolItem := by
  have hmessages : chatMessages (chatRequestWith fields messages) = messages := by
    simp [chatMessages, chatRequestWith, Json.get, Json.asArray]
  rw [sentItems, openaiChatToResponses, hmessages, foldl_readChatMessage]
  simp [Json.get, Json.asArray, List.lookup_cons]

theorem sentItems_answerMessage (text : String) (toolCalls : List Json) :
    (messageItems env (answerMessage text toolCalls)).filterMap toolItem =
      (toolCalls.map toolCallId).map (Prod.mk "function_call") := by
  by_cases hcalls : toolCalls = []
  · rw [hcalls]
    rfl
  · have hitems : messageItems env (answerMessage text toolCalls) =
        toolCalls.map functionCallItem := by
      rw [answerMessage, if_neg hcalls]
      rfl
    rw [hitems, List.filterMap_map, List.map_map]
    exact congrFun List.filterMap_eq_map toolCalls

theorem sentItems_toolAnswer (content : Json → Json) (toolCalls : List Json) :
    ((toolCalls.map (toolAnswer content)).flatMap (messageItems env)).filterMap toolItem =
      (toolCalls.map toolCallId).map (Prod.mk "function_call_output") := by
  have hitem : ∀ call, messageItems env (toolAnswer content call) =
      [functionCallOutputItem env (toolAnswer content call)] := fun call => rfl
  induction toolCalls with
  | nil => rfl
  | cons call toolCalls ih =>
    rw [List.map_cons, List.flatMap_cons, List.filterMap_append, ih, hitem]
    rfl

theorem callIdsKept_answerMessage_iff (history : List Json) (text : String) (toolCalls : List Json)
    (content : Json → Json) (callIds : List String) :
    CallIdsKept env fields model history (answerMessage text toolCalls) content callIds ↔
      toolCalls.map toolCallId = callIds := by
  rw [CallIdsKept, sentItems_openaiChatToResponses, sentItems_openaiChatToResponses, nextMessages,
    assistantCalls, answerMessage_toolCalls, List.flatMap_append, List.filterMap_append,
    List.append_cancel_left_eq, List.flatMap_cons, List.filterMap_append, sentItems_answerMessage,
    sentItems_toolAnswer]
  constructor
  · intro h
    have hlength := congrArg List.length h
    simp only [List.length_append, List.length_map] at hlength
    have hcalls := (List.append_inj h (by simp only [List.length_map]; omega)).1
    exact List.map_injective_iff.2 (Prod.mk_right_injective _) hcalls
  · rintro rfl
    rfl

/-! ### Converted at once -/

/-- A function call whose id and call id are the same text. -/
def HasOneId (item : Json) : Prop :=
  item.getStr "type" = some "function_call" →
    (item.getStr "id").getD "" = (item.getStr "call_id").getD ""

theorem callIdsKept_converted_iff (history : List Json) (content : Json → Json) (resp : Json) :
    CallIdsKept env fields model history (completionMessage (openaiResponsesToChat resp)) content
        (outputCallIds resp) ↔
      ∀ item ∈ ((resp.get "output").bind Json.asArray).getD [], HasOneId item := by
  let output := ((resp.get "output").bind Json.asArray).getD []
  have hmessage : completionMessage (openaiResponsesToChat resp) =
      answerMessage ("".intercalate (output.map chatItemText))
        (output.filterMap chatItemCall) := rfl
  have hid : ∀ item, (chatItemCall item).map toolCallId =
      if item.getStr "type" = some "function_call" then some ((item.getStr "id").getD "")
      else none := by
    intro item
    unfold chatItemCall
    split_ifs <;> rfl
  rw [hmessage, callIdsKept_answerMessage_iff, List.map_filterMap, outputCallIds]
  simp only [hid]
  rw [filterMap_eq_filterMap_iff fun item => by split_ifs <;> rfl]
  refine forall₂_congr fun item _ => ?_
  unfold HasOneId
  by_cases htype : item.getStr "type" = some "function_call" <;> simp [htype]

/-! ### Streamed -/

theorem foldChat_toolCalls {env : Env} {model : String} {r : StreamedResponse}
    {blocks : List Bytes} (h : r.StreamedAs env blocks) :
    (foldChat (feed (openaiResponsesStreamToChat env) (.forModel model) blocks).out).toolCalls =
      joinCalls (itemCalls r.items) [] := by
  have hitems := foldsTo_items r.items
  have hcreated : ∀ ctx, (chatAnswerStep (.created r.id) ctx).1 = [] := fun ctx => rfl
  -- The last event gives a chunk without calls, or none.
  have hfinished : ∀ msg ctx,
      ((chatAnswerStep (.finished r.completes r.object) ctx).1.foldl foldChatEvent msg).toolCalls =
        msg.toolCalls := by
    intro msg ctx
    cases r.completes with
    | true => rfl
    | false => rfl
  rw [feed_responsesStreamToChat h, StreamedResponse.events, runOn_cons, hcreated, runOn_append,
    List.nil_append, foldChat, List.foldl_append, hitems.message, runOn_cons, runOn_nil,
    List.append_nil, hfinished]

/-- A streamed item whose id and call id are the same. -/
def StreamedItem.HasOneId : StreamedItem → Prop
  | functionCall id callId _ _ => id = callId
  | _ => True

/-- **Streamed, the call ids are kept exactly when every call has one id and the output indices
of the calls differ as `i32`.** -/
theorem callIdsKept_folded_iff (model' : String) (history : List Json) (content : Json → Json)
    {r : StreamedResponse} {blocks : List Bytes} (h : r.StreamedAs env blocks) :
    CallIdsKept env fields model history
        (foldChat (feed (openaiResponsesStreamToChat env) (.forModel model') blocks).out).assistant
        content r.callIds ↔
      ((itemCalls r.items).map FoldedCall.index).Nodup ∧
        ∀ item ∈ r.items, item.2.HasOneId := by
  have hsome : ∀ item : ℕ × StreamedItem,
      ((item.2.call item.1).map FoldedCall.id).isSome = item.2.callId.isSome := by
    rintro ⟨index, item⟩
    cases item <;> rfl
  -- the ids are kept when each call has one id only
  have hids : (itemCalls r.items).map FoldedCall.id = r.callIds ↔
      ∀ item ∈ r.items, item.2.HasOneId := by
    rw [itemCalls, List.map_filterMap, StreamedResponse.callIds,
      filterMap_eq_filterMap_iff hsome]
    refine forall₂_congr ?_
    rintro ⟨index, item⟩ -
    cases item with
    | functionCall id callId name fragments => exact Option.some_inj
    | _ => exact ⟨fun _ => trivial, fun _ => rfl⟩
  have hlength : r.callIds.length = (itemCalls r.items).length := by
    rw [itemCalls, StreamedResponse.callIds, List.length_filterMap_eq_countP,
      List.length_filterMap_eq_countP]
    refine List.countP_congr fun item _ => ?_
    rw [← hsome item, Option.isSome_map]
  rw [FoldedMessage.assistant, callIdsKept_answerMessage_iff, foldChat_toolCalls h, List.map_map,
    ← hids]
  show (joinCalls (itemCalls r.items) []).map FoldedCall.id = r.callIds ↔ _
  constructor
  · intro hkept
    -- no two calls were joined into one
    have hjoined : (joinCalls (itemCalls r.items) []).length = (itemCalls r.items).length := by
      rw [← hlength, ← hkept, List.length_map]
    have hnodup : ((itemCalls r.items).map FoldedCall.index).Nodup := by
      have hempty : (([] : List FoldedCall).map FoldedCall.index).Nodup := List.nodup_nil
      have hall : (([] ++ itemCalls r.items).map FoldedCall.index).Nodup :=
        nodup_of_length_joinCalls hempty (by simpa using hjoined)
      rwa [List.nil_append] at hall
    refine ⟨hnodup, ?_⟩
    rwa [joinCalls_of_nodup (by simpa using hnodup), List.nil_append] at hkept
  · rintro ⟨hnodup, hids⟩
    rwa [joinCalls_of_nodup (by simpa using hnodup), List.nil_append]

/-! ### Both ways -/

/-- **The call ids of a response survive a full turn exactly when every call has one id;
streamed, the output indices of the calls must differ too.** -/
theorem callIdsKept_iff (env : Env) (fields : List (String × Json)) (model : String)
    (history : List Json) (content : Json → Json) :
    (∀ resp, CallIdsKept env fields model history (completionMessage (openaiResponsesToChat resp))
        content (outputCallIds resp) ↔
      ∀ item ∈ ((resp.get "output").bind Json.asArray).getD [], HasOneId item) ∧
    ∀ (r : StreamedResponse) (blocks : List Bytes) (model' : String), r.StreamedAs env blocks →
      (CallIdsKept env fields model history
          (foldChat
            (feed (openaiResponsesStreamToChat env) (.forModel model') blocks).out).assistant
          content r.callIds ↔
        ((itemCalls r.items).map FoldedCall.index).Nodup ∧
          ∀ item ∈ r.items, item.2.HasOneId) :=
  ⟨callIdsKept_converted_iff env fields model history content,
    fun _ _ model' h => callIdsKept_folded_iff env fields model model' history content h⟩

/-- A response with two calls, the second of which is sent in two pieces. -/
def twoCallsResponse : StreamedResponse where
  id := "resp_1"
  items := [(0, .functionCall "call_1" "call_1" "Bash" ["[]"]),
    (1, .functionCall "call_2" "call_2" "Read" ["[", "]"])]
  completes := true
  object := .obj [("id", .str "resp_1"), ("status", .str "completed"),
    ("output", .arr [
      .obj [("type", .str "function_call"), ("id", .str "call_1"), ("call_id", .str "call_1"),
        ("name", .str "Bash"), ("arguments", .str "[]")],
      .obj [("type", .str "function_call"), ("id", .str "call_2"), ("call_id", .str "call_2"),
        ("name", .str "Read"), ("arguments", .str "[]")]])]

theorem callIdsKept_twoCalls :
    CallIdsKept (Env.ofValues twoCallsResponse.values) [] "gpt" []
      (foldChat (feed (openaiResponsesStreamToChat (Env.ofValues twoCallsResponse.values))
        (.forModel "gpt") (twoCallsResponse.events.map ResponsesStreamEvent.render)).out).assistant
      (fun _ => .str "done") twoCallsResponse.callIds :=
  ((callIdsKept_iff _ [] "gpt" [] (fun _ => .str "done")).2 twoCallsResponse _ "gpt"
    (StreamedResponse.streamedAs_render (by decide +kernel) (fun _ hmem => List.mem_map_of_mem hmem)
      (by decide +kernel))).2
    ⟨by decide, by simp [twoCallsResponse, StreamedItem.HasOneId]⟩

/-- A response with one call of the given ids. -/
def oneCallResponse (id callId : String) : StreamedResponse where
  id := "resp_1"
  items := [(0, .functionCall id callId "Bash" ["\x7b\x7d"])]
  completes := true
  object := .obj [("id", .str "resp_1"), ("status", .str "completed"),
    ("output", .arr [.obj [("type", .str "function_call"), ("id", .str id),
      ("call_id", .str callId), ("name", .str "Bash"), ("arguments", .str "\x7b\x7d")]])]

/-- With two ids, neither way keeps the call id. -/
theorem not_callIdsKept_twoIds :
    outputCallIds (oneCallResponse "fc_1" "call_1").object = ["call_1"] ∧
    (oneCallResponse "fc_1" "call_1").callIds = ["call_1"] ∧
    (oneCallResponse "fc_1" "call_1").StreamedAs
      (Env.ofValues (oneCallResponse "fc_1" "call_1").values)
      ((oneCallResponse "fc_1" "call_1").events.map ResponsesStreamEvent.render) ∧
    ¬ CallIdsKept (Env.ofValues (oneCallResponse "fc_1" "call_1").values) [] "gpt" []
      (completionMessage (openaiResponsesToChat (oneCallResponse "fc_1" "call_1").object))
      (fun _ => .str "done") (outputCallIds (oneCallResponse "fc_1" "call_1").object) ∧
    ¬ CallIdsKept (Env.ofValues (oneCallResponse "fc_1" "call_1").values) [] "gpt" []
      (foldChat (feed
        (openaiResponsesStreamToChat (Env.ofValues (oneCallResponse "fc_1" "call_1").values))
        (.forModel "gpt")
        ((oneCallResponse "fc_1" "call_1").events.map ResponsesStreamEvent.render)).out).assistant
      (fun _ => .str "done") (oneCallResponse "fc_1" "call_1").callIds := by
  have hstream : (oneCallResponse "fc_1" "call_1").StreamedAs
      (Env.ofValues (oneCallResponse "fc_1" "call_1").values)
      ((oneCallResponse "fc_1" "call_1").events.map ResponsesStreamEvent.render) :=
    StreamedResponse.streamedAs_render (by decide +kernel)
      (fun _ hmem => List.mem_map_of_mem hmem) (by decide +kernel)
  refine ⟨rfl, rfl, hstream, ?_, ?_⟩
  · rw [callIdsKept_converted_iff]
    intro h
    exact absurd (h _ (List.mem_singleton_self _) rfl) (by decide)
  · rw [callIdsKept_folded_iff _ _ _ _ _ _ hstream]
    rintro ⟨-, h⟩
    have hid : "fc_1" = "call_1" := h _ (List.mem_singleton_self _)
    exact absurd hid (by decide)

end AiOpenRouter
