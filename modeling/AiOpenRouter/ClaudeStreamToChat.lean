/-
Claude → chat, streamed and at once.

* `claudeRespToOpenai` is the converter of a whole message
  (`claude_resp_to_openai`);
* `claudeStreamToOpenai_carried` says what the stream converter does with each
  event of a message stream, as a pure function `chatStep` of the event;
* `claudeToChat_agree_iff`: the folded chunks and the converted message have the
  same text, tool calls and finish reason exactly when the message uses no tool
  and its text blocks start empty.
-/
import AiOpenRouter.ClaudeStream
import AiOpenRouter.ChatAssembly
import AiOpenRouter.Requests
import AiOpenRouter.Sequences

namespace AiOpenRouter

open Trace

/-! ### The converter of a whole message -/

def respText (block : Json) : String :=
  if block.getStr "type" = some "text" then (block.getStr "text").getD "" else ""

def respToolCall (env : Env) (block : Json) : Option Json :=
  if block.getStr "type" = some "tool_use" then
    some (.obj [("id", .str ((block.getStr "id").getD "")), ("type", .str "function"),
      ("function", .obj [("name", .str ((block.getStr "name").getD "")),
        ("arguments", .str (env.toStr ((block.get "input").getD (.obj []))))])])
  else none

def respFinishReason (stopReason : String) : String :=
  match stopReason with
  | "tool_use" => "tool_calls"
  | "max_tokens" => "length"
  | _ => "stop"

/-- `claude_resp_to_openai`, between its `serde` calls. -/
def claudeRespToOpenai (env : Env) (resp : ClaudeResponse) (model : String) : Json :=
  let textContent := "".intercalate (resp.content.map respText)
  let toolCalls := resp.content.filterMap (respToolCall env)
  let message : List (String × Json) :=
    [("role", .str "assistant"), ("content", .str textContent)]
  let message := Json.insertSome message "tool_calls"
    (if toolCalls = [] then none else some (.arr toolCalls))
  .obj [("id", .str resp.id), ("object", .str "chat.completion"), ("model", .str model),
    ("choices", .arr [.obj [("index", .int 0), ("message", .obj message),
      ("finish_reason", .str (respFinishReason resp.stopReason))]]),
    ("usage", .obj [("prompt_tokens", .int resp.usage.inputTokens),
      ("completion_tokens", .int resp.usage.outputTokens),
      ("total_tokens", .int (wrapI32 (resp.usage.inputTokens + resp.usage.outputTokens)))])]

/-! ### The stream converter on a message stream -/

def chatStep (e : ClaudeStreamEvent) (ctx : StreamContext) : List ChatEvent × StreamContext :=
  match e with
  | .messageStart id _ => ([], { ctx with messageId := id })
  | .textDelta _ text => ([claudeChatChunk ctx (.obj [("content", .str text)]) none], ctx)
  | .messageDelta stopReason _ =>
    ([claudeChatChunk ctx (.obj []) (some (chatFinishReason stopReason))], ctx)
  | .messageStop => ([.doneMarker], ctx)
  | _ => ([], ctx)

theorem convertClaudeToChat_read {e : ClaudeStreamEvent} {data : Json} (h : e.Says data)
    (ctx : StreamContext) :
    (convertClaudeToChat e.eventType data (Emit.start ctx)).finish = chatStep e ctx := by
  cases e with
  | messageStart id inputTokens =>
    obtain ⟨msg, usage, hmsg, hid, -, -⟩ := h
    simp [convertClaudeToChat, ClaudeStreamEvent.eventType, onClaudeMessageStart, hmsg, hid,
      chatStep, Emit.finish]
  | textStart index text => rfl
  | thinkingStart index thinking => rfl
  | toolUseStart index id name input => rfl
  | textDelta index text =>
    obtain ⟨-, delta, hdelta, htype, htext⟩ := h
    simp [convertClaudeToChat, ClaudeStreamEvent.eventType, onClaudeDelta, hdelta, htype, htext,
      chatStep, Emit.finish]
  | thinkingDelta index thinking =>
    obtain ⟨-, delta, hdelta, htype, -⟩ := h
    simp [convertClaudeToChat, ClaudeStreamEvent.eventType, onClaudeDelta, hdelta, htype,
      chatStep, Emit.finish]
  | inputJsonDelta index partialJson =>
    obtain ⟨-, delta, hdelta, htype, -⟩ := h
    simp [convertClaudeToChat, ClaudeStreamEvent.eventType, onClaudeDelta, hdelta, htype,
      chatStep, Emit.finish]
  | blockStop index => rfl
  | messageDelta stopReason outputTokens =>
    obtain ⟨delta, usage, hdelta, hreason, -, -⟩ := h
    simp [convertClaudeToChat, ClaudeStreamEvent.eventType, onClaudeMessageDelta, hdelta, hreason,
      chatStep, Emit.finish]
  | messageStop => rfl
  | other eventType =>
    have hother : eventType ∉ ClaudeStreamEvent.knownTypes := h
    simp only [ClaudeStreamEvent.knownTypes, List.mem_cons, not_or] at hother
    unfold convertClaudeToChat
    simp only [ClaudeStreamEvent.eventType]
    split <;> simp_all [chatStep, Emit.finish]

theorem claudeStreamToOpenai_carried (env : Env) (block : Bytes) (e : ClaudeStreamEvent)
    (h : e.CarriedBy env block) (ctx : StreamContext) :
    claudeStreamToOpenai env block ctx = .ok (chatStep e ctx) := by
  obtain ⟨data, hread, -, hsays⟩ := h
  rw [claudeStreamToOpenai, hread]
  exact congrArg Except.ok (convertClaudeToChat_read hsays ctx)

theorem feed_claudeStreamToChat {env : Env} {ctx : StreamContext} {m : StreamedMessage}
    {blocks : List Bytes} (h : m.StreamedAs env blocks) :
    (feed (claudeStreamToOpenai env) ctx blocks).out = (runOn chatStep ctx m.events).1 := by
  obtain ⟨es, hcarried, hfilter⟩ := h
  have hsilent : ∀ e : ClaudeStreamEvent, e.isKnown = false →
      ∀ ctx, chatStep e ctx = ([], ctx) := by
    intro e he ctx
    cases e with
    | other eventType => rfl
    | _ => cases he
  rw [feed_eq_runOn (claudeStreamToOpenai_carried env) hcarried, runOn_filter hsilent, hfilter]

/-! ### What the chunks fold to -/

theorem foldChatEvent_content (msg : FoldedMessage) (ctx : StreamContext) (text : String) :
    foldChatEvent msg (claudeChatChunk ctx (.obj [("content", .str text)]) none) =
      { msg with text := msg.text ++ text } := by
  simp [foldChatEvent, claudeChatChunk, foldChunk, Json.getStr, Json.get, Json.asStr,
    List.lookup_cons]

theorem foldChatEvent_finish (msg : FoldedMessage) (ctx : StreamContext) (reason : String) :
    foldChatEvent msg (claudeChatChunk ctx (.obj []) (some reason)) =
      { msg with finishReason := some reason } := by
  simp [foldChatEvent, claudeChatChunk, foldChunk, Json.getStr, Json.get]

theorem runOn_chatStep_silent {es : List ClaudeStreamEvent}
    (h : ∀ e ∈ es, ∀ ctx, chatStep e ctx = ([], ctx)) (ctx : StreamContext) :
    runOn chatStep ctx es = ([], ctx) := by
  induction es with
  | nil => rfl
  | cons e es ih =>
    rw [runOn_cons, h e List.mem_cons_self, ih fun e he => h e (List.mem_cons_of_mem _ he)]
    rfl

variable (index : ℕ)

theorem runOn_chatStep_deltas (deltas : List String) (ctx : StreamContext) (msg : FoldedMessage) :
    (runOn chatStep ctx (deltas.map (.textDelta index))).2 = ctx ∧
      (runOn chatStep ctx (deltas.map (.textDelta index))).1.foldl foldChatEvent msg =
        { msg with text := msg.text ++ "".intercalate deltas } := by
  induction deltas generalizing msg with
  | nil => exact ⟨rfl, by simp⟩
  | cons text deltas ih =>
    obtain ⟨hctx, hfold⟩ := ih { msg with text := msg.text ++ text }
    refine ⟨hctx, ?_⟩
    rw [List.map_cons, runOn_cons]
    show List.foldl foldChatEvent msg ([_] ++ _) = _
    rw [List.foldl_append, List.foldl_cons, List.foldl_nil, foldChatEvent_content]
    rw [intercalate_empty_cons, ← String.append_assoc]
    exact hfold

theorem runOn_chatStep_block (block : StreamedBlock) (ctx : StreamContext) (msg : FoldedMessage) :
    (runOn chatStep ctx (block.events index)).2 = ctx ∧
      (runOn chatStep ctx (block.events index)).1.foldl foldChatEvent msg =
        { msg with text := msg.text ++ block.deltaText } := by
  cases block with
  | text initial deltas =>
    obtain ⟨hctx, hfold⟩ := runOn_chatStep_deltas index deltas ctx msg
    rw [StreamedBlock.events, runOn_cons, runOn_append]
    refine ⟨hctx, ?_⟩
    show List.foldl foldChatEvent msg ([] ++ (_ ++ [])) = _
    rw [List.nil_append, List.append_nil]
    exact hfold
  | thinking initial deltas =>
    have hsilent : ∀ e ∈ (StreamedBlock.thinking initial deltas).events index,
        ∀ ctx, chatStep e ctx = ([], ctx) := by
      intro e he ctx
      simp only [StreamedBlock.events, List.mem_cons, List.mem_append, List.mem_map,
        List.not_mem_nil, or_false] at he
      obtain rfl | ⟨_, _, rfl⟩ | rfl := he <;> rfl
    rw [runOn_chatStep_silent hsilent]
    simp [StreamedBlock.deltaText]
  | toolUse id name initial fragments =>
    have hsilent : ∀ e ∈ (StreamedBlock.toolUse id name initial fragments).events index,
        ∀ ctx, chatStep e ctx = ([], ctx) := by
      intro e he ctx
      simp only [StreamedBlock.events, List.mem_cons, List.mem_append, List.mem_map,
        List.not_mem_nil, or_false] at he
      obtain rfl | ⟨_, _, rfl⟩ | rfl := he <;> rfl
    rw [runOn_chatStep_silent hsilent]
    simp [StreamedBlock.deltaText]

theorem runOn_chatStep_blocks (blocks : List StreamedBlock) (ctx : StreamContext)
    (msg : FoldedMessage) :
    (runOn chatStep ctx (blockEvents index blocks)).2 = ctx ∧
      (runOn chatStep ctx (blockEvents index blocks)).1.foldl foldChatEvent msg =
        { msg with text := msg.text ++ "".intercalate (blocks.map StreamedBlock.deltaText) } := by
  induction blocks generalizing index msg with
  | nil => exact ⟨rfl, by simp [blockEvents]⟩
  | cons block blocks ih =>
    obtain ⟨hctx, hfold⟩ := runOn_chatStep_block index block ctx msg
    obtain ⟨hctx', hfold'⟩ := ih (index + 1) { msg with text := msg.text ++ block.deltaText }
    rw [blockEvents, runOn_append, hctx]
    refine ⟨hctx', ?_⟩
    rw [List.foldl_append, hfold, hfold', List.map_cons, intercalate_empty_cons,
      String.append_assoc]

/-- **What the chunks of a message stream fold to**: the delta texts, no tool call, and the
finish reason. -/
theorem foldChat_claudeStream (env : Env) (ctx : StreamContext) {m : StreamedMessage}
    {blocks : List Bytes} (h : m.StreamedAs env blocks) :
    foldChat (feed (claudeStreamToOpenai env) ctx blocks).out =
      { text := "".intercalate (m.blocks.map StreamedBlock.deltaText)
        finishReason := some (chatFinishReason m.stopReason) } := by
  rw [feed_claudeStreamToChat h, StreamedMessage.events, runOn_cons]
  obtain ⟨hctx, hfold⟩ := runOn_chatStep_blocks 0 m.blocks { ctx with messageId := m.id } {}
  rw [runOn_append]
  show foldChat ([] ++ (_ ++ [_, _])) = _
  rw [List.nil_append, foldChat, List.foldl_append]
  show List.foldl foldChatEvent
    (List.foldl foldChatEvent {} (runOn chatStep { ctx with messageId := m.id }
      (blockEvents 0 m.blocks)).1) _ = _
  rw [hfold, List.foldl_cons, foldChatEvent_finish]
  simp [foldChatEvent]

/-! ### The assembled message -/

theorem StreamedBlock.AssemblesTo.respText {env : Env} {block : StreamedBlock} {content : Json}
    (h : block.AssemblesTo env content) : respText content = block.wholeText := by
  cases block with
  | text initial deltas => simp [AiOpenRouter.respText, h.1, h.2, wholeText]
  | thinking initial deltas => simp [AiOpenRouter.respText, h.1, wholeText]
  | toolUse id name initial fragments => simp [AiOpenRouter.respText, h.1, wholeText]

theorem StreamedBlock.AssemblesTo.respToolCall {env : Env} {block : StreamedBlock} {content : Json}
    (h : block.AssemblesTo env content) :
    (respToolCall env content).isSome = block.isToolUse := by
  cases block with
  | text initial deltas => simp [AiOpenRouter.respToolCall, h.1, isToolUse]
  | thinking initial deltas => simp [AiOpenRouter.respToolCall, h.1, isToolUse]
  | toolUse id name initial fragments => simp [AiOpenRouter.respToolCall, h.1, isToolUse]

theorem map_respText {env : Env} {blocks : List StreamedBlock} {content : List Json}
    (h : List.Forall₂ (fun block content => block.AssemblesTo env content) blocks content) :
    content.map respText = blocks.map StreamedBlock.wholeText := by
  induction h with
  | nil => rfl
  | cons hblock _ ih => rw [List.map_cons, List.map_cons, hblock.respText, ih]

theorem filterMap_respToolCall_eq_nil_iff {env : Env} {blocks : List StreamedBlock}
    {content : List Json}
    (h : List.Forall₂ (fun block content => block.AssemblesTo env content) blocks content) :
    content.filterMap (respToolCall env) = [] ↔ ∀ block ∈ blocks, block.isToolUse = false := by
  induction h with
  | nil => simp
  | cons hblock _ ih =>
    rw [filterMap_cons_eq_append, List.append_eq_nil_iff, ih, List.forall_mem_cons,
      ← hblock.respToolCall]
    simp

theorem completionOutcome_claudeRespToOpenai (env : Env) (resp : ClaudeResponse) (model : String) :
    (completionOutcome env (claudeRespToOpenai env resp model)).text =
        "".intercalate (resp.content.map respText) ∧
      ((completionOutcome env (claudeRespToOpenai env resp model)).calls = [] ↔
        resp.content.filterMap (respToolCall env) = []) ∧
      (completionOutcome env (claudeRespToOpenai env resp model)).finishReason =
        some (respFinishReason resp.stopReason) := by
  have hchoice : firstChoice (claudeRespToOpenai env resp model) = .obj [("index", .int 0),
      ("message", .obj (Json.insertSome [("role", .str "assistant"),
        ("content", .str ("".intercalate (resp.content.map respText)))] "tool_calls"
        (if resp.content.filterMap (respToolCall env) = [] then none
          else some (.arr (resp.content.filterMap (respToolCall env)))))),
      ("finish_reason", .str (respFinishReason resp.stopReason))] := rfl
  unfold completionOutcome
  rw [hchoice]
  refine ⟨?_, ?_, ?_⟩
  · simp [Json.get, Json.getStr, Json.asStr, List.lookup_cons]
  · by_cases hcalls : resp.content.filterMap (respToolCall env) = []
    · simp [hcalls, Json.get, List.lookup_cons]
    · simp [hcalls, Json.get, Json.asArray, List.lookup_cons]
  · simp [Json.get, Json.getStr, Json.asStr, List.lookup_cons]

theorem respFinishReason_eq (stopReason : String) :
    respFinishReason stopReason = chatFinishReason stopReason := by
  unfold respFinishReason chatFinishReason
  split
  · rfl
  · rfl
  · rename_i htool hmax
    split
    · rfl
    · contradiction
    · contradiction
    · rfl

/-- **Streaming and not streaming agree exactly when the message uses no tool** and its text
blocks start empty. -/
theorem claudeToChat_agree_iff (env : Env) (ctx : StreamContext) (model : String)
    (m : StreamedMessage) (blocks : List Bytes) (resp : ClaudeResponse)
    (hstream : m.StreamedAs env blocks) (hresp : m.Assembles env resp) :
    (foldChat (feed (claudeStreamToOpenai env) ctx blocks).out).outcome env =
        completionOutcome env (claudeRespToOpenai env resp model) ↔
      ∀ block ∈ m.blocks, block.isToolUse = false ∧ block.StartsEmpty := by
  obtain ⟨htext, hcalls, hfinish⟩ := completionOutcome_claudeRespToOpenai env resp model
  rw [map_respText hresp.content] at htext
  rw [filterMap_respToolCall_eq_nil_iff hresp.content] at hcalls
  rw [hresp.stopReason, respFinishReason_eq] at hfinish
  rw [foldChat_claudeStream env ctx hstream]
  constructor
  · intro h
    have hnone : (completionOutcome env (claudeRespToOpenai env resp model)).calls = [] := by
      rw [← h]
      rfl
    have htexts := congrArg ChatOutcome.text h
    rw [htext] at htexts
    intro block hmem
    exact ⟨hcalls.1 hnone block hmem, wholeText_eq_iff.1 htexts.symm block hmem⟩
  · intro h
    have hnone := hcalls.2 fun block hmem => (h block hmem).1
    rw [wholeText_eq_iff.2 fun block hmem => (h block hmem).2] at htext
    generalize completionOutcome env (claudeRespToOpenai env resp model) = outcome at *
    cases outcome
    simp only at htext hnone hfinish
    rw [htext, hnone, hfinish]
    rfl

def helloMessage : StreamedMessage where
  id := "msg_1"
  inputTokens := 3
  blocks := [.text "" ["Hel", "lo"]]
  stopReason := "end_turn"
  outputTokens := 2

theorem claudeToChat_agree_hello :
    (foldChat (feed (claudeStreamToOpenai (Env.ofValues helloMessage.values)) (.forModel "claude")
        (helloMessage.events.map ClaudeStreamEvent.render)).out).outcome
        (Env.ofValues helloMessage.values) =
      completionOutcome (Env.ofValues helloMessage.values)
        (claudeRespToOpenai (Env.ofValues helloMessage.values)
          (helloMessage.whole [.obj [("type", .str "text"), ("text", .str "Hello")]] (by decide))
          "claude") :=
  (claudeToChat_agree_iff _ _ _ helloMessage _ _ (streamedAs_values (by decide +kernel))
    (StreamedMessage.assembles_whole _ (.cons ⟨rfl, rfl⟩ .nil))).2 (by
      intro block hmem
      obtain rfl := List.mem_singleton.1 hmem
      exact ⟨rfl, rfl⟩)

/-- A streamed tool use gives no tool call. -/
theorem not_claudeToChat_agree_toolUse :
    toolMessage.StreamedAs (Env.ofValues toolMessage.values)
        (toolMessage.events.map ClaudeStreamEvent.render) ∧
      toolMessage.Assembles (Env.ofValues toolMessage.values)
        (toolMessage.whole [.obj [("type", .str "tool_use"), ("id", .str "toolu_1"),
          ("name", .str "Bash"), ("input", .obj [])]] (by decide)) ∧
      (foldChat (feed (claudeStreamToOpenai (Env.ofValues toolMessage.values)) (.forModel "claude")
          (toolMessage.events.map ClaudeStreamEvent.render)).out).outcome
          (Env.ofValues toolMessage.values) ≠
        completionOutcome (Env.ofValues toolMessage.values)
          (claudeRespToOpenai (Env.ofValues toolMessage.values)
            (toolMessage.whole [.obj [("type", .str "tool_use"), ("id", .str "toolu_1"),
              ("name", .str "Bash"), ("input", .obj [])]] (by decide)) "claude") := by
  have hstream : toolMessage.StreamedAs (Env.ofValues toolMessage.values)
      (toolMessage.events.map ClaudeStreamEvent.render) := streamedAs_values (by decide +kernel)
  refine ⟨hstream, StreamedMessage.assembles_whole _ (.cons ⟨rfl, rfl, rfl, _, rfl, rfl⟩ .nil), ?_⟩
  rw [foldChat_claudeStream _ _ hstream]
  intro h
  have hcalls := congrArg (fun outcome => outcome.calls.length) h
  exact absurd hcalls (by decide)

end AiOpenRouter
