/-
Chat → Claude, streamed and at once.

* `openaiRespToClaude` is the converter of a whole chat completion
  (`openai_resp_to_claude`);
* `CompleteChat.AssemblesTo` relates a complete chat stream to its completion;
* `chatToClaude_agree_iff`: the assembled message and the converted completion
  have the same text, thinking, tool uses, stop reason and usage exactly when the
  stream is a `PlainChat`.
-/
import AiOpenRouter.CompleteChats
import AiOpenRouter.JsonPrinting
import AiOpenRouter.Requests

namespace AiOpenRouter

open Trace

/-! ### The converter of a whole completion -/

/-- `OpenAIChoice`. -/
structure OpenAIChoice where
  index : ℤ
  message : OpenAIMessage
  finishReason : String

/-- `OpenAIResponse`. -/
structure OpenAIResponse where
  id : String
  object : String
  created : ℤ
  model : String
  choices : List OpenAIChoice
  usage : OpenAIUsage

def contentPartBlocks (part : Json) : List Json :=
  let partType := (part.getStr "type").getD ""
  if partType = "text" ∨ partType = "output_text" ∨ partType = "input_text" then
    match part.getStr "text" with
    | some text => taggedBlocks text
    | none => []
  else []

def messageContentBlocks : Option Json → List Json
  | some (.str text) => taggedBlocks text
  | some (.arr parts) => parts.flatMap contentPartBlocks
  | _ => []

/-- The content block of a tool call: arguments that are no JSON give `{}`. -/
def toolCallBlock (env : Env) (toolCall : OpenAIToolCall) : Json :=
  let input :=
    match env.fromStr toolCall.function.arguments with
    | .ok input => input
    | .error _ => .obj []
  .obj [("type", .str "tool_use"), ("id", .str toolCall.id), ("name", .str toolCall.function.name),
    ("input", input)]

def completionStopReason (finishReason : String) : String :=
  match finishReason with
  | "tool_calls" => "tool_use"
  | "length" => "max_tokens"
  | _ => "end_turn"

/-- `openai_resp_to_claude`, between its `serde` calls. -/
def openaiRespToClaude (env : Env) (resp : OpenAIResponse) : Except String Json :=
  match resp.choices with
  | [] => .error "no choices in response"
  | choice :: _ =>
    let content := messageContentBlocks choice.message.content ++
      (choice.message.toolCalls.getD []).map (toolCallBlock env)
    .ok (.obj [("id", .str resp.id), ("type", .str "message"), ("role", .str "assistant"),
      ("content", .arr content), ("model", .str resp.model),
      ("stop_reason", .str (completionStopReason choice.finishReason)),
      ("usage", .obj [("input_tokens", .int resp.usage.promptTokens),
        ("output_tokens", .int resp.usage.completionTokens)])])

/-- The completion that a chat stream assembles to. -/
structure CompleteChat.AssemblesTo {env : Env} (chat : CompleteChat env) (resp : OpenAIResponse)
    (choice : OpenAIChoice) : Prop where
  choices : resp.choices = [choice]
  content : choice.message.content = some (.str (opsText chat.before)) ∨
    choice.message.content = none ∧ opsText chat.before = ""
  toolCalls : (choice.message.toolCalls.getD []).map (fun call =>
      (call.id, call.function.name, call.function.arguments)) =
    (foldedCalls chat.before).map FoldedCall.read
  finishReason : choice.finishReason = chat.reason
  usage : resp.usage = opsUsage (chat.before ++ chat.after)

/-! ### Streaming and not streaming -/

/-- What a client finds in the assembled message and in a whole message is the same. -/
structure SaysAnswer (env : Env) (msg : AssembledMessage) (message : Json) : Prop where
  text : answerText (msg.answer env) = answerText (messageAnswer message)
  thinking : answerThinking (msg.answer env) = answerThinking (messageAnswer message)
  tools : answerTools (msg.answer env) = answerTools (messageAnswer message)
  stopReason : msg.stopReason = message.getStr "stop_reason"
  usage : ∀ key, msg.usage key = (message.get "usage").bind (·.get key)

/-- The streams that both ways treat alike: every delta carries its fields, there is no reasoning
and no `<think>` in the text, arguments are JSON or empty, and the usage is not reported before
the finish only, unless it counts no output. -/
structure PlainChat {env : Env} (chat : CompleteChat env) : Prop where
  fields : ∀ event ∈ chat.body, CarriesFields env event
  reasoning : opsReasoning chat.before = ""
  text : Untagged (opsText chat.before).toList
  arguments : ∀ call ∈ foldedCalls chat.before, call.arguments ≠ "" →
    ∃ input, env.fromStr call.arguments = .ok input
  usage : chat.after.filterMap AnswerOp.usageReport = [] →
    (opsUsage chat.before).completionTokens = 0

/-- The tool use that a call of a completion gives: arguments that are no JSON give `{}`. -/
def wholeToolUse (env : Env) (call : String × String × String) :
    String × String × Except String Json :=
  (call.1, call.2.1, .ok (match env.fromStr call.2.2 with
    | .ok input => input
    | .error _ => .obj []))

theorem readContent_toolCallBlock (env : Env) (toolCall : OpenAIToolCall) :
    readContent (toolCallBlock env toolCall) =
      let call := wholeToolUse env
        (toolCall.id, toolCall.function.name, toolCall.function.arguments)
      .toolUse call.1 call.2.1 call.2.2 := by
  simp [readContent, toolCallBlock, wholeToolUse, Json.get, Json.getStr, Json.asStr,
    List.lookup_cons]

theorem answer_toolCallBlocks (env : Env) (toolCalls : List OpenAIToolCall) :
    answerText ((toolCalls.map (toolCallBlock env)).map readContent) = "" ∧
      answerThinking ((toolCalls.map (toolCallBlock env)).map readContent) = "" ∧
      answerTools ((toolCalls.map (toolCallBlock env)).map readContent) =
        (toolCalls.map fun call => (call.id, call.function.name, call.function.arguments)).map
          (wholeToolUse env) := by
  induction toolCalls with
  | nil => exact ⟨rfl, rfl, rfl⟩
  | cons toolCall toolCalls ih =>
    obtain ⟨htext, hthinking, htools⟩ := ih
    rw [List.map_cons, List.map_cons, ← List.singleton_append, answerText_append,
      answerThinking_append, answerTools_append, htext, hthinking, htools, answerText_singleton,
      answerThinking_singleton, readContent_toolCallBlock]
    exact ⟨rfl, rfl, rfl⟩

theorem answerTools_taggedBlocks (text : String) :
    answerTools ((taggedBlocks text).map readContent) = [] := by
  rw [map_readContent_taggedBlocks, answerTools, List.filterMap_map, List.filterMap_eq_nil_iff]
  intro piece _
  cases piece <;> rfl

/-- **What the converter makes of the completion** of a stream. -/
theorem CompleteChat.AssemblesTo.openaiRespToClaude {env : Env} {chat : CompleteChat env}
    {resp : OpenAIResponse} {choice : OpenAIChoice} (h : chat.AssemblesTo resp choice) :
    ∃ message, openaiRespToClaude env resp = .ok message ∧
      answerText (messageAnswer message) =
        answerText ((taggedBlocks (opsText chat.before)).map readContent) ∧
      answerThinking (messageAnswer message) =
        answerThinking ((taggedBlocks (opsText chat.before)).map readContent) ∧
      answerTools (messageAnswer message) =
        ((foldedCalls chat.before).map FoldedCall.read).map (wholeToolUse env) ∧
      message.getStr "stop_reason" = some (completionStopReason chat.reason) ∧
      message.get "usage" = some
        (answerUsage (opsUsage (chat.before ++ chat.after)).promptTokens
          (opsUsage (chat.before ++ chat.after)).completionTokens) := by
  have hcontent : messageContentBlocks choice.message.content =
      taggedBlocks (opsText chat.before) := by
    rcases h.content with hsome | ⟨hnone, hempty⟩
    · rw [hsome]
      rfl
    · rw [hnone, hempty, taggedBlocks, splitThinkTaggedText_of_untagged (by decide)]
      rfl
  obtain ⟨htext, hthinking, htools⟩ :=
    answer_toolCallBlocks env (choice.message.toolCalls.getD [])
  rw [h.toolCalls] at htools
  unfold AiOpenRouter.openaiRespToClaude
  rw [h.choices]
  dsimp only
  rw [hcontent]
  have hanswer : ∀ id model stopReason usage : Json, ∀ content : List Json,
      messageAnswer (.obj [("id", id), ("type", .str "message"), ("role", .str "assistant"),
        ("content", .arr content), ("model", model), ("stop_reason", stopReason),
        ("usage", usage)]) = content.map readContent := by
    intro id model stopReason usage content
    simp [messageAnswer, Json.get, Json.asArray, List.lookup_cons]
  refine ⟨_, rfl, ?_, ?_, ?_, ?_, ?_⟩
  · rw [hanswer, List.map_append, answerText_append, htext, String.append_empty]
  · rw [hanswer, List.map_append, answerThinking_append, hthinking, String.append_empty]
  · rw [hanswer, List.map_append, answerTools_append, answerTools_taggedBlocks, List.nil_append,
      htools]
  · simp [Json.get, Json.getStr, Json.asStr, List.lookup_cons, h.finishReason]
  · simp [Json.get, List.lookup_cons, h.usage, answerUsage]

theorem TracksAnswer.answer {ctx : StreamContext} {msg : AssembledMessage} {s : AnswerState}
    (h : TracksAnswer ctx msg s) (env : Env) :
    answerText (msg.answer env) = s.text ∧ answerThinking (msg.answer env) = s.thinking ∧
      answerTools (msg.answer env) =
        s.tools.map fun tool => (tool.1, tool.2.1, readInputText env tool.2.2) := by
  refine ⟨?_, ?_, ?_⟩
  · rw [answerText, AssembledMessage.answer, List.map_map, ← h.text]
    congr 1
    refine List.map_congr_left fun block _ => ?_
    cases block <;> rfl
  · rw [answerThinking, AssembledMessage.answer, List.map_map, ← h.thinking]
    congr 1
    refine List.map_congr_left fun block _ => ?_
    cases block <;> rfl
  · rw [answerTools, AssembledMessage.answer, List.filterMap_map, ← h.tools, List.map_filterMap]
    refine List.filterMap_congr fun block _ => ?_
    cases block <;> rfl

theorem toolUses_eq_iff {env : Env} (hempty : ∀ v, env.fromStr "" ≠ .ok v)
    {folded : List FoldedCall} :
    ((folded.map FoldedCall.read).map fun tool =>
        (tool.1, tool.2.1, readInputText env tool.2.2)) =
      (folded.map FoldedCall.read).map (wholeToolUse env) ↔
      ∀ call ∈ folded, call.arguments ≠ "" → ∃ input, env.fromStr call.arguments = .ok input := by
  rw [List.map_map, List.map_map, List.map_inj_left]
  refine forall₂_congr fun call _ => ?_
  simp only [Function.comp_apply, FoldedCall.read, wholeToolUse, Prod.mk.injEq, true_and]
  unfold readInputText
  split_ifs with hargs
  · simp only [hargs, ne_eq, not_true_eq_false, false_implies, iff_true]
    cases hread : env.fromStr "" with
    | ok v => exact absurd hread (hempty v)
    | error e => rfl
  · simp only [ne_eq, hargs, not_false_eq_true, true_implies]
    cases env.fromStr call.arguments <;> simp

theorem outputTokens_eq_iff {before after : List AnswerOp} :
    ((after.filterMap AnswerOp.usageReport).getLast?.map OpenAIUsage.completionTokens).getD 0 =
        (opsUsage (before ++ after)).completionTokens ↔
      (after.filterMap AnswerOp.usageReport = [] → (opsUsage before).completionTokens = 0) := by
  rw [opsUsage, opsUsage, List.filterMap_append]
  cases hlast : (after.filterMap AnswerOp.usageReport).getLast? with
  | none =>
    rw [List.getLast?_eq_none_iff] at hlast
    simp [hlast, eq_comm]
  | some reported =>
    have hne : after.filterMap AnswerOp.usageReport ≠ [] := by
      intro hnil
      rw [hnil] at hlast
      cases hlast
    simp [hlast, hne, List.getLast?_append]

theorem answerUsage_eq_iff {inputTokens outputTokens outputTokens' : ℤ} :
    (∀ key, (answerUsage inputTokens outputTokens).get key =
        (some (answerUsage inputTokens outputTokens')).bind (·.get key)) ↔
      outputTokens = outputTokens' := by
  constructor
  · intro h
    simpa [answerUsage, Json.get, Json.int, List.lookup_cons] using h "output_tokens"
  · rintro rfl key
    rfl

theorem plainChat_of_saysAnswer {env : Env} {model : String} {chat : CompleteChat env}
    {resp : OpenAIResponse} {choice : OpenAIChoice} (hresp : chat.AssemblesTo resp choice)
    (hempty : ∀ v, env.fromStr "" ≠ .ok v) {message : Json}
    (hmessage : openaiRespToClaude env resp = .ok message)
    (h : SaysAnswer env (assemble (feed (openaiStreamToClaude env) (.forModel model)
      (chat.body ++ [chat.last])).out) message) : PlainChat chat := by
  have hfresh := isFresh_forModel model
  obtain ⟨whole, hwhole, htext, hthinking, htools, hstop, husage⟩ := hresp.openaiRespToClaude
  obtain rfl : message = whole := by
    rw [hmessage] at hwhole
    exact Except.ok.inj hwhole
  have hfields : ∀ event ∈ chat.body, CarriesFields env event := by
    by_contra hmissing
    have hnone := h.stopReason
    rw [chat.stopReason_of_missing hfresh hempty hmissing, hstop] at hnone
    cases hnone
  obtain ⟨ctx', htracks⟩ := chat.tracks hfresh hfields
  obtain ⟨s, hs, hstext, hsthinking, hstools, -, hsinput, hsoutput⟩ := chat.finalState
  rw [hs] at htracks
  obtain ⟨hatext, hathinking, hatools⟩ := htracks.answer env
  have hsusage := htracks.usage
  rw [hsinput, hsoutput] at hsusage
  have huntagged : Untagged (opsText chat.before).toList := by
    rw [← answerText_taggedBlocks_eq_iff, ← htext, ← h.text, hatext, hstext]
  refine ⟨hfields, ?_, huntagged, ?_, ?_⟩
  · rw [← hsthinking, ← hathinking, h.thinking, hthinking,
      map_readContent_taggedBlocks_of_untagged huntagged]
    split_ifs <;> rfl
  · rw [← toolUses_eq_iff hempty, ← hstools, ← hatools, h.tools, htools, hstools]
  · rw [← outputTokens_eq_iff, ← answerUsage_eq_iff]
    intro key
    rw [← hsusage, h.usage, husage]

theorem saysAnswer_of_plainChat {env : Env} {model : String} {chat : CompleteChat env}
    {resp : OpenAIResponse} {choice : OpenAIChoice} (hresp : chat.AssemblesTo resp choice)
    (hempty : ∀ v, env.fromStr "" ≠ .ok v) (h : PlainChat chat) :
    ∃ message, openaiRespToClaude env resp = .ok message ∧
      SaysAnswer env (assemble (feed (openaiStreamToClaude env) (.forModel model)
        (chat.body ++ [chat.last])).out) message := by
  obtain ⟨message, hmessage, htext, hthinking, htools, hstop, husage⟩ := hresp.openaiRespToClaude
  obtain ⟨ctx', htracks⟩ := chat.tracks (isFresh_forModel model) h.fields
  obtain ⟨s, hs, hstext, hsthinking, hstools, hsstop, hsinput, hsoutput⟩ := chat.finalState
  rw [hs] at htracks
  obtain ⟨hatext, hathinking, hatools⟩ := htracks.answer env
  refine ⟨message, hmessage, ?_, ?_, ?_, ?_, ?_⟩
  · rw [hatext, hstext, htext, (answerText_taggedBlocks_eq_iff _).2 h.text]
  · rw [hathinking, hsthinking, hthinking, map_readContent_taggedBlocks_of_untagged h.text,
      h.reasoning]
    split_ifs <;> rfl
  · rw [hatools, hstools, htools]
    exact (toolUses_eq_iff hempty).2 h.arguments
  · rw [htracks.stopReason, hsstop, hstop]
    rfl
  · intro key
    rw [htracks.usage, hsinput, hsoutput, husage]
    exact answerUsage_eq_iff.2 (outputTokens_eq_iff.2 h.usage) key

/-- **Streaming and not streaming agree exactly on plain chats.** -/
theorem chatToClaude_agree_iff (env : Env) (model : String) (chat : CompleteChat env)
    (resp : OpenAIResponse) (choice : OpenAIChoice) (hresp : chat.AssemblesTo resp choice)
    (hempty : ∀ v, env.fromStr "" ≠ .ok v) :
    (∃ message, openaiRespToClaude env resp = .ok message ∧
        SaysAnswer env (assemble (feed (openaiStreamToClaude env) (.forModel model)
          (chat.body ++ [chat.last])).out) message) ↔ PlainChat chat := by
  constructor
  · rintro ⟨message, hmessage, h⟩
    exact plainChat_of_saysAnswer hresp hempty hmessage h
  · exact saysAnswer_of_plainChat hresp hempty

/-! ### Printed chunks -/

def printChunk (fields : List (String × Json)) : Bytes := dataBlock (Json.obj fields).compact

def fieldsOps (fields : List (String × Json)) : List AnswerOp :=
  ((Decode.incrementalStreamChunk (.obj fields)).map chunkOps).getD []

def fieldsCallEvents (fields : List (String × Json)) : List CallEvent :=
  ((Decode.incrementalStreamChunk (.obj fields)).map chunkCallEvents).getD []

/-- Chunks of the format whose printed blocks are read back. -/
structure Prints (values : List Json) (chunks : List (List (String × Json))) : Prop where
  distinct : (values.map Json.compact).Nodup
  listed : ∀ fields ∈ chunks, .obj fields ∈ values
  printable : ∀ fields ∈ chunks, (Json.obj fields).printable = true
  format : ∀ fields ∈ chunks, (Decode.incrementalStreamChunk (.obj fields)).any
    (·.choices.length ≤ 1) = true

section Prints

variable {values : List Json} {chunks : List (List (String × Json))}
  {fields : List (String × Json)}

theorem Prints.parseSse_printChunk (h : Prints values chunks) (hmem : fields ∈ chunks) :
    (parseSse (printChunk fields)).2 = (Json.obj fields).compact ∧
      (Json.obj fields).compact ≠ "" ∧ (Json.obj fields).compact ≠ "[DONE]" := by
  have hplain := Json.isPlainLine_compact (h.printable fields hmem)
  rw [printChunk, parseSse_dataBlock hplain]
  refine ⟨rfl, hplain.ne_empty, ?_⟩
  intro heq
  have hhead := congrArg (fun s : String => s.toList.head?) heq
  rw [Json.compact] at hhead
  simp at hhead

theorem Prints.read (h : Prints values chunks) (hmem : fields ∈ chunks) :
    ∃ chunk, Decode.incrementalStreamChunk (.obj fields) = some chunk ∧
      chunk.choices.length ≤ 1 ∧
      readIncremental (Env.ofValues values) (printChunk fields) = .chunk chunk := by
  obtain ⟨hdata, hne, hdone⟩ := h.parseSse_printChunk hmem
  have hformat := h.format fields hmem
  cases hchunk : Decode.incrementalStreamChunk (.obj fields) with
  | none => simp [hchunk] at hformat
  | some chunk =>
    refine ⟨chunk, rfl, by simpa [hchunk] using hformat, ?_⟩
    rw [readIncremental]
    rw [hdata, if_neg hne, if_neg hdone, fromStr_ofValues h.distinct (h.listed fields hmem)]
    dsimp only
    rw [hchunk]

theorem Prints.carriesFields (h : Prints values chunks) (hmem : fields ∈ chunks)
    (hfields : ∀ toolCall ∈ Decode.toolCallsOfChunk (.obj fields),
      Decode.carriesFields toolCall = true) :
    CarriesFields (Env.ofValues values) (printChunk fields) := by
  rw [CarriesFields, (h.parseSse_printChunk hmem).1,
    fromStr_ofValues h.distinct (h.listed fields hmem)]
  exact hfields

theorem Prints.ops (h : Prints values chunks) :
    (chunks.map printChunk).flatMap (eventOps (Env.ofValues values)) =
      chunks.flatMap fieldsOps := by
  rw [List.flatMap_map]
  refine List.flatMap_congr fun fields hmem => ?_
  obtain ⟨chunk, hchunk, -, hread⟩ := h.read hmem
  rw [eventOps, hread, fieldsOps, hchunk]
  rfl

theorem Prints.callEvents (h : Prints values chunks) :
    (chunks.map printChunk).flatMap (eventCallEvents (Env.ofValues values)) =
      chunks.flatMap fieldsCallEvents := by
  rw [List.flatMap_map]
  refine List.flatMap_congr fun fields hmem => ?_
  obtain ⟨chunk, hchunk, -, hread⟩ := h.read hmem
  rw [eventCallEvents, hread, fieldsCallEvents, hchunk]
  rfl

def Prints.chat (h : Prints values chunks) (before : List AnswerOp) (reason : String)
    (after : List AnswerOp)
    (hallow : Permits IncrementalAllows (chunks.flatMap fieldsCallEvents))
    (hturn : Permits FragmentFits (chunks.flatMap fieldsCallEvents))
    (hops : chunks.flatMap fieldsOps = before ++ .finish reason :: after)
    (hbefore : ∀ op ∈ before, op.isUnfinished) (hreason : reason ≠ "")
    (hafter : ∀ op ∈ after, op.callEvents = []) : CompleteChat (Env.ofValues values) where
  body := chunks.map printChunk
  last := dataBlock "[DONE]"
  before := before
  reason := reason
  after := after
  stream := by
    refine ⟨?_, by rwa [h.callEvents]⟩
    intro event hevent
    obtain ⟨fields, hmem, rfl⟩ := List.mem_map.1 hevent
    obtain ⟨chunk, -, hlength, hread⟩ := h.read hmem
    rw [InFormat, hread]
    exact hlength
  inTurn := by rwa [h.callEvents]
  open_body := by
    intro event hevent
    obtain ⟨fields, hmem, rfl⟩ := List.mem_map.1 hevent
    obtain ⟨hdata, -, hdone⟩ := h.parseSse_printChunk hmem
    rwa [hdata]
  done_last := by rw [parseSse_dataBlock (by decide)]
  ops := by rw [h.ops, hops]
  unfinished := hbefore
  reason_ne := hreason
  settled := hafter

end Prints

/-! ### Concrete chats -/

def deltaFields (delta finish usage : List (String × Json)) : List (String × Json) :=
  [("id", .str "c"), ("object", .str ""), ("created", .int 1), ("model", .str "m"),
    ("choices", .arr [.obj ([("index", .int 0), ("delta", .obj delta)] ++ finish)])] ++ usage

def finishChunk (reason : String) : List (String × Json) :=
  deltaFields [] [("finish_reason", .str reason)]
    [("usage", .obj [("prompt_tokens", .int 3), ("completion_tokens", .int 2),
      ("total_tokens", .int 5)])]

def callChunks : List (List (String × Json)) :=
  [deltaFields [("content", .str "Hel")] [] [], deltaFields [("content", .str "lo")] [] [],
    deltaFields [("tool_calls", .arr [.obj (fullToolCall 0 "call_1" "function" "Bash" "\x7b")])] []
      [],
    deltaFields [("tool_calls", .arr [.obj (fullToolCall 0 "" "" "" "\x7d")])] [] [],
    finishChunk "tool_calls"]

/-- The values of these chunks, and of the arguments. -/
def callValues : List Json := .obj [] :: callChunks.map .obj

theorem callChunks_prints : Prints callValues callChunks where
  distinct := by decide +kernel
  listed _ hmem := List.mem_cons_of_mem _ (List.mem_map_of_mem hmem)
  printable := by decide +kernel
  format := by decide +kernel

/-- The stream of these chunks. -/
def callChat : CompleteChat (Env.ofValues callValues) :=
  callChunks_prints.chat
    [.text "Hel", .text "lo", .toolCall ⟨some 0, "call_1", "function", ⟨"Bash", "\x7b"⟩⟩,
      .toolCall ⟨some 0, "", "", ⟨"", "\x7d"⟩⟩]
    "tool_calls" [.usage ⟨3, 2, 5⟩] (by decide +kernel) (by decide +kernel) (by decide +kernel)
    (by simp [AnswerOp.isUnfinished]) (by decide) (by simp [AnswerOp.callEvents])

/-- The completion of these chunks. -/
def callChoice : OpenAIChoice where
  index := 0
  message := ⟨"assistant", some (.str "Hello"),
    some [⟨none, "call_1", "function", ⟨"Bash", "\x7b\x7d"⟩⟩], none⟩
  finishReason := "tool_calls"

theorem callChat_assemblesTo :
    callChat.AssemblesTo ⟨"c", "", 1, "m", [callChoice], ⟨3, 2, 5⟩⟩ callChoice :=
  ⟨rfl, Or.inl (congrArg (fun text => some (Json.str text)) (by decide)), by decide, rfl,
    by decide⟩

theorem fromStr_ofValues_ne_ok {values : List Json} (h : "" ∉ values.map Json.compact) (v : Json) :
    (Env.ofValues values).fromStr "" ≠ .ok v := by
  intro hread
  obtain ⟨hmem, hcompact⟩ := compact_of_fromStr_ofValues hread
  exact h (hcompact ▸ List.mem_map_of_mem hmem)

theorem chatToClaude_agree_call :
    ∃ message, openaiRespToClaude (Env.ofValues callValues)
        ⟨"c", "", 1, "m", [callChoice], ⟨3, 2, 5⟩⟩ = .ok message ∧
      SaysAnswer (Env.ofValues callValues)
        (assemble (feed (openaiStreamToClaude (Env.ofValues callValues)) (.forModel "claude")
          (callChat.body ++ [callChat.last])).out) message :=
  (chatToClaude_agree_iff _ "claude" callChat _ _ callChat_assemblesTo
    (fromStr_ofValues_ne_ok (by decide +kernel))).2
    { fields := by
        intro event hevent
        obtain ⟨fields, hmem, rfl⟩ := List.mem_map.1 hevent
        have hfields : ∀ fields ∈ callChunks, ∀ toolCall ∈ Decode.toolCallsOfChunk (.obj fields),
            Decode.carriesFields toolCall = true := by decide +kernel
        exact callChunks_prints.carriesFields hmem (hfields fields hmem)
      reasoning := by decide
      text := by decide +kernel
      arguments := by
        intro call hcall _
        have hargs : (foldedCalls callChat.before).map FoldedCall.arguments =
            [(Json.obj []).compact] := by decide +kernel
        have hmem := List.mem_map_of_mem (f := FoldedCall.arguments) hcall
        rw [hargs, List.mem_singleton] at hmem
        rw [hmem]
        exact ⟨_, fromStr_ofValues callChunks_prints.distinct List.mem_cons_self⟩
      usage := by decide }

/-- Reasoning, then a text. -/
def reasoningChunks : List (List (String × Json)) :=
  [deltaFields [("reasoning_content", .str "Hm")] [] [], deltaFields [("content", .str "Hi")] [] [],
    finishChunk "stop"]

theorem reasoningChunks_prints : Prints (reasoningChunks.map .obj) reasoningChunks where
  distinct := by decide +kernel
  listed _ hmem := List.mem_map_of_mem hmem
  printable := by decide +kernel
  format := by decide +kernel

/-- The stream of these chunks. -/
def reasoningChat : CompleteChat (Env.ofValues (reasoningChunks.map .obj)) :=
  reasoningChunks_prints.chat [.thinking "Hm", .text "Hi"] "stop" [.usage ⟨3, 2, 5⟩]
    (by decide +kernel) (by decide +kernel) (by decide +kernel) (by simp [AnswerOp.isUnfinished])
    (by decide) (by simp [AnswerOp.callEvents])

/-- The completion of these chunks. -/
def reasoningChoice : OpenAIChoice where
  index := 0
  message := ⟨"assistant", some (.str "Hi"), none, none⟩
  finishReason := "stop"

/-- The reasoning of a stream is not in the completion. -/
theorem not_chatToClaude_agree_reasoning :
    reasoningChat.AssemblesTo ⟨"c", "", 1, "m", [reasoningChoice], ⟨3, 2, 5⟩⟩ reasoningChoice ∧
      ¬ ∃ message, openaiRespToClaude (Env.ofValues (reasoningChunks.map .obj))
          ⟨"c", "", 1, "m", [reasoningChoice], ⟨3, 2, 5⟩⟩ = .ok message ∧
        SaysAnswer (Env.ofValues (reasoningChunks.map .obj))
          (assemble (feed (openaiStreamToClaude (Env.ofValues (reasoningChunks.map .obj)))
            (.forModel "claude") (reasoningChat.body ++ [reasoningChat.last])).out) message := by
  have hresp : reasoningChat.AssemblesTo ⟨"c", "", 1, "m", [reasoningChoice], ⟨3, 2, 5⟩⟩
      reasoningChoice :=
    ⟨rfl, Or.inl (congrArg (fun text => some (Json.str text)) (by decide)), by decide, rfl,
      by decide⟩
  refine ⟨hresp, ?_⟩
  rintro ⟨message, hmessage, h⟩
  have hplain := plainChat_of_saysAnswer hresp (fromStr_ofValues_ne_ok (by decide +kernel))
    hmessage h
  exact absurd hplain.reasoning (by decide)

end AiOpenRouter
