/-
Responses → Claude, streamed and at once.

* `openaiResponsesRespToClaudeWithOptions` is the converter of a whole response
  (`openai_responses_resp_to_claude_with_options`);
* `WholeAnswer.items` gives the blocks it makes of the items of a response;
* `responsesToClaude_agree_iff`: the assembled message and the converted response
  have the same blocks, stop reason and usage exactly when the response is a
  `PlainResponse`.
-/
import AiOpenRouter.ChatStreamToClaude
import AiOpenRouter.ResponsesAnswers
import AiOpenRouter.ResponsesStreamToChat
import AiOpenRouter.TextToolCalls

namespace AiOpenRouter

/-! ### The converter of a whole response -/

/-- `ResponsesToClaudeOptions`. -/
structure ResponsesToClaudeOptions where
  textToolCallFallbackEnabled : Bool
  allowedToolNames : List String

def ResponsesToClaudeOptions.recognise (options : ResponsesToClaudeOptions) (env : Env)
    (text : String) : Option ParsedTextToolCall :=
  if options.textToolCallFallbackEnabled then
    parseTextToolCallFallback env options.allowedToolNames text.toList
  else none

/-- `content` and `has_tool_use` of the loop over the output items, with the number of ids that
were drawn. -/
structure WholeAnswer where
  content : List Json := []
  hasToolUse : Bool := false
  uuidsDrawn : ℕ := 0

/-- `Uuid::simple`: no hyphens. -/
def simpleUuid (uuid : String) : String := String.ofList (uuid.toList.filter (· ≠ '-'))

def recognisedBlock (id : String) (parsed : ParsedTextToolCall) : Json :=
  .obj [("type", .str "tool_use"), ("id", .str id), ("name", .str parsed.name),
    ("input", parsed.arguments)]

namespace WholeAnswer

/-- A part of a message item. -/
def takePart (env : Env) (options : ResponsesToClaudeOptions) (acc : WholeAnswer) (part : Json) :
    WholeAnswer :=
  match part.getStr "type" with
  | some "output_text" =>
    match part.getStr "text" with
    | some text =>
      match options.recognise env text with
      | some parsed =>
        let callId := "fallback_call_" ++ simpleUuid (env.uuidV4 acc.uuidsDrawn)
        { content := acc.content ++ [recognisedBlock callId parsed]
          hasToolUse := true
          uuidsDrawn := acc.uuidsDrawn + 1 }
      | none => { acc with content := acc.content ++ taggedBlocks text }
    | none => acc
  | some "refusal" =>
    match part.getStr "refusal" with
    | some refusal =>
      if refusal = "" then acc
      else { acc with content := acc.content ++
              [.obj [("type", .str "text"), ("text", .str refusal)]] }
    | none => acc
  | _ => acc

def functionCallBlock (env : Env) (item name : Json) : Json :=
  let input :=
    match env.fromStr ((item.getStr "arguments").getD "\x7b\x7d") with
    | .ok input => input
    | .error _ => .obj []
  let callId := item.get "call_id" <|> item.get "id"
  .obj [("type", .str "tool_use"), ("id", callId.getD (.str "")), ("name", name),
    ("input", input)]

def summaryBlocks (summary : List Json) : List Json :=
  let thinkingText := "".intercalate (summary.filterMap summaryEntryText)
  if thinkingText = "" then []
  else [.obj [("type", .str "thinking"), ("thinking", .str thinkingText)]]

def takeItem (env : Env) (options : ResponsesToClaudeOptions) (acc : WholeAnswer) (item : Json) :
    WholeAnswer :=
  match item.getStr "type" with
  | some "message" =>
    (((item.get "content").bind Json.asArray).getD []).foldl (takePart env options) acc
  | some "function_call" =>
    match item.get "name" with
    | some name =>
      { acc with content := acc.content ++ [functionCallBlock env item name], hasToolUse := true }
    | none => acc
  | some "reasoning" =>
    match (item.get "summary").bind Json.asArray with
    | some summary => { acc with content := acc.content ++ summaryBlocks summary }
    | none => acc
  | _ => acc

end WholeAnswer

/-- `openai_responses_resp_to_claude_with_options`, between its `serde` calls. -/
def openaiResponsesRespToClaudeWithOptions (env : Env) (options : ResponsesToClaudeOptions)
    (resp : Json) : Json :=
  let output := ((resp.get "output").bind Json.asArray).getD []
  let answer := output.foldl (WholeAnswer.takeItem env options) {}
  let stopReason := mapResponsesStopReason (resp.getStr "status") answer.hasToolUse
    ((resp.pointer ["incomplete_details", "reason"]).bind Json.asStr)
  .obj [("id", (resp.get "id").getD (.str "resp-id")), ("type", .str "message"),
    ("role", .str "assistant"), ("content", .arr answer.content), ("stop_reason", .str stopReason),
    ("stop_sequence", .null), ("usage", buildAnthropicUsageFromResponses (resp.get "usage"))]

/-! ### The blocks of a whole response -/

def StreamedPart.Gives (env : Env) (options : ResponsesToClaudeOptions) (part : StreamedPart)
    (blocks : List AnswerBlock) : Prop :=
  match part.kind with
  | .text =>
    match options.recognise env part.text with
    | some parsed => ∃ id, blocks = [.toolUse id parsed.name (.ok parsed.arguments)]
    | none => blocks = (taggedBlocks part.text).map readContent
  | .refusal => blocks = if part.text = "" then [] else [.text part.text]

def reasoningDeltasText (deltas : List ReasoningDelta) : String :=
  "".intercalate (deltas.map ReasoningDelta.text)

def StreamedItem.Gives (env : Env) (options : ResponsesToClaudeOptions) (item : StreamedItem)
    (blocks : List AnswerBlock) : Prop :=
  match item with
  | message _ parts =>
    ∃ given, List.Forall₂ (StreamedPart.Gives env options) parts given ∧ blocks = given.flatten
  | reasoning _ deltas =>
    blocks = if reasoningDeltasText deltas = "" then []
      else [.thinking (reasoningDeltasText deltas)]
  | functionCall _ callId name fragments =>
    let use := wholeToolUse env (callId, name, "".intercalate fragments)
    blocks = [.toolUse use.1 use.2.1 use.2.2]

namespace WholeAnswer

/-- The blocks so far, as a client reads them. -/
def answer (acc : WholeAnswer) : List AnswerBlock := acc.content.map readContent

/-- `has_tool_use` tells whether there is a tool use. -/
def Flagged (acc : WholeAnswer) : Prop :=
  acc.hasToolUse = true ↔ answerTools acc.answer ≠ []

theorem answer_append (acc : WholeAnswer) (blocks : List Json) (used : Bool) (drawn : ℕ) :
    answer ⟨acc.content ++ blocks, used, drawn⟩ = acc.answer ++ blocks.map readContent :=
  List.map_append

theorem Flagged.append {acc : WholeAnswer} (h : acc.Flagged) {blocks : List Json}
    (hblocks : answerTools (blocks.map readContent) = []) :
    Flagged { acc with content := acc.content ++ blocks } := by
  unfold Flagged
  rw [answer_append, answerTools_append, hblocks, List.append_nil]
  exact h

theorem flagged_of_toolUse (acc : WholeAnswer) {block : Json} {id name : String}
    {input : Except String Json} (hblock : readContent block = .toolUse id name input)
    (drawn : ℕ) : Flagged ⟨acc.content ++ [block], true, drawn⟩ := by
  unfold Flagged
  rw [answer_append, answerTools_append, List.map_singleton, hblock]
  simp [answerTools, AnswerBlock.toolPart]

theorem readContent_recognisedBlock (id : String) (parsed : ParsedTextToolCall) :
    readContent (recognisedBlock id parsed) = .toolUse id parsed.name (.ok parsed.arguments) := by
  simp [readContent, recognisedBlock, Json.get, Json.getStr, Json.asStr, List.lookup_cons]

theorem readContent_text (text : String) :
    readContent (.obj [("type", .str "text"), ("text", .str text)]) = .text text := by
  simp [readContent, Json.get, Json.getStr, Json.asStr, List.lookup_cons]

theorem readContent_thinking (text : String) :
    readContent (.obj [("type", .str "thinking"), ("thinking", .str text)]) = .thinking text := by
  simp [readContent, Json.get, Json.getStr, Json.asStr, List.lookup_cons]

theorem part (env : Env) (options : ResponsesToClaudeOptions) {acc : WholeAnswer}
    (hflag : acc.Flagged) {content : Json} {part : StreamedPart} (h : part.AssemblesTo content) :
    ∃ blocks, part.Gives env options blocks ∧
      (takePart env options acc content).answer = acc.answer ++ blocks ∧
      (takePart env options acc content).Flagged := by
  obtain ⟨kind, deltas⟩ := part
  obtain ⟨htype, htext⟩ := h
  cases kind with
  | text =>
    have htype' : content.getStr "type" = some "output_text" := htype
    have htext' : content.getStr "text" = some (StreamedPart.text ⟨.text, deltas⟩) := htext
    unfold takePart StreamedPart.Gives
    rw [htype']
    dsimp only
    rw [htext']
    dsimp only
    cases options.recognise env (StreamedPart.text ⟨.text, deltas⟩) with
    | some parsed =>
      let id := "fallback_call_" ++ simpleUuid (env.uuidV4 acc.uuidsDrawn)
      have hblock := readContent_recognisedBlock id parsed
      refine ⟨[.toolUse id parsed.name (.ok parsed.arguments)], ⟨id, rfl⟩,
        (answer_append acc _ _ _).trans ?_, flagged_of_toolUse acc hblock _⟩
      rw [List.map_singleton, hblock]
    | none =>
      exact ⟨_, rfl, answer_append acc _ _ _, hflag.append (answerTools_taggedBlocks _)⟩
  | refusal =>
    have htype' : content.getStr "type" = some "refusal" := htype
    have htext' : content.getStr "refusal" = some (StreamedPart.text ⟨.refusal, deltas⟩) := htext
    unfold takePart StreamedPart.Gives
    rw [htype']
    dsimp only
    rw [htext']
    dsimp only
    by_cases hempty : StreamedPart.text ⟨.refusal, deltas⟩ = ""
    · rw [if_pos hempty, if_pos hempty]
      exact ⟨[], rfl, (List.append_nil _).symm, hflag⟩
    · rw [if_neg hempty, if_neg hempty]
      refine ⟨_, rfl, (answer_append acc _ _ _).trans ?_, hflag.append ?_⟩
      · rw [List.map_singleton, readContent_text]
      · rw [List.map_singleton, readContent_text]
        rfl

theorem parts (env : Env) (options : ResponsesToClaudeOptions) {contents : List Json}
    {parts : List StreamedPart}
    (h : List.Forall₂ (fun part content => part.AssemblesTo content) parts contents)
    {acc : WholeAnswer} (hflag : acc.Flagged) :
    ∃ given, List.Forall₂ (StreamedPart.Gives env options) parts given ∧
      (contents.foldl (takePart env options) acc).answer = acc.answer ++ given.flatten ∧
      (contents.foldl (takePart env options) acc).Flagged := by
  induction h generalizing acc with
  | nil => exact ⟨[], .nil, (List.append_nil _).symm, hflag⟩
  | cons hpart _ ih =>
    obtain ⟨blocks, hgives, hanswer, hflag'⟩ := part env options hflag hpart
    obtain ⟨given, hgiven, hanswer', hflag''⟩ := ih hflag'
    refine ⟨blocks :: given, .cons hgives hgiven, ?_, hflag''⟩
    rw [List.foldl_cons, hanswer', hanswer, List.flatten_cons, List.append_assoc]

theorem item (env : Env) (options : ResponsesToClaudeOptions) {acc : WholeAnswer}
    (hflag : acc.Flagged) {out : Json} {item : StreamedItem} (h : item.AssemblesTo out) :
    ∃ blocks, item.Gives env options blocks ∧
      (takeItem env options acc out).answer = acc.answer ++ blocks ∧
      (takeItem env options acc out).Flagged := by
  cases item with
  | message id parts =>
    obtain ⟨htype, -, content, hcontent, hparts⟩ := h
    obtain ⟨given, hgiven, hanswer, hflag'⟩ := WholeAnswer.parts env options hparts hflag
    unfold takeItem
    rw [htype, hcontent]
    exact ⟨_, ⟨given, hgiven, rfl⟩, hanswer, hflag'⟩
  | reasoning id deltas =>
    obtain ⟨htype, -, summary, hsummary, htext⟩ := h
    have hblocks : (summaryBlocks summary).map readContent =
        if reasoningDeltasText deltas = "" then []
        else [.thinking (reasoningDeltasText deltas)] := by
      have htext' : "".intercalate (summary.filterMap summaryEntryText) =
          reasoningDeltasText deltas := htext
      unfold summaryBlocks
      rw [htext']
      by_cases hempty : reasoningDeltasText deltas = ""
      · rw [if_pos hempty, if_pos hempty]
        rfl
      · rw [if_neg hempty, if_neg hempty, List.map_singleton, readContent_thinking]
    unfold takeItem
    rw [htype, hsummary]
    refine ⟨_, rfl, (answer_append acc _ _ _).trans ?_, hflag.append ?_⟩
    · rw [hblocks]
    · rw [hblocks]
      split_ifs <;> rfl
  | functionCall id callId name fragments =>
    obtain ⟨htype, -, hcallId, hname, harguments⟩ := h
    obtain ⟨nameValue, hnameValue, hnameStr⟩ := Option.bind_eq_some_iff.1 hname
    obtain ⟨callIdValue, hcallIdValue, hcallIdStr⟩ := Option.bind_eq_some_iff.1 hcallId
    have hblock : readContent (functionCallBlock env out nameValue) =
        let use := wholeToolUse env (callId, name, "".intercalate fragments)
        .toolUse use.1 use.2.1 use.2.2 := by
      have hread : ∀ id input : Json, readContent (.obj [("type", .str "tool_use"), ("id", id),
          ("name", nameValue), ("input", input)]) =
            .toolUse ((Json.asStr id).getD "") ((Json.asStr nameValue).getD "") (.ok input) := by
        intro id input
        simp [readContent, Json.get, Json.getStr, Json.asStr, List.lookup_cons]
      unfold functionCallBlock
      rw [hread, harguments, hcallIdValue, hnameStr]
      show AnswerBlock.toolUse ((Json.asStr callIdValue).getD "") _ _ = _
      rw [hcallIdStr]
      rfl
    unfold takeItem
    rw [htype, hnameValue]
    refine ⟨_, rfl, (answer_append acc _ _ _).trans ?_, flagged_of_toolUse acc hblock _⟩
    rw [List.map_singleton, hblock]

theorem items (env : Env) (options : ResponsesToClaudeOptions) {output : List Json}
    {items : List (ℕ × StreamedItem)}
    (h : List.Forall₂ (fun item out => item.2.AssemblesTo out) items output) {acc : WholeAnswer}
    (hflag : acc.Flagged) :
    ∃ given, List.Forall₂ (fun item blocks => item.2.Gives env options blocks) items given ∧
      (output.foldl (takeItem env options) acc).answer = acc.answer ++ given.flatten ∧
      (output.foldl (takeItem env options) acc).Flagged := by
  induction h generalizing acc with
  | nil => exact ⟨[], .nil, (List.append_nil _).symm, hflag⟩
  | cons hitem _ ih =>
    obtain ⟨blocks, hgives, hanswer, hflag'⟩ := item env options hflag hitem
    obtain ⟨given, hgiven, hanswer', hflag''⟩ := ih hflag'
    refine ⟨blocks :: given, .cons hgives hgiven, ?_, hflag''⟩
    rw [List.foldl_cons, hanswer', hanswer, List.flatten_cons, List.append_assoc]

end WholeAnswer

/-! ### Plain responses -/

/-- A part whose text both ways keep: it has some text, without `<think>` and without a call. -/
def StreamedPart.IsPlain (env : Env) (options : ResponsesToClaudeOptions) (part : StreamedPart) :
    Prop :=
  part.text ≠ "" ∧ (part.kind = .text →
    Untagged part.text.toList ∧ options.recognise env part.text = none)

def rawReasoningText (deltas : List ReasoningDelta) : String :=
  "".intercalate (deltas.map ReasoningDelta.rawText)

def StreamedItem.IsPlain (env : Env) (options : ResponsesToClaudeOptions) : StreamedItem → Prop
  | message _ parts => ∀ part ∈ parts, part.IsPlain env options
  | reasoning _ deltas => (∀ delta ∈ deltas, delta.isSummary = true → delta.text = "") ∧
      (¬ deltas.all (·.isSummary) → rawReasoningText deltas ≠ "")
  | functionCall _ _ _ fragments => "".intercalate fragments ≠ "" →
      ∃ input, env.fromStr ("".intercalate fragments) = .ok input

/-- The responses that both ways treat alike: the last event is `response.completed`, and the
items are plain. -/
structure PlainResponse (env : Env) (options : ResponsesToClaudeOptions)
    (r : StreamedResponse) : Prop where
  completes : r.completes = true
  items : ∀ item ∈ r.items, item.2.IsPlain env options

/-- The weight of an answer: it grows with its tool uses and its thinking, and a whole response
never weighs less than its stream. -/
def answerWeight (blocks : List AnswerBlock) : ℤ :=
  (answerTools blocks).length + (answerThinking blocks).length - (answerText blocks).length

theorem answerWeight_append (blocks blocks' : List AnswerBlock) :
    answerWeight (blocks ++ blocks') = answerWeight blocks + answerWeight blocks' := by
  unfold answerWeight
  rw [answerTools_append, answerThinking_append, answerText_append, List.length_append,
    String.length_append, String.length_append]
  omega

theorem answerWeight_text (text : String) : answerWeight [.text text] = -(text.length : ℤ) := by
  have htools : answerTools [.text text] = [] := rfl
  unfold answerWeight
  rw [answerText_singleton, answerThinking_singleton, htools]
  simp [AnswerBlock.textPart, AnswerBlock.thinkingPart]

theorem answerWeight_thinking (text : String) : answerWeight [.thinking text] = text.length := by
  have htools : answerTools [.thinking text] = [] := rfl
  unfold answerWeight
  rw [answerText_singleton, answerThinking_singleton, htools]
  simp [AnswerBlock.textPart, AnswerBlock.thinkingPart]

theorem answerWeight_toolUse (id name : String) (input : Except String Json) :
    answerWeight [.toolUse id name input] = 1 := by
  have htools : answerTools [.toolUse id name input] = [(id, name, input)] := rfl
  unfold answerWeight
  rw [answerText_singleton, answerThinking_singleton, htools]
  simp [AnswerBlock.textPart, AnswerBlock.thinkingPart]

@[simp] theorem answerWeight_nil : answerWeight [] = 0 := rfl

theorem answerWeight_taggedBlocks (text : String) :
    -(text.length : ℤ) ≤ answerWeight ((taggedBlocks text).map readContent) ∧
      (answerWeight ((taggedBlocks text).map readContent) = -(text.length : ℤ) →
        Untagged text.toList) := by
  have htext : (answerText ((taggedBlocks text).map readContent)).length =
      (textChars (splitThinkTaggedText text.toList)).length := by
    rw [map_readContent_taggedBlocks, ← String.length_toList, toList_answerText_pieces]
  have hle := (length_textChars text.toList).1
  rw [String.length_toList] at hle
  unfold answerWeight
  rw [answerTools_taggedBlocks, htext, List.length_nil]
  refine ⟨by omega, fun h => (length_textChars_eq_iff _).1 ?_⟩
  rw [String.length_toList]
  omega

theorem StreamedPart.Gives.weight {env : Env} {options : ResponsesToClaudeOptions}
    {part : StreamedPart} {blocks : List AnswerBlock} (h : part.Gives env options blocks) :
    -(part.text.length : ℤ) ≤ answerWeight blocks ∧
      (answerWeight blocks = -(part.text.length : ℤ) →
        blocks = (if part.text = "" then [] else [.text part.text]) ∧
          (part.kind = .text →
            Untagged part.text.toList ∧ options.recognise env part.text = none)) := by
  unfold StreamedPart.Gives at h
  cases hkind : part.kind with
  | text =>
    rw [hkind] at h
    dsimp only at h
    cases hrecognise : options.recognise env part.text with
    | some parsed =>
      rw [hrecognise] at h
      obtain ⟨id, rfl⟩ := h
      rw [answerWeight_toolUse]
      exact ⟨by omega, fun heq => by omega⟩
    | none =>
      rw [hrecognise] at h
      obtain rfl : blocks = (taggedBlocks part.text).map readContent := h
      obtain ⟨hle, huntagged⟩ := answerWeight_taggedBlocks part.text
      refine ⟨hle, fun heq => ⟨?_, fun _ => ⟨huntagged heq, rfl⟩⟩⟩
      exact map_readContent_taggedBlocks_of_untagged (huntagged heq)
  | refusal =>
    rw [hkind] at h
    obtain rfl : blocks = if part.text = "" then [] else [.text part.text] := h
    have hweight : answerWeight (if part.text = "" then [] else [.text part.text]) =
        -(part.text.length : ℤ) := by
      split_ifs with hempty
      · rw [hempty]
        rfl
      · exact answerWeight_text _
    exact ⟨hweight.ge, fun _ => ⟨rfl, fun hcontra => by cases hcontra⟩⟩

theorem forall₂_of_answerWeight {α : Type} {gives : α → List AnswerBlock → Prop}
    (holds : α → List AnswerBlock → Prop) {f : α → List AnswerBlock}
    (hweight : ∀ x blocks, gives x blocks → answerWeight (f x) ≤ answerWeight blocks ∧
      (answerWeight blocks = answerWeight (f x) → holds x blocks))
    {xs : List α} {given : List (List AnswerBlock)} (h : List.Forall₂ gives xs given) :
    answerWeight (xs.flatMap f) ≤ answerWeight given.flatten ∧
      (answerWeight given.flatten = answerWeight (xs.flatMap f) →
        List.Forall₂ holds xs given) := by
  induction h with
  | nil => exact ⟨le_rfl, fun _ => .nil⟩
  | @cons x blocks xs given hx _ ih =>
    obtain ⟨hle, hholds⟩ := hweight x blocks hx
    obtain ⟨hle', hholds'⟩ := ih
    rw [List.flatMap_cons, List.flatten_cons, answerWeight_append, answerWeight_append]
    refine ⟨by omega, fun heq => .cons (hholds (by omega)) (hholds' (by omega))⟩

/-- The blocks of an item in the stream, as a client reads them. -/
def StreamedItem.answer (env : Env) (item : StreamedItem) : List AnswerBlock :=
  item.blocks.map (AssembledBlock.read env)

theorem StreamedItem.answer_message (env : Env) (id : String) (parts : List StreamedPart) :
    (message id parts).answer env = parts.flatMap fun part => [.text part.text] := by
  unfold StreamedItem.answer StreamedItem.blocks
  rw [List.map_map, List.map_eq_flatMap]
  rfl

theorem StreamedItem.answer_reasoning (env : Env) (id : String) (deltas : List ReasoningDelta) :
    (reasoning id deltas).answer env =
      if deltas.all (·.isSummary) then [] else [.thinking (rawReasoningText deltas)] :=
  apply_ite (List.map (AssembledBlock.read env)) ..

def AnswerBlock.IsShown : AnswerBlock → Prop
  | text s | thinking s => s ≠ ""
  | toolUse _ _ _ => True

def StreamedItem.Keeps (env : Env) (options : ResponsesToClaudeOptions) : StreamedItem → Prop
  | message _ parts => ∀ part ∈ parts, part.kind = .text →
      Untagged part.text.toList ∧ options.recognise env part.text = none
  | reasoning _ deltas => ∀ delta ∈ deltas, delta.isSummary = true → delta.text = ""
  | functionCall _ _ _ _ => True

theorem length_rawReasoningText_le (deltas : List ReasoningDelta) :
    (rawReasoningText deltas).length ≤ (reasoningDeltasText deltas).length := by
  unfold rawReasoningText reasoningDeltasText
  induction deltas with
  | nil => exact le_rfl
  | cons delta deltas ih =>
    have hdelta : delta.rawText.length ≤ delta.text.length := by
      unfold ReasoningDelta.rawText
      split_ifs <;> simp
    simp only [List.map_cons, intercalate_empty_cons, String.length_append]
    omega

theorem summaries_of_length_eq {deltas : List ReasoningDelta}
    (h : (reasoningDeltasText deltas).length = (rawReasoningText deltas).length) :
    ∀ delta ∈ deltas, delta.isSummary = true → delta.text = "" := by
  intro delta hmem hsummary
  have hle : ∀ delta ∈ deltas, delta.rawText.length ≤ delta.text.length := by
    intro delta _
    unfold ReasoningDelta.rawText
    split_ifs <;> simp
  have hlength := length_eq_of_intercalate_eq hle h delta hmem
  rw [ReasoningDelta.rawText, if_pos hsummary] at hlength
  exact String.length_eq_zero_iff.1 hlength

theorem reasoningDeltasText_of_summaries {deltas : List ReasoningDelta}
    (h : ∀ delta ∈ deltas, delta.isSummary = true → delta.text = "") :
    reasoningDeltasText deltas = rawReasoningText deltas := by
  unfold reasoningDeltasText rawReasoningText
  congr 1
  refine List.map_congr_left fun delta hmem => ?_
  unfold ReasoningDelta.rawText
  split_ifs with hsummary
  · exact h delta hmem hsummary
  · rfl

theorem rawReasoningText_of_all {deltas : List ReasoningDelta}
    (h : deltas.all (·.isSummary) = true) : rawReasoningText deltas = "" := by
  have hempty : deltas.map ReasoningDelta.rawText = deltas.map fun _ => "" := by
    refine List.map_congr_left fun delta hmem => ?_
    rw [ReasoningDelta.rawText, if_pos (List.all_eq_true.1 h delta hmem)]
  unfold rawReasoningText
  rw [hempty]
  induction deltas with
  | nil => rfl
  | cons delta deltas ih => simp_all [intercalate_empty_cons]

theorem answerWeight_reasoning (env : Env) (id : String) (deltas : List ReasoningDelta) :
    answerWeight ((StreamedItem.reasoning id deltas).answer env) =
      (rawReasoningText deltas).length := by
  rw [StreamedItem.answer_reasoning]
  split_ifs with hall
  · rw [rawReasoningText_of_all hall]
    rfl
  · exact answerWeight_thinking _

/-- **An item of a whole response weighs at least as much as in the stream**, and as much only
when it is kept. -/
theorem StreamedItem.Gives.weight {env : Env} {options : ResponsesToClaudeOptions}
    {item : StreamedItem} {blocks : List AnswerBlock} (h : item.Gives env options blocks) :
    answerWeight (item.answer env) ≤ answerWeight blocks ∧
      (answerWeight blocks = answerWeight (item.answer env) →
        item.Keeps env options ∧ ∀ block ∈ blocks, block.IsShown) := by
  cases item with
  | message id parts =>
    obtain ⟨given, hgiven, rfl⟩ := h
    rw [StreamedItem.answer_message]
    obtain ⟨hle, hforall⟩ := forall₂_of_answerWeight
      (fun part blocks => blocks = (if part.text = "" then [] else [.text part.text]) ∧
        (part.kind = .text → Untagged part.text.toList ∧ options.recognise env part.text = none))
      (fun part blocks hpart => by
        rw [answerWeight_text]
        exact hpart.weight) hgiven
    refine ⟨hle, fun heq => ?_⟩
    have hkept := hforall heq
    constructor
    · intro part hmem
      obtain ⟨blocks, -, -, hkeeps⟩ := exists_mem_of_forall₂ hkept hmem
      exact hkeeps
    · intro block hmem
      obtain ⟨blocks, hblocks, hmem⟩ := List.mem_flatten.1 hmem
      obtain ⟨part, -, hshown, -⟩ := exists_mem_of_forall₂ hkept.flip hblocks
      rw [hshown] at hmem
      split_ifs at hmem with hempty
      · cases hmem
      · rw [List.mem_singleton.1 hmem]
        exact hempty
  | reasoning id deltas =>
    obtain rfl : blocks = _ := h
    have hle := length_rawReasoningText_le deltas
    rw [answerWeight_reasoning]
    split_ifs with hempty
    · rw [hempty, String.length_empty] at hle
      rw [answerWeight_nil]
      refine ⟨by omega, fun heq => ⟨summaries_of_length_eq ?_, by simp⟩⟩
      rw [hempty, String.length_empty]
      omega
    · rw [answerWeight_thinking]
      refine ⟨by omega, fun heq => ⟨summaries_of_length_eq (by omega), fun block hmem => ?_⟩⟩
      rw [List.mem_singleton.1 hmem]
      exact hempty
  | functionCall id callId name fragments =>
    obtain rfl : blocks = _ := h
    have hanswer : answerWeight
        ((StreamedItem.functionCall id callId name fragments).answer env) = 1 :=
      answerWeight_toolUse _ _ _
    rw [hanswer, answerWeight_toolUse]
    refine ⟨le_rfl, fun _ => ⟨trivial, fun block hmem => ?_⟩⟩
    rw [List.mem_singleton.1 hmem]
    trivial

def StreamedItem.toolCall : StreamedItem → Option FoldedCall
  | functionCall _ callId name fragments => some ⟨0, callId, name, "".intercalate fragments⟩
  | _ => none

variable {options : ResponsesToClaudeOptions} (env : Env)

theorem StreamedItem.answerTools_answer (item : StreamedItem) :
    answerTools (item.answer env) = (item.toolCall.toList.map FoldedCall.read).map fun tool =>
      (tool.1, tool.2.1, readInputText env tool.2.2) := by
  cases item with
  | message id parts =>
    rw [answer_message]
    refine List.filterMap_eq_nil_iff.2 fun block hmem => ?_
    obtain ⟨part, -, hblock⟩ := List.mem_flatMap.1 hmem
    rw [List.mem_singleton.1 hblock]
    rfl
  | reasoning id deltas =>
    rw [answer_reasoning]
    split_ifs <;> rfl
  | functionCall id callId name fragments => rfl

theorem StreamedItem.Gives.answerTools {env : Env} {options : ResponsesToClaudeOptions}
    {item : StreamedItem} {blocks : List AnswerBlock} (h : item.Gives env options blocks)
    (hkeeps : item.Keeps env options) : answerTools blocks =
      (item.toolCall.toList.map FoldedCall.read).map (wholeToolUse env) := by
  cases item with
  | message id parts =>
    obtain ⟨given, hgiven, rfl⟩ := h
    refine List.filterMap_eq_nil_iff.2 fun block hmem => ?_
    obtain ⟨blocks, hblocks, hmem⟩ := List.mem_flatten.1 hmem
    obtain ⟨part, hpart, hgives⟩ := exists_mem_of_forall₂ hgiven.flip hblocks
    have hnone : AiOpenRouter.answerTools blocks = [] := by
      have hkept := hkeeps part hpart
      have hgives : part.Gives env options blocks := hgives
      unfold StreamedPart.Gives at hgives
      cases hkind : part.kind with
      | text =>
        rw [hkind] at hgives
        dsimp only at hgives
        rw [(hkept hkind).2] at hgives
        obtain rfl : blocks = _ := hgives
        exact answerTools_taggedBlocks _
      | refusal =>
        rw [hkind] at hgives
        obtain rfl : blocks = _ := hgives
        split_ifs <;> rfl
    exact List.filterMap_eq_nil_iff.1 hnone block hmem
  | reasoning id deltas =>
    obtain rfl : blocks = _ := h
    split_ifs <;> rfl
  | functionCall id callId name fragments =>
    obtain rfl : blocks = _ := h
    rfl

/-! ### Agreement -/

/-- What a client finds in the assembled message and in a whole message is the same: the blocks
in their order, the stop reason and the usage. -/
structure SaysBlocks (env : Env) (msg : AssembledMessage) (message : Json) : Prop where
  answer : msg.answer env = messageAnswer message
  stopReason : msg.stopReason = message.getStr "stop_reason"
  usage : ∀ key, msg.usage key = (message.get "usage").bind (·.get key)

theorem openaiResponsesRespToClaude_read (options : ResponsesToClaudeOptions) {r : StreamedResponse}
    (h : r.Assembles) :
    ∃ given used, List.Forall₂ (fun item blocks => item.2.Gives env options blocks) r.items given ∧
      (used = true ↔ answerTools given.flatten ≠ []) ∧
      messageAnswer (openaiResponsesRespToClaudeWithOptions env options r.object) =
        given.flatten ∧
      (openaiResponsesRespToClaudeWithOptions env options r.object).getStr "stop_reason" =
        some (responseReport r.object used).1 ∧
      (openaiResponsesRespToClaudeWithOptions env options r.object).get "usage" =
        some (responseReport r.object used).2 := by
  obtain ⟨output, houtput, hforall⟩ := h.output
  have hflag : WholeAnswer.Flagged {} := by
    simp [WholeAnswer.Flagged, WholeAnswer.answer, answerTools]
  obtain ⟨given, hgiven, hanswer, hflagged⟩ := WholeAnswer.items env options hforall hflag
  have hempty : WholeAnswer.answer {} = [] := rfl
  rw [hempty, List.nil_append] at hanswer
  unfold WholeAnswer.Flagged at hflagged
  rw [hanswer] at hflagged
  refine ⟨given, _, hgiven, hflagged, ?_, ?_, ?_⟩
  · rw [← hanswer, openaiResponsesRespToClaudeWithOptions, houtput]
    simp [messageAnswer, Json.get, Json.asArray, List.lookup_cons, WholeAnswer.answer]
  · rw [openaiResponsesRespToClaudeWithOptions, houtput]
    simp [Json.getStr, Json.get, Json.asStr, Json.asArray, List.lookup_cons, responseReport]
  · rw [openaiResponsesRespToClaudeWithOptions]
    simp [Json.get, List.lookup_cons, responseReport]

theorem StreamedPart.Gives.eq_of_isPlain {env : Env} {part : StreamedPart}
    {blocks : List AnswerBlock} (h : part.Gives env options blocks)
    (hplain : part.IsPlain env options) : blocks = [.text part.text] := by
  obtain ⟨hne, hkeeps⟩ := hplain
  unfold StreamedPart.Gives at h
  cases hkind : part.kind with
  | text =>
    obtain ⟨huntagged, hnone⟩ := hkeeps hkind
    rw [hkind] at h
    dsimp only at h
    rw [hnone] at h
    rw [show blocks = _ from h, map_readContent_taggedBlocks_of_untagged huntagged, if_neg hne]
  | refusal =>
    rw [hkind] at h
    rw [show blocks = _ from h, if_neg hne]

theorem StreamedItem.Gives.eq_of_isPlain {env : Env} (hempty : ∀ v, env.fromStr "" ≠ .ok v)
    {item : StreamedItem} {blocks : List AnswerBlock} (h : item.Gives env options blocks)
    (hplain : item.IsPlain env options) : blocks = item.answer env := by
  cases item with
  | message id parts =>
    obtain ⟨given, hgiven, rfl⟩ := h
    rw [StreamedItem.answer_message]
    exact flatten_of_forall₂ (fun part hmem blocks hgives =>
      hgives.eq_of_isPlain (hplain part hmem)) hgiven
  | reasoning id deltas =>
    obtain rfl : blocks = _ := h
    obtain ⟨hsummaries, hraw⟩ := hplain
    rw [StreamedItem.answer_reasoning, reasoningDeltasText_of_summaries hsummaries]
    by_cases hall : deltas.all (·.isSummary) = true
    · rw [if_pos hall, if_pos (rawReasoningText_of_all hall)]
    · rw [if_neg hall, if_neg (hraw hall)]
  | functionCall id callId name fragments =>
    obtain rfl : blocks = _ := h
    have harguments : ∀ call ∈ [(⟨0, callId, name, "".intercalate fragments⟩ : FoldedCall)],
        call.arguments ≠ "" → ∃ input, env.fromStr call.arguments = .ok input := by
      intro call hmem
      rw [List.mem_singleton.1 hmem]
      exact hplain
    have hsame := (toolUses_eq_iff hempty).2 harguments
    have huse : (callId, name, readInputText env ("".intercalate fragments)) =
        wholeToolUse env (callId, name, "".intercalate fragments) := by
      simpa [FoldedCall.read] using hsame
    show [AnswerBlock.toolUse _ _ _] = [.toolUse _ _ _]
    rw [← huse]

theorem answerTools_items (items : List (ℕ × StreamedItem)) :
    answerTools (items.flatMap fun item => item.2.answer env) =
      ((items.filterMap fun item => item.2.toolCall).map FoldedCall.read).map fun tool =>
        (tool.1, tool.2.1, readInputText env tool.2.2) := by
  induction items with
  | nil => rfl
  | cons item items ih =>
    rw [List.flatMap_cons, answerTools_append, ih, StreamedItem.answerTools_answer,
      filterMap_cons_eq_append, List.map_append, List.map_append]

theorem answerTools_given {env : Env} {items : List (ℕ × StreamedItem)}
    {given : List (List AnswerBlock)}
    (h : List.Forall₂ (fun item blocks => item.2.Gives env options blocks) items given)
    (hkeeps : ∀ item ∈ items, item.2.Keeps env options) :
    answerTools given.flatten =
      ((items.filterMap fun item => item.2.toolCall).map FoldedCall.read).map
        (wholeToolUse env) := by
  induction h with
  | nil => rfl
  | cons hitem _ ih =>
    rw [List.flatten_cons, answerTools_append, hitem.answerTools (hkeeps _ List.mem_cons_self),
      ih fun item hmem => hkeeps item (List.mem_cons_of_mem _ hmem), filterMap_cons_eq_append,
      List.map_append, List.map_append]

theorem StreamedItem.Keeps.isPlain {env : Env} {options : ResponsesToClaudeOptions}
    {item : StreamedItem} (h : item.Keeps env options)
    (hshown : ∀ block ∈ item.answer env, block.IsShown)
    (harguments : ∀ call ∈ item.toolCall, call.arguments ≠ "" →
      ∃ input, env.fromStr call.arguments = .ok input) : item.IsPlain env options := by
  cases item with
  | message id parts =>
    intro part hmem
    refine ⟨hshown (.text part.text) ?_, h part hmem⟩
    rw [answer_message]
    exact List.mem_flatMap.2 ⟨part, hmem, List.mem_singleton_self _⟩
  | reasoning id deltas =>
    refine ⟨h, fun hall => ?_⟩
    rw [answer_reasoning, if_neg hall] at hshown
    exact hshown _ (List.mem_singleton_self _)
  | functionCall id callId name fragments => exact harguments _ rfl

/-- **Items give the same blocks both ways exactly when they are plain.** -/
theorem flatten_eq_answer_iff {env : Env} (hempty : ∀ v, env.fromStr "" ≠ .ok v)
    {items : List (ℕ × StreamedItem)} {given : List (List AnswerBlock)}
    (h : List.Forall₂ (fun item blocks => item.2.Gives env options blocks) items given) :
    items.flatMap (fun item => item.2.answer env) = given.flatten ↔
      ∀ item ∈ items, item.2.IsPlain env options := by
  constructor
  · intro heq
    have hkept := (forall₂_of_answerWeight (fun item blocks => item.2.Keeps env options ∧
      ∀ block ∈ blocks, block.IsShown) (fun item blocks hgives => hgives.weight) h).2
      (congrArg answerWeight heq.symm)
    have hkeeps : ∀ item ∈ items, item.2.Keeps env options := by
      intro item hmem
      obtain ⟨blocks, -, hitem, -⟩ := exists_mem_of_forall₂ hkept hmem
      exact hitem
    have hshown : ∀ block ∈ given.flatten, block.IsShown := by
      intro block hmem
      obtain ⟨blocks, hblocks, hmem⟩ := List.mem_flatten.1 hmem
      obtain ⟨item, -, -, hshown⟩ := exists_mem_of_forall₂ hkept.flip hblocks
      exact hshown block hmem
    have htools := congrArg answerTools heq
    rw [answerTools_items, answerTools_given h hkeeps, toolUses_eq_iff hempty] at htools
    intro item hmem
    refine (hkeeps item hmem).isPlain (fun block hblock => ?_) fun call hcall => ?_
    · exact hshown block (heq ▸ List.mem_flatMap.2 ⟨item, hmem, hblock⟩)
    · exact htools call (List.mem_filterMap.2 ⟨item, hmem, hcall⟩)
  · intro hplain
    exact (flatten_of_forall₂ (fun item hmem blocks hgives =>
      hgives.eq_of_isPlain hempty (hplain item hmem)) h).symm

theorem hasCall_iff (items : List (ℕ × StreamedItem)) :
    (items.any fun item => item.2.isCall) = true ↔
      answerTools (items.flatMap fun item => item.2.answer env) ≠ [] := by
  rw [answerTools_items, ne_eq, List.map_eq_nil_iff, List.map_eq_nil_iff,
    List.filterMap_eq_nil_iff, List.any_eq_true]
  simp only [not_forall, exists_prop]
  refine exists_congr fun item => and_congr_right fun _ => ?_
  cases item.2 <;> simp [StreamedItem.isCall, StreamedItem.toolCall]

/-- **Streaming and not streaming agree exactly on plain responses.** -/
theorem responsesToClaude_agree_iff (env : Env) (options : ResponsesToClaudeOptions)
    (r : StreamedResponse) (h : r.Assembles) (blocks : List Bytes)
    (hblocks : r.StreamedAs env blocks) (huncounted : StartsUncounted env blocks)
    (hempty : ∀ v, env.fromStr "" ≠ .ok v) :
    SaysBlocks env (assemble (responsesToClaudeRun env blocks).out)
        (openaiResponsesRespToClaudeWithOptions env options r.object) ↔
      PlainResponse env options r := by
  obtain ⟨msg, hmsg, hcontents, hstop, husage⟩ := assemble_responsesStream h hblocks huncounted
  obtain ⟨given, used, hgiven, hused, hanswer, hstop', husage'⟩ :=
    openaiResponsesRespToClaude_read env options h
  have hmsgAnswer : msg.answer env = r.items.flatMap fun item => item.2.answer env := by
    rw [AssembledMessage.answer, hcontents, List.map_flatMap]
    rfl
  rw [hmsg]
  constructor
  · intro hsays
    have hcompletes : r.completes = true := by
      have hreason := hsays.stopReason
      rw [hstop, hstop'] at hreason
      by_contra hnot
      rw [if_neg hnot] at hreason
      cases hreason
    refine ⟨hcompletes, (flatten_eq_answer_iff hempty hgiven).1 ?_⟩
    rw [← hmsgAnswer, hsays.answer, hanswer]
  · intro hplain
    have hsame := (flatten_eq_answer_iff hempty hgiven).2 hplain.items
    have hcall : used = r.hasCall := by
      rw [Bool.eq_iff_iff, hused, StreamedResponse.hasCall, hasCall_iff env, hsame]
    refine ⟨?_, ?_, ?_⟩
    · rw [hmsgAnswer, hanswer, hsame]
    · rw [hstop, hstop', if_pos hplain.completes, hcall]
    · intro key
      rw [husage, husage', if_pos hplain.completes, hcall]
      rfl

theorem startsUncounted_render {values : List Json} {events : List ResponsesStreamEvent}
    (hnodup : (values.map Json.compact).Nodup) (hvalues : ∀ e ∈ events, e.toJson ∈ values)
    (hevents : ∀ e ∈ events, e.InRange ∧ e.toJson.printable = true) :
    StartsUncounted (Env.ofValues values) (events.map ResponsesStreamEvent.render) := by
  intro block hblock data response hread hresponse
  obtain ⟨e, hmem, rfl⟩ := List.mem_map.1 hblock
  obtain ⟨hrange, hprintable⟩ := hevents e hmem
  have hplain : Text.IsPlainLine e.toJson.compact := Json.isPlainLine_compact hprintable
  have hrender : readResponsesInput (Env.ofValues values) e.render =
      .event e.eventType e.toJson := by
    rw [readResponsesInput, ResponsesStreamEvent.render, parseSseBlock_dataBlock hplain]
    dsimp only
    rw [if_neg e.compact_ne_done, fromStr_ofValues hnodup (hvalues e hmem)]
    rfl
  rw [hrender] at hread
  obtain ⟨htype, rfl⟩ := ResponsesInput.event.inj hread
  have hcreated : ∃ id, e = .created id := by
    cases e with
    | created id => exact ⟨id, rfl⟩
    | other eventType => exact absurd (List.mem_cons.2 (Or.inl htype)) hrange
    | partDelta kind place delta => cases kind <;> simp [ResponsesStreamEvent.eventType] at htype
    | reasoningDelta place delta =>
      obtain ⟨isSummary, text⟩ := delta
      cases isSummary <;> simp [ResponsesStreamEvent.eventType] at htype
    | finished completes object =>
      cases completes <;> simp [ResponsesStreamEvent.eventType] at htype
    | _ => simp [ResponsesStreamEvent.eventType] at htype
  obtain ⟨id, rfl⟩ := hcreated
  cases hresponse
  exact Or.inl rfl

/-- The fallback is on, for one tool. -/
def bashFallback : ResponsesToClaudeOptions := ⟨true, ["Bash"]⟩

/-- The values of a response, and the arguments of its call. -/
def callResponseValues : List Json := .obj [] :: (callResponse 3 2).values

theorem responsesToClaude_agree_call :
    SaysBlocks (Env.ofValues callResponseValues)
      (assemble (responsesToClaudeRun (Env.ofValues callResponseValues)
        ((callResponse 3 2).events.map ResponsesStreamEvent.render)).out)
      (openaiResponsesRespToClaudeWithOptions (Env.ofValues callResponseValues) bashFallback
        (callResponse 3 2).object) := by
  have hnodup : (callResponseValues.map Json.compact).Nodup := by decide +kernel
  have hvalues : ∀ e ∈ (callResponse 3 2).events, e.toJson ∈ callResponseValues :=
    fun e hmem => List.mem_cons_of_mem _ (List.mem_map_of_mem hmem)
  have hevents : ∀ e ∈ (callResponse 3 2).events, e.InRange ∧ e.toJson.printable = true := by
    decide +kernel
  refine (responsesToClaude_agree_iff _ bashFallback (callResponse 3 2)
    (callResponse_assembles 3 2) _ (StreamedResponse.streamedAs_render hnodup hvalues hevents)
    (startsUncounted_render hnodup hvalues hevents)
    (fromStr_ofValues_ne_ok (by decide +kernel))).2 ⟨rfl, ?_⟩
  intro item hmem
  rcases List.mem_cons.1 hmem with rfl | hmem
  · intro part hpart
    obtain rfl := List.mem_singleton.1 hpart
    exact ⟨by decide, fun _ => ⟨by decide,
      parseTextToolCallFallback_of_plain _ _ (by decide) (by decide)⟩⟩
  · obtain rfl := List.mem_singleton.1 hmem
    intro _
    exact ⟨.obj [], fromStr_ofValues hnodup List.mem_cons_self⟩

/-- A response that reached its token limit. -/
def truncatedResponse : StreamedResponse where
  id := "resp_1"
  items := [(0, .message "msg_1" [⟨.text, ["Hel", "lo"]⟩])]
  completes := false
  object := .obj [("id", .str "resp_1"), ("status", .str "incomplete"),
    ("incomplete_details", .obj [("reason", .str "max_output_tokens")]),
    ("output", .arr [.obj [("type", .str "message"), ("id", .str "msg_1"),
      ("content", .arr [.obj [("type", .str "output_text"), ("text", .str "Hello")]])]])]

/-- The end of an incomplete response gives no stop reason. -/
theorem not_responsesToClaude_agree_incomplete :
    ∃ blocks, truncatedResponse.Assembles ∧
      truncatedResponse.StreamedAs (Env.ofValues truncatedResponse.values) blocks ∧
      StartsUncounted (Env.ofValues truncatedResponse.values) blocks ∧
      ¬ SaysBlocks (Env.ofValues truncatedResponse.values)
        (assemble (responsesToClaudeRun (Env.ofValues truncatedResponse.values) blocks).out)
        (openaiResponsesRespToClaudeWithOptions (Env.ofValues truncatedResponse.values)
          bashFallback truncatedResponse.object) := by
  have hassembles : truncatedResponse.Assembles :=
    ⟨by simp [truncatedResponse], by simp [truncatedResponse],
      _, rfl, .cons ⟨rfl, rfl, _, rfl, .cons ⟨rfl, by decide⟩ .nil⟩ .nil⟩
  have hnodup : (truncatedResponse.values.map Json.compact).Nodup := by decide +kernel
  have hvalues : ∀ e ∈ truncatedResponse.events, e.toJson ∈ truncatedResponse.values :=
    fun e hmem => List.mem_map_of_mem hmem
  have hevents : ∀ e ∈ truncatedResponse.events, e.InRange ∧ e.toJson.printable = true := by
    decide +kernel
  have hstream := StreamedResponse.streamedAs_render hnodup hvalues hevents
  have huncounted := startsUncounted_render hnodup hvalues hevents
  refine ⟨_, hassembles, hstream, huncounted, fun hsays => ?_⟩
  obtain ⟨msg, hmsg, -, hstop, -⟩ := assemble_responsesStream hassembles hstream huncounted
  obtain ⟨given, used, -, -, -, hstop', -⟩ :=
    openaiResponsesRespToClaude_read (Env.ofValues truncatedResponse.values) bashFallback hassembles
  have hreason := hsays.stopReason
  rw [hmsg, hstop, hstop'] at hreason
  cases hreason

end AiOpenRouter
