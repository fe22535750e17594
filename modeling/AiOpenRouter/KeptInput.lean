/-
What the Responses → Claude request converter keeps of the input
(`openai_responses_req_to_claude`).

The two buffers lose no item.  The converter reads less in an item than the item
says, though: it drops a part of type `text` or `input_image`, and arguments that
do not parse become an empty object.

* `entriesSaid` and `systemSaid`: what an item says, read off the item itself;
* `KeepsInput`: the messages flatten to what the items say, and the system prompt
  has what the system messages say;
* `keepsInput_iff`: the input is kept exactly when every item is `ReadWhole`.
-/
import AiOpenRouter.ResponsesRequestToClaude

namespace AiOpenRouter

/-! ### What an item says -/

/-- Whose message an item is: one of type `message`, or with a role and no type. -/
def saidBy (item : Json) : Option String :=
  match item.getStr "type" with
  | some type => if type = "message" then some ((item.getStr "role").getD "user") else none
  | none => if (item.get "role").isSome then some ((item.getStr "role").getD "user") else none

/-- What a part says: its text, or its refusal. A part of another kind has a place in the message,
and no text. -/
def partSays (part : Json) : Json :=
  match part.getStr "type" with
  | some "input_text" | some "output_text" | some "text" => (part.get "text").getD (.str "")
  | some "refusal" => (part.get "refusal").getD (.str "")
  | _ => .null

/-- What the content of a message says, part by part. -/
def contentSays : Option Json → List Json
  | some (.arr parts) => parts.map partSays
  | some content => [content]
  | none => [.str ""]

/-- The id that a call goes by. -/
def calledAs (item : Json) : String :=
  match item.get "call_id" with
  | some id => id.asStr.getD ""
  | none => (item.getStr "id").getD ""

/-- The input that a call asks for: nothing, without arguments, and a text that does not parse as
it is. -/
def argumentsSay (env : Env) : Option Json → Json
  | none | some .null => .obj []
  | some (.str text) =>
    match env.fromStr text with
    | .ok input => input
    | .error _ => .str text
  | some arguments => arguments

/-- The text of an output: another value is printed. -/
def outputSays (env : Env) : Option Json → String
  | some (.str text) => text
  | some output => env.toStr output
  | none => ""

/-- The entries of an item: a message that is no system message, a call, or an output. -/
def entriesSaid (env : Env) (item : Json) : List Entry :=
  match saidBy item with
  | some role =>
    if isSystemRole role then []
    else [.text (if role = "assistant" then "assistant" else "user")
      (contentSays (item.get "content"))]
  | none =>
    match item.getStr "type" with
    | some "function_call" =>
      [.toolUse "assistant" (calledAs item) ((item.getStr "name").getD "")
        (argumentsSay env (item.get "arguments"))]
    | some "function_call_output" =>
      [.toolResult "user" ((item.getStr "call_id").getD "") (outputSays env (item.get "output"))]
    | _ => []

/-- A text that is not empty. -/
def nonemptyText : Json → Option String
  | .str text => if text = "" then none else some text
  | _ => none

/-- The text of a system or developer message: those of its parts, one a line. -/
def systemSaid (item : Json) : Option String :=
  match saidBy item with
  | some role =>
    if isSystemRole role then
      joined "\n" ((contentSays (item.get "content")).filterMap nonemptyText)
    else none
  | none => none

/-- The instructions of a request. -/
def instructionsSaid (req : Json) : List String :=
  ((req.get "instructions").bind nonemptyText).toList

/-- **Nothing is lost, duplicated or reordered**: the messages flatten to the entries of the input,
and the system prompt is the instructions and the system texts. -/
structure KeepsInput (env : Env) (req : Json) (input : List Json) (result : Json) : Prop where
  messages : ∃ messages : List ClaudeMessage,
    result.get "messages" = some (.arr (messages.map ClaudeMessage.toJson)) ∧
      messages.flatMap flattenMessage = input.flatMap (entriesSaid env)
  system : result.get "system" =
    (joined "\n\n" (instructionsSaid req ++ input.filterMap systemSaid)).map Json.str

/-! ### What the converter reads -/

/-- A part that the converter reads. -/
def PartRead (part : Json) : Prop :=
  part.getStr "type" = some "input_text" ∨ part.getStr "type" = some "output_text" ∨
    part.getStr "type" = some "refusal" ∧ (part.getStr "refusal").isSome

/-- A part of a system message whose text it does not miss. -/
def SystemPartRead (part : Json) : Prop :=
  part.getStr "type" = some "text" → (part.getStr "text").getD "" = ""

/-- Arguments that the converter reads. -/
def ArgumentsRead (env : Env) : Option Json → Prop
  | none | some .null => True
  | some (.str text) => ∃ input, env.fromStr text = .ok input
  | some arguments => arguments = .obj []

/-- The parts of a message: none, when its content is no list. -/
def contentParts (item : Json) : List Json := ((item.get "content").bind Json.asArray).getD []

/-- An item in which the converter reads all that it says. -/
def ReadWhole (env : Env) (item : Json) : Prop :=
  match saidBy item with
  | some role =>
    if isSystemRole role then ∀ part ∈ contentParts item, SystemPartRead part
    else ∀ part ∈ contentParts item, PartRead part
  | none => item.getStr "type" = some "function_call" → ArgumentsRead env (item.get "arguments")

/-! ### One part -/

variable (part item : Json) (content : Option Json)

theorem nonemptyText_getD (key : String) :
    nonemptyText ((part.get key).getD (.str "")) = (part.getStr key).filter (· ≠ "") := by
  unfold Json.getStr
  cases part.get key with
  | none => rfl
  | some value =>
    cases value with
    | str text =>
      rw [Option.getD_some, nonemptyText, Option.bind_some, Json.asStr]
      by_cases htext : text = "" <;> simp [htext, Option.filter]
    | _ => rfl

theorem partText_eq_partSays : ∀ text ∈ partText part, text = partSays part := by
  intro text hmem
  unfold partText at hmem
  unfold partSays
  split at hmem
  · rename_i htype
    rw [htype]
    exact (Option.some.inj hmem).symm
  · rename_i htype
    rw [htype]
    exact (Option.some.inj hmem).symm
  · rename_i htype
    obtain ⟨refusal, hrefusal, rfl⟩ := Option.map_eq_some_iff.1 hmem
    obtain ⟨value, hvalue, hstr⟩ := Option.bind_eq_some_iff.1 hrefusal
    rw [htype, hvalue]
    cases value with
    | str text =>
      obtain rfl := Option.some.inj hstr
      rfl
    | _ => cases hstr
  · cases hmem

theorem isSome_partText_iff : (partText part).isSome ↔ PartRead part := by
  unfold partText PartRead
  split
  · rename_i htype
    simp [htype]
  · rename_i htype
    simp [htype]
  · rename_i htype
    simp [htype]
  · rename_i hinput houtput hrefusal
    refine iff_of_false (by simp) ?_
    rintro (h | h | h)
    · exact hinput h
    · exact houtput h
    · exact hrefusal h.1

/-- **The text of a message is read whole exactly when each of its parts is.** -/
theorem itemTexts_eq_contentSays_iff :
    itemTexts content = contentSays content ↔
      ∀ part ∈ (content.bind Json.asArray).getD [], PartRead part := by
  cases content with
  | none => exact iff_of_true rfl fun _ hmem => absurd hmem List.not_mem_nil
  | some content =>
    cases content with
    | arr parts =>
      have hiff := @filterMap_eq_map_iff _ _ parts partText partSays partText_eq_partSays
      simp only [isSome_partText_iff] at hiff
      exact hiff
    | _ => exact iff_of_true rfl fun _ hmem => absurd hmem List.not_mem_nil

theorem messagePartText_eq_iff :
    (messagePartText part = nonemptyText (partSays part) ∨
        Shorter (messagePartText part) (nonemptyText (partSays part))) ∧
      (messagePartText part = nonemptyText (partSays part) ↔ SystemPartRead part) := by
  -- the converter misses parts of type text, and reads all others as they are
  by_cases htext : part.getStr "type" = some "text"
  · have hmissed : messagePartText part = none := by
      unfold messagePartText
      rw [htext]
      rfl
    have hsays : nonemptyText (partSays part) = (part.getStr "text").filter (· ≠ "") := by
      rw [← nonemptyText_getD, partSays, htext]
      rfl
    rw [hmissed, hsays, SystemPartRead, forall_prop_of_true htext]
    cases part.getStr "text" with
    | none => exact ⟨.inl rfl, iff_of_true rfl rfl⟩
    | some text =>
      rw [Option.getD_some]
      by_cases hempty : text = ""
      · rw [hempty]
        exact ⟨.inl rfl, iff_of_true rfl rfl⟩
      · have hsome : (some text).filter (· ≠ "") = some text := by simp [Option.filter, hempty]
        rw [hsome]
        exact ⟨.inr trivial, iff_of_false (by simp) hempty⟩
  · have hread : messagePartText part = nonemptyText (partSays part) := by
      unfold messagePartText partSays
      split
      · rename_i htype
        rw [htype]
        exact (nonemptyText_getD part "text").symm
      · rename_i htype
        rw [htype]
        exact (nonemptyText_getD part "text").symm
      · rename_i htype
        rw [htype]
        exact (nonemptyText_getD part "refusal").symm
      · rename_i hinput houtput hrefusal
        split
        · exact absurd ‹_› hinput
        · exact absurd ‹_› houtput
        · exact absurd ‹_› htext
        · exact absurd ‹_› hrefusal
        · rfl
    exact ⟨.inl hread, iff_of_true hread fun h => absurd h htext⟩

/-! ### One item -/

theorem messagePartText_ne_empty : ∀ text ∈ messagePartText part, text ≠ "" := by
  intro text hmem
  unfold messagePartText at hmem
  split at hmem
  · simpa using (Option.mem_filter_iff.1 hmem).2
  · simpa using (Option.mem_filter_iff.1 hmem).2
  · simpa using (Option.mem_filter_iff.1 hmem).2
  · cases hmem

theorem filter_intercalate {sep : String} {texts : List String} (h : ∀ text ∈ texts, text ≠ "") :
    (some (sep.intercalate texts)).filter (· ≠ "") = joined sep texts := by
  unfold joined
  split_ifs with hnil
  · rw [hnil]
    rfl
  · have hne := (intercalate_eq_empty_iff sep h).not.2 hnil
    simp [Option.filter, hne]

/-- **The text of a system message** is read whole exactly when each of its parts is, and what is
read of it is shorter otherwise. -/
theorem systemText_eq_iff :
    ((some (extractOpenaiResponsesMessageText content)).filter (· ≠ "") =
          joined "\n" ((contentSays content).filterMap nonemptyText) ∨
        Shorter ((some (extractOpenaiResponsesMessageText content)).filter (· ≠ ""))
          (joined "\n" ((contentSays content).filterMap nonemptyText))) ∧
      ((some (extractOpenaiResponsesMessageText content)).filter (· ≠ "") =
          joined "\n" ((contentSays content).filterMap nonemptyText) ↔
        ∀ part ∈ (content.bind Json.asArray).getD [], SystemPartRead part) := by
  have hother : ∀ {said read : Option String} {parts : List Json}, read = said → parts = [] →
      (read = said ∨ Shorter read said) ∧ (read = said ↔ ∀ part ∈ parts, SystemPartRead part) := by
    rintro said read parts heq rfl
    exact ⟨.inl heq, iff_of_true heq fun _ hmem => absurd hmem List.not_mem_nil⟩
  cases content with
  | none => exact hother rfl rfl
  | some content =>
    cases content with
    | str text =>
      refine hother ?_ rfl
      by_cases htext : text = ""
      · rw [htext]
        rfl
      · simp [extractOpenaiResponsesMessageText, contentSays, nonemptyText, joined, htext,
          Option.filter]
    | arr parts =>
      have hsaid : (contentSays (some (.arr parts))).filterMap nonemptyText =
          parts.filterMap fun part => nonemptyText (partSays part) := List.filterMap_map
      have hread : (some (extractOpenaiResponsesMessageText (some (.arr parts)))).filter (· ≠ "") =
          joined "\n" (parts.filterMap messagePartText) := by
        refine filter_intercalate fun text hmem => ?_
        obtain ⟨part, -, hpart⟩ := List.mem_filterMap.1 hmem
        exact messagePartText_ne_empty part text hpart
      have hparts : ∀ part ∈ parts, messagePartText part = nonemptyText (partSays part) ∨
          Shorter (messagePartText part) (nonemptyText (partSays part)) :=
        fun part _ => (messagePartText_eq_iff part).1
      rw [hread, hsaid]
      refine ⟨?_, (joined_filterMap_eq_iff (by decide) hparts []).trans ?_⟩
      · refine (joined_filterMap_shorter (by decide) hparts []).imp_left fun hall => ?_
        rw [List.filterMap_congr hall]
      · exact forall₂_congr fun part _ => (messagePartText_eq_iff part).2
    | _ => exact hother rfl rfl

variable (env : Env)

theorem saidBy_eq : saidBy item = if isMessageItem item then some (itemRole item) else none := by
  unfold saidBy isMessageItem itemRole
  cases item.getStr "type" with
  | none => simp
  | some type => by_cases htype : type = "message" <;> simp [htype]

theorem calledAs_eq : calledAs item = itemCallId item := by
  unfold calledAs itemCallId
  cases item.get "call_id" <;> rfl

theorem outputSays_eq (output : Option Json) :
    outputSays env output = toolResultToString env output := by
  unfold outputSays toolResultToString
  cases output with
  | none => rfl
  | some output => cases output <;> rfl

/-- **The arguments of a call are kept exactly when the converter reads them.** -/
theorem itemInput_eq_iff (hempty : env.fromStr "\x7b\x7d" = .ok (.obj [])) :
    itemInput env item = argumentsSay env (item.get "arguments") ↔
      ArgumentsRead env (item.get "arguments") := by
  have habsent : (env.fromStr "\x7b\x7d").toOption.getD (.obj []) = .obj [] := by
    rw [hempty]
    rfl
  unfold itemInput Json.getStr
  cases item.get "arguments" with
  | none => exact iff_of_true habsent trivial
  | some arguments =>
    cases arguments with
    | null => exact iff_of_true habsent trivial
    | str text =>
      rw [Option.bind_some, Json.asStr, Option.getD_some, argumentsSay, ArgumentsRead]
      cases env.fromStr text with
      | ok input => exact iff_of_true rfl ⟨input, rfl⟩
      | error message =>
        refine iff_of_false (fun h => ?_) fun h => ?_
        · cases h
        · obtain ⟨input, hinput⟩ := h
          cases hinput
    | _ => exact (Eq.congr_left habsent).trans eq_comm

section Other

variable {item} (hmessage : ¬isMessageItem item = true)
  (hcall : item.getStr "type" ≠ some "function_call")
  (houtput : item.getStr "type" ≠ some "function_call_output")

include hmessage hcall houtput

theorem entriesOf_of_other : entriesOf env item = [] := by
  unfold entriesOf
  rw [if_neg hmessage]
  split
  · exact absurd ‹_› hcall
  · exact absurd ‹_› houtput
  · rfl

theorem entriesSaid_of_other : entriesSaid env item = [] := by
  unfold entriesSaid
  rw [saidBy_eq, if_neg hmessage]
  dsimp only
  split
  · exact absurd ‹_› hcall
  · exact absurd ‹_› houtput
  · rfl

end Other

theorem length_entriesSaid : (entriesOf env item).length = (entriesSaid env item).length := by
  by_cases hmessage : isMessageItem item = true
  · unfold entriesOf entriesSaid
    rw [saidBy_eq, if_pos hmessage, if_pos hmessage]
    dsimp only
    split_ifs <;> rfl
  by_cases hcall : item.getStr "type" = some "function_call"
  · unfold entriesOf entriesSaid
    rw [saidBy_eq, if_neg hmessage, if_neg hmessage, hcall]
    rfl
  by_cases houtput : item.getStr "type" = some "function_call_output"
  · unfold entriesOf entriesSaid
    rw [saidBy_eq, if_neg hmessage, if_neg hmessage, houtput]
    rfl
  · rw [entriesOf_of_other env hmessage hcall houtput,
      entriesSaid_of_other env hmessage hcall houtput]

/-- **What is kept of an item.** -/
theorem readWhole_iff (hempty : env.fromStr "\x7b\x7d" = .ok (.obj [])) :
    entriesOf env item = entriesSaid env item ∧ systemTextOf item = systemSaid item ↔
      ReadWhole env item := by
  unfold systemTextOf systemSaid ReadWhole
  rw [saidBy_eq]
  by_cases hmessage : isMessageItem item = true
  · unfold entriesOf entriesSaid
    rw [saidBy_eq, if_pos hmessage, if_pos hmessage]
    dsimp only
    by_cases hsystem : isSystemRole (itemRole item)
    · rw [if_pos hsystem, if_pos hsystem, if_pos hsystem, if_pos hsystem,
        if_pos ⟨hmessage, hsystem⟩, eq_self, true_and]
      exact (systemText_eq_iff (item.get "content")).2
    · have hnone : ¬(isMessageItem item = true ∧ isSystemRole (itemRole item)) :=
        fun h => hsystem h.2
      rw [if_neg hsystem, if_neg hsystem, if_neg hsystem, if_neg hsystem, if_neg hnone, eq_self,
        and_true, List.cons.injEq, Entry.text.injEq, contentParts]
      simpa using itemTexts_eq_contentSays_iff (item.get "content")
  · have hnone : ¬(isMessageItem item = true ∧ isSystemRole (itemRole item)) :=
      fun h => hmessage h.1
    rw [if_neg hmessage, if_neg hnone]
    dsimp only
    rw [eq_self, and_true]
    by_cases hcall : item.getStr "type" = some "function_call"
    · unfold entriesOf entriesSaid
      rw [saidBy_eq, if_neg hmessage, if_neg hmessage, hcall, forall_prop_of_true rfl,
        ← itemInput_eq_iff item env hempty, calledAs_eq]
      simp
    · refine iff_of_true ?_ fun h => absurd h hcall
      by_cases houtput : item.getStr "type" = some "function_call_output"
      · unfold entriesOf entriesSaid
        rw [saidBy_eq, if_neg hmessage, if_neg hmessage, houtput, outputSays_eq]
        rfl
      · rw [entriesOf_of_other env hmessage hcall houtput,
          entriesSaid_of_other env hmessage hcall houtput]

theorem systemTextOf_eq_or :
    systemTextOf item = systemSaid item ∨ Shorter (systemTextOf item) (systemSaid item) := by
  unfold systemTextOf systemSaid
  rw [saidBy_eq]
  by_cases hmessage : isMessageItem item = true
  · rw [if_pos hmessage]
    dsimp only
    by_cases hsystem : isSystemRole (itemRole item)
    · rw [if_pos ⟨hmessage, hsystem⟩, if_pos hsystem]
      exact (systemText_eq_iff (item.get "content")).1
    · rw [if_neg fun h => hsystem h.2, if_neg hsystem]
      exact .inl rfl
  · rw [if_neg hmessage, if_neg fun h => hmessage h.1]
    exact .inl rfl

/-! ### The whole input -/

theorem systemPrompt_eq (chunks : List String) :
    systemPrompt chunks = (joined "\n\n" chunks).map Json.str := by
  unfold systemPrompt joined
  split_ifs <;> rfl

theorem instructionsSaid_eq (req : Json) : instructionsSaid req = instructionChunks req := by
  unfold instructionsSaid instructionChunks Json.getStr
  cases req.get "instructions" with
  | none => rfl
  | some value =>
    cases value with
    | str text =>
      rw [Option.bind_some, Option.bind_some, nonemptyText, Json.asStr]
      by_cases htext : text = "" <;> simp [htext, Option.filter]
    | _ => rfl

theorem toJson_injective : Function.Injective ClaudeMessage.toJson := by
  rintro ⟨role, content⟩ ⟨role', content'⟩ h
  simpa [ClaudeMessage.toJson] using h

/-- **The input is kept exactly when the converter reads every item whole.** -/
theorem keepsInput_iff {env : Env} (hempty : env.fromStr "\x7b\x7d" = .ok (.obj [])) {req : Json}
    {input : List Json} (h : req.get "input" = some (.arr input)) (model : String) :
    KeepsInput env req input (openaiResponsesReqToClaude env req model) ↔
      ∀ item ∈ input, ReadWhole env item := by
  obtain ⟨messages, hmessages, hentries, hsystem⟩ :=
    conversation_openaiResponsesReqToClaude env req model input h
  have hmessagesIff : (∃ messages : List ClaudeMessage,
      (openaiResponsesReqToClaude env req model).get "messages" =
          some (.arr (messages.map ClaudeMessage.toJson)) ∧
        messages.flatMap flattenMessage = input.flatMap (entriesSaid env)) ↔
      ∀ item ∈ input, entriesOf env item = entriesSaid env item := by
    rw [← flatMap_eq_flatMap_iff fun item => length_entriesSaid item env, ← hentries]
    constructor
    · rintro ⟨others, hothers, hsaid⟩
      rw [hmessages, Option.some_inj, Json.arr.injEq] at hothers
      rw [toJson_injective.list_map hothers]
      exact hsaid
    · exact fun hsaid => ⟨messages, hmessages, hsaid⟩
  have hsystemIff : (openaiResponsesReqToClaude env req model).get "system" =
        (joined "\n\n" (instructionsSaid req ++ input.filterMap systemSaid)).map Json.str ↔
      ∀ item ∈ input, systemTextOf item = systemSaid item := by
    have hjson : Function.Injective Json.str := fun _ _ => Json.str.inj
    rw [hsystem, systemPrompt_eq, (Option.map_injective hjson).eq_iff, instructionsSaid_eq]
    exact joined_filterMap_eq_iff (by decide) (fun item _ => systemTextOf_eq_or item) _
  calc KeepsInput env req input (openaiResponsesReqToClaude env req model)
      ↔ (∀ item ∈ input, entriesOf env item = entriesSaid env item) ∧
          ∀ item ∈ input, systemTextOf item = systemSaid item := by
        rw [← hmessagesIff, ← hsystemIff]
        exact ⟨fun hkept => ⟨hkept.messages, hkept.system⟩, fun hkept => ⟨hkept.1, hkept.2⟩⟩
    _ ↔ ∀ item ∈ input, ReadWhole env item := by
        rw [← forall₂_and]
        exact forall₂_congr fun item _ => readWhole_iff item env hempty

/-- Instructions, a call with arguments, its output, and messages of the developer and the user. -/
def callAndOutput : List Json :=
  [.obj [("type", .str "function_call"), ("call_id", .str "call_a"), ("name", .str "exec"),
     ("arguments", .str "[1]")],
   .obj [("type", .str "function_call_output"), ("call_id", .str "call_a"),
     ("output", .str "ok_a")],
   .obj [("role", .str "developer"), ("content", .str "Use the tools.")],
   .obj [("type", .str "message"), ("role", .str "user"), ("content", .arr
     [.obj [("type", .str "input_text"), ("text", .str "go")],
      .obj [("type", .str "input_text"), ("text", .str "on")]])]]

theorem keepsInput_callAndOutput :
    KeepsInput (Env.ofValues [.obj [], .arr [.int 1]])
      (.obj [("instructions", .str "Be brief."), ("input", .arr callAndOutput)]) callAndOutput
      (openaiResponsesReqToClaude (Env.ofValues [.obj [], .arr [.int 1]])
        (.obj [("instructions", .str "Be brief."), ("input", .arr callAndOutput)]) "claude") := by
  refine (keepsInput_iff rfl rfl "claude").2 ?_
  have htexts : ∀ text, PartRead (.obj [("type", .str "input_text"), ("text", .str text)]) :=
    fun text => .inl rfl
  simp only [callAndOutput, List.forall_mem_cons]
  refine ⟨fun _ => ⟨_, rfl⟩, fun h => ?_, fun part hmem => ?_, ?_, fun item hmem => ?_⟩
  · exact absurd h (by decide)
  · exact absurd hmem List.not_mem_nil
  · exact List.forall_mem_cons.2 ⟨htexts "go", List.forall_mem_singleton.2 (htexts "on")⟩
  · exact absurd hmem List.not_mem_nil

/-- A user message whose only part is of type `text`. -/
def textPartInput : List Json :=
  [.obj [("type", .str "message"), ("role", .str "user"),
     ("content", .arr [.obj [("type", .str "text"), ("text", .str "hello")]])]]

/-- The text is lost: the message reaches Claude empty. -/
theorem not_keepsInput_textPart :
    (openaiResponsesReqToClaude (Env.ofValues [.obj []]) (.obj [("input", .arr textPartInput)])
        "claude").get "messages" =
        some (.arr [.obj [("role", .str "user"), ("content", .arr [])]]) ∧
      ¬ KeepsInput (Env.ofValues [.obj []]) (.obj [("input", .arr textPartInput)]) textPartInput
        (openaiResponsesReqToClaude (Env.ofValues [.obj []])
          (.obj [("input", .arr textPartInput)]) "claude") := by
  refine ⟨rfl, fun h => ?_⟩
  obtain ⟨messages, hmessages, hsaid⟩ := h.messages
  have hempty : [({ role := "user", content := .arr [] } : ClaudeMessage)].map
      ClaudeMessage.toJson =
      messages.map ClaudeMessage.toJson := Json.arr.inj (Option.some.inj hmessages)
  obtain rfl := toJson_injective.list_map hempty
  have htext : ([] : List Json) = [.str "hello"] := (Entry.text.inj (List.cons.inj hsaid).1).2
  cases htext

end AiOpenRouter
