/-
The text that a model test reports (`services/provider_service.rs`).

`extract_response_text` reads the JSON body of the upstream, or else the events of an SSE body; each
text that it finds is trimmed, and the texts of several events are joined with line feeds.

* `parseSseJsonEvents_body`: the events of an SSE body are the ones it was written with;
* `sameText_iff`: a streamed answer is reported as the plain one exactly where line feeds, and
  nothing else, stand between its deltas, and no event repeats the answer.
-/
import AiOpenRouter.JsonPrinting
import AiOpenRouter.ProviderStore
import AiOpenRouter.SseBlocks
import AiOpenRouter.SseParsers
import AiOpenRouter.TrimmedPieces

namespace AiOpenRouter

/-! ### Texts -/

/-- `clean_text`. -/
def cleanText (raw : String) : Option String :=
  if trimmed raw = "" then none else some (trimmed raw)

/-- `join_texts`. -/
def joinTexts (parts : List String) : Option String :=
  cleanText ("\n".intercalate (parts.filterMap cleanText))

/-- `extract_text_fragment`. -/
def extractTextFragment (fragment : Json) : Option String :=
  ((fragment.getStr "text").bind cleanText).or ((fragment.getStr "value").bind cleanText)

/-- `extract_message_content_text`. -/
def extractMessageContentText : Json → Option String
  | .str text => cleanText text
  | .arr parts => joinTexts (parts.filterMap extractTextFragment)
  | _ => none

def ownResponsesText (body : Json) : Option String :=
  match body.getStr "delta" with
  | some deltaText => cleanText deltaText
  | none =>
    match body.getStr "output_text" with
    | some outputText => cleanText outputText
    | none =>
      ((body.get "output").bind Json.asArray).bind fun output =>
        joinTexts ((output.filterMap fun item =>
          (item.get "content").bind Json.asArray).flatten.filterMap extractTextFragment)

mutual

/-- `extract_openai_responses_text`: the text of the field `response` comes first. -/
def extractOpenaiResponsesText : Json → Option String
  | .obj fields => (nestedResponsesText fields).or (ownResponsesText (.obj fields))
  | body => ownResponsesText body

/-- The text of the field `response`. -/
def nestedResponsesText : List (String × Json) → Option String
  | [] => none
  | (key, value) :: fields =>
    if key = "response" then extractOpenaiResponsesText value else nestedResponsesText fields

end

/-- `extract_openai_chat_text`. -/
def extractOpenaiChatText (body : Json) : Option String :=
  (((body.get "choices").bind Json.asArray).bind List.head?).bind fun choice =>
    (((choice.get "message").bind (Json.get · "content")).bind extractMessageContentText).or
      (((choice.getStr "text").bind cleanText).or
        (((choice.get "delta").bind (Json.get · "content")).bind extractMessageContentText))

/-- `extract_anthropic_text`. -/
def extractAnthropicText (body : Json) : Option String :=
  ((body.get "content").bind extractMessageContentText).or
    (((body.pointer ["delta", "text"]).bind Json.asStr).bind cleanText)

def extractText : RuleProtocol → Json → Option String
  | .openai => extractOpenaiResponsesText
  | .openaiCompletion => extractOpenaiChatText
  | .anthropic => extractAnthropicText

/-- `extract_sse_response_text`. -/
def extractSseResponseText (protocol : RuleProtocol) (events : List Json) : Option String :=
  if events.isEmpty then none else joinTexts (events.filterMap (extractText protocol))

/-- `extract_response_text`. -/
def extractResponseText (protocol : RuleProtocol) (body : Option Json) (sseEvents : List Json)
    (rawBody : String) : Option String :=
  match body.bind (extractText protocol) with
  | some text => some text
  | none =>
    match extractSseResponseText protocol sseEvents with
    | some streamedText => some streamedText
    | none => if body.isNone then cleanText rawBody else none

/-! ### Events -/

/-- The state of `parse_sse_json_events`. -/
structure SseReading where
  dataLines : List String
  events : List Json

section

variable (env : Env)

/-- `flush_sse_event_data`. -/
def flushSseEventData (reading : SseReading) : SseReading :=
  if reading.dataLines = [] then reading
  else
    let payload := trimmed ("\n".intercalate reading.dataLines)
    if payload = "" ∨ payload = "[DONE]" then { reading with dataLines := [] }
    else
      match env.fromStr payload with
      | .ok value => ⟨[], reading.events ++ [value]⟩
      | .error _ => { reading with dataLines := [] }

/-- One line of `parse_sse_json_events`. -/
def readSseLine (reading : SseReading) (rawLine : List Char) : SseReading :=
  let line := Text.trimEndMatches (· = '\r') rawLine
  match Text.stripPrefix "data:" line with
  | some data =>
    { reading with
      dataLines := reading.dataLines ++
        [String.ofList ((Text.trimStart data).dropWhile (· = '\uFEFF'))] }
  | none => if Text.trim line = [] then flushSseEventData env reading else reading

/-- `parse_sse_json_events`. -/
def parseSseJsonEvents (rawBody : String) : List Json :=
  (flushSseEventData env ((Text.lines rawBody.toList).foldl (readSseLine env) ⟨[], []⟩)).events

/-- The text that a model test reads from a body, before it is clipped. -/
def modelTestText (protocol : RuleProtocol) (rawBody : String) : Option String :=
  let parsedBody := (env.fromStr rawBody).toOption
  extractResponseText protocol parsedBody
    (if parsedBody.isNone then parseSseJsonEvents env rawBody else []) rawBody

end

/-- The function calls itself on the field `response`. -/
theorem extractOpenaiResponsesText_eq (body : Json) :
    extractOpenaiResponsesText body =
      ((body.get "response").bind extractOpenaiResponsesText).or (ownResponsesText body) := by
  cases body with
  | obj fields =>
    have hnested : nestedResponsesText fields =
        (fields.lookup "response").bind extractOpenaiResponsesText := by
      induction fields with
      | nil => rfl
      | cons field fields ih =>
        obtain ⟨key, value⟩ := field
        rw [nestedResponsesText, List.lookup_cons]
        by_cases hkey : key = "response"
        · rw [if_pos hkey, hkey, beq_self_eq_true]
          rfl
        · rw [if_neg hkey, beq_false_of_ne (Ne.symm hkey), ih]
    rw [extractOpenaiResponsesText, hnested]
    rfl
  | null | bool _ | num _ | str _ | arr _ => rfl

/-! ### What the upstream writes -/

/-- A block of an SSE body: other lines, and a line of data. -/
structure SseBlock where
  fields : List String
  payload : Option String

/-- A comment, or a field `event`, `id` or `retry`. -/
def IsFieldLine (line : String) : Prop :=
  (∃ name ∈ [":", "event:", "id:", "retry:"], name.toList <+: line.toList) ∧
    ∀ c ∈ line.toList, c ≠ '\n' ∧ c ≠ '\r'

def IsPayload (payload : String) : Prop :=
  payload = "[DONE]" ∨
    payload.toList.head? = some '\x7b' ∧ payload.toList.getLast? = some '\x7d' ∧
      ∀ c ∈ payload.toList, c ≠ '\n' ∧ c ≠ '\r'

namespace SseBlock

variable (block : SseBlock)

def lines : List (List Char) :=
  block.fields.map String.toList ++
    (block.payload.map fun payload => "data: ".toList ++ payload.toList).toList ++ [[]]

structure IsWritten : Prop where
  fields : ∀ line ∈ block.fields, IsFieldLine line
  payload : ∀ payload ∈ block.payload, IsPayload payload
  ne_blank : block.fields ≠ [] ∨ block.payload ≠ none

def event (env : Env) : Option Json :=
  block.payload.bind fun payload =>
    if payload = "[DONE]" then none else (env.fromStr payload).toOption

end SseBlock

def sseBody (eol : List Char) (blocks : List SseBlock) : String :=
  String.ofList ((blocks.flatMap SseBlock.lines).flatMap (· ++ eol))

/-! ### Reading the blocks back -/

theorem lines_append_eol {eol line rest : List Char} (heol : eol = ['\n'] ∨ eol = ['\r', '\n'])
    (h : ∀ c ∈ line, c ≠ '\n' ∧ c ≠ '\r') :
    Text.lines (line ++ eol ++ rest) = line :: Text.lines rest := by
  rcases heol with rfl | rfl
  · rw [List.append_assoc]
    exact Text.lines_append_newline h
  · induction line with
    | nil => rfl
    | cons c line ih =>
      obtain ⟨hlf, hcr⟩ := h c List.mem_cons_self
      have ih := ih fun d hd => h d (List.mem_cons_of_mem c hd)
      rw [List.cons_append, List.cons_append, Text.lines, ih]
      · exact hlf
      · rintro rest hc
        exact absurd hc hcr

theorem lines_flatMap_eol {eol : List Char} (heol : eol = ['\n'] ∨ eol = ['\r', '\n'])
    {ls : List (List Char)} (h : ∀ line ∈ ls, ∀ c ∈ line, c ≠ '\n' ∧ c ≠ '\r') :
    Text.lines (ls.flatMap (· ++ eol)) = ls := by
  induction ls with
  | nil => rfl
  | cons line ls ih =>
    rw [List.flatMap_cons, lines_append_eol heol (h line List.mem_cons_self),
      ih fun l hl => h l (List.mem_cons_of_mem line hl)]

section

variable {env : Env} {block : SseBlock}

variable {payload : String}

theorem IsPayload.noLineEnd (h : IsPayload payload) :
    ∀ c ∈ payload.toList, c ≠ '\n' ∧ c ≠ '\r' := by
  rcases h with rfl | ⟨-, -, h⟩
  · simp
  · exact h

theorem IsPayload.noEdges (h : IsPayload payload) :
    payload ≠ "" ∧ HasNoEdges payload.toList ∧ payload.toList.head? ≠ some '\uFEFF' := by
  rcases h with rfl | ⟨hfirst, hlast, -⟩
  · refine ⟨by decide, ⟨?_, ?_⟩, by decide⟩
    · intro c hc
      cases hc
      decide
    · intro c hc
      cases hc
      decide
  · refine ⟨?_, ⟨?_, ?_⟩, by rw [hfirst]; decide⟩
    · rintro rfl
      cases hfirst
    · rw [hfirst]
      rintro c hc
      cases hc
      decide
    · rw [hlast]
      rintro c hc
      cases hc
      decide

theorem trimEndMatches_cr {line : List Char} (h : ∀ c ∈ line, c ≠ '\n' ∧ c ≠ '\r') :
    Text.trimEndMatches (· = '\r') line = line := by
  cases hlast : line.getLast? with
  | none => rw [List.getLast?_eq_none_iff.1 hlast]; rfl
  | some d =>
    exact trimEndMatches_eq_self hlast (by simpa using (h d (List.mem_of_getLast? hlast)).2)

theorem trim_ne_nil {line : List Char} {c : Char} (hc : c ∈ line)
    (hblank : Text.isWhitespace c = false) : Text.trim line ≠ [] := by
  intro h
  rw [TrimmedPieces.core_eq_nil_iff.1 h c hc] at hblank
  cases hblank

theorem IsFieldLine.exists_head {line : String} (h : IsFieldLine line) :
    ∃ c ∈ line.toList.head?, c = ':' ∨ c = 'e' ∨ c = 'i' ∨ c = 'r' := by
  obtain ⟨⟨name, hname, rest, hrest⟩, -⟩ := h
  rw [← hrest]
  simp only [List.mem_cons, List.not_mem_nil, or_false] at hname
  rcases hname with rfl | rfl | rfl | rfl <;> simp

theorem readSseLine_field {line : String} (h : IsFieldLine line) (reading : SseReading) :
    readSseLine env reading line.toList = reading := by
  obtain ⟨c, hc, hhead⟩ := h.exists_head
  have hdata : Text.stripPrefix "data:" line.toList = none := by
    cases hstrip : Text.stripPrefix "data:" line.toList with
    | none => rfl
    | some data =>
      rw [stripPrefix_eq_some hstrip] at hc
      cases hc
      exact absurd hhead (by decide)
  have hblank : Text.trim line.toList ≠ [] := by
    refine trim_ne_nil (List.mem_of_head? hc) ?_
    rcases hhead with rfl | rfl | rfl | rfl <;> rfl
  simp only [readSseLine, trimEndMatches_cr h.2, hdata, if_neg hblank]

theorem readSseLine_data {payload : String} (h : IsPayload payload) (reading : SseReading) :
    readSseLine env reading ("data: ".toList ++ payload.toList) =
      { reading with dataLines := reading.dataLines ++ [payload] } := by
  obtain ⟨-, hedges, hmark⟩ := h.noEdges
  have hfield : ∀ c ∈ "data: ".toList, c ≠ '\n' ∧ c ≠ '\r' := by simp
  have hline : Text.trimEndMatches (· = '\r') ("data: ".toList ++ payload.toList) =
      "data:".toList ++ ([' '] ++ payload.toList) :=
    trimEndMatches_cr fun c hc => (List.mem_append.1 hc).elim (hfield c) (h.noLineEnd c)
  have hstart : Text.trimStart ([' '] ++ payload.toList) = payload.toList := by
    rw [Text.trimStart, List.singleton_append, List.dropWhile_cons_of_pos rfl]
    exact TrimmedPieces.dropWhile_of_head hedges.1
  have hbom : payload.toList.dropWhile (· = '\uFEFF') = payload.toList :=
    TrimmedPieces.dropWhile_of_head fun c hc => by
      rw [decide_eq_false_iff_not]
      rintro rfl
      exact hmark hc
  simp only [readSseLine, hline, Text.stripPrefix_append, hstart, hbom, String.ofList_toList]

theorem flushSseEventData_payload (h : IsPayload payload) (events : List Json) :
    flushSseEventData env ⟨[payload], events⟩ =
      ⟨[], events ++ ((SseBlock.mk [] (some payload)).event env).toList⟩ := by
  obtain ⟨hne, hedges, -⟩ := h.noEdges
  have htrim : trimmed ("\n".intercalate [payload]) = payload := by
    rw [String.intercalate_singleton, trimmed, trim_of_hasNoEdges hedges, String.ofList_toList]
  rw [flushSseEventData, if_neg (List.cons_ne_nil _ _), SseBlock.event, Option.bind_some]
  simp only [htrim]
  by_cases hdone : payload = "[DONE]"
  · rw [if_pos (.inr hdone), if_pos hdone, Option.toList_none, List.append_nil]
  · rw [if_neg (not_or.2 ⟨hne, hdone⟩), if_neg hdone]
    cases env.fromStr payload with
    | ok value => rfl
    | error message => rw [Except.toOption, Option.toList_none, List.append_nil]

theorem foldl_fields {fields : List String} (h : ∀ line ∈ fields, IsFieldLine line)
    (reading : SseReading) :
    (fields.map String.toList).foldl (readSseLine env) reading = reading := by
  induction fields with
  | nil => rfl
  | cons line fields ih =>
    rw [List.map_cons, List.foldl_cons, readSseLine_field (h line List.mem_cons_self),
      ih fun l hl => h l (List.mem_cons_of_mem line hl)]

theorem foldl_lines (hblock : block.IsWritten) (events : List Json) :
    block.lines.foldl (readSseLine env) ⟨[], events⟩ =
      ⟨[], events ++ (block.event env).toList⟩ := by
  rw [SseBlock.lines, List.foldl_append, List.foldl_append, foldl_fields hblock.fields]
  obtain ⟨fields, payload⟩ := block
  cases payload with
  | none =>
    show flushSseEventData env ⟨[], events⟩ = _
    rw [flushSseEventData, if_pos rfl, SseBlock.event, Option.bind_none, Option.toList_none,
      List.append_nil]
  | some payload =>
    have hpayload := hblock.payload payload rfl
    have hread := @readSseLine_data env payload hpayload ⟨[], events⟩
    show flushSseEventData env (readSseLine env ⟨[], events⟩ _) = _
    rw [hread]
    exact flushSseEventData_payload hpayload events

theorem noLineEnd_lines (hblock : block.IsWritten) :
    ∀ line ∈ block.lines, ∀ c ∈ line, c ≠ '\n' ∧ c ≠ '\r' := by
  intro line hline
  rw [SseBlock.lines] at hline
  rcases List.mem_append.1 hline with hline | hblank
  · rcases List.mem_append.1 hline with hfield | hdata
    · obtain ⟨field, hmem, rfl⟩ := List.mem_map.1 hfield
      exact (hblock.fields field hmem).2
    · obtain ⟨payload, hpayload, rfl⟩ := Option.map_eq_some_iff.1 (Option.mem_toList.1 hdata)
      have hfield : ∀ c ∈ "data: ".toList, c ≠ '\n' ∧ c ≠ '\r' := by simp
      exact fun c hc => (List.mem_append.1 hc).elim (hfield c)
        ((hblock.payload payload hpayload).noLineEnd c)
  · rw [List.mem_singleton.1 hblank]
    exact fun c hc => absurd hc List.not_mem_nil

theorem parseSseJsonEvents_body {eol : List Char} (heol : eol = ['\n'] ∨ eol = ['\r', '\n'])
    {blocks : List SseBlock} (h : ∀ block ∈ blocks, block.IsWritten) :
    parseSseJsonEvents env (sseBody eol blocks) = blocks.filterMap (·.event env) := by
  have hfold : ∀ (blocks : List SseBlock) (events : List Json),
      (∀ block ∈ blocks, block.IsWritten) →
      (blocks.flatMap SseBlock.lines).foldl (readSseLine env) ⟨[], events⟩ =
        ⟨[], events ++ blocks.filterMap (·.event env)⟩ := by
    intro blocks
    induction blocks with
    | nil => exact fun events _ => by rw [List.filterMap_nil, List.append_nil]; rfl
    | cons block blocks ih =>
      intro events h
      rw [List.flatMap_cons, List.foldl_append, foldl_lines (h block List.mem_cons_self),
        ih _ fun b hb => h b (List.mem_cons_of_mem block hb), List.append_assoc,
        List.filterMap_cons]
      cases block.event env <;> rfl
  have hends : ∀ line ∈ blocks.flatMap SseBlock.lines, ∀ c ∈ line, c ≠ '\n' ∧ c ≠ '\r' := by
    intro line hline
    obtain ⟨block, hblock, hline⟩ := List.mem_flatMap.1 hline
    exact noLineEnd_lines (h block hblock) line hline
  rw [parseSseJsonEvents, sseBody, String.toList_ofList, lines_flatMap_eol heol hends,
    hfold blocks [] h, flushSseEventData, if_pos rfl, List.nil_append]

end

/-! ### Answers -/

def IsPlainAnswer : RuleProtocol → Json → String → Prop
  | .openai, body, text =>
    body.get "response" = none ∧ body.getStr "delta" = none ∧ body.getStr "output_text" = none ∧
      ∃ before item part, body.get "output" = some (.arr (before ++ [item])) ∧
        (∀ other ∈ before, Json.get other "content" = none) ∧
        item.get "content" = some (.arr [part]) ∧ part.getStr "text" = some text ∧
        part.getStr "value" = none
  | .openaiCompletion, body, text =>
    ∃ choice rest message, body.get "choices" = some (.arr (choice :: rest)) ∧
      choice.get "message" = some message ∧ message.get "content" = some (.str text) ∧
      choice.getStr "text" = none ∧ choice.get "delta" = none
  | .anthropic, body, text =>
    (body.pointer ["delta", "text"]).bind Json.asStr = none ∧
      ∃ before part, body.get "content" = some (.arr (before ++ [part])) ∧
        (∀ other ∈ before, Json.getStr other "text" = none ∧ other.getStr "value" = none) ∧
        part.getStr "text" = some text ∧ part.getStr "value" = none

def IsDelta : RuleProtocol → Json → String → Prop
  | .openai, event, fragment =>
    event.get "response" = none ∧ event.getStr "delta" = some fragment
  | .openaiCompletion, event, fragment =>
    ∃ choice rest delta, event.get "choices" = some (.arr (choice :: rest)) ∧
      choice.get "message" = none ∧ choice.getStr "text" = none ∧
      choice.get "delta" = some delta ∧ delta.get "content" = some (.str fragment)
  | .anthropic, event, fragment =>
    event.get "content" = none ∧
      (event.pointer ["delta", "text"]).bind Json.asStr = some fragment

def HasNoText (body : Json) : Prop :=
  body.getStr "delta" = none ∧ body.getStr "output_text" = none ∧
    (body.get "output" = none ∨ body.get "output" = some (.arr []))

def IsSilent : RuleProtocol → Json → Prop
  | .openai, event =>
    HasNoText event ∧ ∀ response, event.get "response" = some response →
      response.get "response" = none ∧ HasNoText response
  | .openaiCompletion, event =>
    ∀ choice rest, event.get "choices" = some (.arr (choice :: rest)) →
      choice.get "message" = none ∧ choice.getStr "text" = none ∧
      ((choice.get "delta").bind (Json.get · "content") = none ∨
        (choice.get "delta").bind (Json.get · "content") = some .null)
  | .anthropic, event =>
    event.get "content" = none ∧ (event.pointer ["delta", "text"]).bind Json.asStr = none

inductive BlockRole where
  | silent
  | delta (fragment : String)
  /-- The event repeats the whole text. -/
  | whole

namespace BlockRole

def fragment : BlockRole → Option String
  | delta fragment => some fragment
  | _ => none

def readText (text : String) : BlockRole → Option String
  | silent => none
  | delta fragment => cleanText fragment
  | whole => cleanText text

def PlayedBy (protocol : RuleProtocol) (text : String) (event : Json) : BlockRole → Prop
  | silent => IsSilent protocol event
  | delta fragment => IsDelta protocol event fragment
  | whole => protocol = .openai ∧ HasNoText event ∧
      ∃ response, event.get "response" = some response ∧ IsPlainAnswer .openai response text

end BlockRole

/-- A streamed answer: blocks of an SSE body, and what each is for. The deltas together are the
text. -/
structure StreamedAnswer (env : Env) (protocol : RuleProtocol) (text : String) where
  eol : List Char
  blocks : List (SseBlock × BlockRole)
  eol_eq : eol = ['\n'] ∨ eol = ['\r', '\n']
  isWritten : ∀ block ∈ blocks, block.1.IsWritten
  /-- A block without a JSON text is silent. -/
  silent : ∀ block ∈ blocks, (block.1.payload = none ∨ block.1.payload = some "[DONE]") →
    block.2 = .silent
  played : ∀ block ∈ blocks, ∀ payload ∈ block.1.payload, payload ≠ "[DONE]" →
    ∃ event, env.fromStr payload = .ok event ∧ block.2.PlayedBy protocol text event
  joined : (blocks.filterMap (·.2.fragment)).flatMap String.toList = text.toList

/-- No JSON text starts like a line of an SSE body. -/
def Env.RejectsSseLines (env : Env) : Prop :=
  ∀ text, (∀ c ∈ text.toList.head?, c = ':' ∨ c = 'd' ∨ c = 'e' ∨ c = 'i' ∨ c = 'r') →
    (env.fromStr text).toOption = none

namespace StreamedAnswer

variable {env : Env} {protocol : RuleProtocol} {text : String}
  (answer : StreamedAnswer env protocol text)

def body : String := sseBody answer.eol (answer.blocks.map Prod.fst)

def fragments : List String := answer.blocks.filterMap (·.2.fragment)

/-- No event repeats the text. -/
def NotRepeated : Prop := ∀ block ∈ answer.blocks, block.2 ≠ .whole

/-- Line feeds, and nothing else, stand between the deltas that are not blank. -/
def LineFeedsBetween : Prop :=
  TrimmedPieces.SeparatedBy Text.isWhitespace '\n' none (answer.fragments.map String.toList)

end StreamedAnswer

/-! ### What is read from an event -/

variable {text : String} {body event : Json} {protocol : RuleProtocol}

theorem cleanText_eq_some {raw : String} (h : cleanText raw = some text) :
    trimmed text = text ∧ text ≠ "" := by
  rw [cleanText] at h
  split_ifs at h with hblank
  cases h
  exact ⟨trimmed_trimmed raw, hblank⟩

theorem cleanText_empty : cleanText "" = none := if_pos (by decide)

theorem joinTexts_nil : joinTexts [] = none := by
  rw [joinTexts, List.filterMap_nil, String.intercalate_nil, cleanText_empty]

theorem cleanText_of_trimmed (htrim : trimmed text = text) (hne : text ≠ "") :
    cleanText text = some text := by
  rw [cleanText, htrim, if_neg hne]

theorem joinTexts_toList (text : String) : joinTexts (cleanText text).toList = cleanText text := by
  cases h : cleanText text with
  | none => exact joinTexts_nil
  | some clean =>
    obtain ⟨htrim, hne⟩ := cleanText_eq_some h
    have hclean := cleanText_of_trimmed htrim hne
    rw [Option.toList_some, joinTexts, List.filterMap_cons_some hclean, List.filterMap_nil,
      String.intercalate_singleton, hclean]

theorem extractTextFragment_of_text {part : Json} (htext : part.getStr "text" = some text)
    (hvalue : part.getStr "value" = none) : extractTextFragment part = cleanText text := by
  rw [extractTextFragment, htext, hvalue, Option.bind_some, Option.bind_none, Option.or_none]

theorem ownResponsesText_of_output {output : List Json} (hdelta : body.getStr "delta" = none)
    (houtputText : body.getStr "output_text" = none)
    (houtput : body.get "output" = some (.arr output)) :
    ownResponsesText body = joinTexts ((output.filterMap fun item =>
      (item.get "content").bind Json.asArray).flatten.filterMap extractTextFragment) := by
  rw [ownResponsesText, hdelta, houtputText, houtput, Option.bind_some, Json.asArray,
    Option.bind_some]

theorem extractOpenaiChatText_cons {choice : Json} {rest : List Json}
    (h : body.get "choices" = some (.arr (choice :: rest))) :
    extractOpenaiChatText body =
      (((choice.get "message").bind (Json.get · "content")).bind extractMessageContentText).or
        (((choice.getStr "text").bind cleanText).or
          (((choice.get "delta").bind (Json.get · "content")).bind extractMessageContentText)) := by
  rw [extractOpenaiChatText, h, Option.bind_some, Json.asArray, Option.bind_some, List.head?_cons,
    Option.bind_some]

theorem extractText_plain (h : IsPlainAnswer protocol body text) :
    extractText protocol body = cleanText text := by
  cases protocol with
  | openai =>
    obtain ⟨hresponse, hdelta, houtputText, before, item, part, houtput, hbefore, hitem, htext,
      hvalue⟩ := h
    have hparts : ((before ++ [item]).filterMap fun item =>
        (item.get "content").bind Json.asArray) = [[part]] := by
      rw [List.filterMap_append, List.filterMap_eq_nil_iff.2 fun other hother => by
        rw [hbefore other hother]; rfl]
      simp [hitem, Json.asArray]
    rw [extractText, extractOpenaiResponsesText_eq, hresponse, Option.bind_none, Option.none_or,
      ownResponsesText_of_output hdelta houtputText houtput, hparts, ← joinTexts_toList text,
      ← extractTextFragment_of_text htext hvalue]
    simp only [List.flatten_cons, List.flatten_nil, List.append_nil, List.filterMap_cons,
      List.filterMap_nil]
    cases extractTextFragment part <;> rfl
  | openaiCompletion =>
    obtain ⟨choice, rest, message, hchoices, hmessage, hcontent, htext, hdelta⟩ := h
    rw [extractText, extractOpenaiChatText_cons hchoices, hmessage, Option.bind_some, hcontent,
      Option.bind_some, extractMessageContentText, htext, hdelta]
    exact Option.or_none
  | anthropic =>
    obtain ⟨hdelta, before, part, hcontent, hbefore, htext, hvalue⟩ := h
    have hparts : (before ++ [part]).filterMap extractTextFragment =
        (extractTextFragment part).toList := by
      rw [List.filterMap_append, List.filterMap_eq_nil_iff.2 fun other hother => by
        rw [extractTextFragment, (hbefore other hother).1, (hbefore other hother).2]; rfl]
      cases h : extractTextFragment part <;> simp [h]
    rw [extractText, extractAnthropicText, hdelta, hcontent, Option.bind_some, Option.bind_none,
      Option.or_none, extractMessageContentText, hparts, extractTextFragment_of_text htext hvalue,
      joinTexts_toList]

theorem ownResponsesText_of_hasNoText (h : HasNoText body) : ownResponsesText body = none := by
  obtain ⟨hdelta, houtputText, houtput⟩ := h
  rw [ownResponsesText, hdelta, houtputText]
  rcases houtput with houtput | houtput
  · rw [houtput]
    rfl
  · rw [houtput]
    exact joinTexts_nil

theorem extractText_silent (h : IsSilent protocol event) : extractText protocol event = none := by
  cases protocol with
  | openai =>
    obtain ⟨hown, hnested⟩ := h
    rw [extractText, extractOpenaiResponsesText_eq, ownResponsesText_of_hasNoText hown,
      Option.or_none]
    cases hresponse : event.get "response" with
    | none => rfl
    | some response =>
      obtain ⟨hinner, hown⟩ := hnested response hresponse
      rw [Option.bind_some, extractOpenaiResponsesText_eq, hinner, Option.bind_none,
        Option.none_or, ownResponsesText_of_hasNoText hown]
  | openaiCompletion =>
    rw [extractText, extractOpenaiChatText]
    -- only the first choice is asked
    have hchoice : ∀ choice, (((event.get "choices").bind Json.asArray).bind List.head?) =
        some choice → choice.get "message" = none ∧ choice.getStr "text" = none ∧
          ((choice.get "delta").bind (Json.get · "content") = none ∨
            (choice.get "delta").bind (Json.get · "content") = some .null) := by
      intro choice hchoice
      obtain ⟨choices, hchoices, hhead⟩ := Option.bind_eq_some_iff.1 hchoice
      obtain ⟨value, hvalue, harray⟩ := Option.bind_eq_some_iff.1 hchoices
      cases value with
      | arr items =>
        obtain rfl := Option.some.inj harray
        cases items with
        | nil => cases hhead
        | cons first rest =>
          obtain rfl := Option.some.inj hhead
          exact h first rest hvalue
      | _ => cases harray
    cases hfirst : ((event.get "choices").bind Json.asArray).bind List.head? with
    | none => rfl
    | some choice =>
      obtain ⟨hmessage, htext, hcontent⟩ := hchoice choice hfirst
      rw [Option.bind_some, hmessage, htext]
      rcases hcontent with hcontent | hcontent <;> rw [hcontent] <;> rfl
  | anthropic =>
    rw [extractText, extractAnthropicText, h.1, h.2]
    rfl

theorem extractText_delta {fragment : String} (h : IsDelta protocol event fragment) :
    extractText protocol event = cleanText fragment := by
  cases protocol with
  | openai =>
    rw [extractText, extractOpenaiResponsesText_eq, h.1, Option.bind_none, Option.none_or,
      ownResponsesText, h.2]
  | openaiCompletion =>
    obtain ⟨choice, rest, delta, hchoices, hmessage, htext, hdelta, hcontent⟩ := h
    rw [extractText, extractOpenaiChatText_cons hchoices, hmessage, htext, hdelta,
      Option.bind_some, hcontent, Option.bind_some, extractMessageContentText]
    simp only [Option.bind_none, Option.none_or]
  | anthropic =>
    rw [extractText, extractAnthropicText, h.1, h.2, Option.bind_none, Option.none_or,
      Option.bind_some]

theorem extractText_role {role : BlockRole} (h : role.PlayedBy protocol text event) :
    extractText protocol event = role.readText text := by
  cases role with
  | silent => exact extractText_silent h
  | delta fragment => exact extractText_delta h
  | whole =>
    obtain ⟨rfl, hown, response, hresponse, hplain⟩ := h
    have hinner : extractOpenaiResponsesText response = cleanText text := extractText_plain hplain
    rw [extractText, extractOpenaiResponsesText_eq, hresponse, Option.bind_some, hinner,
      ownResponsesText_of_hasNoText hown, Option.or_none]
    rfl

/-! ### The two answers -/

theorem extractResponseText_plain (h : IsPlainAnswer protocol body text) (rawBody : String) :
    extractResponseText protocol (some body) [] rawBody = cleanText text := by
  rw [extractResponseText, Option.bind_some, extractText_plain h]
  cases cleanText text <;> rfl

theorem modelTestText_plain {env : Env} {plain : String} (hplain : env.fromStr plain = .ok body)
    (hbody : IsPlainAnswer protocol body text) :
    modelTestText env protocol plain = cleanText text := by
  rw [modelTestText, hplain]
  exact extractResponseText_plain hbody plain

theorem extractResponseText_events (protocol : RuleProtocol) (events : List Json)
    (rawBody : String) : extractResponseText protocol none events rawBody =
      (joinTexts (events.filterMap (extractText protocol))).or (cleanText rawBody) := by
  have hsse : extractSseResponseText protocol events =
      joinTexts (events.filterMap (extractText protocol)) := by
    cases events with
    | nil => exact joinTexts_nil.symm
    | cons event events => exact if_neg (by simp)
  rw [extractResponseText, Option.bind_none, hsse]
  cases joinTexts (events.filterMap (extractText protocol)) with
  | none => exact (if_pos rfl).trans Option.none_or.symm
  | some text => exact Option.some_or.symm

theorem exists_head_sseBody {eol : List Char} {block : SseBlock} (hblock : block.IsWritten)
    (blocks : List SseBlock) : ∃ c, (sseBody eol (block :: blocks)).toList.head? = some c ∧
      (c = ':' ∨ c = 'd' ∨ c = 'e' ∨ c = 'i' ∨ c = 'r') := by
  obtain ⟨fields, payload⟩ := block
  rw [sseBody, String.toList_ofList]
  cases fields with
  | cons line fields =>
    obtain ⟨c, hc, hhead⟩ := (hblock.fields line List.mem_cons_self).exists_head
    obtain ⟨rest, hrest⟩ := List.head?_eq_some_iff.1 hc
    refine ⟨c, ?_, ?_⟩
    · rw [List.flatMap_cons, List.flatMap_append, SseBlock.lines]
      simp only [List.map_cons, List.cons_append, List.flatMap_cons, hrest]
      rfl
    · rcases hhead with h | h | h | h <;> simp [h]
  | nil =>
    cases payload with
    | none => exact absurd rfl (hblock.ne_blank.resolve_left (not_not.2 rfl))
    | some payload => exact ⟨'d', rfl, .inr (.inl rfl)⟩

namespace StreamedAnswer

variable {env : Env} {protocol : RuleProtocol} {text : String}
  (answer : StreamedAnswer env protocol text)

theorem head_body : ∀ c ∈ answer.body.toList.head?,
    c = ':' ∨ c = 'd' ∨ c = 'e' ∨ c = 'i' ∨ c = 'r' := by
  intro c hc
  cases hblocks : answer.blocks with
  | nil =>
    rw [body, hblocks] at hc
    cases hc
  | cons block blocks =>
    obtain ⟨d, hd, hhead⟩ := @exists_head_sseBody answer.eol block.1
      (answer.isWritten block (hblocks ▸ List.mem_cons_self)) (blocks.map Prod.fst)
    rw [body, hblocks, List.map_cons, Option.mem_def, hd] at hc
    cases hc
    exact hhead

theorem cleanText_body_eq_none_iff : cleanText answer.body = none ↔ answer.blocks = [] := by
  constructor
  · intro hnone
    cases hblocks : answer.blocks with
    | nil => rfl
    | cons block blocks =>
      obtain ⟨c, hc, hhead⟩ := @exists_head_sseBody answer.eol block.1
        (answer.isWritten block (hblocks ▸ List.mem_cons_self)) (blocks.map Prod.fst)
      have hblank : Text.isWhitespace c = false := by
        rcases hhead with rfl | rfl | rfl | rfl | rfl <;> rfl
      have htrim : Text.trim answer.body.toList ≠ [] := by
        rw [body, hblocks]
        exact trim_ne_nil (List.mem_of_head? hc) hblank
      rw [cleanText, if_neg] at hnone
      · cases hnone
      · exact fun hempty => htrim (by simpa [trimmed] using hempty)
  · intro hblocks
    have hbody : answer.body = "" := by
      rw [body, hblocks]
      rfl
    rw [hbody, cleanText_empty]

def readTexts : List String := answer.blocks.filterMap (·.2.readText text)

theorem filterMap_events :
    (((answer.blocks.map Prod.fst).filterMap (·.event env)).filterMap (extractText protocol)) =
      answer.readTexts := by
  rw [List.filterMap_filterMap, List.filterMap_map, readTexts]
  refine List.filterMap_congr fun block hblock => ?_
  show (block.1.event env).bind (extractText protocol) = block.2.readText text
  cases hpayload : block.1.payload with
  | none =>
    rw [SseBlock.event, hpayload, answer.silent block hblock (.inl hpayload)]
    rfl
  | some payload =>
    by_cases hdone : payload = "[DONE]"
    · rw [SseBlock.event, hpayload, Option.bind_some, if_pos hdone,
        answer.silent block hblock (.inr (hdone ▸ hpayload))]
      rfl
    · obtain ⟨event, hevent, hplayed⟩ := answer.played block hblock payload hpayload hdone
      rw [SseBlock.event, hpayload, Option.bind_some, if_neg hdone, hevent]
      exact extractText_role hplayed

theorem modelTestText_body (hreads : env.RejectsSseLines) :
    modelTestText env protocol answer.body =
      (joinTexts answer.readTexts).or (cleanText answer.body) := by
  have hwritten : ∀ block ∈ answer.blocks.map Prod.fst, block.IsWritten := by
    intro block hblock
    obtain ⟨pair, hpair, rfl⟩ := List.mem_map.1 hblock
    exact answer.isWritten pair hpair
  rw [modelTestText, hreads answer.body answer.head_body]
  show extractResponseText protocol none (parseSseJsonEvents env answer.body) answer.body = _
  rw [extractResponseText_events, body, parseSseJsonEvents_body answer.eol_eq hwritten,
    filterMap_events]

end StreamedAnswer

/-! ### Joined texts -/

theorem toList_filterMap_cleanText (texts : List String) :
    (texts.filterMap cleanText).map String.toList =
      TrimmedPieces.cores Text.isWhitespace (texts.map String.toList) := by
  induction texts with
  | nil => rfl
  | cons text texts ih =>
    have htrim : (trimmed text).toList = TrimmedPieces.core Text.isWhitespace text.toList :=
      String.toList_ofList
    rw [List.map_cons, List.filterMap_cons, cleanText]
    by_cases hblank : trimmed text = ""
    · have hcore : TrimmedPieces.core Text.isWhitespace text.toList = [] := by
        rw [← htrim, hblank]
        rfl
      rw [if_pos hblank, TrimmedPieces.cores_cons_of_nil hcore, ← ih]
    · have hcore : TrimmedPieces.core Text.isWhitespace text.toList ≠ [] := fun hnil =>
        hblank (by rw [← String.toList_inj, htrim, hnil]; rfl)
      rw [if_neg hblank, TrimmedPieces.cores_cons_of_ne_nil hcore, ← ih, ← htrim]
      rfl

theorem joinTexts_of_trimmed {texts : List String}
    (h : ∀ text ∈ texts, trimmed text = text ∧ text ≠ "") (hne : texts ≠ []) :
    joinTexts texts = some ("\n".intercalate texts) := by
  have hclean : texts.filterMap cleanText = texts := by
    rw [List.filterMap_congr fun text htext =>
      cleanText_of_trimmed (h text htext).1 (h text htext).2, List.filterMap_some]
  have hcores := toList_filterMap_cleanText texts
  rw [hclean] at hcores
  have hedges : TrimmedPieces.NoEdges Text.isWhitespace ("\n".intercalate texts).toList := by
    rw [String.toList_intercalate, hcores]
    exact TrimmedPieces.noEdges_intercalate '\n' fun s hs => TrimmedPieces.noEdges_of_mem_cores hs
  have htrim : trimmed ("\n".intercalate texts) = "\n".intercalate texts := by
    rw [← String.toList_inj, trimmed, String.toList_ofList]
    exact TrimmedPieces.core_eq_self hedges
  obtain ⟨text, texts, rfl⟩ := List.exists_cons_of_ne_nil hne
  have hjoined : "\n".intercalate (text :: texts) ≠ "" := by
    intro hempty
    have htext := (h text List.mem_cons_self).2
    rw [← String.toList_inj, String.toList_intercalate, List.map_cons] at hempty
    have hnil := (TrimmedPieces.intercalate_cons_eq '\n' text.toList _).symm.trans hempty
    exact htext (String.toList_inj.1 (List.append_eq_nil_iff.1 hnil).1)
  rw [joinTexts, hclean, cleanText_of_trimmed htrim hjoined]

namespace StreamedAnswer

variable {env : Env} {protocol : RuleProtocol} {text : String}
  (answer : StreamedAnswer env protocol text)

theorem trimmed_of_mem_readTexts {read : String} (h : read ∈ answer.readTexts) :
    trimmed read = read ∧ read ≠ "" := by
  obtain ⟨block, -, hread⟩ := List.mem_filterMap.1 h
  cases hrole : block.2 with
  | silent => rw [hrole] at hread; cases hread
  | delta fragment => rw [hrole] at hread; exact cleanText_eq_some hread
  | whole => rw [hrole] at hread; exact cleanText_eq_some hread

theorem flatten_fragments : (answer.fragments.map String.toList).flatten = text.toList := by
  rw [← List.flatMap_def]
  exact answer.joined

theorem readTexts_of_notRepeated (h : answer.NotRepeated) :
    answer.readTexts = answer.fragments.filterMap cleanText := by
  rw [readTexts, fragments, List.filterMap_filterMap]
  refine List.filterMap_congr fun block hblock => ?_
  cases hrole : block.2 with
  | silent => exact (Option.bind_none _).symm
  | delta fragment => exact (Option.bind_some ..).symm
  | whole => exact absurd hrole (h block hblock)

theorem readTexts_eq_nil (hempty : text = "") : answer.readTexts = [] := by
  refine List.filterMap_eq_nil_iff.2 fun block hblock => ?_
  cases hrole : block.2 with
  | silent => rfl
  | whole =>
    rw [hempty]
    exact cleanText_empty
  | delta fragment =>
    have hmem : fragment ∈ answer.fragments :=
      List.mem_filterMap.2 ⟨block, hblock, by rw [hrole]; rfl⟩
    have htext : text.toList = [] := by rw [hempty]; rfl
    have hjoined := List.flatMap_eq_nil_iff.1 (answer.joined.trans htext)
    rw [String.toList_inj.1 ((hjoined fragment hmem).trans String.toList_empty.symm)]
    exact cleanText_empty

theorem exists_delta (htrim : trimmed text = text) (hne : text ≠ "") :
    ∃ block ∈ answer.blocks, ∃ fragment, block.2 = .delta fragment ∧ cleanText fragment ≠ none := by
  have hcore : TrimmedPieces.core Text.isWhitespace text.toList ≠ [] := by
    intro hnil
    refine hne (htrim.symm.trans ?_)
    rw [trimmed, show Text.trim text.toList = [] from hnil]
  obtain ⟨c, hc, hblank⟩ : ∃ c ∈ text.toList, Text.isWhitespace c = false := by
    by_contra hnone
    refine hcore (TrimmedPieces.core_eq_nil_iff.2 fun c hc => ?_)
    by_contra hblank
    exact hnone ⟨c, hc, Bool.eq_false_iff.2 hblank⟩
  rw [← answer.joined] at hc
  obtain ⟨fragment, hfragment, hc⟩ := List.mem_flatMap.1 hc
  obtain ⟨block, hblock, hrole⟩ := List.mem_filterMap.1 hfragment
  refine ⟨block, hblock, fragment, ?_, fun hclean => ?_⟩
  · cases hplayed : block.2 with
    | silent => rw [hplayed] at hrole; cases hrole
    | delta fragment => rw [hplayed] at hrole; rw [← Option.some.inj hrole]
    | whole => rw [hplayed] at hrole; cases hrole
  · rw [cleanText] at hclean
    split_ifs at hclean with hempty
    exact trim_ne_nil hc hblank (by simpa [trimmed] using hempty)

theorem one_lt_length_readTexts (htrim : trimmed text = text) (hne : text ≠ "")
    (h : ¬answer.NotRepeated) : text ∈ answer.readTexts ∧ 1 < answer.readTexts.length := by
  obtain ⟨repeated, hrepeated, hwhole⟩ : ∃ block ∈ answer.blocks, block.2 = .whole := by
    by_contra hnone
    exact h fun block hblock hwhole => hnone ⟨block, hblock, hwhole⟩
  obtain ⟨block, hblock, fragment, hdelta, hclean⟩ := answer.exists_delta htrim hne
  obtain ⟨clean, hclean⟩ := Option.ne_none_iff_exists'.1 hclean
  have hread : repeated.2.readText text = some text := by
    rw [hwhole]
    exact cleanText_of_trimmed htrim hne
  have hread' : block.2.readText text = some clean := by
    rw [hdelta]
    exact hclean
  refine ⟨List.mem_filterMap.2 ⟨repeated, hrepeated, hread⟩, ?_⟩
  obtain ⟨before, behind, hsplit⟩ := List.append_of_mem hrepeated
  have hother : block ∈ before ∨ block ∈ behind := by
    rw [hsplit] at hblock
    rcases List.mem_append.1 hblock with hmem | hmem
    · exact .inl hmem
    · refine .inr ((List.mem_cons.1 hmem).resolve_left ?_)
      rintro rfl
      rw [hwhole] at hdelta
      cases hdelta
  have hlength : ∀ {blocks : List (SseBlock × BlockRole)}, block ∈ blocks →
      0 < (blocks.filterMap (·.2.readText text)).length := fun hmem =>
    List.length_pos_of_mem (List.mem_filterMap.2 ⟨block, hmem, hread'⟩)
  have hbehind : (repeated :: behind).filterMap (·.2.readText text) =
      text :: behind.filterMap (·.2.readText text) := List.filterMap_cons_some hread
  rw [readTexts, hsplit, List.filterMap_append, hbehind, List.length_append, List.length_cons]
  rcases hother with hmem | hmem
  · have := hlength hmem
    omega
  · have := hlength hmem
    omega

theorem readTexts_ne_nil (htrim : trimmed text = text) (hne : text ≠ "") :
    answer.readTexts ≠ [] := by
  obtain ⟨block, hblock, fragment, hdelta, hclean⟩ := answer.exists_delta htrim hne
  obtain ⟨clean, hclean⟩ := Option.ne_none_iff_exists'.1 hclean
  have hmem : clean ∈ answer.readTexts :=
    List.mem_filterMap.2 ⟨block, hblock, by rw [hdelta]; exact hclean⟩
  exact List.ne_nil_of_mem hmem

theorem toList_readTexts_joined (h : answer.NotRepeated) :
    ("\n".intercalate answer.readTexts).toList = ['\n'].intercalate
      (TrimmedPieces.cores Text.isWhitespace (answer.fragments.map String.toList)) := by
  rw [String.toList_intercalate, answer.readTexts_of_notRepeated h, toList_filterMap_cleanText]
  rfl

theorem joined_eq_iff (htrim : trimmed text = text) (hne : text ≠ "") :
    "\n".intercalate answer.readTexts = text ↔ answer.NotRepeated ∧ answer.LineFeedsBetween := by
  by_cases hrepeated : answer.NotRepeated
  · have hedges : TrimmedPieces.NoEdges Text.isWhitespace text.toList := by
      rw [← htrim, trimmed, String.toList_ofList]
      exact TrimmedPieces.noEdges_core text.toList
    have hflatten := answer.flatten_fragments
    have hiff := @TrimmedPieces.intercalate_cores_iff _ Text.isWhitespace '\n' rfl
      (answer.fragments.map String.toList)
      (by rw [hflatten]; exact fun hnil => hne (String.toList_inj.1 hnil)) (hflatten ▸ hedges)
    rw [← String.toList_inj, answer.toList_readTexts_joined hrepeated, ← hflatten, hiff]
    exact ⟨fun h => ⟨hrepeated, h⟩, fun h => h.2⟩
  · refine iff_of_false (fun hsame => ?_) fun h => hrepeated h.1
    obtain ⟨hmem, hlength⟩ := answer.one_lt_length_readTexts htrim hne hrepeated
    have hlt := TrimmedPieces.length_lt_intercalate '\n'
      (List.mem_map_of_mem (f := String.toList) hmem) (by rw [List.length_map]; exact hlength)
    have hjoined : ['\n'].intercalate (answer.readTexts.map String.toList) = text.toList :=
      String.toList_intercalate.symm.trans (congrArg String.toList hsame)
    rw [hjoined] at hlt
    exact absurd hlt (Nat.lt_irrefl _)

/-- **A streamed and a plain answer.** -/
theorem sameText_iff (hreads : env.RejectsSseLines) (htrim : trimmed text = text) {plain : String}
    {body : Json} (hplain : env.fromStr plain = .ok body)
    (hbody : IsPlainAnswer protocol body text) :
    modelTestText env protocol answer.body = modelTestText env protocol plain ↔
      (text ≠ "" ∧ answer.NotRepeated ∧ answer.LineFeedsBetween) ∨
        (text = "" ∧ answer.blocks = []) := by
  rw [answer.modelTestText_body hreads, modelTestText_plain hplain hbody]
  by_cases hempty : text = ""
  · have hclean : cleanText text = none := by rw [hempty, cleanText_empty]
    have hnone := answer.readTexts_eq_nil hempty
    rw [hnone, hclean, joinTexts_nil, Option.none_or, answer.cleanText_body_eq_none_iff]
    exact ⟨fun h => .inr ⟨hempty, h⟩, fun h => (h.resolve_left fun h => h.1 hempty).2⟩
  · rw [joinTexts_of_trimmed (fun read hread => answer.trimmed_of_mem_readTexts hread)
      (answer.readTexts_ne_nil htrim hempty), Option.some_or, cleanText_of_trimmed htrim hempty,
      Option.some_inj, answer.joined_eq_iff htrim hempty]
    exact ⟨fun h => .inl ⟨hempty, h⟩, fun h => (h.resolve_right fun h => hempty h.1).2⟩

end StreamedAnswer

/-! ### Two words in two chunks -/

def chatChunk (fragment : String) : Json :=
  .obj [("choices", .arr [.obj [("delta", .obj [("content", .str fragment)])]])]

/-- A chat completion with the answer. -/
def plainCompletion (text : String) : Json :=
  .obj [("choices", .arr [.obj [("message", .obj [("content", .str text)])]])]

/-- The answers on one line and on two, and the pieces that they are sent in. -/
def wordValues : List Json :=
  [plainCompletion "Hello world", chatChunk "Hello", chatChunk " world",
    plainCompletion "Hello\nworld", chatChunk "Hello\n", chatChunk "world"]

/-- The environment that reads these payloads. -/
def wordsEnv : Env := Env.ofValues wordValues

theorem wordsEnv_rejectsSseLines : wordsEnv.RejectsSseLines := by
  intro text hhead
  cases hread : wordsEnv.fromStr text with
  | error message => rfl
  | ok value =>
    obtain ⟨hvalue, rfl⟩ := compact_of_fromStr_ofValues hread
    have hbrace : ∀ value ∈ wordValues, value.compact.toList.head? = some '\x7b' := by
      decide +kernel
    exact absurd (hhead _ (hbrace value hvalue)) (by decide)

theorem wordsEnv_reads {value : Json} (h : value ∈ wordValues) :
    wordsEnv.fromStr value.compact = .ok value :=
  fromStr_ofValues (by decide +kernel) h

theorem isDelta_chatChunk (fragment : String) :
    IsDelta .openaiCompletion (chatChunk fragment) fragment :=
  ⟨_, [], _, rfl, rfl, rfl, rfl, rfl⟩

theorem isPlainAnswer_completion (text : String) :
    IsPlainAnswer .openaiCompletion (plainCompletion text) text :=
  ⟨_, [], _, rfl, rfl, rfl, rfl, rfl⟩

instance (payload : String) : Decidable (IsPayload payload) :=
  @instDecidableOr _ _ _ (@instDecidableAnd _ _ _ (@instDecidableAnd _ _ _
    (List.decidableBAll _ payload.toList)))

theorem isWritten_payload {payload : String} (h : IsPayload payload) :
    (SseBlock.mk [] (some payload)).IsWritten where
  fields := fun line hline => absurd hline List.not_mem_nil
  payload := fun other hother => Option.some.inj hother ▸ h
  ne_blank := .inr (by simp)

def inChunks {text : String} (fragments : List String)
    (hread : ∀ fragment ∈ fragments, chatChunk fragment ∈ wordValues)
    (hpayload : ∀ fragment ∈ fragments, IsPayload (chatChunk fragment).compact ∧
      (chatChunk fragment).compact ≠ "[DONE]")
    (hjoined : fragments.flatMap String.toList = text.toList) :
    StreamedAnswer wordsEnv .openaiCompletion text where
  eol := ['\n']
  blocks := fragments.map (fun fragment =>
    (⟨[], some (chatChunk fragment).compact⟩, .delta fragment)) ++ [(⟨[], some "[DONE]"⟩, .silent)]
  eol_eq := .inl rfl
  isWritten := by
    intro block hblock
    rcases List.mem_append.1 hblock with hblock | hblock
    · obtain ⟨fragment, hfragment, rfl⟩ := List.mem_map.1 hblock
      exact isWritten_payload (hpayload fragment hfragment).1
    · rw [List.mem_singleton.1 hblock]
      exact isWritten_payload (.inl rfl)
  silent := by
    intro block hblock hsilent
    rcases List.mem_append.1 hblock with hblock | hblock
    · obtain ⟨fragment, hfragment, rfl⟩ := List.mem_map.1 hblock
      rcases hsilent with hnone | hdone
      · cases hnone
      · exact absurd (Option.some.inj hdone) (hpayload fragment hfragment).2
    · rw [List.mem_singleton.1 hblock]
  played := by
    intro block hblock payload hmem hdone
    rcases List.mem_append.1 hblock with hblock | hblock
    · obtain ⟨fragment, hfragment, rfl⟩ := List.mem_map.1 hblock
      obtain rfl := Option.some.inj hmem
      exact ⟨_, wordsEnv_reads (hread fragment hfragment), isDelta_chatChunk fragment⟩
    · rw [List.mem_singleton.1 hblock] at hmem
      exact absurd (Option.some.inj hmem).symm hdone
  joined := by
    have hfragments : (fragments.map fun fragment =>
        ((⟨[], some (chatChunk fragment).compact⟩ : SseBlock), BlockRole.delta fragment)).filterMap
          (·.2.fragment) = fragments := by
      rw [List.filterMap_map]
      exact List.filterMap_some
    rw [List.filterMap_append, hfragments]
    exact (List.flatMap_append ..).trans ((List.append_nil _).trans hjoined)

def inTwoChunks : StreamedAnswer wordsEnv .openaiCompletion "Hello world" :=
  inChunks ["Hello", " world"] (by simp [wordValues]) (List.forall_mem_cons.2 ⟨by decide +kernel,
    List.forall_mem_singleton.2 (by decide +kernel)⟩) (by simp)

def onTwoLines : StreamedAnswer wordsEnv .openaiCompletion "Hello\nworld" :=
  inChunks ["Hello\n", "world"] (by simp [wordValues]) (List.forall_mem_cons.2 ⟨by decide +kernel,
    List.forall_mem_singleton.2 (by decide +kernel)⟩) (by simp)

/-- Two words on two lines are reported as they are. -/
theorem words_on_two_lines :
    modelTestText wordsEnv .openaiCompletion onTwoLines.body =
      modelTestText wordsEnv .openaiCompletion (plainCompletion "Hello\nworld").compact := by
  refine (onTwoLines.sameText_iff wordsEnv_rejectsSseLines (by decide +kernel)
    (wordsEnv_reads (by simp [wordValues])) (isPlainAnswer_completion "Hello\nworld")).2
    (.inl ⟨by decide, ?_, ?_⟩)
  · intro block hblock
    rcases List.mem_cons.1 (show block ∈ _ :: _ :: _ from hblock) with rfl | hblock
    · rintro ⟨⟩
    · rcases List.mem_cons.1 hblock with rfl | hblock
      · rintro ⟨⟩
      · rw [List.mem_singleton.1 hblock]
        rintro ⟨⟩
  · have hhello : TrimmedPieces.core Text.isWhitespace "Hello\n".toList ≠ [] := by decide +kernel
    have hworld : TrimmedPieces.core Text.isWhitespace "world".toList ≠ [] := by decide +kernel
    show TrimmedPieces.SeparatedBy Text.isWhitespace '\n' none ["Hello\n".toList, "world".toList]
    rw [TrimmedPieces.SeparatedBy, if_neg hhello, TrimmedPieces.SeparatedBy, if_neg hworld]
    refine ⟨fun gap hgap => absurd hgap (Option.not_mem_none gap), fun gap hgap => ?_, trivial⟩
    obtain rfl := Option.some.inj hgap
    decide +kernel

/-- On one line, but in two chunks, they are reported on two. -/
theorem words_in_two_chunks :
    trimmed "Hello world" = "Hello world" ∧
      IsPlainAnswer .openaiCompletion (plainCompletion "Hello world") "Hello world" ∧
      modelTestText wordsEnv .openaiCompletion inTwoChunks.body = some "Hello\nworld" ∧
      modelTestText wordsEnv .openaiCompletion (plainCompletion "Hello world").compact =
        some "Hello world" := by
  have htrim : trimmed "Hello world" = "Hello world" := by decide +kernel
  refine ⟨htrim, isPlainAnswer_completion _, ?_, ?_⟩
  · have hread : inTwoChunks.readTexts = ["Hello", "world"] := by decide +kernel
    have hwords : ∀ word ∈ ["Hello", "world"], trimmed word = word ∧ word ≠ "" :=
      List.forall_mem_cons.2 ⟨by decide, List.forall_mem_singleton.2 (by decide)⟩
    rw [inTwoChunks.modelTestText_body wordsEnv_rejectsSseLines, hread,
      joinTexts_of_trimmed hwords (by simp)]
    rfl
  · rw [modelTestText_plain (wordsEnv_reads (by simp [wordValues])) (isPlainAnswer_completion _)]
    exact cleanText_of_trimmed htrim (by decide)

end AiOpenRouter
