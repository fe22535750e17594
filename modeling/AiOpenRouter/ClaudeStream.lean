/-
A Claude message as it is streamed, and as it is assembled.

A message is streamed as `message_start`, its content blocks one after another
(a start, deltas, a stop), `message_delta` and `message_stop`.  Which bytes
carry these events is said by what the converters read in them
(`ClaudeStreamEvent.Says`), so an event may hold further fields, and events that
no converter reads (`ping`) may come anywhere.

`StreamedMessage.Assembles` relates the message to the `ClaudeResponse` a client
that does not stream gets: the deltas of a block are concatenated, and the
input of a tool use is the JSON its fragments spell.
-/
import AiOpenRouter.ClaudeToChat
import AiOpenRouter.TypedRuns
import AiOpenRouter.Sequences
import AiOpenRouter.JsonPrinting

namespace AiOpenRouter

/-! ### The message -/

/-- One content block: what its start holds, and its deltas. -/
inductive StreamedBlock where
  | text (initial : String) (deltas : List String)
  | thinking (initial : String) (deltas : List String)
  | toolUse (id name : String) (initial : Json) (fragments : List String)

/-- A message, with the blocks as they are streamed. -/
structure StreamedMessage where
  id : String
  inputTokens : ℤ
  blocks : List StreamedBlock
  stopReason : String
  outputTokens : ℤ

/-- The events of a message stream; `other` is for those no converter reads, as `ping`. -/
inductive ClaudeStreamEvent where
  | messageStart (id : String) (inputTokens : ℤ)
  | textStart (index : ℕ) (text : String)
  | thinkingStart (index : ℕ) (thinking : String)
  | toolUseStart (index : ℕ) (id name : String) (input : Json)
  | textDelta (index : ℕ) (text : String)
  | thinkingDelta (index : ℕ) (thinking : String)
  | inputJsonDelta (index : ℕ) (partialJson : String)
  | blockStop (index : ℕ)
  | messageDelta (stopReason : String) (outputTokens : ℤ)
  | messageStop
  | other (eventType : String)

def StreamedBlock.events (index : ℕ) : StreamedBlock → List ClaudeStreamEvent
  | text initial deltas =>
    .textStart index initial :: (deltas.map (.textDelta index) ++ [.blockStop index])
  | thinking initial deltas =>
    .thinkingStart index initial :: (deltas.map (.thinkingDelta index) ++ [.blockStop index])
  | toolUse id name initial fragments =>
    .toolUseStart index id name initial ::
      (fragments.map (.inputJsonDelta index) ++ [.blockStop index])

def blockEvents : ℕ → List StreamedBlock → List ClaudeStreamEvent
  | _, [] => []
  | index, block :: blocks => block.events index ++ blockEvents (index + 1) blocks

def StreamedMessage.events (m : StreamedMessage) : List ClaudeStreamEvent :=
  .messageStart m.id m.inputTokens ::
    (blockEvents 0 m.blocks ++ [.messageDelta m.stopReason m.outputTokens, .messageStop])

/-! ### The bytes -/

namespace ClaudeStreamEvent

/-- The name of an event. -/
def eventType : ClaudeStreamEvent → String
  | messageStart _ _ => "message_start"
  | textStart _ _ | thinkingStart _ _ | toolUseStart _ _ _ _ => "content_block_start"
  | textDelta _ _ | thinkingDelta _ _ | inputJsonDelta _ _ => "content_block_delta"
  | blockStop _ => "content_block_stop"
  | messageDelta _ _ => "message_delta"
  | messageStop => "message_stop"
  | other eventType => eventType

/-- The names of the events that are not `other`, and of an error. -/
def knownTypes : List String :=
  ["message_start", "content_block_start", "content_block_delta", "content_block_stop",
    "message_delta", "message_stop", "error"]

def isKnown : ClaudeStreamEvent → Bool
  | other _ => false
  | _ => true

def Says (data : Json) : ClaudeStreamEvent → Prop
  | messageStart id inputTokens => ∃ msg usage, data.get "message" = some msg ∧
      msg.getStr "id" = some id ∧ msg.get "usage" = some usage ∧
      usage.getI64 "input_tokens" = some inputTokens
  | textStart index text => data.getI64 "index" = some ↑index ∧
      ∃ block, data.get "content_block" = some block ∧ block.getStr "type" = some "text" ∧
        block.getStr "text" = some text
  | thinkingStart index thinking => data.getI64 "index" = some ↑index ∧
      ∃ block, data.get "content_block" = some block ∧ block.getStr "type" = some "thinking" ∧
        block.getStr "thinking" = some thinking
  | toolUseStart index id name input => data.getI64 "index" = some ↑index ∧
      ∃ block, data.get "content_block" = some block ∧ block.getStr "type" = some "tool_use" ∧
        block.getStr "id" = some id ∧ block.getStr "name" = some name ∧
        block.get "input" = some input
  | textDelta index text => data.getI64 "index" = some ↑index ∧
      ∃ delta, data.get "delta" = some delta ∧ delta.getStr "type" = some "text_delta" ∧
        delta.getStr "text" = some text
  | thinkingDelta index thinking => data.getI64 "index" = some ↑index ∧
      ∃ delta, data.get "delta" = some delta ∧ delta.getStr "type" = some "thinking_delta" ∧
        delta.getStr "thinking" = some thinking
  | inputJsonDelta index partialJson => data.getI64 "index" = some ↑index ∧
      ∃ delta, data.get "delta" = some delta ∧ delta.getStr "type" = some "input_json_delta" ∧
        delta.getStr "partial_json" = some partialJson
  | blockStop index => data.getI64 "index" = some ↑index
  | messageDelta stopReason outputTokens => ∃ delta usage, data.get "delta" = some delta ∧
      delta.getStr "stop_reason" = some stopReason ∧ data.get "usage" = some usage ∧
      usage.getI64 "output_tokens" = some outputTokens
  | messageStop => True
  | other eventType => eventType ∉ knownTypes

def CarriedBy (env : Env) (block : Bytes) (e : ClaudeStreamEvent) : Prop :=
  ∃ data, readClaudeBlock env block = .event e.eventType data ∧
    data.getStr "type" = some e.eventType ∧ e.Says data

end ClaudeStreamEvent

/-- The event blocks of a streamed message: its events in order, with other events anywhere. -/
def StreamedMessage.StreamedAs (env : Env) (m : StreamedMessage) (blocks : List Bytes) : Prop :=
  ∃ es, List.Forall₂ (ClaudeStreamEvent.CarriedBy env) blocks es ∧
    es.filter ClaudeStreamEvent.isKnown = m.events

/-! ### The assembled message -/

/-- `ClaudeUsage`. -/
structure ClaudeUsage where
  inputTokens : ℤ
  outputTokens : ℤ
  inputTokens_isI32 : IsI32 inputTokens
  outputTokens_isI32 : IsI32 outputTokens

/-- `ClaudeResponse`. -/
structure ClaudeResponse where
  id : String
  responseType : String
  role : String
  content : List Json
  model : String
  stopReason : String
  usage : ClaudeUsage

/-- The content block that a streamed block assembles to. -/
def StreamedBlock.AssemblesTo (env : Env) (content : Json) : StreamedBlock → Prop
  | text initial deltas => content.getStr "type" = some "text" ∧
      content.getStr "text" = some (initial ++ "".intercalate deltas)
  | thinking initial deltas => content.getStr "type" = some "thinking" ∧
      content.getStr "thinking" = some (initial ++ "".intercalate deltas)
  | toolUse id name initial fragments => content.getStr "type" = some "tool_use" ∧
      content.getStr "id" = some id ∧ content.getStr "name" = some name ∧
      ∃ input, content.get "input" = some input ∧
        if "".intercalate fragments = "" then input = initial
        else env.fromStr ("".intercalate fragments) = .ok input

/-- The message that a streamed message assembles to. -/
structure StreamedMessage.Assembles (env : Env) (m : StreamedMessage) (resp : ClaudeResponse) :
    Prop where
  id : resp.id = m.id
  content : List.Forall₂ (fun block content => block.AssemblesTo env content) m.blocks resp.content
  stopReason : resp.stopReason = m.stopReason
  inputTokens : resp.usage.inputTokens = m.inputTokens
  outputTokens : resp.usage.outputTokens = m.outputTokens

/-! ### Texts -/

def StreamedBlock.deltaText : StreamedBlock → String
  | text _ deltas => "".intercalate deltas
  | _ => ""

def StreamedBlock.wholeText : StreamedBlock → String
  | text initial deltas => initial ++ "".intercalate deltas
  | _ => ""

def StreamedBlock.isToolUse : StreamedBlock → Bool
  | toolUse _ _ _ _ => true
  | _ => false

/-- A text block whose start holds no text yet. -/
def StreamedBlock.StartsEmpty : StreamedBlock → Prop
  | text initial _ => initial = ""
  | _ => True

theorem StreamedBlock.wholeText_length (block : StreamedBlock) :
    block.deltaText.length ≤ block.wholeText.length ∧
      (block.wholeText.length = block.deltaText.length ↔ block.StartsEmpty) := by
  cases block with
  | text initial deltas =>
    rw [wholeText, deltaText, StartsEmpty, String.length_append, ← String.length_eq_zero_iff]
    omega
  | thinking initial deltas => exact ⟨le_rfl, by simp [wholeText, deltaText, StartsEmpty]⟩
  | toolUse id name initial fragments =>
    exact ⟨le_rfl, by simp [wholeText, deltaText, StartsEmpty]⟩

theorem StreamedBlock.wholeText_eq {block : StreamedBlock} (h : block.StartsEmpty) :
    block.wholeText = block.deltaText := by
  cases block with
  | text initial deltas =>
    rw [StartsEmpty] at h
    simp [wholeText, deltaText, h]
  | thinking initial deltas => rfl
  | toolUse id name initial fragments => rfl

theorem wholeText_eq_iff {blocks : List StreamedBlock} :
    "".intercalate (blocks.map StreamedBlock.wholeText) =
        "".intercalate (blocks.map StreamedBlock.deltaText) ↔
      ∀ block ∈ blocks, block.StartsEmpty := by
  constructor
  · intro h block hmem
    have hlengths := length_eq_of_intercalate_eq
      (fun block _ => (StreamedBlock.wholeText_length block).1) (congrArg String.length h)
    exact (StreamedBlock.wholeText_length block).2.1 (hlengths block hmem)
  · intro h
    rw [List.map_congr_left fun block hmem => StreamedBlock.wholeText_eq (h block hmem)]

/-! ### A rendering -/

namespace ClaudeStreamEvent

/-- The data of an event, with the fields the protocol asks for. -/
def toJson : ClaudeStreamEvent → Json
  | messageStart id inputTokens =>
    .obj [("type", .str "message_start"), ("message", .obj [("id", .str id),
      ("usage", .obj [("input_tokens", .int inputTokens)])])]
  | textStart index text =>
    .obj [("type", .str "content_block_start"), ("index", .int index),
      ("content_block", .obj [("type", .str "text"), ("text", .str text)])]
  | thinkingStart index thinking =>
    .obj [("type", .str "content_block_start"), ("index", .int index),
      ("content_block", .obj [("type", .str "thinking"), ("thinking", .str thinking)])]
  | toolUseStart index id name input =>
    .obj [("type", .str "content_block_start"), ("index", .int index),
      ("content_block", .obj [("type", .str "tool_use"), ("id", .str id), ("name", .str name),
        ("input", input)])]
  | textDelta index text =>
    .obj [("type", .str "content_block_delta"), ("index", .int index),
      ("delta", .obj [("type", .str "text_delta"), ("text", .str text)])]
  | thinkingDelta index thinking =>
    .obj [("type", .str "content_block_delta"), ("index", .int index),
      ("delta", .obj [("type", .str "thinking_delta"), ("thinking", .str thinking)])]
  | inputJsonDelta index partialJson =>
    .obj [("type", .str "content_block_delta"), ("index", .int index),
      ("delta", .obj [("type", .str "input_json_delta"), ("partial_json", .str partialJson)])]
  | blockStop index => .obj [("type", .str "content_block_stop"), ("index", .int index)]
  | messageDelta stopReason outputTokens =>
    .obj [("type", .str "message_delta"), ("delta", .obj [("stop_reason", .str stopReason)]),
      ("usage", .obj [("output_tokens", .int outputTokens)])]
  | messageStop => .obj [("type", .str "message_stop")]
  | other eventType => .obj [("type", .str eventType)]

/-- The numbers of an event are `i64`. -/
def InRange : ClaudeStreamEvent → Prop
  | messageStart _ n | messageDelta _ n => -9223372036854775808 ≤ n ∧ n < 9223372036854775808
  | textStart index _ | thinkingStart index _ | toolUseStart index _ _ _ | textDelta index _
  | thinkingDelta index _ | inputJsonDelta index _ | blockStop index =>
    index < 9223372036854775808
  | messageStop => True
  | other eventType => eventType ∉ knownTypes ∧ Text.IsPlainLine eventType

instance : (e : ClaudeStreamEvent) → Decidable e.InRange
  | messageStart _ _ | messageDelta _ _ => inferInstanceAs (Decidable (_ ∧ _))
  | textStart index _ | thinkingStart index _ | toolUseStart index _ _ _ | textDelta index _
  | thinkingDelta index _ | inputJsonDelta index _ | blockStop index =>
    inferInstanceAs (Decidable (index < _))
  | messageStop => inferInstanceAs (Decidable True)
  | other _ => inferInstanceAs (Decidable (_ ∧ _))

theorem says_toJson {e : ClaudeStreamEvent} (h : e.InRange) : e.Says e.toJson := by
  cases e <;> simp only [InRange] at h
  case messageStop => trivial
  case other eventType => exact h.1
  case messageStart id inputTokens => exact ⟨_, _, rfl, rfl, rfl, Json.getI64_of_get rfl h⟩
  case messageDelta stopReason outputTokens =>
    exact ⟨_, _, rfl, rfl, rfl, Json.getI64_of_get rfl h⟩
  case textStart index text => exact ⟨Json.getI64_of_get_nat rfl h, _, rfl, rfl, rfl⟩
  case thinkingStart index thinking => exact ⟨Json.getI64_of_get_nat rfl h, _, rfl, rfl, rfl⟩
  case toolUseStart index id name input =>
    exact ⟨Json.getI64_of_get_nat rfl h, _, rfl, rfl, rfl, rfl, rfl⟩
  case textDelta index text => exact ⟨Json.getI64_of_get_nat rfl h, _, rfl, rfl, rfl⟩
  case thinkingDelta index thinking => exact ⟨Json.getI64_of_get_nat rfl h, _, rfl, rfl, rfl⟩
  case inputJsonDelta index partialJson => exact ⟨Json.getI64_of_get_nat rfl h, _, rfl, rfl, rfl⟩
  case blockStop index => exact Json.getI64_of_get_nat rfl h

theorem toJson_type (e : ClaudeStreamEvent) : e.toJson.getStr "type" = some e.eventType := by
  cases e <;> rfl

theorem isPlainLine_eventType {e : ClaudeStreamEvent} (h : e.InRange) :
    Text.IsPlainLine e.eventType := by
  cases e with
  | other eventType => exact h.2
  | _ =>
    simp only [eventType]
    decide +kernel

theorem isPlainLine_toJson (e : ClaudeStreamEvent) (h : e.toJson.printable = true) :
    Text.IsPlainLine e.toJson.compact := by
  cases e <;> exact Json.isPlainLine_compact h

def render (e : ClaudeStreamEvent) : Bytes := eventBlock e.eventType e.toJson.compact

end ClaudeStreamEvent

theorem StreamedMessage.filter_events (m : StreamedMessage) :
    m.events.filter ClaudeStreamEvent.isKnown = m.events := by
  have hblock : ∀ (k : ℕ) (block : StreamedBlock), ∀ e ∈ block.events k, e.isKnown = true := by
    intro k block e he
    cases block <;>
    · simp only [StreamedBlock.events, List.mem_cons, List.mem_append, List.mem_map,
        List.not_mem_nil, or_false] at he
      obtain rfl | ⟨_, _, rfl⟩ | rfl := he <;> rfl
  have hblocks : ∀ (k : ℕ) (blocks : List StreamedBlock), ∀ e ∈ blockEvents k blocks,
      e.isKnown = true := by
    intro k blocks
    induction blocks generalizing k with
    | nil => simp [blockEvents]
    | cons block blocks ih =>
      intro e he
      rcases List.mem_append.1 he with he | he
      · exact hblock k block e he
      · exact ih (k + 1) e he
  rw [List.filter_eq_self]
  intro e he
  rw [StreamedMessage.events, List.mem_cons, List.mem_append] at he
  obtain rfl | he | he := he
  · rfl
  · exact hblocks 0 m.blocks e he
  · simp only [List.mem_cons, List.not_mem_nil, or_false] at he
    obtain rfl | rfl := he <;> rfl

variable {m : StreamedMessage}

theorem streamedAs_render {values : List Json} (hnodup : (values.map Json.compact).Nodup)
    (hvalues : ∀ e ∈ m.events, e.toJson ∈ values)
    (hevents : ∀ e ∈ m.events, e.InRange ∧ e.toJson.printable = true) :
    m.StreamedAs (Env.ofValues values) (m.events.map ClaudeStreamEvent.render) := by
  refine ⟨m.events, ?_, m.filter_events⟩
  rw [List.forall₂_map_left_iff, List.forall₂_same]
  intro e hmem
  obtain ⟨hrange, hprintable⟩ := hevents e hmem
  have hplain := e.isPlainLine_toJson hprintable
  refine ⟨e.toJson, ?_, e.toJson_type, ClaudeStreamEvent.says_toJson hrange⟩
  rw [readClaudeBlock, ClaudeStreamEvent.render,
    parseSse_eventBlock (ClaudeStreamEvent.isPlainLine_eventType hrange) hplain]
  dsimp only
  rw [if_neg hplain.ne_empty, fromStr_ofValues hnodup (hvalues e hmem)]

def StreamedMessage.values (m : StreamedMessage) : List Json :=
  m.events.map ClaudeStreamEvent.toJson

/-- A whole message with the given content. -/
def StreamedMessage.whole (m : StreamedMessage) (content : List Json)
    (h : IsI32 m.inputTokens ∧ IsI32 m.outputTokens) : ClaudeResponse where
  id := m.id
  responseType := "message"
  role := "assistant"
  content := content
  model := "claude"
  stopReason := m.stopReason
  usage := { inputTokens := m.inputTokens, outputTokens := m.outputTokens
             inputTokens_isI32 := h.1, outputTokens_isI32 := h.2 }

theorem StreamedMessage.assembles_whole {env : Env} {content : List Json}
    (hrange : IsI32 m.inputTokens ∧ IsI32 m.outputTokens)
    (h : List.Forall₂ (fun block content => block.AssemblesTo env content) m.blocks content) :
    m.Assembles env (m.whole content hrange) := ⟨rfl, h, rfl, rfl, rfl⟩

theorem streamedAs_values
    (h : (m.values.map Json.compact).Nodup ∧ ∀ e ∈ m.events, e.InRange ∧
      e.toJson.printable = true) :
    m.StreamedAs (Env.ofValues m.values) (m.events.map ClaudeStreamEvent.render) :=
  streamedAs_render h.1 (fun _ hmem => List.mem_map_of_mem hmem) h.2

/-- A message that uses a tool with no fragments. -/
def toolMessage : StreamedMessage where
  id := "msg_1"
  inputTokens := 3
  blocks := [.toolUse "toolu_1" "Bash" (.obj []) []]
  stopReason := "tool_use"
  outputTokens := 2

end AiOpenRouter
