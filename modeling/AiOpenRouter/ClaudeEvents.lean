/-
The Claude stream events the converters emit, and their bytes.

The source builds each event with `json!` and `build_claude_event`; here an
event is a value of `ClaudeEvent`, and `ClaudeEvent.data` gives back the `json!`
object.  The last section reads a list of events as the client does: which
blocks are open, how many were started, what a block received.
-/
import AiOpenRouter.StreamContext
import AiOpenRouter.Sse
import AiOpenRouter.Trace

namespace AiOpenRouter

/-- `content_block` of a `content_block_start`. -/
inductive ClaudeBlock where
  | text (text : String)
  | thinking (thinking : String)
  | toolUse (id name : String) (input : Option Json)

/-- `delta` of a `content_block_delta`. -/
inductive ClaudeDelta where
  | textDelta (text : String)
  | thinkingDelta (thinking : String)
  | inputJsonDelta (partialJson : String)

/-- One server-sent event of the Claude Messages protocol. -/
inductive ClaudeEvent where
  | messageStart (message : Json)
  | contentBlockStart (index : ℤ) (contentBlock : ClaudeBlock)
  | contentBlockDelta (index : ℤ) (delta : ClaudeDelta)
  | contentBlockStop (index : ℤ)
  | messageDelta (delta usage : Json)
  | messageStop

/-! ### Rendering -/

/-- The JSON object of a content block. -/
def ClaudeBlock.toJson : ClaudeBlock → Json
  | .text s => .obj [("type", .str "text"), ("text", .str s)]
  | .thinking s => .obj [("type", .str "thinking"), ("thinking", .str s)]
  | .toolUse id name none =>
    .obj [("type", .str "tool_use"), ("id", .str id), ("name", .str name)]
  | .toolUse id name (some input) =>
    .obj [("type", .str "tool_use"), ("id", .str id), ("name", .str name), ("input", input)]

def ClaudeDelta.toJson : ClaudeDelta → Json
  | .textDelta s => .obj [("type", .str "text_delta"), ("text", .str s)]
  | .thinkingDelta s => .obj [("type", .str "thinking_delta"), ("thinking", .str s)]
  | .inputJsonDelta s => .obj [("type", .str "input_json_delta"), ("partial_json", .str s)]

namespace ClaudeEvent

/-- The first argument of `build_claude_event`. -/
def eventType : ClaudeEvent → String
  | messageStart _ => "message_start"
  | contentBlockStart _ _ => "content_block_start"
  | contentBlockDelta _ _ => "content_block_delta"
  | contentBlockStop _ => "content_block_stop"
  | messageDelta _ _ => "message_delta"
  | messageStop => "message_stop"

/-- The second argument of `build_claude_event`. -/
def data : ClaudeEvent → Json
  | messageStart message => .obj [("message", message)]
  | contentBlockStart index block =>
    .obj [("index", .int index), ("content_block", block.toJson)]
  | contentBlockDelta index delta => .obj [("index", .int index), ("delta", delta.toJson)]
  | contentBlockStop index => .obj [("index", .int index)]
  | messageDelta delta usage => .obj [("delta", delta), ("usage", usage)]
  | messageStop => .obj []

end ClaudeEvent

/-- `build_claude_event`. -/
def buildClaudeEvent (env : Env) (eventType : String) (data : Json) : Bytes :=
  let payload : Json :=
    match data with
    | .obj fields => .obj (Json.insertField fields "type" (.str eventType))
    | data => .obj [("type", .str eventType), ("data", data)]
  eventBlock eventType (env.toStr payload)

def ClaudeEvent.render (env : Env) (e : ClaudeEvent) : Bytes :=
  buildClaudeEvent env e.eventType e.data

/-! ### Kinds of blocks -/

inductive BlockKind where
  | text
  | thinking
  | toolUse
  deriving DecidableEq

def ClaudeBlock.kind : ClaudeBlock → BlockKind
  | .text _ => .text
  | .thinking _ => .thinking
  | .toolUse _ _ _ => .toolUse

/-- The kind of the blocks a delta belongs to. -/
def ClaudeDelta.kind : ClaudeDelta → BlockKind
  | .textDelta _ => .text
  | .thinkingDelta _ => .thinking
  | .inputJsonDelta _ => .toolUse

/-! ### Reading a trace -/

def openStep (opened : Finset ℤ) : ClaudeEvent → Finset ℤ
  | .contentBlockStart index _ => insert index opened
  | .contentBlockStop index => opened.erase index
  | _ => opened

def openIndices (t : List ClaudeEvent) : Finset ℤ := t.foldl openStep ∅

def blockStep (blocks : ℤ → Option ClaudeBlock) : ClaudeEvent → ℤ → Option ClaudeBlock
  | .contentBlockStart index block => Function.update blocks index (some block)
  | _ => blocks

def blockAt (t : List ClaudeEvent) : ℤ → Option ClaudeBlock := t.foldl blockStep fun _ => none

def kindAt (t : List ClaudeEvent) (i : ℤ) : Option BlockKind := (blockAt t i).map ClaudeBlock.kind

def ClaudeEvent.isBlockStart : ClaudeEvent → Bool
  | .contentBlockStart _ _ => true
  | _ => false

def startCount (t : List ClaudeEvent) : ℕ := t.countP ClaudeEvent.isBlockStart

def ClaudeEvent.blockIndex : ClaudeEvent → Option ℤ
  | .contentBlockStart index _ => some index
  | .contentBlockDelta index _ => some index
  | .contentBlockStop index => some index
  | _ => none

/-- Whether an event starts a block at `index`. -/
def ClaudeEvent.isStartAt (index : ℤ) : ClaudeEvent → Bool
  | .contentBlockStart i _ => i = index
  | _ => false

/-- How many times a block is started at `index`. -/
def startsAt (t : List ClaudeEvent) (index : ℤ) : ℕ := t.countP (ClaudeEvent.isStartAt index)

/-- The arguments fragment an event carries for the block at `index`. -/
def ClaudeEvent.partialJsonAt (index : ℤ) : ClaudeEvent → String
  | .contentBlockDelta i (.inputJsonDelta partialJson) => if i = index then partialJson else ""
  | _ => ""

/-- The concatenated `partial_json` of the block at `index`. -/
def partialJson (t : List ClaudeEvent) (index : ℤ) : String :=
  t.foldl (fun acc e => acc ++ e.partialJsonAt index) ""

/-- Whether an event starts the block of the tool call `id`. -/
def ClaudeEvent.isToolStart (id : String) : ClaudeEvent → Bool
  | .contentBlockStart _ (.toolUse i _ _) => i = id
  | _ => false

/-- How many `tool_use` blocks a trace starts for the tool call `id`. -/
def toolStarts (t : List ClaudeEvent) (id : String) : ℕ := t.countP (ClaudeEvent.isToolStart id)

/-- The arguments fragment an event carries for the tool call `id`, `blocks` being the
blocks at the indices. -/
def ClaudeEvent.jsonFor (blocks : ℤ → Option ClaudeBlock) (id : String) : ClaudeEvent → String
  | .contentBlockDelta index (.inputJsonDelta partialJson) =>
    match blocks index with
    | some (.toolUse i _ _) => if i = id then partialJson else ""
    | _ => ""
  | _ => ""

/-- The concatenated `partial_json` that the blocks of the tool call `id` receive. -/
def receivedJson (t : List ClaudeEvent) (id : String) : String :=
  (t.foldl (fun s e => (blockStep s.1 e, s.2 ++ e.jsonFor s.1 id)) (fun _ => none, "")).2

@[simp] theorem openIndices_nil : openIndices [] = ∅ := rfl

variable (t : List ClaudeEvent) (e : ClaudeEvent) (i : ℤ) (id : String)

@[simp] theorem openIndices_snoc : openIndices (t ++ [e]) = openStep (openIndices t) e := by
  rw [openIndices, List.foldl_append]
  rfl

@[simp] theorem blockAt_nil : blockAt [] i = none := rfl

@[simp] theorem blockAt_snoc : blockAt (t ++ [e]) = blockStep (blockAt t) e := by
  rw [blockAt, List.foldl_append]
  rfl

@[simp] theorem kindAt_nil : kindAt [] = fun _ => none := rfl

theorem kindAt_snoc_start (block : ClaudeBlock) :
    kindAt (t ++ [.contentBlockStart i block]) =
      Function.update (kindAt t) i (some block.kind) := by
  funext j
  rw [kindAt, blockAt_snoc, blockStep]
  by_cases hj : j = i
  · rw [hj, Function.update_self, Function.update_self]
    rfl
  · rw [Function.update_of_ne hj, Function.update_of_ne hj]
    rfl

@[simp] theorem startCount_nil : startCount [] = 0 := rfl

@[simp] theorem startCount_snoc :
    startCount (t ++ [e]) = startCount t + if e.isBlockStart then 1 else 0 := by
  rw [startCount, List.countP_append, List.countP_singleton]
  rfl

@[simp] theorem startsAt_nil : startsAt [] i = 0 := rfl

@[simp] theorem startsAt_snoc :
    startsAt (t ++ [e]) i = startsAt t i + if e.isStartAt i then 1 else 0 := by
  rw [startsAt, List.countP_append, List.countP_singleton]
  rfl

@[simp] theorem partialJson_nil : partialJson [] i = "" := rfl

@[simp] theorem partialJson_snoc :
    partialJson (t ++ [e]) i = partialJson t i ++ e.partialJsonAt i := by
  rw [partialJson, List.foldl_append]
  rfl

@[simp] theorem toolStarts_nil : toolStarts [] id = 0 := rfl

@[simp] theorem toolStarts_snoc :
    toolStarts (t ++ [e]) id = toolStarts t id + if e.isToolStart id then 1 else 0 := by
  rw [toolStarts, List.countP_append, List.countP_singleton]
  rfl

@[simp] theorem receivedJson_nil : receivedJson [] id = "" := rfl

@[simp] theorem receivedJson_snoc :
    receivedJson (t ++ [e]) id = receivedJson t id ++ e.jsonFor (blockAt t) id := by
  have hblocks : ∀ t : List ClaudeEvent, (t.foldl (fun s e =>
      (blockStep s.1 e, s.2 ++ e.jsonFor s.1 id)) (fun _ => none, "")).1 = blockAt t := by
    intro t
    induction t using List.reverseRecOn with
    | nil => rfl
    | append_singleton t e ih =>
      rw [List.foldl_append, blockAt_snoc, ← ih]
      rfl
  rw [receivedJson, List.foldl_append, ← hblocks t]
  rfl

theorem append_of_blockIndex_ne {t q : List ClaudeEvent} {i : ℤ}
    (hq : ∀ e ∈ q, e.blockIndex ≠ some i) :
    startsAt (t ++ q) i = startsAt t i ∧ partialJson (t ++ q) i = partialJson t i ∧
    ∀ opened : Finset ℤ, i ∈ q.foldl openStep opened ↔ i ∈ opened := by
  induction q using List.reverseRecOn with
  | nil => simp
  | append_singleton q e ih =>
    obtain ⟨hstarts, hjson, hopen⟩ := ih fun e' he' => hq e' (by simp [he'])
    have he := hq e (by simp)
    rw [← List.append_assoc, startsAt_snoc, partialJson_snoc, hstarts, hjson]
    simp only [List.foldl_append, List.foldl_cons, List.foldl_nil]
    rcases e with _ | ⟨j, block⟩ | ⟨j, delta⟩ | j | _ | _
    case contentBlockStart =>
      have hj : j ≠ i := fun h => he (congrArg some h)
      refine ⟨by simp [ClaudeEvent.isStartAt, hj], by simp [ClaudeEvent.partialJsonAt], ?_⟩
      intro opened
      rw [openStep, Finset.mem_insert, hopen]
      exact or_iff_right hj.symm
    case contentBlockDelta =>
      have hj : j ≠ i := fun h => he (congrArg some h)
      refine ⟨by simp [ClaudeEvent.isStartAt], ?_, hopen⟩
      rcases delta with _ | _ | _ <;> simp [ClaudeEvent.partialJsonAt, hj]
    case contentBlockStop =>
      have hj : j ≠ i := fun h => he (congrArg some h)
      refine ⟨by simp [ClaudeEvent.isStartAt], by simp [ClaudeEvent.partialJsonAt], ?_⟩
      intro opened
      rw [openStep, Finset.mem_erase, hopen]
      exact and_iff_right hj.symm
    all_goals
      exact ⟨by simp [ClaudeEvent.isStartAt], by simp [ClaudeEvent.partialJsonAt], hopen⟩

theorem mem_foldl_openStep {q : List ClaudeEvent} {opened : Finset ℤ} {i : ℤ}
    (h : i ∈ q.foldl openStep opened) : i ∈ opened ∨ 0 < startsAt q i := by
  induction q using List.reverseRecOn with
  | nil => exact Or.inl h
  | append_singleton q e ih =>
    rw [List.foldl_append] at h
    simp only [List.foldl_cons, List.foldl_nil] at h
    rw [startsAt_snoc]
    have hq : i ∈ q.foldl openStep opened ∨ e.isStartAt i = true := by
      rcases e with _ | ⟨j, block⟩ | _ | j | _ | _
      case contentBlockStart =>
        rcases Finset.mem_insert.1 h with hij | h
        · exact Or.inr (by simp [ClaudeEvent.isStartAt, hij])
        · exact Or.inl h
      case contentBlockStop => exact Or.inl (Finset.mem_of_mem_erase h)
      all_goals exact Or.inl h
    rcases hq with hq | hstart
    · rcases ih hq with h | h
      · exact Or.inl h
      · exact Or.inr (by omega)
    · exact Or.inr (by simp [hstart])

theorem blockAt_of_mem_openIndices {t : List ClaudeEvent} {i : ℤ} (h : i ∈ openIndices t) :
    ∃ block, blockAt t i = some block := by
  induction t using List.reverseRecOn with
  | nil => simp at h
  | append_singleton t e ih =>
    rw [openIndices_snoc] at h
    rw [blockAt_snoc]
    rcases e with _ | ⟨index, block⟩ | ⟨index, delta⟩ | index | _ | _
    case contentBlockStart =>
      by_cases hi : i = index
      · exact ⟨block, by simp [blockStep, hi]⟩
      · obtain ⟨b, hb⟩ := ih (by simpa [openStep, hi] using h)
        exact ⟨b, by simp [blockStep, Function.update_of_ne hi, hb]⟩
    case contentBlockStop => exact ih (Finset.mem_of_mem_erase h)
    all_goals exact ih h

end AiOpenRouter
