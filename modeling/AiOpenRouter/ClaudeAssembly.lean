/-
The message that a client assembles out of a Claude event stream, and the one
it reads in a Claude message.

`assemble` takes the events one by one: a start adds a block, a delta extends
the block started last at its index, and `message_delta` reports the stop
reason and the usage, later fields replacing earlier ones.  `AnswerBlock` is
what both ways have in common.
-/
import AiOpenRouter.ClaudeEvents
import AiOpenRouter.Sequences
import AiOpenRouter.ThinkTags

namespace AiOpenRouter

/-! ### Assembling -/

/-- A content block under construction: of a tool use, the text of its input. -/
inductive AssembledBlock where
  | text (s : String)
  | thinking (s : String)
  | toolUse (id name input : String)

/-- The message assembled so far: the blocks, the one started last first. -/
structure AssembledMessage where
  blocks : List (ℤ × AssembledBlock) := []
  stopReason : Option String := none
  usage : String → Option Json := fun _ => none

/-- The block that a `content_block` starts. -/
def ClaudeBlock.assembled : ClaudeBlock → AssembledBlock
  | text s => .text s
  | thinking s => .thinking s
  | toolUse id name _ => .toolUse id name ""

def AssembledBlock.extend (delta : ClaudeDelta) : AssembledBlock → AssembledBlock
  | text s =>
    match delta with
    | .textDelta t => .text (s ++ t)
    | _ => .text s
  | thinking s =>
    match delta with
    | .thinkingDelta t => .thinking (s ++ t)
    | _ => .thinking s
  | toolUse id name input =>
    match delta with
    | .inputJsonDelta t => .toolUse id name (input ++ t)
    | _ => .toolUse id name input

def extendAt (index : ℤ) (delta : ClaudeDelta) :
    List (ℤ × AssembledBlock) → List (ℤ × AssembledBlock)
  | [] => []
  | block :: blocks =>
    if block.1 = index then (index, block.2.extend delta) :: blocks
    else block :: extendAt index delta blocks

def mergeUsage (usage : String → Option Json) (reported : Json) : String → Option Json :=
  fun key => (reported.get key).or (usage key)

def assembleEvent (msg : AssembledMessage) : ClaudeEvent → AssembledMessage
  | .messageStart message =>
    { msg with usage := mergeUsage msg.usage ((message.get "usage").getD .null) }
  | .contentBlockStart index block =>
    { msg with blocks := (index, block.assembled) :: msg.blocks }
  | .contentBlockDelta index delta => { msg with blocks := extendAt index delta msg.blocks }
  | .contentBlockStop _ => msg
  | .messageDelta delta usage =>
    { msg with stopReason := (delta.getStr "stop_reason").or msg.stopReason
               usage := mergeUsage msg.usage usage }
  | .messageStop => msg

/-- The message that a stream assembles to. -/
def assemble (t : List ClaudeEvent) : AssembledMessage := t.foldl assembleEvent {}

@[simp] theorem assemble_snoc (t : List ClaudeEvent) (e : ClaudeEvent) :
    assemble (t ++ [e]) = assembleEvent (assemble t) e := by
  rw [assemble, List.foldl_append]
  rfl

theorem extendAt_head (index : ℤ) (delta : ClaudeDelta) (block : AssembledBlock)
    (blocks : List (ℤ × AssembledBlock)) :
    extendAt index delta ((index, block) :: blocks) = (index, block.extend delta) :: blocks := by
  rw [extendAt, if_pos rfl]

/-! ### What the assistant said -/

/-- A content block: the input of a tool use is read as JSON. -/
inductive AnswerBlock where
  | text (s : String)
  | thinking (s : String)
  | toolUse (id name : String) (input : Except String Json)

/-- The input that the fragments of a tool use spell: no fragment spells `{}`. -/
def readInputText (env : Env) (input : String) : Except String Json :=
  if input = "" then .ok (.obj []) else env.fromStr input

def AssembledBlock.read (env : Env) : AssembledBlock → AnswerBlock
  | text s => .text s
  | thinking s => .thinking s
  | toolUse id name input => .toolUse id name (readInputText env input)

def AssembledMessage.contents (msg : AssembledMessage) : List AssembledBlock :=
  (msg.blocks.map Prod.snd).reverse

def AssembledMessage.answer (env : Env) (msg : AssembledMessage) : List AnswerBlock :=
  msg.contents.map (AssembledBlock.read env)

theorem AssembledMessage.contents_cons {msg : AssembledMessage} {block : ℤ × AssembledBlock}
    {blocks : List (ℤ × AssembledBlock)} (h : msg.blocks = block :: blocks) :
    msg.contents = (blocks.map Prod.snd).reverse ++ [block.2] := by
  rw [contents, h, List.map_cons, List.reverse_cons]

theorem contents_blockStart (msg : AssembledMessage) (index : ℤ) (block : ClaudeBlock) :
    (assembleEvent msg (.contentBlockStart index block)).contents =
      msg.contents ++ [block.assembled] := by
  have hblocks : (assembleEvent msg (.contentBlockStart index block)).blocks =
      (index, block.assembled) :: msg.blocks := rfl
  rw [AssembledMessage.contents_cons hblocks]
  rfl

theorem contents_blockDelta {msg : AssembledMessage} {index : ℤ} {block : AssembledBlock}
    {rest : List (ℤ × AssembledBlock)} (h : msg.blocks = (index, block) :: rest)
    (delta : ClaudeDelta) :
    (assembleEvent msg (.contentBlockDelta index delta)).blocks =
        (index, block.extend delta) :: rest ∧
      msg.contents = (rest.map Prod.snd).reverse ++ [block] ∧
      (assembleEvent msg (.contentBlockDelta index delta)).contents =
        (rest.map Prod.snd).reverse ++ [block.extend delta] := by
  have hblocks : (assembleEvent msg (.contentBlockDelta index delta)).blocks =
      (index, block.extend delta) :: rest := by
    show extendAt index delta msg.blocks = _
    rw [h, extendAt_head]
  exact ⟨hblocks, AssembledMessage.contents_cons h, AssembledMessage.contents_cons hblocks⟩

def readContent (block : Json) : AnswerBlock :=
  if block.getStr "type" = some "text" then .text ((block.getStr "text").getD "")
  else if block.getStr "type" = some "thinking" then
    .thinking ((block.getStr "thinking").getD "")
  else
    .toolUse ((block.getStr "id").getD "") ((block.getStr "name").getD "")
      (.ok ((block.get "input").getD (.obj [])))

/-- The blocks of a Claude message. -/
def messageAnswer (message : Json) : List AnswerBlock :=
  (((message.get "content").bind Json.asArray).getD []).map readContent

/-! ### By kind -/

def AnswerBlock.textPart : AnswerBlock → String
  | text s => s
  | _ => ""

def AnswerBlock.thinkingPart : AnswerBlock → String
  | thinking s => s
  | _ => ""

def AnswerBlock.toolPart : AnswerBlock → Option (String × String × Except String Json)
  | toolUse id name input => some (id, name, input)
  | _ => none

def answerText (blocks : List AnswerBlock) : String :=
  "".intercalate (blocks.map AnswerBlock.textPart)

def answerThinking (blocks : List AnswerBlock) : String :=
  "".intercalate (blocks.map AnswerBlock.thinkingPart)

def answerTools (blocks : List AnswerBlock) : List (String × String × Except String Json) :=
  blocks.filterMap AnswerBlock.toolPart

variable (blocks blocks' : List AnswerBlock)

@[simp] theorem answerText_append :
    answerText (blocks ++ blocks') = answerText blocks ++ answerText blocks' := by
  rw [answerText, List.map_append, intercalate_empty_append]
  rfl

@[simp] theorem answerThinking_append :
    answerThinking (blocks ++ blocks') = answerThinking blocks ++ answerThinking blocks' := by
  rw [answerThinking, List.map_append, intercalate_empty_append]
  rfl

@[simp] theorem answerTools_append :
    answerTools (blocks ++ blocks') = answerTools blocks ++ answerTools blocks' :=
  List.filterMap_append

theorem answerText_singleton (block : AnswerBlock) : answerText [block] = block.textPart :=
  String.intercalate_singleton

theorem answerThinking_singleton (block : AnswerBlock) :
    answerThinking [block] = block.thinkingPart := String.intercalate_singleton

/-! ### Tagged texts -/

def taggedBlock : TaggedPiece → Json
  | .text s => .obj [("type", .str "text"), ("text", .str (String.ofList s))]
  | .thinking s => .obj [("type", .str "thinking"), ("thinking", .str (String.ofList s))]

def taggedBlocks (text : String) : List Json :=
  (splitThinkTaggedText text.toList).map taggedBlock

/-- The block of a piece, as a client reads it. -/
def TaggedPiece.answer : TaggedPiece → AnswerBlock
  | text s => .text (String.ofList s)
  | thinking s => .thinking (String.ofList s)

theorem map_readContent_taggedBlocks (text : String) :
    (taggedBlocks text).map readContent =
      (splitThinkTaggedText text.toList).map TaggedPiece.answer := by
  rw [taggedBlocks, List.map_map]
  refine List.map_congr_left fun piece _ => ?_
  cases piece <;>
    simp [readContent, taggedBlock, TaggedPiece.answer, Json.get, Json.getStr, Json.asStr,
      List.lookup_cons]

theorem toList_answerText_pieces (pieces : List TaggedPiece) :
    (answerText (pieces.map TaggedPiece.answer)).toList = textChars pieces := by
  rw [answerText, toList_intercalate_empty, List.map_map, List.flatMap_map, textChars]
  refine List.flatMap_congr fun piece _ => ?_
  cases piece <;> simp [TaggedPiece.answer, AnswerBlock.textPart]

/-- **A text is kept exactly when it has no opening tag.** -/
theorem answerText_taggedBlocks_eq_iff (text : String) :
    answerText ((taggedBlocks text).map readContent) = text ↔ Untagged text.toList := by
  rw [map_readContent_taggedBlocks, ← String.toList_inj, toList_answerText_pieces]
  constructor
  · intro h
    exact (length_textChars_eq_iff _).1 (congrArg List.length h)
  · intro h
    rw [splitThinkTaggedText_of_untagged h, textChars_nonemptyPiece_text]

theorem map_readContent_taggedBlocks_of_untagged {text : String} (h : Untagged text.toList) :
    (taggedBlocks text).map readContent = if text = "" then [] else [.text text] := by
  rw [map_readContent_taggedBlocks, splitThinkTaggedText_of_untagged h, nonemptyPiece]
  by_cases hempty : text = ""
  · rw [if_pos (by simpa using hempty), if_pos hempty, List.map_nil]
  · rw [if_neg (by simpa using hempty), if_neg hempty, List.map_singleton, TaggedPiece.answer,
      String.ofList_toList]

end AiOpenRouter
