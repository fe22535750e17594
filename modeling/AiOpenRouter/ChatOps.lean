/-
A chat stream as a list of operations, and what they do to the assembled message.

* a chunk is a list of operations (`AnswerOp`), and the stream converter takes them
  one after another (`convertChatChunk_eq`);
* `applyOp` says what an operation does to the message that a client assembles:
  its text, thinking and tools by kind, and which kind of block is open;
* `moves_takeOp`: the converter does what `applyOp` says.
-/
import AiOpenRouter.ChatToClaude
import AiOpenRouter.ClaudeAssembly

namespace AiOpenRouter

/-! ### Operations -/

inductive AnswerOp where
  | thinking (s : String)
  | text (s : String)
  | toolCall (toolCall : OpenAIToolCall)
  | finish (reason : String)
  | usage (usage : OpenAIUsage)
  deriving DecidableEq

def choiceAnswerOps (choice : OpenAIStreamChoice) : List AnswerOp :=
  (choice.delta.reasoningContent.map AnswerOp.thinking).toList ++
    (choice.delta.content.map AnswerOp.text).toList ++
    (choice.delta.toolCalls.getD []).map .toolCall ++
    (choice.finishReason.map AnswerOp.finish).toList

def chunkOps (chunk : OpenAIStreamChunk) : List AnswerOp :=
  (match chunk.choices with
    | [] => []
    | choice :: _ => choiceAnswerOps choice) ++ (chunk.usage.map AnswerOp.usage).toList

def takeOp (st : Emit ClaudeEvent) : AnswerOp → Emit ClaudeEvent
  | .thinking s => emitThinkingDelta s st
  | .text s => emitTextDelta s st
  | .toolCall toolCall => onToolCall st toolCall
  | .finish reason => onFinishReason (some reason) st
  | .usage usage => emitUsage (some usage) st

theorem onChoice_eq (choice : OpenAIStreamChoice) (st : Emit ClaudeEvent) :
    onChoice choice st = (choiceAnswerOps choice).foldl takeOp st := by
  obtain ⟨index, ⟨role, content, reasoning, toolCalls⟩, finishReason⟩ := choice
  rw [onChoice, choiceAnswerOps, List.foldl_append, List.foldl_append, List.foldl_append,
    List.foldl_map]
  cases reasoning <;> cases content <;> cases finishReason <;> rfl

theorem onChoice_of_isUsageOnly {choice : OpenAIStreamChoice} (h : isUsageOnly choice = true)
    (st : Emit ClaudeEvent) : onChoice choice st = st := by
  obtain ⟨index, ⟨role, content, reasoning, toolCalls⟩, finishReason⟩ := choice
  simp only [isUsageOnly, Bool.and_eq_true, decide_eq_true_eq, Option.isNone_iff_eq_none] at h
  obtain ⟨⟨⟨⟨-, hcontent⟩, hreasoning⟩, hcalls⟩, rfl⟩ := h
  have hnil : toolCalls.getD [] = [] := by
    cases toolCalls with
    | none => rfl
    | some calls => simpa using hcalls
  have hthinking : (reasoning.map AnswerOp.thinking).toList.foldl takeOp st = st := by
    cases reasoning with
    | none => rfl
    | some s => exact if_pos hreasoning
  have htext : (content.map AnswerOp.text).toList.foldl takeOp st = st := by
    cases content with
    | none => rfl
    | some s => exact if_pos hcontent
  rw [onChoice_eq, choiceAnswerOps]
  dsimp only
  rw [hnil, List.foldl_append, List.foldl_append, List.foldl_append, hthinking, htext]
  rfl

theorem convertChatChunk_eq (env : Env) (chunk : OpenAIStreamChunk) (st : Emit ClaudeEvent) :
    convertChatChunk env chunk st =
      (chunkOps chunk).foldl takeOp (emitChatMessageStart env chunk st) := by
  have husage : ∀ st : Emit ClaudeEvent, emitUsage chunk.usage st =
      (chunk.usage.map AnswerOp.usage).toList.foldl takeOp st := by
    intro st
    cases chunk.usage <;> rfl
  rw [convertChatChunk, chunkOps, List.foldl_append, ← husage]
  cases hchoices : chunk.choices with
  | nil => rfl
  | cons choice choices =>
    dsimp only
    split_ifs with honly
    · rw [← onChoice_eq, onChoice_of_isUsageOnly (by simpa using (Bool.and_eq_true _ _ ▸ honly).2)]
    · rw [onChoice_eq]

/-! ### What an operation does to the assembled message -/

def AssembledBlock.textPart : AssembledBlock → String
  | text s => s
  | _ => ""

def AssembledBlock.thinkingPart : AssembledBlock → String
  | thinking s => s
  | _ => ""

def AssembledBlock.toolPart : AssembledBlock → Option (String × String × String)
  | toolUse id name input => some (id, name, input)
  | _ => none

def answerUsage (inputTokens outputTokens : ℤ) : Json :=
  .obj [("input_tokens", .int inputTokens), ("output_tokens", .int outputTokens)]

/-- The message by kind, and the kind of the block that is open. -/
structure AnswerState where
  openBlock : Option BlockKind := none
  text : String := ""
  thinking : String := ""
  tools : List (String × String × String) := []
  stopReason : Option String := none
  inputTokens : ℤ := 0
  outputTokens : ℤ := 0

def extendLast (fragment : String) (tools : List (String × String × String)) :
    List (String × String × String) :=
  tools.dropLast ++ (tools.getLast?.map fun tool => (tool.1, tool.2.1, tool.2.2 ++ fragment)).toList

@[simp] theorem extendLast_concat (fragment : String) (tools : List (String × String × String))
    (tool : String × String × String) :
    extendLast fragment (tools ++ [tool]) =
      tools ++ [(tool.1, tool.2.1, tool.2.2 ++ fragment)] := by
  simp [extendLast]

def applyOp (s : AnswerState) : AnswerOp → AnswerState
  | .thinking x =>
    if x = "" then s else { s with openBlock := some .thinking, thinking := s.thinking ++ x }
  | .text x => if x = "" then s else { s with openBlock := some .text, text := s.text ++ x }
  | .toolCall toolCall =>
    let s :=
      if toolCall.id = "" then s
      else { s with openBlock := some .toolUse
                    tools := s.tools ++ [(toolCall.id, toolCall.function.name, "")] }
    if toolCall.function.arguments = "" then s
    else { s with tools := extendLast toolCall.function.arguments s.tools }
  | .finish reason =>
    if reason ≠ "" ∧ s.stopReason = none then
      { s with openBlock := none, stopReason := some (mapOpenaiFinishReason reason)
               outputTokens := 0 }
    else s
  | .usage usage =>
    { s with inputTokens := usage.promptTokens, outputTokens := usage.completionTokens }

def AnswerOp.contentText : AnswerOp → String
  | .text x => x
  | _ => ""

def AnswerOp.reasoningText : AnswerOp → String
  | .thinking x => x
  | _ => ""

def AnswerOp.usageReport : AnswerOp → Option OpenAIUsage
  | .usage reported => some reported
  | _ => none

variable {kind : BlockKind} {ctx : StreamContext} {msg : AssembledMessage}
  (toolCall : OpenAIToolCall) (st : Emit ClaudeEvent) (s : AnswerState) (op : AnswerOp)

@[simp] theorem applyOp_text : (applyOp s op).text = s.text ++ op.contentText := by
  cases op with
  | text x =>
    rw [applyOp]
    split_ifs with hx
    · simp [AnswerOp.contentText, hx]
    · rfl
  | thinking x => rw [applyOp]; split_ifs <;> exact String.append_empty.symm
  | toolCall toolCall =>
    rw [applyOp]
    split_ifs <;> exact String.append_empty.symm
  | finish reason => rw [applyOp]; split_ifs <;> exact String.append_empty.symm
  | usage reported => exact String.append_empty.symm

@[simp] theorem applyOp_thinking : (applyOp s op).thinking = s.thinking ++ op.reasoningText := by
  cases op with
  | thinking x =>
    rw [applyOp]
    split_ifs with hx
    · simp [AnswerOp.reasoningText, hx]
    · rfl
  | text x => rw [applyOp]; split_ifs <;> exact String.append_empty.symm
  | toolCall toolCall =>
    rw [applyOp]
    split_ifs <;> exact String.append_empty.symm
  | finish reason => rw [applyOp]; split_ifs <;> exact String.append_empty.symm
  | usage reported => exact String.append_empty.symm

@[simp] theorem applyOp_inputTokens :
    (applyOp s op).inputTokens =
      (op.usageReport.map OpenAIUsage.promptTokens).getD s.inputTokens := by
  cases op with
  | usage reported => rfl
  | text x => rw [applyOp]; split_ifs <;> rfl
  | thinking x => rw [applyOp]; split_ifs <;> rfl
  | toolCall toolCall =>
    rw [applyOp]
    split_ifs <;> rfl
  | finish reason => rw [applyOp]; split_ifs <;> rfl

def OpFits (s : AnswerState) : AnswerOp → Prop
  | .toolCall toolCall => toolCall.id = "" → toolCall.function.arguments ≠ "" →
      s.openBlock = some .toolUse
  | _ => True

def OpenHead (ctx : StreamContext) (msg : AssembledMessage) : Option BlockKind → Prop
  | none => True
  | some .text => ∃ x rest, msg.blocks = (ctx.contentIndex, .text x) :: rest
  | some .thinking => ∃ x rest, msg.blocks = (ctx.thinkingIndex, .thinking x) :: rest
  | some .toolUse => ∃ id name x rest, msg.blocks = (ctx.toolIndex, .toolUse id name x) :: rest

structure TracksAnswer (ctx : StreamContext) (msg : AssembledMessage) (s : AnswerState) : Prop where
  started : ctx.messageStartSent = true
  textFlag : ctx.contentBlockStarted = decide (s.openBlock = some .text)
  thinkingFlag : ctx.thinkingBlockStarted = decide (s.openBlock = some .thinking)
  toolFlag : ctx.toolBlockStarted = decide (s.openBlock = some .toolUse)
  head : OpenHead ctx msg s.openBlock
  finished : ctx.finishReasonSent = s.stopReason.isSome
  text : "".intercalate (msg.contents.map AssembledBlock.textPart) = s.text
  thinking : "".intercalate (msg.contents.map AssembledBlock.thinkingPart) = s.thinking
  tools : msg.contents.filterMap AssembledBlock.toolPart = s.tools
  stopReason : msg.stopReason = s.stopReason
  usage : ∀ key, msg.usage key = (answerUsage s.inputTokens s.outputTokens).get key

/-- A helper that goes from `st` to `st'` takes the state `s` to `s'`. -/
def Moves (st st' : Emit ClaudeEvent) (s s' : AnswerState) : Prop :=
  ∀ t, TracksAnswer st.ctx (assemble (t ++ st.result)) s →
    TracksAnswer st'.ctx (assemble (t ++ st'.result)) s'

theorem Moves.refl : Moves st st s s := fun _ h => h

theorem Moves.trans {st st' st'' : Emit ClaudeEvent} {s s' s'' : AnswerState}
    (h : Moves st st' s s') (h' : Moves st' st'' s' s'') : Moves st st'' s s'' :=
  fun t ht => h' t (h t ht)

def AnswerState.close (kind : BlockKind) (s : AnswerState) : AnswerState :=
  if s.openBlock = some kind then { s with openBlock := none } else s

theorem openBlock_of_flag {flag : Bool} {opened : Option BlockKind}
    (h : flag = decide (opened = some kind)) (hflag : flag = true) : opened = some kind := by
  rw [hflag] at h
  simpa using h.symm

theorem openBlock_of_not_flag {flag : Bool} {opened : Option BlockKind}
    (h : flag = decide (opened = some kind)) (hflag : ¬ flag = true)
    (hother : ∀ kind', opened = some kind' → kind' = kind) : opened = none := by
  cases hopened : opened with
  | none => rfl
  | some kind' =>
    obtain rfl := hother kind' hopened
    exact absurd (by rw [h, hopened]; simp) hflag

theorem TracksAnswer.closed {ctx' : StreamContext} {s : AnswerState} (h : TracksAnswer ctx msg s)
    (hstarted : ctx'.messageStartSent = ctx.messageStartSent)
    (hfinished : ctx'.finishReasonSent = ctx.finishReasonSent)
    (htext : ctx'.contentBlockStarted = false) (hthinking : ctx'.thinkingBlockStarted = false)
    (htool : ctx'.toolBlockStarted = false) : TracksAnswer ctx' msg { s with openBlock := none } :=
  { h with
    started := hstarted.trans h.started
    finished := hfinished.trans h.finished
    textFlag := htext
    thinkingFlag := hthinking
    toolFlag := htool
    head := trivial }

theorem TracksAnswer.flags_of_open {s : AnswerState} (h : TracksAnswer ctx msg s)
    (hopen : s.openBlock = some kind) :
    ctx.contentBlockStarted = decide (kind = .text) ∧
      ctx.thinkingBlockStarted = decide (kind = .thinking) ∧
      ctx.toolBlockStarted = decide (kind = .toolUse) := by
  rw [h.textFlag, h.thinkingFlag, h.toolFlag, hopen]
  simp

theorem moves_closeTextBlock : Moves st (closeTextBlock st) s (s.close .text) := by
  intro t h
  unfold closeTextBlock AnswerState.close
  by_cases hopen : s.openBlock = some .text
  · obtain ⟨htext, hthinking, htool⟩ := h.flags_of_open hopen
    rw [if_pos (by rw [htext]; rfl), if_pos hopen, Emit.withCtx, Emit.push, ← List.append_assoc,
      assemble_snoc]
    exact h.closed rfl rfl rfl hthinking htool
  · have hflag : ¬ st.ctx.contentBlockStarted = true := by
      rw [h.textFlag]
      simpa using hopen
    rw [if_neg hflag, if_neg hopen]
    exact h

theorem moves_closeThinkingBlock : Moves st (closeThinkingBlock st) s (s.close .thinking) := by
  intro t h
  unfold closeThinkingBlock AnswerState.close
  by_cases hopen : s.openBlock = some .thinking
  · obtain ⟨htext, hthinking, htool⟩ := h.flags_of_open hopen
    rw [if_pos (by rw [hthinking]; rfl), if_pos hopen, Emit.withCtx, Emit.push,
      ← List.append_assoc, assemble_snoc]
    exact h.closed rfl rfl htext rfl htool
  · have hflag : ¬ st.ctx.thinkingBlockStarted = true := by
      rw [h.thinkingFlag]
      simpa using hopen
    rw [if_neg hflag, if_neg hopen]
    exact h

theorem moves_closeToolBlock : Moves st (closeToolBlock st) s (s.close .toolUse) := by
  intro t h
  unfold closeToolBlock AnswerState.close
  by_cases hopen : s.openBlock = some .toolUse
  · obtain ⟨htext, hthinking, htool⟩ := h.flags_of_open hopen
    rw [if_pos (by rw [htool]; rfl), if_pos hopen, Emit.withCtx, Emit.push, ← List.append_assoc,
      assemble_snoc]
    exact h.closed rfl rfl htext hthinking rfl
  · have hflag : ¬ st.ctx.toolBlockStarted = true := by
      rw [h.toolFlag]
      simpa using hopen
    rw [if_neg hflag, if_neg hopen]
    exact h

theorem AnswerState.openBlock_close_ne (kind : BlockKind) (s : AnswerState) :
    (s.close kind).openBlock ≠ some kind := by
  unfold close
  split_ifs with h
  · simp
  · exact h

theorem moves_bumpContentIndex {s : AnswerState} (hopen : s.openBlock ≠ some .text) :
    Moves st (st.withCtx bumpContentIndex) s s := by
  intro t h
  refine { h with head := ?_ }
  have hhead := h.head
  cases hkind : s.openBlock with
  | none => trivial
  | some kind =>
    rw [hkind] at hhead
    cases kind with
    | text => exact absurd hkind hopen
    | thinking => exact hhead
    | toolUse => exact hhead

theorem moves_leaveTextBlock : Moves st (leaveTextBlock st) s (s.close .text) := by
  have hclose := moves_closeTextBlock st s
  unfold leaveTextBlock
  split_ifs with hflag
  · exact hclose.trans (moves_bumpContentIndex _ (s.openBlock_close_ne .text))
  · rwa [closeTextBlock, if_neg hflag] at hclose

theorem moves_leaveToolBlock : Moves st (leaveToolBlock st) s (s.close .toolUse) := by
  intro t h
  have hclose := moves_closeToolBlock st s t h
  unfold leaveToolBlock
  split_ifs with hflag
  · refine moves_bumpContentIndex _ ?_ t hclose
    rw [AnswerState.close, if_pos (openBlock_of_flag h.toolFlag hflag)]
    simp
  · rwa [closeToolBlock, if_neg hflag] at hclose

/-! ### Opening and extending blocks -/

@[simp] theorem AnswerState.openBlock_close_eq_some {kind' : BlockKind} {s : AnswerState} :
    (s.close kind).openBlock = some kind' ↔ s.openBlock = some kind' ∧ kind' ≠ kind := by
  unfold close
  split_ifs with h
  · simp [h, eq_comm]
  · constructor
    · intro h'
      exact ⟨h', fun heq => h (heq ▸ h')⟩
    · exact And.left

theorem AnswerState.with_close (kind : BlockKind) (opened : Option BlockKind) (s : AnswerState) :
    { s.close kind with openBlock := opened } = { s with openBlock := opened } := by
  unfold close
  split_ifs <;> rfl

theorem AnswerState.close_all {kind' kind'' : BlockKind}
    (hall : ∀ k, k = kind ∨ k = kind' ∨ k = kind'') :
    ((s.close kind).close kind').close kind'' = { s with openBlock := none } := by
  have hnone : (((s.close kind).close kind').close kind'').openBlock = none := by
    rw [Option.eq_none_iff_forall_ne_some]
    intro k hk
    simp only [openBlock_close_eq_some] at hk
    obtain rfl | rfl | rfl := hall k <;> simp_all
  calc ((s.close kind).close kind').close kind''
      = { ((s.close kind).close kind').close kind'' with openBlock := none } := by rw [← hnone]
    _ = { (s.close kind).close kind' with openBlock := none } := with_close _ _ _
    _ = { s.close kind with openBlock := none } := with_close _ _ _
    _ = { s with openBlock := none } := with_close _ _ _

theorem intercalate_parts_concat (part : AssembledBlock → String) (blocks : List AssembledBlock)
    (block : AssembledBlock) :
    "".intercalate ((blocks ++ [block]).map part) =
      "".intercalate (blocks.map part) ++ part block := by
  rw [List.map_append, intercalate_empty_append, List.map_singleton, String.intercalate_singleton]

theorem TracksAnswer.blockStart {ctx' : StreamContext} {s : AnswerState}
    (h : TracksAnswer ctx msg s) (index : ℤ) (block : ClaudeBlock)
    (hstarted : ctx'.messageStartSent = ctx.messageStartSent)
    (hfinished : ctx'.finishReasonSent = ctx.finishReasonSent)
    (htext : ctx'.contentBlockStarted = decide (block.kind = .text))
    (hthinking : ctx'.thinkingBlockStarted = decide (block.kind = .thinking))
    (htool : ctx'.toolBlockStarted = decide (block.kind = .toolUse))
    (hhead : OpenHead ctx' (assembleEvent msg (.contentBlockStart index block)) block.kind) :
    TracksAnswer ctx' (assembleEvent msg (.contentBlockStart index block))
      { s with openBlock := some block.kind
               text := s.text ++ block.assembled.textPart
               thinking := s.thinking ++ block.assembled.thinkingPart
               tools := s.tools ++ block.assembled.toolPart.toList } where
  started := hstarted.trans h.started
  finished := hfinished.trans h.finished
  textFlag := by rw [htext]; simp
  thinkingFlag := by rw [hthinking]; simp
  toolFlag := by rw [htool]; simp
  head := hhead
  text := by rw [contents_blockStart, intercalate_parts_concat, h.text]
  thinking := by rw [contents_blockStart, intercalate_parts_concat, h.thinking]
  tools := by
    rw [contents_blockStart, List.filterMap_append, h.tools]
    cases block <;> rfl
  stopReason := h.stopReason
  usage := h.usage

theorem moves_ensureTextBlock {s : AnswerState}
    (hother : ∀ kind, s.openBlock = some kind → kind = .text) :
    Moves st (ensureTextBlock st) s { s with openBlock := some .text } := by
  intro t h
  unfold ensureTextBlock
  split_ifs with hflag
  · rwa [← openBlock_of_flag h.textFlag hflag]
  · have hnone := openBlock_of_not_flag h.textFlag hflag hother
    have hthinking := h.thinkingFlag
    have htool := h.toolFlag
    rw [hnone] at hthinking htool
    rw [Emit.push, Emit.withCtx, ← List.append_assoc, assemble_snoc]
    have hstart : TracksAnswer { st.ctx with contentBlockStarted := true } _ _ :=
      h.blockStart st.ctx.contentIndex (.text "") rfl rfl rfl hthinking htool ⟨"", _, rfl⟩
    simpa [ClaudeBlock.assembled, ClaudeBlock.kind, AssembledBlock.textPart,
      AssembledBlock.thinkingPart, AssembledBlock.toolPart] using hstart

theorem moves_ensureThinkingBlock {s : AnswerState}
    (hother : ∀ kind, s.openBlock = some kind → kind = .thinking) :
    Moves st (ensureThinkingBlock st) s { s with openBlock := some .thinking } := by
  intro t h
  unfold ensureThinkingBlock
  split_ifs with hflag
  · rwa [← openBlock_of_flag h.thinkingFlag hflag]
  · have hnone := openBlock_of_not_flag h.thinkingFlag hflag hother
    have htext := h.textFlag
    have htool := h.toolFlag
    rw [hnone] at htext htool
    rw [Emit.push, Emit.withCtx, ← List.append_assoc, assemble_snoc]
    have hstart : TracksAnswer { st.ctx with thinkingBlockStarted := true
                                             thinkingIndex := st.ctx.contentIndex } _ _ :=
      h.blockStart st.ctx.contentIndex (.thinking "") rfl rfl htext rfl htool ⟨"", _, rfl⟩
    simpa [ClaudeBlock.assembled, ClaudeBlock.kind, AssembledBlock.textPart,
      AssembledBlock.thinkingPart, AssembledBlock.toolPart] using hstart

theorem moves_textDelta {s : AnswerState} (hopen : s.openBlock = some .text) (x : String) :
    Moves st (st.push (.contentBlockDelta st.ctx.contentIndex (.textDelta x))) s
      { s with text := s.text ++ x } := by
  intro t h
  have hhead := h.head
  rw [hopen] at hhead
  obtain ⟨y, rest, hblocks⟩ := hhead
  obtain ⟨hblocks', hbefore, hafter⟩ := contents_blockDelta hblocks (.textDelta x)
  have htext := h.text
  have hthinking := h.thinking
  have htools := h.tools
  rw [hbefore] at htext hthinking htools
  rw [Emit.push, ← List.append_assoc, assemble_snoc]
  refine { h with head := ?_, text := ?_, thinking := ?_, tools := ?_ }
  · dsimp only
    rw [hopen]
    exact ⟨_, _, hblocks'⟩
  · rw [hafter, intercalate_parts_concat, ← htext, intercalate_parts_concat, String.append_assoc]
    rfl
  · rw [hafter, ← hthinking, intercalate_parts_concat, intercalate_parts_concat]
    rfl
  · rw [hafter, ← htools, List.filterMap_append, List.filterMap_append]
    rfl

theorem moves_thinkingDelta {s : AnswerState} (hopen : s.openBlock = some .thinking) (x : String) :
    Moves st (st.push (.contentBlockDelta st.ctx.thinkingIndex (.thinkingDelta x))) s
      { s with thinking := s.thinking ++ x } := by
  intro t h
  have hhead := h.head
  rw [hopen] at hhead
  obtain ⟨y, rest, hblocks⟩ := hhead
  obtain ⟨hblocks', hbefore, hafter⟩ := contents_blockDelta hblocks (.thinkingDelta x)
  have htext := h.text
  have hthinking := h.thinking
  have htools := h.tools
  rw [hbefore] at htext hthinking htools
  rw [Emit.push, ← List.append_assoc, assemble_snoc]
  refine { h with head := ?_, text := ?_, thinking := ?_, tools := ?_ }
  · dsimp only
    rw [hopen]
    exact ⟨_, _, hblocks'⟩
  · rw [hafter, ← htext, intercalate_parts_concat, intercalate_parts_concat]
    rfl
  · rw [hafter, intercalate_parts_concat, ← hthinking, intercalate_parts_concat,
      String.append_assoc]
    rfl
  · rw [hafter, ← htools, List.filterMap_append, List.filterMap_append]
    rfl

theorem moves_inputJsonDelta {s : AnswerState} (hopen : s.openBlock = some .toolUse) (x : String) :
    Moves st (st.push (.contentBlockDelta st.ctx.toolIndex (.inputJsonDelta x))) s
      { s with tools := extendLast x s.tools } := by
  intro t h
  have hhead := h.head
  rw [hopen] at hhead
  obtain ⟨id, name, y, rest, hblocks⟩ := hhead
  obtain ⟨hblocks', hbefore, hafter⟩ := contents_blockDelta hblocks (.inputJsonDelta x)
  have htext := h.text
  have hthinking := h.thinking
  have htools := h.tools
  rw [hbefore] at htext hthinking htools
  rw [Emit.push, ← List.append_assoc, assemble_snoc]
  refine { h with head := ?_, text := ?_, thinking := ?_, tools := ?_ }
  · dsimp only
    rw [hopen]
    exact ⟨_, _, _, _, hblocks'⟩
  · rw [hafter, ← htext, intercalate_parts_concat, intercalate_parts_concat]
    rfl
  · rw [hafter, ← hthinking, intercalate_parts_concat, intercalate_parts_concat]
    rfl
  · dsimp only
    rw [hafter, ← htools, List.filterMap_append, List.filterMap_append]
    exact (extendLast_concat x _ (id, name, y)).symm

/-! ### The operations -/

theorem moves_emitTextDelta (x : String) (st : Emit ClaudeEvent) (s : AnswerState) :
    Moves st (emitTextDelta x st) s (applyOp s (.text x)) := by
  unfold emitTextDelta applyOp
  dsimp only
  split_ifs with hempty
  · exact Moves.refl st s
  · have hclose := ((moves_closeThinkingBlock st s).trans (moves_leaveToolBlock _ _)).trans
      (moves_ensureTextBlock _ (by
        intro kind hkind
        simp only [AnswerState.openBlock_close_eq_some] at hkind
        cases kind <;> simp_all))
    rw [AnswerState.with_close, AnswerState.with_close] at hclose
    exact hclose.trans (moves_textDelta _ rfl x)

theorem moves_emitThinkingDelta (x : String) (st : Emit ClaudeEvent) (s : AnswerState) :
    Moves st (emitThinkingDelta x st) s (applyOp s (.thinking x)) := by
  unfold emitThinkingDelta applyOp
  dsimp only
  split_ifs with hempty
  · exact Moves.refl st s
  · have hclose := ((moves_leaveTextBlock st s).trans (moves_leaveToolBlock _ _)).trans
      (moves_ensureThinkingBlock _ (by
        intro kind hkind
        simp only [AnswerState.openBlock_close_eq_some] at hkind
        cases kind <;> simp_all))
    rw [AnswerState.with_close, AnswerState.with_close] at hclose
    exact hclose.trans (moves_thinkingDelta _ rfl x)

theorem moves_startToolBlock {s : AnswerState} (hnone : s.openBlock = none) (id name : String) :
    Moves st ((st.withCtx fun ctx =>
        { ctx with toolBlockStarted := true, toolIndex := ctx.contentIndex
                   currentToolId := id, currentToolName := name, toolArguments := "" }).push
        (.contentBlockStart st.ctx.contentIndex (.toolUse id name (some (.obj []))))) s
      { s with openBlock := some .toolUse, tools := s.tools ++ [(id, name, "")] } := by
  intro t h
  have htext := h.textFlag
  have hthinking := h.thinkingFlag
  rw [hnone] at htext hthinking
  rw [Emit.push, Emit.withCtx, ← List.append_assoc, assemble_snoc]
  have hstart : TracksAnswer { st.ctx with toolBlockStarted := true
                                           toolIndex := st.ctx.contentIndex
                                           currentToolId := id, currentToolName := name
                                           toolArguments := "" } _ _ :=
    h.blockStart st.ctx.contentIndex (.toolUse id name (some (.obj []))) rfl rfl htext hthinking
      rfl ⟨_, _, _, _, rfl⟩
  simpa [ClaudeBlock.assembled, ClaudeBlock.kind, AssembledBlock.textPart,
    AssembledBlock.thinkingPart, AssembledBlock.toolPart] using hstart

theorem moves_openToolCall :
    Moves st (openToolCall toolCall st) s
      (if toolCall.id = "" then s
      else { s with openBlock := some .toolUse
                    tools := s.tools ++ [(toolCall.id, toolCall.function.name, "")] }) := by
  unfold openToolCall
  split_ifs with hid
  · exact Moves.refl st s
  · have hclose := ((moves_closeThinkingBlock st s).trans (moves_leaveTextBlock _ _)).trans
      (moves_leaveToolBlock _ _)
    rw [AnswerState.close_all _ (by intro kind; cases kind <;> simp)] at hclose
    exact hclose.trans (moves_startToolBlock _ rfl toolCall.id toolCall.function.name)

theorem moves_emitToolArguments {s : AnswerState}
    (hopen : toolCall.function.arguments ≠ "" → s.openBlock = some .toolUse) :
    Moves st (emitToolArguments toolCall st) s
      (if toolCall.function.arguments = "" then s
      else { s with tools := extendLast toolCall.function.arguments s.tools }) := by
  unfold emitToolArguments
  split_ifs with hempty
  · exact Moves.refl st s
  · intro t h
    have hflag : st.ctx.toolBlockStarted = true := by
      rw [h.toolFlag, hopen hempty]
      rfl
    dsimp only
    rw [ensureToolBlock, if_pos hflag]
    have hargs : Moves st (st.withCtx fun ctx =>
        { ctx with toolArguments := ctx.toolArguments ++ toolCall.function.arguments }) s s :=
      fun t h => { h with head := h.head }
    exact (hargs.trans (moves_inputJsonDelta _ (hopen hempty) _)) t h

theorem moves_onToolCall {s : AnswerState} (hfits : OpFits s (.toolCall toolCall)) :
    Moves st (onToolCall st toolCall) s (applyOp s (.toolCall toolCall)) := by
  refine (moves_openToolCall toolCall st s).trans (moves_emitToolArguments toolCall _ ?_)
  intro hargs
  by_cases hid : toolCall.id = ""
  · rw [if_pos hid]
    exact hfits hid hargs
  · rw [if_neg hid]

theorem mergeUsage_outputTokens {usage : String → Option Json} {inputTokens outputTokens : ℤ}
    (h : ∀ key, usage key = (answerUsage inputTokens outputTokens).get key) (key : String) :
    mergeUsage usage (.obj [("output_tokens", .int 0)]) key =
      (answerUsage inputTokens 0).get key := by
  rw [mergeUsage, h]
  by_cases hinput : key = "input_tokens"
  · simp [hinput, Json.get, answerUsage, List.lookup_cons]
  · by_cases houtput : key = "output_tokens"
    · simp [houtput, Json.get, answerUsage, List.lookup_cons]
    · simp [hinput, houtput, Json.get, answerUsage, List.lookup_cons, beq_false_of_ne]

theorem mergeUsage_answerUsage {usage : String → Option Json} {inputTokens outputTokens : ℤ}
    (h : ∀ key, usage key = (answerUsage inputTokens outputTokens).get key)
    {inputTokens' outputTokens' : ℤ} (key : String) :
    mergeUsage usage (answerUsage inputTokens' outputTokens') key =
      (answerUsage inputTokens' outputTokens').get key := by
  rw [mergeUsage, h]
  by_cases hinput : key = "input_tokens"
  · simp [hinput, Json.get, answerUsage]
  · by_cases houtput : key = "output_tokens"
    · simp [houtput, Json.get, answerUsage, List.lookup_cons]
    · simp [hinput, houtput, Json.get, answerUsage, List.lookup_cons, beq_false_of_ne]

theorem moves_onFinishReason (reason : String) (st : Emit ClaudeEvent) (s : AnswerState) :
    Moves st (onFinishReason (some reason) st) s (applyOp s (.finish reason)) := by
  intro t h
  have hsent : st.ctx.finishReasonSent = false ↔ s.stopReason = none := by
    rw [h.finished]
    simp
  unfold onFinishReason applyOp
  dsimp only
  by_cases hfinish : reason ≠ "" ∧ s.stopReason = none
  · have hclose := (((moves_closeThinkingBlock st s).trans (moves_closeTextBlock _ _)).trans
      (moves_closeToolBlock _ _)) t h
    rw [AnswerState.close_all _ (by intro kind; cases kind <;> simp)] at hclose
    rw [if_pos hfinish, if_pos ⟨hfinish.1, hsent.2 hfinish.2⟩, Emit.push, Emit.withCtx,
      ← List.append_assoc, assemble_snoc]
    exact { hclose with
      finished := rfl
      stopReason := rfl
      usage := mergeUsage_outputTokens hclose.usage }
  · rw [if_neg hfinish, if_neg fun hboth => hfinish ⟨hboth.1, hsent.1 hboth.2⟩]
    exact h

theorem moves_emitUsage (usage : OpenAIUsage) (st : Emit ClaudeEvent) (s : AnswerState) :
    Moves st (emitUsage (some usage) st) s (applyOp s (.usage usage)) := by
  intro t h
  rw [emitUsage, Emit.push, ← List.append_assoc, assemble_snoc]
  exact { h with
    head := h.head
    usage := mergeUsage_answerUsage h.usage }

/-- **An operation does to the assembled message what `applyOp` says.** -/
theorem moves_takeOp {s : AnswerState} {op : AnswerOp} (hfits : OpFits s op) :
    Moves st (takeOp st op) s (applyOp s op) := by
  cases op with
  | thinking x => exact moves_emitThinkingDelta x st s
  | text x => exact moves_emitTextDelta x st s
  | toolCall toolCall => exact moves_onToolCall toolCall st hfits
  | finish reason => exact moves_onFinishReason reason st s
  | usage usage => exact moves_emitUsage usage st s

end AiOpenRouter
