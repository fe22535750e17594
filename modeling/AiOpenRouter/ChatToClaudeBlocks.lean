/-
One block at a time through the chat → Claude converter.

A Claude client expects one open block at a time, numbered 0, 1, 2, …, and
deltas of the open block's kind (`BlocksSequential`).  `blockLedger` keeps the
books of a chat stream on its chunks alone: what is open, how many blocks were
started, and whether the last block was closed by an end (`stale`: the
converter does not advance `content_index` there).

* `blocksSequential_chatToClaude_iff` — the blocks of a run are sequential iff
  the operations of its chunks fit the ledger: tool arguments need an open tool
  block or no block at all, and a new block needs a fresh index.
-/
import AiOpenRouter.ChatToClaude

open Trace Ledger

namespace AiOpenRouter

/-! ### Sequential blocks -/

/-- The blocks a Claude client relies on. -/
structure BlocksSequential (t : List ClaudeEvent) : Prop where
  /-- at most one block is open at any moment -/
  open_le_one : ∀ pre post, t = pre ++ post → (openIndices pre).card ≤ 1
  /-- a new block has a new index, the number of blocks started before -/
  start_index : ∀ pre (i : ℤ) block post, t = pre ++ .contentBlockStart i block :: post →
    i = startCount pre ∧ startsAt pre i = 0
  /-- a delta names the open block and has its kind -/
  delta_open : ∀ pre i delta post, t = pre ++ .contentBlockDelta i delta :: post →
    openIndices pre = {i} ∧ kindAt pre i = some delta.kind
  /-- a stop names the open block -/
  stop_open : ∀ pre i post, t = pre ++ .contentBlockStop i :: post → openIndices pre = {i}

def SequentialAllows (pre : List ClaudeEvent) : ClaudeEvent → Prop
  | .contentBlockStart i _ => openIndices pre = ∅ ∧ i = startCount pre
  | .contentBlockDelta i delta => openIndices pre = {i} ∧ kindAt pre i = some delta.kind
  | .contentBlockStop i => openIndices pre = {i}
  | _ => True

instance (pre : List ClaudeEvent) (e : ClaudeEvent) : Decidable (SequentialAllows pre e) := by
  cases e <;> unfold SequentialAllows <;> infer_instance

theorem startsAt_pos_of_permits {t : List ClaudeEvent} (h : Permits SequentialAllows t) :
    ∀ i, 0 < startsAt t i → i < startCount t := by
  induction t using List.reverseRecOn with
  | nil => simp
  | append_singleton t e ih =>
    obtain ⟨ht, he⟩ := permits_snoc.1 h
    intro i hi
    rw [startsAt_snoc] at hi
    rw [startCount_snoc]
    rcases e with _ | ⟨j, block⟩ | _ | _ | _ | _
    case contentBlockStart =>
      obtain ⟨-, hj⟩ := he
      by_cases hij : j = i
      · rw [← hij, hj]
        simp only [ClaudeEvent.isBlockStart, if_true]
        push_cast
        omega
      · simp only [ClaudeEvent.isStartAt, hij, decide_false, Bool.false_eq_true, if_false] at hi
        have := ih ht i hi
        push_cast
        omega
    all_goals
      simp only [ClaudeEvent.isStartAt, Bool.false_eq_true, if_false] at hi
      have := ih ht i hi
      push_cast
      omega

theorem openIndices_card_of_permits {t : List ClaudeEvent} (h : Permits SequentialAllows t) :
    (openIndices t).card ≤ 1 := by
  induction t using List.reverseRecOn with
  | nil => simp
  | append_singleton t e ih =>
    obtain ⟨ht, he⟩ := permits_snoc.1 h
    rw [openIndices_snoc]
    rcases e with _ | ⟨j, block⟩ | _ | j | _ | _
    case contentBlockStart =>
      rw [openStep, he.1]
      simp
    case contentBlockStop => exact (Finset.card_le_card (Finset.erase_subset j _)).trans (ih ht)
    all_goals exact ih ht

theorem blocksSequential_iff_permits {t : List ClaudeEvent} :
    BlocksSequential t ↔ Permits SequentialAllows t := by
  constructor
  · rintro ⟨hcard, hstart, hdelta, hstop⟩ pre e post ht
    rcases e with _ | ⟨i, block⟩ | ⟨i, delta⟩ | i | _ | _
    case contentBlockStart =>
      obtain ⟨hi, hnew⟩ := hstart pre i block post ht
      refine ⟨?_, hi⟩
      -- the new index is not open, and with it at most one block is
      have hclosed : i ∉ openIndices pre := by
        intro hmem
        rcases mem_foldl_openStep hmem with h | h
        · simp at h
        · omega
      have hone := hcard (pre ++ [.contentBlockStart i block]) post (by rw [ht]; simp)
      rw [openIndices_snoc, openStep, Finset.card_insert_of_notMem hclosed] at hone
      exact Finset.card_eq_zero.1 (by omega)
    case contentBlockDelta => exact hdelta pre i delta post ht
    case contentBlockStop => exact hstop pre i post ht
    all_goals trivial
  · intro h
    refine ⟨fun pre post ht => ?_, fun pre i block post ht => ?_,
      fun pre i delta post ht => h pre _ post ht, fun pre i post ht => h pre _ post ht⟩
    · rw [ht] at h
      exact openIndices_card_of_permits h.of_append
    · obtain ⟨-, hi⟩ := h pre _ post ht
      refine ⟨hi, ?_⟩
      rw [ht] at h
      rcases Nat.eq_zero_or_pos (startsAt pre i) with h0 | h0
      · exact h0
      · have := startsAt_pos_of_permits h.of_append i h0
        omega

/-! ### The ledger -/

/-- The books of a chat stream. -/
structure BlockLedger where
  /-- a chunk was read -/
  seen : Bool
  /-- a finish reason was sent -/
  finished : Bool
  /-- the kind of the open block -/
  current : Option BlockKind
  /-- the last text or tool block was closed by an end: its index is not free -/
  stale : Bool
  /-- how many blocks were started -/
  started : ℕ

namespace BlockLedger

/-- The empty books. -/
def new : BlockLedger where
  seen := false
  finished := false
  current := none
  stale := false
  started := 0

def leave (b : BlockLedger) (kind : BlockKind) : BlockLedger :=
  if b.current = some kind then { b with current := none } else b

/-- Close a block at an end. -/
def stop (b : BlockLedger) (kind : BlockKind) : BlockLedger :=
  if b.current = some kind then { b with current := none, stale := true } else b

def stopAll (b : BlockLedger) : BlockLedger :=
  ((b.leave .thinking).stop .text).stop .toolUse

def start (b : BlockLedger) (kind : BlockKind) : BlockLedger :=
  { b with current := some kind, stale := false, started := b.started + 1 }

def enter (b : BlockLedger) (kind : BlockKind) : BlockLedger :=
  if b.current = some kind then b else b.start kind

/-- A new block gets the next index: the last one was left, not stopped, and the `i32`
counter has not wrapped. -/
def HasFreshIndex (b : BlockLedger) : Prop := b.stale = false ∧ b.started < 2147483648

instance (b : BlockLedger) : Decidable b.HasFreshIndex := by
  unfold HasFreshIndex
  infer_instance

end BlockLedger

inductive BlockOp where
  /-- the chunk itself -/
  | begin
  /-- text or thinking -/
  | write (kind : BlockKind)
  /-- a tool call with an id -/
  | openTool
  /-- arguments of a tool call -/
  | toolArguments
  /-- a finish reason -/
  | finish
  /-- `[DONE]` -/
  | done

/-- The bookkeeping of the operations, and when they fit. -/
def blockLedger : OpSystem BlockLedger BlockOp where
  next b
    | .begin => { b with seen := true }
    | .write kind => if b.current = some kind then b else b.start kind
    | .openTool => b.start .toolUse
    | .toolArguments => b.enter .toolUse
    | .finish => if b.finished then b else { b.stopAll with finished := true }
    | .done => { b.stopAll with finished := b.stopAll.finished || b.stopAll.seen }
  fits b
    | .write kind => b.current = some kind ∨ b.HasFreshIndex
    | .openTool => b.HasFreshIndex
    | .toolArguments => b.current = some .toolUse ∨ (b.current = none ∧ b.HasFreshIndex)
    | _ => True

instance (b : BlockLedger) (op : BlockOp) : Decidable (blockLedger.fits b op) := by
  cases op <;> simp only [blockLedger] <;> infer_instance

def toolCallBlockOps (toolCall : OpenAIToolCall) : List BlockOp :=
  (if toolCall.id = "" then [] else [.openTool]) ++
    (if toolCall.function.arguments = "" then [] else [.toolArguments])

def choiceBlockOps (choice : OpenAIStreamChoice) : List BlockOp :=
  (if choice.delta.reasoningContent.getD "" = "" then [] else [.write .thinking]) ++
    (if choice.delta.content.getD "" = "" then [] else [.write .text]) ++
    (choice.delta.toolCalls.getD []).flatMap toolCallBlockOps ++
    (if choice.finishReason.getD "" = "" then [] else [.finish])

def chunkBlockOps (chunk : OpenAIStreamChunk) : List BlockOp :=
  .begin ::
    match chunk.choices with
    | [] => []
    | choice :: _ =>
      if chunk.usage.isSome && isUsageOnly choice then [] else choiceBlockOps choice

/-- The operations of an upstream block. -/
def eventBlockOps (env : Env) (event : Bytes) : List BlockOp :=
  match readChatInput env event with
  | .chunk chunk => chunkBlockOps chunk
  | .done => [.done]
  | _ => []

/-! ### The helpers' operations -/

inductive BlockStep where
  | begin
  | leave (kind : BlockKind)
  | stop (kind : BlockKind)
  | start (kind : BlockKind)
  | ensure (kind : BlockKind)
  | delta (kind : BlockKind)
  | finish
  | done

def blockSteps : OpSystem BlockLedger BlockStep where
  next b
    | .begin => { b with seen := true }
    | .leave kind => b.leave kind
    | .stop kind => b.stop kind
    | .start kind => b.start kind
    | .ensure kind => b.enter kind
    | .delta _ => b
    | .finish => if b.finished then b else { b.stopAll with finished := true }
    | .done => { b.stopAll with finished := b.stopAll.finished || b.stopAll.seen }
  fits b
    | .start _ => b.current = none ∧ b.HasFreshIndex
    | .ensure kind => b.current = some kind ∨ (b.current = none ∧ b.HasFreshIndex)
    | .delta kind => b.current = some kind
    | _ => True

/-- The helpers an operation goes through. -/
def BlockOp.steps : BlockOp → List BlockStep
  | .begin => [.begin]
  | .write .thinking => [.leave .text, .leave .toolUse, .ensure .thinking, .delta .thinking]
  | .write .text => [.leave .thinking, .leave .toolUse, .ensure .text, .delta .text]
  | .write .toolUse => [.leave .thinking, .leave .text, .ensure .toolUse, .delta .toolUse]
  | .openTool => [.leave .thinking, .leave .text, .leave .toolUse, .start .toolUse]
  | .toolArguments => [.ensure .toolUse, .delta .toolUse]
  | .finish => [.finish]
  | .done => [.done]

theorem blockLedger_expands : OpSystem.Expands blockLedger blockSteps BlockOp.steps where
  fits b op := by
    obtain ⟨seen, finished, current, stale, started⟩ := b
    rcases op with _ | kind | _ | _ | _ | _
    case write =>
      rcases kind with _ | _ | _ <;> rcases current with _ | _ | _ | _ <;>
        simp [BlockOp.steps, blockSteps, blockLedger, BlockLedger.leave, BlockLedger.enter,
          BlockLedger.start, BlockLedger.HasFreshIndex]
    all_goals
      rcases current with _ | _ | _ | _ <;>
        simp [BlockOp.steps, blockSteps, blockLedger, BlockLedger.leave, BlockLedger.enter,
          BlockLedger.start, BlockLedger.HasFreshIndex]
  next b op _ := by
    obtain ⟨seen, finished, current, stale, started⟩ := b
    rcases op with _ | kind | _ | _ | _ | _
    case write =>
      rcases kind with _ | _ | _ <;> rcases current with _ | _ | _ | _ <;>
        simp [BlockOp.steps, blockSteps, blockLedger, BlockLedger.leave, BlockLedger.enter,
          BlockLedger.start]
    all_goals
      rcases current with _ | _ | _ | _ <;>
        simp [BlockOp.steps, blockSteps, blockLedger, BlockLedger.leave, BlockLedger.enter,
          BlockLedger.start]

/-! ### The context and the ledger -/

structure FlagsOf (ctx : StreamContext) (current : Option BlockKind) : Prop where
  thinking : ctx.thinkingBlockStarted = decide (current = some .thinking)
  text : ctx.contentBlockStarted = decide (current = some .text)
  tool : ctx.toolBlockStarted = decide (current = some .toolUse)

structure KeepsBooks (b : BlockLedger) (ctx : StreamContext) (t : List ClaudeEvent) : Prop where
  seen : b.seen = ctx.messageStartSent
  finished : b.finished = ctx.finishReasonSent
  flags : FlagsOf ctx b.current
  count : startCount t = b.started
  bound : b.started ≤ 2147483648
  opened : openIndices t = if b.current = none then ∅ else {(b.started : ℤ) - 1}
  kind : ∀ kind, b.current = some kind → kindAt t (b.started - 1) = some kind
  contentIndex : ctx.contentIndex
    = wrapI32 (if b.current = none ∧ b.stale = false then b.started else b.started - 1)
  thinkingIndex : b.current = some .thinking → ctx.thinkingIndex = b.started - 1
  toolIndex : b.current = some .toolUse → ctx.toolIndex = b.started - 1
  positive : b.current ≠ none ∨ b.stale = true → 1 ≤ b.started
  stale : b.stale = true → b.current = none

theorem keepsBooks_new : KeepsBooks BlockLedger.new StreamContext.new [] where
  seen := rfl
  finished := rfl
  flags := ⟨rfl, rfl, rfl⟩
  count := rfl
  bound := by simp [BlockLedger.new]
  opened := rfl
  kind kind h := by simp [BlockLedger.new] at h
  contentIndex := by decide
  thinkingIndex h := by simp [BlockLedger.new] at h
  toolIndex h := by simp [BlockLedger.new] at h
  positive h := by simp [BlockLedger.new] at h
  stale h := by simp [BlockLedger.new] at h

variable {b : BlockLedger} {ctx : StreamContext} {t : List ClaudeEvent}

theorem KeepsBooks.contentIndex_eq (h : KeepsBooks b ctx t) (hopen : b.current ≠ none) :
    ctx.contentIndex = b.started - 1 := by
  have hpos := h.positive (Or.inl hopen)
  have hbound := h.bound
  rw [h.contentIndex, if_neg fun hnone => hopen hnone.1]
  exact wrapI32_of_mem (by omega) (by omega)

theorem KeepsBooks.fresh_iff (h : KeepsBooks b ctx t) (hnone : b.current = none) :
    ctx.contentIndex = startCount t ↔ b.HasFreshIndex := by
  have hbound := h.bound
  rw [h.contentIndex, h.count, BlockLedger.HasFreshIndex, hnone]
  rcases hstale : b.stale with _ | _
  · simp only [true_and, if_true]
    unfold wrapI32
    omega
  · have hpos := h.positive (Or.inr hstale)
    simp only [true_and, Bool.true_eq_false, false_and, if_false, iff_false]
    rw [wrapI32_of_mem (by omega) (by omega)]
    omega

variable {ctx' : StreamContext} {st' : Emit ClaudeEvent} (toolCall : OpenAIToolCall)
  (st : Emit ClaudeEvent)

theorem KeepsBooks.congr (h : KeepsBooks b ctx t) {seen finished : Bool}
    (hseen : seen = ctx'.messageStartSent) (hfinished : finished = ctx'.finishReasonSent)
    (hthinking : ctx'.thinkingBlockStarted = ctx.thinkingBlockStarted)
    (htext : ctx'.contentBlockStarted = ctx.contentBlockStarted)
    (htool : ctx'.toolBlockStarted = ctx.toolBlockStarted)
    (hcontentIndex : ctx'.contentIndex = ctx.contentIndex)
    (hthinkingIndex : ctx'.thinkingIndex = ctx.thinkingIndex)
    (htoolIndex : ctx'.toolIndex = ctx.toolIndex) :
    KeepsBooks { b with seen := seen, finished := finished } ctx' t where
  seen := hseen
  finished := hfinished
  flags := ⟨hthinking.trans h.flags.thinking, htext.trans h.flags.text, htool.trans h.flags.tool⟩
  count := h.count
  bound := h.bound
  opened := h.opened
  kind := h.kind
  contentIndex := hcontentIndex.trans h.contentIndex
  thinkingIndex hk := hthinkingIndex.trans (h.thinkingIndex hk)
  toolIndex hk := htoolIndex.trans (h.toolIndex hk)
  positive := h.positive
  stale := h.stale

theorem KeepsBooks.close (h : KeepsBooks b ctx t) (hopen : b.current ≠ none) {stale : Bool}
    (hseen : ctx'.messageStartSent = ctx.messageStartSent)
    (hfinished : ctx'.finishReasonSent = ctx.finishReasonSent) (hflags : FlagsOf ctx' none)
    (hindex : ctx'.contentIndex = wrapI32 (if stale = false then b.started else b.started - 1)) :
    KeepsBooks { b with current := none, stale := stale } ctx'
      (t ++ [.contentBlockStop (b.started - 1)]) where
  seen := h.seen.trans hseen.symm
  finished := h.finished.trans hfinished.symm
  flags := hflags
  count := by rw [startCount_snoc, h.count]; rfl
  bound := h.bound
  opened := by
    rw [openIndices_snoc, h.opened, if_neg hopen, openStep]
    simp
  kind kind hk := by simp at hk
  contentIndex := by simpa using hindex
  thinkingIndex hk := by simp at hk
  toolIndex hk := by simp at hk
  positive _ := h.positive (Or.inl hopen)
  stale _ := rfl

theorem KeepsBooks.start (h : KeepsBooks b ctx t) (hnone : b.current = none)
    (hfresh : b.HasFreshIndex) {block : ClaudeBlock}
    (hseen : ctx'.messageStartSent = ctx.messageStartSent)
    (hfinished : ctx'.finishReasonSent = ctx.finishReasonSent)
    (hflags : FlagsOf ctx' (some block.kind)) (hindex : ctx'.contentIndex = ctx.contentIndex)
    (hthinking : block.kind = .thinking → ctx'.thinkingIndex = ctx.contentIndex)
    (htool : block.kind = .toolUse → ctx'.toolIndex = ctx.contentIndex) :
    KeepsBooks (b.start block.kind) ctx' (t ++ [.contentBlockStart ctx.contentIndex block]) := by
  have hcontent : ctx.contentIndex = b.started := by
    rw [(h.fresh_iff hnone).2 hfresh, h.count]
  have hcast : ((b.started + 1 : ℕ) : ℤ) - 1 = b.started := by omega
  have hlt := hfresh.2
  refine ⟨h.seen.trans hseen.symm, h.finished.trans hfinished.symm, hflags, ?_, ?_, ?_, ?_, ?_,
    ?_, ?_, ?_, ?_⟩
  · rw [startCount_snoc, h.count]
    rfl
  · simp only [BlockLedger.start]
    omega
  · rw [openIndices_snoc, h.opened, hnone, openStep, hcontent]
    simp only [BlockLedger.start, hcast]
    simp
  · intro kind hk
    simp only [BlockLedger.start, hcast] at hk ⊢
    rw [hcontent, kindAt_snoc_start, Function.update_self]
    exact hk
  · rw [hindex, hcontent]
    simp only [BlockLedger.start, hcast]
    simp [wrapI32_of_mem (by omega : (-2147483648 : ℤ) ≤ b.started) (by omega)]
  · intro hk
    simp only [BlockLedger.start, hcast] at hk ⊢
    rw [hthinking (Option.some_inj.1 hk), hcontent]
  · intro hk
    simp only [BlockLedger.start, hcast] at hk ⊢
    rw [htool (Option.some_inj.1 hk), hcontent]
  · intro _
    simp only [BlockLedger.start]
    omega
  · intro hk
    simp [BlockLedger.start] at hk

theorem KeepsBooks.delta (h : KeepsBooks b ctx t) (i : ℤ) (delta : ClaudeDelta) :
    KeepsBooks b ctx (t ++ [.contentBlockDelta i delta]) where
  seen := h.seen
  finished := h.finished
  flags := h.flags
  count := by rw [startCount_snoc]; exact h.count
  bound := h.bound
  opened := by rw [openIndices_snoc]; exact h.opened
  kind kind hk := by
    rw [kindAt, blockAt_snoc]
    exact h.kind kind hk
  contentIndex := h.contentIndex
  thinkingIndex := h.thinkingIndex
  toolIndex := h.toolIndex
  positive := h.positive
  stale := h.stale

/-! ### What the helpers realise -/

theorem KeepsBooks.quiet (h : KeepsBooks b ctx t) {e : ClaudeEvent} (he : e.blockIndex = none) :
    KeepsBooks b ctx (t ++ [e]) ∧ SequentialAllows t e := by
  rcases e with _ | ⟨_, _⟩ | ⟨_, _⟩ | _ | ⟨_, _⟩ | _
  case contentBlockStart => exact absurd he (by simp [ClaudeEvent.blockIndex])
  case contentBlockDelta => exact absurd he (by simp [ClaudeEvent.blockIndex])
  case contentBlockStop => exact absurd he (by simp [ClaudeEvent.blockIndex])
  all_goals
    refine ⟨⟨h.seen, h.finished, h.flags, ?_, h.bound, ?_, ?_, h.contentIndex, h.thinkingIndex,
      h.toolIndex, h.positive, h.stale⟩, trivial⟩
    · rw [startCount_snoc]
      exact h.count
    · rw [openIndices_snoc]
      exact h.opened
    · intro kind hk
      rw [kindAt, blockAt_snoc]
      exact h.kind kind hk

abbrev StepRealises : List BlockStep → Emit ClaudeEvent → Emit ClaudeEvent → Prop :=
  Emit.Realises blockSteps KeepsBooks SequentialAllows

def closeWith (flag : StreamContext → Bool) (index : StreamContext → ℤ)
    (f : StreamContext → StreamContext) (st : Emit ClaudeEvent) : Emit ClaudeEvent :=
  if flag st.ctx then (st.push (.contentBlockStop (index st.ctx))).withCtx f else st

def closingStep (kind : BlockKind) (stale : Bool) : BlockStep :=
  if stale then .stop kind else .leave kind

theorem KeepsBooks.next_closingStep (h : KeepsBooks b ctx t) (kind : BlockKind) (stale : Bool) :
    blockSteps.next b (closingStep kind stale)
      = if b.current = some kind then { b with current := none, stale := stale } else b := by
  rcases stale with _ | _
  · by_cases hcur : b.current = some kind
    · -- nothing is stale while a block is open
      have hstale : b.stale = false := by
        rcases hs : b.stale with _ | _
        · rfl
        · exact absurd (h.stale hs) (by simp [hcur])
      have hbooks : { b with current := none, stale := false } = { b with current := none } := by
        rw [← hstale]
      rw [hbooks]
      simp [closingStep, blockSteps, BlockLedger.leave, hcur]
    · simp [closingStep, blockSteps, BlockLedger.leave, hcur]
  · simp [closingStep, blockSteps, BlockLedger.stop]

theorem realises_closeWith {flag : StreamContext → Bool} {index : StreamContext → ℤ}
    {f : StreamContext → StreamContext} (kind : BlockKind) (stale : Bool)
    (hflag : ∀ b ctx t, KeepsBooks b ctx t → (flag ctx = true ↔ b.current = some kind))
    (hindex : ∀ b ctx t, KeepsBooks b ctx t → b.current = some kind → index ctx = b.started - 1)
    (hf : ∀ b ctx t, KeepsBooks b ctx t → b.current = some kind →
      (f ctx).messageStartSent = ctx.messageStartSent ∧
      (f ctx).finishReasonSent = ctx.finishReasonSent ∧ FlagsOf (f ctx) none ∧
      (f ctx).contentIndex = wrapI32 (if stale = false then b.started else b.started - 1))
    (st : Emit ClaudeEvent) :
    StepRealises [closingStep kind stale] st (closeWith flag index f st) := by
  have hfits : ∀ b, blockSteps.fits b (closingStep kind stale) := by
    intro b
    rcases stale with _ | _ <;> trivial
  by_cases hset : flag st.ctx = true
  · refine ⟨[.contentBlockStop (index st.ctx)], by simp [closeWith, hset], ?_⟩
    intro b t hR hP
    have hcur := (hflag b st.ctx t hR).1 hset
    have hopen : b.current ≠ none := by simp [hcur]
    obtain ⟨hseen, hfinished, hflags, hcontent⟩ := hf b st.ctx t hR hcur
    rw [permits_snoc, hindex b st.ctx t hR hcur]
    refine ⟨iff_of_true ⟨hP, ?_⟩ ⟨hfits b, trivial⟩, fun _ => ?_⟩
    · rw [SequentialAllows, hR.opened, if_neg hopen]
    · rw [OpSystem.run_cons, OpSystem.run_nil, hR.next_closingStep, if_pos hcur]
      have hctx : (closeWith flag index f st).ctx = f st.ctx := by simp [closeWith, hset]
      rw [hctx]
      exact hR.close hopen hseen hfinished hflags hcontent
  · refine ⟨[], by simp [closeWith, hset], ?_⟩
    intro b t hR hP
    have hcur : b.current ≠ some kind := fun hcur => hset ((hflag b st.ctx t hR).2 hcur)
    have hctx : (closeWith flag index f st).ctx = st.ctx := by simp [closeWith, hset]
    rw [List.append_nil, hctx]
    refine ⟨iff_of_true hP ⟨hfits b, trivial⟩, fun _ => ?_⟩
    rw [OpSystem.run_cons, OpSystem.run_nil, hR.next_closingStep, if_neg hcur]
    exact hR

theorem realises_closeThinkingBlock :
    StepRealises [.leave .thinking] st (closeThinkingBlock st) := by
  refine realises_closeWith .thinking false (fun b ctx t h => ?_) (fun b ctx t h => h.thinkingIndex)
    (fun b ctx t h hcur => ?_) st
  · rw [h.flags.thinking, decide_eq_true_iff]
  · have hflags := h.flags
    rw [hcur] at hflags
    refine ⟨rfl, rfl, ⟨rfl, hflags.text, hflags.tool⟩, ?_⟩
    simp only [h.thinkingIndex hcur, if_true, Int.sub_add_cancel]

theorem realises_closeTextBlock : StepRealises [.stop .text] st (closeTextBlock st) := by
  refine realises_closeWith .text true (fun b ctx t h => ?_)
    (fun b ctx t h hcur => h.contentIndex_eq (by simp [hcur])) (fun b ctx t h hcur => ?_) st
  · rw [h.flags.text, decide_eq_true_iff]
  · have hflags := h.flags
    rw [hcur] at hflags
    refine ⟨rfl, rfl, ⟨hflags.thinking, rfl, hflags.tool⟩, ?_⟩
    simpa [hcur] using h.contentIndex

theorem realises_closeToolBlock : StepRealises [.stop .toolUse] st (closeToolBlock st) := by
  refine realises_closeWith .toolUse true (fun b ctx t h => ?_) (fun b ctx t h => h.toolIndex)
    (fun b ctx t h hcur => ?_) st
  · rw [h.flags.tool, decide_eq_true_iff]
  · have hflags := h.flags
    rw [hcur] at hflags
    refine ⟨rfl, rfl, ⟨hflags.thinking, hflags.text, rfl⟩, ?_⟩
    simpa [hcur] using h.contentIndex

theorem realises_leaveTextBlock : StepRealises [.leave .text] st (leaveTextBlock st) := by
  have heq : leaveTextBlock st = closeWith (·.contentBlockStarted) (·.contentIndex)
      (fun ctx => bumpContentIndex { ctx with contentBlockStarted := false }) st := by
    rw [leaveTextBlock, closeTextBlock, closeWith]
    split_ifs <;> rfl
  rw [heq]
  refine realises_closeWith .text false (fun b ctx t h => ?_)
    (fun b ctx t h hcur => h.contentIndex_eq (by simp [hcur])) (fun b ctx t h hcur => ?_) st
  · rw [h.flags.text, decide_eq_true_iff]
  · have hflags := h.flags
    rw [hcur] at hflags
    refine ⟨rfl, rfl, ⟨hflags.thinking, rfl, hflags.tool⟩, ?_⟩
    simp only [bumpContentIndex, h.contentIndex_eq (by simp [hcur]), if_true, Int.sub_add_cancel]

theorem realises_leaveToolBlock : StepRealises [.leave .toolUse] st (leaveToolBlock st) := by
  have heq : leaveToolBlock st = closeWith (·.toolBlockStarted) (·.toolIndex)
      (fun ctx => bumpContentIndex { ctx with toolBlockStarted := false }) st := by
    rw [leaveToolBlock, closeToolBlock, closeWith]
    split_ifs <;> rfl
  rw [heq]
  refine realises_closeWith .toolUse false (fun b ctx t h => ?_) (fun b ctx t h => h.toolIndex)
    (fun b ctx t h hcur => ?_) st
  · rw [h.flags.tool, decide_eq_true_iff]
  · have hflags := h.flags
    rw [hcur] at hflags
    refine ⟨rfl, rfl, ⟨hflags.thinking, hflags.text, rfl⟩, ?_⟩
    simp only [bumpContentIndex, h.contentIndex_eq (by simp [hcur]), if_true, Int.sub_add_cancel]

theorem realises_start {st : Emit ClaudeEvent} (block : ClaudeBlock)
    (hseen : ctx'.messageStartSent = st.ctx.messageStartSent)
    (hfinished : ctx'.finishReasonSent = st.ctx.finishReasonSent)
    (hflags : FlagsOf st.ctx none → FlagsOf ctx' (some block.kind))
    (hindex : ctx'.contentIndex = st.ctx.contentIndex)
    (hthinking : block.kind = .thinking → ctx'.thinkingIndex = st.ctx.contentIndex)
    (htool : block.kind = .toolUse → ctx'.toolIndex = st.ctx.contentIndex) :
    StepRealises [.start block.kind] st
      ⟨ctx', st.result ++ [.contentBlockStart st.ctx.contentIndex block]⟩ := by
  refine ⟨_, rfl, ?_⟩
  intro b t hR hP
  have hempty : openIndices t = ∅ ↔ b.current = none := by
    rw [hR.opened]
    by_cases hnone : b.current = none
    · simp [hnone]
    · simp [hnone]
  have hallow : SequentialAllows t (.contentBlockStart st.ctx.contentIndex block) ↔
      b.current = none ∧ b.HasFreshIndex := by
    rw [SequentialAllows, hempty]
    exact and_congr_right fun hnone => hR.fresh_iff hnone
  rw [permits_snoc]
  refine ⟨(and_iff_right hP).trans (hallow.trans (and_iff_left trivial).symm), fun hfits => ?_⟩
  obtain ⟨⟨hnone, hfresh⟩, -⟩ := hfits
  have hf := hR.flags
  rw [hnone] at hf
  exact hR.start hnone hfresh hseen hfinished (hflags hf) hindex hthinking htool

theorem realises_ensure {kind : BlockKind} (flag : StreamContext → Bool)
    (hflag : ∀ b ctx t, KeepsBooks b ctx t → (flag ctx = true ↔ b.current = some kind))
    {st : Emit ClaudeEvent} (hset : flag st.ctx = true → st' = st)
    (hunset : flag st.ctx = false → StepRealises [.start kind] st st') :
    StepRealises [.ensure kind] st st' := by
  rcases hf : flag st.ctx with _ | _
  · obtain ⟨q, hq, hreal⟩ := hunset hf
    refine ⟨q, hq, ?_⟩
    intro b t hR hP
    have hcur : b.current ≠ some kind := fun hcur => by
      rw [(hflag b st.ctx t hR).2 hcur] at hf
      exact absurd hf (by simp)
    obtain ⟨hiff, hnext⟩ := hreal b t hR hP
    simp only [OpSystem.fits_cons, OpSystem.fits_nil, and_true, OpSystem.run_cons,
      OpSystem.run_nil, blockSteps, BlockLedger.enter, hcur, false_or, if_false] at hiff hnext ⊢
    exact ⟨hiff, hnext⟩
  · rw [hset hf]
    refine ⟨[], by simp, ?_⟩
    intro b t hR hP
    have hcur := (hflag b st.ctx t hR).1 hf
    rw [List.append_nil]
    refine ⟨iff_of_true hP ⟨Or.inl hcur, trivial⟩, fun _ => ?_⟩
    simp only [OpSystem.run_cons, OpSystem.run_nil, blockSteps, BlockLedger.enter, hcur, if_true]
    exact hR

theorem realises_delta {st : Emit ClaudeEvent} {index : ℤ} (delta : ClaudeDelta)
    (hindex : ∀ b t, KeepsBooks b st.ctx t → b.current = some delta.kind →
      index = b.started - 1) :
    StepRealises [.delta delta.kind] st (st.push (.contentBlockDelta index delta)) := by
  refine ⟨_, rfl, ?_⟩
  intro b t hR hP
  have hallow : SequentialAllows t (.contentBlockDelta index delta) ↔
      b.current = some delta.kind := by
    rw [SequentialAllows]
    constructor
    · rintro ⟨hopen, hkind⟩
      rw [hR.opened] at hopen
      rcases hcur : b.current with _ | kind
      · rw [if_pos hcur] at hopen
        exact absurd hopen.symm (Finset.singleton_ne_empty index)
      · rw [if_neg (by simp [hcur]), Finset.singleton_inj] at hopen
        rw [← hopen, hR.kind kind hcur] at hkind
        exact hkind
    · intro hcur
      rw [hindex b t hR hcur, hR.opened, if_neg (by simp [hcur])]
      exact ⟨rfl, hR.kind _ hcur⟩
  rw [permits_snoc]
  refine ⟨(and_iff_right hP).trans (hallow.trans (and_iff_left trivial).symm), fun _ => ?_⟩
  exact hR.delta index delta

/-! ### The operations of a chunk -/

abbrev OpRealises : List BlockOp → Emit ClaudeEvent → Emit ClaudeEvent → Prop :=
  Emit.Realises blockLedger KeepsBooks SequentialAllows

theorem OpRealises.of_steps {op : BlockOp} {st : Emit ClaudeEvent}
    (h : StepRealises op.steps st st') : OpRealises [op] st st' := by
  obtain ⟨q, hq, hreal⟩ := h
  refine ⟨q, hq, Realises.of_expands blockLedger_expands ?_⟩
  simpa using hreal

theorem realises_if {op : BlockOp} {c : Prop} [Decidable c] {st st'' : Emit ClaudeEvent}
    (hst : c → st' = st) (hst' : ¬ c → st' = st'') (h : OpRealises [op] st st'') :
    OpRealises (if c then [] else [op]) st st' := by
  by_cases hc : c
  · rw [if_pos hc, hst hc]
    exact Emit.Realises.refl st
  · rw [if_neg hc, hst' hc]
    exact h

theorem realises_ensureTextBlock : StepRealises [.ensure .text] st (ensureTextBlock st) := by
  refine realises_ensure (·.contentBlockStarted)
    (fun b ctx t h => by rw [h.flags.text, decide_eq_true_iff]) (fun hf => ?_) (fun hf => ?_)
  · rw [ensureTextBlock, if_pos hf]
  · rw [ensureTextBlock, if_neg (by simp [hf])]
    exact realises_start (.text "") rfl rfl
      (fun hflags => ⟨hflags.thinking, rfl, hflags.tool⟩) rfl (by simp [ClaudeBlock.kind])
      (by simp [ClaudeBlock.kind])

theorem realises_ensureThinkingBlock :
    StepRealises [.ensure .thinking] st (ensureThinkingBlock st) := by
  refine realises_ensure (·.thinkingBlockStarted)
    (fun b ctx t h => by rw [h.flags.thinking, decide_eq_true_iff]) (fun hf => ?_) (fun hf => ?_)
  · rw [ensureThinkingBlock, if_pos hf]
  · rw [ensureThinkingBlock, if_neg (by simp [hf])]
    exact realises_start (.thinking "") rfl rfl
      (fun hflags => ⟨rfl, hflags.text, hflags.tool⟩) rfl (fun _ => rfl)
      (by simp [ClaudeBlock.kind])

theorem realises_ensureToolBlock :
    StepRealises [.ensure .toolUse] st (ensureToolBlock toolCall st) := by
  refine realises_ensure (·.toolBlockStarted)
    (fun b ctx t h => by rw [h.flags.tool, decide_eq_true_iff]) (fun hf => ?_) (fun hf => ?_)
  · rw [ensureToolBlock, if_pos hf]
  · rw [ensureToolBlock, if_neg (by simp [hf])]
    exact realises_start (.toolUse _ _ (some (.obj []))) rfl rfl
      (fun hflags => ⟨hflags.thinking, hflags.text, rfl⟩) rfl (by simp [ClaudeBlock.kind])
      (fun _ => rfl)

theorem realises_emitTextDelta (text : String) (st : Emit ClaudeEvent) :
    OpRealises (if text = "" then [] else [.write .text]) st (emitTextDelta text st) := by
  refine realises_if (fun h => by rw [emitTextDelta, if_pos h])
    (fun h => by rw [emitTextDelta, if_neg h]) (OpRealises.of_steps ?_)
  have h1 := realises_closeThinkingBlock st
  have h2 := realises_leaveToolBlock (closeThinkingBlock st)
  have h3 := realises_ensureTextBlock (leaveToolBlock (closeThinkingBlock st))
  exact ((h1.trans h2).trans h3).trans (realises_delta (.textDelta text)
    fun b t h hcur => h.contentIndex_eq (by simp [hcur]))

theorem realises_emitThinkingDelta (text : String) (st : Emit ClaudeEvent) :
    OpRealises (if text = "" then [] else [.write .thinking]) st (emitThinkingDelta text st) := by
  refine realises_if (fun h => by rw [emitThinkingDelta, if_pos h])
    (fun h => by rw [emitThinkingDelta, if_neg h]) (OpRealises.of_steps ?_)
  have h1 := realises_leaveTextBlock st
  have h2 := realises_leaveToolBlock (leaveTextBlock st)
  have h3 := realises_ensureThinkingBlock (leaveToolBlock (leaveTextBlock st))
  exact ((h1.trans h2).trans h3).trans (realises_delta (.thinkingDelta text)
    fun b t h hcur => h.thinkingIndex hcur)

theorem realises_openToolCall :
    OpRealises (if toolCall.id = "" then [] else [.openTool]) st (openToolCall toolCall st) := by
  refine realises_if (fun h => by rw [openToolCall, if_pos h])
    (fun h => by rw [openToolCall, if_neg h]) (OpRealises.of_steps ?_)
  have h1 := realises_closeThinkingBlock st
  have h2 := realises_leaveTextBlock (closeThinkingBlock st)
  have h3 := realises_leaveToolBlock (leaveTextBlock (closeThinkingBlock st))
  exact ((h1.trans h2).trans h3).trans (realises_start (.toolUse _ _ (some (.obj [])))
    rfl rfl (fun hflags => ⟨hflags.thinking, hflags.text, rfl⟩) rfl (by simp [ClaudeBlock.kind])
    (fun _ => rfl))

theorem realises_emitToolArguments :
    OpRealises (if toolCall.function.arguments = "" then [] else [.toolArguments]) st
      (emitToolArguments toolCall st) := by
  refine realises_if (fun h => by rw [emitToolArguments, if_pos h])
    (fun h => by rw [emitToolArguments, if_neg h]) (OpRealises.of_steps ?_)
  have h1 := realises_ensureToolBlock toolCall st
  have hargs : StepRealises [] (ensureToolBlock toolCall st)
      ((ensureToolBlock toolCall st).withCtx fun ctx =>
        { ctx with toolArguments := ctx.toolArguments ++ toolCall.function.arguments }) := by
    refine ⟨[], by simp, Realises.of_silent fun b t hR hP => ⟨by simpa using hP, ?_⟩⟩
    rw [List.append_nil]
    exact hR.congr hR.seen hR.finished rfl rfl rfl rfl rfl rfl
  exact (h1.trans hargs).trans (realises_delta (.inputJsonDelta _)
    fun b t h hcur => h.toolIndex hcur)

theorem realises_onToolCall : OpRealises (toolCallBlockOps toolCall) st (onToolCall st toolCall) :=
  (realises_openToolCall toolCall st).trans (realises_emitToolArguments toolCall _)

theorem realises_toolCalls (toolCalls : List OpenAIToolCall) (st : Emit ClaudeEvent) :
    OpRealises (toolCalls.flatMap toolCallBlockOps) st (toolCalls.foldl onToolCall st) := by
  induction toolCalls generalizing st with
  | nil => exact Emit.Realises.refl st
  | cons toolCall toolCalls ih =>
    rw [List.flatMap_cons, List.foldl_cons]
    exact (realises_onToolCall toolCall st).trans (ih _)

theorem realises_closeBlocks :
    StepRealises [.leave .thinking, .stop .text, .stop .toolUse] st (closeBlocks st) :=
  ((realises_closeThinkingBlock st).trans (realises_closeTextBlock _)).trans
    (realises_closeToolBlock _)

theorem KeepsBooks.closeBlocks (st : Emit ClaudeEvent) (h : KeepsBooks b st.ctx t)
    (hP : Permits SequentialAllows t) :
    ∃ q, (closeBlocks st).result = st.result ++ q ∧ Permits SequentialAllows (t ++ q) ∧
      KeepsBooks b.stopAll (closeBlocks st).ctx (t ++ q) := by
  obtain ⟨q, hq, hreal⟩ := realises_closeBlocks st
  obtain ⟨hiff, hnext⟩ := hreal b t h hP
  have hfits : blockSteps.Fits b [.leave .thinking, .stop .text, .stop .toolUse] :=
    ⟨trivial, trivial, trivial, trivial⟩
  exact ⟨q, hq, hiff.2 hfits, hnext hfits⟩

theorem realises_onFinishReason (finishReason : Option String) (st : Emit ClaudeEvent) :
    OpRealises (if finishReason.getD "" = "" then [] else [.finish]) st
      (onFinishReason finishReason st) := by
  rcases finishReason with _ | reason
  · exact Emit.Realises.refl st
  by_cases hempty : reason = ""
  · rw [Option.getD_some, if_pos hempty, onFinishReason, if_neg (by simp [hempty])]
    exact Emit.Realises.refl st
  rw [Option.getD_some, if_neg hempty, onFinishReason]
  rcases hsent : st.ctx.finishReasonSent with _ | _
  · -- the first finish reason closes the open block
    simp only [hempty, not_false_eq_true, and_self, ne_eq, if_true]
    obtain ⟨q, hq, -⟩ := realises_closeBlocks st
    refine ⟨q ++ [stopReasonDelta (mapOpenaiFinishReason reason)], by simp [hq], ?_⟩
    intro b t hR hP
    obtain ⟨q', hq', hp, hbooks⟩ := hR.closeBlocks _ hP
    obtain rfl : q = q' := List.append_cancel_left (hq.symm.trans hq')
    obtain ⟨hbooks, hallow⟩ := hbooks.quiet
      (e := stopReasonDelta (mapOpenaiFinishReason reason)) rfl
    rw [← List.append_assoc, permits_snoc]
    refine ⟨iff_of_true ⟨hp, hallow⟩ ⟨trivial, trivial⟩, fun _ => ?_⟩
    have hfinished : b.finished = false := hR.finished.trans hsent
    simp only [OpSystem.run_cons, OpSystem.run_nil, blockLedger, hfinished, Bool.false_eq_true,
      if_false]
    exact hbooks.congr hbooks.seen rfl rfl rfl rfl rfl rfl rfl
  · simp only [Bool.true_eq_false, and_false, if_false]
    refine ⟨[], by simp, ?_⟩
    intro b t hR hP
    have hfinished : b.finished = true := hR.finished.trans hsent
    rw [List.append_nil]
    refine ⟨iff_of_true hP ⟨trivial, trivial⟩, fun _ => ?_⟩
    simp only [OpSystem.run_cons, OpSystem.run_nil, blockLedger, hfinished, if_true]
    exact hR

theorem realises_emitChatMessageStart (env : Env) (chunk : OpenAIStreamChunk)
    (st : Emit ClaudeEvent) : OpRealises [.begin] st (emitChatMessageStart env chunk st) := by
  rcases emitChatMessageStart_cases env chunk st with ⟨hsent, _, _, heq⟩ | ⟨-, _, _, message, heq⟩
  · rw [heq]
    refine ⟨[], by simp, ?_⟩
    intro b t hR hP
    rw [List.append_nil]
    refine ⟨iff_of_true hP ⟨trivial, trivial⟩, fun _ => ?_⟩
    exact hR.congr hsent.symm hR.finished rfl rfl rfl rfl rfl rfl
  · rw [heq]
    refine ⟨_, rfl, ?_⟩
    intro b t hR hP
    obtain ⟨hbooks, hallow⟩ := hR.quiet (e := .messageStart message) rfl
    rw [permits_snoc]
    refine ⟨iff_of_true ⟨hP, hallow⟩ ⟨trivial, trivial⟩, fun _ => ?_⟩
    exact hbooks.congr rfl hbooks.finished rfl rfl rfl rfl rfl rfl

theorem realises_emitUsage (usage : Option OpenAIUsage) (st : Emit ClaudeEvent) :
    OpRealises [] st (emitUsage usage st) := by
  rcases usage with _ | usage
  · exact Emit.Realises.refl st
  · refine ⟨_, rfl, Realises.of_silent fun b t hR hP => ?_⟩
    obtain ⟨hbooks, hallow⟩ := hR.quiet
      (e := usageDelta usage.promptTokens usage.completionTokens) rfl
    exact ⟨permits_snoc.2 ⟨hP, hallow⟩, hbooks⟩

theorem realises_onChoice (choice : OpenAIStreamChoice) (st : Emit ClaudeEvent) :
    OpRealises (choiceBlockOps choice) st (onChoice choice st) := by
  have hreasoning : ∀ st, OpRealises
      (if choice.delta.reasoningContent.getD "" = "" then [] else [.write .thinking]) st
      (choice.delta.reasoningContent.elim st fun reasoning => emitThinkingDelta reasoning st) := by
    intro st
    rcases choice.delta.reasoningContent with _ | reasoning
    · exact Emit.Realises.refl st
    · exact realises_emitThinkingDelta reasoning st
  have hcontent : ∀ st, OpRealises
      (if choice.delta.content.getD "" = "" then [] else [.write .text]) st
      (choice.delta.content.elim st fun text => emitTextDelta text st) := by
    intro st
    rcases choice.delta.content with _ | text
    · exact Emit.Realises.refl st
    · exact realises_emitTextDelta text st
  rw [onChoice_elim]
  exact (((hreasoning st).trans (hcontent _)).trans (realises_toolCalls _ _)).trans
    (realises_onFinishReason _ _)

theorem realises_convertChatChunk (env : Env) (chunk : OpenAIStreamChunk)
    (st : Emit ClaudeEvent) : OpRealises (chunkBlockOps chunk) st
      (convertChatChunk env chunk st) := by
  have hstart := realises_emitChatMessageStart env chunk st
  rw [convertChatChunk, chunkBlockOps]
  rcases chunk.choices with _ | ⟨choice, choices⟩
  · exact hstart.trans (realises_emitUsage _ _)
  · by_cases honly : (chunk.usage.isSome && isUsageOnly choice) = true
    · simp only [honly, if_true]
      exact hstart.trans (realises_emitUsage _ _)
    · simp only [honly]
      have hops := hstart.trans ((realises_onChoice choice _).trans
        (realises_emitUsage chunk.usage _))
      rwa [List.append_nil] at hops

theorem realises_finalizeOpenaiStreamToClaude (ctx : StreamContext) :
    Realises blockLedger KeepsBooks SequentialAllows [.done] ctx
      (finalizeOpenaiStreamToClaude ctx).1 (finalizeOpenaiStreamToClaude ctx).2 := by
  intro b t hR hP
  obtain ⟨q, hq, hp, hbooks⟩ := hR.closeBlocks (Emit.start ctx) hP
  rw [Emit.start_result, List.nil_append] at hq
  have hseen := hbooks.seen
  have hfinished := hbooks.finished
  rw [finalizeOpenaiStreamToClaude]
  simp only [OpSystem.run_cons, OpSystem.run_nil, blockLedger]
  generalize closeBlocks (Emit.start ctx) = st at hq hbooks hseen hfinished ⊢
  rw [hseen, hfinished]
  rcases hs : st.ctx.messageStartSent with _ | _
  · simp only [Bool.false_eq_true, false_and, if_false, hs, Emit.finish, hq]
    rw [Bool.or_false]
    exact ⟨iff_of_true hp ⟨trivial, trivial⟩, fun _ =>
      hbooks.congr hs.symm rfl rfl rfl rfl rfl rfl rfl⟩
  · obtain ⟨hstop, hallow⟩ := hbooks.quiet (e := .messageStop) rfl
    rcases hf : st.ctx.finishReasonSent with _ | _
    · obtain ⟨hdelta, hallow'⟩ := hbooks.quiet (e := stopReasonDelta "end_turn") rfl
      obtain ⟨hstop', hallow''⟩ := hdelta.quiet (e := .messageStop) rfl
      simp only [and_self, if_true, Emit.withCtx_ctx, Emit.push_ctx, hs, Emit.finish,
        Emit.push_result, Emit.withCtx_result, hq, Bool.or_true, ← List.append_assoc]
      rw [permits_snoc, permits_snoc]
      exact ⟨iff_of_true ⟨⟨hp, hallow'⟩, hallow''⟩ ⟨trivial, trivial⟩,
        fun _ => hstop'.congr rfl rfl rfl rfl rfl rfl rfl rfl⟩
    · simp only [Bool.true_eq_false, and_false, if_false, if_true, hs, Emit.finish,
        Emit.push_result, hq, Bool.or_true, ← List.append_assoc]
      rw [permits_snoc]
      exact ⟨iff_of_true ⟨hp, hallow⟩ ⟨trivial, trivial⟩,
        fun _ => hstop.congr hs.symm hf.symm rfl rfl rfl rfl rfl rfl⟩

/-! ### Runs -/

/-- The step lemma: an accepted upstream block realises its operations. -/
theorem realises_openaiStreamToClaude (env : Env) (event : Bytes) (ctx : StreamContext)
    (h : acceptsChat env event = true) :
    ∃ o ctx', openaiStreamToClaude env event ctx = .ok (o, ctx') ∧
      Realises blockLedger KeepsBooks SequentialAllows (eventBlockOps env event) ctx o ctx' := by
  rw [acceptsChat] at h
  rw [openaiStreamToClaude, eventBlockOps]
  rcases hread : readChatInput env event with _ | _ | chunk | error
  case skip => exact ⟨[], ctx, rfl, Realises.nil ctx⟩
  case done => exact ⟨_, _, rfl, realises_finalizeOpenaiStreamToClaude ctx⟩
  case chunk =>
    exact ⟨_, _, rfl, (realises_convertChatChunk env chunk (Emit.start ctx)).finish⟩
  case bad =>
    rw [hread] at h
    exact absurd h (by simp)

/-- **Sequential blocks**: a run keeps one block open at a time, numbers its blocks and
matches its deltas iff the operations of its chunks fit the ledger. -/
theorem blocksSequential_chatToClaude_iff (env : Env) (events : List Bytes) :
    BlocksSequential (chatToClaudeRun env events).out ↔
      blockLedger.Fits BlockLedger.new
        (acceptedOps (acceptsChat env) (eventBlockOps env) events) := by
  have hrun := (Realises.permits_feed_iff
    (fun event ctx h => openaiStreamToClaude_of_not_accepts h ctx)
    (fun event ctx h => realises_openaiStreamToClaude env event ctx h) events
    keepsBooks_new permits_nil).1
  rw [List.nil_append] at hrun
  rw [blocksSequential_iff_permits, chatToClaudeRun]
  exact hrun

def chunkJson (delta : Json) (finishReason : Json) : Json :=
  .obj [("id", .str "chatcmpl-1"), ("object", .str "chat.completion.chunk"), ("created", .int 1),
    ("model", .str "gpt"), ("choices", .arr [.obj [("index", .int 0), ("delta", delta),
      ("finish_reason", finishReason)]])]

def toolCallJson (index : ℤ) (id name arguments : String) : Json :=
  chunkJson (.obj [("tool_calls", .arr [.obj [("index", .int index), ("id", .str id),
    ("type", .str "function"),
    ("function", .obj [("name", .str name), ("arguments", .str arguments)])]])]) .null

/-- Text, and then arguments of a tool call without an id: the tool block is started at
the index of the open text block. -/
def textThenArguments : List Json :=
  [chunkJson (.obj [("content", .str "Hi")]) .null, toolCallJson 0 "" "" "x"]

theorem not_blocksSequential_textThenArguments :
    ¬ BlocksSequential (chatToClaudeRun (Env.ofValues textThenArguments)
      (textThenArguments.map fun chunk => dataBlock chunk.compact)).out := by
  rw [blocksSequential_iff_permits]
  decide +kernel

end AiOpenRouter
