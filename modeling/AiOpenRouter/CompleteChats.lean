/-
Complete chat streams through the chat → Claude converter.

`CompleteChat` is a chat stream in the incremental format from its first chunk
to `[DONE]`: one choice, tool calls one after another, one finish reason.

* `fitsAfter_of_incremental`: in such a stream every operation fits, and the
  calls folded by their index are the tools of the state;
* `CompleteChat.tracks`: if every delta carries its fields, the events assemble
  to the state at the end of the operations;
* `CompleteChat.stopReason_of_missing`: if one does not, there is no stop reason.
-/
import AiOpenRouter.ChatAssembly
import AiOpenRouter.ChatOps
import AiOpenRouter.ChatToClaudeTools

namespace AiOpenRouter

open Trace

/-! ### Operations and call events -/

def AnswerOp.callEvents : AnswerOp → List CallEvent
  | .thinking x => if x = "" then [] else [.write]
  | .text x => if x = "" then [] else [.write]
  | .toolCall call => [.delta call]
  | .finish reason => if reason = "" then [] else [.finish]
  | .usage _ => []

def eventOps (env : Env) (event : Bytes) : List AnswerOp :=
  match readIncremental env event with
  | .chunk chunk => chunkOps chunk
  | _ => []

theorem chunkCallEvents_eq (chunk : OpenAIStreamChunk) :
    chunkCallEvents chunk = (chunkOps chunk).flatMap AnswerOp.callEvents := by
  have husage : (chunk.usage.map AnswerOp.usage).toList.flatMap AnswerOp.callEvents = [] := by
    cases chunk.usage <;> rfl
  rw [chunkCallEvents, chunkOps, List.flatMap_append, husage, List.append_nil]
  cases chunk.choices with
  | nil => rfl
  | cons choice choices =>
    obtain ⟨index, ⟨role, content, reasoning, toolCalls⟩, finishReason⟩ := choice
    have hcalls : ((toolCalls.getD []).map AnswerOp.toolCall).flatMap AnswerOp.callEvents =
        (toolCalls.getD []).map CallEvent.delta := by
      rw [List.flatMap_map]
      exact (List.map_eq_flatMap ..).symm
    dsimp only [choiceCallEvents, choiceAnswerOps]
    rw [List.flatMap_append, List.flatMap_append, List.flatMap_append, hcalls]
    cases reasoning <;> cases content <;> cases finishReason <;> simp [AnswerOp.callEvents]

variable {env : Env} {ctx : StreamContext} {folded : List FoldedCall} {s : AnswerState}
  {history : List CallEvent} {ops : List AnswerOp} {event : Bytes}

theorem readIncremental_ne_done (h : (parseSse event).2 ≠ "[DONE]") :
    readIncremental env event ≠ .done := by
  unfold readIncremental
  dsimp only
  rw [if_neg h]
  split_ifs
  · simp
  · split
    · simp
    · split <;> simp

theorem flatMap_eventCallEvents {body : List Bytes}
    (hbody : ∀ event ∈ body, (parseSse event).2 ≠ "[DONE]") :
    body.flatMap (eventCallEvents env) =
      (body.flatMap (eventOps env)).flatMap AnswerOp.callEvents := by
  rw [List.flatMap_assoc]
  refine List.flatMap_congr fun event hmem => ?_
  rw [eventCallEvents, eventOps]
  cases hcase : readIncremental env event with
  | skip => rfl
  | done => exact absurd hcase (readIncremental_ne_done (hbody event hmem))
  | chunk chunk => exact chunkCallEvents_eq chunk
  | bad error => rfl

/-! ### Complete streams -/

def AnswerOp.isUnfinished : AnswerOp → Prop
  | .finish reason => reason = ""
  | _ => True

def joinToolCall (folded : List FoldedCall) : AnswerOp → List FoldedCall
  | .toolCall toolCall =>
    joinCall ⟨toolCall.index.getD 0, toolCall.id, toolCall.function.name,
      toolCall.function.arguments⟩ folded
  | _ => folded

def foldedCalls (ops : List AnswerOp) : List FoldedCall := ops.foldl joinToolCall []

def opsText (ops : List AnswerOp) : String := "".intercalate (ops.map AnswerOp.contentText)

def opsReasoning (ops : List AnswerOp) : String := "".intercalate (ops.map AnswerOp.reasoningText)

def opsUsage (ops : List AnswerOp) : OpenAIUsage :=
  (ops.filterMap AnswerOp.usageReport).getLast?.getD ⟨0, 0, 0⟩

/-- A chat stream up to `[DONE]`: one choice, tool calls one after another, one finish reason,
and nothing but usage after it. -/
structure CompleteChat (env : Env) where
  body : List Bytes
  last : Bytes
  before : List AnswerOp
  reason : String
  after : List AnswerOp
  stream : IncrementalStream env body
  inTurn : Permits FragmentFits (body.flatMap (eventCallEvents env))
  open_body : ∀ event ∈ body, (parseSse event).2 ≠ "[DONE]"
  done_last : (parseSse last).2 = "[DONE]"
  ops : body.flatMap (eventOps env) = before ++ .finish reason :: after
  unfinished : ∀ op ∈ before, op.isUnfinished
  reason_ne : reason ≠ ""
  settled : ∀ op ∈ after, op.callEvents = []

/-! ### Calls by index, and the last call -/

/-- The calls by index are the tools of the state, and the current call is the last one. -/
structure FoldsCalls (history : List CallEvent) (folded : List FoldedCall) (s : AnswerState) :
    Prop where
  tools : folded.map FoldedCall.read = s.tools
  indices : folded.map FoldedCall.index = (calls history).map ChatCall.index
  distinct : (folded.map FoldedCall.index).Nodup
  current : ∀ index, currentCall history = some index → s.openBlock = some .toolUse ∧
    ∃ init call, folded = init ++ [call] ∧ call.index = index

theorem extendCalls_of_forall_ne {index : ℤ} (arguments : String)
    (h : ∀ call ∈ folded, call.index ≠ index) : extendCalls index arguments folded = folded := by
  rw [extendCalls]
  refine (List.map_congr_left fun call hmem => ?_).trans (List.map_id folded)
  rw [if_neg (h call hmem), id_eq]

theorem extendCalls_concat {init : List FoldedCall} {call : FoldedCall} (arguments : String)
    (h : ((init ++ [call]).map FoldedCall.index).Nodup) :
    extendCalls call.index arguments (init ++ [call]) =
      init ++ [{ call with arguments := call.arguments ++ arguments }] := by
  have hinit : ∀ other ∈ init, other.index ≠ call.index := by
    rw [List.map_append, List.nodup_append] at h
    intro other hmem
    exact h.2.2 _ (List.mem_map_of_mem hmem) _ (by simp)
  have happend : extendCalls call.index arguments (init ++ [call]) =
      extendCalls call.index arguments init ++ extendCalls call.index arguments [call] :=
    List.map_append
  rw [happend, extendCalls_of_forall_ne arguments hinit]
  simp [extendCalls]

theorem extendCalls_empty (index : ℤ) (folded : List FoldedCall) :
    extendCalls index "" folded = folded := by
  rw [extendCalls]
  refine (List.map_congr_left fun call _ => ?_).trans (List.map_id folded)
  simp

def FitsAfter (before : List AnswerOp) (op : AnswerOp) : Prop := OpFits (before.foldl applyOp {}) op

theorem FoldsCalls.of_silent {op : AnswerOp} (h : FoldsCalls history folded s)
    (hop : op.callEvents = []) :
    FoldsCalls (history ++ op.callEvents) (joinToolCall folded op) (applyOp s op) := by
  rw [hop, List.append_nil]
  cases op with
  | thinking x =>
    have hx : x = "" := by simpa [AnswerOp.callEvents] using hop
    simpa [applyOp, hx, joinToolCall] using h
  | text x =>
    have hx : x = "" := by simpa [AnswerOp.callEvents] using hop
    simpa [applyOp, hx, joinToolCall] using h
  | toolCall toolCall => cases hop
  | finish reason =>
    have hx : reason = "" := by simpa [AnswerOp.callEvents] using hop
    simpa [applyOp, hx, joinToolCall] using h
  | usage usage => exact ⟨h.tools, h.indices, h.distinct, h.current⟩

theorem FoldsCalls.of_leave {s' : AnswerState} {e : CallEvent} (h : FoldsCalls history folded s)
    (hcalls : calls (history ++ [e]) = calls history)
    (hcurrent : currentCall (history ++ [e]) = none) (htools : s'.tools = s.tools) :
    FoldsCalls (history ++ [e]) folded s' := by
  refine ⟨by rw [h.tools, htools], by rw [h.indices, hcalls], h.distinct, ?_⟩
  intro index hindex
  rw [hcurrent] at hindex
  cases hindex

theorem mem_index_iff (h : FoldsCalls history folded s) (index : ℤ) :
    folded.any (·.index = index) = true ↔ ∃ call ∈ calls history, call.index = index := by
  have hmem : index ∈ folded.map FoldedCall.index ↔
      index ∈ (calls history).map ChatCall.index := by rw [h.indices]
  simpa [List.mem_map] using hmem

theorem FoldsCalls.of_delta {toolCall : OpenAIToolCall} (h : FoldsCalls history folded s)
    (hallow : IncrementalAllows history (.delta toolCall))
    (hfits : FragmentFits history (.delta toolCall)) :
    OpFits s (.toolCall toolCall) ∧
      FoldsCalls (history ++ [.delta toolCall]) (joinToolCall folded (.toolCall toolCall))
        (applyOp s (.toolCall toolCall)) := by
  obtain ⟨-, index, hindex, hcase⟩ := hallow
  have hindex : toolCall.index = some index := hindex
  have hany := mem_index_iff h index
  have hfragment : toolCall.id = "" → toolCall.function.arguments ≠ "" →
      currentCall history = some index := by
    intro hid hargs
    rw [hfits hid hargs, hindex]
  refine ⟨fun hid hargs => (h.current index (hfragment hid hargs)).1, ?_⟩
  -- what one more delta does to the ledger
  have hcalls := calls_snoc history (.delta toolCall)
  have hcurrent := currentCall_snoc history (.delta toolCall)
  dsimp only at hcalls hcurrent
  rw [joinToolCall, joinCall, applyOp]
  dsimp only
  rw [hindex, Option.getD_some]
  split_ifs at hcase with hknown
  · -- a later delta of a known call
    obtain ⟨hid, -, -⟩ := hcase
    rw [if_pos hid, List.append_nil] at hcalls
    rw [if_pos hid] at hcurrent
    rw [if_pos (hany.2 hknown), if_pos hid]
    split_ifs with hargs
    · rw [hargs, extendCalls_empty]
      exact ⟨h.tools, by rw [h.indices, hcalls], h.distinct, by rw [hcurrent]; exact h.current⟩
    · obtain ⟨hopen, init, call, rfl, rfl⟩ := h.current index (hfragment hid hargs)
      rw [extendCalls_concat _ h.distinct]
      refine ⟨?_, ?_, ?_, ?_⟩
      · dsimp only
        rw [← h.tools, List.map_append, List.map_append, List.map_singleton, List.map_singleton,
          extendLast_concat]
        rfl
      · rw [hcalls, ← h.indices, List.map_append, List.map_append]
        rfl
      · have hdistinct := h.distinct
        rw [List.map_append] at hdistinct ⊢
        exact hdistinct
      · rw [hcurrent]
        intro index' hindex'
        rw [hfragment hid hargs] at hindex'
        exact ⟨hopen, _, _, rfl, Option.some_inj.1 hindex'⟩
  · -- the first delta of a call
    obtain ⟨hid, -, -, -⟩ := hcase
    rw [if_neg hid, hindex, Option.getD_some] at hcalls
    rw [if_neg hid] at hcurrent
    rw [if_neg (mt hany.1 hknown), if_neg hid]
    -- a new call starts with its fragment, be it empty or not
    have hstate : (if toolCall.function.arguments = "" then
          { s with openBlock := some .toolUse
                   tools := s.tools ++ [(toolCall.id, toolCall.function.name, "")] }
        else { s with
          openBlock := some .toolUse
          tools := extendLast toolCall.function.arguments
            (s.tools ++ [(toolCall.id, toolCall.function.name, "")]) }) =
        { s with openBlock := some .toolUse
                 tools := s.tools ++ [(toolCall.id, toolCall.function.name,
                   toolCall.function.arguments)] } := by
      split_ifs with hargs
      · rw [hargs]
      · rw [extendLast_concat, String.empty_append]
    rw [hstate]
    refine ⟨?_, ?_, ?_, ?_⟩
    · rw [List.map_append, h.tools]
      rfl
    · rw [hcalls, List.map_append, List.map_append, h.indices]
      rfl
    · rw [List.map_append, List.nodup_append]
      refine ⟨h.distinct, by simp, ?_⟩
      intro i hi j hj heq
      obtain ⟨call, hmem, rfl⟩ := List.mem_map.1 hi
      refine hknown (hany.1 (List.any_eq_true.2 ⟨call, hmem, ?_⟩))
      rw [List.map_singleton, List.mem_singleton] at hj
      simpa using heq.trans hj
    · rw [hcurrent, hindex]
      intro index' hindex'
      exact ⟨rfl, _, _, rfl, Option.some_inj.1 hindex'⟩

/-- **In a well-formed stream every operation fits**, and the state has the tools of the calls. -/
theorem fitsAfter_of_incremental
    (hallow : Permits IncrementalAllows (ops.flatMap AnswerOp.callEvents))
    (hfits : Permits FragmentFits (ops.flatMap AnswerOp.callEvents)) :
    Permits FitsAfter ops ∧
      FoldsCalls (ops.flatMap AnswerOp.callEvents) (foldedCalls ops) (ops.foldl applyOp {}) := by
  -- each operation makes its own events, so both conditions are split at the last one
  induction ops using List.reverseRecOn with
  | nil =>
    refine ⟨permits_nil, rfl, rfl, List.nodup_nil, ?_⟩
    intro index hindex
    cases hindex
  | append_singleton ops op ih =>
    rw [List.flatMap_append, List.flatMap_singleton] at hallow hfits ⊢
    obtain ⟨hbefore, hfolds⟩ := ih hallow.of_append hfits.of_append
    rw [permits_snoc, foldedCalls, List.foldl_append, List.foldl_append]
    have hjoin : List.foldl joinToolCall (ops.foldl joinToolCall []) [op] =
        joinToolCall (foldedCalls ops) op := rfl
    have happly : List.foldl applyOp (ops.foldl applyOp {}) [op] =
        applyOp (ops.foldl applyOp {}) op := rfl
    rw [hjoin, happly]
    cases op with
    | thinking x =>
      by_cases hx : x = ""
      · exact ⟨⟨hbefore, trivial⟩, hfolds.of_silent (if_pos hx)⟩
      · refine ⟨⟨hbefore, trivial⟩, ?_⟩
        rw [AnswerOp.callEvents, if_neg hx, applyOp, if_neg hx]
        exact hfolds.of_leave (by rw [calls_snoc, List.append_nil]) (currentCall_snoc _ _) rfl
    | text x =>
      by_cases hx : x = ""
      · exact ⟨⟨hbefore, trivial⟩, hfolds.of_silent (if_pos hx)⟩
      · refine ⟨⟨hbefore, trivial⟩, ?_⟩
        rw [AnswerOp.callEvents, if_neg hx, applyOp, if_neg hx]
        exact hfolds.of_leave (by rw [calls_snoc, List.append_nil]) (currentCall_snoc _ _) rfl
    | toolCall toolCall =>
      obtain ⟨hfit, hfolds'⟩ := hfolds.of_delta (permits_snoc.1 hallow).2 (permits_snoc.1 hfits).2
      exact ⟨⟨hbefore, hfit⟩, hfolds'⟩
    | finish reason =>
      by_cases hx : reason = ""
      · exact ⟨⟨hbefore, trivial⟩, hfolds.of_silent (if_pos hx)⟩
      · refine ⟨⟨hbefore, trivial⟩, ?_⟩
        rw [AnswerOp.callEvents, if_neg hx, applyOp]
        refine hfolds.of_leave (by rw [calls_snoc, List.append_nil]) (currentCall_snoc _ _) ?_
        split_ifs <;> rfl
    | usage usage => exact ⟨⟨hbefore, trivial⟩, hfolds.of_silent rfl⟩

/-! ### The run -/

structure IsFresh (ctx : StreamContext) : Prop where
  unstarted : ctx.messageStartSent = false
  text : ctx.contentBlockStarted = false
  thinking : ctx.thinkingBlockStarted = false
  tool : ctx.toolBlockStarted = false
  unfinished : ctx.finishReasonSent = false

theorem isFresh_forModel (model : String) : IsFresh (.forModel model) := ⟨rfl, rfl, rfl, rfl, rfl⟩

/-- A run that has started tracks the state, and before there is nothing. -/
def Follows (ctx : StreamContext) (t : List ClaudeEvent) (s : AnswerState) : Prop :=
  IsFresh ctx ∧ t = [] ∧ s = {} ∨ TracksAnswer ctx (assemble t) s

theorem emitChatMessageStart_of_fresh (env : Env) (chunk : OpenAIStreamChunk)
    (h : ctx.messageStartSent = false) :
    ∃ id drawn message, emitChatMessageStart env chunk (Emit.start ctx) =
        ⟨{ ctx with messageStartSent := true, messageId := id, uuidsDrawn := drawn },
          [.messageStart message]⟩ ∧
      message.get "usage" = some (answerUsage 0 0) := by
  obtain ⟨id, drawn, heq⟩ := drawMessageId_eq env chunk (Emit.start ctx)
  rw [emitChatMessageStart]
  simp only [heq]
  simp only [Emit.start_ctx, h, Bool.false_eq_true, if_false]
  exact ⟨_, drawn, _, rfl, rfl⟩

theorem tracks_emitChatMessageStart (env : Env) (chunk : OpenAIStreamChunk) {t : List ClaudeEvent}
    (h : Follows ctx t s) :
    TracksAnswer (emitChatMessageStart env chunk (Emit.start ctx)).ctx
      (assemble (t ++ (emitChatMessageStart env chunk (Emit.start ctx)).result)) s := by
  rcases h with ⟨hfresh, rfl, rfl⟩ | h
  · obtain ⟨id, drawn, message, heq, husage⟩ :=
      emitChatMessageStart_of_fresh env chunk hfresh.unstarted
    rw [heq]
    refine ⟨rfl, hfresh.text, hfresh.thinking, hfresh.tool, trivial, hfresh.unfinished, rfl, rfl,
      rfl, rfl, ?_⟩
    intro key
    show mergeUsage _ ((message.get "usage").getD .null) key = _
    rw [husage, Option.getD_some, mergeUsage, Option.or_none]
  · rcases emitChatMessageStart_cases env chunk (Emit.start ctx) with
      ⟨-, id, drawn, heq⟩ | ⟨hunsent, -⟩
    · rw [heq, Emit.start_result, List.append_nil]
      exact { h with head := h.head }
    · rw [Emit.start_ctx, h.started] at hunsent
      cases hunsent

theorem moves_foldl_takeOp {before : List AnswerOp} (hfits : Permits FitsAfter (before ++ ops))
    (st : Emit ClaudeEvent) :
    Moves st (ops.foldl takeOp st) (before.foldl applyOp {})
      ((before ++ ops).foldl applyOp {}) := by
  induction ops using List.reverseRecOn with
  | nil =>
    rw [List.append_nil]
    exact Moves.refl _ _
  | append_singleton ops op ih =>
    rw [← List.append_assoc, permits_snoc] at hfits
    rw [← List.append_assoc, List.foldl_append, List.foldl_append]
    exact (ih hfits.1).trans (moves_takeOp _ hfits.2)

/-- The step lemma: a block that is read as the format says. -/
theorem follows_openaiStreamToClaude {before : List AnswerOp}
    (hopen : (parseSse event).2 ≠ "[DONE]") (hformat : InFormat env event)
    (hfields : CarriesFields env event) (hfits : Permits FitsAfter (before ++ eventOps env event))
    {t : List ClaudeEvent} (h : Follows ctx t (before.foldl applyOp {})) :
    ∃ o ctx', openaiStreamToClaude env event ctx = .ok (o, ctx') ∧
      Follows ctx' (t ++ o) ((before ++ eventOps env event).foldl applyOp {}) := by
  rw [openaiStreamToClaude, readChatInput_eq hformat hfields]
  rw [InFormat] at hformat
  rw [eventOps] at hfits ⊢
  cases hread : readIncremental env event with
  | skip =>
    refine ⟨[], ctx, rfl, ?_⟩
    rw [List.append_nil, List.append_nil]
    exact h
  | done => exact absurd hread (readIncremental_ne_done hopen)
  | chunk chunk =>
    rw [hread] at hfits
    refine ⟨_, _, rfl, Or.inr ?_⟩
    rw [convertChatChunk_eq]
    exact moves_foldl_takeOp hfits _ t (tracks_emitChatMessageStart env chunk h)
  | bad error =>
    rw [hread] at hformat
    exact hformat.elim

theorem follows_run {body : List Bytes} (hopen : ∀ event ∈ body, (parseSse event).2 ≠ "[DONE]")
    (hformat : ∀ event ∈ body, InFormat env event)
    (hfields : ∀ event ∈ body, CarriesFields env event)
    (hfits : Permits FitsAfter (body.flatMap (eventOps env))) (hfresh : IsFresh ctx) :
    (feed (openaiStreamToClaude env) ctx body).error = none ∧
      Follows (feed (openaiStreamToClaude env) ctx body).state
        (feed (openaiStreamToClaude env) ctx body).out
        ((body.flatMap (eventOps env)).foldl applyOp {}) := by
  induction body using List.reverseRecOn with
  | nil => exact ⟨rfl, Or.inl ⟨hfresh, rfl, rfl⟩⟩
  | append_singleton body event ih =>
    rw [List.flatMap_append, List.flatMap_singleton] at hfits ⊢
    obtain ⟨hok, hfollows⟩ := ih (fun e he => hopen e (by simp [he]))
      (fun e he => hformat e (by simp [he])) (fun e he => hfields e (by simp [he]))
      hfits.of_append
    obtain ⟨o, ctx', hstep, hfollows'⟩ := follows_openaiStreamToClaude (hopen event (by simp))
      (hformat event (by simp)) (hfields event (by simp)) hfits hfollows
    rw [feed_snoc hok hstep]
    exact ⟨rfl, hfollows'⟩

/-! ### The state at the end -/

theorem foldl_applyOp_texts (ops : List AnswerOp) :
    (ops.foldl applyOp {}).text = opsText ops ∧
      (ops.foldl applyOp {}).thinking = opsReasoning ops := by
  induction ops using List.reverseRecOn with
  | nil => exact ⟨rfl, rfl⟩
  | append_singleton ops op ih =>
    obtain ⟨htext, hthinking⟩ := ih
    rw [List.foldl_append, List.foldl_cons, List.foldl_nil, applyOp_text, applyOp_thinking, htext,
      hthinking]
    simp [opsText, opsReasoning, intercalate_empty_append]

theorem foldl_applyOp_inputTokens (ops : List AnswerOp) :
    (ops.foldl applyOp {}).inputTokens = (opsUsage ops).promptTokens := by
  induction ops using List.reverseRecOn with
  | nil => rfl
  | append_singleton ops op ih =>
    rw [List.foldl_append, List.foldl_cons, List.foldl_nil, applyOp_inputTokens, ih, opsUsage,
      opsUsage, List.filterMap_append]
    cases hreport : op.usageReport <;> simp [hreport]

theorem foldl_applyOp_unfinished (h : ∀ op ∈ ops, op.isUnfinished) (s : AnswerState) :
    (ops.foldl applyOp s).stopReason = s.stopReason := by
  induction ops generalizing s with
  | nil => rfl
  | cons op ops ih =>
    rw [List.foldl_cons, ih fun op' hmem => h op' (List.mem_cons_of_mem op hmem)]
    have hop := h op List.mem_cons_self
    cases op with
    | thinking x => rw [applyOp]; split_ifs <;> rfl
    | text x => rw [applyOp]; split_ifs <;> rfl
    | toolCall toolCall => rw [applyOp]; split_ifs <;> rfl
    | finish reason =>
      have hempty : reason = "" := hop
      rw [applyOp, if_neg fun hboth => hboth.1 hempty]
    | usage usage => rfl

theorem foldl_applyOp_settled (h : ∀ op ∈ ops, op.callEvents = []) (s : AnswerState) :
    ops.foldl applyOp s = { s with
      inputTokens := ((ops.filterMap AnswerOp.usageReport).getLast?.map
        OpenAIUsage.promptTokens).getD s.inputTokens
      outputTokens := ((ops.filterMap AnswerOp.usageReport).getLast?.map
        OpenAIUsage.completionTokens).getD s.outputTokens } := by
  induction ops using List.reverseRecOn with
  | nil => rfl
  | append_singleton ops op ih =>
    have hop := h op (by simp)
    rw [List.foldl_append, ih fun op' hmem => h op' (List.mem_append_left _ hmem),
      List.filterMap_append]
    cases op with
    | thinking x =>
      have hx : x = "" := by simpa [AnswerOp.callEvents] using hop
      simp [applyOp, hx, AnswerOp.usageReport]
    | text x =>
      have hx : x = "" := by simpa [AnswerOp.callEvents] using hop
      simp [applyOp, hx, AnswerOp.usageReport]
    | toolCall toolCall => cases hop
    | finish reason =>
      have hx : reason = "" := by simpa [AnswerOp.callEvents] using hop
      simp [applyOp, hx, AnswerOp.usageReport]
    | usage usage => simp [applyOp, AnswerOp.usageReport]

theorem CompleteChat.finalState (chat : CompleteChat env) :
    ∃ s : AnswerState, (chat.body.flatMap (eventOps env)).foldl applyOp {} = s ∧
      s.text = opsText chat.before ∧ s.thinking = opsReasoning chat.before ∧
      s.tools = (foldedCalls chat.before).map FoldedCall.read ∧
      s.stopReason = some (mapOpenaiFinishReason chat.reason) ∧
      s.inputTokens = (opsUsage (chat.before ++ chat.after)).promptTokens ∧
      s.outputTokens = ((chat.after.filterMap AnswerOp.usageReport).getLast?.map
        OpenAIUsage.completionTokens).getD 0 := by
  have hallow := chat.stream.deltas
  have hturn := chat.inTurn
  rw [flatMap_eventCallEvents chat.open_body, chat.ops, List.flatMap_append] at hallow hturn
  obtain ⟨-, hfolds⟩ := fitsAfter_of_incremental hallow.of_append hturn.of_append
  obtain ⟨htext, hthinking⟩ := foldl_applyOp_texts chat.before
  have hfinish : applyOp (chat.before.foldl applyOp {}) (.finish chat.reason) =
      { chat.before.foldl applyOp {} with
        openBlock := none
        stopReason := some (mapOpenaiFinishReason chat.reason)
        outputTokens := 0 } := by
    rw [applyOp, if_pos ⟨chat.reason_ne, foldl_applyOp_unfinished chat.unfinished {}⟩]
  have hinput : (chat.after.foldl applyOp (chat.before.foldl applyOp {})).inputTokens =
      (opsUsage (chat.before ++ chat.after)).promptTokens := by
    rw [← List.foldl_append, foldl_applyOp_inputTokens]
  rw [foldl_applyOp_settled chat.settled] at hinput
  rw [chat.ops, List.foldl_append, List.foldl_cons, hfinish, foldl_applyOp_settled chat.settled]
  exact ⟨_, rfl, htext, hthinking, hfolds.tools.symm, rfl, hinput, rfl⟩

/-! ### Decoded tool calls -/

namespace Decode

variable {decode : Option Json → Option OpenAIToolCall}

/-- `mapM` reads the items one by one. -/
theorem forall₂_of_mapM {α β : Type} {f : α → Option β} {xs : List α} {ys : List β}
    (h : xs.mapM f = some ys) : List.Forall₂ (fun x y => f x = some y) xs ys := by
  induction xs generalizing ys with
  | nil =>
    obtain rfl : [] = ys := by simpa using h
    exact .nil
  | cons x xs ih =>
    simp only [List.mapM_cons, Option.bind_eq_bind, Option.bind_eq_some_iff, Option.pure_def,
      Option.some.injEq] at h
    obtain ⟨y, hy, ys', hys', rfl⟩ := h
    exact .cons hy (ih hys')

variable {value : Json}

theorem toolCalls_openAIDelta {delta : OpenAIDelta}
    (h : openAIDelta decode (some value) = some delta) :
    List.Forall₂ (fun item call => decode (some item) = some call) (toolCallsOfDelta value)
      (delta.toolCalls.getD []) := by
  rw [openAIDelta] at h
  split at h
  · rename_i role content reasoning toolCalls hfields
    simp only [Option.bind_eq_bind, Option.bind_eq_some_iff, Option.pure_def,
      Option.some.injEq] at h
    obtain ⟨_, -, _, -, _, -, calls, hcalls, rfl⟩ := h
    rw [toolCallsOfDelta, hfields]
    unfold optional at hcalls
    split at hcalls
    · obtain rfl : none = calls := by simpa using hcalls
      exact .nil
    · obtain rfl : none = calls := by simpa using hcalls
      exact .nil
    · obtain ⟨items', hitems, rfl⟩ := Option.map_eq_some_iff.1 hcalls
      unfold list at hitems
      split at hitems
      · rename_i heq
        cases heq
        exact forall₂_of_mapM hitems
      · cases hitems
  · cases h

theorem toolCalls_openAIStreamChoice {choice : OpenAIStreamChoice}
    (h : openAIStreamChoice decode (some value) = some choice) :
    List.Forall₂ (fun item call => decode (some item) = some call) (toolCallsOfChoice value)
      (choice.delta.toolCalls.getD []) := by
  rw [openAIStreamChoice] at h
  split at h
  · rename_i index delta finishReason hfields
    simp only [Option.bind_eq_bind, Option.bind_eq_some_iff, Option.pure_def,
      Option.some.injEq] at h
    obtain ⟨_, -, decoded, hdelta, _, -, rfl⟩ := h
    cases delta with
    | none => cases hdelta
    | some delta =>
      rw [toolCallsOfChoice, hfields]
      exact toolCalls_openAIDelta hdelta
  · cases h

theorem toolCalls_openAIStreamChunkOf {chunk : OpenAIStreamChunk}
    (h : openAIStreamChunkOf decode value = some chunk) :
    List.Forall₂ (fun item call => decode (some item) = some call) (toolCallsOfChunk value)
      (chunk.choices.flatMap fun choice => choice.delta.toolCalls.getD []) := by
  rw [openAIStreamChunkOf] at h
  split at h
  · rename_i id object created model choices usage hfields
    simp only [Option.bind_eq_bind, Option.bind_eq_some_iff, Option.pure_def,
      Option.some.injEq] at h
    obtain ⟨_, -, _, -, _, -, _, -, decoded, hchoices, _, -, rfl⟩ := h
    rw [toolCallsOfChunk, hfields]
    unfold list at hchoices
    split at hchoices
    · rename_i items
      have hmapM := forall₂_of_mapM hchoices
      clear hfields hchoices
      induction hmapM with
      | nil => exact .nil
      | cons hitem _ ih =>
        rw [List.flatMap_cons]
        exact List.rel_append (toolCalls_openAIStreamChoice hitem) ih
    · cases hchoices
  · cases h

theorem carriesFields_of_openAIToolCall {toolCall : OpenAIToolCall}
    (h : openAIToolCall (some value) = some toolCall) : carriesFields value = true := by
  rw [openAIToolCall] at h
  split at h
  · rename_i index id callType function hfields
    simp only [Option.bind_eq_bind, Option.bind_eq_some_iff, Option.pure_def,
      Option.some.injEq] at h
    obtain ⟨_, -, _, hid, _, htype, _, hfunction, -⟩ := h
    cases id with
    | none => cases hid
    | some id =>
      cases callType with
      | none => cases htype
      | some callType =>
        cases function with
        | none => cases hfunction
        | some function =>
          rw [openAIFunction] at hfunction
          split at hfunction
          · rename_i name arguments hnames
            simp only [Option.bind_eq_bind, Option.bind_eq_some_iff] at hfunction
            obtain ⟨_, hname, _, harguments, -⟩ := hfunction
            cases name with
            | none => cases hname
            | some name =>
              cases arguments with
              | none => cases harguments
              | some arguments =>
                rw [carriesFields, hfields]
                dsimp only
                rw [hnames]
          · cases hfunction
  · cases h

end Decode

/-! ### The whole stream -/

/-- Once the stop reason was sent, `[DONE]` changes nothing in the message. -/
theorem assemble_finalize (h : ctx.finishReasonSent = true) (t : List ClaudeEvent) :
    assemble (t ++ (finalizeOpenaiStreamToClaude ctx).1) = assemble t := by
  have hsilent : ∀ q : List ClaudeEvent, (∀ e ∈ q, ∀ msg, assembleEvent msg e = msg) →
      assemble (t ++ q) = assemble t := by
    intro q
    induction q using List.reverseRecOn with
    | nil =>
      intro _
      rw [List.append_nil]
    | append_singleton q e ih =>
      intro hq
      rw [← List.append_assoc, assemble_snoc, hq e (by simp)]
      exact ih fun e' he' => hq e' (by simp [he'])
  obtain ⟨q, hq, hstops, -, hfinished, -⟩ := closeBlocks_spec (Emit.start ctx)
  rw [Emit.start_result, List.nil_append] at hq
  rw [Emit.start_ctx, h] at hfinished
  refine hsilent _ fun e he msg => ?_
  have hmem : e ∈ q ∨ e = .messageStop := by
    rw [finalizeOpenaiStreamToClaude] at he
    simp only [hfinished, Bool.true_eq_false, and_false, if_false] at he
    split_ifs at he
    · simpa [Emit.finish, hq] using he
    · exact Or.inl (by simpa [Emit.finish, hq] using he)
  rcases hmem with hmem | rfl
  · obtain ⟨index, rfl⟩ := hstops e hmem
    rfl
  · rfl

theorem CompleteChat.tracks (chat : CompleteChat env) (hfresh : IsFresh ctx)
    (hfields : ∀ event ∈ chat.body, CarriesFields env event) :
    ∃ ctx', TracksAnswer ctx'
      (assemble (feed (openaiStreamToClaude env) ctx (chat.body ++ [chat.last])).out)
      ((chat.body.flatMap (eventOps env)).foldl applyOp {}) := by
  have hallow := chat.stream.deltas
  have hturn := chat.inTurn
  rw [flatMap_eventCallEvents chat.open_body] at hallow hturn
  obtain ⟨hok, hfollows⟩ := follows_run chat.open_body chat.stream.blocks hfields
    (fitsAfter_of_incremental hallow hturn).1 hfresh
  obtain ⟨s, hs, -, -, -, hstop, -⟩ := chat.finalState
  rw [hs] at hfollows ⊢
  have htracks := hfollows.resolve_left (by
    rintro ⟨-, -, rfl⟩
    cases hstop)
  have hdone : ∀ ctx', openaiStreamToClaude env chat.last ctx' =
      .ok ((finalizeOpenaiStreamToClaude ctx').1, (finalizeOpenaiStreamToClaude ctx').2) := by
    intro ctx'
    have hread : readChatInput env chat.last = .done := by
      unfold readChatInput
      simp [chat.done_last]
    rw [openaiStreamToClaude, hread]
  rw [feed_snoc hok (hdone _)]
  dsimp only
  rw [assemble_finalize (by rw [htracks.finished, hstop]; rfl)]
  exact ⟨_, htracks⟩

theorem refused_of_not_carriesFields (hempty : ∀ v, env.fromStr "" ≠ .ok v)
    (hopen : (parseSse event).2 ≠ "[DONE]") (hformat : InFormat env event)
    (hfields : ¬ CarriesFields env event) :
    (∃ pre toolCall post, eventCallEvents env event = pre ++ .delta toolCall :: post) ∧
      ∀ ctx, ∃ error, openaiStreamToClaude env event ctx = .error error := by
  rw [CarriesFields] at hfields
  have hdata : (parseSse event).2 ≠ "" := by
    intro h
    rw [h] at hfields
    cases hread : env.fromStr "" with
    | ok v => exact hempty v hread
    | error e => simp [hread] at hfields
  cases hread : env.fromStr (parseSse event).2 with
  | error e => simp [hread] at hfields
  | ok data =>
    rw [hread] at hfields
    -- the strict format asks every call for the fields that are missing here
    have hmissing : Decode.openAIStreamChunk data = none := by
      rw [Option.eq_none_iff_forall_ne_some]
      intro chunk hchunk
      refine hfields fun item hitem => ?_
      obtain ⟨toolCall, -, hdecode⟩ :=
        exists_mem_of_forall₂ (Decode.toolCalls_openAIStreamChunkOf hchunk) hitem
      exact Decode.carriesFields_of_openAIToolCall hdecode
    constructor
    · -- the incremental format decodes the same deltas
      have hincremental : ∃ chunk, Decode.incrementalStreamChunk data = some chunk ∧
          chunk.choices.length ≤ 1 ∧ readIncremental env event = .chunk chunk := by
        rw [InFormat] at hformat
        cases hchunk : Decode.incrementalStreamChunk data with
        | none =>
          have hcase : readIncremental env event = .bad "not a chunk" := by
            simp only [readIncremental, if_neg hdata, if_neg hopen, hread, hchunk]
          rw [hcase] at hformat
          exact hformat.elim
        | some chunk =>
          have hcase : readIncremental env event = .chunk chunk := by
            simp only [readIncremental, if_neg hdata, if_neg hopen, hread, hchunk]
          rw [hcase] at hformat
          exact ⟨chunk, rfl, hformat, hcase⟩
      obtain ⟨chunk, hchunk, hlength, hread⟩ := hincremental
      push Not at hfields
      obtain ⟨item, hitem, -⟩ := hfields
      obtain ⟨toolCall, hmem, -⟩ :=
        exists_mem_of_forall₂ (Decode.toolCalls_openAIStreamChunkOf hchunk) hitem
      obtain ⟨choice, hchoice, hmem⟩ := List.mem_flatMap.1 hmem
      have hdelta : CallEvent.delta toolCall ∈ eventCallEvents env event := by
        rw [eventCallEvents, hread]
        dsimp only
        rw [chunkCallEvents]
        cases hchoices : chunk.choices with
        | nil =>
          rw [hchoices] at hchoice
          cases hchoice
        | cons first rest =>
          rw [hchoices] at hchoice hlength
          obtain rfl : rest = [] := by simpa using hlength
          obtain rfl := List.mem_singleton.1 hchoice
          simp only [choiceCallEvents, List.mem_append, List.mem_map]
          exact Or.inl (Or.inr ⟨toolCall, hmem, rfl⟩)
      obtain ⟨pre, post, heq⟩ := List.append_of_mem hdelta
      exact ⟨pre, toolCall, post, heq⟩
    · -- the converter decodes by the strict format
      intro ctx
      have hbad : readChatInput env event =
          .bad ("parse openai stream chunk: " ++ env.chunkError (parseSse event).2) := by
        rw [readChatInput, if_neg hdata, if_neg hopen, hread]
        dsimp only
        rw [hmissing]
      rw [openaiStreamToClaude, hbad]
      exact ⟨_, rfl⟩

theorem CompleteChat.stopReason_of_missing (chat : CompleteChat env) (hfresh : IsFresh ctx)
    (hempty : ∀ v, env.fromStr "" ≠ .ok v)
    (hmissing : ¬ ∀ event ∈ chat.body, CarriesFields env event) :
    (assemble (feed (openaiStreamToClaude env) ctx (chat.body ++ [chat.last])).out).stopReason =
      none := by
  -- the blocks before the first one that lacks fields
  obtain ⟨read, event, rest, hbody, hfields, hlacks⟩ : ∃ read event rest,
      chat.body = read ++ event :: rest ∧ (∀ e ∈ read, CarriesFields env e) ∧
        ¬ CarriesFields env event := by
    push Not at hmissing
    obtain ⟨event, hmem, hlacks⟩ := hmissing
    have hsome : (chat.body.find? fun e => ¬ CarriesFields env e).isSome := by
      rw [List.find?_isSome]
      exact ⟨event, hmem, by simpa using hlacks⟩
    obtain ⟨first, hfirst⟩ := Option.isSome_iff_exists.1 hsome
    obtain ⟨hnot, read, rest, hbody, hread⟩ := List.find?_eq_some_iff_append.1 hfirst
    exact ⟨read, first, rest, hbody, fun e he => by simpa using hread e he, by simpa using hnot⟩
  have hmem : event ∈ chat.body := by simp [hbody]
  have hbefore : ∀ e ∈ read, e ∈ chat.body := fun e he => by simp [hbody, he]
  obtain ⟨⟨pre, toolCall, post, hevents⟩, hrefused⟩ := refused_of_not_carriesFields hempty
    (chat.open_body event hmem) (chat.stream.blocks event hmem) hlacks
  have hallow := chat.stream.deltas
  have hturn := chat.inTurn
  rw [hbody, List.flatMap_append, List.flatMap_cons, hevents] at hallow hturn
  -- the delta of that block comes before the finish
  have hdelta : IncrementalAllows (read.flatMap (eventCallEvents env) ++ pre) (.delta toolCall) :=
    hallow _ _ (post ++ rest.flatMap (eventCallEvents env)) (by simp)
  have hunfinished : ∀ op ∈ read.flatMap (eventOps env), op.isUnfinished := by
    intro op hop
    cases op with
    | finish reason =>
      by_contra hreason
      have hcalls : CallEvent.finish ∈ read.flatMap (eventCallEvents env) := by
        rw [flatMap_eventCallEvents fun e he => chat.open_body e (hbefore e he)]
        refine List.mem_flatMap.2 ⟨_, hop, ?_⟩
        have hne : reason ≠ "" := hreason
        simp [AnswerOp.callEvents, hne]
      have hfinished := hdelta.1
      rw [isFinished, List.any_append, Bool.or_eq_false_iff] at hfinished
      have hnone := List.any_eq_false.1 hfinished.1 _ hcalls
      simp at hnone
    | _ => trivial
  have hopen : ∀ e ∈ read, (parseSse e).2 ≠ "[DONE]" := fun e he =>
    chat.open_body e (hbefore e he)
  have hallow' := hallow.of_append
  have hturn' := hturn.of_append
  rw [flatMap_eventCallEvents hopen] at hallow' hturn'
  obtain ⟨hok, hfollows⟩ := follows_run hopen
    (fun e he => chat.stream.blocks e (hbefore e he)) hfields
    (fitsAfter_of_incremental hallow' hturn').1 hfresh
  obtain ⟨error, herror⟩ := hrefused (feed (openaiStreamToClaude env) ctx read).state
  rw [hbody, List.append_assoc, List.cons_append, feed_append hok, feed_cons_error herror]
  dsimp only
  rw [List.append_nil]
  rcases hfollows with ⟨-, hnil, -⟩ | htracks
  · rw [hnil]
    rfl
  · rw [htracks.stopReason, foldl_applyOp_unfinished hunfinished]

end AiOpenRouter
