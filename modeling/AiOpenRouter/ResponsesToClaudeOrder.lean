/-
Order of the Claude events of the Responses → Claude stream.

Whatever the upstream sends, the emitted events open with one `message_start`,
start, fill and stop content blocks in a consistent order, and end the message
at most once, with no block open (`wellOrdered_responsesToClaude`).

The invariant is `Tracks`: the open indices of the context are those of the
trace, `message_start_sent` says that the trace is not empty, and a trace with
a `message_stop` has `finish_reason_sent` set.
-/
import AiOpenRouter.ResponsesToClaude

open Trace

namespace AiOpenRouter

/-- Whether an event is the `message_start`. -/
def ClaudeEvent.isMessageStart : ClaudeEvent → Bool
  | .messageStart _ => true
  | _ => false

/-- The order a Claude client relies on. -/
structure WellOrdered (t : List ClaudeEvent) : Prop where
  /-- the first event, and no other, is the `message_start` -/
  messageStart_first : ∀ pre e post, t = pre ++ e :: post → (e.isMessageStart ↔ pre = [])
  blockStart_closed : ∀ pre i block post,
    t = pre ++ .contentBlockStart i block :: post → i ∉ openIndices pre
  blockDelta_open : ∀ pre i delta post,
    t = pre ++ .contentBlockDelta i delta :: post → i ∈ openIndices pre
  blockStop_open : ∀ pre i post,
    t = pre ++ .contentBlockStop i :: post → i ∈ openIndices pre
  messageStop_once : ∀ pre post, t = pre ++ .messageStop :: post → .messageStop ∉ pre
  messageStop_closed : ∀ pre post, t = pre ++ .messageStop :: post → openIndices pre = ∅

def OrderAllows (pre : List ClaudeEvent) : ClaudeEvent → Prop
  | .messageStart _ => pre = []
  | .contentBlockStart i _ => pre ≠ [] ∧ i ∉ openIndices pre
  | .contentBlockDelta i _ => pre ≠ [] ∧ i ∈ openIndices pre
  | .contentBlockStop i => pre ≠ [] ∧ i ∈ openIndices pre
  | .messageDelta _ _ => pre ≠ []
  | .messageStop => pre ≠ [] ∧ .messageStop ∉ pre ∧ openIndices pre = ∅

theorem WellOrdered.of_permits {t : List ClaudeEvent} (h : Permits OrderAllows t) :
    WellOrdered t where
  messageStart_first pre e post ht := by
    have := h pre e post ht
    rcases e with _ | ⟨_, _⟩ | ⟨_, _⟩ | _ | ⟨_, _⟩ | _ <;>
      simp_all [ClaudeEvent.isMessageStart, OrderAllows]
  blockStart_closed pre i block post ht := (h pre _ post ht).2
  blockDelta_open pre i delta post ht := (h pre _ post ht).2
  blockStop_open pre i post ht := (h pre _ post ht).2
  messageStop_once pre post ht := (h pre _ post ht).2.1
  messageStop_closed pre post ht := (h pre _ post ht).2.2

/-! ### The invariant -/

/-- The context agrees with the trace emitted so far. -/
structure Tracks (ctx : StreamContext) (t : List ClaudeEvent) : Prop where
  permits : Permits OrderAllows t
  started : ctx.messageStartSent = true ↔ t ≠ []
  opened : openIndices t = ctx.responsesOpenIndices
  stopped : .messageStop ∈ t → ctx.finishReasonSent = true

theorem tracks_new : Tracks StreamContext.new [] where
  permits := permits_nil
  started := by simp [StreamContext.new]
  opened := rfl
  stopped := by simp

variable {ctx' : StreamContext}

theorem Tracks.congr {ctx : StreamContext} {t : List ClaudeEvent} (h : Tracks ctx t)
    (hstart : ctx'.messageStartSent = ctx.messageStartSent)
    (hopen : ctx'.responsesOpenIndices = ctx.responsesOpenIndices)
    (hfinish : ctx'.finishReasonSent = ctx.finishReasonSent) :
    Tracks ctx' t where
  permits := h.permits
  started := by rw [hstart, h.started]
  opened := by rw [hopen, h.opened]
  stopped := by
    rw [hfinish]
    exact h.stopped

/-- `Tracks` for a call under way, `t` being the trace before the call. -/
def TracksEmit (t : List ClaudeEvent) (st : Emit ClaudeEvent) : Prop :=
  Tracks st.ctx (t ++ st.result)

/-- The same, with `message_start` already sent. -/
def TracksStarted (t : List ClaudeEvent) (st : Emit ClaudeEvent) : Prop :=
  TracksEmit t st ∧ st.ctx.messageStartSent = true

variable {t : List ClaudeEvent} {st : Emit ClaudeEvent}

theorem TracksStarted.push (h : TracksStarted t st) {e : ClaudeEvent}
    (hallow : OrderAllows (t ++ st.result) e) (hstop : e ≠ .messageStop)
    (hstart : ctx'.messageStartSent = st.ctx.messageStartSent)
    (hopen : ctx'.responsesOpenIndices = openStep st.ctx.responsesOpenIndices e)
    (hfinish : ctx'.finishReasonSent = st.ctx.finishReasonSent) :
    TracksStarted t ⟨ctx', st.result ++ [e]⟩ := by
  obtain ⟨hT, hs⟩ := h
  refine ⟨⟨?_, ?_, ?_, ?_⟩, hstart.trans hs⟩
  · rw [← List.append_assoc, permits_snoc]
    exact ⟨hT.permits, hallow⟩
  · simp [hstart, hs]
  · rw [← List.append_assoc, openIndices_snoc, hT.opened, hopen]
  · intro hmem
    rw [hfinish]
    refine hT.stopped ?_
    rw [← List.append_assoc, List.mem_append, List.mem_singleton] at hmem
    exact hmem.resolve_right fun heq => hstop heq.symm

theorem TracksStarted.congr (h : TracksStarted t st)
    (hstart : ctx'.messageStartSent = st.ctx.messageStartSent)
    (hopen : ctx'.responsesOpenIndices = st.ctx.responsesOpenIndices)
    (hfinish : ctx'.finishReasonSent = st.ctx.finishReasonSent) :
    TracksStarted t { st with ctx := ctx' } :=
  ⟨h.1.congr hstart hopen hfinish, hstart.trans h.2⟩

theorem TracksStarted.ne_nil (h : TracksStarted t st) : t ++ st.result ≠ [] :=
  h.1.started.1 h.2

/-! ### The emitting helpers -/

theorem TracksEmit.emitMessageStart (h : TracksEmit t st) (env : Env) (usage : Option Json) :
    TracksStarted t (emitMessageStartIfNeeded env usage st) := by
  rcases emitMessageStartIfNeeded_cases env usage st with
    ⟨hs, heq⟩ | ⟨hs, message, id, drawn, tokens, heq⟩
  · rw [heq]
    exact ⟨h, hs⟩
  · rw [heq]
    have hnil : t ++ st.result = [] := by
      by_contra hne
      rw [h.started.2 hne] at hs
      exact absurd hs (by simp)
    refine ⟨⟨?_, ?_, ?_, ?_⟩, rfl⟩
    · rw [← List.append_assoc, permits_snoc]
      exact ⟨h.permits, hnil⟩
    · simp
    · rw [← List.append_assoc, openIndices_snoc]
      exact h.opened
    · intro hmem
      refine h.stopped ?_
      rw [← List.append_assoc] at hmem
      simpa using hmem

theorem TracksStarted.startUnlessOpen (h : TracksStarted t st) (index : ℤ)
    (block : ClaudeBlock) : TracksStarted t (startUnlessOpen index block st) := by
  rw [AiOpenRouter.startUnlessOpen]
  split_ifs with hmem
  · exact h
  · refine h.push ⟨h.ne_nil, ?_⟩ (by simp) rfl rfl rfl
    rw [h.1.opened]
    exact hmem

theorem TracksStarted.pushDelta (h : TracksStarted t st) {index : ℤ}
    (hopen : index ∈ st.ctx.responsesOpenIndices) (delta : ClaudeDelta) :
    TracksStarted t (st.push (.contentBlockDelta index delta)) := by
  refine h.push ⟨h.ne_nil, ?_⟩ (by simp) rfl rfl rfl
  rw [h.1.opened]
  exact hopen

theorem TracksEmit.closeOpenIndex (h : TracksEmit t st) (index : ℤ) :
    TracksEmit t (closeOpenIndex st index) := by
  rcases closeOpenIndex_cases st index with ⟨-, heq⟩ | ⟨hmem, heq⟩
  · rw [heq]
    exact h
  · -- an open index means that `message_start` was sent
    have hmem' : index ∈ openIndices (t ++ st.result) := by
      rw [h.opened]
      exact hmem
    have hne : t ++ st.result ≠ [] := by
      intro hnil
      rw [hnil] at hmem'
      simp at hmem'
    rw [heq]
    have hS : TracksStarted t st := ⟨h, h.started.2 hne⟩
    suffices hpush : TracksStarted t _ from hpush.1
    exact hS.push ⟨hne, hmem'⟩ (by simp) rfl rfl rfl

theorem TracksEmit.closeAll (h : TracksEmit t st) : TracksEmit t (closeAllOpenIndices st) :=
  closeAllOpenIndices_induction (P := TracksEmit t) (fun _ index h => h.closeOpenIndex index) h

theorem TracksStarted.resolve (h : TracksStarted t st) {target : Option ℤ}
    {r : ℤ × StreamContext} (hr : Resolves st.ctx target r) :
    TracksStarted t { st with ctx := r.2 } := by
  rcases hr with i | ⟨byKey, fallback, _, _⟩
  · exact h
  · exact h.congr rfl rfl rfl

/-! ### The branches -/

theorem TracksStarted.setToolIndex (h : TracksStarted t st) (itemId : Option String)
    (index : ℤ) : TracksStarted t { st with ctx := setToolIndex itemId index st.ctx } := by
  rcases itemId with _ | itemId
  · exact h
  · exact h.congr rfl rfl rfl

theorem TracksEmit.removeToolIndex (h : TracksEmit t st) (itemId : Option String) :
    TracksEmit t (st.withCtx (removeToolIndex itemId)) := by
  rcases itemId with _ | itemId
  · exact h
  · exact Tracks.congr h rfl rfl rfl

theorem TracksEmit.onCreated (h : TracksEmit t st) (env : Env) (data : Json) :
    TracksEmit t (onCreated env data st) := by
  refine (TracksEmit.emitMessageStart ?_ env _).1
  exact Tracks.congr h rfl rfl rfl

theorem TracksEmit.emitContentDelta (h : TracksEmit t st) (env : Env) (data : Json)
    (block : ClaudeBlock) (delta : ClaudeDelta) :
    TracksEmit t (emitContentDelta env data block delta st) := by
  have hres := (h.emitMessageStart env none).resolve (resolves_resolveContentIndex _ data)
  exact ((hres.startUnlessOpen _ block).pushDelta (mem_startUnlessOpen _ _ _) delta).1

theorem TracksEmit.onContentPartAdded (h : TracksEmit t st) (env : Env) (data : Json) :
    TracksEmit t (onContentPartAdded env data st) := by
  rw [AiOpenRouter.onContentPartAdded]
  rcases data.get "part" with _ | part
  · exact h
  · simp only
    split_ifs with htype
    · have hres := (h.emitMessageStart env none).resolve (resolves_resolveContentIndex _ data)
      exact (hres.startUnlessOpen _ _).1
    · exact h

theorem TracksEmit.onOutputTextDelta (h : TracksEmit t st) (env : Env) (data : Json) :
    TracksEmit t (onOutputTextDelta env data st) := by
  rw [AiOpenRouter.onOutputTextDelta]
  rcases data.getStr "delta" with _ | delta
  · exact h
  · exact h.emitContentDelta env data _ _

theorem TracksEmit.onReasoningDelta (h : TracksEmit t st) (env : Env) (data : Json) :
    TracksEmit t (onReasoningDelta env data st) := by
  rw [AiOpenRouter.onReasoningDelta]
  rcases reasoningText data with _ | delta
  · exact h
  · exact h.emitContentDelta env data _ _

theorem TracksEmit.onContentPartDone (h : TracksEmit t st) (data : Json) :
    TracksEmit t (onContentPartDone data st) := by
  rw [AiOpenRouter.onContentPartDone]
  rcases contentTarget st.ctx data with _ | index
  · exact h
  · exact h.closeOpenIndex index

theorem TracksEmit.onOutputItemAdded (h : TracksEmit t st) (env : Env) (data : Json) :
    TracksEmit t (onOutputItemAdded env data st) := by
  rw [AiOpenRouter.onOutputItemAdded]
  rcases data.get "item" with _ | item
  · exact h
  · simp only
    split_ifs with htype
    · have h0 : TracksEmit t (st.withCtx setHasToolUse) := Tracks.congr h rfl rfl rfl
      have hres := (h0.emitMessageStart env none).resolve (resolves_resolveAddedIndex _ data item)
      generalize resolveAddedIndex _ data item = r at hres ⊢
      have hlast : TracksStarted t
          ⟨setLastToolIndex r.1 (AiOpenRouter.setToolIndex (addedItemId data item) r.1 r.2),
           (emitMessageStartIfNeeded env none (st.withCtx setHasToolUse)).result⟩ :=
        (hres.setToolIndex (addedItemId data item) r.1).congr rfl rfl rfl
      exact (hlast.startUnlessOpen r.1 _).1
    · exact h

theorem TracksEmit.onArgumentsDelta (h : TracksEmit t st) (env : Env) (data : Json) :
    TracksEmit t (onArgumentsDelta env data st) := by
  rw [AiOpenRouter.onArgumentsDelta]
  rcases data.getStr "delta" with _ | delta
  · exact h
  · have hres := (h.emitMessageStart env none).resolve (resolves_resolveArgumentsIndex _ data)
    simp only
    generalize resolveArgumentsIndex _ data = r at hres ⊢
    have hlast : TracksStarted t
        ⟨setLastToolIndex r.1 r.2, (emitMessageStartIfNeeded env none st).result⟩ :=
      hres.congr rfl rfl rfl
    exact ((hlast.startUnlessOpen r.1 _).pushDelta (mem_startUnlessOpen _ _ _) _).1

theorem TracksEmit.onArgumentsDone (h : TracksEmit t st) (data : Json) :
    TracksEmit t (onArgumentsDone data st) := by
  rw [AiOpenRouter.onArgumentsDone]
  rcases toolIndexOfEvent st.ctx data with _ | index
  · exact h
  · exact (h.closeOpenIndex index).removeToolIndex _

theorem TracksStarted.pushMessageStop (h : TracksStarted t st)
    (hopen : st.ctx.responsesOpenIndices = ∅) (hfinish : st.ctx.finishReasonSent = false) :
    TracksEmit t ((st.push .messageStop).withCtx setFinishReasonSent) := by
  refine ⟨?_, ?_, ?_, ?_⟩
  · rw [Emit.withCtx_result, Emit.push_result, ← List.append_assoc, permits_snoc]
    refine ⟨h.1.permits, h.ne_nil, fun hmem => ?_, by rw [h.1.opened, hopen]⟩
    rw [h.1.stopped hmem] at hfinish
    exact absurd hfinish (by simp)
  · simpa [setFinishReasonSent] using h.2
  · rw [Emit.withCtx_result, Emit.push_result, ← List.append_assoc, openIndices_snoc]
    exact h.1.opened
  · intro _
    rfl

theorem TracksEmit.onCompleted (h : TracksEmit t st) (env : Env) (data : Json) :
    TracksEmit t (onCompleted env data st) := by
  rw [AiOpenRouter.onCompleted]
  split_ifs with hfin
  · exact h
  · simp only
    have hstart := h.emitMessageStart env ((responseObjectFromEvent data).get "usage")
    set st1 := emitMessageStartIfNeeded env ((responseObjectFromEvent data).get "usage") st
      with hst1
    have hfin1 : st1.ctx.finishReasonSent = false := by
      rw [hst1, emitMessageStartIfNeeded_finishReasonSent]
      simpa using hfin
    -- closing the blocks keeps the invariant and both flags
    obtain ⟨hstarted, hfinish⟩ := closeAllOpenIndices_flags st1
    have hT : TracksStarted t (closeAllOpenIndices st1) :=
      ⟨hstart.1.closeAll, hstarted.trans hstart.2⟩
    refine TracksStarted.pushMessageStop ?_ (closeAllOpenIndices_open st1) (hfinish.trans hfin1)
    exact TracksStarted.push (hT.congr rfl rfl rfl) hT.ne_nil (by simp) rfl rfl rfl

theorem TracksEmit.finalizeDone (h : TracksEmit t st) :
    TracksEmit t (finalizeOpenaiResponsesStreamToClaudeDone st) := by
  rw [finalizeOpenaiResponsesStreamToClaudeDone]
  have hT : TracksEmit t ((closeAllOpenIndices st).withCtx clearToolIndices) :=
    Tracks.congr h.closeAll rfl rfl rfl
  split_ifs with hstop
  · rw [Bool.and_eq_true, Bool.not_eq_true'] at hstop
    exact TracksStarted.pushMessageStop ⟨hT, hstop.2⟩ (closeAllOpenIndices_open st) hstop.1
  · exact hT

theorem TracksEmit.convert (h : TracksEmit t st) (env : Env) (name : String) (data : Json) :
    TracksEmit t (convertResponsesEvent env name data st) := by
  unfold convertResponsesEvent
  split
  · exact h.onCreated env data
  · exact h.onContentPartAdded env data
  · exact h.onOutputTextDelta env data
  · exact h.onOutputTextDelta env data
  · exact h.onContentPartDone data
  · exact h.onContentPartDone data
  · exact h.onContentPartDone data
  · exact h.onOutputItemAdded env data
  · exact h.onArgumentsDelta env data
  · exact h.onArgumentsDone data
  · exact h.onReasoningDelta env data
  · exact h.onCompleted env data
  · exact h

/-! ### Steps and runs -/

/-- Every call of the converter keeps the invariant. -/
theorem tracks_step (env : Env) (ctx : StreamContext) (t : List ClaudeEvent) (event : Bytes)
    (o : List ClaudeEvent) (ctx' : StreamContext) (h : Tracks ctx t)
    (hstep : openaiResponsesStreamToClaude env event ctx = .ok (o, ctx')) :
    Tracks ctx' (t ++ o) := by
  have hT : TracksEmit t (Emit.start ctx) := by
    rw [TracksEmit, Emit.start_result, List.append_nil]
    exact h
  unfold openaiResponsesStreamToClaude at hstep
  split at hstep
  · obtain ⟨rfl, rfl⟩ := Prod.mk.inj (Except.ok.inj hstep)
    simpa using h
  · obtain ⟨rfl, rfl⟩ := Prod.mk.inj (Except.ok.inj hstep)
    exact hT.finalizeDone
  · obtain ⟨rfl, rfl⟩ := Prod.mk.inj (Except.ok.inj hstep)
    exact hT.convert env _ _

/-- The end-of-stream finaliser keeps the invariant. -/
theorem tracks_finalize {ctx : StreamContext} {t : List ClaudeEvent} (h : Tracks ctx t) :
    Tracks (finalizeOpenaiResponsesStreamToClaude ctx).2
      (t ++ (finalizeOpenaiResponsesStreamToClaude ctx).1) := by
  rw [finalizeOpenaiResponsesStreamToClaude]
  split_ifs
  · simpa using h
  · have hT : TracksEmit t (Emit.start ctx) := by
      rw [TracksEmit, Emit.start_result, List.append_nil]
      exact h
    exact hT.finalizeDone

theorem openaiResponsesStreamToClaude_ok (env : Env) (event : Bytes) (ctx : StreamContext) :
    ∃ r, openaiResponsesStreamToClaude env event ctx = .ok r := by
  rw [openaiResponsesStreamToClaude]
  rcases readResponsesInput env event with _ | _ | ⟨name, data⟩
  · exact ⟨_, rfl⟩
  · exact ⟨_, rfl⟩
  · exact ⟨_, rfl⟩

/-- **The Claude stream is well ordered**: for every sequence of upstream
blocks, all are read, and the events of the converter followed by those of the
end-of-stream finaliser are in order. -/
theorem wellOrdered_responsesToClaude (env : Env) (events : List Bytes) :
    (responsesToClaudeRun env events).error = none ∧
    WellOrdered ((responsesToClaudeRun env events).out ++
      (finalizeOpenaiResponsesStreamToClaude (responsesToClaudeRun env events).state).1) := by
  have hrun : Tracks (responsesToClaudeRun env events).state
      ([] ++ (responsesToClaudeRun env events).out) :=
    feed_invariant (fun s t i o s' h hs => tracks_step env s t i o s' h hs) events tracks_new
  rw [List.nil_append] at hrun
  refine ⟨feed_error_eq_none (fun i _ s => openaiResponsesStreamToClaude_ok env i s) _, ?_⟩
  exact WellOrdered.of_permits (tracks_finalize hrun).permits

end AiOpenRouter
