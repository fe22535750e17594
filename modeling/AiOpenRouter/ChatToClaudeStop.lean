/-
The `message_stop` of the chat → Claude route.

`[DONE]` and the end of the body run the same finaliser, which stops a started
message every time it runs.

* `stoppedOnce_ccOpenai_iff` — the message is stopped once, and nothing follows,
  exactly when no `[DONE]` comes after the first chunk and no tail is refused
  after it;
* `not_stoppedOnce_chunkThenDone` — an ordinary stream is stopped twice.
-/
import AiOpenRouter.StreamChunking

open Trace

namespace AiOpenRouter

/-- At most one `message_stop`, and nothing after it. -/
def StoppedOnce (t : List ClaudeEvent) : Prop :=
  ∀ pre post, t = pre ++ .messageStop :: post → post = []

/-! ### What a chunk emits -/

/-- From `st` to `st'` the message goes on: no `message_stop`, and `message_start_sent` stays. -/
def Continues (st st' : Emit ClaudeEvent) : Prop :=
  (∃ q, st'.result = st.result ++ q ∧ .messageStop ∉ q) ∧
    st'.ctx.messageStartSent = st.ctx.messageStartSent

variable (st : Emit ClaudeEvent)

theorem Continues.refl : Continues st st := ⟨⟨[], by simp, by simp⟩, rfl⟩

theorem Continues.trans {st st' st'' : Emit ClaudeEvent} (h : Continues st st')
    (h' : Continues st' st'') : Continues st st'' := by
  obtain ⟨⟨q, hq, hstop⟩, hsent⟩ := h
  obtain ⟨⟨q', hq', hstop'⟩, hsent'⟩ := h'
  refine ⟨⟨q ++ q', by rw [hq', hq, List.append_assoc], fun hmem => ?_⟩, hsent'.trans hsent⟩
  rcases List.mem_append.1 hmem with hmem | hmem
  · exact hstop hmem
  · exact hstop' hmem

theorem Continues.push {st st' : Emit ClaudeEvent} (h : Continues st st') {ctx : StreamContext}
    {e : ClaudeEvent} (he : e ≠ .messageStop)
    (hctx : ctx.messageStartSent = st'.ctx.messageStartSent) :
    Continues st ⟨ctx, st'.result ++ [e]⟩ :=
  h.trans ⟨⟨[e], rfl, by simpa using he.symm⟩, hctx⟩

theorem continues_closeThinkingBlock : Continues st (closeThinkingBlock st) := by
  rw [closeThinkingBlock]
  split_ifs
  · exact (Continues.refl st).push (by simp) rfl
  · exact Continues.refl st

theorem continues_closeTextBlock : Continues st (closeTextBlock st) := by
  rw [closeTextBlock]
  split_ifs
  · exact (Continues.refl st).push (by simp) rfl
  · exact Continues.refl st

theorem continues_closeToolBlock : Continues st (closeToolBlock st) := by
  rw [closeToolBlock]
  split_ifs
  · exact (Continues.refl st).push (by simp) rfl
  · exact Continues.refl st

theorem continues_leaveTextBlock : Continues st (leaveTextBlock st) := by
  rw [leaveTextBlock]
  split_ifs
  · exact continues_closeTextBlock st
  · exact Continues.refl st

theorem continues_leaveToolBlock : Continues st (leaveToolBlock st) := by
  rw [leaveToolBlock]
  split_ifs
  · exact continues_closeToolBlock st
  · exact Continues.refl st

theorem continues_emitTextDelta (text : String) (st : Emit ClaudeEvent) :
    Continues st (emitTextDelta text st) := by
  rw [emitTextDelta]
  split_ifs
  · exact Continues.refl st
  · have hclosed := (continues_closeThinkingBlock st).trans (continues_leaveToolBlock _)
    refine Continues.push ?_ (by simp) rfl
    rw [ensureTextBlock]
    split_ifs
    · exact hclosed
    · exact hclosed.push (by simp) rfl

theorem continues_emitThinkingDelta (text : String) (st : Emit ClaudeEvent) :
    Continues st (emitThinkingDelta text st) := by
  rw [emitThinkingDelta]
  split_ifs
  · exact Continues.refl st
  · have hclosed := (continues_leaveTextBlock st).trans (continues_leaveToolBlock _)
    refine Continues.push ?_ (by simp) rfl
    rw [ensureThinkingBlock]
    split_ifs
    · exact hclosed
    · exact hclosed.push (by simp) rfl

theorem continues_openToolCall (toolCall : OpenAIToolCall) (st : Emit ClaudeEvent) :
    Continues st (openToolCall toolCall st) := by
  rw [openToolCall]
  split_ifs
  · exact Continues.refl st
  · have hclosed := ((continues_closeThinkingBlock st).trans (continues_leaveTextBlock _)).trans
      (continues_leaveToolBlock _)
    exact hclosed.push (by simp [toolBlockStart]) rfl

theorem continues_emitToolArguments (toolCall : OpenAIToolCall) (st : Emit ClaudeEvent) :
    Continues st (emitToolArguments toolCall st) := by
  rw [emitToolArguments]
  split_ifs
  · exact Continues.refl st
  · have hensure : Continues st (ensureToolBlock toolCall st) := by
      rw [ensureToolBlock]
      by_cases hstarted : st.ctx.toolBlockStarted = true
      · rw [if_pos hstarted]
        exact Continues.refl st
      · rw [if_neg hstarted]
        exact (Continues.refl st).push (by simp [toolBlockStart]) rfl
    exact hensure.push (by simp) rfl

theorem continues_toolCalls (toolCalls : List OpenAIToolCall) (st : Emit ClaudeEvent) :
    Continues st (toolCalls.foldl onToolCall st) := by
  induction toolCalls generalizing st with
  | nil => exact Continues.refl st
  | cons toolCall toolCalls ih =>
    exact ((continues_openToolCall toolCall st).trans
      (continues_emitToolArguments toolCall _)).trans (ih _)

theorem continues_onFinishReason (finishReason : Option String) (st : Emit ClaudeEvent) :
    Continues st (onFinishReason finishReason st) := by
  rcases finishReason with _ | reason
  · exact Continues.refl st
  · have hclosed := ((continues_closeThinkingBlock st).trans (continues_closeTextBlock _)).trans
      (continues_closeToolBlock _)
    rw [onFinishReason]
    split_ifs
    · exact hclosed.push (by simp [stopReasonDelta]) rfl
    · exact Continues.refl st

theorem continues_emitUsage (usage : Option OpenAIUsage) (st : Emit ClaudeEvent) :
    Continues st (emitUsage usage st) := by
  rcases usage with _ | usage
  · exact Continues.refl st
  · exact (Continues.refl st).push (by simp [usageDelta]) rfl

theorem continues_onChoice (choice : OpenAIStreamChoice) (st : Emit ClaudeEvent) :
    Continues st (onChoice choice st) := by
  have hreasoning : Continues st
      (choice.delta.reasoningContent.elim st fun reasoning => emitThinkingDelta reasoning st) := by
    rcases choice.delta.reasoningContent with _ | reasoning
    · exact Continues.refl st
    · exact continues_emitThinkingDelta reasoning st
  have hcontent : ∀ st, Continues st
      (choice.delta.content.elim st fun text => emitTextDelta text st) := by
    intro st
    rcases choice.delta.content with _ | text
    · exact Continues.refl st
    · exact continues_emitTextDelta text st
  rw [onChoice_elim]
  exact ((hreasoning.trans (hcontent _)).trans (continues_toolCalls _ _)).trans
    (continues_onFinishReason _ _)

theorem convertChatChunk_continues (env : Env) (chunk : OpenAIStreamChunk)
    (st : Emit ClaudeEvent) :
    (∃ q, (convertChatChunk env chunk st).result = st.result ++ q ∧ .messageStop ∉ q) ∧
    (convertChatChunk env chunk st).ctx.messageStartSent = true := by
  have hstart : (∃ q, (emitChatMessageStart env chunk st).result = st.result ++ q ∧
      .messageStop ∉ q) ∧ (emitChatMessageStart env chunk st).ctx.messageStartSent = true := by
    rcases emitChatMessageStart_cases env chunk st with
      ⟨hsent, _, _, heq⟩ | ⟨-, _, _, message, heq⟩
    · rw [heq]
      exact ⟨⟨[], by simp, by simp⟩, hsent⟩
    · rw [heq]
      exact ⟨⟨[.messageStart message], rfl, by simp⟩, rfl⟩
  have hrest : Continues (emitChatMessageStart env chunk st) (convertChatChunk env chunk st) := by
    rw [convertChatChunk]
    rcases chunk.choices with _ | ⟨choice, choices⟩
    · exact continues_emitUsage _ _
    · by_cases honly : (chunk.usage.isSome && isUsageOnly choice) = true
      · simp only [honly, if_true]
        exact continues_emitUsage _ _
      · simp only [honly]
        exact (continues_onChoice choice _).trans (continues_emitUsage _ _)
  obtain ⟨⟨q, hq, hstop⟩, hsent⟩ := hstart
  obtain ⟨⟨q', hq', hstop'⟩, hsent'⟩ := hrest
  refine ⟨⟨q ++ q', by rw [hq', hq, List.append_assoc], fun hmem => ?_⟩, hsent'.trans hsent⟩
  rcases List.mem_append.1 hmem with hmem | hmem
  · exact hstop hmem
  · exact hstop' hmem

/-! ### Runs of blocks -/

section Runs

variable (env : Env)

def startsMessage (event : Bytes) : Bool :=
  match readChatInput env event with
  | .chunk _ => true
  | _ => false

def isDoneMarker (event : Bytes) : Bool :=
  match readChatInput env event with
  | .done => true
  | _ => false

def DoneInTime (pre : List Bytes) (event : Bytes) : Prop :=
  isDoneMarker env event = true → ∀ e ∈ pre, startsMessage env e = false

instance (pre : List Bytes) (event : Bytes) : Decidable (DoneInTime env pre event) :=
  inferInstanceAs (Decidable (_ → _))

/-- The context and the output after a sequence of blocks. -/
structure MessageTracked (events : List Bytes) (ctx : StreamContext) (t : List ClaudeEvent) :
    Prop where
  started : ctx.messageStartSent = true ↔ ∃ event ∈ events, startsMessage env event = true
  stopped : .messageStop ∈ t ↔ ¬ Permits (DoneInTime env) events
  /-- nothing happens before the message starts -/
  idle : ctx.messageStartSent = false → t = [] ∧ ctx.thinkingBlockStarted = false ∧
    ctx.contentBlockStarted = false ∧ ctx.toolBlockStarted = false

theorem messageTracked_new (targetModel : String) :
    MessageTracked env [] (.forModel targetModel) [] where
  started := by simp [StreamContext.forModel, StreamContext.new]
  stopped := by simp
  idle _ := ⟨rfl, rfl, rfl, rfl⟩

variable {env} {events : List Bytes} {ctx : StreamContext} {t : List ClaudeEvent}

theorem finalize_of_idle (hsent : ctx.messageStartSent = false)
    (hthinking : ctx.thinkingBlockStarted = false) (hcontent : ctx.contentBlockStarted = false)
    (htool : ctx.toolBlockStarted = false) : finalizeOpenaiStreamToClaude ctx = ([], ctx) := by
  rw [finalizeOpenaiStreamToClaude, closeBlocks_of_closed hthinking hcontent htool]
  simp [hsent, Emit.finish]

variable {event : Bytes}

theorem MessageTracked.step_of_quiet (h : MessageTracked env events ctx t)
    (hstart : startsMessage env event = false) (hdone : isDoneMarker env event = false) :
    MessageTracked env (events ++ [event]) ctx t := by
  refine ⟨?_, ?_, h.idle⟩
  · rw [h.started]
    simp [hstart]
  · rw [h.stopped, permits_snoc]
    simp [DoneInTime, hdone]

theorem MessageTracked.step (h : MessageTracked env events ctx t) {o : List ClaudeEvent}
    {ctx' : StreamContext} (hstep : openaiStreamToClaude env event ctx = .ok (o, ctx')) :
    MessageTracked env (events ++ [event]) ctx' (t ++ o) := by
  rw [openaiStreamToClaude] at hstep
  rcases hread : readChatInput env event with _ | _ | chunk | error
  case skip =>
    rw [hread] at hstep
    obtain ⟨rfl, rfl⟩ := Prod.mk.inj (Except.ok.inj hstep)
    rw [List.append_nil]
    exact h.step_of_quiet (by simp [startsMessage, hread]) (by simp [isDoneMarker, hread])
  case done =>
    rw [hread] at hstep
    -- the marker stops the message, if one has started
    have hdone : isDoneMarker env event = true := by simp [isDoneMarker, hread]
    have hstart : startsMessage env event = false := by simp [startsMessage, hread]
    rcases hsent : ctx.messageStartSent with _ | _
    · obtain ⟨ht, hthinking, hcontent, htool⟩ := h.idle hsent
      rw [finalize_of_idle hsent hthinking hcontent htool] at hstep
      obtain ⟨rfl, rfl⟩ := Prod.mk.inj (Except.ok.inj hstep)
      have hnone : ∀ e ∈ events, startsMessage env e = false := by
        intro e he
        rcases hs : startsMessage env e with _ | _
        · rfl
        · rw [h.started.2 ⟨e, he, hs⟩] at hsent
          exact absurd hsent (by simp)
      rw [List.append_nil]
      refine ⟨?_, ?_, h.idle⟩
      · rw [h.started]
        simp [hstart]
      · have htime : DoneInTime env events event := fun _ => hnone
        rw [h.stopped, permits_snoc, and_iff_left htime]
    · obtain ⟨pre, hfin, -, hsent'⟩ := finalizeOpenaiStreamToClaude_of_started hsent
      have heq : finalizeOpenaiStreamToClaude ctx = (o, ctx') := Except.ok.inj hstep
      rw [heq] at hfin hsent'
      obtain ⟨e, he, hs⟩ := h.started.1 hsent
      refine ⟨iff_of_true hsent' ⟨e, by simp [he], hs⟩, iff_of_true ?_ ?_, ?_⟩
      · rw [show o = _ from hfin]
        simp
      · rw [permits_snoc]
        rintro ⟨-, htime⟩
        rw [htime hdone e he] at hs
        exact absurd hs (by simp)
      · intro hnot
        rw [hsent'] at hnot
        exact absurd hnot (by simp)
  case chunk =>
    rw [hread] at hstep
    obtain ⟨rfl, rfl⟩ := Prod.mk.inj (Except.ok.inj hstep)
    -- a chunk starts the message, and stops nothing
    obtain ⟨⟨q, hq, hstop⟩, hsent⟩ := convertChatChunk_continues env chunk (Emit.start ctx)
    have hdone : isDoneMarker env event = false := by simp [isDoneMarker, hread]
    have hstart : startsMessage env event = true := by simp [startsMessage, hread]
    rw [Emit.start_result, List.nil_append] at hq
    refine ⟨iff_of_true hsent ⟨event, by simp, hstart⟩, ?_, ?_⟩
    · rw [permits_snoc, List.mem_append, hq, h.stopped]
      simp [DoneInTime, hdone, hstop]
    · intro hnot
      rw [hsent] at hnot
      exact absurd hnot (by simp)
  case bad =>
    rw [hread] at hstep
    exact absurd hstep (by simp)

variable (env) in
theorem messageTracked_run (targetModel : String)
    (hok : (feed (openaiStreamToClaude env) (.forModel targetModel) events).error = none) :
    MessageTracked env events
      (feed (openaiStreamToClaude env) (.forModel targetModel) events).state
      (feed (openaiStreamToClaude env) (.forModel targetModel) events).out := by
  have h := feed_history (R := MessageTracked env)
    (fun is s t i o s' h hi => MessageTracked.step h hi) events
    (messageTracked_new env targetModel) hok
  simpa using h

/-- What a started message is sent at the end: `message_stop` last, so that another one before
it, or anything after it, is too much. -/
theorem stoppedOnce_append_stop {pre : List ClaudeEvent} (hpre : .messageStop ∉ pre) :
    StoppedOnce (t ++ (pre ++ [.messageStop])) ↔ .messageStop ∉ t := by
  constructor
  · intro h hmem
    obtain ⟨before, after, rfl⟩ := List.append_of_mem hmem
    have hnil := h before (after ++ (pre ++ [.messageStop])) (by
      rw [List.append_assoc, List.cons_append])
    simp at hnil
  · intro hnot before after heq
    rw [← List.append_assoc] at heq
    rcases eq_or_of_snoc_eq heq with ⟨-, -, hnil⟩ | ⟨post', hmem⟩
    · exact hnil
    · have hstop : ClaudeEvent.messageStop ∈ t ++ pre := by
        rw [hmem]
        simp
      exact absurd hstop (by simp [hnot, hpre])

theorem MessageTracked.stoppedOnce_finalize_iff (h : MessageTracked env events ctx t) :
    StoppedOnce (t ++ (finalizeOpenaiStreamToClaude ctx).1) ↔ Permits (DoneInTime env) events := by
  rcases hsent : ctx.messageStartSent with _ | _
  · obtain ⟨rfl, hthinking, hcontent, htool⟩ := h.idle hsent
    rw [finalize_of_idle hsent hthinking hcontent htool]
    refine iff_of_true ?_ ?_
    · intro pre post heq
      simp at heq
    · by_contra hnot
      exact absurd (h.stopped.2 hnot) (by simp)
  · obtain ⟨pre, hfin, hpre, -⟩ := finalizeOpenaiStreamToClaude_of_started hsent
    rw [hfin, stoppedOnce_append_stop hpre, h.stopped, not_not]

theorem MessageTracked.stoppedOnce_finalizeTwice_iff (h : MessageTracked env events ctx t) :
    StoppedOnce (t ++ ((finalizeOpenaiStreamToClaude ctx).1 ++
      (if (finalizeOpenaiStreamToClaude ctx).1.isEmpty then []
        else (finalizeOpenaiStreamToClaude (finalizeOpenaiStreamToClaude ctx).2).1))) ↔
      ∀ event ∈ events, startsMessage env event = false := by
  rcases hsent : ctx.messageStartSent with _ | _
  · obtain ⟨rfl, hthinking, hcontent, htool⟩ := h.idle hsent
    rw [finalize_of_idle hsent hthinking hcontent htool]
    refine iff_of_true ?_ fun event hmem => ?_
    · intro pre post heq
      simp at heq
    · rcases hs : startsMessage env event with _ | _
      · rfl
      · rw [h.started.2 ⟨event, hmem, hs⟩] at hsent
        exact absurd hsent (by simp)
  · obtain ⟨pre, hfin, -, hsent'⟩ := finalizeOpenaiStreamToClaude_of_started hsent
    obtain ⟨pre', hfin', -⟩ := finalizeOpenaiStreamToClaude_of_started hsent'
    obtain ⟨event, hmem, hs⟩ := h.started.1 hsent
    refine iff_of_false (fun hstopped => ?_) fun hnone => ?_
    · rw [hfin', hfin, if_neg (by simp)] at hstopped
      have hnil := hstopped (t ++ pre) (pre' ++ [.messageStop]) (by simp)
      simp at hnil
    · rw [hnone event hmem] at hs
      exact absurd hs (by simp)

theorem isDoneMarker_of_not_accepts (h : acceptsChat env event = false) :
    isDoneMarker env event = false := by
  rw [acceptsChat] at h
  rw [isDoneMarker]
  rcases hread : readChatInput env event with _ | _ | chunk | error
  case done => exact absurd h (by simp [hread])
  all_goals rfl

theorem feed_of_accepts (h : ∀ event ∈ events, acceptsChat env event = true) :
    ∀ ctx, (feed (openaiStreamToClaude env) ctx events).error = none :=
  feed_error_eq_none fun event hmem => openaiStreamToClaude_of_accepts (h event hmem)

end Runs

/-! ### The route -/

/-- The loop reaches the end of the body: the probe passes, the pending buffer stays within
its limit, and every complete block is accepted. -/
structure ReachesEof (env : Env) (probe : Bool) (chunks : List Bytes) : Prop where
  probed : passesProbe probe chunks = true
  limit : WithinLimit [] chunks
  accepted : ∀ event ∈ (sseFinder.drain chunks.flatten).1, acceptsChat env event = true

/-- No done marker comes after a chunk, and no tail is refused after one. -/
structure StopsInTime (env : Env) (bytes : Bytes) : Prop where
  done : Permits (DoneInTime env) ((sseFinder.drain bytes).1 ++
    if (sseFinder.drain bytes).2 = [] then [] else [(sseFinder.drain bytes).2])
  tail : (sseFinder.drain bytes).2 ≠ [] → acceptsChat env (sseFinder.drain bytes).2 = false →
    ∀ event ∈ (sseFinder.drain bytes).1, startsMessage env event = false

/-- **The message is stopped once** exactly when no `[DONE]` and no refused tail comes after
the first chunk. -/
theorem stoppedOnce_ccOpenai_iff (env : Env) (targetModel : String) (probe : Bool)
    (chunks : List Bytes) (h : ReachesEof env probe chunks) :
    StoppedOnce (deliver (handleStream (ccOpenaiRoute env) probe .eof chunks
        (.forModel targetModel))).out ↔ StopsInTime env chunks.flatten := by
  have hok := feed_of_accepts h.accepted (.forModel targetModel)
  have htracked := messageTracked_run env targetModel hok
  have hok' : (feed (ccOpenaiRoute env).transform (.forModel targetModel)
      (sseFinder.drainChunks [] chunks).1).error = none := by
    rw [drainChunks_nil]
    exact hok
  rw [handleStream, if_pos h.probed, deliver_streamLoop (ccOpenaiRoute env) h.limit hok',
    drainChunks_nil]
  have hroute : (ccOpenaiRoute env).transform = openaiStreamToClaude env := rfl
  rw [hroute]
  generalize feed (openaiStreamToClaude env) (.forModel targetModel)
    (sseFinder.drain chunks.flatten).1 = run at htracked ⊢
  simp only [onBodyEnd]
  rcases hcut : (sseFinder.drain chunks.flatten).2 with _ | ⟨byte, tail⟩
  · -- the body ends after a complete block
    have hiff := htracked.stoppedOnce_finalize_iff
    rw [deliver_onEof_of_empty]
    refine hiff.trans ⟨fun hdone => ⟨?_, fun hne => absurd hcut hne⟩, fun hstops => ?_⟩
    · rw [if_pos hcut, List.append_nil]
      exact hdone
    · have hdone := hstops.done
      rw [if_pos hcut, List.append_nil] at hdone
      exact hdone
  · have htail : byte :: tail ≠ [] := by simp
    rcases hacc : acceptsChat env (byte :: tail) with _ | _
    · -- a refused tail
      obtain ⟨e, hi⟩ := openaiStreamToClaude_of_not_accepts hacc run.state
      have hiff := htracked.stoppedOnce_finalizeTwice_iff
      rw [deliver_onEof_of_refused (ccOpenaiRoute env) htail hi]
      refine hiff.trans ⟨fun hnone => ⟨?_, fun _ _ => hnone⟩, fun hstops => ?_⟩
      · rw [hcut, if_neg htail, permits_snoc]
        refine ⟨?_, fun hdone => ?_⟩
        · intro pre event post heq _ event' hmem
          exact hnone event' (by rw [heq]; simp [hmem])
        · rw [isDoneMarker_of_not_accepts hacc] at hdone
          exact absurd hdone (by simp)
      · exact hstops.tail (by rw [hcut]; exact htail) (by rw [hcut]; exact hacc)
    · -- an accepted tail is one more block
      obtain ⟨⟨o, ctx'⟩, hi⟩ := openaiStreamToClaude_of_accepts hacc run.state
      have hiff := (htracked.step hi).stoppedOnce_finalize_iff
      rw [deliver_onEof_of_accepted (ccOpenaiRoute env) htail hi, ← List.append_assoc]
      refine hiff.trans ⟨fun hdone => ⟨?_, fun _ hnot => ?_⟩, fun hstops => ?_⟩
      · rw [hcut, if_neg htail]
        exact hdone
      · rw [hcut, hacc] at hnot
        exact absurd hnot (by simp)
      · have hdone := hstops.done
        rw [hcut, if_neg htail] at hdone
        exact hdone

/-! ### A concrete stream -/

/-- Whether an event is the `message_stop`. -/
def ClaudeEvent.isMessageStop : ClaudeEvent → Bool
  | .messageStop => true
  | _ => false

theorem countP_isMessageStop_le_one {t : List ClaudeEvent} (h : StoppedOnce t) :
    t.countP ClaudeEvent.isMessageStop ≤ 1 := by
  by_cases hmem : .messageStop ∈ t
  · obtain ⟨pre, post, rfl, hpre⟩ := List.eq_append_cons_of_mem hmem
    obtain rfl := h pre post rfl
    have hzero : pre.countP ClaudeEvent.isMessageStop = 0 := by
      rw [List.countP_eq_zero]
      intro e he hstop
      rcases e with _ | _ | _ | _ | _ | _ <;>
        simp only [ClaudeEvent.isMessageStop, Bool.false_eq_true] at hstop
      exact hpre he
    rw [List.countP_append, hzero]
    rfl
  · have hzero : t.countP ClaudeEvent.isMessageStop = 0 := by
      rw [List.countP_eq_zero]
      intro e he hstop
      rcases e with _ | _ | _ | _ | _ | _ <;>
        simp only [ClaudeEvent.isMessageStop, Bool.false_eq_true] at hstop
      exact hmem he
    rw [hzero]
    exact Nat.zero_le 1

def plainChunk : Json :=
  .obj [("id", .str "c"), ("object", .str ""), ("created", .int 1), ("model", .str "m"),
    ("choices", .arr [])]

/-- A stream that ends without the done marker. -/
theorem stoppedOnce_plainChunk :
    StoppedOnce (deliver (handleStream (ccOpenaiRoute (Env.ofValues [plainChunk])) false .eof
      [dataBlock plainChunk.compact] (.forModel ""))).out := by
  have h : (passesProbe false [dataBlock plainChunk.compact] = true ∧
      WithinLimit [] [dataBlock plainChunk.compact] ∧
      ∀ event ∈ (sseFinder.drain [dataBlock plainChunk.compact].flatten).1,
        acceptsChat (Env.ofValues [plainChunk]) event = true) ∧
      (sseFinder.drain [dataBlock plainChunk.compact].flatten).2 = [] ∧
      Permits (DoneInTime (Env.ofValues [plainChunk]))
        (sseFinder.drain [dataBlock plainChunk.compact].flatten).1 := by
    decide +kernel
  obtain ⟨⟨hprobed, hlimit, haccepted⟩, htail, hdone⟩ := h
  refine (stoppedOnce_ccOpenai_iff _ _ _ _ ⟨hprobed, hlimit, haccepted⟩).2 ⟨?_, ?_⟩
  · rwa [if_pos htail, List.append_nil]
  · exact fun hne => absurd htail hne

/-- The same stream with the done marker. -/
theorem not_stoppedOnce_chunkThenDone :
    ReachesEof (Env.ofValues [plainChunk]) false
      [dataBlock plainChunk.compact, dataBlock "[DONE]"] ∧
    ¬ StoppedOnce (deliver (handleStream (ccOpenaiRoute (Env.ofValues [plainChunk])) false .eof
      [dataBlock plainChunk.compact, dataBlock "[DONE]"] (.forModel ""))).out := by
  have h : (passesProbe false [dataBlock plainChunk.compact, dataBlock "[DONE]"] = true ∧
      WithinLimit [] [dataBlock plainChunk.compact, dataBlock "[DONE]"] ∧
      ∀ event ∈ (sseFinder.drain
          [dataBlock plainChunk.compact, dataBlock "[DONE]"].flatten).1,
        acceptsChat (Env.ofValues [plainChunk]) event = true) ∧
      (deliver (handleStream (ccOpenaiRoute (Env.ofValues [plainChunk])) false .eof
        [dataBlock plainChunk.compact, dataBlock "[DONE]"]
          (.forModel ""))).out.countP ClaudeEvent.isMessageStop = 2 := by
    decide +kernel
  refine ⟨⟨h.1.1, h.1.2.1, h.1.2.2⟩, fun hstopped => ?_⟩
  have hle := countP_isMessageStop_le_one hstopped
  rw [h.2] at hle
  exact absurd hle (by decide)

end AiOpenRouter
