/-
Upstream bodies that end before their terminal event.

At the end of the body the loop runs `finalize_stream_transform`, which knows the
two Messages routes only.  On the other four a clean end adds nothing to the
output; a read error or a refused tail ends the body with an error.

* `showsTruncation_iff` — when a client of a truncated stream gets the terminal
  marker of its protocol or an error;
* `not_showsTruncation_deltaThenEof` — a stream that is cut off without either.
-/
import AiOpenRouter.ChatToClaudeStop
import AiOpenRouter.ChatToResponsesFinish
import AiOpenRouter.ChatToResponsesItems

open Trace

namespace AiOpenRouter

/-! ### The upstream -/

def ClaudeInput.isBad : ClaudeInput → Bool
  | bad _ => true
  | _ => false

def DataBlock.isBad : DataBlock → Bool
  | bad _ => true
  | _ => false

def TransformerName.accepts (env : Env) (name : TransformerName) (event : Bytes) : Bool :=
  match name with
  | ccOpenai => acceptsChat env event
  | ccOpenai2 => true
  | cxChatClaude => !(readClaudeBlock env event).isBad
  | cxChatOpenai2 => !(readDataBlock env event).isBad
  | cxRespClaude => !(readClaudeChecked env event).isBad
  | cxRespOpenai => acceptsChatData env event

def ClaudeInput.isMessageStop : ClaudeInput → Bool
  | event eventType _ => eventType = "message_stop"
  | _ => false

/-- Whether a block is the terminal event of the route's upstream: `[DONE]`, `message_stop`,
or `response.completed`, after which a `[DONE]` may come. -/
def TransformerName.isTerminal (env : Env) (name : TransformerName) (event : Bytes) : Bool :=
  match name with
  | ccOpenai => isDoneMarker env event
  | ccOpenai2 =>
    match readResponsesInput env event with
    | .skip => false
    | .done => true
    | .event eventName _ => eventName = "response.completed"
  | cxChatClaude => (readClaudeBlock env event).isMessageStop
  | cxChatOpenai2 =>
    match readDataBlock env event with
    | .done => true
    | .data data => data.getStr "type" = some "response.completed"
    | _ => false
  | cxRespClaude => (readClaudeChecked env event).isMessageStop
  | cxRespOpenai => isChatDone env event

def upstreamBlocks (bodyEnd : BodyEnd) (bytes : Bytes) : List Bytes :=
  (sseFinder.drain bytes).1 ++
    if bodyEnd = .eof ∧ (sseFinder.drain bytes).2 ≠ [] then [(sseFinder.drain bytes).2] else []

/-- An upstream body that gave some output and then ended before its terminal event. -/
structure Truncated (env : Env) (name : TransformerName) (targetModel : String) (probe : Bool)
    (bodyEnd : BodyEnd) (chunks : List Bytes) : Prop where
  probed : passesProbe probe chunks = true
  limit : WithinLimit [] chunks
  accepted : ∀ event ∈ (sseFinder.drain chunks.flatten).1, name.accepts env event = true
  produced : (feed (name.route env).transform (.forModel targetModel)
    (upstreamBlocks bodyEnd chunks.flatten)).out ≠ []
  unfinished : ∀ event ∈ upstreamBlocks bodyEnd chunks.flatten, name.isTerminal env event = false

/-! ### The downstream -/

def EndsTerminal : EntryEndpoint → List DownstreamEvent → Prop
  | .messages, t => ∃ pre, t = pre ++ [.claude .messageStop]
  | .chatCompletions, t => ∃ pre chunk, chunk.finishReason.isSome = true ∧
      t = pre ++ [.chat (.chunk chunk), .chat .doneMarker]
  | .responses, t => ∃ pre id usage, t = pre ++ [.responses (.completed id usage)] ∨
      t = pre ++ [.responses (.completed id usage), .responses .doneMarker]

/-- The client can tell: the terminal marker, or an error. -/
def ShowsTruncation (entry : EntryEndpoint) (d : Delivered DownstreamEvent) : Prop :=
  d.error.isSome = true ∨ EndsTerminal entry d.out

def ErrorExit (env : Env) (name : TransformerName) (bodyEnd : BodyEnd) (bytes : Bytes) : Prop :=
  bodyEnd = .readError ∨
    (bodyEnd = .eof ∧ (sseFinder.drain bytes).2 ≠ [] ∧
      name.accepts env (sseFinder.drain bytes).2 = false)

/-! ### What is delivered -/

variable {st : Emit ResponsesEvent} {events : List Bytes} (env : Env) (data : Json)
  (ctx : StreamContext)

theorem TransformerName.isOk_transform (name : TransformerName) (event : Bytes)
    (ctx : StreamContext) :
    ((name.route env).transform event ctx).isOk = name.accepts env event := by
  rcases name
  case ccOpenai =>
    show ((openaiStreamToClaude env event ctx).map _).isOk = acceptsChat env event
    rw [openaiStreamToClaude, acceptsChat]
    rcases readChatInput env event <;> rfl
  case ccOpenai2 =>
    obtain ⟨r, hr⟩ := openaiResponsesStreamToClaude_ok env event ctx
    show ((openaiResponsesStreamToClaude env event ctx).map _).isOk = true
    rw [hr]
    rfl
  case cxChatClaude =>
    show ((claudeStreamToOpenai env event ctx).map _).isOk = !(readClaudeBlock env event).isBad
    rw [claudeStreamToOpenai]
    rcases readClaudeBlock env event <;> rfl
  case cxChatOpenai2 =>
    show ((openaiResponsesStreamToChat env event ctx).map _).isOk = !(readDataBlock env event).isBad
    rw [openaiResponsesStreamToChat]
    rcases readDataBlock env event <;> rfl
  case cxRespClaude =>
    show ((claudeStreamToOpenaiResponses env event ctx).map _).isOk
      = !(readClaudeChecked env event).isBad
    rw [claudeStreamToOpenaiResponses]
    rcases readClaudeChecked env event <;> rfl
  case cxRespOpenai =>
    show ((openaiChatStreamToResponses env event ctx).map _).isOk = acceptsChatData env event
    rw [openaiChatStreamToResponses, acceptsChatData]
    rcases readChatData env event <;> rfl

theorem TransformerName.transform_of_accepts {env : Env} {name : TransformerName} {event : Bytes}
    (h : name.accepts env event = true) (ctx : StreamContext) :
    ∃ r, (name.route env).transform event ctx = .ok r := by
  have hok := name.isOk_transform env event ctx
  rcases hr : (name.route env).transform event ctx with e | r
  · rw [hr, h] at hok
    exact absurd hok (by simp [Except.isOk, Except.toBool])
  · exact ⟨r, rfl⟩

theorem TransformerName.transform_of_not_accepts {env : Env} {name : TransformerName}
    {event : Bytes} (h : name.accepts env event = false) (ctx : StreamContext) :
    ∃ e, (name.route env).transform event ctx = .error e := by
  have hok := name.isOk_transform env event ctx
  rcases hr : (name.route env).transform event ctx with e | r
  · exact ⟨e, rfl⟩
  · rw [hr, h] at hok
    exact absurd hok (by simp [Except.isOk, Except.toBool])

section Delivery

variable {ο : Type} (route : StreamRoute ο) {probe : Bool} {bodyEnd : BodyEnd}
  {chunks : List Bytes} {ctx : StreamContext}

theorem deliver_handleStream_of_converted (hprobe : passesProbe probe chunks = true)
    (hlimit : WithinLimit [] chunks)
    (hok : (feed route.transform ctx (upstreamBlocks bodyEnd chunks.flatten)).error = none) :
    deliver (handleStream route probe bodyEnd chunks ctx)
      = ⟨(feed route.transform ctx (upstreamBlocks bodyEnd chunks.flatten)).out ++
          (route.finalize (feed route.transform ctx
            (upstreamBlocks bodyEnd chunks.flatten)).state).1,
         if bodyEnd = .readError ∧ (route.finalize (feed route.transform ctx
            (upstreamBlocks bodyEnd chunks.flatten)).state).1 = []
          then some "stream read failed" else none⟩ := by
  rw [upstreamBlocks] at hok ⊢
  have hcomplete : (feed route.transform ctx (sseFinder.drain chunks.flatten).1).error = none := by
    rcases herr : (feed route.transform ctx (sseFinder.drain chunks.flatten).1).error with _ | e
    · rfl
    · rw [feed_append_of_error herr, herr] at hok
      exact absurd hok (by simp)
  rw [handleStream, if_pos hprobe, deliver_streamLoop route hlimit
    (by rw [drainChunks_nil]; exact hcomplete), drainChunks_nil]
  rcases bodyEnd with _ | _
  · rcases hcut : (sseFinder.drain chunks.flatten).2 with _ | ⟨byte, tail⟩
    · rw [if_neg (by simp), List.append_nil, if_neg (by simp)]
      simp only [onBodyEnd, deliver_onEof_of_empty]
    · have htail : byte :: tail ≠ [] := by simp
      rw [hcut, if_pos ⟨rfl, htail⟩, feed_append hcomplete] at hok
      rw [if_pos ⟨rfl, htail⟩, feed_append hcomplete, if_neg (by simp)]
      simp only [onBodyEnd]
      rcases hi : route.transform (byte :: tail)
        (feed route.transform ctx (sseFinder.drain chunks.flatten).1).state with e | ⟨o, ctx'⟩
      · rw [feed_cons_error hi] at hok
        exact absurd hok (by simp)
      · rw [feed_cons_ok hi, feed_nil, List.append_nil, deliver_onEof_of_accepted route htail hi,
          List.append_assoc]
  · rw [if_neg (by simp), List.append_nil]
    simp only [onBodyEnd, deliver_sendFinalizerOr, List.isEmpty_iff, true_and]

theorem deliver_handleStream_of_refusedTail (hprobe : passesProbe probe chunks = true)
    (hlimit : WithinLimit [] chunks)
    (hok : (feed route.transform ctx (sseFinder.drain chunks.flatten).1).error = none)
    (htail : (sseFinder.drain chunks.flatten).2 ≠ [])
    (hfail : ∃ e, route.transform (sseFinder.drain chunks.flatten).2
      (feed route.transform ctx (sseFinder.drain chunks.flatten).1).state = .error e) :
    deliver (handleStream route probe .eof chunks ctx)
      = ⟨(feed route.transform ctx (sseFinder.drain chunks.flatten).1).out ++
          ((route.finalize (feed route.transform ctx
              (sseFinder.drain chunks.flatten).1).state).1 ++
            (if (route.finalize (feed route.transform ctx
              (sseFinder.drain chunks.flatten).1).state).1.isEmpty then []
            else (route.finalize (route.finalize (feed route.transform ctx
              (sseFinder.drain chunks.flatten).1).state).2).1)),
         if (route.finalize (feed route.transform ctx
              (sseFinder.drain chunks.flatten).1).state).1.isEmpty
          then some "stream transform failed" else none⟩ := by
  obtain ⟨e, hi⟩ := hfail
  rw [handleStream, if_pos hprobe, deliver_streamLoop route hlimit
    (by rw [drainChunks_nil]; exact hok), drainChunks_nil]
  simp only [onBodyEnd, deliver_onEof_of_refused route htail hi]

end Delivery

/-! ### The Messages routes -/

theorem onContentPartAdded_finishReasonSent (st : Emit ClaudeEvent) :
    (onContentPartAdded env data st).ctx.finishReasonSent = st.ctx.finishReasonSent := by
  rw [onContentPartAdded]
  rcases data.get "part" with _ | part
  · rfl
  · simp only
    split_ifs
    · rw [startUnlessOpen_finishReasonSent,
        (resolves_resolveContentIndex _ data).finishReasonSent_eq,
        emitMessageStartIfNeeded_finishReasonSent]
    · rfl

theorem emitContentDelta_finishReasonSent (block : ClaudeBlock) (delta : ClaudeDelta)
    (st : Emit ClaudeEvent) :
    (emitContentDelta env data block delta st).ctx.finishReasonSent
      = st.ctx.finishReasonSent := by
  rw [emitContentDelta, Emit.push_ctx, startUnlessOpen_finishReasonSent,
    (resolves_resolveContentIndex _ data).finishReasonSent_eq,
    emitMessageStartIfNeeded_finishReasonSent]

theorem onOutputItemAdded_finishReasonSent (st : Emit ClaudeEvent) :
    (onOutputItemAdded env data st).ctx.finishReasonSent = st.ctx.finishReasonSent := by
  rw [onOutputItemAdded]
  rcases data.get "item" with _ | item
  · rfl
  · simp only
    split_ifs
    · have hset : ∀ itemId index (ctx : StreamContext),
          (setToolIndex itemId index ctx).finishReasonSent = ctx.finishReasonSent := by
        intro itemId index ctx
        rcases itemId with _ | itemId
        · rfl
        · rfl
      rw [startUnlessOpen_finishReasonSent, setLastToolIndex, hset,
        (resolves_resolveAddedIndex _ data item).finishReasonSent_eq,
        emitMessageStartIfNeeded_finishReasonSent]
      rfl
    · rfl

theorem onArgumentsDelta_finishReasonSent (st : Emit ClaudeEvent) :
    (onArgumentsDelta env data st).ctx.finishReasonSent = st.ctx.finishReasonSent := by
  rw [onArgumentsDelta]
  rcases data.getStr "delta" with _ | delta
  · rfl
  · simp only
    rw [Emit.push_ctx, startUnlessOpen_finishReasonSent, setLastToolIndex,
      (resolves_resolveArgumentsIndex _ data).finishReasonSent_eq,
      emitMessageStartIfNeeded_finishReasonSent]

theorem onArgumentsDone_finishReasonSent (st : Emit ClaudeEvent) :
    (onArgumentsDone data st).ctx.finishReasonSent = st.ctx.finishReasonSent := by
  rw [onArgumentsDone]
  rcases toolIndexOfEvent st.ctx data with _ | index
  · rfl
  · have hclose := (closeOpenIndex_flags st index).2
    rcases data.getStr "item_id" with _ | itemId
    · exact hclose
    · exact hclose

theorem convertResponsesEvent_finishReasonSent {eventName : String}
    (hname : eventName ≠ "response.completed") (data : Json) (st : Emit ClaudeEvent) :
    (convertResponsesEvent env eventName data st).ctx.finishReasonSent
      = st.ctx.finishReasonSent := by
  have htext : (onOutputTextDelta env data st).ctx.finishReasonSent = st.ctx.finishReasonSent := by
    rw [onOutputTextDelta]
    rcases data.getStr "delta" with _ | delta
    · rfl
    · exact emitContentDelta_finishReasonSent env data _ _ st
  have hreasoning : (onReasoningDelta env data st).ctx.finishReasonSent
      = st.ctx.finishReasonSent := by
    rw [onReasoningDelta]
    rcases reasoningText data with _ | delta
    · rfl
    · exact emitContentDelta_finishReasonSent env data _ _ st
  have hdone : (onContentPartDone data st).ctx.finishReasonSent = st.ctx.finishReasonSent := by
    rw [onContentPartDone]
    rcases contentTarget st.ctx data with _ | index
    · rfl
    · exact (closeOpenIndex_flags st index).2
  unfold convertResponsesEvent
  split
  · exact emitMessageStartIfNeeded_finishReasonSent env _ _
  · exact onContentPartAdded_finishReasonSent env data st
  · exact htext
  · exact htext
  · exact hdone
  · exact hdone
  · exact hdone
  · exact onOutputItemAdded_finishReasonSent env data st
  · exact onArgumentsDelta_finishReasonSent env data st
  · exact onArgumentsDone_finishReasonSent data st
  · exact hreasoning
  · exact absurd rfl hname
  · rfl

theorem tracks_feed_of_unfinished (targetModel : String)
    (h : ∀ event ∈ events, TransformerName.ccOpenai2.isTerminal env event = false) :
    Tracks (feed (openaiResponsesStreamToClaude env) (.forModel targetModel) events).state
        (feed (openaiResponsesStreamToClaude env) (.forModel targetModel) events).out ∧
      (feed (openaiResponsesStreamToClaude env)
        (.forModel targetModel) events).state.finishReasonSent = false := by
  have hstep : ∀ ctx t event o ctx', (Tracks ctx t ∧ ctx.finishReasonSent = false) →
      TransformerName.ccOpenai2.isTerminal env event = false →
      openaiResponsesStreamToClaude env event ctx = .ok (o, ctx') →
      Tracks ctx' (t ++ o) ∧ ctx'.finishReasonSent = false := by
    rintro ctx t event o ctx' ⟨htracks, hfinish⟩ hterminal hstep
    refine ⟨tracks_step env ctx t event o ctx' htracks hstep, ?_⟩
    rw [openaiResponsesStreamToClaude] at hstep
    rw [TransformerName.isTerminal] at hterminal
    rcases hread : readResponsesInput env event with _ | _ | ⟨eventName, data⟩
    case skip =>
      rw [hread] at hstep
      obtain ⟨rfl, rfl⟩ := Prod.mk.inj (Except.ok.inj hstep)
      exact hfinish
    case done =>
      rw [hread] at hterminal
      exact absurd hterminal (by simp)
    case event =>
      rw [hread] at hstep hterminal
      obtain ⟨rfl, rfl⟩ := Prod.mk.inj (Except.ok.inj hstep)
      have hname : eventName ≠ "response.completed" := by simpa using hterminal
      exact (convertResponsesEvent_finishReasonSent env hname data _).trans hfinish
  have hnew : Tracks (.forModel targetModel) [] := tracks_new.congr rfl rfl rfl
  have hrun := feed_invariant_of_forall
    (R := fun ctx t => Tracks ctx t ∧ ctx.finishReasonSent = false) hstep h
    (s := StreamContext.forModel targetModel) (t := []) ⟨hnew, rfl⟩
  simpa using hrun

theorem finalizeOpenaiResponsesStreamToClaude_of_unfinished {ctx : StreamContext}
    (hstart : ctx.messageStartSent = true) (hfinish : ctx.finishReasonSent = false) :
    ∃ pre, (finalizeOpenaiResponsesStreamToClaude ctx).1 = pre ++ [.messageStop] := by
  obtain ⟨hstart', hfinish'⟩ := closeAllOpenIndices_flags (Emit.start ctx)
  rw [finalizeOpenaiResponsesStreamToClaude, if_neg (by simp [hstart, hfinish]),
    finalizeOpenaiResponsesStreamToClaudeDone]
  have hstop :
      (!((closeAllOpenIndices (Emit.start ctx)).withCtx clearToolIndices).ctx.finishReasonSent
      && ((closeAllOpenIndices (Emit.start ctx)).withCtx clearToolIndices).ctx.messageStartSent)
        = true := by
    rw [Emit.withCtx_ctx, clearToolIndices]
    simp only
    rw [hstart', hfinish', Emit.start_ctx, hstart, hfinish]
    rfl
  rw [if_pos hstop]
  exact ⟨(closeAllOpenIndices (Emit.start ctx)).result, rfl⟩

/-! ### The routes without a finaliser -/

def ChunksOnly (st : Emit ChatEvent) : Prop := ∀ e ∈ st.result, e ≠ .doneMarker

theorem ChunksOnly.start : ChunksOnly (Emit.start ctx) := by
  intro e he
  simp at he

theorem ChunksOnly.push {st : Emit ChatEvent} (h : ChunksOnly st) (ctx : StreamContext)
    (c : ChatEventChunk) : ChunksOnly ⟨ctx, st.result ++ [.chunk c]⟩ := by
  intro e he
  rcases List.mem_append.1 he with he | he
  · exact h e he
  · rw [List.mem_singleton.1 he]
    simp

theorem chunksOnly_convertClaudeToChat {eventType : String} (hstop : eventType ≠ "message_stop")
    (data : Json) {st : Emit ChatEvent} (h : ChunksOnly st) :
    ChunksOnly (convertClaudeToChat eventType data st) := by
  unfold convertClaudeToChat
  split
  · rw [onClaudeMessageStart]
    rcases (data.get "message").bind fun msg => msg.getStr "id" with _ | id
    · exact h
    · exact h
  · rw [onClaudeDelta]
    rcases data.get "delta" with _ | delta
    · exact h
    · simp only
      split_ifs
      · rcases delta.getStr "text" with _ | text
        · exact h
        · exact h.push _ _
      · exact h
  · rw [onClaudeMessageDelta]
    rcases (data.get "delta").bind fun delta => delta.getStr "stop_reason" with _ | reason
    · exact h
    · exact h.push _ _
  · exact absurd rfl hstop
  · exact h

theorem chunksOnly_ensureRole {st : Emit ChatEvent} (h : ChunksOnly st) :
    ChunksOnly (ensureRole st) := by
  rw [ensureRole]
  split_ifs
  · exact h
  · exact h.push _ _

theorem chunksOnly_convertResponsesToChat {st : Emit ChatEvent} (h : ChunksOnly st) :
    ChunksOnly (convertResponsesToChat data st) := by
  unfold convertResponsesToChat
  split
  · rw [onChatCreated]
    rcases (data.get "response").bind fun response => response.getStr "id" with _ | id
    · exact h
    · exact h
  · exact (chunksOnly_ensureRole h).push _ _
  · rw [onChatItemAdded]
    rcases data.get "item" with _ | item
    · exact h
    · simp only
      split_ifs
      · rw [startChatToolCall]
        rcases item.getStr "id" with _ | id
        · exact h
        · rcases item.getStr "name" with _ | name
          · exact h
          · exact h.push _ _
      · exact h
  · exact h.push _ _
  · exact h.push _ _
  · exact h

def Unended (st : Emit ResponsesEvent) : Prop := ∀ e ∈ st.result, e.endsResponse = false

theorem Unended.push (h : Unended st) {ctx : StreamContext} {e : ResponsesEvent}
    (he : e.endsResponse = false) : Unended ⟨ctx, st.result ++ [e]⟩ := by
  intro e' he'
  rcases List.mem_append.1 he' with he' | he'
  · exact h e' he'
  · rwa [List.mem_singleton.1 he']

theorem unended_startTextItem (idx : ℤ) (h : Unended st) : Unended (startTextItem idx st) :=
  (h.push rfl).push rfl

theorem unended_onTextDelta (idx : ℤ) (delta : Json) (h : Unended st) :
    Unended (onTextDelta idx delta st) := by
  have hensure : Unended (if st.ctx.contentBlockStarted then st else startTextItem idx st) := by
    split_ifs
    · exact h
    · exact unended_startTextItem idx h
  rw [onTextDelta]
  rcases delta.getStr "text" with _ | text
  · exact hensure
  · exact hensure.push rfl

theorem unended_onInputJsonDelta (idx : ℤ) (delta : Json) (h : Unended st) :
    Unended (onInputJsonDelta idx delta st) := by
  have hensure : Unended (ensureToolItem idx st) := by
    rw [ensureToolItem]
    by_cases hstarted : st.ctx.toolBlockStarted = true
    · rw [if_pos hstarted]
      exact h
    · rw [if_neg hstarted]
      exact h.push rfl
  rw [onInputJsonDelta]
  rcases delta.getStr "partial_json" with _ | partialJson
  · exact hensure
  · exact hensure.push rfl

theorem unended_onBlockDelta (h : Unended st) : Unended (onBlockDelta env data st) := by
  have hensure : Unended (ensureMessageId env st) := by
    rw [ensureMessageId]
    split_ifs
    · exact h.push rfl
    · exact h
  rw [onBlockDelta]
  rcases data.get "delta" with _ | delta
  · exact h
  · simp only
    split
    · exact unended_onTextDelta _ delta hensure
    · exact unended_onInputJsonDelta _ delta hensure
    · exact hensure

theorem unended_onBlockStop (h : Unended st) : Unended (onBlockStop data st) := by
  rw [onBlockStop]
  split_ifs
  · exact (h.push rfl).push rfl
  · exact ((h.push rfl).push rfl).push rfl
  · exact h

theorem unended_convertClaudeToResponses {eventType : String} (hstop : eventType ≠ "message_stop")
    (data : Json) (h : Unended st) : Unended (convertClaudeToResponses env eventType data st) := by
  unfold convertClaudeToResponses
  split
  · rw [onMessageStart]
    rcases data.get "message" with _ | msg
    · exact h.push rfl
    · exact h.push rfl
  · rw [onBlockStart]
    rcases data.get "content_block" with _ | block
    · exact h
    · simp only
      split
      · exact unended_startTextItem _ h
      · exact h.push rfl
      · exact h
  · exact unended_onBlockDelta env data h
  · exact unended_onBlockStop data h
  · rw [onMessageDelta]
    rcases data.get "usage" with _ | usage
    · exact h
    · exact h
  · exact absurd rfl hstop
  · exact h

/-! ### The exits of the six routes -/

section Exits

variable {env : Env} {name : TransformerName} {targetModel : String} {probe : Bool}
  {bodyEnd : BodyEnd} {chunks : List Bytes}

theorem Truncated.complete_ok (h : Truncated env name targetModel probe bodyEnd chunks)
    (ctx : StreamContext) :
    (feed (name.route env).transform ctx (sseFinder.drain chunks.flatten).1).error = none :=
  feed_error_eq_none (fun event hmem => name.transform_of_accepts (h.accepted event hmem)) ctx

theorem Truncated.blocks_ok (h : Truncated env name targetModel probe bodyEnd chunks)
    (htail : ¬ (bodyEnd = .eof ∧ (sseFinder.drain chunks.flatten).2 ≠ [] ∧
      name.accepts env (sseFinder.drain chunks.flatten).2 = false)) (ctx : StreamContext) :
    (feed (name.route env).transform ctx (upstreamBlocks bodyEnd chunks.flatten)).error = none := by
  refine feed_error_eq_none (fun event hmem => name.transform_of_accepts ?_) ctx
  rw [upstreamBlocks, List.mem_append] at hmem
  rcases hmem with hmem | hmem
  · exact h.accepted event hmem
  · split_ifs at hmem with hrest
    · rw [List.mem_singleton.1 hmem]
      rcases hacc : name.accepts env (sseFinder.drain chunks.flatten).2 with _ | _
      · exact absurd ⟨hrest.1, hrest.2, hacc⟩ htail
      · rfl
    · simp at hmem

theorem feed_upstreamBlocks_of_refusedTail {ο : Type} {route : StreamRoute ο}
    {ctx : StreamContext} {bytes : Bytes}
    (hok : (feed route.transform ctx (sseFinder.drain bytes).1).error = none)
    (hfail : ∃ e, route.transform (sseFinder.drain bytes).2
      (feed route.transform ctx (sseFinder.drain bytes).1).state = .error e)
    (htail : (sseFinder.drain bytes).2 ≠ []) :
    (feed route.transform ctx (upstreamBlocks .eof bytes)).out
      = (feed route.transform ctx (sseFinder.drain bytes).1).out := by
  obtain ⟨e, hi⟩ := hfail
  rw [upstreamBlocks, if_pos ⟨rfl, htail⟩, feed_append hok, feed_cons_error hi, List.append_nil]

theorem endsTerminal_of_stop {t fin : List DownstreamEvent} (pre : List DownstreamEvent)
    (h : fin = pre ++ [.claude .messageStop]) : EndsTerminal .messages (t ++ fin) :=
  ⟨t ++ pre, by rw [h, List.append_assoc]⟩

theorem finalize_ccOpenai (env : Env) {ctx : StreamContext} (hsent : ctx.messageStartSent = true) :
    ∃ pre, ((TransformerName.ccOpenai.route env).finalize ctx).1
        = pre ++ [.claude .messageStop] ∧
      ((TransformerName.ccOpenai.route env).finalize ctx).2.messageStartSent = true := by
  obtain ⟨pre, hpre, -, hsent'⟩ := finalizeOpenaiStreamToClaude_of_started hsent
  refine ⟨pre.flatMap fun e => [.claude e], ?_, hsent'⟩
  show (finalizeOpenaiStreamToClaude ctx).1.flatMap (fun e => [DownstreamEvent.claude e]) = _
  rw [hpre, List.flatMap_append]
  rfl

theorem started_ccOpenai {events : List Bytes}
    (hok : (feed (TransformerName.ccOpenai.route env).transform
      (.forModel targetModel) events).error = none)
    (hout : (feed (TransformerName.ccOpenai.route env).transform
      (.forModel targetModel) events).out ≠ []) :
    (feed (TransformerName.ccOpenai.route env).transform
      (.forModel targetModel) events).state.messageStartSent = true := by
  have hmap : feed (TransformerName.ccOpenai.route env).transform (.forModel targetModel) events
      = ⟨(feed (openaiStreamToClaude env) (.forModel targetModel) events).out.flatMap
          fun e => [.claude e],
        (feed (openaiStreamToClaude env) (.forModel targetModel) events).state,
        (feed (openaiStreamToClaude env) (.forModel targetModel) events).error⟩ :=
    feed_map _ events _
  rw [hmap] at hok hout ⊢
  by_contra hnot
  refine hout ?_
  simp only
  rw [((messageTracked_run env targetModel hok).idle (by simpa using hnot)).1]
  rfl

theorem showsTruncation_ccOpenai
    (h : Truncated env .ccOpenai targetModel probe bodyEnd chunks) :
    ShowsTruncation .messages (deliver (handleStream (TransformerName.ccOpenai.route env) probe
      bodyEnd chunks (.forModel targetModel))) := by
  refine Or.inr ?_
  by_cases htail : bodyEnd = .eof ∧ (sseFinder.drain chunks.flatten).2 ≠ [] ∧
      TransformerName.ccOpenai.accepts env (sseFinder.drain chunks.flatten).2 = false
  · -- after a refused tail the finaliser stops the message twice
    obtain ⟨rfl, hrest, hacc⟩ := htail
    have hok := h.complete_ok (.forModel targetModel)
    have hfail := TransformerName.transform_of_not_accepts hacc
      (feed (TransformerName.ccOpenai.route env).transform (.forModel targetModel)
        (sseFinder.drain chunks.flatten).1).state
    have hout := h.produced
    rw [feed_upstreamBlocks_of_refusedTail hok hfail hrest] at hout
    obtain ⟨pre, hpre, hsent⟩ := finalize_ccOpenai env (started_ccOpenai hok hout)
    obtain ⟨pre', hpre', -⟩ := finalize_ccOpenai env hsent
    rw [deliver_handleStream_of_refusedTail _ h.probed h.limit hok hrest hfail, ← List.append_assoc,
      if_neg (by rw [hpre]; simp)]
    exact endsTerminal_of_stop _ hpre'
  · have hok := h.blocks_ok htail (.forModel targetModel)
    obtain ⟨pre, hpre, -⟩ := finalize_ccOpenai env (started_ccOpenai hok h.produced)
    rw [deliver_handleStream_of_converted _ h.probed h.limit hok]
    exact endsTerminal_of_stop _ hpre

theorem showsTruncation_ccOpenai2
    (h : Truncated env .ccOpenai2 targetModel probe bodyEnd chunks) :
    ShowsTruncation .messages (deliver (handleStream (TransformerName.ccOpenai2.route env) probe
      bodyEnd chunks (.forModel targetModel))) := by
  have hok := h.blocks_ok (by simp [TransformerName.accepts]) (.forModel targetModel)
  have hout := h.produced
  have hmap : feed (TransformerName.ccOpenai2.route env).transform (.forModel targetModel)
        (upstreamBlocks bodyEnd chunks.flatten)
      = ⟨(feed (openaiResponsesStreamToClaude env) (.forModel targetModel)
          (upstreamBlocks bodyEnd chunks.flatten)).out.flatMap fun e => [.claude e],
        (feed (openaiResponsesStreamToClaude env) (.forModel targetModel)
          (upstreamBlocks bodyEnd chunks.flatten)).state,
        (feed (openaiResponsesStreamToClaude env) (.forModel targetModel)
          (upstreamBlocks bodyEnd chunks.flatten)).error⟩ := feed_map _ _ _
  rw [hmap] at hout
  obtain ⟨htracks, hfinish⟩ := tracks_feed_of_unfinished env targetModel h.unfinished
  have hstart := htracks.started.2 fun hnil => hout (by simp only; rw [hnil]; rfl)
  obtain ⟨pre, hpre⟩ := finalizeOpenaiResponsesStreamToClaude_of_unfinished hstart hfinish
  refine Or.inr ?_
  rw [deliver_handleStream_of_converted _ h.probed h.limit hok, hmap]
  refine endsTerminal_of_stop (pre.flatMap fun e => [.claude e]) ?_
  show (finalizeOpenaiResponsesStreamToClaude (feed (openaiResponsesStreamToClaude env)
    (.forModel targetModel) (upstreamBlocks bodyEnd chunks.flatten)).state).1.flatMap
      (fun e => [DownstreamEvent.claude e]) = _
  rw [hpre, List.flatMap_append]
  rfl

theorem deliver_of_errorExit (h : Truncated env name targetModel probe bodyEnd chunks)
    (hplain : ∀ ctx, (name.route env).finalize ctx = ([], ctx))
    (hexit : ErrorExit env name bodyEnd chunks.flatten) :
    (deliver (handleStream (name.route env) probe bodyEnd chunks
      (.forModel targetModel))).error.isSome = true := by
  rcases hexit with rfl | ⟨rfl, hrest, hacc⟩
  · have hok := h.blocks_ok (by simp) (.forModel targetModel)
    rw [deliver_handleStream_of_converted _ h.probed h.limit hok, hplain]
    rfl
  · have hfail := TransformerName.transform_of_not_accepts hacc
      (feed (name.route env).transform (.forModel targetModel)
        (sseFinder.drain chunks.flatten).1).state
    rw [deliver_handleStream_of_refusedTail _ h.probed h.limit (h.complete_ok _) hrest hfail,
      hplain]
    rfl

theorem deliver_of_not_errorExit (h : Truncated env name targetModel probe bodyEnd chunks)
    (hplain : ∀ ctx, (name.route env).finalize ctx = ([], ctx))
    (hexit : ¬ ErrorExit env name bodyEnd chunks.flatten) :
    (feed (name.route env).transform (.forModel targetModel)
        (upstreamBlocks bodyEnd chunks.flatten)).error = none ∧
    deliver (handleStream (name.route env) probe bodyEnd chunks (.forModel targetModel))
      = ⟨(feed (name.route env).transform (.forModel targetModel)
          (upstreamBlocks bodyEnd chunks.flatten)).out, none⟩ := by
  have hok := h.blocks_ok (fun htail => hexit (Or.inr htail)) (.forModel targetModel)
  refine ⟨hok, ?_⟩
  rw [deliver_handleStream_of_converted _ h.probed h.limit hok, hplain, List.append_nil,
    if_neg fun hread => hexit (Or.inl hread.1)]

end Exits

/-! ### What a clean end leaves -/

theorem not_endsTerminal_chat {t : List ChatEvent} (h : ∀ e ∈ t, e ≠ .doneMarker) :
    ¬ EndsTerminal .chatCompletions (t.flatMap fun e => [.chat e]) := by
  rintro ⟨pre, chunk, -, heq⟩
  have hmem : DownstreamEvent.chat .doneMarker ∈ t.flatMap fun e => [DownstreamEvent.chat e] := by
    rw [heq]
    simp
  obtain ⟨e, he, hchat⟩ := List.mem_flatMap.1 hmem
  rw [List.mem_singleton, DownstreamEvent.chat.injEq] at hchat
  exact h e he hchat.symm

theorem endsTerminal_responses_iff {t : List ResponsesEvent} :
    EndsTerminal .responses (t.flatMap fun e => [.responses e]) ↔ EndsCompleted t := by
  rw [← List.map_eq_flatMap]
  constructor
  · rintro ⟨pre, id, usage, heq | heq⟩
    · obtain ⟨pre', last, rfl, -, hlast⟩ := List.map_eq_append_iff.1 heq
      obtain ⟨e, rfl, he⟩ := List.map_eq_singleton_iff.1 hlast
      exact ⟨pre', id, usage, Or.inl (by rw [DownstreamEvent.responses.inj he])⟩
    · obtain ⟨pre', last, rfl, -, hlast⟩ := List.map_eq_append_iff.1 heq
      obtain ⟨e, rest, rfl, he, hrest⟩ := List.map_eq_cons_iff.1 hlast
      obtain ⟨e', rfl, he'⟩ := List.map_eq_singleton_iff.1 hrest
      exact ⟨pre', id, usage, Or.inr (by
        rw [DownstreamEvent.responses.inj he, DownstreamEvent.responses.inj he'])⟩
  · rintro ⟨pre, id, usage, rfl | rfl⟩
    · exact ⟨pre.map .responses, id, usage, Or.inl (by simp)⟩
    · exact ⟨pre.map .responses, id, usage, Or.inr (by simp)⟩

theorem claudeStreamToOpenai_chunks
    (h : ∀ event ∈ events, TransformerName.cxChatClaude.isTerminal env event = false) :
    ∀ e ∈ (feed (claudeStreamToOpenai env) ctx events).out, e ≠ .doneMarker := by
  refine forall_mem_feed_out (fun event ctx o ctx' hterminal hstep => ?_) h ctx
  rw [claudeStreamToOpenai] at hstep
  rw [TransformerName.isTerminal] at hterminal
  rcases hread : readClaudeBlock env event with _ | ⟨eventType, data⟩ | error
  · rw [hread] at hstep
    obtain ⟨rfl, rfl⟩ := Prod.mk.inj (Except.ok.inj hstep)
    simp
  · rw [hread] at hstep hterminal
    obtain ⟨rfl, rfl⟩ := Prod.mk.inj (Except.ok.inj hstep)
    exact chunksOnly_convertClaudeToChat (by simpa [ClaudeInput.isMessageStop] using hterminal) data
      (ChunksOnly.start ctx)
  · rw [hread] at hstep
    exact absurd hstep (by simp)

theorem openaiResponsesStreamToChat_chunks
    (h : ∀ event ∈ events, TransformerName.cxChatOpenai2.isTerminal env event = false) :
    ∀ e ∈ (feed (openaiResponsesStreamToChat env) ctx events).out, e ≠ .doneMarker := by
  refine forall_mem_feed_out (fun event ctx o ctx' hterminal hstep => ?_) h ctx
  rw [openaiResponsesStreamToChat] at hstep
  rw [TransformerName.isTerminal] at hterminal
  rcases hread : readDataBlock env event with _ | _ | data | error
  · rw [hread] at hstep
    obtain ⟨rfl, rfl⟩ := Prod.mk.inj (Except.ok.inj hstep)
    simp
  · rw [hread] at hterminal
    exact absurd hterminal (by simp)
  · rw [hread] at hstep
    obtain ⟨rfl, rfl⟩ := Prod.mk.inj (Except.ok.inj hstep)
    exact chunksOnly_convertResponsesToChat data (ChunksOnly.start ctx)
  · rw [hread] at hstep
    exact absurd hstep (by simp)

theorem claudeStreamToOpenaiResponses_unended
    (h : ∀ event ∈ events, TransformerName.cxRespClaude.isTerminal env event = false) :
    ∀ e ∈ (feed (claudeStreamToOpenaiResponses env) ctx events).out, e.endsResponse = false := by
  refine forall_mem_feed_out (fun event ctx o ctx' hterminal hstep => ?_) h ctx
  rw [claudeStreamToOpenaiResponses] at hstep
  rw [TransformerName.isTerminal] at hterminal
  rcases hread : readClaudeChecked env event with _ | ⟨eventType, data⟩ | error
  · rw [hread] at hstep
    obtain ⟨rfl, rfl⟩ := Prod.mk.inj (Except.ok.inj hstep)
    simp
  · rw [hread] at hstep hterminal
    obtain ⟨rfl, rfl⟩ := Prod.mk.inj (Except.ok.inj hstep)
    have hnew : Unended (Emit.start ctx) := by
      intro e he
      simp at he
    exact unended_convertClaudeToResponses env
      (by simpa [ClaudeInput.isMessageStop] using hterminal) data hnew
  · rw [hread] at hstep
    exact absurd hstep (by simp)

/-- What a client needs to see the truncation: a route with a finaliser, an exit that reports an
error, or a chat upstream whose finish came last. -/
def TruncationMarked (env : Env) (name : TransformerName) (bodyEnd : BodyEnd) (bytes : Bytes) :
    Prop :=
  name = .ccOpenai ∨ name = .ccOpenai2 ∨ ErrorExit env name bodyEnd bytes ∨
    (name = .cxRespOpenai ∧
      FinishLast ((upstreamBlocks bodyEnd bytes).flatMap (blockChoices env)))

/-- **Truncated streams**: the client gets a terminal marker or an error exactly then. -/
theorem showsTruncation_iff (env : Env) (name : TransformerName) (targetModel : String)
    (probe : Bool) (bodyEnd : BodyEnd) (chunks : List Bytes)
    (h : Truncated env name targetModel probe bodyEnd chunks) :
    ShowsTruncation name.entry (deliver (handleStream (name.route env) probe bodyEnd chunks
        (.forModel targetModel))) ↔ TruncationMarked env name bodyEnd chunks.flatten := by
  -- where there is no finaliser, only the last output of a clean end is in question
  have hplain : (∀ ctx, (name.route env).finalize ctx = ([], ctx)) →
      (ShowsTruncation name.entry (deliver (handleStream (name.route env) probe bodyEnd chunks
        (.forModel targetModel))) ↔ ErrorExit env name bodyEnd chunks.flatten ∨
          ((feed (name.route env).transform (.forModel targetModel)
            (upstreamBlocks bodyEnd chunks.flatten)).error = none ∧
          EndsTerminal name.entry (feed (name.route env).transform (.forModel targetModel)
            (upstreamBlocks bodyEnd chunks.flatten)).out)) := by
    intro hplain
    by_cases hexit : ErrorExit env name bodyEnd chunks.flatten
    · exact iff_of_true (Or.inl (deliver_of_errorExit h hplain hexit)) (Or.inl hexit)
    · obtain ⟨hok, hdeliver⟩ := deliver_of_not_errorExit h hplain hexit
      rw [hdeliver, ShowsTruncation]
      simp [hexit, hok]
  rw [TruncationMarked]
  rcases name
  case ccOpenai => exact iff_of_true (showsTruncation_ccOpenai h) (Or.inl rfl)
  case ccOpenai2 => exact iff_of_true (showsTruncation_ccOpenai2 h) (Or.inr (Or.inl rfl))
  case cxChatClaude =>
    have hmap : (feed (TransformerName.cxChatClaude.route env).transform (.forModel targetModel)
        (upstreamBlocks bodyEnd chunks.flatten)).out = _ := congrArg Outcome.out (feed_map _ _ _)
    have hnot := not_endsTerminal_chat
      (claudeStreamToOpenai_chunks env (.forModel targetModel) h.unfinished)
    rw [hplain fun _ => rfl, hmap]
    simp only [reduceCtorEq, false_or, false_and, or_false]
    exact or_iff_left fun hends => hnot hends.2
  case cxChatOpenai2 =>
    have hmap : (feed (TransformerName.cxChatOpenai2.route env).transform (.forModel targetModel)
        (upstreamBlocks bodyEnd chunks.flatten)).out = _ := congrArg Outcome.out (feed_map _ _ _)
    have hnot := not_endsTerminal_chat
      (openaiResponsesStreamToChat_chunks env (.forModel targetModel) h.unfinished)
    rw [hplain fun _ => rfl, hmap]
    simp only [reduceCtorEq, false_or, false_and, or_false]
    exact or_iff_left fun hends => hnot hends.2
  case cxRespClaude =>
    have hmap : (feed (TransformerName.cxRespClaude.route env).transform (.forModel targetModel)
        (upstreamBlocks bodyEnd chunks.flatten)).out = _ := congrArg Outcome.out (feed_map _ _ _)
    have hnot := not_endsCompleted_of_forall
      (claudeStreamToOpenaiResponses_unended env (.forModel targetModel) h.unfinished)
    rw [hplain fun _ => rfl, hmap]
    simp only [reduceCtorEq, false_or, false_and, or_false]
    exact or_iff_left fun hends => hnot (endsTerminal_responses_iff.1 hends.2)
  case cxRespOpenai =>
    have hmap : feed (TransformerName.cxRespOpenai.route env).transform (.forModel targetModel)
          (upstreamBlocks bodyEnd chunks.flatten)
        = ⟨(feed (openaiChatStreamToResponses env) (.forModel targetModel)
            (upstreamBlocks bodyEnd chunks.flatten)).out.flatMap fun e => [.responses e],
          (feed (openaiChatStreamToResponses env) (.forModel targetModel)
            (upstreamBlocks bodyEnd chunks.flatten)).state,
          (feed (openaiChatStreamToResponses env) (.forModel targetModel)
            (upstreamBlocks bodyEnd chunks.flatten)).error⟩ := feed_map _ _ _
    rw [hplain fun _ => rfl]
    simp only [reduceCtorEq, false_or, true_and]
    by_cases hexit : ErrorExit env .cxRespOpenai bodyEnd chunks.flatten
    · exact iff_of_true (Or.inl hexit) (Or.inl hexit)
    · obtain ⟨hok, -⟩ := deliver_of_not_errorExit h (fun _ => rfl) hexit
      rw [hmap] at hok ⊢
      have hends := endsCompleted_feed_iff env targetModel h.unfinished hok
      rw [or_iff_right hexit, or_iff_right hexit, and_iff_right hok, ← hends]
      exact endsTerminal_responses_iff

/-! ### A concrete stream -/

def textDeltaEvent : Json :=
  .obj [("delta", .obj [("type", .str "text_delta"), ("text", .str "a")])]

def textDeltaBlock : Bytes := eventBlock "content_block_delta" textDeltaEvent.compact

theorem truncated_textDelta (bodyEnd : BodyEnd) :
    Truncated (Env.ofValues [textDeltaEvent]) .cxChatClaude "" false bodyEnd [textDeltaBlock] := by
  have h : ∀ bodyEnd ∈ [BodyEnd.eof, BodyEnd.readError],
      WithinLimit [] [textDeltaBlock] ∧
      (∀ event ∈ (sseFinder.drain [textDeltaBlock].flatten).1,
        TransformerName.cxChatClaude.accepts (Env.ofValues [textDeltaEvent]) event = true) ∧
      (feed (TransformerName.cxChatClaude.route (Env.ofValues [textDeltaEvent])).transform
        (.forModel "") (upstreamBlocks bodyEnd [textDeltaBlock].flatten)).out.length = 1 ∧
      ∀ event ∈ upstreamBlocks bodyEnd [textDeltaBlock].flatten,
        TransformerName.cxChatClaude.isTerminal (Env.ofValues [textDeltaEvent]) event = false := by
    decide +kernel
  obtain ⟨hlimit, haccepted, hout, hunfinished⟩ := h bodyEnd (by rcases bodyEnd <;> simp)
  refine ⟨rfl, hlimit, haccepted, fun hnil => ?_, hunfinished⟩
  rw [hnil] at hout
  exact absurd hout (by simp)

/-- A read error after the delta ends the body with an error. -/
theorem showsTruncation_deltaThenReadError :
    ShowsTruncation .chatCompletions (deliver (handleStream
      (TransformerName.cxChatClaude.route (Env.ofValues [textDeltaEvent])) false .readError
      [textDeltaBlock] (.forModel ""))) :=
  (showsTruncation_iff _ .cxChatClaude "" false .readError _ (truncated_textDelta _)).2
    (Or.inr (Or.inr (Or.inl (Or.inl rfl))))

/-- A clean end after the delta: one content chunk, and neither an error nor the done marker. -/
theorem not_showsTruncation_deltaThenEof :
    Truncated (Env.ofValues [textDeltaEvent]) .cxChatClaude "" false .eof [textDeltaBlock] ∧
    ¬ ShowsTruncation .chatCompletions (deliver (handleStream
      (TransformerName.cxChatClaude.route (Env.ofValues [textDeltaEvent])) false .eof
      [textDeltaBlock] (.forModel ""))) := by
  have h : (deliver (handleStream
      (TransformerName.cxChatClaude.route (Env.ofValues [textDeltaEvent])) false .eof
        [textDeltaBlock] (.forModel ""))).error = none ∧
      (deliver (handleStream
      (TransformerName.cxChatClaude.route (Env.ofValues [textDeltaEvent])) false .eof
        [textDeltaBlock] (.forModel ""))).out.length = 1 := by
    decide +kernel
  refine ⟨truncated_textDelta .eof, ?_⟩
  rintro (herror | ⟨pre, chunk, -, hout⟩)
  · rw [h.1] at herror
    exact absurd herror (by simp)
  · have hlength := h.2
    rw [hout, List.length_append] at hlength
    simp at hlength

end AiOpenRouter
