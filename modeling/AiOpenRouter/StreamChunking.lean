/-
The streaming loop and the cutting of the upstream bytes into chunks.

`convertStream` is what the bytes alone determine: the conversions of all event
blocks up to the first refused one, then the finaliser.  The loop holds back
the conversions of a chunk until all of its blocks are converted, so a refused
block takes those of its own chunk with it.

* `delivered_eq_convertStream_iff` — when the client receives `convertStream`;
* `not_delivered_stopThenBad` — two cuttings of one byte stream, two deliveries.
-/
import AiOpenRouter.StreamLoop
import AiOpenRouter.ResponsesToClaudeOrder

open Trace

namespace AiOpenRouter

section Route

variable {ο : Type} (route : StreamRoute ο)

/-- The conversion of a byte stream: its blocks, and the rest as a last one, up to the first
refused one, then the finaliser. -/
def convertStream (bytes : Bytes) (ctx : StreamContext) : List ο :=
  let cut := sseFinder.drain bytes
  let run := feed route.transform ctx (cut.1 ++ if cut.2 = [] then [] else [cut.2])
  run.out ++ (route.finalize run.state).1

/-- At the end of the body the rest of the bytes is refused, all blocks before it being
accepted; `ctx'` is the context at that point. -/
def TailRefused (bytes : Bytes) (ctx ctx' : StreamContext) : Prop :=
  let cut := sseFinder.drain bytes
  let run := feed route.transform ctx cut.1
  run.error = none ∧ cut.2 ≠ [] ∧ run.state = ctx' ∧ ∃ e, route.transform cut.2 ctx' = .error e

/-! ### The exit at the end of the body -/

theorem deliver_sendData (out : List ο) : deliver (sendData out) = ⟨out, none⟩ := by
  have h := deliver_sendData_append out []
  rwa [List.append_nil, deliver, List.append_nil] at h

theorem deliver_onEof_of_empty (ctx : StreamContext) :
    deliver (onEof route [] ctx) = ⟨(route.finalize ctx).1, none⟩ := by
  show deliver ([] ++ sendData (route.finalize ctx).1) = _
  rw [List.nil_append, deliver_sendData]

theorem deliver_onEof_of_accepted {pending : Bytes} {ctx ctx' : StreamContext} {converted : List ο}
    (hpending : pending ≠ []) (hok : route.transform pending ctx = .ok (converted, ctx')) :
    deliver (onEof route pending ctx) = ⟨converted ++ (route.finalize ctx').1, none⟩ := by
  rw [onEof, convertTail, if_neg hpending, hok]
  simp only
  rw [deliver_sendData_append, deliver_sendData]

theorem deliver_onEof_of_refused {pending : Bytes} {ctx : StreamContext} {e : String}
    (hpending : pending ≠ []) (hfail : route.transform pending ctx = .error e) :
    deliver (onEof route pending ctx) = ⟨(route.finalize ctx).1 ++
      (if (route.finalize ctx).1.isEmpty then [] else (route.finalize (route.finalize ctx).2).1),
      if (route.finalize ctx).1.isEmpty then some "stream transform failed" else none⟩ := by
  rw [onEof, convertTail, if_neg hpending, hfail]
  simp only [sendFinalizerOr]
  rcases (route.finalize ctx).1 with _ | ⟨o, out⟩
  · rfl
  · show (⟨(o :: out) ++ (deliver (sendData _)).out, (deliver (sendData _)).error⟩ :
      Delivered ο) = _
    rw [deliver_sendData]
    rfl

/-! ### Any route -/

theorem drainChunks_nil (chunks : List Bytes) :
    sseFinder.drainChunks [] chunks = sseFinder.drain chunks.flatten := by
  have hnone : sseFinder.pop [] = none := rfl
  rw [Framing.Finder.drainChunks_eq hnone, List.nil_append]

theorem lostConversions_of_accepted : ∀ {chunks : List Bytes} {pending : Bytes}
    {ctx : StreamContext},
    (feed route.transform ctx (sseFinder.drainChunks pending chunks).1).error = none →
      lostConversions route chunks pending ctx = [] := by
  intro chunks
  induction chunks with
  | nil =>
    intro pending ctx _
    rfl
  | cons bytes chunks ih =>
    intro pending ctx hok
    rw [Framing.Finder.drainChunks] at hok
    rw [lostConversions]
    generalize sseFinder.drain (pending ++ bytes) = drained at hok ⊢
    rcases herr : (feed route.transform ctx drained.1).error with _ | e
    · rw [feed_append herr] at hok
      exact ih hok
    · rw [feed_append_of_error herr, herr] at hok
      exact absurd hok (by simp)

def FinalizedOnce (bytes : Bytes) (ctx : StreamContext) : Prop :=
  ∀ ctx', TailRefused route bytes ctx ctx' →
    (route.finalize ctx').1 = [] ∨ (route.finalize (route.finalize ctx').2).1 = []

theorem deliver_streamLoop_eq_iff {chunks : List Bytes} (hlimit : WithinLimit [] chunks)
    (ctx : StreamContext) :
    (deliver (streamLoop route .eof chunks [] ctx)).out = convertStream route chunks.flatten ctx ↔
      lostConversions route chunks [] ctx = [] ∧ FinalizedOnce route chunks.flatten ctx := by
  rw [convertStream]
  -- did the conversion accept every complete event?
  rcases herr : (feed route.transform ctx (sseFinder.drainChunks [] chunks).1).error with _ | e
  · rw [deliver_streamLoop route hlimit herr, lostConversions_of_accepted route herr]
    rw [drainChunks_nil] at herr ⊢
    -- and is there a tail behind the last delimiter?
    rcases hcut : (sseFinder.drain chunks.flatten).2 with _ | ⟨byte, tail⟩
    · have honce : FinalizedOnce route chunks.flatten ctx := by
        rintro ctx' ⟨-, htail, -⟩
        exact absurd hcut htail
      refine iff_of_true ?_ ⟨rfl, honce⟩
      rw [if_pos rfl, List.append_nil]
      simp only [onBodyEnd, deliver_onEof_of_empty]
    · have htail : (byte :: tail) ≠ [] := by simp
      rw [if_neg htail, feed_append herr]
      simp only [onBodyEnd, true_and]
      rcases hi : route.transform (byte :: tail)
        (feed route.transform ctx (sseFinder.drain chunks.flatten).1).state with e | ⟨o, ctx'⟩
      · -- a refused tail: the finaliser runs a second time
        rw [feed_cons_error hi, deliver_onEof_of_refused route htail hi, List.append_nil,
          List.append_right_inj]
        have honce : FinalizedOnce route chunks.flatten ctx ↔
            (route.finalize (feed route.transform ctx (sseFinder.drain chunks.flatten).1).state).1
              = [] ∨ (route.finalize (route.finalize (feed route.transform ctx
                (sseFinder.drain chunks.flatten).1).state).2).1 = [] := by
          constructor
          · intro h
            exact h _ ⟨herr, hcut ▸ htail, rfl, e, hcut ▸ hi⟩
          · rintro h ctx' ⟨-, -, rfl, -⟩
            exact h
        rw [honce]
        rcases (route.finalize (feed route.transform ctx
          (sseFinder.drain chunks.flatten).1).state).1 with _ | ⟨o, out⟩
        · simp
        · simp
      · have honce : FinalizedOnce route chunks.flatten ctx := by
          rintro ctx' ⟨-, -, rfl, e, hfail⟩
          rw [hcut, hi] at hfail
          exact absurd hfail (by simp)
        refine iff_of_true ?_ honce
        rw [feed_cons_ok hi, feed_nil, List.append_nil,
          deliver_onEof_of_accepted route htail hi, List.append_assoc]
  · have honce : FinalizedOnce route chunks.flatten ctx := by
      rintro ctx' ⟨hok, -⟩
      rw [← drainChunks_nil, herr] at hok
      exact absurd hok (by simp)
    -- refused before the end: what the failing chunk gave before is not sent
    obtain ⟨sent, hsent, hdeliver⟩ := deliver_streamLoop_of_refused route .eof hlimit herr
    rw [hdeliver]
    rw [drainChunks_nil] at herr hsent ⊢
    rw [feed_append_of_error herr, hsent, List.append_left_inj]
    constructor
    · intro h
      exact ⟨List.self_eq_append_right.1 h, honce⟩
    · rintro ⟨h, -⟩
      rw [h, List.append_nil]

end Route

/-! ### The six routes -/

/-- Nothing of the conversion is lost or doubled: the blocks that the refused block's chunk
completed before it convert to nothing, and on `cc_openai` no message has started when the
tail is refused.  A stream that fails the probe delivers nothing. -/
def LosesNothing (env : Env) (name : TransformerName) (probe : Bool) (chunks : List Bytes)
    (ctx : StreamContext) : Prop :=
  (passesProbe probe chunks = true ∧ lostConversions (name.bytesRoute env) chunks [] ctx = [] ∧
    (name = .ccOpenai → ∀ ctx', TailRefused (name.bytesRoute env) chunks.flatten ctx ctx' →
      ctx'.messageStartSent = false)) ∨
  (passesProbe probe chunks = false ∧
    convertStream (name.bytesRoute env) chunks.flatten ctx = [])

theorem finalizedOnce_ccOpenai (ctx : StreamContext) :
    ((finalizeOpenaiStreamToClaude ctx).1 = [] ∨
      (finalizeOpenaiStreamToClaude (finalizeOpenaiStreamToClaude ctx).2).1 = []) ↔
      ctx.messageStartSent = false := by
  rcases hsent : ctx.messageStartSent with _ | _
  · exact iff_of_true (Or.inr (finalizeOpenaiStreamToClaude_of_not_started hsent).2.2) rfl
  · obtain ⟨pre, hfirst, -, hsent'⟩ := finalizeOpenaiStreamToClaude_of_started hsent
    obtain ⟨pre', hsecond, -⟩ := finalizeOpenaiStreamToClaude_of_started hsent'
    rw [hfirst, hsecond]
    simp

theorem finalizedOnce_bytesRoute (env : Env) (name : TransformerName) (bytes : Bytes)
    (ctx : StreamContext) :
    FinalizedOnce (name.bytesRoute env) bytes ctx ↔
      (name = .ccOpenai → ∀ ctx', TailRefused (name.bytesRoute env) bytes ctx ctx' →
        ctx'.messageStartSent = false) := by
  have hplain : (∀ ctx', ((name.bytesRoute env).finalize ctx').1 = []) → name ≠ .ccOpenai →
      (FinalizedOnce (name.bytesRoute env) bytes ctx ↔
        (name = .ccOpenai → ∀ ctx', TailRefused (name.bytesRoute env) bytes ctx ctx' →
          ctx'.messageStartSent = false)) := by
    intro hnone hname
    exact iff_of_true (fun ctx' _ => Or.inl (hnone ctx')) (fun heq => absurd heq hname)
  rcases name
  case ccOpenai =>
    have hnil : ∀ ctx', ((TransformerName.ccOpenai.bytesRoute env).finalize ctx').1 = [] ↔
        (finalizeOpenaiStreamToClaude ctx').1 = [] := by
      intro ctx'
      refine (flatMap_eq_nil_iff (DownstreamEvent.render_ne_nil env)).trans ?_
      exact flatMap_eq_nil_iff (f := fun e => [DownstreamEvent.claude e]) (fun _ => by simp)
    constructor
    · intro h _ ctx' htail
      have honce := h ctx' htail
      rw [hnil, hnil] at honce
      exact (finalizedOnce_ccOpenai ctx').1 honce
    · intro h ctx' htail
      rw [hnil, hnil]
      exact (finalizedOnce_ccOpenai ctx').2 (h rfl ctx' htail)
  case ccOpenai2 =>
    -- the Responses → Claude converter refuses nothing
    refine iff_of_true ?_ (fun heq => absurd heq (by decide))
    rintro ctx' ⟨-, -, -, e, hfail⟩
    obtain ⟨r, hr⟩ := openaiResponsesStreamToClaude_ok env (sseFinder.drain bytes).2 ctx'
    have hok : (TransformerName.ccOpenai2.bytesRoute env).transform (sseFinder.drain bytes).2 ctx'
        = (((openaiResponsesStreamToClaude env (sseFinder.drain bytes).2 ctx').map fun r =>
            (r.1.flatMap fun e => [DownstreamEvent.claude e], r.2)).map fun r =>
              (r.1.flatMap (DownstreamEvent.render env), r.2)) := rfl
    rw [hok, hr] at hfail
    exact absurd hfail (by simp [Except.map])
  all_goals exact hplain (fun _ => rfl) (by decide)

/-- **The delivered bytes are the conversion of the stream**, whatever the chunks, exactly
when nothing is lost. -/
theorem delivered_eq_convertStream_iff (env : Env) (name : TransformerName) (targetModel : String)
    (probe : Bool) (chunks : List Bytes) (hlimit : WithinLimit [] chunks) :
    (deliver (handleStream (name.bytesRoute env) probe .eof chunks
        (.forModel targetModel))).out
      = convertStream (name.bytesRoute env) chunks.flatten (.forModel targetModel) ↔
      LosesNothing env name probe chunks (.forModel targetModel) := by
  rw [handleStream, LosesNothing]
  rcases hprobe : passesProbe probe chunks with _ | _
  · rw [if_neg (by simp)]
    constructor
    · intro h
      exact Or.inr ⟨rfl, h.symm⟩
    · rintro (⟨h, -⟩ | ⟨-, h⟩)
      · exact absurd h (by simp)
      · exact h.symm
  · rw [if_pos rfl, deliver_streamLoop_eq_iff _ hlimit, finalizedOnce_bytesRoute]
    simp

/-! ### A concrete stream -/

/-- A Claude `message_stop`. -/
def stopEvent : Json := .obj [("type", .str "message_stop")]

/-- A block that converts to the done marker. -/
def stopBlock : Bytes := eventBlock "message_stop" stopEvent.compact

/-- A block that is refused. -/
def badBlock : Bytes := dataBlock "x"

theorem delivered_stopThenBad :
    (deliver (handleStream (TransformerName.cxChatClaude.bytesRoute (Env.ofValues [stopEvent]))
        false .eof [stopBlock, badBlock] (.forModel ""))).out
      = convertStream (TransformerName.cxChatClaude.bytesRoute (Env.ofValues [stopEvent]))
          [stopBlock, badBlock].flatten (.forModel "") := by
  have h : WithinLimit [] [stopBlock, badBlock] ∧
      lostConversions (TransformerName.cxChatClaude.bytesRoute (Env.ofValues [stopEvent]))
        [stopBlock, badBlock] [] (.forModel "") = [] := by
    decide +kernel
  exact (delivered_eq_convertStream_iff _ .cxChatClaude "" false _ h.1).2
    (Or.inl ⟨rfl, h.2, fun hname => absurd hname (by decide)⟩)

/-- The same bytes in one chunk: the done marker is lost. -/
theorem not_delivered_stopThenBad :
    [stopBlock ++ badBlock].flatten = [stopBlock, badBlock].flatten ∧
    WithinLimit [] [stopBlock ++ badBlock] ∧ WithinLimit [] [stopBlock, badBlock] ∧
    (deliver (handleStream (TransformerName.cxChatClaude.bytesRoute (Env.ofValues [stopEvent]))
        false .eof [stopBlock ++ badBlock] (.forModel ""))).out
      ≠ (deliver (handleStream (TransformerName.cxChatClaude.bytesRoute (Env.ofValues [stopEvent]))
        false .eof [stopBlock, badBlock] (.forModel ""))).out ∧
    (deliver (handleStream (TransformerName.cxChatClaude.bytesRoute (Env.ofValues [stopEvent]))
        false .eof [stopBlock ++ badBlock] (.forModel ""))).out
      ≠ convertStream (TransformerName.cxChatClaude.bytesRoute (Env.ofValues [stopEvent]))
          [stopBlock ++ badBlock].flatten (.forModel "") := by
  decide +kernel

end AiOpenRouter
