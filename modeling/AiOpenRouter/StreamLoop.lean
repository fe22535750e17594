/-
The streaming loop of `handle_proxy_request`.

The loop appends each upstream chunk to the pending buffer, pops the complete
event blocks and converts them, and sends what a chunk gave after its last
block.  It leaves by four exits: the end of the body, a read error, a refused
block, and a pending buffer that grew too long.

* `deliver_streamLoop` — what a client receives when no block is refused: the
  conversions of all blocks, then the exit;
* `deliver_streamLoop_of_refused` — what it receives otherwise.

The downstream side stays open; the probe of the first chunk is
`looksLikeSsePrelude`.
-/
import AiOpenRouter.ResponsesToClaude
import AiOpenRouter.ChatToClaude
import AiOpenRouter.ResponsesToChat
import AiOpenRouter.ClaudeToResponses

open Trace

namespace AiOpenRouter

/-! ### Routes -/

/-- What the loop needs of a route: its converter and its finaliser. -/
structure StreamRoute (ο : Type) where
  /-- `transform_sse_event` -/
  transform : Bytes → StreamContext → Except String (List ο × StreamContext)
  /-- `finalize_stream_transform` -/
  finalize : StreamContext → List ο × StreamContext

/-- The same route with another kind of output. -/
def StreamRoute.map {ο β : Type} (route : StreamRoute ο) (f : ο → List β) : StreamRoute β where
  transform event ctx := (route.transform event ctx).map fun r => (r.1.flatMap f, r.2)
  finalize ctx := ((route.finalize ctx).1.flatMap f, (route.finalize ctx).2)

/-! ### Sending -/

/-- One message on the channel to the downstream body. -/
inductive Sent (ο : Type) where
  | data (out : List ο)
  | error (message : String)

/-- What a client receives: the output, and the error that ended the body. -/
structure Delivered (ο : Type) where
  out : List ο
  error : Option String
  deriving DecidableEq

/-- An error ends the body; what is sent after it is not delivered. -/
def deliver {ο : Type} : List (Sent ο) → Delivered ο
  | [] => ⟨[], none⟩
  | .error message :: _ => ⟨[], some message⟩
  | .data out :: rest => ⟨out ++ (deliver rest).out, (deliver rest).error⟩

def sendData {ο : Type} (out : List ο) : List (Sent ο) :=
  if out.isEmpty then [] else [.data out]

theorem deliver_sendData_append {ο : Type} (out : List ο) (rest : List (Sent ο)) :
    deliver (sendData out ++ rest) = ⟨out ++ (deliver rest).out, (deliver rest).error⟩ := by
  rw [sendData]
  rcases out with _ | ⟨o, out⟩
  · rfl
  · rfl

/-! ### The loop -/

/-- How the upstream body ends. -/
inductive BodyEnd where
  | eof
  | readError
  deriving DecidableEq

/-- `MAX_SSE_PENDING_BYTES`. -/
def maxSsePendingBytes : ℕ := 2 * 1024 * 1024

/-- `looks_like_sse_prelude`. -/
def looksLikeSsePrelude (chunk : Bytes) : Bool :=
  if chunk = [] then false
  else
    let probe := Text.fromUtf8Lossy (chunk.take 256)
    let probe := (Text.stripPrefix "\uFEFF" probe).getD probe
    let lowered := (Text.trimStart probe).map Char.toLower
    (Text.stripPrefix "event:" lowered).isSome || (Text.stripPrefix "data:" lowered).isSome ||
      (Text.stripPrefix ":" lowered).isSome

section Loop

variable {ο : Type} (route : StreamRoute ο)

def sendFinalizerOr (message : String) (ctx : StreamContext) : List (Sent ο) × StreamContext :=
  let finalizer := route.finalize ctx
  (if finalizer.1.isEmpty then [.error message] else [.data finalizer.1], finalizer.2)

/-- The inner loop `while let Some(event) = pop_sse_event(&mut sse_pending)`; when a block is
refused, the context it was refused in. -/
def convertPending : ℕ → Bytes → StreamContext → List ο →
    Except StreamContext (List ο × Bytes × StreamContext)
  | 0, pending, ctx, transformed => .ok (transformed, pending, ctx)
  | fuel + 1, pending, ctx, transformed =>
    match popSseEvent pending with
    | none => .ok (transformed, pending, ctx)
    | some (event, rest) =>
      match route.transform event ctx with
      | .ok (converted, ctx) => convertPending fuel rest ctx (transformed ++ converted)
      | .error _ => .error ctx

/-- The rest of the buffer at the end of the body is an event, too. -/
def convertTail (pending : Bytes) (ctx : StreamContext) : List (Sent ο) × StreamContext :=
  if pending = [] then ([], ctx)
  else
    match route.transform pending ctx with
    | .ok (converted, ctx) => (sendData converted, ctx)
    | .error _ => sendFinalizerOr route "stream transform failed" ctx

/-- The branch `Ok(None)`: the tail event, then the finaliser, also after a refused tail. -/
def onEof (pending : Bytes) (ctx : StreamContext) : List (Sent ο) :=
  let tail := convertTail route pending ctx
  tail.1 ++ sendData (route.finalize tail.2).1

def onBodyEnd (bodyEnd : BodyEnd) (pending : Bytes) (ctx : StreamContext) : List (Sent ο) :=
  match bodyEnd with
  | .eof => onEof route pending ctx
  | .readError => (sendFinalizerOr route "stream read failed" ctx).1

def streamLoop (bodyEnd : BodyEnd) : List Bytes → Bytes → StreamContext → List (Sent ο)
  | [], pending, ctx => onBodyEnd route bodyEnd pending ctx
  | bytes :: chunks, pending, ctx =>
    let pending := pending ++ bytes
    if pending.length > maxSsePendingBytes then
      (sendFinalizerOr route "stream transform buffer overflow" ctx).1
    else
      match convertPending route pending.length pending ctx [] with
      | .error ctx => (sendFinalizerOr route "stream transform failed" ctx).1
      | .ok (transformed, pending, ctx) =>
        sendData transformed ++ streamLoop bodyEnd chunks pending ctx

def passesProbe (probe : Bool) (chunks : List Bytes) : Bool :=
  !probe || (chunks.head?.map looksLikeSsePrelude).getD true

/-- The whole task: the probe when it is enabled, then the loop. -/
def handleStream (probe : Bool) (bodyEnd : BodyEnd) (chunks : List Bytes) (ctx : StreamContext) :
    List (Sent ο) :=
  if passesProbe probe chunks then streamLoop route bodyEnd chunks [] ctx
  else [.error "upstream stream probe failed: non-SSE payload"]

/-- The pending buffer stays within its limit. -/
def WithinLimit : Bytes → List Bytes → Prop
  | _, [] => True
  | pending, bytes :: chunks =>
    (pending ++ bytes).length ≤ maxSsePendingBytes ∧
      WithinLimit (sseFinder.drain (pending ++ bytes)).2 chunks

instance decidableWithinLimit : ∀ pending chunks, Decidable (WithinLimit pending chunks)
  | _, [] => .isTrue trivial
  | pending, bytes :: chunks =>
    have := decidableWithinLimit (sseFinder.drain (pending ++ bytes)).2 chunks
    inferInstanceAs (Decidable (_ ∧ _))

/-! ### What is delivered -/

theorem convertPending_eq {fuel : ℕ} : ∀ {pending : Bytes} {ctx : StreamContext}
    {transformed : List ο}, pending.length ≤ fuel →
    convertPending route fuel pending ctx transformed
      = match (feed route.transform ctx (sseFinder.drain pending).1).error with
        | none => .ok (transformed ++ (feed route.transform ctx (sseFinder.drain pending).1).out,
            (sseFinder.drain pending).2,
            (feed route.transform ctx (sseFinder.drain pending).1).state)
        | some _ => .error (feed route.transform ctx (sseFinder.drain pending).1).state := by
  induction fuel with
  | zero =>
    intro pending ctx transformed hfuel
    obtain rfl : pending = [] := List.length_eq_zero_iff.1 (Nat.le_zero.1 hfuel)
    have hdrain : sseFinder.drain [] = ([], []) := rfl
    rw [hdrain, convertPending]
    simp
  | succ fuel ih =>
    intro pending ctx transformed hfuel
    rw [convertPending, ← sseFinder_pop]
    rcases hpop : sseFinder.pop pending with _ | ⟨event, rest⟩
    · rw [Framing.Finder.drain_of_none hpop]
      simp
    · have hlt := Framing.Finder.pop_length_lt hpop
      rw [Framing.Finder.drain_of_some hpop]
      rcases hi : route.transform event ctx with e | ⟨converted, ctx'⟩
      · rw [feed_cons_error hi]
        simp only [hi]
      · rw [feed_cons_ok hi]
        simp only [hi]
        rw [ih (by omega)]
        rcases (feed route.transform ctx' (sseFinder.drain rest).1).error with _ | e
        · simp only [List.append_assoc]
        · rfl

theorem deliver_sendFinalizerOr (message : String) (ctx : StreamContext) :
    deliver (sendFinalizerOr route message ctx).1
      = ⟨(route.finalize ctx).1,
         if (route.finalize ctx).1.isEmpty then some message else none⟩ := by
  rw [sendFinalizerOr]
  rcases (route.finalize ctx).1 with _ | ⟨o, out⟩
  · rfl
  · show (⟨(o :: out) ++ [], none⟩ : Delivered ο) = ⟨o :: out, none⟩
    rw [List.append_nil]

/-- **No block is refused**: the conversions of all blocks, then the exit. -/
theorem deliver_streamLoop {bodyEnd : BodyEnd} : ∀ {chunks : List Bytes} {pending : Bytes}
    {ctx : StreamContext}, WithinLimit pending chunks →
    (feed route.transform ctx (sseFinder.drainChunks pending chunks).1).error = none →
      deliver (streamLoop route bodyEnd chunks pending ctx)
        = ⟨(feed route.transform ctx (sseFinder.drainChunks pending chunks).1).out ++
            (deliver (onBodyEnd route bodyEnd (sseFinder.drainChunks pending chunks).2
              (feed route.transform ctx (sseFinder.drainChunks pending chunks).1).state)).out,
           (deliver (onBodyEnd route bodyEnd (sseFinder.drainChunks pending chunks).2
              (feed route.transform ctx (sseFinder.drainChunks pending chunks).1).state)).error⟩
    := by
  intro chunks
  induction chunks with
  | nil =>
    intro pending ctx _ _
    rfl
  | cons bytes chunks ih =>
    rintro pending ctx ⟨hle, hlimit⟩ hok
    rw [Framing.Finder.drainChunks] at hok ⊢
    generalize hdrain : sseFinder.drain (pending ++ bytes) = drained at hok hlimit ⊢
    have hfirst : (feed route.transform ctx drained.1).error = none := by
      rcases herr : (feed route.transform ctx drained.1).error with _ | e
      · rfl
      · rw [feed_append_of_error herr] at hok
        rw [← herr, hok]
    rw [feed_append hfirst] at hok ⊢
    rw [streamLoop, if_neg (Nat.not_lt.2 hle), convertPending_eq route (Nat.le_refl _), hdrain,
      hfirst, List.nil_append]
    simp only
    rw [deliver_sendData_append, ih hlimit hok, List.append_assoc]

def lostConversions : List Bytes → Bytes → StreamContext → List ο
  | [], _, _ => []
  | bytes :: chunks, pending, ctx =>
    let drained := sseFinder.drain (pending ++ bytes)
    let run := feed route.transform ctx drained.1
    match run.error with
    | some _ => run.out
    | none => lostConversions chunks drained.2 run.state

/-- **A block is refused**: the conversions before it, less those of its own chunk, then the
finaliser. -/
theorem deliver_streamLoop_of_refused (bodyEnd : BodyEnd) {e : String} :
    ∀ {chunks : List Bytes} {pending : Bytes} {ctx : StreamContext}, WithinLimit pending chunks →
    (feed route.transform ctx (sseFinder.drainChunks pending chunks).1).error = some e →
      ∃ sent, (feed route.transform ctx (sseFinder.drainChunks pending chunks).1).out
          = sent ++ lostConversions route chunks pending ctx ∧
        deliver (streamLoop route bodyEnd chunks pending ctx)
          = ⟨sent ++ (route.finalize (feed route.transform ctx
                (sseFinder.drainChunks pending chunks).1).state).1,
             if (route.finalize (feed route.transform ctx
                (sseFinder.drainChunks pending chunks).1).state).1.isEmpty
              then some "stream transform failed" else none⟩ := by
  intro chunks
  induction chunks with
  | nil =>
    intro pending ctx _ hfail
    exact absurd hfail (by simp [Framing.Finder.drainChunks])
  | cons bytes chunks ih =>
    rintro pending ctx ⟨hle, hlimit⟩ hfail
    rw [Framing.Finder.drainChunks] at hfail ⊢
    rw [streamLoop, if_neg (Nat.not_lt.2 hle), convertPending_eq route (Nat.le_refl _),
      lostConversions]
    generalize sseFinder.drain (pending ++ bytes) = drained at hfail hlimit ⊢
    rcases herr : (feed route.transform ctx drained.1).error with _ | e'
    · rw [feed_append herr] at hfail ⊢
      obtain ⟨sent, hsent, hdeliver⟩ := ih hlimit hfail
      refine ⟨(feed route.transform ctx drained.1).out ++ sent, ?_, ?_⟩
      · simp only
        rw [hsent, List.append_assoc]
      · simp only
        rw [deliver_sendData_append, hdeliver, List.nil_append, List.append_assoc]
    · rw [feed_append_of_error herr]
      simp only
      refine ⟨[], (List.nil_append _).symm, ?_⟩
      rw [deliver_sendFinalizerOr, List.nil_append]

end Loop

theorem flatMap_eq_nil_iff {ο β : Type} {f : ο → List β} (hf : ∀ o, f o ≠ []) {out : List ο} :
    out.flatMap f = [] ↔ out = [] := by
  rw [List.flatMap_eq_nil_iff, List.eq_nil_iff_forall_not_mem]
  exact forall₂_congr fun o _ => iff_false_intro (hf o)

/-! ### The converting routes -/

/-- An event sent downstream. -/
inductive DownstreamEvent where
  | claude (e : ClaudeEvent)
  | chat (e : ChatEvent)
  | responses (e : ResponsesEvent)

def DownstreamEvent.render (env : Env) : DownstreamEvent → Bytes
  | claude e => e.render env
  | chat e => e.render env
  | responses e => e.render env

theorem DownstreamEvent.render_ne_nil (env : Env) (e : DownstreamEvent) : e.render env ≠ [] := by
  rcases e with e | e | e
  · exact eventBlock_ne_nil _ _
  · rcases e with c | _
    · exact dataBlock_ne_nil _
    · exact dataBlock_ne_nil _
  · rw [DownstreamEvent.render, ResponsesEvent.render]
    split
    · exact dataBlock_ne_nil _
    · exact dataBlock_ne_nil _

/-- The transformers that convert between protocols, by name. -/
inductive TransformerName where
  | ccOpenai
  | ccOpenai2
  | cxChatClaude
  | cxChatOpenai2
  | cxRespClaude
  | cxRespOpenai
  deriving DecidableEq

/-- `EntryEndpoint`. -/
inductive EntryEndpoint where
  | messages
  | chatCompletions
  | responses

/-- The entry that a transformer serves. -/
def TransformerName.entry : TransformerName → EntryEndpoint
  | ccOpenai | ccOpenai2 => .messages
  | cxChatClaude | cxChatOpenai2 => .chatCompletions
  | cxRespClaude | cxRespOpenai => .responses

/-- The route of the chat → Claude converter. -/
def ccOpenaiRoute (env : Env) : StreamRoute ClaudeEvent where
  transform := openaiStreamToClaude env
  finalize := finalizeOpenaiStreamToClaude

def ccOpenai2Route (env : Env) : StreamRoute ClaudeEvent where
  transform := openaiResponsesStreamToClaude env
  finalize := finalizeOpenaiResponsesStreamToClaude

/-- A route that `finalize_stream_transform` has no finaliser for. -/
def plainRoute {ο : Type}
    (transform : Bytes → StreamContext → Except String (List ο × StreamContext)) :
    StreamRoute ο where
  transform := transform
  finalize ctx := ([], ctx)

def TransformerName.route (env : Env) : TransformerName → StreamRoute DownstreamEvent
  | ccOpenai => (ccOpenaiRoute env).map fun e => [.claude e]
  | ccOpenai2 => (ccOpenai2Route env).map fun e => [.claude e]
  | cxChatClaude => (plainRoute (claudeStreamToOpenai env)).map fun e => [.chat e]
  | cxChatOpenai2 => (plainRoute (openaiResponsesStreamToChat env)).map fun e => [.chat e]
  | cxRespClaude => (plainRoute (claudeStreamToOpenaiResponses env)).map fun e => [.responses e]
  | cxRespOpenai => (plainRoute (openaiChatStreamToResponses env)).map fun e => [.responses e]

/-- The routes with their bytes. -/
def TransformerName.bytesRoute (env : Env) (name : TransformerName) : StreamRoute UInt8 :=
  (name.route env).map (DownstreamEvent.render env)

end AiOpenRouter
