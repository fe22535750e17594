/-
The client's side of a stream: the events that the gateway sends, read back.

A client cuts what it receives into blocks and parses them, as the gateway does with
the upstream.  The events of all routes are blocks of one line of data, so it finds
them again, however the network cuts the bytes.

* `readsBack` — the blocks of a client are the events that were sent, and nothing is left;
* `receives_wellOrdered` — on `cc_openai2`, a client finds a well-ordered Claude stream,
  whatever the upstream sends and however its body ends.
-/
import AiOpenRouter.LossyDecoding
import AiOpenRouter.StreamChunking

open Trace

namespace Framing.Finder

variable {α : Type*} {F : Finder α}

theorem drain_of_frames {frames : List (List α)}
    (h : ∀ frame ∈ frames, F.pop frame = some (frame, [])) :
    F.drain frames.flatten = (frames, []) := by
  induction frames with
  | nil => rfl
  | cons frame frames ih =>
    have hpop := pop_append_right (h frame List.mem_cons_self) frames.flatten
    rw [List.nil_append] at hpop
    rw [List.flatten_cons, drain_of_some hpop, ih fun f hf => h f (List.mem_cons_of_mem frame hf)]

end Framing.Finder

namespace AiOpenRouter

open Text

/-! ### Lines -/

def NoLineEnd (line : List Char) : Prop := ∀ c ∈ line, c ≠ '\n' ∧ c ≠ '\r'

def IsLine (s : String) : Prop :=
  NoLineEnd s.toList ∧ ∃ c, s.toList.getLast? = some c ∧ isWhitespace c = false

theorem Text.IsPlainLine.isLine {s : String} (h : IsPlainLine s) : IsLine s :=
  ⟨h.not_lineEnd, h.getLast⟩

theorem Text.Encoded.one_or_high {c : Char} {bytes : Bytes} (h : Encoded c bytes) :
    (bytes = [UInt8.ofNat c.toNat] ∧ c.toNat < 128) ∨ ∀ b ∈ bytes, 128 ≤ b.toNat := by
  have hcontinuation : ∀ {b}, isContinuation b = true → 128 ≤ b.toNat :=
    fun hb => (isContinuation_iff.1 hb).1
  have hlead : ∀ {low b : UInt8}, low ≤ b → 128 ≤ low.toNat → 128 ≤ b.toNat :=
    fun hb hlow => hlow.trans (UInt8.le_iff_toNat_le.1 hb)
  cases h with
  | one hc => exact .inl ⟨rfl, hc⟩
  | two h0 h1 =>
    exact .inr (List.forall_mem_cons.2
      ⟨hlead h0.1 (by decide), List.forall_mem_singleton.2 (hcontinuation h1)⟩)
  | three h0 h1 h2 =>
    refine .inr (List.forall_mem_cons.2 ⟨hlead h0.1 (by decide), List.forall_mem_cons.2
      ⟨hcontinuation (isContinuation_of_isSecond h1), List.forall_mem_singleton.2 ?_⟩⟩)
    exact hcontinuation h2
  | four h0 h1 h2 h3 =>
    refine .inr (List.forall_mem_cons.2 ⟨hlead h0.1 (by decide), List.forall_mem_cons.2
      ⟨hcontinuation (isContinuation_of_isSecond h1), List.forall_mem_cons.2
        ⟨hcontinuation h2, List.forall_mem_singleton.2 (hcontinuation h3)⟩⟩⟩)

theorem NoLineEnd.bytes {line : List Char} (h : NoLineEnd line) :
    ∀ b ∈ line.flatMap String.utf8EncodeChar, b ≠ 10 ∧ b ≠ 13 := by
  intro b hb
  obtain ⟨c, hc, hb⟩ := List.mem_flatMap.1 hb
  rcases (encoded c).one_or_high with ⟨hone, hlt⟩ | hhigh
  · obtain rfl := List.mem_singleton.1 (hone ▸ hb)
    have hnat := toNat_ofNat_of_lt (n := c.toNat) (by omega)
    refine ⟨fun hten => (h c hc).1 (Char.toNat_inj.1 ?_),
      fun hten => (h c hc).2 (Char.toNat_inj.1 ?_)⟩
    · rw [← hnat, hten]
      rfl
    · rw [← hnat, hten]
      rfl
  · have hle := hhigh b hb
    exact ⟨fun hten => absurd (hten ▸ hle) (by decide), fun hcr => absurd (hcr ▸ hle) (by decide)⟩

/-! ### Blocks -/

theorem findSseDelimiterFrom_skip {line : Bytes} (h : ∀ b ∈ line, b ≠ 10 ∧ b ≠ 13) (rest : Bytes) :
    ∀ idx, findSseDelimiterFrom idx (line ++ rest) =
      findSseDelimiterFrom (idx + line.length) rest := by
  induction line with
  | nil => exact fun idx => rfl
  | cons b line ih =>
    intro idx
    have hb := h b List.mem_cons_self
    rw [List.cons_append, findSseDelimiterFrom, if_neg (by simp [hb.1.symm]),
      if_neg (by simp [hb.2.symm]), ih fun b' hb' => h b' (List.mem_cons_of_mem b hb'),
      List.length_cons, Nat.add_assoc, Nat.add_comm 1]

theorem pop_of_find {body : Bytes}
    (h : findSseDelimiter (body ++ [10, 10]) = some (body.length, 2)) :
    sseFinder.pop (body ++ [10, 10]) = some (body ++ [10, 10], []) := by
  have hlength : body.length + 2 = (body ++ [10, 10]).length := by simp
  rw [sseFinder_pop, popSseEvent, h]
  dsimp only
  rw [hlength, List.take_length, List.drop_length]

variable {eventType data : String}

theorem IsLine.dataLine_spec (h : IsLine data) :
    NoLineEnd ("data: ".toList ++ data.toList) ∧
      trim ("data: ".toList ++ data.toList) = "data: ".toList ++ data.toList := by
  obtain ⟨hends, d, hlast, hd⟩ := h
  have hfield : NoLineEnd "data: ".toList := by simp [NoLineEnd]
  have hd' : isWhitespace 'd' = false := by decide
  refine ⟨List.forall_mem_append.2 ⟨hfield, hends⟩, trim_eq_self hd' hd ?_⟩
  show ("data: ".toList ++ data.toList).getLast? = _
  rw [List.getLast?_append, hlast]
  rfl

theorem fromUtf8Lossy_utf8 (text : List Char) :
    fromUtf8Lossy (text.flatMap String.utf8EncodeChar) = text := by
  have happend := fromUtf8Lossy_append text []
  rwa [List.append_nil, fromUtf8Lossy, List.append_nil] at happend

/-- **A block of data is one block**, and is read back. -/
theorem dataBlock_spec (h : IsLine data) :
    sseFinder.pop (dataBlock data) = some (dataBlock data, []) ∧
      parseSse (dataBlock data) = ("", data) := by
  obtain ⟨hends, htrim⟩ := h.dataLine_spec
  have hblock : dataBlock data =
      ("data: ".toList ++ data.toList ++ ['\n', '\n']).flatMap String.utf8EncodeChar := by
    rw [dataBlock, utf8Bytes_eq]
    simp
  constructor
  · rw [hblock, List.flatMap_append]
    refine pop_of_find ?_
    rw [findSseDelimiter, findSseDelimiterFrom_skip hends.bytes, Nat.zero_add]
    rfl
  · rw [parseSse, hblock, fromUtf8Lossy_utf8, lines_append_newline hends]
    simp only [lines, List.foldl_cons, List.foldl_nil, htrim]
    rw [stripPrefix_append, stripPrefix_event_data]
    simp only [String.ofList_toList]
    rfl

/-- **A block of an event is one block**, and is read back. -/
theorem eventBlock_spec (htype : IsPlainLine eventType) (h : IsLine data) :
    sseFinder.pop (eventBlock eventType data) = some (eventBlock eventType data, []) ∧
      parseSse (eventBlock eventType data) = (eventType, data) := by
  obtain ⟨hends, htrim⟩ := h.dataLine_spec
  have hfield : NoLineEnd "event: ".toList := by simp [NoLineEnd]
  have hevent : NoLineEnd ("event: ".toList ++ eventType.toList) :=
    List.forall_mem_append.2 ⟨hfield, htype.not_lineEnd⟩
  have hblock : eventBlock eventType data = ("event: ".toList ++ eventType.toList ++
      '\n' :: ("data: ".toList ++ data.toList ++ ['\n', '\n'])).flatMap String.utf8EncodeChar := by
    rw [eventBlock, utf8Bytes_eq]
    simp
  constructor
  · have hbody : eventBlock eventType data =
        (("event: ".toList ++ eventType.toList).flatMap String.utf8EncodeChar ++
          10 :: ("data: ".toList ++ data.toList).flatMap String.utf8EncodeChar) ++ [10, 10] := by
      rw [hblock]
      simp
      rfl
    rw [hbody]
    refine pop_of_find ?_
    -- behind the end of the first line stands the first byte of the second one
    obtain ⟨rest, hrest⟩ : ∃ rest,
        ("data: ".toList ++ data.toList).flatMap String.utf8EncodeChar = 100 :: rest := ⟨_, rfl⟩
    have hskip := findSseDelimiterFrom_skip hends.bytes [10, 10]
    rw [hrest] at hskip ⊢
    rw [findSseDelimiter, List.append_assoc, findSseDelimiterFrom_skip hevent.bytes,
      List.cons_append, findSseDelimiterFrom, if_neg (by simp), if_neg (by simp), hskip,
      List.length_append, List.length_cons, Nat.zero_add, Nat.add_assoc, Nat.add_comm 1]
    rfl
  · rw [parseSse, hblock, fromUtf8Lossy_utf8, lines_append_newline hevent,
      lines_append_newline hends]
    simp only [lines, List.foldl_cons, List.foldl_nil, trim_event htype, htrim]
    rw [stripPrefix_append, stripPrefix_append, stripPrefix_event_data]
    simp only [String.ofList_toList]
    rfl

/-! ### The events -/

/-- Objects are printed on one line, as `serde_json::to_string` prints them. -/
def Env.PrintsLines (env : Env) : Prop := ∀ fields, IsLine (env.toStr (.obj fields))

/-- What `build_claude_event` prints. -/
def ClaudeEvent.payload (e : ClaudeEvent) : Json :=
  match e.data with
  | .obj fields => .obj (Json.insertField fields "type" (.str e.eventType))
  | data => .obj [("type", .str e.eventType), ("data", data)]

theorem ClaudeEvent.isPlainLine_eventType (e : ClaudeEvent) : IsPlainLine e.eventType := by
  have hnames : ∀ name ∈ ["message_start", "content_block_start", "content_block_delta",
    "content_block_stop", "message_delta", "message_stop"], IsPlainLine name := by decide
  exact hnames _ (by cases e <;> simp [eventType])

namespace DownstreamEvent

/-- The name of an event, and what is printed of it. -/
def fields (env : Env) : DownstreamEvent → String × String
  | claude e => (e.eventType, env.toStr e.payload)
  | chat (.chunk c) => ("", env.toStr c.toJson)
  | chat .doneMarker => ("", "[DONE]")
  | responses e => ("", (e.data.map env.toStr).getD "[DONE]")

variable {env : Env}

theorem isLine_data (h : env.PrintsLines) (e : DownstreamEvent) : IsLine (e.fields env).2 := by
  have hdone : IsLine "[DONE]" := Text.IsPlainLine.isLine (by decide)
  rcases e with e | (c | _) | e
  · cases e <;> exact h _
  · exact h _
  · exact hdone
  · cases e with
    | doneMarker => exact hdone
    | _ => exact h _

/-- **An event is one block, and is read back as it was built.** -/
theorem render_spec (h : env.PrintsLines) (e : DownstreamEvent) :
    sseFinder.pop (e.render env) = some (e.render env, []) ∧
      parseSse (e.render env) = e.fields env := by
  have hdata := e.isLine_data h
  rcases e with e | (c | _) | e
  · exact eventBlock_spec e.isPlainLine_eventType hdata
  · exact dataBlock_spec hdata
  · exact dataBlock_spec hdata
  · cases e <;> exact dataBlock_spec hdata

end DownstreamEvent

theorem drainChunks_render {env : Env} (h : env.PrintsLines) (events : List DownstreamEvent)
    {chunks : List Bytes} (hchunks : chunks.flatten = events.flatMap (DownstreamEvent.render env)) :
    sseFinder.drainChunks [] chunks = (events.map (DownstreamEvent.render env), []) := by
  have hframes : ∀ frame ∈ events.map (DownstreamEvent.render env),
      sseFinder.pop frame = some (frame, []) := by
    intro frame hframe
    obtain ⟨e, -, rfl⟩ := List.mem_map.1 hframe
    exact (e.render_spec h).1
  have hflat : chunks.flatten = (events.map (DownstreamEvent.render env)).flatten := by
    rw [hchunks, List.flatMap_def]
  rw [Framing.Finder.drainChunks_eq rfl, List.nil_append, hflat,
    Framing.Finder.drain_of_frames hframes]

/-- **A client reads back what was sent**: however the bytes are cut, its blocks are the events of
the list, with their names and data, and no byte is left over. -/
theorem readsBack {env : Env} (h : env.PrintsLines) (events : List DownstreamEvent)
    {chunks : List Bytes} (hchunks : chunks.flatten = events.flatMap (DownstreamEvent.render env)) :
    (sseFinder.drainChunks [] chunks).1.map parseSse = events.map (DownstreamEvent.fields env) ∧
      (sseFinder.drainChunks [] chunks).2 = [] := by
  rw [drainChunks_render h events hchunks, List.map_map]
  exact ⟨List.map_congr_left fun e _ => (e.render_spec h).2, rfl⟩

/-- An environment that reads the values, and prints every object on a line. -/
def lineEnv (values : List Json) : Env :=
  { Env.ofValues values with
    toStr := fun data =>
      if data.compact.toList.all fun c => 32 ≤ c.toNat then data.compact else "\x7b\x7d" }

theorem printsLines_lineEnv (values : List Json) : (lineEnv values).PrintsLines := by
  intro fields
  have hempty : IsLine "\x7b\x7d" := Text.IsPlainLine.isLine (by decide)
  unfold lineEnv
  dsimp only
  split_ifs with hall
  · refine ⟨fun c hc => ?_, '\x7d', ?_, by decide⟩
    · have hle : 32 ≤ c.toNat := of_decide_eq_true (List.all_eq_true.1 hall c hc)
      constructor
      · rintro rfl
        exact absurd hle (by decide)
      · rintro rfl
        exact absurd hle (by decide)
    · rw [Json.compact, String.toList_append, List.getLast?_append]
      exact rfl
  · exact hempty

def endEvents : List DownstreamEvent := [.claude (.contentBlockStop 0), .claude .messageStop]

/-- The two events, in two pieces. -/
theorem readsBack_endEvents :
    (sseFinder.drainChunks [] [(endEvents.flatMap (DownstreamEvent.render (lineEnv []))).take 30,
        (endEvents.flatMap (DownstreamEvent.render (lineEnv []))).drop 30]).1.map parseSse =
      [("content_block_stop", (lineEnv []).toStr (ClaudeEvent.contentBlockStop 0).payload),
        ("message_stop", (lineEnv []).toStr ClaudeEvent.messageStop.payload)] :=
  (readsBack (printsLines_lineEnv []) endEvents (by simp)).1

/-! ### Routes that refuse nothing -/

section

variable {ο : Type} {route : StreamRoute ο} {R : StreamContext → List ο → Prop}

/-- **What the converter and the finaliser keep, the loop keeps**, when no block is refused. -/
theorem delivered_invariant (hok : ∀ event ctx, ∃ r, route.transform event ctx = .ok r)
    (hstep : ∀ ctx t event o ctx', R ctx t → route.transform event ctx = .ok (o, ctx') →
      R ctx' (t ++ o))
    (hfinalize : ∀ ctx t, R ctx t → R (route.finalize ctx).2 (t ++ (route.finalize ctx).1))
    (bodyEnd : BodyEnd) : ∀ {chunks : List Bytes} {pending : Bytes} {ctx : StreamContext}
      {t : List ο}, R ctx t →
        ∃ ctx', R ctx' (t ++ (deliver (streamLoop route bodyEnd chunks pending ctx)).out) := by
  -- a failure sends what the finaliser gives
  have hfail : ∀ message {ctx t}, R ctx t →
      ∃ ctx', R ctx' (t ++ (deliver (sendFinalizerOr route message ctx).1).out) := by
    intro message ctx t h
    rw [deliver_sendFinalizerOr]
    exact ⟨_, hfinalize ctx t h⟩
  intro chunks
  induction chunks with
  | nil =>
    intro pending ctx t h
    cases bodyEnd with
    | readError => exact hfail _ h
    | eof =>
      show ∃ ctx', R ctx' (t ++ (deliver (onEof route pending ctx)).out)
      by_cases hpending : pending = []
      · subst hpending
        rw [deliver_onEof_of_empty]
        exact ⟨_, hfinalize ctx t h⟩
      · obtain ⟨⟨o, ctx'⟩, htail⟩ := hok pending ctx
        rw [deliver_onEof_of_accepted route hpending htail, ← List.append_assoc]
        exact ⟨_, hfinalize ctx' _ (hstep _ _ _ _ _ h htail)⟩
  | cons bytes chunks ih =>
    intro pending ctx t h
    rw [streamLoop]
    split_ifs
    · exact hfail _ h
    · have hrun := feed_invariant hstep (sseFinder.drain (pending ++ bytes)).1 h
      have herror :
          (feed route.transform ctx (sseFinder.drain (pending ++ bytes)).1).error = none :=
        feed_error_eq_none (fun event _ ctx => hok event ctx) _
      rw [convertPending_eq route (Nat.le_refl _), herror, List.nil_append]
      obtain ⟨ctx', hrest⟩ := ih hrun
      refine ⟨ctx', ?_⟩
      dsimp only
      rw [deliver_sendData_append, ← List.append_assoc]
      exact hrest

end

def claudeBytes (env : Env) (events : List ClaudeEvent) : Bytes :=
  (events.flatMap fun e => [DownstreamEvent.claude e]).flatMap (DownstreamEvent.render env)

theorem claudeBytes_append (env : Env) (events events' : List ClaudeEvent) :
    claudeBytes env (events ++ events') = claudeBytes env events ++ claudeBytes env events' := by
  rw [claudeBytes, List.flatMap_append, List.flatMap_append]
  rfl

def TracksBytes (env : Env) (ctx : StreamContext) (t : Bytes) : Prop :=
  ∃ events, Tracks ctx events ∧ t = claudeBytes env events

theorem ccOpenai2_transform (env : Env) (event : Bytes) (ctx : StreamContext) :
    (TransformerName.ccOpenai2.bytesRoute env).transform event ctx =
      (openaiResponsesStreamToClaude env event ctx).map fun r => (claudeBytes env r.1, r.2) := by
  show ((openaiResponsesStreamToClaude env event ctx).map _).map _ = _
  cases openaiResponsesStreamToClaude env event ctx <;> rfl

/-- **A client of `cc_openai2` finds a well-ordered Claude stream**: whatever chunks the upstream
sends, and whether its body ends, fails or outgrows the buffer. -/
theorem receives_wellOrdered {env : Env} (h : env.PrintsLines) (targetModel : String) (probe : Bool)
    (bodyEnd : BodyEnd) (chunks : List Bytes) {received : List Bytes}
    (hreceived : received.flatten =
      (deliver (handleStream (TransformerName.ccOpenai2.bytesRoute env) probe bodyEnd chunks
        (.forModel targetModel))).out) :
    ∃ events : List ClaudeEvent, WellOrdered events ∧
      (sseFinder.drainChunks [] received).1.map parseSse =
        events.map (fun e => (e.eventType, env.toStr e.payload)) ∧
      (sseFinder.drainChunks [] received).2 = [] := by
  have hsent : ∃ ctx, TracksBytes env ctx received.flatten := by
    rw [hreceived, handleStream]
    split_ifs
    · refine @delivered_invariant _ (TransformerName.ccOpenai2.bytesRoute env) (TracksBytes env)
        (fun event ctx => ?_) (fun ctx t event o ctx' htracks hstep => ?_) (fun ctx t htracks => ?_)
        bodyEnd chunks [] _ [] ⟨[], tracks_new.congr rfl rfl rfl, rfl⟩
      · obtain ⟨r, hr⟩ := openaiResponsesStreamToClaude_ok env event ctx
        rw [ccOpenai2_transform, hr]
        exact ⟨_, rfl⟩
      · obtain ⟨r, hr⟩ := openaiResponsesStreamToClaude_ok env event ctx
        obtain ⟨events, htracks, rfl⟩ := htracks
        rw [ccOpenai2_transform, hr] at hstep
        cases hstep
        exact ⟨events ++ r.1, tracks_step env _ _ _ _ _ htracks hr, (claudeBytes_append ..).symm⟩
      · obtain ⟨events, htracks, rfl⟩ := htracks
        exact ⟨_, tracks_finalize htracks, (claudeBytes_append ..).symm⟩
    · exact ⟨.new, [], tracks_new, rfl⟩
  obtain ⟨ctx, events, htracks, hbytes⟩ := hsent
  rw [drainChunks_render h _ hbytes]
  refine ⟨events, .of_permits htracks.permits, ?_, rfl⟩
  rw [← List.map_eq_flatMap, List.map_map, List.map_map]
  exact List.map_congr_left fun e _ => (DownstreamEvent.render_spec h (.claude e)).2

/-- An upstream that says one word. -/
def oneWordEvents : List Json :=
  [.obj [("type", .str "response.created"), ("response", .obj [("id", .str "resp_1")])],
   .obj [("type", .str "response.output_text.delta"), ("delta", .str "hi")],
   .obj [("type", .str "response.completed")]]

/-- What its client receives, when the network cuts the upstream's bytes. -/
def oneWordAnswer : Bytes :=
  let sent := oneWordEvents.flatMap fun event => dataBlock event.compact
  (deliver (handleStream (TransformerName.ccOpenai2.bytesRoute (lineEnv oneWordEvents)) true .eof
    [sent.take 50, sent.drop 50] (.forModel "gpt"))).out

/-- The client finds the message and its block, in two pieces. -/
theorem receives_wellOrdered_oneWord :
    ∃ events : List ClaudeEvent, WellOrdered events ∧
      (sseFinder.drainChunks [] [oneWordAnswer.take 60, oneWordAnswer.drop 60]).1.map parseSse =
        events.map (fun e => (e.eventType, (lineEnv oneWordEvents).toStr e.payload)) ∧
      events.map ClaudeEvent.eventType = ["message_start", "content_block_start",
        "content_block_delta", "content_block_stop", "message_delta", "message_stop"] := by
  have hsent : [oneWordAnswer.take 60, oneWordAnswer.drop 60].flatten = oneWordAnswer := by simp
  obtain ⟨events, hordered, hread, -⟩ :=
    receives_wellOrdered (printsLines_lineEnv oneWordEvents) "gpt" true .eof _ hsent
  refine ⟨events, hordered, hread, ?_⟩
  have hnames := congrArg (List.map Prod.fst) hread
  rw [@List.map_map _ _ _ _ _ events] at hnames
  refine hnames.symm.trans ?_
  decide +kernel

end AiOpenRouter
