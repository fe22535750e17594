/-
What one upstream event does in the Responses → Claude converter.

* `Quietly` — a step that starts no block, adds to none and registers no index;
* `Serves` — a step that resolves an index, starts its block unless it is open,
  and may send one delta;
* `convertResponsesEvent_cases` — every event is one or the other: quiet when
  `blockRequest` is `none`, and serving its request otherwise.
-/
import AiOpenRouter.ResponsesToClaude

open Trace

namespace AiOpenRouter

/-! ### Requests -/

/-- What an upstream event asks for: a block of some kind at an index that is
registered already (`target`) or still to be taken, and maybe a delta in it. -/
structure BlockRequest where
  target : Option ℤ
  kind : BlockKind
  hasDelta : Bool

def blockRequest (ctx : StreamContext) (name : String) (data : Json) : Option BlockRequest :=
  match name with
  | "response.content_part.added" =>
    match data.get "part" with
    | none => none
    | some part =>
      if part.getStr "type" = some "output_text" ∨ part.getStr "type" = some "refusal" then
        some ⟨contentTarget ctx data, .text, false⟩
      else none
  | "response.output_text.delta" | "response.refusal.delta" =>
    (data.getStr "delta").map fun _ => ⟨contentTarget ctx data, .text, true⟩
  | "response.output_item.added" =>
    match data.get "item" with
    | none => none
    | some item =>
      if item.getStr "type" = some "function_call" then
        some ⟨addedTarget ctx data item, .toolUse, false⟩
      else none
  | "response.function_call_arguments.delta" =>
    (data.getStr "delta").map fun _ => ⟨toolIndexOfEvent ctx data, .toolUse, true⟩
  | "response.reasoning.delta" =>
    (reasoningText data).map fun _ => ⟨contentTarget ctx data, .thinking, true⟩
  | _ => none

/-! ### Quiet steps -/

def ClaudeEvent.isQuiet : ClaudeEvent → Bool
  | .contentBlockStart _ _ => false
  | .contentBlockDelta _ _ => false
  | _ => true

def Known (ctx : StreamContext) (i : ℤ) : Prop :=
  (∃ key, ctx.responsesIndexByKey key = some i) ∨ ctx.responsesFallbackOpenIndex = some i ∨
    (∃ itemId, ctx.responsesToolIndexByItemId itemId = some i) ∨
    ctx.responsesLastToolIndex = some i

/-- From `st` to `st'` only quiet events are emitted and no index is registered. -/
structure Quietly (st st' : Emit ClaudeEvent) : Prop where
  out : ∃ q, st'.result = st.result ++ q ∧ (∀ e ∈ q, e.isQuiet = true) ∧
    st'.ctx.responsesOpenIndices = q.foldl openStep st.ctx.responsesOpenIndices
  next : st'.ctx.responsesNextContentIndex = st.ctx.responsesNextContentIndex
  byKey : st'.ctx.responsesIndexByKey = st.ctx.responsesIndexByKey
  fallback : ∀ i, st'.ctx.responsesFallbackOpenIndex = some i →
    st.ctx.responsesFallbackOpenIndex = some i
  byItemId : ∀ itemId i, st'.ctx.responsesToolIndexByItemId itemId = some i →
    st.ctx.responsesToolIndexByItemId itemId = some i
  last : ∀ i, st'.ctx.responsesLastToolIndex = some i → st.ctx.responsesLastToolIndex = some i

variable {st' : Emit ClaudeEvent} (env : Env) (data : Json) (st : Emit ClaudeEvent)

theorem Quietly.known {st : Emit ClaudeEvent} (h : Quietly st st') (i : ℤ) (hi : Known st'.ctx i) :
    Known st.ctx i := by
  rcases hi with ⟨key, hkey⟩ | hfb | ⟨itemId, hid⟩ | hlast
  · exact Or.inl ⟨key, h.byKey ▸ hkey⟩
  · exact Or.inr (Or.inl (h.fallback i hfb))
  · exact Or.inr (Or.inr (Or.inl ⟨itemId, h.byItemId itemId i hid⟩))
  · exact Or.inr (Or.inr (Or.inr (h.last i hlast)))

theorem Quietly.refl :
    Quietly st st where
  out := ⟨[], by simp, by simp, rfl⟩
  next := rfl
  byKey := rfl
  fallback _ h := h
  byItemId _ _ h := h
  last _ h := h

theorem Quietly.trans {st st'' : Emit ClaudeEvent} (h : Quietly st st') (h' : Quietly st' st'') :
    Quietly st st'' where
  out := by
    obtain ⟨q, hq, hquiet, hopen⟩ := h.out
    obtain ⟨q', hq', hquiet', hopen'⟩ := h'.out
    refine ⟨q ++ q', by rw [hq', hq, List.append_assoc], ?_, ?_⟩
    · intro e he
      rcases List.mem_append.1 he with he | he
      · exact hquiet e he
      · exact hquiet' e he
    · rw [hopen', hopen, List.foldl_append]
  next := h'.next.trans h.next
  byKey := h'.byKey.trans h.byKey
  fallback i hi := h.fallback i (h'.fallback i hi)
  byItemId itemId i hi := h.byItemId itemId i (h'.byItemId itemId i hi)
  last i hi := h.last i (h'.last i hi)

theorem Quietly.withCtx {st : Emit ClaudeEvent} {f : StreamContext → StreamContext}
    (hopen : (f st.ctx).responsesOpenIndices = st.ctx.responsesOpenIndices)
    (hnext : (f st.ctx).responsesNextContentIndex = st.ctx.responsesNextContentIndex)
    (hkey : (f st.ctx).responsesIndexByKey = st.ctx.responsesIndexByKey)
    (hfb : (f st.ctx).responsesFallbackOpenIndex = st.ctx.responsesFallbackOpenIndex)
    (hid : (f st.ctx).responsesToolIndexByItemId = st.ctx.responsesToolIndexByItemId)
    (hlast : (f st.ctx).responsesLastToolIndex = st.ctx.responsesLastToolIndex) :
    Quietly st (st.withCtx f) where
  out := ⟨[], by simp, by simp, hopen⟩
  next := hnext
  byKey := hkey
  fallback i hi := hfb ▸ hi
  byItemId itemId i hi := congrFun hid itemId ▸ hi
  last i hi := hlast ▸ hi

theorem Quietly.push {st : Emit ClaudeEvent} {e : ClaudeEvent} (hquiet : e.isQuiet = true)
    (hopen : openStep st.ctx.responsesOpenIndices e = st.ctx.responsesOpenIndices) :
    Quietly st (st.push e) where
  out := ⟨[e], rfl, by simpa using hquiet, hopen.symm⟩
  next := rfl
  byKey := rfl
  fallback _ h := h
  byItemId _ _ h := h
  last _ h := h

/-- A `message_start` changes nothing about blocks. -/
theorem Preamble.quietly {st : Emit ClaudeEvent} (h : Preamble st st') : Quietly st st' := by
  obtain ⟨q, _, _, _, _, _, hq, rfl⟩ := h
  have hopen : q.foldl openStep st.ctx.responsesOpenIndices = st.ctx.responsesOpenIndices := by
    induction q with
    | nil => rfl
    | cons e q ih =>
      obtain ⟨message, rfl⟩ := hq e (by simp)
      exact ih fun e' he' => hq e' (by simp [he'])
  refine ⟨⟨q, rfl, ?_, hopen.symm⟩, rfl, rfl, fun _ h => h, fun _ _ h => h, fun _ h => h⟩
  intro e he
  obtain ⟨message, rfl⟩ := hq e he
  rfl

theorem quietly_closeOpenIndex (index : ℤ) : Quietly st (closeOpenIndex st index) := by
  rcases closeOpenIndex_cases st index with ⟨-, heq⟩ | ⟨-, heq⟩
  · rw [heq]
    exact Quietly.refl st
  · rw [heq]
    refine ⟨⟨[.contentBlockStop index], rfl, by simp [ClaudeEvent.isQuiet], rfl⟩, rfl, rfl, ?_,
      fun _ _ h => h, fun _ h => h⟩
    intro i hi
    by_cases hindex : st.ctx.responsesFallbackOpenIndex = some index
    · simp [hindex] at hi
    · simpa [hindex] using hi

theorem quietly_closeAllOpenIndices : Quietly st (closeAllOpenIndices st) :=
  closeAllOpenIndices_induction (P := Quietly st)
    (fun st' index h => h.trans (quietly_closeOpenIndex st' index)) (Quietly.refl st)

theorem quietly_clearToolIndices :
    Quietly st (st.withCtx clearToolIndices) where
  out := ⟨[], by simp, by simp, rfl⟩
  next := rfl
  byKey := rfl
  fallback i hi := by simp [clearToolIndices] at hi
  byItemId itemId i hi := by simp [clearToolIndices] at hi
  last i hi := by simp [clearToolIndices] at hi

theorem quietly_clearFallback :
    Quietly st (st.withCtx clearFallback) where
  out := ⟨[], by simp, by simp, rfl⟩
  next := rfl
  byKey := rfl
  fallback i hi := by simp [clearFallback] at hi
  byItemId _ _ h := h
  last _ h := h

theorem quietly_removeToolIndex (itemId : Option String) (st : Emit ClaudeEvent) :
    Quietly st (st.withCtx (removeToolIndex itemId)) := by
  rcases itemId with _ | itemId
  · exact Quietly.withCtx rfl rfl rfl rfl rfl rfl
  · refine ⟨⟨[], by simp, by simp, rfl⟩, rfl, rfl, fun _ h => h, ?_, fun _ h => h⟩
    intro id i hid
    by_cases heq : id = itemId
    · simp [removeToolIndex, heq] at hid
    · simpa [removeToolIndex, Function.update_of_ne heq] using hid

theorem quietly_finalizeDone : Quietly st (finalizeOpenaiResponsesStreamToClaudeDone st) := by
  rw [finalizeOpenaiResponsesStreamToClaudeDone]
  refine (quietly_closeAllOpenIndices st).trans ((quietly_clearToolIndices _).trans ?_)
  split_ifs
  · exact (Quietly.push rfl rfl).trans (Quietly.withCtx rfl rfl rfl rfl rfl rfl)
  · exact Quietly.refl _

theorem quietly_onCompleted : Quietly st (onCompleted env data st) := by
  rw [onCompleted]
  split_ifs
  · exact Quietly.refl st
  · -- from the last update of the source backwards
    refine Quietly.trans ?_ (Quietly.withCtx rfl rfl rfl rfl rfl rfl)
    refine Quietly.trans ?_ (Quietly.push rfl rfl)
    refine Quietly.trans ?_ (Quietly.push rfl rfl)
    refine Quietly.trans ?_ (Quietly.withCtx rfl rfl rfl rfl rfl rfl)
    refine Quietly.trans ?_ (quietly_clearFallback _)
    exact (preamble_emitMessageStart env _ st).quietly.trans (quietly_closeAllOpenIndices _)

theorem quietly_onContentPartDone : Quietly st (onContentPartDone data st) := by
  rw [onContentPartDone]
  rcases contentTarget st.ctx data with _ | index
  · exact Quietly.refl st
  · exact quietly_closeOpenIndex st index

theorem quietly_onArgumentsDone : Quietly st (onArgumentsDone data st) := by
  rw [onArgumentsDone]
  rcases toolIndexOfEvent st.ctx data with _ | index
  · exact Quietly.refl st
  · exact (quietly_closeOpenIndex st index).trans (quietly_removeToolIndex _ _)

theorem quietly_onCreated : Quietly st (onCreated env data st) :=
  (Quietly.withCtx rfl rfl rfl rfl rfl rfl).trans (preamble_emitMessageStart env _ _).quietly

theorem Preamble.open_next {st : Emit ClaudeEvent} (h : Preamble st st') :
    st'.ctx.responsesOpenIndices = st.ctx.responsesOpenIndices ∧
    st'.ctx.responsesNextContentIndex = st.ctx.responsesNextContentIndex := by
  obtain ⟨q, _, _, _, _, _, -, rfl⟩ := h
  exact ⟨rfl, rfl⟩

/-! ### Serving a request -/

def serveBlock (index : ℤ) (block : ClaudeBlock) (delta : Option ClaudeDelta)
    (st : Emit ClaudeEvent) : Emit ClaudeEvent :=
  match delta with
  | none => startUnlessOpen index block st
  | some delta => (startUnlessOpen index block st).push (.contentBlockDelta index delta)

inductive Serves (st : Emit ClaudeEvent) (req : BlockRequest) : Emit ClaudeEvent → Prop
  | intro (r : ℤ × StreamContext) (registered : StreamContext) (block : ClaudeBlock)
      (delta : Option ClaudeDelta)
      (resolves : Resolves st.ctx req.target r)
      (target_known : ∀ i, req.target = some i → Known st.ctx i)
      (registered_open : registered.responsesOpenIndices = r.2.responsesOpenIndices)
      (registered_next : registered.responsesNextContentIndex = r.2.responsesNextContentIndex)
      (registered_known : ∀ i, Known registered i → Known r.2 i ∨ i = r.1)
      (block_kind : block.kind = req.kind)
      (delta_isSome : delta.isSome = req.hasDelta)
      (delta_kind : ∀ d, delta = some d → d.kind = req.kind) :
      Serves st req (serveBlock r.1 block delta ⟨registered, st.result⟩)

variable {ctx : StreamContext}

theorem known_of_resolves {target : Option ℤ} {r : ℤ × StreamContext}
    (hr : Resolves ctx target r) (i : ℤ) (hi : Known r.2 i) : Known ctx i ∨ i = r.1 := by
  rcases hr with j | ⟨byKey, fallback, hkey, hfallback⟩
  · exact Or.inl hi
  · rcases hi with ⟨key, hk⟩ | hfb | hid | hlast
    · rcases hkey key i hk with hk | rfl
      · exact Or.inl (Or.inl ⟨key, hk⟩)
      · exact Or.inr rfl
    · rcases hfallback i hfb with hfb | rfl
      · exact Or.inl (Or.inr (Or.inl hfb))
      · exact Or.inr rfl
    · exact Or.inl (Or.inr (Or.inr (Or.inl hid)))
    · exact Or.inl (Or.inr (Or.inr (Or.inr hlast)))

/-! ### Which events make requests -/

theorem known_of_contentTarget {data : Json} (i : ℤ) (h : contentTarget ctx data = some i) :
    Known ctx i := by
  rw [contentTarget] at h
  rcases hkey : contentPartKey data with _ | key
  · rw [hkey] at h
    exact Or.inr (Or.inl h)
  · rw [hkey] at h
    exact Or.inl ⟨key, h⟩

theorem known_of_addedTarget {data item : Json} (i : ℤ)
    (h : addedTarget ctx data item = some i) : Known ctx i := by
  obtain ⟨key, -, hkey⟩ := Option.bind_eq_some_iff.1 h
  exact Or.inl ⟨key, hkey⟩

theorem known_of_toolIndexOfEvent {data : Json} (i : ℤ)
    (h : toolIndexOfEvent ctx data = some i) : Known ctx i := by
  rw [toolIndexOfEvent, Option.orElse_eq_orElse, Option.orElse_eq_or, Option.orElse_eq_or,
    Option.or_eq_some_iff, Option.or_eq_some_iff] at h
  rcases h with (h | ⟨-, h⟩) | ⟨-, h⟩
  · obtain ⟨itemId, -, hid⟩ := Option.bind_eq_some_iff.1 h
    exact Or.inr (Or.inr (Or.inl ⟨itemId, hid⟩))
  · obtain ⟨key, -, hkey⟩ := Option.bind_eq_some_iff.1 h
    exact Or.inl ⟨key, hkey⟩
  · exact Or.inr (Or.inr (Or.inr h))

theorem known_of_setToolIndex (itemId : Option String) {index : ℤ} (i : ℤ)
    (h : Known (setLastToolIndex index (setToolIndex itemId index ctx)) i) :
    Known ctx i ∨ i = index := by
  rcases itemId with _ | itemId
  · rcases h with hkey | hfb | hid | hlast
    · exact Or.inl (Or.inl hkey)
    · exact Or.inl (Or.inr (Or.inl hfb))
    · exact Or.inl (Or.inr (Or.inr (Or.inl hid)))
    · exact Or.inr (Option.some_inj.1 hlast).symm
  · rcases h with hkey | hfb | ⟨id, hid⟩ | hlast
    · exact Or.inl (Or.inl hkey)
    · exact Or.inl (Or.inr (Or.inl hfb))
    · by_cases heq : id = itemId
      · simp [setLastToolIndex, setToolIndex, heq] at hid
        exact Or.inr hid.symm
      · simp [setLastToolIndex, setToolIndex, Function.update_of_ne heq] at hid
        exact Or.inl (Or.inr (Or.inr (Or.inl ⟨id, hid⟩)))
    · exact Or.inr (Option.some_inj.1 hlast).symm

theorem serves_emitContentDelta (block : ClaudeBlock) (delta : ClaudeDelta)
    (hkind : delta.kind = block.kind) (st : Emit ClaudeEvent) :
    ∃ st1, Preamble st st1 ∧ Serves st1 ⟨contentTarget st.ctx data, block.kind, true⟩
      (emitContentDelta env data block delta st) := by
  refine ⟨_, preamble_emitMessageStart env none st, ?_⟩
  rw [emitContentDelta]
  obtain ⟨q, _, _, _, _, _, -, heq⟩ := preamble_emitMessageStart env none st
  rw [heq]
  exact Serves.intro (resolveContentIndex _ data) _ block (some delta)
    (resolves_resolveContentIndex _ data) known_of_contentTarget rfl rfl
    (fun _ h => Or.inl h) rfl rfl (fun d hd => Option.some_inj.1 hd ▸ hkind)

theorem convertResponsesEvent_cases (name : String) (data : Json) (st : Emit ClaudeEvent) :
    (blockRequest st.ctx name data = none ∧ Quietly st (convertResponsesEvent env name data st)) ∨
    ∃ req st1, blockRequest st.ctx name data = some req ∧ Preamble st st1 ∧
      Serves st1 req (convertResponsesEvent env name data st) := by
  unfold convertResponsesEvent
  split
  case h_1 => exact Or.inl ⟨rfl, quietly_onCreated env data st⟩
  -- a part of text or refusal starts its block
  case h_2 =>
    rw [onContentPartAdded, blockRequest]
    rcases data.get "part" with _ | part
    · exact Or.inl ⟨rfl, Quietly.refl st⟩
    · by_cases htype : part.getStr "type" = some "output_text" ∨ part.getStr "type" = some "refusal"
      · simp only [htype, if_true]
        refine Or.inr ⟨_, _, rfl, preamble_emitMessageStart env none st, ?_⟩
        obtain ⟨q, _, _, _, _, _, -, heq⟩ := preamble_emitMessageStart env none st
        rw [heq]
        exact Serves.intro (resolveContentIndex _ data) _ (.text "") none
          (resolves_resolveContentIndex _ data) known_of_contentTarget rfl rfl
          (fun _ h => Or.inl h) rfl rfl (by simp)
      · simp only [htype, if_false]
        exact Or.inl ⟨trivial, Quietly.refl st⟩
  case h_3 | h_4 =>
    rw [onOutputTextDelta, blockRequest]
    rcases data.getStr "delta" with _ | delta
    · exact Or.inl ⟨rfl, Quietly.refl st⟩
    · obtain ⟨st1, hpre, hserves⟩ :=
        serves_emitContentDelta env data (.text "") (.textDelta delta) rfl st
      exact Or.inr ⟨_, st1, rfl, hpre, hserves⟩
  case h_5 | h_6 | h_7 => exact Or.inl ⟨rfl, quietly_onContentPartDone data st⟩
  -- an added function call starts its block
  case h_8 =>
    rw [onOutputItemAdded, blockRequest]
    rcases data.get "item" with _ | item
    · exact Or.inl ⟨rfl, Quietly.refl st⟩
    · by_cases htype : item.getStr "type" = some "function_call"
      · simp only [htype, if_true]
        refine Or.inr ⟨_, _, rfl, preamble_hasToolUse env none st, ?_⟩
        obtain ⟨q, _, _, _, _, _, -, heq⟩ := preamble_hasToolUse env none st
        rw [heq]
        refine Serves.intro (resolveAddedIndex _ data item) _ (addedToolUse item) none
          (resolves_resolveAddedIndex _ data item) known_of_addedTarget ?_ ?_
          (known_of_setToolIndex _) rfl rfl (by simp)
        · rcases addedItemId data item with _ | itemId <;> rfl
        · rcases addedItemId data item with _ | itemId <;> rfl
      · simp only [htype, if_false]
        exact Or.inl ⟨trivial, Quietly.refl st⟩
  -- arguments start a block where none is known
  case h_9 =>
    rw [onArgumentsDelta, blockRequest]
    rcases data.getStr "delta" with _ | delta
    · exact Or.inl ⟨rfl, Quietly.refl st⟩
    · refine Or.inr ⟨_, _, rfl, preamble_emitMessageStart env none st, ?_⟩
      obtain ⟨q, _, _, _, _, _, -, heq⟩ := preamble_emitMessageStart env none st
      rw [heq]
      refine Serves.intro (resolveArgumentsIndex _ data) _ (.toolUse _ _ none)
        (some (.inputJsonDelta delta)) (resolves_resolveArgumentsIndex _ data)
        known_of_toolIndexOfEvent rfl rfl ?_ rfl rfl
        (fun d hd => Option.some_inj.1 hd ▸ rfl)
      exact known_of_setToolIndex none
  case h_10 => exact Or.inl ⟨rfl, quietly_onArgumentsDone data st⟩
  case h_11 =>
    rw [onReasoningDelta, blockRequest]
    rcases reasoningText data with _ | delta
    · exact Or.inl ⟨rfl, Quietly.refl st⟩
    · obtain ⟨st1, hpre, hserves⟩ :=
        serves_emitContentDelta env data (.thinking "") (.thinkingDelta delta) rfl st
      exact Or.inr ⟨_, st1, rfl, hpre, hserves⟩
  case h_12 => exact Or.inl ⟨rfl, quietly_onCompleted env data st⟩
  case h_13 =>
    refine Or.inl ⟨?_, Quietly.refl st⟩
    unfold blockRequest
    split <;> first | rfl | contradiction

end AiOpenRouter
