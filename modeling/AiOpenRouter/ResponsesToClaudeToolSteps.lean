/-
Steps of the Responses → Claude converter, as seen by the function calls.

* `LeavesTools` — a step that only touches the blocks of content indices: text,
  refusals and reasoning keep away from the indices of the tools;
* `ToolsTracked` — the invariant: every added item is registered under its key,
  its block was started once and holds the item's own fragments;
* `toolStep_convertResponsesEvent` — one event of a well-formed stream whose item
  is found keeps the invariant, starts the block of an added item, and sends a
  fragment to the block of its item.
-/
import AiOpenRouter.ResponsesToolEvents

open Trace

namespace AiOpenRouter

/-! ### Keys -/

def toolKey (itemId : String) : String := "tool:" ++ itemId

theorem toolKey_injective : Function.Injective toolKey := by
  intro a b h
  have hlist := congrArg String.toList h
  simp only [toolKey, String.toList_append, List.append_cancel_left_eq] at hlist
  exact String.toList_injective hlist

variable {st st' st1 : Emit ClaudeEvent} {data : Json} {ctx : StreamContext} {fresh : Bool}
  {ref : ItemRef} {i : ℤ} {item : ToolItem} {q : List ClaudeEvent} (env : Env)

theorem contentPartKey_ne_toolKey {key : String} (h : contentPartKey data = some key)
    (itemId : String) : key ≠ toolKey itemId := by
  intro heq
  have hlist := congrArg String.toList heq
  unfold contentPartKey at h
  split at h
  · rw [← Option.some_inj.1 h] at hlist
    simp [toolKey] at hlist
  · split at h
    · rw [← Option.some_inj.1 h] at hlist
      simp [toolKey] at hlist
    · exact absurd h (by simp)

def ContentKnown (ctx : StreamContext) (i : ℤ) : Prop :=
  (∃ key, (∀ itemId, key ≠ toolKey itemId) ∧ ctx.responsesIndexByKey key = some i) ∨
    ctx.responsesFallbackOpenIndex = some i

/-! ### Steps that leave the tools alone -/

/-- From `st` to `st'` only blocks of content indices are touched, one of them new
when `fresh`; nothing registered for a tool changes. -/
structure LeavesTools (fresh : Bool) (st st' : Emit ClaudeEvent) : Prop where
  out : ∃ q, st'.result = st.result ++ q ∧
    st'.ctx.responsesOpenIndices = q.foldl openStep st.ctx.responsesOpenIndices ∧
    ∀ e ∈ q, ∀ i, e.blockIndex = some i →
      ContentKnown st.ctx i ∨ (fresh = true ∧ i = st.ctx.responsesNextContentIndex)
  toolKey : ∀ itemId, st'.ctx.responsesIndexByKey (toolKey itemId)
    = st.ctx.responsesIndexByKey (toolKey itemId)
  byItemId : st'.ctx.responsesToolIndexByItemId = st.ctx.responsesToolIndexByItemId
  last : st'.ctx.responsesLastToolIndex = st.ctx.responsesLastToolIndex
  content : ∀ i, ContentKnown st'.ctx i →
    ContentKnown st.ctx i ∨ (fresh = true ∧ i = st.ctx.responsesNextContentIndex)
  next : st'.ctx.responsesNextContentIndex
    = if fresh then wrapI32 (st.ctx.responsesNextContentIndex + 1)
      else st.ctx.responsesNextContentIndex

theorem LeavesTools.refl (st : Emit ClaudeEvent) : LeavesTools false st st where
  out := ⟨[], by simp, rfl, by simp⟩
  toolKey _ := rfl
  byItemId := rfl
  last := rfl
  content _ h := Or.inl h
  next := rfl

theorem Preamble.leavesTools (h : Preamble st st') : LeavesTools false st st' := by
  obtain ⟨⟨q, hout, -, hopen⟩, hnext, -, -, -, -⟩ := h.quietly
  obtain ⟨q', _, _, _, _, _, hq', rfl⟩ := h
  obtain rfl : q' = q := List.append_cancel_left hout
  refine ⟨⟨q', rfl, hopen, ?_⟩, fun _ => rfl, rfl, rfl, fun _ h => Or.inl h, rfl⟩
  intro e he i hi
  obtain ⟨message, rfl⟩ := hq' e he
  exact absurd hi (by simp [ClaudeEvent.blockIndex])

theorem LeavesTools.withCtx {f : StreamContext → StreamContext}
    (hopen : (f st.ctx).responsesOpenIndices = st.ctx.responsesOpenIndices)
    (hnext : (f st.ctx).responsesNextContentIndex = st.ctx.responsesNextContentIndex)
    (hkey : (f st.ctx).responsesIndexByKey = st.ctx.responsesIndexByKey)
    (hfb : (f st.ctx).responsesFallbackOpenIndex = st.ctx.responsesFallbackOpenIndex)
    (hid : (f st.ctx).responsesToolIndexByItemId = st.ctx.responsesToolIndexByItemId)
    (hlast : (f st.ctx).responsesLastToolIndex = st.ctx.responsesLastToolIndex) :
    LeavesTools false st (st.withCtx f) where
  out := ⟨[], by simp, hopen, by simp⟩
  toolKey _ := by rw [Emit.withCtx_ctx, hkey]
  byItemId := hid
  last := hlast
  content i hi := by
    rw [Emit.withCtx_ctx, ContentKnown, hkey, hfb] at hi
    exact Or.inl hi
  next := hnext

theorem LeavesTools.trans {st'' : Emit ClaudeEvent} (h : LeavesTools false st st')
    (h' : LeavesTools fresh st' st'') : LeavesTools fresh st st'' := by
  have hnext : st'.ctx.responsesNextContentIndex = st.ctx.responsesNextContentIndex := h.next
  have hcontent : ∀ i, ContentKnown st'.ctx i → ContentKnown st.ctx i := by
    intro i hi
    rcases h.content i hi with hi | ⟨hfalse, -⟩
    · exact hi
    · exact absurd hfalse (by simp)
  obtain ⟨q, hq, hopen, htouch⟩ := h.out
  obtain ⟨q', hq', hopen', htouch'⟩ := h'.out
  refine ⟨⟨q ++ q', by rw [hq', hq, List.append_assoc], ?_, ?_⟩, ?_, h'.byItemId.trans h.byItemId,
    h'.last.trans h.last, ?_, ?_⟩
  · rw [hopen', hopen, List.foldl_append]
  · intro e he i hi
    rcases List.mem_append.1 he with he | he
    · rcases htouch e he i hi with hk | ⟨hfalse, -⟩
      · exact Or.inl hk
      · exact absurd hfalse (by simp)
    · rw [← hnext]
      exact (htouch' e he i hi).imp_left (hcontent i)
  · intro itemId
    rw [h'.toolKey, h.toolKey]
  · intro i hi
    rw [← hnext]
    exact (h'.content i hi).imp_left (hcontent i)
  · rw [h'.next, hnext]

theorem LeavesTools.push (h : LeavesTools fresh st st') {e : ClaudeEvent} {opened : Finset ℤ}
    (he : ∀ i, e.blockIndex = some i → ContentKnown st.ctx i ∨
      (fresh = true ∧ i = st.ctx.responsesNextContentIndex))
    (hopened : opened = openStep st'.ctx.responsesOpenIndices e) :
    LeavesTools fresh st ⟨{ st'.ctx with responsesOpenIndices := opened }, st'.result ++ [e]⟩ := by
  obtain ⟨⟨q, hq, hopen, htouch⟩, h1, h2, h3, h4, h5⟩ := h
  refine ⟨⟨q ++ [e], by rw [hq, List.append_assoc], ?_, ?_⟩, h1, h2, h3, h4, h5⟩
  · rw [List.foldl_append, ← hopen]
    exact hopened
  · intro e' he'
    rcases List.mem_append.1 he' with he' | he'
    · exact htouch e' he'
    · rw [List.mem_singleton.1 he']
      exact he

theorem LeavesTools.serve (h : LeavesTools fresh st st') {index : ℤ}
    (hindex : ContentKnown st.ctx index ∨ (fresh = true ∧ index = st.ctx.responsesNextContentIndex))
    (block : ClaudeBlock) (delta : Option ClaudeDelta) :
    LeavesTools fresh st (serveBlock index block delta st') := by
  have hstart : LeavesTools fresh st (startUnlessOpen index block st') := by
    rw [startUnlessOpen]
    split_ifs
    · exact h
    · exact h.push (fun i hi => Option.some_inj.1 hi ▸ hindex) rfl
  rcases delta with _ | d
  · exact hstart
  · exact hstart.push (fun i hi => Option.some_inj.1 hi ▸ hindex) rfl

theorem leavesTools_closeOpenIndex {index : ℤ} (h : ContentKnown st.ctx index) :
    LeavesTools false st (closeOpenIndex st index) := by
  rcases closeOpenIndex_cases st index with ⟨-, heq⟩ | ⟨-, heq⟩
  · rw [heq]
    exact LeavesTools.refl st
  · rw [heq]
    refine ⟨⟨[.contentBlockStop index], rfl, rfl, ?_⟩, fun _ => rfl, rfl, rfl, ?_, rfl⟩
    · intro e he i hi
      rw [List.mem_singleton.1 he] at hi
      exact Or.inl (Option.some_inj.1 hi ▸ h)
    · intro i hi
      rcases hi with hkey | hfb
      · exact Or.inl (Or.inl hkey)
      · refine Or.inl (Or.inr ?_)
        by_cases hindex : st.ctx.responsesFallbackOpenIndex = some index
        · simp [hindex] at hfb
        · simpa [hindex] using hfb

theorem contentKnown_of_contentTarget (h : contentTarget ctx data = some i) :
    ContentKnown ctx i := by
  rw [contentTarget] at h
  rcases hkey : contentPartKey data with _ | key
  · rw [hkey] at h
    exact Or.inr h
  · rw [hkey] at h
    exact Or.inl ⟨key, contentPartKey_ne_toolKey hkey, h⟩

theorem leavesTools_resolveContentIndex (ctx : StreamContext) (result : List ClaudeEvent)
    (data : Json) :
    LeavesTools (contentTarget ctx data).isNone ⟨ctx, result⟩
      ⟨(resolveContentIndex ctx data).2, result⟩ ∧
    (ContentKnown ctx (resolveContentIndex ctx data).1 ∨
      ((contentTarget ctx data).isNone = true ∧
        (resolveContentIndex ctx data).1 = ctx.responsesNextContentIndex)) := by
  rcases htarget : contentTarget ctx data with _ | i
  · rcases hkey : contentPartKey data with _ | key
    · rw [contentTarget, hkey] at htarget
      simp only at htarget
      rw [resolveContentIndex, hkey]
      simp only [htarget, nextIndex]
      refine ⟨⟨⟨[], by simp, rfl, by simp⟩, fun _ => rfl, rfl, rfl, ?_, rfl⟩,
        Or.inr (by simp)⟩
      rintro i (hk | hfb)
      · exact Or.inl (Or.inl hk)
      · exact Or.inr ⟨rfl, (Option.some_inj.1 hfb).symm⟩
    · rw [contentTarget, hkey] at htarget
      simp only at htarget
      rw [resolveContentIndex, hkey]
      simp only [indexForKey, htarget, nextIndex]
      refine ⟨⟨⟨[], by simp, rfl, by simp⟩, ?_, rfl, rfl, ?_, rfl⟩, Or.inr (by simp)⟩
      · intro itemId
        exact Function.update_of_ne (contentPartKey_ne_toolKey hkey itemId).symm _ _
      · rintro i (⟨k, hk, hki⟩ | hfb)
        · by_cases hkk : k = key
          · rw [hkk] at hki
            simp only [Function.update_self] at hki
            exact Or.inr ⟨rfl, (Option.some_inj.1 hki).symm⟩
          · simp only [Function.update_of_ne hkk] at hki
            exact Or.inl (Or.inl ⟨k, hk, hki⟩)
        · exact Or.inl (Or.inr hfb)
  · have hresolves := resolves_resolveContentIndex ctx data
    rw [htarget] at hresolves
    generalize resolveContentIndex ctx data = r at hresolves
    cases hresolves
    exact ⟨LeavesTools.refl _, Or.inl (contentKnown_of_contentTarget htarget)⟩

theorem leavesTools_content (hpre : Preamble st st1) (data : Json) (block : ClaudeBlock)
    (delta : Option ClaudeDelta) :
    LeavesTools (contentTarget st.ctx data).isNone st
      (serveBlock (resolveContentIndex st1.ctx data).1 block delta
        ⟨(resolveContentIndex st1.ctx data).2, st1.result⟩) := by
  have htarget : contentTarget st1.ctx data = contentTarget st.ctx data := by
    obtain ⟨q, _, _, _, _, _, -, rfl⟩ := hpre
    rfl
  obtain ⟨hresolve, hindex⟩ := leavesTools_resolveContentIndex st1.ctx st1.result data
  rw [htarget] at hresolve hindex
  exact hpre.leavesTools.trans (hresolve.serve hindex block delta)

theorem leavesTools_convertResponsesEvent (name : String) (data : Json) (st : Emit ClaudeEvent)
    (h : toolEventOf name data = .other) :
    LeavesTools ((blockRequest st.ctx name data).any fun req => req.target.isNone) st
      (convertResponsesEvent env name data st) := by
  unfold convertResponsesEvent
  split
  case h_1 =>
    exact (LeavesTools.withCtx rfl rfl rfl rfl rfl rfl).trans
      (preamble_emitMessageStart env _ _).leavesTools
  -- contents start and go on under keys of their own
  case h_2 =>
    rw [onContentPartAdded, blockRequest]
    rcases data.get "part" with _ | part
    · exact LeavesTools.refl st
    · by_cases htype : part.getStr "type" = some "output_text" ∨ part.getStr "type" = some "refusal"
      · simp only [htype, if_true]
        exact leavesTools_content (preamble_emitMessageStart env none st) data (.text "") none
      · simp only [htype, if_false]
        exact LeavesTools.refl st
  case h_3 | h_4 =>
    rw [onOutputTextDelta, blockRequest]
    rcases data.getStr "delta" with _ | delta
    · exact LeavesTools.refl st
    · exact leavesTools_content (preamble_emitMessageStart env none st) data (.text "")
        (some (.textDelta delta))
  -- an end of a content closes at most its index
  case h_5 | h_6 | h_7 =>
    rw [onContentPartDone]
    rcases htarget : contentTarget st.ctx data with _ | index
    · exact LeavesTools.refl st
    · exact leavesTools_closeOpenIndex (contentKnown_of_contentTarget htarget)
  -- events of tools are no other events
  case h_8 =>
    rw [toolEventOf] at h
    rw [onOutputItemAdded, blockRequest]
    rcases hitem : data.get "item" with _ | item
    · exact LeavesTools.refl st
    · rw [hitem] at h
      by_cases htype : item.getStr "type" = some "function_call"
      · simp only [htype, if_true] at h
        split at h <;> exact absurd h (by simp)
      · simp only [htype, if_false]
        exact LeavesTools.refl st
  case h_9 =>
    rw [toolEventOf] at h
    rw [onArgumentsDelta, blockRequest]
    rcases hdelta : data.getStr "delta" with _ | delta
    · exact LeavesTools.refl st
    · rw [hdelta] at h
      rcases href : itemRef data with _ | ref
      · rw [href] at h
        exact absurd h (by simp)
      · rw [href] at h
        exact absurd h (by simp)
  case h_10 =>
    rw [toolEventOf] at h
    rcases href : itemRef data with _ | ref
    · rw [href] at h
      exact absurd h (by simp)
    · rw [href] at h
      exact absurd h (by simp)
  case h_11 =>
    rw [onReasoningDelta, blockRequest]
    rcases reasoningText data with _ | delta
    · exact LeavesTools.refl st
    · exact leavesTools_content (preamble_emitMessageStart env none st) data (.thinking "")
        (some (.thinkingDelta delta))
  case h_12 => exact absurd h (by simp [toolEventOf])
  case h_13 =>
    have hnone : blockRequest st.ctx name data = none := by
      unfold blockRequest
      split <;> first | rfl | contradiction
    rw [hnone]
    exact LeavesTools.refl st

/-! ### The invariant -/

/-- One of the first `n` indices. -/
def Taken (n : ℕ) (i : ℤ) : Prop := ∃ k : ℕ, k < n ∧ i = wrapI32 k

def toolIndex (ctx : StreamContext) (itemId : String) : Option ℤ :=
  ctx.responsesIndexByKey (toolKey itemId)

/-- The context and the trace after a history of tool events, `n` indices being taken. -/
structure ToolsTracked (history : List ToolEvent) (ctx : StreamContext)
    (t : List ClaudeEvent) (n : ℕ) : Prop where
  next : ctx.responsesNextContentIndex = wrapI32 n
  takenContent : ∀ i, ContentKnown ctx i → Taken n i
  takenTool : ∀ itemId i, toolIndex ctx itemId = some i → Taken n i
  takenStarted : ∀ i, 0 < startsAt t i → Taken n i
  takenJson : ∀ i, partialJson t i ≠ "" → Taken n i
  opened : ∀ i ∈ ctx.responsesOpenIndices, 0 < startsAt t i
  /-- only added items are registered -/
  keys : ∀ itemId i, toolIndex ctx itemId = some i →
    ∃ item ∈ toolItems history, item.itemId = itemId
  /-- content events and tools share no index -/
  apart : ∀ i, ContentKnown ctx i → ∀ itemId, toolIndex ctx itemId ≠ some i
  distinct : ∀ a b i, toolIndex ctx a = some i → toolIndex ctx b = some i → a = b
  item : ∀ item ∈ toolItems history, ∃ i, toolIndex ctx item.itemId = some i ∧
    startsAt t i = 1 ∧ partialJson t i = ownFragments history item ∧
    (.terminal ∉ history → isDone history item = false → i ∈ ctx.responsesOpenIndices)
  byItemId : ∀ itemId i, ctx.responsesToolIndexByItemId itemId = some i →
    toolIndex ctx itemId = some i
  last : .terminal ∉ history → ∀ ref ∈ lastRef history, ∀ item ∈ toolItems history,
    ref.names item = true → ctx.responsesLastToolIndex = toolIndex ctx item.itemId

theorem toolsTracked_new : ToolsTracked [] StreamContext.new [] 0 where
  next := by decide
  takenContent i h := by simp [ContentKnown, StreamContext.new] at h
  takenTool itemId i h := by simp [toolIndex, StreamContext.new] at h
  takenStarted i h := by simp at h
  takenJson i h := by simp at h
  opened i h := by simp [StreamContext.new] at h
  keys itemId i h := by simp [toolIndex, StreamContext.new] at h
  apart i h := by simp [ContentKnown, StreamContext.new] at h
  distinct a b i h := by simp [toolIndex, StreamContext.new] at h
  item item h := by simp [toolItems] at h
  byItemId itemId i h := by simp [StreamContext.new] at h
  last _ ref h := by simp [lastRef] at h

variable {history : List ToolEvent} {t : List ClaudeEvent} {n : ℕ}

theorem Taken.mono {m : ℕ} (h : Taken n i) (hnm : n ≤ m) : Taken m i := by
  obtain ⟨k, hk, hi⟩ := h
  exact ⟨k, hk.trans_le hnm, hi⟩

theorem not_taken_wrapI32 (hn : n < 4294967296) : ¬ Taken n (wrapI32 n) := by
  rintro ⟨k, hk, hi⟩
  have := wrapI32_natCast_inj hn (hk.trans hn) hi
  omega

theorem ToolsTracked.next_not_taken (h : ToolsTracked history ctx t n) (hn : n < 4294967296) :
    ¬ Taken n ctx.responsesNextContentIndex := by
  rw [h.next]
  exact not_taken_wrapI32 hn

theorem startsAt_append (q : List ClaudeEvent) (i : ℤ) :
    startsAt (t ++ q) i = startsAt t i + startsAt q i :=
  List.countP_append

theorem exists_blockIndex_of_startsAt (h : 0 < startsAt q i) : ∃ e ∈ q, e.blockIndex = some i := by
  obtain ⟨e, he, hstart⟩ := List.countP_pos_iff.1 h
  refine ⟨e, he, ?_⟩
  rcases e with _ | ⟨j, block⟩ | _ | _ | _ | _
  case contentBlockStart =>
    simp only [ClaudeEvent.isStartAt, decide_eq_true_eq] at hstart
    rw [ClaudeEvent.blockIndex, hstart]
  all_goals exact absurd hstart (by simp [ClaudeEvent.isStartAt])

/-- Steps that leave the tools alone keep the invariant. -/
theorem ToolsTracked.leaves (h : ToolsTracked history st.ctx (t ++ st.result) n)
    (hl : LeavesTools fresh st st') (hn : fresh = true → n < 4294967296) :
    ToolsTracked history st'.ctx (t ++ st'.result) (n + fresh.toNat) := by
  obtain ⟨q, hout, hopen, htouch⟩ := hl.out
  have hkey : ∀ itemId, toolIndex st'.ctx itemId = toolIndex st.ctx itemId := hl.toolKey
  -- a touched or newly registered content index is taken, and no tool has it
  have hindex : ∀ i, ContentKnown st.ctx i ∨
      (fresh = true ∧ i = st.ctx.responsesNextContentIndex) →
      Taken (n + fresh.toNat) i ∧ ∀ itemId, toolIndex st.ctx itemId ≠ some i := by
    rintro i (hi | ⟨hfresh, rfl⟩)
    · exact ⟨(h.takenContent i hi).mono (by omega), h.apart i hi⟩
    · refine ⟨⟨n, by simp [hfresh], h.next⟩, fun itemId hid => ?_⟩
      exact h.next_not_taken (hn hfresh) (h.takenTool itemId _ hid)
  have hstarted : ∀ i, 0 < startsAt q i → Taken (n + fresh.toNat) i := by
    intro i hi
    obtain ⟨e, he, hei⟩ := exists_blockIndex_of_startsAt hi
    exact (hindex i (htouch e he i hei)).1
  rw [hout, ← List.append_assoc]
  refine ⟨?next, fun i hi => (hindex i (hl.content i hi)).1, ?takenTool, ?takenStarted, ?takenJson,
    ?opened, ?keys, ?apart, ?distinct, ?item, ?byItemId, ?last⟩
  case next =>
    rw [hl.next]
    rcases fresh with _ | _
    · exact h.next
    · rw [if_pos rfl, h.next, wrapI32_wrapI32_add_one]
      rfl
  case takenTool =>
    intro itemId i hi
    rw [hkey] at hi
    exact (h.takenTool itemId i hi).mono (by omega)
  case takenStarted =>
    intro i hi
    rw [startsAt_append] at hi
    rcases Nat.eq_zero_or_pos (startsAt (t ++ st.result) i) with h0 | h0
    · exact hstarted i (by omega)
    · exact (h.takenStarted i h0).mono (by omega)
  case takenJson =>
    intro i hi
    by_cases htouched : ∃ e ∈ q, e.blockIndex = some i
    · obtain ⟨e, he, hei⟩ := htouched
      exact (hindex i (htouch e he i hei)).1
    · have hne : ∀ e ∈ q, e.blockIndex ≠ some i := fun e he hei => htouched ⟨e, he, hei⟩
      rw [(append_of_blockIndex_ne hne).2.1] at hi
      exact (h.takenJson i hi).mono (by omega)
  case opened =>
    intro i hi
    rw [startsAt_append]
    rw [hopen] at hi
    rcases mem_foldl_openStep hi with hi | hi
    · have := h.opened i hi
      omega
    · omega
  case keys =>
    intro itemId i hi
    rw [hkey] at hi
    exact h.keys itemId i hi
  case apart =>
    intro i hi itemId
    rw [hkey]
    exact (hindex i (hl.content i hi)).2 itemId
  case distinct =>
    intro a b i ha hb
    rw [hkey] at ha hb
    exact h.distinct a b i ha hb
  case item =>
    intro item hitem
    obtain ⟨i, hi, hstarts, hjson, hmem⟩ := h.item item hitem
    have hne : ∀ e ∈ q, e.blockIndex ≠ some i := fun e he hei =>
      (hindex i (htouch e he i hei)).2 item.itemId hi
    obtain ⟨hs, hj, ho⟩ := append_of_blockIndex_ne (t := t ++ st.result) hne
    refine ⟨i, (hkey _).trans hi, hs.trans hstarts, hj.trans hjson, fun hterm hdone => ?_⟩
    rw [hopen]
    exact (ho _).2 (hmem hterm hdone)
  case byItemId =>
    intro itemId i hi
    rw [hl.byItemId] at hi
    rw [hkey]
    exact h.byItemId itemId i hi
  case last =>
    intro hterm ref href item hitem hnames
    rw [hl.last, hkey]
    exact h.last hterm ref href item hitem hnames

/-! ### Quiet tool events -/

theorem startsAt_eq_zero_of_quiet (hq : ∀ e ∈ q, e.isQuiet = true) (i : ℤ) : startsAt q i = 0 := by
  rw [startsAt, List.countP_eq_zero]
  intro e he
  have hquiet := hq e he
  rcases e with _ | ⟨_, _⟩ | ⟨_, _⟩ | _ | ⟨_, _⟩ | _ <;>
    simp_all [ClaudeEvent.isQuiet, ClaudeEvent.isStartAt]

theorem partialJson_append_quiet (hq : ∀ e ∈ q, e.isQuiet = true) (i : ℤ) :
    partialJson (t ++ q) i = partialJson t i := by
  induction q using List.reverseRecOn with
  | nil => rw [List.append_nil]
  | append_singleton q e ih =>
    have he := hq e (by simp)
    rw [← List.append_assoc, partialJson_snoc, ih fun e' he' => hq e' (by simp [he'])]
    rcases e with _ | ⟨_, _⟩ | ⟨_, _⟩ | _ | ⟨_, _⟩ | _ <;>
      simp_all [ClaudeEvent.isQuiet, ClaudeEvent.partialJsonAt]

/-- A quiet step keeps the invariant, if it closes no block of an item that is not done. -/
theorem ToolsTracked.quietly {e : ToolEvent} (h : ToolsTracked history st.ctx (t ++ st.result) n)
    (hq : Quietly st st') (hitems : toolItems (history ++ [e]) = toolItems history)
    (hfragment : ∀ item, e.fragmentFor item = "")
    (hstays : .terminal ∉ history ++ [e] → ∀ item ∈ toolItems history,
      isDone (history ++ [e]) item = false → ∀ i, toolIndex st.ctx item.itemId = some i →
      i ∈ st.ctx.responsesOpenIndices → i ∈ st'.ctx.responsesOpenIndices)
    (hlast : .terminal ∉ history ++ [e] → lastRef (history ++ [e]) = lastRef history ∧
      st'.ctx.responsesLastToolIndex = st.ctx.responsesLastToolIndex) :
    ToolsTracked (history ++ [e]) st'.ctx (t ++ st'.result) n := by
  obtain ⟨q, hout, hquiet, hopen⟩ := hq.out
  -- no key moves, no block starts, and no fragment is sent
  have hkey : ∀ itemId, toolIndex st'.ctx itemId = toolIndex st.ctx itemId := fun itemId =>
    congrFun hq.byKey _
  have hcontent : ∀ i, ContentKnown st'.ctx i → ContentKnown st.ctx i := by
    rintro i (⟨key, hne, hi⟩ | hi)
    · exact Or.inl ⟨key, hne, hq.byKey ▸ hi⟩
    · exact Or.inr (hq.fallback i hi)
  have hstarts : ∀ i, startsAt (t ++ st'.result) i = startsAt (t ++ st.result) i := by
    intro i
    rw [hout, ← List.append_assoc, startsAt_append, startsAt_eq_zero_of_quiet hquiet, Nat.add_zero]
  have hterminal : .terminal ∉ history ++ [e] → .terminal ∉ history := fun hterm hmem =>
    hterm (List.mem_append_left _ hmem)
  refine ⟨hq.next.trans h.next, fun i hi => h.takenContent i (hcontent i hi), ?takenTool,
    ?takenStarted, ?takenJson, ?opened, ?keys, ?apart, ?distinct, ?item, ?byItemId, ?last⟩
  case takenTool =>
    intro itemId i hi
    exact h.takenTool itemId i (hkey itemId ▸ hi)
  case takenStarted =>
    intro i hi
    exact h.takenStarted i (hstarts i ▸ hi)
  case takenJson =>
    intro i hi
    rw [hout, ← List.append_assoc, partialJson_append_quiet hquiet] at hi
    exact h.takenJson i hi
  case opened =>
    intro i hi
    rw [hstarts]
    rw [hopen] at hi
    rcases mem_foldl_openStep hi with hi | hi
    · exact h.opened i hi
    · rw [startsAt_eq_zero_of_quiet hquiet] at hi
      exact absurd hi (by simp)
  case keys =>
    intro itemId i hi
    rw [hitems]
    exact h.keys itemId i (hkey itemId ▸ hi)
  case apart =>
    intro i hi itemId
    rw [hkey]
    exact h.apart i (hcontent i hi) itemId
  case distinct =>
    intro a b i ha hb
    rw [hkey] at ha hb
    exact h.distinct a b i ha hb
  case item =>
    intro item hitem
    rw [hitems] at hitem
    obtain ⟨i, hi, hs, hj, hmem⟩ := h.item item hitem
    refine ⟨i, (hkey _).trans hi, (hstarts i).trans hs, ?_, fun hterm hdone => ?_⟩
    · rw [hout, ← List.append_assoc, partialJson_append_quiet hquiet, hj, ownFragments_snoc,
        hfragment, String.append_empty]
    · have hnot : isDone history item = false := by
        rw [isDone_snoc, Bool.or_eq_false_iff] at hdone
        exact hdone.1
      exact hstays hterm item hitem hdone i hi (hmem (hterminal hterm) hnot)
  case byItemId =>
    intro itemId i hi
    rw [hkey]
    exact h.byItemId itemId i (hq.byItemId itemId i hi)
  case last =>
    intro hterm ref href item hitem hnames
    obtain ⟨hlastRef, hlastIndex⟩ := hlast hterm
    rw [hlastRef] at href
    rw [hitems] at hitem
    rw [hlastIndex, hkey]
    exact h.last (hterminal hterm) ref href item hitem hnames

/-! ### Added items and their fragments -/

theorem ToolsTracked.added (h : ToolsTracked history ctx t n) (hstream : ToolStream history)
    (hn : n < 4294967296) (hallow : ToolStreamAllows history (.added item)) (block : ClaudeBlock) :
    ToolsTracked (history ++ [.added item])
      { ctx with
        responsesNextContentIndex := wrapI32 (ctx.responsesNextContentIndex + 1)
        responsesIndexByKey := Function.update ctx.responsesIndexByKey (toolKey item.itemId)
          (some ctx.responsesNextContentIndex)
        responsesToolIndexByItemId := Function.update ctx.responsesToolIndexByItemId item.itemId
          (some ctx.responsesNextContentIndex)
        responsesLastToolIndex := some ctx.responsesNextContentIndex
        responsesOpenIndices := insert ctx.responsesNextContentIndex ctx.responsesOpenIndices }
      (t ++ [.contentBlockStart ctx.responsesNextContentIndex block]) (n + 1) := by
  obtain ⟨hterminal, hnew⟩ := hallow
  have hfresh := h.next_not_taken hn
  -- the block of the new item gets the next index, which no event has used
  have htaken : Taken (n + 1) ctx.responsesNextContentIndex := ⟨n, by omega, h.next⟩
  -- the new item's key is not registered, so the others keep theirs
  have hself : ∀ ctx' : StreamContext, ctx'.responsesIndexByKey = Function.update
      ctx.responsesIndexByKey (toolKey item.itemId) (some ctx.responsesNextContentIndex) →
      ∀ itemId, toolIndex ctx' itemId = if itemId = item.itemId then
        some ctx.responsesNextContentIndex else toolIndex ctx itemId := by
    intro ctx' hctx' itemId
    rw [toolIndex, hctx']
    by_cases hid : itemId = item.itemId
    · rw [hid, Function.update_self, if_pos rfl]
    · rw [if_neg hid, Function.update_of_ne fun hk => hid (toolKey_injective hk), toolIndex]
  have hother : ∀ item' ∈ toolItems history, item'.itemId ≠ item.itemId := fun item' hitem' =>
    (hnew item' hitem').1
  -- and no content has the key of a tool, so contents keep their indices
  have hcontent : ∀ ctx' : StreamContext, ctx'.responsesIndexByKey = Function.update
      ctx.responsesIndexByKey (toolKey item.itemId) (some ctx.responsesNextContentIndex) →
      ctx'.responsesFallbackOpenIndex = ctx.responsesFallbackOpenIndex →
      ∀ i, ContentKnown ctx' i → ContentKnown ctx i := by
    intro ctx' hctx' hfb' i hi
    rcases hi with ⟨key, hne, hi⟩ | hi
    · rw [hctx', Function.update_of_ne (hne item.itemId)] at hi
      exact Or.inl ⟨key, hne, hi⟩
    · exact Or.inr (hfb' ▸ hi)
  refine ⟨?next, fun i hi => ?takenContent, ?takenTool, ?takenStarted, ?takenJson, ?opened, ?keys,
    ?apart, ?distinct, ?item, ?byItemId, ?last⟩
  case next =>
    simp only [h.next, wrapI32_wrapI32_add_one]
    rfl
  case takenContent =>
    exact (h.takenContent i (hcontent _ (by rfl) (by rfl) i hi)).mono (by omega)
  case takenTool =>
    intro itemId i hi
    rw [hself _ (by rfl)] at hi
    split_ifs at hi
    · exact Option.some_inj.1 hi ▸ htaken
    · exact (h.takenTool itemId i hi).mono (by omega)
  case takenStarted =>
    intro i hi
    rw [startsAt_snoc] at hi
    by_cases hnext : ctx.responsesNextContentIndex = i
    · exact hnext ▸ htaken
    · simp only [ClaudeEvent.isStartAt, hnext, decide_false, Bool.false_eq_true, if_false] at hi
      exact (h.takenStarted i hi).mono (by omega)
  case takenJson =>
    intro i hi
    have heq : partialJson (t ++ [.contentBlockStart ctx.responsesNextContentIndex block]) i
        = partialJson t i := by
      rw [partialJson_snoc]
      exact String.append_empty
    rw [heq] at hi
    exact (h.takenJson i hi).mono (by omega)
  case opened =>
    intro i hi
    rw [startsAt_snoc]
    rcases Finset.mem_insert.1 hi with rfl | hi
    · simp [ClaudeEvent.isStartAt]
    · have := h.opened i hi
      omega
  case keys =>
    intro itemId i hi
    rw [toolItems_snoc]
    rw [hself _ (by rfl)] at hi
    split_ifs at hi with hid
    · exact ⟨item, by simp, hid.symm⟩
    · obtain ⟨item', hitem', hid'⟩ := h.keys itemId i hi
      exact ⟨item', List.mem_append_left _ hitem', hid'⟩
  case apart =>
    -- a content cannot have the index of the new item, since that one is fresh
    intro i hi itemId
    have hi := hcontent _ (by rfl) (by rfl) i hi
    rw [hself _ (by rfl)]
    split_ifs
    · intro heq
      exact hfresh (Option.some_inj.1 heq ▸ h.takenContent i hi)
    · exact h.apart i hi itemId
  case distinct =>
    intro a b i ha hb
    rw [hself _ (by rfl)] at ha hb
    split_ifs at ha hb with ha' hb' hb'
    · rw [ha', hb']
    · exact absurd (Option.some_inj.1 ha ▸ h.takenTool b i hb) hfresh
    · exact absurd (Option.some_inj.1 hb ▸ h.takenTool a i ha) hfresh
    · exact h.distinct a b i ha hb
  case item =>
    intro item' hitem'
    rw [toolItems_snoc] at hitem'
    rcases List.mem_append.1 hitem' with hitem' | hitem'
    · -- an item of the history: the new block is not its block
      obtain ⟨i, hi, hs, hj, hmem⟩ := h.item item' hitem'
      have hne : ctx.responsesNextContentIndex ≠ i := fun heq =>
        hfresh (heq ▸ h.takenTool _ i hi)
      refine ⟨i, ?_, ?_, ?_, fun _ hdone => ?_⟩
      · rw [hself _ (by rfl), if_neg (hother item' hitem')]
        exact hi
      · rw [startsAt_snoc, hs]
        simp [ClaudeEvent.isStartAt, hne]
      · rw [partialJson_snoc, ownFragments_snoc, hj]
        rfl
      · rw [isDone_snoc, Bool.or_eq_false_iff] at hdone
        exact Finset.mem_insert_of_mem (hmem hterminal hdone.1)
    · -- the new item: nothing was sent to its block before
      obtain rfl := List.mem_singleton.1 hitem'
      have hzero : startsAt t ctx.responsesNextContentIndex = 0 := by
        rcases Nat.eq_zero_or_pos (startsAt t ctx.responsesNextContentIndex) with h0 | h0
        · exact h0
        · exact absurd (h.takenStarted _ h0) hfresh
      refine ⟨ctx.responsesNextContentIndex, ?_, ?_, ?_, fun _ _ => Finset.mem_insert_self _ _⟩
      · rw [hself _ (by rfl), if_pos rfl]
      · rw [startsAt_snoc, hzero]
        simp [ClaudeEvent.isStartAt]
      · have hempty : partialJson t ctx.responsesNextContentIndex = "" := by
          by_contra hne
          exact hfresh (h.takenJson _ hne)
        rw [partialJson_snoc, ownFragments_snoc, hempty, hstream.ownFragments_of_new hnew]
        rfl
  case byItemId =>
    intro itemId i hi
    rw [hself _ (by rfl)]
    split_ifs with hid
    · simp only [hid, Function.update_self] at hi
      exact hi
    · simp only [Function.update_of_ne hid] at hi
      exact h.byItemId itemId i hi
  case last =>
    -- the event names the new item by its id
    intro _ ref href item' hitem' hnames
    rw [lastRef_snoc] at href
    obtain rfl : ItemRef.byId item.itemId = ref := Option.some_inj.1 href
    simp only [ItemRef.names, decide_eq_true_eq] at hnames
    rw [hself _ (by rfl), if_pos hnames.symm]

theorem ToolsTracked.delta (h : ToolsTracked history ctx t n) (hstream : ToolStream history)
    (hitem : item ∈ toolItems history) (hnames : ref.names item = true)
    (hi : toolIndex ctx item.itemId = some i) (fragment : String) :
    ToolsTracked (history ++ [.delta ref fragment]) { ctx with responsesLastToolIndex := some i }
      (t ++ [.contentBlockDelta i (.inputJsonDelta fragment)]) n := by
  have hitems : toolItems (history ++ [.delta ref fragment]) = toolItems history := by
    rw [toolItems_snoc, List.append_nil]
  refine ⟨h.next, h.takenContent, h.takenTool, ?takenStarted, ?takenJson, ?opened, ?keys, h.apart,
    h.distinct, ?item, h.byItemId, ?last⟩
  case takenStarted =>
    intro j hj
    rw [startsAt_snoc] at hj
    exact h.takenStarted j hj
  case takenJson =>
    intro j hj
    rw [partialJson_snoc, ClaudeEvent.partialJsonAt] at hj
    by_cases hij : i = j
    · exact hij ▸ h.takenTool _ i hi
    · rw [if_neg hij, String.append_empty] at hj
      exact h.takenJson j hj
  case opened =>
    intro j hj
    rw [startsAt_snoc]
    exact h.opened j hj
  case keys =>
    rw [hitems]
    exact h.keys
  case item =>
    intro item' hitem'
    rw [hitems] at hitem'
    obtain ⟨j, hj, hs, hjson, hmem⟩ := h.item item' hitem'
    refine ⟨j, hj, ?_, ?_, fun hterm hdone => hmem ?_ ?_⟩
    · rw [startsAt_snoc, hs]
      rfl
    · rw [partialJson_snoc, ownFragments_snoc, hjson, ClaudeEvent.partialJsonAt,
        ToolEvent.fragmentFor]
      -- both sides get the fragment exactly when `item'` is `item`
      by_cases heq : item' = item
      · subst heq
        rw [Option.some_inj.1 (hi.symm.trans hj), if_pos rfl, if_pos hnames]
      · have hij : i ≠ j := by
          rintro rfl
          exact heq (hstream.item_unique _ hitem' _ hitem (Or.inl (h.distinct _ _ _ hj hi)))
        have hnot : ¬ ref.names item' = true := fun hnames' =>
          heq (hstream.names_unique hitem' hitem hnames' hnames)
        rw [if_neg hij, if_neg hnot]
    · exact fun hmem => hterm (List.mem_append_left _ hmem)
    · rw [isDone_snoc, Bool.or_eq_false_iff] at hdone
      exact hdone.1
  case last =>
    intro _ ref' href' item' hitem' hnames'
    rw [lastRef_snoc] at href'
    rw [hitems] at hitem'
    obtain rfl : ref = ref' := Option.some_inj.1 href'
    rw [hstream.names_unique hitem' hitem hnames' hnames]
    exact hi.symm

/-! ### One upstream block -/

theorem toolItemKeyFromEvent_of_itemRef (h : itemRef data = some ref) :
    toolItemKeyFromEvent data = some (toolKey (match ref with
      | .byId itemId => itemId
      | .byOutput outputIndex => "out:" ++ toString outputIndex)) := by
  rw [itemRef] at h
  rw [toolItemKeyFromEvent]
  rcases hid : data.getStr "item_id" with _ | itemId
  · rw [hid] at h
    obtain ⟨outputIndex, hout, rfl⟩ := Option.map_eq_some_iff.1 h
    simp only [hout, toolKey]
    rw [← String.append_assoc]
    rfl
  · rw [hid] at h
    cases h
    rfl

theorem ToolsTracked.toolIndexOfEvent_eq (h : ToolsTracked history ctx t n)
    (hterminal : .terminal ∉ history) (href : itemRef data = some ref) (hfinds : ref.Finds history)
    (hitem : item ∈ toolItems history) (hnames : ref.names item = true) :
    toolIndexOfEvent ctx data = toolIndex ctx item.itemId := by
  obtain ⟨i, hi, -⟩ := h.item item hitem
  have hkey := toolItemKeyFromEvent_of_itemRef href
  rw [toolIndexOfEvent, hkey, hi]
  rw [itemRef] at href
  rcases hid : data.getStr "item_id" with _ | itemId
  · rw [hid] at href
    obtain ⟨outputIndex, -, rfl⟩ := Option.map_eq_some_iff.1 href
    simp only [ItemRef.names, decide_eq_true_eq] at hnames
    simp only [Option.bind_some, Option.bind_none]
    rcases hfinds item hitem hnames.symm with hout | ⟨hno, ref', href', hnames'⟩
    · have hreg : ctx.responsesIndexByKey (toolKey ("out:" ++ toString outputIndex)) = some i := by
        rw [← hout]
        exact hi
      rw [hreg]
      rfl
    · -- the key was never registered: the last tool index decides
      have hnone : ctx.responsesIndexByKey (toolKey ("out:" ++ toString outputIndex)) = none := by
        rcases hreg : ctx.responsesIndexByKey (toolKey ("out:" ++ toString outputIndex)) with _ | j
        · rfl
        · obtain ⟨item', hitem', hid'⟩ := h.keys _ j hreg
          exact absurd hid' (hno item' hitem')
      rw [hnone, h.last hterminal ref' href' item hitem hnames', hi]
      rfl
  · rw [hid] at href
    cases href
    simp only [ItemRef.names, decide_eq_true_eq] at hnames
    simp only [Option.bind_some]
    rw [hnames]
    rcases hby : ctx.responsesToolIndexByItemId item.itemId with _ | j
    · have hreg : ctx.responsesIndexByKey (toolKey item.itemId) = some i := hi
      rw [hreg]
      rfl
    · have hj := h.byItemId _ j hby
      rw [hi] at hj
      rw [hj]
      rfl

structure ToolStep (history : List ToolEvent) (e : ToolEvent) (st st' : Emit ClaudeEvent)
    (t : List ClaudeEvent) (n : ℕ) : Prop where
  tracked : ToolsTracked (history ++ [e]) st'.ctx (t ++ st'.result) n
  keeps : ∀ itemId i, toolIndex st.ctx itemId = some i → toolIndex st'.ctx itemId = some i
  starts : ∀ item, e = .added item → ∃ i id name, toolIndex st'.ctx item.itemId = some i ∧
    .contentBlockStart i (.toolUse id name none) ∈ st'.result
  sends : ∀ ref fragment item, e = .delta ref fragment → item ∈ toolItems history →
    ref.names item = true → ∃ i, toolIndex st.ctx item.itemId = some i ∧
      .contentBlockDelta i (.inputJsonDelta fragment) ∈ st'.result

theorem ToolsTracked.snoc_other (h : ToolsTracked history ctx t n) :
    ToolsTracked (history ++ [.other]) ctx t n := by
  have hst : ToolsTracked history (Emit.mk ctx [] : Emit ClaudeEvent).ctx (t ++ []) n := by
    rwa [List.append_nil]
  have h' := hst.quietly (e := .other) (Quietly.refl (Emit.mk ctx []))
    (by rw [toolItems_snoc, List.append_nil]) (fun _ => rfl) (fun _ _ _ _ _ _ hmem => hmem)
    (fun _ => ⟨by rw [lastRef_snoc], rfl⟩)
  rwa [List.append_nil] at h'

theorem toolStep_of_leavesTools (h : ToolsTracked history st.ctx (t ++ st.result) n)
    (hl : LeavesTools fresh st st') (hn : fresh = true → n < 4294967296) :
    ToolStep history .other st st' t (n + fresh.toNat) where
  tracked := (h.leaves hl hn).snoc_other
  keeps itemId i hi := (hl.toolKey itemId).trans hi
  starts item heq := by simp at heq
  sends ref fragment item heq := by simp at heq

theorem toolStep_of_terminal (h : ToolsTracked history st.ctx (t ++ st.result) n)
    (hq : Quietly st st') :
    ToolStep history .terminal st st' t n where
  tracked := by
    have hterm : .terminal ∈ history ++ [.terminal] := by simp
    refine h.quietly hq (by rw [toolItems_snoc, List.append_nil]) (fun _ => rfl) ?_ ?_
    · exact fun hnot => absurd hterm hnot
    · exact fun hnot => absurd hterm hnot
  keeps itemId i hi := by rw [toolIndex, hq.byKey]; exact hi
  starts item heq := by simp at heq
  sends ref fragment item heq := by simp at heq

theorem ToolsTracked.preamble (h : ToolsTracked history st.ctx (t ++ st.result) n)
    (hpre : Preamble st st1) : ToolsTracked history st1.ctx (t ++ st1.result) n :=
  h.leaves hpre.leavesTools fun hfalse => absurd hfalse (by simp)

theorem toolIndex_preamble (hpre : Preamble st st1) (itemId : String) :
    toolIndex st1.ctx itemId = toolIndex st.ctx itemId :=
  hpre.leavesTools.toolKey itemId

theorem toolStep_onOutputItemAdded {jsonItem : Json}
    (h : ToolsTracked history st.ctx (t ++ st.result) n) (hstream : ToolStream history)
    (hallow : ToolStreamAllows history (.added item)) (hn : n < 4294967296)
    (hitem : data.get "item" = some jsonItem)
    (htype : jsonItem.getStr "type" = some "function_call")
    (hid : jsonItem.getStr "id" = some item.itemId) :
    ToolStep history (.added item) st (onOutputItemAdded env data st) t (n + 1) := by
  have hpre := preamble_hasToolUse env none st
  rw [onOutputItemAdded, hitem]
  simp only [htype, if_true]
  generalize emitMessageStartIfNeeded env none (st.withCtx setHasToolUse) = st1 at hpre ⊢
  have h1 := h.preamble hpre
  -- the key is new, and so is the index
  have hnone : st1.ctx.responsesIndexByKey (toolKey item.itemId) = none := by
    rcases hreg : st1.ctx.responsesIndexByKey (toolKey item.itemId) with _ | i
    · rfl
    · obtain ⟨item', hitem', hid'⟩ := h1.keys _ i hreg
      exact absurd hid' (hallow.2 item' hitem').1
  have hclosed : st1.ctx.responsesNextContentIndex ∉ st1.ctx.responsesOpenIndices := fun hmem =>
    h1.next_not_taken hn (h1.takenStarted _ (h1.opened _ hmem))
  have hkey : toolItemKeyFromAdded data jsonItem = some (toolKey item.itemId) := by
    rw [toolItemKeyFromAdded, hid]
    rfl
  have hitemId : addedItemId data jsonItem = some item.itemId := by
    rw [addedItemId, hid]
    rfl
  rw [resolveAddedIndex, hkey, hitemId]
  simp only [indexForKey, hnone, nextIndex, setToolIndex, setLastToolIndex, startUnlessOpen,
    hclosed, if_false]
  refine ⟨?_, ?_, ?_, ?_⟩
  · have hadded := h1.added hstream hn hallow (addedToolUse jsonItem)
    rw [List.append_assoc] at hadded
    exact hadded
  · intro itemId i hi
    have hne : itemId ≠ item.itemId := by
      rintro rfl
      rw [← toolIndex_preamble hpre, toolIndex, hnone] at hi
      exact absurd hi (by simp)
    rw [← toolIndex_preamble hpre] at hi
    rw [toolIndex]
    simp only [Emit.withCtx_ctx, Emit.push_ctx]
    rw [Function.update_of_ne fun hk => hne (toolKey_injective hk)]
    exact hi
  · intro item' heq
    obtain rfl := ToolEvent.added.inj heq
    refine ⟨st1.ctx.responsesNextContentIndex, _, _, ?_, List.mem_append_right _ (by
      exact List.mem_singleton_self _)⟩
    rw [toolIndex]
    simp only [Emit.withCtx_ctx, Emit.push_ctx, Function.update_self]
  · intro ref fragment item' heq
    exact absurd heq (by simp)

theorem toolStep_onArgumentsDelta {fragment : String}
    (h : ToolsTracked history st.ctx (t ++ st.result) n) (hstream : ToolStream history)
    (hallow : ToolStreamAllows history (.delta ref fragment)) (hfinds : ref.Finds history)
    (href : itemRef data = some ref) (hdelta : data.getStr "delta" = some fragment) :
    ToolStep history (.delta ref fragment) st (onArgumentsDelta env data st) t n := by
  have hpre := preamble_emitMessageStart env none st
  rw [onArgumentsDelta, hdelta]
  simp only
  generalize emitMessageStartIfNeeded env none st = st1 at hpre ⊢
  have h1 := h.preamble hpre
  obtain ⟨hterminal, item, hitem, hnames, hnotdone⟩ := hallow
  obtain ⟨i, hi, -, -, hmem⟩ := h1.item item hitem
  have hopen := hmem hterminal hnotdone
  have hindex : resolveArgumentsIndex st1.ctx data = (i, st1.ctx) := by
    rw [resolveArgumentsIndex, h1.toolIndexOfEvent_eq hterminal href hfinds hitem hnames, hi]
  rw [hindex]
  have hopen' : i ∈ (setLastToolIndex i st1.ctx).responsesOpenIndices := hopen
  simp only [startUnlessOpen, hopen', if_true]
  refine ⟨?_, ?_, ?_, ?_⟩
  · have hd := h1.delta hstream hitem hnames hi fragment
    rw [List.append_assoc] at hd
    exact hd
  · intro itemId j hj
    rw [← toolIndex_preamble hpre] at hj
    exact hj
  · intro item' heq
    exact absurd heq (by simp)
  · intro ref' fragment' item' heq hitem' hnames'
    obtain ⟨rfl, rfl⟩ := ToolEvent.delta.inj heq
    obtain rfl := hstream.names_unique hitem' hitem hnames' hnames
    refine ⟨i, (toolIndex_preamble hpre _).symm.trans hi, ?_⟩
    rw [Emit.push_result]
    exact List.mem_append_right _ (List.mem_singleton_self _)

theorem toolStep_onArgumentsDone (h : ToolsTracked history st.ctx (t ++ st.result) n)
    (hstream : ToolStream history) (hallow : ToolStreamAllows history (.done ref))
    (hfinds : ref.Finds history) (href : itemRef data = some ref) :
    ToolStep history (.done ref) st (onArgumentsDone data st) t n := by
  have hquiet := quietly_onArgumentsDone data st
  obtain ⟨hterminal, item, hitem, hnames, -⟩ := hallow
  obtain ⟨i, hi, -⟩ := h.item item hitem
  have hindex : toolIndexOfEvent st.ctx data = some i := by
    rw [h.toolIndexOfEvent_eq hterminal href hfinds hitem hnames, hi]
  have heq : onArgumentsDone data st
      = (closeOpenIndex st i).withCtx (removeToolIndex (data.getStr "item_id")) := by
    rw [onArgumentsDone, hindex]
  -- only the block of the item is closed, and the last tool index stays
  have hafter : (onArgumentsDone data st).ctx.responsesLastToolIndex
        = st.ctx.responsesLastToolIndex ∧
      ∀ j ∈ st.ctx.responsesOpenIndices, j ≠ i →
        j ∈ (onArgumentsDone data st).ctx.responsesOpenIndices := by
    rw [heq]
    have hremove : ∀ ctx : StreamContext,
        (removeToolIndex (data.getStr "item_id") ctx).responsesLastToolIndex
          = ctx.responsesLastToolIndex ∧
        (removeToolIndex (data.getStr "item_id") ctx).responsesOpenIndices
          = ctx.responsesOpenIndices := by
      intro ctx
      rcases data.getStr "item_id" with _ | itemId <;> exact ⟨rfl, rfl⟩
    rw [Emit.withCtx_ctx, (hremove _).1, (hremove _).2]
    rcases closeOpenIndex_cases st i with ⟨-, hclose⟩ | ⟨-, hclose⟩
    · rw [hclose]
      exact ⟨rfl, fun j hj _ => hj⟩
    · rw [hclose]
      exact ⟨rfl, fun j hj hji => Finset.mem_erase.2 ⟨hji, hj⟩⟩
  refine ⟨?_, ?_, ?_, ?_⟩
  · refine h.quietly hquiet (by rw [toolItems_snoc, List.append_nil]) (fun _ => rfl) ?_
      (fun _ => ⟨by rw [lastRef_snoc], hafter.1⟩)
    intro _ item' hitem' hnotdone j hj hmem
    refine hafter.2 j hmem ?_
    rintro rfl
    rw [isDone_snoc, Bool.or_eq_false_iff] at hnotdone
    have hsame := hstream.item_unique _ hitem' _ hitem (Or.inl (h.distinct _ _ _ hj hi))
    rw [hsame] at hnotdone
    exact absurd hnames (by simpa using hnotdone.2)
  · intro itemId j hj
    rw [toolIndex, hquiet.byKey]
    exact hj
  · intro item' heq'
    exact absurd heq' (by simp)
  · intro ref' fragment' item' heq'
    exact absurd heq' (by simp)

/-! ### The step lemma -/

theorem toolStep_convertResponsesEvent (name : String) (data : Json)
    (h : ToolsTracked history st.ctx (t ++ st.result) n) (hstream : ToolStream history)
    (hallow : ToolStreamAllows history (toolEventOf name data))
    (hfinds : FindsItem history (toolEventOf name data))
    (hn : (blockRequest st.ctx name data).any (fun req => req.target.isNone) = true →
      n < 4294967296) :
    ToolStep history (toolEventOf name data) st (convertResponsesEvent env name data st) t
      (n + ((blockRequest st.ctx name data).any fun req => req.target.isNone).toNat) := by
  generalize hevent : toolEventOf name data = e at hallow hfinds ⊢
  rcases e with item | ⟨ref, fragment⟩ | ref | _ | _ | _
  case added =>
    obtain ⟨rfl, jsonItem, hitem, htype, hid⟩ := eq_of_toolEventOf_added hevent
    -- the item is new, so its key is not registered
    have htakes : (blockRequest st.ctx "response.output_item.added" data).any
        (fun req => req.target.isNone) = true := by
      have hnone : st.ctx.responsesIndexByKey (toolKey item.itemId) = none := by
        rcases hreg : st.ctx.responsesIndexByKey (toolKey item.itemId) with _ | i
        · rfl
        · obtain ⟨item', hitem', hid'⟩ := h.keys _ i hreg
          exact absurd hid' (hallow.2 item' hitem').1
      rw [blockRequest, hitem]
      simp only [htype, if_true, Option.any_some, addedTarget, toolItemKeyFromAdded, hid,
        Option.bind_some]
      exact Option.isNone_iff_eq_none.2 hnone
    rw [htakes]
    exact toolStep_onOutputItemAdded env h hstream hallow (hn htakes) hitem htype hid
  case delta =>
    obtain ⟨rfl, hdelta, href⟩ := eq_of_toolEventOf_delta hevent
    have htakes : (blockRequest st.ctx "response.function_call_arguments.delta" data).any
        (fun req => req.target.isNone) = false := by
      obtain ⟨hterminal, item, hitem, hnames, -⟩ := hallow
      obtain ⟨i, hi, -⟩ := h.item item hitem
      rw [blockRequest, hdelta]
      simp only [Option.map_some, Option.any_some]
      rw [h.toolIndexOfEvent_eq hterminal href hfinds hitem hnames, hi]
      rfl
    rw [htakes]
    exact toolStep_onArgumentsDelta env h hstream hallow hfinds href hdelta
  case done =>
    obtain ⟨rfl, href⟩ := eq_of_toolEventOf_done hevent
    exact toolStep_onArgumentsDone h hstream hallow hfinds href
  case unidentified => exact hallow.elim
  case terminal =>
    obtain rfl := eq_of_toolEventOf_terminal hevent
    exact toolStep_of_terminal h (quietly_onCompleted env data st)
  case other =>
    exact toolStep_of_leavesTools h (leavesTools_convertResponsesEvent env name data st hevent) hn

end AiOpenRouter
