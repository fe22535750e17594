/-
What the Responses → Claude stream converter makes of a response stream.

`AnswerRun` is the client's view of a running answer: its blocks in order, which
content is open and which was started, whether a tool was used, and the report of
the end.  `AnswerRun.next` is what an event of a response stream does to it.

* `leads_next`: the converter does to the assembled message what `next` says;
* `StreamedResponse.answerRun`: the events of a response give the blocks of its
  items one after another;
* `assemble_responsesStream`: so does the converter, on every stream of it.
-/
import AiOpenRouter.ClaudeAssembly
import AiOpenRouter.Requests
import AiOpenRouter.ResponsesStream
import AiOpenRouter.ResponsesToClaude

namespace AiOpenRouter

open Trace

/-! ### Keys -/

/-- A content of a response that has a block of its own. -/
inductive ContentKey where
  | part (itemId : String) (contentIndex : ℕ)
  | tool (itemId : String)
  deriving DecidableEq

/-- The key under which the converter registers a content. -/
def ContentKey.text : ContentKey → String
  | part itemId contentIndex => "part:" ++ itemId ++ ":" ++ toString (contentIndex : ℤ)
  | tool itemId => "tool:" ++ itemId

def PartPlace.key (place : PartPlace) : ContentKey := .part place.itemId place.contentIndex

theorem toList_toString_natCast (n : ℕ) : (toString (n : ℤ)).toList = Nat.toDigits 10 n := by
  show n.repr.toList = _
  rw [Nat.toList_repr]

theorem colon_notMem_digits (n : ℕ) : ':' ∉ (toString (n : ℤ)).toList := by
  rw [toList_toString_natCast]
  intro h
  have hdigit := Nat.isDigit_of_mem_toDigits (by decide) (by decide) h
  exact absurd hdigit (by decide)

theorem append_colon_inj {a b c d : List Char} (hb : ':' ∉ b) (hd : ':' ∉ d)
    (h : a ++ ':' :: b = c ++ ':' :: d) : a = c ∧ b = d := by
  rcases List.append_eq_append_iff.1 h with ⟨between, rfl, hbetween⟩ | ⟨between, rfl, hbetween⟩
  · cases between with
    | nil => exact ⟨(List.append_nil a).symm, by simpa using hbetween⟩
    | cons first rest =>
      obtain ⟨-, rfl⟩ : ':' = first ∧ b = rest ++ ':' :: d := by simpa using hbetween
      exact absurd (by simp) hb
  · cases between with
    | nil => exact ⟨List.append_nil c, by simpa using hbetween.symm⟩
    | cons first rest =>
      obtain ⟨-, rfl⟩ : ':' = first ∧ d = rest ++ ':' :: b := by simpa using hbetween
      exact absurd (by simp) hd

theorem ContentKey.text_injective : Function.Injective ContentKey.text := by
  intro key key' h
  have hlist := congrArg String.toList h
  cases key with
  | part itemId contentIndex =>
    cases key' with
    | part itemId' contentIndex' =>
      have hcolon : ":".toList = [':'] := rfl
      simp only [text, String.toList_append, List.append_assoc, hcolon, List.singleton_append,
        List.append_cancel_left_eq] at hlist
      obtain ⟨hid, hdigits⟩ := append_colon_inj (colon_notMem_digits contentIndex)
        (colon_notMem_digits contentIndex') hlist
      rw [toList_toString_natCast, toList_toString_natCast] at hdigits
      have hindex := congrArg (fun digits => Nat.ofDigitChars 10 digits 0) hdigits
      rw [String.toList_inj] at hid
      rw [hid, show contentIndex = contentIndex' by simpa using hindex]
    | tool itemId' =>
      have hhead := congrArg List.head? hlist
      simp [text] at hhead
  | tool itemId =>
    cases key' with
    | part itemId' contentIndex' =>
      have hhead := congrArg List.head? hlist
      simp [text] at hhead
    | tool itemId' =>
      simp only [text, String.toList_append, List.append_cancel_left_eq, String.toList_inj] at hlist
      rw [hlist]

/-! ### The client's view -/

/-- A running answer: its blocks, the content that is open, the contents that were started,
whether a tool was used, and the stop reason and the usage at the end. -/
structure AnswerRun where
  started : Bool := false
  contents : List AssembledBlock := []
  opened : Option ContentKey := none
  seen : List ContentKey := []
  hasToolUse : Bool := false
  report : Option (String × Json) := none

namespace AnswerRun

def start (key : ContentKey) (block : AssembledBlock) (s : AnswerRun) : Option AnswerRun :=
  if s.started = true ∧ s.opened = none ∧ key ∉ s.seen then
    some { s with contents := s.contents ++ [block], opened := some key, seen := key :: s.seen }
  else none

def extend (key : ContentKey) (delta : ClaudeDelta) (s : AnswerRun) : Option AnswerRun :=
  if s.started = true ∧ s.opened = some key then
    some { s with contents := s.contents.dropLast ++
                    (s.contents.getLast?.map (AssembledBlock.extend delta)).toList }
  else none

def close (key : ContentKey) (s : AnswerRun) : Option AnswerRun :=
  if s.opened = none ∨ s.opened = some key then some { s with opened := none } else none

/-- The end of the answer. -/
def finish (object : Json) (s : AnswerRun) : Option AnswerRun :=
  let stopReason := mapResponsesStopReason (object.getStr "status") s.hasToolUse
    ((object.pointer ["incomplete_details", "reason"]).bind Json.asStr)
  let usage := buildAnthropicUsageFromResponses (object.get "usage")
  if s.started = true ∧ s.opened = none ∧ s.report = none then
    some { s with report := some (stopReason, usage) }
  else none

/-- What an event does to a running answer; none when it does not fit. -/
def next (s : AnswerRun) : ResponsesStreamEvent → Option AnswerRun
  | .created _ =>
    if s.started = false ∧ s.report = none then some { s with started := true } else none
  | .functionCallAdded _ id callId name =>
    start (.tool id) (.toolUse callId name "") { s with hasToolUse := true }
  | .partAdded _ place => start place.key (.text "") s
  | .partDelta _ place delta => extend place.key (.textDelta delta) s
  | .refusalDone place | .partDone _ place | .reasoningDone place => close place.key s
  | .reasoningDelta place ⟨false, text⟩ =>
    if s.opened = some place.key then extend place.key (.thinkingDelta text) s
    else (start place.key (.thinking "") s).bind (extend place.key (.thinkingDelta text))
  | .argumentsDelta _ id delta => extend (.tool id) (.inputJsonDelta delta) s
  | .argumentsDone _ id => close (.tool id) s
  | .finished true object => finish object s
  | _ => some s

end AnswerRun

def OpenAt (ctx : StreamContext) (msg : AssembledMessage) : Option ContentKey → Prop
  | none => ctx.responsesOpenIndices = ∅
  | some key => ∃ index block rest, ctx.responsesIndexByKey key.text = some index ∧
      ctx.responsesOpenIndices = {index} ∧ msg.blocks = (index, block) :: rest ∧
      ∀ itemId, key = .tool itemId → ctx.responsesToolIndexByItemId itemId = some index

def startUsage : Json := .obj [("input_tokens", .int 0), ("output_tokens", .int 0)]

structure Shows (ctx : StreamContext) (msg : AssembledMessage) (s : AnswerRun) : Prop where
  started : ctx.messageStartSent = s.started
  contents : msg.contents = s.contents
  opened : OpenAt ctx msg s.opened
  unseen : ∀ key ∉ s.seen, ctx.responsesIndexByKey key.text = none
  hasToolUse : ctx.responsesHasToolUse = s.hasToolUse
  finished : ctx.finishReasonSent = s.report.isSome
  stopReason : msg.stopReason = s.report.map Prod.fst
  usage : ∀ key, msg.usage key =
    match s.report with
    | some report => report.2.get key
    | none => if s.started then startUsage.get key else none

/-! ### The steps of the converter -/

variable {s s' : AnswerRun} {data : Json} {env : Env} {place : PartPlace} {id : String}
  {block : ClaudeBlock} {ctx : StreamContext} {delta : ClaudeDelta} {st : Emit ClaudeEvent}

theorem Shows.start {ctx' : StreamContext} {msg : AssembledMessage} (h : Shows ctx msg s)
    {key : ContentKey} (hnext : s.start key block.assembled = some s') {index : ℤ}
    (hstarted : ctx'.messageStartSent = ctx.messageStartSent)
    (hfinished : ctx'.finishReasonSent = ctx.finishReasonSent)
    (htool : ctx'.responsesHasToolUse = ctx.responsesHasToolUse)
    (hkeys : ctx'.responsesIndexByKey =
      Function.update ctx.responsesIndexByKey key.text (some index))
    (hopen : ctx'.responsesOpenIndices = insert index ctx.responsesOpenIndices)
    (hitem : ∀ itemId, key = .tool itemId → ctx'.responsesToolIndexByItemId itemId = some index) :
    Shows ctx' (assembleEvent msg (.contentBlockStart index block)) s' := by
  unfold AnswerRun.start at hnext
  split_ifs at hnext with hfits
  obtain ⟨-, hnone, hfresh⟩ := hfits
  cases hnext
  have hempty : ctx.responsesOpenIndices = ∅ := by
    have hopened := h.opened
    rwa [hnone] at hopened
  refine ⟨hstarted.trans h.started, ?_, ?_, ?_, htool.trans h.hasToolUse,
    hfinished.trans h.finished, h.stopReason, h.usage⟩
  · rw [contents_blockStart, h.contents]
  · refine ⟨index, block.assembled, msg.blocks, ?_, ?_, rfl, hitem⟩
    · rw [hkeys, Function.update_self]
    · rw [hopen, hempty]
      rfl
  · intro key' hkey'
    obtain ⟨hne, hunseen⟩ := List.mem_cons.not.1 hkey' |> not_or.1
    rw [hkeys, Function.update_of_ne fun heq => hne (ContentKey.text_injective heq)]
    exact h.unseen key' hunseen

theorem Shows.extend {msg : AssembledMessage} (h : Shows ctx msg s) {key : ContentKey}
    (hnext : s.extend key delta = some s') {index : ℤ}
    (hindex : ctx.responsesIndexByKey key.text = some index) :
    Shows ctx (assembleEvent msg (.contentBlockDelta index delta)) s' := by
  unfold AnswerRun.extend at hnext
  split_ifs at hnext with hfits
  cases hnext
  have hopened := h.opened
  rw [hfits.2] at hopened
  obtain ⟨index', block, rest, hindex', hopen, hblocks, hitem⟩ := hopened
  obtain rfl : index = index' := Option.some_inj.1 (hindex.symm.trans hindex')
  obtain ⟨hblocks', hbefore, hafter⟩ := contents_blockDelta hblocks delta
  refine ⟨h.started, ?_, ?_, h.unseen, h.hasToolUse, h.finished, h.stopReason, h.usage⟩
  · rw [hafter, ← h.contents, hbefore]
    simp
  · dsimp only
    rw [hfits.2]
    exact ⟨index, _, _, hindex, hopen, hblocks', hitem⟩

theorem Shows.close {t : List ClaudeEvent} (h : Shows st.ctx (assemble (t ++ st.result)) s)
    (index : ℤ)
    (hindex : ∀ key, s.opened = some key → st.ctx.responsesIndexByKey key.text = some index) :
    Shows (closeOpenIndex st index).ctx (assemble (t ++ (closeOpenIndex st index).result))
      { s with opened := none } := by
  have hopened := h.opened
  rcases closeOpenIndex_cases st index with ⟨hmem, heq⟩ | ⟨hmem, heq⟩
  · have hnone : s.opened = none := by
      rw [Option.eq_none_iff_forall_ne_some]
      intro key hkey
      rw [hkey] at hopened
      obtain ⟨index', -, -, hindex', hopen, -⟩ := hopened
      rw [hindex key hkey, Option.some_inj] at hindex'
      rw [hopen, ← hindex'] at hmem
      exact hmem (Finset.mem_singleton_self index)
    rw [heq]
    exact hnone ▸ h
  · rw [heq, ← List.append_assoc, assemble_snoc]
    refine { h with opened := ?_ }
    show st.ctx.responsesOpenIndices.erase index = ∅
    cases hkey : s.opened with
    | none =>
      rw [hkey] at hopened
      have hempty : st.ctx.responsesOpenIndices = ∅ := hopened
      rw [hempty]
      rfl
    | some key =>
      rw [hkey] at hopened
      obtain ⟨index', -, -, hindex', hopen, -⟩ := hopened
      rw [hindex key hkey, Option.some_inj] at hindex'
      rw [hopen, hindex', Finset.erase_singleton]

theorem emitMessageStartIfNeeded_of_started (env : Env) (usage : Option Json)
    (h : st.ctx.messageStartSent = true) : emitMessageStartIfNeeded env usage st = st := by
  rw [emitMessageStartIfNeeded, if_pos h]

theorem contentPartKey_of_saysPlace (h : ResponsesStreamEvent.SaysPlace data place) :
    contentPartKey data = some place.key.text := by
  obtain ⟨hid, -, hindex⟩ := h
  unfold contentPartKey
  rw [hid, hindex]
  rfl

/-- A helper that goes from `st` to `st'` takes the running answer `s` to `s'`. -/
def Leads (st st' : Emit ClaudeEvent) (s s' : AnswerRun) : Prop :=
  ∀ t, Shows st.ctx (assemble (t ++ st.result)) s → Shows st'.ctx (assemble (t ++ st'.result)) s'

theorem Leads.refl (st : Emit ClaudeEvent) (s : AnswerRun) : Leads st st s s := fun _ h => h

theorem Shows.indexForKey {ctx : StreamContext} {msg : AssembledMessage} {s s' : AnswerRun}
    (h : Shows ctx msg s) {key : ContentKey} {block : AssembledBlock}
    (hnext : s.start key block = some s') :
    indexForKey ctx key.text = (ctx.responsesNextContentIndex,
        { ctx with
          responsesNextContentIndex := wrapI32 (ctx.responsesNextContentIndex + 1)
          responsesIndexByKey := Function.update ctx.responsesIndexByKey key.text
            (some ctx.responsesNextContentIndex) }) ∧
      ctx.responsesOpenIndices = ∅ ∧ ctx.messageStartSent = true := by
  unfold AnswerRun.start at hnext
  split_ifs at hnext with hfits
  obtain ⟨hstarted, hnone, hfresh⟩ := hfits
  refine ⟨?_, ?_, h.started.trans hstarted⟩
  · unfold AiOpenRouter.indexForKey
    rw [h.unseen key hfresh]
    rfl
  · have hopened := h.opened
    rwa [hnone] at hopened

theorem resolveContentIndex_of_key {key : String} (h : contentPartKey data = some key)
    (ctx : StreamContext) : resolveContentIndex ctx data = indexForKey ctx key := by
  unfold resolveContentIndex
  rw [h]

theorem leads_startContent (hplace : contentPartKey data = some place.key.text)
    (st : Emit ClaudeEvent) (hnext : s.start place.key block.assembled = some s') :
    Leads st (startUnlessOpen (resolveContentIndex st.ctx data).1 block
      { st with ctx := (resolveContentIndex st.ctx data).2 }) s s' := by
  intro t h
  obtain ⟨hindex, hempty, -⟩ := h.indexForKey hnext
  rw [resolveContentIndex_of_key hplace, hindex]
  dsimp only
  rw [startUnlessOpen, if_neg (by rw [hempty]; exact Finset.notMem_empty _), Emit.withCtx,
    Emit.push, ← List.append_assoc, assemble_snoc]
  exact h.start hnext rfl rfl rfl rfl rfl fun itemId hkey => by cases hkey

theorem leads_contentDelta (hplace : contentPartKey data = some place.key.text)
    (block : ClaudeBlock) (st : Emit ClaudeEvent) (hnext : s.extend place.key delta = some s') :
    Leads st (emitContentDelta env data block delta st) s s' := by
  intro t h
  have hfits := hnext
  unfold AnswerRun.extend at hfits
  split_ifs at hfits with hcond
  obtain ⟨hstarted, hopen⟩ := hcond
  have hopened := h.opened
  rw [hopen] at hopened
  obtain ⟨index, -, -, hindex, hindices, -, -⟩ := hopened
  have hresolve : resolveContentIndex st.ctx data = (index, st.ctx) := by
    rw [resolveContentIndex_of_key hplace, indexForKey, hindex]
  rw [emitContentDelta, emitMessageStartIfNeeded_of_started _ _ (h.started.trans hstarted),
    hresolve]
  dsimp only
  rw [startUnlessOpen, if_pos (by rw [hindices]; exact Finset.mem_singleton_self _), Emit.push,
    ← List.append_assoc, assemble_snoc]
  exact h.extend hnext hindex

theorem leads_firstDelta (hplace : contentPartKey data = some place.key.text)
    (st : Emit ClaudeEvent) {s'' : AnswerRun} (hstart : s.start place.key block.assembled = some s')
    (hextend : s'.extend place.key delta = some s'') :
    Leads st (emitContentDelta env data block delta st) s s'' := by
  intro t h
  obtain ⟨hindex, hempty, hsent⟩ := h.indexForKey hstart
  have h' := leads_startContent hplace st hstart t h
  have hcontent : emitContentDelta env data block delta st =
      (startUnlessOpen (resolveContentIndex st.ctx data).1 block
        { st with ctx := (resolveContentIndex st.ctx data).2 }).push
        (.contentBlockDelta (resolveContentIndex st.ctx data).1 delta) := by
    rw [emitContentDelta, emitMessageStartIfNeeded_of_started _ _ hsent]
  rw [hcontent, Emit.push, ← List.append_assoc, assemble_snoc]
  refine h'.extend hextend ?_
  rw [resolveContentIndex_of_key hplace, hindex]
  dsimp only
  rw [startUnlessOpen, if_neg (by rw [hempty]; exact Finset.notMem_empty _)]
  exact Function.update_self ..

theorem leads_contentDone (hplace : contentPartKey data = some place.key.text)
    (st : Emit ClaudeEvent) (hnext : s.close place.key = some s') :
    Leads st (onContentPartDone data st) s s' := by
  intro t h
  unfold AnswerRun.close at hnext
  split_ifs at hnext with hfits
  cases hnext
  have htarget : contentTarget st.ctx data = st.ctx.responsesIndexByKey place.key.text := by
    rw [contentTarget, hplace]
  rw [onContentPartDone, htarget]
  cases hindex : st.ctx.responsesIndexByKey place.key.text with
  | none =>
    have hnone : s.opened = none := by
      refine hfits.resolve_right fun hopen => ?_
      have hopened := h.opened
      rw [hopen] at hopened
      obtain ⟨index, -, -, hsome, -⟩ := hopened
      rw [hindex] at hsome
      cases hsome
    exact hnone ▸ h
  | some index =>
    refine h.close index fun key hkey => ?_
    rcases hfits with hnone | hopen
    · rw [hnone] at hkey
      cases hkey
    · rw [hopen] at hkey
      rw [← Option.some_inj.1 hkey, hindex]

theorem leads_functionCallAdded {item : Json} {callId name : String}
    (hitem : data.get "item" = some item) (htype : item.getStr "type" = some "function_call")
    (hid : item.getStr "id" = some id) (hcallId : item.getStr "call_id" = some callId)
    (hname : item.getStr "name" = some name) (st : Emit ClaudeEvent)
    (hnext : AnswerRun.start (.tool id)
      (ClaudeBlock.toolUse callId name none).assembled { s with hasToolUse := true } = some s') :
    Leads st (onOutputItemAdded env data st) s s' := by
  intro t h
  have hused : Shows (setHasToolUse st.ctx) (assemble (t ++ st.result))
      { s with hasToolUse := true } := { h with opened := h.opened, hasToolUse := rfl }
  obtain ⟨hindex, hempty, hsent⟩ := hused.indexForKey hnext
  -- the message is already started
  have hstart : emitMessageStartIfNeeded env none (st.withCtx setHasToolUse) =
      st.withCtx setHasToolUse := emitMessageStartIfNeeded_of_started _ _ hsent
  -- the item gets its index by its id
  have hresolve : resolveAddedIndex (setHasToolUse st.ctx) data item =
      indexForKey (setHasToolUse st.ctx) (ContentKey.tool id).text := by
    unfold resolveAddedIndex toolItemKeyFromAdded
    rw [hid]
    rfl
  have hblock : addedToolUse item = .toolUse callId name none := by
    obtain ⟨value, hvalue, hstr⟩ := Option.bind_eq_some_iff.1 hcallId
    unfold addedToolUse
    rw [hvalue, hname]
    show ClaudeBlock.toolUse ((Json.asStr value).getD "") _ _ = _
    rw [hstr]
    rfl
  have hregister : addedItemId data item = some id := by
    unfold addedItemId
    rw [hid]
    rfl
  rw [onOutputItemAdded, hitem]
  dsimp only
  rw [if_pos htype, hstart, Emit.withCtx_ctx, hresolve, hindex, hregister]
  dsimp only
  rw [startUnlessOpen, if_neg, Emit.withCtx, Emit.push, hblock]
  · show Shows _ (assemble (t ++ (st.result ++ _))) s'
    rw [← List.append_assoc, assemble_snoc]
    refine hused.start hnext rfl rfl rfl rfl rfl fun itemId hkey => ?_
    obtain rfl := ContentKey.tool.inj hkey
    exact Function.update_self ..
  · show _ ∉ st.ctx.responsesOpenIndices
    rw [show st.ctx.responsesOpenIndices = ∅ from hempty]
    exact Finset.notMem_empty _

theorem Shows.toolIndexOfEvent {ctx : StreamContext} {msg : AssembledMessage} {s : AnswerRun}
    (h : Shows ctx msg s) {data : Json} {id : String} (hid : data.getStr "item_id" = some id)
    (hopen : s.opened = some (.tool id)) :
    ∃ index, toolIndexOfEvent ctx data = some index ∧ index ∈ ctx.responsesOpenIndices ∧
      ctx.responsesIndexByKey (ContentKey.tool id).text = some index := by
  have hopened := h.opened
  rw [hopen] at hopened
  obtain ⟨index, -, -, hindex, hindices, -, hitem⟩ := hopened
  refine ⟨index, ?_, by rw [hindices]; exact Finset.mem_singleton_self _, hindex⟩
  unfold AiOpenRouter.toolIndexOfEvent
  rw [hid, Option.bind_some, hitem id rfl]
  rfl

theorem leads_argumentsDelta {delta : String} (hid : data.getStr "item_id" = some id)
    (hdelta : data.getStr "delta" = some delta) (st : Emit ClaudeEvent)
    (hnext : s.extend (.tool id) (.inputJsonDelta delta) = some s') :
    Leads st (onArgumentsDelta env data st) s s' := by
  intro t h
  have hfits := hnext
  unfold AnswerRun.extend at hfits
  split_ifs at hfits with hcond
  obtain ⟨hstarted, hopen⟩ := hcond
  obtain ⟨index, htarget, hmem, hindex⟩ := h.toolIndexOfEvent hid hopen
  have hresolve : resolveArgumentsIndex st.ctx data = (index, st.ctx) := by
    rw [resolveArgumentsIndex, htarget]
  rw [onArgumentsDelta, hdelta]
  dsimp only
  rw [emitMessageStartIfNeeded_of_started _ _ (h.started.trans hstarted), hresolve]
  dsimp only
  have hstart : ∀ block, startUnlessOpen index block ⟨setLastToolIndex index st.ctx, st.result⟩ =
      ⟨setLastToolIndex index st.ctx, st.result⟩ := fun block => if_pos hmem
  rw [hstart, Emit.push, ← List.append_assoc, assemble_snoc]
  have hlast : Shows (setLastToolIndex index st.ctx) (assemble (t ++ st.result)) s :=
    { h with opened := h.opened }
  exact hlast.extend hnext hindex

theorem leads_argumentsDone (hid : data.getStr "item_id" = some id) (st : Emit ClaudeEvent)
    (hnext : s.close (.tool id) = some s') : Leads st (onArgumentsDone data st) s s' := by
  intro t h
  unfold AnswerRun.close at hnext
  split_ifs at hnext with hfits
  cases hnext
  rw [onArgumentsDone]
  cases htarget : toolIndexOfEvent st.ctx data with
  | none =>
    have hnone : s.opened = none := by
      refine hfits.resolve_right fun hopen => ?_
      obtain ⟨index, hsome, -⟩ := h.toolIndexOfEvent hid hopen
      rw [htarget] at hsome
      cases hsome
    exact hnone ▸ h
  | some index =>
    have hclose := h.close index fun key hkey => by
      rcases hfits with hnone | hopen
      · rw [hnone] at hkey
        cases hkey
      · rw [hopen] at hkey
        obtain ⟨index', hsome, -, hindex⟩ := h.toolIndexOfEvent hid hopen
        rw [htarget] at hsome
        rw [← Option.some_inj.1 hkey, hindex, Option.some_inj.1 hsome]
    rw [hid]
    exact { hclose with opened := hclose.opened }

theorem buildAnthropicUsage_counts (usage : Option Json) :
    ∃ n m, (buildAnthropicUsageFromResponses usage).get "input_tokens" = some (.int n) ∧
      (buildAnthropicUsageFromResponses usage).get "output_tokens" = some (.int m) := by
  unfold buildAnthropicUsageFromResponses
  split
  · exact ⟨0, 0, rfl, rfl⟩
  · exact ⟨0, 0, rfl, rfl⟩
  · -- each of the two cache counts is set or not
    dsimp only [Json.get]
    repeat' split
    all_goals simp [List.lookup_cons]

theorem buildAnthropicUsage_or_startUsage (usage : Option Json) (key : String) :
    ((buildAnthropicUsageFromResponses usage).get key).or (startUsage.get key) =
      (buildAnthropicUsageFromResponses usage).get key := by
  obtain ⟨n, m, hn, hm⟩ := buildAnthropicUsage_counts usage
  by_cases hinput : key = "input_tokens"
  · rw [hinput, hn]
    rfl
  · by_cases houtput : key = "output_tokens"
    · rw [houtput, hm]
      rfl
    · have hnone : startUsage.get key = none := by
        simp [startUsage, Json.get, List.lookup_cons, beq_false_of_ne, hinput, houtput]
      rw [hnone, Option.or_none]

theorem leads_completed {object : Json} (hobject : data.get "response" = some object)
    (st : Emit ClaudeEvent) (hnext : s.finish object = some s') :
    Leads st (onCompleted env data st) s s' := by
  intro t h
  unfold AnswerRun.finish at hnext
  dsimp only at hnext
  split_ifs at hnext with hfits
  obtain ⟨hstarted, hnone, hreport⟩ := hfits
  cases hnext
  have hunfinished : st.ctx.finishReasonSent = false := by
    rw [h.finished, hreport]
    rfl
  have hempty : st.ctx.responsesOpenIndices = ∅ := by
    have hopened := h.opened
    rwa [hnone] at hopened
  have hclosed : closeAllOpenIndices st = st := by
    rw [closeAllOpenIndices, hempty, Finset.sort_empty]
    rfl
  have hresponse : responseObjectFromEvent data = object := by
    rw [responseObjectFromEvent, hobject]
    rfl
  rw [onCompleted, if_neg (by rw [hunfinished]; simp), hresponse]
  dsimp only
  rw [emitMessageStartIfNeeded_of_started _ _ (h.started.trans hstarted), hclosed]
  simp only [Emit.push, Emit.withCtx]
  rw [← List.append_assoc, ← List.append_assoc, assemble_snoc, assemble_snoc]
  refine ⟨h.started, h.contents, ?_, h.unseen, h.hasToolUse, rfl, ?_, ?_⟩
  · dsimp only
    rw [hnone]
    exact hempty
  · show some (mapResponsesStopReason _ st.ctx.responsesHasToolUse _) = _
    rw [h.hasToolUse]
    rfl
  · intro key
    have husage := h.usage key
    rw [hreport, hstarted] at husage
    show mergeUsage _ _ key = _
    rw [mergeUsage, husage]
    exact buildAnthropicUsage_or_startUsage _ key

theorem emitMessageStartIfNeeded_uncounted (env : Env) {usage : Option Json}
    (husage : usage = none ∨ usage = some .null) (h : st.ctx.messageStartSent = false) :
    ∃ id drawn tokens message, emitMessageStartIfNeeded env usage st =
        ⟨{ st.ctx with messageStartSent := true, messageId := id, uuidsDrawn := drawn
                       inputTokens := tokens }, st.result ++ [.messageStart message]⟩ ∧
      message.get "usage" = some startUsage := by
  have hcounts : buildAnthropicUsageFromResponses usage = startUsage := by
    rcases husage with rfl | rfl <;> rfl
  have htokens : startUsage.getI64 "input_tokens" = some 0 := rfl
  unfold emitMessageStartIfNeeded
  rw [if_neg (by rw [h]; simp), hcounts]
  dsimp only
  rw [htokens]
  by_cases hid : st.ctx.messageId = ""
  · simp only [if_pos hid]
    exact ⟨_, _, _, _, rfl, rfl⟩
  · simp only [if_neg hid]
    exact ⟨_, st.ctx.uuidsDrawn, _, _, rfl, rfl⟩

theorem leads_created {response : Json} (hresponse : data.get "response" = some response)
    (husage : response.get "usage" = none ∨ response.get "usage" = some .null)
    (st : Emit ClaudeEvent) (hnext : s.next (.created id) = some s') :
    Leads st (onCreated env data st) s s' := by
  intro t h
  simp only [AnswerRun.next] at hnext
  split_ifs at hnext with hfits
  obtain ⟨hunstarted, hreport⟩ := hfits
  cases hnext
  have hsent : (setMessageIdAndModel (response.getStr "id") (response.getStr "model")
      st.ctx).messageStartSent = false := h.started.trans hunstarted
  have hobject : responseObjectFromEvent data = response := by
    rw [responseObjectFromEvent, hresponse]
    rfl
  have hstart : (st.withCtx (setMessageIdAndModel (response.getStr "id")
      (response.getStr "model"))).ctx.messageStartSent = false := hsent
  rw [onCreated, hobject]
  obtain ⟨id', drawn, tokens, message, hemit, hmessage⟩ :=
    emitMessageStartIfNeeded_uncounted env husage hstart
  rw [hemit, Emit.withCtx_result, ← List.append_assoc, assemble_snoc]
  refine ⟨rfl, h.contents, ?_, h.unseen, h.hasToolUse, h.finished, h.stopReason, ?_⟩
  · exact h.opened
  · intro key
    have hbefore := h.usage key
    rw [hreport, hunstarted] at hbefore
    dsimp only at hbefore ⊢
    show mergeUsage _ ((message.get "usage").getD .null) key = _
    rw [mergeUsage, hbefore, hmessage, hreport, Option.getD_some]
    exact Option.or_none

def ResponsesStreamEvent.Uncounted (data : Json) : ResponsesStreamEvent → Prop
  | created _ => ∀ response, data.get "response" = some response →
      response.get "usage" = none ∨ response.get "usage" = some .null
  | _ => True

/-- An added item that is no function call changes nothing. -/
theorem leads_silentItem {item : Json} {itemType : String} (hitem : data.get "item" = some item)
    (htype : item.getStr "type" = some itemType) (hother : itemType ≠ "function_call")
    (st : Emit ClaudeEvent) : Leads st (onOutputItemAdded env data st) s s := by
  have hsame : onOutputItemAdded env data st = st := by
    rw [onOutputItemAdded, hitem]
    dsimp only
    rw [htype, if_neg fun h => hother (Option.some.inj h)]
  rw [hsame]
  exact Leads.refl _ _

theorem leads_partAdded {kind : PartKind} {place : PartPlace}
    (h : (ResponsesStreamEvent.partAdded kind place).Says data) (st : Emit ClaudeEvent)
    (hnext : s.next (.partAdded kind place) = some s') :
    Leads st (onContentPartAdded env data st) s s' := by
  obtain ⟨hplace, part, hpart, htype⟩ := h
  intro t ht
  have hstart : s.start place.key (ClaudeBlock.text "").assembled = some s' := hnext
  have hsent := (ht.indexForKey hstart).2.2
  have hkind : part.getStr "type" = some "output_text" ∨ part.getStr "type" = some "refusal" := by
    cases kind
    · exact Or.inl htype
    · exact Or.inr htype
  have hcontent : onContentPartAdded env data st =
      startUnlessOpen (resolveContentIndex st.ctx data).1 (.text "")
        { st with ctx := (resolveContentIndex st.ctx data).2 } := by
    rw [onContentPartAdded, hpart]
    dsimp only
    rw [if_pos hkind, emitMessageStartIfNeeded_of_started _ _ hsent]
  rw [hcontent]
  exact leads_startContent (contentPartKey_of_saysPlace hplace) st hstart t ht

theorem leads_partDelta {kind : PartKind} {place : PartPlace} {delta : String}
    (h : (ResponsesStreamEvent.partDelta kind place delta).Says data) (st : Emit ClaudeEvent)
    (hnext : s.next (.partDelta kind place delta) = some s') :
    Leads st (onOutputTextDelta env data st) s s' := by
  obtain ⟨hplace, hdelta⟩ := h
  have hcontent : onOutputTextDelta env data st =
      emitContentDelta env data (.text "") (.textDelta delta) st := by
    rw [onOutputTextDelta, hdelta]
  rw [hcontent]
  exact leads_contentDelta (contentPartKey_of_saysPlace hplace) (.text "") st hnext

/-- A delta of a summary changes nothing; one of the reasoning starts its content when it is the
first. -/
theorem leads_reasoningDelta {place : PartPlace} {isSummary : Bool} {text : String}
    (h : (ResponsesStreamEvent.reasoningDelta place ⟨isSummary, text⟩).Says data)
    (st : Emit ClaudeEvent) (hnext : s.next (.reasoningDelta place ⟨isSummary, text⟩) = some s') :
    Leads st (convertResponsesEvent env
      (ResponsesStreamEvent.reasoningDelta place ⟨isSummary, text⟩).eventType data st) s s' := by
  obtain ⟨hdelta, hplace⟩ := h
  cases isSummary with
  | true =>
    cases hnext
    exact Leads.refl _ _
  | false =>
    have hkey := contentPartKey_of_saysPlace (hplace rfl)
    have hreasoning : onReasoningDelta env data st =
        emitContentDelta env data (.thinking "") (.thinkingDelta text) st := by
      obtain ⟨value, hvalue, hstr⟩ := Option.bind_eq_some_iff.1 hdelta
      have htext : reasoningText data = some text := by
        rw [reasoningText, hvalue]
        exact hstr
      rw [onReasoningDelta, htext]
    show Leads st (onReasoningDelta env data st) s s'
    rw [hreasoning]
    simp only [AnswerRun.next] at hnext
    split_ifs at hnext with hopen
    · exact leads_contentDelta hkey (.thinking "") st hnext
    · obtain ⟨s'', hstart, hextend⟩ := Option.bind_eq_some_iff.1 hnext
      exact leads_firstDelta hkey st hstart hextend

/-- Events of other types are passed over. -/
theorem leads_other {eventType : String} (h : eventType ∉ ResponsesStreamEvent.knownTypes)
    (st : Emit ClaudeEvent) : Leads st (convertResponsesEvent env eventType data st) s s := by
  have hsame : convertResponsesEvent env eventType data st = st := by
    simp only [ResponsesStreamEvent.knownTypes, List.mem_cons, not_or] at h
    unfold convertResponsesEvent
    split <;> simp_all
  rw [hsame]
  exact Leads.refl _ _

/-- **The converter does what `next` says.** -/
theorem leads_next (env : Env) {e : ResponsesStreamEvent} (h : e.Says data)
    (huncounted : e.Uncounted data) (st : Emit ClaudeEvent) (hnext : s.next e = some s') :
    Leads st (convertResponsesEvent env e.eventType data st) s s' := by
  cases e with
  | created id =>
    obtain ⟨response, hresponse, -⟩ := h
    exact leads_created hresponse (huncounted response hresponse) st hnext
  -- items: only a function call starts a block
  | messageAdded outputIndex id =>
    obtain ⟨item, -, hitem, htype, -⟩ := h
    cases hnext
    exact leads_silentItem hitem htype (by decide) st
  | reasoningAdded outputIndex id =>
    obtain ⟨item, -, hitem, htype, -⟩ := h
    cases hnext
    exact leads_silentItem hitem htype (by decide) st
  | functionCallAdded outputIndex id callId name =>
    obtain ⟨item, ⟨-, hitem, htype, hid⟩, hcallId, hname⟩ := h
    exact leads_functionCallAdded hitem htype hid hcallId hname st hnext
  -- contents: texts, refusals and reasoning
  | partAdded kind place => exact leads_partAdded h st hnext
  | partDelta kind place delta =>
    cases kind
    · exact leads_partDelta h st hnext
    · exact leads_partDelta h st hnext
  | refusalDone place => exact leads_contentDone (contentPartKey_of_saysPlace h) st hnext
  | partDone kind place => exact leads_contentDone (contentPartKey_of_saysPlace h) st hnext
  | reasoningDelta place delta => exact leads_reasoningDelta h st hnext
  | reasoningDone place => exact leads_contentDone (contentPartKey_of_saysPlace h) st hnext
  -- the arguments of calls, and the end of the response
  | argumentsDelta outputIndex itemId delta =>
    obtain ⟨-, hid, hdelta⟩ := h
    exact leads_argumentsDelta hid hdelta st hnext
  | argumentsDone outputIndex itemId => exact leads_argumentsDone h.2 st hnext
  | finished completes object =>
    cases completes with
    | true => exact leads_completed h st hnext
    | false =>
      cases hnext
      exact Leads.refl _ _
  | other eventType =>
    cases hnext
    exact leads_other h st

/-! ### Streams -/

/-- A stream whose `response.created` counts no tokens yet. -/
def StartsUncounted (env : Env) (blocks : List Bytes) : Prop :=
  ∀ block ∈ blocks, ∀ data response,
    readResponsesInput env block = .event "response.created" data →
      data.get "response" = some response →
        response.get "usage" = none ∨ response.get "usage" = some .null

theorem readResponsesInput_carried {block : Bytes} {e : ResponsesStreamEvent}
    (h : e.CarriedBy env block) :
    ∃ data, readResponsesInput env block = .event e.eventType data ∧ e.Says data := by
  obtain ⟨name, text, data, -, hparse, hname, -, hdone, hdata, htype, hsays⟩ := h
  refine ⟨data, ?_, hsays⟩
  have hevent : (if name = "" then (data.getStr "type").getD "" else name) = e.eventType := by
    rw [htype, Option.getD_some]
    split_ifs with hempty
    · rfl
    · exact hname.resolve_left hempty
  rw [readResponsesInput, hparse]
  dsimp only
  rw [if_neg hdone, hdata]
  dsimp only
  rw [hevent]

theorem shows_feed {blocks : List Bytes} {es : List ResponsesStreamEvent}
    (h : List.Forall₂ (ResponsesStreamEvent.CarriedBy env) blocks es)
    (huncounted : StartsUncounted env blocks) {t : List ClaudeEvent}
    (hrun : es.foldlM AnswerRun.next s = some s') (hs : Shows ctx (assemble t) s) :
    ∃ ctx', Shows ctx'
      (assemble (t ++ (feed (openaiResponsesStreamToClaude env) ctx blocks).out)) s' := by
  induction h generalizing ctx t s with
  | nil =>
    cases hrun
    rw [feed_nil, List.append_nil]
    exact ⟨ctx, hs⟩
  | @cons block e blocks es hcarried _ ih =>
    rw [List.foldlM_cons] at hrun
    obtain ⟨s'', hnext, hrest⟩ := Option.bind_eq_some_iff.1 hrun
    obtain ⟨data, hread, hsays⟩ := readResponsesInput_carried hcarried
    have hcount : e.Uncounted data := by
      cases e with
      | created id =>
        exact fun response => huncounted block List.mem_cons_self data response hread
      | _ => trivial
    have hstep : openaiResponsesStreamToClaude env block ctx =
        .ok (convertResponsesEvent env e.eventType data (Emit.start ctx)).finish := by
      rw [openaiResponsesStreamToClaude, hread]
    have hstart : Shows (Emit.start ctx : Emit ClaudeEvent).ctx
        (assemble (t ++ (Emit.start ctx : Emit ClaudeEvent).result)) s := by
      rw [Emit.start_result, List.append_nil]
      exact hs
    have hs'' := leads_next env hsays hcount (Emit.start ctx) hnext t hstart
    obtain ⟨ctx', hctx'⟩ :=
      ih (fun block hmem => huncounted block (List.mem_cons_of_mem _ hmem)) hrest hs''
    rw [feed_cons_ok hstep]
    dsimp only
    rw [← List.append_assoc]
    exact ⟨ctx', hctx'⟩

theorem foldlM_next_filter (es : List ResponsesStreamEvent) (s : AnswerRun) :
    (es.filter ResponsesStreamEvent.isKnown).foldlM AnswerRun.next s =
      es.foldlM AnswerRun.next s := by
  induction es generalizing s with
  | nil => rfl
  | cons e es ih =>
    by_cases hknown : e.isKnown = true
    · rw [List.filter_cons_of_pos hknown, List.foldlM_cons, List.foldlM_cons]
      exact congrArg _ (funext fun s' => ih s')
    · have hsame : s.next e = some s := by
        cases e with
        | other eventType => rfl
        | _ => exact absurd rfl hknown
      rw [List.filter_cons_of_neg hknown, List.foldlM_cons, hsame, ih]
      rfl

/-! ### The blocks of an item -/

def ContentKey.itemId : ContentKey → String
  | part itemId _ => itemId
  | tool itemId => itemId

def ReasoningDelta.rawText (delta : ReasoningDelta) : String :=
  if delta.isSummary then "" else delta.text

def StreamedItem.blocks : StreamedItem → List AssembledBlock
  | message _ parts => parts.map fun part => .text part.text
  | reasoning _ deltas =>
    if deltas.all (·.isSummary) then []
    else [.thinking ("".intercalate (deltas.map ReasoningDelta.rawText))]
  | functionCall _ callId name fragments => [.toolUse callId name ("".intercalate fragments)]

def StreamedItem.isCall : StreamedItem → Bool
  | functionCall _ _ _ _ => true
  | _ => false

namespace AnswerRun

structure Rests (s : AnswerRun) : Prop where
  started : s.started = true
  closed : s.opened = none
  unfinished : s.report = none

variable {s : AnswerRun} {key : ContentKey}

theorem foldlM_extend {α : Type} (event : α → ResponsesStreamEvent) (delta : α → ClaudeDelta)
    (hevent : ∀ x s, next s (event x) = s.extend key (delta x)) (hstarted : s.started = true)
    (hopen : s.opened = some key) {before : List AssembledBlock} {block : AssembledBlock}
    (h : s.contents = before ++ [block]) (xs : List α) :
    (xs.map event).foldlM next s = some { s with
      contents := before ++ [xs.foldl (fun block x => block.extend (delta x)) block] } := by
  induction xs generalizing s block with
  | nil => rw [List.foldl_nil, ← h]; rfl
  | cons x xs ih =>
    have hstep : next s (event x) =
        some { s with contents := before ++ [block.extend (delta x)] } := by
      rw [hevent, extend, if_pos ⟨hstarted, hopen⟩, h]
      simp
    rw [List.map_cons, List.foldlM_cons, hstep]
    exact ih (s := { s with contents := before ++ [block.extend (delta x)] }) hstarted hopen rfl

theorem close_eq (h : s.opened = none ∨ s.opened = some key) :
    close key s = some { s with opened := none } := if_pos h

theorem foldlM_close (es : List ResponsesStreamEvent) (hes : ∀ e ∈ es, ∀ s, next s e = close key s)
    (hne : es ≠ []) (h : s.opened = none ∨ s.opened = some key) :
    es.foldlM next s = some { s with opened := none } := by
  induction es generalizing s with
  | nil => exact absurd rfl hne
  | cons e es ih =>
    rw [List.foldlM_cons, hes e List.mem_cons_self, close_eq h]
    cases es with
    | nil => rfl
    | cons e' es =>
      exact ih (fun e he => hes e (List.mem_cons_of_mem _ he)) (List.cons_ne_nil _ _) (Or.inl rfl)

theorem Rests.start (h : s.Rests) (hkey : key ∉ s.seen) (block : AssembledBlock) :
    AnswerRun.start key block s =
      some { s with contents := s.contents ++ [block], opened := some key
                    seen := key :: s.seen } :=
  if_pos ⟨h.started, h.closed, hkey⟩

theorem foldl_extend_text (deltas : List String) (s : String) :
    deltas.foldl (fun block delta => AssembledBlock.extend (.textDelta delta) block) (.text s) =
      .text (s ++ "".intercalate deltas) := by
  induction deltas generalizing s with
  | nil => simp
  | cons delta deltas ih =>
    rw [List.foldl_cons, intercalate_empty_cons, ← String.append_assoc]
    exact ih _

theorem foldl_extend_toolUse (fragments : List String) (id name s : String) :
    fragments.foldl (fun block delta => AssembledBlock.extend (.inputJsonDelta delta) block)
        (.toolUse id name s) = .toolUse id name (s ++ "".intercalate fragments) := by
  induction fragments generalizing s with
  | nil => simp
  | cons fragment fragments ih =>
    rw [List.foldl_cons, intercalate_empty_cons, ← String.append_assoc]
    exact ih _

theorem Rests.part {s : AnswerRun} (h : s.Rests) {place : PartPlace} (hkey : place.key ∉ s.seen)
    (part : StreamedPart) :
    (part.events place).foldlM next s = some { s with
      contents := s.contents ++ [.text part.text], seen := place.key :: s.seen } := by
  obtain ⟨kind, deltas⟩ := part
  have hstart : next s (.partAdded kind place) = some { s with
      contents := s.contents ++ [.text ""], opened := some place.key,
      seen := place.key :: s.seen } := h.start hkey (.text "")
  have hdeltas := foldlM_extend (ResponsesStreamEvent.partDelta kind place)
    ClaudeDelta.textDelta (fun _ _ => rfl)
    (s := { s with contents := s.contents ++ [.text ""], opened := some place.key
                   seen := place.key :: s.seen }) h.started rfl rfl deltas
  rw [foldl_extend_text, String.empty_append] at hdeltas
  rw [StreamedPart.events, List.foldlM_cons, hstart]
  show List.foldlM next _ (_ ++ _) = _
  rw [List.foldlM_append, hdeltas]
  refine (foldlM_close _ ?_ ?_ (Or.inr rfl)).trans ?_
  · cases kind <;> simp [next]
  · cases kind <;> simp
  · rw [h.closed]
    rfl

/-- The state after blocks of one item: the contents grow, and only keys of the item are new. -/
structure Gains (id : String) (blocks : List AssembledBlock) (s s' : AnswerRun) : Prop where
  rests : s'.Rests
  contents : s'.contents = s.contents ++ blocks
  seen : ∀ key ∈ s'.seen, key ∈ s.seen ∨ key.itemId = id
  hasToolUse : s'.hasToolUse = s.hasToolUse

theorem Rests.parts (outputIndex : ℕ) {id : String} (parts : List StreamedPart) {s : AnswerRun}
    (h : s.Rests) {k : ℕ} (hfresh : ∀ n, k ≤ n → ContentKey.part id n ∉ s.seen) :
    ∃ s', (partsEvents outputIndex id k parts).foldlM next s = some s' ∧
      Gains id (parts.map fun part => .text part.text) s s' := by
  induction parts generalizing s k with
  | nil => exact ⟨s, rfl, h, (List.append_nil _).symm, fun _ hkey => Or.inl hkey, rfl⟩
  | cons part parts ih =>
    have hkey : PartPlace.key ⟨id, outputIndex, k⟩ ∉ s.seen := hfresh _ le_rfl
    have hpart := h.part hkey part
    have hrests : Rests { s with
        contents := s.contents ++ [.text part.text]
        seen := PartPlace.key ⟨id, outputIndex, k⟩ :: s.seen } :=
      ⟨h.started, h.closed, h.unfinished⟩
    obtain ⟨s', hrun, hgains⟩ := ih hrests (k := k + 1) fun n hn => by
      have hne : ContentKey.part id n ≠ PartPlace.key ⟨id, outputIndex, k⟩ := by
        intro heq
        have hindex : n = k := (ContentKey.part.inj heq).2
        omega
      exact List.mem_cons.not.2 (not_or.2 ⟨hne, hfresh n (by omega)⟩)
    refine ⟨s', ?_, hgains.rests, ?_, ?_, hgains.hasToolUse⟩
    · rw [partsEvents, List.foldlM_append, hpart]
      exact hrun
    · rw [hgains.contents, List.map_cons, List.append_assoc]
      rfl
    · intro key hmem
      rcases hgains.seen key hmem with hseen | hid
      · rcases List.mem_cons.1 hseen with rfl | hseen
        · exact Or.inr rfl
        · exact Or.inl hseen
      · exact Or.inr hid

theorem foldlM_reasoningDeltas {place : PartPlace} (deltas : List ReasoningDelta)
    (hstarted : s.started = true) (hopen : s.opened = some place.key) {before : List AssembledBlock}
    {text : String} (h : s.contents = before ++ [.thinking text]) :
    (deltas.map (.reasoningDelta place)).foldlM next s = some { s with contents :=
      before ++ [.thinking (text ++ "".intercalate (deltas.map ReasoningDelta.rawText))] } := by
  induction deltas generalizing s text with
  | nil =>
    rw [List.map_nil, List.map_nil, String.intercalate_nil, String.append_empty, ← h]
    rfl
  | cons delta deltas ih =>
    obtain ⟨isSummary, rest⟩ := delta
    rw [List.map_cons, List.foldlM_cons, List.map_cons, intercalate_empty_cons]
    cases isSummary with
    | true =>
      show (deltas.map _).foldlM next s = _
      rw [ih hstarted hopen h]
      simp [ReasoningDelta.rawText]
    | false =>
      have hstep : next s (.reasoningDelta place ⟨false, rest⟩) =
          some { s with contents := before ++ [.thinking (text ++ rest)] } := by
        rw [next, if_pos hopen, extend, if_pos ⟨hstarted, hopen⟩, h]
        simp [AssembledBlock.extend]
      rw [hstep]
      refine (ih (s := { s with contents := before ++ [.thinking (text ++ rest)] }) hstarted hopen
        rfl).trans ?_
      simp [ReasoningDelta.rawText, String.append_assoc]

theorem Rests.reasoningDeltas {place : PartPlace} (deltas : List ReasoningDelta) (h : s.Rests)
    (hkey : place.key ∉ s.seen) :
    (deltas.map (.reasoningDelta place)).foldlM next s =
      if deltas.all (·.isSummary) then some s
      else some { s with
        contents := s.contents ++
          [.thinking ("".intercalate (deltas.map ReasoningDelta.rawText))]
        opened := some place.key, seen := place.key :: s.seen } := by
  induction deltas with
  | nil => rfl
  | cons delta deltas ih =>
    obtain ⟨isSummary, text⟩ := delta
    rw [List.map_cons, List.foldlM_cons, List.map_cons, intercalate_empty_cons]
    cases isSummary with
    | true =>
      show (deltas.map _).foldlM next s = _
      rw [ih]
      simp [ReasoningDelta.rawText]
    | false =>
      have hclosed : s.opened ≠ some place.key := by
        rw [h.closed]
        exact Option.some_ne_none _ |>.symm
      have hstep : next s (.reasoningDelta place ⟨false, text⟩) = some { s with
          contents := s.contents ++ [.thinking text], opened := some place.key
          seen := place.key :: s.seen } := by
        rw [next, if_neg hclosed, h.start hkey, Option.bind_some, extend,
          if_pos ⟨h.started, rfl⟩]
        simp [AssembledBlock.extend]
      rw [hstep]
      refine (foldlM_reasoningDeltas deltas (s := { s with
          contents := s.contents ++ [.thinking text], opened := some place.key
          seen := place.key :: s.seen }) h.started rfl rfl).trans ?_
      simp [ReasoningDelta.rawText]

theorem Rests.item {s : AnswerRun} (h : s.Rests) (outputIndex : ℕ) (item : StreamedItem)
    (hfresh : ∀ key ∈ s.seen, key.itemId ≠ item.id) :
    ∃ s', (item.events outputIndex).foldlM next s = some s' ∧
      Gains item.id item.blocks { s with hasToolUse := s.hasToolUse || item.isCall } s' := by
  cases item with
  | message id parts =>
    obtain ⟨s', hrun, hgains⟩ := h.parts outputIndex parts (k := 0) fun k _ hmem =>
      hfresh _ hmem rfl
    refine ⟨s', hrun, hgains.rests, hgains.contents, hgains.seen, ?_⟩
    rw [hgains.hasToolUse]
    exact (Bool.or_false _).symm
  | reasoning id deltas =>
    have hkey : PartPlace.key ⟨id, outputIndex, 0⟩ ∉ s.seen := fun hmem => hfresh _ hmem rfl
    have hrun := h.reasoningDeltas deltas hkey
    have hfalse : s.hasToolUse = (s.hasToolUse || false) := (Bool.or_false _).symm
    rw [StreamedItem.events, StreamedItem.blocks, List.foldlM_cons]
    show ∃ s', List.foldlM next s (_ ++ _) = some s' ∧ _
    rw [List.foldlM_append, hrun]
    -- summaries start no block
    by_cases hall : deltas.all (·.isSummary) = true
    · rw [if_pos hall, if_pos hall, if_pos hall]
      exact ⟨s, rfl, h, (List.append_nil _).symm, fun _ hmem => Or.inl hmem, hfalse⟩
    · rw [if_neg hall, if_neg hall, if_neg hall]
      have hdone := foldlM_close [.reasoningDone ⟨id, outputIndex, 0⟩] (by simp [next])
          (List.cons_ne_nil _ _)
        (s := { s with
          contents := s.contents ++
            [.thinking ("".intercalate (deltas.map ReasoningDelta.rawText))]
          opened := some (PartPlace.key ⟨id, outputIndex, 0⟩)
          seen := PartPlace.key ⟨id, outputIndex, 0⟩ :: s.seen }) (Or.inr rfl)
      refine ⟨_, hdone, ⟨h.started, rfl, h.unfinished⟩, rfl, ?_, hfalse⟩
      intro key hmem
      rcases List.mem_cons.1 hmem with rfl | hmem
      · exact Or.inr rfl
      · exact Or.inl hmem
  | functionCall id callId name fragments =>
    have hkey : ContentKey.tool id ∉ s.seen := fun hmem => hfresh _ hmem rfl
    -- the call counts as a tool use from its start on
    have hused : Rests { s with hasToolUse := true } := ⟨h.started, h.closed, h.unfinished⟩
    have hstart : next s (.functionCallAdded outputIndex id callId name) = some { s with
        hasToolUse := true, contents := s.contents ++ [.toolUse callId name ""]
        opened := some (.tool id), seen := .tool id :: s.seen } := hused.start hkey _
    have hfragments := foldlM_extend (ResponsesStreamEvent.argumentsDelta outputIndex id)
      ClaudeDelta.inputJsonDelta (fun _ _ => rfl)
      (s := { s with hasToolUse := true, contents := s.contents ++ [.toolUse callId name ""]
                     opened := some (.tool id), seen := .tool id :: s.seen })
      h.started rfl rfl fragments
    rw [foldl_extend_toolUse, String.empty_append] at hfragments
    rw [StreamedItem.events, List.foldlM_cons, hstart]
    show ∃ s', List.foldlM next _ (_ ++ _) = some s' ∧ _
    rw [List.foldlM_append, hfragments]
    have hdone := foldlM_close [.argumentsDone outputIndex id] (by simp [next])
        (List.cons_ne_nil _ _)
      (s := { s with hasToolUse := true
                     contents := s.contents ++ [.toolUse callId name ("".intercalate fragments)]
                     opened := some (.tool id), seen := .tool id :: s.seen }) (Or.inr rfl)
    refine ⟨_, hdone, ⟨h.started, rfl, h.unfinished⟩, rfl, ?_, ?_⟩
    · intro key hmem
      rcases List.mem_cons.1 hmem with rfl | hmem
      · exact Or.inr rfl
      · exact Or.inl hmem
    · exact (Bool.or_true _).symm

theorem Rests.items (items : List (ℕ × StreamedItem)) {s : AnswerRun} (h : s.Rests)
    (hnodup : (items.map fun item => item.2.id).Nodup)
    (hfresh : ∀ key ∈ s.seen, ∀ item ∈ items, key.itemId ≠ item.2.id) :
    ∃ s', (items.flatMap fun item => item.2.events item.1).foldlM next s = some s' ∧ s'.Rests ∧
      s'.contents = s.contents ++ items.flatMap (fun item => item.2.blocks) ∧
      s'.hasToolUse = (s.hasToolUse || items.any fun item => item.2.isCall) := by
  induction items generalizing s with
  | nil => exact ⟨s, rfl, h, (List.append_nil _).symm, (Bool.or_false _).symm⟩
  | cons item items ih =>
    obtain ⟨hnotMem, hnodup'⟩ := List.nodup_cons.1 hnodup
    obtain ⟨s', hrun, hgains⟩ := h.item item.1 item.2
      fun key hkey => hfresh key hkey item List.mem_cons_self
    obtain ⟨s'', hrun', hrests, hcontents, hused⟩ := ih hgains.rests hnodup' (by
      intro key hkey other hmem
      rcases hgains.seen key hkey with hseen | hid
      · exact hfresh key hseen other (List.mem_cons_of_mem _ hmem)
      · rw [hid]
        intro heq
        exact hnotMem (List.mem_map.2 ⟨other, hmem, heq.symm⟩))
    refine ⟨s'', ?_, hrests, ?_, ?_⟩
    · rw [List.flatMap_cons, List.foldlM_append, hrun]
      exact hrun'
    · rw [hcontents, hgains.contents, List.flatMap_cons, List.append_assoc]
    · rw [hused, hgains.hasToolUse, List.any_cons, Bool.or_assoc]

end AnswerRun

/-! ### The assembled message of a response stream -/

def responseReport (object : Json) (hasToolUse : Bool) : String × Json :=
  (mapResponsesStopReason (object.getStr "status") hasToolUse
      ((object.pointer ["incomplete_details", "reason"]).bind Json.asStr),
    buildAnthropicUsageFromResponses (object.get "usage"))

def StreamedResponse.hasCall (r : StreamedResponse) : Bool := r.items.any fun item => item.2.isCall

theorem StreamedResponse.answerRun {r : StreamedResponse} (h : r.Assembles) :
    ∃ s, r.events.foldlM AnswerRun.next {} = some s ∧
      s.contents = r.items.flatMap (fun item => item.2.blocks) ∧
      s.started = true ∧
      s.report = if r.completes then some (responseReport r.object r.hasCall) else none := by
  have hrests : AnswerRun.Rests { started := true } := ⟨rfl, rfl, rfl⟩
  obtain ⟨s, hrun, hs, hcontents, hused⟩ := hrests.items r.items h.itemIds (by simp)
  have hevents : r.events.foldlM AnswerRun.next {} =
      AnswerRun.next s (.finished r.completes r.object) := by
    have hcreated : AnswerRun.next {} (.created r.id) = some { started := true } := rfl
    rw [StreamedResponse.events, List.foldlM_cons, hcreated]
    show List.foldlM AnswerRun.next _ (_ ++ _) = _
    rw [List.foldlM_append, hrun]
    show List.foldlM AnswerRun.next s [_] = _
    rw [List.foldlM_cons]
    cases AnswerRun.next s (.finished r.completes r.object) <;> rfl
  rw [List.nil_append] at hcontents
  rw [Bool.false_or] at hused
  rw [hevents]
  cases r.completes with
  | false => exact ⟨s, rfl, hcontents, hs.started, hs.unfinished⟩
  | true =>
    refine ⟨_, if_pos ⟨hs.started, hs.closed, hs.unfinished⟩, hcontents, hs.started, ?_⟩
    show some (_, _) = some (_, _)
    rw [hused]
    rfl

theorem shows_new : Shows StreamContext.new (assemble []) {} :=
  ⟨rfl, rfl, rfl, fun _ _ => rfl, rfl, rfl, rfl, fun _ => rfl⟩

/-- **What the converter makes of a response stream.** -/
theorem assemble_responsesStream {r : StreamedResponse} (h : r.Assembles) {blocks : List Bytes}
    (hblocks : r.StreamedAs env blocks) (huncounted : StartsUncounted env blocks) :
    ∃ msg, assemble (responsesToClaudeRun env blocks).out = msg ∧
      msg.contents = r.items.flatMap (fun item => item.2.blocks) ∧
      msg.stopReason =
        (if r.completes then some (responseReport r.object r.hasCall).1 else none) ∧
      ∀ key, msg.usage key =
        if r.completes then (responseReport r.object r.hasCall).2.get key
        else startUsage.get key := by
  obtain ⟨es, hcarried, hfilter⟩ := hblocks
  obtain ⟨s, hrun, hcontents, hstarted, hreport⟩ := StreamedResponse.answerRun h
  rw [← hfilter, foldlM_next_filter] at hrun
  obtain ⟨ctx', hshows⟩ := shows_feed hcarried huncounted hrun shows_new
  rw [List.nil_append] at hshows
  refine ⟨_, rfl, hshows.contents.trans hcontents, ?_, ?_⟩
  · refine hshows.stopReason.trans ?_
    rw [hreport]
    split_ifs <;> rfl
  · intro key
    refine (hshows.usage key).trans ?_
    rw [hreport, hstarted]
    cases r.completes <;> rfl

end AiOpenRouter
