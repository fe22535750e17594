/-
The end of the chat → Responses output.

The first choice with a finish reason completes the response.  Later choices are
still converted, so the output ends with the completion only if they say nothing
(`FinishLast`).

* `endsCompleted_feed_iff` — without a done marker, the output ends with the
  completion exactly when the finish comes last.
-/
import AiOpenRouter.ChatToResponses

open Trace

namespace AiOpenRouter

/-! ### The choices of a stream -/

def blockChoices (env : Env) (event : Bytes) : List Json :=
  match readChatData env event with
  | .data data => ((data.get "choices").bind Json.asArray).getD []
  | _ => []

def choiceFinishes (choice : Json) : Bool := (choice.getStr "finish_reason").getD "" ≠ ""

def choiceHasDelta (choice : Json) : Bool := (choice.get "delta").isSome

def toolCallSpeaks (tc : Json) : Bool :=
  ((tc.get "id").isSome && (tc.get "function").isSome) ||
    ((tc.get "function").bind fun function => function.getStr "arguments").isSome

def deltaSpeaks (delta : Json) : Bool :=
  (delta.getStr "content").isSome ||
    (((delta.get "tool_calls").bind Json.asArray).getD []).any toolCallSpeaks

def choiceSpeaks (choice : Json) : Bool := ((choice.get "delta").map deltaSpeaks).getD false

/-- The first choice with a finish reason comes last: no later one has content or a tool call,
nor the first delta of the stream. -/
def FinishLast (choices : List Json) : Prop :=
  ∃ pre choice post, choices = pre ++ choice :: post ∧ choiceFinishes choice = true ∧
    (∀ c ∈ pre, choiceFinishes c = false) ∧
    ∀ c ∈ post, choiceSpeaks c = false ∧
      (choiceHasDelta c = true → ∃ d ∈ pre ++ [choice], choiceHasDelta d = true)

def Adds (choices : List Json) (choice : Json) : Prop :=
  choiceSpeaks choice = true ∨
    (choiceHasDelta choice = true ∧ ∀ d ∈ choices, choiceHasDelta d = false)

variable {choice : Json} {ctx : StreamContext} {st' : Emit ResponsesEvent}

theorem not_adds_iff {choices : List Json} :
    ¬ Adds choices choice ↔ choiceSpeaks choice = false ∧
      (choiceHasDelta choice = true → ∃ d ∈ choices, choiceHasDelta d = true) := by
  simp [Adds]

theorem FinishLast.finishes {choices : List Json} (h : FinishLast choices) :
    ∃ c ∈ choices, choiceFinishes c = true := by
  obtain ⟨pre, choice, post, rfl, hfin, -⟩ := h
  exact ⟨choice, by simp, hfin⟩

theorem not_finishLast_nil : ¬ FinishLast [] := fun h => by simpa using h.finishes

theorem finishLast_snoc {choices : List Json} :
    FinishLast (choices ++ [choice]) ↔
      (FinishLast choices ∧ ¬ Adds choices choice) ∨
      ((∀ c ∈ choices, choiceFinishes c = false) ∧ choiceFinishes choice = true) := by
  rw [not_adds_iff]
  constructor
  · rintro ⟨pre, first, post, heq, hfin, hpre, hpost⟩
    rcases eq_or_of_snoc_eq heq with ⟨rfl, rfl, -⟩ | ⟨post', rfl⟩
    · exact Or.inr ⟨hpre, hfin⟩
    · rw [List.append_assoc, List.append_right_inj, List.cons_append, List.cons_inj_right] at heq
      subst heq
      obtain ⟨hquiet, hdelta⟩ := hpost choice (by simp)
      refine Or.inl ⟨⟨pre, first, post', rfl, hfin, hpre, fun c hc => hpost c (by simp [hc])⟩,
        hquiet, fun hhas => ?_⟩
      obtain ⟨d, hd, hhas'⟩ := hdelta hhas
      exact ⟨d, by simp at hd ⊢; tauto, hhas'⟩
  · rintro (⟨⟨pre, first, post, rfl, hfin, hpre, hpost⟩, hquiet, hdelta⟩ | ⟨hpre, hfin⟩)
    · refine ⟨pre, first, post ++ [choice], by simp, hfin, hpre, fun c hc => ?_⟩
      rcases List.mem_append.1 hc with hc | hc
      · exact hpost c hc
      · obtain rfl := List.mem_singleton.1 hc
        refine ⟨hquiet, fun hhas => ?_⟩
        obtain ⟨d, hd, hhas'⟩ := hdelta hhas
        -- a later choice with a delta is not the first one with a delta
        rw [List.append_cons, List.mem_append] at hd
        rcases hd with hd | hd
        · exact ⟨d, hd, hhas'⟩
        · exact (hpost d hd).2 hhas'
    · exact ⟨choices, choice, [], rfl, hfin, hpre, by simp⟩

/-! ### The end of the output -/

def ResponsesEvent.endsResponse : ResponsesEvent → Bool
  | completed _ _ => true
  | doneMarker => true
  | _ => false

def EndsCompleted (t : List ResponsesEvent) : Prop :=
  ∃ pre id usage, t = pre ++ [.completed id usage] ∨ t = pre ++ [.completed id usage, .doneMarker]

theorem EndsCompleted.last {t : List ResponsesEvent} (h : EndsCompleted t) :
    ∃ pre e, t = pre ++ [e] ∧ e.endsResponse = true := by
  obtain ⟨pre, id, usage, rfl | rfl⟩ := h
  · exact ⟨pre, _, rfl, rfl⟩
  · exact ⟨pre ++ [.completed id usage], .doneMarker, by simp, rfl⟩

theorem not_endsCompleted_of_forall {t : List ResponsesEvent}
    (h : ∀ e ∈ t, e.endsResponse = false) : ¬ EndsCompleted t := by
  intro hends
  obtain ⟨pre, e, rfl, hend⟩ := hends.last
  rw [h e (by simp)] at hend
  exact absurd hend (by simp)

theorem endsCompleted_append_iff {t q : List ResponsesEvent}
    (h : ∀ e ∈ q, e.endsResponse = false) : EndsCompleted (t ++ q) ↔ q = [] ∧ EndsCompleted t := by
  rcases List.eq_nil_or_concat q with rfl | ⟨q', last, rfl⟩
  · simp
  · refine iff_of_false (fun hends => ?_) (by simp)
    obtain ⟨pre, e, heq, hend⟩ := hends.last
    rw [List.concat_eq_append, ← List.append_assoc] at heq
    obtain rfl := List.singleton_inj.1 (List.append_inj' heq rfl).2
    rw [h last (by simp)] at hend
    exact absurd hend (by simp)

/-- From `st` to `st'` the response goes on: nothing ends it, and the flag of its end stays. -/
def GoesOn (st st' : Emit ResponsesEvent) : Prop :=
  (∃ q, st'.result = st.result ++ q ∧ ∀ e ∈ q, e.endsResponse = false) ∧
    st'.ctx.messageStartSent = st.ctx.messageStartSent ∧
    st'.ctx.finishReasonSent = st.ctx.finishReasonSent

theorem GoesOn.refl (st : Emit ResponsesEvent) : GoesOn st st :=
  ⟨⟨[], by simp, by simp⟩, rfl, rfl⟩

theorem GoesOn.trans {st st'' : Emit ResponsesEvent} (h : GoesOn st st') (h' : GoesOn st' st'') :
    GoesOn st st'' := by
  obtain ⟨⟨q, hq, hend⟩, hstart, hfinish⟩ := h
  obtain ⟨⟨q', hq', hend'⟩, hstart', hfinish'⟩ := h'
  refine ⟨⟨q ++ q', by rw [hq', hq, List.append_assoc], fun e he => ?_⟩, hstart'.trans hstart,
    hfinish'.trans hfinish⟩
  rcases List.mem_append.1 he with he | he
  · exact hend e he
  · exact hend' e he

theorem GoesOn.push {st : Emit ResponsesEvent} (h : GoesOn st st') {e : ResponsesEvent}
    (he : e.endsResponse = false) (hstart : ctx.messageStartSent = st'.ctx.messageStartSent)
    (hfinish : ctx.finishReasonSent = st'.ctx.finishReasonSent) :
    GoesOn st ⟨ctx, st'.result ++ [e]⟩ :=
  h.trans ⟨⟨[e], rfl, by simpa using he⟩, hstart, hfinish⟩

theorem GoesOn.length_le {st : Emit ResponsesEvent} (h : GoesOn st st') :
    st.result.length ≤ st'.result.length := by
  obtain ⟨⟨q, hq, -⟩, -⟩ := h
  rw [hq, List.length_append]
  exact Nat.le_add_right _ _

theorem goesOn_emitContent (content : String) (st : Emit ResponsesEvent) :
    GoesOn st (emitContent content st) := by
  have hensure : GoesOn st (ensureMessageItem st) := by
    rw [ensureMessageItem]
    split_ifs
    · exact GoesOn.refl st
    · exact ((GoesOn.refl st).push rfl rfl rfl).push rfl rfl rfl
  exact hensure.push rfl rfl rfl

theorem goesOn_leaveMessageItem (st : Emit ResponsesEvent) : GoesOn st (leaveMessageItem st) := by
  rw [leaveMessageItem]
  split_ifs
  · exact ((GoesOn.refl st).push rfl rfl rfl).push rfl rfl rfl
  · exact GoesOn.refl st

theorem takeToolName_flags (id function : Json) (ctx : StreamContext) :
    (takeToolName id function ctx).messageStartSent = ctx.messageStartSent ∧
    (takeToolName id function ctx).finishReasonSent = ctx.finishReasonSent := by
  rw [takeToolName]
  rcases id.asStr with _ | id
  · exact ⟨rfl, rfl⟩
  · rcases function.getStr "name" with _ | name
    · exact ⟨rfl, rfl⟩
    · exact ⟨rfl, rfl⟩

theorem goesOn_openFunctionCall (toolIdx : ℤ) (id function : Json) (st : Emit ResponsesEvent) :
    GoesOn st (openFunctionCall toolIdx id function st) := by
  rw [openFunctionCall]
  split_ifs
  · obtain ⟨hstart, hfinish⟩ := takeToolName_flags id function
      { st.ctx with toolBlockStarted := true, toolIndex := toolIdx, toolArguments := "" }
    exact (GoesOn.refl st).push rfl hstart hfinish
  · exact GoesOn.refl st

theorem goesOn_startFunctionCall (toolIdx : ℤ) (id function : Option Json)
    (st : Emit ResponsesEvent) : GoesOn st (startFunctionCall toolIdx id function st) := by
  rcases id with _ | id
  · exact GoesOn.refl st
  · rcases function with _ | function
    · exact GoesOn.refl st
    · exact (goesOn_leaveMessageItem st).trans (goesOn_openFunctionCall toolIdx id function _)

theorem goesOn_emitArguments (function : Option Json) (st : Emit ResponsesEvent) :
    GoesOn st (emitArguments function st) := by
  rw [emitArguments]
  rcases function.bind fun function => function.getStr "arguments" with _ | args
  · exact GoesOn.refl st
  · exact (GoesOn.refl st).push rfl rfl rfl

theorem goesOn_onToolCallDelta (st : Emit ResponsesEvent) (tc : Json) :
    GoesOn st (onToolCallDelta st tc) :=
  (goesOn_startFunctionCall _ _ _ st).trans (goesOn_emitArguments _ _)

theorem goesOn_toolCalls (tcs : List Json) (st : Emit ResponsesEvent) :
    GoesOn st (tcs.foldl onToolCallDelta st) := by
  induction tcs generalizing st with
  | nil => exact GoesOn.refl st
  | cons tc tcs ih => exact (goesOn_onToolCallDelta st tc).trans (ih _)

/-! ### What a delta adds -/

theorem onToolCallDelta_of_quiet {tc : Json} (h : toolCallSpeaks tc = false)
    (st : Emit ResponsesEvent) : onToolCallDelta st tc = st := by
  rw [toolCallSpeaks, Bool.or_eq_false_iff] at h
  obtain ⟨hopen, hargs⟩ := h
  have hstart : startFunctionCall (toolOutputIndex (toolCallIndex tc)) (tc.get "id")
      (tc.get "function") st = st := by
    rcases hid : tc.get "id" with _ | id
    · rfl
    · rcases hfunction : tc.get "function" with _ | function
      · rfl
      · rw [hid, hfunction] at hopen
        exact absurd hopen (by simp)
  rw [onToolCallDelta, hstart, emitArguments]
  rcases hargs' : (tc.get "function").bind fun function => function.getStr "arguments" with _ | args
  · rfl
  · rw [hargs'] at hargs
    exact absurd hargs (by simp)

theorem onToolCallDelta_of_speaks {tc : Json} (h : toolCallSpeaks tc = true)
    {st : Emit ResponsesEvent} (htool : st.ctx.toolBlockStarted = false) :
    st.result.length < (onToolCallDelta st tc).result.length := by
  rw [toolCallSpeaks, Bool.or_eq_true, Bool.and_eq_true] at h
  rcases h with ⟨hid, hfunction⟩ | hargs
  · obtain ⟨id, hid⟩ := Option.isSome_iff_exists.1 hid
    obtain ⟨function, hfunction⟩ := Option.isSome_iff_exists.1 hfunction
    have hleave := (goesOn_leaveMessageItem st).length_le
    have hkeep : (leaveMessageItem st).ctx.toolBlockStarted = false := by
      rw [leaveMessageItem]
      split_ifs
      · exact htool
      · exact htool
    have hopen : (startFunctionCall (toolOutputIndex (toolCallIndex tc)) (some id)
        (some function) st).result.length = (leaveMessageItem st).result.length + 1 := by
      rw [startFunctionCall, openFunctionCall, if_pos (Or.inl hkeep)]
      exact List.length_append
    have hargs := (goesOn_emitArguments (tc.get "function")
      (startFunctionCall (toolOutputIndex (toolCallIndex tc)) (some id)
        (some function) st)).length_le
    rw [onToolCallDelta, hid, hfunction]
    rw [hfunction] at hargs
    omega
  · obtain ⟨args, hargs⟩ := Option.isSome_iff_exists.1 hargs
    have hstart := (goesOn_startFunctionCall (toolOutputIndex (toolCallIndex tc)) (tc.get "id")
      (tc.get "function") st).length_le
    rw [onToolCallDelta, emitArguments, hargs]
    simp only [Emit.push_result, Emit.withCtx_result, List.length_append, List.length_singleton]
    omega

theorem toolCalls_of_quiet {tcs : List Json} (h : tcs.any toolCallSpeaks = false)
    (st : Emit ResponsesEvent) : tcs.foldl onToolCallDelta st = st := by
  induction tcs with
  | nil => rfl
  | cons tc tcs ih =>
    rw [List.any_cons, Bool.or_eq_false_iff] at h
    rw [List.foldl_cons, onToolCallDelta_of_quiet h.1]
    exact ih h.2

theorem toolCalls_of_speaks {tcs : List Json} (h : tcs.any toolCallSpeaks = true)
    {st : Emit ResponsesEvent} (htool : st.ctx.toolBlockStarted = false) :
    st.result.length < (tcs.foldl onToolCallDelta st).result.length := by
  induction tcs with
  | nil => exact absurd h (by simp)
  | cons tc tcs ih =>
    rw [List.foldl_cons]
    rcases hspeaks : toolCallSpeaks tc with _ | _
    · rw [onToolCallDelta_of_quiet hspeaks]
      rw [List.any_cons, hspeaks, Bool.false_or] at h
      exact ih h
    · exact lt_of_lt_of_le (onToolCallDelta_of_speaks hspeaks htool)
        (goesOn_toolCalls tcs _).length_le

theorem onDelta_goesOn (delta : Json) (st : Emit ResponsesEvent) :
    (∃ q, (onDelta delta st).result = st.result ++ q ∧ ∀ e ∈ q, e.endsResponse = false) ∧
    (onDelta delta st).ctx.messageStartSent = true ∧
    (onDelta delta st).ctx.finishReasonSent = st.ctx.finishReasonSent := by
  have hcreate : (∃ q, (ensureCreated st).result = st.result ++ q ∧
      ∀ e ∈ q, e.endsResponse = false) ∧ (ensureCreated st).ctx.messageStartSent = true ∧
      (ensureCreated st).ctx.finishReasonSent = st.ctx.finishReasonSent := by
    rw [ensureCreated]
    by_cases hsent : st.ctx.messageStartSent = true
    · rw [if_pos hsent]
      exact ⟨⟨[], by simp, by simp⟩, hsent, rfl⟩
    · rw [if_neg hsent]
      exact ⟨⟨[.created st.ctx.messageId], rfl, by simp [ResponsesEvent.endsResponse]⟩, rfl, rfl⟩
  have hrest : GoesOn (ensureCreated st) (onDelta delta st) := by
    rw [onDelta]
    rcases delta.getStr "content" with _ | content
    · exact goesOn_toolCalls _ _
    · exact (goesOn_emitContent content _).trans (goesOn_toolCalls _ _)
  obtain ⟨⟨q, hq, hend⟩, hsent, hfinish⟩ := hcreate
  obtain ⟨⟨q', hq', hend'⟩, hsent', hfinish'⟩ := hrest
  refine ⟨⟨q ++ q', by rw [hq', hq, List.append_assoc], fun e he => ?_⟩, hsent'.trans hsent,
    hfinish'.trans hfinish⟩
  rcases List.mem_append.1 he with he | he
  · exact hend e he
  · exact hend' e he

theorem onDelta_of_quiet {delta : Json} (h : deltaSpeaks delta = false)
    {st : Emit ResponsesEvent} (hsent : st.ctx.messageStartSent = true) :
      onDelta delta st = st := by
  rw [deltaSpeaks, Bool.or_eq_false_iff, Option.isSome_eq_false_iff, Option.isNone_iff_eq_none] at h
  rw [onDelta, ensureCreated, if_pos hsent, h.1]
  exact toolCalls_of_quiet h.2 st

theorem onDelta_of_speaks {delta : Json} {st : Emit ResponsesEvent}
    (h : deltaSpeaks delta = true ∨ st.ctx.messageStartSent = false)
    (htool : st.ctx.toolBlockStarted = false) :
    st.result.length < (onDelta delta st).result.length := by
  rw [onDelta, ensureCreated]
  by_cases hsent : st.ctx.messageStartSent = true
  · rw [if_pos hsent]
    have hspeaks := h.resolve_right (by simp [hsent])
    rw [deltaSpeaks, Bool.or_eq_true] at hspeaks
    rcases hcontent : delta.getStr "content" with _ | content
    · exact toolCalls_of_speaks (hspeaks.resolve_left (by simp [hcontent])) htool
    · have hpush : (emitContent content st).result.length
          = (ensureMessageItem st).result.length + 1 := List.length_append
      have hensure : st.result.length ≤ (ensureMessageItem st).result.length := by
        rw [ensureMessageItem]
        split_ifs
        · exact Nat.le_refl _
        · simp [Emit.push, Emit.withCtx]
      have hcalls := (goesOn_toolCalls (((delta.get "tool_calls").bind Json.asArray).getD [])
        (emitContent content st)).length_le
      simp only
      omega
  · rw [if_neg hsent]
    have hcreate : st.result.length < ((st.push (.created st.ctx.messageId)).withCtx fun ctx =>
        { ctx with messageStartSent := true }).result.length := by
      simp [Emit.push, Emit.withCtx]
    rcases delta.getStr "content" with _ | content
    · exact lt_of_lt_of_le hcreate (goesOn_toolCalls _ _).length_le
    · exact lt_of_lt_of_le hcreate
        ((goesOn_emitContent content _).trans (goesOn_toolCalls _ _)).length_le

/-! ### A choice -/

theorem closeFunctionCall_flags (st : Emit ResponsesEvent) :
    (closeFunctionCall st).ctx.toolBlockStarted = false ∧
    (closeFunctionCall st).ctx.messageStartSent = st.ctx.messageStartSent ∧
    (closeFunctionCall st).ctx.finishReasonSent = st.ctx.finishReasonSent := by
  rw [closeFunctionCall]
  by_cases hstarted : st.ctx.toolBlockStarted = true
  · rw [if_pos hstarted]
    exact ⟨rfl, rfl, rfl⟩
  · rw [if_neg hstarted]
    exact ⟨by simpa using hstarted, rfl, rfl⟩

theorem closeMessageItem_flags (st : Emit ResponsesEvent) :
    (closeMessageItem st).ctx.toolBlockStarted = st.ctx.toolBlockStarted ∧
    (closeMessageItem st).ctx.messageStartSent = st.ctx.messageStartSent ∧
    (closeMessageItem st).ctx.finishReasonSent = st.ctx.finishReasonSent := by
  rw [closeMessageItem]
  split_ifs
  · exact ⟨rfl, rfl, rfl⟩
  · exact ⟨rfl, rfl, rfl⟩

theorem completeResponse_of_finished {st : Emit ResponsesEvent}
    (h : st.ctx.finishReasonSent = true) : completeResponse st = st := by
  rw [completeResponse, if_pos h]

theorem completeResponse_of_unfinished {st : Emit ResponsesEvent}
    (h : st.ctx.finishReasonSent = false) :
    (∃ pre id usage, (completeResponse st).result = pre ++ [.completed id usage, .doneMarker]) ∧
    (completeResponse st).ctx.toolBlockStarted = false ∧
    (completeResponse st).ctx.messageStartSent = st.ctx.messageStartSent ∧
    (completeResponse st).ctx.finishReasonSent = true := by
  obtain ⟨htool, hstart, -⟩ := closeFunctionCall_flags st
  obtain ⟨htool', hstart', -⟩ := closeMessageItem_flags (closeFunctionCall st)
  rw [completeResponse, if_neg (by simp [h])]
  generalize closeMessageItem (closeFunctionCall st) = closed at htool' hstart' ⊢
  refine ⟨⟨closed.result, closed.ctx.messageId, reportedUsage closed.ctx, ?_⟩,
    htool'.trans htool, hstart'.trans hstart, rfl⟩
  exact List.append_assoc _ _ _

structure FinishTracked (choices : List Json) (ctx : StreamContext) (t : List ResponsesEvent) :
    Prop where
  created : ctx.messageStartSent = true ↔ ∃ c ∈ choices, choiceHasDelta c = true
  finished : ctx.finishReasonSent = true ↔ ∃ c ∈ choices, choiceFinishes c = true
  /-- after the finish no function call item is open, as long as nothing is added -/
  closed : FinishLast choices → ctx.toolBlockStarted = false
  ends : EndsCompleted t ↔ FinishLast choices

theorem finishTracked_new (targetModel : String) :
    FinishTracked [] (.forModel targetModel) [] where
  created := by simp [StreamContext.forModel, StreamContext.new]
  finished := by simp [StreamContext.forModel, StreamContext.new]
  closed h := absurd h not_finishLast_nil
  ends := iff_of_false (not_endsCompleted_of_forall (by simp)) not_finishLast_nil

theorem FinishTracked.congr {choices : List Json} {ctx' : StreamContext} {t : List ResponsesEvent}
    (h : FinishTracked choices ctx t) (hstart : ctx'.messageStartSent = ctx.messageStartSent)
    (hfinish : ctx'.finishReasonSent = ctx.finishReasonSent)
    (htool : ctx'.toolBlockStarted = ctx.toolBlockStarted) :
    FinishTracked choices ctx' t where
  created := by rw [hstart, h.created]
  finished := by rw [hfinish, h.finished]
  closed hlast := htool.trans (h.closed hlast)
  ends := h.ends

def choiceDelta (choice : Json) (st : Emit ResponsesEvent) : Emit ResponsesEvent :=
  match choice.get "delta" with
  | some delta => onDelta delta st
  | none => st

variable {choices : List Json} {st : Emit ResponsesEvent} {t : List ResponsesEvent}

theorem FinishTracked.choiceDelta_spec (h : FinishTracked choices st.ctx (t ++ st.result))
    (choice : Json) :
    (∃ q, (choiceDelta choice st).result = st.result ++ q ∧ ∀ e ∈ q, e.endsResponse = false) ∧
    ((choiceDelta choice st).ctx.messageStartSent = true ↔
      ∃ c ∈ choices ++ [choice], choiceHasDelta c = true) ∧
    (choiceDelta choice st).ctx.finishReasonSent = st.ctx.finishReasonSent ∧
    (¬ Adds choices choice → choiceDelta choice st = st) ∧
    (Adds choices choice → FinishLast choices →
      st.result.length < (choiceDelta choice st).result.length) := by
  rw [choiceDelta]
  rcases hdelta : choice.get "delta" with _ | delta
  · have hhas : choiceHasDelta choice = false := by simp [choiceHasDelta, hdelta]
    refine ⟨⟨[], by simp, by simp⟩, ?_, rfl, fun _ => rfl, fun hadds => ?_⟩
    · simp [h.created, hhas]
    · simp [Adds, choiceSpeaks, hhas, hdelta] at hadds
  · have hhas : choiceHasDelta choice = true := by simp [choiceHasDelta, hdelta]
    have hspeaks : choiceSpeaks choice = deltaSpeaks delta := by simp [choiceSpeaks, hdelta]
    obtain ⟨hext, hsent, hfinish⟩ := onDelta_goesOn delta st
    refine ⟨hext, iff_of_true hsent ⟨choice, by simp, hhas⟩, hfinish, fun hquiet => ?_,
      fun hadds hlast => ?_⟩
    · obtain ⟨hsilent, hcreated⟩ := not_adds_iff.1 hquiet
      exact onDelta_of_quiet (hspeaks ▸ hsilent) (h.created.2 (hcreated hhas))
    · refine onDelta_of_speaks (hadds.imp (fun hsays => hspeaks ▸ hsays) fun hfirst => ?_)
        (h.closed hlast)
      rw [← Bool.not_eq_true, h.created]
      rintro ⟨d, hd, hhas'⟩
      rw [hfirst.2 d hd] at hhas'
      exact absurd hhas' (by simp)

theorem onFinish_of_finishes (h : choiceFinishes choice = true) (st : Emit ResponsesEvent) :
    onFinish choice st = completeResponse st := by
  rw [choiceFinishes, decide_eq_true_eq] at h
  rw [onFinish]
  rcases hreason : choice.getStr "finish_reason" with _ | reason
  · exact absurd (by simp [hreason]) h
  · rw [hreason, Option.getD_some] at h
    simp only [if_neg h]

theorem onFinish_of_not_finishes (h : choiceFinishes choice = false) (st : Emit ResponsesEvent) :
    onFinish choice st = st := by
  rw [choiceFinishes, decide_eq_false_iff_not, not_not] at h
  rw [onFinish]
  rcases hreason : choice.getStr "finish_reason" with _ | reason
  · rfl
  · rw [hreason, Option.getD_some] at h
    simp only [if_pos h]

/-- The step lemma. -/
theorem FinishTracked.onStreamChoice (h : FinishTracked choices st.ctx (t ++ st.result))
    (choice : Json) :
    FinishTracked (choices ++ [choice]) (onStreamChoice st choice).ctx
      (t ++ (onStreamChoice st choice).result) := by
  obtain ⟨⟨q, hq, hend⟩, hcreated, hfinish, hquiet, hloud⟩ := h.choiceDelta_spec choice
  have heq : AiOpenRouter.onStreamChoice st choice = onFinish choice (choiceDelta choice st) := rfl
  -- what the delta alone does to the end of the output
  have hends : EndsCompleted (t ++ (choiceDelta choice st).result) ↔
      FinishLast choices ∧ ¬ Adds choices choice := by
    rw [hq, ← List.append_assoc, endsCompleted_append_iff hend, h.ends]
    constructor
    · rintro ⟨rfl, hlast⟩
      refine ⟨hlast, fun hadds => ?_⟩
      have hlt := hloud hadds hlast
      rw [hq, List.append_nil] at hlt
      exact absurd hlt (lt_irrefl _)
    · rintro ⟨hlast, hadds⟩
      rw [hquiet hadds] at hq
      exact ⟨List.self_eq_append_right.1 hq, hlast⟩
  rcases hsent : st.ctx.finishReasonSent with _ | _
  · have hnone : ∀ c ∈ choices, choiceFinishes c = false := by
      intro c hc
      rcases hfin : choiceFinishes c with _ | _
      · rfl
      · rw [h.finished.2 ⟨c, hc, hfin⟩] at hsent
        exact absurd hsent (by simp)
    rcases hfin : choiceFinishes choice with _ | _
    · -- the response goes on
      rw [heq, onFinish_of_not_finishes hfin]
      have hnot : ¬ FinishLast (choices ++ [choice]) := by
        intro hlast
        obtain ⟨c, hc, hfin'⟩ := hlast.finishes
        rcases List.mem_append.1 hc with hc | hc
        · rw [hnone c hc] at hfin'
          exact absurd hfin' (by simp)
        · rw [List.mem_singleton.1 hc, hfin] at hfin'
          exact absurd hfin' (by simp)
      refine ⟨hcreated, ?_, fun hlast => absurd hlast hnot, iff_of_false ?_ hnot⟩
      · rw [hfinish, h.finished]
        simp [hfin]
      · rw [hends]
        rintro ⟨hlast, -⟩
        obtain ⟨c, hc, hfin'⟩ := hlast.finishes
        rw [hnone c hc] at hfin'
        exact absurd hfin' (by simp)
    · -- this choice completes the response
      rw [heq, onFinish_of_finishes hfin]
      obtain ⟨⟨pre, id, usage, hres⟩, htool, hstart, hdone⟩ :=
        completeResponse_of_unfinished (hfinish.trans hsent)
      have hlast : FinishLast (choices ++ [choice]) := finishLast_snoc.2 (Or.inr ⟨hnone, hfin⟩)
      refine ⟨hstart ▸ hcreated, iff_of_true hdone ⟨choice, by simp, hfin⟩, fun _ => htool,
        iff_of_true ⟨t ++ pre, id, usage, Or.inr ?_⟩ hlast⟩
      rw [hres, List.append_assoc]
  · -- the response is complete already
    have hsame : onFinish choice (choiceDelta choice st) = choiceDelta choice st := by
      rcases hfin : choiceFinishes choice with _ | _
      · exact onFinish_of_not_finishes hfin _
      · rw [onFinish_of_finishes hfin]
        exact completeResponse_of_finished (hfinish.trans hsent)
    have hlast : FinishLast (choices ++ [choice]) ↔ FinishLast choices ∧ ¬ Adds choices choice := by
      rw [finishLast_snoc]
      refine or_iff_left ?_
      rintro ⟨hnone, -⟩
      obtain ⟨c, hc, hfin⟩ := h.finished.1 hsent
      rw [hnone c hc] at hfin
      exact absurd hfin (by simp)
    rw [heq, hsame]
    refine ⟨hcreated, ?_, fun hlast' => ?_, by rw [hends, hlast]⟩
    · obtain ⟨c, hc, hfin⟩ := h.finished.1 hsent
      exact iff_of_true (hfinish.trans hsent) ⟨c, by simp [hc], hfin⟩
    · obtain ⟨hfirst, hadds⟩ := hlast.1 hlast'
      rw [hquiet hadds]
      exact h.closed hfirst

theorem FinishTracked.onChoices {choices : List Json} {t : List ResponsesEvent}
    (st : Emit ResponsesEvent) (h : FinishTracked choices st.ctx (t ++ st.result))
    (more : List Json) :
    FinishTracked (choices ++ more) (more.foldl AiOpenRouter.onStreamChoice st).ctx
      (t ++ (more.foldl AiOpenRouter.onStreamChoice st).result) := by
  induction more generalizing choices st with
  | nil => simpa using h
  | cons choice more ih =>
    have hstep := ih _ (h.onStreamChoice choice)
    rwa [List.append_assoc] at hstep

/-! ### Runs -/

def isChatDone (env : Env) (event : Bytes) : Bool :=
  match readChatData env event with
  | .done => true
  | _ => false

theorem FinishTracked.step {env : Env} {ctx' : StreamContext} {event : Bytes}
    {o : List ResponsesEvent} (h : FinishTracked choices ctx t)
    (hdone : isChatDone env event = false)
    (hstep : openaiChatStreamToResponses env event ctx = .ok (o, ctx')) :
    FinishTracked (choices ++ blockChoices env event) ctx' (t ++ o) := by
  rw [openaiChatStreamToResponses] at hstep
  rw [blockChoices]
  rcases hread : readChatData env event with _ | _ | data | error
  case skip =>
    rw [hread] at hstep
    obtain ⟨rfl, rfl⟩ := Prod.mk.inj (Except.ok.inj hstep)
    simpa using h
  case done => exact absurd hdone (by simp [isChatDone, hread])
  case data =>
    rw [hread] at hstep
    obtain ⟨rfl, rfl⟩ := Prod.mk.inj (Except.ok.inj hstep)
    have hkeep : ∀ ctx : StreamContext,
        (takeUsage data (takeMessageId env data ctx)).messageStartSent = ctx.messageStartSent ∧
        (takeUsage data (takeMessageId env data ctx)).finishReasonSent = ctx.finishReasonSent ∧
        (takeUsage data (takeMessageId env data ctx)).toolBlockStarted = ctx.toolBlockStarted := by
      intro ctx
      have hid : (takeMessageId env data ctx).messageStartSent = ctx.messageStartSent ∧
          (takeMessageId env data ctx).finishReasonSent = ctx.finishReasonSent ∧
          (takeMessageId env data ctx).toolBlockStarted = ctx.toolBlockStarted := by
        rw [takeMessageId]
        split_ifs
        · rcases data.getStr "id" with _ | id
          · exact ⟨rfl, rfl, rfl⟩
          · exact ⟨rfl, rfl, rfl⟩
        · exact ⟨rfl, rfl, rfl⟩
      rw [takeUsage]
      rcases data.get "usage" with _ | usage
      · exact hid
      · exact hid
    obtain ⟨hstart, hfinish, htool⟩ := hkeep ctx
    have h0 := h.congr hstart hfinish htool
    rw [← List.append_nil t] at h0
    exact FinishTracked.onChoices ⟨takeUsage data (takeMessageId env data ctx), []⟩ h0 _
  case bad =>
    rw [hread] at hstep
    exact absurd hstep (by simp)

/-- **The end of the output**: without a done marker, the completion stands last exactly when
the finish does. -/
theorem endsCompleted_feed_iff (env : Env) (targetModel : String) {events : List Bytes}
    (hdone : ∀ event ∈ events, isChatDone env event = false)
    (hok : (feed (openaiChatStreamToResponses env) (.forModel targetModel) events).error = none) :
    EndsCompleted (feed (openaiChatStreamToResponses env) (.forModel targetModel) events).out ↔
      FinishLast (events.flatMap (blockChoices env)) := by
  have hkeep : ∀ is ctx t event o ctx', ((∀ event ∈ is, isChatDone env event = false) →
      FinishTracked (is.flatMap (blockChoices env)) ctx t) →
      openaiChatStreamToResponses env event ctx = .ok (o, ctx') →
      (∀ e ∈ is ++ [event], isChatDone env e = false) →
      FinishTracked ((is ++ [event]).flatMap (blockChoices env)) ctx' (t ++ o) := by
    intro is ctx t event o ctx' htracked hstep hall
    rw [List.flatMap_append, List.flatMap_cons, List.flatMap_nil, List.append_nil]
    exact (htracked fun e he => hall e (by simp [he])).step (hall event (by simp)) hstep
  have hnew : (∀ event ∈ ([] : List Bytes), isChatDone env event = false) →
      FinishTracked (([] : List Bytes).flatMap (blockChoices env)) (.forModel targetModel) [] :=
    fun _ => finishTracked_new targetModel
  have hrun := feed_history (R := fun is ctx t => (∀ event ∈ is, isChatDone env event = false) →
    FinishTracked (is.flatMap (blockChoices env)) ctx t) hkeep events hnew hok
  rw [List.nil_append, List.nil_append] at hrun
  exact (hrun hdone).ends

end AiOpenRouter
