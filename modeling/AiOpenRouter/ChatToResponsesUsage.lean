/-
The usage that the chat → Responses converter reports.

The converter keeps the counts of the usage objects it has read, and reports
them with the first finish; later finishes report nothing.

* `completions_chatToResponses` — what is reported, in every run;
* `usageReported_chatToResponses_iff` — the response is completed once with the
  usage of the stream exactly when that usage is known at the first finish;
* `not_usageReported_usageAfterFinish` — it is not when the usage comes last.
-/
import AiOpenRouter.ChatToResponsesItems

open Trace Ledger

namespace AiOpenRouter

/-! ### Usage objects of a stream -/

/-- What a chat stream says about usage and about its end. -/
inductive UsageOp where
  | usage (usage : Json)
  | finish

def ChatOp.finishOps : ChatOp → List UsageOp
  | finish => [.finish]
  | _ => []

def usageEventOps (env : Env) (event : Bytes) : List UsageOp :=
  match readChatData env event with
  | .done => [.finish]
  | .data data =>
    ((data.get "usage").map UsageOp.usage).toList ++
      (chatDataOps data).flatMap ChatOp.finishOps
  | _ => []

/-- What a stream says, up to the first block that is refused. -/
def usageStreamOps (env : Env) (events : List Bytes) : List UsageOp :=
  acceptedOps (acceptsChatData env) (usageEventOps env) events

/-- The last usage object; `null` is no usage object. -/
def lastUsage (ops : List UsageOp) : Option Json :=
  ops.foldl (fun last op =>
    match op with
    | .usage (.obj fields) => some (.obj fields)
    | _ => last) none

/-- The count under a key in the last usage object that has one, as an `i32`. -/
def lastCount (key : String) (ops : List UsageOp) : ℤ :=
  ops.foldl (fun known op =>
    match op with
    | .usage usage => usageCount usage key known
    | .finish => known) 0

structure Reports (usage : Json) (reported : ResponsesUsage) : Prop where
  input : usage.getI64 "prompt_tokens" = some reported.inputTokens
  output : usage.getI64 "completion_tokens" = some reported.outputTokens
  total : ∀ n, usage.getI64 "total_tokens" = some n → n = reported.totalTokens

/-- The response is completed once, with the last usage of the stream. -/
def UsageReported (ops : List UsageOp) (t : List ResponsesEvent) : Prop :=
  ∃ reported, completions t = [reported] ∧ ∀ usage, lastUsage ops = some usage →
    Reports usage reported

def knownUsage (ops : List UsageOp) : ResponsesUsage where
  inputTokens := lastCount "prompt_tokens" ops
  outputTokens := lastCount "completion_tokens" ops
  totalTokens := wrapI32 (lastCount "prompt_tokens" ops + lastCount "completion_tokens" ops)

/-- The stream finishes, and the counts known at the first finish are those of its last
usage. -/
def UsageInTime (ops : List UsageOp) : Prop :=
  ∃ head tail, ops = head ++ .finish :: tail ∧ .finish ∉ head ∧
    ∀ usage, lastUsage ops = some usage → Reports usage (knownUsage head)

/-! ### The ledger -/

/-- The operations so far, and the report that was due at the first finish. -/
structure UsageLedger where
  read : List UsageOp
  reported : Option ResponsesUsage

def usageLedger : OpSystem UsageLedger UsageOp where
  next b op :=
    { read := b.read ++ [op]
      reported := b.reported.or (match op with
        | .finish => some (knownUsage b.read)
        | .usage _ => none) }
  fits _ _ := True

structure UsageTracked (b : UsageLedger) (ctx : StreamContext) (t : List ResponsesEvent) :
    Prop where
  inputTokens : ctx.inputTokens = lastCount "prompt_tokens" b.read
  outputTokens : ctx.outputTokens = lastCount "completion_tokens" b.read
  finished : ctx.finishReasonSent = b.reported.isSome
  reported : completions t = b.reported.toList

/-- `Emit.Carries` for the usage ledger. -/
abbrev CarriesUsage (ops : List UsageOp) (st st' : Emit ResponsesEvent) : Prop :=
  Emit.Carries usageLedger UsageTracked ops st st'

/-- From `st` to `st'` nothing about usage happens. -/
structure UsageFree (st st' : Emit ResponsesEvent) : Prop where
  inputTokens : st'.ctx.inputTokens = st.ctx.inputTokens
  outputTokens : st'.ctx.outputTokens = st.ctx.outputTokens
  finished : st'.ctx.finishReasonSent = st.ctx.finishReasonSent
  reported : completions st'.result = completions st.result

variable (env : Env) (st : Emit ResponsesEvent)

theorem UsageFree.refl : UsageFree st st := ⟨rfl, rfl, rfl, rfl⟩

theorem UsageFree.trans {st st' st'' : Emit ResponsesEvent} (h : UsageFree st st')
    (h' : UsageFree st' st'') : UsageFree st st'' :=
  ⟨h'.inputTokens.trans h.inputTokens, h'.outputTokens.trans h.outputTokens,
    h'.finished.trans h.finished, h'.reported.trans h.reported⟩

theorem usageFree_push {e : ResponsesEvent} (he : e.completedUsage = none) :
    UsageFree st (st.push e) :=
  ⟨rfl, rfl, rfl, by simp [he]⟩

theorem UsageFree.carries {st st' : Emit ResponsesEvent} (h : UsageFree st st') :
    CarriesUsage [] st st' := by
  intro b t hb _
  refine ⟨h.inputTokens.trans hb.inputTokens, h.outputTokens.trans hb.outputTokens,
    h.finished.trans hb.finished, ?_⟩
  have hreported := hb.reported
  rw [completions_append] at hreported ⊢
  rw [h.reported]
  exact hreported

/-! ### What the helpers carry -/

theorem usageFree_ensureCreated : UsageFree st (ensureCreated st) := by
  rw [ensureCreated]
  split_ifs
  · exact UsageFree.refl st
  · exact (usageFree_push st (e := .created st.ctx.messageId) rfl).trans ⟨rfl, rfl, rfl, rfl⟩

theorem usageFree_emitContent (content : String) (st : Emit ResponsesEvent) :
    UsageFree st (emitContent content st) := by
  have hitem : UsageFree st (ensureMessageItem st) := by
    rw [ensureMessageItem]
    split_ifs
    · exact UsageFree.refl st
    · exact ⟨rfl, rfl, rfl, by simp [ResponsesEvent.completedUsage]⟩
  exact hitem.trans (usageFree_push _ rfl)

theorem usageFree_leaveMessageItem : UsageFree st (leaveMessageItem st) := by
  rw [leaveMessageItem]
  split_ifs
  · exact ⟨rfl, rfl, rfl, by simp [ResponsesEvent.completedUsage]⟩
  · exact UsageFree.refl st

theorem usageFree_closeMessageItem : UsageFree st (closeMessageItem st) := by
  rw [closeMessageItem]
  split_ifs
  · exact ⟨rfl, rfl, rfl, by simp [ResponsesEvent.completedUsage]⟩
  · exact UsageFree.refl st

theorem usageFree_closeFunctionCall : UsageFree st (closeFunctionCall st) := by
  rw [closeFunctionCall]
  by_cases hopen : st.ctx.toolBlockStarted = true
  · rw [if_pos hopen]
    exact ⟨rfl, rfl, rfl, by simp [ResponsesEvent.completedUsage]⟩
  · rw [if_neg hopen]
    exact UsageFree.refl st

theorem usageFree_openFunctionCall (toolIdx : ℤ) (id function : Json) (st : Emit ResponsesEvent) :
    UsageFree st (openFunctionCall toolIdx id function st) := by
  rw [openFunctionCall]
  split_ifs
  · have hname : ∀ ctx, (takeToolName id function ctx).inputTokens = ctx.inputTokens ∧
        (takeToolName id function ctx).outputTokens = ctx.outputTokens ∧
        (takeToolName id function ctx).finishReasonSent = ctx.finishReasonSent := by
      intro ctx
      rw [takeToolName]
      split <;> exact ⟨rfl, rfl, rfl⟩
    obtain ⟨hinput, houtput, hfinished⟩ := hname
      { st.ctx with toolBlockStarted := true, toolIndex := toolIdx, toolArguments := "" }
    exact ⟨hinput, houtput, hfinished, by simp [ResponsesEvent.completedUsage]⟩
  · exact UsageFree.refl st

theorem usageFree_startFunctionCall (toolIdx : ℤ) (id function : Option Json)
    (st : Emit ResponsesEvent) : UsageFree st (startFunctionCall toolIdx id function st) := by
  rcases id with _ | id
  · exact UsageFree.refl st
  · rcases function with _ | function
    · exact UsageFree.refl st
    · exact (usageFree_leaveMessageItem st).trans (usageFree_openFunctionCall _ _ _ _)

theorem usageFree_emitArguments (function : Option Json) (st : Emit ResponsesEvent) :
    UsageFree st (emitArguments function st) := by
  rw [emitArguments]
  rcases function.bind fun function => function.getStr "arguments" with _ | args
  · exact UsageFree.refl st
  · exact ⟨rfl, rfl, rfl, by simp [ResponsesEvent.completedUsage]⟩

theorem usageFree_onToolCallDelta (tc : Json) (st : Emit ResponsesEvent) :
    UsageFree st (onToolCallDelta st tc) :=
  (usageFree_startFunctionCall _ _ _ st).trans (usageFree_emitArguments _ _)

theorem usageFree_onDelta (delta : Json) (st : Emit ResponsesEvent) :
    UsageFree st (onDelta delta st) := by
  have htext : ∀ st, UsageFree st
      ((delta.getStr "content").elim st fun content => emitContent content st) := by
    intro st
    rcases delta.getStr "content" with _ | content
    · exact UsageFree.refl st
    · exact usageFree_emitContent content st
  have htools : ∀ (tcs : List Json) st, UsageFree st (tcs.foldl onToolCallDelta st) := by
    intro tcs
    induction tcs with
    | nil => exact UsageFree.refl
    | cons tc tcs ih => exact fun st => (usageFree_onToolCallDelta tc st).trans (ih _)
  rw [onDelta_elim]
  exact ((usageFree_ensureCreated st).trans (htext _)).trans (htools _ _)

theorem finishOps_deltaOps (delta : Json) : (deltaOps delta).flatMap ChatOp.finishOps = [] := by
  rw [List.flatMap_eq_nil_iff]
  intro op hop
  rw [deltaOps] at hop
  rcases List.mem_append.1 hop with hop | hop
  · split_ifs at hop
    · rw [List.mem_singleton.1 hop]
      rfl
    · simp at hop
  · obtain ⟨tc, -, htc⟩ := List.mem_flatMap.1 hop
    rw [List.mem_singleton.1 htc]
    rfl

theorem carriesUsage_completeResponse : CarriesUsage [.finish] st (completeResponse st) := by
  intro b t hb _
  rw [completeResponse, hb.finished]
  rcases hreported : b.reported with _ | reported
  · have hfree := (usageFree_closeFunctionCall st).trans (usageFree_closeMessageItem _)
    have hclosed : UsageTracked b _ (t ++ _) := hfree.carries b t hb trivial
    have husage : reportedUsage (closeMessageItem (closeFunctionCall st)).ctx
        = knownUsage b.read := by
      rw [reportedUsage, hclosed.inputTokens, hclosed.outputTokens]
      rfl
    have hread : ∀ key, lastCount key (b.read ++ [.finish]) = lastCount key b.read := by
      intro key
      rw [lastCount, List.foldl_append]
      rfl
    rw [if_neg (by simp), OpSystem.run_cons, OpSystem.run_nil]
    refine ⟨hclosed.inputTokens.trans (hread _).symm, hclosed.outputTokens.trans (hread _).symm,
      ?_, ?_⟩
    · simp [usageLedger, hreported]
    · have hnone := hclosed.reported
      rw [hreported, Option.toList_none, completions_append, List.append_eq_nil_iff] at hnone
      simp [usageLedger, hreported, husage, hnone.1, hnone.2, ResponsesEvent.completedUsage]
  · have hread : ∀ key, lastCount key (b.read ++ [.finish]) = lastCount key b.read := by
      intro key
      rw [lastCount, List.foldl_append]
      rfl
    rw [if_pos (by simp)]
    refine ⟨hb.inputTokens.trans (hread _).symm, hb.outputTokens.trans (hread _).symm, ?_, ?_⟩
    · simpa [usageLedger, hreported] using hb.finished
    · simpa [usageLedger, hreported] using hb.reported

theorem carriesUsage_onStreamChoice (choice : Json) (st : Emit ResponsesEvent) :
    CarriesUsage ((choiceOps choice).flatMap ChatOp.finishOps) st (onStreamChoice st choice) := by
  have hdelta : CarriesUsage ((((choice.get "delta").map deltaOps).getD []).flatMap
      ChatOp.finishOps) st
      ((choice.get "delta").elim st fun delta => onDelta delta st) := by
    rcases choice.get "delta" with _ | delta
    · exact Emit.Carries.refl st
    · rw [Option.map_some, Option.getD_some, finishOps_deltaOps]
      exact (usageFree_onDelta delta st).carries
  have hfinish : ∀ st, CarriesUsage ((if (choice.getStr "finish_reason").getD "" = "" then []
      else [ChatOp.finish]).flatMap ChatOp.finishOps) st (onFinish choice st) := by
    intro st
    rw [onFinish]
    rcases choice.getStr "finish_reason" with _ | finishReason
    · exact Emit.Carries.refl st
    · rw [Option.getD_some]
      simp only
      split_ifs
      · exact Emit.Carries.refl st
      · exact carriesUsage_completeResponse st
  rw [choiceOps, List.flatMap_append, onStreamChoice_elim]
  exact hdelta.trans (hfinish _)

theorem carriesUsage_takeUsage (data : Json) (st : Emit ResponsesEvent) :
    CarriesUsage ((data.get "usage").map UsageOp.usage).toList st
      (st.withCtx fun ctx => takeUsage data (takeMessageId env data ctx)) := by
  intro b t hb _
  have hid : (takeMessageId env data st.ctx).inputTokens = st.ctx.inputTokens ∧
      (takeMessageId env data st.ctx).outputTokens = st.ctx.outputTokens ∧
      (takeMessageId env data st.ctx).finishReasonSent = st.ctx.finishReasonSent := by
    rw [takeMessageId]
    split_ifs
    · rcases data.getStr "id" with _ | id <;> exact ⟨rfl, rfl, rfl⟩
    · exact ⟨rfl, rfl, rfl⟩
  obtain ⟨hinput, houtput, hfinished⟩ := hid
  rcases husage : data.get "usage" with _ | usage
  · have htake : takeUsage data (takeMessageId env data st.ctx)
        = takeMessageId env data st.ctx := by rw [takeUsage, husage]
    rw [Emit.withCtx_ctx, htake]
    exact ⟨hinput.trans hb.inputTokens, houtput.trans hb.outputTokens,
      hfinished.trans hb.finished, hb.reported⟩
  · have hread : ∀ key, lastCount key (b.read ++ [.usage usage])
        = usageCount usage key (lastCount key b.read) := by
      intro key
      rw [lastCount, List.foldl_append]
      rfl
    rw [Emit.withCtx_ctx, takeUsage, husage]
    refine ⟨?_, ?_, ?_, ?_⟩
    · show usageCount usage "prompt_tokens" (takeMessageId env data st.ctx).inputTokens
        = lastCount "prompt_tokens" (b.read ++ [.usage usage])
      rw [hread, hinput, hb.inputTokens]
    · show usageCount usage "completion_tokens" (takeMessageId env data st.ctx).outputTokens
        = lastCount "completion_tokens" (b.read ++ [.usage usage])
      rw [hread, houtput, hb.outputTokens]
    · simpa [usageLedger] using hfinished.trans hb.finished
    · simpa [usageLedger] using hb.reported

theorem carriesUsage_convertChatData (data : Json) (st : Emit ResponsesEvent) :
    CarriesUsage (((data.get "usage").map UsageOp.usage).toList ++
      (chatDataOps data).flatMap ChatOp.finishOps) st (convertChatData env data st) := by
  refine (carriesUsage_takeUsage env data st).trans ?_
  rw [chatDataOps, List.flatMap_assoc]
  exact Emit.Carries.foldl carriesUsage_onStreamChoice _ _

/-! ### Runs -/

/-- The step lemma: an accepted block carries what it says. -/
theorem carriesUsage_openaiChatStreamToResponses (event : Bytes) (ctx : StreamContext)
    (h : acceptsChatData env event = true) :
    ∃ o ctx', openaiChatStreamToResponses env event ctx = .ok (o, ctx') ∧
      Carries usageLedger UsageTracked (usageEventOps env event) ctx o ctx' := by
  rw [acceptsChatData] at h
  rw [openaiChatStreamToResponses, usageEventOps]
  rcases hread : readChatData env event with _ | _ | data | error
  case skip => exact ⟨[], ctx, rfl, Ledger.Carries.nil ctx⟩
  case done => exact ⟨_, _, rfl, (carriesUsage_completeResponse _).finish⟩
  case data => exact ⟨_, _, rfl, (carriesUsage_convertChatData env data _).finish⟩
  case bad => exact absurd h (by simp [hread])

theorem usageLedger_fits (ops : List UsageOp) : ∀ b, usageLedger.Fits b ops := by
  induction ops with
  | nil => exact fun _ => trivial
  | cons op ops ih => exact fun b => ⟨trivial, ih _⟩

def dueReport : List UsageOp → List UsageOp → Option ResponsesUsage
  | _, [] => none
  | read, .finish :: _ => some (knownUsage read)
  | read, .usage usage :: ops => dueReport (read ++ [.usage usage]) ops

theorem reported_run (ops : List UsageOp) : ∀ b : UsageLedger,
    (usageLedger.run b ops).reported = b.reported.or (dueReport b.read ops) := by
  induction ops with
  | nil => exact fun b => (Option.or_none).symm
  | cons op ops ih =>
    intro b
    rw [OpSystem.run_cons, ih]
    rcases op with usage | _
    · show (b.reported.or none).or _ = _
      rw [Option.or_none]
      rfl
    · show (b.reported.or (some (knownUsage b.read))).or _ =
          b.reported.or (some (knownUsage b.read))
      rcases b.reported with _ | reported <;> rfl

/-- **What is reported**: the counts known at the first finish, once. -/
theorem completions_chatToResponses (events : List Bytes) :
    completions (chatToResponsesRun env events).out
      = (dueReport [] (usageStreamOps env events)).toList := by
  have htracked := Carries.feed (S := usageLedger) (openaiChatStreamToResponses_refuses env)
    (carriesUsage_openaiChatStreamToResponses env) events
    (b := ⟨[], none⟩) (s := StreamContext.new) (t := []) ⟨rfl, rfl, rfl, rfl⟩
    (usageLedger_fits _ _)
  have hreported := htracked.reported
  rw [List.nil_append, reported_run] at hreported
  exact hreported

theorem dueReport_eq_some {ops : List UsageOp} {reported : ResponsesUsage} :
    ∀ {read : List UsageOp}, dueReport read ops = some reported ↔
      ∃ head tail, ops = head ++ .finish :: tail ∧ .finish ∉ head ∧
        reported = knownUsage (read ++ head) := by
  induction ops with
  | nil =>
    intro read
    simp [dueReport]
  | cons op ops ih =>
    intro read
    rcases op with usage | _
    · rw [dueReport, ih]
      constructor
      · rintro ⟨head, tail, rfl, hfirst, hreported⟩
        refine ⟨.usage usage :: head, tail, rfl, by simpa using hfirst, ?_⟩
        rwa [List.append_assoc, List.singleton_append] at hreported
      · rintro ⟨head, tail, hops, hfirst, hreported⟩
        rcases head with _ | ⟨op, head⟩
        · exact absurd (List.cons.inj hops).1 (by simp)
        · obtain ⟨rfl, rfl⟩ := List.cons.inj hops
          refine ⟨head, tail, rfl, fun hmem => hfirst (List.mem_cons_of_mem _ hmem), ?_⟩
          rwa [List.append_assoc, List.singleton_append]
    · rw [dueReport, Option.some.injEq]
      constructor
      · rintro rfl
        exact ⟨[], ops, rfl, by simp, by rw [List.append_nil]⟩
      · rintro ⟨head, tail, hops, hfirst, rfl⟩
        rcases head with _ | ⟨op, head⟩
        · rw [List.append_nil]
        · obtain ⟨rfl, -⟩ := List.cons.inj hops
          exact absurd (List.mem_cons_self) hfirst

/-- **Usage is reported** exactly when it is known at the first finish. -/
theorem usageReported_chatToResponses_iff (env : Env) (events : List Bytes) :
    UsageReported (usageStreamOps env events) (chatToResponsesRun env events).out ↔
      UsageInTime (usageStreamOps env events) := by
  rw [UsageReported, UsageInTime, completions_chatToResponses]
  constructor
  · rintro ⟨reported, hdue, hlast⟩
    have hsome : dueReport [] (usageStreamOps env events) = some reported := by
      rcases hd : dueReport [] (usageStreamOps env events) with _ | due
      · rw [hd] at hdue
        exact absurd hdue (by simp)
      · rw [hd] at hdue
        rw [List.singleton_injective hdue]
    obtain ⟨head, tail, hops, hfirst, rfl⟩ := dueReport_eq_some.1 hsome
    exact ⟨head, tail, hops, hfirst, hlast⟩
  · rintro ⟨head, tail, hops, hfirst, hlast⟩
    have hsome : dueReport [] _ = some (knownUsage ([] ++ head)) :=
      dueReport_eq_some.2 ⟨head, tail, hops, hfirst, rfl⟩
    refine ⟨knownUsage head, ?_, hlast⟩
    rw [hsome]
    rfl

/-! ### A concrete stream -/

/-- A finish, then the chunk that has the usage only. -/
def usageAfterFinish : List Json :=
  [.obj [("id", .str "c"), ("choices", .arr [.obj [("finish_reason", .str "stop")]])],
    .obj [("choices", .arr []),
      ("usage", .obj [("prompt_tokens", .int 7), ("completion_tokens", .int 2)])]]

theorem not_usageReported_usageAfterFinish :
    ¬ UsageReported (usageStreamOps (Env.ofValues usageAfterFinish)
        ((usageAfterFinish.map fun chunk => dataBlock chunk.compact) ++ [dataBlock "[DONE]"]))
      (chatToResponsesRun (Env.ofValues usageAfterFinish)
        ((usageAfterFinish.map fun chunk => dataBlock chunk.compact)
          ++ [dataBlock "[DONE]"])).out := by
  have h : completions (chatToResponsesRun (Env.ofValues usageAfterFinish)
        ((usageAfterFinish.map fun chunk => dataBlock chunk.compact)
          ++ [dataBlock "[DONE]"])).out = [⟨0, 0, 0⟩] ∧
      ((lastUsage (usageStreamOps (Env.ofValues usageAfterFinish)
        ((usageAfterFinish.map fun chunk => dataBlock chunk.compact)
          ++ [dataBlock "[DONE]"]))).bind fun usage => usage.getI64 "prompt_tokens") = some 7 := by
    decide +kernel
  rintro ⟨reported, hreported, hlast⟩
  rw [h.1] at hreported
  obtain ⟨usage, husage, hcount⟩ := Option.bind_eq_some_iff.1 h.2
  have hinput := (hlast usage husage).input
  rw [hcount, ← List.singleton_injective hreported] at hinput
  exact absurd hinput (by decide)

end AiOpenRouter
