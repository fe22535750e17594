/-
The output items of the chat → Responses converter.

A chat stream is a list of operations: content, tool call deltas and finishes.
The converter has one message item at output index 0 and one slot for a function
call item at `index + 1`; it never closes a call because another one starts.

* `wellFormed_chatToResponses` — when the operations fit that, the output is a
  well-formed Responses stream;
* `not_wellFormed_twoCalls` — two tool calls do not fit: the first item never ends.
-/
import AiOpenRouter.ChatToResponses

open Trace Ledger

namespace AiOpenRouter

open ResponsesEvent

/-! ### Operations -/

inductive ChatOp where
  /-- a content delta -/
  | text
  /-- a tool call delta: its index, whether it has an id and a function, its arguments -/
  | toolCall (index : ℤ) (opens : Bool) (fragment : String)
  /-- a finish reason or the done marker -/
  | finish
  deriving DecidableEq

def toolCallOp (tc : Json) : ChatOp :=
  .toolCall (toolCallIndex tc) ((tc.get "id").isSome && (tc.get "function").isSome)
    (((tc.get "function").bind fun function => function.getStr "arguments").getD "")

def deltaOps (delta : Json) : List ChatOp :=
  (if (delta.getStr "content").isSome then [.text] else []) ++
    (((delta.get "tool_calls").bind Json.asArray).getD []).flatMap fun tc => [toolCallOp tc]

def choiceOps (choice : Json) : List ChatOp :=
  ((choice.get "delta").map deltaOps).getD [] ++
    (if (choice.getStr "finish_reason").getD "" = "" then [] else [.finish])

def chatDataOps (data : Json) : List ChatOp :=
  (((data.get "choices").bind Json.asArray).getD []).flatMap choiceOps

def chatEventOps (env : Env) (event : Bytes) : List ChatOp :=
  match readChatData env event with
  | .done => [.finish]
  | .data data => chatDataOps data
  | _ => []

def acceptsChatData (env : Env) (event : Bytes) : Bool :=
  match readChatData env event with
  | .bad _ => false
  | _ => true

/-- The operations of a stream, up to the first block that is refused. -/
def chatStreamOps (env : Env) (events : List Bytes) : List ChatOp :=
  acceptedOps (acceptsChatData env) (chatEventOps env) events

def ChatOp.fragmentFor (index : ℤ) : ChatOp → String
  | toolCall i _ fragment => if i = index then fragment else ""
  | _ => ""

/-- The concatenated argument fragments that the upstream sent for a tool call. -/
def fragmentsOf (ops : List ChatOp) (index : ℤ) : String :=
  ops.foldl (fun acc op => acc ++ op.fragmentFor index) ""

/-- Whether the upstream opened the tool call `index`. -/
def Opens (ops : List ChatOp) (index : ℤ) : Prop :=
  ∃ fragment, .toolCall index true fragment ∈ ops

/-! ### Well-formed Responses streams -/

/-- The items of a Responses stream, given the operations it answers. -/
structure WellFormedResponses (ops : List ChatOp) (t : List ResponsesEvent) : Prop where
  /-- an item takes an output index that no earlier item has -/
  fresh : ∀ pre i item post, t = pre ++ .outputItemAdded i item :: post → addedAt pre i = 0
  /-- an added item is done once, and that before the response is completed -/
  doneOnce : ∀ pre i item post, t = pre ++ .outputItemAdded i item :: post →
    ∃ before id usage after, post = before ++ .completed id usage :: after ∧
      completions before = [] ∧ doneAt before i = 1 ∧ doneAt post i = 1
  /-- a function call item is done with the arguments sent for its tool call -/
  assembled : ∀ i id name arguments,
    .outputItemDone i (.functionCall id name arguments) ∈ t →
      (∃ index, Opens ops index ∧ toolOutputIndex index = i) ∧
      ∀ index, Opens ops index → toolOutputIndex index = i → arguments = fragmentsOf ops index

def ItemAllows (pre : List ResponsesEvent) : ResponsesEvent → Prop
  | .outputItemAdded i _ => addedAt pre i = 0 ∧ completions pre = []
  | .outputItemDone i _ => doneAt pre i < addedAt pre i ∧ completions pre = []
  | .completed _ _ => completions pre = [] ∧ ∀ i, doneAt pre i = addedAt pre i
  | _ => True

variable {t : List ResponsesEvent} {index : ℤ} {ops : List ChatOp} (env : Env)

theorem addedAt_le_one_of_permits (h : Permits ItemAllows t) (i : ℤ) : addedAt t i ≤ 1 := by
  induction t using List.reverseRecOn with
  | nil => simp
  | append_singleton t e ih =>
    rw [permits_snoc] at h
    have ht := ih h.1
    rcases he : isAddedAt i e with _ | _
    · simpa [he] using ht
    · rcases e with _ | ⟨j, item⟩ | _ | _ | _ | _ | _ | _ | _ | _ | _ <;>
        simp only [isAddedAt, decide_eq_true_eq, reduceCtorEq] at he
      have hnew := h.2.1
      rw [he] at hnew
      simp [isAddedAt, he, hnew]

theorem doneAt_eq_zero_of_completions {u : List ResponsesEvent} (h : Permits ItemAllows (t ++ u))
    (ht : completions t ≠ []) (i : ℤ) : doneAt u i = 0 := by
  induction u using List.reverseRecOn with
  | nil => rfl
  | append_singleton u e ih =>
    rw [← List.append_assoc, permits_snoc] at h
    have hu := ih h.1
    rcases he : isDoneAt i e with _ | _
    · simpa [he] using hu
    · rcases e with _ | _ | _ | _ | _ | _ | _ | _ | ⟨j, item⟩ | _ | _ <;>
        simp only [isDoneAt, reduceCtorEq] at he
      have hopen := h.2.2
      rw [completions_append, List.append_eq_nil_iff] at hopen
      exact absurd hopen.1 ht

theorem doneAt_le_addedAt_of_permits (h : Permits ItemAllows t) (i : ℤ) :
    doneAt t i ≤ addedAt t i := by
  induction t using List.reverseRecOn with
  | nil => simp
  | append_singleton t e ih =>
    rw [permits_snoc] at h
    have ht := ih h.1
    rw [doneAt_append, addedAt_append]
    rcases he : isDoneAt i e with _ | _
    · rw [doneAt_cons, he]
      simp only [doneAt_nil]
      simpa using Nat.le_add_right_of_le ht
    · rcases e with _ | _ | _ | _ | _ | _ | _ | _ | ⟨j, item⟩ | _ | _ <;>
        simp only [isDoneAt, decide_eq_true_eq, reduceCtorEq] at he
      have hopen := h.2.1
      rw [he] at hopen
      simp only [doneAt_cons, addedAt_cons, isDoneAt, isAddedAt, he, doneAt_nil, addedAt_nil]
      simpa using Nat.succ_le_of_lt hopen

theorem exists_first_completed (h : completions t ≠ []) :
    ∃ before id usage after, t = before ++ .completed id usage :: after ∧
      completions before = [] := by
  induction t with
  | nil => exact absurd rfl h
  | cons e t ih =>
    rcases he : e.completedUsage with _ | usage
    · rw [completions_cons, he] at h
      obtain ⟨before, id, usage, after, rfl, hbefore⟩ := ih h
      refine ⟨e :: before, id, usage, after, rfl, ?_⟩
      rw [completions_cons, he, hbefore]
      rfl
    · rcases e with _ | _ | _ | _ | _ | _ | _ | _ | _ | ⟨id, usage'⟩ | _ <;>
        simp only [completedUsage, reduceCtorEq] at he
      exact ⟨[], id, usage', t, rfl, rfl⟩

theorem doneOnce_of_permits (h : Permits ItemAllows t) (hend : completions t ≠ [])
    {pre post : List ResponsesEvent} {i : ℤ} {item : OutputItem}
    (ht : t = pre ++ .outputItemAdded i item :: post) :
    ∃ before id usage after, post = before ++ .completed id usage :: after ∧
      completions before = [] ∧ doneAt before i = 1 ∧ doneAt post i = 1 := by
  subst ht
  obtain ⟨hnew, hpre⟩ := h pre _ post rfl
  have hpost : completions post ≠ [] := by
    intro hnone
    rw [completions_append, completions_cons, hpre, hnone] at hend
    exact hend rfl
  obtain ⟨before, id, usage, after, rfl, hbefore⟩ := exists_first_completed hpost
  have hsplit : pre ++ outputItemAdded i item :: (before ++ completed id usage :: after)
      = (pre ++ outputItemAdded i item :: before) ++ completed id usage :: after := by
    rw [List.append_assoc, List.cons_append]
  rw [hsplit] at h
  obtain ⟨-, hall⟩ := h _ _ _ rfl
  have hadded := addedAt_le_one_of_permits h.of_append i
  have hdone := doneAt_le_addedAt_of_permits (Permits.of_append h.of_append) i
  have hafter : doneAt after i = 0 := by
    refine doneAt_eq_zero_of_completions
      (t := (pre ++ outputItemAdded i item :: before) ++ [completed id usage]) ?_ ?_ i
    · rwa [List.append_assoc, List.singleton_append]
    · simp [completedUsage]
  have heq := hall i
  simp only [addedAt_append, addedAt_cons, doneAt_append, doneAt_cons, isAddedAt, isDoneAt,
    decide_true, if_true, Bool.false_eq_true, if_false, hnew] at heq hadded hdone
  have hone : doneAt before i = 1 := by omega
  refine ⟨before, id, usage, after, rfl, hbefore, hone, ?_⟩
  rw [doneAt_append, doneAt_cons, hone, hafter]
  rfl

/-! ### The ledger -/

/-- What the operations so far did to the items. -/
structure ItemLedger where
  /-- the message item was added -/
  texts : Bool
  /-- the message item is open -/
  textOpen : Bool
  /-- the tool call that has an item -/
  call : Option ℤ
  /-- the function call item is open -/
  callOpen : Bool
  /-- the response is completed -/
  finished : Bool
  /-- the arguments sent so far for each tool call -/
  fragments : ℤ → String

namespace ItemLedger

/-- Before the stream. -/
def new : ItemLedger where
  texts := false
  textOpen := false
  call := none
  callOpen := false
  finished := false
  fragments := fun _ => ""

def hasItem (b : ItemLedger) (i : ℤ) : Bool :=
  (b.texts && i = 0) || b.call.any fun index => toolOutputIndex index = i

def isOpen (b : ItemLedger) (i : ℤ) : Bool :=
  (b.textOpen && i = 0) || (b.callOpen && b.call.any fun index => toolOutputIndex index = i)

def addText (b : ItemLedger) : ItemLedger := { b with texts := true, textOpen := true }

def endText (b : ItemLedger) : ItemLedger := { b with textOpen := false }

def addCall (b : ItemLedger) (index : ℤ) : ItemLedger :=
  { b with call := some index, callOpen := true }

def endCall (b : ItemLedger) : ItemLedger := { b with callOpen := false }

def addFragment (b : ItemLedger) (index : ℤ) (fragment : String) : ItemLedger :=
  { b with fragments := fun i => if index = i then b.fragments i ++ fragment else b.fragments i }

/-- The response is completed. -/
def finish (b : ItemLedger) : ItemLedger := { b with finished := true }

/-- A tool call that has no item gets one: the response goes on, no other call has an item,
no fragment came too early, and the output index is not the message item's. -/
def FreshCall (b : ItemLedger) (index : ℤ) : Prop :=
  b.call = none ∧ b.finished = false ∧ b.fragments index = "" ∧
    (b.texts = true → toolOutputIndex index ≠ 0)

instance (b : ItemLedger) (index : ℤ) : Decidable (b.FreshCall index) :=
  inferInstanceAs (Decidable (_ ∧ _ ∧ _ ∧ _))

end ItemLedger

/-- The operations and when they fit.  A fragment fits when it is for the open call; one for
a call that has no item is lost, which does no harm as long as the call gets none. -/
def itemLedger : OpSystem ItemLedger ChatOp where
  next b
    | .text => b.addText
    | .toolCall index opens fragment =>
      (if opens then (b.endText).addCall index else b).addFragment index fragment
    | .finish => b.endCall.endText.finish
  fits b
    | .text => b.textOpen = true ∨ (b.texts = false ∧ b.finished = false ∧ b.hasItem 0 = false)
    | .toolCall index opens fragment =>
      (opens = true → (b.callOpen = true ∧ b.call = some index) ∨ b.FreshCall index) ∧
      (fragment ≠ "" → opens = true ∨ (b.callOpen = true ∧ b.call = some index) ∨
        (b.callOpen = false ∧ b.call ≠ some index))
    | .finish => True

instance (b : ItemLedger) (op : ChatOp) : Decidable (itemLedger.fits b op) :=
  match op with
  | .text => inferInstanceAs (Decidable (_ ∨ _))
  | .toolCall _ _ _ => inferInstanceAs (Decidable (_ ∧ _))
  | .finish => .isTrue trivial

/-! ### The context, the trace and the ledger -/

structure CtxOf (b : ItemLedger) (ctx : StreamContext) : Prop where
  finished : ctx.finishReasonSent = b.finished
  textOpen : ctx.contentBlockStarted = b.textOpen
  contentIndex : b.textOpen = true → ctx.contentIndex = 0
  callOpen : ctx.toolBlockStarted = b.callOpen
  current : b.callOpen = true → ∃ index, b.call = some index ∧
    ctx.toolIndex = toolOutputIndex index ∧ ctx.toolArguments = b.fragments index

structure ItemLedger.Consistent (b : ItemLedger) : Prop where
  texts : b.textOpen = true → b.texts = true
  ended : b.finished = true → b.textOpen = false ∧ b.callOpen = false
  apart : b.texts = true → ∀ index, b.call = some index → toolOutputIndex index ≠ 0

structure TraceOf (b : ItemLedger) (t : List ResponsesEvent) : Prop where
  added : ∀ i, addedAt t i = (b.hasItem i).toNat
  done : ∀ i, doneAt t i + (b.isOpen i).toNat = (b.hasItem i).toNat
  completed : completions t = [] ↔ b.finished = false
  permits : Permits ItemAllows t
  assembled : ∀ i id name arguments,
    .outputItemDone i (.functionCall id name arguments) ∈ t →
      b.callOpen = false ∧ ∃ index, b.call = some index ∧ toolOutputIndex index = i ∧
        arguments = b.fragments index

structure ItemsTracked (b : ItemLedger) (ctx : StreamContext) (t : List ResponsesEvent) :
    Prop where
  consistent : b.Consistent
  ctxOf : CtxOf b ctx
  traceOf : TraceOf b t

theorem itemsTracked_new : ItemsTracked ItemLedger.new StreamContext.new [] where
  consistent := ⟨by decide, by decide, by decide⟩
  ctxOf := ⟨rfl, rfl, by decide, rfl, by decide⟩
  traceOf := ⟨fun _ => rfl, fun _ => rfl, by simp [ItemLedger.new], permits_nil, by simp⟩

section Trace

variable {b : ItemLedger} {t : List ResponsesEvent}

def ResponsesEvent.isQuiet : ResponsesEvent → Bool
  | outputItemAdded _ _ => false
  | outputItemDone _ _ => false
  | completed _ _ => false
  | _ => true

theorem TraceOf.quiet (h : TraceOf b t) {e : ResponsesEvent} (he : e.isQuiet = true) :
    TraceOf b (t ++ [e]) := by
  have hadded : ∀ i, isAddedAt i e = false := by
    intro i
    rcases e <;> simp_all [isQuiet, isAddedAt]
  have hdone : ∀ i, isDoneAt i e = false := by
    intro i
    rcases e <;> simp_all [isQuiet, isDoneAt]
  have husage : e.completedUsage = none := by
    rcases e <;> simp_all [isQuiet, completedUsage]
  have hallow : ItemAllows t e := by
    rcases e <;> simp_all [isQuiet, ItemAllows]
  refine ⟨fun i => ?_, fun i => ?_, ?_, permits_snoc.2 ⟨h.permits, hallow⟩, ?_⟩
  · simpa [hadded] using h.added i
  · simpa [hdone] using h.done i
  · simpa [husage] using h.completed
  · intro i id name arguments hmem
    refine h.assembled i id name arguments ?_
    rcases List.mem_append.1 hmem with hmem | hmem
    · exact hmem
    · rw [List.mem_singleton] at hmem
      rw [← hmem] at he
      exact absurd he (by simp [isQuiet])

theorem TraceOf.add (h : TraceOf b t) {b' : ItemLedger} {i : ℤ} {item : OutputItem}
    (hgoes : b.finished = false) (hnew : b.hasItem i = false)
    (hfinished : b'.finished = b.finished) (hhas : ∀ j, b'.hasItem j = (b.hasItem j || j = i))
    (hopen : ∀ j, b'.isOpen j = (b.isOpen j || j = i))
    (hcalls : b.call = none ∨ (b'.call = b.call ∧ b'.callOpen = b.callOpen ∧
      b'.fragments = b.fragments)) :
    TraceOf b' (t ++ [.outputItemAdded i item]) := by
  have hold : b.isOpen i = false := by
    have := h.done i
    rw [hnew] at this
    rcases hi : b.isOpen i with _ | _
    · rfl
    · rw [hi] at this
      simp at this
  refine ⟨fun j => ?_, fun j => ?_, ?_, permits_snoc.2 ⟨h.permits, ?_⟩, ?_⟩
  · rw [addedAt_append, h.added j, hhas j]
    by_cases hj : j = i
    · subst hj
      simp [hnew, isAddedAt]
    · simp [hj, isAddedAt, Ne.symm hj]
  · rw [doneAt_append, hhas j, hopen j]
    by_cases hj : j = i
    · subst hj
      have := h.done j
      rw [hold, hnew] at this
      simp [isDoneAt] at this ⊢
      exact this
    · simpa [hj, isDoneAt] using h.done j
  · rw [completions_append, hfinished]
    simpa [completedUsage] using h.completed
  · refine ⟨?_, h.completed.2 hgoes⟩
    rw [h.added i, hnew]
    rfl
  · intro j id name arguments hmem
    rw [List.mem_append, List.mem_singleton] at hmem
    rcases hmem with hmem | hmem
    · have hdone := h.assembled j id name arguments hmem
      rcases hcalls with hnone | ⟨hcall, hcallOpen, hfragments⟩
      · obtain ⟨-, index, hsome, -⟩ := hdone
        rw [hnone] at hsome
        exact absurd hsome (by simp)
      · rw [hcall, hcallOpen, hfragments]
        exact hdone
    · exact absurd hmem (by simp)

theorem TraceOf.close (h : TraceOf b t) {b' : ItemLedger} {i : ℤ} {item : OutputItem}
    (hgoes : b.finished = false) (hitem : b.isOpen i = true)
    (hfinished : b'.finished = b.finished) (hhas : ∀ j, b'.hasItem j = b.hasItem j)
    (hopen : ∀ j, b'.isOpen j = (b.isOpen j && j ≠ i))
    (hcalls : b'.call = b.call ∧ b'.fragments = b.fragments ∧
      (b.callOpen = false → b'.callOpen = false))
    (harguments : ∀ id name arguments, item = .functionCall id name arguments →
      b'.callOpen = false ∧ ∃ index, b.call = some index ∧ toolOutputIndex index = i ∧
        arguments = b.fragments index) :
    TraceOf b' (t ++ [.outputItemDone i item]) := by
  have hlt : doneAt t i < addedAt t i := by
    have := h.done i
    rw [hitem] at this
    rw [h.added i, ← this]
    simp
  refine ⟨fun j => ?_, fun j => ?_, ?_, permits_snoc.2 ⟨h.permits, hlt, h.completed.2 hgoes⟩,
    ?_⟩
  · rw [addedAt_append, h.added j, hhas j]
    simp [isAddedAt]
  · rw [doneAt_append, hhas j, hopen j, ← h.done j]
    by_cases hj : j = i
    · subst hj
      simp [hitem, isDoneAt]
    · simp [hj, isDoneAt, Ne.symm hj]
  · rw [completions_append, hfinished]
    simpa [completedUsage] using h.completed
  · intro j id name arguments hmem
    rw [hcalls.1, hcalls.2.1]
    rw [List.mem_append, List.mem_singleton] at hmem
    rcases hmem with hmem | hmem
    · obtain ⟨hcallOpen, hdone⟩ := h.assembled j id name arguments hmem
      exact ⟨hcalls.2.2 hcallOpen, hdone⟩
    · obtain ⟨rfl, heq⟩ := outputItemDone.inj hmem
      exact harguments id name arguments heq.symm

theorem TraceOf.complete (h : TraceOf b t) (hgoes : b.finished = false)
    (hclosed : ∀ i, b.isOpen i = false) (id : String) (usage : ResponsesUsage) :
    TraceOf b.finish (t ++ [.completed id usage]) := by
  refine ⟨fun j => ?_, fun j => ?_, ?_, permits_snoc.2 ⟨h.permits, h.completed.2 hgoes, ?_⟩,
    ?_⟩
  · rw [addedAt_append, h.added j]
    simp [isAddedAt, ItemLedger.hasItem, ItemLedger.finish]
  · rw [doneAt_append]
    simpa [isDoneAt, ItemLedger.hasItem, ItemLedger.isOpen, ItemLedger.finish] using h.done j
  · simp [completedUsage, ItemLedger.finish]
  · intro i
    have := h.done i
    rw [hclosed i] at this
    rw [h.added i, ← this]
    simp
  · intro j id name arguments hmem
    rw [List.mem_append, List.mem_singleton] at hmem
    rcases hmem with hmem | hmem
    · exact h.assembled j id name arguments hmem
    · exact absurd hmem (by simp)

theorem TraceOf.addFragment (h : TraceOf b t) {index : ℤ}
    (hfit : b.callOpen = true ∨ b.call ≠ some index) (fragment : String) :
    TraceOf (b.addFragment index fragment) t := by
  refine ⟨h.added, h.done, h.completed, h.permits, fun i id name arguments hmem => ?_⟩
  obtain ⟨hclosed, j, hj, hi, harguments⟩ := h.assembled i id name arguments hmem
  refine ⟨hclosed, j, hj, hi, ?_⟩
  have hne : index ≠ j := by
    rintro rfl
    rcases hfit with hopen | hother
    · rw [hopen] at hclosed
      exact absurd hclosed (by simp)
    · exact hother hj
  rw [harguments]
  exact (if_neg hne).symm

end Trace

/-! ### What the helpers carry -/

/-- The ledger describes a running conversion that goes on after `t`. -/
def Tracked (b : ItemLedger) (t : List ResponsesEvent) (st : Emit ResponsesEvent) : Prop :=
  ItemsTracked b st.ctx (t ++ st.result)

section Helpers

variable {b : ItemLedger} {t : List ResponsesEvent} {st : Emit ResponsesEvent}

theorem Tracked.quiet (h : Tracked b t st) {e : ResponsesEvent} (he : e.isQuiet = true) :
    Tracked b t (st.push e) := by
  refine ⟨h.consistent, h.ctxOf, ?_⟩
  rw [Emit.push_result, ← List.append_assoc]
  exact h.traceOf.quiet he

theorem tracked_ensureCreated (h : Tracked b t st) : Tracked b t (ensureCreated st) := by
  rw [ensureCreated]
  split_ifs
  · exact h
  · have hquiet := h.quiet (e := .created st.ctx.messageId) rfl
    exact ⟨h.consistent, ⟨h.ctxOf.finished, h.ctxOf.textOpen, h.ctxOf.contentIndex,
      h.ctxOf.callOpen, h.ctxOf.current⟩, hquiet.traceOf⟩

/-! ### The message item -/

theorem tracked_ensureMessageItem (h : Tracked b t st) (hfit : itemLedger.fits b .text) :
    Tracked b.addText t (ensureMessageItem st) := by
  rw [ensureMessageItem]
  rcases hopen : b.textOpen with _ | _
  · obtain ⟨htexts, hgoes, hnew⟩ := hfit.resolve_left (by simp [hopen])
    rw [h.ctxOf.textOpen, hopen]
    have hadd : TraceOf b.addText (t ++ st.result ++ [.outputItemAdded 0
        (.message (messageItemId { st.ctx with contentBlockStarted := true, contentIndex := 0 }))])
        := by
      refine h.traceOf.add hgoes hnew rfl (fun j => ?_) (fun j => ?_) (Or.inr ⟨rfl, rfl, rfl⟩)
      · simp [ItemLedger.hasItem, ItemLedger.addText, htexts, Bool.or_comm]
      · simp [ItemLedger.isOpen, ItemLedger.addText, hopen, Bool.or_comm]
    refine ⟨⟨fun _ => rfl, fun hfin => ?_, fun _ index hcall => ?_⟩,
      ⟨h.ctxOf.finished, rfl, fun _ => rfl, h.ctxOf.callOpen, h.ctxOf.current⟩, ?_⟩
    · rw [ItemLedger.addText, hgoes] at hfin
      exact absurd hfin (by simp)
    · intro hzero
      replace hcall : b.call = some index := hcall
      simp [ItemLedger.hasItem, hcall, hzero] at hnew
    · have hpart := hadd.quiet (e := .contentPartAdded 0) rfl
      simpa using hpart
  · rw [h.ctxOf.textOpen, hopen, if_pos rfl]
    have heq : b.addText = b := by
      rcases b with ⟨texts, textOpen, call, callOpen, finished, fragments⟩
      have htexts := h.consistent.texts hopen
      simp only at hopen htexts
      rw [ItemLedger.addText, hopen, htexts]
    rw [heq]
    exact h

theorem tracked_emitContent (h : Tracked b t st) (hfit : itemLedger.fits b .text)
    (content : String) : Tracked b.addText t (emitContent content st) :=
  (tracked_ensureMessageItem h hfit).quiet rfl

theorem Tracked.endText (h : Tracked b t st) (hopen : b.textOpen = true) (id : String) :
    Tracked b.endText t ((st.push (.outputItemDone st.ctx.contentIndex (.message id))).withCtx
      fun ctx => { ctx with contentBlockStarted := false }) := by
  have htexts := h.consistent.texts hopen
  have hgoes : b.finished = false := by
    rcases hfin : b.finished with _ | _
    · rfl
    · rw [(h.consistent.ended hfin).1] at hopen
      exact absurd hopen (by simp)
  refine ⟨⟨fun hopen' => absurd hopen' (by simp [ItemLedger.endText]), fun hfin =>
      ⟨rfl, (h.consistent.ended hfin).2⟩, h.consistent.apart⟩,
    ⟨h.ctxOf.finished, rfl, fun hopen' => absurd hopen' (by simp [ItemLedger.endText]),
      h.ctxOf.callOpen, h.ctxOf.current⟩, ?_⟩
  rw [Emit.withCtx_result, Emit.push_result, ← List.append_assoc, h.ctxOf.contentIndex hopen]
  refine h.traceOf.close hgoes (by simp [ItemLedger.isOpen, hopen]) rfl (fun _ => rfl)
    (fun j => ?_) ⟨rfl, rfl, fun hclosed => hclosed⟩ (fun _ _ _ hitem => absurd hitem (by simp))
  by_cases hj : j = 0
  · -- the function call item is not at index 0
    subst hj
    rcases hcall : b.call with _ | index
    · simp [ItemLedger.isOpen, ItemLedger.endText, hcall]
    · simp [ItemLedger.isOpen, ItemLedger.endText, hcall, h.consistent.apart htexts index hcall]
  · simp [ItemLedger.isOpen, ItemLedger.endText, hj]

theorem ItemLedger.endText_of_not_open (hopen : b.textOpen = false) : b.endText = b := by
  rcases b with ⟨texts, textOpen, call, callOpen, finished, fragments⟩
  simp only at hopen
  rw [ItemLedger.endText, hopen]

theorem tracked_leaveMessageItem (h : Tracked b t st) :
    Tracked b.endText t (leaveMessageItem st) := by
  rw [leaveMessageItem, h.ctxOf.textOpen]
  rcases hopen : b.textOpen with _ | _
  · rw [ItemLedger.endText_of_not_open hopen]
    exact h
  · exact (h.quiet (e := .outputTextDone st.ctx.contentIndex) rfl).endText hopen _

theorem tracked_closeMessageItem (h : Tracked b t st) :
    Tracked b.endText t (closeMessageItem st) := by
  rw [closeMessageItem, h.ctxOf.textOpen]
  rcases hopen : b.textOpen with _ | _
  · rw [ItemLedger.endText_of_not_open hopen]
    exact h
  · have hquiet := (h.quiet (e := .outputTextDone st.ctx.contentIndex) rfl).quiet
      (e := .contentPartDone st.ctx.contentIndex) rfl
    exact hquiet.endText hopen _

/-! ### The function call item -/

theorem CtxOf.congr {ctx ctx' : StreamContext} (h : CtxOf b ctx)
    (hfinish : ctx'.finishReasonSent = ctx.finishReasonSent)
    (hstarted : ctx'.contentBlockStarted = ctx.contentBlockStarted)
    (hindex : ctx'.contentIndex = ctx.contentIndex)
    (htool : ctx'.toolBlockStarted = ctx.toolBlockStarted)
    (htoolIndex : ctx'.toolIndex = ctx.toolIndex)
    (harguments : ctx'.toolArguments = ctx.toolArguments) : CtxOf b ctx' := by
  refine ⟨hfinish.trans h.finished, hstarted.trans h.textOpen,
    fun hopen => hindex.trans (h.contentIndex hopen), htool.trans h.callOpen, fun hopen => ?_⟩
  rw [htoolIndex, harguments]
  exact h.current hopen

theorem CtxOf.takeToolName {ctx : StreamContext} (h : CtxOf b ctx) (id function : Json) :
    CtxOf b (takeToolName id function ctx) := by
  rw [AiOpenRouter.takeToolName]
  split
  · exact h.congr rfl rfl rfl rfl rfl rfl
  · exact h

theorem tracked_openFunctionCall (h : Tracked b t st) {index : ℤ}
    (hfit : (b.callOpen = true ∧ b.call = some index) ∨ b.FreshCall index) (id function : Json) :
    Tracked (b.addCall index) t (openFunctionCall (toolOutputIndex index) id function st) := by
  rw [openFunctionCall, h.ctxOf.callOpen]
  -- the call is open already, or it is a new one
  rcases hfit with ⟨hopen, hcall⟩ | ⟨hnone, hgoes, hfragments, hapart⟩
  · obtain ⟨index', hcall', hindex, -⟩ := h.ctxOf.current hopen
    obtain rfl : index' = index := by
      rw [hcall] at hcall'
      exact (Option.some.inj hcall').symm
    have heq : b.addCall index' = b := by
      rcases b with ⟨texts, textOpen, call, callOpen, finished, fragments⟩
      simp only at hopen hcall
      rw [ItemLedger.addCall, hopen, hcall]
    rw [if_neg (by simp [hopen, hindex]), heq]
    exact h
  · have hclosed : b.callOpen = false := by
      rcases hopen : b.callOpen with _ | _
      · rfl
      · obtain ⟨index', hcall', -⟩ := h.ctxOf.current hopen
        rw [hnone] at hcall'
        exact absurd hcall' (by simp)
    -- no item stands at its index
    have hnew : b.hasItem (toolOutputIndex index) = false := by
      rw [ItemLedger.hasItem, hnone]
      rcases htexts : b.texts with _ | _
      · rfl
      · simp [hapart htexts]
    have hctx : CtxOf (b.addCall index) { st.ctx with
        toolBlockStarted := true, toolIndex := toolOutputIndex index, toolArguments := "" } :=
      ⟨h.ctxOf.finished, h.ctxOf.textOpen, h.ctxOf.contentIndex, rfl,
        fun _ => ⟨index, rfl, rfl, hfragments.symm⟩⟩
    rw [if_pos (Or.inl hclosed)]
    refine ⟨⟨h.consistent.texts, fun hfin => ?_, fun htexts index' hcall => ?_⟩,
      hctx.takeToolName id function, ?_⟩
    · exact absurd (hgoes.symm.trans hfin) (by simp)
    · cases hcall
      exact hapart htexts
    · rw [Emit.push_result, Emit.withCtx_result, ← List.append_assoc]
      refine h.traceOf.add hgoes hnew rfl (fun j => ?_) (fun j => ?_) (Or.inl hnone)
      · simp [ItemLedger.hasItem, ItemLedger.addCall, hnone, eq_comm]
      · simp [ItemLedger.isOpen, ItemLedger.addCall, hnone, hclosed, eq_comm]

theorem ItemLedger.addFragment_empty (b : ItemLedger) (index : ℤ) : b.addFragment index "" = b := by
  have hsame : (b.addFragment index "").fragments = b.fragments := by
    funext i
    show (if index = i then b.fragments i ++ "" else b.fragments i) = b.fragments i
    rw [String.append_empty, ite_self]
  show { b with fragments := (b.addFragment index "").fragments } = b
  rw [hsame]

theorem tracked_emitArguments (h : Tracked b t st) (index : ℤ) (function : Option Json)
    (hfit : (function.bind fun function => function.getStr "arguments").getD "" ≠ "" →
      (b.callOpen = true ∧ b.call = some index) ∨ (b.callOpen = false ∧ b.call ≠ some index)) :
    Tracked (b.addFragment index
        ((function.bind fun function => function.getStr "arguments").getD "")) t
      (emitArguments function st) := by
  rw [emitArguments]
  rcases hargs : function.bind fun function => function.getStr "arguments" with _ | args
  · rw [Option.getD_none, ItemLedger.addFragment_empty]
    exact h
  · rw [hargs, Option.getD_some] at hfit
    rw [Option.getD_some]
    by_cases hempty : args = ""
    · subst hempty
      rw [ItemLedger.addFragment_empty]
      simp only [String.append_empty]
      exact h.quiet rfl
    · have hquiet := h.quiet (e := .functionCallArgumentsDelta st.ctx.toolIndex args) rfl
      refine ⟨⟨h.consistent.texts, h.consistent.ended, h.consistent.apart⟩,
        ⟨h.ctxOf.finished, h.ctxOf.textOpen, h.ctxOf.contentIndex, h.ctxOf.callOpen, ?_⟩, ?_⟩
      · intro hopen
        obtain ⟨index', hcall, hindex, harguments⟩ := h.ctxOf.current hopen
        refine ⟨index', hcall, hindex, ?_⟩
        rcases hfit hempty with ⟨-, hcall'⟩ | ⟨hclosed, -⟩
        · obtain rfl : index = index' := Option.some.inj (hcall'.symm.trans hcall)
          show st.ctx.toolArguments ++ args = if index = index then _ else _
          rw [if_pos rfl, harguments]
        · exact absurd (hclosed.symm.trans hopen) (by simp)
      · refine hquiet.traceOf.addFragment ?_ args
        rcases hfit hempty with ⟨hopen, -⟩ | ⟨-, hother⟩
        · exact Or.inl hopen
        · exact Or.inr hother

/-! ### The end of the response -/

theorem tracked_closeFunctionCall (h : Tracked b t st) (hgoes : b.finished = false) :
    Tracked b.endCall t (closeFunctionCall st) := by
  rw [closeFunctionCall, h.ctxOf.callOpen]
  rcases hopen : b.callOpen with _ | _
  · have heq : b.endCall = b := by
      rcases b with ⟨texts, textOpen, call, callOpen, finished, fragments⟩
      simp only at hopen
      rw [ItemLedger.endCall, hopen]
    rw [heq]
    exact h
  · obtain ⟨index, hcall, hindex, harguments⟩ := h.ctxOf.current hopen
    have hquiet := h.quiet
      (e := .functionCallArgumentsDone st.ctx.toolIndex st.ctx.toolArguments) rfl
    refine ⟨⟨h.consistent.texts, fun hfin => ⟨(h.consistent.ended hfin).1, rfl⟩,
        h.consistent.apart⟩,
      ⟨h.ctxOf.finished, h.ctxOf.textOpen, h.ctxOf.contentIndex, rfl,
        fun hopen' => absurd hopen' (by simp [ItemLedger.endCall])⟩, ?_⟩
    rw [if_pos rfl, Emit.withCtx_result, Emit.push_result, ← List.append_assoc]
    refine hquiet.traceOf.close hgoes ?_ rfl (fun _ => rfl) (fun j => ?_)
      ⟨rfl, rfl, fun _ => rfl⟩ (fun id name arguments hitem => ?_)
    · simp [ItemLedger.isOpen, hopen, hcall, hindex]
    · by_cases hj : j = st.ctx.toolIndex
      · -- the message item is not at the call's index
        subst hj
        rcases htextOpen : b.textOpen with _ | _
        · simp [ItemLedger.isOpen, ItemLedger.endCall, htextOpen]
        · have hne := h.consistent.apart (h.consistent.texts htextOpen) index hcall
          simp [ItemLedger.isOpen, ItemLedger.endCall, hindex, hne]
      · have hne : toolOutputIndex index ≠ j := by
          rw [← hindex]
          exact Ne.symm hj
        simp [ItemLedger.isOpen, ItemLedger.endCall, hcall, hj, hne]
    · obtain ⟨-, -, rfl⟩ := OutputItem.functionCall.inj hitem
      exact ⟨rfl, index, hcall, hindex.symm, harguments⟩

theorem tracked_completeResponse (h : Tracked b t st) :
    Tracked b.endCall.endText.finish t (completeResponse st) := by
  rw [completeResponse, h.ctxOf.finished]
  rcases hfin : b.finished with _ | _
  · have hclosed := tracked_closeMessageItem (tracked_closeFunctionCall h hfin)
    have hcompleted := hclosed.traceOf.complete hfin (fun i => rfl)
      (closeMessageItem (closeFunctionCall st)).ctx.messageId
      (reportedUsage (closeMessageItem (closeFunctionCall st)).ctx)
    refine ⟨⟨fun hopen => absurd hopen (by simp [ItemLedger.finish, ItemLedger.endText]),
        fun _ => ⟨rfl, rfl⟩, h.consistent.apart⟩,
      ⟨rfl, hclosed.ctxOf.textOpen, fun hopen => absurd hopen
        (by simp [ItemLedger.finish, ItemLedger.endText]), hclosed.ctxOf.callOpen,
        fun hopen => absurd hopen
          (by simp [ItemLedger.finish, ItemLedger.endText, ItemLedger.endCall])⟩, ?_⟩
    have hmarker := hcompleted.quiet (e := .doneMarker) rfl
    simpa using hmarker
  · have heq : b.endCall.endText.finish = b := by
      obtain ⟨htextOpen, hcallOpen⟩ := h.consistent.ended hfin
      rcases b with ⟨texts, textOpen, call, callOpen, finished, fragments⟩
      simp only at hfin htextOpen hcallOpen
      simp only [ItemLedger.endCall, ItemLedger.endText, ItemLedger.finish, hfin, htextOpen,
        hcallOpen]
    rw [heq]
    exact h

end Helpers

/-! ### The operations of a chunk -/

/-- `Emit.Carries` for the item ledger. -/
abbrev CarriesItems (ops : List ChatOp) (st st' : Emit ResponsesEvent) : Prop :=
  Emit.Carries itemLedger ItemsTracked ops st st'

theorem tracked_startFunctionCall {b : ItemLedger} {st : Emit ResponsesEvent} (h : Tracked b t st)
    (id function : Option Json)
    (hfit : (id.isSome && function.isSome) = true → (b.callOpen = true ∧ b.call = some index) ∨
      b.FreshCall index) :
    Tracked (if id.isSome && function.isSome then b.endText.addCall index else b) t
      (startFunctionCall (toolOutputIndex index) id function st) := by
  rcases id with _ | id
  · exact h
  · rcases function with _ | function
    · exact h
    · exact tracked_openFunctionCall (tracked_leaveMessageItem h) (hfit rfl) id function

theorem carries_onToolCallDelta (tc : Json) (st : Emit ResponsesEvent) :
    CarriesItems [toolCallOp tc] st (onToolCallDelta st tc) := by
  intro b t h hfits
  obtain ⟨⟨hopens, hfragment⟩, -⟩ := hfits
  have hstart := tracked_startFunctionCall h (tc.get "id") (tc.get "function") hopens
  refine tracked_emitArguments hstart (toolCallIndex tc) (tc.get "function") fun hne => ?_
  rcases hop : (tc.get "id").isSome && (tc.get "function").isSome with _ | _
  · exact (hfragment hne).resolve_left (by simp [hop])
  · exact Or.inl ⟨rfl, rfl⟩

theorem carries_onDelta (delta : Json) (st : Emit ResponsesEvent) :
    CarriesItems (deltaOps delta) st (onDelta delta st) := by
  have hcreated : CarriesItems [] st (ensureCreated st) := fun b t h _ => tracked_ensureCreated h
  have htext : CarriesItems (if (delta.getStr "content").isSome then [.text] else [])
      (ensureCreated st) ((delta.getStr "content").elim (ensureCreated st)
        fun content => emitContent content (ensureCreated st)) := by
    rcases delta.getStr "content" with _ | content
    · exact Emit.Carries.refl _
    · exact fun b t h hfits => tracked_emitContent h hfits.1 content
  rw [onDelta_elim]
  exact (hcreated.trans htext).trans (Emit.Carries.foldl carries_onToolCallDelta _ _)

theorem carries_completeResponse (st : Emit ResponsesEvent) :
    CarriesItems [.finish] st (completeResponse st) :=
  fun _ _ h _ => tracked_completeResponse h

theorem carries_onFinish (choice : Json) (st : Emit ResponsesEvent) :
    CarriesItems (if (choice.getStr "finish_reason").getD "" = "" then [] else [.finish]) st
      (onFinish choice st) := by
  rw [onFinish]
  rcases choice.getStr "finish_reason" with _ | finishReason
  · exact Emit.Carries.refl st
  · by_cases hempty : finishReason = ""
    · rw [Option.getD_some, if_pos hempty]
      simp only [if_pos hempty]
      exact Emit.Carries.refl st
    · rw [Option.getD_some, if_neg hempty]
      simp only [if_neg hempty]
      exact carries_completeResponse st

theorem carries_onStreamChoice (choice : Json) (st : Emit ResponsesEvent) :
    CarriesItems (choiceOps choice) st (onStreamChoice st choice) := by
  have hdelta : CarriesItems (((choice.get "delta").map deltaOps).getD []) st
      ((choice.get "delta").elim st fun delta => onDelta delta st) := by
    rcases choice.get "delta" with _ | delta
    · exact Emit.Carries.refl st
    · exact carries_onDelta delta st
  rw [onStreamChoice_elim]
  exact hdelta.trans (carries_onFinish choice _)

theorem carries_convertChatData (data : Json) (st : Emit ResponsesEvent) :
    CarriesItems (chatDataOps data) st (convertChatData env data st) := by
  have hctx : CarriesItems [] st
      (st.withCtx fun ctx => takeUsage data (takeMessageId env data ctx)) := by
    intro b t h _
    have htake : CtxOf b (takeUsage data (takeMessageId env data st.ctx)) := by
      have hid : CtxOf b (takeMessageId env data st.ctx) := by
        rw [takeMessageId]
        split_ifs
        · split
          · exact h.ctxOf.congr rfl rfl rfl rfl rfl rfl
          · exact h.ctxOf.congr rfl rfl rfl rfl rfl rfl
        · exact h.ctxOf
      rw [takeUsage]
      split
      · exact hid.congr rfl rfl rfl rfl rfl rfl
      · exact hid
    exact ⟨h.consistent, htake, h.traceOf⟩
  exact hctx.trans (Emit.Carries.foldl carries_onStreamChoice _ _)

/-! ### Runs -/

/-- The step lemma: an accepted block carries its operations. -/
theorem carries_openaiChatStreamToResponses (event : Bytes) (ctx : StreamContext)
    (h : acceptsChatData env event = true) :
    ∃ o ctx', openaiChatStreamToResponses env event ctx = .ok (o, ctx') ∧
      Carries itemLedger ItemsTracked (chatEventOps env event) ctx o ctx' := by
  rw [acceptsChatData] at h
  rw [openaiChatStreamToResponses, chatEventOps]
  rcases hread : readChatData env event with _ | _ | data | error
  case skip => exact ⟨[], ctx, rfl, Ledger.Carries.nil ctx⟩
  case done => exact ⟨_, _, rfl, (carries_completeResponse _).finish⟩
  case data => exact ⟨_, _, rfl, (carries_convertChatData env data _).finish⟩
  case bad => exact absurd h (by simp [hread])

theorem openaiChatStreamToResponses_refuses (event : Bytes) (ctx : StreamContext)
    (h : acceptsChatData env event = false) :
    ∃ e, openaiChatStreamToResponses env event ctx = .error e := by
  rw [acceptsChatData] at h
  rw [openaiChatStreamToResponses]
  rcases hread : readChatData env event with _ | _ | data | error
  case bad => exact ⟨error, rfl⟩
  all_goals exact absurd h (by simp [hread])

/-- The run lemma: the ledger describes every run whose operations fit. -/
theorem itemsTracked_run (events : List Bytes)
    (hfits : itemLedger.Fits ItemLedger.new (chatStreamOps env events)) :
    ItemsTracked (itemLedger.run ItemLedger.new (chatStreamOps env events))
      (chatToResponsesRun env events).state (chatToResponsesRun env events).out := by
  have h := Carries.feed (openaiChatStreamToResponses_refuses env)
    (carries_openaiChatStreamToResponses env) events itemsTracked_new hfits
  rwa [List.nil_append] at h

theorem fragments_run (ops : List ChatOp) (index : ℤ) : ∀ b : ItemLedger,
    (itemLedger.run b ops).fragments index
      = ops.foldl (fun acc op => acc ++ op.fragmentFor index) (b.fragments index) := by
  induction ops with
  | nil => exact fun _ => rfl
  | cons op ops ih =>
    intro b
    rw [OpSystem.run_cons, ih, List.foldl_cons]
    congr 1
    rcases op with _ | ⟨i, opens, fragment⟩ | _
    case toolCall =>
      have hopen : (if opens then (b.endText).addCall i else b).fragments = b.fragments := by
        rcases opens <;> rfl
      show (if i = index then (if opens then (b.endText).addCall i else b).fragments index ++
          fragment
        else (if opens then (b.endText).addCall i else b).fragments index) = _
      rw [hopen, ChatOp.fragmentFor]
      split_ifs
      · rfl
      · exact String.append_empty.symm
    all_goals exact String.append_empty.symm

theorem finished_run :
    ∀ {b : ItemLedger},
    b.finished = true ∨ .finish ∈ ops → (itemLedger.run b ops).finished = true := by
  induction ops with
  | nil =>
    intro b h
    exact h.resolve_right (by simp)
  | cons op ops ih =>
    intro b h
    rw [OpSystem.run_cons]
    refine ih ?_
    rcases op with _ | ⟨i, opens, fragment⟩ | _
    case finish => exact Or.inl rfl
    case text =>
      rcases h with h | h
      · exact Or.inl h
      · exact Or.inr (by simpa using h)
    case toolCall =>
      rcases h with h | h
      · rcases opens <;> exact Or.inl h
      · exact Or.inr (by simpa using h)

theorem opens_of_call_run :
    ∀ {b : ItemLedger},
    (itemLedger.run b ops).call = some index → b.call = some index ∨ Opens ops index := by
  induction ops with
  | nil => exact fun h => Or.inl h
  | cons op ops ih =>
    intro b h
    rcases ih h with h | ⟨fragment, h⟩
    · rcases op with _ | ⟨i, opens, fragment⟩ | _
      case toolCall =>
        rcases opens with _ | _
        · exact Or.inl h
        · cases h
          exact Or.inr ⟨fragment, by simp⟩
      all_goals exact Or.inl h
    · exact Or.inr ⟨fragment, List.mem_cons_of_mem _ h⟩

theorem call_run :
    ∀ {b : ItemLedger},
    itemLedger.Fits b ops → b.call = some index ∨ Opens ops index →
      (itemLedger.run b ops).call = some index := by
  induction ops with
  | nil =>
    rintro b - (h | ⟨fragment, h⟩)
    · exact h
    · simp at h
  | cons op ops ih =>
    rintro b ⟨hop, hops⟩ h
    rw [OpSystem.run_cons]
    refine ih hops ?_
    rcases op with _ | ⟨i, opens, fragment⟩ | _
    case toolCall =>
      rcases opens with _ | _
      · rcases h with h | ⟨fragment', h⟩
        · exact Or.inl h
        · exact Or.inr ⟨fragment', by simpa using h⟩
      · rcases h with h | ⟨fragment', h⟩
        · -- a second call has no item to take
          rcases hop.1 rfl with ⟨-, hcall⟩ | hfresh
          · exact Or.inl (hcall.symm.trans h)
          · rw [hfresh.1] at h
            exact absurd h (by simp)
        · rcases List.mem_cons.1 h with h | h
          · obtain ⟨rfl, -, -⟩ := ChatOp.toolCall.inj h
            exact Or.inl rfl
          · exact Or.inr ⟨fragment', h⟩
    all_goals
      rcases h with h | ⟨fragment', h⟩
      · exact Or.inl h
      · exact Or.inr ⟨fragment', by simpa using h⟩

/-- **Well-formed Responses streams**: a chat stream that finishes and whose operations fit
the items. -/
theorem wellFormed_chatToResponses (env : Env) (events : List Bytes)
    (hend : .finish ∈ chatStreamOps env events)
    (hfits : itemLedger.Fits ItemLedger.new (chatStreamOps env events)) :
    WellFormedResponses (chatStreamOps env events) (chatToResponsesRun env events).out := by
  have h := (itemsTracked_run env events hfits).traceOf
  have hcompleted : completions (chatToResponsesRun env events).out ≠ [] := by
    intro hnone
    have hfin := h.completed.1 hnone
    rw [finished_run (Or.inr hend)] at hfin
    exact absurd hfin (by simp)
  refine ⟨fun pre i item post ht => (h.permits _ _ _ ht).1,
    fun pre i item post ht => doneOnce_of_permits h.permits hcompleted ht,
    fun i id name arguments hmem => ?_⟩
  obtain ⟨-, index, hcall, hi, harguments⟩ := h.assembled i id name arguments hmem
  rw [fragments_run] at harguments
  refine ⟨⟨index, (opens_of_call_run hcall).resolve_left (by simp [ItemLedger.new]), hi⟩, ?_⟩
  intro index' hopens _
  have hcall' := call_run hfits (Or.inr hopens)
  obtain rfl : index = index' := Option.some.inj (hcall.symm.trans hcall')
  exact harguments

/-! ### Concrete streams -/

def deltaChunk (delta : List (String × Json)) : Json :=
  .obj [("id", .str "c"), ("choices", .arr [.obj [("delta", .obj delta)]])]

def toolDelta (toolCall : List (String × Json)) : List (String × Json) :=
  [("tool_calls", .arr [.obj toolCall])]

def firstDelta (index : ℤ) (id arguments : String) : List (String × Json) :=
  toolDelta [("index", .int index), ("id", .str id),
    ("function", .obj [("name", .str "f"), ("arguments", .str arguments)])]

/-- Text, then one tool call in two fragments. -/
def textThenCall : List Json :=
  [deltaChunk [("content", .str "t")], deltaChunk (firstDelta 0 "a" "x"),
    deltaChunk (toolDelta [("index", .int 0), ("function", .obj [("arguments", .str "y")])])]

theorem wellFormed_textThenCall :
    WellFormedResponses (chatStreamOps (Env.ofValues textThenCall)
        ((textThenCall.map fun chunk => dataBlock chunk.compact) ++ [dataBlock "[DONE]"]))
      (chatToResponsesRun (Env.ofValues textThenCall)
        ((textThenCall.map fun chunk => dataBlock chunk.compact) ++ [dataBlock "[DONE]"])).out := by
  have hops : chatStreamOps (Env.ofValues textThenCall)
      ((textThenCall.map fun chunk => dataBlock chunk.compact) ++ [dataBlock "[DONE]"])
      = [.text, .toolCall 0 true "x", .toolCall 0 false "y", .finish] := by
    decide +kernel
  refine wellFormed_chatToResponses _ _ ?_ ?_
  · rw [hops]
    simp
  · rw [hops]
    decide

/-- Two tool calls of one answer. -/
def twoCalls : List Json := [deltaChunk (firstDelta 0 "a" ""), deltaChunk (firstDelta 1 "b" "")]

theorem not_wellFormed_twoCalls :
    .finish ∈ chatStreamOps (Env.ofValues twoCalls)
      ((twoCalls.map fun chunk => dataBlock chunk.compact) ++ [dataBlock "[DONE]"]) ∧
    ¬ WellFormedResponses (chatStreamOps (Env.ofValues twoCalls)
        ((twoCalls.map fun chunk => dataBlock chunk.compact) ++ [dataBlock "[DONE]"]))
      (chatToResponsesRun (Env.ofValues twoCalls)
        ((twoCalls.map fun chunk => dataBlock chunk.compact) ++ [dataBlock "[DONE]"])).out := by
  have h : .finish ∈ chatStreamOps (Env.ofValues twoCalls)
        ((twoCalls.map fun chunk => dataBlock chunk.compact) ++ [dataBlock "[DONE]"]) ∧
      (chatToResponsesRun (Env.ofValues twoCalls)
        ((twoCalls.map fun chunk => dataBlock chunk.compact) ++ [dataBlock "[DONE]"])).out
      = [.created "c"] ++ .outputItemAdded 1 (.functionCall "a" "f" "") ::
        [.functionCallArgumentsDelta 1 "", .outputItemAdded 2 (.functionCall "b" "f" ""),
          .functionCallArgumentsDelta 2 "", .functionCallArgumentsDone 2 "",
          .outputItemDone 2 (.functionCall "b" "f" ""),
          .completed "c" ⟨0, 0, 0⟩, .doneMarker] := by
    decide +kernel
  refine ⟨h.1, fun hwell => ?_⟩
  obtain ⟨before, id, usage, after, -, -, -, hdone⟩ := hwell.doneOnce _ _ _ _ h.2
  exact absurd hdone (by decide)

end AiOpenRouter
