/-
Tool calls through the chat → Claude converter.

OpenAI streams a tool call incrementally: the first delta of an index carries
`id`, `type` and `function.name`, the later ones leave them out or send them
empty (`IncrementalStream`).  The converter requires the fields, and keeps one
current tool block.

* `callsAssembled_chatToClaude` — every chunk is accepted and every call's block
  receives the concatenation of its fragments, if all deltas carry the fields
  and every fragment comes while its call is the current one;
* `not_callsAssembled_oneCallIncremental` — the usual format, with the fields left out,
  is rejected.
-/
import AiOpenRouter.ChatToClaude

open Trace

namespace AiOpenRouter

/-! ### The incremental format -/

namespace Decode

/-- A `String` field that may be left out. -/
def stringOrAbsent : Option Json → Option String
  | none => some ""
  | some value => string (some value)

/-- The `function` of an incremental tool call. -/
def incrementalFunction : Option Json → Option OpenAIFunction
  | some value =>
    match fields ["name", "arguments"] value with
    | some [name, arguments] => do
      return { name := ← stringOrAbsent name, arguments := ← stringOrAbsent arguments }
    | _ => none
  | none => none

def incrementalToolCall : Option Json → Option OpenAIToolCall
  | some value =>
    match fields ["index", "id", "type", "function"] value with
    | some [index, id, callType, function] => do
      return { index := ← optional i32 index, id := ← stringOrAbsent id
               callType := ← stringOrAbsent callType, function := ← incrementalFunction function }
    | _ => none
  | none => none

/-- Whether a tool call delta carries the fields `OpenAIToolCall` requires. -/
def carriesFields (toolCall : Json) : Bool :=
  match fields ["index", "id", "type", "function"] toolCall with
  | some [_, some _, some _, some function] =>
    match fields ["name", "arguments"] function with
    | some [some _, some _] => true
    | _ => false
  | _ => false

/-- The tool call deltas of a `delta`. -/
def toolCallsOfDelta (delta : Json) : List Json :=
  match fields ["role", "content", "reasoning_content", "tool_calls"] delta with
  | some [_, _, _, some (.arr toolCalls)] => toolCalls
  | _ => []

def toolCallsOfChoice (choice : Json) : List Json :=
  match fields ["index", "delta", "finish_reason"] choice with
  | some [_, some delta, _] => toolCallsOfDelta delta
  | _ => []

def toolCallsOfChunk (chunk : Json) : List Json :=
  match fields ["id", "object", "created", "model", "choices", "usage"] chunk with
  | some [_, _, _, _, some (.arr choices), _] => choices.flatMap toolCallsOfChoice
  | _ => []

theorem openAIToolCall_of_carriesFields {value : Json} (h : carriesFields value = true) :
    openAIToolCall (some value) = incrementalToolCall (some value) := by
  rw [carriesFields] at h
  split at h
  case h_1 index id callType function hfields =>
    split at h
    case h_1 name arguments hfunction =>
      simp only [openAIToolCall, incrementalToolCall, hfields, openAIFunction,
        incrementalFunction, hfunction, stringOrAbsent]
    case h_2 => exact absurd h (by simp)
  case h_2 => exact absurd h (by simp)

theorem list_congr {α : Type} {decode decode' : Option Json → Option α} {items : List Json}
    (h : ∀ item ∈ items, decode (some item) = decode' (some item)) :
    list decode (some (.arr items)) = list decode' (some (.arr items)) := by
  rw [list, list]
  induction items with
  | nil => rfl
  | cons item items ih =>
    rw [List.mapM_cons, List.mapM_cons, h item (by simp), ih fun i hi => h i (by simp [hi])]

variable {decode decode' : Option Json → Option OpenAIToolCall}

theorem openAIDelta_congr {delta : Json}
    (h : ∀ value ∈ toolCallsOfDelta delta, decode (some value) = decode' (some value)) :
    openAIDelta decode (some delta) = openAIDelta decode' (some delta) := by
  rw [toolCallsOfDelta] at h
  rw [openAIDelta, openAIDelta]
  rcases hf : fields ["role", "content", "reasoning_content", "tool_calls"] delta with
    _ | (_ | ⟨role, _ | ⟨content, _ | ⟨reasoning, _ | ⟨toolCalls, _ | _⟩⟩⟩⟩)
  case some.cons.cons.cons.cons.nil =>
    rw [hf] at h
    rcases toolCalls with _ | (_ | _ | _ | _ | items | _)
    case some.arr =>
      have hlist : optional (list decode) (some (.arr items))
          = optional (list decode') (some (.arr items)) := by
        rw [optional, optional, list_congr h]
        · simp
        · simp
      simp only [hlist]
    all_goals rfl
  all_goals rfl

theorem openAIStreamChoice_congr {choice : Json}
    (h : ∀ value ∈ toolCallsOfChoice choice, decode (some value) = decode' (some value)) :
    openAIStreamChoice decode (some choice) = openAIStreamChoice decode' (some choice) := by
  rw [toolCallsOfChoice] at h
  rw [openAIStreamChoice, openAIStreamChoice]
  rcases hf : fields ["index", "delta", "finish_reason"] choice with
    _ | (_ | ⟨index, _ | ⟨delta, _ | ⟨finishReason, _ | _⟩⟩⟩)
  case some.cons.cons.cons.nil =>
    rw [hf] at h
    rcases delta with _ | delta
    · rfl
    · simp only [openAIDelta_congr h]
  all_goals rfl

theorem openAIStreamChunkOf_congr {chunk : Json}
    (h : ∀ value ∈ toolCallsOfChunk chunk, decode (some value) = decode' (some value)) :
    openAIStreamChunkOf decode chunk = openAIStreamChunkOf decode' chunk := by
  rw [toolCallsOfChunk] at h
  rw [openAIStreamChunkOf, openAIStreamChunkOf]
  rcases hf : fields ["id", "object", "created", "model", "choices", "usage"] chunk with
    _ | (_ | ⟨id, _ | ⟨object, _ | ⟨created, _ | ⟨model, _ | ⟨choices, _ | ⟨usage, _ | _⟩⟩⟩⟩⟩⟩)
  case some.cons.cons.cons.cons.cons.cons.nil =>
    rw [hf] at h
    rcases choices with _ | (_ | _ | _ | _ | items | _)
    case some.arr =>
      have hlist : list (openAIStreamChoice decode) (some (.arr items))
          = list (openAIStreamChoice decode') (some (.arr items)) :=
        list_congr fun choice hchoice => openAIStreamChoice_congr fun value hvalue =>
          h value (List.mem_flatMap.2 ⟨choice, hchoice, hvalue⟩)
      simp only [hlist]
    all_goals rfl
  all_goals rfl

def incrementalStreamChunk : Json → Option OpenAIStreamChunk :=
  openAIStreamChunkOf incrementalToolCall

end Decode

/-! ### Call events -/

inductive CallEvent where
  /-- a tool call delta -/
  | delta (toolCall : OpenAIToolCall)
  /-- text or reasoning -/
  | write
  /-- a finish reason or `[DONE]` -/
  | finish

def choiceCallEvents (choice : OpenAIStreamChoice) : List CallEvent :=
  (if choice.delta.reasoningContent.getD "" = "" then [] else [.write]) ++
    (if choice.delta.content.getD "" = "" then [] else [.write]) ++
    (choice.delta.toolCalls.getD []).map .delta ++
    (if choice.finishReason.getD "" = "" then [] else [.finish])

def chunkCallEvents (chunk : OpenAIStreamChunk) : List CallEvent :=
  match chunk.choices with
  | [] => []
  | choice :: _ => choiceCallEvents choice

def readIncremental (env : Env) (event : Bytes) : ChatInput :=
  let jsonData := (parseSse event).2
  if jsonData = "" then .skip
  else if jsonData = "[DONE]" then .done
  else
    match env.fromStr jsonData with
    | .error e => .bad e
    | .ok data =>
      match Decode.incrementalStreamChunk data with
      | some chunk => .chunk chunk
      | none => .bad "not a chunk"

/-- The call events of an upstream block. -/
def eventCallEvents (env : Env) (event : Bytes) : List CallEvent :=
  match readIncremental env event with
  | .chunk chunk => chunkCallEvents chunk
  | .done => [.finish]
  | _ => []

def InFormat (env : Env) (event : Bytes) : Prop :=
  match readIncremental env event with
  | .bad _ => False
  | .chunk chunk => chunk.choices.length ≤ 1
  | _ => True

/-- Every tool call delta of an upstream block carries the fields `OpenAIToolCall` requires. -/
def CarriesFields (env : Env) (event : Bytes) : Prop :=
  match env.fromStr (parseSse event).2 with
  | .ok data => ∀ toolCall ∈ Decode.toolCallsOfChunk data, Decode.carriesFields toolCall = true
  | .error _ => True

instance (env : Env) (event : Bytes) : Decidable (InFormat env event) := by
  unfold InFormat
  split <;> infer_instance

instance (env : Env) (event : Bytes) : Decidable (CarriesFields env event) := by
  unfold CarriesFields
  split <;> infer_instance

theorem readChatInput_eq {env : Env} {event : Bytes} (hformat : InFormat env event)
    (hfields : CarriesFields env event) : readChatInput env event = readIncremental env event := by
  rw [InFormat, readIncremental] at hformat
  rw [CarriesFields] at hfields
  rw [readChatInput, readIncremental]
  by_cases hempty : (parseSse event).2 = ""
  · simp only [hempty, if_true]
  · by_cases hdone : (parseSse event).2 = "[DONE]"
    · rw [if_neg hempty, if_pos hdone, if_neg hempty, if_pos hdone]
    · simp only [hempty, hdone, if_false] at hformat ⊢
      rcases hparse : env.fromStr (parseSse event).2 with e | data
      · rw [hparse] at hformat
        exact hformat.elim
      · rw [hparse] at hfields hformat
        have hchunk : Decode.openAIStreamChunk data = Decode.incrementalStreamChunk data :=
          Decode.openAIStreamChunkOf_congr fun value hvalue =>
            Decode.openAIToolCall_of_carriesFields (hfields value hvalue)
        simp only [hchunk]
        rcases hd : Decode.incrementalStreamChunk data with _ | chunk
        · simp only [hd] at hformat
        · rfl

/-! ### Histories of call events -/

structure ChatCall where
  index : ℤ
  id : String
  deriving DecidableEq

/-- The calls opened so far: the deltas with an id. -/
def calls (history : List CallEvent) : List ChatCall :=
  history.filterMap fun
    | .delta toolCall =>
      if toolCall.id = "" then none else some ⟨toolCall.index.getD 0, toolCall.id⟩
    | _ => none

def currentCall (history : List CallEvent) : Option ℤ :=
  history.foldl (fun current e =>
    match e with
    | .delta toolCall => if toolCall.id = "" then current else toolCall.index
    | _ => none) none

/-- The arguments fragment of an event for the call `index`. -/
def CallEvent.fragmentFor (index : ℤ) : CallEvent → String
  | .delta toolCall => if toolCall.index = some index then toolCall.function.arguments else ""
  | _ => ""

def callFragments (history : List CallEvent) (index : ℤ) : String :=
  history.foldl (fun acc e => acc ++ e.fragmentFor index) ""

/-- Whether the stream has come to a finish reason or `[DONE]`. -/
def isFinished (history : List CallEvent) : Bool :=
  history.any fun
    | .finish => true
    | _ => false

/-- What may follow a history in the incremental format: the first delta of an index carries
a new id, the type and the name, the later ones do not, and none follows the finish. -/
def IncrementalAllows (history : List CallEvent) : CallEvent → Prop
  | .delta toolCall => isFinished history = false ∧
      ∃ index ∈ toolCall.index,
        if ∃ call ∈ calls history, call.index = index then
          toolCall.id = "" ∧ toolCall.callType = "" ∧ toolCall.function.name = ""
        else
          toolCall.id ≠ "" ∧ toolCall.callType ≠ "" ∧ toolCall.function.name ≠ "" ∧
            ∀ call ∈ calls history, call.id ≠ toolCall.id
  | _ => True

/-- A fragment without an id belongs to the current call. -/
def FragmentFits (history : List CallEvent) : CallEvent → Prop
  | .delta toolCall => toolCall.id = "" → toolCall.function.arguments ≠ "" →
      currentCall history = toolCall.index
  | _ => True

instance (history : List CallEvent) (e : CallEvent) : Decidable (IncrementalAllows history e) := by
  cases e <;> unfold IncrementalAllows <;> infer_instance

instance (history : List CallEvent) (e : CallEvent) : Decidable (FragmentFits history e) := by
  cases e <;> unfold FragmentFits <;> infer_instance

/-- A chat stream in the incremental format. -/
structure IncrementalStream (env : Env) (events : List Bytes) : Prop where
  blocks : ∀ event ∈ events, InFormat env event
  deltas : Permits IncrementalAllows (events.flatMap (eventCallEvents env))

/-- Every chunk is accepted, and every call has one block, which receives exactly the
concatenation of the call's fragments. -/
structure CallsAssembled (env : Env) (events : List Bytes) : Prop where
  accepted : (chatToClaudeRun env events).error = none
  assembled : ∀ call ∈ calls (events.flatMap (eventCallEvents env)),
    toolStarts (chatToClaudeRun env events).out call.id = 1 ∧
    receivedJson (chatToClaudeRun env events).out call.id
      = callFragments (events.flatMap (eventCallEvents env)) call.index

/-! ### Histories, one event longer -/

variable {st' : Emit ClaudeEvent} {id : String} {t : List ClaudeEvent} {toolCall : OpenAIToolCall}
  (st : Emit ClaudeEvent) (history : List CallEvent) (e : CallEvent)

theorem calls_snoc :
    calls (history ++ [e]) = calls history ++ (match e with
      | .delta toolCall =>
        if toolCall.id = "" then [] else [⟨toolCall.index.getD 0, toolCall.id⟩]
      | _ => []) := by
  rw [calls, List.filterMap_append]
  rcases e with toolCall | _ | _
  · by_cases hid : toolCall.id = ""
    · simp [hid, calls]
    · simp [hid, calls]
  · rfl
  · rfl

theorem callFragments_snoc (index : ℤ) :
    callFragments (history ++ [e]) index
      = callFragments history index ++ e.fragmentFor index := by
  rw [callFragments, List.foldl_append]
  rfl

theorem currentCall_snoc :
    currentCall (history ++ [e]) = (match e with
      | .delta toolCall =>
        if toolCall.id = "" then currentCall history else toolCall.index
      | _ => none) := by
  rw [currentCall, List.foldl_append]
  rcases e <;> rfl

theorem calls_unique {history : List CallEvent} (h : Permits IncrementalAllows history) :
    ∀ a ∈ calls history, ∀ b ∈ calls history, a.index = b.index ∨ a.id = b.id → a = b := by
  induction history using List.reverseRecOn with
  | nil =>
    intro a ha
    simp [calls] at ha
  | append_singleton history e ih =>
    obtain ⟨hhist, hallow⟩ := permits_snoc.1 h
    rw [calls_snoc]
    rcases e with toolCall | _ | _
    case delta =>
      obtain ⟨-, index, hindex, hcase⟩ := hallow
      by_cases hid : toolCall.id = ""
      · simp only [hid, if_true, List.append_nil]
        exact ih hhist
      · simp only [hid, if_false]
        -- a delta with an id opens a new index
        have hnew : (∀ call ∈ calls history, call.index ≠ index) ∧
            ∀ call ∈ calls history, call.id ≠ toolCall.id := by
          split_ifs at hcase with hex
          · exact absurd hcase.1 hid
          · exact ⟨fun call hcall heq => hex ⟨call, hcall, heq⟩, hcase.2.2.2⟩
        have hget : toolCall.index.getD 0 = index := by
          rw [Option.mem_def.1 hindex, Option.getD_some]
        rw [hget]
        have hapart : ∀ call ∈ calls history, ¬ (call.index = index ∨ call.id = toolCall.id) :=
          fun call hcall => not_or.2 ⟨hnew.1 call hcall, hnew.2 call hcall⟩
        intro a ha b hb hab
        rcases List.mem_append.1 ha with ha' | ha' <;> rcases List.mem_append.1 hb with hb' | hb'
        · exact ih hhist a ha' b hb' hab
        · obtain rfl := List.mem_singleton.1 hb'
          exact absurd hab (hapart a ha')
        · obtain rfl := List.mem_singleton.1 ha'
          exact absurd (hab.imp Eq.symm Eq.symm) (hapart b hb')
        · rw [List.mem_singleton.1 ha', List.mem_singleton.1 hb']
    all_goals
      rw [List.append_nil]
      exact ih hhist

theorem callFragments_of_new {history : List CallEvent} (h : Permits IncrementalAllows history)
    {index : ℤ} (hnew : ∀ call ∈ calls history, call.index ≠ index) :
    callFragments history index = "" := by
  induction history using List.reverseRecOn with
  | nil => rfl
  | append_singleton history e ih =>
    obtain ⟨hhist, hallow⟩ := permits_snoc.1 h
    rw [calls_snoc] at hnew
    have hnew' : ∀ call ∈ calls history, call.index ≠ index := fun call hcall =>
      hnew call (List.mem_append_left _ hcall)
    rw [callFragments_snoc, ih hhist hnew']
    rcases e with toolCall | _ | _
    case delta =>
      obtain ⟨-, k, hk, hcase⟩ := hallow
      have hk := Option.mem_def.1 hk
      have hne : toolCall.index ≠ some index := by
        intro hsome
        obtain rfl : k = index := Option.some_inj.1 (hk.symm.trans hsome)
        split_ifs at hcase with hex
        · obtain ⟨call, hcall, heq⟩ := hex
          exact hnew' call hcall heq
        · refine hnew ⟨toolCall.index.getD 0, toolCall.id⟩ (List.mem_append_right _ ?_) ?_
          · simp [hcase.1]
          · simp [hk]
      simp [CallEvent.fragmentFor, hne]
    all_goals rfl

/-! ### Blocks of tool calls in a trace -/

theorem toolStarts_pos_of_blockAt {i : ℤ} {name : String} {input : Option Json}
    (h : blockAt t i = some (.toolUse id name input)) : 0 < toolStarts t id := by
  induction t using List.reverseRecOn with
  | nil => simp at h
  | append_singleton t e ih =>
    rw [blockAt_snoc] at h
    rw [toolStarts_snoc]
    rcases e with _ | ⟨j, block⟩ | _ | _ | _ | _
    case contentBlockStart =>
      by_cases hij : i = j
      · rw [blockStep, hij, Function.update_self] at h
        rw [Option.some_inj.1 h]
        simp [ClaudeEvent.isToolStart]
      · rw [blockStep, Function.update_of_ne hij] at h
        have := ih h
        omega
    all_goals
      have := ih h
      omega

theorem toolStarts_pos_of_receivedJson (h : receivedJson t id ≠ "") : 0 < toolStarts t id := by
  induction t using List.reverseRecOn with
  | nil => simp at h
  | append_singleton t e ih =>
    rw [receivedJson_snoc] at h
    rw [toolStarts_snoc]
    by_cases hjson : e.jsonFor (blockAt t) id = ""
    · rw [hjson, String.append_empty] at h
      have := ih h
      omega
    · -- the delta is for a block of the id, which was started
      have hblock : ∃ j name input, blockAt t j = some (.toolUse id name input) := by
        rcases e with _ | _ | ⟨j, _ | _ | fragment⟩ | _ | _ | _
        case contentBlockDelta.inputJsonDelta =>
          rcases hb : blockAt t j with _ | (_ | _ | ⟨i, name, input⟩)
          case some.toolUse =>
            by_cases hid : i = id
            · exact ⟨j, name, input, hid ▸ hb⟩
            · exact absurd (by simp [ClaudeEvent.jsonFor, hb, hid]) hjson
          all_goals exact absurd (by simp [ClaudeEvent.jsonFor, hb]) hjson
        all_goals exact absurd rfl hjson
      obtain ⟨j, name, input, hb⟩ := hblock
      have := toolStarts_pos_of_blockAt hb
      omega

/-- An event that neither starts a `tool_use` block nor carries arguments. -/
def ClaudeEvent.isToolFree : ClaudeEvent → Bool
  | .contentBlockStart _ (.toolUse _ _ _) => false
  | .contentBlockDelta _ (.inputJsonDelta _) => false
  | _ => true

theorem append_toolFree {q : List ClaudeEvent} (hq : ∀ e ∈ q, e.isToolFree = true) (id : String) :
    toolStarts (t ++ q) id = toolStarts t id ∧
      receivedJson (t ++ q) id = receivedJson t id := by
  induction q using List.reverseRecOn with
  | nil => simp
  | append_singleton q e ih =>
    obtain ⟨hstarts, hjson⟩ := ih fun e' he' => hq e' (by simp [he'])
    have he := hq e (by simp)
    rw [← List.append_assoc, toolStarts_snoc, receivedJson_snoc, hstarts, hjson]
    rcases e with _ | ⟨j, _ | _ | _⟩ | ⟨j, _ | _ | _⟩ | _ | _ | _ <;>
      simp_all [ClaudeEvent.isToolFree, ClaudeEvent.isToolStart, ClaudeEvent.jsonFor]

/-! ### The invariant -/

structure CallsTracked (history : List CallEvent) (ctx : StreamContext)
    (t : List ClaudeEvent) : Prop where
  assembled : ∀ call ∈ calls history, toolStarts t call.id = 1 ∧
    receivedJson t call.id = callFragments history call.index
  /-- only opened calls have blocks -/
  known : ∀ id, 0 < toolStarts t id → ∃ call ∈ calls history, call.id = id
  /-- the current call's block is the current tool block -/
  current : isFinished history = false → ∀ index, currentCall history = some index →
    ctx.toolBlockStarted = true ∧ ∃ call ∈ calls history, call.index = index ∧
      ∃ name input, blockAt t ctx.toolIndex = some (.toolUse call.id name input)

theorem callsTracked_new : CallsTracked [] StreamContext.new [] where
  assembled call h := by simp [calls] at h
  known id h := by simp at h
  current _ index h := by simp [currentCall] at h

/-- From `st` to `st'` the call events `events` happen. -/
def Advances (events : List CallEvent) (st st' : Emit ClaudeEvent) : Prop :=
  ∀ history t, Permits IncrementalAllows (history ++ events) →
    Permits FragmentFits (history ++ events) → CallsTracked history st.ctx (t ++ st.result) →
      CallsTracked (history ++ events) st'.ctx (t ++ st'.result)

theorem Advances.refl : Advances [] st st := by
  intro history t _ _ h
  rwa [List.append_nil]

theorem Advances.trans {events events' : List CallEvent} {st st'' : Emit ClaudeEvent}
    (h : Advances events st st') (h' : Advances events' st' st'') :
    Advances (events ++ events') st st'' := by
  intro history t hallow hfits htracked
  rw [← List.append_assoc] at hallow hfits ⊢
  exact h' _ t hallow hfits (h history t hallow.of_append hfits.of_append htracked)

/-- From `st` to `st'` nothing about tool calls is emitted. -/
def ToolFree (st st' : Emit ClaudeEvent) : Prop :=
  ∃ q, st'.result = st.result ++ q ∧ ∀ e ∈ q, e.isToolFree = true

theorem ToolFree.refl : ToolFree st st := ⟨[], by simp, by simp⟩

theorem ToolFree.trans {st st'' : Emit ClaudeEvent} (h : ToolFree st st') (h' : ToolFree st' st'') :
    ToolFree st st'' := by
  obtain ⟨q, hq, hfree⟩ := h
  obtain ⟨q', hq', hfree'⟩ := h'
  refine ⟨q ++ q', by rw [hq', hq, List.append_assoc], fun e he => ?_⟩
  rcases List.mem_append.1 he with he | he
  · exact hfree e he
  · exact hfree' e he

theorem ToolFree.push {st : Emit ClaudeEvent} (h : ToolFree st st') {ctx : StreamContext}
    {e : ClaudeEvent} (he : e.isToolFree = true) : ToolFree st ⟨ctx, st'.result ++ [e]⟩ :=
  h.trans ⟨[e], rfl, by simpa using he⟩

theorem toolFree_closeThinkingBlock : ToolFree st (closeThinkingBlock st) := by
  rw [closeThinkingBlock]
  split_ifs
  · exact (ToolFree.refl st).push rfl
  · exact ToolFree.refl st

theorem toolFree_closeTextBlock : ToolFree st (closeTextBlock st) := by
  rw [closeTextBlock]
  split_ifs
  · exact (ToolFree.refl st).push rfl
  · exact ToolFree.refl st

theorem toolFree_closeToolBlock : ToolFree st (closeToolBlock st) := by
  rw [closeToolBlock]
  split_ifs
  · exact (ToolFree.refl st).push rfl
  · exact ToolFree.refl st

theorem toolFree_leaveTextBlock : ToolFree st (leaveTextBlock st) := by
  rw [leaveTextBlock]
  split_ifs
  · exact toolFree_closeTextBlock st
  · exact ToolFree.refl st

theorem toolFree_leaveToolBlock : ToolFree st (leaveToolBlock st) := by
  rw [leaveToolBlock]
  split_ifs
  · exact toolFree_closeToolBlock st
  · exact ToolFree.refl st

theorem toolFree_closeBlocks : ToolFree st (closeBlocks st) :=
  ((toolFree_closeThinkingBlock st).trans (toolFree_closeTextBlock _)).trans
    (toolFree_closeToolBlock _)

theorem Advances.of_toolFree {e : CallEvent} {st : Emit ClaudeEvent} (h : ToolFree st st')
    (he : e = .write ∨ e = .finish) : Advances [e] st st' := by
  intro history t _ _ htracked
  obtain ⟨q, hq, hfree⟩ := h
  have hcalls : calls (history ++ [e]) = calls history := by
    rw [calls_snoc]
    rcases he with rfl | rfl <;> exact List.append_nil _
  rw [hq, ← List.append_assoc]
  refine ⟨fun call hcall => ?_, fun id hid => ?_, fun _ index hcurrent => ?_⟩
  · rw [hcalls] at hcall
    obtain ⟨hstarts, hjson⟩ := htracked.assembled call hcall
    obtain ⟨hs, hj⟩ := append_toolFree (t := t ++ st.result) hfree call.id
    refine ⟨hs.trans hstarts, (hj.trans hjson).trans ?_⟩
    rw [callFragments_snoc]
    rcases he with rfl | rfl <;> exact String.append_empty.symm
  · rw [hcalls]
    exact htracked.known id ((append_toolFree (t := t ++ st.result) hfree id).1 ▸ hid)
  · rw [currentCall_snoc] at hcurrent
    rcases he with rfl | rfl <;> exact absurd hcurrent (by simp)

theorem Advances.of_quiet {st : Emit ClaudeEvent}
    (hout : ∃ q, st'.result = st.result ++ q ∧ ∀ e ∈ q, e.blockIndex = none)
    (hstarted : st'.ctx.toolBlockStarted = st.ctx.toolBlockStarted)
    (hindex : st'.ctx.toolIndex = st.ctx.toolIndex) : Advances [] st st' := by
  intro history t _ _ htracked
  obtain ⟨q, hq, hquiet⟩ := hout
  have hfree : ∀ e ∈ q, e.isToolFree = true := by
    intro e he
    have hnone := hquiet e he
    rcases e with _ | _ | _ | _ | _ | _
      <;> simp_all [ClaudeEvent.blockIndex, ClaudeEvent.isToolFree]
  have hblocks : blockAt (t ++ st.result ++ q) = blockAt (t ++ st.result) := by
    clear hq hfree
    induction q using List.reverseRecOn with
    | nil => rw [List.append_nil]
    | append_singleton q e ih =>
      rw [← List.append_assoc, blockAt_snoc, ih fun e' he' => hquiet e' (by simp [he'])]
      have hnone := hquiet e (by simp)
      rcases e with _ | _ | _ | _ | _ | _ <;> simp_all [ClaudeEvent.blockIndex, blockStep]
  rw [List.append_nil, hq, ← List.append_assoc]
  refine ⟨fun call hcall => ?_, fun id hid => ?_, fun hfin index hcurrent => ?_⟩
  · obtain ⟨hstarts, hjson⟩ := htracked.assembled call hcall
    obtain ⟨hs, hj⟩ := append_toolFree (t := t ++ st.result) hfree call.id
    exact ⟨hs.trans hstarts, hj.trans hjson⟩
  · exact htracked.known id ((append_toolFree (t := t ++ st.result) hfree id).1 ▸ hid)
  · rw [hstarted, hindex, hblocks]
    exact htracked.current hfin index hcurrent

/-! ### Tool call deltas -/

theorem openToolCall_of_id (hid : toolCall.id ≠ "") (st : Emit ClaudeEvent) :
    ∃ q, (∀ e ∈ q, e.isToolFree = true) ∧ (openToolCall toolCall st).result
        = st.result ++ q ++ [.contentBlockStart (openToolCall toolCall st).ctx.toolIndex
            (.toolUse toolCall.id toolCall.function.name (some (.obj [])))] ∧
      (openToolCall toolCall st).ctx.toolBlockStarted = true := by
  obtain ⟨q, hq, hfree⟩ := ((toolFree_closeThinkingBlock st).trans
    (toolFree_leaveTextBlock _)).trans (toolFree_leaveToolBlock _)
  refine ⟨q, hfree, ?_, ?_⟩
  · rw [openToolCall, if_neg hid, ← hq]
    rfl
  · rw [openToolCall, if_neg hid]
    rfl

theorem emitToolArguments_of_started (toolCall : OpenAIToolCall) {st : Emit ClaudeEvent}
    (hstarted : st.ctx.toolBlockStarted = true) :
    (emitToolArguments toolCall st).ctx.toolBlockStarted = true ∧
    (emitToolArguments toolCall st).ctx.toolIndex = st.ctx.toolIndex ∧
    (emitToolArguments toolCall st).result = st.result ++
      (if toolCall.function.arguments = "" then [] else
        [.contentBlockDelta st.ctx.toolIndex (.inputJsonDelta toolCall.function.arguments)]) := by
  rw [emitToolArguments]
  by_cases hargs : toolCall.function.arguments = ""
  · simp only [hargs, if_true, List.append_nil]
    exact ⟨hstarted, trivial, trivial⟩
  · simp only [hargs, if_false, ensureToolBlock, hstarted, if_true]
    exact ⟨hstarted, rfl, rfl⟩

theorem receivedJson_append_fragment (t : List ClaudeEvent) (arguments : String) {i : ℤ}
    {name : String} {input : Option Json} (hblock : blockAt t i = some (.toolUse id name input))
    (id' : String) :
    (∀ j, toolStarts (t ++ if arguments = "" then [] else
        [.contentBlockDelta i (.inputJsonDelta arguments)]) j = toolStarts t j) ∧
    blockAt (t ++ if arguments = "" then [] else
        [.contentBlockDelta i (.inputJsonDelta arguments)]) = blockAt t ∧
    receivedJson (t ++ if arguments = "" then [] else
        [.contentBlockDelta i (.inputJsonDelta arguments)]) id'
      = receivedJson t id' ++ if id = id' then arguments else "" := by
  by_cases hargs : arguments = ""
  · simp [hargs]
  · simp only [hargs, if_false]
    refine ⟨fun j => ?_, ?_, ?_⟩
    · rw [toolStarts_snoc]
      rfl
    · rw [blockAt_snoc]
      rfl
    · rw [receivedJson_snoc, ClaudeEvent.jsonFor, hblock]

theorem advances_firstDelta (hid : toolCall.id ≠ "") (st : Emit ClaudeEvent) :
    Advances [.delta toolCall] st (onToolCall st toolCall) := by
  intro history t hallow _ htracked
  obtain ⟨hhist, -, index, hindex, hcase⟩ := permits_snoc.1 hallow
  have hindex := Option.mem_def.1 hindex
  have hnew : (∀ call ∈ calls history, call.index ≠ index) ∧
      ∀ call ∈ calls history, call.id ≠ toolCall.id := by
    split_ifs at hcase with hex
    · exact absurd hcase.1 hid
    · exact ⟨fun call hcall heq => hex ⟨call, hcall, heq⟩, hcase.2.2.2⟩
  -- no block of the call was started yet
  have hzero : toolStarts (t ++ st.result) toolCall.id = 0 := by
    by_contra hne
    obtain ⟨call, hcall, heq⟩ := htracked.known toolCall.id (by omega)
    exact hnew.2 call hcall heq
  have hnojson : receivedJson (t ++ st.result) toolCall.id = "" := by
    by_contra hne
    have := toolStarts_pos_of_receivedJson hne
    omega
  obtain ⟨q, hfree, hresult, hstarted⟩ := openToolCall_of_id hid st
  obtain ⟨hstarted', hindex', hresult'⟩ := emitToolArguments_of_started toolCall hstarted
  generalize (openToolCall toolCall st).ctx.toolIndex = i at hresult hindex' hresult'
  have hout : t ++ (onToolCall st toolCall).result
      = (t ++ st.result ++ q ++ [.contentBlockStart i
          (.toolUse toolCall.id toolCall.function.name (some (.obj [])))]) ++
        if toolCall.function.arguments = "" then [] else
          [.contentBlockDelta i (.inputJsonDelta toolCall.function.arguments)] := by
    rw [onToolCall, hresult', hresult]
    simp only [List.append_assoc]
  have hblock : blockAt (t ++ st.result ++ q ++ [.contentBlockStart i
      (.toolUse toolCall.id toolCall.function.name (some (.obj [])))]) i
      = some (.toolUse toolCall.id toolCall.function.name (some (.obj []))) := by
    rw [blockAt_snoc, blockStep, Function.update_self]
  have hcalls : calls (history ++ [.delta toolCall]) = calls history ++ [⟨index, toolCall.id⟩] := by
    rw [calls_snoc]
    simp only [hid, if_false, hindex, Option.getD_some]
  have hstarts : ∀ id, toolStarts (t ++ (onToolCall st toolCall).result) id
      = toolStarts (t ++ st.result) id + if toolCall.id = id then 1 else 0 := by
    intro id
    rw [hout, (receivedJson_append_fragment _ _ hblock id).1, toolStarts_snoc,
      (append_toolFree hfree id).1]
    by_cases hids : toolCall.id = id <;> simp [ClaudeEvent.isToolStart, hids]
  have hjson : ∀ id, receivedJson (t ++ (onToolCall st toolCall).result) id
      = receivedJson (t ++ st.result) id ++
        if toolCall.id = id then toolCall.function.arguments else "" := by
    intro id
    rw [hout, (receivedJson_append_fragment _ _ hblock id).2.2, receivedJson_snoc,
      (append_toolFree hfree id).2]
    congr 1
    exact String.append_empty
  refine ⟨fun call hcall => ?_, fun id hpos => ?_, fun _ k hk => ?_⟩
  · rw [hcalls] at hcall
    rw [hstarts, hjson, callFragments_snoc, CallEvent.fragmentFor, hindex]
    rcases List.mem_append.1 hcall with hcall | hcall
    · obtain ⟨h1, h2⟩ := htracked.assembled call hcall
      have hne : index ≠ call.index := (hnew.1 call hcall).symm
      rw [if_neg (hnew.2 call hcall).symm, if_neg (hnew.2 call hcall).symm, h1, h2]
      simp [hne]
    · obtain rfl := List.mem_singleton.1 hcall
      simp only [if_true, hzero, hnojson, callFragments_of_new hhist hnew.1, and_self]
  · rw [hstarts] at hpos
    rw [hcalls]
    by_cases hids : toolCall.id = id
    · exact ⟨⟨index, toolCall.id⟩, by simp, hids⟩
    · rw [if_neg hids] at hpos
      obtain ⟨call, hcall, heq⟩ := htracked.known id hpos
      exact ⟨call, List.mem_append_left _ hcall, heq⟩
  · rw [currentCall_snoc] at hk
    simp only [hid, if_false, hindex] at hk
    refine ⟨hstarted', ⟨index, toolCall.id⟩, ?_, Option.some_inj.1 hk, ?_⟩
    · rw [hcalls]
      simp
    · refine ⟨toolCall.function.name, some (.obj []), ?_⟩
      rw [hout, (receivedJson_append_fragment _ _ hblock "").2.1]
      exact (congrArg _ hindex').trans hblock

theorem advances_laterDelta (hid : toolCall.id = "") (st : Emit ClaudeEvent) :
    Advances [.delta toolCall] st (onToolCall st toolCall) := by
  intro history t hallow hfits htracked
  obtain ⟨hhist, hunfinished, index, hindex, -⟩ := permits_snoc.1 hallow
  obtain ⟨-, hfit⟩ := permits_snoc.1 hfits
  have hindex := Option.mem_def.1 hindex
  have hopen : openToolCall toolCall st = st := by rw [openToolCall, if_pos hid]
  have hcalls : calls (history ++ [.delta toolCall]) = calls history := by
    rw [calls_snoc]
    simp only [hid, if_true, List.append_nil]
  have hcurrent : currentCall (history ++ [.delta toolCall]) = currentCall history := by
    rw [currentCall_snoc]
    simp only [hid, if_true]
  rw [onToolCall, hopen]
  by_cases hargs : toolCall.function.arguments = ""
  · -- neither an id nor a fragment: nothing happens
    rw [emitToolArguments, if_pos hargs]
    refine ⟨fun call hcall => ?_, fun id hpos => ?_, fun hfin k hk => ?_⟩
    · rw [hcalls] at hcall
      obtain ⟨h1, h2⟩ := htracked.assembled call hcall
      refine ⟨h1, h2.trans ?_⟩
      rw [callFragments_snoc, CallEvent.fragmentFor, hargs, ite_self, String.append_empty]
    · rw [hcalls]
      exact htracked.known id hpos
    · rw [hcurrent] at hk
      rw [hcalls]
      exact htracked.current hunfinished k hk
  · -- a fragment goes to the call that is open
    have hcur : currentCall history = some index := (hfit hid hargs).trans hindex
    obtain ⟨hstarted, c, hc, hcindex, name, input, hblock⟩ :=
      htracked.current hunfinished index hcur
    obtain ⟨hstarted', hindex', hresult'⟩ := emitToolArguments_of_started toolCall hstarted
    obtain ⟨hstarts, hblocks, -⟩ := receivedJson_append_fragment (t ++ st.result)
      toolCall.function.arguments hblock ""
    rw [hresult', ← List.append_assoc]
    refine ⟨fun call hcall => ?_, fun id hpos => ?_, fun _ k hk => ?_⟩
    · rw [hcalls] at hcall
      obtain ⟨h1, h2⟩ := htracked.assembled call hcall
      refine ⟨(hstarts call.id).trans h1, ?_⟩
      rw [(receivedJson_append_fragment _ _ hblock call.id).2.2, h2, callFragments_snoc,
        CallEvent.fragmentFor, hindex]
      by_cases heq : c = call
      · subst heq
        simp [hcindex]
      · have hne : c.id ≠ call.id := fun h => heq (calls_unique hhist c hc call hcall (Or.inr h))
        have hne' : index ≠ call.index := fun h =>
          heq (calls_unique hhist c hc call hcall (Or.inl (hcindex.trans h)))
        simp [hne, hne']
    · rw [hcalls]
      exact htracked.known id (hstarts id ▸ hpos)
    · rw [hcurrent] at hk
      rw [hcalls, hblocks, hindex']
      exact ⟨hstarted', (htracked.current hunfinished k hk).2⟩

theorem advances_onToolCall (toolCall : OpenAIToolCall) (st : Emit ClaudeEvent) :
    Advances [.delta toolCall] st (onToolCall st toolCall) := by
  by_cases hid : toolCall.id = ""
  · exact advances_laterDelta hid st
  · exact advances_firstDelta hid st

theorem advances_toolCalls (toolCalls : List OpenAIToolCall) (st : Emit ClaudeEvent) :
    Advances (toolCalls.map .delta) st (toolCalls.foldl onToolCall st) := by
  induction toolCalls generalizing st with
  | nil => exact Advances.refl st
  | cons toolCall toolCalls ih =>
    exact (advances_onToolCall toolCall st).trans (ih _)

/-! ### Steps and runs -/

theorem advances_if {e : CallEvent} {c : Prop} [Decidable c] {st : Emit ClaudeEvent}
    (hst : c → st' = st) (h : ToolFree st st') (he : e = .write ∨ e = .finish) :
    Advances (if c then [] else [e]) st st' := by
  by_cases hc : c
  · rw [if_pos hc, hst hc]
    exact Advances.refl st
  · rw [if_neg hc]
    exact Advances.of_toolFree h he

theorem toolFree_emitTextDelta (text : String) (st : Emit ClaudeEvent) :
    ToolFree st (emitTextDelta text st) := by
  rw [emitTextDelta]
  split_ifs
  · exact ToolFree.refl st
  · have hclosed := (toolFree_closeThinkingBlock st).trans (toolFree_leaveToolBlock _)
    refine ToolFree.push ?_ rfl
    rw [ensureTextBlock]
    split_ifs
    · exact hclosed
    · exact hclosed.push rfl

theorem toolFree_emitThinkingDelta (text : String) (st : Emit ClaudeEvent) :
    ToolFree st (emitThinkingDelta text st) := by
  rw [emitThinkingDelta]
  split_ifs
  · exact ToolFree.refl st
  · have hclosed := (toolFree_leaveTextBlock st).trans (toolFree_leaveToolBlock _)
    refine ToolFree.push ?_ rfl
    rw [ensureThinkingBlock]
    split_ifs
    · exact hclosed
    · exact hclosed.push rfl

theorem toolFree_onFinishReason (finishReason : Option String) (st : Emit ClaudeEvent) :
    ToolFree st (onFinishReason finishReason st) := by
  rcases finishReason with _ | reason
  · exact ToolFree.refl st
  · rw [onFinishReason]
    split_ifs
    · exact (toolFree_closeBlocks st).push rfl
    · exact ToolFree.refl st

theorem advances_emitUsage (usage : Option OpenAIUsage) (st : Emit ClaudeEvent) :
    Advances [] st (emitUsage usage st) := by
  rcases usage with _ | usage
  · exact Advances.refl st
  · refine Advances.of_quiet ⟨_, rfl, ?_⟩ rfl rfl
    intro e he
    rw [List.mem_singleton.1 he]
    rfl

theorem advances_emitChatMessageStart (env : Env) (chunk : OpenAIStreamChunk)
    (st : Emit ClaudeEvent) : Advances [] st (emitChatMessageStart env chunk st) := by
  rcases emitChatMessageStart_cases env chunk st with ⟨-, _, _, heq⟩ | ⟨-, _, _, message, heq⟩
  · rw [heq]
    exact Advances.of_quiet ⟨[], by simp, by simp⟩ rfl rfl
  · rw [heq]
    exact Advances.of_quiet ⟨[.messageStart message], rfl, by simp [ClaudeEvent.blockIndex]⟩
      rfl rfl

theorem advances_onChoice (choice : OpenAIStreamChoice) (st : Emit ClaudeEvent) :
    Advances (choiceCallEvents choice) st (onChoice choice st) := by
  have hreasoning : ∀ st, Advances
      (if choice.delta.reasoningContent.getD "" = "" then [] else [.write]) st
      (choice.delta.reasoningContent.elim st fun reasoning => emitThinkingDelta reasoning st) := by
    intro st
    rcases choice.delta.reasoningContent with _ | reasoning
    · exact Advances.refl st
    · exact advances_if (fun h => if_pos h) (toolFree_emitThinkingDelta reasoning st) (Or.inl rfl)
  have hcontent : ∀ st, Advances
      (if choice.delta.content.getD "" = "" then [] else [.write]) st
      (choice.delta.content.elim st fun text => emitTextDelta text st) := by
    intro st
    rcases choice.delta.content with _ | text
    · exact Advances.refl st
    · exact advances_if (fun h => if_pos h) (toolFree_emitTextDelta text st) (Or.inl rfl)
  have hfinish : ∀ st, Advances (if choice.finishReason.getD "" = "" then [] else [.finish]) st
      (onFinishReason choice.finishReason st) := by
    intro st
    refine advances_if (fun h => ?_) (toolFree_onFinishReason _ st) (Or.inr rfl)
    rcases hreason : choice.finishReason with _ | reason
    · rfl
    · rw [hreason, Option.getD_some] at h
      rw [onFinishReason, if_neg (by simp [h])]
  rw [onChoice_elim]
  exact (((hreasoning st).trans (hcontent _)).trans (advances_toolCalls _ _)).trans (hfinish _)

theorem choiceCallEvents_of_isUsageOnly {choice : OpenAIStreamChoice}
    (h : isUsageOnly choice = true) : choiceCallEvents choice = [] := by
  simp only [isUsageOnly, Bool.and_eq_true, decide_eq_true_eq] at h
  obtain ⟨⟨⟨⟨-, hcontent⟩, hreasoning⟩, htools⟩, hfinish⟩ := h
  have htoolCalls : choice.delta.toolCalls.getD [] = [] := by
    rcases hcalls : choice.delta.toolCalls with _ | toolCalls
    · rfl
    · rw [hcalls] at htools
      exact List.isEmpty_iff.1 htools
  rw [choiceCallEvents, if_pos hreasoning, if_pos hcontent, htoolCalls,
    Option.isNone_iff_eq_none.1 hfinish]
  rfl

theorem advances_convertChatChunk (env : Env) (chunk : OpenAIStreamChunk)
    (st : Emit ClaudeEvent) :
    Advances (chunkCallEvents chunk) st (convertChatChunk env chunk st) := by
  have hstart := advances_emitChatMessageStart env chunk st
  rw [convertChatChunk, chunkCallEvents]
  rcases chunk.choices with _ | ⟨choice, choices⟩
  · exact hstart.trans (advances_emitUsage _ _)
  · by_cases honly : (chunk.usage.isSome && isUsageOnly choice) = true
    · simp only [honly, if_true]
      rw [choiceCallEvents_of_isUsageOnly (Bool.and_eq_true_iff.1 honly).2]
      exact hstart.trans (advances_emitUsage _ _)
    · simp only [honly]
      have hevents := hstart.trans ((advances_onChoice choice _).trans
        (advances_emitUsage chunk.usage _))
      rwa [List.append_nil] at hevents

theorem advances_finalizeOpenaiStreamToClaude (ctx : StreamContext) :
    Advances [.finish] (Emit.start ctx)
      ⟨(finalizeOpenaiStreamToClaude ctx).2, (finalizeOpenaiStreamToClaude ctx).1⟩ := by
  refine Advances.of_toolFree ?_ (Or.inr rfl)
  have hclosed := toolFree_closeBlocks (Emit.start ctx)
  rw [finalizeOpenaiStreamToClaude]
  generalize closeBlocks (Emit.start ctx) = st at hclosed ⊢
  simp only [Emit.finish]
  split_ifs
  · exact (hclosed.push rfl).push rfl
  · exact hclosed.push rfl
  · exact hclosed.push rfl
  · exact hclosed

/-- The step lemma: an upstream block of the format that carries the fields is accepted, and
its call events happen. -/
theorem advances_openaiStreamToClaude {env : Env} {event : Bytes} (hformat : InFormat env event)
    (hfields : CarriesFields env event) (ctx : StreamContext) :
    ∃ o ctx', openaiStreamToClaude env event ctx = .ok (o, ctx') ∧
      Advances (eventCallEvents env event) (Emit.start ctx) ⟨ctx', o⟩ := by
  rw [openaiStreamToClaude, readChatInput_eq hformat hfields, eventCallEvents]
  rw [InFormat] at hformat
  rcases hread : readIncremental env event with _ | _ | chunk | error
  case skip => exact ⟨[], ctx, rfl, Advances.refl _⟩
  case done => exact ⟨_, _, rfl, advances_finalizeOpenaiStreamToClaude ctx⟩
  case chunk => exact ⟨_, _, rfl, advances_convertChatChunk env chunk (Emit.start ctx)⟩
  case bad =>
    rw [hread] at hformat
    exact hformat.elim

theorem callsTracked_run {env : Env} {events : List Bytes} (hstream : IncrementalStream env events)
    (hfields : ∀ event ∈ events, CarriesFields env event)
    (hfits : Permits FragmentFits (events.flatMap (eventCallEvents env))) :
    (chatToClaudeRun env events).error = none ∧
    CallsTracked (events.flatMap (eventCallEvents env)) (chatToClaudeRun env events).state
      (chatToClaudeRun env events).out := by
  induction events using List.reverseRecOn with
  | nil => exact ⟨rfl, callsTracked_new⟩
  | append_singleton events event ih =>
    obtain ⟨hblocks, hdeltas⟩ := hstream
    rw [List.flatMap_append, List.flatMap_singleton] at hdeltas hfits ⊢
    obtain ⟨hok, htracked⟩ := ih ⟨fun e he => hblocks e (by simp [he]), hdeltas.of_append⟩
      (fun e he => hfields e (by simp [he])) hfits.of_append
    obtain ⟨o, ctx', hstep, hadvances⟩ := advances_openaiStreamToClaude
      (hblocks event (by simp)) (hfields event (by simp)) (chatToClaudeRun env events).state
    rw [chatToClaudeRun, feed_snoc hok hstep]
    refine ⟨rfl, hadvances _ _ hdeltas hfits ?_⟩
    rw [Emit.start_result, List.append_nil]
    exact htracked

/-- **Tool calls are assembled**: a stream in the incremental format whose deltas carry the
fields, and whose fragments come while their call is the current one. -/
theorem callsAssembled_chatToClaude (env : Env) (events : List Bytes)
    (hstream : IncrementalStream env events) (hfields : ∀ event ∈ events, CarriesFields env event)
    (hfits : Permits FragmentFits (events.flatMap (eventCallEvents env))) :
    CallsAssembled env events := by
  obtain ⟨hok, htracked⟩ := callsTracked_run hstream hfields hfits
  exact ⟨hok, htracked.assembled⟩

/-! ### Concrete streams -/

def toolChunk (toolCall : List (String × Json)) : Json :=
  .obj [("id", .str "c"), ("object", .str ""), ("created", .int 1), ("model", .str "m"),
    ("choices", .arr [.obj [("index", .int 0),
      ("delta", .obj [("tool_calls", .arr [.obj toolCall])])]])]

def fullToolCall (index : ℤ) (id callType name arguments : String) : List (String × Json) :=
  [("index", .int index), ("id", .str id), ("type", .str callType),
    ("function", .obj [("name", .str name), ("arguments", .str arguments)])]

/-- Two calls, one after the other; the later delta has empty fields. -/
def twoCallsInTurn : List Json :=
  [toolChunk (fullToolCall 0 "a" "function" "f" "x"), toolChunk (fullToolCall 0 "" "" "" "y"),
    toolChunk (fullToolCall 1 "b" "function" "f" "z")]

theorem callsAssembled_twoCallsInTurn :
    CallsAssembled (Env.ofValues twoCallsInTurn)
      (twoCallsInTurn.map fun chunk => dataBlock chunk.compact) := by
  have h : (∀ event ∈ twoCallsInTurn.map fun chunk => dataBlock chunk.compact,
        InFormat (Env.ofValues twoCallsInTurn) event ∧
        CarriesFields (Env.ofValues twoCallsInTurn) event) ∧
      Permits IncrementalAllows ((twoCallsInTurn.map fun chunk => dataBlock chunk.compact).flatMap
        (eventCallEvents (Env.ofValues twoCallsInTurn))) ∧
      Permits FragmentFits ((twoCallsInTurn.map fun chunk => dataBlock chunk.compact).flatMap
        (eventCallEvents (Env.ofValues twoCallsInTurn))) := by
    decide +kernel
  exact callsAssembled_chatToClaude _ _ ⟨fun event he => (h.1 event he).1, h.2.1⟩
    (fun event he => (h.1 event he).2) h.2.2

/-- One call as OpenAI streams it: the second delta leaves the known fields out. -/
def oneCallIncremental : List Json :=
  [toolChunk (fullToolCall 0 "a" "function" "f" ""),
    toolChunk [("index", .int 0), ("function", .obj [("arguments", .str "x")])]]

theorem not_callsAssembled_oneCallIncremental :
    IncrementalStream (Env.ofValues oneCallIncremental)
      (oneCallIncremental.map fun chunk => dataBlock chunk.compact) ∧
    ¬ CallsAssembled (Env.ofValues oneCallIncremental)
      (oneCallIncremental.map fun chunk => dataBlock chunk.compact) := by
  refine ⟨⟨by decide +kernel, by decide +kernel⟩, ?_⟩
  intro h
  have haccepted := h.accepted
  exact absurd haccepted (by decide +kernel)

end AiOpenRouter
