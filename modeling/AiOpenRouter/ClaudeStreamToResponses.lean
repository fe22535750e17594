/-
Claude → Responses, streamed and at once.

* `claudeRespToOpenaiResponses` is the converter of a whole message
  (`claude_resp_to_openai_responses`);
* `claudeStreamToOpenaiResponses_carried` says what the stream converter does
  with each event of a message stream, as a pure function `claudeResponsesStep`;
* `runOn_claudeResponsesStep_blocks` gives the whole output of a run of blocks, when
  their indices are `i32` and the message has an id;
* `claudeToResponses_agree_iff`: the announced items and the converted message
  agree exactly when the message is `Plain`.
-/
import AiOpenRouter.ClaudeStream
import AiOpenRouter.ClaudeToResponses
import AiOpenRouter.Sequences

namespace AiOpenRouter

open Trace ResponsesEvent

/-! ### The converter of a whole message -/

def respOutputText (block : Json) : Option Json :=
  if block.getStr "type" = some "text" then
    (block.get "text").map fun text => .obj [("type", .str "output_text"), ("text", text)]
  else none

def respFunctionCall (env : Env) (block : Json) : Option Json :=
  if block.getStr "type" = some "tool_use" then
    let callId := (block.get "id").getD (.str "")
    some (.obj [("type", .str "function_call"), ("id", callId), ("call_id", callId),
      ("name", (block.get "name").getD (.str "")),
      ("arguments", .str (env.toStr ((block.get "input").getD (.obj []))))])
  else none

/-- `claude_resp_to_openai_responses`, between its `serde` calls. -/
def claudeRespToOpenaiResponses (env : Env) (resp : ClaudeResponse) : Json :=
  let outputContent := resp.content.filterMap respOutputText
  let functionCalls := resp.content.filterMap (respFunctionCall env)
  let output :=
    (if outputContent = [] then []
      else [Json.obj [("type", .str "message"), ("role", .str "assistant"),
        ("content", .arr outputContent)]]) ++ functionCalls
  .obj [("id", .str resp.id), ("object", .str "response"), ("status", .str "completed"),
    ("output", .arr output),
    ("usage", .obj [("input_tokens", .int resp.usage.inputTokens),
      ("output_tokens", .int resp.usage.outputTokens),
      ("total_tokens", .int (wrapI32 (resp.usage.inputTokens + resp.usage.outputTokens)))])]

/-! ### The stream converter on a message stream -/

def stopStreamBlock (idx : ℤ) (st : Emit ResponsesEvent) : Emit ResponsesEvent :=
  if st.ctx.toolBlockStarted ∧ idx = st.ctx.toolIndex then
    (pushToolDone idx st).withCtx fun ctx =>
      { ctx with toolBlockStarted := false, toolArguments := "" }
  else if st.ctx.contentBlockStarted ∧ idx = st.ctx.contentIndex then
    (((st.push (.outputTextDone idx)).push (.contentPartDone idx)).push
      (.outputItemDone idx (claudeMessageItem st.ctx idx))).withCtx fun ctx =>
        { ctx with contentBlockStarted := false }
  else st

def takeClaudeEvent (env : Env) (e : ClaudeStreamEvent) (st : Emit ResponsesEvent) :
    Emit ResponsesEvent :=
  match e with
  | .messageStart id inputTokens =>
    (st.withCtx fun ctx =>
      { ctx with messageId := id, inputTokens := wrapI32 inputTokens }).push (.created id)
  | .textStart index _ => startTextItem index st
  | .thinkingStart _ _ => st
  | .toolUseStart index id name _ =>
    (st.withCtx fun ctx =>
      { ctx with toolBlockStarted := true, toolIndex := wrapI32 index, currentToolId := id
                 currentToolName := name }).push
      (.outputItemAdded index (.functionCall id name ""))
  | .textDelta index text =>
    let st := ensureMessageId env st
    let st := if st.ctx.contentBlockStarted then st else startTextItem (wrapI32 index) st
    st.push (.outputTextDelta st.ctx.contentIndex text)
  | .thinkingDelta _ _ => ensureMessageId env st
  | .inputJsonDelta index partialJson =>
    let st := ensureToolItem (wrapI32 index) (ensureMessageId env st)
    let st := st.withCtx fun ctx => { ctx with toolArguments := ctx.toolArguments ++ partialJson }
    st.push (.functionCallArgumentsDelta st.ctx.toolIndex partialJson)
  | .blockStop index => stopStreamBlock index st
  | .messageDelta _ outputTokens =>
    st.withCtx fun ctx => { ctx with outputTokens := wrapI32 outputTokens }
  | .messageStop => onMessageStop st
  | .other _ => st

def claudeResponsesStep (env : Env) (e : ClaudeStreamEvent) (ctx : StreamContext) :
    List ResponsesEvent × StreamContext :=
  (takeClaudeEvent env e (Emit.start ctx)).finish

variable {env : Env} {ctx : StreamContext} {m : StreamedMessage} {block : StreamedBlock}
  {e : ClaudeStreamEvent} {model : String} {content : List Json} (st : Emit ResponsesEvent)
  (id : String) (k : ℕ) (blocks : List StreamedBlock)

theorem convertClaudeToResponses_read {data : Json} (h : e.Says data) (st : Emit ResponsesEvent) :
    convertClaudeToResponses env e.eventType data st = takeClaudeEvent env e st := by
  cases e with
  | messageStart id inputTokens =>
    obtain ⟨msg, usage, hmsg, hid, husage, hinput⟩ := h
    have htake : takeClaudeMessage msg = fun ctx =>
        { ctx with messageId := id, inputTokens := wrapI32 inputTokens } := by
      funext ctx
      simp [takeClaudeMessage, hid, husage, usageCount, hinput]
    simp [convertClaudeToResponses, ClaudeStreamEvent.eventType, onMessageStart, hmsg, htake,
      takeClaudeEvent]
  | textStart index text =>
    obtain ⟨hindex, block, hblock, htype, -⟩ := h
    simp [convertClaudeToResponses, ClaudeStreamEvent.eventType, onBlockStart, hblock, htype,
      claudeIndex, hindex, takeClaudeEvent]
  | thinkingStart index thinking =>
    obtain ⟨-, block, hblock, htype, -⟩ := h
    simp [convertClaudeToResponses, ClaudeStreamEvent.eventType, onBlockStart, hblock, htype,
      takeClaudeEvent]
  | toolUseStart index id name input =>
    obtain ⟨hindex, block, hblock, htype, hid, hname, -⟩ := h
    simp [convertClaudeToResponses, ClaudeStreamEvent.eventType, onBlockStart, hblock, htype,
      claudeIndex, hindex, startToolItem, hid, hname, takeClaudeEvent]
  | textDelta index text =>
    obtain ⟨hindex, delta, hdelta, htype, htext⟩ := h
    simp [convertClaudeToResponses, ClaudeStreamEvent.eventType, onBlockDelta, hdelta, htype,
      claudeIndex, hindex, onTextDelta, htext, takeClaudeEvent]
  | thinkingDelta index thinking =>
    obtain ⟨-, delta, hdelta, htype, -⟩ := h
    simp [convertClaudeToResponses, ClaudeStreamEvent.eventType, onBlockDelta, hdelta, htype,
      takeClaudeEvent]
  | inputJsonDelta index partialJson =>
    obtain ⟨hindex, delta, hdelta, htype, hpartial⟩ := h
    simp [convertClaudeToResponses, ClaudeStreamEvent.eventType, onBlockDelta, hdelta, htype,
      claudeIndex, hindex, onInputJsonDelta, hpartial, takeClaudeEvent]
  | blockStop index =>
    rw [ClaudeStreamEvent.Says] at h
    simp [convertClaudeToResponses, ClaudeStreamEvent.eventType, onBlockStop, claudeIndex, h,
      takeClaudeEvent, stopStreamBlock]
  | messageDelta stopReason outputTokens =>
    obtain ⟨delta, usage, -, -, husage, houtput⟩ := h
    simp [convertClaudeToResponses, ClaudeStreamEvent.eventType, onMessageDelta, husage,
      usageCount, houtput, takeClaudeEvent]
  | messageStop => rfl
  | other eventType =>
    have hother : eventType ∉ ClaudeStreamEvent.knownTypes := h
    simp only [ClaudeStreamEvent.knownTypes, List.mem_cons, not_or] at hother
    unfold convertClaudeToResponses
    simp only [ClaudeStreamEvent.eventType]
    split <;> simp_all [takeClaudeEvent]

theorem eventType_ne_error {data : Json} (h : e.Says data) : e.eventType ≠ "error" := by
  cases e with
  | other eventType =>
    rintro rfl
    exact h (by decide)
  | _ => simp [ClaudeStreamEvent.eventType]

theorem claudeStreamToOpenaiResponses_carried (env : Env) (block : Bytes) (e : ClaudeStreamEvent)
    (h : e.CarriedBy env block) (ctx : StreamContext) :
    claudeStreamToOpenaiResponses env block ctx = .ok (claudeResponsesStep env e ctx) := by
  obtain ⟨data, hread, htype, hsays⟩ := h
  have hchecked : readClaudeChecked env block = .event e.eventType data := by
    rw [readClaudeChecked, hread]
    dsimp only
    rw [htype, if_neg (fun h => eventType_ne_error hsays (Option.some.inj h))]
  rw [claudeStreamToOpenaiResponses, hchecked]
  dsimp only
  rw [convertClaudeToResponses_read hsays, claudeResponsesStep]

theorem feed_eq_runOn_events {blocks : List Bytes} (h : m.StreamedAs env blocks) :
    (feed (claudeStreamToOpenaiResponses env) (.forModel model) blocks).out =
      (runOn (claudeResponsesStep env) (.forModel model) m.events).1 := by
  obtain ⟨es, hcarried, hfilter⟩ := h
  have hsilent : ∀ e : ClaudeStreamEvent, e.isKnown = false →
      ∀ ctx, claudeResponsesStep env e ctx = ([], ctx) := by
    intro e he ctx
    cases e with
    | other eventType => rfl
    | _ => cases he
  rw [feed_eq_runOn (claudeStreamToOpenaiResponses_carried env) hcarried, runOn_filter hsilent,
    hfilter]

/-! ### The output of a block -/

def messageItemAt (messageId : String) (k : ℕ) : OutputItem :=
  .message ("msg_" ++ messageId ++ "_" ++ toString (k : ℤ))

def toolItemAt (k : ℕ) (id name arguments : String) : OutputItem :=
  .functionCall (if id = "" then "tool_" ++ toString (k : ℤ) else id)
    (if name = "" then "unknown" else name) arguments

def StreamedBlock.itemEvents (messageId : String) (k : ℕ) : StreamedBlock → List ResponsesEvent
  | text _ deltas =>
    [.outputItemAdded k (messageItemAt messageId k), .contentPartAdded k] ++
      (deltas.map (.outputTextDelta k) ++
        [.outputTextDone k, .contentPartDone k, .outputItemDone k (messageItemAt messageId k)])
  | thinking _ _ => []
  | toolUse id name _ fragments =>
    [.outputItemAdded k (.functionCall id name "")] ++
      (fragments.map (.functionCallArgumentsDelta k) ++
        [.functionCallArgumentsDone k ("".intercalate fragments),
          .outputItemDone k (toolItemAt k id name ("".intercalate fragments))])

def StreamedBlock.deltas : StreamedBlock → List String
  | text _ deltas | thinking _ deltas | toolUse _ _ _ deltas => deltas

def StreamedBlock.isItem : StreamedBlock → Bool
  | thinking _ _ => false
  | _ => true

structure Resting (id : String) (inputTokens : ℤ) (ctx : StreamContext) : Prop where
  messageId : ctx.messageId = id
  inputTokens : ctx.inputTokens = inputTokens
  contentClosed : ctx.contentBlockStarted = false
  toolClosed : ctx.toolBlockStarted = false
  arguments : ctx.toolArguments = ""

theorem claudeResponsesStep_textDelta (hid : ctx.messageId ≠ "")
    (hopen : ctx.contentBlockStarted = true) (k : ℕ) (text : String) :
    claudeResponsesStep env (.textDelta k text) ctx =
      ([.outputTextDelta ctx.contentIndex text], ctx) := by
  simp [claudeResponsesStep, takeClaudeEvent, ensureMessageId, hid, hopen, Emit.finish]

theorem runOn_fragments (fragments : List String) (hid : ctx.messageId ≠ "" ∨ fragments = [])
    (hopen : ctx.toolBlockStarted = true) :
    runOn (claudeResponsesStep env) ctx (fragments.map (.inputJsonDelta k)) =
      (fragments.map (.functionCallArgumentsDelta ctx.toolIndex),
        { ctx with toolArguments := ctx.toolArguments ++ "".intercalate fragments }) := by
  induction fragments generalizing ctx with
  | nil => simp
  | cons fragment fragments ih =>
    have hne : ctx.messageId ≠ "" := hid.resolve_right (List.cons_ne_nil _ _)
    have hstep : claudeResponsesStep env (.inputJsonDelta k fragment) ctx =
        ([.functionCallArgumentsDelta ctx.toolIndex fragment],
          { ctx with toolArguments := ctx.toolArguments ++ fragment }) := by
      simp [claudeResponsesStep, takeClaudeEvent, ensureMessageId, ensureToolItem, hne, hopen,
        Emit.finish]
    have hrest : runOn (claudeResponsesStep env)
        { ctx with toolArguments := ctx.toolArguments ++ fragment }
        (fragments.map (.inputJsonDelta k)) = _ := ih (Or.inl hne) hopen
    rw [List.map_cons, runOn_cons, hstep, hrest, intercalate_empty_cons, String.append_assoc]
    rfl

/-- **The output for one block**, when its index is an `i32` and the message has an id. -/
theorem runOn_claudeResponsesStep_block (env : Env) {id : String} {n : ℤ} (h : Resting id n ctx)
    {k : ℕ} (hid : id ≠ "" ∨ block.deltas = []) (hk : block.isItem → k < 2147483648) :
    (runOn (claudeResponsesStep env) ctx (block.events k)).1 = block.itemEvents id k ∧
      Resting id n (runOn (claudeResponsesStep env) ctx (block.events k)).2 := by
  obtain ⟨rfl, hn, hcontent, htool, harguments⟩ := h
  -- the start, the deltas and the stop of each kind of block
  cases block with
  | text initial deltas =>
    have hwrap : wrapI32 k = k := wrapI32_of_mem (by omega) (by have := hk rfl; omega)
    let ctx' := { ctx with contentBlockStarted := true, contentIndex := (k : ℤ) }
    have hstart : claudeResponsesStep env (.textStart k initial) ctx =
        ([.outputItemAdded k (messageItemAt ctx.messageId k), .contentPartAdded k], ctx') := by
      simp [claudeResponsesStep, takeClaudeEvent, startTextItem, hwrap, claudeMessageItem,
        messageItemAt, Emit.finish, ctx']
    have hdeltas : runOn (claudeResponsesStep env) ctx' (deltas.map (.textDelta k)) =
        (deltas.map (.outputTextDelta k), ctx') :=
      runOn_map fun text hmem => by
        have hne : ctx'.messageId ≠ "" := hid.resolve_right (List.ne_nil_of_mem hmem)
        exact claudeResponsesStep_textDelta hne rfl k text
    have hstop : claudeResponsesStep env (.blockStop k) ctx' =
        ([.outputTextDone k, .contentPartDone k, .outputItemDone k (messageItemAt ctx.messageId k)],
          { ctx' with contentBlockStarted := false }) := by
      simp [claudeResponsesStep, takeClaudeEvent, stopStreamBlock, htool, claudeMessageItem,
        messageItemAt, Emit.finish, ctx']
    rw [StreamedBlock.events, runOn_cons, hstart, runOn_append, hdeltas, runOn_cons, hstop]
    exact ⟨by simp [StreamedBlock.itemEvents], ⟨rfl, hn, rfl, htool, harguments⟩⟩
  | thinking initial deltas =>
    have hdeltas : ∀ deltas : List String, (ctx.messageId ≠ "" ∨ deltas = []) →
        runOn (claudeResponsesStep env) ctx (deltas.map (.thinkingDelta k)) = ([], ctx) := by
      intro deltas hid
      induction deltas with
      | nil => rfl
      | cons thinking deltas ih =>
        have hne : ctx.messageId ≠ "" := hid.resolve_right (List.cons_ne_nil _ _)
        have hstep : claudeResponsesStep env (.thinkingDelta k thinking) ctx = ([], ctx) := by
          simp [claudeResponsesStep, takeClaudeEvent, ensureMessageId, hne, Emit.finish]
        rw [List.map_cons, runOn_cons, hstep, ih (Or.inl hne)]
        rfl
    have hstart : claudeResponsesStep env (.thinkingStart k initial) ctx = ([], ctx) := rfl
    have hstop : claudeResponsesStep env (.blockStop k) ctx = ([], ctx) := by
      simp [claudeResponsesStep, takeClaudeEvent, stopStreamBlock, htool, hcontent, Emit.finish]
    rw [StreamedBlock.events, runOn_cons, hstart, runOn_append, hdeltas deltas hid, runOn_cons,
      hstop]
    exact ⟨rfl, ⟨rfl, hn, hcontent, htool, harguments⟩⟩
  | toolUse toolId name initial fragments =>
    have hwrap : wrapI32 k = k := wrapI32_of_mem (by omega) (by have := hk rfl; omega)
    let ctx' := { ctx with toolBlockStarted := true, toolIndex := (k : ℤ), currentToolId := toolId
                           currentToolName := name }
    have hstart : claudeResponsesStep env (.toolUseStart k toolId name initial) ctx =
        ([.outputItemAdded k (.functionCall toolId name "")], ctx') := by
      simp [claudeResponsesStep, takeClaudeEvent, hwrap, Emit.finish, ctx']
    have hfragments : runOn (claudeResponsesStep env) ctx' (fragments.map (.inputJsonDelta k)) =
        (fragments.map (.functionCallArgumentsDelta k),
          { ctx' with toolArguments := "".intercalate fragments }) := by
      have hempty : ctx'.toolArguments ++ "".intercalate fragments = "".intercalate fragments := by
        simp [ctx', harguments]
      rw [← hempty]
      exact runOn_fragments k fragments hid rfl
    have hstop : claudeResponsesStep env (.blockStop k)
        { ctx' with toolArguments := "".intercalate fragments } =
        ([.functionCallArgumentsDone k ("".intercalate fragments),
          .outputItemDone k (toolItemAt k toolId name ("".intercalate fragments))],
          { ctx' with toolBlockStarted := false, toolArguments := "" }) := by
      simp [claudeResponsesStep, takeClaudeEvent, stopStreamBlock, pushToolDone, claudeToolItem,
        toolItemAt, Emit.finish, ctx']
      rfl
    rw [StreamedBlock.events, runOn_cons, hstart, runOn_append, hfragments, runOn_cons, hstop]
    exact ⟨by simp [StreamedBlock.itemEvents], ⟨rfl, hn, hcontent, rfl, rfl⟩⟩

def itemEvents (messageId : String) : ℕ → List StreamedBlock → List ResponsesEvent
  | _, [] => []
  | k, block :: blocks => block.itemEvents messageId k ++ itemEvents messageId (k + 1) blocks

/-- Every block that becomes an item has an `i32` index. -/
def ItemsIndexed : ℕ → List StreamedBlock → Prop
  | _, [] => True
  | k, block :: blocks => (block.isItem → k < 2147483648) ∧ ItemsIndexed (k + 1) blocks

/-- **The output of the blocks of a message.** -/
theorem runOn_claudeResponsesStep_blocks (env : Env) {id : String} {n : ℤ} (h : Resting id n ctx)
    {k : ℕ} {blocks : List StreamedBlock} (hid : id ≠ "" ∨ ∀ block ∈ blocks, block.deltas = [])
    (hk : ItemsIndexed k blocks) :
    (runOn (claudeResponsesStep env) ctx (blockEvents k blocks)).1 = itemEvents id k blocks ∧
      Resting id n (runOn (claudeResponsesStep env) ctx (blockEvents k blocks)).2 := by
  induction blocks generalizing k ctx with
  | nil => exact ⟨rfl, h⟩
  | cons block blocks ih =>
    have hid₁ : id ≠ "" ∨ block.deltas = [] := hid.imp_right fun h => h block List.mem_cons_self
    have hid₂ : id ≠ "" ∨ ∀ block ∈ blocks, block.deltas = [] :=
      hid.imp_right fun h b hb => h b (List.mem_cons_of_mem block hb)
    obtain ⟨hout, hrest⟩ := runOn_claudeResponsesStep_block env h hid₁ hk.1
    obtain ⟨hout', hrest'⟩ := ih hrest hid₂ hk.2
    rw [blockEvents, runOn_append, hout, hout']
    exact ⟨rfl, hrest'⟩

def messageEvents (m : StreamedMessage) : List ResponsesEvent :=
  .created m.id :: (itemEvents m.id 0 m.blocks ++
    [.completed m.id
      { inputTokens := wrapI32 m.inputTokens, outputTokens := wrapI32 m.outputTokens
        totalTokens := wrapI32 (wrapI32 m.inputTokens + wrapI32 m.outputTokens) },
      .doneMarker])

theorem feed_claudeStream {blocks : List Bytes} (h : m.StreamedAs env blocks)
    (hid : m.id ≠ "" ∨ ∀ block ∈ m.blocks, block.deltas = []) (hk : ItemsIndexed 0 m.blocks) :
    (feed (claudeStreamToOpenaiResponses env) (.forModel model) blocks).out = messageEvents m := by
  let ctx : StreamContext :=
    { StreamContext.forModel model with messageId := m.id, inputTokens := wrapI32 m.inputTokens }
  have hstart : claudeResponsesStep env (.messageStart m.id m.inputTokens) (.forModel model) =
      ([.created m.id], ctx) := rfl
  have hresting : Resting m.id (wrapI32 m.inputTokens) ctx := ⟨rfl, rfl, rfl, rfl, rfl⟩
  obtain ⟨hout, hrest⟩ := runOn_claudeResponsesStep_blocks env hresting hid hk
  rw [feed_eq_runOn_events h, StreamedMessage.events,
    runOn_cons, hstart, runOn_append, hout]
  generalize (runOn (claudeResponsesStep env) ctx (blockEvents 0 m.blocks)).2 = last at hrest
  obtain ⟨hmessage, hinput, -, htool, -⟩ := hrest
  simp [claudeResponsesStep, takeClaudeEvent, onMessageStop, htool, hmessage, hinput, reportedUsage,
    messageEvents, Emit.finish]

/-! ### What a client reads -/

def isMessageDoneAt (i : ℤ) : ResponsesEvent → Bool
  | outputItemDone j (.message _) => j = i
  | _ => false

def textDeltaOf : ResponsesEvent → Option (ℤ × String)
  | outputTextDelta i delta => some (i, delta)
  | _ => none

def finishedText (t : List ResponsesEvent) : String :=
  "".intercalate (((t.filterMap textDeltaOf).filter fun delta =>
    t.any (isMessageDoneAt delta.1)).map Prod.snd)

def finishedCallOf (env : Env) : ResponsesEvent → Option (String × String × Except String Json)
  | outputItemDone _ (.functionCall id name arguments) => some (id, name, env.fromStr arguments)
  | _ => none

def finishedCalls (env : Env) (t : List ResponsesEvent) :
    List (String × String × Except String Json) := t.filterMap (finishedCallOf env)

def isCreated : ResponsesEvent → Bool
  | created _ => true
  | _ => false

def responseOutput (response : Json) : List Json :=
  ((response.get "output").bind Json.asArray).getD []

def outputItemText (item : Json) : String :=
  if item.getStr "type" = some "message" then
    "".intercalate ((((item.get "content").bind Json.asArray).getD []).map fun part =>
      (part.getStr "text").getD "")
  else ""

def outputItemCall (env : Env) (item : Json) : Option (String × String × Except String Json) :=
  if item.getStr "type" = some "function_call" then
    some ((item.getStr "call_id").getD "", (item.getStr "name").getD "",
      env.fromStr ((item.getStr "arguments").getD ""))
  else none

def responseUsage (response : Json) : ResponsesUsage :=
  let usage := (response.get "usage").getD .null
  { inputTokens := (usage.getI64 "input_tokens").getD 0
    outputTokens := (usage.getI64 "output_tokens").getD 0
    totalTokens := (usage.getI64 "total_tokens").getD 0 }

/-- The announced items carry the text, the calls and the usage of the response; every added
item has exactly one done, and the response is created once. -/
structure AnnouncesResponse (env : Env) (t : List ResponsesEvent) (response : Json) : Prop where
  text : finishedText t = "".intercalate ((responseOutput response).map outputItemText)
  calls : finishedCalls env t = (responseOutput response).filterMap (outputItemCall env)
  usage : completions t = [responseUsage response]
  items : ∀ i, addedAt t i ≤ 1 ∧ doneAt t i = addedAt t i
  created : t.countP isCreated = 1

/-! ### The items of a message stream -/

theorem countP_map_eq_zero {α β : Type*} {p : β → Bool} {f : α → β} (h : ∀ x, p (f x) = false)
    (xs : List α) : (xs.map f).countP p = 0 := by
  rw [List.countP_eq_zero]
  intro y hy
  obtain ⟨x, -, rfl⟩ := List.mem_map.1 hy
  simp [h x]

theorem addedAt_block (block : StreamedBlock) (i : ℤ) :
    addedAt (block.itemEvents id k) i = (if block.isItem ∧ (k : ℤ) = i then 1 else 0) ∧
      doneAt (block.itemEvents id k) i = (if block.isItem ∧ (k : ℤ) = i then 1 else 0) := by
  cases block with
  | text initial deltas =>
    have hadded : addedAt (deltas.map (.outputTextDelta k)) i = 0 :=
      countP_map_eq_zero (fun _ => rfl) deltas
    have hdone : doneAt (deltas.map (.outputTextDelta k)) i = 0 :=
      countP_map_eq_zero (fun _ => rfl) deltas
    simp [StreamedBlock.itemEvents, StreamedBlock.isItem, isAddedAt, isDoneAt, hadded, hdone]
  | thinking initial deltas => simp [StreamedBlock.itemEvents, StreamedBlock.isItem]
  | toolUse toolId name initial fragments =>
    have hadded : addedAt (fragments.map (.functionCallArgumentsDelta k)) i = 0 :=
      countP_map_eq_zero (fun _ => rfl) fragments
    have hdone : doneAt (fragments.map (.functionCallArgumentsDelta k)) i = 0 :=
      countP_map_eq_zero (fun _ => rfl) fragments
    simp [StreamedBlock.itemEvents, StreamedBlock.isItem, isAddedAt, isDoneAt, hadded, hdone]

theorem addedAt_itemEvents (i : ℤ) :
    addedAt (itemEvents id k blocks) i ≤ (if (k : ℤ) ≤ i then 1 else 0) ∧
      doneAt (itemEvents id k blocks) i = addedAt (itemEvents id k blocks) i := by
  induction blocks generalizing k with
  | nil => simp [itemEvents]
  | cons block blocks ih =>
    obtain ⟨hadded, hdone⟩ := addedAt_block id k block i
    obtain ⟨hle, heq⟩ := ih (k + 1)
    rw [itemEvents, addedAt_append, doneAt_append, hadded, hdone, heq]
    refine ⟨?_, rfl⟩
    push_cast at hle
    split_ifs at hle ⊢ <;> omega

theorem itemEvents_not_created :
    (itemEvents id k blocks).countP isCreated = 0 ∧ completions (itemEvents id k blocks) = [] := by
  induction blocks generalizing k with
  | nil => exact ⟨rfl, rfl⟩
  | cons block blocks ih =>
    obtain ⟨hcreated, hcompletions⟩ := ih (k + 1)
    rw [itemEvents, List.countP_append, completions_append, hcreated, hcompletions]
    cases block with
    | text initial deltas =>
      have hzero : (deltas.map (outputTextDelta k)).countP isCreated = 0 :=
        countP_map_eq_zero (fun _ => rfl) deltas
      have hnone : completions (deltas.map (outputTextDelta k)) = [] := by
        rw [completions, List.filterMap_map]
        exact List.filterMap_eq_nil_iff.2 fun _ _ => rfl
      simp [StreamedBlock.itemEvents, isCreated, completedUsage, hzero, hnone]
    | thinking initial deltas => simp [StreamedBlock.itemEvents]
    | toolUse toolId name initial fragments =>
      have hzero : (fragments.map (functionCallArgumentsDelta k)).countP isCreated = 0 :=
        countP_map_eq_zero (fun _ => rfl) fragments
      have hnone : completions (fragments.map (functionCallArgumentsDelta k)) = [] := by
        rw [completions, List.filterMap_map]
        exact List.filterMap_eq_nil_iff.2 fun _ _ => rfl
      simp [StreamedBlock.itemEvents, isCreated, completedUsage, hzero, hnone]

theorem textDeltas_itemEvents :
    (∀ delta ∈ (itemEvents id k blocks).filterMap textDeltaOf,
        (itemEvents id k blocks).any (isMessageDoneAt delta.1)) ∧
      "".intercalate (((itemEvents id k blocks).filterMap textDeltaOf).map Prod.snd) =
        "".intercalate (blocks.map StreamedBlock.deltaText) := by
  induction blocks generalizing k with
  | nil => simp [itemEvents]
  | cons block blocks ih =>
    obtain ⟨hdone, htext⟩ := ih (k + 1)
    -- one block
    have hblock : (∀ delta ∈ (block.itemEvents id k).filterMap textDeltaOf,
          (block.itemEvents id k).any (isMessageDoneAt delta.1)) ∧
        "".intercalate (((block.itemEvents id k).filterMap textDeltaOf).map Prod.snd) =
          block.deltaText := by
      cases block with
      | text initial deltas =>
        have hdeltas : (deltas.map (outputTextDelta k)).filterMap textDeltaOf =
            deltas.map fun delta => ((k : ℤ), delta) := by
          rw [List.filterMap_map]
          exact congrFun List.filterMap_eq_map deltas
        have hall : ((StreamedBlock.text initial deltas).itemEvents id k).filterMap textDeltaOf =
            deltas.map fun delta => ((k : ℤ), delta) := by
          simp [StreamedBlock.itemEvents, filterMap_cons_eq_append, textDeltaOf, hdeltas]
        rw [hall]
        refine ⟨?_, by simp [StreamedBlock.deltaText, Function.comp_def]⟩
        intro delta hmem
        obtain ⟨text, -, rfl⟩ := List.mem_map.1 hmem
        simp [StreamedBlock.itemEvents, isMessageDoneAt, messageItemAt]
      | thinking initial deltas => simp [StreamedBlock.itemEvents, StreamedBlock.deltaText]
      | toolUse toolId name initial fragments =>
        have hfragments : (fragments.map (functionCallArgumentsDelta k)).filterMap textDeltaOf =
            [] := by
          rw [List.filterMap_map]
          exact List.filterMap_eq_nil_iff.2 fun _ _ => rfl
        simp [StreamedBlock.itemEvents, StreamedBlock.deltaText, filterMap_cons_eq_append,
          textDeltaOf, hfragments]
    refine ⟨?_, ?_⟩
    · intro delta hmem
      rw [itemEvents, List.filterMap_append, List.mem_append] at hmem
      rw [itemEvents, List.any_append, Bool.or_eq_true]
      exact hmem.imp (hblock.1 delta) (hdone delta)
    · rw [itemEvents, List.filterMap_append, List.map_append, intercalate_empty_append, htext,
        List.map_cons, intercalate_empty_cons, hblock.2]

/-! ### Calls -/

def StreamedBlock.announcedCall (env : Env) (k : ℕ) :
    StreamedBlock → Option (String × String × Except String Json)
  | toolUse id name _ fragments =>
    some (if id = "" then "tool_" ++ toString (k : ℤ) else id,
      if name = "" then "unknown" else name, env.fromStr ("".intercalate fragments))
  | _ => none

theorem finishedCalls_block (env : Env) (id : String) (k : ℕ) (block : StreamedBlock) :
    finishedCalls env (block.itemEvents id k) = (block.announcedCall env k).toList := by
  cases block with
  | text initial deltas =>
    have hdeltas : (deltas.map (outputTextDelta k)).filterMap (finishedCallOf env) = [] := by
      rw [List.filterMap_map]
      exact List.filterMap_eq_nil_iff.2 fun _ _ => rfl
    simp [finishedCalls, StreamedBlock.itemEvents, filterMap_cons_eq_append, finishedCallOf,
      messageItemAt, hdeltas, StreamedBlock.announcedCall]
  | thinking initial deltas => rfl
  | toolUse toolId name initial fragments =>
    have hfragments : (fragments.map (functionCallArgumentsDelta k)).filterMap
        (finishedCallOf env) = [] := by
      rw [List.filterMap_map]
      exact List.filterMap_eq_nil_iff.2 fun _ _ => rfl
    simp [finishedCalls, StreamedBlock.itemEvents, filterMap_cons_eq_append, finishedCallOf,
      toolItemAt, hfragments, StreamedBlock.announcedCall]

theorem outputItemCall_functionCall (env : Env) {content : Json} {id name : String} {input : Json}
    (htype : content.getStr "type" = some "tool_use") (hid : content.getStr "id" = some id)
    (hname : content.getStr "name" = some name) (hinput : content.get "input" = some input) :
    (respFunctionCall env content).bind (outputItemCall env) =
      some (id, name, env.fromStr (env.toStr input)) := by
  have hstr : ∀ {key : String} {s : String}, content.getStr key = some s →
      content.get key = some (.str s) := by
    intro key s h
    rw [Json.getStr] at h
    cases hget : content.get key with
    | none => simp [hget] at h
    | some value =>
      cases value <;> simp_all [Json.asStr]
  rw [respFunctionCall, if_pos htype, hstr hid, hstr hname, hinput]
  rfl

def StreamedBlock.CallComplete : StreamedBlock → Prop
  | toolUse id name _ fragments => id ≠ "" ∧ name ≠ "" ∧ "".intercalate fragments ≠ ""
  | _ => True

/-- **The call of a block is announced as it is converted exactly when it is complete.** -/
theorem announcedCall_eq_iff {k : ℕ} {content : Json} (h : block.AssemblesTo env content)
    (hempty : ∀ v, env.fromStr "" ≠ .ok v)
    (hjson : ∀ input, content.get "input" = some input →
      env.fromStr (env.toStr input) = .ok input) :
    (block.announcedCall env k).isSome =
        ((respFunctionCall env content).bind (outputItemCall env)).isSome ∧
      (block.announcedCall env k = (respFunctionCall env content).bind (outputItemCall env) ↔
        block.CallComplete) := by
  cases block with
  | text initial deltas =>
    simp [StreamedBlock.announcedCall, respFunctionCall, h.1, StreamedBlock.CallComplete]
  | thinking initial deltas =>
    simp [StreamedBlock.announcedCall, respFunctionCall, h.1, StreamedBlock.CallComplete]
  | toolUse id name initial fragments =>
    obtain ⟨htype, hid, hname, input, hinput, hparse⟩ := h
    rw [outputItemCall_functionCall env htype hid hname hinput, hjson input hinput,
      StreamedBlock.announcedCall, StreamedBlock.CallComplete]
    refine ⟨rfl, ?_⟩
    rw [Option.some_inj, Prod.mk.injEq, Prod.mk.injEq]
    have harguments : env.fromStr ("".intercalate fragments) = .ok input ↔
        "".intercalate fragments ≠ "" := by
      by_cases hfragments : "".intercalate fragments = ""
      · rw [hfragments]
        exact ⟨fun h => absurd h (hempty input), fun h => absurd rfl h⟩
      · rw [if_neg hfragments] at hparse
        simp [hparse, hfragments]
    have hidIff : (if id = "" then "tool_" ++ toString (k : ℤ) else id) = id ↔ id ≠ "" := by
      by_cases hid : id = ""
      · simp [hid]
      · simp [hid]
    have hnameIff : (if name = "" then "unknown" else name) = name ↔ name ≠ "" := by
      by_cases hname : name = ""
      · simp [hname]
      · simp [hname]
    rw [hidIff, hnameIff, harguments]

theorem finishedCalls_eq_iff {id : String} {k : ℕ} {blocks : List StreamedBlock}
    (hempty : ∀ v, env.fromStr "" ≠ .ok v)
    (hjson : ∀ c ∈ content, ∀ input, c.get "input" = some input →
      env.fromStr (env.toStr input) = .ok input)
    (h : List.Forall₂ (fun block content => block.AssemblesTo env content) blocks content) :
    finishedCalls env (itemEvents id k blocks) =
        (content.filterMap (respFunctionCall env)).filterMap (outputItemCall env) ↔
      ∀ block ∈ blocks, block.CallComplete := by
  rw [List.filterMap_filterMap]
  induction h generalizing k with
  | nil => simp [itemEvents, finishedCalls]
  | @cons block c blocks content hblock _ ih =>
    obtain ⟨hsome, hiff⟩ := announcedCall_eq_iff (k := k) hblock hempty
      (hjson c List.mem_cons_self)
    have ih' := ih (k := k + 1) fun c hc => hjson c (List.mem_cons_of_mem _ hc)
    have happend : finishedCalls env (itemEvents id k (block :: blocks)) =
        (block.announcedCall env k).toList ++ finishedCalls env (itemEvents id (k + 1) blocks) := by
      rw [← finishedCalls_block env id k block]
      exact List.filterMap_append
    rw [happend, filterMap_cons_eq_append, List.forall_mem_cons, ← hiff, ← ih']
    cases hann : block.announcedCall env k with
    | none =>
      rw [hann, Option.isSome_none] at hsome
      have hnone : (respFunctionCall env c).bind (outputItemCall env) = none := by
        rw [← Option.not_isSome_iff_eq_none, ← hsome]
        simp
      simp [hnone]
    | some call =>
      rw [hann, Option.isSome_some] at hsome
      obtain ⟨call', hcall'⟩ := Option.isSome_iff_exists.1 hsome.symm
      simp [hcall']

/-! ### The converted message -/

theorem respOutputText_spell {content : Json} (h : block.AssemblesTo env content) :
    "".intercalate ((respOutputText content).toList.map fun part =>
      (part.getStr "text").getD "") = block.wholeText := by
  cases block with
  | text initial deltas =>
    obtain ⟨htype, htext⟩ := h
    have hget : ∃ v, content.get "text" = some v ∧
        v.asStr = some (initial ++ "".intercalate deltas) :=
      Option.bind_eq_some_iff.1 htext
    obtain ⟨v, hv, hstr⟩ := hget
    have hpart : Json.getStr (.obj [("type", .str "output_text"), ("text", v)]) "text" =
        v.asStr := rfl
    rw [respOutputText, if_pos htype, hv]
    simp [hpart, hstr, StreamedBlock.wholeText]
  | thinking initial deltas => simp [respOutputText, h.1, StreamedBlock.wholeText]
  | toolUse id name initial fragments => simp [respOutputText, h.1, StreamedBlock.wholeText]

theorem respOutputTexts_spell {blocks : List StreamedBlock}
    (h : List.Forall₂ (fun block content => block.AssemblesTo env content) blocks content) :
    "".intercalate ((content.filterMap respOutputText).map fun part =>
      (part.getStr "text").getD "") = "".intercalate (blocks.map StreamedBlock.wholeText) := by
  induction h with
  | nil => rfl
  | cons hblock _ ih =>
    rw [filterMap_cons_eq_append, List.map_append, intercalate_empty_append, ih,
      respOutputText_spell hblock, List.map_cons, intercalate_empty_cons]

theorem functionCall_text :
    "".intercalate ((content.filterMap (respFunctionCall env)).map outputItemText) = "" := by
  have hnone : ∀ item ∈ content.filterMap (respFunctionCall env), outputItemText item = "" := by
    intro item hmem
    obtain ⟨c, -, hc⟩ := List.mem_filterMap.1 hmem
    unfold respFunctionCall at hc
    split at hc
    · rw [← Option.some.inj hc]
      rfl
    · cases hc
  rw [List.map_congr_left hnone]
  induction content.filterMap (respFunctionCall env) with
  | nil => rfl
  | cons item items ih => rw [List.map_cons, intercalate_empty_cons, ih]; rfl

theorem responseOutput_claudeResp {resp : ClaudeResponse} (h : m.Assembles env resp) :
    "".intercalate ((responseOutput (claudeRespToOpenaiResponses env resp)).map outputItemText) =
        "".intercalate (m.blocks.map StreamedBlock.wholeText) ∧
      (responseOutput (claudeRespToOpenaiResponses env resp)).filterMap (outputItemCall env) =
        (resp.content.filterMap (respFunctionCall env)).filterMap (outputItemCall env) ∧
      responseUsage (claudeRespToOpenaiResponses env resp) =
        { inputTokens := wrapI32 m.inputTokens, outputTokens := wrapI32 m.outputTokens
          totalTokens := wrapI32 (wrapI32 m.inputTokens + wrapI32 m.outputTokens) } := by
  have houtput : responseOutput (claudeRespToOpenaiResponses env resp) =
      (if resp.content.filterMap respOutputText = [] then []
        else [Json.obj [("type", .str "message"), ("role", .str "assistant"),
          ("content", .arr (resp.content.filterMap respOutputText))]]) ++
        resp.content.filterMap (respFunctionCall env) := rfl
  have hin : wrapI32 m.inputTokens = resp.usage.inputTokens := by
    rw [← h.inputTokens, resp.usage.inputTokens_isI32.wrapI32]
  have hout : wrapI32 m.outputTokens = resp.usage.outputTokens := by
    rw [← h.outputTokens, resp.usage.outputTokens_isI32.wrapI32]
  refine ⟨?_, ?_, ?_⟩
  · rw [houtput, List.map_append, intercalate_empty_append, functionCall_text, String.append_empty,
      ← respOutputTexts_spell h.content]
    split_ifs with hnone
    · rw [hnone]
      rfl
    · simp [outputItemText, Json.getStr, Json.get, Json.asStr, Json.asArray, List.lookup_cons]
  · rw [houtput, List.filterMap_append]
    split_ifs
    · rfl
    · rw [filterMap_cons_eq_append]
      rfl
  · rw [hin, hout]
    have hi64 : ∀ {n : ℤ}, IsI32 n → -9223372036854775808 ≤ n ∧ n < 9223372036854775808 := by
      intro n hn
      unfold IsI32 at hn
      omega
    have hget : ∀ {n : ℤ}, IsI32 n → (Json.int n).asI64 = some n := fun hn => if_pos (hi64 hn)
    simp [responseUsage, claudeRespToOpenaiResponses, Json.getI64, Json.get, List.lookup_cons,
      hget resp.usage.inputTokens_isI32, hget resp.usage.outputTokens_isI32,
      hget (isI32_wrapI32 _)]

/-! ### When an index is too large, or the id is missing -/

/-- The indices of the announced ends are `i32`. -/
structure DonesIndexed (ctx : StreamContext) (t : List ResponsesEvent) : Prop where
  toolIndex : IsI32 ctx.toolIndex
  contentIndex : IsI32 ctx.contentIndex
  dones : ∀ i item, outputItemDone i item ∈ t → IsI32 i

/-- A helper that goes from `st` to `st'` keeps the indices of the ends in range. -/
def KeepsDones (st st' : Emit ResponsesEvent) : Prop :=
  ∀ t, DonesIndexed st.ctx (t ++ st.result) → DonesIndexed st'.ctx (t ++ st'.result)

theorem KeepsDones.refl : KeepsDones st st := fun _ h => h

theorem KeepsDones.trans {st st' st'' : Emit ResponsesEvent} (h : KeepsDones st st')
    (h' : KeepsDones st' st'') : KeepsDones st st'' := fun t ht => h' t (h t ht)

theorem keepsDones_push_of_range {e : ResponsesEvent}
    (he : IsI32 st.ctx.toolIndex → IsI32 st.ctx.contentIndex → ∀ i item, e = outputItemDone i item →
      IsI32 i) :
    KeepsDones st (st.push e) := by
  intro t h
  refine ⟨h.toolIndex, h.contentIndex, ?_⟩
  intro i item hmem
  rw [Emit.push_result, ← List.append_assoc, List.mem_append] at hmem
  rcases hmem with hold | hnew
  · exact h.dones i item hold
  · exact he h.toolIndex h.contentIndex i item (List.mem_singleton.1 hnew).symm

def isItemDone : ResponsesEvent → Bool
  | outputItemDone _ _ => true
  | _ => false

theorem keepsDones_push {e : ResponsesEvent} (he : isItemDone e = false) :
    KeepsDones st (st.push e) := by
  refine keepsDones_push_of_range st ?_
  rintro - - i item rfl
  cases he

theorem keepsDones_withCtx {f : StreamContext → StreamContext}
    (hf : IsI32 st.ctx.toolIndex → IsI32 st.ctx.contentIndex → IsI32 (f st.ctx).toolIndex ∧
      IsI32 (f st.ctx).contentIndex) :
    KeepsDones st (st.withCtx f) := by
  intro t h
  obtain ⟨htool, hcontent⟩ := hf h.toolIndex h.contentIndex
  exact ⟨htool, hcontent, h.dones⟩

theorem keepsDones_startTextItem (idx : ℤ) (st : Emit ResponsesEvent) :
    KeepsDones st (startTextItem idx st) :=
  ((keepsDones_withCtx st fun htool _ => ⟨htool, isI32_wrapI32 idx⟩).trans
    (keepsDones_push _ rfl)).trans (keepsDones_push _ rfl)

theorem keepsDones_ensureMessageId (env : Env) (st : Emit ResponsesEvent) :
    KeepsDones st (ensureMessageId env st) := by
  unfold ensureMessageId
  split_ifs
  · exact (keepsDones_withCtx st fun htool hcontent => ⟨htool, hcontent⟩).trans
      (keepsDones_push _ rfl)
  · exact KeepsDones.refl st

theorem keepsDones_ensureToolItem {idx : ℤ} (hidx : IsI32 idx) (st : Emit ResponsesEvent) :
    KeepsDones st (ensureToolItem idx st) := by
  unfold ensureToolItem
  split_ifs
  · exact KeepsDones.refl st
  · exact (keepsDones_push st rfl).trans
      (keepsDones_withCtx _ fun _ hcontent => ⟨hidx, hcontent⟩)

theorem keepsDones_pushToolDone {idx : ℤ} {st : Emit ResponsesEvent}
    (hidx : idx = st.ctx.toolIndex) : KeepsDones st (pushToolDone idx st) := by
  refine (keepsDones_push st rfl).trans (keepsDones_push_of_range _ ?_)
  intro htool _ i item heq
  obtain ⟨rfl, -⟩ := outputItemDone.inj heq
  rw [hidx]
  exact htool

theorem keepsDones_stopBlock (idx : ℤ) (st : Emit ResponsesEvent) :
    KeepsDones st (stopStreamBlock idx st) := by
  unfold stopStreamBlock
  split_ifs with htool hcontent
  · exact (keepsDones_pushToolDone htool.2).trans
      (keepsDones_withCtx _ fun htool hcontent => ⟨htool, hcontent⟩)
  · refine (((keepsDones_push st rfl).trans
      (keepsDones_push _ rfl)).trans (keepsDones_push_of_range _ ?_)).trans
      (keepsDones_withCtx _ fun htool hcontent => ⟨htool, hcontent⟩)
    intro _ hindex i item heq
    obtain ⟨rfl, -⟩ := outputItemDone.inj heq
    rw [hcontent.2]
    exact hindex
  · exact KeepsDones.refl st

theorem keepsDones_onMessageStop : KeepsDones st (onMessageStop st) := by
  refine KeepsDones.trans ?_ ((keepsDones_push _ rfl).trans
    (keepsDones_push _ rfl))
  split_ifs
  · exact keepsDones_pushToolDone rfl
  · exact KeepsDones.refl st

/-- **No event ends an item at an index that is no `i32`.** -/
theorem keepsDones_takeClaudeEvent (env : Env) (e : ClaudeStreamEvent) (st : Emit ResponsesEvent) :
    KeepsDones st (takeClaudeEvent env e st) := by
  cases e with
  | messageStart id inputTokens =>
    exact (keepsDones_withCtx st fun htool hcontent => ⟨htool, hcontent⟩).trans
      (keepsDones_push _ rfl)
  | textStart index text => exact keepsDones_startTextItem index st
  | thinkingStart index thinking => exact KeepsDones.refl st
  | toolUseStart index id name input =>
    refine KeepsDones.trans (keepsDones_withCtx st ?_) (keepsDones_push _ rfl)
    intro _ hcontent
    exact ⟨isI32_wrapI32 _, hcontent⟩
  | textDelta index text =>
    refine ((keepsDones_ensureMessageId env st).trans ?_).trans (keepsDones_push _ rfl)
    split_ifs
    · exact KeepsDones.refl _
    · exact keepsDones_startTextItem _ _
  | thinkingDelta index thinking => exact keepsDones_ensureMessageId env st
  | inputJsonDelta index partialJson =>
    exact (((keepsDones_ensureMessageId env st).trans
      (keepsDones_ensureToolItem (isI32_wrapI32 index) _)).trans
      (keepsDones_withCtx _ fun htool hcontent => ⟨htool, hcontent⟩)).trans
      (keepsDones_push _ rfl)
  | blockStop index => exact keepsDones_stopBlock index st
  | messageDelta stopReason outputTokens =>
    exact keepsDones_withCtx st fun htool hcontent => ⟨htool, hcontent⟩
  | messageStop => exact keepsDones_onMessageStop st
  | other eventType => exact KeepsDones.refl st

/-- The ends of a run are at `i32` indices. -/
theorem runOn_dones (env : Env) (model : String) (es : List ClaudeStreamEvent) :
    DonesIndexed (runOn (claudeResponsesStep env) (.forModel model) es).2
      (runOn (claudeResponsesStep env) (.forModel model) es).1 := by
  have hzero : IsI32 0 := by decide
  have hstart : DonesIndexed (.forModel model) [] := ⟨hzero, hzero, by simp⟩
  have hrun := runOn_invariant (R := DonesIndexed) (f := claudeResponsesStep env)
    (fun ctx t e h => keepsDones_takeClaudeEvent env e (Emit.start ctx) t (by simpa using h))
    es hstart
  simpa using hrun

theorem doneAt_eq_zero {t : List ResponsesEvent} (h : DonesIndexed ctx t) {i : ℤ} (hi : ¬ IsI32 i) :
    doneAt t i = 0 := by
  rw [doneAt, List.countP_eq_zero]
  intro e hmem hdone
  cases e with
  | outputItemDone j item =>
    have hj : j = i := by simpa [isDoneAt] using hdone
    exact hi (hj ▸ h.dones j item hmem)
  | _ => simp [isDoneAt] at hdone

theorem blockEvents_append (blocks' : List StreamedBlock) :
    blockEvents k (blocks ++ blocks') =
      blockEvents k blocks ++ blockEvents (k + blocks.length) blocks' := by
  induction blocks generalizing k with
  | nil => rfl
  | cons block blocks ih =>
    rw [List.cons_append, blockEvents, blockEvents, ih, List.append_assoc, List.length_cons,
      Nat.add_assoc, Nat.add_comm 1]

theorem exists_of_not_itemsIndexed {k : ℕ} {blocks : List StreamedBlock}
    (h : ¬ ItemsIndexed k blocks) :
    ∃ pre block post, blocks = pre ++ block :: post ∧ block.isItem ∧
      2147483648 ≤ k + pre.length := by
  induction blocks generalizing k with
  | nil => exact absurd trivial h
  | cons block blocks ih =>
    by_cases hblock : block.isItem → k < 2147483648
    · obtain ⟨pre, b, post, rfl, hitem, hle⟩ := ih fun hrest => h ⟨hblock, hrest⟩
      refine ⟨block :: pre, b, post, rfl, hitem, ?_⟩
      rw [List.length_cons]
      omega
    · rw [Classical.not_imp, not_lt] at hblock
      exact ⟨[], block, blocks, rfl, hblock.1, hblock.2⟩

theorem addedAt_start (env : Env) (ctx : StreamContext) {k : ℕ} (h : block.isItem) :
    1 ≤ addedAt (runOn (claudeResponsesStep env) ctx (block.events k)).1 k := by
  cases block with
  | text initial deltas =>
    rw [StreamedBlock.events, runOn_cons, addedAt_append]
    have hstart : addedAt (claudeResponsesStep env (.textStart k initial) ctx).1 k = 1 := by
      simp [claudeResponsesStep, takeClaudeEvent, startTextItem, isAddedAt, Emit.finish]
    omega
  | thinking initial deltas => cases h
  | toolUse id name initial fragments =>
    rw [StreamedBlock.events, runOn_cons, addedAt_append]
    have hstart : addedAt (claudeResponsesStep env (.toolUseStart k id name initial) ctx).1 k =
        1 := by
      simp [claudeResponsesStep, takeClaudeEvent, isAddedAt, Emit.finish]
    omega

theorem itemsIndexed_of_paired
    (h : ∀ i, doneAt (runOn (claudeResponsesStep env) (.forModel model) m.events).1 i =
      addedAt (runOn (claudeResponsesStep env) (.forModel model) m.events).1 i) :
    ItemsIndexed 0 m.blocks := by
  by_contra hnot
  obtain ⟨pre, block, post, hblocks, hitem, hle⟩ := exists_of_not_itemsIndexed hnot
  rw [Nat.zero_add] at hle
  have hnone : doneAt (runOn (claudeResponsesStep env) (.forModel model) m.events).1 pre.length =
      0 :=
    doneAt_eq_zero (runOn_dones env model m.events) (by unfold IsI32; omega)
  have hsome : 1 ≤ addedAt (runOn (claudeResponsesStep env) (.forModel model) m.events).1
      pre.length := by
    rw [StreamedMessage.events, hblocks, blockEvents_append, blockEvents, Nat.zero_add, runOn_cons,
      runOn_append, runOn_append, runOn_append]
    simp only [addedAt_append]
    have hstart := addedAt_start env
      (runOn (claudeResponsesStep env) (claudeResponsesStep env (.messageStart m.id m.inputTokens)
        (.forModel model)).2 (blockEvents 0 pre)).2 (k := pre.length) hitem
    omega
  have hsame := h pre.length
  omega

def ClaudeStreamEvent.isDelta : ClaudeStreamEvent → Bool
  | textDelta _ _ | thinkingDelta _ _ | inputJsonDelta _ _ => true
  | _ => false

theorem created_of_isDelta (env : Env) (hid : ctx.messageId = "") (h : e.isDelta) :
    1 ≤ (claudeResponsesStep env e ctx).1.countP isCreated := by
  cases e with
  | textDelta index text =>
    by_cases hopen : ctx.contentBlockStarted = true <;>
      simp [claudeResponsesStep, takeClaudeEvent, ensureMessageId, hid, hopen, startTextItem,
        isCreated, Emit.finish]
  | thinkingDelta index thinking =>
    simp [claudeResponsesStep, takeClaudeEvent, ensureMessageId, hid, isCreated, Emit.finish]
  | inputJsonDelta index partialJson =>
    by_cases hopen : ctx.toolBlockStarted = true <;>
      simp [claudeResponsesStep, takeClaudeEvent, ensureMessageId, hid, ensureToolItem, hopen,
        isCreated, Emit.finish]
  | _ => cases h

theorem claudeResponsesStep_messageId (hdelta : e.isDelta = false)
    (hstart : ∀ id n, e ≠ .messageStart id n) :
    (claudeResponsesStep env e ctx).2.messageId = ctx.messageId := by
  cases e with
  | messageStart id n => exact absurd rfl (hstart id n)
  | textStart index text => rfl
  | thinkingStart index thinking => rfl
  | toolUseStart index id name input => rfl
  | blockStop index =>
    simp only [claudeResponsesStep, takeClaudeEvent, stopStreamBlock]
    split_ifs <;> rfl
  | messageDelta stopReason outputTokens => rfl
  | messageStop =>
    simp only [claudeResponsesStep, takeClaudeEvent, onMessageStop]
    split_ifs <;> rfl
  | other eventType => rfl
  | _ => cases hdelta

theorem created_of_delta (env : Env) {es : List ClaudeStreamEvent} (hid : ctx.messageId = "")
    (hstart : ∀ e ∈ es, ∀ id n, e ≠ .messageStart id n) (h : ∃ e ∈ es, e.isDelta) :
    1 ≤ (runOn (claudeResponsesStep env) ctx es).1.countP isCreated := by
  induction es generalizing ctx with
  | nil =>
    obtain ⟨e, hmem, -⟩ := h
    cases hmem
  | cons e es ih =>
    rw [runOn_cons, List.countP_append]
    by_cases he : e.isDelta = true
    · have hone := created_of_isDelta env hid he
      omega
    · rw [Bool.not_eq_true] at he
      have hid' : (claudeResponsesStep env e ctx).2.messageId = "" := by
        rw [claudeResponsesStep_messageId he (hstart e List.mem_cons_self), hid]
      obtain ⟨e', hmem, he'⟩ := h
      have hmem' : e' ∈ es := by
        rcases List.mem_cons.1 hmem with rfl | hmem
        · rw [he] at he'
          cases he'
        · exact hmem
      have hone := ih hid' (fun e h => hstart e (List.mem_cons_of_mem _ h)) ⟨e', hmem', he'⟩
      omega

theorem blockEvents_deltas :
    (∀ e ∈ blockEvents k blocks, ∀ id n, e ≠ .messageStart id n) ∧
      ((∃ block ∈ blocks, block.deltas ≠ []) → ∃ e ∈ blockEvents k blocks, e.isDelta) := by
  induction blocks generalizing k with
  | nil => simp [blockEvents]
  | cons block blocks ih =>
    obtain ⟨hstart, hdelta⟩ := ih (k + 1)
    refine ⟨?_, ?_⟩
    · intro e hmem id n
      rcases List.mem_append.1 hmem with hmem | hmem
      · rintro rfl
        cases block <;> simp [StreamedBlock.events] at hmem
      · exact hstart e hmem id n
    · rintro ⟨b, hb, hne⟩
      rcases List.mem_cons.1 hb with rfl | hb
      · obtain ⟨delta, hmem⟩ := List.exists_mem_of_ne_nil _ hne
        cases b with
        | text initial deltas =>
          have hmem' : delta ∈ deltas := hmem
          exact ⟨.textDelta k delta, by simp [blockEvents, StreamedBlock.events, hmem'], rfl⟩
        | thinking initial deltas =>
          have hmem' : delta ∈ deltas := hmem
          exact ⟨.thinkingDelta k delta, by simp [blockEvents, StreamedBlock.events, hmem'], rfl⟩
        | toolUse id name initial fragments =>
          have hmem' : delta ∈ fragments := hmem
          exact ⟨.inputJsonDelta k delta, by simp [blockEvents, StreamedBlock.events, hmem'], rfl⟩
      · obtain ⟨e, hmem, he⟩ := hdelta ⟨b, hb, hne⟩
        exact ⟨e, List.mem_append_right _ hmem, he⟩

theorem hasId_of_created
    (h : (runOn (claudeResponsesStep env) (.forModel model) m.events).1.countP isCreated = 1) :
    m.id ≠ "" ∨ ∀ block ∈ m.blocks, block.deltas = [] := by
  by_contra hnot
  rw [not_or, not_not] at hnot
  obtain ⟨hid, hdeltas⟩ := hnot
  have hdelta' : ∃ block ∈ m.blocks, block.deltas ≠ [] := by
    by_contra hnone
    exact hdeltas fun block hmem => not_not.1 fun hne => hnone ⟨block, hmem, hne⟩
  have hstart : (claudeResponsesStep env (.messageStart m.id m.inputTokens)
      (.forModel model)).1.countP
      isCreated = 1 := rfl
  have hmessage : (claudeResponsesStep env (.messageStart m.id m.inputTokens)
      (.forModel model)).2.messageId = "" := hid
  obtain ⟨hnoStart, hdelta⟩ := blockEvents_deltas 0 m.blocks
  have hmore := created_of_delta env hmessage hnoStart (hdelta hdelta')
  rw [StreamedMessage.events, runOn_cons, runOn_append, List.countP_append,
    List.countP_append, hstart] at h
  omega

/-! ### Agreement -/

/-- The messages that both ways treat alike: the message has an id or no delta, every item has an
`i32` index, text blocks start empty, and calls are complete. -/
structure Plain (m : StreamedMessage) : Prop where
  hasId : m.id ≠ "" ∨ ∀ block ∈ m.blocks, block.deltas = []
  indexed : ItemsIndexed 0 m.blocks
  startsEmpty : ∀ block ∈ m.blocks, block.StartsEmpty
  calls : ∀ block ∈ m.blocks, block.CallComplete

theorem messageEvents_read (env : Env) (m : StreamedMessage) :
    finishedText (messageEvents m) = "".intercalate (m.blocks.map StreamedBlock.deltaText) ∧
      finishedCalls env (messageEvents m) = finishedCalls env (itemEvents m.id 0 m.blocks) ∧
      completions (messageEvents m) =
        [{ inputTokens := wrapI32 m.inputTokens, outputTokens := wrapI32 m.outputTokens
           totalTokens := wrapI32 (wrapI32 m.inputTokens + wrapI32 m.outputTokens) }] ∧
      (∀ i, addedAt (messageEvents m) i ≤ 1 ∧
        doneAt (messageEvents m) i = addedAt (messageEvents m) i) ∧
      (messageEvents m).countP isCreated = 1 := by
  obtain ⟨hdone, htext⟩ := textDeltas_itemEvents m.id 0 m.blocks
  obtain ⟨hcreated, hcompletions⟩ := itemEvents_not_created m.id 0 m.blocks
  refine ⟨?_, ?_, ?_, ?_, ?_⟩
  · have hdeltas : (messageEvents m).filterMap textDeltaOf =
        (itemEvents m.id 0 m.blocks).filterMap textDeltaOf := by
      simp [messageEvents, filterMap_cons_eq_append, textDeltaOf]
    rw [finishedText, hdeltas, List.filter_eq_self.2, htext]
    intro delta hmem
    have hany := hdone delta hmem
    simp [messageEvents, hany]
  · simp [messageEvents, finishedCalls, filterMap_cons_eq_append, finishedCallOf]
  · simp [messageEvents, completions_append, hcompletions, completedUsage]
  · intro i
    obtain ⟨hle, heq⟩ := addedAt_itemEvents m.id 0 m.blocks i
    have hadded : addedAt (messageEvents m) i = addedAt (itemEvents m.id 0 m.blocks) i := by
      simp [messageEvents, isAddedAt]
    have hdoneAt : doneAt (messageEvents m) i = doneAt (itemEvents m.id 0 m.blocks) i := by
      simp [messageEvents, isDoneAt]
    rw [hadded, hdoneAt]
    refine ⟨hle.trans ?_, heq⟩
    split_ifs <;> omega
  · simp [messageEvents, List.countP_cons, hcreated, isCreated]

/-- **Streaming and not streaming agree exactly on plain messages.**  Printing a value and reading
it back gives the value, and the empty text is no JSON. -/
theorem claudeToResponses_agree_iff (env : Env) (model : String) (m : StreamedMessage)
    (blocks : List Bytes) (resp : ClaudeResponse) (hstream : m.StreamedAs env blocks)
    (hresp : m.Assembles env resp) (hempty : ∀ v, env.fromStr "" ≠ .ok v)
    (hjson : ∀ c ∈ resp.content, ∀ input, c.get "input" = some input →
      env.fromStr (env.toStr input) = .ok input) :
    AnnouncesResponse env (feed (claudeStreamToOpenaiResponses env) (.forModel model) blocks).out
        (claudeRespToOpenaiResponses env resp) ↔
      Plain m := by
  obtain ⟨htext, hcalls, husage⟩ := responseOutput_claudeResp hresp
  obtain ⟨htext', hcalls', husage', hitems', hcreated'⟩ := messageEvents_read env m
  constructor
  · intro h
    have hitems := h.items
    have hcreated := h.created
    rw [feed_eq_runOn_events hstream] at hitems hcreated
    have hid := hasId_of_created hcreated
    have hindexed := itemsIndexed_of_paired fun i => (hitems i).2
    rw [feed_claudeStream hstream hid hindexed] at h
    refine ⟨hid, hindexed, ?_, ?_⟩
    · have hsame := h.text
      rw [htext, htext'] at hsame
      exact wholeText_eq_iff.1 hsame.symm
    · have hsame := h.calls
      rw [hcalls, hcalls'] at hsame
      exact (finishedCalls_eq_iff hempty hjson hresp.content).1 hsame
  · rintro ⟨hid, hindexed, hstarts, hcomplete⟩
    rw [feed_claudeStream hstream hid hindexed]
    refine ⟨?_, ?_, ?_, hitems', hcreated'⟩
    · rw [htext, htext', wholeText_eq_iff.2 hstarts]
    · rw [hcalls, hcalls']
      exact (finishedCalls_eq_iff hempty hjson hresp.content).2 hcomplete
    · rw [husage, husage']

/-- A message with a thought, a text and a complete call. -/
def callMessage : StreamedMessage where
  id := "msg_1"
  inputTokens := 3
  blocks := [.thinking "" ["Hm"], .text "" ["Hel", "lo"],
    .toolUse "toolu_1" "Bash" (.obj []) ["\x7b\"n\":", "7\x7d"]]
  stopReason := "tool_use"
  outputTokens := 2

/-- The input that the fragments of `callMessage` spell. -/
def callInput : Json := .obj [("n", .int 7)]

theorem claudeToResponses_agree_call :
    AnnouncesResponse (Env.ofValues (callInput :: callMessage.values))
      (feed (claudeStreamToOpenaiResponses (Env.ofValues (callInput :: callMessage.values)))
        (.forModel "claude") (callMessage.events.map ClaudeStreamEvent.render)).out
      (claudeRespToOpenaiResponses (Env.ofValues (callInput :: callMessage.values))
        (callMessage.whole [.obj [("type", .str "thinking"), ("thinking", .str "Hm")],
          .obj [("type", .str "text"), ("text", .str "Hello")],
          .obj [("type", .str "tool_use"), ("id", .str "toolu_1"), ("name", .str "Bash"),
            ("input", callInput)]] (by decide))) := by
  have hnodup : ((callInput :: callMessage.values).map Json.compact).Nodup := by decide +kernel
  have hinput : (Env.ofValues (callInput :: callMessage.values)).fromStr callInput.compact =
      .ok callInput := fromStr_ofValues hnodup List.mem_cons_self
  have hspelt : "".intercalate ["\x7b\"n\":", "7\x7d"] = callInput.compact := by decide
  refine (claudeToResponses_agree_iff _ _ callMessage _ _
    (streamedAs_render hnodup (fun e hmem => List.mem_cons_of_mem _ (List.mem_map_of_mem hmem))
      (by decide +kernel))
    (StreamedMessage.assembles_whole _ (.cons ⟨rfl, rfl⟩ (.cons ⟨rfl, rfl⟩
      (.cons ⟨rfl, rfl, rfl, callInput, rfl, ?_⟩ .nil)))) ?_ ?_).2 ?_
  · rw [hspelt, if_neg (by decide)]
    exact hinput
  · intro v hv
    obtain ⟨hmem, hcompact⟩ := compact_of_fromStr_ofValues hv
    have hne : ∀ v ∈ callInput :: callMessage.values, v.compact ≠ "" := by decide +kernel
    exact hne v hmem hcompact
  · intro c hmem input hget
    change c ∈ [_, _, _] at hmem
    simp only [List.mem_cons, List.not_mem_nil, or_false] at hmem
    rcases hmem with rfl | rfl | rfl
    · cases hget
    · cases hget
    · obtain rfl : callInput = input := Option.some.inj hget
      exact hinput
  · refine ⟨Or.inl (by decide), ?_, ?_, ?_⟩
    · simp [callMessage, ItemsIndexed]
    · simp [callMessage, StreamedBlock.StartsEmpty]
    · simp [callMessage, StreamedBlock.CallComplete]

/-- A tool called with no fragment is announced with no arguments, and converted with `{}`. -/
theorem not_claudeToResponses_agree_toolUse :
    toolMessage.StreamedAs (Env.ofValues (.obj [] :: toolMessage.values))
        (toolMessage.events.map ClaudeStreamEvent.render) ∧
      toolMessage.Assembles (Env.ofValues (.obj [] :: toolMessage.values))
        (toolMessage.whole [.obj [("type", .str "tool_use"), ("id", .str "toolu_1"),
          ("name", .str "Bash"), ("input", .obj [])]] (by decide)) ∧
      (Env.ofValues (.obj [] :: toolMessage.values)).fromStr "\x7b\x7d" = .ok (.obj []) ∧
      ¬ AnnouncesResponse (Env.ofValues (.obj [] :: toolMessage.values))
        (feed (claudeStreamToOpenaiResponses (Env.ofValues (.obj [] :: toolMessage.values)))
          (.forModel "claude") (toolMessage.events.map ClaudeStreamEvent.render)).out
        (claudeRespToOpenaiResponses (Env.ofValues (.obj [] :: toolMessage.values))
          (toolMessage.whole [.obj [("type", .str "tool_use"), ("id", .str "toolu_1"),
            ("name", .str "Bash"), ("input", .obj [])]] (by decide))) := by
  have hnodup : ((Json.obj [] :: toolMessage.values).map Json.compact).Nodup := by decide +kernel
  have hstream : toolMessage.StreamedAs (Env.ofValues (.obj [] :: toolMessage.values))
      (toolMessage.events.map ClaudeStreamEvent.render) :=
    streamedAs_render hnodup (fun e hmem => List.mem_cons_of_mem _ (List.mem_map_of_mem hmem))
      (by decide +kernel)
  refine ⟨hstream, StreamedMessage.assembles_whole _ (.cons ⟨rfl, rfl, rfl, _, rfl, rfl⟩ .nil),
    fromStr_ofValues hnodup List.mem_cons_self, ?_⟩
  intro h
  have hcalls := h.calls
  rw [feed_claudeStream hstream (Or.inl (by decide)) (by simp [toolMessage, ItemsIndexed])]
    at hcalls
  have harguments := congrArg (List.map fun call : String × String × Except String Json =>
    call.2.2.isOk) hcalls
  exact absurd harguments (by decide +kernel)

end AiOpenRouter
