/-
Function calls through the Responses → Claude converter.

`ToolRouting` is what a client needs: every item has a block of its own, and
every fragment of arguments reaches the block that was started for its item.

* `exists_toolRouting` — it holds of every well-formed stream whose items are
  found (`FindsItem`) and whose index counter does not come round;
* `not_toolRouting_twoCallsByOutput` — it fails when a delta names the first of
  two calls by its output index.
-/
import AiOpenRouter.ResponsesToClaudeToolSteps

open Trace

namespace AiOpenRouter

/-! ### Indices taken -/

def takesIndex (env : Env) (ctx : StreamContext) (event : Bytes) : Bool :=
  match readResponsesInput env event with
  | .event name data => (blockRequest ctx name data).any fun req => req.target.isNone
  | _ => false

def countTaken (env : Env) (event : Bytes) (ctx : StreamContext) (taken : ℕ) : ℕ :=
  taken + (takesIndex env ctx event).toNat

def indicesTaken (env : Env) (events : List Bytes) : ℕ :=
  (feed (withGhost (openaiResponsesStreamToClaude env) (countTaken env))
    (StreamContext.new, 0) events).state.2

/-- A new index is new: the `i32` counter has not come round. -/
def IndexIsNew (env : Env) (history : List Bytes) (event : Bytes) : Prop :=
  takesIndex env (responsesToClaudeRun env history).state event = true →
    indicesTaken env history < 4294967296

instance (env : Env) (history : List Bytes) (event : Bytes) :
    Decidable (IndexIsNew env history event) := by
  unfold IndexIsNew
  infer_instance

/-! ### Routing -/

/-- One upstream block, without the `Result`: the converter never fails. -/
def responsesStep (env : Env) (event : Bytes) (ctx : StreamContext) : Emit ClaudeEvent :=
  match readResponsesInput env event with
  | .skip => Emit.start ctx
  | .done => finalizeOpenaiResponsesStreamToClaudeDone (Emit.start ctx)
  | .event name data => convertResponsesEvent env name data (Emit.start ctx)

variable (env : Env)

theorem openaiResponsesStreamToClaude_eq (event : Bytes) (ctx : StreamContext) :
    openaiResponsesStreamToClaude env event ctx = .ok (responsesStep env event ctx).finish := by
  rw [openaiResponsesStreamToClaude, responsesStep]
  rcases readResponsesInput env event with _ | _ | ⟨name, data⟩ <;> rfl

def outputAfter (env : Env) (pre : List Bytes) (event : Bytes) : List ClaudeEvent :=
  (responsesStep env event (responsesToClaudeRun env pre).state).result

/-- Every item has a block of its own, started when the item is added, and every
fragment of arguments goes to the block of its item. -/
structure ToolRouting (env : Env) (events : List Bytes) (block : String → ℤ) : Prop where
  /-- adding an item starts its block -/
  started : ∀ pre event post item, events = pre ++ event :: post →
    toolEvent env event = .added item →
      ∃ id name, .contentBlockStart (block item.itemId) (.toolUse id name none)
        ∈ outputAfter env pre event
  /-- no other block is started at its index -/
  once : ∀ item ∈ toolItems (events.map (toolEvent env)),
    startsAt (responsesToClaudeRun env events).out (block item.itemId) = 1
  /-- a fragment is sent to the block of its item -/
  routed : ∀ pre event post ref fragment item, events = pre ++ event :: post →
    toolEvent env event = .delta ref fragment →
    item ∈ toolItems (pre.map (toolEvent env)) → ref.names item = true →
      .contentBlockDelta (block item.itemId) (.inputJsonDelta fragment)
        ∈ outputAfter env pre event
  /-- the block receives the concatenation of the item's own deltas -/
  assembled : ∀ item ∈ toolItems (events.map (toolEvent env)),
    partialJson (responsesToClaudeRun env events).out (block item.itemId)
      = ownFragments (events.map (toolEvent env)) item

/-! ### Runs -/

variable {history : List ToolEvent} {t : List ClaudeEvent} {n : ℕ}

/-- The step lemma: one upstream block of a well-formed stream whose items are found. -/
theorem toolStep_responsesStep (event : Bytes) {ctx : StreamContext}
    (h : ToolsTracked history ctx t n) (hstream : ToolStream history)
    (hallow : ToolStreamAllows history (toolEvent env event))
    (hfinds : FindsItem history (toolEvent env event))
    (hn : takesIndex env ctx event = true → n < 4294967296) :
    ToolStep history (toolEvent env event) (Emit.start ctx) (responsesStep env event ctx) t
      (n + (takesIndex env ctx event).toNat) := by
  have hstart : ToolsTracked history (Emit.start ctx : Emit ClaudeEvent).ctx
      (t ++ (Emit.start ctx : Emit ClaudeEvent).result) n := by simpa using h
  unfold toolEvent at hallow hfinds ⊢
  unfold takesIndex at hn ⊢
  unfold responsesStep
  rcases hread : readResponsesInput env event with _ | _ | ⟨name, data⟩
  case skip => exact toolStep_of_leavesTools hstart (LeavesTools.refl _) (by simp)
  case done => exact toolStep_of_terminal hstart (quietly_finalizeDone _)
  case event =>
    rw [hread] at hallow hfinds hn
    exact toolStep_convertResponsesEvent env name data hstart hstream hallow hfinds hn

theorem responsesToClaudeRun_snoc (pre : List Bytes) (event : Bytes) :
    responsesToClaudeRun env (pre ++ [event])
      = ⟨(responsesToClaudeRun env pre).out ++ outputAfter env pre event,
         (responsesStep env event (responsesToClaudeRun env pre).state).ctx, none⟩ := by
  have hok : (responsesToClaudeRun env pre).error = none :=
    feed_error_eq_none (fun event _ ctx => ⟨_, openaiResponsesStreamToClaude_eq env event ctx⟩) _
  exact feed_snoc hok (openaiResponsesStreamToClaude_eq env event _)

theorem indicesTaken_snoc (pre : List Bytes) (event : Bytes) :
    indicesTaken env (pre ++ [event])
      = indicesTaken env pre +
        (takesIndex env (responsesToClaudeRun env pre).state event).toNat := by
  have hstate : (feed (withGhost (openaiResponsesStreamToClaude env) (countTaken env))
      (StreamContext.new, 0) pre).state.1
        = (feed (openaiResponsesStreamToClaude env) StreamContext.new pre).state :=
    (feed_withGhost pre StreamContext.new 0).2.1
  have hok : ∀ event s, ∃ r, withGhost (openaiResponsesStreamToClaude env) (countTaken env) event s
      = .ok r := fun event s => ⟨_, by rw [withGhost, openaiResponsesStreamToClaude_eq]⟩
  rw [indicesTaken, feed_append (feed_error_eq_none (fun i _ => hok i) _)]
  obtain ⟨⟨o, s'⟩, hr⟩ := hok event
    (feed (withGhost (openaiResponsesStreamToClaude env) (countTaken env))
      (StreamContext.new, 0) pre).state
  rw [feed_cons_ok hr, feed_nil]
  have hs' := (withGhost_eq_ok hr).2
  simp only [hs', countTaken, hstate, indicesTaken]
  rfl

def blockOf (ctx : StreamContext) (itemId : String) : ℤ := (toolIndex ctx itemId).getD 0

theorem toolsTracked_run (events : List Bytes) (hstream : ToolStream (events.map (toolEvent env)))
    (hfinds : Permits FindsItem (events.map (toolEvent env)))
    (hnew : Permits (IndexIsNew env) events) :
    ToolsTracked (events.map (toolEvent env)) (responsesToClaudeRun env events).state
      (responsesToClaudeRun env events).out (indicesTaken env events) ∧
    ToolRouting env events (blockOf (responsesToClaudeRun env events).state) := by
  induction events using List.reverseRecOn with
  | nil =>
    refine ⟨toolsTracked_new, ⟨?_, ?_, ?_, ?_⟩⟩
    · intro pre event post item h
      exact absurd h (by simp)
    · intro item hitem
      simp [toolItems] at hitem
    · intro pre event post ref fragment item h
      exact absurd h (by simp)
    · intro item hitem
      simp [toolItems] at hitem
  | append_singleton pre event ih =>
    rw [List.map_append, List.map_singleton] at hstream hfinds
    obtain ⟨hstream, hallow⟩ := permits_snoc.1 hstream
    obtain ⟨hfinds, hfind⟩ := permits_snoc.1 hfinds
    obtain ⟨hnew, hnew'⟩ := permits_snoc.1 hnew
    obtain ⟨htracked, hrouting⟩ := ih hstream hfinds hnew
    have hstep := toolStep_responsesStep env event htracked hstream hallow hfind hnew'
    have htracked' : ToolsTracked ((pre ++ [event]).map (toolEvent env))
        (responsesToClaudeRun env (pre ++ [event])).state
        (responsesToClaudeRun env (pre ++ [event])).out (indicesTaken env (pre ++ [event])) := by
      rw [List.map_append, List.map_singleton, responsesToClaudeRun_snoc, indicesTaken_snoc]
      exact hstep.tracked
    -- blocks of earlier items are the blocks they had
    have hkeep : ∀ item ∈ toolItems (pre.map (toolEvent env)),
        blockOf (responsesToClaudeRun env (pre ++ [event])).state item.itemId
          = blockOf (responsesToClaudeRun env pre).state item.itemId := by
      intro item hitem
      obtain ⟨i, hi, -⟩ := htracked.item item hitem
      rw [responsesToClaudeRun_snoc, blockOf, blockOf, hstep.keeps _ i hi, hi]
    refine ⟨htracked', ⟨?started, ?once, ?routed, ?assembled⟩⟩
    case started =>
      intro pre' event' post item heq hevent
      rcases eq_or_of_snoc_eq heq with ⟨rfl, rfl, -⟩ | ⟨post', rfl⟩
      · obtain ⟨i, id, name, hi, hmem⟩ := hstep.starts item hevent
        refine ⟨id, name, ?_⟩
        rw [responsesToClaudeRun_snoc, blockOf, hi]
        exact hmem
      · have hitem : item ∈ toolItems ((pre' ++ event' :: post').map (toolEvent env)) := by
          rw [List.map_append, List.map_cons, hevent, toolItems]
          simp
        rw [hkeep item hitem]
        exact hrouting.started pre' event' post' item rfl hevent
    case once =>
      intro item hitem
      obtain ⟨i, hi, hstarts, -⟩ := htracked'.item item hitem
      rw [blockOf, hi]
      exact hstarts
    case routed =>
      intro pre' event' post ref fragment item heq hevent hitem hnames
      rcases eq_or_of_snoc_eq heq with ⟨rfl, rfl, -⟩ | ⟨post', rfl⟩
      · obtain ⟨i, hi, hmem⟩ := hstep.sends ref fragment item hevent hitem hnames
        rw [Emit.start_ctx] at hi
        rw [hkeep item hitem, blockOf, hi]
        exact hmem
      · have hitem' : item ∈ toolItems ((pre' ++ event' :: post').map (toolEvent env)) := by
          rw [List.map_append, toolItems, List.filterMap_append]
          exact List.mem_append_left _ hitem
        rw [hkeep item hitem']
        exact hrouting.routed pre' event' post' ref fragment item rfl hevent hitem hnames
    case assembled =>
      intro item hitem
      obtain ⟨i, hi, -, hjson, -⟩ := htracked'.item item hitem
      rw [blockOf, hi]
      exact hjson

/-- **Routing of tool calls**: if every item named by an output index is found, and the
index counter does not come round, every fragment goes to the block of its item. -/
theorem exists_toolRouting (env : Env) (events : List Bytes)
    (hstream : ToolStream (events.map (toolEvent env)))
    (hfinds : Permits FindsItem (events.map (toolEvent env)))
    (hnew : Permits (IndexIsNew env) events) :
    ∃ block, ToolRouting env events block :=
  ⟨_, (toolsTracked_run env events hstream hfinds hnew).2⟩

/-! ### Concrete streams -/

/-- The data of a `response.output_item.added` for a function call. -/
def addedData (itemId callId : String) (outputIndex : ℤ) : Json :=
  .obj [("output_index", .int outputIndex),
    ("item", .obj [("type", .str "function_call"), ("id", .str itemId),
      ("call_id", .str callId), ("name", .str "lookup")])]

def deltaById (itemId fragment : String) : Json :=
  .obj [("item_id", .str itemId), ("delta", .str fragment)]

def deltaByOutput (outputIndex : ℤ) (fragment : String) : Json :=
  .obj [("output_index", .int outputIndex), ("delta", .str fragment)]

/-- An `output_item.added` block. -/
def addedBlock (itemId callId : String) (outputIndex : ℤ) : Bytes :=
  eventBlock "response.output_item.added" (addedData itemId callId outputIndex).compact

def deltaBlock (data : Json) : Bytes :=
  eventBlock "response.function_call_arguments.delta" data.compact

/-- The values of the streams below. -/
def twoCallsEnv : Env :=
  Env.ofValues [addedData "fc_a" "call_a" 0, addedData "fc_b" "call_b" 1, deltaById "fc_a" "x",
    deltaById "fc_b" "z", deltaByOutput 0 "y"]

/-- Two calls, their deltas interleaved; the delta with an output index follows one of
its own item. -/
def twoCallsFound : List Bytes :=
  [addedBlock "fc_a" "call_a" 0, addedBlock "fc_b" "call_b" 1, deltaBlock (deltaById "fc_a" "x"),
    deltaBlock (deltaByOutput 0 "y"), deltaBlock (deltaById "fc_b" "z")]

theorem exists_toolRouting_twoCallsFound : ∃ block, ToolRouting twoCallsEnv twoCallsFound block :=
  exists_toolRouting twoCallsEnv twoCallsFound (by decide +kernel) (by decide +kernel)
    (by decide +kernel)

/-- Two calls, then a delta for the first one by its output index: it goes to the second. -/
def twoCallsByOutput : List Bytes :=
  [addedBlock "fc_a" "call_a" 0, addedBlock "fc_b" "call_b" 1, deltaBlock (deltaByOutput 0 "y")]

theorem not_toolRouting_twoCallsByOutput :
    ToolStream (twoCallsByOutput.map (toolEvent twoCallsEnv)) ∧
      ¬ ∃ block, ToolRouting twoCallsEnv twoCallsByOutput block := by
  refine ⟨by decide +kernel, ?_⟩
  rintro ⟨block, hrouting⟩
  obtain ⟨id, name, hstart⟩ := hrouting.started [] _ _ ⟨"fc_a", 0⟩ rfl (by decide +kernel)
  have hdelta := hrouting.routed [addedBlock "fc_a" "call_a" 0, addedBlock "fc_b" "call_b" 1] _ []
    (.byOutput 0) "y" ⟨"fc_a", 0⟩ rfl (by decide +kernel) (by decide +kernel) rfl
  have hfirst : ∀ e ∈ outputAfter twoCallsEnv [] (addedBlock "fc_a" "call_a" 0),
      e.blockIndex = none ∨ e.blockIndex = some 0 := by decide +kernel
  have hsecond : ∀ e ∈ outputAfter twoCallsEnv
      [addedBlock "fc_a" "call_a" 0, addedBlock "fc_b" "call_b" 1]
      (deltaBlock (deltaByOutput 0 "y")), e.blockIndex = some 1 := by decide +kernel
  have h0 : some (block "fc_a") = some 0 := (hfirst _ hstart).resolve_left (by
    exact Option.some_ne_none _)
  have h1 : some (block "fc_a") = some 1 := hsecond _ hdelta
  exact absurd (h0.symm.trans h1) (by decide)

end AiOpenRouter
