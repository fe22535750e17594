/-
The Responses stream events the converters emit, and their bytes.

The source prints each event with `json!` behind `data: `; here an event is a
value of `ResponsesEvent`, and `ResponsesEvent.data` gives back the `json!`
object.  The last section counts what a list of events says about an output
index: how often an item is added there, and how often it is done.
-/
import AiOpenRouter.StreamContext
import AiOpenRouter.Sse
import AiOpenRouter.Trace

namespace AiOpenRouter

/-- `item` of `response.output_item.added` and `response.output_item.done`. -/
inductive OutputItem where
  | message (id : String)
  | functionCall (id name arguments : String)
  deriving DecidableEq

/-- `usage` of `response.completed`. -/
structure ResponsesUsage where
  inputTokens : ℤ
  outputTokens : ℤ
  totalTokens : ℤ
  deriving DecidableEq

/-- One server-sent event of the Responses protocol; `doneMarker` is `data: [DONE]`. -/
inductive ResponsesEvent where
  | created (id : String)
  | outputItemAdded (outputIndex : ℤ) (item : OutputItem)
  | contentPartAdded (outputIndex : ℤ)
  | outputTextDelta (outputIndex : ℤ) (delta : String)
  | outputTextDone (outputIndex : ℤ)
  | contentPartDone (outputIndex : ℤ)
  | functionCallArgumentsDelta (outputIndex : ℤ) (delta : String)
  | functionCallArgumentsDone (outputIndex : ℤ) (arguments : String)
  | outputItemDone (outputIndex : ℤ) (item : OutputItem)
  | completed (id : String) (usage : ResponsesUsage)
  | doneMarker
  deriving DecidableEq

/-! ### Rendering -/

def OutputItem.addedJson : OutputItem → Json
  | .message id =>
    .obj [("type", .str "message"), ("id", .str id), ("role", .str "assistant"),
      ("status", .str "in_progress"), ("content", .arr [])]
  | .functionCall id name arguments =>
    .obj [("type", .str "function_call"), ("id", .str id), ("call_id", .str id),
      ("name", .str name), ("arguments", .str arguments), ("status", .str "in_progress")]

def OutputItem.doneJson : OutputItem → Json
  | .message id =>
    .obj [("type", .str "message"), ("id", .str id), ("role", .str "assistant"),
      ("status", .str "completed")]
  | .functionCall id name arguments =>
    .obj [("type", .str "function_call"), ("id", .str id), ("call_id", .str id),
      ("name", .str name), ("arguments", .str arguments), ("status", .str "completed")]

/-- `usage` of `response.completed`. -/
def ResponsesUsage.toJson (usage : ResponsesUsage) : Json :=
  .obj [("input_tokens", .int usage.inputTokens), ("output_tokens", .int usage.outputTokens),
    ("total_tokens", .int usage.totalTokens)]

namespace ResponsesEvent

/-- The `json!` object of an event; the done marker has none. -/
def data : ResponsesEvent → Option Json
  | created id =>
    some (.obj [("type", .str "response.created"),
      ("response", .obj [("id", .str id), ("object", .str "response"),
        ("status", .str "in_progress")])])
  | outputItemAdded outputIndex item =>
    some (.obj [("type", .str "response.output_item.added"), ("output_index", .int outputIndex),
      ("item", item.addedJson)])
  | contentPartAdded outputIndex =>
    some (.obj [("type", .str "response.content_part.added"), ("output_index", .int outputIndex),
      ("content_index", .int 0),
      ("part", .obj [("type", .str "output_text"), ("text", .str "")])])
  | outputTextDelta outputIndex delta =>
    some (.obj [("type", .str "response.output_text.delta"), ("output_index", .int outputIndex),
      ("content_index", .int 0), ("delta", .str delta)])
  | outputTextDone outputIndex =>
    some (.obj [("type", .str "response.output_text.done"), ("output_index", .int outputIndex),
      ("content_index", .int 0)])
  | contentPartDone outputIndex =>
    some (.obj [("type", .str "response.content_part.done"), ("output_index", .int outputIndex),
      ("content_index", .int 0), ("part", .obj [("type", .str "output_text")])])
  | functionCallArgumentsDelta outputIndex delta =>
    some (.obj [("type", .str "response.function_call_arguments.delta"),
      ("output_index", .int outputIndex), ("delta", .str delta)])
  | functionCallArgumentsDone outputIndex arguments =>
    some (.obj [("type", .str "response.function_call_arguments.done"),
      ("output_index", .int outputIndex), ("arguments", .str arguments)])
  | outputItemDone outputIndex item =>
    some (.obj [("type", .str "response.output_item.done"), ("output_index", .int outputIndex),
      ("item", item.doneJson)])
  | completed id usage =>
    some (.obj [("type", .str "response.completed"),
      ("response", .obj [("id", .str id), ("object", .str "response"),
        ("status", .str "completed"), ("usage", usage.toJson)])])
  | doneMarker => none

def render (env : Env) (e : ResponsesEvent) : Bytes :=
  match e.data with
  | some data => dataBlock (env.toStr data)
  | none => dataBlock "[DONE]"

/-! ### Reading a trace -/

/-- Whether an event adds an item at `outputIndex`. -/
def isAddedAt (outputIndex : ℤ) : ResponsesEvent → Bool
  | outputItemAdded i _ => i = outputIndex
  | _ => false

/-- Whether an event is the done of the item at `outputIndex`. -/
def isDoneAt (outputIndex : ℤ) : ResponsesEvent → Bool
  | outputItemDone i _ => i = outputIndex
  | _ => false

def completedUsage : ResponsesEvent → Option ResponsesUsage
  | completed _ usage => some usage
  | _ => none

end ResponsesEvent

open ResponsesEvent

def addedAt (t : List ResponsesEvent) (i : ℤ) : ℕ := t.countP (isAddedAt i)

def doneAt (t : List ResponsesEvent) (i : ℤ) : ℕ := t.countP (isDoneAt i)

/-- The usages of the completions of a trace. -/
def completions (t : List ResponsesEvent) : List ResponsesUsage := t.filterMap completedUsage

variable (e : ResponsesEvent) (t u : List ResponsesEvent) (i : ℤ)

@[simp] theorem addedAt_nil : addedAt [] i = 0 := rfl

@[simp] theorem addedAt_append :
    addedAt (t ++ u) i = addedAt t i + addedAt u i := List.countP_append

@[simp] theorem addedAt_cons :
    addedAt (e :: t) i = addedAt t i + if isAddedAt i e then 1 else 0 := List.countP_cons

@[simp] theorem doneAt_nil : doneAt [] i = 0 := rfl

@[simp] theorem doneAt_append : doneAt (t ++ u) i = doneAt t i + doneAt u i := List.countP_append

@[simp] theorem doneAt_cons :
    doneAt (e :: t) i = doneAt t i + if isDoneAt i e then 1 else 0 := List.countP_cons

@[simp] theorem completions_nil : completions [] = [] := rfl

@[simp] theorem completions_append :
    completions (t ++ u) = completions t ++ completions u := List.filterMap_append

@[simp] theorem completions_cons :
    completions (e :: t) = e.completedUsage.toList ++ completions t := by
  rw [completions, List.filterMap_cons]
  rcases e.completedUsage with _ | usage
  · rfl
  · rfl

end AiOpenRouter
