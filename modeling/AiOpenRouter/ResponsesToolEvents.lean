/-
The function calls of a Responses stream.

Every event of a function call names its item by `item_id` or by
`output_index`.  `toolEvent` reads what an upstream block is to the function
calls, and a history is the list of the tool events so far.

* `ToolStream` — the well-formed histories;
* `ownFragments` — the arguments an item was sent;
* `FindsItem` — the condition under which the converter finds the item of an
  event: it registers an added item under its id only, so an event with an
  output index alone is served from the last tool index.
-/
import AiOpenRouter.ResponsesToClaudeSteps

open Trace

namespace AiOpenRouter

/-! ### Tool events -/

/-- A function call: its item id and its output index. -/
structure ToolItem where
  itemId : String
  outputIndex : ℤ
  deriving DecidableEq

inductive ItemRef where
  | byId (itemId : String)
  | byOutput (outputIndex : ℤ)
  deriving DecidableEq

/-- Whether a reference is to an item. -/
def ItemRef.names (ref : ItemRef) (item : ToolItem) : Bool :=
  match ref with
  | .byId itemId => itemId = item.itemId
  | .byOutput outputIndex => outputIndex = item.outputIndex

/-- What an upstream event is to the function calls of the stream. -/
inductive ToolEvent where
  | added (item : ToolItem)
  | delta (ref : ItemRef) (fragment : String)
  | done (ref : ItemRef)
  /-- a function-call event that does not say which item it is about -/
  | unidentified
  /-- `response.completed` or `[DONE]` -/
  | terminal
  | other
  deriving DecidableEq

/-- The item an arguments event names: `item_id` first, then `output_index`. -/
def itemRef (data : Json) : Option ItemRef :=
  match data.getStr "item_id" with
  | some itemId => some (.byId itemId)
  | none => (data.getI64 "output_index").map .byOutput

def toolEventOf (name : String) (data : Json) : ToolEvent :=
  match name with
  | "response.output_item.added" =>
    match data.get "item" with
    | none => .other
    | some item =>
      if item.getStr "type" = some "function_call" then
        match item.getStr "id", data.getI64 "output_index" with
        | some itemId, some outputIndex => .added ⟨itemId, outputIndex⟩
        | _, _ => .unidentified
      else .other
  | "response.function_call_arguments.delta" =>
    match data.getStr "delta" with
    | none => .other
    | some fragment =>
      match itemRef data with
      | some ref => .delta ref fragment
      | none => .unidentified
  | "response.function_call_arguments.done" =>
    match itemRef data with
    | some ref => .done ref
    | none => .unidentified
  | "response.completed" => .terminal
  | _ => .other

/-- The tool event of an upstream block. -/
def toolEvent (env : Env) (event : Bytes) : ToolEvent :=
  match readResponsesInput env event with
  | .skip => .other
  | .done => .terminal
  | .event name data => toolEventOf name data

/-! ### Histories of tool events -/

def toolItems (history : List ToolEvent) : List ToolItem :=
  history.filterMap fun
    | .added item => some item
    | _ => none

def isDone (history : List ToolEvent) (item : ToolItem) : Bool :=
  history.any fun
    | .done ref => ref.names item
    | _ => false

/-- The item the last `added` or `delta` was about. -/
def lastRef (history : List ToolEvent) : Option ItemRef :=
  history.foldl (fun last e =>
    match e with
    | .added item => some (.byId item.itemId)
    | .delta ref _ => some ref
    | _ => last) none

def ToolEvent.fragmentFor (item : ToolItem) : ToolEvent → String
  | .delta ref fragment => if ref.names item then fragment else ""
  | _ => ""

def ownFragments (history : List ToolEvent) (item : ToolItem) : String :=
  history.foldl (fun acc e => acc ++ e.fragmentFor item) ""

/-- What may follow a history in a Responses stream: new items get new ids and new
output indices, arguments are for items that were added and are not done, and
nothing about tools follows the end. -/
def ToolStreamAllows (history : List ToolEvent) : ToolEvent → Prop
  | .added item => .terminal ∉ history ∧
      ∀ item' ∈ toolItems history,
        item'.itemId ≠ item.itemId ∧ item'.outputIndex ≠ item.outputIndex
  | .delta ref _ | .done ref => .terminal ∉ history ∧
      ∃ item ∈ toolItems history, ref.names item = true ∧ isDone history item = false
  | .unidentified => False
  | .terminal | .other => True

/-- A well-formed stream of tool events. -/
abbrev ToolStream (history : List ToolEvent) : Prop := Permits ToolStreamAllows history

/-- An item named by its output index `n` is found if its id happens to be `out:n`, or if
no item has that id and the last tool event was about the item too. -/
def ItemRef.Finds (history : List ToolEvent) : ItemRef → Prop
  | .byId _ => True
  | .byOutput outputIndex => ∀ item ∈ toolItems history, item.outputIndex = outputIndex →
      item.itemId = "out:" ++ toString outputIndex ∨
      ((∀ item' ∈ toolItems history, item'.itemId ≠ "out:" ++ toString outputIndex) ∧
        ∃ ref ∈ lastRef history, ref.names item = true)

/-- The item of an arguments event is found. -/
def FindsItem (history : List ToolEvent) : ToolEvent → Prop
  | .delta ref _ | .done ref => ref.Finds history
  | _ => True

instance (history : List ToolEvent) (e : ToolEvent) : Decidable (ToolStreamAllows history e) := by
  cases e <;> unfold ToolStreamAllows <;> infer_instance

instance (history : List ToolEvent) (e : ToolEvent) : Decidable (FindsItem history e) := by
  rcases e with _ | ⟨_ | _, _⟩ | ⟨_ | _⟩ | _ | _ | _ <;> unfold FindsItem <;>
    try unfold ItemRef.Finds
  all_goals infer_instance

/-! ### Histories, one event longer -/

theorem toolItems_snoc (history : List ToolEvent) (e : ToolEvent) :
    toolItems (history ++ [e])
      = toolItems history ++ (match e with | .added item => [item] | _ => []) := by
  rw [toolItems, List.filterMap_append]
  rcases e <;> rfl

theorem isDone_snoc (history : List ToolEvent) (e : ToolEvent) (item : ToolItem) :
    isDone (history ++ [e]) item
      = (isDone history item || (match e with | .done ref => ref.names item | _ => false)) := by
  rw [isDone, List.any_append, List.any_cons, List.any_nil, Bool.or_false]
  rfl

theorem lastRef_snoc (history : List ToolEvent) (e : ToolEvent) :
    lastRef (history ++ [e])
      = (match e with
        | .added item => some (.byId item.itemId)
        | .delta ref _ => some ref
        | _ => lastRef history) := by
  rw [lastRef, List.foldl_append]
  rcases e <;> rfl

theorem ownFragments_snoc (history : List ToolEvent) (e : ToolEvent) (item : ToolItem) :
    ownFragments (history ++ [e]) item = ownFragments history item ++ e.fragmentFor item := by
  rw [ownFragments, List.foldl_append]
  rfl

theorem ToolStream.item_unique {history : List ToolEvent} (h : ToolStream history) :
    ∀ a ∈ toolItems history, ∀ b ∈ toolItems history,
      a.itemId = b.itemId ∨ a.outputIndex = b.outputIndex → a = b := by
  induction history using List.reverseRecOn with
  | nil =>
    intro a ha
    simp [toolItems] at ha
  | append_singleton history e ih =>
    obtain ⟨hhist, hallow⟩ := permits_snoc.1 h
    rw [toolItems_snoc]
    rcases e with item | _ | _ | _ | _ | _
    case added =>
      obtain ⟨-, hnew⟩ := hallow
      intro a ha b hb hab
      rcases List.mem_append.1 ha with ha' | ha' <;> rcases List.mem_append.1 hb with hb' | hb'
      · exact ih hhist a ha' b hb' hab
      · obtain rfl := List.mem_singleton.1 hb'
        exact absurd hab (not_or.2 (hnew a ha'))
      · obtain rfl := List.mem_singleton.1 ha'
        exact absurd hab (not_or.2 ⟨(hnew b hb').1.symm, (hnew b hb').2.symm⟩)
      · rw [List.mem_singleton.1 ha', List.mem_singleton.1 hb']
    all_goals
      rw [List.append_nil]
      exact ih hhist

variable {data : Json} {name : String} {ref : ItemRef}

theorem ToolStream.names_unique {history : List ToolEvent} (h : ToolStream history) {a b : ToolItem}
    (ha : a ∈ toolItems history) (hb : b ∈ toolItems history) (hra : ref.names a = true)
    (hrb : ref.names b = true) : a = b := by
  refine h.item_unique a ha b hb ?_
  rcases ref with itemId | outputIndex
  · simp only [ItemRef.names, decide_eq_true_eq] at hra hrb
    exact Or.inl (hra.symm.trans hrb)
  · simp only [ItemRef.names, decide_eq_true_eq] at hra hrb
    exact Or.inr (hra.symm.trans hrb)

variable {history : List ToolEvent}

theorem ToolStream.ownFragments_of_new {item : ToolItem} (h : ToolStream history)
    (hnew : ∀ item' ∈ toolItems history,
      item'.itemId ≠ item.itemId ∧ item'.outputIndex ≠ item.outputIndex) :
    ownFragments history item = "" := by
  induction history using List.reverseRecOn with
  | nil => rfl
  | append_singleton history e ih =>
    obtain ⟨hhist, hallow⟩ := permits_snoc.1 h
    have hnew' : ∀ item' ∈ toolItems history,
        item'.itemId ≠ item.itemId ∧ item'.outputIndex ≠ item.outputIndex := fun item' hitem' =>
      hnew item' (by rw [toolItems_snoc]; exact List.mem_append_left _ hitem')
    rw [ownFragments_snoc, ih hhist hnew']
    rcases e with _ | ⟨ref, fragment⟩ | _ | _ | _ | _
    case delta =>
      obtain ⟨-, item', hitem', hnames, -⟩ := hallow
      have hnot : ref.names item = false := by
        by_contra hnames'
        rw [Bool.not_eq_false] at hnames'
        rcases ref with itemId | outputIndex
        · simp only [ItemRef.names, decide_eq_true_eq] at hnames hnames'
          exact (hnew' item' hitem').1 (hnames.symm.trans hnames')
        · simp only [ItemRef.names, decide_eq_true_eq] at hnames hnames'
          exact (hnew' item' hitem').2 (hnames.symm.trans hnames')
      rw [ToolEvent.fragmentFor, hnot]
      rfl
    all_goals rfl

/-! ### Reading the tool event back -/

theorem eq_of_toolEventOf_added {item : ToolItem} (h : toolEventOf name data = .added item) :
    name = "response.output_item.added" ∧ ∃ jsonItem, data.get "item" = some jsonItem ∧
      jsonItem.getStr "type" = some "function_call" ∧
      jsonItem.getStr "id" = some item.itemId := by
  unfold toolEventOf at h
  split at h
  case h_1 =>
    refine ⟨rfl, ?_⟩
    rcases hitem : data.get "item" with _ | jsonItem
    · rw [hitem] at h
      exact absurd h (by simp)
    · rw [hitem] at h
      by_cases htype : jsonItem.getStr "type" = some "function_call"
      · simp only [htype, if_true] at h
        split at h
        case h_1 itemId outputIndex hid hout =>
          obtain rfl := ToolEvent.added.inj h
          exact ⟨jsonItem, rfl, htype, hid⟩
        case h_2 => exact absurd h (by simp)
      · simp only [htype, if_false] at h
        exact absurd h (by simp)
  case h_2 =>
    split at h
    · exact absurd h (by simp)
    · split at h <;> exact absurd h (by simp)
  case h_3 => split at h <;> exact absurd h (by simp)
  all_goals exact absurd h (by simp)

theorem eq_of_toolEventOf_delta {fragment : String}
    (h : toolEventOf name data = .delta ref fragment) :
    name = "response.function_call_arguments.delta" ∧ data.getStr "delta" = some fragment ∧
      itemRef data = some ref := by
  unfold toolEventOf at h
  split at h
  case h_1 =>
    split at h
    · exact absurd h (by simp)
    · split_ifs at h
      split at h <;> exact absurd h (by simp)
  case h_2 =>
    split at h
    case h_1 => exact absurd h (by simp)
    case h_2 fragment' hdelta =>
      split at h
      case h_1 ref' href =>
        obtain ⟨rfl, rfl⟩ := ToolEvent.delta.inj h
        exact ⟨rfl, hdelta, href⟩
      case h_2 => exact absurd h (by simp)
  case h_3 => split at h <;> exact absurd h (by simp)
  all_goals exact absurd h (by simp)

theorem eq_of_toolEventOf_done (h : toolEventOf name data = .done ref) :
    name = "response.function_call_arguments.done" ∧ itemRef data = some ref := by
  unfold toolEventOf at h
  split at h
  case h_1 =>
    split at h
    · exact absurd h (by simp)
    · split_ifs at h
      split at h <;> exact absurd h (by simp)
  case h_2 =>
    split at h
    · exact absurd h (by simp)
    · split at h <;> exact absurd h (by simp)
  case h_3 =>
    split at h
    case h_1 ref' href =>
      obtain rfl := ToolEvent.done.inj h
      exact ⟨rfl, href⟩
    case h_2 => exact absurd h (by simp)
  all_goals exact absurd h (by simp)

theorem eq_of_toolEventOf_terminal (h : toolEventOf name data = .terminal) :
    name = "response.completed" := by
  unfold toolEventOf at h
  split at h
  case h_1 =>
    split at h
    · exact absurd h (by simp)
    · split_ifs at h
      split at h <;> exact absurd h (by simp)
  case h_2 =>
    split at h
    · exact absurd h (by simp)
    · split at h <;> exact absurd h (by simp)
  case h_3 => split at h <;> exact absurd h (by simp)
  case h_4 => rfl
  case h_5 => exact absurd h (by simp)

end AiOpenRouter
