/-
A response of the Responses protocol as it is streamed, with the response object
it assembles to.

A response is streamed as `response.created`, its output items one after another
at increasing output indices, and a last event that carries the response object.
A message item streams its content parts, a reasoning item its deltas, a function
call its arguments.  Events that no converter reads (`response.in_progress`,
`response.output_text.done`, …) may come anywhere (`ResponsesStreamEvent.other`).

`StreamedResponse.Assembles` says that the response object holds the items with
their deltas concatenated.
-/
import AiOpenRouter.ResponsesToChat
import AiOpenRouter.TypedRuns
import AiOpenRouter.JsonPrinting
import AiOpenRouter.Sequences

namespace AiOpenRouter

/-! ### The response -/

inductive PartKind where
  | text
  | refusal

/-- A content part of a message: its kind and its deltas. -/
structure StreamedPart where
  kind : PartKind
  deltas : List String

structure ReasoningDelta where
  isSummary : Bool
  text : String

inductive StreamedItem where
  | message (id : String) (parts : List StreamedPart)
  | reasoning (id : String) (deltas : List ReasoningDelta)
  | functionCall (id callId name : String) (fragments : List String)

/-- A response: its items with their output indices, whether the last event is
`response.completed` (and not `response.incomplete`), and the response object. -/
structure StreamedResponse where
  id : String
  items : List (ℕ × StreamedItem)
  completes : Bool
  object : Json

structure PartPlace where
  itemId : String
  outputIndex : ℕ
  contentIndex : ℕ

/-- The events of a response stream. -/
inductive ResponsesStreamEvent where
  | created (id : String)
  | messageAdded (outputIndex : ℕ) (id : String)
  | reasoningAdded (outputIndex : ℕ) (id : String)
  | functionCallAdded (outputIndex : ℕ) (id callId name : String)
  | partAdded (kind : PartKind) (place : PartPlace)
  | partDelta (kind : PartKind) (place : PartPlace) (delta : String)
  | refusalDone (place : PartPlace)
  | partDone (kind : PartKind) (place : PartPlace)
  | reasoningDelta (place : PartPlace) (delta : ReasoningDelta)
  | reasoningDone (place : PartPlace)
  | argumentsDelta (outputIndex : ℕ) (itemId delta : String)
  | argumentsDone (outputIndex : ℕ) (itemId : String)
  | finished (completes : Bool) (object : Json)
  | other (eventType : String)

def StreamedItem.id : StreamedItem → String
  | message id _ | reasoning id _ | functionCall id _ _ _ => id

/-- The events of a content part. -/
def StreamedPart.events (place : PartPlace) (part : StreamedPart) : List ResponsesStreamEvent :=
  .partAdded part.kind place :: (part.deltas.map (.partDelta part.kind place) ++
    match part.kind with
    | .text => [.partDone .text place]
    | .refusal => [.refusalDone place, .partDone .refusal place])

def partsEvents (outputIndex : ℕ) (itemId : String) :
    ℕ → List StreamedPart → List ResponsesStreamEvent
  | _, [] => []
  | contentIndex, part :: parts =>
    part.events ⟨itemId, outputIndex, contentIndex⟩ ++
      partsEvents outputIndex itemId (contentIndex + 1) parts

/-- The events of an item: a reasoning item is done when it had a delta of its own. -/
def StreamedItem.events (outputIndex : ℕ) : StreamedItem → List ResponsesStreamEvent
  | message id parts => .messageAdded outputIndex id :: partsEvents outputIndex id 0 parts
  | reasoning id deltas =>
    .reasoningAdded outputIndex id ::
      (deltas.map (.reasoningDelta ⟨id, outputIndex, 0⟩) ++
        if deltas.all (·.isSummary) then [] else [.reasoningDone ⟨id, outputIndex, 0⟩])
  | functionCall id callId name fragments =>
    .functionCallAdded outputIndex id callId name ::
      (fragments.map (.argumentsDelta outputIndex id) ++ [.argumentsDone outputIndex id])

def StreamedResponse.events (r : StreamedResponse) : List ResponsesStreamEvent :=
  .created r.id :: (r.items.flatMap (fun item => item.2.events item.1) ++
    [.finished r.completes r.object])

/-! ### The bytes -/

/-- The name of a kind of content parts. -/
def PartKind.name : PartKind → String
  | text => "output_text"
  | refusal => "refusal"

namespace ResponsesStreamEvent

/-- The name of an event. -/
def eventType : ResponsesStreamEvent → String
  | created _ => "response.created"
  | messageAdded _ _ | reasoningAdded _ _ | functionCallAdded _ _ _ _ =>
    "response.output_item.added"
  | partAdded _ _ => "response.content_part.added"
  | partDelta .text _ _ => "response.output_text.delta"
  | partDelta .refusal _ _ => "response.refusal.delta"
  | refusalDone _ => "response.refusal.done"
  | partDone _ _ => "response.content_part.done"
  | reasoningDelta _ delta =>
    if delta.isSummary then "response.reasoning_summary_text.delta" else "response.reasoning.delta"
  | reasoningDone _ => "response.reasoning.done"
  | argumentsDelta _ _ _ => "response.function_call_arguments.delta"
  | argumentsDone _ _ => "response.function_call_arguments.done"
  | finished true _ => "response.completed"
  | finished false _ => "response.incomplete"
  | other eventType => eventType

/-- The names of the events that are not `other`. -/
def knownTypes : List String :=
  ["response.created", "response.output_item.added", "response.content_part.added",
    "response.output_text.delta", "response.refusal.delta", "response.refusal.done",
    "response.content_part.done", "response.reasoning_summary_text.delta",
    "response.reasoning.delta", "response.reasoning.done",
    "response.function_call_arguments.delta", "response.function_call_arguments.done",
    "response.completed", "response.incomplete"]

def isKnown : ResponsesStreamEvent → Bool
  | other _ => false
  | _ => true

def SaysPlace (data : Json) (place : PartPlace) : Prop :=
  data.getStr "item_id" = some place.itemId ∧ data.getI64 "output_index" = some ↑place.outputIndex ∧
    data.getI64 "content_index" = some ↑place.contentIndex

def SaysItem (data : Json) (outputIndex : ℕ) (itemType id : String) (item : Json) : Prop :=
  data.getI64 "output_index" = some ↑outputIndex ∧ data.get "item" = some item ∧
    item.getStr "type" = some itemType ∧ item.getStr "id" = some id

def Says (data : Json) : ResponsesStreamEvent → Prop
  | created id => ∃ response, data.get "response" = some response ∧ response.getStr "id" = some id
  | messageAdded outputIndex id => ∃ item, SaysItem data outputIndex "message" id item
  | reasoningAdded outputIndex id => ∃ item, SaysItem data outputIndex "reasoning" id item
  | functionCallAdded outputIndex id callId name =>
    ∃ item, SaysItem data outputIndex "function_call" id item ∧
      item.getStr "call_id" = some callId ∧ item.getStr "name" = some name
  | partAdded kind place => SaysPlace data place ∧
      ∃ part, data.get "part" = some part ∧ part.getStr "type" = some kind.name
  | partDelta _ place delta => SaysPlace data place ∧ data.getStr "delta" = some delta
  | refusalDone place | partDone _ place | reasoningDone place => SaysPlace data place
  | reasoningDelta place delta => data.getStr "delta" = some delta.text ∧
      (delta.isSummary = false → SaysPlace data place)
  | argumentsDelta outputIndex itemId delta => data.getI64 "output_index" = some ↑outputIndex ∧
      data.getStr "item_id" = some itemId ∧ data.getStr "delta" = some delta
  | argumentsDone outputIndex itemId => data.getI64 "output_index" = some ↑outputIndex ∧
      data.getStr "item_id" = some itemId
  | finished _ object => data.get "response" = some object
  | other eventType => eventType ∉ knownTypes

def CarriedBy (env : Env) (block : Bytes) (e : ResponsesStreamEvent) : Prop :=
  ∃ name text data, parseSse block = (name, text) ∧ parseSseBlock block = some (name, text) ∧
    (name = "" ∨ name = e.eventType) ∧ text ≠ "" ∧ text ≠ "[DONE]" ∧
    env.fromStr text = .ok data ∧ data.getStr "type" = some e.eventType ∧ e.Says data

end ResponsesStreamEvent

/-- The event blocks of a streamed response: its events in order, with other events anywhere. -/
def StreamedResponse.StreamedAs (env : Env) (r : StreamedResponse) (blocks : List Bytes) : Prop :=
  ∃ es, List.Forall₂ (ResponsesStreamEvent.CarriedBy env) blocks es ∧
    es.filter ResponsesStreamEvent.isKnown = r.events

/-! ### The response object -/

def StreamedPart.text (part : StreamedPart) : String := "".intercalate part.deltas

def StreamedPart.AssemblesTo (content : Json) (part : StreamedPart) : Prop :=
  content.getStr "type" = some part.kind.name ∧
    content.getStr (match part.kind with | .text => "text" | .refusal => "refusal") = some part.text

def summaryEntryText (entry : Json) : Option String :=
  if entry.getStr "type" = some "summary_text" then entry.getStr "text" else none

def StreamedItem.AssemblesTo (out : Json) : StreamedItem → Prop
  | message id parts => out.getStr "type" = some "message" ∧ out.getStr "id" = some id ∧
      ∃ content, out.get "content" = some (.arr content) ∧
        List.Forall₂ (fun part content => part.AssemblesTo content) parts content
  | reasoning id deltas => out.getStr "type" = some "reasoning" ∧ out.getStr "id" = some id ∧
      ∃ summary, out.get "summary" = some (.arr summary) ∧
        "".intercalate (summary.filterMap summaryEntryText) =
          "".intercalate (deltas.map ReasoningDelta.text)
  | functionCall id callId name fragments => out.getStr "type" = some "function_call" ∧
      out.getStr "id" = some id ∧ out.getStr "call_id" = some callId ∧
      out.getStr "name" = some name ∧ out.getStr "arguments" = some ("".intercalate fragments)

/-- A well-formed response: the output indices increase, the item ids differ, and the response
object holds the items. -/
structure StreamedResponse.Assembles (r : StreamedResponse) : Prop where
  increasing : (r.items.map Prod.fst).Pairwise (· < ·)
  itemIds : (r.items.map fun item => item.2.id).Nodup
  output : ∃ output, r.object.get "output" = some (.arr output) ∧
    List.Forall₂ (fun item out => item.2.AssemblesTo out) r.items output

/-! ### A rendering -/

namespace ResponsesStreamEvent

def placeFields (place : PartPlace) : List (String × Json) :=
  [("item_id", .str place.itemId), ("output_index", .int place.outputIndex),
    ("content_index", .int place.contentIndex)]

/-- The fields of an event, next to its type. -/
def fields : ResponsesStreamEvent → List (String × Json)
  | created id => [("response", .obj [("id", .str id)])]
  | messageAdded outputIndex id => [("output_index", .int outputIndex),
      ("item", .obj [("type", .str "message"), ("id", .str id)])]
  | reasoningAdded outputIndex id => [("output_index", .int outputIndex),
      ("item", .obj [("type", .str "reasoning"), ("id", .str id)])]
  | functionCallAdded outputIndex id callId name => [("output_index", .int outputIndex),
      ("item", .obj [("type", .str "function_call"), ("id", .str id), ("call_id", .str callId),
        ("name", .str name)])]
  | partAdded kind place => placeFields place ++ [("part", .obj [("type", .str kind.name)])]
  | partDelta _ place delta => placeFields place ++ [("delta", .str delta)]
  | refusalDone place | partDone _ place | reasoningDone place => placeFields place
  | reasoningDelta place delta => placeFields place ++ [("delta", .str delta.text)]
  | argumentsDelta outputIndex itemId delta => [("output_index", .int outputIndex),
      ("item_id", .str itemId), ("delta", .str delta)]
  | argumentsDone outputIndex itemId => [("output_index", .int outputIndex),
      ("item_id", .str itemId)]
  | finished _ object => [("response", object)]
  | other _ => []

/-- The data of an event, with the fields the protocol asks for. -/
def toJson (e : ResponsesStreamEvent) : Json := .obj (("type", .str e.eventType) :: e.fields)

/-- The numbers of an event are `i64`. -/
def InRange : ResponsesStreamEvent → Prop
  | messageAdded outputIndex _ | reasoningAdded outputIndex _ | functionCallAdded outputIndex _ _ _
  | argumentsDelta outputIndex _ _ | argumentsDone outputIndex _ =>
    outputIndex < 9223372036854775808
  | partAdded _ place | partDelta _ place _ | refusalDone place | partDone _ place
  | reasoningDelta place _ | reasoningDone place =>
    place.outputIndex < 9223372036854775808 ∧ place.contentIndex < 9223372036854775808
  | other eventType => eventType ∉ knownTypes
  | created _ | finished _ _ => True

instance : (e : ResponsesStreamEvent) → Decidable e.InRange
  | messageAdded outputIndex _ | reasoningAdded outputIndex _ | functionCallAdded outputIndex _ _ _
  | argumentsDelta outputIndex _ _ | argumentsDone outputIndex _ =>
    inferInstanceAs (Decidable (outputIndex < _))
  | partAdded _ _ | partDelta _ _ _ | refusalDone _ | partDone _ _ | reasoningDelta _ _
  | reasoningDone _ => inferInstanceAs (Decidable (_ ∧ _))
  | other eventType => inferInstanceAs (Decidable (eventType ∉ knownTypes))
  | created _ | finished _ _ => inferInstanceAs (Decidable True)

theorem saysPlace_toJson {e : ResponsesStreamEvent} {place : PartPlace}
    {rest : List (String × Json)}
    (hfields : e.fields = placeFields place ++ rest)
    (h : place.outputIndex < 9223372036854775808 ∧ place.contentIndex < 9223372036854775808) :
    SaysPlace e.toJson place := by
  rw [toJson, hfields]
  exact ⟨rfl, Json.getI64_of_get_nat rfl h.1, Json.getI64_of_get_nat rfl h.2⟩

theorem says_toJson {e : ResponsesStreamEvent} (h : e.InRange) : e.Says e.toJson := by
  cases e with
  | created id => exact ⟨_, rfl, rfl⟩
  | messageAdded outputIndex id => exact ⟨_, Json.getI64_of_get_nat rfl h, rfl, rfl, rfl⟩
  | reasoningAdded outputIndex id => exact ⟨_, Json.getI64_of_get_nat rfl h, rfl, rfl, rfl⟩
  | functionCallAdded outputIndex id callId name =>
    exact ⟨_, ⟨Json.getI64_of_get_nat rfl h, rfl, rfl, rfl⟩, rfl, rfl⟩
  | partAdded kind place => exact ⟨saysPlace_toJson rfl h, _, rfl, rfl⟩
  | partDelta kind place delta => exact ⟨saysPlace_toJson rfl h, rfl⟩
  | refusalDone place => exact saysPlace_toJson (List.append_nil _).symm h
  | partDone kind place => exact saysPlace_toJson (List.append_nil _).symm h
  | reasoningDelta place delta => exact ⟨rfl, fun _ => saysPlace_toJson rfl h⟩
  | reasoningDone place => exact saysPlace_toJson (List.append_nil _).symm h
  | argumentsDelta outputIndex itemId delta => exact ⟨Json.getI64_of_get_nat rfl h, rfl, rfl⟩
  | argumentsDone outputIndex itemId => exact ⟨Json.getI64_of_get_nat rfl h, rfl⟩
  | finished completes object => exact rfl
  | other eventType => exact h

def render (e : ResponsesStreamEvent) : Bytes := dataBlock e.toJson.compact

theorem compact_ne_done (e : ResponsesStreamEvent) : e.toJson.compact ≠ "[DONE]" := by
  intro h
  have hhead := congrArg (fun s : String => s.toList.head?) h
  rw [toJson, Json.compact] at hhead
  simp at hhead

end ResponsesStreamEvent

theorem StreamedItem.isKnown_of_mem_events {k : ℕ} {item : StreamedItem} {e : ResponsesStreamEvent}
    (h : e ∈ item.events k) : e.isKnown = true := by
  have hpart : ∀ (place : PartPlace) (part : StreamedPart), ∀ e ∈ part.events place,
      e.isKnown = true := by
    rintro place ⟨kind, deltas⟩ e he
    cases kind <;> simp only [StreamedPart.events, List.mem_cons, List.mem_append, List.mem_map,
      List.not_mem_nil, or_false] at he
    case text => obtain rfl | ⟨_, _, rfl⟩ | rfl := he <;> rfl
    case refusal => obtain rfl | ⟨_, _, rfl⟩ | rfl | rfl := he <;> rfl
  have hparts : ∀ (itemId : String) (contentIndex : ℕ) (parts : List StreamedPart),
      ∀ e ∈ partsEvents k itemId contentIndex parts, e.isKnown = true := by
    intro itemId contentIndex parts
    induction parts generalizing contentIndex with
    | nil => simp [partsEvents]
    | cons part parts ih =>
      intro e he
      rcases List.mem_append.1 he with he | he
      · exact hpart _ part e he
      · exact ih (contentIndex + 1) e he
  cases item with
  | message itemId parts =>
    rcases List.mem_cons.1 h with rfl | h
    · rfl
    · exact hparts itemId 0 parts e h
  | reasoning itemId deltas =>
    rw [StreamedItem.events, List.mem_cons, List.mem_append, List.mem_map] at h
    obtain rfl | ⟨_, _, rfl⟩ | h := h
    · rfl
    · rfl
    · split_ifs at h
      · cases h
      · rw [List.mem_singleton.1 h]
        rfl
  | functionCall itemId callId name fragments =>
    simp only [StreamedItem.events, List.mem_cons, List.mem_append, List.mem_map,
      List.not_mem_nil, or_false] at h
    obtain rfl | ⟨_, _, rfl⟩ | rfl := h <;> rfl

theorem StreamedResponse.filter_events (r : StreamedResponse) :
    r.events.filter ResponsesStreamEvent.isKnown = r.events := by
  rw [List.filter_eq_self]
  intro e he
  rw [StreamedResponse.events, List.mem_cons, List.mem_append, List.mem_flatMap,
    List.mem_singleton] at he
  obtain rfl | ⟨item, -, he⟩ | rfl := he
  · rfl
  · exact StreamedItem.isKnown_of_mem_events he
  · rfl

def StreamedResponse.values (r : StreamedResponse) : List Json :=
  r.events.map ResponsesStreamEvent.toJson

theorem StreamedResponse.streamedAs_render {values : List Json} {r : StreamedResponse}
    (hnodup : (values.map Json.compact).Nodup) (hvalues : ∀ e ∈ r.events, e.toJson ∈ values)
    (hevents : ∀ e ∈ r.events, e.InRange ∧ e.toJson.printable = true) :
    r.StreamedAs (Env.ofValues values) (r.events.map ResponsesStreamEvent.render) := by
  refine ⟨r.events, ?_, r.filter_events⟩
  rw [List.forall₂_map_left_iff, List.forall₂_same]
  intro e hmem
  obtain ⟨hrange, hprintable⟩ := hevents e hmem
  have hplain : Text.IsPlainLine e.toJson.compact := Json.isPlainLine_compact hprintable
  exact ⟨"", e.toJson.compact, e.toJson, parseSse_dataBlock hplain, parseSseBlock_dataBlock hplain,
    Or.inl rfl, hplain.ne_empty, e.compact_ne_done, fromStr_ofValues hnodup (hvalues e hmem), rfl,
    ResponsesStreamEvent.says_toJson hrange⟩

end AiOpenRouter
