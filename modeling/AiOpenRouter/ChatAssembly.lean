/-
The assistant message that a client folds out of a chat-completion stream, and
the one it reads in a chat completion.

`foldChat` takes the chunks of choice 0: contents are concatenated, the entries
of `tool_calls` are collected by their index, the last finish reason and the
last usage stay.  `ChatOutcome` is what both ways have in common.
-/
import AiOpenRouter.ChatEvents

namespace AiOpenRouter

/-! ### Folding chunks -/

/-- A tool call under construction. -/
structure FoldedCall where
  index : ℤ
  id : String
  name : String
  arguments : String

structure FoldedMessage where
  text : String := ""
  toolCalls : List FoldedCall := []
  finishReason : Option String := none
  usage : Option Json := none

/-- The index of an entry of `tool_calls`. -/
def entryIndex (entry : Json) : ℤ := (entry.getI64 "index").getD 0

/-- A string of the `function` of an entry. -/
def entryFunction (entry : Json) (key : String) : String :=
  ((entry.get "function").bind (·.getStr key)).getD ""

/-- One entry of `tool_calls`: the first of its index starts a call, the others extend it. -/
def foldCall (calls : List FoldedCall) (entry : Json) : List FoldedCall :=
  if calls.any (·.index = entryIndex entry) then
    calls.map fun call =>
      if call.index = entryIndex entry then
        { call with arguments := call.arguments ++ entryFunction entry "arguments" }
      else call
  else
    calls ++ [{ index := entryIndex entry, id := (entry.getStr "id").getD ""
                name := entryFunction entry "name"
                arguments := entryFunction entry "arguments" }]

def foldChunk (msg : FoldedMessage) (c : ChatEventChunk) : FoldedMessage :=
  let msg := { msg with usage := c.usage.or msg.usage }
  if c.index = 0 then
    { msg with
      text := msg.text ++ (c.delta.getStr "content").getD ""
      toolCalls := (((c.delta.get "tool_calls").bind Json.asArray).getD []).foldl foldCall
        msg.toolCalls
      finishReason := c.finishReason.or msg.finishReason }
  else msg

def foldChatEvent (msg : FoldedMessage) : ChatEvent → FoldedMessage
  | .chunk c => foldChunk msg c
  | .doneMarker => msg

/-- The message that a stream folds to. -/
def foldChat (t : List ChatEvent) : FoldedMessage := t.foldl foldChatEvent {}

/-! ### Joining calls -/

/-- What a client reads of a call: the id, the name and the arguments. -/
def FoldedCall.read (call : FoldedCall) : String × String × String :=
  (call.id, call.name, call.arguments)

def extendCalls (index : ℤ) (arguments : String) (calls : List FoldedCall) : List FoldedCall :=
  calls.map fun call =>
    if call.index = index then { call with arguments := call.arguments ++ arguments } else call

def joinCall (call : FoldedCall) (calls : List FoldedCall) : List FoldedCall :=
  if calls.any (·.index = call.index) then extendCalls call.index call.arguments calls
  else calls ++ [call]

theorem extendCalls_append (index : ℤ) (arguments delta : String) (calls : List FoldedCall) :
    extendCalls index delta (extendCalls index arguments calls) =
      extendCalls index (arguments ++ delta) calls := by
  simp only [extendCalls, List.map_map]
  refine List.map_congr_left fun call _ => ?_
  by_cases h : call.index = index
  · simp [h, String.append_assoc]
  · simp [h]

theorem any_index_extendCalls (index : ℤ) (arguments : String) (calls : List FoldedCall) (i : ℤ) :
    (extendCalls index arguments calls).any (·.index = i) = calls.any (·.index = i) := by
  rw [extendCalls, List.any_map]
  congr 1
  funext call
  by_cases h : call.index = index <;> simp [h]

theorem any_index_joinCall (call : FoldedCall) (calls : List FoldedCall) :
    (joinCall call calls).any (·.index = call.index) = true := by
  unfold joinCall
  split_ifs with h
  · rw [any_index_extendCalls]
    exact h
  · simp

theorem extendCalls_joinCall (call : FoldedCall) (delta : String) (calls : List FoldedCall) :
    extendCalls call.index delta (joinCall call calls) =
      joinCall { call with arguments := call.arguments ++ delta } calls := by
  unfold joinCall
  dsimp only
  split_ifs with h
  · exact extendCalls_append _ _ _ _
  · have hother : extendCalls call.index delta calls = calls := by
      rw [extendCalls]
      refine (List.map_congr_left fun other hmem => ?_).trans (List.map_id calls)
      have hne : other.index ≠ call.index := fun heq =>
        h (List.any_eq_true.2 ⟨other, hmem, by simpa using heq⟩)
      rw [if_neg hne, id_eq]
    rw [extendCalls, List.map_append]
    congr 1
    simp

/-! ### What the assistant said -/

/-- The text, the tool calls (their arguments read as JSON) and the finish reason. -/
structure ChatOutcome where
  text : String
  calls : List (String × String × Except String Json)
  finishReason : Option String

/-- The outcome of a folded stream. -/
def FoldedMessage.outcome (env : Env) (msg : FoldedMessage) : ChatOutcome where
  text := msg.text
  calls := msg.toolCalls.map fun call => (call.id, call.name, env.fromStr call.arguments)
  finishReason := msg.finishReason

def firstChoice (completion : Json) : Json :=
  (((completion.get "choices").bind Json.asArray).bind List.head?).getD .null

def completionOutcome (env : Env) (completion : Json) : ChatOutcome :=
  let message := ((firstChoice completion).get "message").getD .null
  { text := (message.getStr "content").getD ""
    calls := (((message.get "tool_calls").bind Json.asArray).getD []).map fun call =>
      ((call.getStr "id").getD "", entryFunction call "name",
        env.fromStr (entryFunction call "arguments"))
    finishReason := (firstChoice completion).getStr "finish_reason" }

end AiOpenRouter
