/-
The chat-completion stream events that the converters emit, and their bytes.

Both converters print chunks with one choice; only one of them gives the chunk
a creation time, and only its last chunk has a usage.
-/
import AiOpenRouter.StreamContext
import AiOpenRouter.Sse

namespace AiOpenRouter

/-- The one chunk shape of the converters: its choice has the index, the delta and the
finish reason. -/
structure ChatEventChunk where
  id : String
  created : Option ℤ
  model : String
  index : ℤ
  delta : Json
  finishReason : Option String
  usage : Option Json

/-- One server-sent event of the chat protocol; `doneMarker` is `data: [DONE]`. -/
inductive ChatEvent where
  | chunk (chunk : ChatEventChunk)
  | doneMarker

/-- The `json!` object of a chunk. -/
def ChatEventChunk.toJson (c : ChatEventChunk) : Json :=
  .obj ([("id", .str c.id), ("object", .str "chat.completion.chunk")] ++
    (c.created.map fun created => ("created", Json.int created)).toList ++
    [("model", .str c.model),
      ("choices", .arr [.obj [("index", .int c.index), ("delta", c.delta),
        ("finish_reason", (c.finishReason.map Json.str).getD .null)]])] ++
    (c.usage.map fun usage => ("usage", usage)).toList)

def ChatEvent.render (env : Env) : ChatEvent → Bytes
  | chunk c => dataBlock (env.toStr c.toJson)
  | doneMarker => dataBlock "[DONE]"

end AiOpenRouter
