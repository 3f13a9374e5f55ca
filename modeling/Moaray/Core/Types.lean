import Moaray.Core.Json

/-!
# OpenAI-compatible wire types

The typed request and response of the structured `chat` path.  Every type keeps the fields it does
not know in `extra`, flattened into the same JSON object, so they survive a round trip.

* `ChatMessage`, `ChatRequest`, `ChatResponse` — with `fromValue`, which reads an object into the
  type, and `toValue`, which prints it.
* `optField`, `optString`, `listField` — how a field may be left out.
* `flatten` — the known fields, and the others after them.

The passthrough path never goes through these types; it relays bytes.  The recipe path reads the
caller's request with `ChatRequest.fromValue`, and its arms speak `ChatRequest` and `ChatResponse`,
so what a type loses is lost to a recipe only.

**Design.**  A reader answers `none` where the library would report an error, because the gateway
turns every such error into the same bad request.  A field that is absent and one that is `null`
read alike for an optional field and not for a required one, as the derived readers have it.
-/

namespace Moaray

open Json

/-- A single chat message.  Its content stays JSON, since it may be a text or a list of parts. -/
structure ChatMessage where
  role : String
  /-- Text or content parts, kept as JSON. -/
  content : Option Value
  extra : Map
  deriving Repr

/-- Inbound chat-completions request.  What the gateway looks at has a field of its own. -/
structure ChatRequest where
  model : String
  messages : List ChatMessage
  stream : Option Bool
  maxTokens : Option UInt32
  temperature : Option Float64
  topP : Option Float64
  extra : Map
  deriving Repr

/-- Non-streaming completion response.  The choices and the usage stay JSON. -/
structure ChatResponse where
  id : Option String
  object : Option String
  model : Option String
  choices : List Value
  usage : Option Value
  extra : Map
  deriving Repr

/-- The JSON object of the known fields with the flattened `extra` after them. -/
def flatten (known extra : Map) : Value :=
  .object (extra.foldl (fun m f => Map.insert m f.1 f.2) known)

/-- `to_value` of a message. -/
def ChatMessage.toValue (m : ChatMessage) : Value :=
  flatten (Map.insertSome [("role", .string m.role)] "content" m.content) m.extra

namespace ChatResponse

/-- An optional string field: absent and `null` are both `none`. -/
def optString (m : Map) (k : String) : Option (Option String) :=
  match Map.get m k with
  | none | some .null => some none
  | some (.string s) => some (some s)
  | some _ => none

/-- A list field that defaults to the empty list when absent. -/
def listField (m : Map) (k : String) : Option (List Value) :=
  match Map.get m k with
  | none => some []
  | some (.array items) => some items
  | some _ => none

/-- An optional raw field: absent and `null` are both `none`. -/
def optValue (m : Map) (k : String) : Option Value :=
  match Map.get m k with
  | none | some .null => none
  | some v => some v

/-- The names of the fields the type knows. -/
def fieldNames : List String := ["id", "object", "model", "choices", "usage"]

/-- `from_value` of a response; `none` when a field has the wrong type. -/
def fromValue (v : Value) : Option ChatResponse := do
  let m ← v.asObject
  let id ← optString m "id"
  let object ← optString m "object"
  let model ← optString m "model"
  let choices ← listField m "choices"
  let extra := m.filter fun f => !fieldNames.contains f.1
  some { id, object, model, choices, usage := optValue m "usage", extra }

/-- `to_value` of a response; the optional fields are skipped when absent. -/
def toValue (r : ChatResponse) : Value :=
  let m := Map.insertSome [] "id" (r.id.map .string)
  let m := Map.insertSome m "object" (r.object.map .string)
  let m := Map.insertSome m "model" (r.model.map .string)
  let m := Map.insert m "choices" (.array r.choices)
  flatten (Map.insertSome m "usage" r.usage) r.extra

end ChatResponse

namespace ChatMessage

/-- The names of the fields the type knows. -/
def fieldNames : List String := ["role", "content"]

/-- `from_value` of a message; `none` when its role is missing or no string. -/
def fromValue (v : Value) : Option ChatMessage := do
  let m ← v.asObject
  let role ← (Map.get m "role").bind Value.asStr
  let extra := m.filter fun f => !fieldNames.contains f.1
  some { role, content := ChatResponse.optValue m "content", extra }

end ChatMessage

namespace ChatRequest

/-- An optional field read with `read`: absent and `null` are both `none`. -/
def optField {α : Type} (read : Value → Option α) (m : Map) (k : String) : Option (Option α) :=
  match Map.get m k with
  | none | some .null => some none
  | some v => (read v).map some

/-- A number of 32 bits. -/
def asU32 (v : Value) : Option UInt32 :=
  v.asU64.bind fun n => if n < 4294967296 then some n.toUInt32 else none

/-- The names of the fields the type knows. -/
def fieldNames : List String :=
  ["model", "messages", "stream", "max_tokens", "temperature", "top_p"]

/-- `from_value` of a request; `none` when a field has the wrong type or the model is missing. -/
def fromValue (v : Value) : Option ChatRequest := do
  let m ← v.asObject
  let model ← (Map.get m "model").bind Value.asStr
  let items ← ChatResponse.listField m "messages"
  let messages ← items.mapM ChatMessage.fromValue
  let stream ← optField Value.asBool m "stream"
  let maxTokens ← optField asU32 m "max_tokens"
  let temperature ← optField Value.asF64 m "temperature"
  let topP ← optField Value.asF64 m "top_p"
  let extra := m.filter fun f => !fieldNames.contains f.1
  some { model, messages, stream, maxTokens, temperature, topP, extra }

/-- Whether the caller asked for a streamed response. -/
def isStream (r : ChatRequest) : Bool := r.stream.getD false

/-- The fields the type knows; the optional ones are skipped when absent. -/
def known (r : ChatRequest) : Map :=
  let m := Map.ofFields
    [("model", .string r.model), ("messages", .array (r.messages.map ChatMessage.toValue))]
  let m := Map.insertSome m "stream" (r.stream.map .bool)
  let m := Map.insertSome m "max_tokens" (r.maxTokens.map fun n => .ofU64 n.toUInt64)
  let m := Map.insertSome m "temperature" (r.temperature.map .ofF64)
  Map.insertSome m "top_p" (r.topP.map .ofF64)

/-- `to_value` of a request. -/
def toValue (r : ChatRequest) : Value := flatten r.known r.extra

end ChatRequest

end Moaray
