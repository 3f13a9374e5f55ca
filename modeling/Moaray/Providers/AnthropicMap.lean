import Moaray.Core.Error
import Moaray.Core.Json

/-!
# OpenAI ↔ Anthropic translation

The pure translation between the two chat formats.  Only text is supported: tool controls, unknown
roles and non-text content stop with an error instead of being dropped.

* `openaiToAnthropic` — the body of a Messages request: system messages are taken out of the
  conversation and joined, the others stay in order.
* `anthropicToOpenai` — the completion for a whole Messages response: its text blocks concatenated,
  its stop reason mapped, its usage renamed.
* `rejectTools`, `partsToText`, `contentToText`, `addMessage` — the guards, in the order the
  translation asks them.

Each guard looks at certain fields of the request, and a field that no guard looks at and the body
has no place for is lost.  Which requests that happens to is the subject of a module of its own.

**Design.**  The messages are taken in one by one into a `Conversation`, as the source's loop does,
so what is proved of one message is proved of all by induction on their list.
-/

namespace Moaray

open Json

namespace AnthropicMap

/-- The controls the text path cannot map. -/
def toolFields : List String := ["tools", "tool_choice", "response_format"]

/-- Stop at the first control that is present and not `null`.  The error names it. -/
def rejectTools (req : Value) : List String → Except Error Unit
  | [] => .ok ()
  | field :: rest =>
      match req.get field with
      | some v =>
          if v.isNull then rejectTools req rest
          else .error (.unsupported s!"`{field}` is not supported in v1 (text-only)")
      | none => rejectTools req rest

/-- The text of an array of content parts; a part of another type than `text` stops it. -/
def partsToText (unsupported : String → String) : List Value → Except Error String
  | [] => .ok ""
  | part :: rest =>
      let ty := ((part.get "type").bind Value.asStr).getD "text"
      if ty ≠ "text" then .error (.unsupported (unsupported ty))
      else do
        let tail ← partsToText unsupported rest
        .ok (((part.get "text").bind Value.asStr).getD "" ++ tail)

/-- Extract plain text from a message's `content`: a string, the texts of its parts, or nothing when
it is left out. -/
def contentToText (print : Value → String) : Option Value → Except Error String
  | none | some .null => .ok ""
  | some (.string s) => .ok s
  | some (.array parts) =>
      partsToText (fun ty => s!"non-text content part `{ty}` not supported in v1") parts
  | some other => .error (.badRequest ("unexpected content shape: " ++ print other))

/-- The system parts and the remaining messages of a request, in order; the Messages API keeps the
two apart. -/
structure Conversation where
  systemParts : List String
  messages : List Value

/-- Sort one message into the conversation after the ones before it. -/
def addMessage (print : Value → String) (acc : Conversation) (m : Value) :
    Except Error Conversation := do
  let role := ((m.get "role").bind Value.asStr).getD "user"
  let text ← contentToText print (m.get "content")
  if role = "system" then .ok { acc with systemParts := acc.systemParts ++ [text] }
  else if role = "user" ∨ role = "assistant" then
    let message := Map.ofFields [("role", .string role), ("content", .string text)]
    .ok { acc with messages := acc.messages ++ [.object message] }
  else .error (.unsupported s!"unsupported message role `{role}`")

/-- Build the `/v1/messages` request body from an OpenAI chat request. -/
def openaiToAnthropic (print : Value → String) (req : Value) (defaultMaxTokens : UInt32) :
    Except Error Value := do
  let some model := (req.get "model").bind Value.asStr | .error (.badRequest "missing model")
  rejectTools req toolFields
  let items := ((req.get "messages").bind Value.asArray).getD []
  let conversation ← items.foldlM (addMessage print) { systemParts := [], messages := [] }
  let maxTokens := ((req.get "max_tokens").bind Value.asU64).getD defaultMaxTokens.toUInt64
  let out := Map.ofFields [("model", .string model), ("messages", .array conversation.messages),
    ("max_tokens", .ofU64 maxTokens)]
  let out := Map.insertSome out "system" (if conversation.systemParts.isEmpty then none
    else some (.string ("\n\n".intercalate conversation.systemParts)))
  let out :=
    Map.insertSome out "temperature" (((req.get "temperature").bind Value.asF64).map .ofF64)
  let out := Map.insertSome out "top_p" (((req.get "top_p").bind Value.asF64).map .ofF64)
  let out := Map.insertSome out "stream" (((req.get "stream").bind Value.asBool).map .bool)
  .ok (.object out)

/-- Map a `stop_reason` to a `finish_reason`. -/
def mapStopReason : Option String → Option String
  | none => none
  | some reason =>
      if reason = "end_turn" ∨ reason = "stop_sequence" then some "stop"
      else if reason = "max_tokens" then some "length"
      else some "stop"

/-- The token counts of a raw `usage` object, zero where they are missing, and both zero without
one. -/
def usageTokens : Option Value → UInt64 × UInt64
  | none => (0, 0)
  | some u =>
      (((u.get "input_tokens").bind Value.asU64).getD 0,
        ((u.get "output_tokens").bind Value.asU64).getD 0)

/-- Translate a full Messages response into an OpenAI chat-completion response. -/
def anthropicToOpenai (resp : Value) (model : String) : Except Error Value := do
  let blocks := ((resp.get "content").bind Value.asArray).getD []
  let text ← partsToText (fun ty => s!"anthropic content block `{ty}` not supported in v1") blocks
  let finish := (mapStopReason ((resp.get "stop_reason").bind Value.asStr)).getD "stop"
  let (promptTokens, completionTokens) := usageTokens (resp.get "usage")
  let id := ((resp.get "id").bind Value.asStr).getD "chatcmpl-anthropic"
  let message := Map.ofFields [("role", .string "assistant"), ("content", .string text)]
  let choice := Map.ofFields
    [("index", .ofU64 0), ("message", .object message), ("finish_reason", .string finish)]
  let usage := Map.ofFields
    [("prompt_tokens", .ofU64 promptTokens), ("completion_tokens", .ofU64 completionTokens),
      ("total_tokens", .ofU64 (promptTokens + completionTokens))]
  .ok (.object (Map.ofFields
    [("id", .string id), ("object", .string "chat.completion"), ("model", .string model),
      ("choices", .array [.object choice]), ("usage", .object usage)]))

end AnthropicMap

end Moaray
