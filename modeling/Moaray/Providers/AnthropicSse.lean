import Moaray.Framework.Lines
import Moaray.Providers.AnthropicMap
import Moaray.Providers.Common

/-!
# Anthropic SSE → OpenAI SSE stream translation

`SseParser` reads the upstream's bytes into events, line by line; `translateEvent` turns one event
into frames; `translate` runs both over the upstream's chunks.

* `SseParser.push` — feed bytes; an unfinished line waits in the buffer, and a line that is not
  UTF-8 is an error.
* `Reading`, `readEvent` — what the translation looks at in an event.
* `translateEvent`, `Translator.terminal` — the frames of one event, and the two that end a stream.
* `readings`, `ending` — the events the translator gets to see, and how the upstream ends.
* `translate_eq` — the stream is the translation of the delivered events, then the ending.

The source's generator reads a chunk, pushes it into the parser, and yields the frames of each
event it got, until the upstream ends or something fails.  `translateFrom` is that loop, one turn
for each item of the upstream.  `translate_eq` takes it apart into what was delivered, which
depends on the chunks, and what is made of it, which does not.

**Design.**  Frames are kept apart from their bytes: `translateFrames` is a list of frames and
`translate` its encoding.  Statements about ids, texts and endings are about frames, and those
about what a client parses go down to bytes.
-/

namespace Moaray

open Json Framework

namespace AnthropicSse

/-! ## The parser -/

/-- One parsed event: its `event:` type and the concatenated `data:` payload.  An event without a
type is dispatched by its payload. -/
structure SseEvent where
  event : Option String
  data : String
  deriving DecidableEq, Repr

/-- `SseEvent::default()`. -/
def SseEvent.fresh : SseEvent where
  event := none
  data := ""

/-- The bytes of an unfinished line, and the event whose lines are being read.  Both outlive a
chunk. -/
structure SseParser where
  buf : Bytes
  cur : SseEvent
  deriving DecidableEq, Repr

def SseParser.fresh : SseParser where
  buf := []
  cur := .fresh

/-- The line feed and the carriage return. -/
def lf : UInt8 := 10

def cr : UInt8 := 13

/-- Drop the carriage return before a line end. -/
def dropCr (raw : Bytes) : Bytes := if raw.getLast? = some cr then raw.dropLast else raw

/-- Take one line into the current event; an empty one dispatches it. -/
def readLine (cur : SseEvent) (line : String) : List SseEvent × SseEvent :=
  if line = "" then
    if cur.event.isSome ∨ cur.data ≠ "" then ([cur], .fresh) else ([], cur)
  else
    match stripPrefix line "event:" with
    | some rest => ([], { cur with event := some (trim rest) })
    | none =>
        match stripPrefix line "data:" with
        | some rest =>
            let data := if cur.data ≠ "" then cur.data ++ "\n" else cur.data
            ([], { cur with data := data ++ trimStart rest })
        -- Comment lines and unknown fields are ignored.
        | none => ([], cur)

/-- Take one complete line of bytes; one that is not UTF-8 is refused. -/
def readRawLine (cur : SseEvent) (raw : Bytes) : Option (List SseEvent × SseEvent) :=
  (fromUtf8 (dropCr raw)).map (readLine cur)

/-- Feed raw bytes: the events they complete.  On an error the caller drops its `out`, and with it
the events that were completed before the line that failed. -/
def SseParser.push (parser : SseParser) (chunk : Bytes) :
    Except Error (SseParser × List SseEvent) :=
  let (lines, buf) := splitLines lf (parser.buf ++ chunk)
  match readLines readRawLine parser.cur lines with
  | (events, some cur) => .ok ({ buf, cur }, events)
  | (_, none) => .error .upstreamError

/-! ## Reading an event -/

/-- What the translation looks at in an event, and nothing else of it.  Two events of one reading
are translated alike. -/
inductive Reading
  | messageStart (id : Option String)
  | blockStart (blockType : String)
  | blockDelta (deltaType : String) (text : Option String)
  | messageDelta (stopReason : Option String)
  | messageStop
  /-- Another event, or one without a JSON payload. -/
  | other
  deriving DecidableEq, Repr

/-- `v[key]`, for a value that may be missing. -/
def getIn (v : Option Value) (key : String) : Option Value := v.bind (·.get key)

/-- Dispatch an event by its type, or by the `type` of its payload when it has none.  Types the
translation does not know are passed over. -/
def readPayload (event : Option String) (parsed : Value) : Reading :=
  let evType := (event.or ((parsed.get "type").bind Value.asStr)).getD ""
  if evType = "message_start" then
    .messageStart ((getIn (parsed.get "message") "id").bind Value.asStr)
  else if evType = "content_block_start" then
    .blockStart (((getIn (parsed.get "content_block") "type").bind Value.asStr).getD "text")
  else if evType = "content_block_delta" then
    let delta := parsed.get "delta"
    .blockDelta (((getIn delta "type").bind Value.asStr).getD "text_delta")
      ((getIn delta "text").bind Value.asStr)
  else if evType = "message_delta" then
    .messageDelta ((getIn (parsed.get "delta") "stop_reason").bind Value.asStr)
  else if evType = "message_stop" then .messageStop
  else .other

variable (serde : SerdeJson)

/-- `from_str`. -/
def fromStr (s : String) : Option Value := (serde.parse (utf8 s)).toOption

/-- Read an event; one without data or with data that is no JSON is skipped. -/
def readEvent (ev : SseEvent) : Reading :=
  let data := trim ev.data
  if data = "" then .other
  else
    match fromStr serde data with
    | some parsed => readPayload ev.event parsed
    | none => .other

/-! ## The translation -/

/-- A frame of the translated stream, before it is encoded.  The last one is no JSON. -/
inductive Frame
  | delta (id content : String)
  | finish (id reason : String)
  | done
  deriving DecidableEq, Repr

/-- The JSON after `data: ` of a delta frame. -/
def openaiDeltaFrame (model id content : String) : Value :=
  .object (Map.ofFields
    [("id", .string id), ("object", .string "chat.completion.chunk"), ("model", .string model),
      ("choices", .array [.object (Map.ofFields
        [("index", .ofU64 0), ("delta", .object [("content", .string content)]),
          ("finish_reason", .null)])])])

/-- The JSON of the terminal frame. -/
def openaiFinishFrame (model id finish : String) : Value :=
  .object (Map.ofFields
    [("id", .string id), ("object", .string "chat.completion.chunk"), ("model", .string model),
      ("choices", .array [.object (Map.ofFields
        [("index", .ofU64 0), ("delta", .object []), ("finish_reason", .string finish)])])])

/-- Encode a JSON value as a `data:` frame. -/
def sseFrame (value : Value) : Bytes := utf8 ("data: " ++ serde.print value ++ "\n\n")

def Frame.bytes (model : String) : Frame → Bytes
  | .delta id content => sseFrame serde (openaiDeltaFrame model id content)
  | .finish id reason => sseFrame serde (openaiFinishFrame model id reason)
  | .done => utf8 "data: [DONE]\n\n"

/-- The translation's own state: the id the frames carry, the finish reason so far, and whether
`[DONE]` was sent. -/
structure Translator where
  id : String
  finish : Option String
  doneSent : Bool
  deriving DecidableEq, Repr

def Translator.fresh : Translator where
  id := "chatcmpl-anthropic"
  finish := none
  doneSent := false

/-- The two frames that end a stream. -/
def Translator.terminal (st : Translator) : List Frame :=
  [.finish st.id (st.finish.getD "stop"), .done]

/-- Translate one event: the frames it yields, and the next state or the error that ends the
stream. -/
def translateEvent (st : Translator) : Reading → List Frame × Except Error Translator
  | .messageStart id => ([], .ok { st with id := id.getD st.id })
  | .blockStart blockType =>
      if blockType ≠ "text" then
        ([], .error (.unsupported s!"anthropic stream block `{blockType}` not supported in v1"))
      else ([], .ok st)
  | .blockDelta deltaType text =>
      if deltaType ≠ "text_delta" then
        ([], .error (.unsupported s!"anthropic delta `{deltaType}` not supported in v1"))
      else (text.toList.map (.delta st.id), .ok st)
  | .messageDelta (some reason) =>
      ([], .ok { st with finish := AnthropicMap.mapStopReason (some reason) })
  | .messageDelta none => ([], .ok st)
  | .messageStop => (st.terminal, .ok { st with doneSent := true })
  | .other => ([], .ok st)

/-- Translate events one after the other, until one ends the stream. -/
def translateEvents (st : Translator) : List Reading → List Frame × Except Error Translator
  | [] => ([], .ok st)
  | r :: rs =>
      match translateEvent st r with
      | (frames, .error e) => (frames, .error e)
      | (frames, .ok st') =>
          let (more, result) := translateEvents st' rs
          (frames ++ more, result)

/-- The loop of `translate` over the upstream's items. -/
def translateFrom : SseParser → Translator → List (Except Error Bytes) → List (Except Error Frame)
  | _, st, [] => if st.doneSent then [] else st.terminal.map .ok
  | _, _, .error e :: _ => [.error e]
  | parser, st, .ok bytes :: rest =>
      match parser.push bytes with
      | .error e => [.error e]
      | .ok (parser', events) =>
          let (frames, result) := translateEvents st (events.map (readEvent serde))
          frames.map .ok ++
            match result with
            | .error e => [.error e]
            | .ok st' => translateFrom parser' st' rest

/-- The frames of the translated stream, up to and including the error that ends it. -/
def translateFrames (upstream : List (Except Error Bytes)) : List (Except Error Frame) :=
  translateFrom serde .fresh .fresh upstream

/-- Translate an upstream byte stream into a stream of byte frames. -/
def translate (upstream : List (Except Error Bytes)) (model : String) :
    List (Except Error Bytes) :=
  (translateFrames serde upstream).map fun item => item.map (Frame.bytes serde model)

/-! ## What the translator gets to see -/

/-- The events a parser delivers, and the error the upstream ends with, if it does: its own, or
that of a line that is not UTF-8. -/
def deliveredFrom : SseParser → List (Except Error Bytes) → List SseEvent × Option Error
  | _, [] => ([], none)
  | _, .error e :: _ => ([], some e)
  | parser, .ok bytes :: rest =>
      match parser.push bytes with
      | .error e => ([], some e)
      | .ok (parser', events) =>
          let (more, ending) := deliveredFrom parser' rest
          (events ++ more, ending)

/-- The delivered events, as the translator reads them. -/
def readings (upstream : List (Except Error Bytes)) : List Reading :=
  (deliveredFrom .fresh upstream).1.map (readEvent serde)

/-- How the upstream ends. -/
def ending (upstream : List (Except Error Bytes)) : Option Error :=
  (deliveredFrom .fresh upstream).2

/-- What follows the last event. -/
def Translator.conclude (st : Translator) : Option Error → List (Except Error Frame)
  | some e => [.error e]
  | none => if st.doneSent then [] else st.terminal.map .ok

/-- The items for some readings and an ending. -/
def itemsOf (st : Translator) (rs : List Reading) (ending : Option Error) :
    List (Except Error Frame) :=
  (translateEvents st rs).1.map .ok ++
    match (translateEvents st rs).2 with
    | .error e => [.error e]
    | .ok st' => st'.conclude ending

lemma translateEvents_append (st : Translator) (as bs : List Reading) :
    translateEvents st (as ++ bs) =
      match translateEvents st as with
      | (frames, .error e) => (frames, .error e)
      | (frames, .ok st') =>
          (frames ++ (translateEvents st' bs).1, (translateEvents st' bs).2) := by
  induction as generalizing st with
  | nil => rfl
  | cons r as ih =>
      rw [List.cons_append, translateEvents, translateEvents]
      rcases translateEvent st r with ⟨frames, e | st'⟩
      · rfl
      · simp only [ih]
        rcases translateEvents st' as with ⟨more, e | st''⟩
        · rfl
        · simp only [List.append_assoc]

lemma itemsOf_append (st : Translator) (as bs : List Reading) (ending : Option Error) :
    itemsOf st (as ++ bs) ending =
      (translateEvents st as).1.map .ok ++
        match (translateEvents st as).2 with
        | .error e => [.error e]
        | .ok st' => itemsOf st' bs ending := by
  unfold itemsOf
  rw [translateEvents_append]
  rcases translateEvents st as with ⟨frames, e | st'⟩
  · rfl
  · simp only [List.map_append, List.append_assoc]

lemma translateFrom_eq (parser : SseParser) (st : Translator)
    (upstream : List (Except Error Bytes)) :
    translateFrom serde parser st upstream =
      itemsOf st ((deliveredFrom parser upstream).1.map (readEvent serde))
        (deliveredFrom parser upstream).2 := by
  induction upstream generalizing parser st with
  | nil => rfl
  | cons item rest ih =>
      cases item with
      | error e => rfl
      | ok bytes =>
          rw [translateFrom, deliveredFrom]
          cases parser.push bytes with
          | error e => rfl
          | ok pushed =>
              obtain ⟨parser', events⟩ := pushed
              simp only [List.map_append, itemsOf_append, ih]

/-- The stream is the translation of the delivered events, then the ending.  The loop interleaves
the two; its result does not. -/
theorem translate_eq (upstream : List (Except Error Bytes)) :
    translateFrames serde upstream =
      itemsOf .fresh (readings serde upstream) (ending upstream) :=
  translateFrom_eq serde .fresh .fresh upstream

end AnthropicSse

end Moaray
