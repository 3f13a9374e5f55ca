import Moaray.Core.Compact
import Moaray.Providers.SseAgree

/-!
# The frames a client reads back

The frames of a translated stream go out as bytes, and the network cuts them where it likes.  A
client parses them with the same line rules, and makes of each event what an OpenAI chunk says.

* `Seen`, `seen` — what a client sees in an event.
* `meaning` — what a frame is meant to say; `seen_event`: a client sees just that.
* `readLines_frames` — the lines of some frames are their events.
* `frames_read_back` — what a client sees of a stream, however it is cut.

This closes the circle of the translation: what comes in from one event stream goes out as another,
and a parser of the same kind on the other side gets back exactly the frames that were made, in
order and with nothing between them.  Cuts inside a line, or inside a character of a line, make no
difference, since the parser keeps the bytes of an unfinished line.

**Design.**  The client is a definition of this module, not of the gateway: it is the least a
reader of an OpenAI stream can do.  What is assumed of the JSON library is asked of the frames of
the stream at hand: their texts are one line and read back (`Prints`), and `[DONE]` is no JSON
text.
-/

namespace Moaray

open Json Framework

namespace AnthropicSse

/-! ## A client -/

/-- What a client of the OpenAI stream sees in an event: a chunk with its model, id, text and finish
reason, or the end. -/
inductive Seen
  | chunk (model id : String) (content finish : Option String)
  | done
  deriving DecidableEq, Repr

/-- An event ends the stream, or holds a chunk with one choice. -/
def seen (serde : SerdeJson) (ev : SseEvent) : Option Seen :=
  if ev.data = "[DONE]" then some .done
  else do
    let chunk ← fromStr serde ev.data
    let model ← (chunk.get "model").bind Value.asStr
    let id ← (chunk.get "id").bind Value.asStr
    let choice ← ((chunk.get "choices").bind Value.asArray).bind List.head?
    some (.chunk model id ((getIn (choice.get "delta") "content").bind Value.asStr)
      ((choice.get "finish_reason").bind Value.asStr))

namespace Frame

/-- What a frame is meant to say. -/
def meaning (model : String) : Frame → Seen
  | .delta id content => .chunk model id (some content) none
  | .finish id reason => .chunk model id none (some reason)
  | .done => .done

def payload (model : String) : Frame → Option Value
  | .delta id content => some (openaiDeltaFrame model id content)
  | .finish id reason => some (openaiFinishFrame model id reason)
  | .done => none

/-- The text after `data: `. -/
def text (serde : SerdeJson) (model : String) (frame : Frame) : String :=
  ((frame.payload model).map serde.print).getD "[DONE]"

/-- The event a parser reads a frame into. -/
def event (serde : SerdeJson) (model : String) (frame : Frame) : SseEvent where
  event := none
  data := frame.text serde model

end Frame

variable {serde : SerdeJson} {model : String} {frame : Frame}

/-- The JSON of a frame prints as one line. -/
def Prints (serde : SerdeJson) (model : String) (frame : Frame) : Prop :=
  ∀ v, frame.payload model = some v → PrintsLine serde v

lemma bytes_eq (frame : Frame) :
    frame.bytes serde model = utf8 ("data: " ++ frame.text serde model ++ "\n\n") := by
  cases frame <;> rfl

lemma Prints.text (h : Prints serde model frame) :
    OneLine (frame.text serde model) ∧ trim (frame.text serde model) = frame.text serde model ∧
      frame.text serde model ≠ "" := by
  unfold Frame.text
  cases hpayload : frame.payload model with
  | none =>
      show OneLine "[DONE]" ∧ trim "[DONE]" = "[DONE]" ∧ "[DONE]" ≠ ""
      exact ⟨⟨by decide, by decide⟩, by decide, by decide⟩
  | some v =>
      have hprints := h v hpayload
      exact ⟨⟨hprints.noLf, hprints.noCr⟩, hprints.trimmed, hprints.ne_empty⟩

/-- The lines of a frame are read into its event, and nothing of it is left: the parser is as fresh
as before. -/
lemma readLines_frame (h : Prints serde model frame) (rest : Bytes) :
    readLines readRawLine .fresh (splitLines lf (frame.bytes serde model ++ rest)).1 =
        (frame.event serde model :: (readLines readRawLine .fresh (splitLines lf rest).1).1,
          (readLines readRawLine .fresh (splitLines lf rest).1).2) ∧
      (splitLines lf (frame.bytes serde model ++ rest)).2 = (splitLines lf rest).2 := by
  obtain ⟨hline, htrim, hne⟩ := h.text
  have hdata : OneLine ("data: " ++ frame.text serde model) := .append ⟨by decide, by decide⟩ hline
  have hbytes : frame.bytes serde model ++ rest =
      utf8 ("data: " ++ frame.text serde model) ++ lf :: ([] ++ lf :: rest) := by
    have hlf : utf8 "\n\n" = [lf, lf] := rfl
    rw [bytes_eq]
    simp only [utf8_append, hlf, List.append_assoc, List.cons_append, List.nil_append]
  have hempty : readRawLine (frame.event serde model) [] =
      some ([frame.event serde model], .fresh) := by
    show some (readLine (frame.event serde model) "") = _
    rw [readLine, if_pos rfl, if_pos (.inr hne)]
  have hread : readLine SseEvent.fresh ("data: " ++ frame.text serde model) =
      ([], frame.event serde model) := readLine_data htrim rfl
  rw [hbytes, splitLines_line hdata.lf_not_mem, splitLines_line List.not_mem_nil, readLines,
    hdata.readRawLine, hread]
  simp only [readLines, hempty, List.nil_append, List.cons_append, and_self]

lemma readLines_frames {frames : List Frame} (h : ∀ frame ∈ frames, Prints serde model frame) :
    readLines readRawLine .fresh (splitLines lf (frames.flatMap (Frame.bytes serde model))).1 =
        (frames.map (Frame.event serde model), some .fresh) ∧
      (splitLines lf (frames.flatMap (Frame.bytes serde model))).2 = [] := by
  induction frames with
  | nil => exact ⟨rfl, rfl⟩
  | cons frame frames ih =>
      obtain ⟨hframe, hframes⟩ := List.forall_mem_cons.1 h
      obtain ⟨hevents, hleft⟩ := ih hframes
      obtain ⟨hfirst, hrest⟩ :=
        readLines_frame hframe (frames.flatMap (Frame.bytes serde model))
      rw [List.flatMap_cons, hfirst, hrest, hevents, hleft]
      exact ⟨rfl, rfl⟩

/-- The JSON of a chunk with one choice: the frames differ in its delta and its finish reason. -/
def chunkFrame (model id : String) (delta reason : Value) : Value :=
  .object (Map.ofFields
    [("id", .string id), ("object", .string "chat.completion.chunk"), ("model", .string model),
      ("choices", .array [.object (Map.ofFields
        [("index", .ofU64 0), ("delta", delta), ("finish_reason", reason)])])])

/-- A client sees the delta and the finish reason of a chunk. -/
lemma seen_chunk {id : String} {delta reason : Value}
    (h : PrintsLine serde (chunkFrame model id delta reason))
    (hdone : ∀ v, serde.parse (utf8 "[DONE]") ≠ .ok v) :
    seen serde { event := none, data := serde.print (chunkFrame model id delta reason) } =
      some (.chunk model id ((delta.get "content").bind Value.asStr) reason.asStr) := by
  have hne : serde.print (chunkFrame model id delta reason) ≠ "[DONE]" := by
    intro hprint
    refine hdone (chunkFrame model id delta reason) ?_
    rw [← hprint, h.parse]
  have hparse : fromStr serde (serde.print (chunkFrame model id delta reason)) =
      some (chunkFrame model id delta reason) := by
    rw [fromStr, h.parse]
    rfl
  have hget : ∀ key, (chunkFrame model id delta reason).get key = _ :=
    fun key => Map.get_ofFields _ key
  have hchoice : ∀ key, (Value.object (Map.ofFields
      [("index", .ofU64 0), ("delta", delta), ("finish_reason", reason)])).get key = _ :=
    fun key => Map.get_ofFields _ key
  unfold seen
  simp only [if_neg hne, hparse, Option.bind_eq_bind, Option.bind_some, hget]
  show some (Seen.chunk model id _ _) = _
  simp only [hchoice]
  rfl

/-- A client sees in the event of a frame what the frame is meant to say. -/
lemma seen_event (h : Prints serde model frame)
    (hdone : ∀ v, serde.parse (utf8 "[DONE]") ≠ .ok v) :
    seen serde (frame.event serde model) = some (frame.meaning model) := by
  cases frame with
  | done => rfl
  | delta id content => exact seen_chunk (h _ rfl) hdone
  | finish id reason => exact seen_chunk (h _ rfl) hdone

/-! ## Whole streams -/

/-- The items of a stream before the error that may end it. -/
def relayed {α : Type} (items : List (Except Error α)) : List α := items.filterMap Except.toOption

lemma flatten_relayed (upstream : List (Except Error Bytes)) (model : String) :
    (relayed (translate serde upstream model)).flatten =
      (relayed (translateFrames serde upstream)).flatMap (Frame.bytes serde model) := by
  have hmap : relayed (translate serde upstream model) =
      (relayed (translateFrames serde upstream)).map (Frame.bytes serde model) := by
    unfold relayed translate
    rw [List.filterMap_map, List.map_filterMap]
    refine List.filterMap_congr fun item _ => ?_
    cases item <;> rfl
  rw [hmap, List.flatMap_def]

/-- **What a client reads back.**  Whatever the upstream sent, and however the relayed bytes are
cut on their way: a client that parses them sees the frames of the translation, all of them, one
event for each, in their order. -/
theorem frames_read_back (upstream : List (Except Error Bytes)) (model : String)
    (hprints : ∀ frame ∈ relayed (translateFrames serde upstream), Prints serde model frame)
    (hdone : ∀ v, serde.parse (utf8 "[DONE]") ≠ .ok v) {chunks : List Bytes}
    (hchunks : chunks.flatten = (relayed (translate serde upstream model)).flatten) :
    ∃ events, deliveredFrom .fresh (chunks.map .ok) = (events, none) ∧
      events.map (seen serde) =
        (relayed (translateFrames serde upstream)).map fun frame => some (frame.meaning model) := by
  rw [flatten_relayed] at hchunks
  obtain ⟨hevents, hleft⟩ := readLines_frames hprints
  have hfeed : feed lf readRawLine (.fresh, []) chunks = _ :=
    feed_accepted List.not_mem_nil (by rw [hchunks]; exact hevents)
  refine ⟨(relayed (translateFrames serde upstream)).map (Frame.event serde model), ?_, ?_⟩
  · rw [deliveredFrom_ok]
    simp only [SseParser.fresh, hfeed]
    rfl
  · rw [List.map_map]
    exact List.map_congr_left fun frame hframe => seen_event (hprints frame hframe) hdone

/-! ### A stream that is cut inside a character -/

/-- An object whose compact text is in the table prints as one line, which is read back. -/
lemma printsLine_ofTexts {texts : List (String × Value)} (hnodup : (texts.map Prod.fst).Nodup)
    {fields : Map} (h : (printValue (.object fields), .object fields) ∈ texts) :
    PrintsLine (.ofTexts texts) (.object fields) where
  parse := SerdeJson.parse_ofTexts hnodup h
  noLf hlf := absurd (visible_printValue _ _ hlf) (by decide)
  noCr hcr := absurd (visible_printValue _ _ hcr) (by decide)
  trimmed := trim_printValue_object fields
  ne_empty hempty := by
    obtain ⟨inner, hinner⟩ := toList_printValue_object fields
    have hprint : printValue (.object fields) = "" := hempty
    rw [hprint] at hinner
    cases hinner

/-- The payloads of an upstream that says `né` and stops. -/
def spokenEvents : List (String × Value) :=
  [("\x7b\"type\":\"content_block_delta\"," ++
      "\"delta\":\x7b\"type\":\"text_delta\",\"text\":\"né\"\x7d\x7d",
    .object [("delta", .object [("text", .string "né"), ("type", .string "text_delta")]),
      ("type", .string "content_block_delta")]),
   ("\x7b\"type\":\"message_stop\"\x7d", .object [("type", .string "message_stop")])]

/-- The text of the frame that relays it. -/
def spokenText : String :=
  "\x7b\"choices\":[\x7b\"delta\":\x7b\"content\":\"né\"\x7d," ++
    "\"finish_reason\":null,\"index\":0\x7d]," ++
    "\"id\":\"chatcmpl-anthropic\",\"model\":\"c\",\"object\":\"chat.completion.chunk\"\x7d"

/-- The text of the frame that ends the stream. -/
def stoppedText : String :=
  "\x7b\"choices\":[\x7b\"delta\":\x7b\x7d,\"finish_reason\":\"stop\",\"index\":0\x7d]," ++
    "\"id\":\"chatcmpl-anthropic\",\"model\":\"c\",\"object\":\"chat.completion.chunk\"\x7d"

def spokenFrames : List (String × Value) :=
  [(spokenText, openaiDeltaFrame "c" "chatcmpl-anthropic" "né"),
    (stoppedText, openaiFinishFrame "c" "chatcmpl-anthropic" "stop")]

def spokenSerde : SerdeJson := .ofTexts (spokenEvents ++ spokenFrames)

def spokenBytes : Bytes :=
  utf8 ("event: content_block_delta\ndata: \x7b\"type\":\"content_block_delta\",\"delta\":" ++
    "\x7b\"type\":\"text_delta\",\"text\":\"né\"\x7d\x7d\n\n" ++
    "event: message_stop\ndata: \x7b\"type\":\"message_stop\"\x7d\n\n")

def relayedBytes : Bytes :=
  utf8 ("data: " ++ spokenText ++ "\n\n") ++ utf8 ("data: " ++ stoppedText ++ "\n\n") ++
    utf8 "data: [DONE]\n\n"

lemma frames_spoken : relayed (translateFrames spokenSerde [.ok spokenBytes]) =
    [.delta "chatcmpl-anthropic" "né", .finish "chatcmpl-anthropic" "stop", .done] := by
  decide +kernel

lemma print_spoken :
    printValue (openaiDeltaFrame "c" "chatcmpl-anthropic" "né") = spokenText ∧
      printValue (openaiFinishFrame "c" "chatcmpl-anthropic" "stop") = stoppedText := by
  decide +kernel

lemma prints_spoken {frame : Frame}
    (h : frame ∈ relayed (translateFrames spokenSerde [.ok spokenBytes])) :
    Prints spokenSerde "c" frame := by
  have hnodup : ((spokenEvents ++ spokenFrames).map Prod.fst).Nodup := by decide +kernel
  obtain ⟨hdelta, hfinish⟩ := print_spoken
  have hdeltaMem : (printValue (openaiDeltaFrame "c" "chatcmpl-anthropic" "né"),
      openaiDeltaFrame "c" "chatcmpl-anthropic" "né") ∈ spokenEvents ++ spokenFrames := by
    rw [hdelta]
    exact List.mem_append_right _ List.mem_cons_self
  have hfinishMem : (printValue (openaiFinishFrame "c" "chatcmpl-anthropic" "stop"),
      openaiFinishFrame "c" "chatcmpl-anthropic" "stop") ∈ spokenEvents ++ spokenFrames := by
    rw [hfinish]
    exact List.mem_append_right _ (List.mem_cons_of_mem _ List.mem_cons_self)
  rw [frames_spoken] at h
  rcases List.mem_cons.1 h with rfl | h
  · rintro v ⟨⟩
    exact printsLine_ofTexts hnodup hdeltaMem
  · rcases List.mem_pair.1 h with rfl | rfl
    · rintro v ⟨⟩
      exact printsLine_ofTexts hnodup hfinishMem
    · rintro v ⟨⟩

/-- What the client gets is cut between the two bytes of the `é`. -/
theorem frames_read_back_spoken :
    ∃ events, deliveredFrom .fresh
        ([relayedBytes.take 41, relayedBytes.drop 41].map .ok) = (events, none) ∧
      relayedBytes[40]? = some 0xC3 ∧ relayedBytes[41]? = some 0xA9 ∧
      events.map (seen spokenSerde) =
        [some (.chunk "c" "chatcmpl-anthropic" (some "né") none),
          some (.chunk "c" "chatcmpl-anthropic" none (some "stop")), some .done] := by
  have hdone : ∀ v, spokenSerde.parse (utf8 "[DONE]") ≠ .ok v := by
    intro v hv
    have htexts : ∀ text ∈ spokenEvents ++ spokenFrames, text.1 ≠ "[DONE]" := by decide +kernel
    rw [spokenSerde] at hv
    obtain ⟨s, hmem, hs⟩ := SerdeJson.exists_of_parse_ofTexts hv
    exact htexts _ hmem (utf8_inj.1 hs).symm
  have hchunks : [relayedBytes.take 41, relayedBytes.drop 41].flatten =
      (relayed (translate spokenSerde [.ok spokenBytes] "c")).flatten := by
    obtain ⟨hdelta, hfinish⟩ := print_spoken
    rw [flatten_relayed, frames_spoken, List.flatten_cons, List.flatten_singleton,
      List.take_append_drop, relayedBytes, ← hdelta, ← hfinish]
    rfl
  obtain ⟨events, hevents, hseen⟩ :=
    frames_read_back [.ok spokenBytes] "c" (fun _ => prints_spoken) hdone hchunks
  refine ⟨events, hevents, by decide +kernel, by decide +kernel, ?_⟩
  rw [hseen, frames_spoken]
  rfl

end AnthropicSse

end Moaray
