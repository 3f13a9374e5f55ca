import Moaray.Providers.SseShape
import Moaray.Providers.TextOnly

/-!
# Streaming and non-streaming agree

The same Messages answer can come whole or as a stream of events.  `IsMessage` says what the whole
answer holds and `Renders` which event streams are renderings of it; whatever its text is cut into
and however the stream's bytes are chunked, both translations give the caller the same id, text and
finish reason, and both refuse an answer with a block that is not text.

* `readings_render` — the events of a rendered stream are read back, however it is chunked.
* `translateEvents_blocks` — the blocks of a rendering give the deltas of their texts.
* `anthropicToOpenai_text` — the whole answer gives their concatenation.
* `stream_agrees` — the two translations agree.

A rendering is what the Messages API streams for an answer: a start with its id, for each block a
start and the pieces of its text, the stop reason and the stop, with pings and block ends anywhere
between them.  The proof goes by the blocks.  A text block turns into the deltas of its pieces and
leaves the translator as it was; the first block of another type ends the stream there, and ends
the whole translation as well.

**Design.**  The answer itself is an abstract `Message`, and both its forms are related to it: a
value by `IsMessage`, a list of events by `Renders`.  Neither translation is mentioned in the two,
so they can be read as a description of the upstream.  What the JSON library has to do, print a
payload as one line that reads back, is asked of the payloads that were sent (`WellSent`), and not
of all values.
-/

namespace Moaray

open Json Framework

namespace AnthropicSse

variable {serde : SerdeJson}

/-! ## Rendered events -/

/-- An event as the upstream sends it: its type and its payload, one line each. -/
structure SentEvent where
  name : String
  payload : Value

/-- The types of the events of a stream. -/
def eventNames : List String :=
  ["message_start", "content_block_start", "content_block_delta", "content_block_stop",
    "message_delta", "message_stop", "ping"]

def SentEvent.bytes (serde : SerdeJson) (ev : SentEvent) : Bytes :=
  utf8 ("event: " ++ ev.name ++ "\n" ++ ("data: " ++ serde.print ev.payload ++ "\n") ++ "\n")

def render (serde : SerdeJson) (evs : List SentEvent) : Bytes := evs.flatMap (SentEvent.bytes serde)

/-- The compact text of a value reads back as the value; it is one line, with no white space around
it.  Everything assumed of printing is here. -/
structure PrintsLine (serde : SerdeJson) (v : Value) : Prop where
  parse : serde.parse (utf8 (serde.print v)) = .ok v
  noLf : '\n' ∉ (serde.print v).toList
  noCr : '\r' ∉ (serde.print v).toList
  trimmed : trim (serde.print v) = serde.print v
  ne_empty : serde.print v ≠ ""

/-- An event of the stream is sent under one of its names, with a payload that prints well.  Both
halves are about this event only. -/
structure SentEvent.WellSent (serde : SerdeJson) (ev : SentEvent) : Prop where
  name : ev.name ∈ eventNames
  payload : PrintsLine serde ev.payload

/-- How the translator reads a sent event. -/
def SentEvent.reading (ev : SentEvent) : Reading := readPayload (some ev.name) ev.payload

/-! ## Reading a rendering back -/

/-- A line of text without line ends, as bytes. -/
structure OneLine (s : String) : Prop where
  noLf : '\n' ∉ s.toList
  noCr : '\r' ∉ s.toList

lemma OneLine.lf_not_mem {s : String} (h : OneLine s) : lf ∉ utf8 s := by
  intro hmem
  obtain ⟨c, hc, hnat⟩ := mem_utf8_ascii hmem (by decide)
  obtain rfl : c = '\n' := Char.toNat_inj.1 hnat
  exact h.noLf hc

lemma OneLine.readRawLine {s : String} (h : OneLine s) (cur : SseEvent) :
    readRawLine cur (utf8 s) = some (readLine cur s) := by
  have hcr : (utf8 s).getLast? ≠ some cr := by
    intro hlast
    obtain ⟨c, hc, hnat⟩ := mem_utf8_ascii (List.mem_of_getLast? hlast) (by decide)
    obtain rfl : c = '\r' := Char.toNat_inj.1 hnat
    exact h.noCr hc
  rw [AnthropicSse.readRawLine, dropCr, if_neg hcr, fromUtf8_utf8]
  rfl

lemma OneLine.append {s t : String} (hs : OneLine s) (ht : OneLine t) : OneLine (s ++ t) := by
  constructor
  · rw [String.toList_append, List.mem_append]
    exact not_or.2 ⟨hs.noLf, ht.noLf⟩
  · rw [String.toList_append, List.mem_append]
    exact not_or.2 ⟨hs.noCr, ht.noCr⟩

lemma eventName_clean {name : String} (h : name ∈ eventNames) :
    OneLine name ∧ trim name = name := by
  simp only [eventNames, List.mem_cons, List.not_mem_nil, or_false] at h
  rcases h with rfl | rfl | rfl | rfl | rfl | rfl | rfl <;>
    exact ⟨⟨by decide, by decide⟩, by decide⟩

lemma readLine_event {name : String} (hname : trim name = name) (cur : SseEvent) :
    readLine cur ("event: " ++ name) = ([], { cur with event := some name }) := by
  have hsplit : "event: " ++ name = "event:" ++ (" " ++ name) := by
    rw [← String.append_assoc]
    rfl
  have hne : "event:" ++ (" " ++ name) ≠ "" := by
    rw [Ne, String.append_eq_empty_iff]
    exact fun h => absurd h.1 (by decide)
  rw [hsplit, readLine, if_neg hne, stripPrefix_append]
  simp only [trim_space hname]

lemma readLine_data {text : String} (htext : trim text = text) {cur : SseEvent}
    (hcur : cur.data = "") :
    readLine cur ("data: " ++ text) = ([], { cur with data := text }) := by
  have hsplit : "data: " ++ text = "data:" ++ (" " ++ text) := by
    rw [← String.append_assoc]
    rfl
  have hne : "data:" ++ (" " ++ text) ≠ "" := by
    rw [Ne, String.append_eq_empty_iff]
    exact fun h => absurd h.1 (by decide)
  have hevent : stripPrefix ("data:" ++ (" " ++ text)) "event:" = none := by
    rw [stripPrefix, String.toList_append]
    rfl
  rw [hsplit, readLine, if_neg hne, hevent, stripPrefix_append]
  simp [hcur, trimStart_space htext]

/-- The lines of a sent event are read into the event. -/
lemma readLines_bytes {ev : SentEvent} (h : ev.WellSent serde) (rest : Bytes) :
    readLines readRawLine .fresh (splitLines lf (ev.bytes serde ++ rest)).1 =
      ({ event := some ev.name, data := serde.print ev.payload } ::
          (readLines readRawLine .fresh (splitLines lf rest).1).1,
        (readLines readRawLine .fresh (splitLines lf rest).1).2) := by
  obtain ⟨hname, htrim⟩ := eventName_clean h.name
  have hevent : OneLine ("event: " ++ ev.name) := .append ⟨by decide, by decide⟩ hname
  have hdata : OneLine ("data: " ++ serde.print ev.payload) :=
    .append ⟨by decide, by decide⟩ ⟨h.payload.noLf, h.payload.noCr⟩
  have hbytes : ev.bytes serde ++ rest =
      utf8 ("event: " ++ ev.name) ++ lf ::
        (utf8 ("data: " ++ serde.print ev.payload) ++ lf :: ([] ++ lf :: rest)) := by
    have hlf : utf8 "\n" = [lf] := rfl
    rw [SentEvent.bytes]
    simp only [utf8_append, hlf, List.append_assoc, List.cons_append, List.nil_append]
  have hempty : readRawLine
      { event := some ev.name, data := serde.print ev.payload } [] =
        some ([{ event := some ev.name, data := serde.print ev.payload }], .fresh) := rfl
  rw [hbytes, splitLines_line hevent.lf_not_mem, splitLines_line hdata.lf_not_mem,
    splitLines_line List.not_mem_nil, readLines, hevent.readRawLine, readLine_event htrim]
  simp only [readLines]
  rw [hdata.readRawLine, readLine_data h.payload.trimmed rfl]
  simp only [hempty, List.nil_append, List.cons_append]

lemma readLines_render {evs : List SentEvent} (h : ∀ ev ∈ evs, ev.WellSent serde) :
    readLines readRawLine .fresh (splitLines lf (render serde evs)).1 =
      (evs.map fun ev => { event := some ev.name, data := serde.print ev.payload },
        some .fresh) := by
  induction evs with
  | nil => rfl
  | cons ev evs ih =>
      obtain ⟨hev, hevs⟩ := List.forall_mem_cons.1 h
      rw [render, List.flatMap_cons, readLines_bytes hev, ← render, ih hevs]
      rfl

lemma readEvent_sent {ev : SentEvent} (h : ev.WellSent serde) :
    readEvent serde { event := some ev.name, data := serde.print ev.payload } = ev.reading := by
  have hparse : fromStr serde (serde.print ev.payload) = some ev.payload := by
    rw [fromStr, h.payload.parse]
    rfl
  simp only [readEvent, h.payload.trimmed, if_neg h.payload.ne_empty, hparse]
  rfl

/-- The events of a rendered stream are read back, however the stream is chunked.  The parser gets
the bytes of the lines whole, and each line is what was rendered. -/
theorem readings_render {evs : List SentEvent} (h : ∀ ev ∈ evs, ev.WellSent serde)
    {chunks : List Bytes} (hchunks : chunks.flatten = render serde evs) :
    readings serde (chunks.map .ok) = evs.map SentEvent.reading ∧
      ending (chunks.map .ok) = none := by
  have hfeed : feed lf readRawLine (.fresh, []) chunks = _ :=
    feed_accepted List.not_mem_nil (by rw [hchunks]; exact readLines_render h)
  rw [readings, ending, deliveredFrom_ok]
  simp only [SseParser.fresh, hfeed]
  refine ⟨?_, rfl⟩
  rw [List.map_map]
  refine List.map_congr_left fun ev hev => ?_
  rw [Function.comp_apply, readEvent_sent (h ev hev)]

/-! ## Answers and their renderings -/

/-- A block of an answer: text, or one of another type, of which nothing but the type is known. -/
inductive Block
  | text (s : String)
  | other (blockType : String)

namespace Block

def IsText : Block → Prop
  | text _ => True
  | other _ => False

/-- What a block gives to the text of the answer. -/
def content : Block → String
  | text s => s
  | other _ => ""

end Block

/-- An answer: its id, its blocks and its stop reason, whichever way it is sent. -/
structure Message where
  id : Option String
  blocks : List Block
  stopReason : Option String

def BlockValue (part : Value) : Block → Prop
  | .text s => part.get "type" = some (.string "text") ∧ part.get "text" = some (.string s)
  | .other blockType => part.get "type" = some (.string blockType) ∧ blockType ≠ "text"

/-- `resp` is the answer as it comes whole: its id, a content of its blocks in order, and its stop
reason. -/
structure IsMessage (resp : Value) (m : Message) : Prop where
  id : (resp.get "id").bind Value.asStr = m.id
  stopReason : (resp.get "stop_reason").bind Value.asStr = m.stopReason
  content : ∃ parts, resp.get "content" = some (.array parts) ∧
    List.Forall₂ BlockValue parts m.blocks

/-- The event that starts a block of some type. -/
def StartsBlock (blockType : String) (ev : SentEvent) : Prop :=
  ev.name = "content_block_start" ∧
    getIn (ev.payload.get "content_block") "type" = some (.string blockType)

/-- The event that carries a piece of a block's text. -/
def CarriesText (piece : String) (ev : SentEvent) : Prop :=
  ev.name = "content_block_delta" ∧
    getIn (ev.payload.get "delta") "type" = some (.string "text_delta") ∧
      getIn (ev.payload.get "delta") "text" = some (.string piece)

/-- The events of a block: of a text one a start and its text, cut into pieces; of another type a
start. -/
def RendersBlock : Block → List SentEvent → Prop
  | .text s, evs =>
      ∃ start deltas pieces, evs = start :: deltas ∧ StartsBlock "text" start ∧
        List.Forall₂ CarriesText pieces deltas ∧ String.join pieces = s
  | .other blockType, evs =>
      ∃ start deltas, evs = start :: deltas ∧ StartsBlock blockType start ∧ blockType ≠ "text"

/-- The event that starts the answer. -/
def StartsMessage (id : Option String) (ev : SentEvent) : Prop :=
  ev.name = "message_start" ∧
    (getIn (ev.payload.get "message") "id").bind Value.asStr = id

/-- The event that carries the stop reason. -/
def CarriesStop (stopReason : Option String) (ev : SentEvent) : Prop :=
  ev.name = "message_delta" ∧
    (getIn (ev.payload.get "delta") "stop_reason").bind Value.asStr = stopReason

/-- An event the answer does not need: a ping, or the end of a block. -/
def SentEvent.isFiller (ev : SentEvent) : Bool :=
  ev.name == "ping" || ev.name == "content_block_stop"

/-- The events are a rendering of the answer, with fillers anywhere between them: a start, the
blocks in order, the stop reason and the stop. -/
def Renders (m : Message) (evs : List SentEvent) : Prop :=
  ∃ start blocks delta stop,
    evs.filter (!·.isFiller) = start :: (blocks.flatten ++ [delta, stop]) ∧
      StartsMessage m.id start ∧ List.Forall₂ RendersBlock m.blocks blocks ∧
        CarriesStop m.stopReason delta ∧ stop.name = "message_stop"

/-! ## The events of a rendering -/

lemma reading_filler {ev : SentEvent} (h : ev.isFiller = true) : ev.reading = .other := by
  rw [SentEvent.isFiller, Bool.or_eq_true, beq_iff_eq, beq_iff_eq] at h
  rcases h with h | h
  · rw [SentEvent.reading, h]
    rfl
  · rw [SentEvent.reading, h]
    rfl

lemma itemsOf_fillers (st : Translator) (evs : List SentEvent) (ending : Option Error) :
    itemsOf st (evs.map SentEvent.reading) ending =
      itemsOf st ((evs.filter (!·.isFiller)).map SentEvent.reading) ending := by
  induction evs generalizing st with
  | nil => rfl
  | cons ev evs ih =>
      rw [List.map_cons, List.filter_cons, itemsOf_cons]
      cases h : ev.isFiller with
      | true =>
          rw [reading_filler h]
          exact ih st
      | false =>
          rw [Bool.not_false, if_pos rfl, List.map_cons, itemsOf_cons]
          simp only [ih]

lemma reading_startsMessage {id : Option String} {ev : SentEvent} (h : StartsMessage id ev) :
    ev.reading = .messageStart id := by
  obtain ⟨hname, hid⟩ := h
  rw [SentEvent.reading, hname, ← hid]
  rfl

lemma reading_startsBlock {blockType : String} {ev : SentEvent} (h : StartsBlock blockType ev) :
    ev.reading = .blockStart blockType := by
  obtain ⟨hname, htype⟩ := h
  rw [SentEvent.reading, hname]
  show Reading.blockStart _ = _
  rw [htype]
  rfl

lemma reading_carriesText {piece : String} {ev : SentEvent} (h : CarriesText piece ev) :
    ev.reading = .blockDelta "text_delta" (some piece) := by
  obtain ⟨hname, htype, htext⟩ := h
  rw [SentEvent.reading, hname]
  show Reading.blockDelta _ _ = _
  rw [htype, htext]
  rfl

lemma reading_carriesStop {stopReason : Option String} {ev : SentEvent}
    (h : CarriesStop stopReason ev) : ev.reading = .messageDelta stopReason := by
  obtain ⟨hname, hstop⟩ := h
  rw [SentEvent.reading, hname, ← hstop]
  rfl

lemma reading_stop {ev : SentEvent} (h : ev.name = "message_stop") :
    ev.reading = .messageStop := by
  rw [SentEvent.reading, h]
  rfl

lemma translateEvents_pieces {pieces : List String} {deltas : List SentEvent}
    (h : List.Forall₂ CarriesText pieces deltas) (st : Translator) :
    translateEvents st (deltas.map SentEvent.reading) =
      (pieces.map (Frame.delta st.id), .ok st) := by
  induction h with
  | nil => rfl
  | cons hpiece _ ih =>
      rw [List.map_cons, reading_carriesText hpiece, translateEvents]
      simp only [translateEvent, ne_eq, not_true_eq_false, if_false, ih]
      rfl

lemma translateEvents_text {s : String} {evs : List SentEvent}
    (h : RendersBlock (.text s) evs) (st : Translator) :
    ∃ pieces : List String, String.join pieces = s ∧
      translateEvents st (evs.map SentEvent.reading) =
        (pieces.map (Frame.delta st.id), .ok st) := by
  obtain ⟨start, deltas, pieces, rfl, hstart, hdeltas, hjoin⟩ := h
  refine ⟨pieces, hjoin, ?_⟩
  rw [List.map_cons, reading_startsBlock hstart, translateEvents]
  simp only [translateEvent, ne_eq, not_true_eq_false, if_false, List.nil_append]
  rw [translateEvents_pieces hdeltas]

/-- A block of another type ends the stream, with an error and without another frame. -/
lemma translateEvents_other {blockType : String} {evs : List SentEvent}
    (h : RendersBlock (.other blockType) evs) (st : Translator) :
    ∃ msg, translateEvents st (evs.map SentEvent.reading) = ([], .error (.unsupported msg)) := by
  obtain ⟨start, deltas, rfl, hstart, htype⟩ := h
  rw [List.map_cons, reading_startsBlock hstart, translateEvents]
  simp only [translateEvent, if_pos htype]
  exact ⟨_, rfl⟩

/-- A block that is not the first is one of the rest. -/
lemma exists_other_rest {s : String} {blocks : List Block}
    (h : ∃ b ∈ Block.text s :: blocks, ¬ b.IsText) : ∃ b ∈ blocks, ¬ b.IsText := by
  obtain ⟨b, hmem, hnot⟩ := h
  rcases List.mem_cons.1 hmem with rfl | hmem
  · exact (hnot trivial).elim
  · exact ⟨b, hmem, hnot⟩

lemma translateEvents_blocks {blocks : List Block} {evs : List (List SentEvent)}
    (h : List.Forall₂ RendersBlock blocks evs) (htext : ∀ b ∈ blocks, b.IsText)
    (st : Translator) :
    ∃ pieces : List String, String.join pieces = String.join (blocks.map Block.content) ∧
      translateEvents st (evs.flatten.map SentEvent.reading) =
        (pieces.map (Frame.delta st.id), .ok st) := by
  induction h with
  | nil => exact ⟨[], rfl, rfl⟩
  | @cons b evs blocks rest hb _ ih =>
      obtain ⟨hbtext, hrest⟩ := List.forall_mem_cons.1 htext
      cases b with
      | other blockType => exact hbtext.elim
      | text s =>
          obtain ⟨first, hfirst, hhead⟩ := translateEvents_text hb st
          obtain ⟨more, hmore, htail⟩ := ih hrest
          refine ⟨first ++ more, ?_, ?_⟩
          · rw [String.join_append, hfirst, hmore, List.map_cons, String.join_cons]
            rfl
          · rw [List.flatten_cons, List.map_append, translateEvents_append, hhead]
            simp only [htail, List.map_append]

/-- A block of another type ends the stream after the deltas of the texts before it. -/
lemma translateEvents_blocks_other {blocks : List Block} {evs : List (List SentEvent)}
    (h : List.Forall₂ RendersBlock blocks evs) (hother : ∃ b ∈ blocks, ¬ b.IsText)
    (st : Translator) :
    ∃ (pieces : List String) (msg : String),
      translateEvents st (evs.flatten.map SentEvent.reading) =
        (pieces.map (Frame.delta st.id), .error (.unsupported msg)) := by
  induction h with
  | nil => exact absurd hother (by simp)
  | @cons b evs blocks rest hb _ ih =>
      rw [List.flatten_cons, List.map_append, translateEvents_append]
      cases b with
      | other blockType =>
          obtain ⟨msg, hmsg⟩ := translateEvents_other hb st
          rw [hmsg]
          exact ⟨[], msg, rfl⟩
      | text s =>
          obtain ⟨first, -, hhead⟩ := translateEvents_text hb st
          obtain ⟨more, msg, htail⟩ := ih (exists_other_rest hother)
          rw [hhead]
          exact ⟨first ++ more, msg, by simp only [htail, List.map_append]⟩

/-! ## The whole answer -/

/-- The parts of an answer pass when its blocks are texts. -/
lemma partsPass_iff {parts : List Value} {blocks : List Block}
    (h : List.Forall₂ BlockValue parts blocks) :
    AnthropicMap.PartsPass parts ↔ ∀ b ∈ blocks, b.IsText := by
  induction h with
  | nil => simp [AnthropicMap.PartsPass]
  | @cons part b parts blocks hb _ ih =>
      rw [List.forall_mem_cons, ← ih, AnthropicMap.PartsPass, List.forall_mem_cons]
      refine and_congr ?_ Iff.rfl
      cases b with
      | text s =>
          obtain ⟨htype, -⟩ := hb
          simp [htype, Value.asStr, Block.IsText]
      | other blockType =>
          obtain ⟨htype, hne⟩ := hb
          simp [htype, Value.asStr, Block.IsText, hne]

lemma map_partText {parts : List Value} {blocks : List Block}
    (h : List.Forall₂ BlockValue parts blocks) (htext : ∀ b ∈ blocks, b.IsText) :
    parts.map AnthropicMap.partText = blocks.map Block.content := by
  induction h with
  | nil => rfl
  | @cons part b parts blocks hb _ ih =>
      obtain ⟨hbtext, hrest⟩ := List.forall_mem_cons.1 htext
      cases b with
      | other blockType => exact hbtext.elim
      | text s =>
          obtain ⟨-, hs⟩ := hb
          rw [List.map_cons, List.map_cons, ih hrest, AnthropicMap.partText, hs]
          rfl

/-- What a caller learns from a whole answer: its id, its text and its finish reason, each at its
place in the completion. -/
structure Answers (out : Value) (id text reason : String) : Prop where
  id : out.get "id" = some (.string id)
  choice : ∃ choice message, out.get "choices" = some (.array [choice]) ∧
    choice.get "message" = some message ∧ message.get "content" = some (.string text) ∧
      choice.get "finish_reason" = some (.string reason)

/-- The id both paths give: that of the answer, or a fixed one when it has none. -/
def Message.idOut (m : Message) : String := m.id.getD "chatcmpl-anthropic"

/-- The finish reason both paths give. -/
def Message.finishOut (m : Message) : String :=
  (AnthropicMap.mapStopReason m.stopReason).getD "stop"

lemma anthropicToOpenai_text {resp : Value} {m : Message} (h : IsMessage resp m)
    (htext : ∀ b ∈ m.blocks, b.IsText) (model : String) :
    ∃ out, AnthropicMap.anthropicToOpenai resp model = .ok out ∧
      Answers out m.idOut (String.join (m.blocks.map Block.content)) m.finishOut := by
  obtain ⟨parts, hparts, hblocks⟩ := h.content
  rw [AnthropicMap.anthropicToOpenai, h.id, h.stopReason, hparts]
  show ∃ out, (AnthropicMap.partsToText _ parts >>= _) = _ ∧ _
  rw [AnthropicMap.partsToText_ok_iff.2 ⟨(partsPass_iff hblocks).2 htext, rfl⟩,
    map_partText hblocks htext]
  have hget : ∀ fields key, Value.get (.object (Map.ofFields fields)) key =
      Map.get fields.reverse key := fun fields key => Map.get_ofFields fields key
  exact ⟨_, rfl, hget _ _, _, _, hget _ _, hget _ _, hget _ _, hget _ _⟩

lemma anthropicToOpenai_other {resp : Value} {m : Message} (h : IsMessage resp m)
    (hother : ∃ b ∈ m.blocks, ¬ b.IsText) (model : String) :
    ∃ msg, AnthropicMap.anthropicToOpenai resp model = .error (.unsupported msg) := by
  obtain ⟨parts, hparts, hblocks⟩ := h.content
  rw [AnthropicMap.anthropicToOpenai, hparts]
  show ∃ msg, (AnthropicMap.partsToText _ parts >>= _) = _
  cases hparts' : AnthropicMap.partsToText
      (fun ty => s!"anthropic content block `{ty}` not supported in v1") parts with
  | ok text =>
      have hpass := (partsPass_iff hblocks).1 (AnthropicMap.partsToText_ok_iff.1 hparts').1
      obtain ⟨b, hmem, hnot⟩ := hother
      exact absurd (hpass b hmem) hnot
  | error e =>
      obtain ⟨msg, rfl⟩ := AnthropicMap.partsToText_error hparts'
      exact ⟨msg, rfl⟩

/-! ## Agreement -/

variable {evs : List SentEvent} {m : Message} {chunks : List Bytes}

/-- A rendered stream: the blocks, from the start's id, then the stop. -/
lemma translateFrames_render (hsent : ∀ ev ∈ evs, ev.WellSent serde) (hrender : Renders m evs)
    (hchunks : chunks.flatten = render serde evs) :
    ∃ blocks, List.Forall₂ RendersBlock m.blocks blocks ∧
      translateFrames serde (chunks.map .ok) =
        itemsOf { Translator.fresh with id := m.idOut }
          (blocks.flatten.map SentEvent.reading ++ [.messageDelta m.stopReason, .messageStop])
          none := by
  obtain ⟨start, blocks, delta, stop, hfilter, hstart, hblocks, hdelta, hstop⟩ := hrender
  obtain ⟨hreadings, hending⟩ := readings_render hsent hchunks
  refine ⟨blocks, hblocks, ?_⟩
  rw [translate_eq, hreadings, hending, itemsOf_fillers, hfilter, List.map_cons,
    reading_startsMessage hstart, itemsOf_cons, List.map_append, List.map_cons, List.map_cons,
    List.map_nil, reading_carriesStop hdelta, reading_stop hstop]
  rfl

/-- The stop reason, and then the end of the stream: two frames, whatever the translator went
through before. -/
lemma itemsOf_stop (st : Translator) (hst : st.finish = none) (stopReason : Option String) :
    itemsOf st [.messageDelta stopReason, .messageStop] none =
      [.ok (.finish st.id ((AnthropicMap.mapStopReason stopReason).getD "stop")), .ok .done] := by
  cases stopReason with
  | none =>
      show [Except.ok (Frame.finish st.id (st.finish.getD "stop")), .ok .done] = _
      rw [hst]
      rfl
  | some reason => rfl

/-- Frames as they go out. -/
def encode (serde : SerdeJson) (model : String) (items : List (Except Error Frame)) :
    List (Except Error Bytes) :=
  items.map fun item => item.map (Frame.bytes serde model)

/-- An answer of texts gives the caller the same id, text and finish reason whether it comes whole
or as a stream; one with another block is refused as unsupported both ways. -/
theorem stream_agrees (model : String) {resp : Value} (hmsg : IsMessage resp m)
    (hrender : Renders m evs) (hsent : ∀ ev ∈ evs, ev.WellSent serde)
    (hchunks : chunks.flatten = render serde evs) :
    ((∀ b ∈ m.blocks, b.IsText) →
      ∃ out deltas id reason,
        AnthropicMap.anthropicToOpenai resp model = .ok out ∧
        translate serde (chunks.map .ok) model =
          encode serde model (deltaItems deltas ++ [.ok (.finish id reason), .ok .done]) ∧
        (∀ d ∈ deltas, d.1 = id) ∧
        Answers out id (String.join (deltas.map Prod.snd)) reason) ∧
    ((∃ b ∈ m.blocks, ¬ b.IsText) →
      ∃ deltas msg msg',
        AnthropicMap.anthropicToOpenai resp model = .error (.unsupported msg) ∧
        translate serde (chunks.map .ok) model =
          encode serde model (deltaItems deltas ++ [.error (.unsupported msg')])) := by
  obtain ⟨blocks, hblocks, hframes⟩ := translateFrames_render hsent hrender hchunks
  have hdeltas : ∀ pieces : List String,
      (pieces.map (Frame.delta m.idOut)).map Except.ok =
        deltaItems (pieces.map fun piece => (m.idOut, piece)) := by
    intro pieces
    rw [deltaItems, List.map_map, List.map_map]
    rfl
  constructor
  · intro htext
    obtain ⟨out, hout, hanswers⟩ := anthropicToOpenai_text hmsg htext model
    obtain ⟨pieces, hjoin, hpieces⟩ := translateEvents_blocks hblocks htext
      { Translator.fresh with id := m.idOut }
    refine ⟨out, pieces.map fun piece => (m.idOut, piece), m.idOut, m.finishOut, hout, ?_, ?_, ?_⟩
    · rw [translate, hframes, itemsOf_append, hpieces]
      simp only [hdeltas]
      rw [itemsOf_stop _ rfl]
      rfl
    · intro d hd
      obtain ⟨piece, -, rfl⟩ := List.mem_map.1 hd
      rfl
    · have hsnd : (pieces.map fun piece => (m.idOut, piece)).map Prod.snd = pieces := by
        rw [List.map_map]
        exact List.map_id pieces
      rw [hsnd, hjoin]
      exact hanswers
  · intro hother
    obtain ⟨msg, hmsg⟩ := anthropicToOpenai_other hmsg hother model
    obtain ⟨pieces, msg', hpieces⟩ := translateEvents_blocks_other hblocks hother
      { Translator.fresh with id := m.idOut }
    refine ⟨pieces.map fun piece => (m.idOut, piece), msg, msg', hmsg, ?_⟩
    rw [translate, hframes, itemsOf_append, hpieces]
    simp only [hdeltas]
    rfl

/-! ## A small answer -/

/-- The events of an answer that says `Hi` and was cut short, with the texts of their payloads. -/
def hiTexts : List (SentEvent × String) :=
  [(⟨"message_start", .object [("message", .object [("id", .string "msg_9")]),
      ("type", .string "message_start")]⟩,
    "\x7b\"message\":\x7b\"id\":\"msg_9\"\x7d,\"type\":\"message_start\"\x7d"),
   (⟨"content_block_start", .object
      [("content_block", .object [("text", .string ""), ("type", .string "text")]),
        ("type", .string "content_block_start")]⟩,
    "\x7b\"content_block\":\x7b\"text\":\"\",\"type\":\"text\"\x7d,"
      ++ "\"type\":\"content_block_start\"\x7d"),
   (⟨"content_block_delta", .object
      [("delta", .object [("text", .string "Hi"), ("type", .string "text_delta")]),
        ("type", .string "content_block_delta")]⟩,
    "\x7b\"delta\":\x7b\"text\":\"Hi\",\"type\":\"text_delta\"\x7d,"
      ++ "\"type\":\"content_block_delta\"\x7d"),
   (⟨"message_delta", .object
      [("delta", .object [("stop_reason", .string "max_tokens")]),
        ("type", .string "message_delta")]⟩,
    "\x7b\"delta\":\x7b\"stop_reason\":\"max_tokens\"\x7d,\"type\":\"message_delta\"\x7d"),
   (⟨"message_stop", .object [("type", .string "message_stop")]⟩,
    "\x7b\"type\":\"message_stop\"\x7d")]

def hiEvents : List SentEvent := hiTexts.map Prod.fst

/-- Prints and reads the payloads of these events. -/
def hiSerde : SerdeJson where
  parse body :=
    match hiTexts.find? fun t => utf8 t.2 = body with
    | some t => .ok t.1.payload
    | none => .error "expected value at line 1 column 1"
  print v :=
    match hiTexts.find? fun t => some t.1.name = (v.get "type").bind Value.asStr with
    | some t => t.2
    | none => "null"

def hiAnswer : Value :=
  .object [("content", .array [.object [("text", .string "Hi"), ("type", .string "text")]]),
    ("id", .string "msg_9"), ("stop_reason", .string "max_tokens")]

def hiMessage : Message where
  id := some "msg_9"
  blocks := [.text "Hi"]
  stopReason := some "max_tokens"

lemma hi_isMessage : IsMessage hiAnswer hiMessage where
  id := rfl
  stopReason := rfl
  content := ⟨_, rfl, .cons ⟨rfl, rfl⟩ .nil⟩

lemma hi_renders : Renders hiMessage hiEvents := by
  refine ⟨_, [[_, _]], _, _, rfl, ⟨rfl, rfl⟩, .cons ?_ .nil, ⟨rfl, rfl⟩, rfl⟩
  exact ⟨_, [_], ["Hi"], rfl, ⟨rfl, rfl⟩, .cons ⟨rfl, rfl, rfl⟩ .nil, rfl⟩

/-- The texts of the small answer's stream are what its payloads print as, and read back as them. -/
lemma hi_texts : ∀ t ∈ hiTexts,
    hiSerde.print t.1.payload = t.2 ∧ hiSerde.parse (utf8 t.2) = .ok t.1.payload := by
  have hparse : ∀ t ∈ hiTexts, hiSerde.parse (utf8 t.2) = .ok t.1.payload := by
    simp [hiTexts, hiSerde, utf8_inj]
  have hprint : ∀ t ∈ hiTexts, hiSerde.print t.1.payload = t.2 := by
    simp only [hiTexts, List.forall_mem_cons]
    exact ⟨rfl, rfl, rfl, rfl, rfl, List.forall_mem_nil _⟩
  exact fun t ht => ⟨hprint t ht, hparse t ht⟩

lemma hi_lines : ∀ t ∈ hiTexts, t.1.name ∈ eventNames ∧ '\n' ∉ t.2.toList ∧ '\r' ∉ t.2.toList ∧
    trim t.2 = t.2 ∧ t.2 ≠ "" := by
  have hclean : ∀ t ∈ hiTexts, '\n' ∉ t.2.toList ∧ '\r' ∉ t.2.toList := by
    simp [hiTexts]
  have hends : ∀ t ∈ hiTexts, (t.2.toList.head?.all fun c => !isWhitespace c) ∧
      t.2.toList.getLast?.all fun c => !isWhitespace c := by
    simp [hiTexts, isWhitespace]
  have htrim : ∀ t ∈ hiTexts, trim t.2 = t.2 :=
    fun t ht => trim_of_ends (hends t ht).1 (hends t ht).2
  have hrest : ∀ t ∈ hiTexts, t.1.name ∈ eventNames ∧ t.2 ≠ "" := by decide
  intro t ht
  obtain ⟨hlf, hcr⟩ := hclean t ht
  obtain ⟨hname, hne⟩ := hrest t ht
  exact ⟨hname, hlf, hcr, htrim t ht, hne⟩

lemma hi_wellSent : ∀ ev ∈ hiEvents, ev.WellSent hiSerde := by
  intro ev hev
  obtain ⟨t, ht, rfl⟩ := List.mem_map.1 hev
  obtain ⟨hprint, hparse⟩ := hi_texts t ht
  obtain ⟨hname, hlf, hcr, htrim, hne⟩ := hi_lines t ht
  refine ⟨hname, ?_, ?_, ?_, ?_, ?_⟩ <;> rw [hprint] <;> assumption

/-- The two forms of the small answer, its stream in one chunk. -/
theorem stream_agrees_hi :
    ∃ out deltas id reason,
      AnthropicMap.anthropicToOpenai hiAnswer "c" = .ok out ∧
      translate hiSerde ([render hiSerde hiEvents].map .ok) "c" =
        encode hiSerde "c" (deltaItems deltas ++ [.ok (.finish id reason), .ok .done]) ∧
      (∀ d ∈ deltas, d.1 = id) ∧
      Answers out id (String.join (deltas.map Prod.snd)) reason :=
  (stream_agrees "c" hi_isMessage hi_renders hi_wellSent (List.append_nil _)).1
    (List.forall_mem_singleton.2 trivial)

end AnthropicSse

end Moaray
