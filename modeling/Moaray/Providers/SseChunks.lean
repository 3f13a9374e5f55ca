import Moaray.Providers.AnthropicSse

/-!
# The translated stream and the network's chunks

The network cuts the upstream's bytes into chunks as it likes.  As long as every line is UTF-8 the
translated stream does not depend on the cut.  A line that is not ends the stream, and takes the
events down with it that its own chunk completed before.

* `deliveredFrom_ok` — the delivered events, in terms of the line reader.
* `translateChunks_accepted`, `feed_malformed` — without a malformed line the events are those of
  the bytes; with one, some of those before it.
* `chunks_irrelevant` — the bytes alone decide the stream exactly when no line is malformed, or the
  events before the first malformed one would not have been heard anyway.
* `event_lost_with_line` — an event that is lost with a malformed line of its chunk.

`push` returns the events of a chunk or an error, and not both, so an event is delivered only if
its chunk holds no malformed line behind it.  Two cuts of the bytes then deliver different prefixes
of the same events, all of them up to the malformed line or fewer.

**Design.**  Whether a lost event matters is a question about what it would have been translated
to.  `Silent` marks the readings that yield no frame, such as a ping or the start of a text block;
a stream that loses only those is the same stream.  The converse, that a heard one makes a
difference between some two cuts, compares the whole byte string in one chunk with its bytes one at
a time.
-/

namespace Moaray

open Json Framework

namespace AnthropicSse

variable {serde : SerdeJson} {model : String}

/-! ## Delivery and the line reader -/

lemma push_eq (parser : SseParser) (chunk : Bytes) :
    parser.push chunk =
      match pushChunk lf readRawLine (parser.cur, parser.buf) chunk with
      | some (events, cur, buf) => .ok ({ buf, cur }, events)
      | none => .error .upstreamError := by
  unfold SseParser.push pushChunk
  simp only []
  rcases readLines readRawLine parser.cur (splitLines lf (parser.buf ++ chunk)).1 with ⟨_, _ | _⟩
  · rfl
  · rfl

/-- What the chunks of an upstream that does not fail deliver, in terms of the reader of lines. -/
lemma deliveredFrom_ok (parser : SseParser) (chunks : List Bytes) :
    deliveredFrom parser (chunks.map .ok) =
      ((feed lf readRawLine (parser.cur, parser.buf) chunks).1,
        if (feed lf readRawLine (parser.cur, parser.buf) chunks).2 = none then
          some .upstreamError
        else none) := by
  induction chunks generalizing parser with
  | nil => rfl
  | cons chunk chunks ih =>
      rw [List.map_cons, deliveredFrom, push_eq]
      cases hpush : pushChunk lf readRawLine (parser.cur, parser.buf) chunk with
      | none =>
          rw [feed_cons_none hpush]
          rfl
      | some pushed =>
          obtain ⟨events, cur, buf⟩ := pushed
          rw [feed_cons_some hpush]
          simp only [ih]

/-! ## Malformed lines -/

/-- A line that is not UTF-8. -/
def Malformed (raw : Bytes) : Prop := fromUtf8 (dropCr raw) = none

/-- The complete lines of a byte string. -/
def completeLines (bs : Bytes) : List Bytes := (splitLines lf bs).1

/-- The events that are complete before the first malformed line. -/
def completedEvents (bs : Bytes) : List SseEvent :=
  (readLines readRawLine .fresh (completeLines bs)).1

/-- Reading stops at the first malformed line. -/
lemma readLines_eq_none_iff {cur : SseEvent} {lines : List Bytes} :
    (readLines readRawLine cur lines).2 = none ↔ ∃ raw ∈ lines, Malformed raw := by
  induction lines generalizing cur with
  | nil => simp [readLines]
  | cons raw lines ih =>
      rw [List.exists_mem_cons_iff, readLines]
      unfold Malformed
      cases hraw : fromUtf8 (dropCr raw) with
      | none =>
          have hstep : readRawLine cur raw = none := by rw [readRawLine, hraw]; rfl
          rw [hstep]
          simp
      | some line =>
          have hstep : readRawLine cur raw = some (readLine cur line) := by
            rw [readRawLine, hraw]
            rfl
          rw [hstep]
          show (readLines readRawLine (readLine cur line).2 lines).2 = none ↔ _
          rw [ih]
          simp [Malformed]

/-! ## Silence -/

/-- A reading that yields nothing: no frame, and no error. -/
def Reading.Silent : Reading → Prop
  | .blockStart blockType => blockType = "text"
  | .blockDelta deltaType text => deltaType = "text_delta" ∧ text = none
  | .messageStop => False
  | .messageStart _ | .messageDelta _ | .other => True

lemma itemsOf_cons (st : Translator) (r : Reading) (rs : List Reading) (ending : Option Error) :
    itemsOf st (r :: rs) ending =
      (translateEvent st r).1.map .ok ++
        match (translateEvent st r).2 with
        | .error e => [.error e]
        | .ok st' => itemsOf st' rs ending := by
  unfold itemsOf
  rw [translateEvents]
  rcases translateEvent st r with ⟨frames, e | st'⟩
  · rfl
  · simp only [List.map_append, List.append_assoc]

lemma translateEvent_silent {r : Reading} (h : r.Silent) (st : Translator) :
    ∃ st', translateEvent st r = ([], .ok st') ∧ st'.doneSent = st.doneSent := by
  cases r with
  | messageStart id => exact ⟨_, rfl, rfl⟩
  | blockStart blockType =>
      obtain rfl : blockType = "text" := h
      exact ⟨st, rfl, rfl⟩
  | blockDelta deltaType text =>
      obtain ⟨rfl, rfl⟩ := h
      exact ⟨st, rfl, rfl⟩
  | messageDelta stopReason => cases stopReason <;> exact ⟨_, rfl, rfl⟩
  | messageStop => exact h.elim
  | other => exact ⟨st, rfl, rfl⟩

/-- Silent readings leave nothing but the ending. -/
lemma itemsOf_silent {rs : List Reading} (h : ∀ r ∈ rs, r.Silent) (st : Translator) (e : Error) :
    itemsOf st rs (some e) = [.error e] := by
  induction rs generalizing st with
  | nil => rfl
  | cons r rs ih =>
      obtain ⟨hr, hrs⟩ := List.forall_mem_cons.1 h
      obtain ⟨st', hst', -⟩ := translateEvent_silent hr st
      rw [itemsOf_cons, hst']
      exact ih hrs st'

/-- A reading that is not silent is heard: as a frame, or as an error of its own. -/
lemma translateEvent_heard {r : Reading} (h : ¬ r.Silent) (st : Translator) :
    (∃ frame frames result, translateEvent st r = (frame :: frames, result)) ∨
      ∃ msg, translateEvent st r = ([], .error (.unsupported msg)) := by
  cases r with
  | messageStart id => exact (h trivial).elim
  | blockStart blockType => exact .inr ⟨_, if_pos h⟩
  | blockDelta deltaType text =>
      by_cases htype : deltaType = "text_delta"
      · cases text with
        | none => exact (h ⟨htype, rfl⟩).elim
        | some text => exact .inl ⟨.delta st.id text, [], .ok st, if_neg (not_not.2 htype)⟩
      · exact .inr ⟨_, if_pos htype⟩
  | messageDelta stopReason => exact (h trivial).elim
  | messageStop => exact .inl ⟨_, _, _, rfl⟩
  | other => exact (h trivial).elim

/-- If an upstream error is all there is, the readings before it were silent: one that was heard
would have left a frame or another error. -/
lemma silent_of_itemsOf {f : Frame → Bytes} {rs : List Reading} {st : Translator}
    (h : (itemsOf st rs (some .upstreamError)).map (fun item => item.map f) =
      [.error .upstreamError]) : ∀ r ∈ rs, r.Silent := by
  induction rs generalizing st with
  | nil => nofun
  | cons r rs ih =>
      rw [itemsOf_cons] at h
      have hr : r.Silent := by
        by_contra hnot
        rcases translateEvent_heard hnot st with ⟨frame, frames, result, heq⟩ | ⟨msg, heq⟩
        · rw [heq] at h
          cases (List.cons.inj h).1
        · rw [heq] at h
          cases (List.cons.inj h).1
      obtain ⟨st', hst', -⟩ := translateEvent_silent hr st
      rw [hst'] at h
      exact List.forall_mem_cons.2 ⟨hr, ih h⟩

/-! ## What the cut decides -/

/-- The stream of a byte string that comes in chunks. -/
def translateChunks (serde : SerdeJson) (model : String) (chunks : List Bytes) :
    List (Except Error Bytes) :=
  translate serde (chunks.map .ok) model

/-- Every way to cut a byte string into chunks gives the same stream, byte for byte. -/
def CutFree (serde : SerdeJson) (model : String) (bs : Bytes) : Prop :=
  ∀ chunks chunks' : List Bytes, chunks.flatten = bs → chunks'.flatten = bs →
    translateChunks serde model chunks = translateChunks serde model chunks'

lemma translateChunks_eq (chunks : List Bytes) :
    translateChunks serde model chunks =
      (itemsOf .fresh ((feed lf readRawLine (.fresh, []) chunks).1.map (readEvent serde))
        (if (feed lf readRawLine (.fresh, []) chunks).2 = none then some .upstreamError
          else none)).map fun item => item.map (Frame.bytes serde model) := by
  unfold translateChunks translate
  rw [translate_eq, readings, ending, deliveredFrom_ok]
  rfl

/-- Without a malformed line the stream is that of the completed events. -/
lemma translateChunks_accepted {chunks : List Bytes}
    (h : ∀ raw ∈ completeLines chunks.flatten, ¬ Malformed raw) :
    translateChunks serde model chunks =
      (itemsOf .fresh ((completedEvents chunks.flatten).map (readEvent serde)) none).map
        fun item => item.map (Frame.bytes serde model) := by
  have hsome : (readLines readRawLine .fresh (completeLines chunks.flatten)).2 ≠ none := by
    rw [Ne, readLines_eq_none_iff]
    rintro ⟨raw, hraw, hbad⟩
    exact h raw hraw hbad
  obtain ⟨cur, hcur⟩ := Option.ne_none_iff_exists'.1 hsome
  have hfeed : feed lf readRawLine (.fresh, []) chunks = _ :=
    feed_accepted List.not_mem_nil (Prod.ext rfl hcur)
  rw [translateChunks_eq, hfeed]
  rfl

/-- With one, delivery ends in an error after some of the completed events. -/
lemma feed_malformed {chunks : List Bytes}
    (h : ∃ raw ∈ completeLines chunks.flatten, Malformed raw) :
    (feed lf readRawLine (.fresh, []) chunks).1 <+: completedEvents chunks.flatten ∧
      (feed lf readRawLine (.fresh, []) chunks).2 = none :=
  feed_refused List.not_mem_nil (Prod.ext rfl (readLines_eq_none_iff.2 h))

/-- The bytes alone decide the stream exactly when no line is malformed, or all events before the
first malformed one are silent. -/
theorem chunks_irrelevant (serde : SerdeJson) (model : String) (bs : Bytes) :
    CutFree serde model bs ↔
      (∀ raw ∈ completeLines bs, ¬ Malformed raw) ∨
        ∀ ev ∈ completedEvents bs, (readEvent serde ev).Silent := by
  constructor
  · intro hcut
    by_cases hgood : ∀ raw ∈ completeLines bs, ¬ Malformed raw
    · exact .inl hgood
    · right
      have hbad : (readLines readRawLine .fresh (splitLines lf ([] ++ bs)).1) =
          (completedEvents bs, none) := by
        push Not at hgood
        exact Prod.ext rfl (readLines_eq_none_iff.2 hgood)
      -- All in one chunk, nothing is heard; byte by byte, every completed event is.
      have hsingle := feed_refused_single hbad
      have hletters := feed_refused_letters List.not_mem_nil hbad
      have hflat : (bs.map fun b => [b]).flatten = bs := by
        rw [← List.flatMap_def, List.flatMap_singleton']
      have heq := hcut (bs.map fun b => [b]) [bs] hflat (List.append_nil bs)
      rw [translateChunks_eq, translateChunks_eq, hsingle, hletters] at heq
      have hsilent := silent_of_itemsOf heq
      exact fun ev hev => hsilent _ (List.mem_map_of_mem hev)
  · rintro (hgood | hsilent) chunks chunks' rfl hflat
    · rw [translateChunks_accepted hgood, translateChunks_accepted (hflat ▸ hgood), hflat]
    · by_cases hgood : ∀ raw ∈ completeLines chunks.flatten, ¬ Malformed raw
      · rw [translateChunks_accepted hgood, translateChunks_accepted (hflat ▸ hgood), hflat]
      · push Not at hgood
        -- Whatever was delivered before the malformed line, it was silent.
        have hone : ∀ cut : List Bytes, cut.flatten = chunks.flatten →
            translateChunks serde model cut = [.error .upstreamError] := by
          intro cut hcut
          obtain ⟨hsplit, hnone⟩ := feed_malformed (hcut.symm ▸ hgood)
          rw [hcut] at hsplit
          have hrs : ∀ r ∈ (feed lf readRawLine (.fresh, []) cut).1.map (readEvent serde),
              r.Silent := by
            intro r hr
            obtain ⟨ev, hev, rfl⟩ := List.mem_map.1 hr
            exact hsilent ev (hsplit.subset hev)
          rw [translateChunks_eq, hnone, if_pos rfl, itemsOf_silent hrs]
          rfl
        rw [hone chunks rfl, hone chunks' hflat]

/-- A stream that stops, and then a line that is not UTF-8. -/
def stopThenGarbage : Bytes := utf8 "event: message_stop\ndata: \x7b\x7d\n\n" ++ [0xFF, lf]

def stopSerde : SerdeJson where
  parse body := if body = utf8 "\x7b\x7d" then .ok (.object []) else .error "expected value"
  print _ := "\x7b\x7d"

/-- The stop is relayed when it comes in a chunk of its own, and lost when it shares one with the
malformed line. -/
theorem event_lost_with_line : ¬ CutFree stopSerde "c" stopThenGarbage := by
  intro h
  have hcut := h [stopThenGarbage] [utf8 "event: message_stop\ndata: \x7b\x7d\n\n", [0xFF, lf]]
    (List.append_nil _) rfl
  have hshared : (translateChunks stopSerde "c" [stopThenGarbage]).length = 1 := rfl
  have hown : (translateChunks stopSerde "c"
      [utf8 "event: message_stop\ndata: \x7b\x7d\n\n", [0xFF, lf]]).length = 3 := rfl
  rw [hcut] at hshared
  omega

end AnthropicSse

end Moaray
