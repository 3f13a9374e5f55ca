import Moaray.Providers.SseChunks

/-!
# The parser's loop is a fold over bytes

`SseParser.push` appends a chunk to the buffer and drains the buffer line by line.  Here it is the
source's loop, with the events it appends to `out` and the parser it leaves behind on an error as
well.

* `drainLine_cases`, `induct_lines` — what one turn of the loop does, and induction over its turns.
* `drainLines_append` — bytes that come later do not change the turns before them.
* `push_eq_pushInto` — the function the translation uses is the loop, its `out` dropped on an
  error.
* `push_folds` — pushing two chunks is pushing them joined, and where every byte goes.
* `pushAll_agrees`, `pushAll_bytes` — any number of chunks, and byte by byte.

A turn drains one complete line, so it shortens the buffer, and the loop ends with a buffer that
holds no line end.  What follows a line does not change how the line is read; so the turns of a
longer buffer begin with those of a shorter one, and the loop over two joined chunks is the loop
over the first followed by the loop over the second.

**Design.**  On an error the two ways to push leave different parsers behind: one keeps the rest of
the joined bytes, the other never saw the second chunk.  `Pushed.Agrees` therefore compares the
parsers only where nothing failed, and the events and the failure always.

`Accounts` says where the bytes are after a push: the complete lines went into events or into the
event being read, a line that is no text stopped the loop and is gone, and everything behind it is
in the buffer.
-/

namespace Moaray

open Framework

namespace AnthropicSse

/-! ## The loop -/

/-- What a push returns, and what it leaves of the parser and of `out`; on an error the two are
still there. -/
structure Pushed where
  result : Except Error Unit
  parser : SseParser
  out : List SseEvent

namespace SseParser

/-- One turn of the loop: drain the first complete line, decode it and take it in.  `none` ends
the loop; a line that is not UTF-8 is drained, and gives no events but the error. -/
def drainLine (parser : SseParser) : Option (SseParser × Option (List SseEvent)) :=
  (parser.buf.findIdx? (· == lf)).map fun nl =>
    let raw := (parser.buf.take (nl + 1)).dropLast
    let buf := parser.buf.drop (nl + 1)
    match fromUtf8 (dropCr raw) with
    | none => ({ parser with buf }, none)
    | some line =>
        let (events, cur) := readLine parser.cur line
        ({ buf, cur }, some events)

/-- Every turn shortens the buffer. -/
lemma length_drainLine {parser next : SseParser} {read : Option (List SseEvent)}
    (h : parser.drainLine = some (next, read)) : next.buf.length < parser.buf.length := by
  obtain ⟨nl, hnl, hnext⟩ := Option.map_eq_some_iff.1 h
  have hbuf : next.buf = parser.buf.drop (nl + 1) := by
    simp only [] at hnext
    split at hnext
    · rw [← (Prod.mk.inj hnext).1]
    · rw [← (Prod.mk.inj hnext).1]
  have hlt : nl < parser.buf.length := (List.findIdx?_eq_some_iff_getElem.1 hnl).1
  rw [hbuf, List.length_drop]
  omega

/-- The loop of `push`. -/
def drainLines (parser : SseParser) (out : List SseEvent) : Pushed :=
  match _ : parser.drainLine with
  | none => { result := .ok (), parser, out }
  | some (next, none) => { result := .error .upstreamError, parser := next, out }
  | some (next, some events) => drainLines next (out ++ events)
termination_by parser.buf.length
decreasing_by exact length_drainLine ‹_›

/-- Feed raw bytes, appending newly completed events to `out`. -/
def pushInto (parser : SseParser) (chunk : Bytes) (out : List SseEvent) : Pushed :=
  drainLines { parser with buf := parser.buf ++ chunk } out

/-- Push chunk after chunk, until one fails. -/
def pushAll (parser : SseParser) (chunks : List Bytes) (out : List SseEvent) : Pushed :=
  match chunks with
  | [] => { result := .ok (), parser, out }
  | chunk :: chunks =>
      let pushed := parser.pushInto chunk out
      match pushed.result with
      | .ok () => pushed.parser.pushAll chunks pushed.out
      | .error _ => pushed

/-! ## One turn -/

lemma findIdx?_lf {bs : Bytes} (h : lf ∉ bs) : bs.findIdx? (· == lf) = none := by
  rw [List.findIdx?_eq_none_iff]
  intro b hb
  simpa using fun heq : b = lf => h (heq ▸ hb)

lemma drainLine_rest {parser : SseParser} (h : lf ∉ parser.buf) : parser.drainLine = none := by
  rw [drainLine, findIdx?_lf h, Option.map_none]

/-- The turn of a complete line, by what the line reader makes of it. -/
lemma drainLine_line {raw : Bytes} (h : lf ∉ raw) (buf : Bytes) (cur : SseEvent) :
    drainLine { buf := raw ++ lf :: buf, cur } =
      match readRawLine cur raw with
      | none => some ({ buf, cur }, none)
      | some (events, cur') => some ({ buf, cur := cur' }, some events) := by
  have hindex : (raw ++ lf :: buf).findIdx? (· == lf) = some raw.length := by
    rw [List.findIdx?_append, findIdx?_lf h, Option.none_or, List.findIdx?_cons]
    simp
  have hraw : ((raw ++ lf :: buf).take (raw.length + 1)).dropLast = raw := by
    rw [List.take_append, List.take_of_length_le (Nat.le_succ _), Nat.add_sub_cancel_left]
    simp
  have hbuf : (raw ++ lf :: buf).drop (raw.length + 1) = buf := by
    rw [List.drop_append, List.drop_of_length_le (Nat.le_succ _), Nat.add_sub_cancel_left]
    rfl
  rw [drainLine, hindex, Option.map_some]
  simp only [hraw, hbuf]
  unfold readRawLine
  cases fromUtf8 (dropCr raw) with
  | none => rfl
  | some line => rfl

section Line

variable {raw buf : Bytes} {cur cur' : SseEvent} {events : List SseEvent}

lemma drainLine_refused (buf : Bytes) (h : lf ∉ raw) (hread : readRawLine cur raw = none) :
    drainLine { buf := raw ++ lf :: buf, cur } = some ({ buf, cur }, none) := by
  rw [drainLine_line h, hread]

lemma drainLine_read (buf : Bytes) (h : lf ∉ raw)
    (hread : readRawLine cur raw = some (events, cur')) :
    drainLine { buf := raw ++ lf :: buf, cur } = some ({ buf, cur := cur' }, some events) := by
  rw [drainLine_line h, hread]

variable (out : List SseEvent)

lemma drainLines_rest {parser : SseParser} (h : lf ∉ parser.buf) :
    parser.drainLines out = { result := .ok (), parser, out } := by
  have hturn := drainLine_rest h
  rw [drainLines]
  split
  next => rfl
  next hline => cases hturn.symm.trans hline
  next hline => cases hturn.symm.trans hline

lemma drainLines_refused (h : lf ∉ raw) (hread : readRawLine cur raw = none) :
    drainLines { buf := raw ++ lf :: buf, cur } out =
      { result := .error .upstreamError, parser := { buf, cur }, out } := by
  have hturn := drainLine_refused buf h hread
  rw [drainLines]
  split
  next hline => cases hturn.symm.trans hline
  next hline =>
    cases hturn.symm.trans hline
    rfl
  next hline => cases hturn.symm.trans hline

lemma drainLines_read (h : lf ∉ raw) (hread : readRawLine cur raw = some (events, cur')) :
    drainLines { buf := raw ++ lf :: buf, cur } out =
      drainLines { buf, cur := cur' } (out ++ events) := by
  have hturn := drainLine_read buf h hread
  rw [drainLines]
  split
  next hline => cases hturn.symm.trans hline
  next hline => cases hturn.symm.trans hline
  next hline =>
    cases hturn.symm.trans hline
    rfl

end Line

/-- Induction over the turns of the loop: a buffer without a line end, one whose first line is
refused, and one whose first line is taken in. -/
theorem induct_lines {motive : SseParser → Prop}
    (rest : ∀ parser : SseParser, lf ∉ parser.buf → motive parser)
    (refused : ∀ raw buf cur, lf ∉ raw → readRawLine cur raw = none →
      motive { buf := raw ++ lf :: buf, cur })
    (read : ∀ raw buf cur events cur', lf ∉ raw → readRawLine cur raw = some (events, cur') →
      motive { buf, cur := cur' } → motive { buf := raw ++ lf :: buf, cur })
    (parser : SseParser) : motive parser := by
  obtain ⟨buf, cur⟩ := parser
  induction hlength : buf.length using Nat.strongRecOn generalizing buf cur with
  | ind n ih =>
      by_cases hlf : lf ∈ buf
      · obtain ⟨raw, rest, rfl, hraw⟩ := List.eq_append_cons_of_mem hlf
        cases hread : readRawLine cur raw with
        | none => exact refused raw rest cur hraw hread
        | some read' =>
            have hshort : rest.length < n := by
              rw [← hlength, List.length_append, List.length_cons]
              omega
            exact read raw rest cur read'.1 read'.2 hraw hread (ih _ hshort rest read'.2 rfl)
      · exact rest _ hlf

/-! ## Later bytes -/

/-- The parser with more bytes in its buffer. -/
def extend (parser : SseParser) (bytes : Bytes) : SseParser :=
  { parser with buf := parser.buf ++ bytes }

lemma extend_line (raw buf bytes : Bytes) (cur : SseEvent) :
    extend { buf := raw ++ lf :: buf, cur } bytes =
      { buf := raw ++ lf :: (extend { buf, cur } bytes).buf, cur } := by
  rw [extend, extend, List.append_assoc, List.cons_append]

/-- Bytes that come later do not change the turns before them. -/
lemma drainLines_append (parser : SseParser) (bytes : Bytes) (out : List SseEvent) :
    (parser.extend bytes).drainLines out =
      match (parser.drainLines out).result with
      | .ok () =>
          ((parser.drainLines out).parser.extend bytes).drainLines (parser.drainLines out).out
      | .error _ =>
          { parser.drainLines out with parser := (parser.drainLines out).parser.extend bytes } := by
  induction parser using induct_lines generalizing out with
  | rest parser h => rw [drainLines_rest out h]
  | refused raw buf cur h hread =>
      rw [extend_line, drainLines_refused out h hread, drainLines_refused out h hread]
      rfl
  | read raw buf cur events cur' h hread ih =>
      rw [extend_line, drainLines_read out h hread, drainLines_read out h hread]
      exact ih (out ++ events)

lemma pushInto_append (parser : SseParser) (a b : Bytes) (out : List SseEvent) :
    parser.pushInto (a ++ b) out =
      match (parser.pushInto a out).result with
      | .ok () => (parser.pushInto a out).parser.pushInto b (parser.pushInto a out).out
      | .error _ =>
          { parser.pushInto a out with parser := (parser.pushInto a out).parser.extend b } := by
  have hextend : (parser.extend a).extend b = parser.extend (a ++ b) := by
    rw [extend, extend, extend, List.append_assoc]
  have happend := drainLines_append (parser.extend a) b out
  rw [hextend] at happend
  exact happend

end SseParser

/-! ## Chunks -/

/-- Two pushes that come to the same: the same events, the same failure or none, and without one
the same parser. -/
structure Pushed.Agrees (p q : Pushed) : Prop where
  out : p.out = q.out
  result : p.result = q.result
  parser : q.result = .ok () → p.parser = q.parser

/-- Chunks pushed one after the other come to the same as one push of all their bytes: the same
events, the same result, and, unless it is an error, the same parser. -/
theorem pushAll_agrees (parser : SseParser) (chunk : Bytes) (chunks : List Bytes)
    (out : List SseEvent) :
    (parser.pushAll (chunk :: chunks) out).Agrees
      (parser.pushInto (chunk ++ chunks.flatten) out) := by
  induction chunks generalizing parser chunk out with
  | nil =>
      rw [SseParser.pushAll, List.flatten_nil, List.append_nil]
      cases hresult : (parser.pushInto chunk out).result with
      | ok => exact ⟨rfl, hresult.symm, fun _ => rfl⟩
      | error e => exact ⟨rfl, rfl, fun _ => rfl⟩
  | cons next chunks ih =>
      rw [SseParser.pushAll, List.flatten_cons, SseParser.pushInto_append]
      cases hresult : (parser.pushInto chunk out).result with
      | ok => exact ih _ next _
      | error e =>
          refine ⟨rfl, rfl, fun hok => ?_⟩
          cases hresult.symm.trans hok

/-- Byte by byte comes to the same as well, from a parser with no complete line left in its buffer.
-/
theorem pushAll_bytes {parser : SseParser} (h : lf ∉ parser.buf) (bytes : Bytes)
    (out : List SseEvent) :
    (parser.pushAll (bytes.map fun b => [b]) out).Agrees (parser.pushInto bytes out) := by
  cases bytes with
  | nil =>
      have hrest : lf ∉ (parser.extend []).buf := by rwa [SseParser.extend, List.append_nil]
      have hpush : parser.pushInto [] out =
          { result := .ok (), parser := parser.extend [], out } :=
        SseParser.drainLines_rest out hrest
      rw [hpush]
      refine ⟨rfl, rfl, fun _ => ?_⟩
      rw [SseParser.extend, List.append_nil]
      rfl
  | cons b bytes =>
      have hflatten : (bytes.map fun b => [b]).flatten = bytes := by
        rw [← List.flatMap_def, List.flatMap_singleton']
      have hall := pushAll_agrees parser [b] (bytes.map fun b => [b]) out
      rw [hflatten] at hall
      exact hall

/-! ## Where the bytes go -/

/-- The loop ends after a number of turns, with what they leave behind.  As a relation it needs no
fuel. -/
inductive Turns : SseParser → List SseEvent → ℕ → Pushed → Prop
  | stop {parser out} (h : parser.drainLine = none) :
      Turns parser out 0 { result := .ok (), parser, out }
  | refused {parser next out} (h : parser.drainLine = some (next, none)) :
      Turns parser out 1 { result := .error .upstreamError, parser := next, out }
  | read {parser next out events n pushed} (h : parser.drainLine = some (next, some events))
      (hrest : Turns next (out ++ events) n pushed) : Turns parser out (n + 1) pushed

/-- Complete lines were taken in, one after the other and each in full, and `rest` is what
followed them. -/
structure Took (buffered : Bytes) (cur : SseEvent) (out : List SseEvent) (lines : List Bytes)
    (rest : Bytes) (pushed : Pushed) : Prop where
  bytes : buffered = joinLines lf lines ++ rest
  whole : ∀ raw ∈ lines, lf ∉ raw
  events : ∃ events, readLines readRawLine cur lines = (events, some pushed.parser.cur) ∧
    pushed.out = out ++ events

/-- What the loop does with the bytes that are buffered: how many turns it takes, which lines it
took in, and what it left. -/
structure Accounts (buffered : Bytes) (cur : SseEvent) (out : List SseEvent) (pushed : Pushed) :
    Prop where
  /-- It ends, after no more turns than there are line ends. -/
  ends : ∃ n ≤ buffered.count lf, Turns { buf := buffered, cur } out n pushed
  /-- On success what is left is the unfinished line, ... -/
  accepted : pushed.result = .ok () →
    lf ∉ pushed.parser.buf ∧ ∃ lines, Took buffered cur out lines pushed.parser.buf pushed
  /-- ... and on a failure what follows the first line that is not UTF-8. -/
  refused : ∀ e, pushed.result = .error e →
    e = .upstreamError ∧ ∃ lines raw, lf ∉ raw ∧ Malformed raw ∧
      Took buffered cur out lines (raw ++ lf :: pushed.parser.buf) pushed

lemma Took.cons {buf rest raw : Bytes} {cur cur' : SseEvent} {out events : List SseEvent}
    {lines : List Bytes} {pushed : Pushed} (h : Took buf cur' (out ++ events) lines rest pushed)
    (hraw : lf ∉ raw) (hread : readRawLine cur raw = some (events, cur')) :
    Took (raw ++ lf :: buf) cur out (raw :: lines) rest pushed := by
  obtain ⟨more, hmore, hout⟩ := h.events
  refine ⟨?_, List.forall_mem_cons.2 ⟨hraw, h.whole⟩, events ++ more, ?_, ?_⟩
  · rw [joinLines_cons, List.append_assoc, List.cons_append, h.bytes]
  · rw [readLines, hread]
    simp only [hmore]
  · rw [hout, List.append_assoc]

lemma count_line {raw : Bytes} (h : lf ∉ raw) (buf : Bytes) :
    (raw ++ lf :: buf).count lf = buf.count lf + 1 := by
  rw [List.count_append, List.count_eq_zero_of_not_mem h, List.count_cons_self, Nat.zero_add]

/-- Every byte is accounted for, whether the loop ends with its buffer drained or with a line that
is refused. -/
lemma accounts_drainLines (parser : SseParser) (out : List SseEvent) :
    Accounts parser.buf parser.cur out (parser.drainLines out) := by
  induction parser using SseParser.induct_lines generalizing out with
  | rest parser h =>
      rw [SseParser.drainLines_rest out h]
      refine ⟨⟨0, Nat.zero_le _, .stop (SseParser.drainLine_rest h)⟩,
        fun _ => ⟨h, [], rfl, List.forall_mem_nil _, [], rfl, (List.append_nil _).symm⟩, ?_⟩
      intro e he
      cases he
  | refused raw buf cur h hread =>
      have hturn := SseParser.drainLine_refused buf h hread
      rw [SseParser.drainLines_refused out h hread]
      refine ⟨⟨1, ?_, .refused hturn⟩, fun hok => ?_, fun e he => ?_⟩
      · rw [count_line h]
        omega
      · cases hok
      · cases he
        exact ⟨rfl, [], raw, h, Option.map_eq_none_iff.1 hread, rfl, List.forall_mem_nil _, [], rfl,
          (List.append_nil _).symm⟩
  | read raw buf cur events cur' h hread ih =>
      have hturn := SseParser.drainLine_read buf h hread
      rw [SseParser.drainLines_read out h hread]
      obtain ⟨⟨n, hn, hturns⟩, haccepted, hrefused⟩ := ih (out ++ events)
      refine ⟨⟨n + 1, ?_, .read hturn hturns⟩, fun hok => ?_, fun e he => ?_⟩
      · rw [count_line h]
        exact Nat.succ_le_succ hn
      · obtain ⟨hrest, lines, htook⟩ := haccepted hok
        exact ⟨hrest, raw :: lines, htook.cons h hread⟩
      · obtain ⟨hupstream, lines, bad, hbad, hmalformed, htook⟩ := hrefused e he
        exact ⟨hupstream, raw :: lines, bad, hbad, hmalformed, htook.cons h hread⟩

/-- **`push` is a fold over bytes.**  From every state of the parser, two chunks pushed one after
the other append the same events as their bytes in one push, fail alike, and leave the same parser
when they do not; and every push ends with each byte either in a line that was taken in or still
in the buffer. -/
theorem push_folds (parser : SseParser) (out : List SseEvent) :
    (∀ a b, (parser.pushAll [a, b] out).Agrees (parser.pushInto (a ++ b) out)) ∧
      ∀ chunk, Accounts (parser.buf ++ chunk) parser.cur out (parser.pushInto chunk out) := by
  constructor
  · intro a b
    have hall := pushAll_agrees parser a [b] out
    rwa [List.flatten_singleton] at hall
  · intro chunk
    exact accounts_drainLines (parser.extend chunk) out

/-! ## The translation's push -/

/-- The push of the translation is the loop, over an `out` it drops on an error.  This is where
events before a bad line are lost. -/
theorem push_eq_pushInto (parser : SseParser) (chunk : Bytes) :
    parser.push chunk =
      (parser.pushInto chunk []).result.map fun _ =>
        ((parser.pushInto chunk []).parser, (parser.pushInto chunk []).out) := by
  have haccount : Accounts (parser.buf ++ chunk) parser.cur [] (parser.pushInto chunk []) :=
    accounts_drainLines (parser.extend chunk) []
  rw [SseParser.push]
  cases hresult : (parser.pushInto chunk []).result with
  | ok =>
      obtain ⟨hrest, lines, hbytes, hwhole, events, hread, hout⟩ := haccount.accepted hresult
      have hsplit : splitLines lf (parser.buf ++ chunk) =
          (lines, (parser.pushInto chunk []).parser.buf) := by
        rw [hbytes, splitLines_joinLines hwhole, splitLines_rest hrest, List.append_nil]
      rw [List.nil_append] at hout
      simp only [hsplit, hread, hout]
      rfl
  | error e =>
      obtain ⟨rfl, lines, raw, hraw, hmalformed, hbytes, hwhole, events, hread, -⟩ :=
        haccount.refused e hresult
      have hsplit : (splitLines lf (parser.buf ++ chunk)).1 =
          lines ++ raw :: (splitLines lf (parser.pushInto chunk []).parser.buf).1 := by
        rw [hbytes, splitLines_joinLines hwhole, splitLines_line hraw]
      have hstop (cur : SseEvent) : readRawLine cur raw = none :=
        Option.map_eq_none_iff.2 hmalformed
      have hnone : readLines readRawLine parser.cur (splitLines lf (parser.buf ++ chunk)).1 =
          (events, none) := by
        rw [hsplit, readLines_append, hread]
        simp only [readLines, hstop, List.append_nil]
      simp only [hnone]
      rfl

end AnthropicSse

end Moaray
