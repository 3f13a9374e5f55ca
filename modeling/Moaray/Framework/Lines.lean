import Mathlib.Tactic

/-!
# Lines of a text that comes in chunks

A reader takes the complete lines of a text one by one; each gives items and the next state, or is
refused.  The text comes in chunks, and a chunk whose lines include a refused one gives nothing.

* `splitLines_append` — the lines of a text in two parts.
* `splitLines_joinLines` — joined lines split into themselves.
* `readLines_append` — reading on where the first part stopped.
* `feed_accepted` — when no line is refused, the chunks do not matter.
* `feed_refused` — otherwise some of the items before the refused line are given: none of them if
  all comes in one chunk (`feed_refused_single`), all of them letter by letter
  (`feed_refused_letters`).

The alphabet, the line end and the reader's state are parameters: the lines may be of bytes or of
characters, and the reader may keep an unfinished record, a count or nothing at all.  What a reader
does with a line is a function `step` from its state and the line to the items it yields and the
next state, or `none` when it will not have the line.

**Design.**  A chunk is all or nothing (`pushChunk`): the items of its lines are handed on only if
none of them is refused.  That is how a reader behaves which collects into a buffer and returns
early on an error, and it makes what comes out depend on where the text is cut.  The three `feed`
theorems say exactly how far: not at all without a refused line, and with one, anything between
nothing and everything before it.
-/

namespace Moaray.Framework

variable {α σ ε : Type} [DecidableEq α]

/-! ## Lines -/

/-- The complete lines of a text, without their ends, and what follows the last of them: the line
that is still being written. -/
def splitLines (nl : α) : List α → List (List α) × List α
  | [] => ([], [])
  | c :: cs =>
      let (lines, rest) := splitLines nl cs
      if c = nl then ([] :: lines, rest)
      else
        match lines with
        | [] => ([], c :: rest)
        | line :: lines => ((c :: line) :: lines, rest)

/-- Complete lines, each with its end. -/
def joinLines (nl : α) (lines : List (List α)) : List α := lines.flatMap fun line => line ++ [nl]

section SplitLines

variable {nl : α}

lemma splitLines_cons_nl (cs : List α) :
    splitLines nl (nl :: cs) = ([] :: (splitLines nl cs).1, (splitLines nl cs).2) := by
  rw [splitLines]
  exact if_pos rfl

lemma splitLines_cons_ne {c : α} (hc : c ≠ nl) (cs : List α) :
    splitLines nl (c :: cs) =
      match (splitLines nl cs).1 with
      | [] => ([], c :: (splitLines nl cs).2)
      | line :: lines => ((c :: line) :: lines, (splitLines nl cs).2) := by
  rw [splitLines]
  exact if_neg hc

/-- A line, its end, and the rest: the line comes first, and the rest is split by itself. -/
lemma splitLines_line {line : List α} (h : nl ∉ line) (cs : List α) :
    splitLines nl (line ++ nl :: cs) =
      (line :: (splitLines nl cs).1, (splitLines nl cs).2) := by
  induction line with
  | nil => exact splitLines_cons_nl cs
  | cons c line ih =>
      have hc : c ≠ nl := fun hc => h (by simp [hc])
      have hline : nl ∉ line := fun hl => h (List.mem_cons_of_mem _ hl)
      rw [List.cons_append, splitLines_cons_ne hc, ih hline]

lemma splitLines_rest {rest : List α} (h : nl ∉ rest) : splitLines nl rest = ([], rest) := by
  induction rest with
  | nil => rfl
  | cons c rest ih =>
      have hc : c ≠ nl := fun hc => h (by simp [hc])
      have hrest : nl ∉ rest := fun hr => h (List.mem_cons_of_mem _ hr)
      rw [splitLines_cons_ne hc, ih hrest]

/-- What follows the last complete line holds no line end. -/
lemma nl_not_mem_rest (cs : List α) : nl ∉ (splitLines nl cs).2 := by
  induction cs with
  | nil => exact List.not_mem_nil
  | cons c cs ih =>
      by_cases hc : c = nl
      · rw [hc, splitLines_cons_nl]
        exact ih
      · rw [splitLines_cons_ne hc]
        cases hlines : (splitLines nl cs).1 with
        | nil =>
            show nl ∉ c :: (splitLines nl cs).2
            exact List.not_mem_cons_of_ne_of_not_mem (Ne.symm hc) ih
        | cons line lines => exact ih

/-- The lines of a text in two parts: the second part continues the unfinished line of the first,
and the lines of the first part stand. -/
lemma splitLines_append (a b : List α) :
    splitLines nl (a ++ b) =
      ((splitLines nl a).1 ++ (splitLines nl ((splitLines nl a).2 ++ b)).1,
        (splitLines nl ((splitLines nl a).2 ++ b)).2) := by
  induction a with
  | nil => rfl
  | cons c a ih =>
      by_cases hc : c = nl
      · rw [hc, List.cons_append, splitLines_cons_nl, splitLines_cons_nl, ih]
        rfl
      · rw [List.cons_append, splitLines_cons_ne hc, splitLines_cons_ne hc, ih]
        cases hlines : (splitLines nl a).1 with
        | nil =>
            show _ = ([] ++ (splitLines nl (c :: ((splitLines nl a).2 ++ b))).1,
              (splitLines nl (c :: ((splitLines nl a).2 ++ b))).2)
            rw [splitLines_cons_ne hc]
            rfl
        | cons line lines => rfl

omit [DecidableEq α] in
lemma joinLines_cons (line : List α) (lines : List (List α)) :
    joinLines nl (line :: lines) = line ++ nl :: joinLines nl lines := by
  rw [joinLines, List.flatMap_cons, List.append_assoc]
  rfl

lemma splitLines_joinLines {lines : List (List α)} (h : ∀ line ∈ lines, nl ∉ line)
    (cs : List α) :
    splitLines nl (joinLines nl lines ++ cs) =
      (lines ++ (splitLines nl cs).1, (splitLines nl cs).2) := by
  induction lines with
  | nil => rfl
  | cons line lines ih =>
      obtain ⟨hline, hlines⟩ := List.forall_mem_cons.1 h
      rw [joinLines_cons, List.append_assoc, List.cons_append, splitLines_line hline, ih hlines]
      rfl

end SplitLines

/-! ## Reading them -/

/-- Read lines one after the other: the items of those before the first refused one, and the state
after them if none is refused. -/
def readLines (step : σ → List α → Option (List ε × σ)) : σ → List (List α) → List ε × Option σ
  | s, [] => ([], some s)
  | s, line :: lines =>
      match step s line with
      | none => ([], none)
      | some (items, s') =>
          let (more, s'') := readLines step s' lines
          (items ++ more, s'')

/-- Read the lines a chunk completes, together with the unfinished line before it.  The items of the
chunk are given only if none of its lines is refused. -/
def pushChunk (nl : α) (step : σ → List α → Option (List ε × σ)) (s : σ × List α)
    (chunk : List α) : Option (List ε × σ × List α) :=
  let (lines, rest) := splitLines nl (s.2 ++ chunk)
  match readLines step s.1 lines with
  | (items, some s') => some (items, s', rest)
  | (_, none) => none

/-- Read chunk after chunk, until one is refused; what the chunks before it gave is kept. -/
def feed (nl : α) (step : σ → List α → Option (List ε × σ)) :
    σ × List α → List (List α) → List ε × Option (σ × List α)
  | s, [] => ([], some s)
  | s, chunk :: chunks =>
      match pushChunk nl step s chunk with
      | none => ([], none)
      | some (items, s') =>
          let (more, s'') := feed nl step s' chunks
          (items ++ more, s'')

section Feed

variable {nl : α} {step : σ → List α → Option (List ε × σ)}

omit [DecidableEq α] in
/-- Reading on where the first part stopped, if it was not refused there. -/
lemma readLines_append (s : σ) (as bs : List (List α)) :
    readLines step s (as ++ bs) =
      match readLines step s as with
      | (items, some s') => (items ++ (readLines step s' bs).1, (readLines step s' bs).2)
      | (items, none) => (items, none) := by
  induction as generalizing s with
  | nil => rfl
  | cons a as ih =>
      rw [List.cons_append, readLines, readLines]
      cases step s a with
      | none => rfl
      | some r =>
          obtain ⟨items, s'⟩ := r
          simp only [ih]
          rcases readLines step s' as with ⟨more, _ | s''⟩
          · rfl
          · simp only [List.append_assoc]

/-- The lines a text completes are the ones of its first chunk and of the rest. -/
lemma readLines_chunk (s : σ) (buf chunk rest : List α) :
    readLines step s (splitLines nl (buf ++ (chunk ++ rest))).1 =
      match readLines step s (splitLines nl (buf ++ chunk)).1 with
      | (items, some s') =>
          let more := readLines step s' (splitLines nl ((splitLines nl (buf ++ chunk)).2 ++ rest)).1
          (items ++ more.1, more.2)
      | (items, none) => (items, none) := by
  rw [← List.append_assoc, splitLines_append, readLines_append]

lemma pushChunk_some {s t : σ} {buf chunk : List α} {items : List ε}
    (h : readLines step s (splitLines nl (buf ++ chunk)).1 = (items, some t)) :
    pushChunk nl step (s, buf) chunk = some (items, t, (splitLines nl (buf ++ chunk)).2) := by
  rw [pushChunk]
  simp only [h]

lemma pushChunk_none {s : σ} {buf chunk : List α} {items : List ε}
    (h : readLines step s (splitLines nl (buf ++ chunk)).1 = (items, none)) :
    pushChunk nl step (s, buf) chunk = none := by
  rw [pushChunk]
  simp only [h]

lemma feed_cons_some {s t : σ × List α} {chunk : List α} {items : List ε}
    (h : pushChunk nl step s chunk = some (items, t)) (chunks : List (List α)) :
    feed nl step s (chunk :: chunks) =
      (items ++ (feed nl step t chunks).1, (feed nl step t chunks).2) := by
  rw [feed, h]

lemma feed_cons_none {s : σ × List α} {chunk : List α}
    (h : pushChunk nl step s chunk = none) (chunks : List (List α)) :
    feed nl step s (chunk :: chunks) = ([], none) := by
  rw [feed, h]

/-- When no line of a text is refused, the chunks it comes in do not matter: what is given is what
the whole text gives in one piece, and the reader is left in the same state. -/
theorem feed_accepted {s s' : σ} {buf : List α} {chunks : List (List α)} {items : List ε}
    (hbuf : nl ∉ buf)
    (h : readLines step s (splitLines nl (buf ++ chunks.flatten)).1 = (items, some s')) :
    feed nl step (s, buf) chunks =
      (items, some (s', (splitLines nl (buf ++ chunks.flatten)).2)) := by
  induction chunks generalizing s buf items with
  | nil =>
      rw [List.flatten_nil, List.append_nil, splitLines_rest hbuf] at h
      obtain ⟨rfl, hs⟩ := Prod.mk.inj h
      obtain rfl := Option.some.inj hs
      rw [List.flatten_nil, List.append_nil, splitLines_rest hbuf]
      rfl
  | cons chunk chunks ih =>
      rw [List.flatten_cons, readLines_chunk] at h
      have hrest : (splitLines nl (buf ++ (chunk ++ chunks.flatten))).2 =
          (splitLines nl ((splitLines nl (buf ++ chunk)).2 ++ chunks.flatten)).2 := by
        rw [← List.append_assoc, splitLines_append]
      rw [List.flatten_cons, hrest]
      rcases hchunk : readLines step s (splitLines nl (buf ++ chunk)).1 with ⟨out, _ | t⟩
      · rw [hchunk] at h
        cases h
      · rw [hchunk] at h
        obtain ⟨rfl, hs⟩ := Prod.mk.inj h
        rw [feed_cons_some (pushChunk_some hchunk),
          ih (nl_not_mem_rest (buf ++ chunk)) (Prod.ext rfl hs)]

/-- When a line is refused, the items given are some of those before it, in their order and from the
first one on, whatever the chunks. -/
theorem feed_refused {s : σ} {buf : List α} {chunks : List (List α)} {items : List ε}
    (hbuf : nl ∉ buf)
    (h : readLines step s (splitLines nl (buf ++ chunks.flatten)).1 = (items, none)) :
    (feed nl step (s, buf) chunks).1 <+: items ∧ (feed nl step (s, buf) chunks).2 = none := by
  induction chunks generalizing s buf items with
  | nil =>
      rw [List.flatten_nil, List.append_nil, splitLines_rest hbuf] at h
      cases h
  | cons chunk chunks ih =>
      rw [List.flatten_cons, readLines_chunk] at h
      rcases hchunk : readLines step s (splitLines nl (buf ++ chunk)).1 with ⟨out, _ | t⟩
      · rw [feed_cons_none (pushChunk_none hchunk)]
        exact ⟨List.nil_prefix, rfl⟩
      · rw [hchunk] at h
        obtain ⟨rfl, hs⟩ := Prod.mk.inj h
        obtain ⟨hsplit, hnone⟩ := ih (nl_not_mem_rest (buf ++ chunk)) (Prod.ext rfl hs)
        rw [feed_cons_some (pushChunk_some hchunk)]
        exact ⟨(List.prefix_append_right_inj out).2 hsplit, hnone⟩

/-- The one line a letter can complete is the one that is refused. -/
lemma readLines_letter_none {s : σ} {buf : List α} {c : α} {items : List ε} (hbuf : nl ∉ buf)
    (h : readLines step s (splitLines nl (buf ++ [c])).1 = (items, none)) : items = [] := by
  by_cases hc : c = nl
  · rw [hc, splitLines_line hbuf] at h
    simp only [splitLines, readLines] at h
    cases hstep : step s buf with
    | none =>
        rw [hstep] at h
        exact (Prod.mk.inj h).1.symm
    | some r =>
        rw [hstep] at h
        cases h
  · have hrest : nl ∉ buf ++ [c] := by
      simp [hbuf, Ne.symm hc]
    rw [splitLines_rest hrest] at h
    cases h

/-- In one chunk, none of them: the items of the lines before the refused one are dropped with it.
-/
theorem feed_refused_single {s : σ} {buf chunk : List α} {items : List ε}
    (h : readLines step s (splitLines nl (buf ++ chunk)).1 = (items, none)) :
    feed nl step (s, buf) [chunk] = ([], none) := by
  exact feed_cons_none (pushChunk_none h) []

/-- Letter by letter, all of them: every line before the refused one is completed by a chunk that is
accepted. -/
theorem feed_refused_letters {s : σ} {buf cs : List α} {items : List ε} (hbuf : nl ∉ buf)
    (h : readLines step s (splitLines nl (buf ++ cs)).1 = (items, none)) :
    feed nl step (s, buf) (cs.map fun c => [c]) = (items, none) := by
  induction cs generalizing s buf items with
  | nil =>
      rw [List.append_nil, splitLines_rest hbuf] at h
      cases h
  | cons c cs ih =>
      rw [← List.singleton_append, readLines_chunk] at h
      rw [List.map_cons]
      rcases hchunk : readLines step s (splitLines nl (buf ++ [c])).1 with ⟨out, _ | t⟩
      · rw [hchunk] at h
        obtain ⟨rfl, -⟩ := Prod.mk.inj h
        rw [feed_cons_none (pushChunk_none hchunk), readLines_letter_none hbuf hchunk]
      · rw [hchunk] at h
        obtain ⟨rfl, hs⟩ := Prod.mk.inj h
        rw [feed_cons_some (pushChunk_some hchunk),
          ih (nl_not_mem_rest (buf ++ [c])) (Prod.ext rfl hs)]

end Feed

end Moaray.Framework
