import Mathlib.Tactic

/-!
# Texts with marks in them

A `Marking` is a set of marks that can be recognised in a text: how each is written, and how one is
recognised at the start of a text.  No mark may begin inside another one.  Two readings of a text
are given, the marks that begin anywhere in it (`occurrences`) and what it is cut into at its marks
(`pieces`).

* `occurrences_append_sep` — a letter that is in no mark cuts a text into independent parts.
* `occurrences_text` — a mark by itself is one occurrence.
* `pieces_clear`, `pieces_text` — cutting a text without marks, and at a mark.

A text that is built out of parts of different trust, with marks between them, is safe when its
marks are the ones that were put there.  `occurrences` says which marks a reader of the whole text
can find; it does not know who wrote them.  To show that a part brings in none it is enough that
the part is `Clear`, and that the letters next to it cannot finish a mark that begins in it, which
is what the separator is for.

**Design.**  The conditions on a marking are the fields of the structure.  The one that matters is
that no mark begins inside another: without it, two marks could overlap, and a text that is cut at
one of them would lose the other.
-/

namespace Moaray.Framework

/-- Marks `δ` written in texts over `α`.  A mark is recognised by its text alone, none is empty, and
none begins inside another. -/
structure Marking (α δ : Type) where
  text : δ → List α
  read : List α → Option δ
  read_iff : ∀ cs d, read cs = some d ↔ text d <+: cs
  text_ne_nil : ∀ d, text d ≠ []
  /-- No mark begins inside another one. -/
  solid : ∀ d t, t <:+ text d → t ≠ text d → read t = none

namespace Marking

variable {α δ : Type} (M : Marking α δ)

/-- The marks that begin somewhere in a text, from left to right, whoever put them there. -/
def occurrences : List α → List δ
  | [] => []
  | c :: cs => (M.read (c :: cs)).toList ++ occurrences cs

/-- What precedes the first mark of a text, and every mark with what follows it up to the next;
`skip` letters of a mark are still to drop. -/
def pieces : ℕ → List α → List α × List (δ × List α)
  | _, [] => ([], [])
  | skip + 1, _ :: cs => pieces skip cs
  | 0, c :: cs =>
      match M.read (c :: cs) with
      | some d =>
          let (between, rest) := pieces ((M.text d).length - 1) cs
          ([], (d, between) :: rest)
      | none =>
          let (before, rest) := pieces 0 cs
          (c :: before, rest)

/-- A text in which no mark begins.  A mark can still begin in it and end after it once it stands in
a longer text, unless a separator follows. -/
def Clear (cs : List α) : Prop := ∀ t, t <:+ cs → M.read t = none

variable {M}

lemma Clear.tail {c : α} {cs : List α} (h : M.Clear (c :: cs)) : M.Clear cs :=
  fun t ht => h t (ht.trans (List.suffix_cons c cs))

lemma Clear.head {cs : List α} (h : M.Clear cs) : M.read cs = none := h cs (List.suffix_refl cs)

lemma occurrences_clear {cs : List α} (h : M.Clear cs) : M.occurrences cs = [] := by
  induction cs with
  | nil => rfl
  | cons c cs ih =>
      have hread : M.read (c :: cs) = none := h.head
      rw [occurrences, hread, ih h.tail]
      rfl

lemma read_nil : M.read [] = none := by
  refine Option.eq_none_iff_forall_ne_some.2 fun d hread => M.text_ne_nil d ?_
  exact List.prefix_nil.1 ((M.read_iff _ _).1 hread)

lemma read_text_append (d : δ) (rest : List α) : M.read (M.text d ++ rest) = some d :=
  (M.read_iff _ d).2 (List.prefix_append _ _)

lemma occurrences_text (d : δ) : M.occurrences (M.text d) = [d] := by
  have hsolid := M.solid d
  have hread : M.read (M.text d) = some d := (M.read_iff _ d).2 (List.prefix_refl _)
  cases htext : M.text d with
  | nil => exact (M.text_ne_nil d htext).elim
  | cons c cs =>
      rw [htext] at hsolid hread
      have hclear : M.Clear cs := by
        intro t ht
        refine hsolid t (ht.trans (List.suffix_cons c cs)) ?_
        rintro rfl
        exact absurd ht.length_le (by simp)
      rw [occurrences, hread, occurrences_clear hclear]
      rfl

lemma pieces_drop (skip : ℕ) (cs : List α) : M.pieces skip cs = M.pieces 0 (cs.drop skip) := by
  induction cs generalizing skip with
  | nil => simp [pieces]
  | cons c cs ih =>
      cases skip with
      | zero => rfl
      | succ skip => exact ih skip

/-- Cutting a text that starts with a mark: nothing precedes the mark. -/
lemma pieces_text (d : δ) (rest : List α) :
    M.pieces 0 (M.text d ++ rest) =
      ([], (d, (M.pieces 0 rest).1) :: (M.pieces 0 rest).2) := by
  have hread : M.read (M.text d ++ rest) = some d := read_text_append d rest
  cases htext : M.text d with
  | nil => exact (M.text_ne_nil d htext).elim
  | cons c cs =>
      rw [htext, List.cons_append] at hread
      have hdrop : M.pieces ((M.text d).length - 1) (cs ++ rest) = M.pieces 0 rest := by
        rw [pieces_drop, htext]
        simp
      rw [List.cons_append, pieces, hread]
      simp only [hdrop]

section Separator

variable {sep : α} (hsep : ∀ d, sep ∉ M.text d)

include hsep

/-- What follows a separator has no say in whether a mark begins before it. -/
lemma read_append_sep (cs rest : List α) : M.read (cs ++ sep :: rest) = M.read cs := by
  ext d
  rw [M.read_iff, M.read_iff]
  constructor
  · intro h
    rcases List.prefix_or_prefix_of_prefix h (List.prefix_append cs _) with hcs | ⟨u, hu⟩
    · exact hcs
    · rw [← hu, List.prefix_append_right_inj] at h
      cases u with
      | nil =>
          rw [List.append_nil] at hu
          rw [hu]
      | cons c u =>
          obtain rfl : c = sep := (List.cons_prefix_cons.1 h).1
          exact (hsep d (hu ▸ by simp)).elim
  · exact fun h => h.trans (List.prefix_append _ _)

lemma read_sep (rest : List α) : M.read (sep :: rest) = none :=
  (read_append_sep hsep [] rest).trans read_nil

/-- A separator cuts a text into independent parts: no mark reaches across it. -/
lemma occurrences_append_sep (cs rest : List α) :
    M.occurrences (cs ++ sep :: rest) = M.occurrences cs ++ M.occurrences rest := by
  induction cs with
  | nil =>
      show M.occurrences (sep :: rest) = M.occurrences rest
      rw [occurrences, read_sep hsep]
      rfl
  | cons c cs ih =>
      have hread := read_append_sep hsep (c :: cs) rest
      rw [List.cons_append] at hread ⊢
      rw [occurrences, occurrences, hread, ih, List.append_assoc]

/-- The marks of parts between separators are the marks of the parts, in order. -/
lemma occurrences_intercalate (parts : List (List α)) :
    M.occurrences ([sep].intercalate parts) = parts.flatMap M.occurrences := by
  induction parts with
  | nil => rfl
  | cons part parts ih =>
      cases parts with
      | nil => simp
      | cons part' parts =>
          rw [List.intercalate_cons_cons, List.append_assoc, List.singleton_append,
            occurrences_append_sep hsep, ih]
          rfl

/-- Cutting a text that starts with a part without marks: the part goes to the first piece as it is.
-/
lemma pieces_clear {cs : List α} (h : M.Clear cs) (rest : List α) :
    M.pieces 0 (cs ++ sep :: rest) =
      (cs ++ sep :: (M.pieces 0 rest).1, (M.pieces 0 rest).2) := by
  induction cs with
  | nil =>
      rw [List.nil_append, pieces, read_sep hsep]
      rfl
  | cons c cs ih =>
      have hread := read_append_sep hsep (c :: cs) rest
      rw [h.head, List.cons_append] at hread
      rw [List.cons_append, pieces, hread]
      simp only [ih h.tail, List.cons_append]

end Separator

end Marking

end Moaray.Framework
