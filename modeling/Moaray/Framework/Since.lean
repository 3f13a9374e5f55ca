import Mathlib.Data.List.DropRight
import Mathlib.Tactic

/-!
# History since the last change

A total step function run over a list of events, and the part of the list that came after the last
step of a given kind.  A component that keeps counters and clears them on some of its steps is
compared with what it was told since.

* `since` — the events after the last step that `moved`, with its concat law.
* `exists_eq_append_since` — what was cut off ended in such a step.
* `streak` — how many entries at the end of a list pass a test; `replicate_suffix_iff` reads "the
  last `n` entries are all `a`" off it.

A counter of failures in a row is the streak of failures among the events since the last move, and
it is the right number at every moment just when every step keeps it so.  The concat laws are what
that one step needs: an event that moves the state empties the history, any other lengthens it by
itself, and a streak either grows by one or starts again from nothing.

**Design.**  Whether a step moved is a test of the states on both of its sides, not of the event:
the same event may move one state and leave another.  The history is computed along with the state,
by one fold over both, and `fst_foldl_since` says that the fold does not disturb the state.
-/

namespace Moaray.Framework

section Since

variable {σ α : Type*} (step : σ → α → σ) (moved : σ → σ → Bool)

/-- The events after the last step, from `s`, that `moved`: all of them when none did.  The event of
that step is not among them. -/
def since (s : σ) (as : List α) : List α :=
  (as.foldl
    (fun p a => (step p.1 a, if moved p.1 (step p.1 a) then [] else p.2 ++ [a])) (s, [])).2

lemma fst_foldl_since (s : σ) (as bs : List α) :
    (as.foldl
      (fun p a => (step p.1 a, if moved p.1 (step p.1 a) then [] else p.2 ++ [a])) (s, bs)).1 =
      as.foldl step s := by
  induction as generalizing s bs with
  | nil => rfl
  | cons a as ih => exact ih _ _

lemma since_concat (s : σ) (as : List α) (a : α) :
    since step moved s (as ++ [a]) =
      if moved (as.foldl step s) (step (as.foldl step s) a) then []
      else since step moved s as ++ [a] := by
  unfold since
  rw [List.foldl_append, List.foldl_cons, List.foldl_nil, fst_foldl_since]

variable {step moved}

lemma since_concat_of_moved {s : σ} {as : List α} {a : α}
    (h : moved (as.foldl step s) (step (as.foldl step s) a) = true) :
    since step moved s (as ++ [a]) = [] := by
  rw [since_concat, if_pos h]

lemma since_concat_of_not_moved {s : σ} {as : List α} {a : α}
    (h : moved (as.foldl step s) (step (as.foldl step s) a) = false) :
    since step moved s (as ++ [a]) = since step moved s as ++ [a] := by
  rw [since_concat, if_neg (by simp [h])]

/-- The events fall into those since the last move and, when there was a move, those before it,
the last of which made it. -/
lemma exists_eq_append_since (step : σ → α → σ) (moved : σ → σ → Bool) (s : σ) (as : List α) :
    ∃ pre, as = pre ++ since step moved s as ∧
      (pre = [] ∨ ∃ earlier a, pre = earlier ++ [a] ∧
        moved (earlier.foldl step s) (step (earlier.foldl step s) a) = true) := by
  induction as using List.reverseRecOn with
  | nil => exact ⟨[], rfl, .inl rfl⟩
  | append_singleton as a ih =>
      by_cases h : moved (as.foldl step s) (step (as.foldl step s) a) = true
      · refine ⟨as ++ [a], ?_, .inr ⟨as, a, rfl, h⟩⟩
        rw [since_concat_of_moved h, List.append_nil]
      · obtain ⟨pre, heq, hpre⟩ := ih
        refine ⟨pre, ?_, hpre⟩
        rw [since_concat_of_not_moved (by simpa using h), ← List.append_assoc, ← heq]

end Since

/-! ## Streaks -/

section Streak

variable {α : Type*} (p : α → Bool)

/-- How many entries at the end of the list pass the test.  An entry that fails it ends the streak,
and those before are not looked at. -/
def streak (l : List α) : ℕ := (l.rtakeWhile p).length

variable {p}

lemma streak_concat_pos {l : List α} {a : α} (h : p a = true) :
    streak p (l ++ [a]) = streak p l + 1 := by
  simp [streak, List.rtakeWhile_concat_pos p l a h]

lemma streak_concat_neg {l : List α} {a : α} (h : p a = false) : streak p (l ++ [a]) = 0 := by
  simp [streak, List.rtakeWhile_concat_neg p l a (by simp [h])]

/-- The last `n` entries are all `a` just when the streak of `a`s has reached `n`.  A threshold on a
counter is read this way as a statement about what happened. -/
lemma replicate_suffix_iff [DecidableEq α] {n : ℕ} {l : List α} {a : α} :
    List.replicate n a <:+ l ↔ n ≤ streak (fun b => decide (b = a)) l := by
  constructor
  · rintro ⟨front, rfl⟩
    induction n with
    | zero => simp
    | succ n ih =>
        rw [List.replicate_succ', ← List.append_assoc, streak_concat_pos (by simp)]
        omega
  · intro h
    generalize hrun : l.rtakeWhile (fun b => decide (b = a)) = last
    have hlast : last <:+ l := hrun ▸ List.rtakeWhile_suffix _ l
    have hall : last = List.replicate last.length a := by
      rw [List.eq_replicate_iff]
      refine ⟨rfl, fun b hb => ?_⟩
      subst hrun
      simpa using List.mem_rtakeWhile_imp hb
    have hlen : n ≤ last.length := by simpa [streak, hrun] using h
    refine List.IsSuffix.trans ?_ hlast
    rw [hall]
    exact ⟨List.replicate (last.length - n) a, by
      rw [← List.replicate_add, Nat.sub_add_cancel hlen]⟩

end Streak

end Moaray.Framework
