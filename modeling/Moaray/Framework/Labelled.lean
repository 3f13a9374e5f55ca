import Mathlib.Tactic

/-!
# Lists whose items carry labels

The items of many parties in one list, each with the label of its party: a log that several writers
append to, or the messages of several senders on one channel.

* `labelled` — the items of one label; `among` — those of a finite set of labels.
* `AddsUp` — a relation of lists that adds up and does not see their order.
* `AddsUp.of_labelled` — such a relation holds of two lists if it holds label by label.

A property of a system that serves many parties at once is often a sum: so many items of one kind
against so many of another.  What can be proved of the system is about one party, since the steps
of the others do not touch it.  `AddsUp.of_labelled` is the bridge: if the relation holds between
what each party left in the one list and what it left in the other, it holds between the lists.

**Design.**  The two lists need not have their items in the same order, nor name the same labels.
The proof goes by induction on the finite set of labels that occur in either; `among_insert_perm`
is the step, which is why the relation must not see the order.
-/

namespace Moaray.Framework

variable {ι α β : Type*} [DecidableEq ι]

/-- The items of one label, in the order they stand in the list. -/
def labelled (id : ι) (l : List (ι × α)) : List α := (l.filter fun e => e.1 = id).map Prod.snd

def among (ids : Finset ι) (l : List (ι × α)) : List α :=
  (l.filter fun e => e.1 ∈ ids).map Prod.snd

/-- The items of labels that pass a test: all items of a label, or none of them. -/
lemma labelled_filter (p : ι → Bool) (id : ι) (l : List (ι × α)) :
    labelled id (l.filter fun e => p e.1) = if p id then labelled id l else [] := by
  unfold labelled
  rw [List.filter_filter]
  split
  · rename_i hp
    refine congrArg (List.map Prod.snd) (List.filter_congr fun e _ => ?_)
    by_cases he : e.1 = id
    · simp [he, hp]
    · simp [he]
  · rename_i hp
    refine List.map_eq_nil_iff.2 (List.filter_eq_nil_iff.2 fun e _ => ?_)
    by_cases he : e.1 = id
    · simp [he, hp]
    · simp [he]

@[simp] lemma among_empty (l : List (ι × α)) : among ∅ l = [] := by
  simp [among]

/-- When the labels of a list are all among those asked for, nothing is left out. -/
lemma among_of_labels {ids : Finset ι} {l : List (ι × α)} (h : ∀ e ∈ l, e.1 ∈ ids) :
    among ids l = l.map Prod.snd := by
  refine congrArg (List.map Prod.snd) (List.filter_eq_self.2 fun e he => ?_)
  simpa using h e he

/-- One more label adds its own items to those of the others, up to their order. -/
lemma among_insert_perm {ids : Finset ι} {id : ι} (hid : id ∉ ids) (l : List (ι × α)) :
    (labelled id l ++ among ids l).Perm (among (insert id ids) l) := by
  unfold labelled among
  rw [← List.map_append]
  refine List.Perm.map _ ?_
  have hone : (l.filter fun e => e.1 = id) =
      (l.filter fun e => e.1 ∈ insert id ids).filter fun e => e.1 = id := by
    rw [List.filter_filter]
    refine List.filter_congr fun e _ => ?_
    by_cases he : e.1 = id <;> simp [he]
  have hrest : (l.filter fun e => e.1 ∈ ids) =
      (l.filter fun e => e.1 ∈ insert id ids).filter fun e => !decide (e.1 = id) := by
    rw [List.filter_filter]
    refine List.filter_congr fun e _ => ?_
    by_cases he : e.1 = id <;> simp [he, hid]
  rw [hone, hrest]
  exact List.filter_append_perm _ _

/-- A relation of lists that adds up and does not see their order: it holds of nothing, of two pairs
put together, and of any rearrangement.  Sums and counts compared by an equation or an inequality
are of this kind. -/
structure AddsUp (P : List α → List β → Prop) : Prop where
  nil : P [] []
  append : ∀ {a a' b b'}, P a b → P a' b' → P (a ++ a') (b ++ b')
  perm : ∀ {a a' b b'}, a.Perm a' → b.Perm b' → P a b → P a' b'

/-- What adds up holds of two lists if it holds label by label, whatever labels there are and
however the items of different labels are interleaved. -/
theorem AddsUp.of_labelled {P : List α → List β → Prop} (hP : AddsUp P) {l : List (ι × α)}
    {l' : List (ι × β)} (h : ∀ id, P (labelled id l) (labelled id l')) :
    P (l.map Prod.snd) (l'.map Prod.snd) := by
  have hamong : ∀ ids : Finset ι, P (among ids l) (among ids l') := by
    intro ids
    induction ids using Finset.induction_on with
    | empty =>
        rw [among_empty, among_empty]
        exact hP.nil
    | insert id ids hid ih =>
        exact hP.perm (among_insert_perm hid l) (among_insert_perm hid l') (hP.append (h id) ih)
  let ids := (l.map Prod.fst ++ l'.map Prod.fst).toFinset
  have hall : among ids l = l.map Prod.snd := by
    refine among_of_labels fun e he => ?_
    have hmem : e.1 ∈ l.map Prod.fst := List.mem_map_of_mem he
    exact List.mem_toFinset.2 (List.mem_append_left _ hmem)
  have hall' : among ids l' = l'.map Prod.snd := by
    refine among_of_labels fun e he => ?_
    have hmem : e.1 ∈ l'.map Prod.fst := List.mem_map_of_mem he
    exact List.mem_toFinset.2 (List.mem_append_right _ hmem)
  rw [← hall, ← hall']
  exact hamong ids

end Moaray.Framework
