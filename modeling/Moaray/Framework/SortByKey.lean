import Mathlib.Data.List.Pairwise
import Mathlib.Data.List.Sort

/-!
# Sorting by a key

The stable sort by a key, as insertion sort so that it evaluates.  Where the keys of a list are
strictly increasing, sorting recovers the list from any permutation of it.

* `sortByKey_of_perm` — the order in which distinct keys arrive is forgotten.
* `eq_of_key_eq` — strictly increasing keys tell the elements of a list apart.

Tasks that were started in one order and joined in another are put back this way: each carries its
index, and its index is its key.

**Design.**  The theorem is about lists whose keys are strictly increasing and not about lists
without duplicate keys.  The caller has such a list, the one it started from, and what is asked is
that sorting gives back that very list, the values included.
-/

namespace Moaray.Framework

variable {α β κ : Type*} [LinearOrder κ]

/-- The stable sort of a list by a key: elements of one key stay in the order they came in. -/
def sortByKey (key : α → κ) (l : List α) : List α :=
  l.insertionSort fun a b => key a ≤ key b

variable (key : α → κ)

lemma sortByKey_perm (l : List α) : (sortByKey key l).Perm l :=
  List.perm_insertionSort _ _

lemma pairwise_sortByKey (l : List α) :
    (sortByKey key l).Pairwise fun a b => key a ≤ key b := by
  have : Std.Total fun a b : α => key a ≤ key b := ⟨fun a b => le_total (key a) (key b)⟩
  have : IsTrans α fun a b => key a ≤ key b := ⟨fun _ _ _ => le_trans⟩
  exact List.pairwise_insertionSort _ _

variable {key}

/-- Strictly increasing keys tell the elements of a list apart: two of them with one key are the
same element. -/
lemma eq_of_key_eq {l : List α} (hl : l.Pairwise fun a b => key a < key b) {a b : α} (ha : a ∈ l)
    (hb : b ∈ l) (h : key a = key b) : a = b := by
  have : Std.Symm fun a b : α => key a ≠ key b := ⟨fun _ _ hne => Ne.symm hne⟩
  have hne : l.Pairwise fun a b => key a ≠ key b := hl.imp ne_of_lt
  by_contra hab
  exact List.Pairwise.forall hne ha hb hab h

/-- Sorting forgets the order in which elements of distinct keys arrive.  The sorted list is a
permutation with increasing keys, and there is only one. -/
theorem sortByKey_of_perm {l l' : List α} (hperm : l'.Perm l)
    (hl : l.Pairwise fun a b => key a < key b) : sortByKey key l' = l := by
  have hsorted : (sortByKey key l').Perm l := (sortByKey_perm key l').trans hperm
  refine List.Perm.eq_of_pairwise ?_ (pairwise_sortByKey key l') (hl.imp le_of_lt) hsorted
  intro a b ha hb hab hba
  exact eq_of_key_eq hl (hsorted.mem_iff.1 ha) hb (le_antisymm hab hba)

end Moaray.Framework
