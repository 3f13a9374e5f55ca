import Mathlib.Tactic

/-!
# Finite maps with ordered keys

`Table K V` is the extensional tree map at the canonical order of its keys.  Two tables with the
same lookups are equal, so it stands both for an ordered map and for a hash map whose iteration
order nobody reads.

* `getElem?_insert_eq`, `getElem?_filter_key`, `mem_toList` — insertion, filtering by key, and
  membership in the list of rows, with equality of keys in place of the comparison function.
* `getElem?_foldl_insert` — rows inserted one after the other under distinct keys.
* `rows` — the values alone.

**Design.**  A map that is rebuilt from a list of rows, with the later row in the place of an
earlier one under its key, is a fold of insertions.  `getElem?_foldl_insert` is what is known of it
where no key comes twice, and that is what a configuration whose names are checked to be distinct
provides.
-/

namespace Moaray.Framework

/-- A finite map from `K` to `V`.  Equality of tables is equality of lookups. -/
abbrev Table (K V : Type*) [Ord K] := Std.ExtTreeMap K V compare

namespace Table

variable {K V : Type*} [Ord K] [Std.TransOrd K] [Std.LawfulEqOrd K]

lemma getElem?_insert_eq [DecidableEq K] (m : Table K V) (k a : K) (v : V) :
    (m.insert k v)[a]? = if k = a then some v else m[a]? := by
  rw [Std.ExtTreeMap.getElem?_insert]
  simp only [Std.LawfulEqOrd.compare_eq_iff_eq]

@[simp] lemma getElem?_insert_same (m : Table K V) (k : K) (v : V) :
    (m.insert k v)[k]? = some v := by
  simp

lemma getElem?_insert_ne (m : Table K V) {k a : K} (v : V) (h : k ≠ a) :
    (m.insert k v)[a]? = m[a]? := by
  classical
  rw [getElem?_insert_eq, if_neg h]

lemma getElem?_filter_key (m : Table K V) (p : K → Bool) (a : K) :
    (m.filter fun k _ => p k)[a]? = if p a then m[a]? else none := by
  rw [Std.ExtTreeMap.getElem?_filter']
  cases h : m[a]? <;> simp [Option.filter]

lemma mem_toList {m : Table K V} {k : K} {v : V} : (k, v) ∈ m.toList ↔ m[k]? = some v :=
  Std.ExtTreeMap.mem_toList_iff_getElem?_eq_some

omit [Std.LawfulEqOrd K] in
lemma nodup_toList (m : Table K V) : (m.toList.map Prod.fst).Nodup := by
  rw [Std.ExtTreeMap.map_fst_toList_eq_keys]
  exact Std.ExtTreeMap.nodup_keys

/-- The values of a table, in the order of their keys. -/
def rows (m : Table K V) : List V := m.toList.map Prod.snd

/-- Rows inserted one after the other under distinct keys are all there: none takes the place of
another.  The table they are put into may hold anything under other keys. -/
lemma getElem?_foldl_insert {α : Type*} (key : α → K) (val : α → V) {l : List α}
    (hnodup : (l.map key).Nodup) {m : Table K V} {k : K} {v : V} :
    (l.foldl (fun m a => m.insert (key a) (val a)) m)[k]? = some v ↔
      (∃ a ∈ l, key a = k ∧ val a = v) ∨ (k ∉ l.map key ∧ m[k]? = some v) := by
  classical
  induction l generalizing m with
  | nil => simp
  | cons a l ih =>
      obtain ⟨ha, hl⟩ := List.nodup_cons.1 hnodup
      rw [List.foldl_cons, ih hl, getElem?_insert_eq, List.exists_mem_cons_iff, List.map_cons,
        List.mem_cons, not_or]
      by_cases hk : key a = k
      · subst hk
        rw [if_pos rfl]
        simp [ha, or_comm]
      · rw [if_neg hk]
        simp [hk, Ne.symm hk]

lemma mem_rows {m : Table K V} {v : V} : v ∈ rows m ↔ ∃ k : K, m[k]? = some v := by
  simp [rows]

end Table

end Moaray.Framework
