import Moaray.Framework.Table

/-!
# Pools of shared cells

A `Pool K V` is a concurrent map from keys to shared objects, taken apart into the map and the
objects: `index` sends a key to the position of its object in `cells`, and `cells` only ever grows.
A position therefore names one object for ever, also after its key has been dropped or moved to
another object — the pointer a long-lived client keeps.

The operation that matters is `ensure`: a key is to be served by an object built to a wanted
specification, and an object that already meets it is kept.

* `Meets` — the key's current object has the wanted specification.
* `ensure_of_meets`, `meets_ensure`, `lookup_ensure_ne` — what one `ensure` does.
* `lookup_ensureAll_of_meets`, `lookup_ensureAll_of_not_meets` — what a whole list of requests does
  to a key whose requests all agree: the object is kept, or it is a fresh one.
* `ensureAll_of_meets`, `cells_ensureAll_eq_iff` — the requests that leave a pool alone.
* `lookup_ensureAll_perm`, `find_ensureAll_perm` — requests that agree may come in any order.
* `cells_prefix_ensureAll` — nothing is ever done to an existing object.
* `Distinct` — no object serves two keys; every operation keeps it so.

The content of an object changes by itself while the pool is used (`update`), and its specification
does not.  This is why an object is compared by its specification, `spec`, and never by its
content, and why `build` has to make an object of the specification it is given.

**Design.**  Keys that are dropped leave their objects in `cells`.  That is no claim about memory:
it is what lets a client that has kept a position go on using the object, and lets two objects that
served one key at different times be told apart.  What is said of the map is said through `lookup`,
and what is said of an object through `deref`; `find` is the two together, for a client that comes
anew.
-/

namespace Moaray.Framework

/-- A map from keys to positions of shared cells.  Every position the map has is one of the cells.
-/
structure Pool (K V : Type*) [Ord K] [Std.TransOrd K] where
  /-- The position a key is served by. -/
  index : Table K ℕ
  /-- The cells, in the order they were built. -/
  cells : List V
  /-- Every indexed position has been built. -/
  bound : ∀ (k : K) (r : ℕ), index[k]? = some r → r < cells.length

namespace Pool

variable {K V W ι : Type*} [Ord K] [Std.TransOrd K]

/-! ## Operations -/

def empty : Pool K V where
  index := ∅
  cells := []
  bound := by simp

/-- The position a key is served by. -/
def lookup (P : Pool K V) (k : K) : Option ℕ := P.index[k]?

/-- The content of a cell. -/
def deref (P : Pool K V) (r : ℕ) : Option V := P.cells[r]?

/-- The content of the cell a key is served by: what a client sees that comes with the key. -/
def find (P : Pool K V) (k : K) : Option V := (P.lookup k).bind P.deref

/-- Build a new cell and let it serve `k`. -/
def insert [Std.LawfulEqOrd K] (P : Pool K V) (k : K) (v : V) : Pool K V where
  index := P.index.insert k P.cells.length
  cells := P.cells ++ [v]
  bound a r h := by
    classical
    rw [Table.getElem?_insert_eq] at h
    rw [List.length_append, List.length_singleton]
    split at h
    · obtain rfl : P.cells.length = r := by simpa using h
      exact Nat.lt_succ_self _
    · exact Nat.lt_succ_of_lt (P.bound a r h)

/-- Drop the keys that fail `p`; their cells stay where they are, for the clients that still have
them. -/
def retain [Std.LawfulEqOrd K] (P : Pool K V) (p : K → Bool) : Pool K V where
  index := P.index.filter fun k _ => p k
  cells := P.cells
  bound a r h := by
    rw [Table.getElem?_filter_key] at h
    split at h
    · exact P.bound a r h
    · cases h

def update (P : Pool K V) (r : ℕ) (v : V) : Pool K V where
  index := P.index
  cells := P.cells.set r v
  bound a q h := by
    rw [List.length_set]
    exact P.bound a q h

/-- Let `k` be served by a cell of specification `w`: keep the one it has if it meets `w`, and build
one otherwise.  A cell that does not meet `w` is left to the clients that have it. -/
def ensure [Std.LawfulEqOrd K] [DecidableEq W] (spec : V → W) (build : W → V) (P : Pool K V)
    (k : K) (w : W) : Pool K V :=
  if (P.find k).any fun v => decide (spec v = w) then P else P.insert k (build w)

/-- Serve a list of requests in order, so that a later request for a key has the last word. -/
def ensureAll [Std.LawfulEqOrd K] [DecidableEq W] (spec : V → W) (build : W → V) (P : Pool K V)
    (items : List (K × W)) : Pool K V :=
  items.foldl (fun P i => P.ensure spec build i.1 i.2) P

/-! ## Lookups and contents -/

lemma find_eq_some {P : Pool K V} {k : K} {v : V} :
    P.find k = some v ↔ ∃ r, P.lookup k = some r ∧ P.deref r = some v := by
  simp [find, Option.bind_eq_some_iff]

lemma lt_of_lookup {P : Pool K V} {k : K} {r : ℕ} (h : P.lookup k = some r) :
    r < P.cells.length := P.bound k r h

lemma deref_lt {P : Pool K V} {r : ℕ} {v : V} (h : P.deref r = some v) : r < P.cells.length :=
  (List.getElem?_eq_some_iff.1 h).1

lemma exists_deref {P : Pool K V} {k : K} {r : ℕ} (h : P.lookup k = some r) :
    ∃ v, P.deref r = some v :=
  ⟨_, List.getElem?_eq_getElem (lt_of_lookup h)⟩

lemma deref_mono {P Q : Pool K V} (h : P.cells <+: Q.cells) {r : ℕ} {v : V}
    (hr : P.deref r = some v) : Q.deref r = some v := by
  obtain ⟨ext, hext⟩ := h
  have hlt := deref_lt hr
  rw [deref, ← hext, List.getElem?_append_left hlt]
  exact hr

section Update

variable (P : Pool K V) (r : ℕ) (v : V)

@[simp] lemma lookup_update (k : K) : (P.update r v).lookup k = P.lookup k := rfl

lemma deref_update_self (h : r < P.cells.length) : (P.update r v).deref r = some v := by
  simp [deref, update, h]

lemma deref_update_ne {q : ℕ} (h : q ≠ r) : (P.update r v).deref q = P.deref q := by
  simp [deref, update, Ne.symm h]

/-- What holds of every object goes on holding when one is replaced by another it holds of. -/
lemma forall_deref_update {I : V → Prop} (hP : ∀ q w, P.deref q = some w → I w) (hv : I v) :
    ∀ q w, (P.update r v).deref q = some w → I w := by
  intro q w hq
  by_cases hqr : q = r
  · subst hqr
    have hlt : q < P.cells.length := by
      have hlt := deref_lt hq
      simpa [update] using hlt
    rw [deref_update_self P q v hlt] at hq
    cases hq
    exact hv
  · rw [deref_update_ne P r v hqr] at hq
    exact hP q w hq

@[simp] lemma length_update : (P.update r v).cells.length = P.cells.length := by
  simp [update]

end Update

/-! ## Specifications -/

section Meets

variable (spec : V → W)

/-- The key is served by a cell of the wanted specification. -/
def Meets (P : Pool K V) (k : K) (w : W) : Prop :=
  ∃ r v, P.lookup k = some r ∧ P.deref r = some v ∧ spec v = w

variable {spec} {P : Pool K V} {k : K} {w : W}

lemma meets_iff [DecidableEq W] :
    (P.find k).any (fun v => decide (spec v = w)) = true ↔ Meets spec P k w := by
  simp only [Option.any_eq_true_iff_get, decide_eq_true_eq, Meets]
  constructor
  · rintro ⟨hsome, hspec⟩
    obtain ⟨r, hr, hv⟩ := find_eq_some.1 (Option.some_get hsome).symm
    exact ⟨r, _, hr, hv, hspec⟩
  · rintro ⟨r, v, hr, hv, hspec⟩
    have hfind : P.find k = some v := find_eq_some.2 ⟨r, hr, hv⟩
    simp [hfind, hspec]

/-- A change of content that keeps the specification changes nothing about which keys are served to
which specification. -/
lemma meets_update {r : ℕ} {u v : V} (hr : P.deref r = some u) (hv : spec v = spec u) :
    Meets spec (P.update r v) k w ↔ Meets spec P k w := by
  have hspec : ∀ q, ((P.update r v).deref q).map spec = (P.deref q).map spec := by
    intro q
    by_cases hqr : q = r
    · subst hqr
      rw [deref_update_self P q v (deref_lt hr), hr, Option.map_some, Option.map_some, hv]
    · rw [deref_update_ne P r v hqr]
  have hiff : ∀ Q : Pool K V, Meets spec Q k w ↔
      ∃ q, Q.lookup k = some q ∧ (Q.deref q).map spec = some w := by
    intro Q
    simp only [Meets, Option.map_eq_some_iff]
    constructor
    · rintro ⟨q, x, hq, hx, hw⟩
      exact ⟨q, hq, x, hx, hw⟩
    · rintro ⟨q, hq, x, hx, hw⟩
      exact ⟨q, x, hq, hx, hw⟩
  rw [hiff, hiff]
  simp only [lookup_update, hspec]

/-- Extending the cells without touching the key keeps what the key is served by. -/
lemma Meets.mono {Q : Pool K V} (hcells : P.cells <+: Q.cells) (hk : Q.lookup k = P.lookup k)
    (h : Meets spec P k w) : Meets spec Q k w := by
  obtain ⟨r, v, hr, hv, hspec⟩ := h
  exact ⟨r, v, hk.trans hr, deref_mono hcells hv, hspec⟩

/-- Nor can the key come to meet a specification that way: its cell is the one it was. -/
lemma Meets.anti {Q : Pool K V} (hcells : P.cells <+: Q.cells) (hk : Q.lookup k = P.lookup k)
    (h : Meets spec Q k w) : Meets spec P k w := by
  obtain ⟨r, v, hr, hv, hspec⟩ := h
  rw [hk] at hr
  obtain ⟨v', hv'⟩ := exists_deref hr
  obtain rfl : v' = v := by simpa [deref_mono hcells hv'] using hv
  exact ⟨r, v', hr, hv', hspec⟩

end Meets

variable [Std.LawfulEqOrd K]

section Insert

variable (P : Pool K V) (k : K) (v : V)

@[simp] lemma lookup_insert_same : (P.insert k v).lookup k = some P.cells.length := by
  simp [lookup, insert]

lemma lookup_insert_ne {a : K} (h : k ≠ a) : (P.insert k v).lookup a = P.lookup a :=
  Table.getElem?_insert_ne _ _ h

@[simp] lemma deref_insert_new : (P.insert k v).deref P.cells.length = some v := by
  simp [deref, insert]

lemma cells_prefix_insert : P.cells <+: (P.insert k v).cells := ⟨[v], rfl⟩

end Insert

section Retain

variable (P : Pool K V) (p : K → Bool)

lemma lookup_retain (k : K) : (P.retain p).lookup k = if p k then P.lookup k else none :=
  Table.getElem?_filter_key _ _ _

variable {P p} in
/-- Nothing is dropped when every key of the pool is kept. -/
lemma retain_of_forall (h : ∀ k, (P.lookup k).isSome → p k) : P.retain p = P := by
  have hindex : (P.retain p).index = P.index := by
    refine Std.ExtTreeMap.ext_getElem? fun k => (P.lookup_retain p k).trans ?_
    split
    · rfl
    · rename_i hdead
      cases hk : P.lookup k with
      | none => exact hk.symm
      | some r => exact absurd (h k (by rw [hk]; rfl)) hdead
  cases P
  simp only [retain] at hindex ⊢
  simp only [hindex]

end Retain

/-! ## Serving requests -/

section Ensure

variable [DecidableEq W] {spec : V → W} {build : W → V} {P : Pool K V} {k : K} {w : W}

lemma ensure_of_meets (h : Meets spec P k w) : P.ensure spec build k w = P := by
  rw [ensure, if_pos (meets_iff.2 h)]

lemma ensure_of_not_meets (h : ¬ Meets spec P k w) :
    P.ensure spec build k w = P.insert k (build w) := by
  rw [ensure, if_neg (fun hm => h (meets_iff.1 hm))]

lemma meets_ensure (hbuild : ∀ w, spec (build w) = w) :
    Meets spec (P.ensure spec build k w) k w := by
  by_cases h : Meets spec P k w
  · rwa [ensure_of_meets h]
  · rw [ensure_of_not_meets h]
    exact ⟨_, _, lookup_insert_same P k _, deref_insert_new P k _, hbuild w⟩

variable (spec build P w) in
lemma lookup_ensure_ne {a : K} (h : k ≠ a) :
    (P.ensure spec build k w).lookup a = P.lookup a := by
  unfold ensure
  split
  · rfl
  · exact lookup_insert_ne P k _ h

lemma cells_prefix_ensure : P.cells <+: (P.ensure spec build k w).cells := by
  unfold ensure
  split
  · exact List.prefix_rfl
  · exact cells_prefix_insert P k _

/-- What holds of every object, and of every one that may be built, goes on holding. -/
lemma forall_deref_ensure {I : V → Prop} (hP : ∀ r v, P.deref r = some v → I v)
    (hbuild : I (build w)) : ∀ r v, (P.ensure spec build k w).deref r = some v → I v := by
  intro r v hr
  unfold ensure at hr
  split at hr
  · exact hP r v hr
  · rcases Nat.lt_or_ge r P.cells.length with hlt | hge
    · refine hP r v ?_
      rwa [deref, insert, List.getElem?_append_left hlt] at hr
    · obtain ⟨hlt, hv⟩ := List.getElem?_eq_some_iff.1 hr
      have hr' : r = P.cells.length := by
        simp only [insert, List.length_append, List.length_singleton] at hlt
        omega
      subst hr'
      obtain rfl : build w = v := by simpa using hr
      exact hbuild

/-! ### A list of requests -/

variable {items : List (K × W)}

lemma ensureAll_cons (i : K × W) :
    P.ensureAll spec build (i :: items) =
      (P.ensure spec build i.1 i.2).ensureAll spec build items := rfl

lemma cells_prefix_ensureAll : P.cells <+: (P.ensureAll spec build items).cells := by
  induction items generalizing P with
  | nil => exact List.prefix_rfl
  | cons i items ih =>
      rw [ensureAll_cons]
      exact cells_prefix_ensure.trans ih

lemma forall_deref_ensureAll {I : V → Prop} (hP : ∀ r v, P.deref r = some v → I v)
    (hbuild : ∀ w, I (build w)) :
    ∀ r v, (P.ensureAll spec build items).deref r = some v → I v := by
  induction items generalizing P with
  | nil => exact hP
  | cons i items ih =>
      rw [ensureAll_cons]
      exact ih (forall_deref_ensure hP (hbuild i.2))

lemma lookup_ensureAll_of_not_mem (h : ∀ i ∈ items, i.1 ≠ k) :
    (P.ensureAll spec build items).lookup k = P.lookup k := by
  induction items generalizing P with
  | nil => rfl
  | cons i items ih =>
      rw [ensureAll_cons, ih fun j hj => h j (List.mem_cons_of_mem _ hj)]
      exact lookup_ensure_ne spec build P i.2 (h i (List.mem_cons_self ..))

/-- A key whose cell already meets all its requests keeps that cell, whatever is asked for the other
keys. -/
theorem lookup_ensureAll_of_meets (hagree : ∀ i ∈ items, i.1 = k → i.2 = w)
    (h : Meets spec P k w) : (P.ensureAll spec build items).lookup k = P.lookup k := by
  induction items generalizing P with
  | nil => rfl
  | cons i items ih =>
      have hrest : ∀ j ∈ items, j.1 = k → j.2 = w :=
        fun j hj => hagree j (List.mem_cons_of_mem _ hj)
      rw [ensureAll_cons]
      by_cases hi : i.1 = k
      · have hw : i.2 = w := hagree i (List.mem_cons_self ..) hi
        rw [hi, hw, ensure_of_meets h]
        exact ih hrest h
      · have hk := lookup_ensure_ne spec build P i.2 hi
        rw [ih hrest (h.mono cells_prefix_ensure hk), hk]

/-- A key whose cell does not meet its agreeing requests gets one fresh cell, built to them; the
first of the requests builds it, and the others find it there. -/
theorem lookup_ensureAll_of_not_meets (hbuild : ∀ w, spec (build w) = w)
    (hagree : ∀ i ∈ items, i.1 = k → i.2 = w) (hmem : (k, w) ∈ items) (h : ¬ Meets spec P k w) :
    ∃ r, (P.ensureAll spec build items).lookup k = some r ∧ P.cells.length ≤ r ∧
      (P.ensureAll spec build items).deref r = some (build w) := by
  induction items generalizing P with
  | nil => cases hmem
  | cons i items ih =>
      have hrest : ∀ j ∈ items, j.1 = k → j.2 = w :=
        fun j hj => hagree j (List.mem_cons_of_mem _ hj)
      rw [ensureAll_cons]
      by_cases hi : i.1 = k
      · -- The first request for `k` builds the cell; the later ones keep it.
        have hw : i.2 = w := hagree i (List.mem_cons_self ..) hi
        rw [hi, hw]
        have hmeets : Meets spec (P.ensure spec build k w) k w := meets_ensure hbuild
        refine ⟨P.cells.length, ?_, le_rfl, ?_⟩
        · rw [lookup_ensureAll_of_meets hrest hmeets, ensure_of_not_meets h]
          exact lookup_insert_same P k _
        · refine deref_mono cells_prefix_ensureAll ?_
          rw [ensure_of_not_meets h]
          exact deref_insert_new P k _
      · have hk := lookup_ensure_ne spec build P i.2 hi
        have hmem' : (k, w) ∈ items := by
          rcases List.mem_cons.1 hmem with heq | hin
          · exact absurd (congrArg Prod.fst heq).symm hi
          · exact hin
        obtain ⟨r, hr, hle, hv⟩ :=
          ih hrest hmem' (fun hm => h (hm.anti cells_prefix_ensure hk))
        exact ⟨r, hr, le_trans cells_prefix_ensure.length_le hle, hv⟩

/-- A key whose requests agree ends up served to their specification, whether its cell was kept or
built anew. -/
theorem meets_ensureAll (hbuild : ∀ w, spec (build w) = w)
    (hagree : ∀ i ∈ items, i.1 = k → i.2 = w) (hmem : (k, w) ∈ items) :
    Meets spec (P.ensureAll spec build items) k w := by
  by_cases h : Meets spec P k w
  · exact h.mono cells_prefix_ensureAll (lookup_ensureAll_of_meets hagree h)
  · obtain ⟨r, hr, -, hv⟩ := lookup_ensureAll_of_not_meets hbuild hagree hmem h
    exact ⟨r, _, hr, hv, hbuild w⟩

lemma ensureAll_of_meets (h : ∀ i ∈ items, Meets spec P i.1 i.2) :
    P.ensureAll spec build items = P := by
  induction items with
  | nil => rfl
  | cons i items ih =>
      obtain ⟨hone, hrest⟩ := List.forall_mem_cons.1 h
      rw [ensureAll_cons, ensure_of_meets hone, ih hrest]

/-- A pool that meets every request is left alone, and only such a pool builds no cell.  Cells are
never taken away, so one request that is not met is seen in the result. -/
theorem cells_ensureAll_eq_iff :
    (P.ensureAll spec build items).cells = P.cells ↔ ∀ i ∈ items, Meets spec P i.1 i.2 := by
  refine ⟨fun hcells => ?_, fun h => by rw [ensureAll_of_meets h]⟩
  induction items with
  | nil => exact nofun
  | cons i items ih =>
      rw [ensureAll_cons] at hcells
      have hone : Meets spec P i.1 i.2 := by
        -- A request that is not met builds a cell, which nothing takes away again.
        by_contra hnot
        have hprefix : (P.ensure spec build i.1 i.2).cells <+:
            ((P.ensure spec build i.1 i.2).ensureAll spec build items).cells :=
          cells_prefix_ensureAll
        rw [hcells, ensure_of_not_meets hnot] at hprefix
        have hle := hprefix.length_le
        simp [insert] at hle
      rw [ensure_of_meets hone] at hcells
      exact List.forall_mem_cons.2 ⟨hone, ih hcells⟩

/-- Serving requests never leaves a key without a cell. -/
lemma lookup_ensure_isSome_of_isSome {a : K} (h : (P.lookup a).isSome) :
    ((P.ensure spec build k w).lookup a).isSome := by
  unfold ensure
  split
  · exact h
  · by_cases hka : k = a
    · subst hka
      simp
    · rwa [lookup_insert_ne P k _ hka]

lemma lookup_ensure_isSome : ((P.ensure spec build k w).lookup k).isSome := by
  by_cases h : Meets spec P k w
  · obtain ⟨r, v, hr, -, -⟩ := h
    exact lookup_ensure_isSome_of_isSome (by simp [hr])
  · rw [ensure_of_not_meets h]
    simp

/-! ### The order of the requests -/

variable {items' : List (K × W)}

/-- An object the pool already had serves a key after the requests in one order if and only if it
does in another, as long as the requests for each key agree. -/
theorem lookup_ensureAll_perm (hbuild : ∀ w, spec (build w) = w) (hperm : items.Perm items')
    (hagree : ∀ i ∈ items, ∀ j ∈ items, i.1 = j.1 → i.2 = j.2) {r : ℕ} (hr : r < P.cells.length) :
    (P.ensureAll spec build items).lookup k = some r ↔
      (P.ensureAll spec build items').lookup k = some r := by
  by_cases hk : ∃ w, (k, w) ∈ items
  · obtain ⟨w, hw⟩ := hk
    have hagree₁ : ∀ i ∈ items, i.1 = k → i.2 = w := fun i hi hik => hagree i hi _ hw hik
    have hagree₂ : ∀ i ∈ items', i.1 = k → i.2 = w := fun i hi => hagree₁ i (hperm.mem_iff.2 hi)
    by_cases hmeets : Meets spec P k w
    · rw [lookup_ensureAll_of_meets hagree₁ hmeets, lookup_ensureAll_of_meets hagree₂ hmeets]
    · -- Neither order keeps an object: both build a fresh one.
      obtain ⟨a, ha, hale, -⟩ := lookup_ensureAll_of_not_meets hbuild hagree₁ hw hmeets
      obtain ⟨b, hb, hble, -⟩ :=
        lookup_ensureAll_of_not_meets hbuild hagree₂ (hperm.mem_iff.1 hw) hmeets
      rw [ha, hb, Option.some_inj, Option.some_inj]
      omega
  · have hnot : ∀ i ∈ items, i.1 ≠ k := by
      rintro ⟨a, w⟩ hi rfl
      exact hk ⟨w, hi⟩
    rw [lookup_ensureAll_of_not_mem hnot,
      lookup_ensureAll_of_not_mem fun i hi => hnot i (hperm.mem_iff.2 hi)]

/-- Whichever object serves a key, its content is the same after the requests in both orders. -/
theorem find_ensureAll_perm (hbuild : ∀ w, spec (build w) = w) (hperm : items.Perm items')
    (hagree : ∀ i ∈ items, ∀ j ∈ items, i.1 = j.1 → i.2 = j.2) :
    (P.ensureAll spec build items).find k = (P.ensureAll spec build items').find k := by
  have hkept : ∀ is : List (K × W), (P.ensureAll spec build is).lookup k = P.lookup k →
      (P.ensureAll spec build is).find k = P.find k := by
    intro is hlookup
    rw [find, find, hlookup]
    cases hr : P.lookup k with
    | none => rfl
    | some r =>
        obtain ⟨v, hv⟩ := exists_deref hr
        simp [hv, deref_mono cells_prefix_ensureAll hv]
  by_cases hk : ∃ w, (k, w) ∈ items
  · obtain ⟨w, hw⟩ := hk
    have hagree₁ : ∀ i ∈ items, i.1 = k → i.2 = w := fun i hi hik => hagree i hi _ hw hik
    have hagree₂ : ∀ i ∈ items', i.1 = k → i.2 = w := fun i hi => hagree₁ i (hperm.mem_iff.2 hi)
    by_cases hmeets : Meets spec P k w
    · rw [hkept _ (lookup_ensureAll_of_meets hagree₁ hmeets),
        hkept _ (lookup_ensureAll_of_meets hagree₂ hmeets)]
    · obtain ⟨a, ha, -, hva⟩ := lookup_ensureAll_of_not_meets hbuild hagree₁ hw hmeets
      obtain ⟨b, hb, -, hvb⟩ :=
        lookup_ensureAll_of_not_meets hbuild hagree₂ (hperm.mem_iff.1 hw) hmeets
      rw [find_eq_some.2 ⟨a, ha, hva⟩, find_eq_some.2 ⟨b, hb, hvb⟩]
  · have hnot : ∀ i ∈ items, i.1 ≠ k := by
      rintro ⟨a, w⟩ hi rfl
      exact hk ⟨w, hi⟩
    rw [hkept _ (lookup_ensureAll_of_not_mem hnot),
      hkept _ (lookup_ensureAll_of_not_mem fun i hi => hnot i (hperm.mem_iff.2 hi))]

end Ensure

/-! ## No two keys share an object -/

section Distinct

variable {P : Pool K V}

/-- Different keys are served by different objects, so what is done to one of them is not done to
the other. -/
def Distinct (P : Pool K V) : Prop :=
  ∀ (k k' : K) (r : ℕ), P.lookup k = some r → P.lookup k' = some r → k = k'

omit [Std.LawfulEqOrd K] in
lemma distinct_empty : (Pool.empty : Pool K V).Distinct := by
  intro k k' r hk
  simp [lookup, empty] at hk

lemma Distinct.insert (h : P.Distinct) (k : K) (v : V) : (P.insert k v).Distinct := by
  classical
  have hnew : ∀ (a : K) (r : ℕ), (P.insert k v).lookup a = some r →
      (a = k ∧ r = P.cells.length) ∨ (P.lookup a = some r ∧ r < P.cells.length) := by
    intro a r ha
    by_cases hak : k = a
    · subst hak
      exact .inl ⟨rfl, by simpa using ha.symm⟩
    · rw [lookup_insert_ne P k v hak] at ha
      exact .inr ⟨ha, lt_of_lookup ha⟩
  intro a b r ha hb
  rcases hnew a r ha with ⟨rfl, hr⟩ | ⟨ha', hlt⟩ <;>
    rcases hnew b r hb with ⟨rfl, hr'⟩ | ⟨hb', hlt'⟩
  · rfl
  · omega
  · omega
  · exact h a b r ha' hb'

lemma Distinct.ensure [DecidableEq W] {spec : V → W} {build : W → V} (h : P.Distinct) (k : K)
    (w : W) : (P.ensure spec build k w).Distinct := by
  unfold Pool.ensure
  split
  · exact h
  · exact h.insert k _

lemma Distinct.retain (h : P.Distinct) (p : K → Bool) : (P.retain p).Distinct := by
  intro k k' r hk hk'
  rw [lookup_retain] at hk hk'
  split at hk
  · split at hk'
    · exact h k k' r hk hk'
    · cases hk'
  · cases hk

omit [Std.LawfulEqOrd K] in
lemma Distinct.update (h : P.Distinct) (r : ℕ) (v : V) : (P.update r v).Distinct := h

end Distinct

end Pool

end Moaray.Framework
