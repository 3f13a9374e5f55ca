import Mathlib.Data.String.Basic
import Moaray.Core.Types

/-!
# Objects by their fields

An object of the JSON library keeps its fields in the order of their keys, so it is known by what
its keys look up.  The wire types split an object into the fields they know and the others, and put
it together again.

* `Map.Ordered` — the order; `Ordered.ext`: two objects that look up the same are the same.
* `Map.get_flattened`, `flatten_eq` — known fields and others put together.
* `Map.dropNull`, `Map.orInsert` — an object without the nulls that stand for an absent field, and
  with a field that has a default.
* `Lawful` — a value as the library builds it; `Value.isLawful` computes whether one is.

Reading and printing are compared field by field: the lemmas here say what each operation makes of
the lookup of one key, and `Ordered.ext` turns that into an equation between objects.  No proof
follows the order in which fields were inserted.

**Design.**  `Lawful` is what a value has by being built by the library: objects come from
insertions, so they are ordered, and a number is an integer or a finite double, since the parser
has no text for an infinity or a NaN.  It is a hypothesis wherever bytes were parsed, never of a
value the gateway builds by itself.  For a value that is written out, `isLawful` computes it, and
`lawful_of_isLawful` is what the computation proves.
-/

namespace Moaray

namespace Json

namespace Map

/-- The fields are in the order of their keys, and no key comes twice.  Insertion keeps an object
so. -/
def Ordered (m : Map) : Prop := m.Pairwise fun f g => f.1 < g.1

variable {m n : Map} {k a : String} {v w : Value}

lemma ordered_nil : Ordered [] := List.Pairwise.nil

lemma get_eq_none (h : ∀ f ∈ m, f.1 ≠ k) : get m k = none := by
  induction m with
  | nil => rfl
  | cons f m ih =>
      rw [get_cons, if_neg (Ne.symm (h f (List.mem_cons_self ..)))]
      exact ih fun g hg => h g (List.mem_cons_of_mem _ hg)

lemma mem_of_get (h : get m k = some v) : (k, v) ∈ m := by
  induction m with
  | nil => cases h
  | cons f m ih =>
      rw [get_cons] at h
      split at h
      · rename_i hk
        obtain rfl := Option.some.inj h
        rw [hk]
        exact List.mem_cons_self ..
      · exact List.mem_cons_of_mem _ (ih h)

lemma Ordered.get_of_mem (h : Ordered m) (hf : (k, v) ∈ m) : get m k = some v := by
  induction m with
  | nil => cases hf
  | cons f m ih =>
      obtain ⟨hlt, htail⟩ := List.pairwise_cons.1 h
      rw [get_cons]
      rcases List.mem_cons.1 hf with rfl | hf
      · exact if_pos rfl
      · rw [if_neg (hlt _ hf).ne', ih htail hf]

lemma mem_insert {f : String × Value} (h : f ∈ insert m k v) : f = (k, v) ∨ f ∈ m := by
  induction m with
  | nil => exact .inl (List.mem_singleton.1 h)
  | cons g m ih =>
      unfold insert at h
      split at h
      · rcases List.mem_cons.1 h with rfl | h
        · exact .inl rfl
        · exact .inr (List.mem_cons_of_mem _ h)
      · split at h
        · rcases List.mem_cons.1 h with rfl | h
          · exact .inl rfl
          · exact .inr h
        · rcases List.mem_cons.1 h with rfl | h
          · exact .inr (List.mem_cons_self ..)
          · rcases ih h with rfl | h
            · exact .inl rfl
            · exact .inr (List.mem_cons_of_mem _ h)

lemma Ordered.insert (h : Ordered m) : Ordered (insert m k v) := by
  induction m with
  | nil => exact List.pairwise_singleton _ _
  | cons g m ih =>
      obtain ⟨hlt, htail⟩ := List.pairwise_cons.1 h
      unfold Map.insert
      split
      · rename_i hk
        rw [hk]
        exact List.pairwise_cons.2 ⟨hlt, htail⟩
      · split
        · rename_i hbefore
          refine List.pairwise_cons.2 ⟨fun f hf => ?_, h⟩
          rcases List.mem_cons.1 hf with rfl | hf
          · exact hbefore
          · exact hbefore.trans (hlt f hf)
        · rename_i hne hbefore
          refine List.pairwise_cons.2 ⟨fun f hf => ?_, ih htail⟩
          rcases mem_insert hf with rfl | hf
          · exact lt_of_le_of_ne (not_lt.1 hbefore) (Ne.symm hne)
          · exact hlt f hf

lemma Ordered.insertSome (h : Ordered m) {v : Option Value} : Ordered (insertSome m k v) := by
  cases v with
  | none => exact h
  | some v => exact h.insert

lemma ordered_ofFields (fields : List (String × Value)) : Ordered (ofFields fields) := by
  induction fields using List.reverseRecOn with
  | nil => exact ordered_nil
  | append_singleton fields f ih =>
      rw [ofFields, List.foldl_append]
      exact ih.insert

lemma mem_ofFields {fields : List (String × Value)} {f : String × Value}
    (h : f ∈ ofFields fields) : f ∈ fields := by
  induction fields using List.reverseRecOn with
  | nil => cases h
  | append_singleton fields g ih =>
      rw [ofFields, List.foldl_append] at h
      rcases mem_insert h with rfl | h
      · exact List.mem_append_right _ (List.mem_singleton_self _)
      · exact List.mem_append_left _ (ih h)

/-- The first key of an object is the least one it looks up. -/
lemma Ordered.head_le {f : String × Value} (h : Ordered (f :: m)) (hk : (get (f :: m) k).isSome) :
    f.1 ≤ k := by
  obtain ⟨v, hv⟩ := Option.isSome_iff_exists.1 hk
  rcases List.mem_cons.1 (mem_of_get hv) with rfl | hmem
  · exact le_rfl
  · exact ((List.pairwise_cons.1 h).1 _ hmem).le

/-- Objects that look up the same are the same.  The first key of each is the least one it looks up,
so the two start with the same field, and so do their tails. -/
theorem Ordered.ext (hm : Ordered m) (hn : Ordered n) (h : ∀ k, get m k = get n k) : m = n := by
  induction m generalizing n with
  | nil =>
      cases n with
      | nil => rfl
      | cons g n =>
          have hg := h g.1
          rw [get_cons, if_pos rfl] at hg
          cases hg
  | cons f m ih =>
      cases n with
      | nil =>
          have hf := h f.1
          rw [get_cons, if_pos rfl] at hf
          cases hf
      | cons g n =>
          have hf : get (g :: n) f.1 = some f.2 := by rw [← h, get_cons, if_pos rfl]
          have hg : get (f :: m) g.1 = some g.2 := by rw [h, get_cons, if_pos rfl]
          have hkey : f.1 = g.1 :=
            le_antisymm (hm.head_le (by rw [hg]; rfl)) (hn.head_le (by rw [hf]; rfl))
          have hvalue : f.2 = g.2 := by
            rw [get_cons, if_pos hkey] at hf
            exact (Option.some.inj hf).symm
          obtain rfl : f = g := Prod.ext hkey hvalue
          obtain ⟨hmlt, hmtail⟩ := List.pairwise_cons.1 hm
          obtain ⟨hnlt, hntail⟩ := List.pairwise_cons.1 hn
          rw [ih hmtail hntail fun k => ?_]
          by_cases hk : k = f.1
          · rw [get_eq_none fun e he => ?_, get_eq_none fun e he => ?_]
            · rw [hk]
              exact (hnlt e he).ne'
            · rw [hk]
              exact (hmlt e he).ne'
          · have hrest := h k
            rwa [get_cons, get_cons, if_neg hk, if_neg hk] at hrest

/-! ## Parts of an object -/

lemma get_filter (p : String → Bool) (k : String) :
    get (m.filter fun f => p f.1) k = if p k then get m k else none := by
  induction m with
  | nil => simp [get]
  | cons f m ih =>
      rw [List.filter_cons, get_cons]
      by_cases hk : k = f.1
      · cases hp : p f.1 with
        | true => rw [if_pos rfl, get_cons, if_pos hk, if_pos hk, hk, hp, if_pos rfl]
        | false =>
            rw [if_neg (by simp), ih, hk, hp]
            rfl
      · cases hp : p f.1 with
        | true => rw [if_pos rfl, get_cons, if_neg hk, ih, if_neg hk]
        | false => rw [if_neg (by simp), ih, if_neg hk]

/-- Fields put one after the other into an object: each key is looked up among them first, and in
the object when it is not there. -/
lemma get_flattened {known extra : Map} (h : Ordered extra) (k : String) :
    get (extra.foldl (fun m f => insert m f.1 f.2) known) k = (get extra k).or (get known k) := by
  induction extra generalizing known with
  | nil => rfl
  | cons f extra ih =>
      obtain ⟨hlt, htail⟩ := List.pairwise_cons.1 h
      rw [List.foldl_cons, ih htail, get_cons]
      by_cases hk : k = f.1
      · have hnone : get extra k = none := get_eq_none fun g hg => by
          rw [hk]
          exact (hlt g hg).ne'
        rw [hnone, if_pos hk, Option.none_or, Option.some_or, hk, get_insert_same]
      · rw [if_neg hk, get_insert_ne _ _ hk]

lemma Ordered.flattened {known : Map} (h : Ordered known) (extra : Map) :
    Ordered (extra.foldl (fun m f => Map.insert m f.1 f.2) known) := by
  induction extra generalizing known with
  | nil => exact h
  | cons f extra ih => exact ih h.insert

/-- Without the nulls at some keys.  A field that may be left out means the same when it is `null`.
-/
def dropNull (keys : List String) (m : Map) : Map :=
  m.filter fun f => !(keys.contains f.1 && f.2.isNull)

/-- With a field that has a default, when the object lacks it. -/
def orInsert (m : Map) (k : String) (v : Value) : Map :=
  if (get m k).isSome then m else insert m k v

lemma Ordered.dropNull (h : Ordered m) (keys : List String) : Ordered (dropNull keys m) :=
  h.filter _

lemma Ordered.orInsert (h : Ordered m) : Ordered (orInsert m k v) := by
  unfold Map.orInsert
  split
  · exact h
  · exact h.insert

lemma Ordered.get_dropNull (h : Ordered m) (keys : List String) (k : String) :
    get (Map.dropNull keys m) k =
      (get m k).filter fun v => !(keys.contains k && v.isNull) := by
  cases hk : get m k with
  | none =>
      refine get_eq_none ?_
      rintro f hf rfl
      rw [h.get_of_mem (List.mem_of_mem_filter hf)] at hk
      cases hk
  | some v =>
      by_cases hkeep : (!(keys.contains k && v.isNull)) = true
      · rw [Option.filter_some, if_pos hkeep]
        exact (h.dropNull keys).get_of_mem (List.mem_filter.2 ⟨mem_of_get hk, hkeep⟩)
      · rw [Option.filter_some, if_neg hkeep]
        refine get_eq_none ?_
        rintro f hf rfl
        obtain ⟨hmem, hkept⟩ := List.mem_filter.1 hf
        obtain rfl : f.2 = v := by
          have hsame := h.get_of_mem hmem
          rw [hk] at hsame
          exact (Option.some.inj hsame).symm
        exact hkeep hkept

lemma get_orInsert : get (orInsert m k v) a = (get m a).or (if a = k then some v else none) := by
  unfold orInsert
  by_cases ha : a = k
  · subst ha
    rw [if_pos rfl]
    split
    · rename_i hsome
      obtain ⟨w, hw⟩ := Option.isSome_iff_exists.1 hsome
      rw [hw, Option.some_or]
    · rename_i hnone
      rw [get_insert_same, Option.not_isSome_iff_eq_none.1 hnone, Option.none_or]
  · rw [if_neg ha, Option.or_none]
    split
    · rfl
    · exact get_insert_ne m v ha

end Map

/-! ## Values as the library builds them -/

/-- Objects are ordered, at every depth, and no number is an infinity or a NaN.  This is so of every
value the library can read. -/
inductive Lawful : Value → Prop
  | null : Lawful .null
  | bool (b : Bool) : Lawful (.bool b)
  | string (s : String) : Lawful (.string s)
  | number (n : Number) (hfinite : ∀ x, n = .float x → x.isFinite = true) : Lawful (.number n)
  | array (items : List Value) (hitems : ∀ v ∈ items, Lawful v) : Lawful (.array items)
  | object (fields : Map) (hordered : fields.Ordered) (hfields : ∀ f ∈ fields, Lawful f.2) :
      Lawful (.object fields)

lemma Lawful.ordered {m : Map} (h : Lawful (.object m)) : m.Ordered := by
  cases h with
  | object _ hordered => exact hordered

lemma Lawful.get {m : Map} (h : Lawful (.object m)) {k : String} {v : Value}
    (hv : m.get k = some v) : Lawful v := by
  cases h with
  | object _ _ hfields => exact hfields (k, v) (Map.mem_of_get hv)

lemma Lawful.item {items : List Value} (h : Lawful (.array items)) {v : Value} (hv : v ∈ items) :
    Lawful v := by
  cases h with
  | array _ hitems => exact hitems v hv

lemma Lawful.ofFields {fields : List (String × Value)} (h : ∀ f ∈ fields, Lawful f.2) :
    Lawful (.object (Map.ofFields fields)) :=
  .object _ (Map.ordered_ofFields fields) fun f hf => h f (Map.mem_ofFields hf)

mutual

/-- Whether a value is lawful, computed from the inside out: the fields of an object after those of
the values in it. -/
def Value.isLawful : Value → Bool
  | .number (.float x) => x.isFinite
  | .array items => itemsLawful items
  | .object fields =>
      decide ((fields.map Prod.fst).Pairwise (· < ·)) && fieldsLawful fields
  | _ => true

def itemsLawful : List Value → Bool
  | [] => true
  | item :: items => item.isLawful && itemsLawful items

def fieldsLawful : List (String × Value) → Bool
  | [] => true
  | (_, v) :: fields => v.isLawful && fieldsLawful fields

end

mutual

lemma lawful_of_isLawful : ∀ v : Value, v.isLawful = true → Lawful v
  | .null, _ => .null
  | .bool b, _ => .bool b
  | .string s, _ => .string s
  | .number (.posInt n), _ => .number _ (by simp)
  | .number (.negInt n), _ => .number _ (by simp)
  | .number (.float x), h => .number _ (by rintro y ⟨⟩; simpa [Value.isLawful] using h)
  | .array items, h => .array _ (lawful_of_itemsLawful items (by simpa [Value.isLawful] using h))
  | .object fields, h => by
      simp only [Value.isLawful, Bool.and_eq_true, decide_eq_true_eq] at h
      exact .object _ (List.pairwise_map.1 h.1) (lawful_of_fieldsLawful fields h.2)

lemma lawful_of_itemsLawful : ∀ items : List Value, itemsLawful items = true →
    ∀ v ∈ items, Lawful v
  | [], _ => by simp
  | item :: items, h => by
      simp only [itemsLawful, Bool.and_eq_true] at h
      exact List.forall_mem_cons.2
        ⟨lawful_of_isLawful item h.1, lawful_of_itemsLawful items h.2⟩

lemma lawful_of_fieldsLawful : ∀ fields : List (String × Value), fieldsLawful fields = true →
    ∀ f ∈ fields, Lawful f.2
  | [], _ => by simp
  | (k, v) :: fields, h => by
      simp only [fieldsLawful, Bool.and_eq_true] at h
      exact List.forall_mem_cons.2
        ⟨lawful_of_isLawful v h.1, lawful_of_fieldsLawful fields h.2⟩

end

end Json

open Json

/-- The fields a type knows are put together with the others into the object that looks them up.
What each key looks up in the result is asked of the two parts, so the order of the fields plays no
part. -/
lemma flatten_eq {names : List String} {known m n : Map} (hm : m.Ordered) (hn : n.Ordered)
    (hknown : known.Ordered) (hin : ∀ k ∈ names, known.get k = n.get k)
    (hout : ∀ k ∉ names, known.get k = none ∧ n.get k = m.get k) :
    flatten known (m.filter fun f => !names.contains f.1) = .object n := by
  have hextra : Map.Ordered (m.filter fun f => !names.contains f.1) := hm.filter _
  refine congrArg Value.object ((hknown.flattened _).ext hn fun k => ?_)
  rw [Map.get_flattened hextra, Map.get_filter fun k => !names.contains k]
  by_cases hk : k ∈ names
  · simp [hk, hin k hk]
  · obtain ⟨hnone, hsame⟩ := hout k hk
    simp [hk, hnone, hsame]

/-- An object that was put together is taken apart again: the fields of other keys are the others,
each as it was. -/
lemma filter_flattened {names : List String} {known extra : Map} (hextra : extra.Ordered)
    (hknown : known.Ordered) (hin : ∀ k ∈ names, extra.get k = none)
    (hout : ∀ k ∉ names, known.get k = none) :
    ((extra.foldl (fun m f => Map.insert m f.1 f.2) known).filter fun f =>
      !names.contains f.1) = extra := by
  refine Map.Ordered.ext ((hknown.flattened extra).filter _) hextra fun k => ?_
  rw [Map.get_filter fun k => !names.contains k, Map.get_flattened hextra]
  by_cases hk : k ∈ names
  · simp [hk, hin k hk]
  · simp [hk, hout k hk]

end Moaray
