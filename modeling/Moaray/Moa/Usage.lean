import Moaray.Core.Json
import Mathlib.Data.List.Induction

/-!
# Usage accounting of a run

The usage a run reports is the sum of the integer fields of the usage objects its calls report, key
by key.  The running sum of a key is an `i64`; as long as it stays in range it is the exact sum.

* `sumUsage`, `extractTokens` — what is summed, and what is recorded for each call.
* `get_sumUsage` — the value of a key is the wrapped sum of the integers under it.
* `sums_sumUsage` — without overflow it is the sum.
* `additionsExact_iff` — the additions made are exact just when no partial sum overflows.

The objects come from the upstreams, so any key may occur in them with any value.  Fields that are
no integers are passed over, and the integers of one key are added in the order of the calls.

**Design.**  The sum is over one list, the fields of all objects one after the other, and a lemma
about adding one field (`get_addField`) is all the induction needs.  Wrapping is a homomorphism
from the integers, so the wrapped sum is known even where it overflowed on the way; whether an
addition was exact is a question about the partial sums, and `NoOverflow` asks it of every one.
-/

namespace Moaray

open Json

namespace Moa

/-- Add one field to a usage sum; fields that are not integers are ignored.  The sum is an
`i64`, which wraps. -/
def addField (acc : Map) (f : String × Value) : Map :=
  match f.2.asI64 with
  | some n =>
      let cur := ((Map.get acc f.1).bind Value.asI64).getD 0
      Map.insert acc f.1 (.ofI64 (cur + n))
  | none => acc

/-- Add one usage object to a usage sum, field by field; what is no object adds nothing. -/
def addUsage (acc : Map) (u : Value) : Map :=
  match u.asObject with
  | some obj => obj.foldl addField acc
  | none => acc

/-- Sum the integer fields of several usage objects. -/
def sumUsage (usages : List Value) : Value := .object (usages.foldl addUsage [])

/-- The raw `(prompt_tokens, completion_tokens)` of a usage object. -/
def extractTokens (usage : Option Value) : Option Int64 × Option Int64 :=
  match usage with
  | none => (none, none)
  | some u =>
      ((u.get "prompt_tokens").bind Value.asI64, (u.get "completion_tokens").bind Value.asI64)

/-! ## What the sum is -/

def usageFields (u : Value) : Map := u.asObject.getD []

/-- The integer a field holds under a key. -/
def fieldInt (key : String) (f : String × Value) : Option ℤ :=
  if f.1 = key then f.2.asI64.map Int64.toInt else none

/-- The integers under a key. -/
def fieldInts (key : String) (fields : Map) : List ℤ := fields.filterMap (fieldInt key)

/-- The integers under a key of several usage objects. -/
def intsAt (key : String) (usages : List Value) : List ℤ :=
  fieldInts key (usages.flatMap usageFields)

/-- No partial sum leaves the range of an `i64`. -/
def NoOverflow (ints : List ℤ) : Prop :=
  ∀ partials, partials <+: ints → -2 ^ 63 ≤ partials.sum ∧ partials.sum < 2 ^ 63

/-- `summed` is an object that maps every key to the sum of its integer values over `usages`,
unless that sum overflows. -/
def Sums (summed : Value) (usages : List Value) : Prop :=
  (∃ fields, summed = .object fields) ∧
    ∀ key, (intsAt key usages = [] → summed.get key = none) ∧
      (intsAt key usages ≠ [] → NoOverflow (intsAt key usages) →
        ∃ n : Int64, summed.get key = some (.ofI64 n) ∧ n.toInt = (intsAt key usages).sum)

lemma fieldInts_append_singleton (key : String) (fields : Map) (f : String × Value) :
    fieldInts key (fields ++ [f]) = fieldInts key fields ++ (fieldInt key f).toList := by
  unfold fieldInts
  rw [List.filterMap_append]
  cases h : fieldInt key f <;> simp [h]

lemma addUsage_eq (acc : Map) (u : Value) :
    addUsage acc u = (usageFields u).foldl addField acc := by
  cases u <;> rfl

lemma sumUsage_eq (usages : List Value) :
    sumUsage usages = .object ((usages.flatMap usageFields).foldl addField []) := by
  have hfold : addUsage = fun acc u => (usageFields u).foldl addField acc := by
    funext acc u
    exact addUsage_eq acc u
  rw [sumUsage, List.foldl_flatMap, hfold]

lemma get_addField (acc : Map) (f : String × Value) (key : String) :
    Map.get (addField acc f) key =
      match fieldInt key f with
      | some n => some (.ofI64 (((Map.get acc key).bind Value.asI64).getD 0 + Int64.ofInt n))
      | none => Map.get acc key := by
  unfold addField fieldInt
  cases f.2.asI64 with
  | none => simp
  | some n =>
      by_cases hkey : f.1 = key
      · simp [← hkey, Map.get_insert_same, Int64.ofInt_toInt]
      · simp [hkey, Map.get_insert_ne _ _ (Ne.symm hkey)]

/-- The running sum of a key, wrapped; there is none before the first integer. -/
lemma get_foldl_addField (fields : Map) (key : String) :
    Map.get (fields.foldl addField []) key =
      if fieldInts key fields = [] then none
      else some (.ofI64 (Int64.ofInt (fieldInts key fields).sum)) := by
  induction fields using List.reverseRecOn with
  | nil => rfl
  | append_singleton fields f ih =>
      have hcur : ((Map.get (fields.foldl addField []) key).bind Value.asI64).getD 0 =
          Int64.ofInt (fieldInts key fields).sum := by
        rw [ih]
        split
        · rename_i hnil
          rw [hnil]
          rfl
        · simp [Value.asI64_ofI64]
      rw [List.foldl_append, List.foldl_cons, List.foldl_nil, get_addField,
        fieldInts_append_singleton, hcur]
      cases fieldInt key f with
      | none => simpa using ih
      | some n => simp [Int64.ofInt_add]

/-- The value of a key is the wrapped sum of the integers under it.  Values that are no integers are
left out, and a key without integers is absent. -/
theorem get_sumUsage (usages : List Value) (key : String) :
    (sumUsage usages).get key =
      if intsAt key usages = [] then none
      else some (.ofI64 (Int64.ofInt (intsAt key usages).sum)) := by
  rw [sumUsage_eq]
  exact get_foldl_addField _ key

/-- Without overflow under a key, its value is the sum of its integers.  The order in which the arms
are added does not matter then. -/
theorem sums_sumUsage (usages : List Value) : Sums (sumUsage usages) usages := by
  refine ⟨⟨_, rfl⟩, ?_⟩
  intro key
  constructor
  · intro hnil
    rw [get_sumUsage, if_pos hnil]
  · intro hne hrange
    obtain ⟨hlow, hhigh⟩ := hrange _ (List.prefix_refl _)
    refine ⟨Int64.ofInt (intsAt key usages).sum, ?_, Int64.toInt_ofInt_of_le hlow hhigh⟩
    rw [get_sumUsage, if_neg hne]

/-! ## The additions made -/

/-- The sum a key has when a field is added to it. -/
def currentSum (done : Map) (key : String) : Int64 :=
  ((Map.get (done.foldl addField []) key).bind Value.asI64).getD 0

/-- Every `i64` addition of a usage sum gives the sum of its operands. -/
def AdditionsExact (usages : List Value) : Prop :=
  ∀ done f rest n, usages.flatMap usageFields = done ++ f :: rest → f.2.asI64 = some n →
    (currentSum done f.1 + n).toInt = (currentSum done f.1).toInt + n.toInt

lemma currentSum_eq (done : Map) (key : String) :
    currentSum done key = Int64.ofInt (fieldInts key done).sum := by
  unfold currentSum
  rw [get_foldl_addField]
  split
  · rename_i hnil
    rw [hnil]
    rfl
  · simp [Value.asI64_ofI64]

lemma fieldInt_of_asI64 {f : String × Value} {n : Int64} (h : f.2.asI64 = some n) :
    fieldInt f.1 f = some n.toInt := by
  simp [fieldInt, h]

/-- Exact additions keep every partial sum in range: the range of the last addend's result. -/
lemma AdditionsExact.sum_in_range {usages : List Value} (h : AdditionsExact usages) (key : String)
    {done : Map} (hdone : done <+: usages.flatMap usageFields) :
    -2 ^ 63 ≤ (fieldInts key done).sum ∧ (fieldInts key done).sum < 2 ^ 63 := by
  induction done using List.reverseRecOn with
  | nil => simp [fieldInts]
  | append_singleton done f ih =>
      obtain ⟨rest, hrest⟩ := hdone
      obtain ⟨hlow, hhigh⟩ := ih ⟨f :: rest, by rw [← hrest]; simp⟩
      rw [fieldInts_append_singleton]
      cases hf : fieldInt key f with
      | none => simpa using ⟨hlow, hhigh⟩
      | some z =>
          obtain ⟨hkey, n, hn, rfl⟩ : f.1 = key ∧ ∃ n, f.2.asI64 = some n ∧ n.toInt = z := by
            unfold fieldInt at hf
            split at hf
            · rename_i hkey
              exact ⟨hkey, by simpa using hf⟩
            · cases hf
          have hcur : (currentSum done f.1).toInt = (fieldInts key done).sum := by
            rw [currentSum_eq, hkey, Int64.toInt_ofInt_of_le hlow hhigh]
          have hexact := h done f rest n (by rw [← hrest]; simp) hn
          rw [hcur] at hexact
          simp only [Option.toList_some, List.sum_append, List.sum_singleton, ← hexact]
          exact ⟨Int64.le_toInt _, Int64.toInt_lt _⟩

/-- The additions of a usage sum are exact just when under no key a partial sum of the integers
overflows. -/
theorem additionsExact_iff (usages : List Value) :
    AdditionsExact usages ↔ ∀ key, NoOverflow (intsAt key usages) := by
  constructor
  · intro h key partials hpartials
    obtain ⟨done, hdone, rfl⟩ := List.prefix_filterMap_iff.1 hpartials
    exact h.sum_in_range key hdone
  · intro h done f rest n hsplit hn
    have hints : intsAt f.1 usages =
        (fieldInts f.1 done ++ [n.toInt]) ++ fieldInts f.1 rest := by
      rw [intsAt, hsplit, fieldInts, List.filterMap_append, List.filterMap_cons_some
        (fieldInt_of_asI64 hn)]
      simp [fieldInts]
    have hprefix : fieldInts f.1 done <+: intsAt f.1 usages := by
      rw [hints, List.append_assoc]
      exact List.prefix_append _ _
    obtain ⟨hlow, hhigh⟩ := h f.1 _ hprefix
    obtain ⟨hlow', hhigh'⟩ := h f.1 _ (hints ▸ List.prefix_append _ _)
    rw [List.sum_append, List.sum_singleton] at hlow' hhigh'
    have hadd : currentSum done f.1 + n =
        Int64.ofInt ((fieldInts f.1 done).sum + n.toInt) := by
      rw [currentSum_eq, Int64.ofInt_add, Int64.ofInt_toInt]
    rw [hadd, Int64.toInt_ofInt_of_le hlow' hhigh', currentSum_eq,
      Int64.toInt_ofInt_of_le hlow hhigh]

end Moa

end Moaray
