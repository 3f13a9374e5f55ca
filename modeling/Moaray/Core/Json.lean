import Moaray.Core.Text

/-!
# JSON values

`serde_json::Value` as the gateway sees it: numbers keep the three representations the library
distinguishes, and an object is the library's ordered map, a list of fields in the order of their
keys.

* `Float64`, `Float64.ofNat` — a double by its bits, and the rounding of an integer to one.
* `Number`, `Value`, `Map` — with the accessors the gateway uses, under the library's names.
* `get_insert_same`, `get_ofFields` — what an object looks up.
* `SerdeJson` — the library as a parameter: one function that reads bytes and one that prints a
  value.

Reading and printing JSON text is the library's business, and nothing is assumed of either here; a
result that needs something of them names it as a hypothesis.  What the gateway does by itself,
looking a field up, inserting one and converting numbers, is defined.

**Design.**  A double is its bit pattern, so values have decidable equality and the conversions
`as f64`, which round, can be computed and checked.  Of an object with a key that comes twice, the
parser keeps the last value, as `ofFields` does.
-/

namespace Moaray

/-- An IEEE 754 double, by its bits.  Arithmetic on doubles is not needed, only the conversion of
integers to them. -/
structure Float64 where
  bits : UInt64
  deriving DecidableEq, Repr

namespace Float64

/-- The mantissa of `n` in 53 bits, rounded to nearest with ties to even, for an `n` of exponent
`e`.  Rounding up may carry into the exponent, which the sum of the bits takes care of. -/
def roundMantissa (n e : ℕ) : ℕ :=
  if e ≤ 52 then n <<< (52 - e)
  else
    let q := n >>> (e - 52)
    let r := n % 2 ^ (e - 52)
    let half := 2 ^ (e - 53)
    if half < r || (r == half && q % 2 == 1) then q + 1 else q

/-- `n as f64`.  A mantissa that rounds up to `2 ^ 53` carries into the exponent by itself. -/
def ofNat (n : ℕ) : Float64 :=
  if n = 0 then { bits := 0 }
  else
    let e := n.log2
    { bits := UInt64.ofNat ((1023 + e) * 2 ^ 52 + (roundMantissa n e - 2 ^ 52)) }

/-- `n as f64`, for a negative `n` with the sign bit. -/
def ofInt (n : ℤ) : Float64 :=
  match n with
  | .ofNat n => ofNat n
  | .negSucc n => { bits := (ofNat (n + 1)).bits ||| 0x8000000000000000 }

/-- Not an infinity and not a NaN. -/
def isFinite (x : Float64) : Bool := (x.bits >>> 52) &&& 0x7FF != 0x7FF

end Float64

namespace Json

/-- A JSON number: an unsigned, a negative, or a floating-point one.  The library keeps them apart,
so `1` and `1.0` are different values. -/
inductive Number
  | posInt (n : UInt64)
  | negInt (n : Int64)
  | float (x : Float64)
  deriving DecidableEq, Repr

namespace Number

/-- `Number::from(i64)`. -/
def ofI64 (n : Int64) : Number :=
  if 0 ≤ n then .posInt n.toUInt64 else .negInt n

def asU64 : Number → Option UInt64
  | .posInt n => some n
  | _ => none

def asI64 : Number → Option Int64
  | .posInt n => if n ≤ Int64.maxValue.toUInt64 then some n.toInt64 else none
  | .negInt n => some n
  | .float _ => none

def asF64 : Number → Float64
  | .posInt n => .ofNat n.toNat
  | .negInt n => .ofInt n.toInt
  | .float x => x

lemma asI64_ofI64 (n : Int64) : (ofI64 n).asI64 = some n := by
  unfold ofI64
  split
  · rename_i hn
    have hle : n.toUInt64 ≤ Int64.maxValue.toUInt64 :=
      Int64.toUInt64_le hn (Int64.le_maxValue n)
    show (if n.toUInt64 ≤ Int64.maxValue.toUInt64 then some n.toUInt64.toInt64 else none) = _
    rw [if_pos hle, Int64.toInt64_toUInt64]
  · rfl

end Number

/-- A JSON value.  The fields of an object are a list, which the operations on it keep in the order
of their keys. -/
inductive Value
  | null
  | bool (b : Bool)
  | number (n : Number)
  | string (s : String)
  | array (items : List Value)
  | object (fields : List (String × Value))
  deriving Repr

/-- The fields of an object, ordered by key. -/
abbrev Map := List (String × Value)

namespace Map

/-- Insert a field, replacing one of the same key.  In an ordered object the order of the keys is
kept. -/
def insert : Map → String → Value → Map
  | [], k, v => [(k, v)]
  | (a, w) :: rest, k, v =>
      if k = a then (k, v) :: rest
      else if k < a then (k, v) :: (a, w) :: rest
      else (a, w) :: insert rest k v

/-- The value of a field. -/
def get (m : Map) (k : String) : Option Value := m.lookup k

/-- The map that inserting `fields` one after the other builds.  A later field takes the place of an
earlier one of its key. -/
def ofFields (fields : List (String × Value)) : Map :=
  fields.foldl (fun m f => insert m f.1 f.2) []

def insertSome (m : Map) (k : String) (v : Option Value) : Map :=
  match v with
  | some v => insert m k v
  | none => m

lemma get_cons (a k : String) (w : Value) (m : Map) :
    get ((a, w) :: m) k = if k = a then some w else get m k := by
  unfold get
  rw [List.lookup_cons]
  by_cases h : k = a
  · simp [h]
  · have hkey : (k == a) = false := beq_false_of_ne h
    simp [hkey, h]

lemma get_insert_same (m : Map) (k : String) (v : Value) : (insert m k v).get k = some v := by
  induction m with
  | nil => simp [insert, get_cons]
  | cons f m ih =>
      obtain ⟨a, w⟩ := f
      unfold insert
      split
      · simp [get_cons]
      · rename_i hne
        split
        · simp [get_cons]
        · rw [get_cons, if_neg hne, ih]

lemma get_insert_ne (m : Map) {k a : String} (v : Value) (h : a ≠ k) :
    (insert m k v).get a = m.get a := by
  induction m with
  | nil => simp [insert, get_cons, h]
  | cons f m ih =>
      obtain ⟨b, w⟩ := f
      unfold insert
      split
      · rename_i hkb
        subst hkb
        simp [get_cons, h]
      · split
        · rw [get_cons, if_neg h]
        · rw [get_cons, get_cons, ih]

/-- Of fields inserted one after the other, the last of a key stays. -/
lemma get_ofFields (fields : List (String × Value)) (k : String) :
    (ofFields fields).get k = get fields.reverse k := by
  induction fields using List.reverseRecOn with
  | nil => rfl
  | append_singleton fields f ih =>
      obtain ⟨a, w⟩ := f
      have hfold : ofFields (fields ++ [(a, w)]) = insert (ofFields fields) a w := by
        simp [ofFields]
      rw [hfold, List.reverse_concat, get_cons, ← ih]
      by_cases h : k = a
      · rw [if_pos h, h, get_insert_same]
      · rw [if_neg h, get_insert_ne _ _ h]

lemma get_insertSome_same (m : Map) (k : String) (v : Option Value) (h : m.get k = none) :
    (insertSome m k v).get k = v := by
  cases v with
  | none => exact h
  | some v => exact get_insert_same m k v

lemma get_insertSome_ne (m : Map) {k a : String} (v : Option Value) (h : a ≠ k) :
    (insertSome m k v).get a = m.get a := by
  cases v with
  | none => rfl
  | some v => exact get_insert_ne m v h

end Map

namespace Value

/-- `v[key]` when it is an object that has the field. -/
def get (v : Value) (key : String) : Option Value :=
  match v with
  | .object fields => Map.get fields key
  | _ => none

def asStr : Value → Option String
  | .string s => some s
  | _ => none

def asArray : Value → Option (List Value)
  | .array items => some items
  | _ => none

def asObject : Value → Option Map
  | .object fields => some fields
  | _ => none

def asBool : Value → Option Bool
  | .bool b => some b
  | _ => none

def asU64 : Value → Option UInt64
  | .number n => n.asU64
  | _ => none

def asI64 : Value → Option Int64
  | .number n => n.asI64
  | _ => none

def asF64 : Value → Option Float64
  | .number n => some n.asF64
  | _ => none

def isNull : Value → Bool
  | .null => true
  | _ => false

/-- `json!(n)` of an unsigned integer. -/
def ofU64 (n : UInt64) : Value := .number (.posInt n)

/-- `json!(n)` of a signed integer. -/
def ofI64 (n : Int64) : Value := .number (.ofI64 n)

lemma asI64_ofI64 (n : Int64) : (ofI64 n).asI64 = some n := Number.asI64_ofI64 n

/-- `json!(x)` of a double; the ones that are no JSON number become `null`. -/
def ofF64 (x : Float64) : Value := if x.isFinite then .number (.float x) else .null

/-- `v[key] = w`: `null` turns into an object first.  The other kinds, on which the library
panics, are left alone. -/
def setField (v : Value) (key : String) (w : Value) : Value :=
  match v with
  | .object fields => .object (Map.insert fields key w)
  | .null => .object [(key, w)]
  | v => v

end Value

/-- Reading and printing JSON text.  Nothing is assumed of the two functions. -/
structure SerdeJson where
  /-- `from_slice`, with the text of the parse error. -/
  parse : Bytes → Except String Value
  /-- `to_string`, compact. -/
  print : Value → String

/-- `to_vec`. -/
def SerdeJson.toVec (serde : SerdeJson) (v : Value) : Bytes := utf8 (serde.print v)

end Json

end Moaray
