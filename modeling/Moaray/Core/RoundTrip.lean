import Moaray.Core.Fields

/-!
# The wire types survive a round trip

A message, a response and a request are read from an object and printed into one.  Fields the types
do not know go through verbatim; of the known ones a `null` is an absent field, a default is filled
in, and a sampling parameter becomes a double.

* `ChatMessage.toValue_fromValue`, `ChatResponse.toValue_fromValue`,
  `ChatRequest.toValue_fromValue` — printing what was read gives the normal form of the object.
* `fromValue_toValue` — reading what was printed gives the same value back.
* `wire_round_trip` — both, for whatever the library reads.

Each of the three types goes through the same steps.  `known` are the fields it prints by itself,
and `toValue_eq` puts them together with the others; `get_known` and `get_normal` say what one key
looks up on both sides; and `Map.Ordered.ext` makes one equation of all keys.  `WellFormed` is what
reading establishes and printing needs: the other fields are ordered and none has the name of a
known one, and no optional field holds a `null`.

**Design.**  `normal` is a function of the object that was read, defined by what the reader may
change and by nothing of the typed value in between.  So the first theorem says what a client's
object loses on its way through the gateway, and the second that it loses nothing more on a second
passage.

A request holds messages, so its normal form has theirs in it, and its sampling parameters become
doubles: a temperature sent as `1` is printed as `1.0`.  That a double read from a lawful value is
finite is what keeps it from being printed as `null`.
-/

namespace Moaray

open Json

/-! ## Doubles -/

namespace Float64

lemma isFinite_of_exponent {x : Float64} (h : (x.bits.toNat >>> 52) % 2048 ≠ 2047) :
    x.isFinite = true := by
  unfold isFinite
  rw [bne_iff_ne]
  intro heq
  refine h ?_
  have hmask : (x.bits.toNat >>> 52) &&& 2047 = 2047 := by
    simpa using congrArg UInt64.toNat heq
  rw [← Nat.and_two_pow_sub_one_eq_mod (x.bits.toNat >>> 52) 11]
  exact hmask

lemma roundMantissa_le (n : ℕ) : roundMantissa n n.log2 ≤ 2 ^ 53 := by
  have hlt : n < 2 ^ (n.log2 + 1) := Nat.lt_log2_self
  unfold roundMantissa
  split
  · rw [Nat.shiftLeft_eq]
    calc n * 2 ^ (52 - n.log2) ≤ 2 ^ (n.log2 + 1) * 2 ^ (52 - n.log2) :=
          Nat.mul_le_mul_right _ hlt.le
      _ = 2 ^ 53 := by
          rw [← pow_add]
          congr 1
          omega
  · have hquot : n >>> (n.log2 - 52) < 2 ^ 53 := by
      rw [Nat.shiftRight_eq_div_pow, Nat.div_lt_iff_lt_mul (by positivity), ← pow_add]
      exact hlt.trans_le (Nat.pow_le_pow_right (by norm_num) (by omega))
    dsimp only
    split <;> omega

/-- The exponent of an integer of 64 bits is far from the greatest one, which infinities and NaNs
have. -/
lemma toNat_bits_ofNat_le {n : ℕ} (hn : n < 2 ^ 64) : (ofNat n).bits.toNat ≤ 1087 * 2 ^ 52 := by
  unfold ofNat
  split
  · simp
  · rename_i hzero
    have hmantissa := roundMantissa_le n
    have hexponent : n.log2 < 64 := (Nat.log2_lt hzero).2 hn
    simp only [UInt64.toNat_ofNat']
    refine (Nat.mod_le _ _).trans ?_
    omega

lemma isFinite_ofNat {n : ℕ} (hn : n < 2 ^ 64) : (ofNat n).isFinite = true := by
  refine isFinite_of_exponent ?_
  have hbits := toNat_bits_ofNat_le hn
  rw [Nat.shiftRight_eq_div_pow]
  omega

lemma isFinite_ofInt {z : ℤ} (hz : z.natAbs < 2 ^ 64) : (ofInt z).isFinite = true := by
  cases z with
  | ofNat n => exact isFinite_ofNat hz
  | negSucc n =>
      refine isFinite_of_exponent ?_
      have hbits := toNat_bits_ofNat_le (n := n + 1) hz
      have hlt : (ofNat (n + 1)).bits.toNat / 2 ^ 52 < 2 ^ 11 := by omega
      have hor := Nat.two_pow_add_eq_or_of_lt hlt 1
      rw [Nat.mul_one] at hor
      have hsign : (0x8000000000000000 : UInt64).toNat / 2 ^ 52 = 2 ^ 11 := rfl
      simp only [ofInt]
      rw [UInt64.toNat_or, Nat.shiftRight_or_distrib, Nat.shiftRight_eq_div_pow,
        Nat.shiftRight_eq_div_pow, hsign, Nat.or_comm, ← hor]
      omega

end Float64

/-- A number of the library is read as a finite double: an integer rounds to one, and a double of a
lawful value is one. -/
lemma isFinite_of_asF64 {v : Value} {x : Float64} (hv : Lawful v) (h : v.asF64 = some x) :
    x.isFinite = true := by
  cases hv with
  | number n hfinite =>
      obtain rfl := Option.some.inj h
      cases n with
      | posInt n => exact Float64.isFinite_ofNat n.toNat_lt
      | negInt n =>
          refine Float64.isFinite_ofInt ?_
          have hmin := n.le_toInt
          have hmax := n.toInt_lt
          omega
      | float x => exact hfinite x rfl
  | _ => cases h

/-! ## Optional fields -/

/-- A field that is no optional one is kept as it is. -/
lemma filter_kept {keys : List String} {k : String} (hk : k ∉ keys) (o : Option Value) :
    (o.filter fun v => !(keys.contains k && v.isNull)) = o := by
  cases o with
  | none => rfl
  | some v => simp [hk]

lemma optValue_eq (m : Map) (k : String) :
    ChatResponse.optValue m k = (m.get k).filter fun v => !v.isNull := by
  unfold ChatResponse.optValue
  cases m.get k with
  | none => rfl
  | some v => cases v <;> rfl

lemma optValue_ne_null (m : Map) (k : String) : ChatResponse.optValue m k ≠ some .null := by
  intro h
  rw [optValue_eq] at h
  obtain ⟨-, hnull⟩ := Option.filter_eq_some_iff.1 h
  cases hnull

lemma optString_eq_some {m : Map} {k : String} {s : Option String}
    (h : ChatResponse.optString m k = some s) :
    s.map .string = (m.get k).filter fun v => !v.isNull := by
  unfold ChatResponse.optString at h
  cases hk : m.get k with
  | none =>
      rw [hk] at h
      obtain rfl := Option.some.inj h
      rfl
  | some v =>
      rw [hk] at h
      cases v with
      | null | string =>
          obtain rfl := Option.some.inj h
          rfl
      | _ => cases h

/-! ## Messages -/

namespace ChatMessage

/-- The object a message is printed as: without a `content` that is `null`. -/
def normal (m : Map) : Map := m.dropNull ["content"]

/-- What reading a message leaves: other fields of other names, in order, and no content that is
`null`. -/
structure WellFormed (r : ChatMessage) : Prop where
  ordered : r.extra.Ordered
  unknown : ∀ k ∈ fieldNames, r.extra.get k = none
  content : r.content ≠ some .null

variable {m : Map} {r : ChatMessage}

def known (r : ChatMessage) : Map :=
  Map.insertSome [("role", .string r.role)] "content" r.content

lemma toValue_eq (r : ChatMessage) : r.toValue = flatten r.known r.extra := rfl

lemma ordered_known (r : ChatMessage) : r.known.Ordered :=
  Map.Ordered.insertSome (List.pairwise_singleton _ _)

lemma get_known (r : ChatMessage) (k : String) :
    r.known.get k = if k = "role" then some (.string r.role)
      else if k = "content" then r.content else none := by
  unfold known
  by_cases hc : k = "content"
  · subst hc
    rw [Map.get_insertSome_same _ _ _ (by simp [Map.get])]
    rfl
  · rw [Map.get_insertSome_ne _ _ hc, Map.get_cons, if_neg hc]
    rfl

lemma fromValue_eq_some (h : fromValue (.object m) = some r) :
    m.get "role" = some (.string r.role) ∧ r.content = ChatResponse.optValue m "content" ∧
      r.extra = m.filter fun f => !fieldNames.contains f.1 := by
  simp only [fromValue, Value.asObject, Option.bind_eq_bind, Option.bind_some,
    Option.bind_eq_some_iff, Option.some.injEq] at h
  obtain ⟨role, ⟨v, hv, hrole⟩, rfl⟩ := h
  cases v with
  | string s =>
      obtain rfl := Option.some.inj hrole
      exact ⟨hv, rfl, rfl⟩
  | _ => cases hrole

/-- Printing a message that was read gives its object in normal form: its fields are kept, those of
unknown names among them, and a content of `null` is left out. -/
theorem toValue_fromValue (hm : m.Ordered) (h : fromValue (.object m) = some r) :
    r.toValue = .object (normal m) := by
  obtain ⟨hrole, hcontent, hextra⟩ := fromValue_eq_some h
  rw [toValue_eq, hextra]
  refine flatten_eq hm (hm.dropNull _) r.ordered_known ?_ ?_
  · intro k hk
    rw [get_known, normal, hm.get_dropNull]
    rcases List.mem_pair.1 hk with rfl | rfl
    · rw [filter_kept (by decide), hrole]
      rfl
    · simp [hcontent, optValue_eq]
  · intro k hk
    simp only [fieldNames, List.mem_cons, List.not_mem_nil, or_false, not_or] at hk
    rw [get_known, normal, hm.get_dropNull, filter_kept (by simpa using hk.2)]
    simp [hk.1, hk.2]

lemma wellFormed_of_fromValue (hm : m.Ordered) (h : fromValue (.object m) = some r) :
    r.WellFormed := by
  obtain ⟨-, hcontent, hextra⟩ := fromValue_eq_some h
  refine ⟨?_, fun k hk => ?_, ?_⟩
  · rw [hextra]
    exact hm.filter _
  · rw [hextra, Map.get_filter fun k => !fieldNames.contains k]
    simp [hk]
  · rw [hcontent]
    exact optValue_ne_null m "content"

/-- Reading what a message is printed as gives the message back.  A well-formed message has no
unknown field under the name of a known one. -/
theorem fromValue_toValue (h : r.WellFormed) : fromValue r.toValue = some r := by
  have hget : ∀ k, Map.get (r.extra.foldl (fun m f => Map.insert m f.1 f.2) r.known) k =
      (r.extra.get k).or (r.known.get k) := Map.get_flattened h.ordered
  have hextra := filter_flattened h.ordered r.ordered_known h.unknown
    fun k hk => by
      simp only [fieldNames, List.mem_cons, List.not_mem_nil, or_false, not_or] at hk
      rw [get_known, if_neg hk.1, if_neg hk.2]
  have hrole : r.extra.get "role" = none := h.unknown "role" (by decide)
  have hcontent : r.extra.get "content" = none := h.unknown "content" (by decide)
  have hvalue : (r.content.filter fun v => !v.isNull) = r.content := by
    have hnull := h.content
    cases hc : r.content with
    | none => rfl
    | some v => cases v <;> simp_all [Value.isNull]
  rw [toValue_eq, flatten, fromValue]
  simp only [Value.asObject, Option.bind_eq_bind, Option.bind_some, hget, hextra, hrole,
    Option.none_or, optValue_eq, hcontent, get_known, Value.asStr, if_true]
  simp [hvalue]

end ChatMessage

/-! ## Fields one by one -/

lemma get_insert (m : Map) (k a : String) (v : Value) :
    (m.insert k v).get a = if a = k then some v else m.get a := by
  by_cases ha : a = k
  · rw [if_pos ha, ha, Map.get_insert_same]
  · rw [if_neg ha, Map.get_insert_ne _ _ ha]

lemma get_insertSome (m : Map) (k a : String) (v : Option Value) :
    (m.insertSome k v).get a = if a = k then v.or (m.get k) else m.get a := by
  cases v with
  | none => by_cases ha : a = k <;> simp [Map.insertSome, ha]
  | some v => exact get_insert m k a v

lemma listField_eq_some {m : Map} {k : String} {items : List Value}
    (h : ChatResponse.listField m k = some items) :
    some (.array items) = (m.get k).or (some (.array [])) := by
  unfold ChatResponse.listField at h
  cases hk : m.get k with
  | none =>
      rw [hk] at h
      obtain rfl := Option.some.inj h
      rfl
  | some v =>
      rw [hk] at h
      cases v with
      | array =>
          obtain rfl := Option.some.inj h
          rfl
      | _ => cases h

/-! ## Responses -/

namespace ChatResponse

/-- The object a response is printed as: without the optional fields that are `null`, and with
its `choices`. -/
def normal (m : Map) : Map :=
  (m.dropNull ["id", "object", "model", "usage"]).orInsert "choices" (.array [])

/-- What reading a response leaves: other fields of other names, in order, and no optional field
that is `null`. -/
structure WellFormed (r : ChatResponse) : Prop where
  ordered : r.extra.Ordered
  unknown : ∀ k ∈ fieldNames, r.extra.get k = none
  usage : r.usage ≠ some .null

variable {m : Map} {r : ChatResponse}

def known (r : ChatResponse) : Map :=
  let m := Map.insertSome [] "id" (r.id.map .string)
  let m := Map.insertSome m "object" (r.object.map .string)
  let m := Map.insertSome m "model" (r.model.map .string)
  let m := Map.insert m "choices" (.array r.choices)
  Map.insertSome m "usage" r.usage

lemma toValue_eq (r : ChatResponse) : r.toValue = flatten r.known r.extra := rfl

lemma ordered_known (r : ChatResponse) : r.known.Ordered := by
  refine Map.Ordered.insertSome (Map.Ordered.insert ?_)
  exact (Map.ordered_nil.insertSome.insertSome).insertSome

lemma get_known (r : ChatResponse) (k : String) :
    r.known.get k = if k = "usage" then r.usage
      else if k = "choices" then some (.array r.choices)
      else if k = "model" then r.model.map .string
      else if k = "object" then r.object.map .string
      else if k = "id" then r.id.map .string else none := by
  simp only [known, get_insertSome, get_insert]
  have hnil : ∀ a, Map.get [] a = none := fun _ => rfl
  split_ifs <;> simp_all

lemma fromValue_eq_some (h : fromValue (.object m) = some r) :
    optString m "id" = some r.id ∧ optString m "object" = some r.object ∧
      optString m "model" = some r.model ∧ listField m "choices" = some r.choices ∧
      r.usage = optValue m "usage" ∧ r.extra = m.filter fun f => !fieldNames.contains f.1 := by
  simp only [fromValue, Value.asObject, Option.bind_eq_bind, Option.bind_some,
    Option.bind_eq_some_iff, Option.some.injEq] at h
  obtain ⟨id, hid, object, hobject, model, hmodel, choices, hchoices, rfl⟩ := h
  exact ⟨hid, hobject, hmodel, hchoices, rfl, rfl⟩

/-- Printing a response that was read gives its object in normal form: known fields that were `null`
are left out, and an absent list of choices is printed as the empty one. -/
theorem toValue_fromValue (hm : m.Ordered) (h : fromValue (.object m) = some r) :
    r.toValue = .object (normal m) := by
  obtain ⟨hid, hobject, hmodel, hchoices, husage, hextra⟩ := fromValue_eq_some h
  rw [toValue_eq, hextra]
  have hnormal : ∀ k, (normal m).get k = ((m.get k).filter fun v =>
      !(["id", "object", "model", "usage"].contains k && v.isNull)).or
        (if k = "choices" then some (.array []) else none) := by
    intro k
    rw [normal, Map.get_orInsert, hm.get_dropNull]
  refine flatten_eq hm (hm.dropNull _).orInsert r.ordered_known ?_ ?_
  · intro k hk
    rw [get_known, hnormal]
    simp only [fieldNames, List.mem_cons, List.not_mem_nil, or_false] at hk
    rcases hk with rfl | rfl | rfl | rfl | rfl
    · simp [optString_eq_some hid]
    · simp [optString_eq_some hobject]
    · simp [optString_eq_some hmodel]
    · rw [filter_kept (by decide)]
      exact listField_eq_some hchoices
    · simp [husage, optValue_eq]
  · intro k hk
    simp only [fieldNames, List.mem_cons, List.not_mem_nil, or_false, not_or] at hk
    obtain ⟨hkid, hkobject, hkmodel, hkchoices, hkusage⟩ := hk
    rw [get_known, hnormal, filter_kept (by simp [*])]
    simp [*]

lemma wellFormed_of_fromValue (hm : m.Ordered) (h : fromValue (.object m) = some r) :
    r.WellFormed := by
  obtain ⟨-, -, -, -, husage, hextra⟩ := fromValue_eq_some h
  refine ⟨?_, fun k hk => ?_, ?_⟩
  · rw [hextra]
    exact hm.filter _
  · rw [hextra, Map.get_filter fun k => !fieldNames.contains k]
    simp [hk]
  · rw [husage]
    exact optValue_ne_null m "usage"

/-- Reading what a response is printed as gives the response back, unknown fields included. -/
theorem fromValue_toValue (h : r.WellFormed) : fromValue r.toValue = some r := by
  have hget : ∀ k, Map.get (r.extra.foldl (fun m f => Map.insert m f.1 f.2) r.known) k =
      (r.extra.get k).or (r.known.get k) := Map.get_flattened h.ordered
  have hextra := filter_flattened h.ordered r.ordered_known h.unknown
    fun k hk => by
      simp only [fieldNames, List.mem_cons, List.not_mem_nil, or_false, not_or] at hk
      simp [get_known, hk]
  have hnone : ∀ k ∈ fieldNames, Map.get (r.extra.foldl (fun m f => Map.insert m f.1 f.2)
      r.known) k = r.known.get k := by
    intro k hk
    rw [hget, h.unknown k hk, Option.none_or]
  have hstring : ∀ (k : String) (s : Option String) (v : Map),
      v.get k = s.map .string → optString v k = some s := by
    intro k s v hv
    unfold optString
    rw [hv]
    cases s <;> rfl
  have hid := hstring "id" r.id _ ((hnone "id" (by decide)).trans (by simp [get_known]))
  have hobject :=
    hstring "object" r.object _ ((hnone "object" (by decide)).trans (by simp [get_known]))
  have hmodel := hstring "model" r.model _ ((hnone "model" (by decide)).trans (by simp [get_known]))
  have hchoices := (hnone "choices" (by decide)).trans (get_known r "choices")
  have husage := (hnone "usage" (by decide)).trans (get_known r "usage")
  have hvalue : (r.usage.filter fun v => !v.isNull) = r.usage := by
    have hnull := h.usage
    cases hu : r.usage with
    | none => rfl
    | some v => cases v <;> simp_all [Value.isNull]
  rw [toValue_eq, flatten, fromValue]
  simp only [Value.asObject, Option.bind_eq_bind, Option.bind_some, hid, hobject, hmodel, hextra,
    listField, optValue_eq, hchoices, husage]
  simp [hvalue]

end ChatResponse

/-! ## Requests -/

namespace ChatRequest

/-- The fields that are left out when they are `null`. -/
def optional : List String := ["stream", "max_tokens", "temperature", "top_p"]

def normalMessage : Value → Value
  | .object m => .object (ChatMessage.normal m)
  | v => v

/-- A field of the normal form: messages are normal, and sampling parameters are doubles. -/
def normalField (k : String) (v : Value) : Value :=
  if k = "messages" then
    match v with
    | .array items => .array (items.map normalMessage)
    | v => v
  else if k = "temperature" ∨ k = "top_p" then (v.asF64.map .ofF64).getD v
  else v

/-- The object a request is printed as: without the optional fields that are `null`, and with
its `messages`. -/
def normal (m : Map) : Map :=
  ((m.dropNull optional).orInsert "messages" (.array [])).map fun f => (f.1, normalField f.1 f.2)

/-- What reading a request leaves: what it leaves of a response, well-formed messages, and finite
sampling parameters. -/
structure WellFormed (r : ChatRequest) : Prop where
  ordered : r.extra.Ordered
  unknown : ∀ k ∈ fieldNames, r.extra.get k = none
  messages : ∀ message ∈ r.messages, message.WellFormed
  temperature : ∀ x, r.temperature = some x → x.isFinite = true
  topP : ∀ x, r.topP = some x → x.isFinite = true

variable {m : Map} {r : ChatRequest}

lemma get_map (g : String → Value → Value) (m : Map) (k : String) :
    Map.get (m.map fun f => (f.1, g f.1 f.2)) k = (m.get k).map (g k) := by
  induction m with
  | nil => rfl
  | cons f m ih =>
      rw [List.map_cons, Map.get_cons, Map.get_cons, ih]
      by_cases hk : k = f.1
      · simp [hk]
      · simp [hk]

lemma ordered_normal (hm : m.Ordered) : Map.Ordered (normal m) := by
  refine List.pairwise_map.2 ?_
  exact (hm.dropNull optional).orInsert

lemma normalField_plain {k : String} (hmessages : k ≠ "messages") (htemperature : k ≠ "temperature")
    (htop : k ≠ "top_p") : normalField k = id := by
  funext v
  simp [normalField, hmessages, htemperature, htop]

lemma normalField_sampling {k : String} (hk : k = "temperature" ∨ k = "top_p") :
    normalField k = fun v => (v.asF64.map .ofF64).getD v := by
  funext v
  rcases hk with rfl | rfl <;> simp [normalField]

lemma get_normal (hm : m.Ordered) (k : String) :
    (normal m).get k = (((m.get k).filter fun v => !(optional.contains k && v.isNull)).or
      (if k = "messages" then some (.array []) else none)).map (normalField k) := by
  rw [normal, get_map, Map.get_orInsert, hm.get_dropNull]

lemma toValue_eq (r : ChatRequest) : r.toValue = flatten r.known r.extra := rfl

lemma ordered_known (r : ChatRequest) : r.known.Ordered :=
  (((Map.ordered_ofFields _).insertSome.insertSome).insertSome).insertSome

lemma get_known (r : ChatRequest) (k : String) :
    r.known.get k = if k = "top_p" then r.topP.map .ofF64
      else if k = "temperature" then r.temperature.map .ofF64
      else if k = "max_tokens" then r.maxTokens.map fun n => .ofU64 n.toUInt64
      else if k = "stream" then r.stream.map .bool
      else if k = "messages" then some (.array (r.messages.map ChatMessage.toValue))
      else if k = "model" then some (.string r.model) else none := by
  simp only [known, get_insertSome, Map.get_ofFields]
  have hnil : ∀ a, Map.get [] a = none := fun _ => rfl
  split_ifs <;> simp_all [Map.get_cons]

lemma optField_eq_some {α : Type} {read : Value → Option α} {k : String} {x : Option α}
    (h : optField read m k = some x) :
    ((m.get k).filter fun v => !v.isNull).isSome = x.isSome ∧
      ∀ v, ((m.get k).filter fun v => !v.isNull) = some v → read v = x := by
  unfold optField at h
  cases hk : m.get k with
  | none =>
      rw [hk] at h
      obtain rfl := Option.some.inj h
      simp
  | some v =>
      rw [hk] at h
      cases v with
      | null =>
          obtain rfl := Option.some.inj h
          simp [Value.isNull]
      | _ =>
          obtain ⟨a, ha, rfl⟩ := Option.map_eq_some_iff.1 h
          simp [Value.isNull, ha]

/-- An optional field that was read with `read` and is printed with `print`. -/
lemma print_optField {α : Type} {read : Value → Option α} {print : α → Value} {k : String}
    {x : Option α} (h : optField read m k = some x) :
    x.map print = ((m.get k).filter fun v => !v.isNull).map
      fun v => ((read v).map print).getD v := by
  obtain ⟨hsome, hread⟩ := optField_eq_some h
  cases hk : (m.get k).filter fun v => !v.isNull with
  | none =>
      rw [hk] at hsome
      cases x with
      | none => rfl
      | some a => cases hsome
  | some v =>
      rw [hk] at hsome
      cases x with
      | none => cases hsome
      | some a => simp [hread v hk]

lemma print_bool {v : Value} : (v.asBool.map Value.bool).getD v = v := by
  cases v <;> rfl

lemma print_u32 {v : Value} :
    ((asU32 v).map fun n => Value.ofU64 n.toUInt64).getD v = v := by
  unfold asU32
  cases v with
  | number n =>
      cases n with
      | posInt n =>
          simp only [Value.asU64, Number.asU64, Option.bind_some]
          split
          · rename_i hlt
            have hback : n.toUInt32.toUInt64 = n := by
              refine UInt64.toNat_inj.1 ?_
              have hn : n.toNat < 4294967296 := UInt64.lt_iff_toNat_lt.1 hlt
              simp only [UInt32.toNat_toUInt64, UInt64.toNat_toUInt32]
              omega
            simp [Value.ofU64, hback]
          · rfl
      | _ => rfl
  | _ => rfl

/-- The parts of a request that was read, each as a statement about one field of the object. -/
structure Parts (m : Map) (r : ChatRequest) : Prop where
  model : m.get "model" = some (.string r.model)
  messages : ∃ items, ChatResponse.listField m "messages" = some items ∧
    items.mapM ChatMessage.fromValue = some r.messages
  stream : optField Value.asBool m "stream" = some r.stream
  maxTokens : optField asU32 m "max_tokens" = some r.maxTokens
  temperature : optField Value.asF64 m "temperature" = some r.temperature
  topP : optField Value.asF64 m "top_p" = some r.topP
  extra : r.extra = m.filter fun f => !fieldNames.contains f.1

lemma parts_of_fromValue (h : fromValue (.object m) = some r) : Parts m r := by
  simp only [fromValue, Value.asObject, Option.bind_eq_bind, Option.bind_some,
    Option.bind_eq_some_iff, Option.some.injEq] at h
  obtain ⟨model, ⟨v, hv, hmodel⟩, items, hitems, messages, hmessages, stream, hstream, maxTokens,
    hmax, temperature, htemperature, topP, htop, rfl⟩ := h
  refine ⟨?_, ⟨items, hitems, hmessages⟩, hstream, hmax, htemperature, htop, rfl⟩
  cases v with
  | string s =>
      obtain rfl := Option.some.inj hmodel
      exact hv
  | _ => cases hmodel

/-- Messages that were read one by one are printed in normal form one by one. -/
lemma map_toValue_of_mapM {items : List Value} {messages : List ChatMessage}
    (hitems : ∀ v ∈ items, Lawful v) (h : items.mapM ChatMessage.fromValue = some messages) :
    messages.map ChatMessage.toValue = items.map normalMessage ∧
      ∀ message ∈ messages, message.WellFormed := by
  induction items generalizing messages with
  | nil =>
      obtain rfl : messages = [] := by simpa using h.symm
      simp
  | cons v items ih =>
      rw [List.mapM_cons] at h
      simp only [Option.bind_eq_bind, Option.bind_eq_some_iff, Option.pure_def,
        Option.some.injEq] at h
      obtain ⟨message, hmessage, rest, hrest, rfl⟩ := h
      obtain ⟨hprinted, hwell⟩ := ih (fun w hw => hitems w (List.mem_cons_of_mem _ hw)) hrest
      have hv := hitems v (List.mem_cons_self ..)
      cases v with
      | object m =>
          have hone := ChatMessage.toValue_fromValue hv.ordered hmessage
          have hself := ChatMessage.wellFormed_of_fromValue hv.ordered hmessage
          refine ⟨by simp [hprinted, hone, normalMessage], fun other hother => ?_⟩
          rcases List.mem_cons.1 hother with rfl | hother
          · exact hself
          · exact hwell other hother
      | _ => simp [ChatMessage.fromValue, Value.asObject] at hmessage

lemma Parts.items {v : Value} (h : Parts m r) (hm : Lawful (.object m))
    (hv : m.get "messages" = some v) : ∃ items, v = .array items ∧
      items.mapM ChatMessage.fromValue = some r.messages ∧ ∀ item ∈ items, Lawful item := by
  obtain ⟨items, hitems, hread⟩ := h.messages
  have hfield := listField_eq_some hitems
  rw [hv, Option.some_or] at hfield
  obtain rfl := Option.some.inj hfield
  exact ⟨items, rfl, hread, fun item hitem => (hm.get hv).item hitem⟩

lemma Parts.no_items (h : Parts m r) (hnone : m.get "messages" = none) : r.messages = [] := by
  obtain ⟨items, hitems, hread⟩ := h.messages
  have hfield := listField_eq_some hitems
  rw [hnone, Option.none_or] at hfield
  obtain rfl : items = [] := Value.array.inj (Option.some.inj hfield)
  simpa using hread.symm

/-- Printing a request that was read gives its object in normal form.  Besides what a response
leaves out, its messages are normal themselves, and its sampling parameters are doubles. -/
theorem toValue_fromValue (hm : Lawful (.object m)) (h : fromValue (.object m) = some r) :
    r.toValue = .object (normal m) := by
  have hparts := parts_of_fromValue h
  rw [toValue_eq, hparts.extra]
  refine flatten_eq hm.ordered (ordered_normal hm.ordered) r.ordered_known ?_ ?_
  · intro k hk
    rw [get_known, get_normal hm.ordered]
    simp only [fieldNames, List.mem_cons, List.not_mem_nil, or_false] at hk
    rcases hk with rfl | rfl | rfl | rfl | rfl | rfl
    · rw [filter_kept (by decide), hparts.model]
      rfl
    · rw [filter_kept (by decide)]
      cases hv : m.get "messages" with
      | none => simp [hparts.no_items hv, normalField]
      | some v =>
          obtain ⟨items, rfl, hread, hitems⟩ := hparts.items hm hv
          simp [(map_toValue_of_mapM hitems hread).1, normalField]
    · simp [print_optField hparts.stream, optional, print_bool, normalField_plain]
    · simp [print_optField hparts.maxTokens, optional, print_u32, normalField_plain]
    · simp [print_optField hparts.temperature, optional, normalField_sampling]
    · simp [print_optField hparts.topP, optional, normalField_sampling]
  · intro k hk
    simp only [fieldNames, List.mem_cons, List.not_mem_nil, or_false, not_or] at hk
    obtain ⟨hmodel, hmessages, hstream, hmax, htemperature, htop⟩ := hk
    rw [get_known, get_normal hm.ordered, filter_kept (by simp [optional, *])]
    simp [normalField_plain, *]

lemma finite_of_optField {k : String} {x : Option Float64} (hm : Lawful (.object m))
    (h : optField Value.asF64 m k = some x) (y : Float64) (hy : x = some y) :
    y.isFinite = true := by
  obtain ⟨hsome, hread⟩ := optField_eq_some h
  rw [hy] at hsome hread
  obtain ⟨v, hv⟩ := Option.isSome_iff_exists.1 hsome
  have hfield : m.get k = some v := (Option.filter_eq_some_iff.1 hv).1
  exact isFinite_of_asF64 (hm.get hfield) (hread v hv)

lemma wellFormed_of_fromValue (hm : Lawful (.object m)) (h : fromValue (.object m) = some r) :
    r.WellFormed := by
  have hparts := parts_of_fromValue h
  refine ⟨?_, fun k hk => ?_, ?_, finite_of_optField hm hparts.temperature,
    finite_of_optField hm hparts.topP⟩
  · rw [hparts.extra]
    exact hm.ordered.filter _
  · rw [hparts.extra, Map.get_filter fun k => !fieldNames.contains k]
    simp [hk]
  · cases hv : m.get "messages" with
    | none => simp [hparts.no_items hv]
    | some v =>
        obtain ⟨items, rfl, hread, hitems⟩ := hparts.items hm hv
        exact (map_toValue_of_mapM hitems hread).2

lemma optField_print {α : Type} {read : Value → Option α} {print : α → Value} {k : String}
    {x : Option α} (hget : m.get k = x.map print)
    (hback : ∀ a, x = some a → print a ≠ .null ∧ read (print a) = some a) :
    optField read m k = some x := by
  unfold optField
  rw [hget]
  cases x with
  | none => rfl
  | some a =>
      obtain ⟨hnull, hread⟩ := hback a rfl
      rw [Option.map_some]
      generalize print a = v at hnull hread
      cases v with
      | null => exact absurd rfl hnull
      | _ => exact congrArg (Option.map some) hread

lemma mapM_toValue {messages : List ChatMessage} (h : ∀ message ∈ messages, message.WellFormed) :
    (messages.map ChatMessage.toValue).mapM ChatMessage.fromValue = some messages := by
  induction messages with
  | nil => rfl
  | cons message messages ih =>
      rw [List.map_cons, List.mapM_cons,
        ChatMessage.fromValue_toValue (h message (List.mem_cons_self ..)),
        ih fun other hother => h other (List.mem_cons_of_mem _ hother)]
      rfl

lemma asU32_print (n : UInt32) : asU32 (.ofU64 n.toUInt64) = some n := by
  have hlt : n.toUInt64 < 4294967296 := by
    rw [UInt64.lt_iff_toNat_lt, UInt32.toNat_toUInt64]
    exact n.toNat_lt
  simp [asU32, Value.ofU64, Value.asU64, Number.asU64, hlt]

lemma asF64_print {x : Float64} (h : x.isFinite = true) :
    Value.ofF64 x ≠ .null ∧ (Value.ofF64 x).asF64 = some x := by
  rw [Value.ofF64, if_pos h]
  exact ⟨Value.noConfusion, rfl⟩

/-- Reading what a request is printed as gives the request back, unknown fields included. -/
theorem fromValue_toValue (h : r.WellFormed) : fromValue r.toValue = some r := by
  generalize hprinted : r.extra.foldl (fun m f => Map.insert m f.1 f.2) r.known = printed
  have hextra : (printed.filter fun f => !fieldNames.contains f.1) = r.extra := by
    rw [← hprinted]
    refine filter_flattened h.ordered r.ordered_known h.unknown fun k hk => ?_
    simp only [fieldNames, List.mem_cons, List.not_mem_nil, or_false, not_or] at hk
    simp [get_known, hk]
  have hget : ∀ k ∈ fieldNames, printed.get k = r.known.get k := by
    intro k hk
    rw [← hprinted, Map.get_flattened h.ordered, h.unknown k hk, Option.none_or]
  have hmodel := (hget "model" (by decide)).trans (get_known r "model")
  have hmessages := (hget "messages" (by decide)).trans (get_known r "messages")
  have hstream : optField Value.asBool printed "stream" = some r.stream :=
    optField_print ((hget "stream" (by decide)).trans (get_known r "stream"))
      fun b _ => ⟨Value.noConfusion, rfl⟩
  have hmax : optField asU32 printed "max_tokens" = some r.maxTokens :=
    optField_print ((hget "max_tokens" (by decide)).trans (get_known r "max_tokens"))
      fun n _ => ⟨Value.noConfusion, asU32_print n⟩
  have htemperature : optField Value.asF64 printed "temperature" = some r.temperature :=
    optField_print ((hget "temperature" (by decide)).trans (get_known r "temperature"))
      fun x hx => asF64_print (h.temperature x hx)
  have htop : optField Value.asF64 printed "top_p" = some r.topP :=
    optField_print ((hget "top_p" (by decide)).trans (get_known r "top_p"))
      fun x hx => asF64_print (h.topP x hx)
  rw [toValue_eq, flatten, hprinted, fromValue]
  simp only [Value.asObject, Option.bind_eq_bind, Option.bind_some, hmodel, hstream, hmax,
    htemperature, htop, hextra]
  simp [Value.asStr, ChatResponse.listField, hmessages, mapM_toValue h.messages]

end ChatRequest

/-! ## All three -/

lemma exists_object {α : Type} {v : Value} {read : Map → Option α} {r : α}
    (h : v.asObject.bind read = some r) : ∃ m, v = .object m := by
  cases v with
  | object m => exact ⟨m, rfl⟩
  | _ => cases h

/-- **The wire types survive a round trip.**  Whatever a type reads out of a value of the library
it prints in normal form: every field it does not know verbatim, and every field it knows but for
nulls, defaults and the shape of a number.  And reading that again gives back what was read. -/
theorem wire_round_trip {v : Value} (hv : Lawful v) :
    (∀ r, ChatMessage.fromValue v = some r → ∃ m, v = .object m ∧
      r.toValue = .object (ChatMessage.normal m) ∧ ChatMessage.fromValue r.toValue = some r) ∧
    (∀ r, ChatResponse.fromValue v = some r → ∃ m, v = .object m ∧
      r.toValue = .object (ChatResponse.normal m) ∧ ChatResponse.fromValue r.toValue = some r) ∧
    ∀ r, ChatRequest.fromValue v = some r → ∃ m, v = .object m ∧
      r.toValue = .object (ChatRequest.normal m) ∧ ChatRequest.fromValue r.toValue = some r := by
  refine ⟨fun r h => ?_, fun r h => ?_, fun r h => ?_⟩
  · obtain ⟨m, rfl⟩ := exists_object h
    exact ⟨m, rfl, ChatMessage.toValue_fromValue hv.ordered h,
      ChatMessage.fromValue_toValue (ChatMessage.wellFormed_of_fromValue hv.ordered h)⟩
  · obtain ⟨m, rfl⟩ := exists_object h
    exact ⟨m, rfl, ChatResponse.toValue_fromValue hv.ordered h,
      ChatResponse.fromValue_toValue (ChatResponse.wellFormed_of_fromValue hv.ordered h)⟩
  · obtain ⟨m, rfl⟩ := exists_object h
    exact ⟨m, rfl, ChatRequest.toValue_fromValue hv h,
      ChatRequest.fromValue_toValue (ChatRequest.wellFormed_of_fromValue hv h)⟩

/-- A request with a message, a sampling parameter and a field nobody knows. -/
def seededRequest : Value :=
  .object
    [("messages", .array [.object [("content", .null), ("name", .string "bob"),
        ("role", .string "user")]]),
      ("model", .string "gpt"), ("seed", .number (.posInt 42)), ("stream", .null),
      ("temperature", .number (.posInt 1))]

lemma lawful_seededRequest : Lawful seededRequest := lawful_of_isLawful _ (by decide +kernel)

theorem wire_round_trip_seeded :
    ∃ r : ChatRequest, ChatRequest.fromValue seededRequest = some r ∧
      ChatRequest.fromValue r.toValue = some r := by
  obtain ⟨r, hr⟩ : ∃ r, ChatRequest.fromValue seededRequest = some r := ⟨_, rfl⟩
  obtain ⟨-, -, -, hback⟩ := (wire_round_trip lawful_seededRequest).2.2 r hr
  exact ⟨r, hr, hback⟩

end Moaray
