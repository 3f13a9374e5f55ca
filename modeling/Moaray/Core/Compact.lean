import Moaray.Core.Fields

/-!
# Compact JSON

The JSON library is a parameter of the gateway's code: a `SerdeJson` reads bytes and prints
values, and what a result needs of it is said where it is used.  This module says what is known of
the library there is.

* `printValue` — the text of a value, as `to_string` prints it: without a blank, its strings
  escaped where JSON asks for it, the fields of an object in the order it keeps them.
* `visible_printValue`, `trim_printValue_object` — such a text is one line.
* `PrintsCompact` — what the lengths of such texts are compared by; `printsCompact_ofTexts`.
* `SerdeJson.ofTexts` — a library that is known on some texts: it reads each as the value it
  stands for, takes no other for JSON, and prints compactly.  `parse_ofTexts` and
  `lawful_ofTexts` are what a gateway with such a library knows of what it reads.

**Design.**  A table of texts stands in for a parser.  Its entries are the texts themselves, so a
reader can check each against its value, and most of them are printed by the gateway as well: for
these, `printValue` of the value is the text.
-/

namespace Moaray

namespace Json

/-! ## The text of a value -/

/-- A character in a JSON string.  Quotes and backslashes are escaped, and so are the control
characters, five of them by a letter and the others by their code. -/
def escapeChar (c : Char) : List Char :=
  let backslash := Char.ofNat 0x5C
  match c.toNat with
  | 0x22 | 0x5C => [backslash, c]
  | 0x08 => [backslash, 'b']
  | 0x09 => [backslash, 't']
  | 0x0A => [backslash, 'n']
  | 0x0C => [backslash, 'f']
  | 0x0D => [backslash, 'r']
  | code =>
      if code < 0x20 then
        backslash :: "u00".toList ++ [Nat.digitChar (code / 16), Nat.digitChar (code % 16)]
      else [c]

def quoted (s : String) : String :=
  let quote := Char.ofNat 0x22
  String.ofList (quote :: s.toList.flatMap escapeChar ++ [quote])

mutual

/-- A value as compact JSON.  A double is printed by its bits, where the library prints the
shortest decimal that reads back as it. -/
def printValue : Value → String
  | .null => "null"
  | .bool b => toString b
  | .number (.posInt n) => toString n.toNat
  | .number (.negInt n) => toString n.toInt
  | .number (.float x) => toString x.bits.toNat
  | .string s => quoted s
  | .array items => "[" ++ ",".intercalate (printItems items) ++ "]"
  | .object fields => "\x7b" ++ ",".intercalate (printFields fields) ++ "\x7d"

/-- The items of an array, each by itself. -/
def printItems : List Value → List String
  | [] => []
  | item :: items => printValue item :: printItems items

/-- The fields of an object, each with its key in front. -/
def printFields : List (String × Value) → List String
  | [] => []
  | (k, v) :: fields => (quoted k ++ ":" ++ printValue v) :: printFields fields

end

lemma one_le_length_escapeChar (c : Char) : 1 ≤ (escapeChar c).length := by
  unfold escapeChar
  split <;> try split_ifs
  all_goals simp

lemma printItems_eq (items : List Value) : printItems items = items.map printValue := by
  induction items with
  | nil => simp [printItems]
  | cons item items ih => rw [printItems, ih, List.map_cons]

lemma printFields_eq (fields : Map) :
    printFields fields = fields.map fun f => printValue (.string f.1) ++ ":" ++ printValue f.2 := by
  induction fields with
  | nil => simp [printFields]
  | cons f fields ih =>
      obtain ⟨k, v⟩ := f
      rw [printFields, ih, List.map_cons, printValue]

/-! ## Compact text is one line -/

/-- A text without control characters. -/
def Visible (s : List Char) : Prop := ∀ c ∈ s, 0x20 ≤ c.toNat

instance (s : List Char) : Decidable (Visible s) :=
  List.decidableBAll (fun c : Char => 0x20 ≤ c.toNat) s

lemma visible_append {s t : List Char} : Visible (s ++ t) ↔ Visible s ∧ Visible t :=
  List.forall_mem_append

lemma visible_repr (n : ℕ) : Visible n.repr.toList := by
  intro c hc
  rw [Nat.toList_repr] at hc
  have hdigit := Nat.isDigit_of_mem_toDigits (by decide) (by decide) hc
  simp only [Char.isDigit, Bool.and_eq_true, decide_eq_true_eq] at hdigit
  have hle : (48 : ℕ) ≤ c.toNat := hdigit.1
  omega

lemma visible_int (n : ℤ) : Visible (toString n).toList := by
  cases n with
  | ofNat n => exact visible_repr n
  | negSucc n =>
      show Visible ("-" ++ (n + 1).repr).toList
      rw [String.toList_append, visible_append]
      exact ⟨by decide, visible_repr _⟩

lemma visible_escapeChar (c : Char) : Visible (escapeChar c) := by
  by_cases hc : c.toNat < 0x80
  · have hall : ∀ code < 0x80, Visible (escapeChar (Char.ofNat code)) := by decide +kernel
    have hsmall := hall c.toNat hc
    rwa [Char.ofNat_toNat] at hsmall
  · unfold escapeChar
    split
    case h_8 =>
      rw [if_neg (by omega)]
      exact fun d hd => by rw [List.mem_singleton.1 hd]; omega
    all_goals omega

lemma visible_quoted (s : String) : Visible (quoted s).toList := by
  have hquote : Visible [Char.ofNat 0x22] := by decide
  rw [quoted, String.toList_ofList, ← List.singleton_append, visible_append, visible_append]
  refine ⟨⟨hquote, fun c hc => ?_⟩, hquote⟩
  obtain ⟨d, -, hd⟩ := List.mem_flatMap.1 hc
  exact visible_escapeChar d c hd

lemma visible_intercalate {l : List String} (h : ∀ s ∈ l, Visible s.toList) :
    Visible (",".intercalate l).toList := by
  have hcomma : Visible ",".toList := by decide
  induction l with
  | nil => exact fun c hc => by simp at hc
  | cons s l ih =>
      obtain ⟨hs, hl⟩ := List.forall_mem_cons.1 h
      by_cases hnil : l = []
      · rw [hnil, String.intercalate_singleton]
        exact hs
      · rw [String.intercalate_cons_of_ne_nil hnil, String.toList_append, String.toList_append,
          visible_append, visible_append]
        exact ⟨⟨hs, hcomma⟩, ih hl⟩

mutual

/-- Compact text has no control characters. -/
lemma visible_printValue : ∀ v : Value, Visible (printValue v).toList
  | .null => by decide
  | .bool true => by decide
  | .bool false => by decide
  | .number (.posInt n) => by rw [printValue]; exact visible_repr n.toNat
  | .number (.negInt n) => by rw [printValue]; exact visible_int n.toInt
  | .number (.float x) => by rw [printValue]; exact visible_repr x.bits.toNat
  | .string s => by rw [printValue]; exact visible_quoted s
  | .array items => by
      rw [printValue, String.toList_append, String.toList_append, visible_append, visible_append]
      exact ⟨⟨by decide, visible_intercalate (visible_printItems items)⟩, by decide⟩
  | .object fields => by
      rw [printValue, String.toList_append, String.toList_append, visible_append, visible_append]
      exact ⟨⟨by decide, visible_intercalate (visible_printFields fields)⟩, by decide⟩

lemma visible_printItems : ∀ items : List Value, ∀ s ∈ printItems items, Visible s.toList
  | [] => by simp [printItems]
  | item :: items => by
      rw [printItems]
      exact List.forall_mem_cons.2 ⟨visible_printValue item, visible_printItems items⟩

lemma visible_printFields :
    ∀ fields : List (String × Value), ∀ s ∈ printFields fields, Visible s.toList
  | [] => by simp [printFields]
  | (k, v) :: fields => by
      rw [printFields]
      refine List.forall_mem_cons.2 ⟨?_, visible_printFields fields⟩
      rw [String.toList_append, String.toList_append, visible_append, visible_append]
      exact ⟨⟨visible_quoted k, by decide⟩, visible_printValue v⟩

end

/-- The text of an object begins and ends with a brace. -/
lemma toList_printValue_object (fields : Map) :
    ∃ inner, (printValue (.object fields)).toList =
      Char.ofNat 0x7B :: (inner ++ [Char.ofNat 0x7D]) := by
  refine ⟨(",".intercalate (printFields fields)).toList, ?_⟩
  rw [printValue, String.toList_append, String.toList_append]
  rfl

lemma trim_printValue_object (fields : Map) :
    trim (printValue (.object fields)) = printValue (.object fields) := by
  obtain ⟨inner, hinner⟩ := toList_printValue_object fields
  refine trim_of_ends ?_ ?_
  · rw [hinner, List.head?_cons, Option.all_some]
    decide
  · rw [hinner, ← List.cons_append, List.getLast?_concat, Option.all_some]
    decide

/-! ## A library that is known on some texts -/

/-- A library that reads the given texts, each as its value, and takes nothing else for JSON. -/
def SerdeJson.ofTexts (texts : List (String × Value)) : SerdeJson where
  parse bytes :=
    match texts.find? fun text => utf8 text.1 = bytes with
    | some text => .ok text.2
    | none => .error "expected value at line 1 column 1"
  print := printValue

/-- A text that is listed once is read as the value it is listed with. -/
lemma SerdeJson.parse_ofTexts {texts : List (String × Value)} {s : String} {v : Value}
    (hnodup : (texts.map Prod.fst).Nodup) (h : (s, v) ∈ texts) :
    (ofTexts texts).parse (utf8 s) = .ok v := by
  have hfind : (texts.find? fun text => utf8 text.1 = utf8 s) = some (s, v) := by
    simp only [utf8_inj]
    induction texts with
    | nil => cases h
    | cons text texts ih =>
        obtain ⟨hfirst, hrest⟩ := List.nodup_cons.1 hnodup
        rcases List.mem_cons.1 h with rfl | h
        · exact List.find?_cons_of_pos (by simp)
        · have hne : text.1 ≠ s := fun heq => hfirst (heq ▸ List.mem_map_of_mem h)
          rw [List.find?_cons_of_neg (by simpa using hne)]
          exact ih hrest h
  show (match texts.find? fun text => utf8 text.1 = utf8 s with
    | some text => Except.ok text.2
    | none => .error _) = _
  rw [hfind]

lemma SerdeJson.exists_of_parse_ofTexts {texts : List (String × Value)} {bytes : Bytes} {v : Value}
    (h : (ofTexts texts).parse bytes = .ok v) : ∃ s, (s, v) ∈ texts ∧ bytes = utf8 s := by
  unfold ofTexts at h
  dsimp only at h
  split at h
  · rename_i text htext
    obtain rfl := Except.ok.inj h
    have hbytes : utf8 text.1 = bytes := by simpa using List.find?_some htext
    exact ⟨text.1, List.mem_of_find?_eq_some htext, hbytes.symm⟩
  · cases h

/-- When the values of the table are lawful, so is everything the library reads. -/
lemma SerdeJson.lawful_ofTexts {texts : List (String × Value)}
    (h : ∀ text ∈ texts, text.2.isLawful = true) {bytes : Bytes} {v : Value}
    (hv : (ofTexts texts).parse bytes = .ok v) : Lawful v := by
  obtain ⟨s, hmem, -⟩ := exists_of_parse_ofTexts hv
  exact lawful_of_isLawful _ (h _ hmem)

end Json

open Json

/-- What is used of compact JSON: strings in quotes, their escapes no shorter than what they
stand for, and the items of an array and the fields of an object in full. -/
structure PrintsCompact (serde : SerdeJson) : Prop where
  string : ∀ s, s.length + 2 ≤ (serde.print (.string s)).length
  array :
    ∀ items, serde.print (.array items) = "[" ++ ",".intercalate (items.map serde.print) ++ "]"
  object :
    ∀ fields, serde.print (.object fields) =
      "\x7b" ++ ",".intercalate
        (fields.map fun f => serde.print (.string f.1) ++ ":" ++ serde.print f.2) ++ "\x7d"

/-- A library that is known on some texts prints compactly. -/
lemma printsCompact_ofTexts (texts : List (String × Value)) : PrintsCompact (.ofTexts texts) where
  string s := by
    have hlength (cs : List Char) : cs.length ≤ (cs.flatMap escapeChar).length := by
      induction cs with
      | nil => simp
      | cons c cs ih =>
          have hc := one_le_length_escapeChar c
          rw [List.flatMap_cons, List.length_append, List.length_cons]
          omega
    have hs := hlength s.toList
    show s.length + 2 ≤ (printValue (.string s)).length
    rw [printValue, quoted, String.length_ofList, ← String.length_toList]
    simp only [List.cons_append, List.length_cons, List.length_append, List.length_nil]
    omega
  array items := by
    show printValue (.array items) = _
    rw [printValue, printItems_eq]
    rfl
  object fields := by
    show printValue (.object fields) = _
    rw [printValue, printFields_eq]
    rfl

end Moaray
