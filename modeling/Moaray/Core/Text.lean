import Mathlib.Data.List.DropRight
import Mathlib.Tactic

/-!
# Strings and bytes

The standard-library operations the gateway uses on strings, under the library's names and
character by character.

* `utf8`, `fromUtf8` — the bytes of a text; `fromUtf8_utf8`: read back.
* `trim`, `trimStart`, `stripPrefix` — and when they leave a text alone.
* `replace` — every occurrence of a pattern, from left to right; `suffix_replaceChars` and the two
  lemmas after it say what a replacement can leave of runs of a letter.

A character counts as white space when it has the Unicode property, which is what the library's
`trim` goes by; `isWhitespace` lists those characters.

**Design.**  `replaceChars` carries the number of characters still to drop, so it is structurally
recursive and evaluates.  The lemmas about it say what a tail or a run of the result comes from in
the text, since that is how a sanitizer is reasoned about: something in the result that looks like
a delimiter had to stand in the text.
-/

namespace Moaray

/-- A byte string. -/
abbrev Bytes := List UInt8

/-- `as_bytes()`. -/
def utf8 (s : String) : Bytes := s.toUTF8.data.toList

/-- `trim_end_matches('/')`. -/
def trimEndSlashes (s : String) : String :=
  String.ofList (s.toList.reverse.dropWhile (· == '/')).reverse

/-- The Unicode property `White_Space`. -/
def isWhitespace (c : Char) : Bool :=
  let n := c.toNat
  (9 ≤ n && n ≤ 13) || n == 0x20 || n == 0x85 || n == 0xA0 || n == 0x1680 ||
    (0x2000 ≤ n && n ≤ 0x200A) || n == 0x2028 || n == 0x2029 || n == 0x202F || n == 0x205F ||
    n == 0x3000

/-- `trim()`. -/
def trim (s : String) : String :=
  String.ofList ((s.toList.dropWhile isWhitespace).reverse.dropWhile isWhitespace).reverse

/-- `trim_start()`. -/
def trimStart (s : String) : String := String.ofList (s.toList.dropWhile isWhitespace)

/-- `strip_prefix(pat)`. -/
def stripPrefix (s pat : String) : Option String :=
  if pat.toList.isPrefixOf s.toList then some (String.ofList (s.toList.drop pat.length)) else none

/-- `from_utf8`: the text, when the bytes are one. -/
def fromUtf8 (bytes : Bytes) : Option String := String.fromUTF8? ⟨bytes.toArray⟩

/-- Replace `pat` by `rep` from left to right; `skip` characters of a match are still to drop.  What
was put in is not looked at again. -/
def replaceChars (pat rep : List Char) : ℕ → List Char → List Char
  | _, [] => []
  | skip + 1, _ :: cs => replaceChars pat rep skip cs
  | 0, c :: cs =>
      if pat.isPrefixOf (c :: cs) then rep ++ replaceChars pat rep (pat.length - 1) cs
      else c :: replaceChars pat rep 0 cs

/-- `replace(pat, rep)`, for a pattern that is not empty. -/
def replace (s pat rep : String) : String :=
  String.ofList (replaceChars pat.toList rep.toList 0 s.toList)

/-! ## UTF-8 -/

lemma utf8_eq (s : String) : utf8 s = s.toList.flatMap String.utf8EncodeChar := by
  have h : s = String.ofList s.toList := (String.ofList_toList).symm
  rw [utf8, String.toUTF8_eq_toByteArray]
  conv_lhs => rw [h]
  rw [String.toByteArray_ofList, List.utf8Encode, List.toList_data_toByteArray]

lemma utf8_append (s t : String) : utf8 (s ++ t) = utf8 s ++ utf8 t := by
  rw [utf8_eq, utf8_eq, utf8_eq, String.toList_append, List.flatMap_append]

/-- A text is read back from its bytes. -/
lemma fromUtf8_utf8 (s : String) : fromUtf8 (utf8 s) = some s := by
  have h : (⟨(utf8 s).toArray⟩ : ByteArray) = s.toByteArray := rfl
  rw [fromUtf8, h, String.fromUTF8?, dif_pos s.isValidUTF8]
  rfl

lemma utf8_inj {s t : String} : utf8 s = utf8 t ↔ s = t := by
  constructor
  · intro h
    have hread : fromUtf8 (utf8 s) = fromUtf8 (utf8 t) := congrArg fromUtf8 h
    rw [fromUtf8_utf8, fromUtf8_utf8] at hread
    exact Option.some.inj hread
  · rintro rfl
    rfl

lemma utf8EncodeChar_ascii {c : Char} {b : UInt8} (h : b ∈ String.utf8EncodeChar c)
    (hb : b.toNat < 128) : c.toNat = b.toNat := by
  have hlarge : ∀ n, 128 ≤ n → n < 256 → b ≠ UInt8.ofNat n := by
    rintro n hlow hhigh rfl
    rw [UInt8.toNat_ofNat', Nat.mod_eq_of_lt hhigh] at hb
    omega
  show c.val.toNat = b.toNat
  unfold String.utf8EncodeChar at h
  simp only [] at h
  by_cases hv : c.val.toNat ≤ 127
  · rw [if_pos hv, List.mem_singleton] at h
    rw [h, UInt8.toNat_ofNat', Nat.mod_eq_of_lt (by omega)]
  · rw [if_neg hv] at h
    exfalso
    split at h
    · simp only [List.mem_cons, List.not_mem_nil, or_false] at h
      rcases h with h | h <;> exact hlarge _ (by omega) (by omega) h
    · split at h
      · simp only [List.mem_cons, List.not_mem_nil, or_false] at h
        rcases h with h | h | h <;> exact hlarge _ (by omega) (by omega) h
      · simp only [List.mem_cons, List.not_mem_nil, or_false] at h
        rcases h with h | h | h | h <;> exact hlarge _ (by omega) (by omega) h

/-- An ASCII byte of a text is one of its characters. -/
lemma mem_utf8_ascii {s : String} {b : UInt8} (h : b ∈ utf8 s) (hb : b.toNat < 128) :
    ∃ c ∈ s.toList, c.toNat = b.toNat := by
  rw [utf8_eq] at h
  obtain ⟨c, hc, hbyte⟩ := List.mem_flatMap.1 h
  exact ⟨c, hc, utf8EncodeChar_ascii hbyte hb⟩
/-! ## Prefixes and white space -/

lemma stripPrefix_append (pat s : String) : stripPrefix (pat ++ s) pat = some s := by
  have hsplit : pat.toList.isPrefixOf (pat ++ s).toList = true := by
    rw [List.isPrefixOf_iff_prefix, String.toList_append]
    exact List.prefix_append _ _
  rw [stripPrefix, if_pos hsplit, String.toList_append, ← String.length_toList,
    List.drop_left, String.ofList_toList]

lemma dropWhile_of_head {p : Char → Bool} {cs : List Char} (h : cs.head?.all fun c => !p c) :
    cs.dropWhile p = cs := by
  cases cs with
  | nil => rfl
  | cons c cs => exact List.dropWhile_cons_of_neg (by simpa using h)

/-- A text that neither starts nor ends with white space is left alone. -/
lemma trim_of_ends {s : String} (hfirst : s.toList.head?.all fun c => !isWhitespace c)
    (hlast : s.toList.getLast?.all fun c => !isWhitespace c) : trim s = s := by
  have hrev : s.toList.reverse.head?.all fun c => !isWhitespace c := by
    rwa [List.head?_reverse]
  rw [trim, dropWhile_of_head hfirst, dropWhile_of_head hrev, List.reverse_reverse,
    String.ofList_toList]

/-- Trimming twice trims no more. -/
lemma trim_trim (s : String) : trim (trim s) = trim s := by
  set cs := s.toList.dropWhile isWhitespace with hcs
  have htrim : (trim s).toList = cs.rdropWhile isWhitespace := by
    rw [trim, String.toList_ofList]
    rfl
  have hhead : cs.head?.all fun c => !isWhitespace c := by
    have hfirst := List.head?_dropWhile_not isWhitespace s.toList
    cases h : cs with
    | nil => rfl
    | cons c rest =>
        rw [← hcs, h] at hfirst
        simpa using hfirst
  refine trim_of_ends ?_ ?_
  · rw [htrim]
    cases h : cs.rdropWhile isWhitespace with
    | nil => rfl
    | cons c rest =>
        have hprefix : c :: rest <+: cs := h ▸ List.rdropWhile_prefix isWhitespace cs
        obtain ⟨tail, htail⟩ := hprefix
        rw [← htail] at hhead
        exact hhead
  · rw [htrim]
    cases h : (cs.rdropWhile isWhitespace).getLast? with
    | none => rfl
    | some c =>
        have hne : cs.rdropWhile isWhitespace ≠ [] := by
          rintro hnil
          rw [hnil] at h
          cases h
        have hlast := List.rdropWhile_last_not isWhitespace cs hne
        rw [List.getLast?_eq_some_getLast hne] at h
        obtain rfl := Option.some.inj h
        simpa using hlast

/-- A text that trimming leaves alone starts with no white space. -/
lemma trimStart_of_trim {s : String} (h : trim s = s) : trimStart s = s := by
  have hsuffix : s.toList.dropWhile isWhitespace <:+ s.toList := List.dropWhile_suffix _
  have hlength : (trim s).toList.length ≤ (s.toList.dropWhile isWhitespace).length := by
    have hdrop := (List.dropWhile_suffix (l := (s.toList.dropWhile isWhitespace).reverse)
      isWhitespace).length_le
    rw [trim, String.toList_ofList, List.length_reverse]
    rwa [List.length_reverse] at hdrop
  rw [h] at hlength
  rw [trimStart, hsuffix.eq_of_length_le hlength, String.ofList_toList]

/-- A space before it goes, and the rest stays, since a trimmed text starts with no white space of
its own. -/
lemma trimStart_space {s : String} (h : trim s = s) : trimStart (" " ++ s) = s := by
  have hspace : trimStart (" " ++ s) = trimStart s := by
    rw [trimStart, trimStart, String.toList_append]
    rfl
  rw [hspace, trimStart_of_trim h]

lemma trim_space {s : String} (h : trim s = s) : trim (" " ++ s) = s := by
  have hspace : trim (" " ++ s) = trim s := by
    rw [trim, trim, String.toList_append]
    rfl
  rw [hspace, h]

/-! ## What a replacement leaves -/

section Replace

variable {pat rep : List Char} {b : Char} (hb : b ∉ rep)

include hb

/-- From a letter that is not of the replacement on, the result is what the replacement makes of
a tail of the text that does not start with the pattern. -/
lemma suffix_replaceChars {skip : ℕ} {cs t : List Char}
    (h : b :: t <:+ replaceChars pat rep skip cs) :
    ∃ cs', cs' <:+ cs ∧ ¬ pat <+: cs' ∧ b :: t = replaceChars pat rep 0 cs' := by
  induction cs generalizing skip with
  | nil =>
      rw [replaceChars] at h
      simp at h
  | cons c cs ih =>
      have hlift : ∀ {skip}, b :: t <:+ replaceChars pat rep skip cs →
          ∃ cs', cs' <:+ c :: cs ∧ ¬ pat <+: cs' ∧ b :: t = replaceChars pat rep 0 cs' := by
        intro skip h
        obtain ⟨cs', hcs', hpat, ht⟩ := ih h
        exact ⟨cs', hcs'.trans (List.suffix_cons c cs), hpat, ht⟩
      cases skip with
      | succ skip => exact hlift h
      | zero =>
          by_cases hpat : pat.isPrefixOf (c :: cs)
          · rw [replaceChars, if_pos hpat] at h
            rcases List.suffix_or_suffix_of_suffix h (List.suffix_append rep _) with h | ⟨u, hu⟩
            · exact hlift h
            · -- The tail would begin inside the replacement.
              cases u with
              | nil => exact hlift (by rw [← hu]; exact List.suffix_refl _)
              | cons d u =>
                  obtain rfl : d = b := (List.cons.inj hu).1
                  obtain ⟨v, hv⟩ := h
                  rw [← hu, ← List.append_assoc] at hv
                  exact (hb (List.append_cancel_right hv ▸ by simp)).elim
          · have hout : replaceChars pat rep 0 (c :: cs) = c :: replaceChars pat rep 0 cs := by
              rw [replaceChars, if_neg hpat]
            rw [hout] at h
            rcases List.suffix_cons_iff.1 h with heq | h
            · refine ⟨c :: cs, List.suffix_refl _, ?_, heq.trans hout.symm⟩
              rwa [← List.isPrefixOf_iff_prefix]
            · exact hlift h

/-- A replacement that is not empty makes no run of another letter longer. -/
lemma replicate_prefix_replaceChars (hrep : rep ≠ []) {k : ℕ} {cs : List Char}
    (h : List.replicate k b <+: replaceChars pat rep 0 cs) : List.replicate k b <+: cs := by
  induction cs generalizing k with
  | nil => exact h
  | cons c cs ih =>
      cases k with
      | zero => exact List.nil_prefix
      | succ k =>
          rw [List.replicate_succ] at h ⊢
          by_cases hpat : pat.isPrefixOf (c :: cs)
          · rw [replaceChars, if_pos hpat] at h
            obtain ⟨r, rest, rfl⟩ := List.exists_cons_of_ne_nil hrep
            obtain rfl : b = r := (List.cons_prefix_cons.1 h).1
            exact (hb (List.mem_cons_self ..)).elim
          · rw [replaceChars, if_neg hpat] at h
            obtain ⟨rfl, hrest⟩ := List.cons_prefix_cons.1 h
            exact List.cons_prefix_cons.2 ⟨rfl, ih hrest⟩

/-- A run of a letter that begins somewhere in the result begins in the text, and not where the
pattern is. -/
lemma replicate_suffix_replaceChars (hrep : rep ≠ []) {k : ℕ} {cs t : List Char}
    (ht : t <:+ replaceChars pat rep 0 cs) (hrun : List.replicate (k + 1) b <+: t) :
    ∃ cs', cs' <:+ cs ∧ ¬ pat <+: cs' ∧ List.replicate (k + 1) b <+: cs' := by
  cases t with
  | nil => simp at hrun
  | cons c t =>
      obtain rfl : b = c := (List.cons_prefix_cons.1 hrun).1
      obtain ⟨cs', hcs', hpat, heq⟩ := suffix_replaceChars hb ht
      rw [heq] at hrun
      exact ⟨cs', hcs', hpat, replicate_prefix_replaceChars hb hrep hrun⟩

end Replace

end Moaray
