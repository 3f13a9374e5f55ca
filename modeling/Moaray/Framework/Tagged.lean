import Mathlib.Tactic

/-!
# Fields joined by tags

A text made of fields with a tag before each but the first, where nothing in a field is escaped.
Every tag begins with one letter, the bar, that it has nowhere else; so two readings of a text can
differ only where a field holds a tag of its neighbourhood.

* `Tag`, `Tag.append_inj` — when two cuts at a tag give the same text.
* `join`, `Clear`, `join_inj_iff` — a joined text is read in one way exactly when no field holds
  the tag before or after it.
* `join_inj_of_not_mem` — fields without the bar are always read back.
* `last_inj` — a cut at the last occurrence of a letter is read back.

Programs that make a key out of several fields often join them in this way, and rely on different
fields giving different keys.  `join_inj_iff` is the exact condition for one list of fields to
share its text with no other.  It is weaker than the usual advice, that no field hold the
separator: a field may hold the tag of a field far from it, and may hold the bar.

**Design.**  The tags are fixed and the fields vary: a second reading has the same tags in the same
order.  The induction is on the list of tagged fields, and its step compares where the first tag
ends the first field in the two readings: `Tag.append_inj` says that they agree, or that one of the
fields holds the tag.  A tag has its bar at the front and nowhere else, so two occurrences of it
never overlap (`Tag.eq_append`).
-/

namespace Moaray.Framework

variable {α : Type*} {bar : α}

/-- A tag: the bar and a body without it.  The bar marks where a tag can begin. -/
def Tag (bar : α) (t : List α) : Prop := ∃ body, t = bar :: body ∧ bar ∉ body

lemma Tag.ne_nil {t : List α} (h : Tag bar t) : t ≠ [] := by
  obtain ⟨body, rfl, -⟩ := h
  exact List.cons_ne_nil bar body

lemma Tag.mem {t : List α} (h : Tag bar t) : bar ∈ t := by
  obtain ⟨body, rfl, -⟩ := h
  exact List.mem_cons_self ..

/-- An occurrence of a tag behind one at the start lies behind the whole of it: two occurrences
never overlap, since the bar stands only at their front. -/
lemma Tag.eq_append {t u b d : List α} (ht : Tag bar t) (hu : u ≠ []) (h : t ++ b = u ++ (t ++ d)) :
    ∃ w, u = t ++ w ∧ b = w ++ (t ++ d) := by
  obtain ⟨body, rfl, hbody⟩ := ht
  cases u with
  | nil => exact absurd rfl hu
  | cons x u =>
      obtain ⟨rfl, htail⟩ : bar = x ∧ body ++ b = u ++ (bar :: body ++ d) := by simpa using h
      rcases List.append_eq_append_iff.1 htail with ⟨w, rfl, hb⟩ | ⟨v, hv, hrest⟩
      · exact ⟨w, rfl, hb⟩
      · cases v with
        | nil =>
            rw [List.append_nil] at hv
            exact ⟨[], by simp [hv], hrest.symm⟩
        | cons y v =>
            -- The tag would begin inside the body of the one before it.
            obtain ⟨rfl, -⟩ : bar = y ∧ body ++ d = v ++ b := by simpa using hrest
            exact absurd (hv ▸ by simp) hbody

/-- Two cuts at a tag give the same text when they agree, or when one of them is at a tag inside the
part of the other: before its cut, or behind it. -/
theorem Tag.append_inj {t a b c d : List α} (ht : Tag bar t) :
    a ++ (t ++ b) = c ++ (t ++ d) ↔
      (a = c ∧ b = d) ∨ (∃ w, c = a ++ (t ++ w) ∧ b = w ++ (t ++ d)) ∨
        ∃ w, a = c ++ (t ++ w) ∧ d = w ++ (t ++ b) := by
  constructor
  · intro h
    rcases List.append_eq_append_iff.1 h with ⟨u, rfl, hu⟩ | ⟨u, rfl, hu⟩
    · by_cases hnil : u = []
      · subst hnil
        left
        simpa using hu
      · obtain ⟨w, rfl, rfl⟩ := ht.eq_append hnil hu
        exact .inr (.inl ⟨w, rfl, rfl⟩)
    · by_cases hnil : u = []
      · subst hnil
        left
        simpa using hu.symm
      · obtain ⟨w, rfl, rfl⟩ := ht.eq_append hnil hu
        exact .inr (.inr ⟨w, rfl, rfl⟩)
  · rintro (⟨rfl, rfl⟩ | ⟨w, rfl, rfl⟩ | ⟨w, rfl, rfl⟩) <;> simp

/-! ## Joined fields -/

/-- A first field, and each further field behind its tag.  Nothing in a field is escaped. -/
def join (f : List α) : List (List α × List α) → List α
  | [] => f
  | (t, g) :: rest => f ++ (t ++ join g rest)

/-- No field holds the tag before or after it.  Tags further away are allowed, and so is the bar. -/
def Clear (f : List α) : List (List α × List α) → Prop
  | [] => True
  | (t, g) :: rest => ¬ t <:+: f ∧ ¬ t <:+: g ∧ Clear g rest

lemma append_join (a f : List α) (rest : List (List α × List α)) :
    join (a ++ f) rest = a ++ join f rest := by
  cases rest with
  | nil => rfl
  | cons p rest => simp [join]

/-- A letter of neither the tags nor the fields is not in the text. -/
lemma not_mem_join {x : α} {f : List α} {rest : List (List α × List α)} (hf : x ∉ f)
    (hrest : ∀ p ∈ rest, x ∉ p.1 ∧ x ∉ p.2) : x ∉ join f rest := by
  induction rest generalizing f with
  | nil => exact hf
  | cons p rest ih =>
      obtain ⟨t, g⟩ := p
      obtain ⟨ht, hg⟩ := hrest (t, g) (List.mem_cons_self ..)
      have hjoin := ih hg fun p hp => hrest p (List.mem_cons_of_mem _ hp)
      simp [join, hf, ht, hjoin]

/-- Where no field holds a tag of its neighbourhood, a tag is not found later than the field before
it ends: a longer first field would hold it. -/
lemma Clear.not_later {t w g g' : List α} {rest rest' : List (List α × List α)}
    (htags : ∀ p ∈ rest, Tag bar p.1) (hsame : rest'.map Prod.fst = rest.map Prod.fst)
    (h : Clear g rest) (ht : ¬ t <:+: g) : w ++ (t ++ join g' rest') ≠ join g rest := by
  induction rest generalizing t w g g' rest' with
  | nil =>
      obtain rfl : rest' = [] := List.map_eq_nil_iff.1 hsame
      intro heq
      exact ht ⟨w, g', by simpa [join] using heq⟩
  | cons p rest ih =>
      obtain ⟨t₂, g₂⟩ := p
      obtain ⟨⟨t₂', g₂'⟩, rest', rfl⟩ : ∃ p' r', rest' = p' :: r' := by
        cases rest' with
        | nil => simp at hsame
        | cons p' r' => exact ⟨p', r', rfl⟩
      obtain ⟨rfl, htags₂⟩ : t₂' = t₂ ∧ rest'.map Prod.fst = rest.map Prod.fst := by
        simpa using hsame
      obtain ⟨-, hg₂, hrest⟩ := h
      have htag : Tag bar t₂' := htags (t₂', g₂) (List.mem_cons_self ..)
      have htags' : ∀ p ∈ rest, Tag bar p.1 := fun p hp => htags p (List.mem_cons_of_mem _ hp)
      intro heq
      have hcut : (w ++ (t ++ g')) ++ (t₂' ++ join g₂' rest') = g ++ (t₂' ++ join g₂ rest) := by
        simpa [join] using heq
      rcases htag.append_inj.1 hcut with ⟨rfl, -⟩ | ⟨v, rfl, -⟩ | ⟨v, -, hlater⟩
      · exact ht ⟨w, g', by simp⟩
      · exact ht ⟨w, g' ++ (t₂' ++ v), by simp⟩
      · exact ih htags' htags₂ hrest hg₂ hlater.symm

/-- A joined text is read in one way exactly when no field holds the tag before or after it.  In the
one direction a field that holds such a tag is cut there instead; in the other the fields are
recovered one at a time, from the front. -/
theorem join_inj_iff {f : List α} {rest : List (List α × List α)}
    (htags : ∀ p ∈ rest, Tag bar p.1) :
    (∀ f' rest', rest'.map Prod.fst = rest.map Prod.fst → join f' rest' = join f rest →
      f' = f ∧ rest' = rest) ↔ Clear f rest := by
  induction rest generalizing f with
  | nil =>
      refine ⟨fun _ => trivial, ?_⟩
      rintro - f' rest' hsame heq
      obtain rfl : rest' = [] := List.map_eq_nil_iff.1 hsame
      exact ⟨heq, rfl⟩
  | cons p rest ih =>
      obtain ⟨t, g⟩ := p
      have htag : Tag bar t := htags (t, g) (List.mem_cons_self ..)
      have htags' : ∀ p ∈ rest, Tag bar p.1 := fun p hp => htags p (List.mem_cons_of_mem _ hp)
      constructor
      · intro huniq
        refine ⟨?_, ?_, ?_⟩
        · -- A tag inside the first field could be read as the one after it.
          rintro ⟨a, b, rfl⟩
          have hread := huniq a ((t, b ++ (t ++ g)) :: rest) rfl (by
            simp [join, append_join])
          have hlength := congrArg List.length hread.1
          have hpos := List.length_pos_iff.2 htag.ne_nil
          simp only [List.length_append] at hlength
          omega
        · rintro ⟨a, b, rfl⟩
          have hread := huniq (f ++ (t ++ a)) ((t, b) :: rest) rfl (by
            simp [join, append_join])
          have hlength := congrArg List.length hread.1
          have hpos := List.length_pos_iff.2 htag.ne_nil
          simp only [List.length_append] at hlength
          omega
        · refine (ih htags').1 fun g' rest' hsame heq => ?_
          have hread := huniq f ((t, g') :: rest') (by simp [hsame]) (by simp [join, heq])
          simpa using hread.2
      · rintro ⟨hf, hg, hrest⟩ f' rest' hsame heq
        obtain ⟨⟨t', g'⟩, rest', rfl⟩ : ∃ p' r', rest' = p' :: r' := by
          cases rest' with
          | nil => simp at hsame
          | cons p' r' => exact ⟨p', r', rfl⟩
        obtain ⟨rfl, hsame'⟩ : t' = t ∧ rest'.map Prod.fst = rest.map Prod.fst := by
          simpa using hsame
        rcases htag.append_inj.1 heq with ⟨rfl, hjoin⟩ | ⟨w, rfl, -⟩ | ⟨w, -, hlater⟩
        · obtain ⟨rfl, rfl⟩ := (ih htags').2 hrest g' rest' hsame' hjoin
          exact ⟨rfl, rfl⟩
        · exact absurd ⟨f', w, by simp⟩ hf
        · exact absurd hlater.symm (Clear.not_later htags' hsame' hrest hg)

lemma Clear.of_not_mem {f : List α} {rest : List (List α × List α)}
    (htags : ∀ p ∈ rest, Tag bar p.1) (hf : bar ∉ f) (hrest : ∀ p ∈ rest, bar ∉ p.2) :
    Clear f rest := by
  induction rest generalizing f with
  | nil => trivial
  | cons p rest ih =>
      obtain ⟨t, g⟩ := p
      have hmem : bar ∈ t := (htags (t, g) (List.mem_cons_self ..)).mem
      have hg : bar ∉ g := hrest (t, g) (List.mem_cons_self ..)
      refine ⟨fun h => hf (h.subset hmem), fun h => hg (h.subset hmem), ?_⟩
      exact ih (fun p hp => htags p (List.mem_cons_of_mem _ hp)) hg
        fun p hp => hrest p (List.mem_cons_of_mem _ hp)

/-- Fields without the bar are read back, whatever the other reading is like.  This is the usual
assumption on such a format, and it is more than `join_inj_iff` needs. -/
theorem join_inj_of_not_mem {f f' : List α} {rest rest' : List (List α × List α)}
    (htags : ∀ p ∈ rest, Tag bar p.1) (hf : bar ∉ f) (hrest : ∀ p ∈ rest, bar ∉ p.2)
    (hsame : rest'.map Prod.fst = rest.map Prod.fst) (h : join f' rest' = join f rest) :
    f' = f ∧ rest' = rest :=
  (join_inj_iff htags).2 (Clear.of_not_mem htags hf hrest) f' rest' hsame h

/-- A cut at the last occurrence of a letter is read back. -/
lemma last_inj {x : α} {a b c d : List α} (hb : x ∉ b) (hd : x ∉ d)
    (h : a ++ x :: b = c ++ x :: d) : a = c ∧ b = d := by
  have htag : Tag x [x] := ⟨[], rfl, List.not_mem_nil⟩
  rcases (htag.append_inj (a := a) (b := b) (c := c) (d := d)).1 (by simpa using h) with
    heq | ⟨w, -, rfl⟩ | ⟨w, -, rfl⟩
  · exact heq
  · exact absurd (by simp) hb
  · exact absurd (by simp) hd

end Moaray.Framework
