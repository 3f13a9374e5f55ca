import Mathlib.Tactic

/-!
# Sequencing computations that can fail

What success and failure of an `Except` computation say about its parts, so that a function written
with `do` is inverted one step at a time and never unfolded into its cases.

* `bind_eq_ok`, `bind_eq_error`, `mapError_eq_ok`, `mapError_eq_error` — one step.
* `foldlM_error`, `foldlM_ok` — a loop: where a failing one failed, and what every round of a
  successful one keeps.
* `foldlM_eq_ok`, `mapM_eq_ok` — a loop whose round, and a traversal whose function, succeeds
  exactly under a rule and then with a known result.

Each lemma turns an equation about a whole computation into equations about its parts, joined by an
existential or a disjunction, so `obtain` takes a successful run apart and `rcases` a failing one.
A proof about such a function then has one line for each statement of the function, in the order of
the source, and an early return is a case of its own.

**Design.**  The last two lemmas are the ones a validator wants: they say of a loop that can fail
that it succeeds exactly when every item passes, and that it then is the loop that cannot.  They
ask this of one round and give it for the list, so the check of a list of items is stated once for
an item.
-/

namespace Moaray.Framework

variable {ε ε' α β : Type*}

section Bind

variable {ε α β : Type} {x : Except ε α} {f : α → Except ε β}

lemma bind_eq_ok {b : β} : (x >>= f) = .ok b ↔ ∃ a, x = .ok a ∧ f a = .ok b := by
  cases x <;> simp [bind, Except.bind]

lemma bind_eq_error {e : ε} :
    (x >>= f) = .error e ↔ x = .error e ∨ ∃ a, x = .ok a ∧ f a = .error e := by
  cases x <;> simp [bind, Except.bind]

lemma pure_eq_ok {a b : α} : (pure a : Except ε α) = .ok b ↔ a = b := by
  simp [pure, Except.pure]

end Bind

lemma mapError_eq_ok {x : Except ε α} {f : ε → ε'} {a : α} :
    x.mapError f = .ok a ↔ x = .ok a := by
  cases x <;> simp [Except.mapError]

lemma mapError_eq_error {x : Except ε α} {f : ε → ε'} {e : ε'} :
    x.mapError f = .error e ↔ ∃ d, x = .error d ∧ f d = e := by
  cases x <;> simp [Except.mapError]

section Fold

variable {ε α σ : Type} {f : σ → α → Except ε σ}

/-- A failing loop failed in one of its rounds: at some item, from the state the rounds before it
had left. -/
lemma foldlM_error {as : List α} {s : σ} {e : ε} (h : as.foldlM f s = .error e) :
    ∃ t, ∃ a ∈ as, f t a = .error e := by
  induction as generalizing s with
  | nil => cases h
  | cons a as ih =>
      rw [List.foldlM_cons, bind_eq_error] at h
      rcases h with h | ⟨t, -, h⟩
      · exact ⟨s, a, List.mem_cons_self .., h⟩
      · obtain ⟨u, b, hb, hu⟩ := ih h
        exact ⟨u, b, List.mem_cons_of_mem _ hb, hu⟩

/-- What every round keeps, a successful loop keeps.  The invariant is asked of the rounds that
succeed, at the items of the list. -/
lemma foldlM_ok {I : σ → Prop} {as : List α} {s t : σ}
    (hround : ∀ s, ∀ a ∈ as, ∀ t, I s → f s a = .ok t → I t) (hs : I s)
    (h : as.foldlM f s = .ok t) : I t := by
  induction as generalizing s with
  | nil =>
      obtain rfl : s = t := pure_eq_ok.1 h
      exact hs
  | cons a as ih =>
      rw [List.foldlM_cons, bind_eq_ok] at h
      obtain ⟨u, hu, hrest⟩ := h
      have hIu : I u := hround s a (List.mem_cons_self ..) u hs hu
      exact ih (fun s b hb => hround s b (List.mem_cons_of_mem _ hb)) hIu hrest

/-- A loop succeeds when every item passes, and is then the loop that cannot fail.  Whether an item
passes must not depend on the rounds before it. -/
lemma foldlM_eq_ok {good : α → Prop} {next : σ → α → σ}
    (hf : ∀ s a t, f s a = .ok t ↔ good a ∧ t = next s a) {as : List α} {s t : σ} :
    as.foldlM f s = .ok t ↔ (∀ a ∈ as, good a) ∧ t = as.foldl next s := by
  induction as generalizing s with
  | nil =>
      rw [List.foldlM_nil, pure_eq_ok]
      simp [eq_comm]
  | cons a as ih =>
      rw [List.foldlM_cons, bind_eq_ok]
      constructor
      · rintro ⟨u, hu, hrest⟩
        obtain ⟨ha, rfl⟩ := (hf s a u).1 hu
        obtain ⟨has, rfl⟩ := ih.1 hrest
        exact ⟨List.forall_mem_cons.2 ⟨ha, has⟩, rfl⟩
      · rintro ⟨hall, rfl⟩
        obtain ⟨ha, has⟩ := List.forall_mem_cons.1 hall
        exact ⟨next s a, (hf s a _).2 ⟨ha, rfl⟩, ih.2 ⟨has, rfl⟩⟩

/-- A traversal succeeds when every item passes, and then collects the results, one for each item in
the order of the list. -/
lemma mapM_eq_ok {β : Type} {g : α → Except ε β} {good : α → Prop} {result : α → β}
    (hg : ∀ a b, g a = .ok b ↔ good a ∧ b = result a) {as : List α} {bs : List β} :
    as.mapM g = .ok bs ↔ (∀ a ∈ as, good a) ∧ bs = as.map result := by
  induction as generalizing bs with
  | nil =>
      rw [List.mapM_nil, pure_eq_ok]
      simp [eq_comm]
  | cons a as ih =>
      rw [List.mapM_cons, bind_eq_ok]
      constructor
      · rintro ⟨b, hb, h⟩
        obtain ⟨bs', hbs', h⟩ := bind_eq_ok.1 h
        obtain ⟨ha, rfl⟩ := (hg a b).1 hb
        obtain ⟨has, rfl⟩ := ih.1 hbs'
        obtain rfl := pure_eq_ok.1 h
        exact ⟨List.forall_mem_cons.2 ⟨ha, has⟩, rfl⟩
      · rintro ⟨hall, rfl⟩
        obtain ⟨ha, has⟩ := List.forall_mem_cons.1 hall
        refine ⟨result a, (hg a _).2 ⟨ha, rfl⟩, bind_eq_ok.2 ⟨_, ih.2 ⟨has, rfl⟩, rfl⟩⟩

end Fold

end Moaray.Framework
