import Mathlib.Tactic

/-!
# Partial step machines

A `Machine` steps a state on an action and answers `none` when the action is not enabled there.
Interleaved systems are modelled this way throughout: an action names which party moves and what
its environment answered, so a list of actions is one interleaving, and `Machine.run` replays it.

* `run` — the state after a list of actions, with its append and cons laws.
* `invariant_of_run`, `invariant_of_run_on` — a predicate every (permitted) step preserves holds
  after every (permitted) run.
* `Takes` — one step of a run together with the states on both sides of it, with
  `invariant_of_takes`: what each step of a run keeps of the run and its state holds at its end;
  and `exists_leaving`: a run that ends outside a predicate it started in has a step that left it.
* `run_refines`, `Reachable.refines` — a machine whose every step is a run of another one has its
  runs, and the states it reaches, among the other's.
* `StaysIn`, `exists_entry` — a run that starts outside a predicate and ends inside it enters it
  for a last time and stays there.
* `holds_iff_forall_takes` — a predicate that exactly the steps passing a test keep holds after
  exactly the runs made of such steps.
* `Always`, `Once` — the steps of a run are all of one kind, or all but one, with what a run that
  is one step longer makes of them.
* `tally` — how many steps of a run satisfy a test of the state they are taken in; `eq_add_tally`:
  a measure that grows by one at each such step counts them.
* `ghost` — a record kept along a run, with `invariant_of_ghost`: what each step keeps of the
  record and the state holds at its end.
* `exists_run_of_progress` — where a permitted step brings every state nearer to its end, a
  permitted run leads there.

The rules come in three strengths.  An invariant looks at the state alone.  A relation between the
run so far and the state (`invariant_of_takes`) also says what has happened, and a record
(`invariant_of_ghost`) keeps of it what later steps are compared with.  Statements about when
something happened, for the last time or for the first, go through `exists_entry` and
`exists_leaving`.

**Design.**  Everything that varies, the choice of the party that moves, the time that has passed
and the answers of the environment, is in the action; `step` is a function.  So "for every
interleaving" is "for every list of actions", the induction is on the list, and a concrete run can
be evaluated.  A step that is not enabled ends the run without a state, and no theorem says
anything about such a list: an invariant speaks of the lists that are runs.
-/

namespace Moaray.Framework

/-- A machine over states `σ` and actions `α`; `none` says the action is not enabled.  Time,
randomness and other parties are in the actions. -/
structure Machine (σ : Type*) (α : Type*) where
  /-- One step. -/
  step : σ → α → Option σ

namespace Machine

variable {σ α : Type*} (M : Machine σ α)

/-! ## Runs -/

/-- Replay a list of actions.  There is no state at the end when one of them is not enabled where it
is taken. -/
def run : σ → List α → Option σ
  | s, [] => some s
  | s, a :: as => (M.step s a).bind fun t => run t as

@[simp] lemma run_nil (s : σ) : M.run s [] = some s := rfl

lemma run_cons (s : σ) (a : α) (as : List α) :
    M.run s (a :: as) = (M.step s a).bind fun t => M.run t as := rfl

lemma run_cons_eq_some {s u : σ} {a : α} {as : List α} :
    M.run s (a :: as) = some u ↔ ∃ t, M.step s a = some t ∧ M.run t as = some u := by
  rw [run_cons, Option.bind_eq_some_iff]

@[simp] lemma run_singleton (s : σ) (a : α) : M.run s [a] = M.step s a := by
  simp [run_cons]

lemma run_append (s : σ) (as bs : List α) :
    M.run s (as ++ bs) = (M.run s as).bind fun t => M.run t bs := by
  induction as generalizing s with
  | nil => rfl
  | cons a as ih =>
      rw [List.cons_append, run_cons, run_cons, Option.bind_assoc]
      congr 1
      funext t
      exact ih t

lemma run_append_eq_some {s u : σ} {as bs : List α} :
    M.run s (as ++ bs) = some u ↔ ∃ t, M.run s as = some t ∧ M.run t bs = some u := by
  rw [run_append, Option.bind_eq_some_iff]

lemma run_concat_eq_some {s u : σ} {as : List α} {a : α} :
    M.run s (as ++ [a]) = some u ↔ ∃ t, M.run s as = some t ∧ M.step t a = some u := by
  rw [run_append_eq_some]
  simp

/-- The states a run can reach from an initial one, in any number of steps. -/
def Reachable (init : σ → Prop) (t : σ) : Prop :=
  ∃ s as, init s ∧ M.run s as = some t

/-! ## Invariants -/

/-- A predicate preserved by every permitted step holds after every permitted run.  What is
permitted is a matter of the action alone. -/
theorem invariant_of_run_on {I : σ → Prop} {P : α → Prop}
    (hstep : ∀ s a t, P a → I s → M.step s a = some t → I t)
    {s t : σ} {as : List α} (hP : ∀ a ∈ as, P a) (hs : I s) (h : M.run s as = some t) : I t := by
  induction as generalizing s with
  | nil =>
      obtain rfl : s = t := by simpa using h
      exact hs
  | cons a as ih =>
      obtain ⟨u, hu, hrest⟩ := M.run_cons_eq_some.1 h
      have hIu : I u := hstep s a u (hP a (List.mem_cons_self ..)) hs hu
      exact ih (fun b hb => hP b (List.mem_cons_of_mem _ hb)) hIu hrest

/-- A predicate preserved by every step holds after every run.  The induction over the run is done
here, so that an invariant is one lemma about a single step. -/
theorem invariant_of_run {I : σ → Prop}
    (hstep : ∀ s a t, I s → M.step s a = some t → I t)
    {s t : σ} {as : List α} (hs : I s) (h : M.run s as = some t) : I t :=
  M.invariant_of_run_on (P := fun _ => True) (fun s a t _ => hstep s a t) (fun _ _ => trivial) hs h

theorem Reachable.invariant {M : Machine σ α} {init I : σ → Prop} {t : σ}
    (h : M.Reachable init t) (h₀ : ∀ s, init s → I s)
    (hstep : ∀ s a t, I s → M.step s a = some t → I t) : I t := by
  obtain ⟨s, as, hs, hrun⟩ := h
  exact M.invariant_of_run hstep (h₀ s hs) hrun

lemma Reachable.tail {M : Machine σ α} {init : σ → Prop} {t u : σ} {as : List α}
    (h : M.Reachable init t) (hrun : M.run t as = some u) : M.Reachable init u := by
  obtain ⟨s, bs, hs, hbs⟩ := h
  exact ⟨s, bs ++ as, hs, M.run_append_eq_some.2 ⟨t, hbs, hrun⟩⟩

/-! ## Refinement -/

section Refines

variable {τ β : Type*} {N : Machine τ β} (abs : σ → τ) (events : σ → α → List β)

/-- A step-by-step simulation extends to runs: when each step of the one machine is a run of the
other between the abstracted states, so is each of its runs. -/
theorem run_refines
    (hstep : ∀ s a t, M.step s a = some t → N.run (abs s) (events s a) = some (abs t))
    {s t : σ} {as : List α} (h : M.run s as = some t) :
    ∃ bs, N.run (abs s) bs = some (abs t) := by
  induction as generalizing s with
  | nil =>
      obtain rfl : s = t := by simpa using h
      exact ⟨[], rfl⟩
  | cons a as ih =>
      obtain ⟨u, hu, hrest⟩ := M.run_cons_eq_some.1 h
      obtain ⟨bs, hbs⟩ := ih hrest
      exact ⟨events s a ++ bs, N.run_append_eq_some.2 ⟨abs u, hstep s a u hu, hbs⟩⟩

/-- Reachable states of the refining machine are reachable states of the refined one, so an
invariant of the abstract machine is one of the concrete machine. -/
theorem Reachable.refines {M : Machine σ α} {init : σ → Prop} {init' : τ → Prop} {t : σ}
    (h : M.Reachable init t) (hinit : ∀ s, init s → init' (abs s))
    (hstep : ∀ s a t, M.step s a = some t → N.run (abs s) (events s a) = some (abs t)) :
    N.Reachable init' (abs t) := by
  obtain ⟨s, as, hs, hrun⟩ := h
  obtain ⟨bs, hbs⟩ := M.run_refines abs events hstep hrun
  exact ⟨abs s, bs, hinit s hs, hbs⟩

end Refines

/-! ## The steps of a run -/

/-- The run `as` from `s` takes `a` right after `pre`, moving from `t` to `u`.  Statements about
every step of a run quantify over these. -/
def Takes (s : σ) (as pre : List α) (t : σ) (a : α) (u : σ) : Prop :=
  ∃ post, as = pre ++ a :: post ∧ M.run s pre = some t ∧ M.step t a = some u

variable {M}

lemma Takes.of_append {s t u : σ} {as pre : List α} {a : α} (h : M.Takes s as pre t a u)
    (bs : List α) : M.Takes s (as ++ bs) pre t a u := by
  obtain ⟨post, rfl, hpre, hstep⟩ := h
  exact ⟨post ++ bs, by simp, hpre, hstep⟩

lemma Takes.prepend {s s' t u : σ} {as bs pre : List α} {a : α}
    (hbs : M.run s bs = some s') (h : M.Takes s' as pre t a u) :
    M.Takes s (bs ++ as) (bs ++ pre) t a u := by
  obtain ⟨post, rfl, hpre, hstep⟩ := h
  exact ⟨post, by simp, M.run_append_eq_some.2 ⟨s', hbs, hpre⟩, hstep⟩

lemma Takes.run {s t u : σ} {as pre : List α} {a : α} (h : M.Takes s as pre t a u) :
    M.run s pre = some t := by
  obtain ⟨-, -, hpre, -⟩ := h
  exact hpre

lemma Takes.reachable {init : σ → Prop} {s t u : σ} {as pre : List α} {a : α}
    (h : M.Takes s as pre t a u) (hs : init s) : M.Reachable init t :=
  ⟨s, pre, hs, h.run⟩

lemma Takes.step {s t u : σ} {as pre : List α} {a : α} (h : M.Takes s as pre t a u) :
    M.step t a = some u := by
  obtain ⟨-, -, -, hstep⟩ := h
  exact hstep

lemma Takes.mem {s t u : σ} {as pre : List α} {a : α} (h : M.Takes s as pre t a u) : a ∈ as := by
  obtain ⟨post, rfl, -, -⟩ := h
  simp

lemma Takes.head {s t : σ} {a : α} (h : M.step s a = some t) (as : List α) :
    M.Takes s (a :: as) [] s a t := ⟨as, rfl, rfl, h⟩

/-- A relation between a run and the state it is in holds at the end when every step of the run
preserves it.  The step is given together with the run that led to it. -/
theorem invariant_of_takes {I : List α → σ → Prop} {s t : σ} {as : List α}
    (h : M.run s as = some t) (hs : I [] s)
    (hstep : ∀ pre u a v, M.Takes s as pre u a v → I pre u → I (pre ++ [a]) v) : I as t := by
  induction as using List.reverseRecOn generalizing t with
  | nil =>
      obtain rfl : s = t := by simpa using h
      exact hs
  | append_singleton as a ih =>
      obtain ⟨w, hw, ha⟩ := M.run_concat_eq_some.1 h
      have hprev : I as w := ih hw fun pre u b v hb => hstep pre u b v (hb.of_append [a])
      exact hstep as w a t ⟨[], rfl, hw, ha⟩ hprev

/-- Every state along the run `as` from `s` satisfies `I`. -/
def StaysIn (M : Machine σ α) (I : σ → Prop) (s : σ) (as : List α) : Prop :=
  ∀ pre t, pre <+: as → M.run s pre = some t → I t

lemma StaysIn.nil {I : σ → Prop} {s : σ} (h : I s) : M.StaysIn I s [] := by
  intro pre t hpre ht
  obtain rfl : pre = [] := List.prefix_nil.1 hpre
  obtain rfl : s = t := by simpa using ht
  exact h

lemma StaysIn.concat {I : σ → Prop} {s t : σ} {as : List α} {a : α} (h : M.StaysIn I s as)
    (hrun : M.run s (as ++ [a]) = some t) (ht : I t) : M.StaysIn I s (as ++ [a]) := by
  intro pre u hpre hu
  rcases List.prefix_concat_iff.1 hpre with rfl | hpre
  · obtain rfl : t = u := by simpa [hrun] using hu
    exact ht
  · exact h pre u hpre hu

lemma StaysIn.of_takes {I : σ → Prop} {s t u : σ} {as pre : List α} {a : α}
    (h : M.StaysIn I s as) (htakes : M.Takes s as pre t a u) : I t ∧ I u := by
  obtain ⟨post, rfl, hpre, hstep⟩ := htakes
  refine ⟨h pre t ⟨a :: post, rfl⟩ hpre, ?_⟩
  exact h (pre ++ [a]) u ⟨post, by simp⟩ (M.run_concat_eq_some.2 ⟨t, hpre, hstep⟩)

lemma StaysIn.tail {I : σ → Prop} {s t : σ} {as : List α} {a : α} (h : M.StaysIn I s (a :: as))
    (ha : M.step s a = some t) : M.StaysIn I t as := by
  intro pre u hpre hu
  refine h (a :: pre) u (List.prefix_cons_inj a |>.2 hpre) ?_
  exact M.run_cons_eq_some.2 ⟨t, ha, hu⟩

/-- A run that starts outside a predicate and ends inside it enters it for a last time: there is a
step from outside to inside after which it stays. -/
theorem exists_entry {I : σ → Prop} {s t : σ} {as : List α}
    (hs : ¬ I s) (h : M.run s as = some t) (ht : I t) :
    ∃ pre u a v mid, as = pre ++ a :: mid ∧ M.run s pre = some u ∧ M.step u a = some v ∧
      M.run v mid = some t ∧ ¬ I u ∧ M.StaysIn I v mid := by
  induction as using List.reverseRecOn generalizing t with
  | nil =>
      obtain rfl : s = t := by simpa using h
      exact absurd ht hs
  | append_singleton as a ih =>
      obtain ⟨w, hw, hstep⟩ := M.run_concat_eq_some.1 h
      by_cases hIw : I w
      · obtain ⟨pre, u, b, v, mid, rfl, hpre, hb, hmid, hu, hstay⟩ := ih hw hIw
        have hmid' : M.run v (mid ++ [a]) = some t := M.run_concat_eq_some.2 ⟨w, hmid, hstep⟩
        exact ⟨pre, u, b, v, mid ++ [a], by simp, hpre, hb, hmid', hu, hstay.concat hmid' ht⟩
      · exact ⟨as, w, a, t, [], rfl, hw, hstep, rfl, hIw, StaysIn.nil ht⟩

/-- A run that starts inside a predicate and ends outside it has a first step that leaves it, and
stays inside until then. -/
theorem exists_leaving {I : σ → Prop} {s t : σ} {as : List α}
    (hs : I s) (h : M.run s as = some t) (ht : ¬ I t) :
    ∃ pre u a v, M.Takes s as pre u a v ∧ I u ∧ ¬ I v := by
  induction as generalizing s with
  | nil =>
      obtain rfl : s = t := by simpa using h
      exact absurd hs ht
  | cons a as ih =>
      obtain ⟨u, hu, hrest⟩ := M.run_cons_eq_some.1 h
      by_cases hIu : I u
      · obtain ⟨pre, v, b, w, hb, hv, hw⟩ := ih hIu hrest
        have hone : M.run s [a] = some u := by simp [hu]
        exact ⟨[a] ++ pre, v, b, w, hb.prepend hone, hv, hw⟩
      · exact ⟨[], s, a, u, ⟨as, rfl, rfl, hu⟩, hs, hIu⟩

/-- A run that is one step longer takes the steps it took before, and its last one.  Statements
about all steps of a run are extended by one step with this. -/
lemma takes_concat {s t u v w : σ} {as pre : List α} {a b : α} (hrun : M.run s as = some t)
    (hstep : M.step t a = some u) (h : M.Takes s (as ++ [a]) pre v b w) :
    M.Takes s as pre v b w ∨ (pre = as ∧ v = t ∧ b = a ∧ w = u) := by
  obtain ⟨post, heq, hpre, hb⟩ := h
  rcases List.eq_nil_or_concat post with rfl | ⟨post, c, rfl⟩
  · obtain ⟨rfl, rfl⟩ : as = pre ∧ a = b := by simpa using List.append_inj' heq rfl
    obtain rfl : t = v := by simpa [hrun] using hpre
    obtain rfl : u = w := by simpa [hstep] using hb
    exact .inr ⟨rfl, rfl, rfl, rfl⟩
  · have hcut : as = pre ++ b :: post := by
      have hsplit : as ++ [a] = (pre ++ b :: post) ++ [c] := by simpa using heq
      exact (List.append_inj' hsplit rfl).1
    exact .inl ⟨post, hcut, hpre, hb⟩

/-- A predicate that a step keeps just when the step passes a test holds after a run just when every
step of the run passed.  This is how an exact condition on runs is found from one on steps. -/
theorem holds_iff_forall_takes {I : σ → Prop} {P : σ → α → Prop}
    (hstep : ∀ s a t, M.step s a = some t → (I t ↔ I s ∧ P s a))
    {s t : σ} {as : List α} (hs : I s) (h : M.run s as = some t) :
    I t ↔ ∀ pre u a v, M.Takes s as pre u a v → P u a := by
  induction as using List.reverseRecOn generalizing t with
  | nil =>
      obtain rfl : s = t := by simpa using h
      refine ⟨fun _ pre u a v htakes => ?_, fun _ => hs⟩
      exact absurd htakes.mem List.not_mem_nil
  | append_singleton as a ih =>
      obtain ⟨w, hw, ha⟩ := M.run_concat_eq_some.1 h
      rw [hstep w a t ha, ih hw]
      constructor
      · rintro ⟨hearlier, hlast⟩ pre u b v htakes
        rcases takes_concat hw ha htakes with hb | ⟨-, rfl, rfl, -⟩
        · exact hearlier pre u b v hb
        · exact hlast
      · intro hall
        refine ⟨fun pre u b v hb => hall pre u b v (hb.of_append [a]), ?_⟩
        exact hall as w a t ⟨[], rfl, hw, ha⟩

/-! ## Steps of a kind -/

section Kinds

variable {P Q : σ → α → σ → Prop} {s t u : σ} {as : List α} {a : α}

/-- Every step of the run is as `Q` says.  The step is given with the states on both of its
sides, so `Q` can speak of what the step does to them. -/
def Always (M : Machine σ α) (Q : σ → α → σ → Prop) (s : σ) (as : List α) : Prop :=
  ∀ pre u a v, M.Takes s as pre u a v → Q u a v

/-- One step of the run is as `P` says, and every other one is as `Q` says.  Two steps are told
apart by what the run has done before them. -/
def Once (M : Machine σ α) (P Q : σ → α → σ → Prop) (s : σ) (as : List α) : Prop :=
  ∃ pre u a v, M.Takes s as pre u a v ∧ P u a v ∧
    ∀ pre' u' a' v', M.Takes s as pre' u' a' v' → pre' ≠ pre → Q u' a' v'

lemma always_nil (s : σ) : M.Always Q s [] :=
  fun _ _ _ _ htakes => absurd htakes.mem List.not_mem_nil

lemma Always.concat (h : M.Always Q s as) (hrun : M.run s as = some t)
    (hstep : M.step t a = some u) (hlast : Q t a u) : M.Always Q s (as ++ [a]) := by
  intro pre v b w htakes
  rcases takes_concat hrun hstep htakes with hb | ⟨-, rfl, rfl, rfl⟩
  · exact h pre v b w hb
  · exact hlast

/-- After steps of the one kind comes the step of the other. -/
lemma Always.once (h : M.Always Q s as) (hrun : M.run s as = some t)
    (hstep : M.step t a = some u) (hlast : P t a u) : M.Once P Q s (as ++ [a]) := by
  refine ⟨as, t, a, u, ⟨[], rfl, hrun, hstep⟩, hlast, fun pre v b w htakes hne => ?_⟩
  rcases takes_concat hrun hstep htakes with hb | ⟨heq, -⟩
  · exact h pre v b w hb
  · exact absurd heq hne

lemma Once.concat (h : M.Once P Q s as) (hrun : M.run s as = some t)
    (hstep : M.step t a = some u) (hlast : Q t a u) : M.Once P Q s (as ++ [a]) := by
  obtain ⟨pre, v, b, w, htakes, hone, hrest⟩ := h
  refine ⟨pre, v, b, w, htakes.of_append [a], hone, fun pre' v' b' w' htakes' hne => ?_⟩
  rcases takes_concat hrun hstep htakes' with hb | ⟨-, rfl, rfl, rfl⟩
  · exact hrest pre' v' b' w' hb hne
  · exact hlast

end Kinds

variable (M)

/-! ## Counting steps -/

/-- How many steps of the run pass the test `p` in the state they are taken in. -/
def tally (p : σ → α → Bool) : σ → List α → ℕ
  | _, [] => 0
  | s, a :: as => (p s a).toNat + ((M.step s a).map fun t => tally p t as).getD 0

@[simp] lemma tally_nil (p : σ → α → Bool) (s : σ) : M.tally p s [] = 0 := rfl

lemma tally_cons {p : σ → α → Bool} {s t : σ} {a : α} (as : List α) (h : M.step s a = some t) :
    M.tally p s (a :: as) = (p s a).toNat + M.tally p t as := by
  simp [tally, h]

lemma tally_append {p : σ → α → Bool} {s t : σ} {as : List α} (bs : List α)
    (h : M.run s as = some t) : M.tally p s (as ++ bs) = M.tally p s as + M.tally p t bs := by
  induction as generalizing s with
  | nil =>
      obtain rfl : s = t := by simpa using h
      simp
  | cons a as ih =>
      obtain ⟨u, hu, hrest⟩ := M.run_cons_eq_some.1 h
      rw [List.cons_append, M.tally_cons _ hu, M.tally_cons _ hu, ih hrest, Nat.add_assoc]

lemma tally_concat {p : σ → α → Bool} {s t u : σ} {as : List α} {a : α}
    (h : M.run s as = some t) (ha : M.step t a = some u) :
    M.tally p s (as ++ [a]) = M.tally p s as + (p t a).toNat := by
  rw [M.tally_append _ h, M.tally_cons _ ha, tally_nil, Nat.add_zero]

/-- A measure that grows by one at exactly the steps `p` tests for, and is left alone by the others,
counts them. -/
theorem eq_add_tally {p : σ → α → Bool} (f : σ → ℕ) {s t : σ} {as : List α}
    (h : M.run s as = some t)
    (hstep : ∀ pre u a v, M.Takes s as pre u a v → f v = f u + (p u a).toNat) :
    f t = f s + M.tally p s as := by
  refine invariant_of_takes (I := fun bs u => f u = f s + M.tally p s bs) h (by simp) ?_
  intro pre u a v htakes hprev
  have hlast : f v = f u + (p u a).toNat := hstep pre u a v htakes
  rw [hlast, hprev, M.tally_concat htakes.run htakes.step]
  omega

/-! ## Records kept along a run -/

section Ghost

variable {β : Type*} (f : β → σ → α → σ → β)

/-- A record kept along a run, updated at each step from the action and the states on both sides of
it.  The machine does not read it. -/
def ghost (b : β) : σ → List α → β
  | _, [] => b
  | s, a :: as => ((M.step s a).map fun t => ghost (f b s a t) t as).getD b

@[simp] lemma ghost_nil (b : β) (s : σ) : M.ghost f b s [] = b := rfl

lemma ghost_cons {b : β} {s t : σ} {a : α} (as : List α) (h : M.step s a = some t) :
    M.ghost f b s (a :: as) = M.ghost f (f b s a t) t as := by
  simp [ghost, h]

lemma ghost_concat {b : β} {s t u : σ} {as : List α} {a : α} (h : M.run s as = some t)
    (ha : M.step t a = some u) : M.ghost f b s (as ++ [a]) = f (M.ghost f b s as) t a u := by
  induction as generalizing b s with
  | nil =>
      obtain rfl : s = t := by simpa using h
      rw [List.nil_append, M.ghost_cons f [] ha, ghost_nil, ghost_nil]
  | cons c as ih =>
      obtain ⟨v, hv, hrest⟩ := M.run_cons_eq_some.1 h
      rw [List.cons_append, M.ghost_cons f _ hv, M.ghost_cons f _ hv, ih hrest]

variable {M f}

/-- What every step of a run keeps of a record and the state holds at its end.  The step sees the
record as it was before it. -/
theorem invariant_of_ghost {I : β → σ → Prop} {b : β} {s t : σ} {as : List α}
    (h : M.run s as = some t) (hs : I b s)
    (hstep : ∀ b pre u a v, M.Takes s as pre u a v → I b u → I (f b u a v) v) :
    I (M.ghost f b s as) t := by
  refine invariant_of_takes (I := fun as t => I (M.ghost f b s as) t) h hs ?_
  intro pre u a v htakes hprev
  rw [M.ghost_concat f htakes.run htakes.step]
  exact hstep _ pre u a v htakes hprev

end Ghost

/-! ## Progress -/

variable {M}

/-- Where every state that is not at its end has a permitted step that brings it nearer, a run of
such steps leads to an end.  `I` may look back at the whole run so far. -/
theorem exists_run_of_progress {I : List α → σ → Prop} {D : σ → Prop} {Q : α → Prop} (μ : σ → ℕ)
    (hstep : ∀ as s, I as s → ¬ D s →
      ∃ a t, Q a ∧ M.step s a = some t ∧ I (as ++ [a]) t ∧ μ t < μ s)
    {as : List α} {s : σ} (hs : I as s) :
    ∃ bs t, (∀ b ∈ bs, Q b) ∧ M.run s bs = some t ∧ I (as ++ bs) t ∧ D t := by
  induction hn : μ s using Nat.strongRecOn generalizing as s with
  | ind n ih =>
      by_cases hD : D s
      · exact ⟨[], s, by simp, rfl, by simpa using hs, hD⟩
      · obtain ⟨a, t, ha, hat, ht, hlt⟩ := hstep as s hs hD
        obtain ⟨bs, u, hbs, hrun, hu, hDu⟩ := ih (μ t) (hn ▸ hlt) ht rfl
        refine ⟨a :: bs, u, ?_, M.run_cons_eq_some.2 ⟨t, hat, hrun⟩, ?_, hDu⟩
        · intro b hb
          rcases List.mem_cons.1 hb with rfl | hb
          · exact ha
          · exact hbs b hb
        · simpa using hu

end Machine

end Moaray.Framework
