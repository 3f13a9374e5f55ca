import Mathlib.Algebra.Order.Round
import Mathlib.Data.Rat.Floor
import Moaray.Core.Usage

/-!
# The cost formula

What a row of the usage table costs: the tokens of each side times the price of a million of them,
each product rounded to a whole nano-dollar, and the sum.  `computeCost` multiplies and rounds in
128-bit integers and narrows the sum to 64 bits at the end.

* `checkedCost` — the same computation with every 128-bit operation checked; `checkedCost_eq`: none
  of them overflows.
* `roundDiv_eq_round` — on a non-negative product the truncating division rounds half up.
* `computeCost_eq_round`, `computeCost_range`, `computeCost_mono` — the canonical formula, its
  range, and its monotonicity.
* `computeCost_exact` — all of it, for all inputs.

Tokens and prices are signed 64-bit integers, so a product is below `2^126` in absolute value and
half a unit more does not leave 128 bits.  What the narrowing at the end does is part of the
statement: a sum that does not fit becomes the greatest 64-bit integer, and a negative one becomes
zero.

**Design.**  `computeCost` computes in unbounded integers, and `checkedCost` says where the machine
would overflow; so the bounds are proved once, for the operations, and everything else is
arithmetic over the integers.
-/

namespace Moaray

/-! ## No intermediate overflows -/

/-- The result of an operation on 128-bit integers, unless it overflows. -/
def i128 (x : ℤ) : Option ℤ := if -2 ^ 127 ≤ x ∧ x < 2 ^ 127 then some x else none

lemma i128_eq_some {x : ℤ} (h : -2 ^ 127 ≤ x) (h' : x < 2 ^ 127) : i128 x = some x :=
  if_pos ⟨h, h'⟩

/-- `round_div` with its operations checked. -/
def checkedRoundDiv (tokens price : ℤ) : Option ℤ := do
  let num ← i128 (tokens * price)
  let shifted ← i128 (num + 1000000 / 2)
  i128 (shifted.tdiv 1000000)

/-- The cost of present inputs with every operation checked.  It is `none` if an operation leaves
128 bits, which for 64-bit inputs never happens. -/
def checkedCost (pt ct pp cp : Int64) : Option ℤ := do
  let prompt ← checkedRoundDiv pt.toInt pp.toInt
  let completion ← checkedRoundDiv ct.toInt cp.toInt
  let cost ← i128 (prompt + completion)
  some (max 0 (min cost (2 ^ 63 - 1)))

lemma mul_bounds (a b : Int64) :
    -2 ^ 126 ≤ a.toInt * b.toInt ∧ a.toInt * b.toInt ≤ 2 ^ 126 := by
  have ha : |a.toInt| ≤ 2 ^ 63 := abs_le.2 ⟨a.le_toInt, a.toInt_lt.le⟩
  have hb : |b.toInt| ≤ 2 ^ 63 := abs_le.2 ⟨b.le_toInt, b.toInt_lt.le⟩
  have hab : |a.toInt * b.toInt| ≤ 2 ^ 126 := by
    rw [abs_mul]
    calc |a.toInt| * |b.toInt| ≤ 2 ^ 63 * 2 ^ 63 :=
          mul_le_mul ha hb (abs_nonneg _) (by positivity)
      _ = 2 ^ 126 := by norm_num
  exact abs_le.1 hab

/-- Truncating division is the rounding-down one, or one more where the dividend is negative. -/
lemma tdiv_bounds (x : ℤ) : x / 1000000 ≤ x.tdiv 1000000 ∧ x.tdiv 1000000 ≤ x / 1000000 + 1 := by
  rw [Int.tdiv_eq_ediv]
  split
  · omega
  · have hsign : (1000000 : ℤ).sign = 1 := rfl
    omega

lemma roundDiv_bounds (a b : Int64) :
    -2 ^ 107 ≤ roundDiv a.toInt b.toInt ∧ roundDiv a.toInt b.toInt ≤ 2 ^ 107 := by
  obtain ⟨hlow, hhigh⟩ := mul_bounds a b
  obtain ⟨hdown, hup⟩ := tdiv_bounds (a.toInt * b.toInt + 1000000 / 2)
  unfold roundDiv
  omega

lemma checkedRoundDiv_eq (a b : Int64) :
    checkedRoundDiv a.toInt b.toInt = some (roundDiv a.toInt b.toInt) := by
  obtain ⟨hlow, hhigh⟩ := mul_bounds a b
  obtain ⟨hlow', hhigh'⟩ := roundDiv_bounds a b
  have hnum : i128 (a.toInt * b.toInt) = some (a.toInt * b.toInt) :=
    i128_eq_some (by omega) (by omega)
  have hshifted : i128 (a.toInt * b.toInt + 1000000 / 2) =
      some (a.toInt * b.toInt + 1000000 / 2) := i128_eq_some (by omega) (by omega)
  have hquotient : i128 (roundDiv a.toInt b.toInt) = some (roundDiv a.toInt b.toInt) :=
    i128_eq_some (by omega) (by omega)
  unfold checkedRoundDiv
  simp only [hnum, hshifted, Option.bind_eq_bind, Option.bind_some]
  exact hquotient

/-- None of the 128-bit operations overflows, whatever the tokens and prices are. -/
lemma checkedCost_eq (pt ct pp cp : Int64) :
    checkedCost pt ct pp cp =
      computeCost (some pt) (some ct) (some pp.toInt) (some cp.toInt) := by
  obtain ⟨hlow, hhigh⟩ := roundDiv_bounds pt pp
  obtain ⟨hlow', hhigh'⟩ := roundDiv_bounds ct cp
  have hcost : i128 (roundDiv pt.toInt pp.toInt + roundDiv ct.toInt cp.toInt) =
      some (roundDiv pt.toInt pp.toInt + roundDiv ct.toInt cp.toInt) :=
    i128_eq_some (by omega) (by omega)
  unfold checkedCost
  simp only [checkedRoundDiv_eq, hcost, Option.bind_eq_bind, Option.bind_some]
  rfl

/-! ## Rounding -/

/-- On a product that is not negative, `round_div` rounds the exact quotient half up.  On a negative
one, truncation would round the other way. -/
lemma roundDiv_eq_round {tokens price : ℤ} (h : 0 ≤ tokens * price) :
    roundDiv tokens price = round (((tokens * price : ℤ) : ℚ) / 10 ^ 6) := by
  have hfloor : ⌊((tokens * price + 500000 : ℤ) : ℚ) / (1000000 : ℕ)⌋ =
      (tokens * price + 500000) / ((1000000 : ℕ) : ℤ) := Rat.floor_intCast_div_natCast _ _
  have hquotient : ((tokens * price : ℤ) : ℚ) / 10 ^ 6 + 1 / 2 =
      ((tokens * price + 500000 : ℤ) : ℚ) / (1000000 : ℕ) := by
    push_cast
    ring
  rw [round_eq, hquotient, hfloor, roundDiv, Int.tdiv_eq_ediv_of_nonneg (by omega)]
  norm_num

lemma roundDiv_mono {tokens price tokens' price' : ℤ} (h : tokens * price ≤ tokens' * price') :
    roundDiv tokens price ≤ roundDiv tokens' price' := by
  unfold roundDiv
  exact Int.tdiv_le_tdiv (by norm_num) (by omega)

/-! ## The canonical formula -/

lemma computeCost_some (pt ct : Int64) (pp cp : ℤ) :
    computeCost (some pt) (some ct) (some pp) (some cp) =
      some (max 0 (min (roundDiv pt.toInt pp + roundDiv ct.toInt cp) (2 ^ 63 - 1))) := rfl

lemma computeCost_eq_none_iff {pt ct : Option Int64} {pp cp : Option ℤ} :
    computeCost pt ct pp cp = none ↔ pt = none ∨ ct = none ∨ pp = none ∨ cp = none := by
  rcases pt with _ | pt
  · simp [computeCost]
  rcases ct with _ | ct
  · simp [computeCost]
  rcases pp with _ | pp
  · simp [computeCost]
  rcases cp with _ | cp
  · simp [computeCost]
  simp [computeCost]

lemma computeCost_range {pt ct : Option Int64} {pp cp : Option ℤ} {cost : ℤ}
    (h : computeCost pt ct pp cp = some cost) : 0 ≤ cost ∧ cost ≤ 2 ^ 63 - 1 := by
  have hpresent : ¬ (pt = none ∨ ct = none ∨ pp = none ∨ cp = none) := by
    rw [← computeCost_eq_none_iff, h]
    simp
  rcases pt with _ | pt
  · simp at hpresent
  rcases ct with _ | ct
  · simp at hpresent
  rcases pp with _ | pp
  · simp at hpresent
  rcases cp with _ | cp
  · simp at hpresent
  rw [computeCost_some, Option.some_inj] at h
  omega

/-- On inputs that are not negative the cost is the canonical formula, up to the greatest 64-bit
integer: two exact quotients, each rounded half up, and their sum. -/
lemma computeCost_eq_round {pt ct pp cp : Int64} (hpt : 0 ≤ pt.toInt) (hct : 0 ≤ ct.toInt)
    (hpp : 0 ≤ pp.toInt) (hcp : 0 ≤ cp.toInt) :
    computeCost (some pt) (some ct) (some pp.toInt) (some cp.toInt) =
      some (min (2 ^ 63 - 1)
        (round (((pt.toInt * pp.toInt : ℤ) : ℚ) / 10 ^ 6) +
          round (((ct.toInt * cp.toInt : ℤ) : ℚ) / 10 ^ 6))) := by
  have hprompt : 0 ≤ pt.toInt * pp.toInt := mul_nonneg hpt hpp
  have hcompletion : 0 ≤ ct.toInt * cp.toInt := mul_nonneg hct hcp
  have hnonneg : ∀ {t p : ℤ}, 0 ≤ t * p → 0 ≤ roundDiv t p := by
    intro t p h
    exact Int.tdiv_nonneg (by omega) (by norm_num)
  have hsum := add_nonneg (hnonneg hprompt) (hnonneg hcompletion)
  rw [computeCost_some, ← roundDiv_eq_round hprompt, ← roundDiv_eq_round hcompletion]
  congr 1
  omega

/-- More tokens at no lower prices never cost less: the cost grows with each of the two products. -/
lemma computeCost_mono {pt ct pp cp pt' ct' pp' cp' : Int64} {cost cost' : ℤ}
    (hprompt : pt.toInt * pp.toInt ≤ pt'.toInt * pp'.toInt)
    (hcompletion : ct.toInt * cp.toInt ≤ ct'.toInt * cp'.toInt)
    (h : computeCost (some pt) (some ct) (some pp.toInt) (some cp.toInt) = some cost)
    (h' : computeCost (some pt') (some ct') (some pp'.toInt) (some cp'.toInt) = some cost') :
    cost ≤ cost' := by
  rw [computeCost_some, Option.some_inj] at h h'
  have hle := add_le_add (roundDiv_mono hprompt) (roundDiv_mono hcompletion)
  omega

/-- `computeCost` is the exact canonical formula: no 128-bit operation overflows, the cost is
absent just when an input is, it is never out of range, and on inputs that are not negative it
is the sum of the exact quotients rounded half up, narrowed at the greatest 64-bit integer, and
monotone in every input. -/
theorem computeCost_exact :
    (∀ pt ct pp cp : Int64, checkedCost pt ct pp cp =
      computeCost (some pt) (some ct) (some pp.toInt) (some cp.toInt)) ∧
    (∀ pt ct pp cp : Option Int64,
      computeCost pt ct (pp.map Int64.toInt) (cp.map Int64.toInt) = none ↔
        pt = none ∨ ct = none ∨ pp = none ∨ cp = none) ∧
    (∀ (pt ct pp cp : Option Int64) (cost : ℤ),
      computeCost pt ct (pp.map Int64.toInt) (cp.map Int64.toInt) = some cost →
      0 ≤ cost ∧ cost ≤ Int64.maxValue.toInt) ∧
    (∀ pt ct pp cp : Int64, 0 ≤ pt.toInt → 0 ≤ ct.toInt → 0 ≤ pp.toInt → 0 ≤ cp.toInt →
      computeCost (some pt) (some ct) (some pp.toInt) (some cp.toInt) =
        some (min Int64.maxValue.toInt
          (round (((pt.toInt * pp.toInt : ℤ) : ℚ) / 10 ^ 6) +
            round (((ct.toInt * cp.toInt : ℤ) : ℚ) / 10 ^ 6)))) ∧
    (∀ pt ct pp cp pt' ct' pp' cp' : Int64,
      0 ≤ pt.toInt → 0 ≤ ct.toInt → 0 ≤ pp.toInt → 0 ≤ cp.toInt →
      pt ≤ pt' → ct ≤ ct' → pp ≤ pp' → cp ≤ cp' →
      ∃ cost cost',
        computeCost (some pt) (some ct) (some pp.toInt) (some cp.toInt) = some cost ∧
        computeCost (some pt') (some ct') (some pp'.toInt) (some cp'.toInt) = some cost' ∧
        cost ≤ cost') := by
  have hmax : Int64.maxValue.toInt = 2 ^ 63 - 1 := by decide
  rw [hmax]
  refine ⟨checkedCost_eq, ?_, ?_, ?_, ?_⟩
  · intro pt ct pp cp
    rw [computeCost_eq_none_iff]
    simp
  · intro pt ct pp cp cost h
    exact computeCost_range h
  · intro pt ct pp cp hpt hct hpp hcp
    exact computeCost_eq_round hpt hct hpp hcp
  · intro pt ct pp cp pt' ct' pp' cp' hpt hct hpp hcp hpt' hct' hpp' hcp'
    rw [Int64.le_iff_toInt_le] at hpt' hct' hpp' hcp'
    refine ⟨_, _, computeCost_some .., computeCost_some .., ?_⟩
    exact computeCost_mono (mul_le_mul hpt' hpp' hpp (hpt.trans hpt'))
      (mul_le_mul hct' hcp' hcp (hct.trans hct')) (computeCost_some ..) (computeCost_some ..)

/-- Three tokens cost no more than half a million and one. -/
theorem computeCost_exact_more :
    ∃ cost cost', computeCost (some 3) (some 0) (some 1) (some 1) = some cost ∧
      computeCost (some 500001) (some 0) (some 1) (some 1) = some cost' ∧ cost ≤ cost' :=
  computeCost_exact.2.2.2.2 3 0 1 1 500001 0 1 1 (by decide) (by decide) (by decide) (by decide)
    (by decide) (by decide) (by decide) (by decide)

end Moaray
