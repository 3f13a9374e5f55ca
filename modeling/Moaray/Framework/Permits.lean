import Mathlib.Tactic
import Mathlib.Data.Set.Card

/-!
# Counting semaphores

A semaphore keeps the number of permits that are left and does not know who has the others.
`Accounts` puts the two together: the permits that are left and those that are out, one to each
holder, are all there are.

* `Accounts.take`, `Accounts.give` — a permit changes hands.
* `Accounts.encard_le` — there are never more holders than permits.
* `encard_pairs_le` — several semaphores of which one at most has permits out bound their holders
  together as each does its own.

**Design.**  The holders are a set, of whatever kind the client has (calls, or pairs of an object
and a call), and are counted by `encard`: nothing is asked about there being finitely many of them
beforehand, it follows.  The invariant says that a permit is neither lost nor doubled; it is kept
by the two operations under the side conditions a client checks anyway, that a permit is left, and
that the one who takes it does not hold one yet.
-/

namespace Moaray.Framework

variable {ι κ : Type*}

/-- Of `capacity` permits `available` are left, and each of the others has one holder. -/
def Accounts (capacity available : ℕ) (holders : Set ι) : Prop :=
  (available : ℕ∞) + holders.encard = capacity

variable {capacity available : ℕ} {holders : Set ι} {c : ι}

lemma accounts_empty (capacity : ℕ) : Accounts capacity capacity (∅ : Set ι) := by
  simp [Accounts]

/-- A permit is handed out to somebody who does not hold one. -/
lemma Accounts.take (h : Accounts capacity available holders) (hpos : 0 < available)
    (hc : c ∉ holders) : Accounts capacity (available - 1) (insert c holders) := by
  obtain ⟨left, rfl⟩ := Nat.exists_eq_add_of_le' hpos
  have hcard : (insert c holders).encard = holders.encard + 1 := Set.encard_insert_of_notMem hc
  have hsum : ((left + 1 : ℕ) : ℕ∞) + holders.encard = capacity := h
  show ((left + 1 - 1 : ℕ) : ℕ∞) + (insert c holders).encard = capacity
  rw [hcard, ← hsum, Nat.add_sub_cancel, Nat.cast_add, Nat.cast_one]
  ring

lemma Accounts.give (h : Accounts capacity available holders) (hc : c ∈ holders) :
    Accounts capacity (available + 1) (holders \ {c}) := by
  have hcard : (holders \ {c}).encard + 1 = holders.encard :=
    Set.encard_sdiff_singleton_add_one hc
  have hsum : (available : ℕ∞) + holders.encard = capacity := h
  show ((available + 1 : ℕ) : ℕ∞) + (holders \ {c}).encard = capacity
  rw [← hsum, ← hcard, Nat.cast_add, Nat.cast_one]
  ring

lemma Accounts.encard_le (h : Accounts capacity available holders) :
    holders.encard ≤ capacity := by
  have hsum : (available : ℕ∞) + holders.encard = capacity := h
  rw [← hsum]
  exact le_add_self

/-- Semaphores that are never in use together have, all in all, as many holders as one of them may
have.  The holders of several objects are pairs of an object and a holder. -/
theorem encard_pairs_le {members : Set κ} {holders : κ → Set ι} {n : ℕ∞}
    (hone : ∀ r ∈ members, (holders r).encard ≤ n)
    (halone : ∀ q ∈ members, ∀ r ∈ members,
      (holders q).Nonempty → (holders r).Nonempty → q = r) :
    {p : κ × ι | p.1 ∈ members ∧ p.2 ∈ holders p.1}.encard ≤ n := by
  rcases Set.eq_empty_or_nonempty {p : κ × ι | p.1 ∈ members ∧ p.2 ∈ holders p.1} with
    hnone | ⟨⟨r, c⟩, hr, hc⟩
  · simp [hnone]
  · have hsub : {p : κ × ι | p.1 ∈ members ∧ p.2 ∈ holders p.1} ⊆ Prod.mk r '' holders r := by
      rintro ⟨q, d⟩ ⟨hq, hd⟩
      obtain rfl : q = r := halone q hq r hr ⟨d, hd⟩ ⟨c, hc⟩
      exact ⟨d, hd, rfl⟩
    calc _ ≤ (Prod.mk r '' holders r).encard := Set.encard_le_encard hsub
      _ ≤ (holders r).encard := Set.encard_image_le _ _
      _ ≤ n := hone r hr

end Moaray.Framework
