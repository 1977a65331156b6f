import Mathlib.Logic.Function.Iterate
import Mathlib.Data.Set.Card

/-!
# Walks

A walk goes from place to place by a partial function. It comes to an end exactly if it
never comes back to a place, provided that there are only finitely many.
-/

namespace Interaction

variable {κ : Type} (step : κ → Option κ) (start : Option κ)

/-- The place after `n` steps, `none` once the walk has ended. -/
def visit (n : Nat) : Option κ := (fun place => place.bind step)^[n] start

/-- The walk comes to a place again. -/
def Returns : Prop :=
  ∃ i j a, i < j ∧ visit step start i = some a ∧ visit step start j = some a

@[simp] theorem visit_zero : visit step start 0 = start := rfl

theorem visit_succ (n : Nat) : visit step start (n + 1) = visit step (start.bind step) n := rfl

theorem visit_add (m n : Nat) :
    visit step start (m + n) = visit step (visit step start n) m :=
  Function.iterate_add_apply _ m n start

/-- After its end there are no more places. -/
theorem visit_none (n : Nat) : visit step none n = none :=
  Function.iterate_fixed rfl n

variable {step start}

theorem visit_none_of_le {m n : Nat} (ended : visit step start m = none) (le : m ≤ n) :
    visit step start n = none := by
  obtain ⟨k, rfl⟩ := Nat.exists_eq_add_of_le' le
  rw [visit_add, ended, visit_none]

/-- A walk that returns goes round for ever. -/
theorem Returns.never_ends (returns : Returns step start) (n : Nat) :
    visit step start n ≠ none := by
  obtain ⟨i, j, a, lt, first, again⟩ := returns
  have period : visit step (some a) (j - i) = some a := by
    rw [← first, ← visit_add, Nat.sub_add_cancel lt.le]
    exact again.trans first.symm
  -- `n` rounds of at least one step each lead beyond step `n`
  have rounds : ∀ k, visit step (some a) (k * (j - i)) = some a := by
    intro k
    induction k with
    | zero => rw [Nat.zero_mul, visit_zero]
    | succ k ih => rw [Nat.succ_mul, visit_add, period, ih]
  intro ended
  have later : visit step start (n * (j - i) + i) = none := by
    refine visit_none_of_le ended ?_
    have : n * 1 ≤ n * (j - i) := Nat.mul_le_mul_left n (Nat.sub_pos_of_lt lt)
    omega
  rw [visit_add, first, rounds] at later
  cases later

/-- A walk of `n` steps that has not come to its end has been at `n` places. -/
theorem le_ncard_of_not_returns {places : Set κ} (finite : places.Finite)
    (within : ∀ n a, visit step start n = some a → a ∈ places)
    (fresh : ¬ Returns step start) {n : Nat} (going : ∀ m < n, visit step start m ≠ none) :
    n ≤ places.ncard := by
  choose place at_place using fun m : Fin n => Option.ne_none_iff_exists'.mp (going m m.isLt)
  have inj : Function.Injective place := by
    intro i j same
    by_contra distinct
    have here := at_place i
    rw [same] at here
    rcases lt_or_gt_of_ne distinct with lt | gt
    · exact fresh ⟨i, j, place j, lt, here, at_place j⟩
    · exact fresh ⟨j, i, place j, gt, at_place j, here⟩
  calc n = (Set.range place).ncard := by
        rw [Set.ncard_range_of_injective inj, Nat.card_fin]
    _ ≤ places.ncard := by
        refine Set.ncard_le_ncard ?_ finite
        rintro _ ⟨m, rfl⟩
        exact within m _ (at_place m)

theorem ends_iff {places : Set κ} (finite : places.Finite)
    (within : ∀ n a, visit step start n = some a → a ∈ places) :
    (∃ n, visit step start n = none) ↔ ¬ Returns step start := by
  constructor
  · rintro ⟨n, ended⟩ returns
    exact returns.never_ends n ended
  · intro fresh
    by_contra endless
    have going : ∀ m < places.ncard + 1, visit step start m ≠ none :=
      fun m _ ended => endless ⟨m, ended⟩
    have := le_ncard_of_not_returns finite within fresh going
    omega

end Interaction
