import Mathlib.Order.Bounds.Defs
import Mathlib.Data.Nat.Basic
import Mathlib.Tactic.Common

/-! # Points of a progression

The first point of an arithmetic progression past a bound is a division away from its start
(`Foundation.firstPast_isLeast`), also where the progression is joined late
(`Foundation.firstPast_isLeast_from`).
-/

namespace Foundation

/-- The first point past a bound of the progression that starts at `start` with steps `step`. -/
def firstPast (step start bound : ℕ) : ℕ :=
  if start ≤ bound then start + ((bound - start) / step + 1) * step else start

variable {step start bound : ℕ}

/-- The point that the division names is past the bound, and by at most a step. -/
theorem firstPast_bounds (positive : 0 < step) :
    bound < firstPast step start bound ∧
      (start ≤ bound → firstPast step start bound ≤ bound + step) := by
  unfold firstPast
  split
  · rename_i late
    have parts := Nat.div_add_mod' (bound - start) step
    have rest := Nat.mod_lt (bound - start) positive
    rw [Nat.add_mul, Nat.one_mul]
    omega
  · rename_i early
    exact ⟨Nat.not_le.mp early, fun late => absurd late early⟩

/-- **The first point past a bound** is the least one. -/
theorem firstPast_isLeast (positive : 0 < step) :
    IsLeast { point : ℕ | bound < point ∧ ∃ k, point = start + k * step }
      (firstPast step start bound) := by
  obtain ⟨past, near⟩ := @firstPast_bounds step start bound positive
  refine ⟨⟨past, ?_⟩, ?_⟩
  · unfold firstPast
    split
    · exact ⟨_, rfl⟩
    · exact ⟨0, by rw [Nat.zero_mul, Nat.add_zero]⟩
  · rintro _ ⟨beyond, k, rfl⟩
    unfold firstPast
    split
    · rename_i late
      -- the point is as many steps away as the bound has full ones, and one more
      have steps : (bound - start) / step < k := by
        rw [Nat.div_lt_iff_lt_mul positive]
        omega
      exact Nat.add_le_add_left (Nat.mul_le_mul_right _ steps) _
    · exact Nat.le_add_right _ _

/-- From any point of a progression on, the first point past a bound is the least point of the
whole progression that is past it and not before that point. -/
theorem firstPast_isLeast_from (positive : 0 < step) (k : ℕ) :
    IsLeast { point : ℕ | bound < point ∧ (∃ j, point = start + j * step) ∧
        start + k * step ≤ point }
      (firstPast step (start + k * step) bound) := by
  obtain ⟨⟨past, more, place⟩, least⟩ :=
    @firstPast_isLeast step (start + k * step) bound positive
  refine ⟨⟨past, ⟨k + more, ?_⟩, ?_⟩, ?_⟩
  · rw [place, Nat.add_mul, Nat.add_assoc]
  · rw [place]
    exact Nat.le_add_right _ _
  · rintro _ ⟨beyond, ⟨j, rfl⟩, onward⟩
    have steps : k ≤ j := Nat.le_of_mul_le_mul_right (Nat.le_of_add_le_add_left onward) positive
    obtain ⟨rest, rfl⟩ := Nat.exists_eq_add_of_le steps
    exact least ⟨beyond, rest, by rw [Nat.add_mul, Nat.add_assoc]⟩

end Foundation
