import Mathlib.Data.Nat.Basic

/-! # Scans around a circle

A scan goes through the numbers below `n` from some start on, and from the last one
on to the first. A whole scan passes every number (`Foundation.forall_of_scan`).
Where all numbers before the start are taken, the first one not taken that a scan
meets is the least one not taken (`Foundation.taken_below_of_scan`).
-/

namespace Foundation

section Circle

variable {n start k m : ℕ} (taken : ℕ → Prop)

/-- The place of a number on the circle. -/
theorem circle_place (inside : start < n) (below : m < n) :
    (start + (m + n - start) % n) % n = m := by
  have whole : start + (m + n - start) = m + n := by omega
  rw [Nat.add_mod_mod, whole, Nat.add_mod_right, Nat.mod_eq_of_lt below]

/-- A whole scan passes every number. -/
theorem forall_of_scan (inside : start < n) (passed : ∀ j < n, taken ((start + j) % n))
    (below : m < n) : taken m := by
  have here := passed ((m + n - start) % n) (Nat.mod_lt _ (Nat.zero_lt_of_lt below))
  rwa [circle_place inside below] at here

/-- **The first number met is the least**, where the numbers before the start are
all taken. -/
theorem taken_below_of_scan (inside : start < n) (earlier : ∀ m < start, taken m)
    (within : k < n) (passed : ∀ j < k, taken ((start + j) % n))
    (free : ¬ taken ((start + k) % n)) (below : m < (start + k) % n) : taken m := by
  rcases Nat.lt_or_ge (start + k) n with straight | around
  · rw [Nat.mod_eq_of_lt straight] at below
    rcases Nat.lt_or_ge m start with before | after
    · exact earlier m before
    · have here := passed (m - start) (by omega)
      rwa [Nat.add_sub_cancel' after, Nat.mod_eq_of_lt (by omega)] at here
  · -- A scan that went around met a number before its start, which is taken.
    have wrapped : (start + k) % n = start + k - n := by
      rw [Nat.mod_eq_sub_mod around, Nat.mod_eq_of_lt (by omega)]
    rw [wrapped] at free
    exact absurd (earlier _ (by omega)) free

end Circle

end Foundation
