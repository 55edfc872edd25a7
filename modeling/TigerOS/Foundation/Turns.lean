import Mathlib.Algebra.BigOperators.Group.Finset.Piecewise
import Mathlib.Data.Int.CardIntervalMod
import TigerOS.Foundation.Machine

/-! # Taking turns

Some parties take turns in a circle. The turns of one party among the first ones are
counted by `Foundation.turns`: any two parties differ by at most one turn
(`Foundation.turns_fair`), and all turns together are as many as there were
(`Foundation.sum_turns`).
-/

namespace Foundation

/-- The turns among the first `k` that a party of `n` had. -/
def turns (n party k : ℕ) : ℕ := Nat.count (fun i => i % n = party) k

section Turns

variable {n party : ℕ}

@[simp] theorem turns_zero (n party : ℕ) : turns n party 0 = 0 := Nat.count_zero _

theorem turns_succ (n party k : ℕ) :
    turns n party (k + 1) = turns n party k + if k % n = party then 1 else 0 :=
  Nat.count_succ _ k

/-- Every whole circle is a turn of each party, and the rest one of the first parties. -/
theorem turns_eq (member : party < n) (k : ℕ) :
    turns n party k = k / n + if party < k % n then 1 else 0 := by
  have counted := Nat.count_modEq_card k (Nat.zero_lt_of_lt member) party
  simp only [Nat.ModEq, Nat.mod_eq_of_lt member] at counted
  exact counted

/-- **Turns are fair**: no party is more than one turn ahead of another. -/
theorem turns_fair {other : ℕ} (member : party < n) (member' : other < n) (k : ℕ) :
    turns n party k ≤ turns n other k + 1 := by
  rw [turns_eq member, turns_eq member', Nat.add_assoc]
  apply Nat.add_le_add_left
  split
  · exact Nat.le_add_left 1 _
  · exact Nat.zero_le _

/-- The turn goes to the next party, and after the last to the first. -/
theorem succ_mod (some_ : 0 < n) (k : ℕ) :
    (k + 1) % n = if n ≤ k % n + 1 then 0 else k % n + 1 := by
  rw [← Nat.mod_add_mod]
  by_cases last : n ≤ k % n + 1
  · have whole : k % n + 1 = n := Nat.le_antisymm (Nat.mod_lt k some_) last
    rw [if_pos last, whole, Nat.mod_self]
  · rw [if_neg last, Nat.mod_eq_of_lt (Nat.lt_of_not_le last)]

/-- A turn is one party's. -/
theorem turns_pred (n party k : ℕ) : turns n party k =
    turns n party (k - 1) + if 0 < k ∧ (k - 1) % n = party then 1 else 0 := by
  cases k with
  | zero => rfl
  | succ k => simp only [turns_succ, Nat.add_sub_cancel, Nat.succ_pos, true_and]

/-- **The turns of all parties** are all turns. -/
theorem sum_turns (some_ : 0 < n) (k : ℕ) : ∑ party ∈ Finset.range n, turns n party k = k := by
  induction k with
  | zero => simp only [turns_zero, Finset.sum_const_zero]
  | succ k ih =>
      simp only [turns_succ]
      rw [Finset.sum_add_distrib, ih, Finset.sum_ite_eq,
        if_pos (Finset.mem_range.mpr (Nat.mod_lt k some_))]

end Turns

/-- The circle as a machine that answers the party whose turn it is. -/
def circle {Party : Type*} (n : ℕ) (parties : ℕ → Party) (Op : Type*) : Machine ℕ Op Party where
  step k _ := (parties (k % n), k + 1)

section Circle

variable {Party Op : Type*} {n : ℕ} {parties : ℕ → Party}

theorem circle_state (start : ℕ) (ops : List Op) :
    (circle n parties Op).state start ops = start + ops.length := by
  induction ops generalizing start with
  | nil => rfl
  | cons op ops ih =>
      rw [Machine.state_cons, ih, List.length_cons]
      exact Nat.add_right_comm start 1 ops.length

theorem circle_results (start : ℕ) (ops : List Op) :
    (circle n parties Op).results start ops =
      (List.range' start ops.length).map fun i => parties (i % n) := by
  induction ops generalizing start with
  | nil => rfl
  | cons op ops ih =>
      rw [Machine.results_cons, ih, List.length_cons, List.range'_succ, List.map_cons]
      rfl

end Circle

end Foundation
