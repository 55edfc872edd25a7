import Mathlib.Tactic

/-! # Calls struck by faults

A program makes calls that may fail, and stops at the first that does. Its calls in order
and the fates that await them decide which call a fault strikes, and which fates are left
(`Foundation.strike`). A fate that fails is used up exactly where a call is struck
(`Foundation.failed_strike`).
-/

namespace Foundation

section Strike

variable {Call Fate : Type*} (fails : Fate → Prop) [DecidablePred fails]

/-- The call of `calls` that the first failing fate strikes, and the fates left after it.
Calls past the fates succeed. -/
def strike : List Call → List Fate → Option Call × List Fate
  | [], fates => (none, fates)
  | _ :: _, [] => (none, [])
  | call :: calls, fate :: fates => if fails fate then (some call, fates) else strike calls fates

/-- A fate used up between `fates` and `left` fails. -/
def Failed (fates left : List Fate) : Prop :=
  ∃ met, fates = met ++ left ∧ ∃ fate ∈ met, fails fate

variable {fails} {calls more : List Call} {fates : List Fate} {call : Call}

@[simp] theorem strike_nil (fates : List Fate) :
    strike fails ([] : List Call) fates = (none, fates) := by
  rw [strike]

@[simp] theorem strike_fateless (calls : List Call) : strike fails calls [] = (none, []) := by
  cases calls with
  | nil => rw [strike]
  | cons call calls => rw [strike]

/-- Calls after those that passed meet the fates these left. -/
theorem strike_append_of_none (passed : (strike fails calls fates).1 = none) :
    strike fails (calls ++ more) fates = strike fails more (strike fails calls fates).2 := by
  induction calls generalizing fates with
  | nil => rw [List.nil_append, strike_nil]
  | cons call calls ih =>
      cases fates with
      | nil => simp only [strike_fateless]
      | cons fate fates =>
          rw [List.cons_append, strike, strike]
          rw [strike] at passed
          by_cases faulty : fails fate
          · rw [if_pos faulty] at passed
            cases passed
          · rw [if_neg faulty] at passed
            rw [if_neg faulty, if_neg faulty]
            exact ih passed

/-- Calls after the one struck are not made. -/
theorem strike_append_of_some (hit : (strike fails calls fates).1 = some call) :
    strike fails (calls ++ more) fates = strike fails calls fates := by
  induction calls generalizing fates with
  | nil =>
      rw [strike_nil] at hit
      cases hit
  | cons first calls ih =>
      cases fates with
      | nil => simp only [strike_fateless]
      | cons fate fates =>
          rw [List.cons_append, strike, strike]
          rw [strike] at hit
          by_cases faulty : fails fate
          · rw [if_pos faulty, if_pos faulty]
          · rw [if_neg faulty] at hit
            rw [if_neg faulty, if_neg faulty]
            exact ih hit

variable (fails)

/-- The fates used up hold one that fails exactly where a call is struck. -/
private theorem strike_uses (calls : List Call) (fates : List Fate) :
    ∃ met, fates = met ++ (strike fails calls fates).2 ∧
      ((∃ fate ∈ met, fails fate) ↔ (strike fails calls fates).1 ≠ none) := by
  induction calls generalizing fates with
  | nil => exact ⟨[], by rw [strike_nil, List.nil_append], by simp⟩
  | cons call calls ih =>
      cases fates with
      | nil => exact ⟨[], by rw [strike_fateless, List.nil_append], by simp⟩
      | cons fate fates =>
          rw [strike]
          by_cases faulty : fails fate
          · rw [if_pos faulty]
            exact ⟨[fate], rfl, by simp [faulty]⟩
          · rw [if_neg faulty]
            obtain ⟨met, used, hits⟩ := ih fates
            refine ⟨fate :: met, by rw [List.cons_append, ← used], ?_⟩
            rw [← hits]
            simp [faulty]

/-- **A failing fate is used up** exactly where a call is struck. -/
theorem failed_strike (calls : List Call) (fates : List Fate) :
    Failed fails fates (strike fails calls fates).2 ↔ (strike fails calls fates).1 ≠ none := by
  obtain ⟨met, used, hits⟩ := strike_uses fails calls fates
  rw [← hits]
  constructor
  · rintro ⟨met', used', faulty⟩
    rwa [List.append_cancel_right (used.symm.trans used')]
  · exact fun faulty => ⟨met, used, faulty⟩

end Strike

end Foundation
