import Mathlib.Data.Nat.Basic
import Mathlib.Logic.Function.Basic

/-! # Bitmaps of 64-bit words

A bitmap is an array of words; its bits are numbered through all of them. A mask
with one bit tests, sets and clears the bit of its number
(`Foundation.mask_test`, `Foundation.bitAt_set`, `Foundation.bitAt_clear`).
-/

namespace Foundation

/-- The bit of a number in a bitmap. -/
def bitAt (words : ℕ → UInt64) (n : ℕ) : Bool := (words (n / 64)).toBitVec.getLsbD (n % 64)

section Bitmap

variable {words : ℕ → UInt64} {index bit word : UInt64} {n k : ℕ}

private theorem getLsbD_mask (small : bit.toNat < 64) (k : ℕ) :
    ((1 : UInt64) <<< bit).toBitVec.getLsbD k = decide (k = bit.toNat) := by
  have shifted : ((1 : UInt64) <<< bit).toBitVec = 1#64 <<< bit.toNat := by
    rw [UInt64.toBitVec_shiftLeft]
    change 1#64 <<< (bit.toBitVec % 64#64).toNat = _
    rw [BitVec.toNat_umod]
    change 1#64 <<< (bit.toNat % 64) = _
    rw [Nat.mod_eq_of_lt small]
  rw [shifted, BitVec.getLsbD_shiftLeft, BitVec.getLsbD_one]
  by_cases same : k = bit.toNat
  · simp [same, small]
  · rcases Nat.lt_or_gt_of_ne same with below | above
    · simp [same, below]
    · have positive : k - bit.toNat ≠ 0 := Nat.sub_ne_zero_of_lt above
      simp [same, positive]

/-- A mask with one bit finds whether that bit is set. -/
theorem mask_test (small : bit.toNat < 64) :
    word &&& (1 <<< bit) ≠ 0 ↔ word.toBitVec.getLsbD bit.toNat = true := by
  constructor
  · intro nonzero
    by_contra unset
    apply nonzero
    apply UInt64.toBitVec_inj.mp
    apply BitVec.eq_of_getLsbD_eq
    intro k within
    rw [UInt64.toBitVec_and, BitVec.getLsbD_and, getLsbD_mask small]
    by_cases same : k = bit.toNat
    · subst same
      rw [Bool.not_eq_true] at unset
      rw [unset, Bool.false_and]
      exact (BitVec.getLsbD_zero).symm
    · simp [same]
  · intro set zero
    have cleared := congrArg (fun w => w.toBitVec.getLsbD bit.toNat) zero
    simp only [UInt64.toBitVec_and, BitVec.getLsbD_and, set, getLsbD_mask small] at cleared
    simp at cleared

/-- In one word, places tell the numbers apart. -/
private theorem same_place (here : n / 64 = k / 64) : n % 64 = k % 64 ↔ n = k := by
  constructor
  · intro place
    rw [← Nat.div_add_mod n 64, ← Nat.div_add_mod k 64, here, place]
  · rintro rfl
    rfl

private theorem toNat_place (index : UInt64) : (index % 64).toNat = index.toNat % 64 :=
  UInt64.toNat_mod index 64

private theorem toNat_word (index : UInt64) : (index / 64).toNat = index.toNat / 64 :=
  UInt64.toNat_div index 64

private theorem place_lt (index : UInt64) : (index % 64).toNat < 64 := by
  rw [toNat_place]
  exact Nat.mod_lt _ (by decide)

/-- Testing the bit of a number. -/
theorem bitAt_test :
    words (index / 64).toNat &&& (1 <<< (index % 64)) ≠ 0 ↔ bitAt words index.toNat = true := by
  rw [mask_test (place_lt index), bitAt, toNat_word, toNat_place]

/-- Setting the bit of a number. -/
theorem bitAt_set : bitAt (Function.update words (index / 64).toNat
      (words (index / 64).toNat ||| (1 <<< (index % 64)))) n =
    (decide (n = index.toNat) || bitAt words n) := by
  unfold bitAt
  have within : n % 64 < 64 := Nat.mod_lt _ (by decide)
  by_cases here : n / 64 = index.toNat / 64
  · rw [here, ← toNat_word, Function.update_self, UInt64.toBitVec_or, BitVec.getLsbD_or,
      getLsbD_mask (place_lt index), Bool.or_comm, toNat_place]
    congr 1
    rw [decide_eq_decide, same_place here]
  · have other : n / 64 ≠ (index / 64).toNat := by rwa [toNat_word]
    have apart : n ≠ index.toNat := fun same => here (congrArg (· / 64) same)
    rw [Function.update_of_ne other, decide_eq_false apart, Bool.false_or]

/-- Clearing the bit of a number. -/
theorem bitAt_clear : bitAt (Function.update words (index / 64).toNat
      (words (index / 64).toNat &&& ~~~(1 <<< (index % 64)))) n =
    (!decide (n = index.toNat) && bitAt words n) := by
  unfold bitAt
  have within : n % 64 < 64 := Nat.mod_lt _ (by decide)
  by_cases here : n / 64 = index.toNat / 64
  · rw [here, ← toNat_word, Function.update_self, UInt64.toBitVec_and, UInt64.toBitVec_not,
      BitVec.getLsbD_and, BitVec.getLsbD_not, getLsbD_mask (place_lt index), Bool.and_comm,
      toNat_place, decide_eq_true within, Bool.true_and]
    congr 2
    rw [decide_eq_decide, same_place here]
  · have other : n / 64 ≠ (index / 64).toNat := by rwa [toNat_word]
    have apart : n ≠ index.toNat := fun same => here (congrArg (· / 64) same)
    rw [Function.update_of_ne other, decide_eq_false apart, Bool.not_false, Bool.true_and]

end Bitmap

end Foundation
