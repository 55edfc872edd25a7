import TigerOS.Foundation.CircularScan
import TigerOS.Mm.PageAlloc
import Mathlib.Tactic

/-! # The scan of the bitmap

`page_alloc` scans the bitmap around the range, from the hint on. It finds the first
free page it meets (`TigerOS.Mm.scanFrom_first`), and where it finds none, no page is
free (`TigerOS.Mm.allocated_of_scan`).
-/

namespace TigerOS.Mm

open Foundation

section Scan

variable {alloc : PageAllocator} {index scanned : UInt64} {rounds n : ℕ}

theorem bitmapTest_iff : bitmapTest alloc index ↔ bitAt alloc.allocBitmap index.toNat = true :=
  bitAt_test

/-- What the loop finds is a free page of the range. -/
theorem scanFrom_sound (some_ : 0 < alloc.totalPages.toNat)
    (finds : scanFrom alloc rounds scanned = some index) :
    index.toNat < alloc.totalPages.toNat ∧ ¬ bitmapTest alloc index := by
  induction rounds generalizing scanned with
  | zero => cases finds
  | succ rounds ih =>
      unfold scanFrom at finds
      simp only at finds
      split at finds
      · exact ih finds
      · rename_i unset
        cases finds
        refine ⟨?_, unset⟩
        rw [UInt64.toNat_mod]
        exact Nat.mod_lt _ some_

variable (capped : alloc.totalPages.toNat ≤ pageAllocMaxPages.toNat)
  (hint : alloc.nextHint.toNat < alloc.totalPages.toNat)
include capped hint

private theorem toNat_scanned (scanned : UInt64) (within : scanned.toNat < alloc.totalPages.toNat) :
    ((alloc.nextHint + scanned) % alloc.totalPages).toNat =
        (alloc.nextHint.toNat + scanned.toNat) % alloc.totalPages.toNat ∧
      (scanned + 1).toNat = scanned.toNat + 1 := by
  change alloc.totalPages.toNat ≤ 131072 at capped
  have sum : (alloc.nextHint.toNat + scanned.toNat) % 2 ^ 64 =
      alloc.nextHint.toNat + scanned.toNat := Nat.mod_eq_of_lt (by omega)
  constructor
  · rw [UInt64.toNat_mod, UInt64.toNat_add, sum]
  · rw [UInt64.toNat_add]
    exact Nat.mod_eq_of_lt (by change _ + 1 < _; omega)

/-- Where the loop finds nothing, the pages it went through are handed out. -/
theorem scanFrom_complete (range : scanned.toNat + rounds ≤ alloc.totalPages.toNat)
    (finds : scanFrom alloc rounds scanned = none) (k : ℕ) (from_ : scanned.toNat ≤ k)
    (below : k < scanned.toNat + rounds) :
    bitAt alloc.allocBitmap ((alloc.nextHint.toNat + k) % alloc.totalPages.toNat) = true := by
  induction rounds generalizing scanned with
  | zero => omega
  | succ rounds ih =>
      obtain ⟨index, next⟩ := toNat_scanned capped hint scanned (by omega)
      unfold scanFrom at finds
      simp only at finds
      split at finds
      · rename_i set
        rcases Nat.eq_or_lt_of_le from_ with here | later
        · rw [bitmapTest_iff, index, here] at set
          exact set
        · exact ih (by omega) finds (by omega) (by omega)
      · cases finds

/-- The loop finds the first free page it goes through. -/
theorem scanFrom_first (range : scanned.toNat + rounds ≤ alloc.totalPages.toNat)
    (finds : scanFrom alloc rounds scanned = some index) :
    ∃ k < scanned.toNat + rounds,
      index.toNat = (alloc.nextHint.toNat + k) % alloc.totalPages.toNat ∧
      ∀ j, scanned.toNat ≤ j → j < k → bitAt alloc.allocBitmap
        ((alloc.nextHint.toNat + j) % alloc.totalPages.toNat) = true := by
  induction rounds generalizing scanned with
  | zero => cases finds
  | succ rounds ih =>
      obtain ⟨here, next⟩ := toNat_scanned capped hint scanned (by omega)
      unfold scanFrom at finds
      simp only at finds
      split at finds
      · rename_i set
        obtain ⟨k, within, place, passed⟩ := ih (by omega) finds
        refine ⟨k, by omega, place, fun j from_ below => ?_⟩
        rcases Nat.eq_or_lt_of_le from_ with first | later
        · rw [bitmapTest_iff, here, first] at set
          exact set
        · exact passed j (by omega) below
      · cases finds
        exact ⟨scanned.toNat, by omega, here, fun j from_ below => by omega⟩

/-- Where the whole scan finds nothing, no page is free. -/
theorem allocated_of_scan (finds : scanFrom alloc alloc.totalPages.toNat 0 = none)
    (inside : n < alloc.totalPages.toNat) : bitAt alloc.allocBitmap n = true := by
  have start : (0 : UInt64).toNat + alloc.totalPages.toNat = alloc.totalPages.toNat :=
    Nat.zero_add _
  apply forall_of_scan (fun n => bitAt alloc.allocBitmap n = true) hint ?_ inside
  intro j below
  exact scanFrom_complete capped hint start.le finds j (Nat.zero_le j) (start.symm ▸ below)

/-- **The whole scan finds the least free page**, where the pages before the hint are
handed out. -/
theorem least_of_scan (earlier : ∀ m < alloc.nextHint.toNat, bitAt alloc.allocBitmap m = true)
    (finds : scanFrom alloc alloc.totalPages.toNat 0 = some index) (below : n < index.toNat) :
    bitAt alloc.allocBitmap n = true := by
  have start : (0 : UInt64).toNat + alloc.totalPages.toNat = alloc.totalPages.toNat :=
    Nat.zero_add _
  have free := (scanFrom_sound (Nat.zero_lt_of_lt hint) finds).2
  obtain ⟨k, within, place, passed⟩ := scanFrom_first capped hint start.le finds
  rw [start] at within
  rw [bitmapTest_iff, place] at free
  rw [place] at below
  exact taken_below_of_scan (fun n => bitAt alloc.allocBitmap n = true) hint earlier
    within (fun j before => passed j (Nat.zero_le j) before) free below

end Scan

end TigerOS.Mm
