import TigerOS.Mm.Scan

/-! # The managed range

The allocator rounds the bounds it is given to starts of pages, the lower one up
and the upper one down, and keeps at most the pages its bitmap has room for. Its
pages lie side by side from the start of the range to its end
(`TigerOS.Mm.Paged`). Rounding up wraps around in the last page of the address
space, so that the range lies within the bounds given exactly when the lower one
is not in that page, or the upper one is in the first
(`TigerOS.Mm.managesGiven_init_iff`).
-/

namespace TigerOS.Mm

open Foundation

/-! ## Addresses -/

section Addresses

variable {addr : UInt64}

/-- Aligning down goes to the start of the page. -/
theorem toNat_pageAlignDown (addr : UInt64) :
    (pageAlignDown addr).toNat = addr.toNat / 4096 * 4096 := by
  have mask : (~~~(pageAllocPageSize - 1)).toNat = (2 ^ 52 - 1) <<< 12 := by decide
  have shifted : addr.toNat / 4096 * 4096 = (addr.toNat >>> 12) <<< 12 := by
    rw [Nat.shiftLeft_eq, Nat.shiftRight_eq_div_pow]
  rw [pageAlignDown, UInt64.toNat_and, mask, shifted]
  apply Nat.eq_of_testBit_eq
  intro k
  rw [Nat.testBit_and, Nat.testBit_shiftLeft, Nat.testBit_shiftLeft, Nat.testBit_shiftRight,
    Nat.testBit_two_pow_sub_one]
  by_cases high : 12 ≤ k
  · have back : 12 + (k - 12) = k := Nat.add_sub_cancel' high
    rw [back]
    by_cases small : k - 12 < 52
    · simp [high, small]
    · have none : addr.toNat.testBit k = false := by
        apply Nat.testBit_lt_two_pow
        have bound := addr.toNat_lt
        exact bound.trans_le (Nat.pow_le_pow_right (by decide) (by omega))
      rw [none]
      simp
  · simp [high]

/-- Aligning up goes to the next start of a page, or around to address `0` from
the last page. -/
theorem toNat_pageAlignUp (addr : UInt64) :
    (pageAlignUp addr).toNat = (addr.toNat + 4095) % 2 ^ 64 / 4096 * 4096 := by
  have down := toNat_pageAlignDown (addr + (pageAllocPageSize - 1))
  rw [UInt64.toNat_add] at down
  exact down

theorem toNat_pageAlignUp_of_le (small : addr.toNat + 4095 < 2 ^ 64) :
    (pageAlignUp addr).toNat = (addr.toNat + 4095) / 4096 * 4096 := by
  rw [toNat_pageAlignUp, Nat.mod_eq_of_lt small]

theorem toNat_pageAlignUp_of_lt (large : 2 ^ 64 ≤ addr.toNat + 4095) :
    (pageAlignUp addr).toNat = 0 := by
  have bound := addr.toNat_lt
  rw [toNat_pageAlignUp]
  omega

end Addresses

/-! ## The pages of a range -/

/-- The pages of an allocator lie side by side from the start of its range to its
end. -/
structure Paged (alloc : PageAllocator) : Prop where
  aligned : 4096 ∣ alloc.rangeStart.toNat
  extent : alloc.rangeStart.toNat + alloc.totalPages.toNat * 4096 = alloc.rangeEnd.toNat
  capped : alloc.totalPages.toNat ≤ pageAllocMaxPages.toNat

/-- The address of a page. -/
def pageAddress (alloc : PageAllocator) (n : ℕ) : ℕ := alloc.rangeStart.toNat + n * 4096

/-- Two states of one allocator have the same range. -/
structure SameRange (alloc alloc' : PageAllocator) : Prop where
  start : alloc'.rangeStart = alloc.rangeStart
  stop : alloc'.rangeEnd = alloc.rangeEnd
  total : alloc'.totalPages = alloc.totalPages

section Range

variable {lower upper addr index : UInt64} {alloc alloc' : PageAllocator}

theorem SameRange.refl (alloc : PageAllocator) : SameRange alloc alloc := ⟨rfl, rfl, rfl⟩

theorem SameRange.pageAddress (same : SameRange alloc alloc') (n : ℕ) :
    pageAddress alloc' n = pageAddress alloc n := by
  unfold Mm.pageAddress
  rw [same.start]

theorem Paged.congr (paged : Paged alloc) (same : SameRange alloc alloc') : Paged alloc' := by
  obtain ⟨aligned, extent, capped⟩ := paged
  obtain ⟨start, stop, total⟩ := same
  rw [← start] at aligned
  rw [← start, ← stop, ← total] at extent
  rw [← total] at capped
  exact ⟨aligned, extent, capped⟩

/-- Different pages have different addresses. -/
theorem pageAddress_injective (alloc : PageAllocator) : Function.Injective (pageAddress alloc) := by
  intro n m same
  unfold pageAddress at same
  omega

/-- The address of a page as the code computes it. -/
theorem Paged.toNat_address (paged : Paged alloc)
    (inside : index.toNat < alloc.totalPages.toNat) :
    (alloc.rangeStart + index * pageAllocPageSize).toNat = pageAddress alloc index.toNat := by
  have extent := paged.extent
  have bound := alloc.rangeEnd.toNat_lt
  rw [UInt64.toNat_add, UInt64.toNat_mul]
  change (_ + _ * 4096 % 2 ^ 64) % 2 ^ 64 = _
  unfold pageAddress
  omega

private theorem toNat_and_mask (addr : UInt64) :
    (addr &&& (pageAllocPageSize - 1)).toNat = addr.toNat % 4096 := by
  rw [UInt64.toNat_and]
  exact Nat.and_two_pow_sub_one_eq_mod addr.toNat 12

/-- The addresses that have an index are those of the pages. -/
theorem Paged.pageIndexFromAddr_eq_some (paged : Paged alloc) :
    pageIndexFromAddr alloc addr = some index ↔
      index.toNat < alloc.totalPages.toNat ∧ addr.toNat = pageAddress alloc index.toNat := by
  have extent := paged.extent
  unfold pageIndexFromAddr pageAddress
  by_cases outside : addr < alloc.rangeStart ∨ alloc.rangeEnd ≤ addr
  · rw [if_pos outside]
    refine iff_of_false (by simp) ?_
    rintro ⟨inside, same⟩
    rcases outside with below | above
    · rw [UInt64.lt_iff_toNat_lt] at below
      omega
    · rw [UInt64.le_iff_toNat_le] at above
      omega
  · rw [if_neg outside]
    rw [UInt64.lt_iff_toNat_lt, UInt64.le_iff_toNat_le, not_or, not_lt, not_le] at outside
    have delta : (addr - alloc.rangeStart).toNat = addr.toNat - alloc.rangeStart.toNat :=
      UInt64.toNat_sub_of_le _ _ (UInt64.le_iff_toNat_le.mpr outside.1)
    have offset : (addr - alloc.rangeStart) &&& (pageAllocPageSize - 1) ≠ 0 ↔
        (addr.toNat - alloc.rangeStart.toNat) % 4096 ≠ 0 := by
      rw [ne_eq, ← UInt64.toNat_inj, toNat_and_mask, delta]
      rfl
    have quotient : ((addr - alloc.rangeStart) / pageAllocPageSize).toNat =
        (addr.toNat - alloc.rangeStart.toNat) / 4096 := by
      rw [UInt64.toNat_div, delta]
      rfl
    simp only [offset]
    split
    · rename_i crooked
      refine iff_of_false (by simp) ?_
      rintro ⟨_, same⟩
      apply crooked
      rw [same, Nat.add_sub_cancel_left]
      exact Nat.mul_mod_left _ _
    · rename_i even
      rw [not_not] at even
      split
      · rename_i past
        rw [UInt64.le_iff_toNat_le, quotient] at past
        refine iff_of_false (by simp) ?_
        omega
      · rename_i inside
        rw [UInt64.le_iff_toNat_le, quotient, not_le] at inside
        rw [Option.some_inj, ← UInt64.toNat_inj, quotient]
        constructor
        · rintro same
          rw [← same]
          exact ⟨inside, by omega⟩
        · rintro ⟨_, same⟩
          omega

/-! ## Setting up a range -/

/-- Bounds with no page between them give the empty range. -/
theorem pageAllocInit_empty (none : pageAlignDown upper ≤ pageAlignUp lower) :
    pageAllocInit lower upper = ⟨0, 0, 0, 0, 0, fun _ => 0⟩ :=
  if_pos none

/-- Bounds with a page between them give a range from the first one on. -/
theorem pageAllocInit_spec (some_ : pageAlignUp lower < pageAlignDown upper) :
    Paged (pageAllocInit lower upper) ∧
      (pageAllocInit lower upper).rangeStart = pageAlignUp lower ∧
      (pageAllocInit lower upper).rangeEnd ≤ pageAlignDown upper ∧
      0 < (pageAllocInit lower upper).totalPages.toNat := by
  have start := toNat_pageAlignUp lower
  have stop := toNat_pageAlignDown upper
  have order := UInt64.lt_iff_toNat_lt.mp some_
  have length : (pageAlignDown upper - pageAlignUp lower).toNat =
      (pageAlignDown upper).toNat - (pageAlignUp lower).toNat :=
    UInt64.toNat_sub_of_le _ _ (UInt64.le_iff_toNat_le.mpr order.le)
  have pages : ((pageAlignDown upper - pageAlignUp lower) / pageAllocPageSize).toNat * 4096 =
      (pageAlignDown upper).toNat - (pageAlignUp lower).toNat := by
    rw [UInt64.toNat_div, length]
    change _ / 4096 * 4096 = _
    omega
  have aligned : 4096 ∣ (pageAlignUp lower).toNat := start ▸ Nat.dvd_mul_left _ _
  unfold pageAllocInit
  simp only
  rw [if_neg (UInt64.not_le.mpr some_)]
  split
  · rename_i many
    rw [UInt64.lt_iff_toNat_lt] at many
    change 131072 < _ at many
    have stop' : (pageAlignUp lower + pageAllocMaxPages * pageAllocPageSize).toNat =
        (pageAlignUp lower).toNat + 131072 * 4096 := by
      have bound := upper.toNat_lt
      have size : (pageAllocMaxPages * pageAllocPageSize).toNat = 131072 * 4096 := by decide
      rw [UInt64.toNat_add, size]
      omega
    have room : 0 < pageAllocMaxPages.toNat := by decide
    refine ⟨⟨aligned, ?_, le_rfl⟩, rfl, ?_, room⟩
    · rw [stop']
      rfl
    · rw [UInt64.le_iff_toNat_le, stop']
      omega
  · rename_i few
    rw [UInt64.lt_iff_toNat_lt, not_lt] at few
    refine ⟨⟨aligned, ?_, few⟩, rfl, UInt64.le_refl _, ?_⟩
    · change (pageAlignUp lower).toNat + _ * 4096 = (pageAlignDown upper).toNat
      rw [pages]
      omega
    · change 0 < ((pageAlignDown upper - pageAlignUp lower) / pageAllocPageSize).toNat
      omega

/-- Whatever the bounds, the pages lie side by side. -/
theorem paged_init (lower upper : UInt64) : Paged (pageAllocInit lower upper) := by
  by_cases some_ : pageAlignUp lower < pageAlignDown upper
  · exact (pageAllocInit_spec some_).1
  · rw [pageAllocInit_empty (UInt64.not_lt.mp some_)]
    exact ⟨dvd_zero _, rfl, Nat.zero_le _⟩

/-! ## The calls -/

/-- What `page_alloc` answers is no page or the address of one. -/
theorem Paged.pageAlloc_page (paged : Paged alloc) : (pageAlloc alloc).1 = 0 ∨
    ∃ n < alloc.totalPages.toNat, (pageAlloc alloc).1.toNat = pageAddress alloc n := by
  unfold pageAlloc
  split
  · exact .inl rfl
  · split
    · exact .inl rfl
    · rename_i index finds
      right
      have some_ : 0 < alloc.totalPages.toNat := by
        by_contra none
        rw [Nat.eq_zero_of_not_pos none] at finds
        cases finds
      have inside := (scanFrom_sound some_ finds).1
      exact ⟨index.toNat, inside, paged.toNat_address inside⟩

/-- No call changes the range. -/
theorem sameRange_step (alloc : PageAllocator) (op : PageOp) :
    SameRange alloc (pageStep alloc op).2 := by
  cases op with
  | alloc =>
      change SameRange alloc (pageAlloc alloc).2
      unfold pageAlloc
      split
      · exact .refl alloc
      · split
        · exact .refl alloc
        · exact ⟨rfl, rfl, rfl⟩
  | free page =>
      change SameRange alloc (pageFree alloc page).2
      unfold pageFree
      split
      · exact .refl alloc
      · split
        · exact .refl alloc
        · split
          · exact .refl alloc
          · exact ⟨rfl, rfl, rfl⟩

/-- Every page a run hands out is one of the range. -/
theorem Paged.page_run (paged : Paged alloc) {ops : List PageOp}
    (answered : .page addr ∈ pageAllocator.results alloc ops) :
    addr = 0 ∨ ∃ n < alloc.totalPages.toNat, addr.toNat = pageAddress alloc n := by
  induction ops generalizing alloc with
  | nil => cases answered
  | cons op ops ih =>
      rcases List.mem_cons.mp answered with here | later
      · cases op with
        | alloc =>
            obtain rfl : addr = (pageAlloc alloc).1 := PageAnswer.page.inj here
            exact paged.pageAlloc_page
        | free page => cases here
      · have same := sameRange_step alloc op
        rcases ih (paged.congr same) later with zero | ⟨n, inside, address⟩
        · exact .inl zero
        · right
          rw [same.total] at inside
          rw [same.pageAddress] at address
          exact ⟨n, inside, address⟩

end Range

/-! ## Memory that was given -/

/-- The allocator manages whole pages of the memory it was given and hands out no
other, whatever is allocated and freed. -/
structure ManagesGiven (lower upper : UInt64) (alloc : PageAllocator) : Prop where
  contained : alloc.rangeEnd ≤ alloc.rangeStart ∨
    lower ≤ alloc.rangeStart ∧ alloc.rangeEnd ≤ upper
  aligned : 4096 ∣ alloc.rangeStart.toNat ∧ 4096 ∣ alloc.rangeEnd.toNat
  pages : alloc.rangeStart.toNat + alloc.totalPages.toNat * 4096 = alloc.rangeEnd.toNat
  answers : ∀ ops addr, .page addr ∈ pageAllocator.results alloc ops → addr ≠ 0 →
    lower ≤ addr ∧ addr < upper

section Given

variable {lower upper : UInt64} {alloc : PageAllocator}

/-- An allocator whose range is within the bounds answers addresses within them. -/
theorem Paged.managesGiven (paged : Paged alloc)
    (within : 0 < alloc.totalPages.toNat → lower ≤ alloc.rangeStart ∧ alloc.rangeEnd ≤ upper) :
    ManagesGiven lower upper alloc := by
  have extent := paged.extent
  refine ⟨?_, ⟨paged.aligned, ?_⟩, extent, ?_⟩
  · rcases Nat.eq_zero_or_pos alloc.totalPages.toNat with none | some_
    · left
      rw [UInt64.le_iff_toNat_le]
      omega
    · exact .inr (within some_)
  · rw [← extent]
    exact Nat.dvd_add paged.aligned (Nat.dvd_mul_left _ _)
  · intro ops addr answered nonzero
    rcases paged.page_run answered with zero | ⟨n, inside, address⟩
    · exact absurd zero nonzero
    · obtain ⟨low, high⟩ := within (Nat.zero_lt_of_lt inside)
      rw [UInt64.le_iff_toNat_le] at low high ⊢
      rw [UInt64.lt_iff_toNat_lt, address]
      unfold pageAddress
      omega

/-- A lower bound in the last page of the address space is rounded up to address
`0`, and the pages below the upper bound are managed. -/
theorem not_managesGiven_of_wrap (large : 2 ^ 64 ≤ lower.toNat + 4095)
    (page : 4096 ≤ upper.toNat) : ¬ ManagesGiven lower upper (pageAllocInit lower upper) := by
  have start := toNat_pageAlignUp_of_lt large
  have stop := toNat_pageAlignDown upper
  have some_ : pageAlignUp lower < pageAlignDown upper := by
    rw [UInt64.lt_iff_toNat_lt, start, stop]
    omega
  obtain ⟨paged, first, _, positive⟩ := pageAllocInit_spec some_
  have extent := paged.extent
  rw [first, start] at extent
  intro manages
  have contained := manages.contained
  rw [first, UInt64.le_iff_toNat_le, UInt64.le_iff_toNat_le, start] at contained
  omega

/-- **The allocator keeps within the bounds it is given exactly** when the lower
one can be rounded up, or the upper one leaves no page below it. -/
theorem managesGiven_init_iff (lower upper : UInt64) :
    ManagesGiven lower upper (pageAllocInit lower upper) ↔
      lower.toNat ≤ 2 ^ 64 - 4096 ∨ upper.toNat < 4096 := by
  constructor
  · intro manages
    by_contra wraps
    rw [not_or, not_le, not_lt] at wraps
    exact not_managesGiven_of_wrap (by omega) wraps.2 manages
  · intro fits
    by_cases some_ : pageAlignUp lower < pageAlignDown upper
    · have stop := toNat_pageAlignDown upper
      obtain ⟨paged, first, last, _⟩ := pageAllocInit_spec some_
      rw [UInt64.lt_iff_toNat_lt] at some_
      rw [UInt64.le_iff_toNat_le] at last
      apply paged.managesGiven
      intro _
      rw [first, UInt64.le_iff_toNat_le, UInt64.le_iff_toNat_le]
      have small : lower.toNat + 4095 < 2 ^ 64 := by omega
      have start := toNat_pageAlignUp_of_le small
      omega
    · have paged := paged_init lower upper
      rw [pageAllocInit_empty (UInt64.not_lt.mp some_)] at paged ⊢
      apply paged.managesGiven
      intro positive
      cases positive

/-- Bounds with nothing between them, in the last page of the address space, make
the allocator manage pages from address `0` on. -/
theorem not_managesGiven_last_page : ¬ ManagesGiven 18446744073709551615 18446744073709551615
    (pageAllocInit 18446744073709551615 18446744073709551615) :=
  not_managesGiven_of_wrap (by decide) (by decide)

end Given

end TigerOS.Mm
