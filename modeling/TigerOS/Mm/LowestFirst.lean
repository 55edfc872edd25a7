import TigerOS.Mm.ManagedRange

/-! # The lowest page first

`page_alloc` scans from a hint that moves past the page handed out and around the end
of the range, and `page_free` moves the hint back only to a page before it, or to
the only free one. Still no page before the hint is ever free
(`TigerOS.Mm.Hinted.step`), so that after every run the page handed out next is the
free one with the smallest address (`TigerOS.Mm.page_alloc_lowest_first`).
-/

namespace TigerOS.Mm

open Foundation

/-- A page of the range that is not handed out. -/
def FreePage (alloc : PageAllocator) (index : UInt64) : Prop :=
  index < alloc.totalPages ∧ ¬ bitmapTest alloc index

/-- The numbers of the free pages. -/
def freeIndices (alloc : PageAllocator) : Finset ℕ :=
  (Finset.range alloc.totalPages.toNat).filter (bitAt alloc.allocBitmap · = false)

/-- The hint has only pages handed out before it, and the free pages are counted. -/
structure Hinted (alloc : PageAllocator) : Prop where
  earlier : ∀ n < alloc.nextHint.toNat, bitAt alloc.allocBitmap n = true
  hint : 0 < alloc.totalPages.toNat → alloc.nextHint.toNat < alloc.totalPages.toNat
  counted : alloc.freePages.toNat = (freeIndices alloc).card

/-- The pages before the hint are handed out, and the next page handed out is the
free one with the smallest address. -/
structure LowestFirst (alloc : PageAllocator) : Prop where
  earlier : ∀ index < alloc.nextHint, bitmapTest alloc index
  lowest : ∀ index, FreePage alloc index → ∃ first, FreePage alloc first ∧
    (pageAlloc alloc).1 = alloc.rangeStart + first * pageAllocPageSize ∧
    (pageAlloc alloc).1 ≤ alloc.rangeStart + index * pageAllocPageSize

section Hint

variable {alloc : PageAllocator} {index page : UInt64} {n : ℕ}

theorem mem_freeIndices : n ∈ freeIndices alloc ↔
    n < alloc.totalPages.toNat ∧ bitAt alloc.allocBitmap n = false := by
  rw [freeIndices, Finset.mem_filter, Finset.mem_range]

theorem freePage_iff : FreePage alloc index ↔ index.toNat ∈ freeIndices alloc := by
  rw [mem_freeIndices, FreePage, UInt64.lt_iff_toNat_lt, bitmapTest_iff, Bool.not_eq_true]

theorem hinted_init (lower upper : UInt64) : Hinted (pageAllocInit lower upper) := by
  have fresh (start stop total : UInt64) :
      Hinted ⟨start, stop, total, total, 0, fun _ => 0⟩ := by
    refine ⟨fun n before => absurd before (Nat.not_lt_zero n), id, ?_⟩
    have all : freeIndices ⟨start, stop, total, total, 0, fun _ => 0⟩ =
        Finset.range total.toNat :=
      Finset.filter_true_of_mem fun n _ => BitVec.getLsbD_zero
    rw [all, Finset.card_range]
  unfold pageAllocInit
  simp only
  split
  · exact fresh 0 0 0
  · split
    · exact fresh _ _ _
    · exact fresh _ _ _

/-- Where there is a free page, the scan finds the first one. -/
theorem Hinted.scan (hinted : Hinted alloc) (paged : Paged alloc)
    (free : n ∈ freeIndices alloc) : ∃ index : UInt64,
      scanFrom alloc alloc.totalPages.toNat 0 = some index ∧
      index.toNat ∈ freeIndices alloc ∧
      ∀ m < index.toNat, bitAt alloc.allocBitmap m = true := by
  obtain ⟨inside, unset⟩ := mem_freeIndices.mp free
  have some_ := Nat.zero_lt_of_lt inside
  cases finds : scanFrom alloc alloc.totalPages.toNat 0 with
  | none =>
      have set := allocated_of_scan paged.capped (hinted.hint some_) finds inside
      rw [set] at unset
      cases unset
  | some index =>
      obtain ⟨inside', unset'⟩ := scanFrom_sound some_ finds
      rw [bitmapTest_iff, Bool.not_eq_true] at unset'
      exact ⟨index, rfl, mem_freeIndices.mpr ⟨inside', unset'⟩, fun m below =>
        least_of_scan paged.capped (hinted.hint some_) hinted.earlier finds below⟩

theorem Hinted.freePages_ne_zero (hinted : Hinted alloc) (free : n ∈ freeIndices alloc) :
    alloc.freePages ≠ 0 := by
  intro zero
  have counted := hinted.counted
  rw [zero] at counted
  exact Finset.notMem_empty n (Finset.card_eq_zero.mp counted.symm ▸ free)

/-- What `page_alloc` does where a page is free: it hands out the first one. -/
theorem Hinted.pageAlloc_eq (hinted : Hinted alloc) (paged : Paged alloc)
    (free : n ∈ freeIndices alloc) : ∃ index : UInt64, index.toNat ∈ freeIndices alloc ∧
      (∀ m < index.toNat, bitAt alloc.allocBitmap m = true) ∧
      pageAlloc alloc = (alloc.rangeStart + index * pageAllocPageSize,
        { bitmapSet alloc index with
          freePages := alloc.freePages - 1
          nextHint := (index + 1) % alloc.totalPages }) := by
  obtain ⟨index, finds, member, earlier⟩ := hinted.scan paged free
  refine ⟨index, member, earlier, ?_⟩
  unfold pageAlloc
  rw [if_neg (hinted.freePages_ne_zero free), finds]

/-- Without a free page, `page_alloc` does nothing. -/
theorem Hinted.pageAlloc_full (hinted : Hinted alloc) (full : freeIndices alloc = ∅) :
    pageAlloc alloc = (0, alloc) := by
  unfold pageAlloc
  rw [if_pos]
  apply UInt64.toNat_inj.mp
  rw [hinted.counted, full]
  rfl

private theorem freeIndices_set (index total hint : UInt64) :
    freeIndices { bitmapSet alloc index with freePages := total, nextHint := hint } =
      (freeIndices alloc).erase index.toNat := by
  ext n
  rw [Finset.mem_erase, mem_freeIndices, mem_freeIndices]
  change _ ∧ bitAt (bitmapSet alloc index).allocBitmap n = false ↔ _
  rw [bitmapSet, bitAt_set, Bool.or_eq_false_iff, decide_eq_false_iff_not, and_left_comm]

private theorem freeIndices_clear (index total hint : UInt64)
    (inside : index.toNat < alloc.totalPages.toNat) :
    freeIndices { bitmapClear alloc index with freePages := total, nextHint := hint } =
      insert index.toNat (freeIndices alloc) := by
  ext n
  rw [Finset.mem_insert, mem_freeIndices, mem_freeIndices]
  change n < alloc.totalPages.toNat ∧ bitAt (bitmapClear alloc index).allocBitmap n = false ↔ _
  rw [bitmapClear, bitAt_clear, Bool.and_eq_false_iff, Bool.not_eq_false', decide_eq_true_eq]
  constructor
  · rintro ⟨below, here | unset⟩
    · exact .inl here
    · exact .inr ⟨below, unset⟩
  · rintro (rfl | ⟨below, unset⟩)
    · exact ⟨inside, .inl rfl⟩
    · exact ⟨below, .inr unset⟩

/-- Handing out a page keeps the pages before the hint handed out: the hint moves past
the first free page, or around to the first page. -/
theorem Hinted.kept_alloc (hinted : Hinted alloc) (paged : Paged alloc) :
    Hinted (pageAlloc alloc).2 := by
  rcases (freeIndices alloc).eq_empty_or_nonempty with full | ⟨n, free⟩
  · rw [hinted.pageAlloc_full full]
    exact hinted
  obtain ⟨index, member, earlier, result⟩ := hinted.pageAlloc_eq paged free
  have inside := (mem_freeIndices.mp member).1
  have capped : alloc.totalPages.toNat ≤ 131072 := paged.capped
  have next : ((index + 1) % alloc.totalPages).toNat =
      (index.toNat + 1) % alloc.totalPages.toNat := by
    rw [UInt64.toNat_mod, UInt64.toNat_add]
    change (index.toNat + 1) % 2 ^ 64 % _ = _
    rw [Nat.mod_eq_of_lt (by omega : index.toNat + 1 < 2 ^ 64)]
  rw [result]
  refine ⟨?_, fun _ => ?_, ?_⟩
  · intro m before
    change bitAt (bitmapSet alloc index).allocBitmap m = true
    change m < ((index + 1) % alloc.totalPages).toNat at before
    have before' := before.trans_le (next.trans_le (Nat.mod_le _ _))
    rw [bitmapSet, bitAt_set, Bool.or_eq_true, decide_eq_true_eq]
    rcases Nat.eq_or_lt_of_le (Nat.le_of_lt_succ before') with here | below
    · exact .inl here
    · exact .inr (earlier m below)
  · change ((index + 1) % alloc.totalPages).toNat < alloc.totalPages.toNat
    rw [next]
    exact Nat.mod_lt _ (Nat.zero_lt_of_lt inside)
  · have positive : 1 ≤ alloc.freePages := by
      rw [UInt64.le_iff_toNat_le, hinted.counted]
      exact Finset.card_pos.mpr ⟨_, member⟩
    rw [freeIndices_set, Finset.card_erase_of_mem member, ← hinted.counted]
    exact UInt64.toNat_sub_of_le _ _ positive

/-- Freeing a page keeps the pages before the hint handed out: the hint moves to a page
before it, and to the only free page. -/
theorem Hinted.kept_free (hinted : Hinted alloc) (paged : Paged alloc) (page : UInt64) :
    Hinted (pageFree alloc page).2 := by
  unfold pageFree
  split
  · exact hinted
  split
  · exact hinted
  split
  · exact hinted
  rename_i index finds set
  rw [not_not, bitmapTest_iff] at set
  have inside := (paged.pageIndexFromAddr_eq_some.mp finds).1
  have held : index.toNat ∉ freeIndices alloc := by
    rw [mem_freeIndices, set]
    exact fun free => Bool.noConfusion free.2
  have capped : alloc.totalPages.toNat ≤ 131072 := paged.capped
  have size : (freeIndices alloc).card ≤ alloc.totalPages.toNat := by
    have bound := Finset.card_filter_le (Finset.range alloc.totalPages.toNat)
      (bitAt alloc.allocBitmap · = false)
    rwa [Finset.card_range] at bound
  have more : (alloc.freePages + 1).toNat = alloc.freePages.toNat + 1 := by
    have counted := hinted.counted
    rw [UInt64.toNat_add]
    exact Nat.mod_eq_of_lt (by change _ + 1 < _; omega)
  have some_ := Nat.zero_lt_of_lt inside
  refine ⟨?_, fun _ => ?_, ?_⟩
  · intro m before
    change bitAt (bitmapClear alloc index).allocBitmap m = true
    change m < (if index < alloc.nextHint ∨ alloc.freePages + 1 = 1 then index
      else alloc.nextHint).toNat at before
    rw [bitmapClear, bitAt_clear, Bool.and_eq_true, Bool.not_eq_true', decide_eq_false_iff_not]
    split at before
    · rename_i moves
      refine ⟨Nat.ne_of_lt before, ?_⟩
      rcases moves with back | only
      · exact hinted.earlier m (before.trans (UInt64.lt_iff_toNat_lt.mp back))
      · -- The page freed is the only free one, so that all others are handed out.
        have one := congrArg UInt64.toNat only
        change (alloc.freePages + 1).toNat = 1 at one
        have none : freeIndices alloc = ∅ := by
          apply Finset.card_eq_zero.mp
          rw [← hinted.counted]
          omega
        by_contra unset
        rw [Bool.not_eq_true] at unset
        have free := mem_freeIndices.mpr ⟨before.trans inside, unset⟩
        rw [none] at free
        exact Finset.notMem_empty m free
    · rename_i stays
      rw [not_or, UInt64.not_lt, UInt64.le_iff_toNat_le] at stays
      exact ⟨Nat.ne_of_lt (before.trans_le stays.1), hinted.earlier m before⟩
  · change (if index < alloc.nextHint ∨ alloc.freePages + 1 = 1 then index
      else alloc.nextHint).toNat < alloc.totalPages.toNat
    split
    · exact inside
    · exact hinted.hint some_
  · rw [freeIndices_clear index _ _ inside, Finset.card_insert_of_notMem held, ← hinted.counted]
    exact more

/-- A hint with no free page before it makes the lowest page the next one. -/
theorem Hinted.lowestFirst (hinted : Hinted alloc) (paged : Paged alloc) : LowestFirst alloc := by
  constructor
  · intro index before
    exact bitmapTest_iff.mpr (hinted.earlier _ (UInt64.lt_iff_toNat_lt.mp before))
  · intro index free
    rw [freePage_iff] at free
    obtain ⟨first, member, earlier, result⟩ := hinted.pageAlloc_eq paged free
    refine ⟨first, freePage_iff.mpr member, congrArg Prod.fst result, ?_⟩
    have inside := (mem_freeIndices.mp free).1
    have least : first.toNat ≤ index.toNat := by
      by_contra above
      have set := earlier _ (Nat.lt_of_not_le above)
      rw [(mem_freeIndices.mp free).2] at set
      cases set
    rw [result, UInt64.le_iff_toNat_le]
    simp only
    rw [paged.toNat_address inside, paged.toNat_address (least.trans_lt inside)]
    exact Nat.add_le_add_left (Nat.mul_le_mul_right 4096 least) _

/-- Every call keeps the hint. -/
theorem Hinted.step (hinted : Hinted alloc) (paged : Paged alloc) (op : PageOp) :
    Paged (pageStep alloc op).2 ∧ Hinted (pageStep alloc op).2 := by
  refine ⟨paged.congr (sameRange_step alloc op), ?_⟩
  cases op with
  | alloc => exact hinted.kept_alloc paged
  | free page => exact hinted.kept_free paged page

end Hint

/-- After every run the pages lie side by side and the hint is kept. -/
theorem hinted_run (lower upper : UInt64) (ops : List PageOp) :
    Paged (pageAllocator.state (pageAllocInit lower upper) ops) ∧
      Hinted (pageAllocator.state (pageAllocInit lower upper) ops) :=
  @Machine.state_invariant _ _ _ pageAllocator (fun alloc => Paged alloc ∧ Hinted alloc)
    (fun _ op holds => holds.2.step holds.1 op) _
    ⟨paged_init lower upper, hinted_init lower upper⟩ ops

/-- **The allocator hands out the lowest page first**, after every run of
allocations and of frees of any addresses and whatever the range. -/
theorem page_alloc_lowest_first (lower upper : UInt64) (ops : List PageOp) :
    LowestFirst (pageAllocator.state (pageAllocInit lower upper) ops) := by
  obtain ⟨paged, hinted⟩ := hinted_run lower upper ops
  exact hinted.lowestFirst paged

end TigerOS.Mm
