import TigerOS.Mm.ManagedRange

/-! # The accounts of the page allocator

A page is handed out from the call that answers its address to the next call that
frees it. After any calls the bitmap holds exactly the pages handed out and the
count of free pages is the number of the others
(`TigerOS.Mm.Accounted`), so that the contract of the allocator holds in every
state it reaches (`TigerOS.Mm.page_alloc_contract`).
-/

namespace TigerOS.Mm

open Foundation

/-! ## The range -/

/-- The pages of an allocator lie side by side within the bounds given. -/
structure Ranged (lower upper : UInt64) (alloc : PageAllocator) : Prop where
  aligned : 4096 ∣ alloc.rangeStart.toNat
  extent : alloc.rangeStart.toNat + alloc.totalPages.toNat * 4096 = alloc.rangeEnd.toNat
  capped : alloc.totalPages.toNat ≤ pageAllocMaxPages.toNat
  within : 0 < alloc.totalPages.toNat → lower.toNat ≤ alloc.rangeStart.toNat ∧
    0 < alloc.rangeStart.toNat ∧ alloc.rangeEnd.toNat ≤ upper.toNat

/-- The range does not change with the bitmap, the count and the hint. -/
theorem Ranged.congr {lower upper : UInt64} {alloc alloc' : PageAllocator}
    (ranged : Ranged lower upper alloc) (start : alloc'.rangeStart = alloc.rangeStart)
    (stop : alloc'.rangeEnd = alloc.rangeEnd) (total : alloc'.totalPages = alloc.totalPages) :
    Ranged lower upper alloc' := by
  obtain ⟨aligned, extent, capped, within⟩ := ranged
  rw [← start] at aligned
  rw [← start, ← stop, ← total] at extent
  rw [← total] at capped
  rw [← start, ← stop, ← total] at within
  exact ⟨aligned, extent, capped, within⟩

/-- The pages of a range within bounds lie side by side. -/
theorem Ranged.paged {lower upper : UInt64} {alloc : PageAllocator}
    (ranged : Ranged lower upper alloc) : Paged alloc :=
  ⟨ranged.aligned, ranged.extent, ranged.capped⟩

section Range

variable {lower upper addr index : UInt64} {alloc : PageAllocator} {n : ℕ}

theorem ranged_init (positive : 0 < lower) (small : lower.toNat + 4095 < 2 ^ 64) :
    Ranged lower upper (pageAllocInit lower upper) := by
  obtain ⟨aligned, extent, capped⟩ := paged_init lower upper
  refine ⟨aligned, extent, capped, fun some_ => ?_⟩
  have start := toNat_pageAlignUp_of_le small
  have stop := toNat_pageAlignDown upper
  have above : 0 < lower.toNat := positive
  have order : pageAlignUp lower < pageAlignDown upper := by
    by_contra none
    rw [pageAllocInit_empty (UInt64.not_lt.mp none)] at some_
    cases some_
  obtain ⟨_, first, last, _⟩ := pageAllocInit_spec order
  rw [UInt64.le_iff_toNat_le] at last
  rw [first]
  exact ⟨by omega, by omega, by omega⟩

end Range

/-! ## The accounts -/

/-- The pages handed out are those the bitmap holds, and the free ones are
counted. -/
structure Accounted (alloc : PageAllocator) (held : Finset UInt64) : Prop where
  members : ∀ page, page ∈ held ↔ ∃ n < alloc.totalPages.toNat,
    bitAt alloc.allocBitmap n = true ∧ page.toNat = pageAddress alloc n
  counted : alloc.freePages.toNat + held.card = alloc.totalPages.toNat
  hint : 0 < alloc.totalPages.toNat → alloc.nextHint.toNat < alloc.totalPages.toNat

section Accounts

variable {lower upper index page : UInt64} {alloc : PageAllocator} {held : Finset UInt64}

theorem accounted_init (lower upper : UInt64) : Accounted (pageAllocInit lower upper) ∅ := by
  have empty (n : ℕ) : bitAt (fun _ => 0) n = false := BitVec.getLsbD_zero
  have fresh (start stop total : UInt64) :
      Accounted ⟨start, stop, total, total, 0, fun _ => 0⟩ ∅ := by
    refine ⟨fun page => iff_of_false (Finset.notMem_empty _) ?_, rfl, id⟩
    rintro ⟨n, _, set, _⟩
    rw [empty n] at set
    cases set
  unfold pageAllocInit
  simp only
  split
  · exact fresh 0 0 0
  · split
    · exact fresh _ _ _
    · exact fresh _ _ _

/-- Pages that are all handed out are as many as there are. -/
private theorem total_le_card (ranged : Ranged lower upper alloc) (accounted : Accounted alloc held)
    (all : ∀ n < alloc.totalPages.toNat, bitAt alloc.allocBitmap n = true) :
    alloc.totalPages.toNat ≤ held.card := by
  have extent := ranged.extent
  have bound := alloc.rangeEnd.toNat_lt
  have exact_ (n : ℕ) (inside : n < alloc.totalPages.toNat) :
      (UInt64.ofNat (pageAddress alloc n)).toNat = pageAddress alloc n := by
    apply UInt64.toNat_ofNat_of_lt'
    unfold pageAddress
    change _ < 2 ^ 64
    omega
  have members : (Finset.range alloc.totalPages.toNat).image
      (fun n => UInt64.ofNat (pageAddress alloc n)) ⊆ held := by
    intro page member
    obtain ⟨n, inside, rfl⟩ := Finset.mem_image.mp member
    rw [Finset.mem_range] at inside
    exact (accounted.members _).mpr ⟨n, inside, all n inside, exact_ n inside⟩
  have size := Finset.card_le_card members
  rwa [Finset.card_image_of_injOn, Finset.card_range] at size
  intro n inside m inside' same
  rw [Finset.mem_coe, Finset.mem_range] at inside inside'
  apply pageAddress_injective alloc
  have equal := congrArg UInt64.toNat same
  simp only at equal
  rwa [exact_ n inside, exact_ m inside'] at equal

/-! ### The calls -/

/-- **Handing out a page** from a range with a free one. -/
theorem pageAlloc_spec (ranged : Ranged lower upper alloc) (accounted : Accounted alloc held)
    (free : 0 < alloc.freePages) : ∃ index : UInt64, index.toNat < alloc.totalPages.toNat ∧
      (pageAlloc alloc).1.toNat = pageAddress alloc index.toNat ∧ (pageAlloc alloc).1 ∉ held ∧
      Ranged lower upper (pageAlloc alloc).2 ∧
      Accounted (pageAlloc alloc).2 (insert (pageAlloc alloc).1 held) := by
  obtain ⟨members, counted, hint⟩ := accounted
  have positive : 0 < alloc.freePages.toNat := free
  have some_ : 0 < alloc.totalPages.toNat := by omega
  unfold pageAlloc
  rw [if_neg (fun zero => by rw [zero] at positive; cases positive)]
  cases finds : scanFrom alloc alloc.totalPages.toNat 0 with
  | none =>
      have full := total_le_card ranged ⟨members, counted, hint⟩
        fun n inside => allocated_of_scan ranged.capped (hint some_) finds inside
      omega
  | some index =>
      obtain ⟨inside, unset⟩ := scanFrom_sound some_ finds
      rw [bitmapTest_iff] at unset
      have address := ranged.paged.toNat_address inside
      have fresh : alloc.rangeStart + index * pageAllocPageSize ∉ held := by
        intro member
        obtain ⟨n, _, set, same⟩ := (members _).mp member
        obtain rfl := pageAddress_injective alloc (same.symm.trans address)
        exact unset set
      refine ⟨index, inside, address, fresh, ranged.congr rfl rfl rfl, ?_, ?_, fun _ => ?_⟩
      · intro page
        simp only [bitmapSet, bitAt_set, Bool.or_eq_true, decide_eq_true_eq, Finset.mem_insert]
        constructor
        · rintro (rfl | earlier)
          · exact ⟨index.toNat, inside, .inl rfl, address⟩
          · obtain ⟨n, below, set, same⟩ := (members page).mp earlier
            exact ⟨n, below, .inr set, same⟩
        · rintro ⟨n, below, rfl | set, same⟩
          · exact .inl (UInt64.toNat_inj.mp (same.trans address.symm))
          · exact .inr ((members page).mpr ⟨n, below, set, same⟩)
      · have less : (alloc.freePages - 1).toNat = alloc.freePages.toNat - 1 :=
          UInt64.toNat_sub_of_le _ _ (UInt64.le_iff_toNat_le.mpr positive)
        rw [Finset.card_insert_of_notMem fresh]
        simp only [less]
        change _ = alloc.totalPages.toNat
        omega
      · change ((index + 1) % alloc.totalPages).toNat < alloc.totalPages.toNat
        rw [UInt64.toNat_mod]
        exact Nat.mod_lt _ some_

/-- The pages that have an index and are set in the bitmap are those handed out. -/
theorem Accounted.mem_iff (accounted : Accounted alloc held) (ranged : Ranged lower upper alloc) :
    page ∈ held ↔ ∃ index, pageIndexFromAddr alloc page = some index ∧ bitmapTest alloc index := by
  rw [accounted.members]
  have capped : alloc.totalPages.toNat ≤ 131072 := ranged.capped
  constructor
  · rintro ⟨n, below, set, same⟩
    have number : (UInt64.ofNat n).toNat = n :=
      UInt64.toNat_ofNat_of_lt' (by change _ < 2 ^ 64; omega)
    refine ⟨UInt64.ofNat n, ranged.paged.pageIndexFromAddr_eq_some.mpr ?_, ?_⟩
    · rw [number]
      exact ⟨below, same⟩
    · rw [bitmapTest_iff, number]
      exact set
  · rintro ⟨index, finds, set⟩
    obtain ⟨below, same⟩ := ranged.paged.pageIndexFromAddr_eq_some.mp finds
    exact ⟨index.toNat, below, bitmapTest_iff.mp set, same⟩

/-- No page handed out is at address `0`. -/
theorem Accounted.zero_notMem (accounted : Accounted alloc held)
    (ranged : Ranged lower upper alloc) : 0 ∉ held := by
  intro member
  obtain ⟨n, below, _, same⟩ := (accounted.members 0).mp member
  have positive := (ranged.within (by omega)).2.1
  change 0 = pageAddress alloc n at same
  unfold pageAddress at same
  omega

/-- Freeing a page that is not handed out changes nothing. -/
theorem pageFree_refuses (ranged : Ranged lower upper alloc) (accounted : Accounted alloc held)
    (absent : page ∉ held) : pageFree alloc page = (false, alloc) := by
  unfold pageFree
  split
  · rfl
  · split
    · rfl
    · rename_i index finds
      rw [if_pos]
      intro set
      exact absent ((accounted.mem_iff ranged).mpr ⟨index, finds, set⟩)

/-- **Freeing a page** that is handed out. -/
theorem pageFree_spec (ranged : Ranged lower upper alloc) (accounted : Accounted alloc held)
    (member : page ∈ held) : (pageFree alloc page).1 = true ∧
      Ranged lower upper (pageFree alloc page).2 ∧
      Accounted (pageFree alloc page).2 (held.erase page) := by
  obtain ⟨index, finds, set⟩ := (accounted.mem_iff ranged).mp member
  obtain ⟨below, address⟩ := ranged.paged.pageIndexFromAddr_eq_some.mp finds
  have nonzero : page ≠ 0 := by
    rintro rfl
    exact accounted.zero_notMem ranged member
  unfold pageFree
  rw [if_neg nonzero, finds]
  simp only
  rw [if_neg (not_not_intro set)]
  refine ⟨rfl, ranged.congr rfl rfl rfl, ?_, ?_, ?_⟩
  · intro other
    simp only [bitmapClear, bitAt_clear, Bool.and_eq_true, Bool.not_eq_true',
      decide_eq_false_iff_not, Finset.mem_erase, accounted.members other]
    constructor
    · rintro ⟨apart, n, below', set', same⟩
      refine ⟨n, below', ⟨?_, set'⟩, same⟩
      rintro rfl
      exact apart (UInt64.toNat_inj.mp (same.trans address.symm))
    · rintro ⟨n, below', ⟨apart, set'⟩, same⟩
      refine ⟨?_, n, below', set', same⟩
      rintro rfl
      exact apart (pageAddress_injective alloc (same.symm.trans address))
  · have counted := accounted.counted
    have some_ : 0 < held.card := Finset.card_pos.mpr ⟨page, member⟩
    have capped : alloc.totalPages.toNat ≤ 131072 := ranged.capped
    have more : (alloc.freePages + 1).toNat = alloc.freePages.toNat + 1 := by
      rw [UInt64.toNat_add]
      exact Nat.mod_eq_of_lt (by change _ + 1 < _; omega)
    rw [Finset.card_erase_of_mem member]
    simp only [more]
    change _ = alloc.totalPages.toNat
    omega
  · intro some_
    change (if index < alloc.nextHint ∨ alloc.freePages + 1 = 1 then index
      else alloc.nextHint).toNat < alloc.totalPages.toNat
    split
    · exact below
    · exact accounted.hint some_

end Accounts

/-! ## Every run -/

/-- The pages handed out after a call, given those before it: the page it
answered, and without the page it was to free. -/
def handOut (held : Finset UInt64) : PageOp × PageAnswer → Finset UInt64
  | (.alloc, .page address) => if address = 0 then held else insert address held
  | (.alloc, .freed _) => held
  | (.free page, _) => held.erase page

/-- The pages handed out in a run. -/
def handedOut (alloc : PageAllocator) (ops : List PageOp) : Finset UInt64 :=
  (ops.zip (pageAllocator.results alloc ops)).foldl handOut ∅

/-- The contract of the allocator, for a range and the pages handed out. -/
structure Contract (lower upper : UInt64) (alloc : PageAllocator) (held : Finset UInt64) :
    Prop where
  allocates : (pageAlloc alloc).1 ≠ 0 ↔ 0 < alloc.freePages
  address : (pageAlloc alloc).1 ≠ 0 → 4096 ∣ (pageAlloc alloc).1.toNat ∧
    lower.toNat ≤ (pageAlloc alloc).1.toNat ∧
      (pageAlloc alloc).1.toNat + 4096 ≤ upper.toNat ∧ (pageAlloc alloc).1 ∉ held
  frees : ∀ page, (pageFree alloc page).1 = true ↔ page ∈ held
  refuses : ∀ page, page ∉ held → (pageFree alloc page).2 = alloc
  counted : alloc.freePages.toNat + held.card = alloc.totalPages.toNat

section Runs

variable {lower upper : UInt64} {alloc : PageAllocator} {held : Finset UInt64}

theorem Accounted.contract (accounted : Accounted alloc held) (ranged : Ranged lower upper alloc) :
    Contract lower upper alloc held := by
  have empty (none : ¬ 0 < alloc.freePages) : pageAlloc alloc = (0, alloc) := by
    unfold pageAlloc
    rw [if_pos]
    rw [UInt64.lt_iff_toNat_lt, not_lt] at none
    exact UInt64.toNat_inj.mp (Nat.le_zero.mp none)
  have given (free : 0 < alloc.freePages) : 4096 ∣ (pageAlloc alloc).1.toNat ∧
      lower.toNat ≤ (pageAlloc alloc).1.toNat ∧
        (pageAlloc alloc).1.toNat + 4096 ≤ upper.toNat ∧ (pageAlloc alloc).1 ∉ held ∧
          0 < (pageAlloc alloc).1.toNat := by
    obtain ⟨index, inside, address, fresh, _⟩ := pageAlloc_spec ranged accounted free
    obtain ⟨low, positive, high⟩ := ranged.within (by omega)
    have extent := ranged.extent
    have aligned := ranged.aligned
    rw [address]
    unfold pageAddress
    exact ⟨by omega, by omega, by omega, fresh, by omega⟩
  refine ⟨⟨?_, ?_⟩, ?_, ?_, ?_, accounted.counted⟩
  · intro nonzero
    by_contra none
    rw [empty none] at nonzero
    exact nonzero rfl
  · intro free zero
    have positive := (given free).2.2.2.2
    rw [zero] at positive
    cases positive
  · intro nonzero
    by_cases free : 0 < alloc.freePages
    · obtain ⟨aligned, low, high, fresh, _⟩ := given free
      exact ⟨aligned, low, high, fresh⟩
    · rw [empty free] at nonzero
      exact absurd rfl nonzero
  · intro page
    by_cases member : page ∈ held
    · exact iff_of_true (pageFree_spec ranged accounted member).1 member
    · rw [pageFree_refuses ranged accounted member]
      exact iff_of_false Bool.false_ne_true member
  · intro page absent
    rw [pageFree_refuses ranged accounted absent]

/-- Every call keeps the accounts. -/
theorem Accounted.step (accounted : Accounted alloc held) (ranged : Ranged lower upper alloc)
    (op : PageOp) : Ranged lower upper (pageStep alloc op).2 ∧
      Accounted (pageStep alloc op).2 (handOut held (op, (pageStep alloc op).1)) := by
  have contract := accounted.contract ranged
  cases op with
  | alloc =>
      change Ranged lower upper (pageAlloc alloc).2 ∧ Accounted (pageAlloc alloc).2
        (if (pageAlloc alloc).1 = 0 then held else insert (pageAlloc alloc).1 held)
      by_cases free : 0 < alloc.freePages
      · obtain ⟨_, _, _, _, ranged', accounted'⟩ := pageAlloc_spec ranged accounted free
        rw [if_neg (contract.allocates.mpr free)]
        exact ⟨ranged', accounted'⟩
      · have zero : alloc.freePages = 0 := by
          rw [UInt64.lt_iff_toNat_lt, not_lt] at free
          exact UInt64.toNat_inj.mp (Nat.le_zero.mp free)
        unfold pageAlloc
        rw [if_pos zero]
        exact ⟨ranged, accounted⟩
  | free page =>
      change Ranged lower upper (pageFree alloc page).2 ∧
        Accounted (pageFree alloc page).2 (held.erase page)
      by_cases member : page ∈ held
      · exact (pageFree_spec ranged accounted member).2
      · rw [pageFree_refuses ranged accounted member, Finset.erase_eq_of_notMem member]
        exact ⟨ranged, accounted⟩

theorem Accounted.run (accounted : Accounted alloc held) (ranged : Ranged lower upper alloc)
    (ops : List PageOp) : Ranged lower upper (pageAllocator.state alloc ops) ∧
      Accounted (pageAllocator.state alloc ops)
        ((ops.zip (pageAllocator.results alloc ops)).foldl handOut held) := by
  induction ops generalizing alloc held with
  | nil => exact ⟨ranged, accounted⟩
  | cons op ops ih =>
      obtain ⟨ranged', accounted'⟩ := accounted.step ranged op
      exact ih accounted' ranged'

/-- **The contract of the allocator holds after every run** of allocations and of
frees of any addresses, whatever the range it was set up with. -/
theorem page_alloc_contract (lower upper : UInt64) (positive : 0 < lower)
    (small : lower.toNat ≤ 2 ^ 64 - 1 - 4095) (ops : List PageOp) :
    Contract lower upper (pageAllocator.state (pageAllocInit lower upper) ops)
      (handedOut (pageAllocInit lower upper) ops) := by
  have ranged : Ranged lower upper (pageAllocInit lower upper) :=
    ranged_init positive (by omega)
  obtain ⟨ranged', accounted⟩ := (accounted_init lower upper).run ranged ops
  exact accounted.contract ranged'

/-- Two pages are handed out and one of them is freed twice. -/
theorem page_alloc_contract_twice :
    Contract 4096 16384 (pageAllocator.state (pageAllocInit 4096 16384)
      [.alloc, .alloc, .free 4096, .free 4096])
      (handedOut (pageAllocInit 4096 16384) [.alloc, .alloc, .free 4096, .free 4096]) :=
  page_alloc_contract 4096 16384 (by decide) (by decide) _

end Runs

end TigerOS.Mm
