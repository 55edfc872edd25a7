import TigerOS.Foundation.LinkedChain
import TigerOS.Otfs.Handle

/-! # Chains through the FAT

The FAT is a store of linked cells in the sense of `Foundation.Chain`: a link
ends the chain at `FAT_END`, continues it at the block it names, and is broken
otherwise. The validator's loop accepts exactly the links from which a chain
starts (`TigerOS.Otfs.validateEntryChain_eq_ok`).
-/

namespace TigerOS.Otfs

open Foundation

/-- How a FAT link is read. -/
def fatTarget (link : UInt32) : Target BlockIndex :=
  if link = fatEnd then .stop
  else
    match blockAt? link with
    | none => .broken
    | some b => .cell b

/-- Following the FAT from `link` visits exactly `blocks` and ends in
`FAT_END`. -/
abbrev FatChain (fat : BlockIndex → UInt32) (link : UInt32) (blocks : List BlockIndex) : Prop :=
  Chain fatTarget fat link blocks

/-! ## Links -/

theorem toNat_blockLink (b : BlockIndex) : (blockLink b).toNat = b := by
  have bound := b.isLt
  rw [blockLink, UInt32.toNat_ofNat', Nat.mod_eq_of_lt (bound.trans (by decide))]

@[simp] theorem blockAt?_blockLink (b : BlockIndex) : blockAt? (blockLink b) = some b := by
  simp only [blockAt?, toNat_blockLink, b.isLt, ↓reduceDIte, Fin.eta]

theorem blockAt?_eq_some {link : UInt32} {b : BlockIndex} :
    blockAt? link = some b ↔ link = blockLink b := by
  constructor
  · intro names
    simp only [blockAt?] at names
    split at names
    · apply UInt32.toNat_inj.mp
      rw [toNat_blockLink, ← Option.some.inj names]
    · cases names
  · rintro rfl
    exact blockAt?_blockLink b

@[simp] theorem blockAt?_fatEnd : blockAt? fatEnd = none := by decide

@[simp] theorem blockAt?_fatFree : blockAt? fatFree = none := by decide

@[simp] theorem blockLink_ne_fatEnd (b : BlockIndex) : blockLink b ≠ fatEnd := by
  intro same
  have names := blockAt?_blockLink b
  rw [same, blockAt?_fatEnd] at names
  cases names

@[simp] theorem blockLink_ne_fatFree (b : BlockIndex) : blockLink b ≠ fatFree := by
  intro same
  have names := blockAt?_blockLink b
  rw [same, blockAt?_fatFree] at names
  cases names

theorem fatEnd_ne_fatFree : fatEnd ≠ fatFree := by decide

@[simp] theorem fatTarget_eq_stop {link : UInt32} : fatTarget link = .stop ↔ link = fatEnd := by
  simp only [fatTarget]
  split
  · simp [*]
  · split <;> simp [*]

@[simp] theorem fatTarget_eq_cell {link : UInt32} {b : BlockIndex} :
    fatTarget link = .cell b ↔ link = blockLink b := by
  rw [← blockAt?_eq_some, fatTarget]
  split
  · rename_i isEnd
    simp [isEnd]
  · split <;> simp [*]

/-- A link ends a chain, names a block, or is broken. -/
theorem link_cases (link : UInt32) : link = fatEnd ∨ (∃ b, link = blockLink b) ∨
    (link ≠ fatEnd ∧ blockAt? link = none) := by
  by_cases isEnd : link = fatEnd
  · exact .inl isEnd
  · cases named : blockAt? link with
    | none => exact .inr (.inr ⟨isEnd, rfl⟩)
    | some b => exact .inr (.inl ⟨b, blockAt?_eq_some.mp named⟩)

/-! ## Chains -/

section Chains

variable {fat : BlockIndex → UInt32} {link : UInt32} {blocks : List BlockIndex} {b : BlockIndex}

@[simp] theorem fatChain_nil : FatChain fat link [] ↔ link = fatEnd := by
  rw [FatChain, chain_nil, fatTarget_eq_stop]

@[simp] theorem fatChain_cons :
    FatChain fat link (b :: blocks) ↔ link = blockLink b ∧ FatChain fat (fat b) blocks := by
  rw [FatChain, chain_cons, fatTarget_eq_cell]

/-- The cell of a block on a chain ends the chain or continues it. -/
theorem FatChain.cell_links (chain : FatChain fat link blocks) (member : b ∈ blocks) :
    fat b = fatEnd ∨ ∃ c, fat b = blockLink c := by
  obtain ⟨before, rest, rfl⟩ := List.append_of_mem member
  have tail : FatChain fat (fat b) rest := Chain.after chain
  cases rest with
  | nil => exact .inl (fatChain_nil.mp tail)
  | cons next rest => exact .inr ⟨next, (fatChain_cons.mp tail).1⟩

/-- The cell of a block on a chain is not free. -/
theorem FatChain.cell_ne_free (chain : FatChain fat link blocks) (member : b ∈ blocks) :
    fat b ≠ fatFree := by
  obtain isEnd | ⟨c, linked⟩ := chain.cell_links member
  · rw [isEnd]
    exact fatEnd_ne_fatFree
  · rw [linked]
    exact blockLink_ne_fatFree c

theorem FatChain.eq_nil_iff (chain : FatChain fat link blocks) : blocks = [] ↔ link = fatEnd := by
  cases blocks with
  | nil => simp only [fatChain_nil.mp chain]
  | cons b blocks => simp [(fatChain_cons.mp chain).1]

theorem FatChain.length_le (chain : FatChain fat link blocks) :
    blocks.length ≤ fsDataBlockCount := by
  simpa using Chain.length_le chain

/-- Linking a free block after the last block of a chain. -/
theorem FatChain.append {before : List BlockIndex} {cur : BlockIndex}
    (chain : FatChain fat link (before ++ [cur])) (fresh : fat b = fatFree) :
    FatChain (Function.update (Function.update fat b fatEnd) cur (blockLink b)) link
      (before ++ [cur] ++ [b]) := by
  have unlinked : ∀ c ∈ before ++ [cur], c ≠ b := fun c member same =>
    FatChain.cell_ne_free chain member (same ▸ fresh)
  have notBefore : cur ∉ before := by
    have nodup := Chain.nodup chain
    rw [List.nodup_append] at nodup
    intro member
    exact nodup.2.2 cur member cur (by simp) rfl
  rw [List.append_assoc]
  refine Chain.replaceTail chain ?_ ?_
  · intro visited member
    have other : visited ≠ cur := fun same => notBefore (same ▸ member)
    rw [Function.update_of_ne other,
      Function.update_of_ne (unlinked visited (List.mem_append_left _ member))]
  · refine fatChain_cons.mpr ⟨Function.update_self .., fatChain_nil.mpr ?_⟩
    rw [Function.update_of_ne (unlinked cur (by simp)).symm, Function.update_self]

theorem countChain_end (allowance : ℕ) : countChain fat allowance fatEnd = .ok 0 := by
  rw [countChain, if_pos rfl]

theorem countChain_broken {allowance : ℕ} (notEnd : link ≠ fatEnd)
    (broken : blockAt? link = none) : countChain fat allowance link = .error .state := by
  rw [countChain, if_neg notEnd, broken]

theorem countChain_link_zero : countChain fat 0 (blockLink b) = .error .state := by
  rw [countChain, if_neg (blockLink_ne_fatEnd b), blockAt?_blockLink]

theorem countChain_link_succ {allowance : ℕ} :
    countChain fat (allowance + 1) (blockLink b) =
      (countChain fat allowance (fat b)).map (· + 1) := by
  rw [countChain, if_neg (blockLink_ne_fatEnd b), blockAt?_blockLink]

/-- The counting loop counts the blocks of a chain within its allowance. -/
theorem countChain_of_chain {allowance : ℕ} (chain : FatChain fat link blocks)
    (within : blocks.length ≤ allowance) :
    countChain fat allowance link = .ok blocks.length := by
  induction blocks generalizing link allowance with
  | nil => rw [fatChain_nil.mp chain, countChain_end, List.length_nil]
  | cons b blocks ih =>
      obtain ⟨rfl, tail⟩ := fatChain_cons.mp chain
      obtain ⟨allowance, rfl⟩ := Nat.exists_eq_succ_of_ne_zero
        (by simp at within; omega : allowance ≠ 0)
      rw [countChain_link_succ, ih tail (by simpa using within)]
      rfl

/-- What the counting loop accepts is a chain. -/
theorem chain_of_countChain {allowance count : ℕ}
    (counted : countChain fat allowance link = .ok count) :
    ∃ blocks, FatChain fat link blocks ∧ blocks.length = count := by
  induction allowance generalizing link count with
  | zero =>
      obtain rfl | ⟨b, rfl⟩ | ⟨notEnd, broken⟩ := link_cases link
      · rw [countChain_end] at counted
        exact ⟨[], by simp, Except.ok.inj counted⟩
      · rw [countChain_link_zero] at counted
        cases counted
      · rw [countChain_broken notEnd broken] at counted
        cases counted
  | succ allowance ih =>
      obtain rfl | ⟨b, rfl⟩ | ⟨notEnd, broken⟩ := link_cases link
      · rw [countChain_end] at counted
        exact ⟨[], by simp, Except.ok.inj counted⟩
      · rw [countChain_link_succ] at counted
        cases rest : countChain fat allowance (fat b) with
        | error e => rw [rest] at counted; cases counted
        | ok n =>
            rw [rest] at counted
            obtain ⟨blocks, chain, sized⟩ := ih rest
            exact ⟨b :: blocks, fatChain_cons.mpr ⟨rfl, chain⟩,
              by rw [List.length_cons, sized]; exact Except.ok.inj counted⟩
      · rw [countChain_broken notEnd broken] at counted
        cases counted

/-- The number of blocks the validator requires, in its wrapping arithmetic. -/
def requiredBlocks (size : UInt32) : ℕ := (size.toNat + 511) % 2 ^ 32 / 512

/-- The validator accepts an entry exactly when its link starts a chain of the
required length, and a chain of no blocks where none is required. -/
theorem validateEntryChain_eq_ok {fs : FsHandle} {entry : DirEntry} :
    validateEntryChain fs entry = .ok () ↔
      ∃ blocks, FatChain fs.fat entry.firstBlock blocks ∧
        requiredBlocks entry.sizeBytes ≤ blocks.length ∧
        (requiredBlocks entry.sizeBytes = 0 → blocks = []) := by
  have required : ((entry.sizeBytes + UInt32.ofNat (fsBlockSize - 1)) /
      UInt32.ofNat fsBlockSize).toNat = requiredBlocks entry.sizeBytes := by
    rw [UInt32.toNat_div, UInt32.toNat_add]
    rfl
  have zero : (entry.sizeBytes + UInt32.ofNat (fsBlockSize - 1)) / UInt32.ofNat fsBlockSize = 0 ↔
      requiredBlocks entry.sizeBytes = 0 := by
    rw [← required, ← UInt32.toNat_inj, UInt32.toNat_zero]
  simp only [validateEntryChain, zero, required]
  by_cases none : requiredBlocks entry.sizeBytes = 0
  · simp only [none, ↓reduceIte, forall_const, Nat.zero_le, true_and]
    constructor
    · intro accepted
      split at accepted
      · rename_i isEnd
        exact ⟨[], fatChain_nil.mpr isEnd, rfl⟩
      · cases accepted
    · rintro ⟨blocks, chain, empty⟩
      rw [if_pos ((FatChain.eq_nil_iff chain).mp empty)]
  · simp only [none, ↓reduceIte, false_imp_iff, and_true]
    constructor
    · intro accepted
      split at accepted
      · cases accepted
      · cases counted : countChain fs.fat fsDataBlockCount entry.firstBlock with
        | error e => rw [counted] at accepted; cases accepted
        | ok count =>
            obtain ⟨blocks, chain, rfl⟩ := chain_of_countChain counted
            simp only [counted, ite_eq_right_iff, reduceCtorEq, imp_false, not_lt] at accepted
            exact ⟨blocks, chain, accepted⟩
    · rintro ⟨blocks, chain, long⟩
      cases blocks with
      | nil => exact absurd (Nat.le_zero.mp long) none
      | cons b blocks =>
          have first := (fatChain_cons.mp chain).1
          rw [countChain_of_chain chain (FatChain.length_le chain), first, if_neg (by simp)]
          simpa using long

end Chains

/-! ## Free blocks -/

/-- The free blocks in the order the allocator takes them. -/
def freeBlocks (fat : BlockIndex → UInt32) : List BlockIndex :=
  (List.finRange fsDataBlockCount).filter fun b => fat b = fatFree

section Free

variable {fat : BlockIndex → UInt32} {b : BlockIndex} {link : UInt32}

@[simp] theorem mem_freeBlocks : b ∈ freeBlocks fat ↔ fat b = fatFree := by
  simp [freeBlocks]

theorem nodup_freeBlocks : (freeBlocks fat).Nodup :=
  (List.nodup_finRange _).filter _

/-- The allocator finds the first free block. -/
theorem find?_free : (List.finRange fsDataBlockCount).find? (fun index => fat index = fatFree) =
    (freeBlocks fat).head? := by
  rw [freeBlocks, List.head?_filter]

/-- Writing a link into a used cell leaves the free blocks. -/
theorem freeBlocks_update_used (used : fat b ≠ fatFree) (isLink : link ≠ fatFree) :
    freeBlocks (Function.update fat b link) = freeBlocks fat := by
  apply List.filter_congr
  intro other _
  by_cases same : other = b
  · subst same
    simp [used, isLink]
  · simp [Function.update_of_ne same]

/-- Writing a link into the first free cell uses it up. -/
theorem freeBlocks_update_head {rest : List BlockIndex} (free : freeBlocks fat = b :: rest)
    (isLink : link ≠ fatFree) : freeBlocks (Function.update fat b link) = rest := by
  have nodup : (b :: rest).Nodup := free ▸ nodup_freeBlocks
  have without : freeBlocks (Function.update fat b link) =
      (freeBlocks fat).filter fun other => other ≠ b := by
    rw [freeBlocks, freeBlocks, List.filter_filter]
    apply List.filter_congr
    intro other _
    by_cases same : other = b
    · subst same
      simp [isLink]
    · simp [same]
  rw [without, free, List.filter_cons_of_neg (by simp), List.filter_eq_self]
  intro other member
  have apart : other ≠ b := fun same => (List.nodup_cons.mp nodup).1 (same ▸ member)
  simpa using apart

end Free

end TigerOS.Otfs
