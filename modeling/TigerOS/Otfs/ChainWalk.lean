import TigerOS.Foundation.Loop
import TigerOS.Otfs.Chain
import Mathlib.Algebra.Order.Floor.Div

/-! # The walk of the validator

The validator follows links it has no reason to trust until it meets `FAT_END`, and only a
counter stops it. The walk ends on every FAT (`TigerOS.Otfs.chainRound_ends`) and accepts
exactly the chains that are long enough for the size of their entry
(`TigerOS.Otfs.validate_entry_chain_exact`); a link that leads to a cycle is refused.
-/

namespace TigerOS.Otfs

open Foundation

/-! ## The loop -/

/-- A round of the loop of `validate_entry_chain`, on `cur` and `blocks`. -/
def chainRound (fat : BlockIndex → UInt32) :
    UInt32 × UInt32 → Except FsError UInt32 ⊕ (UInt32 × UInt32)
  | (cur, blocks) =>
      if cur = fatEnd then .inl (.ok blocks)
      else
        match blockAt? cur with
        | none => .inl (.error .state)
        | some b =>
            if UInt32.ofNat fsDataBlockCount ≤ blocks then .inl (.error .state)
            else .inr (fat b, blocks + 1)

/-- `validate_entry_chain` with its loop as it stands, which may not end: it answers what it
makes of an answer of the loop. -/
def Validates (fs : FsHandle) (entry : DirEntry) (answer : Except FsError Unit) : Prop :=
  let requiredBlocks : UInt32 :=
    (entry.sizeBytes + UInt32.ofNat (fsBlockSize - 1)) / UInt32.ofNat fsBlockSize
  if requiredBlocks = 0 then
    answer = if entry.firstBlock = fatEnd then .ok () else .error .state
  else if entry.firstBlock = fatEnd ∨ blockAt? entry.firstBlock = none then answer = .error .state
  else
    ∃ counted, Answers (chainRound fs.fat) (entry.firstBlock, 0) counted ∧
      answer =
        match counted with
        | .error _ => .error .state
        | .ok blocks => if blocks < requiredBlocks then .error .state else .ok ()

section Walk

variable {fat : BlockIndex → UInt32} {cur blocks : UInt32} {next : UInt32 × UInt32}
  {b : BlockIndex} {counted : Except FsError UInt32}

private theorem chainRound_end : chainRound fat (fatEnd, blocks) = .inl (.ok blocks) := by
  simp only [chainRound, ↓reduceIte]

private theorem chainRound_broken (notEnd : cur ≠ fatEnd) (broken : blockAt? cur = none) :
    chainRound fat (cur, blocks) = .inl (.error .state) := by
  simp only [chainRound, if_neg notEnd, broken]

private theorem chainRound_link : chainRound fat (blockLink b, blocks) =
    if UInt32.ofNat fsDataBlockCount ≤ blocks then .inl (.error .state)
    else .inr (fat b, blocks + 1) := by
  simp only [chainRound, if_neg (blockLink_ne_fatEnd b), blockAt?_blockLink]

/-- A round that goes on follows a link and counts one block more, within the limit. -/
private theorem chainRound_goes (goes : chainRound fat (cur, blocks) = .inr next) :
    ∃ b, cur = blockLink b ∧ blocks.toNat < fsDataBlockCount ∧ next = (fat b, blocks + 1) ∧
      (blocks + 1).toNat = blocks.toNat + 1 := by
  obtain rfl | ⟨b, rfl⟩ | ⟨notEnd, broken⟩ := link_cases cur
  · rw [chainRound_end] at goes
    cases goes
  · rw [chainRound_link] at goes
    split at goes
    · cases goes
    · rename_i within
      have within' : blocks.toNat < fsDataBlockCount :=
        UInt32.lt_iff_toNat_lt.mp (UInt32.not_le.mp within)
      refine ⟨b, rfl, within', (Sum.inr.inj goes).symm, ?_⟩
      rw [UInt32.toNat_add]
      apply Nat.mod_eq_of_lt
      change blocks.toNat < 249 at within'
      change blocks.toNat + 1 < 2 ^ 32
      omega
  · rw [chainRound_broken notEnd broken] at goes
    cases goes

/-- **The walk ends**, wherever the links lead. -/
theorem chainRound_ends (fat : BlockIndex → UInt32) (start : UInt32 × UInt32) :
    ∃ counted, Answers (chainRound fat) start counted := by
  apply exists_answers fun walk => fsDataBlockCount - walk.2.toNat
  rintro ⟨cur, blocks⟩ next goes
  obtain ⟨b, _, within, rfl, counts⟩ := chainRound_goes goes
  simp only [counts]
  omega

/-- What the walk answers, by the loop that counts down. -/
theorem counted_of_answers (answers : Answers (chainRound fat) (cur, blocks) counted)
    (within : blocks.toNat ≤ fsDataBlockCount) :
    counted = (countChain fat (fsDataBlockCount - blocks.toNat) cur).map
      fun more => UInt32.ofNat (blocks.toNat + more) := by
  generalize walk : (cur, blocks) = start at answers
  induction answers generalizing cur blocks with
  | now ends =>
      subst walk
      obtain rfl | ⟨b, rfl⟩ | ⟨notEnd, broken⟩ := link_cases cur
      · rw [chainRound_end] at ends
        rw [countChain_end, ← Sum.inl.inj ends]
        exact congrArg Except.ok UInt32.ofNat_toNat.symm
      · rw [chainRound_link] at ends
        split at ends
        · rename_i full
          have full' : fsDataBlockCount ≤ blocks.toNat := UInt32.le_iff_toNat_le.mp full
          rw [Nat.sub_eq_zero_of_le full', countChain_link_zero, ← Sum.inl.inj ends]
          rfl
        · cases ends
      · rw [chainRound_broken notEnd broken] at ends
        rw [countChain_broken notEnd broken, ← Sum.inl.inj ends]
        rfl
  | later goes rest ih =>
      subst walk
      obtain ⟨b, rfl, below, rfl, counts⟩ := chainRound_goes goes
      obtain ⟨left, remains⟩ := Nat.exists_eq_succ_of_ne_zero (Nat.sub_ne_zero_of_lt below)
      have fewer : fsDataBlockCount - (blocks + 1).toNat = left := by omega
      rw [ih (by omega) rfl, fewer, remains, countChain_link_succ, counts]
      cases countChain fat left (fat b) with
      | error e => rfl
      | ok count =>
          have sum : blocks.toNat + 1 + count = blocks.toNat + (count + 1) := by omega
          exact congrArg (fun total => Except.ok (UInt32.ofNat total)) sum

end Walk

/-! ## The validator -/

section Validator

variable {fs : FsHandle} {entry : DirEntry} {answer : Except FsError Unit}

/-- The counting loop counts no further than its allowance. -/
private theorem countChain_le {fat : BlockIndex → UInt32} {allowance count : ℕ} {link : UInt32}
    (counted : countChain fat allowance link = .ok count) : count ≤ fsDataBlockCount := by
  obtain ⟨blocks, chain, rfl⟩ := chain_of_countChain counted
  exact FatChain.length_le chain

/-- **The validator answers**, and what it answers is what the loop that counts down makes of
the FAT. -/
theorem validates_iff : Validates fs entry answer ↔ validateEntryChain fs entry = answer := by
  unfold Validates validateEntryChain
  simp only
  split
  · exact eq_comm
  · split
    · exact eq_comm
    · obtain ⟨counted, answers⟩ := chainRound_ends fs.fat (entry.firstBlock, 0)
      have counts := counted_of_answers answers (Nat.zero_le _)
      rw [UInt32.toNat_zero, Nat.sub_zero] at counts
      have answered (verdict : Except FsError UInt32 → Except FsError Unit) :
          (∃ counted, Answers (chainRound fs.fat) (entry.firstBlock, 0) counted ∧
            answer = verdict counted) ↔ verdict counted = answer := by
        constructor
        · rintro ⟨other, answers', rfl⟩
          rw [answers.unique answers']
        · rintro rfl
          exact ⟨counted, answers, rfl⟩
      rw [answered, counts]
      cases found : countChain fs.fat fsDataBlockCount entry.firstBlock with
      | error e => exact Iff.rfl
      | ok count =>
          have bound : count ≤ 249 := countChain_le found
          have small : (UInt32.ofNat (0 + count)).toNat = count := by
            rw [Nat.zero_add, UInt32.toNat_ofNat']
            exact Nat.mod_eq_of_lt (bound.trans_lt (by decide))
          simp only [Except.map, UInt32.lt_iff_toNat_lt, small]

/-- What is not accepted is refused as a broken state. -/
theorem validateEntryChain_refuses (refused : validateEntryChain fs entry ≠ .ok ()) :
    validateEntryChain fs entry = .error .state := by
  revert refused
  unfold validateEntryChain
  simp only
  split
  · split
    · exact fun refused => absurd rfl refused
    · exact fun _ => rfl
  · split
    · exact fun _ => rfl
    · split
      · exact fun _ => rfl
      · split
        · exact fun _ => rfl
        · exact fun refused => absurd rfl refused

/-- The blocks that a size asks for, where the sum does not wrap. -/
theorem requiredBlocks_of_sized (sized : entry.sizeBytes.toNat ≤ 2 ^ 32 - fsBlockSize) :
    requiredBlocks entry.sizeBytes = entry.sizeBytes.toNat ⌈/⌉ fsBlockSize := by
  rw [requiredBlocks, Nat.ceilDiv_eq_add_pred_div]
  simp only [fsBlockSize] at sized ⊢
  omega

/-- **Chain validation is exact and ends.** On every FAT the validator answers once, whatever
its cells; it accepts an entry with no bytes and no blocks, and one with bytes whose link
leads through distinct blocks, enough for its size, to `FAT_END`. A chain of all blocks is
among these, and a link that leads to a cycle is refused. -/
theorem validate_entry_chain_exact (fs : FsHandle) (entry : DirEntry)
    (sized : entry.sizeBytes.toNat ≤ 2 ^ 32 - fsBlockSize) :
    (∃! answer, Validates fs entry answer) ∧
    (Validates fs entry (.ok ()) ↔
      (entry.sizeBytes = 0 ∧ entry.firstBlock = fatEnd) ∨
      (0 < entry.sizeBytes ∧ ∃ blocks : List BlockIndex,
        FatChain fs.fat entry.firstBlock blocks ∧ blocks.Nodup ∧
          entry.sizeBytes.toNat ⌈/⌉ fsBlockSize ≤ blocks.length)) ∧
    (∀ blocks : List BlockIndex, FatChain fs.fat entry.firstBlock blocks →
      blocks.length = fsDataBlockCount → 0 < entry.sizeBytes →
        entry.sizeBytes.toNat ≤ fsDataBlockCount * fsBlockSize → Validates fs entry (.ok ())) ∧
    (∀ b, Leads fatTarget fs.fat entry.firstBlock b → Leads fatTarget fs.fat (fs.fat b) b →
      Validates fs entry (.error .state)) := by
  have ceil : requiredBlocks entry.sizeBytes = 0 ↔ entry.sizeBytes = 0 := by
    rw [← UInt32.toNat_inj, UInt32.toNat_zero, requiredBlocks]
    simp only [fsBlockSize] at sized
    omega
  have accepts : Validates fs entry (.ok ()) ↔
      (entry.sizeBytes = 0 ∧ entry.firstBlock = fatEnd) ∨
      (0 < entry.sizeBytes ∧ ∃ blocks : List BlockIndex,
        FatChain fs.fat entry.firstBlock blocks ∧ blocks.Nodup ∧
          entry.sizeBytes.toNat ⌈/⌉ fsBlockSize ≤ blocks.length) := by
    rw [validates_iff, validateEntryChain_eq_ok, ceil, requiredBlocks_of_sized sized]
    by_cases empty : entry.sizeBytes = 0
    · have none_ : ¬ 0 < entry.sizeBytes := empty ▸ UInt32.lt_irrefl 0
      simp only [empty, forall_const, UInt32.toNat_zero, zero_ceilDiv, Nat.zero_le, true_and,
        UInt32.lt_irrefl, false_and, or_false]
      constructor
      · rintro ⟨_, chain, rfl⟩
        exact fatChain_nil.mp chain
      · intro isEnd
        exact ⟨[], fatChain_nil.mpr isEnd, rfl⟩
    · have some_ : 0 < entry.sizeBytes := UInt32.pos_iff_ne_zero.mpr empty
      simp only [empty, false_imp_iff, and_true, false_and, false_or, some_, true_and]
      constructor
      · rintro ⟨blocks, chain, long⟩
        exact ⟨blocks, chain, Chain.nodup chain, long⟩
      · rintro ⟨blocks, chain, _, long⟩
        exact ⟨blocks, chain, long⟩
  refine ⟨⟨validateEntryChain fs entry, validates_iff.mpr rfl,
    fun answer validates => (validates_iff.mp validates).symm⟩, accepts, ?_, ?_⟩
  · intro blocks chain all some_ short
    refine accepts.mpr (.inr ⟨some_, blocks, chain, Chain.nodup chain, ?_⟩)
    rw [all, ceilDiv_le_iff_le_mul (by decide), Nat.mul_comm]
    exact short
  · intro b leads again
    rw [validates_iff]
    apply validateEntryChain_refuses
    rw [ne_eq, validateEntryChain_eq_ok]
    rintro ⟨blocks, chain, _⟩
    exact leads.not_chain again chain

/-- A handle whose FAT has a chain of two blocks and a block that is linked to itself. -/
def tangledHandle : FsHandle where
  imageFile := .empty []
  mounted := true
  dirEntries := fun _ => .zero
  fat := fun b => if b.val = 0 then 1 else if b.val = 1 then fatEnd else 2
  openFiles := fun _ => .zero

/-- Two blocks hold 600 bytes, and the cycle holds none. -/
theorem validate_entry_chain_exact_tangled :
    Validates tangledHandle { DirEntry.zero with firstBlock := 0, sizeBytes := 600 } (.ok ()) ∧
      Validates tangledHandle { DirEntry.zero with firstBlock := 2, sizeBytes := 600 }
        (.error .state) := by
  constructor
  · refine (validate_entry_chain_exact _ _ (by decide)).2.1.mpr
      (.inr ⟨by decide, [⟨0, by decide⟩, ⟨1, by decide⟩], ?_, ?_⟩)
    · exact fatChain_cons.mpr ⟨rfl, fatChain_cons.mpr ⟨rfl, fatChain_nil.mpr rfl⟩⟩
    · exact ⟨by decide, by decide⟩
  · refine (validate_entry_chain_exact _ _ (by decide)).2.2.2 ⟨2, by decide⟩ ?_ ?_
    · exact .here (fatTarget_eq_cell.mpr rfl)
    · exact .here (fatTarget_eq_cell.mpr rfl)

end Validator

end TigerOS.Otfs
