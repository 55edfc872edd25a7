import Mathlib.Algebra.BigOperators.Fin
import TigerOS.Otfs.Step

/-! # Space

The blocks of the files and the free blocks make up the image
(`TigerOS.Otfs.Sound.space`). A write is answered by its demand: it succeeds exactly where
the blocks of its file and the free blocks reach the end of its range, and otherwise takes
all of them and stores what they hold (`TigerOS.Otfs.Sound.fsWrite_stores`,
`TigerOS.Otfs.Sound.fsWrite_fills`). A read past the blocks of its file stops at their end
(`TigerOS.Otfs.Sound.fsRead_exact`).
-/

namespace TigerOS.Otfs

open Foundation

section Space

variable {fs mid : FsHandle} {chains : FileIndex → List BlockIndex} {fd : ℤ} {slot : Descriptor}
  {buf : SourceBuffer}

theorem Separate.nodup (separate : Separate fs chains) (i : FileIndex) : (chains i).Nodup := by
  by_cases used : Used fs i
  · exact Chain.nodup (separate.chain i used)
  · rw [separate.unused i used]
    exact List.nodup_nil

/-- **Every block** is free or belongs to one file. -/
theorem Sound.space (sound : Sound fs chains) :
    ∑ i, (chains i).length + (freeBlocks fs.fat).length = fsDataBlockCount := by
  classical
  let held : Finset BlockIndex := Finset.univ.biUnion fun i => (chains i).toFinset
  have heldCard : held.card = ∑ i, (chains i).length := by
    rw [Finset.card_biUnion]
    · exact Finset.sum_congr rfl fun i _ =>
        List.toFinset_card_of_nodup (sound.toSeparate.nodup i)
    · intro i _ j _ distinct
      exact List.disjoint_toFinset_iff_disjoint.mpr (sound.apart i j distinct)
  have freeCard : (freeBlocks fs.fat).toFinset.card = (freeBlocks fs.fat).length :=
    List.toFinset_card_of_nodup nodup_freeBlocks
  have apart : Disjoint held (freeBlocks fs.fat).toFinset := by
    rw [Finset.disjoint_left]
    intro b member free
    obtain ⟨i, _, inChain⟩ := Finset.mem_biUnion.mp member
    rw [List.mem_toFinset] at inChain free
    have used : Used fs i := by
      by_contra unused
      rw [sound.unused i unused] at inChain
      cases inChain
    exact FatChain.cell_ne_free (sound.chain i used) inChain (mem_freeBlocks.mp free)
  have whole : held ∪ (freeBlocks fs.fat).toFinset = Finset.univ := by
    rw [Finset.eq_univ_iff_forall]
    intro b
    rw [Finset.mem_union, List.mem_toFinset, mem_freeBlocks]
    by_cases free : fs.fat b = fatFree
    · exact .inr free
    · obtain ⟨i, member⟩ := sound.covered b free
      exact .inl (Finset.mem_biUnion.mpr ⟨i, Finset.mem_univ i, List.mem_toFinset.mpr member⟩)
  rw [← heldCard, ← freeCard, ← Finset.card_union_of_disjoint apart, whole, Finset.card_univ,
    Fintype.card_fin]

/-- **Reads.** A read answers its bytes where the blocks of its file reach their end, and
otherwise stops at the end of the blocks. -/
theorem Sound.fsRead_exact {hasBuf : Bool} {len : ℕ} (sound : Sound fs chains)
    (named : Names fs fd slot) (buffer : ¬ (len ≠ 0 ∧ hasBuf = false))
    (reads : (fs.openFiles slot).flags &&& fsORead ≠ 0) :
    fsRead fs fd hasBuf len =
      if readable fs slot len ≤
          fsBlockSize * (chains (fs.openFiles slot).dirIndex).length -
            (fs.openFiles slot).offset.toNat then
        (.ok (readRange (contentAt fs.imageFile (chains (fs.openFiles slot).dirIndex))
          (fs.openFiles slot).offset.toNat (readable fs slot len)),
          fs.advance slot (readable fs slot len))
      else (.error .state, fs.advance slot
        (fsBlockSize * (chains (fs.openFiles slot).dirIndex).length -
          (fs.openFiles slot).offset.toNat)) := by
  have chain := sound.chain _ (sound.opened slot named.2)
  rw [fsRead_loops sound.mounted named buffer reads]
  split
  · rename_i within
    obtain answered | ⟨_, incomplete⟩ := @readLoop_eq _ _ slot fs (readable fs slot len)
      (readable fs slot len) le_rfl sound.faultless chain fun _ => by omega
    · exact answered
    · exact absurd sound.complete incomplete
  · rename_i past
    exact readLoop_stops fs _ _ le_rfl (by omega) sound.faultless sound.complete chain (by omega)

/-- A write that runs out of space did so in its loop. -/
theorem writeLoop_of_noSpace (mounted : fs.mounted = true) (named : Names fs fd slot)
    (buffer : ¬ buf.Missing) (writes : (fs.openFiles slot).flags &&& fsOWrite ≠ 0)
    (fails : fsWrite fs fd buf = (.error .noSpace, mid)) :
    writeLoop slot (fs.openFiles slot).dirIndex buf.data.length fs buf.data =
      (.error .noSpace, mid) := by
  rw [fsWrite_loops mounted named buffer writes] at fails
  revert fails
  generalize writeLoop slot (fs.openFiles slot).dirIndex buf.data.length fs buf.data = out
  obtain ⟨e | done, after⟩ := out
  · intro fails
    cases fails
    rfl
  · simp only [finishWrite_grown]
    generalize syncMetadata (grown after slot (fs.openFiles slot).dirIndex) = out
    obtain ⟨e | flushed, final⟩ := out
    · intro fails
      cases fails
    · intro fails
      cases fails

/-- **Writes with enough blocks** store their bytes, record the size and flush. -/
theorem Sound.fsWrite_stores (sound : Sound fs chains) (named : Names fs fd slot)
    (buffer : ¬ buf.Missing) (writes : (fs.openFiles slot).flags &&& fsOWrite ≠ 0)
    (enough : blocksFor (fs.openFiles slot).offset.toNat buf.data.length ≤
      (chains (fs.openFiles slot).dirIndex).length + (freeBlocks fs.fat).length) :
    ∃ mid added, Stored fs chains slot mid added buf.data ∧
      (chains (fs.openFiles slot).dirIndex ++ added).length =
        max (chains (fs.openFiles slot).dirIndex).length
          (blocksFor (fs.openFiles slot).offset.toNat buf.data.length) ∧
      fsWrite fs fd buf =
        (.ok buf.data.length, Otfs.synced (Otfs.grown mid slot (fs.openFiles slot).dirIndex)) := by
  have chain := sound.chain _ (sound.opened slot named.2)
  obtain ⟨mid, added, done, _, extended, moved, reach, outcome⟩ :=
    fsWrite_spec sound.mounted named buffer writes sound.faultless chain
  rcases outcome with ⟨rfl, sized, answer⟩ | ⟨full, short, _⟩ | ⟨incomplete, _⟩
  · rw [List.take_length] at extended
    refine ⟨mid, added, ⟨extended, moved, fun some => reach ?_⟩, ?_, answer⟩
    · exact fun zero => some (List.length_eq_zero_iff.mp zero)
    · rw [List.length_append]
      omega
  · have taken := congrArg List.length extended.free
    rw [List.length_append, full, List.length_nil] at taken
    omega
  · exact absurd (sound.complete.trans extended.size) incomplete

/-- **Writes without enough blocks** take all there are and store what these hold. -/
theorem Sound.fsWrite_fills (sound : Sound fs chains) (named : Names fs fd slot)
    (buffer : ¬ buf.Missing) (writes : (fs.openFiles slot).flags &&& fsOWrite ≠ 0)
    (short : (chains (fs.openFiles slot).dirIndex).length + (freeBlocks fs.fat).length <
      blocksFor (fs.openFiles slot).offset.toNat buf.data.length) :
    ∃ mid added, Stored fs chains slot mid added (buf.data.take
        (fsBlockSize * ((chains (fs.openFiles slot).dirIndex).length +
          (freeBlocks fs.fat).length) - (fs.openFiles slot).offset.toNat)) ∧
      (chains (fs.openFiles slot).dirIndex ++ added).length =
        (chains (fs.openFiles slot).dirIndex).length + (freeBlocks fs.fat).length ∧
      fsWrite fs fd buf = (.error .noSpace, mid) := by
  have chain := sound.chain _ (sound.opened slot named.2)
  obtain ⟨mid, added, done, doneLe, extended, moved, reach, outcome⟩ :=
    fsWrite_spec sound.mounted named buffer writes sound.faultless chain
  have taken := congrArg List.length extended.free
  rw [List.length_append] at taken
  rcases outcome with ⟨rfl, sized, _⟩ | ⟨full, _, fails⟩ | ⟨incomplete, _⟩
  · omega
  · rw [full, List.length_nil] at taken
    have stops := writeLoop_of_noSpace sound.mounted named buffer writes fails
    have fills := writeLoop_fills fs _ _ buf.data le_rfl sound.faultless chain
      (congrArg Prod.fst stops)
    rw [stops] at fills
    change _ ≤ (mid.openFiles slot).offset.toNat at fills
    rw [moved, FsHandle.toNat_offset_advance (FatChain.length_le extended.chain) reach] at fills
    have all : fsBlockSize * ((chains (fs.openFiles slot).dirIndex).length +
        (freeBlocks fs.fat).length) - (fs.openFiles slot).offset.toNat = done := by
      by_cases still : done = 0
      · omega
      · have reached := reach still
        rw [List.length_append, ← Nat.add_zero added.length, ← taken] at reached
        omega
    rw [all]
    refine ⟨mid, added, ⟨extended, ?_, fun some => ?_⟩, ?_, fails⟩
    · rw [moved, List.length_take, Nat.min_eq_left doneLe]
    · rw [List.length_take, Nat.min_eq_left doneLe]
      refine reach fun zero => some ?_
      rw [zero, List.take_zero]
    · rw [List.length_append]
      omega
  · exact absurd (sound.complete.trans extended.size) incomplete

end Space

end TigerOS.Otfs
