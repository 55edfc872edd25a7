import Mathlib.Data.List.Pairwise
import Mathlib.Logic.Function.Basic
import Mathlib.Algebra.Group.Nat.Defs

/-! # Straight-line assembly

A memory of bytes holds doublewords, the least significant byte first. Code without jumps loads
and stores doublewords, moves between registers and control registers, and calls functions. What
it stores at offsets that are apart can be loaded again
(`Foundation.ByteMemory.load_storeAll`), so that registers that are saved and loaded are as they
were.
-/

namespace Foundation

/-! ## Memory -/

/-- A memory of bytes. -/
abbrev ByteMemory : Type := UInt64 → UInt8

namespace ByteMemory

variable (memory : ByteMemory) (address value : UInt64)

/-- A byte of a doubleword, counted from the least significant one. -/
def byteOf (value : UInt64) (i : ℕ) : UInt8 := UInt8.ofNat (value.toNat / 256 ^ i)

/-- A doubleword is stored. -/
def store : ByteMemory := fun place =>
  if (place - address).toNat < 8 then byteOf value (place - address).toNat else memory place

/-- The number in the first bytes from an address. -/
def number (memory : ByteMemory) (address : UInt64) : ℕ → ℕ
  | 0 => 0
  | n + 1 => number memory address n + 256 ^ n * (memory (address + UInt64.ofNat n)).toNat

/-- A doubleword is loaded. -/
def load : UInt64 := UInt64.ofNat (number memory address 8)

/-- Two doublewords have no byte in common. -/
def Apart (address other : UInt64) : Prop :=
  8 ≤ (address - other).toNat ∧ 8 ≤ (other - address).toNat

variable {memory address value} {other : UInt64}

theorem toNat_offset {i : ℕ} (small : i < 8) : (address + UInt64.ofNat i - address).toNat = i := by
  have place : (UInt64.ofNat i).toNat = i := UInt64.toNat_ofNat_of_lt' (by change i < 2 ^ 64; omega)
  rw [UInt64.toNat_sub, UInt64.toNat_add, place]
  have bound := address.toNat_lt
  omega

/-- Bytes that are those of a number. -/
theorem number_eq {memory : ByteMemory} {address : UInt64} {whole n : ℕ}
    (bytes : ∀ i < n, (memory (address + UInt64.ofNat i)).toNat = whole / 256 ^ i % 256) :
    number memory address n = whole % 256 ^ n := by
  induction n with
  | zero => exact (Nat.mod_one _).symm
  | succ n ih =>
      rw [number, ih fun i small => bytes i (Nat.lt_succ_of_lt small), bytes n (Nat.lt_succ_self n),
        Nat.mod_pow_succ]

theorem number_congr {memory memory' : ByteMemory} {address : UInt64} {n : ℕ}
    (same : ∀ i < n, memory' (address + UInt64.ofNat i) = memory (address + UInt64.ofNat i)) :
    number memory' address n = number memory address n := by
  induction n with
  | zero => rfl
  | succ n ih =>
      rw [number, number, ih fun i small => same i (Nat.lt_succ_of_lt small),
        same n (Nat.lt_succ_self n)]

/-- **What is stored** is loaded. -/
theorem load_store : (memory.store address value).load address = value := by
  have bytes : ∀ i < 8, ((memory.store address value) (address + UInt64.ofNat i)).toNat =
      value.toNat / 256 ^ i % 256 := by
    intro i small
    unfold store
    rw [toNat_offset small, if_pos small]
    unfold byteOf
    rw [UInt8.toNat_ofNat']
  have small : value.toNat < 256 ^ 8 := value.toNat_lt
  unfold load
  rw [number_eq bytes, Nat.mod_eq_of_lt small, UInt64.ofNat_toNat]

/-- A store leaves what is apart. -/
theorem load_store_apart (apart : Apart address other) :
    (memory.store other value).load address = memory.load address := by
  unfold load
  refine congrArg UInt64.ofNat (number_congr ?_)
  intro i small
  have outside : ¬ (address + UInt64.ofNat i - other).toNat < 8 := by
    obtain ⟨above, below⟩ := apart
    have place : (UInt64.ofNat i).toNat = i :=
      UInt64.toNat_ofNat_of_lt' (by change i < 2 ^ 64; omega)
    have bound := address.toNat_lt
    have bound' := other.toNat_lt
    rw [UInt64.toNat_sub] at above below ⊢
    rw [UInt64.toNat_add, place]
    omega
  unfold store
  rw [if_neg outside]

/-- Doublewords at offsets from an address. -/
def storeAll (memory : ByteMemory) (base : UInt64) (entries : List (UInt64 × UInt64)) :
    ByteMemory :=
  entries.foldl (fun memory entry => memory.store (base + entry.1) entry.2) memory

theorem storeAll_concat (base : UInt64) (entries : List (UInt64 × UInt64))
    (entry : UInt64 × UInt64) :
    memory.storeAll base (entries ++ [entry]) =
      (memory.storeAll base entries).store (base + entry.1) entry.2 := by
  unfold storeAll
  rw [List.foldl_append, List.foldl_cons, List.foldl_nil]

/-- Offsets that are apart give addresses that are. -/
theorem Apart.offset {first second : UInt64} (apart : Apart first second) (base : UInt64) :
    Apart (base + first) (base + second) := by
  have same (first second : UInt64) : base + first - (base + second) = first - second := by
    apply UInt64.toNat_inj.mp
    have bounds := base.toNat_lt
    have bounds' := first.toNat_lt
    have bounds'' := second.toNat_lt
    rw [UInt64.toNat_sub, UInt64.toNat_sub, UInt64.toNat_add, UInt64.toNat_add]
    omega
  unfold Apart
  rw [same, same]
  exact apart

theorem load_storeAll_apart {base offset : UInt64} {entries : List (UInt64 × UInt64)}
    (apart : ∀ entry ∈ entries, Apart offset entry.1) :
    (memory.storeAll base entries).load (base + offset) = memory.load (base + offset) := by
  induction entries generalizing memory with
  | nil => rfl
  | cons entry entries ih =>
      change ((memory.store _ _).storeAll base entries).load (base + offset) = _
      rw [ih fun other member => apart other (List.mem_cons_of_mem _ member)]
      exact load_store_apart ((apart entry List.mem_cons_self).offset base)

/-- **Everything that is stored** at offsets that are apart is loaded. -/
theorem load_storeAll {base : UInt64} {entries : List (UInt64 × UInt64)}
    (apart : entries.Pairwise fun entry other => Apart entry.1 other.1) {entry : UInt64 × UInt64}
    (member : entry ∈ entries) :
    (memory.storeAll base entries).load (base + entry.1) = entry.2 := by
  induction entries generalizing memory with
  | nil => exact absurd member List.not_mem_nil
  | cons first entries ih =>
      obtain ⟨others, rest⟩ := List.pairwise_cons.mp apart
      change ((memory.store _ _).storeAll base entries).load _ = _
      rcases List.mem_cons.mp member with rfl | later
      · rw [load_storeAll_apart others, load_store]
      · exact ih rest later

/-- What lies outside of all that is stored stays. -/
theorem storeAll_outside {base place : UInt64} {entries : List (UInt64 × UInt64)}
    (outside : ∀ entry ∈ entries, 8 ≤ (place - (base + entry.1)).toNat) :
    memory.storeAll base entries place = memory place := by
  induction entries generalizing memory with
  | nil => rfl
  | cons entry entries ih =>
      change (memory.store _ _).storeAll base entries place = _
      rw [ih fun other member => outside other (List.mem_cons_of_mem _ member)]
      exact if_neg (Nat.not_lt.mpr (outside entry List.mem_cons_self))

end ByteMemory

/-! ## Instructions -/

/-- Instructions of code without jumps, over the registers, the control registers and the
functions. -/
inductive Instruction (Register Control Label : Type*) where
  | addi (target source : Register) (immediate : UInt64)
  | mv (target source : Register)
  | sd (source : Register) (offset : UInt64) (base : Register)
  | ld (target : Register) (offset : UInt64) (base : Register)
  | csrr (target : Register) (control : Control)
  | csrw (control : Control) (source : Register)
  | call (label : Label)

/-- A processor with its memory. -/
structure Processor (Register Control : Type*) where
  registers : Register → UInt64
  controls : Control → UInt64
  memory : ByteMemory

section Write

variable {Register Control : Type*} [DecidableEq Register] (processor : Processor Register Control)
  {target register : Register} (value : UInt64)

/-- A register is written. -/
def Processor.write (target : Register) (value : UInt64) : Processor Register Control :=
  { processor with registers := Function.update processor.registers target value }

theorem Processor.write_self (target : Register) :
    (processor.write target value).registers target = value := Function.update_self ..

theorem Processor.write_of_ne (apart : register ≠ target) :
    (processor.write target value).registers register = processor.registers register :=
  Function.update_of_ne apart ..

end Write

section Run

variable {Register Control Label : Type*} [DecidableEq Register] [DecidableEq Control]
  (calls : Label → Processor Register Control → Option (Processor Register Control))

/-- One instruction; a function that does not return has no outcome. -/
def Instruction.exec (processor : Processor Register Control) :
    Instruction Register Control Label → Option (Processor Register Control)
  | .addi target source immediate =>
      some (processor.write target (processor.registers source + immediate))
  | .mv target source => some (processor.write target (processor.registers source))
  | .sd source offset base => some { processor with
      memory := processor.memory.store (processor.registers base + offset)
        (processor.registers source) }
  | .ld target offset base =>
      some (processor.write target (processor.memory.load (processor.registers base + offset)))
  | .csrr target control => some (processor.write target (processor.controls control))
  | .csrw control source => some { processor with
      controls := Function.update processor.controls control (processor.registers source) }
  | .call label => calls label processor

/-- Instructions one after the other. -/
def runCode : List (Instruction Register Control Label) → Processor Register Control →
    Option (Processor Register Control)
  | [], processor => some processor
  | instruction :: code, processor =>
      (instruction.exec calls processor).bind fun processor => runCode code processor

theorem runCode_append (first second : List (Instruction Register Control Label))
    (processor : Processor Register Control) :
    runCode calls (first ++ second) processor =
      (runCode calls first processor).bind fun processor => runCode calls second processor := by
  induction first generalizing processor with
  | nil => rfl
  | cons instruction first ih =>
      rw [List.cons_append, runCode, runCode, Option.bind_assoc]
      simp only [ih]

theorem runCode_call (label : Label) (rest : List (Instruction Register Control Label))
    (processor : Processor Register Control) :
    runCode calls (.call label :: rest) processor =
      (calls label processor).bind fun processor => runCode calls rest processor := rfl

/-- Registers that are stored at offsets. -/
def saves (base : Register) (slots : List (Register × UInt64)) :
    List (Instruction Register Control Label) :=
  slots.map fun slot => .sd slot.1 slot.2 base

/-- Registers that are loaded from offsets. -/
def restores (base : Register) (slots : List (Register × UInt64)) :
    List (Instruction Register Control Label) :=
  slots.map fun slot => .ld slot.1 slot.2 base

/-- **Saving registers** stores what they hold, and changes the memory alone. -/
theorem runCode_saves (base : Register) (slots : List (Register × UInt64))
    (processor : Processor Register Control) :
    runCode calls (saves base slots) processor = some { processor with
      memory := processor.memory.storeAll (processor.registers base)
        (slots.map fun slot => (slot.2, processor.registers slot.1)) } := by
  induction slots generalizing processor with
  | nil => rfl
  | cons slot slots ih => exact ih _

/-- **Restoring registers** loads them, and leaves the others, the control registers and the
memory. -/
theorem runCode_restores (base : Register) {slots : List (Register × UInt64)}
    (apart : ∀ slot ∈ slots, slot.1 ≠ base) (distinct : (slots.map Prod.fst).Nodup)
    (processor : Processor Register Control) : ∃ registers,
    runCode calls (restores base slots) processor =
        some { processor with registers := registers } ∧
      (∀ slot ∈ slots, registers slot.1 =
        processor.memory.load (processor.registers base + slot.2)) ∧
      ∀ register, register ∉ slots.map Prod.fst → registers register =
        processor.registers register := by
  induction slots generalizing processor with
  | nil => exact ⟨_, rfl, fun _ member => absurd member List.not_mem_nil, fun _ _ => rfl⟩
  | cons slot slots ih =>
      obtain ⟨fresh, distinct⟩ := List.nodup_cons.mp distinct
      let next := processor.write slot.1 (processor.memory.load (processor.registers base + slot.2))
      have kept : next.registers base = processor.registers base :=
        processor.write_of_ne _ (apart slot List.mem_cons_self).symm
      obtain ⟨registers, ran, loaded, others⟩ :=
        ih (fun other member => apart other (List.mem_cons_of_mem _ member)) distinct next
      refine ⟨registers, ran, ?_, ?_⟩
      · intro other member
        rcases List.mem_cons.mp member with rfl | later
        · rw [others other.1 fresh]
          exact processor.write_self _ other.1
        · rw [loaded other later, kept]
          rfl
      · intro register absent
        obtain ⟨other, absent⟩ := not_or.mp (List.mem_cons.not.mp absent)
        rw [others register absent]
        exact processor.write_of_ne _ other

end Run

end Foundation
