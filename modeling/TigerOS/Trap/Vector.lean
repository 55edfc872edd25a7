import TigerOS.Foundation.Assembly
import TigerOS.Trap.Handle

/-! # The trap vector

The processor comes to the trap vector from any place in a program. The vector stores the
registers in a frame below the stack, calls the handler with a pointer to it, and loads them
again. Whatever the handler does besides, a program that a timer interrupts goes on where it was
with all its registers (`TigerOS.Trap.trapVector_transparent`).
-/

namespace TigerOS.Trap

open Foundation

open Sched (Behaviour Clock)

/-! ## The source -/

/-- The control registers that the vector moves. -/
inductive Control where
  | sstatus | sepc | scause | stval
  deriving DecidableEq

/-- The functions that the vector calls. -/
inductive Label where
  | trapHandle

/-- `TRAP_FRAME_SIZE`. -/
def trapFrameSize : UInt64 := 288

/-- The offsets of the registers in a frame, from `TRAP_FRAME_RA` on. -/
def trapFrameOffset : Register → UInt64
  | .ra => 0 | .sp => 8 | .gp => 16 | .tp => 24 | .t0 => 32 | .t1 => 40 | .t2 => 48
  | .s0 => 56 | .s1 => 64 | .a0 => 72 | .a1 => 80 | .a2 => 88 | .a3 => 96 | .a4 => 104
  | .a5 => 112 | .a6 => 120 | .a7 => 128 | .s2 => 136 | .s3 => 144 | .s4 => 152 | .s5 => 160
  | .s6 => 168 | .s7 => 176 | .s8 => 184 | .s9 => 192 | .s10 => 200 | .s11 => 208
  | .t3 => 216 | .t4 => 224 | .t5 => 232 | .t6 => 240

def trapFrameMstatus : UInt64 := 248
def trapFrameMepc : UInt64 := 256
def trapFrameMcause : UInt64 := 264
def trapFrameMtval : UInt64 := 272
def trapFrameReserved : UInt64 := 280

/-- The registers that the vector stores before it has one to work with. -/
def savedRegisters : List Register :=
  [.ra, .gp, .tp, .t0, .t1, .t2, .s0, .s1, .a0, .a1, .a2, .a3, .a4, .a5, .a6, .a7, .s2, .s3, .s4,
    .s5, .s6, .s7, .s8, .s9, .s10, .s11, .t3, .t4, .t5, .t6]

/-- The places of these registers. -/
def savedSlots : List (Register × UInt64) :=
  savedRegisters.map fun register => (register, trapFrameOffset register)

/-- An instruction of the vector. -/
abbrev VectorInstruction : Type := Instruction Register Control Label

/-- The vector after the registers are stored, up to the call. -/
def storeControls : List VectorInstruction :=
  [.addi .t0 .sp trapFrameSize, .sd .t0 (trapFrameOffset .sp) .sp,
    .csrr .t0 .sstatus, .sd .t0 trapFrameMstatus .sp, .csrr .t0 .sepc, .sd .t0 trapFrameMepc .sp,
    .csrr .t0 .scause, .sd .t0 trapFrameMcause .sp, .csrr .t0 .stval, .sd .t0 trapFrameMtval .sp,
    .mv .a0 .sp]

/-- The vector after the call, before the registers are loaded. -/
def loadControls : List VectorInstruction :=
  [.ld .t0 trapFrameMepc .sp, .csrw .sepc .t0, .ld .t0 trapFrameMstatus .sp, .csrw .sstatus .t0]

/-- `trap_vector`, up to its `sret`, which goes on at the address in `sepc`. -/
def trapVector : List VectorInstruction :=
  .addi .sp .sp (-trapFrameSize) :: (saves .sp savedSlots ++ storeControls ++
    .call .trapHandle :: (loadControls ++ restores .sp savedSlots ++
      [.ld .sp (trapFrameOffset .sp) .sp]))

/-! ## Frames in memory -/

/-- The processor of the kernel. -/
abbrev Cpu : Type := Processor Register Control

/-- The frame at a pointer. -/
def frameAt (memory : ByteMemory) (pointer : UInt64) : TrapFrame where
  registers register := memory.load (pointer + trapFrameOffset register)
  mstatus := memory.load (pointer + trapFrameMstatus)
  mepc := memory.load (pointer + trapFrameMepc)
  mcause := memory.load (pointer + trapFrameMcause)
  mtval := memory.load (pointer + trapFrameMtval)
  reserved := memory.load (pointer + trapFrameReserved)

/-- What the vector stores. -/
def vectorEntries (cpu : Cpu) : List (UInt64 × UInt64) :=
  savedSlots.map (fun slot => (slot.2, cpu.registers slot.1)) ++
    [(trapFrameOffset .sp, cpu.registers .sp), (trapFrameMstatus, cpu.controls .sstatus),
      (trapFrameMepc, cpu.controls .sepc), (trapFrameMcause, cpu.controls .scause),
      (trapFrameMtval, cpu.controls .stval)]

/-- The memory that the handler is given. -/
def trappedMemory (cpu : Cpu) : ByteMemory :=
  cpu.memory.storeAll (cpu.registers .sp - trapFrameSize) (vectorEntries cpu)

/-- The frame that the handler is given. -/
def trapFrameOf (cpu : Cpu) : TrapFrame where
  registers := cpu.registers
  mstatus := cpu.controls .sstatus
  mepc := cpu.controls .sepc
  mcause := cpu.controls .scause
  mtval := cpu.controls .stval
  reserved := cpu.memory.load (cpu.registers .sp - trapFrameSize + trapFrameReserved)

/-- A function of the frame, called by the convention of the processor: it has the pointer in its
first argument, leaves the stack pointer, and leaves the frame as the function does. -/
structure Calls (handle : TrapFrame → Option TrapFrame) (called : Cpu → Option Cpu) : Prop where
  returns : ∀ cpu left, handle (frameAt cpu.memory (cpu.registers .a0)) = some left →
    ∃ after, called cpu = some after ∧ after.registers .sp = cpu.registers .sp ∧
      frameAt after.memory (cpu.registers .a0) = left
  halts : ∀ cpu, handle (frameAt cpu.memory (cpu.registers .a0)) = none → called cpu = none

section Vector

variable {cpu : Cpu} {called : Cpu → Option Cpu} {calls : Label → Cpu → Option Cpu}

/-- The places that the vector stores to. -/
def storedOffsets : List UInt64 := savedSlots.map Prod.snd ++
  [trapFrameOffset .sp, trapFrameMstatus, trapFrameMepc, trapFrameMcause, trapFrameMtval]

/-- The places in a frame are apart. -/
theorem offsets_apart : (trapFrameReserved :: storedOffsets).Pairwise fun first second =>
    8 ≤ (first - second).toNat ∧ 8 ≤ (second - first).toNat := by decide +kernel

theorem entries_fst (cpu : Cpu) : (vectorEntries cpu).map Prod.fst = storedOffsets := by
  unfold vectorEntries
  rw [List.map_append, List.map_map]
  rfl

theorem mem_storedOffsets {cpu : Cpu} {entry : UInt64 × UInt64}
    (member : entry ∈ vectorEntries cpu) :
    entry.1 ∈ storedOffsets := by
  rw [← entries_fst cpu]
  exact List.mem_map_of_mem member

theorem entries_apart (cpu : Cpu) :
    (vectorEntries cpu).Pairwise fun entry other => ByteMemory.Apart entry.1 other.1 := by
  have stored := (List.pairwise_cons.mp offsets_apart).2
  rw [← entries_fst cpu] at stored
  exact List.pairwise_map.mp stored

/-- The registers that are saved are not the stack pointer. -/
theorem saved_ne_sp : ∀ slot ∈ savedSlots, slot.1 ≠ .sp := by decide +kernel

theorem saved_distinct : (savedSlots.map Prod.fst).Nodup := by decide +kernel

theorem sp_ne_t0 : Register.sp ≠ .t0 := by decide

theorem sp_ne_a0 : Register.sp ≠ .a0 := by decide

/-- A processor that has stored entries of the frame. -/
structure Storing (before : Cpu) (entries : List (UInt64 × UInt64)) (cpu : Cpu) : Prop where
  sp : cpu.registers .sp = before.registers .sp - trapFrameSize
  controls : cpu.controls = before.controls
  memory : cpu.memory =
    before.memory.storeAll (before.registers .sp - trapFrameSize) entries

variable {before : Cpu} {entries : List (UInt64 × UInt64)}

/-- A value that is in the register to work with is stored. -/
theorem Storing.store (storing : Storing before entries cpu) (offset value : UInt64) :
    Storing before (entries ++ [(offset, value)])
      { cpu.write .t0 value with
        memory := cpu.memory.store (cpu.registers .sp + offset) value } := by
  refine ⟨?_, storing.controls, ?_⟩
  · exact (cpu.write_of_ne value sp_ne_t0).trans storing.sp
  · rw [ByteMemory.storeAll_concat, ← storing.memory, ← storing.sp]

/-- A control register is stored. -/
theorem Storing.csrr (storing : Storing before entries cpu) (control : Control) (offset : UInt64)
    (rest : List VectorInstruction) : ∃ next,
      runCode calls (.csrr .t0 control :: .sd .t0 offset .sp :: rest) cpu =
        runCode calls rest next ∧
      Storing before (entries ++ [(offset, before.controls control)]) next := by
  have stored := storing.store offset (before.controls control)
  refine ⟨_, ?_, stored⟩
  rw [runCode, Instruction.exec, Option.bind_some, runCode, Instruction.exec, Option.bind_some,
    cpu.write_self, cpu.write_of_ne _ sp_ne_t0, storing.controls]
  rfl

/-- The stack pointer of the program is stored. -/
theorem Storing.stack (storing : Storing before entries cpu) (rest : List VectorInstruction) :
    ∃ next, runCode calls
        (.addi .t0 .sp trapFrameSize :: .sd .t0 (trapFrameOffset .sp) .sp :: rest) cpu =
        runCode calls rest next ∧
      Storing before (entries ++ [(trapFrameOffset .sp, before.registers .sp)]) next := by
  have stored := storing.store (trapFrameOffset .sp) (before.registers .sp)
  have stack : cpu.registers .sp + trapFrameSize = before.registers .sp := by
    rw [storing.sp]
    exact UInt64.sub_add_cancel _ _
  refine ⟨_, ?_, stored⟩
  rw [runCode, Instruction.exec, Option.bind_some, runCode, Instruction.exec, Option.bind_some,
    cpu.write_self, cpu.write_of_ne _ sp_ne_t0, stack]
  rfl

/-- The registers of the program are stored. -/
theorem run_saves (calls : Label → Cpu → Option Cpu) (cpu : Cpu) (rest : List VectorInstruction) :
    ∃ next, runCode calls
        (.addi .sp .sp (-trapFrameSize) :: (saves .sp savedSlots ++ rest)) cpu =
        runCode calls rest next ∧
      Storing cpu (savedSlots.map fun slot => (slot.2, cpu.registers slot.1)) next := by
  have base : cpu.registers .sp + -trapFrameSize = cpu.registers .sp - trapFrameSize :=
    (UInt64.sub_eq_add_neg _ _).symm
  have values : savedSlots.map (fun slot => (slot.2,
      (cpu.write .sp (cpu.registers .sp - trapFrameSize)).registers slot.1)) =
      savedSlots.map fun slot => (slot.2, cpu.registers slot.1) := by
    apply List.map_congr_left
    intro slot member
    rw [cpu.write_of_ne _ (saved_ne_sp slot member)]
  rw [runCode, Instruction.exec, Option.bind_some, base, runCode_append, runCode_saves,
    Option.bind_some, values, cpu.write_self]
  refine ⟨_, rfl, ?_, rfl, rfl⟩
  exact cpu.write_self (cpu.registers .sp - trapFrameSize) .sp

/-- The vector up to the call stores everything, and points to the frame. -/
theorem run_store (calls : Label → Cpu → Option Cpu) (cpu : Cpu) (rest : List VectorInstruction) :
    ∃ entered : Cpu, runCode calls
        (.addi .sp .sp (-trapFrameSize) :: (saves .sp savedSlots ++ (storeControls ++ rest))) cpu =
        runCode calls rest entered ∧
      entered.registers .a0 = cpu.registers .sp - trapFrameSize ∧
      Storing cpu (vectorEntries cpu) entered := by
  obtain ⟨saved, ran, storing⟩ := run_saves calls cpu (storeControls ++ rest)
  obtain ⟨cpu0, ran0, storing⟩ := @Storing.stack _ calls _ _ storing
    (storeControls.drop 2 ++ rest)
  obtain ⟨cpu1, ran1, storing⟩ := @Storing.csrr _ calls _ _ storing .sstatus trapFrameMstatus
    (storeControls.drop 4 ++ rest)
  obtain ⟨cpu2, ran2, storing⟩ := @Storing.csrr _ calls _ _ storing .sepc trapFrameMepc
    (storeControls.drop 6 ++ rest)
  obtain ⟨cpu3, ran3, storing⟩ := @Storing.csrr _ calls _ _ storing .scause trapFrameMcause
    (storeControls.drop 8 ++ rest)
  obtain ⟨cpu4, ran4, storing⟩ := @Storing.csrr _ calls _ _ storing .stval trapFrameMtval
    (storeControls.drop 10 ++ rest)
  refine ⟨cpu4.write .a0 (cpu4.registers .sp), ?_, ?_, ?_, storing.controls, ?_⟩
  · rw [ran]
    refine ran0.trans (ran1.trans (ran2.trans (ran3.trans (ran4.trans ?_))))
    rfl
  · exact (cpu4.write_self _ _).trans storing.sp
  · exact (cpu4.write_of_ne _ sp_ne_a0).trans storing.sp
  · refine storing.memory.trans ?_
    simp only [List.append_assoc]
    rfl

/-! ## The frame -/

theorem mem_savedRegisters {register : Register} (other : register ≠ .sp) :
    register ∈ savedRegisters := by
  cases register <;> first | exact absurd rfl other | decide

/-- The handler is given the frame of the program. -/
theorem frameAt_trapped (cpu : Cpu) :
    frameAt (trappedMemory cpu) (cpu.registers .sp - trapFrameSize) = trapFrameOf cpu := by
  have loaded {entry : UInt64 × UInt64} (member : entry ∈ vectorEntries cpu) :
      (trappedMemory cpu).load (cpu.registers .sp - trapFrameSize + entry.1) = entry.2 :=
    ByteMemory.load_storeAll (entries_apart cpu) member
  have registers : (fun register => (trappedMemory cpu).load
      (cpu.registers .sp - trapFrameSize + trapFrameOffset register)) = cpu.registers := by
    funext register
    apply @loaded (trapFrameOffset register, cpu.registers register)
    unfold vectorEntries
    by_cases stack : register = .sp
    · rw [stack]
      exact List.mem_append_right _ List.mem_cons_self
    · refine List.mem_append_left _ (List.mem_map.mpr
        ⟨(register, trapFrameOffset register), ?_, rfl⟩)
      exact List.mem_map_of_mem (mem_savedRegisters stack)
  have controls {entry : UInt64 × UInt64} (member : entry ∈ [(trapFrameOffset .sp,
      cpu.registers .sp), (trapFrameMstatus, cpu.controls .sstatus),
      (trapFrameMepc, cpu.controls .sepc), (trapFrameMcause, cpu.controls .scause),
      (trapFrameMtval, cpu.controls .stval)]) :
      (trappedMemory cpu).load (cpu.registers .sp - trapFrameSize + entry.1) = entry.2 :=
    loaded (List.mem_append_right _ member)
  have reserved : (trappedMemory cpu).load
      (cpu.registers .sp - trapFrameSize + trapFrameReserved) =
      cpu.memory.load (cpu.registers .sp - trapFrameSize + trapFrameReserved) := by
    apply ByteMemory.load_storeAll_apart
    intro entry member
    exact (List.pairwise_cons.mp offsets_apart).1 entry.1 (mem_storedOffsets member)
  unfold frameAt trapFrameOf
  rw [registers, reserved, @controls (trapFrameMstatus, cpu.controls .sstatus) (.tail _ (.head _)),
    @controls (trapFrameMepc, cpu.controls .sepc) (.tail _ (.tail _ (.head _))),
    @controls (trapFrameMcause, cpu.controls .scause) (.tail _ (.tail _ (.tail _ (.head _)))),
    @controls (trapFrameMtval, cpu.controls .stval)
      (.tail _ (.tail _ (.tail _ (.tail _ (.head _)))))]

/-- Nothing outside of the frame is changed. -/
theorem trappedMemory_outside {place : UInt64}
    (outside : 288 ≤ (place - (cpu.registers .sp - trapFrameSize)).toNat) :
    trappedMemory cpu place = cpu.memory place := by
  have offsets : storedOffsets.all (fun offset => offset.toNat ≤ 280) = true := by decide +kernel
  apply ByteMemory.storeAll_outside
  intro entry member
  have small := of_decide_eq_true (List.all_eq_true.mp offsets entry.1 (mem_storedOffsets member))
  revert outside
  generalize cpu.registers .sp - trapFrameSize = base
  intro outside
  have bounds := place.toNat_lt
  have bounds' := base.toNat_lt
  rw [UInt64.toNat_sub] at outside ⊢
  rw [UInt64.toNat_add]
  omega

/-! ## Going back -/

/-- A control register is loaded. -/
theorem run_csrw (calls : Label → Cpu → Option Cpu) (cpu : Cpu) (control : Control)
    (offset : UInt64) (rest : List VectorInstruction) : ∃ next : Cpu,
      runCode calls (.ld .t0 offset .sp :: .csrw control .t0 :: rest) cpu =
        runCode calls rest next ∧
      next.registers .sp = cpu.registers .sp ∧ next.memory = cpu.memory ∧
      next.controls = Function.update cpu.controls control
        (cpu.memory.load (cpu.registers .sp + offset)) := by
  refine ⟨{ cpu.write .t0 (cpu.memory.load (cpu.registers .sp + offset)) with
    controls := Function.update cpu.controls control
      (cpu.memory.load (cpu.registers .sp + offset)) }, ?_, ?_, rfl, rfl⟩
  · rw [runCode, Instruction.exec, Option.bind_some, runCode, Instruction.exec, Option.bind_some,
      cpu.write_self]
    rfl
  · exact cpu.write_of_ne (cpu.memory.load (cpu.registers .sp + offset)) sp_ne_t0

/-- The vector behind the call takes everything from the frame. -/
theorem run_load (calls : Label → Cpu → Option Cpu) (cpu : Cpu) : ∃ resumed : Cpu,
    runCode calls (loadControls ++ restores .sp savedSlots ++ [.ld .sp (trapFrameOffset .sp) .sp])
        cpu = some resumed ∧
      resumed.registers = (frameAt cpu.memory (cpu.registers .sp)).registers ∧
      resumed.controls .sepc = (frameAt cpu.memory (cpu.registers .sp)).mepc ∧
      resumed.controls .sstatus = (frameAt cpu.memory (cpu.registers .sp)).mstatus ∧
      resumed.memory = cpu.memory := by
  obtain ⟨cpu1, ran1, sp1, memory1, controls1⟩ := run_csrw calls cpu .sepc trapFrameMepc
    (loadControls.drop 2 ++ restores .sp savedSlots ++ [.ld .sp (trapFrameOffset .sp) .sp])
  obtain ⟨cpu2, ran2, sp2, memory2, controls2⟩ := run_csrw calls cpu1 .sstatus trapFrameMstatus
    (restores .sp savedSlots ++ [.ld .sp (trapFrameOffset .sp) .sp])
  obtain ⟨registers, ran3, loaded, others⟩ :=
    runCode_restores calls .sp saved_ne_sp saved_distinct cpu2
  have stack : registers .sp = cpu.registers .sp := by
    rw [others .sp (by decide +kernel), sp2, sp1]
  rw [sp2, sp1, memory2, memory1] at loaded
  refine ⟨{ cpu2 with registers := registers }.write .sp
    (cpu.memory.load (cpu.registers .sp + trapFrameOffset .sp)), ?_, ?_, ?_, ?_, ?_⟩
  · refine ran1.trans (ran2.trans ?_)
    rw [runCode_append, ran3, Option.bind_some, runCode, Instruction.exec, Option.bind_some,
      runCode]
    simp only [stack, memory2, memory1]
  · funext register
    by_cases same : register = .sp
    · rw [same]
      exact Processor.write_self ..
    · rw [Processor.write_of_ne _ _ same]
      exact loaded (register, trapFrameOffset register)
        (List.mem_map_of_mem (mem_savedRegisters same))
  · change cpu2.controls .sepc = _
    rw [controls2, controls1]
    rfl
  · change cpu2.controls .sstatus = _
    rw [controls2, sp1, memory1]
    exact Function.update_self ..
  · exact memory2.trans memory1

/-! ## The vector -/

/-- What a trap does to the processor: the handler was called with a memory that differs from the
program's in the frame alone, and the program goes on from what it left of the frame and with the
memory that it left. -/
structure Resumes (called : Cpu → Option Cpu) (cpu : Cpu) (left : TrapFrame) (resumed : Cpu) :
    Prop where
  registers : resumed.registers = left.registers
  sepc : resumed.controls .sepc = left.mepc
  sstatus : resumed.controls .sstatus = left.mstatus
  memory : ∃ entered returned, called entered = some returned ∧
    (∀ place, 288 ≤ (place - (cpu.registers .sp - trapFrameSize)).toNat →
      entered.memory place = cpu.memory place) ∧
    resumed.memory = returned.memory

/-- **The vector** hands the handler the frame of the program, and takes from it what it leaves; it
does not come back where the handler does not. -/
theorem trapVector_spec {handle : TrapFrame → Option TrapFrame}
    (conforms : Calls handle (calls .trapHandle)) (cpu : Cpu) :
    (∀ left, handle (trapFrameOf cpu) = some left → ∃ resumed,
      runCode calls trapVector cpu = some resumed ∧ Resumes (calls .trapHandle) cpu left resumed) ∧
      (handle (trapFrameOf cpu) = none → runCode calls trapVector cpu = none) := by
  obtain ⟨entered, ran, pointer, storing⟩ := run_store calls cpu
    (.call .trapHandle :: (loadControls ++ restores .sp savedSlots ++
      [.ld .sp (trapFrameOffset .sp) .sp]))
  have given : frameAt entered.memory (entered.registers .a0) = trapFrameOf cpu := by
    rw [storing.memory, pointer]
    exact frameAt_trapped cpu
  have vector : runCode calls trapVector cpu = (calls .trapHandle entered).bind fun returned =>
      runCode calls (loadControls ++ restores .sp savedSlots ++
        [.ld .sp (trapFrameOffset .sp) .sp]) returned := by
    unfold trapVector
    rw [List.append_assoc, ran, runCode_call]
  constructor
  · intro left leaves
    obtain ⟨returned, call, stack, frame⟩ := conforms.returns entered left (given ▸ leaves)
    obtain ⟨resumed, ran', registers, sepc, sstatus, memory⟩ :=
      run_load calls returned
    rw [stack, storing.sp, ← pointer, frame] at registers sepc sstatus
    refine ⟨resumed, ?_, registers, sepc, sstatus, entered, returned, call, ?_, memory⟩
    · rw [vector, call, Option.bind_some, ran']
    · intro place outside
      rw [storing.memory]
      exact trappedMemory_outside outside
  · intro halts
    rw [vector, conforms.halts entered (given ▸ halts)]
    rfl

end Vector

/-- **Traps are transparent.** The program that a timer interrupts goes on at the same address with
the same registers and status; one that runs into the breakpoint that is waited for goes on behind
it; and no other trap comes back. -/
theorem trapVector_transparent {Entry Memory : Type} (behaviour : Behaviour Entry Memory)
    (now : UInt64) (instructions : UInt64 → UInt16) (world : TrapWorld Entry Memory)
    (calls : Label → Cpu → Option Cpu)
    (conforms : Calls
      (fun frame => (trapHandle behaviour now instructions world frame).1) (calls .trapHandle))
    (cpu : Cpu) :
    let after := runCode calls trapVector cpu
    let frame := trapFrameOf cpu
    let next := cpu.controls .sepc + trapInstructionLen instructions (cpu.controls .sepc)
    (frame.IsTimer → ∃ resumed, after = some resumed ∧
      Resumes (calls .trapHandle) cpu frame resumed) ∧
      (frame.IsTest world.trapTestArmed → ∃ resumed, after = some resumed ∧
        Resumes (calls .trapHandle) cpu { frame with mepc := next } resumed) ∧
      (¬ frame.IsTimer → ¬ frame.IsTest world.trapTestArmed → after = none) := by
  intro after frame next
  obtain ⟨comes, halts⟩ := trapVector_spec conforms cpu
  have leaves := trapHandle_frame behaviour now instructions world frame
  refine ⟨?_, ?_, ?_⟩
  · intro timer
    rw [if_pos timer] at leaves
    exact comes frame leaves
  · intro test
    have noTimer : ¬ frame.IsTimer := fun timer =>
      Bool.false_ne_true (test.1.symm.trans timer.1)
    rw [if_neg noTimer, if_pos test] at leaves
    exact comes _ leaves
  · intro noTimer noTest
    rw [if_neg noTimer, if_neg noTest] at leaves
    exact halts leaves

section Code

variable {Entry Memory : Type} (behaviour : Behaviour Entry Memory) (now : UInt64)
  (instructions : UInt64 → UInt16) (world : TrapWorld Entry Memory)

/-- A call of the handler that writes to the frame what the handler changes of it. -/
def handlerCall (cpu : Cpu) : Option Cpu :=
  (trapHandle behaviour now instructions world
    (frameAt cpu.memory (cpu.registers .a0))).1.map fun left =>
      { cpu with memory := cpu.memory.store (cpu.registers .a0 + trapFrameMepc) left.mepc }

theorem frameAt_store_mepc (memory : ByteMemory) (pointer mepc : UInt64) :
    frameAt (memory.store (pointer + trapFrameMepc) mepc) pointer =
      { frameAt memory pointer with mepc := mepc } := by
  have places : (trapFrameMepc :: (trapFrameOffset .sp :: savedSlots.map Prod.snd ++
      [trapFrameMstatus, trapFrameMcause, trapFrameMtval, trapFrameReserved])).Pairwise
        fun first second => 8 ≤ (first - second).toNat ∧ 8 ≤ (second - first).toNat := by
    decide +kernel
  have kept {offset : UInt64} (member : offset ∈ trapFrameOffset .sp :: savedSlots.map Prod.snd ++
      [trapFrameMstatus, trapFrameMcause, trapFrameMtval, trapFrameReserved]) :
      (memory.store (pointer + trapFrameMepc) mepc).load (pointer + offset) =
        memory.load (pointer + offset) :=
    ByteMemory.load_store_apart (ByteMemory.Apart.offset
      ((List.pairwise_cons.mp places).1 offset member).symm pointer)
  have registers : (fun register => (memory.store (pointer + trapFrameMepc) mepc).load
      (pointer + trapFrameOffset register)) =
      fun register => memory.load (pointer + trapFrameOffset register) := by
    funext register
    apply kept
    apply List.mem_append_left
    by_cases stack : register = .sp
    · rw [stack]
      exact List.mem_cons_self
    · apply List.mem_cons_of_mem
      exact List.mem_map.mpr ⟨(register, trapFrameOffset register),
        List.mem_map_of_mem (mem_savedRegisters stack), rfl⟩
  unfold frameAt
  rw [registers, ByteMemory.load_store, kept (by decide +kernel), kept (by decide +kernel),
    kept (by decide +kernel), kept (by decide +kernel)]

/-- Such a call follows the convention. -/
theorem calls_handlerCall :
    Calls (fun frame => (trapHandle behaviour now instructions world frame).1)
      (handlerCall behaviour now instructions world) where
  returns := by
    intro cpu left leaves
    have call : handlerCall behaviour now instructions world cpu = some { cpu with
        memory := cpu.memory.store (cpu.registers .a0 + trapFrameMepc) left.mepc } := by
      rw [handlerCall, leaves, Option.map_some]
    refine ⟨_, call, rfl, ?_⟩
    change frameAt (cpu.memory.store (cpu.registers .a0 + trapFrameMepc) left.mepc) _ = _
    rw [frameAt_store_mepc]
    have leaves' := (trapHandle_frame behaviour now instructions world
      (frameAt cpu.memory (cpu.registers .a0))).symm.trans leaves
    split at leaves'
    · rw [← Option.some.inj leaves']
    split at leaves'
    · rw [← Option.some.inj leaves']
    · cases leaves'
  halts := by
    intro cpu leaves
    rw [handlerCall, leaves, Option.map_none]

end Code

/-- A timer interrupts a program. -/
theorem trapVector_transparent_timer :
    let world : TrapWorld Empty Unit := ⟨Clock.zero, .zero Empty (), false, false⟩
    let cpu : Cpu := ⟨fun register => 0x80100000 + trapFrameOffset register, fun control =>
      if control = .scause then 0x8000000000000005 else 0x80200000, fun _ => 0⟩
    ∃ resumed, runCode (fun _ => handlerCall Sched.idle 7 (fun _ => 0) world) trapVector cpu =
        some resumed ∧
      resumed.registers = cpu.registers ∧ resumed.controls .sepc = 0x80200000 := by
  intro world cpu
  obtain ⟨timer, _, _⟩ := trapVector_transparent Sched.idle 7 (fun _ => 0) world
    (fun _ => handlerCall Sched.idle 7 (fun _ => 0) world) (calls_handlerCall ..) cpu
  obtain ⟨resumed, comes, resumes⟩ := timer (by decide +kernel)
  exact ⟨resumed, comes, resumes.registers, resumes.sepc⟩

end TigerOS.Trap
