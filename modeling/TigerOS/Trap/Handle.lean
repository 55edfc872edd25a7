import TigerOS.Console.Output
import TigerOS.Sched.Clock
import TigerOS.Sched.Fairness

/-! # Traps

The handler of traps serves the interrupts of the timer, and a breakpoint that the kernel waits
for; on anything else it halts. Each interrupt of the timer is a tick of the clock and a turn of a
task, so that over any run the ticks are the turns of all tasks
(`TigerOS.Trap.ticks_are_turns`). What is interrupted is left as it was.
-/

namespace TigerOS.Trap

open Foundation

open Console (consolePutc lineIoWrite)

open Sched (Behaviour Clock SchedWorld TaskEntry clockHandleTimerInterrupt)

/-! ## Frames -/

/-- The registers of the processor that a program may write. -/
inductive Register where
  | ra | sp | gp | tp | t0 | t1 | t2 | s0 | s1 | a0 | a1 | a2 | a3 | a4 | a5 | a6 | a7
  | s2 | s3 | s4 | s5 | s6 | s7 | s8 | s9 | s10 | s11 | t3 | t4 | t5 | t6
  deriving DecidableEq

/-- `struct trap_frame`; its first fields are those of the registers. -/
structure TrapFrame where
  registers : Register → UInt64
  mstatus : UInt64
  mepc : UInt64
  mcause : UInt64
  mtval : UInt64
  reserved : UInt64

/-- What the scheduler reads of a frame. -/
def TrapFrame.seen (frame : TrapFrame) : Sched.TrapFrame := ⟨frame.mepc, frame.mcause⟩

/-! ## The source -/

/-- `MCAUSE_INTERRUPT_BIT`. -/
def mcauseInterruptBit : UInt64 := 0x8000000000000000

/-- `MCAUSE_CODE_MASK`. -/
def mcauseCodeMask : UInt64 := mcauseInterruptBit - 1

def mcauseInterruptSupervisorTimer : UInt64 := 5
def mcauseInterruptMachineTimer : UInt64 := 7
def mcauseExceptionBreakpoint : UInt64 := 3

/-- The globals that the handler works on; the scheduler has the console. -/
structure TrapWorld (Entry Memory : Type) where
  clock : Clock
  sched : SchedWorld Entry Memory
  trapTestArmed : Bool
  trapTestPassed : Bool

/-- `trap_is_interrupt`. -/
def trapIsInterrupt (cause : UInt64) : Bool := decide (cause &&& mcauseInterruptBit ≠ 0)

/-- `trap_cause_code`. -/
def trapCauseCode (cause : UInt64) : UInt64 := cause &&& mcauseCodeMask

/-- A digit of `k_hex_digits`. -/
def hexDigit (digit : UInt64) : UInt8 := (ascii "0123456789abcdef").getD digit.toNat 0

/-- `console_write_hex_u64`. -/
def consoleWriteHexU64 (value : UInt64) : List UInt8 :=
  (ascii "0x" ++ (List.range 16).map fun i =>
    hexDigit ((value >>> UInt64.ofNat ((15 - i) * 4)) &&& 0xf)).flatMap consolePutc

section Handle

variable {Entry Memory : Type} (behaviour : Behaviour Entry Memory) (now : UInt64)
  (instructions : UInt64 → UInt16) (world : TrapWorld Entry Memory) (frame : TrapFrame)

/-- `trap_instruction_len`, over the halfwords of the program. -/
def trapInstructionLen (pc : UInt64) : UInt64 := if instructions pc &&& 3 = 3 then 4 else 2

/-- Bytes that are written to the console. -/
def TrapWorld.write (bytes : List UInt8) : TrapWorld Entry Memory :=
  { world with sched := world.sched.write bytes }

/-- `clock_handle_timer_interrupt`, where the timer reads `now`; the texts that it writes go to
the console. -/
def TrapWorld.tick : TrapWorld Entry Memory :=
  let clock := clockHandleTimerInterrupt { world.clock with written := [] } now
  { world with clock := clock }.write (clock.written.flatMap lineIoWrite)

/-- `trap_dispatch_interrupt`, where the timer reads `now`. -/
def trapDispatchInterrupt (code : UInt64) : Bool × TrapWorld Entry Memory :=
  if code = mcauseInterruptSupervisorTimer ∨ code = mcauseInterruptMachineTimer then
    let world := world.tick now
    (true, { world with
      sched := (world.sched.schedHandleTimerInterrupt behaviour (some frame.seen)).2 })
  else (false, world)

/-- `trap_dispatch_exception`, with the frame that it leaves. -/
def trapDispatchException (code : UInt64) : Bool × TrapFrame × TrapWorld Entry Memory :=
  if code = mcauseExceptionBreakpoint then
    if world.trapTestArmed = false then (false, frame, world)
    else
      let world : TrapWorld Entry Memory :=
        { world with
          trapTestArmed := false
          trapTestPassed := true }
      (true, { frame with mepc := frame.mepc + trapInstructionLen instructions frame.mepc },
        world.write (lineIoWrite (ascii "TRAP_TEST: mcause=") ++ consoleWriteHexU64 frame.mcause ++
          lineIoWrite (ascii " mepc=") ++ consoleWriteHexU64 frame.mepc ++
            lineIoWrite (ascii "\n")))
  else (false, frame, world)

/-- The end of `trap_handle`, before it halts. -/
def trapUnexpected : TrapWorld Entry Memory :=
  world.write (lineIoWrite (ascii "TRAP: unexpected mcause=") ++ consoleWriteHexU64 frame.mcause ++
    lineIoWrite (ascii " mepc=") ++ consoleWriteHexU64 frame.mepc ++
    lineIoWrite (ascii " mtval=") ++ consoleWriteHexU64 frame.mtval ++ lineIoWrite (ascii "\n"))

/-- `trap_handle`, with the frame that it leaves; where it halts there is none. -/
def trapHandle : Option TrapFrame × TrapWorld Entry Memory :=
  let code := trapCauseCode frame.mcause
  if trapIsInterrupt frame.mcause = true then
    match trapDispatchInterrupt behaviour now world frame code with
    | (true, world) => (some frame, world)
    | (false, world) => (none, trapUnexpected world frame)
  else
    match trapDispatchException instructions world frame code with
    | (true, frame, world) => (some frame, world)
    | (false, _, world) => (none, trapUnexpected world frame)

end Handle

/-! ## What a trap does -/

/-- The trap of a timer. -/
def TrapFrame.IsTimer (frame : TrapFrame) : Prop :=
  trapIsInterrupt frame.mcause = true ∧
    (trapCauseCode frame.mcause = mcauseInterruptSupervisorTimer ∨
      trapCauseCode frame.mcause = mcauseInterruptMachineTimer)

instance (frame : TrapFrame) : Decidable frame.IsTimer := inferInstanceAs (Decidable (_ ∧ _))

/-- The trap of a breakpoint that is waited for. -/
def TrapFrame.IsTest (frame : TrapFrame) (armed : Bool) : Prop :=
  trapIsInterrupt frame.mcause = false ∧ trapCauseCode frame.mcause = mcauseExceptionBreakpoint ∧
    armed = true

instance (frame : TrapFrame) (armed : Bool) : Decidable (frame.IsTest armed) :=
  inferInstanceAs (Decidable (_ ∧ _ ∧ _))

section Cases

variable {Entry Memory : Type} {behaviour : Behaviour Entry Memory} {now : UInt64}
  {instructions : UInt64 → UInt16} {world : TrapWorld Entry Memory} {frame : TrapFrame}

/-- The trap of a timer is a tick and a turn, and leaves its frame. -/
theorem trapHandle_timer (timer : frame.IsTimer) :
    trapHandle behaviour now instructions world frame =
      (some frame, { world.tick now with
        sched := ((world.tick now).sched.schedHandleTimerInterrupt behaviour
          (some frame.seen)).2 }) := by
  unfold trapHandle trapDispatchInterrupt
  rw [if_pos timer.1]
  simp only [if_pos timer.2]

/-- **What the handler leaves of a frame**: that of a timer is as it was, that of a breakpoint which
is waited for goes on behind the instruction, and there is none of any other. -/
theorem trapHandle_frame (behaviour : Behaviour Entry Memory) (now : UInt64)
    (instructions : UInt64 → UInt16) (world : TrapWorld Entry Memory) (frame : TrapFrame) :
    (trapHandle behaviour now instructions world frame).1 =
      if frame.IsTimer then some frame
      else if frame.IsTest world.trapTestArmed then
        some { frame with mepc := frame.mepc + trapInstructionLen instructions frame.mepc }
      else none := by
  by_cases timer : frame.IsTimer
  · rw [if_pos timer, trapHandle_timer timer]
  rw [if_neg timer]
  unfold trapHandle
  by_cases interrupt : trapIsInterrupt frame.mcause = true
  · have other : ¬ (trapCauseCode frame.mcause = mcauseInterruptSupervisorTimer ∨
        trapCauseCode frame.mcause = mcauseInterruptMachineTimer) := fun code =>
      timer ⟨interrupt, code⟩
    have noTest : ¬ frame.IsTest world.trapTestArmed := fun test =>
      Bool.false_ne_true (test.1.symm.trans interrupt)
    unfold trapDispatchInterrupt
    simp only [if_pos interrupt, if_neg other, if_neg noTest]
  · have exception : trapIsInterrupt frame.mcause = false := Bool.eq_false_iff.mpr interrupt
    unfold trapDispatchException
    simp only [if_neg interrupt]
    by_cases breakpoint : trapCauseCode frame.mcause = mcauseExceptionBreakpoint
    · simp only [if_pos breakpoint]
      cases armed : world.trapTestArmed with
      | false =>
          have noTest : ¬ frame.IsTest false := fun test => Bool.false_ne_true test.2.2
          simp only [if_true, if_neg noTest]
      | true =>
          have test : frame.IsTest true := ⟨exception, breakpoint, rfl⟩
          simp only [if_pos test, Bool.true_eq_false, if_false]
    · have noTest : ¬ frame.IsTest world.trapTestArmed := fun test => breakpoint test.2.1
      simp only [if_neg breakpoint, if_neg noTest]

end Cases

/-! ## Runs -/

section Runs

variable {Entry Memory : Type} {behaviour : Behaviour Entry Memory}
  {instructions : UInt64 → UInt16} {start world : TrapWorld Entry Memory}

/-- The traps as a machine, each with the time that the timer reads in it, answering the frame
that is left. -/
def traps (behaviour : Behaviour Entry Memory) (instructions : UInt64 → UInt16) :
    Machine (TrapWorld Entry Memory) (UInt64 × TrapFrame) (Option TrapFrame) where
  step world trap := trapHandle behaviour trap.1 instructions world trap.2

/-- A kernel that has had so many ticks since it started. -/
structure Ticked (start : SchedWorld Entry Memory) (world : TrapWorld Entry Memory) (k : ℕ) :
    Prop where
  rota : Sched.Rota start world.sched k
  ticks : world.clock.tickCount = UInt64.ofNat k

/-- An interrupt is counted, whatever the time is. -/
theorem tickCount_timerInterrupt (clock : Clock) (now : UInt64) :
    (clockHandleTimerInterrupt clock now).tickCount = clock.tickCount + 1 := by
  unfold clockHandleTimerInterrupt
  rw [Sched.logTick_spec.2.2]
  by_cases late : clock.advance.nextDeadline ≤ now
  · rw [Sched.clockProgramDeadline_of_late late, (Sched.setDeadline_spec _).2.2,
      Sched.advance_spec.2.2]
  · rw [Sched.clockProgramDeadline_of_early late, (Sched.setDeadline_spec _).2.2,
      Sched.advance_spec.2.2]

/-- A tick of the clock writes to the console, and leaves the scheduler. -/
theorem TrapWorld.tick_sched (world : TrapWorld Entry Memory) (now : UInt64) :
    ∃ console, (world.tick now).sched = { world.sched with console := console } := by
  unfold TrapWorld.tick TrapWorld.write SchedWorld.write
  exact ⟨_, rfl⟩

/-- A tick of the clock is counted. -/
theorem Ticked.tick {k : ℕ} (ticked : Ticked start.sched world k) (now : UInt64) :
    Sched.Rota start.sched (world.tick now).sched k ∧
      (world.tick now).clock.tickCount = UInt64.ofNat (k + 1) := by
  constructor
  · obtain ⟨running, queue, count, current, ids, states, counted⟩ := ticked.rota
    obtain ⟨console, same⟩ := world.tick_sched now
    rw [same]
    exact ⟨running, queue, count, current, ids, states, counted⟩
  · unfold TrapWorld.tick TrapWorld.write
    simp only [tickCount_timerInterrupt]
    rw [ticked.ticks, UInt64.ofNat_add]
    rfl

/-- **The trap of a timer** is a tick and a turn. -/
theorem Ticked.trap {k : ℕ} (alone : Sched.LeavesAlone behaviour) (ready : Sched.Ready start.sched)
    (ticked : Ticked start.sched world k) (now : UInt64) {frame : TrapFrame}
    (timer : frame.IsTimer) :
    (trapHandle behaviour now instructions world frame).1 = some frame ∧
      Ticked start.sched (trapHandle behaviour now instructions world frame).2 (k + 1) := by
  obtain ⟨rota, ticks⟩ := ticked.tick now
  rw [trapHandle_timer timer]
  exact ⟨rfl, (rota.step alone ready (some frame.seen)).2, ticks⟩

/-- Every run of traps of timers. -/
theorem Ticked.run {k : ℕ} (alone : Sched.LeavesAlone behaviour) (ready : Sched.Ready start.sched)
    (ticked : Ticked start.sched world k) {trapped : List (UInt64 × TrapFrame)}
    (timer : ∀ trap ∈ trapped, trap.2.IsTimer) :
    (traps behaviour instructions).results world trapped = trapped.map (fun trap => some trap.2) ∧
      Ticked start.sched ((traps behaviour instructions).state world trapped)
        (k + trapped.length) := by
  induction trapped generalizing world k with
  | nil => exact ⟨rfl, ticked⟩
  | cons trap trapped ih =>
      obtain ⟨left, next⟩ := @Ticked.trap _ _ _ instructions _ _ _ alone ready ticked trap.1 trap.2
        (timer trap List.mem_cons_self)
      obtain ⟨answers, last⟩ := ih next fun other member =>
        timer other (List.mem_cons_of_mem _ member)
      rw [List.length_cons, Nat.add_comm trapped.length, ← Nat.add_assoc]
      exact ⟨congrArg₂ List.cons left answers, last⟩

/-- **The ticks of the clock are the turns of the tasks.** Traps of timers, at any times and in any
programs, leave their frames as they were, are counted by the clock, and each is one run of one
task; the tasks take turns, so that no task is more than one run ahead of another. -/
theorem ticks_are_turns (behaviour : Behaviour Entry Memory) (alone : Sched.LeavesAlone behaviour)
    (instructions : UInt64 → UInt16) (start : TrapWorld Entry Memory)
    (ready : Sched.Ready start.sched) (clock : Clock) (began : UInt64)
    (started : start.clock = Sched.clockInit clock began) (trapped : List (UInt64 × TrapFrame))
    (timer : ∀ trap ∈ trapped, trap.2.IsTimer) (few : trapped.length < 2 ^ 64) :
    let after := (traps behaviour instructions).state start trapped
    let runs := start.sched.countAt fun task => (after.sched.tasks task).runCount.toNat
    (traps behaviour instructions).results start trapped = trapped.map (fun trap => some trap.2) ∧
      (Sched.clockTicks after.clock).toNat = trapped.length ∧
      ∑ slot ∈ Finset.range start.sched.runnableCount, runs slot = trapped.length ∧
      ∀ slot other, slot < start.sched.runnableCount → other < start.sched.runnableCount →
        runs slot ≤ runs other + 1 := by
  intro after runs
  have begins : Ticked start.sched start 0 := by
    refine ⟨ready.rota, ?_⟩
    rw [started]
    rfl
  obtain ⟨answers, last⟩ := @Ticked.run _ _ _ instructions _ _ _ alone ready begins _ timer
  rw [Nat.zero_add] at last
  have below : ∀ slot < start.sched.runnableCount,
      turns start.sched.runnableCount slot trapped.length < 2 ^ 64 :=
    fun slot _ => lt_of_le_of_lt (Nat.count_le _) few
  have accounts := last.rota.accounts ready below
  refine ⟨answers, ?_, accounts.runs, accounts.fair⟩
  exact (congrArg UInt64.toNat last.ticks).trans (UInt64.toNat_ofNat_of_lt' few)

end Runs

/-- Three traps of both timers on the two tasks of the kernel. -/
theorem ticks_are_turns_three :
    let sched := (SchedWorld.zero Empty ()).schedBootstrapTestTasks
    let start : TrapWorld Empty Unit := ⟨Sched.clockInit Clock.zero 100, sched, false, false⟩
    let frame (mcause : UInt64) : TrapFrame := ⟨fun _ => 0, 0, 0x80200000, mcause, 0, 0⟩
    let trapped := [(1000200, frame 0x8000000000000005), (2000200, frame 0x8000000000000007),
      (9000000, frame 0x8000000000000005)]
    let after := (traps Sched.idle fun _ => 0).state start trapped
    (Sched.clockTicks after.clock).toNat = 3 ∧
      ∑ slot ∈ Finset.range 2,
        sched.countAt (fun task => (after.sched.tasks task).runCount.toNat) slot = 3 := by
  intro sched start frame trapped after
  have ready : Sched.Ready sched := by
    unfold sched
    rw [Sched.bootstrap_built rfl]
    exact Sched.ready_built (by decide) (by decide) (by decide)
  obtain ⟨_, ticks, turns, _⟩ :=
    ticks_are_turns Sched.idle Sched.idle_leavesAlone (fun _ => 0) start ready Clock.zero 100 rfl
      trapped (by decide) (by decide)
  exact ⟨ticks, turns⟩

end TigerOS.Trap
