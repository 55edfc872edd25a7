import TigerOS.Console.Output
import TigerOS.Foundation.Machine
import TigerOS.Sched.Task

/-! # The round-robin scheduler

A timer interrupt switches the running task out, looks for the next task that can run,
from the slot behind the current one on and around the queue, and calls its function.
The functions of the program and the memory they work on are parameters; the console is
the bytes written to it so far. An interrupt answers the task whose function it calls.
-/

namespace TigerOS.Sched

open Foundation

open Console (consolePutc lineIoWrite)

/-- `SCHED_SWITCH_LOG_LIMIT`. -/
def schedSwitchLogLimit : ℕ := 12

/-- `SCHED_TASK_LOG_LIMIT`. -/
def schedTaskLogLimit : UInt64 := 4

/-- `SCHED_ALT_SWITCH_TARGET`. -/
def schedAltSwitchTarget : UInt32 := 4

/-- `SCHED_NO_SLOT`. -/
def schedNoSlot : ℕ := 0xffffffff

/-- The functions that tasks run: those of the scheduler's test, and others. -/
inductive TaskEntry (Entry : Type) where
  | schedTestTask1
  | schedTestTask2
  | other (entry : Entry)

/-- The globals of the tasks and the scheduler, the console and the memory of the
program. -/
structure SchedWorld (Entry Memory : Type) where
  tasks : Tasks (TaskEntry Entry)
  runnableQueue : ℕ → UInt32
  runnableCount : ℕ
  currentSlot : ℕ
  switchLogCount : ℕ
  alternatingSwitches : UInt32
  alternationReported : Bool
  schedulerRunning : Bool
  bootstrapped : Bool
  console : List UInt8
  memory : Memory

/-- The globals before the first call. -/
def SchedWorld.zero {Memory : Type} (Entry : Type) (memory : Memory) : SchedWorld Entry Memory where
  tasks := fun _ => taskReset 0
  runnableQueue := fun _ => 0
  runnableCount := 0
  currentSlot := 0
  switchLogCount := 0
  alternatingSwitches := 0
  alternationReported := false
  schedulerRunning := false
  bootstrapped := false
  console := []
  memory := memory

/-- What the functions of the program do, called with a pointer to a task. -/
abbrev Behaviour (Entry Memory : Type) : Type :=
  Entry → Task → SchedWorld Entry Memory → SchedWorld Entry Memory

/-! ## The console -/

/-- The first loop of `sched_write_u32`, with some digits left of ten. -/
def writeDigits : ℕ → UInt32 → List UInt8
  | 0, _ => []
  | room + 1, value =>
      if value = 0 then []
      else UInt8.ofNat (48 + (value % 10).toNat) :: writeDigits room (value / 10)

/-- `sched_write_u32`. -/
def schedWriteU32 (value : UInt32) : List UInt8 :=
  if value = 0 then consolePutc 48 else (writeDigits 10 value).reverse.flatMap consolePutc

/-- `sched_log_switch`. -/
def schedLogSwitch (fromId toId : UInt32) : List UInt8 :=
  lineIoWrite (ascii "SCHED: switch ") ++ schedWriteU32 fromId ++ lineIoWrite (ascii " -> ") ++
    schedWriteU32 toId ++ lineIoWrite (ascii "\n")

namespace SchedWorld

variable {Entry Memory : Type} (world : SchedWorld Entry Memory)

/-- Bytes that are written to the console. -/
def write (bytes : List UInt8) : SchedWorld Entry Memory :=
  { world with console := world.console ++ bytes }

/-! ## The queue -/

/-- The identifiers in the queue. -/
def queued : List UInt32 := (List.range world.runnableCount).map world.runnableQueue

/-- `sched_task_from_slot`. -/
def schedTaskFromSlot (slot : ℕ) : Option Task :=
  if world.runnableCount ≤ slot then none else taskFind world.tasks (world.runnableQueue slot)

/-- The loop of `sched_find_next_slot`; `rounds` is the count less `offset`. -/
def findSlotLoop (startSlot : ℕ) : ℕ → ℕ → ℕ
  | 0, _ => schedNoSlot
  | rounds + 1, offset =>
      let slot := startSlot + offset
      let slot := if world.runnableCount ≤ slot then slot - world.runnableCount else slot
      match world.schedTaskFromSlot slot with
      | none => findSlotLoop startSlot rounds (offset + 1)
      | some task =>
          if (world.tasks task).state = .runnable then slot
          else findSlotLoop startSlot rounds (offset + 1)

/-- The slot that `sched_find_next_slot` starts at. -/
def startSlot : ℕ :=
  if world.currentSlot = schedNoSlot then 0
  else if world.runnableCount ≤ world.currentSlot + 1 then 0
  else world.currentSlot + 1

/-- `sched_find_next_slot`. -/
def schedFindNextSlot : ℕ :=
  if world.runnableCount = 0 then schedNoSlot
  else world.findSlotLoop world.startSlot world.runnableCount 0

/-- `sched_enqueue_task`. -/
def schedEnqueueTask (task : Option Task) : Bool × SchedWorld Entry Memory :=
  match task with
  | none => (false, world)
  | some task =>
      if taskMaxTasks ≤ world.runnableCount then (false, world)
      else
        (true, { world with
          runnableQueue :=
            Function.update world.runnableQueue world.runnableCount (world.tasks task).id
          runnableCount := world.runnableCount + 1 })

/-- `sched_init`. -/
def schedInit : SchedWorld Entry Memory :=
  { world with
    tasks := taskSystemInit
    runnableQueue := fun i => if i < taskMaxTasks then 0 else world.runnableQueue i
    runnableCount := 0
    currentSlot := schedNoSlot
    switchLogCount := 0
    alternatingSwitches := 0
    alternationReported := false
    schedulerRunning := false
    bootstrapped := false }

/-- `task_create` on the tasks of the scheduler. -/
def create (name : Option CString) (entry : Option (TaskEntry Entry)) :
    Option Task × SchedWorld Entry Memory :=
  let (task, tasks) := taskCreate world.tasks name entry
  (task, { world with tasks := tasks })

/-- `sched_bootstrap_test_tasks`. -/
def schedBootstrapTestTasks : SchedWorld Entry Memory :=
  if world.bootstrapped then world
  else
    let (task1, world) :=
      world.schedInit.create (some ⟨ascii "task-1", by decide⟩) (some .schedTestTask1)
    let (task2, world) := world.create (some ⟨ascii "task-2", by decide⟩) (some .schedTestTask2)
    let failed (world : SchedWorld Entry Memory) :=
      { world.write (lineIoWrite (ascii "SCHED: bootstrap failed\n")) with bootstrapped := true }
    if task1.isNone ∨ task2.isNone then failed world
    else
      match world.schedEnqueueTask task1 with
      | (false, world) => failed world
      | (true, world) =>
          match world.schedEnqueueTask task2 with
          | (false, world) => failed world
          | (true, world) =>
              { world with
                schedulerRunning := true
                bootstrapped := true }.write
                (lineIoWrite (ascii "SCHED: policy=round-robin runnable=2\n"))

/-! ## The interrupt -/

/-- `sched_test_task_1` and `sched_test_task_2`, with the line each writes. -/
def testTask (task : Task) (line : List UInt8) : SchedWorld Entry Memory :=
  if (world.tasks task).runCount ≤ schedTaskLogLimit then world.write (lineIoWrite line) else world

/-- A call of a task's function. -/
def callEntry (behaviour : Behaviour Entry Memory) (entry : TaskEntry Entry) (task : Task) :
    SchedWorld Entry Memory :=
  match entry with
  | .schedTestTask1 => world.testTask task (ascii "TASK: 1 running\n")
  | .schedTestTask2 => world.testTask task (ascii "TASK: 2 running\n")
  | .other entry => behaviour entry task world

/-- The line about a switch in `sched_handle_timer_interrupt`. -/
def logSwitch (prevTask : Option Task) (prevId nextId : UInt32) : SchedWorld Entry Memory :=
  if prevTask.isSome ∧ prevId ≠ nextId ∧ world.switchLogCount < schedSwitchLogLimit then
    { world.write (schedLogSwitch prevId nextId) with switchLogCount := world.switchLogCount + 1 }
  else world

/-- The count of alternating switches in `sched_handle_timer_interrupt`. -/
def countAlternation (prevId nextId : UInt32) : SchedWorld Entry Memory :=
  if (prevId = 1 ∧ nextId = 2) ∨ (prevId = 2 ∧ nextId = 1) then
    let world := { world with alternatingSwitches := world.alternatingSwitches + 1 }
    if ¬ world.alternationReported ∧ schedAltSwitchTarget ≤ world.alternatingSwitches then
      { world.write (lineIoWrite (ascii "SCHED_TEST: alternating tasks confirmed\n")) with
        alternationReported := true }
    else world
  else world

/-- A run of a task is counted. -/
def countRun (task : Task) : SchedWorld Entry Memory :=
  let block := world.tasks task
  { world with
    tasks := Function.update world.tasks task { block with runCount := block.runCount + 1 } }

/-- The function of a task is called, if it has one. -/
def callTask (behaviour : Behaviour Entry Memory) (task : Task) : SchedWorld Entry Memory :=
  match (world.tasks task).entry with
  | none => world
  | some entry => world.callEntry behaviour entry task

/-- A task that still runs becomes runnable. -/
def release (task : Task) : SchedWorld Entry Memory :=
  let block := world.tasks task
  if block.state = .running then
    { world with tasks := Function.update world.tasks task { block with state := .runnable } }
  else world

/-- The last part of `sched_handle_timer_interrupt`: the task runs. -/
def runTask (behaviour : Behaviour Entry Memory) (task : Task) : SchedWorld Entry Memory :=
  ((world.countRun task).callTask behaviour task).release task

/-- `sched_handle_timer_interrupt`, with the task that it runs. -/
def schedHandleTimerInterrupt (behaviour : Behaviour Entry Memory) (frame : Option TrapFrame) :
    Option Task × SchedWorld Entry Memory :=
  if ¬ world.schedulerRunning ∨ world.runnableCount = 0 then (none, world)
  else
    let prevTask := world.schedTaskFromSlot world.currentSlot
    let prevId := prevTask.elim 0 fun task => (world.tasks task).id
    let world := { world with tasks := taskContextSwitchOut world.tasks prevTask frame }
    let nextSlot := world.schedFindNextSlot
    if nextSlot = schedNoSlot then (none, world)
    else
      match world.schedTaskFromSlot nextSlot with
      | none => (none, world)
      | some nextTask =>
          let world :=
            { world with
              currentSlot := nextSlot
              tasks := taskContextSwitchIn world.tasks (some nextTask) frame }
          let nextId := (world.tasks nextTask).id
          (some nextTask,
            ((world.logSwitch prevTask prevId nextId).countAlternation prevId nextId).runTask
              behaviour nextTask)

end SchedWorld

/-! ## The machines -/

section Machines

variable {Entry Memory : Type}

/-- The interrupts as a machine, answering the task that each runs. -/
def interrupts (behaviour : Behaviour Entry Memory) :
    Machine (SchedWorld Entry Memory) (Option TrapFrame) (Option Task) where
  step world frame := world.schedHandleTimerInterrupt behaviour frame

/-- The calls that set the scheduler up. -/
inductive SetupOp (Entry : Type) where
  | create (name : Option CString) (entry : Option (TaskEntry Entry))
  | enqueue (task : Option Task)

/-- What a call answers. -/
inductive SetupAnswer where
  | created (task : Option Task)
  | status (succeeded : Bool)
  deriving DecidableEq

/-- The setup as a machine answering calls. -/
def setups : Machine (SchedWorld Entry Memory) (SetupOp Entry) SetupAnswer where
  step world
    | .create name entry => (world.create name entry).map .created id
    | .enqueue task => (world.schedEnqueueTask task).map .status id

/-- A scheduler that was set up and then started. -/
def SchedWorld.built (world : SchedWorld Entry Memory) (ops : List (SetupOp Entry)) :
    SchedWorld Entry Memory :=
  { setups.state world.schedInit ops with
    schedulerRunning := true
    bootstrapped := true }

/-- The calls of `sched_bootstrap_test_tasks`. -/
def bootstrapOps : List (SetupOp Entry) :=
  [.create (some ⟨ascii "task-1", by decide⟩) (some .schedTestTask1),
    .create (some ⟨ascii "task-2", by decide⟩) (some .schedTestTask2),
    .enqueue (some ⟨0, by decide⟩), .enqueue (some ⟨1, by decide⟩)]

/-- The bootstrap sets the scheduler up with two tasks and starts it. -/
theorem bootstrap_built {world : SchedWorld Entry Memory} (fresh : world.bootstrapped = false) :
    world.schedBootstrapTestTasks =
      (world.write (lineIoWrite (ascii "SCHED: policy=round-robin runnable=2\n"))).built
        bootstrapOps := by
  unfold SchedWorld.schedBootstrapTestTasks
  rw [if_neg (Bool.eq_false_iff.mp fresh)]
  rfl

end Machines

end TigerOS.Sched
