import Mathlib.Data.Fintype.Basic
import Mathlib.Logic.Function.Basic
import TigerOS.Foundation.CString

/-! # Tasks

The table of the tasks is an array of fixed length, and a pointer to a task an index
into it. The functions that tasks run are given by names; what they do belongs to the
scheduler.
-/

namespace TigerOS.Sched

open Foundation

/-- `TASK_MAX_TASKS`. -/
def taskMaxTasks : ℕ := 8

/-- `task_state_t`. -/
inductive TaskState where
  | unused
  | runnable
  | running
  deriving DecidableEq

/-- What the scheduler reads of a `struct trap_frame`. -/
structure TrapFrame where
  mepc : UInt64
  mcause : UInt64

/-- `task_context_t`. -/
structure TaskContext where
  switchesIn : UInt64
  switchesOut : UInt64
  lastMepc : UInt64
  lastMcause : UInt64
  deriving DecidableEq

/-- `task_control_block_t`; an entry is a pointer to a function. -/
structure TaskControlBlock (Entry : Type) where
  id : UInt32
  name : Option CString
  state : TaskState
  runCount : UInt64
  context : TaskContext
  entry : Option Entry

/-- A pointer to a task that is not null. -/
abbrev Task : Type := Fin taskMaxTasks

/-- `g_tasks`. -/
abbrev Tasks (Entry : Type) : Type := Task → TaskControlBlock Entry

section Tasks

variable {Entry : Type}

/-- `task_reset`. -/
def taskReset (id : UInt32) : TaskControlBlock Entry := ⟨id, none, .unused, 0, ⟨0, 0, 0, 0⟩, none⟩

/-- `task_system_init`. -/
def taskSystemInit : Tasks Entry := fun i => taskReset (UInt32.ofNat i + 1)

/-- `task_create`. -/
def taskCreate (tasks : Tasks Entry) (name : Option CString) (entry : Option Entry) :
    Option Task × Tasks Entry :=
  if entry.isNone then (none, tasks)
  else
    match (List.finRange taskMaxTasks).find? fun i => (tasks i).state = .unused with
    | none => (none, tasks)
    | some i =>
        (some i, Function.update tasks i
          { tasks i with
            name := name
            state := .runnable
            runCount := 0
            context := ⟨0, 0, 0, 0⟩
            entry := entry })

/-- `task_find`. -/
def taskFind (tasks : Tasks Entry) (taskId : UInt32) : Option Task :=
  (List.finRange taskMaxTasks).find? fun i => (tasks i).id = taskId ∧ (tasks i).state ≠ .unused

/-- The counts of a frame, if there is one. -/
def TaskContext.seen (context : TaskContext) (frame : Option TrapFrame) : TaskContext :=
  match frame with
  | none => context
  | some frame =>
      { context with
        lastMepc := frame.mepc
        lastMcause := frame.mcause }

/-- What `task_context_switch_out` writes to a task. -/
def TaskControlBlock.switchedOut (task : TaskControlBlock Entry) (frame : Option TrapFrame) :
    TaskControlBlock Entry :=
  { task with
    context := { task.context with switchesOut := task.context.switchesOut + 1 }.seen frame
    state := if task.state = .running then .runnable else task.state }

/-- What `task_context_switch_in` writes to a task. -/
def TaskControlBlock.switchedIn (task : TaskControlBlock Entry) (frame : Option TrapFrame) :
    TaskControlBlock Entry :=
  { task with
    context := { task.context with switchesIn := task.context.switchesIn + 1 }.seen frame
    state := .running }

/-- `task_context_switch_out`. -/
def taskContextSwitchOut (tasks : Tasks Entry) (task : Option Task) (frame : Option TrapFrame) :
    Tasks Entry :=
  match task with
  | none => tasks
  | some task => Function.update tasks task ((tasks task).switchedOut frame)

/-- `task_context_switch_in`. -/
def taskContextSwitchIn (tasks : Tasks Entry) (task : Option Task) (frame : Option TrapFrame) :
    Tasks Entry :=
  match task with
  | none => tasks
  | some task => Function.update tasks task ((tasks task).switchedIn frame)

end Tasks

section Changes

variable {Entry : Type} {tasks : Tasks Entry}

@[simp] theorem seen_switchesIn (context : TaskContext) (frame : Option TrapFrame) :
    (context.seen frame).switchesIn = context.switchesIn := by
  cases frame with
  | none => rfl
  | some frame => rfl

@[simp] theorem seen_switchesOut (context : TaskContext) (frame : Option TrapFrame) :
    (context.seen frame).switchesOut = context.switchesOut := by
  cases frame with
  | none => rfl
  | some frame => rfl

/-- A task that is created was not in use, and can run from then on. -/
theorem taskCreate_cases (tasks : Tasks Entry) (name : Option CString) (entry : Option Entry) :
    taskCreate tasks name entry = (none, tasks) ∨
      ∃ task, (tasks task).state = .unused ∧ taskCreate tasks name entry =
        (some task, Function.update tasks task
          ⟨(tasks task).id, name, .runnable, 0, ⟨0, 0, 0, 0⟩, entry⟩) := by
  unfold taskCreate
  by_cases null : entry.isNone = true
  · rw [if_pos null]
    exact .inl rfl
  · rw [if_neg null]
    cases search : (List.finRange taskMaxTasks).find? fun i =>
        decide ((tasks i).state = .unused) with
    | none => exact .inl rfl
    | some task =>
        have found := List.find?_some search
        rw [decide_eq_true_iff] at found
        exact .inr ⟨task, found, rfl⟩

/-- A change that keeps the identifiers and what is in use keeps what is found. -/
theorem taskFind_congr {tasks' : Tasks Entry} (ids : ∀ task, (tasks' task).id = (tasks task).id)
    (states : ∀ task, (tasks' task).state = .unused ↔ (tasks task).state = .unused)
    (taskId : UInt32) : taskFind tasks' taskId = taskFind tasks taskId := by
  unfold taskFind
  simp only [ids, ne_eq, states]

end Changes

end TigerOS.Sched
