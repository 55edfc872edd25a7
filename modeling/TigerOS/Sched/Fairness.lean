import TigerOS.Foundation.Turns
import TigerOS.Sched.RoundRobin

/-! # Fairness of the scheduler

One interrupt switches out the task that ran before, and switches in and runs the task
of the next slot (`TigerOS.Sched.interrupt_spec`). A scheduler whose tasks can all run
therefore goes around its queue, and its counters hold the turns of the tasks
(`TigerOS.Sched.round_robin`). They hold them modulo `2 ^ 64`, so that they leave the
number of the interrupts once a task ran that often (`TigerOS.Sched.run_counts_wrap`).
-/

namespace TigerOS.Sched

open Foundation

section Step

variable {Entry Memory : Type} {behaviour : Behaviour Entry Memory}
  {world world' : SchedWorld Entry Memory}

/-! ## What an interrupt leaves alone -/

/-- The functions of the program change its memory and write to the console, and leave
the tasks and the scheduler alone. -/
def LeavesAlone (behaviour : Behaviour Entry Memory) : Prop :=
  ∀ entry task world, ∃ console memory, behaviour entry task world =
    { world with
      console := console
      memory := memory }

/-- The queue, the slot and the tasks are as before. -/
structure Kept (world world' : SchedWorld Entry Memory) : Prop where
  tasks : world'.tasks = world.tasks
  queue : world'.runnableQueue = world.runnableQueue
  count : world'.runnableCount = world.runnableCount
  current : world'.currentSlot = world.currentSlot
  running : world'.schedulerRunning = world.schedulerRunning

theorem Kept.refl (world : SchedWorld Entry Memory) : Kept world world := ⟨rfl, rfl, rfl, rfl, rfl⟩

theorem Kept.trans {world'' : SchedWorld Entry Memory} (first : Kept world world')
    (second : Kept world' world'') : Kept world world'' :=
  ⟨second.tasks.trans first.tasks, second.queue.trans first.queue,
    second.count.trans first.count, second.current.trans first.current,
    second.running.trans first.running⟩

theorem logSwitch_kept (world : SchedWorld Entry Memory) (prevTask : Option Task)
    (prevId nextId : UInt32) : Kept world (world.logSwitch prevTask prevId nextId) := by
  unfold SchedWorld.logSwitch
  split
  · exact ⟨rfl, rfl, rfl, rfl, rfl⟩
  · exact .refl world

theorem countAlternation_kept (world : SchedWorld Entry Memory) (prevId nextId : UInt32) :
    Kept world (world.countAlternation prevId nextId) := by
  unfold SchedWorld.countAlternation
  split
  · simp only
    split
    · exact ⟨rfl, rfl, rfl, rfl, rfl⟩
    · exact ⟨rfl, rfl, rfl, rfl, rfl⟩
  · exact .refl world

theorem callEntry_kept (alone : LeavesAlone behaviour) (world : SchedWorld Entry Memory)
    (entry : TaskEntry Entry) (task : Task) :
    Kept world (world.callEntry behaviour entry task) := by
  have test (line : List UInt8) : Kept world (world.testTask task line) := by
    unfold SchedWorld.testTask
    split
    · exact ⟨rfl, rfl, rfl, rfl, rfl⟩
    · exact .refl world
  cases entry with
  | schedTestTask1 => exact test _
  | schedTestTask2 => exact test _
  | other entry =>
      obtain ⟨console, memory, same⟩ := alone entry task world
      change Kept world (behaviour entry task world)
      rw [same]
      exact ⟨rfl, rfl, rfl, rfl, rfl⟩

/-! ## What an interrupt does -/

/-- A task that ran once more. -/
def TaskControlBlock.ran {Entry : Type} (block : TaskControlBlock Entry) :
    TaskControlBlock Entry :=
  { block with
    runCount := block.runCount + 1
    state := if block.state = .running then .runnable else block.state }

/-- Running a task counts it and makes it runnable again. -/
theorem runTask_kept (alone : LeavesAlone behaviour) (world : SchedWorld Entry Memory)
    (task : Task) :
    Kept { world with tasks := Function.update world.tasks task (world.tasks task).ran }
      (world.runTask behaviour task) := by
  have called : Kept (world.countRun task) ((world.countRun task).callTask behaviour task) := by
    unfold SchedWorld.callTask
    cases ((world.countRun task).tasks task).entry with
    | none => exact .refl _
    | some entry => exact callEntry_kept alone _ entry task
  have counted : ((world.countRun task).callTask behaviour task).tasks =
      Function.update world.tasks task
        { world.tasks task with runCount := (world.tasks task).runCount + 1 } := called.tasks
  unfold SchedWorld.runTask SchedWorld.release TaskControlBlock.ran
  rw [counted]
  simp only [Function.update_self, Function.update_idem]
  by_cases state : (world.tasks task).state = .running
  · rw [if_pos state, if_pos state]
    exact ⟨rfl, called.queue, called.count, called.current, called.running⟩
  · rw [if_neg state, if_neg state]
    exact ⟨counted, called.queue, called.count, called.current, called.running⟩

/-- The tasks after an interrupt: one is switched out, and one switched in and run. -/
def turned {Entry : Type} (tasks : Tasks Entry) (prev : Option Task) (next : Task)
    (frame : Option TrapFrame) : Tasks Entry :=
  let out := taskContextSwitchOut tasks prev frame
  Function.update out next ((out next).switchedIn frame).ran

section Turned

variable {Entry : Type} (tasks : Tasks Entry) (prev : Option Task) (next : Task)
  (frame : Option TrapFrame) (task : Task)

theorem switchOut_apply : taskContextSwitchOut tasks prev frame task =
    if prev = some task then (tasks task).switchedOut frame else tasks task := by
  cases prev with
  | none => rfl
  | some other =>
      simp only [taskContextSwitchOut, Function.update_apply, Option.some_inj, eq_comm (a := task)]
      by_cases same : other = task
      · rw [if_pos same, if_pos same, same]
      · rw [if_neg same, if_neg same]

theorem turned_apply : turned tasks prev next frame task =
    if task = next then ((taskContextSwitchOut tasks prev frame task).switchedIn frame).ran
    else taskContextSwitchOut tasks prev frame task := by
  unfold turned
  rw [Function.update_apply]
  by_cases same : task = next
  · rw [if_pos same, if_pos same, same]
  · rw [if_neg same, if_neg same]

/-- What an interrupt does to a task that is switched out, or switched in and run, or
neither. -/
structure Turned (before after : TaskControlBlock Entry) (out in_ : Prop) [Decidable out]
    [Decidable in_] : Prop where
  id : after.id = before.id
  state : after.state =
    if in_ then .runnable else if out ∧ before.state = .running then .runnable else before.state
  runCount : after.runCount = before.runCount + if in_ then 1 else 0
  switchesIn : after.context.switchesIn = before.context.switchesIn + if in_ then 1 else 0
  switchesOut : after.context.switchesOut = before.context.switchesOut + if out then 1 else 0

/-- **What an interrupt does to each task.** -/
theorem turned_spec :
    Turned (tasks task) (turned tasks prev next frame task) (prev = some task) (task = next) := by
  rw [turned_apply, switchOut_apply]
  by_cases out : prev = some task
  · by_cases in_ : task = next
    · rw [if_pos out, if_pos in_]
      constructor <;> simp [TaskControlBlock.ran, TaskControlBlock.switchedIn,
        TaskControlBlock.switchedOut, out, in_]
    · rw [if_pos out, if_neg in_]
      constructor <;> simp [TaskControlBlock.switchedOut, out, in_]
  · by_cases in_ : task = next
    · subst in_
      rw [if_neg out, if_pos rfl]
      constructor <;> simp [TaskControlBlock.ran, TaskControlBlock.switchedIn, out]
    · rw [if_neg out, if_neg in_]
      constructor <;> simp [out, in_]

end Turned

/-- **An interrupt** switches the task of the current slot out, and switches the task of
the slot that it finds in and runs it. -/
theorem interrupt_spec (alone : LeavesAlone behaviour) {frame : Option TrapFrame}
    {out : SchedWorld Entry Memory} {next : Task} (running : world.schedulerRunning = true)
    (some_ : world.runnableCount ≠ 0)
    (switched : { world with
      tasks :=
        taskContextSwitchOut world.tasks (world.schedTaskFromSlot world.currentSlot) frame } =
        out)
    (slot : out.schedFindNextSlot ≠ schedNoSlot)
    (found : out.schedTaskFromSlot out.schedFindNextSlot = some next) :
    (world.schedHandleTimerInterrupt behaviour frame).1 = some next ∧
      Kept { world with
        currentSlot := out.schedFindNextSlot
        tasks := turned world.tasks (world.schedTaskFromSlot world.currentSlot) next frame }
        (world.schedHandleTimerInterrupt behaviour frame).2 := by
  unfold SchedWorld.schedHandleTimerInterrupt
  rw [if_neg (not_or.mpr ⟨not_not.mpr running, some_⟩)]
  simp only
  rw [switched, if_neg slot, found]
  refine ⟨rfl, ?_⟩
  have booked (world : SchedWorld Entry Memory) (prevTask : Option Task)
      (prevId nextId : UInt32) :
      Kept world ((world.logSwitch prevTask prevId nextId).countAlternation prevId nextId) :=
    (logSwitch_kept world prevTask prevId nextId).trans (countAlternation_kept _ prevId nextId)
  obtain ⟨tasks, queue, count, current, ran⟩ := runTask_kept alone _ next
  obtain ⟨tasks', queue', count', current', ran'⟩ := booked _ _ _ _
  subst switched
  refine ⟨tasks.trans ?_, queue.trans queue', count.trans count', current.trans current',
    ran.trans ran'⟩
  simp only
  rw [tasks']
  unfold turned taskContextSwitchIn
  simp only [Function.update_self, Function.update_idem]

end Step

/-! ## Going around the queue -/

section Rota

variable {Entry Memory : Type} {behaviour : Behaviour Entry Memory}
  {start world world' : SchedWorld Entry Memory} {slot other : ℕ} {task : Task}

/-- A task in a slot of the queue is in use, and has the slot's identifier. -/
theorem slot_task (here : world.schedTaskFromSlot slot = some task) :
    slot < world.runnableCount ∧ (world.tasks task).id = world.runnableQueue slot ∧
      (world.tasks task).state ≠ .unused := by
  unfold SchedWorld.schedTaskFromSlot at here
  by_cases outside : world.runnableCount ≤ slot
  · rw [if_pos outside] at here
    cases here
  · rw [if_neg outside] at here
    unfold taskFind at here
    have found := List.find?_some here
    rw [decide_eq_true_iff] at found
    exact ⟨Nat.lt_of_not_le outside, found⟩

/-- A world with the same queue, identifiers and tasks in use has the same tasks in its
slots. -/
theorem slot_congr (queue : world'.runnableQueue = world.runnableQueue)
    (count : world'.runnableCount = world.runnableCount)
    (ids : ∀ task, (world'.tasks task).id = (world.tasks task).id)
    (states : ∀ task, (world'.tasks task).state = .unused ↔ (world.tasks task).state = .unused)
    (slot : ℕ) : world'.schedTaskFromSlot slot = world.schedTaskFromSlot slot := by
  unfold SchedWorld.schedTaskFromSlot
  rw [queue, count, taskFind_congr ids states]

/-- A scheduler that is about to start: the slots of its queue hold tasks of their own
that can run and did not run yet. -/
structure Ready (start : SchedWorld Entry Memory) : Prop where
  running : start.schedulerRunning = true
  current : start.currentSlot = schedNoSlot
  some_ : 0 < start.runnableCount
  room : start.runnableCount ≤ taskMaxTasks
  distinct : ∀ slot other, slot < start.runnableCount → other < start.runnableCount →
    start.runnableQueue slot = start.runnableQueue other → slot = other
  live : ∀ slot < start.runnableCount, ∃ task, start.schedTaskFromSlot slot = some task
  fresh : ∀ task, (start.tasks task).state ≠ .unused → (start.tasks task).state = .runnable ∧
    (start.tasks task).runCount = 0 ∧ (start.tasks task).context.switchesIn = 0 ∧
    (start.tasks task).context.switchesOut = 0

theorem Ready.apart (ready : Ready start) (here : start.schedTaskFromSlot slot = some task)
    (there : start.schedTaskFromSlot other = some task) : slot = other := by
  obtain ⟨inside, id, _⟩ := slot_task here
  obtain ⟨inside', id', _⟩ := slot_task there
  exact ready.distinct slot other inside inside' (id.symm.trans id')

/-- The counters of a task hold the turns of its slot. -/
structure Counted {Entry : Type} (block : TaskControlBlock Entry) (n slot k : ℕ) : Prop where
  runCount : block.runCount = UInt64.ofNat (turns n slot k)
  switchesIn : block.context.switchesIn = UInt64.ofNat (turns n slot k)
  switchesOut : block.context.switchesOut = UInt64.ofNat (turns n slot (k - 1))

/-- The counters of a task follow an interrupt, as its turn comes or came before. -/
theorem Counted.turn {Entry : Type} {before after : TaskControlBlock Entry} {n slot k : ℕ}
    {out in_ : Prop} [Decidable out] [Decidable in_] (counted : Counted before n slot k)
    (turned : Turned before after out in_) (comes : in_ ↔ k % n = slot)
    (came : out ↔ 0 < k ∧ (k - 1) % n = slot) : Counted after n slot (k + 1) := by
  have add (count : ℕ) (turn : Prop) [Decidable turn] :
      UInt64.ofNat count + (if turn then 1 else 0) =
        UInt64.ofNat (count + if turn then 1 else 0) := by
    rw [UInt64.ofNat_add]
    split
    · rfl
    · rfl
  refine ⟨?_, ?_, ?_⟩
  · rw [turned.runCount, counted.runCount, turns_succ, ← add]
    simp only [comes]
  · rw [turned.switchesIn, counted.switchesIn, turns_succ, ← add]
    simp only [comes]
  · rw [turned.switchesOut, counted.switchesOut, Nat.add_sub_cancel, turns_pred _ _ k, ← add]
    simp only [came]

/-- A scheduler after `k` interrupts. -/
structure Rota (start : SchedWorld Entry Memory) (world : SchedWorld Entry Memory) (k : ℕ) :
    Prop where
  running : world.schedulerRunning = true
  queue : world.runnableQueue = start.runnableQueue
  count : world.runnableCount = start.runnableCount
  current : world.currentSlot = if k = 0 then schedNoSlot else (k - 1) % start.runnableCount
  ids : ∀ task, (world.tasks task).id = (start.tasks task).id
  states : ∀ task, (world.tasks task).state = (start.tasks task).state
  counted : ∀ slot task, start.schedTaskFromSlot slot = some task →
    Counted (world.tasks task) start.runnableCount slot k

theorem Ready.rota (ready : Ready start) : Rota start start 0 where
  running := ready.running
  queue := rfl
  count := rfl
  current := ready.current
  ids := fun _ => rfl
  states := fun _ => rfl
  counted := by
    intro slot task here
    obtain ⟨_, ran, switchesIn, switchesOut⟩ := ready.fresh task (slot_task here).2.2
    exact ⟨ran, switchesIn, switchesOut⟩

namespace Rota

variable {k : ℕ}

theorem slots (rota : Rota start world k) (slot : ℕ) :
    world.schedTaskFromSlot slot = start.schedTaskFromSlot slot :=
  slot_congr rota.queue rota.count rota.ids (fun task => by rw [rota.states]) slot

/-- The slot that the search starts at is the next one around the queue. -/
theorem startSlot_eq (ready : Ready start) (rota : Rota start world k) :
    world.startSlot = k % start.runnableCount := by
  unfold SchedWorld.startSlot
  rw [rota.current, rota.count]
  cases k with
  | zero =>
      rw [if_pos rfl, if_pos rfl, Nat.zero_mod]
  | succ k =>
      have inside : k % start.runnableCount < start.runnableCount := Nat.mod_lt k ready.some_
      have slot : k % start.runnableCount ≠ schedNoSlot :=
        Nat.ne_of_lt ((inside.trans_le ready.room).trans (by decide))
      rw [if_neg (Nat.succ_ne_zero k), Nat.add_sub_cancel, if_neg slot, succ_mod ready.some_]

/-- The task that ran before is the one of the previous slot. -/
theorem prev_eq (ready : Ready start) (rota : Rota start world k) :
    world.schedTaskFromSlot world.currentSlot =
      if k = 0 then none else start.schedTaskFromSlot ((k - 1) % start.runnableCount) := by
  rw [rota.slots, rota.current]
  by_cases first : k = 0
  · rw [if_pos first, if_pos first]
    unfold SchedWorld.schedTaskFromSlot
    exact if_pos (ready.room.trans (by decide))
  · rw [if_neg first, if_neg first]

/-- The search finds the slot that it starts at, if the task there can run. -/
theorem findNextSlot_eq {out : SchedWorld Entry Memory}
    (here : out.schedTaskFromSlot out.startSlot = some task)
    (runnable : (out.tasks task).state = .runnable) : out.schedFindNextSlot = out.startSlot := by
  have inside : out.startSlot < out.runnableCount := (slot_task here).1
  obtain ⟨rounds, counted⟩ := Nat.exists_eq_succ_of_ne_zero (Nat.ne_zero_of_lt inside)
  unfold SchedWorld.schedFindNextSlot
  rw [if_neg (Nat.ne_zero_of_lt inside)]
  have first : out.findSlotLoop out.startSlot (rounds + 1) 0 = out.startSlot := by
    unfold SchedWorld.findSlotLoop
    simp only [Nat.add_zero, if_neg (Nat.not_le.mpr inside), here, runnable, if_true]
  rw [← Nat.succ_eq_add_one, ← counted] at first
  exact first

/-- No task runs between the interrupts. -/
theorem resting (ready : Ready start) (rota : Rota start world k) (task : Task) :
    (world.tasks task).state ≠ .running := by
  rw [rota.states]
  intro running
  have state := (ready.fresh task (by rw [running]; exact TaskState.noConfusion)).1
  rw [running] at state
  cases state

/-- Switching a task out between the interrupts keeps the state of each. -/
theorem out_state (ready : Ready start) (rota : Rota start world k) (prev : Option Task)
    (frame : Option TrapFrame) (task : Task) :
    (taskContextSwitchOut world.tasks prev frame task).state = (start.tasks task).state ∧
      (taskContextSwitchOut world.tasks prev frame task).id = (start.tasks task).id := by
  rw [switchOut_apply]
  by_cases out : prev = some task
  · rw [if_pos out]
    refine ⟨?_, rota.ids task⟩
    unfold TaskControlBlock.switchedOut
    rw [if_neg (rota.resting ready task)]
    exact rota.states task
  · rw [if_neg out]
    exact ⟨rota.states task, rota.ids task⟩

/-- **One interrupt** runs the task of the next slot around the queue. -/
theorem step (alone : LeavesAlone behaviour) (ready : Ready start) (rota : Rota start world k)
    (frame : Option TrapFrame) :
    ((interrupts behaviour).step world frame).1 =
        start.schedTaskFromSlot (k % start.runnableCount) ∧
      Rota start ((interrupts behaviour).step world frame).2 (k + 1) := by
  obtain ⟨next, here⟩ := ready.live (k % start.runnableCount) (Nat.mod_lt k ready.some_)
  have prev := rota.prev_eq ready
  generalize switched : ({ world with
    tasks := taskContextSwitchOut world.tasks (world.schedTaskFromSlot world.currentSlot)
      frame } : SchedWorld Entry Memory) = out
  have tasks (task : Task) : (out.tasks task).state = (start.tasks task).state ∧
      (out.tasks task).id = (start.tasks task).id := by
    rw [← switched]
    exact rota.out_state ready _ frame task
  have queue : out.runnableQueue = start.runnableQueue ∧
      out.runnableCount = start.runnableCount ∧ out.startSlot = world.startSlot := by
    rw [← switched]
    exact ⟨rota.queue, rota.count, rfl⟩
  have startSlot : out.startSlot = k % start.runnableCount :=
    queue.2.2.trans (rota.startSlot_eq ready)
  have found : out.schedTaskFromSlot out.startSlot = some next := by
    rw [startSlot, ← here]
    exact slot_congr queue.1 queue.2.1 (fun task => (tasks task).2)
      (fun task => by rw [(tasks task).1]) _
  have runnable : (out.tasks next).state = .runnable :=
    (tasks next).1.trans (ready.fresh next (slot_task here).2.2).1
  have slot := findNextSlot_eq found runnable
  have valid : out.schedFindNextSlot ≠ schedNoSlot := by
    rw [slot, startSlot]
    exact Nat.ne_of_lt
      (((Nat.mod_lt k ready.some_).trans_le ready.room).trans (by decide))
  have counted : world.runnableCount ≠ 0 := rota.count ▸ Nat.ne_of_gt ready.some_
  obtain ⟨answer, kept⟩ :=
    interrupt_spec alone rota.running counted switched valid (slot ▸ found)
  refine ⟨answer.trans here.symm, ?_⟩
  have after : ((interrupts behaviour).step world frame).2.tasks =
      turned world.tasks (world.schedTaskFromSlot world.currentSlot) next frame := kept.tasks
  have turn (task : Task) : Turned (world.tasks task)
      (((interrupts behaviour).step world frame).2.tasks task)
      (world.schedTaskFromSlot world.currentSlot = some task) (task = next) := by
    rw [after]
    exact turned_spec world.tasks _ next frame task
  constructor
  case running => exact kept.running.trans rota.running
  case queue => exact kept.queue.trans rota.queue
  case count => exact kept.count.trans rota.count
  case current =>
    refine kept.current.trans ?_
    rw [if_neg (Nat.succ_ne_zero k), Nat.add_sub_cancel]
    exact slot.trans startSlot
  case ids => exact fun task => (turn task).id.trans (rota.ids task)
  case states =>
    intro task
    refine (turn task).state.trans ?_
    by_cases next' : task = next
    · rw [if_pos next', next']
      exact (ready.fresh next (slot_task here).2.2).1.symm
    · rw [if_neg next', if_neg fun both => rota.resting ready task both.2]
      exact rota.states task
  case counted =>
    intro slot task there
    have mine : task = next ↔ k % start.runnableCount = slot := by
      constructor
      · intro same
        exact ready.apart here (same ▸ there)
      · intro same
        rw [same, there] at here
        exact Option.some_inj.mp here
    have before : world.schedTaskFromSlot world.currentSlot = some task ↔
        0 < k ∧ (k - 1) % start.runnableCount = slot := by
      rw [prev]
      by_cases first : k = 0
      · rw [if_pos first, first]
        simp
      · rw [if_neg first]
        constructor
        · intro same
          exact ⟨Nat.pos_of_ne_zero first, ready.apart same there⟩
        · intro same
          rw [same.2, there]
    exact (rota.counted slot task there).turn (turn task) mine before

end Rota

/-- A scheduler that is ready goes around its queue. -/
def rotaSimulation (alone : LeavesAlone behaviour) (ready : Ready start) :
    (interrupts behaviour).Simulation
      (circle start.runnableCount start.schedTaskFromSlot (Option TrapFrame))
      fun _ _ => True where
  related := Rota start
  step := fun rota _ => rota.step alone ready _

/-- **Every run** of interrupts goes around the queue. -/
theorem rota_run (alone : LeavesAlone behaviour) (ready : Ready start)
    (frames : List (Option TrapFrame)) :
    (interrupts behaviour).results start frames =
        (List.range frames.length).map
          (fun i => start.schedTaskFromSlot (i % start.runnableCount)) ∧
      Rota start ((interrupts behaviour).state start frames) frames.length := by
  have along : (interrupts behaviour).Along (fun _ _ => True) start frames :=
    Machine.along_of_forall (fun _ _ _ => trivial) start
  obtain ⟨answers, rota⟩ := (rotaSimulation alone ready).run ready.rota along
  rw [circle_results, ← List.range_eq_range'] at answers
  rw [circle_state, Nat.zero_add] at rota
  exact ⟨answers, rota⟩

end Rota

/-! ## Setting the scheduler up -/

section Setup

variable {Entry Memory : Type} {world : SchedWorld Entry Memory}

/-- A scheduler that is being set up has no current slot and no task that ran. -/
structure SetUp (world : SchedWorld Entry Memory) : Prop where
  current : world.currentSlot = schedNoSlot
  room : world.runnableCount ≤ taskMaxTasks
  fresh : ∀ task, (world.tasks task).state ≠ .unused → (world.tasks task).state = .runnable ∧
    (world.tasks task).runCount = 0 ∧ (world.tasks task).context.switchesIn = 0 ∧
    (world.tasks task).context.switchesOut = 0

theorem setUp_schedInit (world : SchedWorld Entry Memory) : SetUp world.schedInit :=
  ⟨rfl, Nat.zero_le _, fun _ used => absurd rfl used⟩

theorem SetUp.step (setUp : SetUp world) (op : SetupOp Entry) :
    SetUp (setups.step world op).2 := by
  cases op with
  | create name entry =>
      have created := taskCreate_cases world.tasks name entry
      change SetUp { world with tasks := (taskCreate world.tasks name entry).2 }
      rcases created with same | ⟨task, _, same⟩
      · rw [same]
        exact setUp
      · rw [same]
        refine ⟨setUp.current, setUp.room, ?_⟩
        intro other
        simp only [Function.update_apply]
        by_cases new : other = task
        · rw [if_pos new]
          exact fun _ => ⟨rfl, rfl, rfl, rfl⟩
        · rw [if_neg new]
          exact setUp.fresh other
  | enqueue task =>
      change SetUp (world.schedEnqueueTask task).2
      unfold SchedWorld.schedEnqueueTask
      cases task with
      | none => exact setUp
      | some task =>
          simp only
          by_cases full : taskMaxTasks ≤ world.runnableCount
          · rw [if_pos full]
            exact setUp
          · rw [if_neg full]
            exact ⟨setUp.current, Nat.lt_of_not_le full, setUp.fresh⟩

/-- A queue of tasks of their own that are in use is ready. -/
theorem ready_built {ops : List (SetupOp Entry)} (some_ : 0 < (world.built ops).runnableCount)
    (distinct : (world.built ops).queued.Nodup)
    (live : ∀ slot < (world.built ops).runnableCount,
      ((world.built ops).schedTaskFromSlot slot).isSome = true) : Ready (world.built ops) := by
  have setUp : SetUp (setups.state world.schedInit ops) :=
    Machine.state_invariant (fun _ op setUp => setUp.step op) (setUp_schedInit world) ops
  refine ⟨rfl, setUp.current, some_, setUp.room, ?_, ?_, setUp.fresh⟩
  · intro slot other inside inside' same
    exact List.inj_on_of_nodup_map distinct (List.mem_range.mpr inside)
      (List.mem_range.mpr inside') same
  · intro slot inside
    exact Option.isSome_iff_exists.mp (live slot inside)

end Setup

/-! ## Accounting -/

section Accounting

variable {Entry Memory : Type} {behaviour : Behaviour Entry Memory}
  {start world : SchedWorld Entry Memory}

/-- A count of the task in a slot. -/
def SchedWorld.countAt (start : SchedWorld Entry Memory) (count : Task → ℕ) (slot : ℕ) : ℕ :=
  (start.schedTaskFromSlot slot).elim 0 count

/-- The counters after `k` interrupts: the runs of two tasks differ by at most one and sum
up to `k`, and each task was switched in for each run, and out again unless it was the
last. -/
structure Accounts (start world : SchedWorld Entry Memory) (k : ℕ) : Prop where
  fair : ∀ slot other, slot < start.runnableCount → other < start.runnableCount →
    start.countAt (fun task => (world.tasks task).runCount.toNat) slot ≤
      start.countAt (fun task => (world.tasks task).runCount.toNat) other + 1
  runs : ∑ slot ∈ Finset.range start.runnableCount,
    start.countAt (fun task => (world.tasks task).runCount.toNat) slot = k
  switchesIn : ∀ slot task, start.schedTaskFromSlot slot = some task →
    (world.tasks task).context.switchesIn = (world.tasks task).runCount
  switchesOut : ∀ slot task, start.schedTaskFromSlot slot = some task →
    (world.tasks task).context.switchesIn.toNat = (world.tasks task).context.switchesOut.toNat +
      if 0 < k ∧ (k - 1) % start.runnableCount = slot then 1 else 0
  outs : ∑ slot ∈ Finset.range start.runnableCount,
    start.countAt (fun task => (world.tasks task).context.switchesOut.toNat) slot = k - 1

/-- What `k` interrupts do to a scheduler. -/
structure RoundRobin (behaviour : Behaviour Entry Memory) (start : SchedWorld Entry Memory)
    (frames : List (Option TrapFrame)) : Prop where
  schedule : (interrupts behaviour).results start frames = (List.range frames.length).map
    fun i => start.schedTaskFromSlot (i % start.runnableCount)
  fair : ∀ slot other, slot < start.runnableCount → other < start.runnableCount →
    turns start.runnableCount slot frames.length ≤
      turns start.runnableCount other frames.length + 1
  total : ∑ slot ∈ Finset.range start.runnableCount,
    turns start.runnableCount slot frames.length = frames.length
  counted : ∀ slot task, start.schedTaskFromSlot slot = some task →
    Counted (((interrupts behaviour).state start frames).tasks task) start.runnableCount slot
      frames.length
  runnable : ∀ task, (start.tasks task).state ≠ .unused →
    (((interrupts behaviour).state start frames).tasks task).state = .runnable
  accounts : (∀ slot < start.runnableCount,
      turns start.runnableCount slot frames.length < 2 ^ 64) →
    Accounts start ((interrupts behaviour).state start frames) frames.length

/-- Counters that did not wrap around account for all interrupts. -/
theorem Rota.accounts {k : ℕ} (ready : Ready start) (rota : Rota start world k)
    (below : ∀ slot < start.runnableCount, turns start.runnableCount slot k < 2 ^ 64) :
    Accounts start world k := by
  have earlier {slot : ℕ} (inside : slot < start.runnableCount) :
      turns start.runnableCount slot (k - 1) < 2 ^ 64 := by
    refine lt_of_le_of_lt ?_ (below slot inside)
    rw [turns_pred _ _ k]
    exact Nat.le_add_right _ _
  have runs {slot : ℕ} (inside : slot < start.runnableCount) :
      start.countAt (fun task => (world.tasks task).runCount.toNat) slot =
        turns start.runnableCount slot k := by
    obtain ⟨task, here⟩ := ready.live slot inside
    unfold SchedWorld.countAt
    rw [here, Option.elim_some, (rota.counted slot task here).runCount]
    exact UInt64.toNat_ofNat_of_lt' (below slot inside)
  have outs {slot : ℕ} (inside : slot < start.runnableCount) :
      start.countAt (fun task => (world.tasks task).context.switchesOut.toNat) slot =
        turns start.runnableCount slot (k - 1) := by
    obtain ⟨task, here⟩ := ready.live slot inside
    unfold SchedWorld.countAt
    rw [here, Option.elim_some, (rota.counted slot task here).switchesOut]
    exact UInt64.toNat_ofNat_of_lt' (earlier inside)
  refine ⟨?_, ?_, ?_, ?_, ?_⟩
  · intro slot other inside inside'
    rw [runs inside, runs inside']
    exact turns_fair inside inside' k
  · rw [Finset.sum_congr rfl fun slot member => runs (Finset.mem_range.mp member)]
    exact sum_turns ready.some_ k
  · intro slot task here
    have counted := rota.counted slot task here
    rw [counted.switchesIn, counted.runCount]
  · intro slot task here
    have inside := (slot_task here).1
    have counted := rota.counted slot task here
    rw [counted.switchesIn, counted.switchesOut, UInt64.toNat_ofNat_of_lt' (below slot inside),
      UInt64.toNat_ofNat_of_lt' (earlier inside)]
    exact turns_pred _ _ k
  · rw [Finset.sum_congr rfl fun slot member => outs (Finset.mem_range.mp member)]
    exact sum_turns ready.some_ (k - 1)

/-- **Round-robin.** The interrupts run the tasks of a queue in turn; between them every
task can run, and the counters hold the turns modulo `2 ^ 64`. -/
theorem round_robin (alone : LeavesAlone behaviour) {ops : List (SetupOp Entry)}
    (some_ : 0 < (world.built ops).runnableCount) (distinct : (world.built ops).queued.Nodup)
    (live : ∀ slot < (world.built ops).runnableCount,
      ((world.built ops).schedTaskFromSlot slot).isSome = true)
    (frames : List (Option TrapFrame)) : RoundRobin behaviour (world.built ops) frames := by
  have ready := ready_built some_ distinct live
  obtain ⟨schedule, rota⟩ := rota_run alone ready frames
  refine ⟨schedule, ?_, sum_turns some_ _, rota.counted, ?_, rota.accounts ready⟩
  · exact fun slot other inside inside' => turns_fair inside inside' _
  · intro task used
    rw [rota.states]
    exact (ready.fresh task used).1

/-- Functions that leave everything alone. -/
def idle : Behaviour Empty Unit := fun entry => entry.elim

theorem idle_leavesAlone : LeavesAlone idle := fun entry => entry.elim

/-- The two tasks of the kernel, in turn. -/
theorem round_robin_bootstrap :
    RoundRobin idle (SchedWorld.zero Empty ()).schedBootstrapTestTasks
      (List.replicate 6 (some ⟨0x80000000, 0x8000000000000007⟩)) := by
  rw [bootstrap_built rfl]
  exact round_robin idle_leavesAlone (by decide) (by decide) (by decide) _

/-! ## Counters that wrap around -/

private theorem noNul_taskName : 0 ∉ ascii "task-1" := by decide

private theorem taskMaxTasks_pos : 0 < taskMaxTasks := by decide

/-- The setup of a single task. -/
def singleOps : List (SetupOp Entry) :=
  [.create (some ⟨ascii "task-1", noNul_taskName⟩) (some .schedTestTask1),
    .enqueue (some ⟨0, taskMaxTasks_pos⟩)]

/-- A single task that ran `2 ^ 64` times has run `0` times by its counter. -/
theorem single_wraps {frames : List (Option TrapFrame)} (whole : frames.length = 2 ^ 64) :
    ¬ Accounts ((SchedWorld.zero Empty ()).built singleOps)
      ((interrupts idle).state ((SchedWorld.zero Empty ()).built singleOps) frames)
      frames.length := by
  have ready : Ready ((SchedWorld.zero Empty ()).built singleOps) :=
    ready_built (by decide) (by decide) (by decide)
  have counted := (rota_run idle_leavesAlone ready frames).2.counted 0 ⟨0, by decide⟩ rfl
  have all : turns 1 0 frames.length = frames.length := by
    rw [turns_eq Nat.one_pos, Nat.div_one, Nat.mod_one, if_neg (Nat.lt_irrefl 0), Nat.add_zero]
  intro accounts
  have runs : (((interrupts idle).state ((SchedWorld.zero Empty ()).built singleOps)
      frames).tasks ⟨0, by decide⟩).runCount.toNat = frames.length := accounts.runs
  have zero : UInt64.ofNat (turns 1 0 frames.length) = 0 := by
    rw [all, whole]
    rfl
  rw [counted.runCount] at runs
  change (UInt64.ofNat (turns 1 0 frames.length)).toNat = frames.length at runs
  rw [zero, whole] at runs
  cases runs

/-- **The counters leave the number of interrupts**: after `2 ^ 64` of them on the queue
of a single task, its runs do not sum up to them. -/
theorem run_counts_wrap : 0 < ((SchedWorld.zero Empty ()).built singleOps).runnableCount ∧
    ((SchedWorld.zero Empty ()).built singleOps).queued.Nodup ∧
    (((SchedWorld.zero Empty ()).built singleOps).schedTaskFromSlot 0).isSome = true ∧
    ¬ Accounts ((SchedWorld.zero Empty ()).built singleOps)
      ((interrupts idle).state ((SchedWorld.zero Empty ()).built singleOps)
        (List.replicate (2 ^ 64) none)) (2 ^ 64) := by
  have length : (List.replicate (2 ^ 64) none : List (Option TrapFrame)).length = 2 ^ 64 :=
    List.length_replicate
  have wraps := single_wraps length
  rw [length] at wraps
  exact ⟨by decide, by decide, by decide, wraps⟩

end Accounting

end TigerOS.Sched
