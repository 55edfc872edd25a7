import TigerOS.Foundation.CString
import TigerOS.Foundation.Machine
import TigerOS.Foundation.Progression
import Mathlib.Algebra.Group.Nat.Defs

/-! # The clock

The clock programs a deadline for the timer and moves it by whole intervals when an interrupt
comes, however early or late. The deadline it programs is the least one that is past the time
read, keeps the phase of the first deadline and is an interval after the last
(`TigerOS.Sched.deadlines_exact`).
-/

namespace TigerOS.Sched

open Foundation

/-- `CLOCK_INTERVAL_TICKS`. -/
def clockIntervalTicks : UInt64 := 1000000

/-- `CLOCK_LOG_LIMIT`. -/
def clockLogLimit : UInt32 := 4

/-- The globals of `clock.c`, with the deadlines that the timer was given, whether its
interrupts are enabled, and the texts that were written. -/
structure Clock where
  tickCount : UInt64
  nextDeadline : UInt64
  tickLogCount : UInt32
  programmed : List UInt64
  interruptsEnabled : Bool
  written : List (List UInt8)

/-- The clock as the kernel's image loads it. -/
def Clock.zero : Clock := ⟨0, 0, 0, [], false, []⟩

section Clock

variable (clock : Clock) (now : UInt64)

/-- `riscv_timer_set_deadline` on the deadline of the clock. -/
def Clock.setDeadline : Clock :=
  { clock with programmed := clock.programmed ++ [clock.nextDeadline] }

/-- `clock_program_deadline`, where the timer reads `now`. -/
def clockProgramDeadline : Clock :=
  let clock :=
    if clock.nextDeadline ≤ now then
      let missed := (now - clock.nextDeadline) / clockIntervalTicks + 1
      { clock with nextDeadline := clock.nextDeadline + missed * clockIntervalTicks }
    else clock
  clock.setDeadline

/-- `clock_init`, where the timer reads `now`. -/
def clockInit : Clock :=
  let clock :=
    { clock with
      tickCount := 0
      tickLogCount := 0
      nextDeadline := now + clockIntervalTicks }
  { clock.setDeadline with interruptsEnabled := true }

/-- The first lines of `clock_handle_timer_interrupt`: an interrupt counts and moves the
deadline by an interval. -/
def Clock.advance : Clock :=
  { clock with
    tickCount := clock.tickCount + 1
    nextDeadline := clock.nextDeadline + clockIntervalTicks }

/-- The last lines of `clock_handle_timer_interrupt`: the first interrupts are logged. -/
def Clock.logTick : Clock :=
  if clock.tickLogCount < clockLogLimit then
    { clock with
      written := clock.written ++ [ascii "TICK: periodic interrupt\n"]
      tickLogCount := clock.tickLogCount + 1 }
  else clock

/-- `clock_handle_timer_interrupt`, where the timer reads `now`. -/
def clockHandleTimerInterrupt : Clock :=
  (clockProgramDeadline clock.advance now).logTick

/-- `clock_ticks`. -/
def clockTicks : UInt64 := clock.tickCount

end Clock

/-- The calls on the clock, each with the time that the timer reads in it. -/
inductive ClockOp where
  | init (now : UInt64)
  | timerInterrupt (now : UInt64)

def clockStep (clock : Clock) : ClockOp → Unit × Clock
  | .init now => ((), clockInit clock now)
  | .timerInterrupt now => ((), clockHandleTimerInterrupt clock now)

/-- The clock as a machine. -/
def clocks : Machine Clock ClockOp Unit := ⟨clockStep⟩

theorem clocks_timerInterrupt (clock : Clock) (now : UInt64) :
    (clocks.step clock (.timerInterrupt now)).2 = clockHandleTimerInterrupt clock now := by
  simp only [clocks, clockStep]

theorem clocks_init (clock : Clock) (now : UInt64) :
    (clocks.step clock (.init now)).2 = clockInit clock now := by
  simp only [clocks, clockStep]

/-! ## One interrupt -/

/-- The interval, on natural numbers. -/
def interval : ℕ := 1000000

theorem interval_positive : 0 < interval := by decide

theorem toNat_clockIntervalTicks : clockIntervalTicks.toNat = interval := rfl

/-- Adding an interval below the end of the range does not wrap. -/
theorem toNat_add_interval {deadline : UInt64} (low : deadline.toNat < 2 ^ 64 - interval) :
    (deadline + clockIntervalTicks).toNat = deadline.toNat + interval := by
  rw [UInt64.toNat_add, toNat_clockIntervalTicks]
  exact Nat.mod_eq_of_lt (by omega)

/-- Moving a deadline by the intervals missed and one more brings it to the first one past the
time, for any length of the interval. -/
theorem toNat_catchUp {deadline now ticks : UInt64} (positive : 0 < ticks.toNat)
    (late : deadline ≤ now) (early : now.toNat < 2 ^ 64 - ticks.toNat) :
    (deadline + ((now - deadline) / ticks + 1) * ticks).toNat =
      firstPast ticks.toNat deadline.toNat now.toNat := by
  have late' : deadline.toNat ≤ now.toNat := UInt64.le_iff_toNat_le.mp late
  have near := (@firstPast_bounds ticks.toNat deadline.toNat now.toNat positive).2 late'
  unfold firstPast at near ⊢
  rw [if_pos late'] at near ⊢
  -- neither the number of intervals nor their sum leaves the range
  have few : (now.toNat - deadline.toNat) / ticks.toNat + 1 < 2 ^ 64 := by
    have := Nat.le_mul_of_pos_right ((now.toNat - deadline.toNat) / ticks.toNat + 1) positive
    omega
  have one : (1 : UInt64).toNat = 1 := rfl
  rw [UInt64.toNat_add, UInt64.toNat_mul, UInt64.toNat_add, UInt64.toNat_div,
    UInt64.toNat_sub_of_le _ _ late, one, Nat.mod_eq_of_lt few,
    Nat.mod_eq_of_lt (a := _ * _) (by omega)]
  exact Nat.mod_eq_of_lt (by omega)

section Step

variable {clock : Clock} {now : UInt64}

theorem setDeadline_spec (deadline : UInt64) :
    (Clock.setDeadline { clock with nextDeadline := deadline }).nextDeadline = deadline ∧
      (Clock.setDeadline { clock with nextDeadline := deadline }).programmed =
        clock.programmed ++ [deadline] ∧
      (Clock.setDeadline { clock with nextDeadline := deadline }).tickCount = clock.tickCount :=
  ⟨rfl, rfl, rfl⟩

theorem logTick_spec :
    clock.logTick.nextDeadline = clock.nextDeadline ∧
      clock.logTick.programmed = clock.programmed ∧
      clock.logTick.tickCount = clock.tickCount := by
  unfold Clock.logTick
  split <;> exact ⟨rfl, rfl, rfl⟩

theorem advance_spec :
    clock.advance.nextDeadline = clock.nextDeadline + clockIntervalTicks ∧
      clock.advance.programmed = clock.programmed ∧
      clock.advance.tickCount = clock.tickCount + 1 :=
  ⟨rfl, rfl, rfl⟩

theorem clockProgramDeadline_of_late (late : clock.nextDeadline ≤ now) :
    clockProgramDeadline clock now =
      Clock.setDeadline { clock with nextDeadline := clock.nextDeadline +
        ((now - clock.nextDeadline) / clockIntervalTicks + 1) * clockIntervalTicks } := by
  unfold clockProgramDeadline
  rw [if_pos late]

theorem clockProgramDeadline_of_early (early : ¬ clock.nextDeadline ≤ now) :
    clockProgramDeadline clock now =
      Clock.setDeadline { clock with nextDeadline := clock.nextDeadline } := by
  unfold clockProgramDeadline
  rw [if_neg early]

/-- The deadline that is programmed is the first one past the time read. -/
theorem programDeadline_spec (early : now.toNat < 2 ^ 64 - interval) :
    ∃ deadline : UInt64,
      deadline.toNat = firstPast interval clock.nextDeadline.toNat now.toNat ∧
        clockProgramDeadline clock now =
          Clock.setDeadline { clock with nextDeadline := deadline } := by
  by_cases late : clock.nextDeadline ≤ now
  · have caught := @toNat_catchUp clock.nextDeadline now clockIntervalTicks
      interval_positive late early
    exact ⟨_, caught, clockProgramDeadline_of_late late⟩
  · refine ⟨_, ?_, clockProgramDeadline_of_early late⟩
    exact (if_neg (fun late' => late (UInt64.le_iff_toNat_le.mpr late'))).symm

/-- What an interrupt does to the deadline and the count. -/
theorem timerInterrupt_spec (early : now.toNat < 2 ^ 64 - interval)
    (low : clock.nextDeadline.toNat < 2 ^ 64 - interval) :
    (clockHandleTimerInterrupt clock now).nextDeadline.toNat =
        firstPast interval (clock.nextDeadline.toNat + interval) now.toNat ∧
      (clockHandleTimerInterrupt clock now).programmed =
        clock.programmed ++ [(clockHandleTimerInterrupt clock now).nextDeadline] ∧
      (clockHandleTimerInterrupt clock now).tickCount = clock.tickCount + 1 := by
  obtain ⟨deadline, place, moved⟩ := @programDeadline_spec clock.advance now early
  obtain ⟨later, kept, counted⟩ := @advance_spec clock
  obtain ⟨next, programmed, count⟩ := @setDeadline_spec clock.advance deadline
  rw [later, toNat_add_interval low] at place
  unfold clockHandleTimerInterrupt
  rw [logTick_spec.1, logTick_spec.2.1, logTick_spec.2.2, moved, next, programmed, count, kept,
    counted]
  exact ⟨place, rfl, rfl⟩

end Step

/-! ## Whole runs -/

/-- The times and the deadlines of a call leave room for an interval. -/
def InRange (clock : Clock) : ClockOp → Prop
  | .init now => now.toNat < 2 ^ 64 - interval
  | .timerInterrupt now =>
      now.toNat < 2 ^ 64 - interval ∧ clock.nextDeadline.toNat < 2 ^ 64 - interval

instance (clock : Clock) : (op : ClockOp) → Decidable (InRange clock op)
  | .init now => inferInstanceAs (Decidable (now.toNat < 2 ^ 64 - interval))
  | .timerInterrupt now => inferInstanceAs
      (Decidable (now.toNat < 2 ^ 64 - interval ∧ clock.nextDeadline.toNat < 2 ^ 64 - interval))

/-- The clock keeps the phase of its first deadline, has moved on by an interval for each
interrupt at least, counts the interrupts, and has given the timer its deadline. -/
structure Phased (first handled : ℕ) (clock : Clock) : Prop where
  phase : ∃ k, handled ≤ k ∧ clock.nextDeadline.toNat = first + k * interval
  programmed : clock.programmed.getLast? = some clock.nextDeadline
  count : clock.tickCount = UInt64.ofNat handled

variable {clock : Clock} {first handled : ℕ}

theorem clockInit_phased {now : UInt64} (early : now.toNat < 2 ^ 64 - interval) :
    Phased (now.toNat + interval) 0 (clockInit clock now) where
  phase := ⟨0, le_rfl, by
    rw [Nat.zero_mul, Nat.add_zero]
    exact toNat_add_interval early⟩
  programmed := List.getLast?_concat
  count := rfl

theorem Phased.timerInterrupt (phased : Phased first handled clock) {now : UInt64}
    (early : now.toNat < 2 ^ 64 - interval) (low : clock.nextDeadline.toNat < 2 ^ 64 - interval) :
    Phased first (handled + 1) (clockHandleTimerInterrupt clock now) := by
  obtain ⟨next, programmed, count⟩ := timerInterrupt_spec early low
  obtain ⟨k, enough, place⟩ := phased.phase
  obtain ⟨more, moved⟩ := (firstPast_isLeast interval_positive).1.2
  refine ⟨⟨k + 1 + more, by omega, ?_⟩, ?_, ?_⟩
  · rw [next, moved, place, Nat.add_mul, Nat.add_mul]
    omega
  · rw [programmed]
    exact List.getLast?_concat
  · rw [count, phased.count, UInt64.ofNat_add]
    rfl

/-- The clock after interrupts. -/
theorem Phased.timerInterrupts (phased : Phased first handled clock) :
    ∀ {times : List UInt64}, clocks.Along InRange clock (times.map .timerInterrupt) →
      Phased first (handled + times.length)
        (clocks.state clock (times.map .timerInterrupt)) := by
  intro times inRange
  induction times generalizing clock handled with
  | nil => exact phased
  | cons now times ih =>
      rw [List.map_cons, Machine.along_cons, clocks_timerInterrupt] at inRange
      obtain ⟨⟨early, low⟩, inRange⟩ := inRange
      have next := ih (phased.timerInterrupt early low) inRange
      rw [List.length_cons, Nat.add_comm times.length, ← Nat.add_assoc, List.map_cons,
        Machine.state_cons, clocks_timerInterrupt]
      exact next

/-- An interrupt at the end of a run. -/
theorem state_timerInterrupt (start : Clock) (ops : List ClockOp) (now : UInt64) :
    clocks.state start (ops ++ [.timerInterrupt now]) =
      clockHandleTimerInterrupt (clocks.state start ops) now := by
  rw [Machine.state_append, Machine.state_cons, Machine.state_nil, clocks_timerInterrupt]

/-- **The deadlines neither drift nor fall behind.** However early or late interrupts come after
the clock starts, each programs one deadline: the least one past the time read that is the first
deadline and whole intervals, an interval at least after the one programmed before. The clock has
then counted the interrupts. -/
theorem deadlines_exact (start : Clock) (began : UInt64) (times : List UInt64) (now : UInt64)
    (inRange : clocks.Along InRange start
      (.init began :: (times ++ [now]).map .timerInterrupt)) :
    let before := clocks.state start (.init began :: times.map .timerInterrupt)
    let after := clocks.state start (.init began :: (times ++ [now]).map .timerInterrupt)
    let first := began.toNat + interval
    (∃ previous next,
      before.programmed.getLast? = some previous ∧
        after.programmed = before.programmed ++ [next] ∧
        IsLeast { deadline : ℕ | now.toNat < deadline ∧ (∃ k, deadline = first + k * interval) ∧
          previous.toNat + interval ≤ deadline } next.toNat) ∧
      (clockTicks after).toNat = (times ++ [now]).length := by
  intro before after first
  have split : ClockOp.init began :: (times ++ [now]).map .timerInterrupt =
      (.init began :: times.map .timerInterrupt) ++ [.timerInterrupt now] := by
    rw [List.map_append, List.cons_append, List.map_singleton]
  have last : after = clockHandleTimerInterrupt before now := by
    rw [← state_timerInterrupt, ← split]
  rw [split] at inRange
  have phased : Phased first times.length before := by
    have run := inRange.of_append
    rw [Machine.along_cons, clocks_init] at run
    have phased := (clockInit_phased run.1).timerInterrupts run.2
    rw [Nat.zero_add, ← clocks_init, ← Machine.state_cons] at phased
    exact phased
  obtain ⟨early, low⟩ := inRange.of_append_right.1
  obtain ⟨next, programmed, -⟩ := timerInterrupt_spec early low
  obtain ⟨k, enough, place⟩ := phased.phase
  have handled := phased.timerInterrupt early low
  rw [last]
  refine ⟨⟨before.nextDeadline, _, phased.programmed, programmed, ?_⟩, ?_⟩
  · have moved : before.nextDeadline.toNat + interval = first + (k + 1) * interval := by
      rw [place, Nat.succ_mul, Nat.add_assoc]
    rw [next, moved]
    exact firstPast_isLeast_from interval_positive (k + 1)
  · -- the deadlines have moved as often as interrupts came, and they are below the range's end
    obtain ⟨moves, often, final⟩ := handled.phase
    have below := (clockHandleTimerInterrupt before now).nextDeadline.toNat_lt
    have few : moves ≤ moves * interval := Nat.le_mul_of_pos_right moves interval_positive
    rw [List.length_append, List.length_singleton, clockTicks, handled.count]
    refine UInt64.toNat_ofNat_of_lt' ?_
    change times.length + 1 < 2 ^ 64
    omega

/-- Ticks that come early, on time and three intervals late. -/
theorem deadlines_exact_late :
    let times : List UInt64 := [1000099, 2000100]
    let before := clocks.state Clock.zero (.init 100 :: times.map .timerInterrupt)
    let after := clocks.state Clock.zero (.init 100 :: (times ++ [6000223]).map .timerInterrupt)
    (∃ previous next,
      before.programmed.getLast? = some previous ∧
        after.programmed = before.programmed ++ [next] ∧
        IsLeast { deadline : ℕ | (6000223 : UInt64).toNat < deadline ∧
          (∃ k, deadline = (100 : UInt64).toNat + interval + k * interval) ∧
          previous.toNat + interval ≤ deadline } next.toNat) ∧
      (clockTicks after).toNat = ([1000099, 2000100] ++ [6000223] : List UInt64).length :=
  deadlines_exact Clock.zero 100 [1000099, 2000100] 6000223 (by decide)

end TigerOS.Sched
