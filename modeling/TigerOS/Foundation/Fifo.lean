import TigerOS.Foundation.Machine

/-! # Bounded queues

A bounded queue is a list of the entries that wait. A push appends while there is
room, a pop takes the oldest entry, and a reset drops what waits. What a queue has
answered since its last reset is its *history*: the entries it accepted are those it
gave back, in the same order, followed by those that wait
(`Foundation.fifo_history`). A machine that keeps its entries in another form is such a
queue when each of its calls does what it does to the list
(`Foundation.Implements.boundedFifo`).
-/

namespace Foundation

/-- What is asked of a queue. -/
inductive QueueOp (Entry : Type*) where
  | push (entry : Entry)
  | pop
  | reset

/-- What a queue answers. -/
inductive QueueAnswer (Entry : Type*) where
  | pushed (accepted : Bool)
  | popped (entry : Option Entry)
  | reset
  deriving DecidableEq

variable {State Entry : Type*}

/-- The bounded queue over the list of what waits, from the oldest. -/
def fifo (capacity : ℕ) : Machine (List Entry) (QueueOp Entry) (QueueAnswer Entry) where
  step pending
    | .push entry =>
        if capacity ≤ pending.length then (.pushed false, pending)
        else (.pushed true, pending ++ [entry])
    | .pop => (.popped pending.head?, pending.tail)
    | .reset => (.reset, [])

/-- What a queue accepted and gave back since its last reset, from the oldest. -/
structure QueueHistory (Entry : Type*) where
  accepted : List Entry
  popped : List Entry

namespace QueueHistory

/-- The history after one more operation and its answer. -/
def note (history : QueueHistory Entry) : QueueOp Entry → QueueAnswer Entry → QueueHistory Entry
  | .push entry, .pushed true => { history with accepted := history.accepted ++ [entry] }
  | .pop, .popped (some entry) => { history with popped := history.popped ++ [entry] }
  | .reset, _ => ⟨[], []⟩
  | _, _ => history

/-- The history of a list of operations and their answers. -/
def after : QueueHistory Entry → List (QueueOp Entry) → List (QueueAnswer Entry) →
    QueueHistory Entry
  | history, op :: ops, answer :: answers => after (history.note op answer) ops answers
  | history, _, _ => history

/-- The history of a run, from a queue that is new or was just reset. -/
def ofRun (M : Machine State (QueueOp Entry) (QueueAnswer Entry)) (start : State)
    (ops : List (QueueOp Entry)) : QueueHistory Entry :=
  after ⟨[], []⟩ ops (M.results start ops)

/-- The accepted entries are those given back and those that wait. -/
def Accounts (history : QueueHistory Entry) (pending : List Entry) : Prop :=
  history.accepted = history.popped ++ pending

variable {history : QueueHistory Entry} {pending : List Entry} {capacity : ℕ}

theorem accounts_nil : (⟨[], []⟩ : QueueHistory Entry).Accounts [] := rfl

/-- One operation on the list keeps the account. -/
theorem Accounts.step (accounts : history.Accounts pending) (op : QueueOp Entry) :
    (history.note op ((fifo capacity).step pending op).1).Accounts
      ((fifo capacity).step pending op).2 := by
  cases op with
  | push entry =>
      unfold fifo
      by_cases full : capacity ≤ pending.length
      · simp only [full, if_true]
        exact accounts
      · simp only [full, if_false]
        change history.accepted ++ [entry] = history.popped ++ (pending ++ [entry])
        rw [accounts, List.append_assoc]
  | pop =>
      cases pending with
      | nil => exact accounts
      | cons entry rest =>
          change history.accepted = history.popped ++ [entry] ++ rest
          rw [List.append_assoc]
          exact accounts
  | reset => rfl

end QueueHistory

/-- **The history of a queue.** The entries it accepted since its last reset are those
it gave back, in the same order, followed by those that wait. -/
theorem fifo_history (capacity : ℕ) {history : QueueHistory Entry} {pending : List Entry}
    (accounts : history.Accounts pending) (ops : List (QueueOp Entry)) :
    (history.after ops ((fifo capacity).results pending ops)).Accounts
      ((fifo capacity).state pending ops) := by
  induction ops generalizing history pending with
  | nil => exact accounts
  | cons op ops ih => exact ih (accounts.step op)

/-- No more waits than there is room for. -/
theorem fifo_room (capacity : ℕ) {pending : List Entry} (room : pending.length ≤ capacity)
    (ops : List (QueueOp Entry)) : ((fifo capacity).state pending ops).length ≤ capacity := by
  have kept (waiting : List Entry) (op : QueueOp Entry) (fits : waiting.length ≤ capacity) :
      ((fifo capacity).step waiting op).2.length ≤ capacity := by
    cases op with
    | push entry =>
        unfold fifo
        by_cases full : capacity ≤ waiting.length
        · simp only [full, if_true]
          exact fits
        · simp only [full, if_false]
          rw [List.length_append]
          exact Nat.lt_of_not_le full
    | pop =>
        change waiting.tail.length ≤ capacity
        rw [List.length_tail]
        exact Nat.le_trans (Nat.sub_le _ _) fits
    | reset => exact Nat.zero_le _
  exact Machine.state_invariant kept room ops

/-! ## Other forms of a queue -/

section Implements

variable (M : Machine State (QueueOp Entry) (QueueAnswer Entry))

/-- A machine is a bounded queue of what it keeps waiting, in the states that are
valid: each call does what it does to the list. -/
structure Implements (capacity : ℕ) (valid : State → Prop) (pending : State → List Entry) :
    Prop where
  pushFull : ∀ {state}, valid state → capacity ≤ (pending state).length → ∀ entry,
    M.step state (.push entry) = (.pushed false, state)
  pushRoom : ∀ {state}, valid state → (pending state).length < capacity → ∀ entry,
    ∃ next, M.step state (.push entry) = (.pushed true, next) ∧ valid next ∧
      pending next = pending state ++ [entry]
  popEmpty : ∀ {state}, valid state → pending state = [] →
    M.step state .pop = (.popped none, state)
  popFront : ∀ {state entry rest}, valid state → pending state = entry :: rest →
    ∃ next, M.step state .pop = (.popped (some entry), next) ∧ valid next ∧ pending next = rest
  reset : ∀ {state}, valid state →
    ∃ next, M.step state .reset = (.reset, next) ∧ valid next ∧ pending next = []

variable {M} {capacity : ℕ} {valid : State → Prop} {pending : State → List Entry}

/-- One call on the machine is the same call on the list. -/
theorem Implements.step (implements_ : Implements M capacity valid pending) {state : State}
    (holds : valid state) (op : QueueOp Entry) :
    (M.step state op).1 = ((fifo capacity).step (pending state) op).1 ∧
      valid (M.step state op).2 ∧
        pending (M.step state op).2 = ((fifo capacity).step (pending state) op).2 := by
  unfold fifo
  cases op with
  | push entry =>
      by_cases full : capacity ≤ (pending state).length
      · rw [implements_.pushFull holds full entry]
        simp only [full, if_true]
        exact ⟨trivial, holds, trivial⟩
      · obtain ⟨next, stepped, nextValid, appended⟩ :=
          implements_.pushRoom holds (Nat.lt_of_not_le full) entry
        rw [stepped]
        simp only [full, if_false]
        exact ⟨trivial, nextValid, appended⟩
  | pop =>
      cases waiting : pending state with
      | nil =>
          rw [implements_.popEmpty holds waiting]
          exact ⟨rfl, holds, waiting⟩
      | cons entry rest =>
          obtain ⟨next, stepped, nextValid, remaining⟩ := implements_.popFront holds waiting
          rw [stepped]
          exact ⟨rfl, nextValid, remaining⟩
  | reset =>
      obtain ⟨next, stepped, nextValid, emptied⟩ := implements_.reset holds
      rw [stepped]
      exact ⟨rfl, nextValid, emptied⟩

/-- The machine is simulated by the list of what waits. -/
def Implements.simulation (implements_ : Implements M capacity valid pending) :
    M.Simulation (fifo capacity) fun _ _ => True where
  related state waiting := valid state ∧ pending state = waiting
  step := by
    intro state waiting op related _
    obtain ⟨holds, rfl⟩ := related
    exact implements_.step holds op

/-- **Every run of a queue** answers as the list of what waits does. -/
theorem Implements.run (implements_ : Implements M capacity valid pending) {start : State}
    (holds : valid start) (ops : List (QueueOp Entry)) :
    M.results start ops = (fifo capacity).results (pending start) ops ∧
      valid (M.state start ops) ∧
        pending (M.state start ops) = (fifo capacity).state (pending start) ops :=
  implements_.simulation.run ⟨holds, rfl⟩
    (Machine.along_of_forall (fun _ _ _ => trivial) start)

/-! ## What is seen of a queue -/

variable (M) in
/-- What is seen of a bounded queue after a list of operations: what it gave back since
its last reset is the beginning of what it accepted, the rest of that is what it counts,
and a push fails exactly with a full queue, a pop exactly with an empty one, both
without a change. -/
structure BoundedFifo (capacity : ℕ) (count : State → ℕ) (start : State)
    (ops : List (QueueOp Entry)) : Prop where
  order : (QueueHistory.ofRun M start ops).popped <+: (QueueHistory.ofRun M start ops).accepted
  counted : count (M.state start ops) =
    (QueueHistory.ofRun M start ops).accepted.length -
      (QueueHistory.ofRun M start ops).popped.length
  room : count (M.state start ops) ≤ capacity
  pushFails : ∀ entry, (M.step (M.state start ops) (.push entry)).1 = .pushed false ↔
    count (M.state start ops) = capacity
  pushKept : ∀ entry, (M.step (M.state start ops) (.push entry)).1 = .pushed false →
    (M.step (M.state start ops) (.push entry)).2 = M.state start ops
  popFails : (M.step (M.state start ops) .pop).1 = .popped none ↔
    count (M.state start ops) = 0
  popKept : (M.step (M.state start ops) .pop).1 = .popped none →
    (M.step (M.state start ops) .pop).2 = M.state start ops

/-- **What is seen** of a machine that implements a bounded queue, from an empty one. -/
theorem Implements.boundedFifo (implements_ : Implements M capacity valid pending)
    {count : State → ℕ} (counts : ∀ state, count state = (pending state).length) {start : State}
    (holds : valid start) (empty : pending start = []) (ops : List (QueueOp Entry)) :
    BoundedFifo M capacity count start ops := by
  obtain ⟨answers, stays, waiting⟩ := implements_.run holds ops
  rw [empty] at answers waiting
  have accounts : (QueueHistory.ofRun M start ops).Accounts (pending (M.state start ops)) := by
    unfold QueueHistory.ofRun
    rw [answers, waiting]
    exact fifo_history capacity QueueHistory.accounts_nil ops
  have room : (pending (M.state start ops)).length ≤ capacity := by
    rw [waiting]
    exact fifo_room capacity (Nat.zero_le _) ops
  have pushes (entry : Entry) :
      (M.step (M.state start ops) (.push entry)).1 = .pushed false →
        capacity ≤ (pending (M.state start ops)).length := by
    intro failed
    by_contra more
    obtain ⟨next, stepped, -, -⟩ := implements_.pushRoom stays (Nat.lt_of_not_le more) entry
    rw [stepped] at failed
    cases failed
  have pops : (M.step (M.state start ops) .pop).1 = .popped none →
      pending (M.state start ops) = [] := by
    intro failed
    cases front : pending (M.state start ops) with
    | nil => rfl
    | cons entry rest =>
        obtain ⟨next, stepped, -, -⟩ := implements_.popFront stays front
        rw [stepped] at failed
        cases failed
  constructor
  case order => exact ⟨_, accounts.symm⟩
  case counted =>
    rw [counts, accounts, List.length_append, Nat.add_sub_cancel_left]
  case room =>
    rw [counts]
    exact room
  case pushFails =>
    intro entry
    rw [counts]
    constructor
    · intro failed
      exact Nat.le_antisymm room (pushes entry failed)
    · intro full
      rw [implements_.pushFull stays (Nat.le_of_eq full.symm) entry]
  case pushKept =>
    intro entry failed
    rw [implements_.pushFull stays (pushes entry failed) entry]
  case popFails =>
    rw [counts, List.length_eq_zero_iff]
    constructor
    · exact pops
    · intro none_
      rw [implements_.popEmpty stays none_]
  case popKept =>
    intro failed
    rw [implements_.popEmpty stays (pops failed)]

end Implements

end Foundation
