import Mathlib.Data.List.Basic

/-! # Machines that answer operations

A deterministic machine answers one operation at a time and keeps a state. A
run feeds it a list of operations. Two rules carry facts from one step to a
whole run: an invariant that every admitted step keeps holds after every run of
admitted steps (`Foundation.Machine.Along.state_invariant`), and a simulation
between two machines makes their runs answer alike
(`Foundation.Machine.Simulation.run`).
-/

namespace Foundation

/-- A deterministic machine: each operation is answered and moves the state. -/
structure Machine (State Op Result : Type*) where
  step : State → Op → Result × State

namespace Machine

variable {State State' Op Result : Type*} (M : Machine State Op Result)

/-- The answers to a list of operations, in order. -/
def results : State → List Op → List Result
  | _, [] => []
  | state, op :: ops => (M.step state op).1 :: results (M.step state op).2 ops

/-- The state after a list of operations. -/
def state : State → List Op → State
  | start, [] => start
  | start, op :: ops => state (M.step start op).2 ops

/-- Every step of a run meets a condition on the state before it and its
operation. -/
def Along (admitted : State → Op → Prop) : State → List Op → Prop
  | _, [] => True
  | start, op :: ops => admitted start op ∧ Along admitted (M.step start op).2 ops

@[simp] theorem results_nil (start : State) : M.results start [] = [] := rfl

@[simp] theorem results_cons (start : State) (op : Op) (ops : List Op) :
    M.results start (op :: ops) =
      (M.step start op).1 :: M.results (M.step start op).2 ops := rfl

@[simp] theorem state_nil (start : State) : M.state start [] = start := rfl

@[simp] theorem state_cons (start : State) (op : Op) (ops : List Op) :
    M.state start (op :: ops) = M.state (M.step start op).2 ops := rfl

@[simp] theorem along_nil (admitted : State → Op → Prop) (start : State) :
    M.Along admitted start [] := trivial

@[simp] theorem along_cons (admitted : State → Op → Prop) (start : State) (op : Op)
    (ops : List Op) : M.Along admitted start (op :: ops) ↔
      admitted start op ∧ M.Along admitted (M.step start op).2 ops := Iff.rfl

instance decidableAlong (admitted : State → Op → Prop) [∀ state op, Decidable (admitted state op)] :
    (start : State) → (ops : List Op) → Decidable (M.Along admitted start ops)
  | _, [] => inferInstanceAs (Decidable True)
  | start, op :: ops =>
      have := decidableAlong admitted (M.step start op).2 ops
      inferInstanceAs (Decidable (admitted start op ∧ M.Along admitted (M.step start op).2 ops))

theorem results_append (start : State) (first second : List Op) :
    M.results start (first ++ second) =
      M.results start first ++ M.results (M.state start first) second := by
  induction first generalizing start with
  | nil => rfl
  | cons op ops ih => exact congrArg _ (ih _)

theorem state_append (start : State) (first second : List Op) :
    M.state start (first ++ second) = M.state (M.state start first) second := by
  induction first generalizing start with
  | nil => rfl
  | cons op ops ih => exact ih _

variable {M}

/-- A condition every step of every run meets is met along every run. -/
theorem along_of_forall {admitted : State → Op → Prop} {ops : List Op}
    (always : ∀ state, ∀ op ∈ ops, admitted state op) (start : State) :
    M.Along admitted start ops := by
  induction ops generalizing start with
  | nil => trivial
  | cons op ops ih =>
      exact ⟨always start op List.mem_cons_self,
        ih (fun state other member => always state other (List.mem_cons_of_mem _ member)) _⟩

namespace Along

variable {admitted : State → Op → Prop} {start : State} {ops : List Op}

theorem and {other : State → Op → Prop} (first : M.Along admitted start ops)
    (second : M.Along other start ops) :
    M.Along (fun state op => admitted state op ∧ other state op) start ops := by
  induction ops generalizing start with
  | nil => trivial
  | cons op ops ih => exact ⟨⟨first.1, second.1⟩, ih first.2 second.2⟩

/-- A condition met along a run is met along its beginnings. -/
theorem of_append {first second : List Op} (along : M.Along admitted start (first ++ second)) :
    M.Along admitted start first := by
  induction first generalizing start with
  | nil => trivial
  | cons op ops ih => exact ⟨along.1, ih along.2⟩

/-- A condition met along a run is met along its endings, from where they begin. -/
theorem of_append_right {first second : List Op}
    (along : M.Along admitted start (first ++ second)) :
    M.Along admitted (M.state start first) second := by
  induction first generalizing start with
  | nil => exact along
  | cons op ops ih => exact ih along.2

/-- **The invariant rule.** What every admitted step keeps, every run of
admitted steps keeps. -/
theorem state_invariant {invariant : State → Prop} (along : M.Along admitted start ops)
    (initially : invariant start)
    (kept : ∀ state op, invariant state → admitted state op → invariant (M.step state op).2) :
    invariant (M.state start ops) := by
  induction ops generalizing start with
  | nil => exact initially
  | cons op ops ih => exact ih along.2 (kept _ _ initially along.1)

end Along

/-- The invariant rule where every step is admitted. -/
theorem state_invariant {invariant : State → Prop}
    (kept : ∀ state op, invariant state → invariant (M.step state op).2) {start : State}
    (initially : invariant start) (ops : List Op) : invariant (M.state start ops) :=
  have along : M.Along (fun _ _ => True) start ops := along_of_forall (fun _ _ _ => trivial) start
  along.state_invariant initially (fun state op holds _ => kept state op holds)

/-- A simulation: related states answer every admitted operation alike and stay
related. -/
structure Simulation (M : Machine State Op Result) (N : Machine State' Op Result)
    (admitted : State → Op → Prop) where
  related : State → State' → Prop
  step : ∀ {first second op}, related first second → admitted first op →
    (M.step first op).1 = (N.step second op).1 ∧
      related (M.step first op).2 (N.step second op).2

/-- **The simulation rule.** Runs of admitted operations from related states
give the same answers and end in related states. -/
theorem Simulation.run {N : Machine State' Op Result} {admitted : State → Op → Prop}
    (simulation : Simulation M N admitted) {first : State} {second : State'}
    (related : simulation.related first second) {ops : List Op}
    (along : M.Along admitted first ops) :
    M.results first ops = N.results second ops ∧
      simulation.related (M.state first ops) (N.state second ops) := by
  induction ops generalizing first second with
  | nil => exact ⟨rfl, related⟩
  | cons op ops ih =>
      obtain ⟨answer, next⟩ := simulation.step related along.1
      obtain ⟨answers, final⟩ := ih next along.2
      exact ⟨by simp only [results_cons, answer, answers], final⟩

end Machine

end Foundation
