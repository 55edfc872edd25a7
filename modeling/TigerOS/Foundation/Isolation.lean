import TigerOS.Foundation.Machine

/-! # Parties that do not interfere

Every operation of a machine belongs to a party, and every party has a view of the
state. When an operation leaves the views of the others, and what it does to the
view of its own party and what it answers depend on that view alone, a party cannot
tell a run from the run of its own operations (`Foundation.Machine.Isolated.run`).
-/

namespace Foundation.Machine

variable {State Op Result Party : Type*} {View : Party → Type*}

/-- Operations act on the view of their own party only, by that view only. -/
structure Isolated (M : Machine State Op Result) (owner : Op → Party)
    (view : ∀ party, State → View party) : Prop where
  foreign : ∀ state op party, owner op ≠ party →
    view party (M.step state op).2 = view party state
  own : ∀ first second op, view (owner op) first = view (owner op) second →
    (M.step first op).1 = (M.step second op).1 ∧
      view (owner op) (M.step first op).2 = view (owner op) (M.step second op).2

section Answers

variable [DecidableEq Party] (M : Machine State Op Result) (owner : Op → Party) (party : Party)

/-- The operations of a party. -/
def ownOps (ops : List Op) : List Op := ops.filter fun op => owner op = party

/-- The answers to the operations of a party in a run of all of them. -/
def answersTo : State → List Op → List Result
  | _, [] => []
  | state, op :: ops =>
      if owner op = party then (M.step state op).1 :: answersTo (M.step state op).2 ops
      else answersTo (M.step state op).2 ops

theorem ownOps_cons (op : Op) (ops : List Op) : ownOps owner party (op :: ops) =
    if owner op = party then op :: ownOps owner party ops else ownOps owner party ops := by
  unfold ownOps
  rw [List.filter_cons]
  simp only [decide_eq_true_eq]

end Answers

variable [DecidableEq Party] {M : Machine State Op Result} {owner : Op → Party}
  {view : ∀ party, State → View party}

/-- **The isolation rule.** From states that a party sees alike, it gets the same
answers and the same final view from a run of all operations as from the run of its
own. -/
theorem Isolated.run (isolated : M.Isolated owner view) {party : Party} {first second : State}
    (alike : view party first = view party second) (ops : List Op) :
    M.answersTo owner party first ops = M.results second (ownOps owner party ops) ∧
      view party (M.state first ops) = view party (M.state second (ownOps owner party ops)) := by
  induction ops generalizing first second with
  | nil => exact ⟨rfl, alike⟩
  | cons op ops ih =>
      rw [ownOps_cons]
      unfold answersTo
      by_cases mine : owner op = party
      · subst mine
        obtain ⟨answer, next⟩ := isolated.own first second op alike
        obtain ⟨answers, final⟩ := ih next
        rw [if_pos rfl, if_pos rfl, results_cons, state_cons, state_cons]
        exact ⟨congrArg₂ _ answer answers, final⟩
      · have kept := isolated.foreign first op party mine
        rw [if_neg mine, if_neg mine, state_cons]
        exact ih (kept.trans alike)

end Foundation.Machine
