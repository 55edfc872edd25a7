import Mathlib.Data.List.Basic
import Mathlib.Data.Nat.Basic

/-! # Loops

A round of a loop answers, or leaves a state for the next round. A loop answers at most one
thing (`Foundation.Answers.unique`), and one whose rounds decrease a measure answers something
(`Foundation.exists_answers`). A loop that counts on words folds its body over a range of
numbers (`Foundation.countedLoop_eq_foldl`), and rounds that do nothing may be added to it
(`Foundation.foldl_range'_cut`).
-/

namespace Foundation

variable {State Result : Type*} {round : State → Result ⊕ State} {state : State}
  {result other : Result}

/-- The loop ends, from a state, with a result. -/
inductive Answers (round : State → Result ⊕ State) : State → Result → Prop
  | now {state : State} {result : Result} (ends : round state = .inl result) :
      Answers round state result
  | later {state next : State} {result : Result} (goes : round state = .inr next)
      (rest : Answers round next result) : Answers round state result

/-- A loop ends with one result. -/
theorem Answers.unique (first : Answers round state result) (second : Answers round state other) :
    result = other := by
  induction first with
  | now ends =>
      cases second with
      | now ends' => exact Sum.inl.inj (ends.symm.trans ends')
      | later goes _ => cases ends.symm.trans goes
  | later goes _ ih =>
      cases second with
      | now ends => cases goes.symm.trans ends
      | later goes' rest =>
          obtain rfl := Sum.inr.inj (goes.symm.trans goes')
          exact ih rest

/-- **A loop ends** when every round that goes on decreases a measure. -/
theorem exists_answers (measure : State → ℕ)
    (decreases : ∀ state next, round state = .inr next → measure next < measure state)
    (state : State) : ∃ result, Answers round state result := by
  induction size : measure state using Nat.strong_induction_on generalizing state with
  | _ size ih =>
      subst size
      cases outcome : round state with
      | inl result => exact ⟨result, .now outcome⟩
      | inr next =>
          obtain ⟨result, rest⟩ := ih _ (decreases state next outcome) next rfl
          exact ⟨result, .later outcome rest⟩

/-! ## Counted loops -/

section Counted

variable {α : Type*} {body : UInt32 → α → α}

/-- A loop that counts up on words, for a number of rounds. -/
def countedLoop (body : UInt32 → α → α) : ℕ → UInt32 → α → α
  | 0, _, value => value
  | rounds + 1, count, value => countedLoop body rounds (count + 1) (body count value)

/-- **A counted loop is a fold** over a range of numbers, which may be seen from any origin. -/
theorem countedLoop_eq_foldl (origin start rounds : ℕ) (value : α) :
    countedLoop body rounds (UInt32.ofNat start) value =
      (List.range' (origin + start) rounds).foldl
        (fun value k => body (UInt32.ofNat (k - origin)) value) value := by
  induction rounds generalizing start value with
  | zero => rfl
  | succ rounds ih =>
      have next : UInt32.ofNat start + 1 = UInt32.ofNat (start + 1) :=
        (UInt32.ofNat_add start 1).symm
      unfold countedLoop
      rw [next, ih, List.range'_succ, List.foldl_cons, Nat.add_sub_cancel_left, Nat.add_assoc]

end Counted

section Folds

variable {α β : Type*} {f : α → β → α}

/-- A fold of steps that do nothing. -/
theorem foldl_idle {items : List β} (idle : ∀ item ∈ items, ∀ value, f value item = value)
    (value : α) : items.foldl f value = value :=
  (List.foldl_ext f (fun value _ => value) value
    (fun value item member => idle item member value)).trans
    (List.foldl_fixed' (fun _ => rfl) items)

/-- A fold over a range may stop where its steps do nothing any more. -/
theorem foldl_range'_cut {f : α → ℕ → α} {start short long : ℕ} (fits : short ≤ long)
    (idle : ∀ k, start + short ≤ k → k < start + long → ∀ value, f value k = value) (value : α) :
    (List.range' start long).foldl f value = (List.range' start short).foldl f value := by
  obtain ⟨rest, rfl⟩ := Nat.exists_eq_add_of_le fits
  rw [← List.range'_append_1, List.foldl_append]
  refine foldl_idle (fun k member value => ?_) _
  obtain ⟨past, inside⟩ := List.mem_range'_1.mp member
  exact idle k past (by omega) value

/-- What every step of a fold keeps, the fold keeps. -/
theorem foldl_keeps {keeps : α → Prop} {items : List β}
    (step : ∀ item ∈ items, ∀ value, keeps value → keeps (f value item)) {value : α}
    (initially : keeps value) : keeps (items.foldl f value) :=
  List.foldlRecOn items f initially (fun value holds item member => step item member value holds)

end Folds

end Foundation
