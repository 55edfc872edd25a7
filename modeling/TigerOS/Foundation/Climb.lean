import Mathlib.Data.List.Infix
import Mathlib.Data.List.Induction

/-! # Climbing

A walk takes names one after the other. Each name is a place below the last one, but
for one name, `up`, which leaves the last place. Where there is nothing to leave, a
walk below a root stays and another one keeps the `up`. What is kept is a run of `up`
and then other names (`Foundation.climbed_climbs`,
`Foundation.Climbed.exists_run`), walking along what is kept gives it
again (`Foundation.climbs_climbed`), and so walking in two parts is walking at once
(`Foundation.climbs_append`).
-/

namespace Foundation

/-! ## Climbed places -/

section Climbed

variable {Name : Type*} (up : Name) (rooted : Bool)

/-- Only an `up` stands before an `up`, and there is none below a root. -/
def Climbed (places : List Name) : Prop :=
  ∀ before after, places = before ++ up :: after → (∀ name ∈ before, name = up) ∧ rooted = false

variable {up rooted} {places : List Name}

theorem climbed_nil : Climbed up rooted ([] : List Name) := by
  intro before after split
  cases before <;> cases split

/-- A beginning of climbed places is climbed. -/
theorem Climbed.of_append {more : List Name} (climbed : Climbed up rooted (places ++ more)) :
    Climbed up rooted places := by
  intro before after split
  apply climbed before (after ++ more)
  rw [split, List.append_assoc, List.cons_append]

/-- What is before an `up` is a run of it, with no root above. -/
theorem Climbed.before_up {rest : List Name} (climbed : Climbed up rooted (places ++ up :: rest)) :
    (∀ name ∈ places, name = up) ∧ rooted = false :=
  climbed places rest rfl

theorem Climbed.snoc {name : Name} (climbed : Climbed up rooted places) (other : name ≠ up) :
    Climbed up rooted (places ++ [name]) := by
  intro before after split
  rcases List.eq_nil_or_concat after with rfl | ⟨rest, last, rfl⟩
  · have same := (List.append_inj_right' split rfl)
    exact absurd (List.head_eq_of_cons_eq same) other
  · rw [List.concat_eq_append, ← List.cons_append, ← List.append_assoc] at split
    exact climbed before rest (List.append_inj_left' split rfl)

/-- Climbed places are a run of `up` and then other names. -/
theorem Climbed.exists_run (climbed : Climbed up rooted places) : ∃ count names,
    places = List.replicate count up ++ names ∧ up ∉ names ∧ (rooted = true → count = 0) := by
  induction places using List.reverseRecOn with
  | nil => exact ⟨0, [], rfl, List.not_mem_nil, fun _ => rfl⟩
  | append_singleton front last ih =>
      by_cases isUp : last = up
      · rw [isUp] at climbed ⊢
        obtain ⟨run, free⟩ := climbed.before_up
        refine ⟨front.length + 1, [], ?_, List.not_mem_nil, ?_⟩
        · rw [List.append_nil, List.replicate_succ', ← List.eq_replicate_of_mem run]
        · rw [free]
          exact fun impossible => nomatch impossible
      · obtain ⟨count, names, rfl, none_, rootedNone⟩ := ih climbed.of_append
        refine ⟨count, names ++ [last], List.append_assoc _ _ _, ?_, rootedNone⟩
        intro member
        rcases List.mem_append.mp member with old | new
        · exact none_ old
        · exact isUp (List.mem_singleton.mp new).symm

end Climbed

/-! ## Walks -/

section Walk

variable {Name : Type*} [DecidableEq Name] (up : Name) (rooted : Bool)

/-- One name taken after the places kept so far. -/
def climb (places : List Name) (name : Name) : List Name :=
  if name = up then
    match places.getLast? with
    | none => if rooted = true then [] else [up]
    | some last => if last = up then places ++ [up] else places.dropLast
  else places ++ [name]

/-- The places kept of a list of names. -/
def climbs (names : List Name) : List Name := names.foldl (climb up rooted) []

variable {up rooted} {places : List Name}

theorem climb_name {name : Name} (other : name ≠ up) :
    climb up rooted places name = places ++ [name] := by
  unfold climb
  rw [if_neg other]

theorem climb_nothing : climb up rooted [] up = if rooted = true then [] else [up] := by
  unfold climb
  rw [if_pos rfl]
  rfl

theorem climb_last (front : List Name) (last : Name) :
    climb up rooted (front ++ [last]) up =
      if last = up then front ++ [last] ++ [up] else front := by
  unfold climb
  rw [if_pos rfl, List.getLast?_concat, List.dropLast_concat]

/-- A name keeps the places climbed. -/
theorem Climbed.climb (climbed : Climbed up rooted places) (name : Name) :
    Climbed up rooted (climb up rooted places name) := by
  by_cases isUp : name = up
  · subst isUp
    rcases List.eq_nil_or_concat places with rfl | ⟨front, last, rfl⟩
    · rw [climb_nothing]
      cases rooted with
      | true => exact climbed_nil
      | false =>
          intro before after split
          cases before with
          | nil => exact ⟨fun _ member => absurd member List.not_mem_nil, rfl⟩
          | cons first before => cases before <;> cases split
    · rw [List.concat_eq_append] at climbed ⊢
      rw [climb_last]
      by_cases again : last = name
      · rw [if_pos again]
        subst again
        obtain ⟨run, free⟩ := climbed.before_up
        intro before after split
        refine ⟨?_, free⟩
        intro other member
        have inside : other ∈ front ++ [last] ++ [last] := by
          rw [split]
          exact List.mem_append_left _ member
        simp only [List.mem_append, List.mem_singleton, or_assoc, or_self] at inside
        rcases inside with old | new
        · exact run other old
        · exact new
      · rw [if_neg again]
        exact climbed.of_append
  · rw [climb_name isUp]
    exact climbed.snoc isUp

/-- Names that stay climbed behind the places kept are all kept. -/
theorem Climbed.foldl {names : List Name} (climbed : Climbed up rooted (places ++ names)) :
    names.foldl (Foundation.climb up rooted) places = places ++ names := by
  induction names generalizing places with
  | nil => exact (List.append_nil places).symm
  | cons name names ih =>
      have kept : Foundation.climb up rooted places name = places ++ [name] := by
        by_cases isUp : name = up
        · subst isUp
          obtain ⟨run, free⟩ := climbed.before_up
          rcases List.eq_nil_or_concat places with rfl | ⟨front, last, rfl⟩
          · rw [climb_nothing, free]
            rfl
          · rw [List.concat_eq_append] at run ⊢
            rw [climb_last, if_pos (run last (List.mem_append_right _ List.mem_cons_self))]
        · exact climb_name isUp
      rw [List.foldl_cons, kept, ih, List.append_assoc, List.singleton_append]
      rw [List.append_assoc, List.singleton_append]
      exact climbed

/-- **What a walk keeps** is a run of `up` and then other names. -/
theorem climbed_climbs (names : List Name) : Climbed up rooted (climbs up rooted names) := by
  have keeps : ∀ (names places : List Name), Climbed up rooted places →
      Climbed up rooted (names.foldl (climb up rooted) places) := by
    intro names
    induction names with
    | nil => exact fun _ climbed => climbed
    | cons name names ih => exact fun places climbed => ih _ (climbed.climb name)
  exact keeps names [] climbed_nil

/-- Walking along climbed places keeps them all. -/
theorem climbs_climbed (climbed : Climbed up rooted places) : climbs up rooted places = places := by
  have fresh : Climbed up rooted ([] ++ places) := climbed
  exact fresh.foldl

/-- **Walking in two parts** is walking at once. -/
theorem climbs_append (first second : List Name) :
    climbs up rooted (climbs up rooted first ++ second) = climbs up rooted (first ++ second) := by
  have again : climbs up rooted (climbs up rooted first) = climbs up rooted first :=
    climbs_climbed (climbed_climbs first)
  unfold climbs at again ⊢
  rw [List.foldl_append, List.foldl_append, again]

/-- A place after a name was there before, or is the name. -/
theorem mem_climb {name place : Name} (member : place ∈ climb up rooted places name) :
    place ∈ places ∨ place = name := by
  by_cases isUp : name = up
  · subst isUp
    rcases List.eq_nil_or_concat places with rfl | ⟨front, last, rfl⟩
    · rw [climb_nothing] at member
      cases rooted with
      | true => exact absurd member List.not_mem_nil
      | false => exact .inr (List.mem_singleton.mp member)
    · rw [List.concat_eq_append] at member ⊢
      rw [climb_last] at member
      by_cases again : last = name
      · rw [if_pos again] at member
        exact (List.mem_append.mp member).imp_right List.mem_singleton.mp
      · rw [if_neg again] at member
        exact .inl (List.mem_append_left _ member)
  · rw [climb_name isUp] at member
    exact (List.mem_append.mp member).imp_right List.mem_singleton.mp

/-- A walk keeps no name that it did not take. -/
theorem mem_of_mem_climbs {names : List Name} {place : Name}
    (member : place ∈ climbs up rooted names) : place ∈ names := by
  have taken : ∀ (names places : List Name), place ∈ names.foldl (climb up rooted) places →
      place ∈ places ∨ place ∈ names := by
    intro names
    induction names with
    | nil => exact fun _ member => .inl member
    | cons name names ih =>
        intro places member
        rcases ih _ member with kept | later
        · rcases mem_climb kept with old | new
          · exact .inl old
          · exact .inr (new ▸ List.mem_cons_self)
        · exact .inr (List.mem_cons_of_mem _ later)
  exact (taken names [] member).resolve_left List.not_mem_nil

end Walk

end Foundation
