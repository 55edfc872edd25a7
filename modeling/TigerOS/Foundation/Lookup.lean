import Mathlib.Data.List.Nodup
import Mathlib.Data.List.Perm.Basic

/-! # Tables

A table is a list that is searched from its first entry. Looking an entry up by its
index is looking it up (`Foundation.findIdx?_bind`), and an entry whose key no other
entry has is what its key finds (`Foundation.find?_unique`).
-/

namespace Foundation

variable {Entry Key : Type*} {entries : List Entry}

/-- Looking an entry up by its index is looking it up. -/
theorem findIdx?_bind (entries : List Entry) (hit : Entry → Bool) :
    ((entries.findIdx? hit).bind fun index => entries[index]?) = entries.find? hit := by
  induction entries with
  | nil => rfl
  | cons entry entries ih =>
      rw [List.findIdx?_cons, List.find?_cons]
      cases hit entry with
      | true => rfl
      | false =>
          rw [← ih]
          cases entries.findIdx? hit <;> rfl

/-- A search by key finds no entry where there is none, or an entry with that key. -/
theorem findIdx?_cases [DecidableEq Key] (key : Entry → Key) (entries : List Entry)
    (wanted : Key) :
    ((entries.findIdx? fun entry => key entry = wanted) = none ∧
        ∀ entry ∈ entries, key entry ≠ wanted) ∨
      ∃ index, ∃ inside : index < entries.length,
        (entries.findIdx? fun entry => key entry = wanted) = some index ∧
          key entries[index] = wanted := by
  cases found : entries.findIdx? fun entry => decide (key entry = wanted) with
  | none =>
      exact .inl ⟨rfl, fun entry member =>
        of_decide_eq_false (List.findIdx?_eq_none_iff.mp found entry member)⟩
  | some index =>
      obtain ⟨inside, here, _⟩ := List.findIdx?_eq_some_iff_getElem.mp found
      exact .inr ⟨index, inside, rfl, of_decide_eq_true here⟩

/-- Entries with keys of their own are at the same place where their keys are the same. -/
theorem index_inj {key : Entry → Key} (distinct : (entries.map key).Nodup) {first second : ℕ}
    (inside : first < entries.length) (inside' : second < entries.length)
    (same : key entries[first] = key entries[second]) : first = second := by
  have mapped : first < (entries.map key).length := by rwa [List.length_map]
  have mapped' : second < (entries.map key).length := by rwa [List.length_map]
  apply (@List.Nodup.getElem_inj_iff _ _ distinct first mapped second mapped').mp
  rw [List.getElem_map, List.getElem_map, same]

/-- An entry that alone is hit is found. -/
theorem find?_unique {hit : Entry → Bool} {entry : Entry} (member : entry ∈ entries)
    (holds : hit entry = true) (unique : ∀ other ∈ entries, hit other = true → other = entry) :
    entries.find? hit = some entry := by
  cases found : entries.find? hit with
  | none => exact absurd holds (List.find?_eq_none.mp found entry member)
  | some other =>
      rw [unique other (List.mem_of_find?_eq_some found) (List.find?_some found)]

/-- Entries with keys of their own are the same where their keys are. -/
theorem entry_inj {key : Entry → Key} (distinct : (entries.map key).Nodup) {first second : Entry}
    (member : first ∈ entries) (member' : second ∈ entries) (same : key first = key second) :
    first = second :=
  List.inj_on_of_nodup_map distinct member member' same

end Foundation
