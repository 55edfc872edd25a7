import TigerOS.Foundation.Ring
import Mathlib.Data.List.Basic
import Mathlib.Logic.Function.Basic
import Mathlib.Order.MinMax

/-! # Keeping the most recent items

A store of a fixed capacity is filled from its first slot on, and once it is full an item
takes the slot of the oldest one. Read from there on around the store, its slots hold the most
recent of all items in the order they came in (`Foundation.Recent.Holds.read`), although the
place that a push writes is found by another rule before the store is full than after.
-/

namespace Foundation

/-- A store of the most recent items: how many slots were filled, and the slot of the oldest
item. -/
structure Recent (Item : Type*) where
  slots : ℕ → Item
  count : ℕ
  head : ℕ

namespace Recent

variable {Item : Type*} (capacity : ℕ) (recent : Recent Item)

/-- An item goes to the first free slot, or takes the place of the oldest one. -/
def push (item : Item) : Recent Item :=
  if recent.count < capacity then
    { recent with
      slots := Function.update recent.slots recent.count item
      count := recent.count + 1 }
  else
    { recent with
      slots := Function.update recent.slots recent.head item
      head := advance capacity recent.head }

/-- The filled slots around the store, from the oldest. -/
def read : List Item :=
  (List.range (min recent.count capacity)).map fun i => recent.slots ((recent.head + i) % capacity)

/-- The store after a list of items: the item at a place of the list is in the slot of that
place modulo the capacity, until an item a capacity later takes the slot. -/
structure Holds (items : List Item) : Prop where
  count : recent.count = min items.length capacity
  head : recent.head = (items.length - capacity) % capacity
  kept : ∀ k (inside : k < items.length), items.length ≤ k + capacity →
    recent.slots (k % capacity) = items[k]

variable {capacity recent} {items : List Item}

theorem push_room (room : recent.count < capacity) (item : Item) :
    recent.push capacity item =
      ⟨Function.update recent.slots recent.count item, recent.count + 1, recent.head⟩ :=
  if_pos room

theorem push_full (full : ¬ recent.count < capacity) (item : Item) :
    recent.push capacity item =
      ⟨Function.update recent.slots recent.head item, recent.count,
        advance capacity recent.head⟩ :=
  if_neg full

theorem holds_nil (slots : ℕ → Item) : Holds capacity ⟨slots, 0, 0⟩ [] where
  count := (Nat.zero_min _).symm
  head := by rw [List.length_nil, Nat.zero_sub, Nat.zero_mod]
  kept := fun _ inside _ => absurd inside (Nat.not_lt_zero _)

/-- Places less than a capacity apart have different slots. -/
private theorem slot_ne {k last : ℕ} (earlier : k < last) (near : last < k + capacity) :
    k % capacity ≠ last % capacity := by
  intro same
  have multiple : capacity ∣ last - k := (Nat.modEq_iff_dvd' earlier.le).mp same
  have apart := Nat.le_of_dvd (Nat.sub_pos_of_lt earlier) multiple
  omega

/-- The slot that is written is that of the place of the item. -/
private theorem Holds.written (holds : Holds capacity recent items) (item : Item)
    {slots : ℕ → Item}
    (written : slots = Function.update recent.slots (items.length % capacity) item)
    (k : ℕ) (inside : k < (items ++ [item]).length)
    (near : (items ++ [item]).length ≤ k + capacity) :
    slots (k % capacity) = (items ++ [item])[k] := by
  rw [List.length_append, List.length_singleton] at inside near
  subst written
  rcases Nat.lt_succ_iff_lt_or_eq.mp inside with earlier | rfl
  · rw [Function.update_of_ne (slot_ne earlier near), List.getElem_append_left earlier]
    exact holds.kept k earlier (Nat.le_of_succ_le near)
  · rw [Function.update_self, List.getElem_concat_length rfl]

/-- **A push** appends its item. -/
theorem Holds.push (positive : 0 < capacity) (holds : Holds capacity recent items) (item : Item) :
    Holds capacity (recent.push capacity item) (items ++ [item]) := by
  have counted := holds.count
  have headed := holds.head
  by_cases room : recent.count < capacity
  · have short : items.length < capacity := by omega
    have place : recent.count = items.length % capacity := by
      rw [Nat.mod_eq_of_lt short]
      omega
    rw [push_room room]
    refine ⟨?_, ?_, holds.written item (by rw [place])⟩
    · change recent.count + 1 = _
      rw [List.length_append, List.length_singleton]
      omega
    · rw [List.length_append, List.length_singleton, Nat.sub_eq_zero_of_le short]
      rwa [Nat.sub_eq_zero_of_le short.le] at headed
  · have long : capacity ≤ items.length := by omega
    have place : recent.head = items.length % capacity := by
      rw [headed, ← Nat.mod_eq_sub_mod long]
    have below : recent.head < capacity := place ▸ Nat.mod_lt _ positive
    rw [push_full room]
    refine ⟨?_, ?_, holds.written item (by rw [place])⟩
    · change recent.count = _
      rw [List.length_append, List.length_singleton]
      omega
    · change advance capacity recent.head = _
      rw [RingIndex.advance_mod below, headed, Nat.mod_add_mod, List.length_append,
        List.length_singleton, Nat.sub_add_comm long]

/-- **The store holds the most recent items**, from the oldest. -/
theorem Holds.read (holds : Holds capacity recent items) :
    recent.read capacity = items.drop (items.length - capacity) := by
  have counted := holds.count
  unfold Recent.read
  apply List.ext_getElem
  · rw [List.length_map, List.length_range, List.length_drop]
    omega
  · intro i inside inside'
    rw [List.length_map, List.length_range] at inside
    rw [List.getElem_map, List.getElem_range, List.getElem_drop, holds.head, Nat.mod_add_mod]
    exact holds.kept _ _ (by omega)

end Recent

end Foundation
