import Mathlib.Data.List.Range
import Mathlib.Data.Nat.ModEq
import Mathlib.Order.Basic

/-! # Ring buffers

A ring keeps a read index, a write index and a count over an array of a fixed
capacity. Its pending slots, from the oldest, are what the indices say; the cells
there are a queue. A push into a ring with room appends what is written at the
write index (`Foundation.RingIndex.Valid.contents_push`), and a pop takes the cell
at the read index off the front (`Foundation.RingIndex.Valid.contents_pop`). Cells
may be spread over parallel arrays, and the slot given back may be cleared.
-/

namespace Foundation

/-- The indices of a ring. -/
structure RingIndex where
  read : ℕ
  write : ℕ
  count : ℕ
  deriving DecidableEq

/-- The slot after a slot. -/
def advance (capacity slot : ℕ) : ℕ := if capacity ≤ slot + 1 then 0 else slot + 1

namespace RingIndex

/-- The indices of an empty ring. -/
def empty : RingIndex := ⟨0, 0, 0⟩

section Ring

variable (capacity : ℕ) (ring : RingIndex)

/-- A slot taken at the back. -/
def push : RingIndex :=
  { ring with
    write := advance capacity ring.write
    count := ring.count + 1 }

/-- A slot given back at the front. -/
def pop : RingIndex :=
  { ring with
    read := advance capacity ring.read
    count := ring.count - 1 }

/-- The pending slots, from the oldest. -/
def slots : List ℕ := (List.range ring.count).map fun i => (ring.read + i) % capacity

/-- What the pending slots hold. -/
def contents {Cell : Type*} (cells : ℕ → Cell) : List Cell := (ring.slots capacity).map cells

/-- The indices lie in the array and agree with the count. -/
structure Valid : Prop where
  read : ring.read < capacity
  room : ring.count ≤ capacity
  write : ring.write = (ring.read + ring.count) % capacity

end Ring

variable {capacity : ℕ} {ring : RingIndex} {Cell : Type*} {cells cells' : ℕ → Cell}

theorem valid_empty (positive : 0 < capacity) : empty.Valid capacity :=
  ⟨positive, Nat.zero_le _, (Nat.zero_mod _).symm⟩

@[simp] theorem length_contents : (ring.contents capacity cells).length = ring.count := by
  unfold contents slots
  rw [List.length_map, List.length_map, List.length_range]

theorem contents_eq_nil (none_ : ring.count = 0) : ring.contents capacity cells = [] :=
  List.length_eq_zero_iff.mp (length_contents.trans none_)

/-- The slot after a slot of the ring is the next one modulo the capacity. -/
theorem advance_mod {slot : ℕ} (inside : slot < capacity) :
    advance capacity slot = (slot + 1) % capacity := by
  unfold advance
  rcases Nat.lt_or_ge (slot + 1) capacity with more | last
  · rw [if_neg (Nat.not_le.mpr more), Nat.mod_eq_of_lt more]
  · have exact_ : slot + 1 = capacity := Nat.le_antisymm inside last
    rw [if_pos last, exact_, Nat.mod_self]

private theorem advance_add_mod (start offset : ℕ) (positive : 0 < capacity) :
    advance capacity ((start + offset) % capacity) = (start + (offset + 1)) % capacity := by
  rw [advance_mod (Nat.mod_lt _ positive), Nat.mod_add_mod, Nat.add_assoc]

/-- Two offsets below the capacity name different slots. -/
private theorem slot_inj {start first second : ℕ} (firstIn : first < capacity)
    (secondIn : second < capacity)
    (same : (start + first) % capacity = (start + second) % capacity) : first = second := by
  have congruent : first % capacity = second % capacity := Nat.ModEq.add_left_cancel' start same
  rwa [Nat.mod_eq_of_lt firstIn, Nat.mod_eq_of_lt secondIn] at congruent

section Slots

theorem slots_push : (ring.push capacity).slots capacity =
    ring.slots capacity ++ [(ring.read + ring.count) % capacity] := by
  unfold slots
  change ((List.range (ring.count + 1)).map _) = _
  rw [List.range_succ, List.map_append]
  rfl

/-- The front slot and the slots after it. -/
theorem Valid.slots_eq (valid : ring.Valid capacity) (some_ : ring.count ≠ 0) :
    ring.slots capacity = ring.read :: (ring.pop capacity).slots capacity := by
  have positive : 0 < capacity := Nat.zero_lt_of_lt valid.read
  obtain ⟨count, counted⟩ := Nat.exists_eq_succ_of_ne_zero some_
  unfold slots pop
  simp only [counted, Nat.succ_eq_add_one, Nat.add_sub_cancel, List.range_succ_eq_map,
    List.map_cons, List.map_map, Nat.add_zero, Nat.mod_eq_of_lt valid.read]
  congr 1
  apply List.map_congr_left
  intro offset _
  change (ring.read + (offset + 1)) % capacity = (advance capacity ring.read + offset) % capacity
  rw [advance_mod valid.read, Nat.mod_add_mod, Nat.add_assoc, Nat.add_comm 1]

theorem Valid.write_notMem (valid : ring.Valid capacity) (room : ring.count < capacity) :
    ring.write ∉ ring.slots capacity := by
  intro member
  obtain ⟨offset, inside, same⟩ := List.mem_map.mp member
  rw [List.mem_range] at inside
  rw [valid.write] at same
  exact inside.ne (slot_inj (inside.trans room) room same)

theorem Valid.read_notMem (valid : ring.Valid capacity) :
    ring.read ∉ (ring.pop capacity).slots capacity := by
  intro member
  obtain ⟨offset, inside, same⟩ := List.mem_map.mp member
  rw [List.mem_range] at inside
  change offset < ring.count - 1 at inside
  change (advance capacity ring.read + offset) % capacity = ring.read at same
  have below : offset + 1 < capacity :=
    (Nat.add_lt_of_lt_sub inside).trans_le valid.room
  rw [advance_mod valid.read, Nat.mod_add_mod, Nat.add_assoc, Nat.add_comm 1] at same
  have front : (ring.read + 0) % capacity = ring.read := Nat.mod_eq_of_lt valid.read
  exact Nat.succ_ne_zero offset
    (slot_inj below (Nat.zero_lt_of_lt valid.read) (same.trans front.symm))

end Slots

/-- A push into a ring with room keeps it valid. -/
theorem Valid.push (valid : ring.Valid capacity) (room : ring.count < capacity) :
    (ring.push capacity).Valid capacity where
  read := valid.read
  room := room
  write := by
    change advance capacity ring.write = _
    rw [valid.write, advance_add_mod _ _ (Nat.zero_lt_of_lt valid.read)]
    rfl

/-- A pop from a ring that is not empty keeps it valid. -/
theorem Valid.pop (valid : ring.Valid capacity) (some_ : ring.count ≠ 0) :
    (ring.pop capacity).Valid capacity where
  read := by
    change advance capacity ring.read < capacity
    rw [advance_mod valid.read]
    exact Nat.mod_lt _ (Nat.zero_lt_of_lt valid.read)
  room := (Nat.sub_le _ _).trans valid.room
  write := by
    obtain ⟨count, counted⟩ := Nat.exists_eq_succ_of_ne_zero some_
    change ring.write = (advance capacity ring.read + (ring.count - 1)) % capacity
    rw [valid.write, advance_mod valid.read, Nat.mod_add_mod, counted, Nat.succ_eq_add_one,
      Nat.add_sub_cancel, Nat.add_assoc, Nat.add_comm 1]

/-- **A push appends** what is written at the write index. -/
theorem Valid.contents_push (valid : ring.Valid capacity) (room : ring.count < capacity)
    (kept : ∀ slot, slot ≠ ring.write → cells' slot = cells slot) :
    (ring.push capacity).contents capacity cells' =
      ring.contents capacity cells ++ [cells' ring.write] := by
  unfold contents
  rw [slots_push, List.map_append, List.map_singleton, ← valid.write]
  congr 1
  apply List.map_congr_left
  intro slot member
  exact kept slot fun same => valid.write_notMem room (same ▸ member)

/-- **A pop takes** the cell at the read index off the front. -/
theorem Valid.contents_pop (valid : ring.Valid capacity) (some_ : ring.count ≠ 0)
    (kept : ∀ slot, slot ≠ ring.read → cells' slot = cells slot) :
    ring.contents capacity cells =
      cells ring.read :: (ring.pop capacity).contents capacity cells' := by
  unfold contents
  rw [valid.slots_eq some_, List.map_cons]
  congr 1
  apply List.map_congr_left
  intro slot member
  exact (kept slot fun same => valid.read_notMem (same ▸ member)).symm

end RingIndex

end Foundation
