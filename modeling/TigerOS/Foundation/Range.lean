import Mathlib.Data.List.GetD
import Mathlib.Tactic.Ring

/-! # Reading and writing ranges of a store

A store gives a value to every position. `readRange` reads a run of positions
as a list, and `writeRange` overwrites a run with a list. A byte string is seen
as a store through `List.getD`, positions past its end holding a filler, and
`overwrite` is the write on byte strings: it fills a gap before the written
range and extends the string where the range passes its end.
-/

namespace Foundation

variable {α : Type*}

/-- The values at `len` positions from `offset`. -/
def readRange (store : ℕ → α) (offset len : ℕ) : List α :=
  (List.range len).map fun k => store (offset + k)

/-- The store with the values of `data` at the positions from `offset`. -/
def writeRange (store : ℕ → α) (offset : ℕ) (data : List α) : ℕ → α := fun p =>
  if h : offset ≤ p ∧ p - offset < data.length then data.get ⟨p - offset, h.2⟩ else store p

variable {store : ℕ → α} {offset len p : ℕ} {data : List α}

@[simp] theorem length_readRange : (readRange store offset len).length = len := by
  simp [readRange]

@[simp] theorem getElem_readRange {k : ℕ} (inside : k < (readRange store offset len).length) :
    (readRange store offset len)[k] = store (offset + k) := by
  simp [readRange]

theorem getD_readRange {k : ℕ} {fill : α} (inside : k < len) :
    (readRange store offset len).getD k fill = store (offset + k) := by
  rw [List.getD_eq_getElem _ _ (by simpa using inside), getElem_readRange]

@[simp] theorem readRange_zero : readRange store offset 0 = [] := rfl

/-- Reading two adjoining ranges reads the joined range. -/
theorem readRange_add (first second : ℕ) :
    readRange store offset (first + second) =
      readRange store offset first ++ readRange store (offset + first) second := by
  simp only [readRange, List.range_add, List.map_append, List.map_map]
  congr 1
  apply List.map_congr_left
  intro k _
  simp only [Function.comp, Nat.add_assoc]

theorem readRange_succ :
    readRange store offset (len + 1) = readRange store offset len ++ [store (offset + len)] := by
  rw [readRange_add]
  rfl

theorem take_readRange (count : ℕ) :
    (readRange store offset len).take count = readRange store offset (min count len) := by
  rw [readRange, ← List.map_take, List.take_range]
  rfl

theorem readRange_congr {other : ℕ → α} {offset' : ℕ}
    (same : ∀ k < len, store (offset + k) = other (offset' + k)) :
    readRange store offset len = readRange other offset' len := by
  apply List.map_congr_left
  intro k member
  exact same k (List.mem_range.mp member)

/-- A value behind the range is not read. -/
theorem readRange_update {value : α} (behind : offset + len ≤ p) :
    readRange (Function.update store p value) offset len = readRange store offset len := by
  apply readRange_congr
  intro k inside
  exact Function.update_of_ne (by omega) _ _

/-- A value put right behind the range extends it. -/
theorem readRange_update_end {value : α} (ends : p = offset + len) :
    readRange (Function.update store p value) offset (len + 1) =
      readRange store offset len ++ [value] := by
  subst ends
  rw [readRange_succ, readRange_update le_rfl, Function.update_self]

theorem writeRange_inside (start : offset ≤ p) (inside : p - offset < data.length) :
    writeRange store offset data p = data[p - offset] := by
  simp only [writeRange, start, inside, and_self, ↓reduceDIte, List.get_eq_getElem]

theorem writeRange_outside (outside : p < offset ∨ offset + data.length ≤ p) :
    writeRange store offset data p = store p := by
  have missed : ¬ (offset ≤ p ∧ p - offset < data.length) := by omega
  simp only [writeRange, missed, ↓reduceDIte]

@[simp] theorem writeRange_nil : writeRange store offset [] = store := by
  funext p
  exact writeRange_outside (by simp only [List.length_nil]; omega)

/-- Writing two adjoining ranges writes the joined list. -/
theorem writeRange_append (first second : List α) :
    writeRange (writeRange store offset first) (offset + first.length) second =
      writeRange store offset (first ++ second) := by
  funext p
  by_cases before : p < offset
  · rw [writeRange_outside (.inl (by omega)), writeRange_outside (.inl before),
      writeRange_outside (.inl before)]
  · by_cases inFirst : p - offset < first.length
    · rw [writeRange_outside (.inl (by omega)), writeRange_inside (by omega) inFirst,
        writeRange_inside (by omega) (by rw [List.length_append]; omega),
        List.getElem_append_left inFirst]
    · by_cases inSecond : p - offset < first.length + second.length
      · rw [writeRange_inside (by omega) (by omega),
          writeRange_inside (by omega) (by rw [List.length_append]; omega),
          List.getElem_append_right (by omega)]
        congr 1
        omega
      · rw [writeRange_outside (.inr (by omega)), writeRange_outside (.inr (by omega)),
          writeRange_outside (.inr (by rw [List.length_append]; omega))]

/-- Writing the same list twice writes it once. -/
theorem writeRange_idem :
    writeRange (writeRange store offset data) offset data = writeRange store offset data := by
  funext p
  by_cases inside : offset ≤ p ∧ p - offset < data.length
  · rw [writeRange_inside inside.1 inside.2, writeRange_inside inside.1 inside.2]
  · rw [writeRange_outside (by omega)]

/-- Writes to ranges that do not meet commute. -/
theorem writeRange_comm {offset' : ℕ} {data' : List α}
    (apart : offset + data.length ≤ offset' ∨ offset' + data'.length ≤ offset) :
    writeRange (writeRange store offset data) offset' data' =
      writeRange (writeRange store offset' data') offset data := by
  funext p
  by_cases first : offset ≤ p ∧ p - offset < data.length
  · rw [writeRange_outside (by omega), writeRange_inside first.1 first.2,
      writeRange_inside first.1 first.2]
  · by_cases second : offset' ≤ p ∧ p - offset' < data'.length
    · rw [writeRange_inside second.1 second.2, writeRange_outside (by omega),
        writeRange_inside second.1 second.2]
    · rw [writeRange_outside (by omega), writeRange_outside (by omega),
        writeRange_outside (by omega), writeRange_outside (by omega)]

/-- Reading back exactly what was written. -/
theorem readRange_writeRange_same :
    readRange (writeRange store offset data) offset data.length = data := by
  apply List.ext_getElem
  · rw [length_readRange]
  · intro k _ inside
    rw [getElem_readRange, writeRange_inside (by omega) (by omega)]
    congr 1
    omega

/-- A write leaves ranges it does not meet. -/
theorem readRange_writeRange_disjoint {start : ℕ}
    (apart : start + len ≤ offset ∨ offset + data.length ≤ start) :
    readRange (writeRange store offset data) start len = readRange store start len := by
  apply readRange_congr
  intro k inside
  exact writeRange_outside (by omega)

theorem length_flatMap_records {β : Type*} {record : β → List α} {size : ℕ}
    (sized : ∀ b, (record b).length = size) (rows : List β) :
    (rows.flatMap record).length = rows.length * size := by
  induction rows with
  | nil => simp
  | cons head rows ih =>
      rw [List.flatMap_cons, List.length_append, sized, ih, List.length_cons]
      ring

/-- Records of one size laid side by side: the values of the `i`-th record start
at `i * size`. -/
theorem getD_flatMap_records {β : Type*} {record : β → List α} {size : ℕ}
    (sized : ∀ b, (record b).length = size) (rows : List β) {i k : ℕ} (row : i < rows.length)
    (column : k < size) (fill : α) :
    (rows.flatMap record).getD (i * size + k) fill = (record rows[i]).getD k fill := by
  induction rows generalizing i with
  | nil => exact absurd row (Nat.not_lt_zero _)
  | cons head rows ih =>
      rw [List.flatMap_cons]
      cases i with
      | zero =>
          rw [Nat.zero_mul, Nat.zero_add, List.getD_append _ _ _ _ (by rwa [sized])]
          rfl
      | succ i =>
          have place : (i + 1) * size + k = size + (i * size + k) := by ring
          rw [place, List.getD_append_right _ _ _ _ (by rw [sized]; omega), sized,
            Nat.add_sub_cancel_left, ih (by simpa using row)]
          rfl

/-- Writing `data` into a byte string at `offset`, with `fill` in the gap when
`offset` lies past its end. -/
def overwrite (fill : α) (content : List α) (offset : ℕ) (data : List α) : List α :=
  content.take offset ++ List.replicate (offset - content.length) fill ++ data ++
    content.drop (offset + data.length)

variable {fill : α} {content : List α}

theorem length_overwrite :
    (overwrite fill content offset data).length =
      max content.length (offset + data.length) := by
  simp only [overwrite, List.length_append, List.length_take, List.length_replicate,
    List.length_drop]
  omega

/-- Seen as stores filled past their ends, overwriting a byte string writes the
range and nothing else. -/
theorem getD_overwrite (fill : α) (content : List α) (offset : ℕ) (data : List α) :
    (fun p => (overwrite fill content offset data).getD p fill) =
      writeRange (fun p => content.getD p fill) offset data := by
  funext p
  have front : (content.take offset ++ List.replicate (offset - content.length) fill).length =
      offset := by
    simp only [List.length_append, List.length_take, List.length_replicate]
    omega
  by_cases before : p < offset
  · rw [writeRange_outside (.inl before)]
    simp only [overwrite, List.append_assoc, List.getD_eq_getElem?_getD]
    rw [← List.append_assoc, List.getElem?_append_left (by omega)]
    by_cases inside : p < content.length
    · rw [List.getElem?_append_left (by rw [List.length_take]; omega),
        List.getElem?_take_of_lt before]
    · rw [List.getElem?_append_right (by rw [List.length_take]; omega),
        List.getElem?_replicate_of_lt (by rw [List.length_take]; omega),
        List.getElem?_eq_none (by omega)]
      rfl
  · simp only [overwrite, List.append_assoc, List.getD_eq_getElem?_getD]
    rw [← List.append_assoc, List.getElem?_append_right (by omega), front]
    by_cases written : p - offset < data.length
    · rw [writeRange_inside (by omega) written, List.getElem?_append_left written,
        List.getElem?_eq_getElem written]
      rfl
    · rw [writeRange_outside (.inr (by omega)), List.getElem?_append_right (by omega),
        List.getElem?_drop]
      congr 2
      omega

end Foundation
