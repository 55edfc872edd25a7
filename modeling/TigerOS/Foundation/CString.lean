import Mathlib.Data.List.TakeWhile
import Mathlib.Data.Int.Basic
import Mathlib.Order.Basic

/-! # C strings and little-endian words

A C string is the bytes before its terminating NUL. Character arrays are read
as lists whose end counts as a NUL. The comparison `strncmp` answers zero
exactly when the two arrays hold the same C string within the compared length
(`Foundation.strncmp_eq_zero`); `strcmp` also orders strings by their bytes
(`Foundation.strcmp_neg`). A 32-bit word is stored as four bytes, least
significant first.
-/

namespace Foundation

/-- A NUL-terminated string, given by the bytes before the terminator. -/
structure CString where
  bytes : List UInt8
  noNul : 0 ∉ bytes
  deriving DecidableEq

/-- The bytes of a string of ASCII characters. -/
def ascii (text : String) : List UInt8 := text.toList.map fun c => UInt8.ofNat c.toNat

/-- The C string in the first `n` bytes of an array. -/
def cstr (n : ℕ) (array : List UInt8) : List UInt8 :=
  (array.take n).takeWhile (· ≠ 0)

/-- `strncmp`: the difference of the first bytes that differ among the first
`n`, where both strings stop at a NUL. -/
def strncmp : ℕ → List UInt8 → List UInt8 → ℤ
  | 0, _, _ => 0
  | n + 1, first, second =>
      let a := first.headD 0
      let b := second.headD 0
      if a ≠ b then a.toNat - b.toNat
      else if a = 0 then 0
      else strncmp n first.tail second.tail

private theorem cstr_succ (n : ℕ) (array : List UInt8) :
    cstr (n + 1) array =
      if array.headD 0 = 0 then [] else array.headD 0 :: cstr n array.tail := by
  cases array with
  | nil => rfl
  | cons head tail =>
      by_cases zero : head = 0
      · simp [cstr, zero]
      · simp [cstr, zero]

/-- Two arrays compare equal exactly when they hold the same C string. -/
theorem strncmp_eq_zero (n : ℕ) (first second : List UInt8) :
    strncmp n first second = 0 ↔ cstr n first = cstr n second := by
  induction n generalizing first second with
  | zero => simp [strncmp, cstr]
  | succ n ih =>
      rw [cstr_succ, cstr_succ]
      by_cases heads : first.headD 0 = second.headD 0
      · by_cases zero : second.headD 0 = 0
        · simp only [strncmp, heads, zero, ne_eq, not_true_eq_false, ↓reduceIte]
        · simp only [strncmp, heads, zero, ne_eq, not_true_eq_false, ↓reduceIte, ih,
            List.cons.injEq, true_and]
      · have apart : ((first.headD 0).toNat : ℤ) - (second.headD 0).toNat ≠ 0 := by
          intro same
          exact heads (UInt8.toNat_inj.mp (by omega))
        simp only [strncmp, heads, ne_eq, not_false_eq_true, ↓reduceIte]
        refine iff_of_false apart ?_
        split <;> split <;> simp_all

theorem not_mem_cstr (n : ℕ) (array : List UInt8) : 0 ∉ cstr n array := by
  intro member
  have nonzero := List.mem_takeWhile_imp member
  simp at nonzero

/-- The C string at the start of a buffer. -/
def CString.of (buffer : List UInt8) : CString := ⟨cstr buffer.length buffer, not_mem_cstr _ _⟩

/-- An array holds the string before its first NUL. -/
theorem cstr_append_nul {n : ℕ} {bytes : List UInt8} (noNul : 0 ∉ bytes)
    (short : bytes.length < n) (rest : List UInt8) : cstr n (bytes ++ 0 :: rest) = bytes := by
  have solid : ∀ byte ∈ bytes, decide (byte ≠ 0) = true :=
    fun byte member => decide_eq_true fun zero => noNul (zero ▸ member)
  obtain ⟨more, rfl⟩ := Nat.exists_eq_add_of_lt short
  unfold cstr
  rw [Nat.add_assoc, List.take_length_add_append, List.take_succ_cons,
    List.takeWhile_append_of_pos solid]
  exact List.append_nil _

theorem CString.of_append_nul {bytes : List UInt8} (noNul : 0 ∉ bytes) (rest : List UInt8) :
    CString.of (bytes ++ 0 :: rest) = ⟨bytes, noNul⟩ := by
  have short : bytes.length < (bytes ++ 0 :: rest).length := by
    rw [List.length_append, List.length_cons]
    omega
  unfold CString.of
  simp only [cstr_append_nul noNul short rest]

/-- An array holding a shorter string and then NULs holds that string. -/
theorem cstr_append_replicate {n : ℕ} {bytes : List UInt8} (noNul : 0 ∉ bytes)
    (short : bytes.length < n) (padding : ℕ) (padded : 0 < padding) :
    cstr n (bytes ++ List.replicate padding 0) = bytes := by
  obtain ⟨more, rfl⟩ := Nat.exists_eq_succ_of_ne_zero padded.ne'
  exact cstr_append_nul noNul short (List.replicate more 0)

/-- A string without NULs is cut at the compared length. -/
theorem cstr_of_noNul {bytes : List UInt8} (noNul : 0 ∉ bytes) (n : ℕ) :
    cstr n bytes = bytes.take n := by
  refine List.takeWhile_eq_self_iff.mpr fun byte member => ?_
  have inside : byte ∈ bytes := List.mem_of_mem_take member
  have nonzero : byte ≠ 0 := fun zero => noNul (zero ▸ inside)
  simpa using nonzero

/-- A buffer without NULs holds a string of all its bytes. -/
theorem CString.bytes_of {buffer : List UInt8} (noNul : 0 ∉ buffer) :
    (CString.of buffer).bytes = buffer :=
  (cstr_of_noNul noNul _).trans List.take_length

/-- `strcmp` on the bytes of two strings: the difference of the first bytes that
differ, where the end of a string counts as a NUL. -/
def strcmp : List UInt8 → List UInt8 → ℤ
  | [], [] => 0
  | [], b :: _ => 0 - b.toNat
  | a :: _, [] => a.toNat
  | a :: first, b :: second => if a ≠ b then a.toNat - b.toNat else strcmp first second

private theorem toNat_pos {byte : UInt8} (nonzero : byte ≠ 0) : 0 < byte.toNat := by
  rw [Nat.pos_iff_ne_zero]
  exact fun zero => nonzero (UInt8.toNat_inj.mp zero)

/-- Two strings compare equal exactly when they are the same. -/
theorem strcmp_eq_zero {first second : List UInt8} (noNul : 0 ∉ first) (noNul' : 0 ∉ second) :
    strcmp first second = 0 ↔ first = second := by
  induction first generalizing second with
  | nil =>
      cases second with
      | nil => exact iff_of_true rfl rfl
      | cons b second =>
          have positive := toNat_pos fun zero : b = 0 => noNul' (by simp [zero])
          exact iff_of_false (by simp only [strcmp]; omega) (by simp)
  | cons a first ih =>
      cases second with
      | nil =>
          have positive := toNat_pos fun zero : a = 0 => noNul (by simp [zero])
          exact iff_of_false (by simp only [strcmp]; omega) (by simp)
      | cons b second =>
          simp only [List.mem_cons, not_or] at noNul noNul'
          simp only [strcmp, List.cons.injEq]
          by_cases same : a = b
          · simp only [same, ne_eq, not_true_eq_false, ↓reduceIte, true_and, ih noNul.2 noNul'.2]
          · simp only [same, ne_eq, not_false_eq_true, ↓reduceIte, false_and, iff_false]
            exact fun zero => same (UInt8.toNat_inj.mp (by omega))

/-- A string compares less exactly when it comes earlier in byte order. -/
theorem strcmp_neg {first second : List UInt8} (noNul' : 0 ∉ second) :
    strcmp first second < 0 ↔ first < second := by
  induction first generalizing second with
  | nil =>
      cases second with
      | nil => exact iff_of_false (by simp only [strcmp]; omega) (List.lt_irrefl _)
      | cons b second =>
          have positive := toNat_pos fun zero : b = 0 => noNul' (by simp [zero])
          exact iff_of_true (by simp only [strcmp]; omega) (List.nil_lt_cons _ _)
  | cons a first ih =>
      cases second with
      | nil => exact iff_of_false (by simp only [strcmp]; omega) (List.not_lt_nil _)
      | cons b second =>
          simp only [List.mem_cons, not_or] at noNul'
          rw [List.cons_lt_cons_iff]
          simp only [strcmp]
          by_cases same : a = b
          · subst same
            have irrefl : ¬ a < a := UInt8.lt_irrefl a
            simp only [ne_eq, not_true_eq_false, ↓reduceIte, irrefl, true_and, false_or,
              ih noNul'.2]
          · simp only [same, ne_eq, not_false_eq_true, ↓reduceIte, false_and, or_false,
              UInt8.lt_iff_toNat_lt]
            omega

/-- The four bytes of a 32-bit word, least significant first. -/
def u32Bytes (word : UInt32) : List UInt8 :=
  [UInt8.ofNat word.toNat, UInt8.ofNat (word.toNat / 256), UInt8.ofNat (word.toNat / 65536),
    UInt8.ofNat (word.toNat / 16777216)]

/-- The 32-bit word stored at the first four positions. -/
def u32At (byte : ℕ → UInt8) : UInt32 :=
  UInt32.ofNat ((byte 0).toNat + 256 * (byte 1).toNat + 65536 * (byte 2).toNat +
    16777216 * (byte 3).toNat)

/-- A stored word is read back. -/
theorem u32At_u32Bytes {byte : ℕ → UInt8} {word : UInt32}
    (stored : ∀ k < 4, byte k = (u32Bytes word).getD k 0) : u32At byte = word := by
  have bound := word.toNat_lt
  apply UInt32.toNat_inj.mp
  simp only [u32At, stored 0 (by omega), stored 1 (by omega), stored 2 (by omega),
    stored 3 (by omega), u32Bytes, List.getD_cons_zero, List.getD_cons_succ, UInt8.toNat_ofNat',
    UInt32.toNat_ofNat']
  omega

end Foundation
