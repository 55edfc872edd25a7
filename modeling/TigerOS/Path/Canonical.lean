import Mathlib.Tactic
import TigerOS.Path.NormalForm

/-! # Canonical paths

A canonical absolute path is `/`, or a slash before each of its components, none
of which is empty, `.` or `..`. Normalizing an absolute path answers a canonical
path (`TigerOS.Path.fsPathNormalize_canonical`), and normalizing a canonical path
answers it again (`TigerOS.Path.fsPathNormalize_render`), so resolving below a
canonical working directory answers canonical paths
(`TigerOS.Path.fsPathResolve_canonical`).
-/

namespace TigerOS.Path

open Foundation

/-- A component of a canonical absolute path. -/
structure ValidComponent (component : List UInt8) : Prop where
  nonempty : component ≠ []
  noSlash : slash ∉ component
  noNul : 0 ∉ component
  notDot : ¬ segmentIsDot component
  notDotdot : ¬ segmentIsDotdot component

/-- The components of a canonical absolute path. -/
def Canonical (components : List (List UInt8)) : Prop := ∀ c ∈ components, ValidComponent c

/-- The string of a canonical absolute path. -/
def render (components : List (List UInt8)) : List UInt8 :=
  if components = [] then [slash] else components.flatMap (slash :: ·)

@[simp] theorem render_nil : render [] = [slash] := rfl

theorem render_cons (c : List UInt8) (cs : List (List UInt8)) :
    render (c :: cs) = slash :: (c ++ cs.flatMap (slash :: ·)) := rfl

theorem head_render (components : List (List UInt8)) :
    (render components).head? = some slash := by
  cases components with
  | nil => rfl
  | cons c cs => rfl

theorem render_ne_nil (components : List (List UInt8)) : render components ≠ [] := by
  intro empty
  have head := head_render components
  rw [empty] at head
  cases head

/-- A beginning of a path is written with no more bytes. -/
theorem length_render_le (before after : List (List UInt8)) :
    (render before).length ≤ (render (before ++ after)).length := by
  by_cases none : before = []
  · rw [none]
    exact List.length_pos_iff.mpr (render_ne_nil _)
  · rw [render, if_neg none, render, if_neg (by simp [none]), List.flatMap_append,
      List.length_append]
    exact Nat.le_add_right _ _

/-! ## Cutting a segment -/

section Cut

variable {c rest : List UInt8}

/-- What follows a component: nothing, or a slash. -/
def AtSlash (rest : List UInt8) : Prop := rest = [] ∨ rest.head? = some slash

theorem atSlash_flatMap (cs : List (List UInt8)) : AtSlash (cs.flatMap (slash :: ·)) := by
  cases cs with
  | nil => exact .inl rfl
  | cons c cs => exact .inr rfl

private theorem keeps_noSlash (noSlash : slash ∉ c) : ∀ byte ∈ c, decide (byte ≠ slash) = true := by
  intro byte member
  have apart : byte ≠ slash := fun same => noSlash (same ▸ member)
  exact decide_eq_true apart

theorem takeWhile_component (noSlash : slash ∉ c) (follows : AtSlash rest) :
    (c ++ rest).takeWhile (· ≠ slash) = c := by
  rw [List.takeWhile_append_of_pos (keeps_noSlash noSlash)]
  obtain rfl | head := follows
  · simp
  · cases rest with
    | nil => simp
    | cons byte rest =>
        obtain rfl := Option.some.inj head
        simp

theorem dropWhile_component (noSlash : slash ∉ c) (follows : AtSlash rest) :
    (c ++ rest).dropWhile (· ≠ slash) = rest := by
  rw [List.dropWhile_append_of_pos (keeps_noSlash noSlash)]
  obtain rfl | head := follows
  · rfl
  · cases rest with
    | nil => rfl
    | cons byte rest =>
        obtain rfl := Option.some.inj head
        simp

end Cut

/-! ## Normal forms -/

section Normal

variable {outLen : ℕ} {path result : List UInt8} {components : List (List UInt8)}

/-- A canonical path is its components joined below the root. -/
theorem render_eq_joined (components : List (List UInt8)) :
    render components = joined true components := by
  unfold render joined
  by_cases none_ : components = []
  · rw [if_pos none_, if_pos rfl, none_]
    rfl
  · rw [if_neg none_, if_pos rfl, flatMap_cons_eq none_]

/-- What an absolute path keeps are canonical components. -/
theorem canonical_keptComponents (absolute : path.head? = some slash) (noNul : 0 ∉ path) :
    Canonical (keptComponents path) := by
  intro c member
  obtain ⟨⟨⟨nonempty, noSlash⟩, notDot⟩, within⟩ := mem_keptComponents member
  refine ⟨nonempty, noSlash, fun nul => noNul (within 0 nul), notDot, ?_⟩
  intro isDotdot
  have same : c = dotdot := isDotdot
  exact keptComponents_rooted (decide_eq_true absolute) (same ▸ member)

/-- **Normalizing an absolute path** answers a canonical path that fits with its
NUL. -/
theorem fsPathNormalize_canonical (absolute : path.head? = some slash) (noNul : 0 ∉ path)
    (normalizes : fsPathNormalize path outLen = some result) :
    ∃ components, Canonical components ∧ result = render components ∧ result.length < outLen := by
  obtain ⟨form, short⟩ := fsPathNormalize_sound normalizes
  refine ⟨keptComponents path, canonical_keptComponents absolute noNul, ?_, short⟩
  rw [form, normalForm, show isAbsolute path = true from decide_eq_true absolute, render_eq_joined]

theorem Canonical.named (canonical : Canonical components) :
    ∀ c ∈ components, (c ≠ [] ∧ slash ∉ c) ∧ c ≠ [dot] :=
  fun c member => ⟨⟨(canonical c member).nonempty, (canonical c member).noSlash⟩,
    (canonical c member).notDot⟩

/-- Canonical components go up nowhere. -/
theorem Canonical.climbed (canonical : Canonical components) :
    Climbed dotdot true components := by
  intro before after split
  have member : dotdot ∈ components := split ▸ List.mem_append_right _ List.mem_cons_self
  exact absurd rfl (canonical dotdot member).notDotdot

/-- A canonical path keeps its components. -/
theorem keptComponents_render (canonical : Canonical components) :
    keptComponents (render components) = components := by
  rw [render_eq_joined]
  exact (normalForm_joined canonical.named canonical.climbed).1

/-- **A canonical path is its own normal form.** -/
theorem fsPathNormalize_render (canonical : Canonical components)
    (short : (render components).length < fsPathMax) (fits : (render components).length < outLen) :
    fsPathNormalize (render components) outLen = some (render components) := by
  obtain ⟨-, form⟩ := fsPathNormalize_eq_normalForm (render components) outLen
    (render_ne_nil components) short
  rw [form, render_eq_joined, (normalForm_joined canonical.named canonical.climbed).2,
    ← render_eq_joined, if_pos (Nat.succ_le_of_lt fits)]

theorem noNul_render (canonical : Canonical components) : 0 ∉ render components := by
  rw [render]
  split
  · decide
  · intro member
    obtain ⟨c, inside, here⟩ := List.mem_flatMap.mp member
    rcases List.mem_cons.mp here with same | within
    · exact absurd same (by decide)
    · exact (canonical c inside).noNul within

variable {cwd : List (List UInt8)}

/-- **Resolving below a canonical working directory** answers a canonical path. -/
theorem fsPathResolve_canonical (canonical : Canonical cwd)
    (short : (render cwd).length < fsPathMax) (noNul : 0 ∉ path)
    (resolves : fsPathResolve (render cwd) path outLen = some result) :
    ∃ components, Canonical components ∧ result = render components ∧ result.length < outLen := by
  have noNulCwd := noNul_render canonical
  rw [fsPathResolve, fsPathNormalize_render canonical short short] at resolves
  simp only [head_render, ne_eq, not_true_eq_false, ↓reduceIte] at resolves
  split at resolves
  · cases resolves
  · split at resolves
    · rename_i absolute
      exact fsPathNormalize_canonical absolute noNul resolves
    · split at resolves
      · exact fsPathNormalize_canonical (head_render cwd) noNulCwd resolves
      · split at resolves
        · cases resolves
        · split at resolves
          · refine fsPathNormalize_canonical rfl ?_ resolves
            simp only [List.mem_cons, not_or]
            exact ⟨by decide, noNul⟩
          · refine fsPathNormalize_canonical ?_ ?_ resolves
            · rw [List.head?_append_of_ne_nil _ (render_ne_nil cwd), head_render]
            · simp only [List.mem_append, List.mem_cons, not_or]
              exact ⟨noNulCwd, by decide, noNul⟩

/-- A canonical path resolves to itself. -/
theorem fsPathResolve_render (canonical : Canonical cwd) (short : (render cwd).length < fsPathMax)
    (canonical' : Canonical components) (short' : (render components).length < fsPathMax)
    (fits : (render components).length < outLen) :
    fsPathResolve (render cwd) (render components) outLen = some (render components) := by
  rw [fsPathResolve, fsPathNormalize_render canonical short short, if_neg (by omega)]
  simp only [head_render, ne_eq, not_true_eq_false, ↓reduceIte]
  exact fsPathNormalize_render canonical' short' fits

private theorem flatMap_injective {components' : List (List UInt8)}
    (canonical : Canonical components) (canonical' : Canonical components')
    (same : components.flatMap (slash :: ·) = components'.flatMap (slash :: ·)) :
    components = components' := by
  induction components generalizing components' with
  | nil =>
      cases components' with
      | nil => rfl
      | cons c' cs' => simp at same
  | cons c cs ih =>
      cases components' with
      | nil => simp at same
      | cons c' cs' =>
          have valid := canonical c List.mem_cons_self
          have valid' := canonical' c' List.mem_cons_self
          have tails : c ++ cs.flatMap (slash :: ·) = c' ++ cs'.flatMap (slash :: ·) :=
            List.tail_eq_of_cons_eq same
          have heads := congrArg (List.takeWhile (· ≠ slash)) tails
          have rests := congrArg (List.dropWhile (· ≠ slash)) tails
          rw [takeWhile_component valid.noSlash (atSlash_flatMap cs),
            takeWhile_component valid'.noSlash (atSlash_flatMap cs')] at heads
          rw [dropWhile_component valid.noSlash (atSlash_flatMap cs),
            dropWhile_component valid'.noSlash (atSlash_flatMap cs')] at rests
          rw [heads, ih (fun x member => canonical x (List.mem_cons_of_mem _ member))
            (fun x member => canonical' x (List.mem_cons_of_mem _ member)) rests]

/-- A canonical path has one list of components. -/
theorem render_injective {components' : List (List UInt8)} (canonical : Canonical components)
    (canonical' : Canonical components') (same : render components = render components') :
    components = components' := by
  have nonempty {c : List UInt8} {cs : List (List UInt8)} (canonical : Canonical (c :: cs)) :
      render (c :: cs) ≠ render [] := by
    intro root
    have tails : c ++ cs.flatMap (slash :: ·) = [] := List.tail_eq_of_cons_eq root
    exact (canonical c List.mem_cons_self).nonempty (List.append_eq_nil_iff.mp tails).1
  cases components with
  | nil =>
      cases components' with
      | nil => rfl
      | cons c' cs' => exact absurd same.symm (nonempty canonical')
  | cons c cs =>
      cases components' with
      | nil => exact absurd same (nonempty canonical)
      | cons c' cs' => exact flatMap_injective canonical canonical' same

end Normal

end TigerOS.Path
