import TigerOS.Dir.Growth

/-! # Reading paths in a shaped tree

Going up from a node and writing the names down again gives the path of the node
(`TigerOS.Dir.Shaped.pathFromIndex_eq`), and looking the components of a path up
from the root finds the node of the path (`TigerOS.Dir.Shaped.lookupAbsolute_eq_some`).
-/

namespace TigerOS.Dir

open Foundation TigerOS.Path

section Paths

variable {tree : FsDirTree} {kids : NodeIndex → List NodeIndex} {i cur : NodeIndex}
  {path before comps : List (List UInt8)} {name : List UInt8} {rounds outLen : ℕ}

/-- The components of a node's path are names of nodes. -/
theorem Shaped.names_valid (shaped : Shaped tree kids) (here : PathTo tree i path) :
    ∀ c ∈ path, ValidName c := by
  induction here with
  | root => simp
  | child above below ih =>
      intro c member
      rcases List.mem_append.mp member with earlier | last
      · exact ih c earlier
      · rw [List.mem_singleton.mp last]
        exact shaped.child_name below

theorem Shaped.canonical (shaped : Shaped tree kids) (here : PathTo tree i path) :
    Canonical path :=
  fun c member => (shaped.names_valid here c member).1

theorem Shaped.inside (shaped : Shaped tree kids) (here : PathTo tree i path) :
    i.val < tree.nodeCount :=
  (shaped.used i).mp (here.used shaped.rooted)

/-- Each step towards the root goes to a lower index. -/
private theorem Shaped.depth_le (shaped : Shaped tree kids) (here : PathTo tree i path) :
    path.length ≤ i.val := by
  induction here with
  | root => exact Nat.zero_le _
  | child above below ih =>
      obtain ⟨p, linked, lower⟩ :=
        shaped.upward _ ((shaped.used _).mp below.used) below.notRoot
      obtain rfl := Option.some.inj (linked.symm.trans below.parent)
      rw [List.length_append]
      exact Nat.lt_of_le_of_lt ih lower

/-- The first loop of `path_from_index` collects the nodes of the path. -/
private theorem Shaped.parentStack_eq (shaped : Shaped tree kids) (here : PathTo tree i path)
    (enough : path.length ≤ rounds) (acc : List NodeIndex) :
    ∃ stack, parentStack tree rounds i acc = some (stack ++ acc) ∧
      stack.map (fun c => (tree.nodes c).name) = path := by
  induction here generalizing rounds acc with
  | root => exact ⟨[], by unfold parentStack; exact if_pos rfl, rfl⟩
  | @child parent c name path above below ih =>
      obtain ⟨rounds, rfl⟩ := Nat.exists_eq_succ_of_ne_zero (by
        rw [List.length_append] at enough
        exact (Nat.lt_of_lt_of_le (Nat.succ_pos _) enough).ne' : rounds ≠ 0)
      rw [List.length_append, List.length_singleton] at enough
      obtain ⟨stack, climbs, names⟩ := ih (Nat.le_of_succ_le_succ enough) (c :: acc)
      have parentInside := shaped.inside above
      have parentUsed := (shaped.used parent).mpr parentInside
      refine ⟨stack ++ [c], ?_, ?_⟩
      · have notRoot : c ≠ 0 := below.notRoot
        have linked : (tree.nodes c).parent = some parent := below.parent
        rw [parentStack, if_neg notRoot, linked]
        simp only [not_le.mpr parentInside, parentUsed, Bool.true_eq_false, or_self, ↓reduceIte,
          climbs, List.append_assoc, List.singleton_append]
      · rw [List.map_append, names, List.map_singleton, show (tree.nodes c).name = name from
          below.name]

/-- The second loop of `path_from_index` writes the names with slashes between. -/
private theorem emitNames_eq {stack : List NodeIndex} {out : List UInt8}
    (valid : ∀ c ∈ i :: stack, ValidName (tree.nodes c).name)
    (fits : out.length + ((tree.nodes i).name ++
      (stack.map fun c => (tree.nodes c).name).flatMap (slash :: ·)).length < outLen) :
    emitNames tree outLen out (i :: stack) = some (out ++ ((tree.nodes i).name ++
      (stack.map fun c => (tree.nodes c).name).flatMap (slash :: ·))) := by
  induction stack generalizing i out with
  | nil =>
      have here := valid i List.mem_cons_self
      have positive := List.length_pos_iff.mpr here.1.nonempty
      have bound := here.2
      simp only [List.map_nil, List.flatMap_nil, List.append_nil] at fits ⊢
      rw [emitNames, if_neg (by omega)]
      rfl
  | cons j stack ih =>
      have here := valid i List.mem_cons_self
      have positive := List.length_pos_iff.mpr here.1.nonempty
      have bound := here.2
      simp only [List.map_cons, List.flatMap_cons, List.length_append, List.length_cons] at fits
      rw [emitNames, if_neg (by omega)]
      simp only [reduceCtorEq, ↓reduceIte]
      rw [if_neg (by rw [List.length_append]; omega), ih
        (fun c member => valid c (List.mem_cons_of_mem _ member)) (by
          simp only [List.length_append, List.length_singleton]
          omega)]
      simp

/-- **The path of a node is written from its names.** -/
theorem Shaped.pathFromIndex_eq (shaped : Shaped tree kids) (here : PathTo tree i path) :
    pathFromIndex tree i fsPathMax = some (render path) := by
  have inside := shaped.inside here
  have used := (shaped.used i).mpr inside
  have bounds : ¬ (¬ validTree tree ∨ fsPathMax = 0 ∨ tree.nodeCount ≤ i ∨
      (tree.nodes i).used = false) := by
    rintro (invalid | zero | outside | unused)
    · exact invalid shaped.valid
    · cases zero
    · exact absurd inside (not_lt.mpr outside)
    · rw [used] at unused
      cases unused
  rw [pathFromIndex, if_neg bounds]
  by_cases root : i = 0
  · subst root
    rw [if_pos rfl, (here.path_unique .root : path = [])]
    rfl
  · rw [if_neg root]
    obtain ⟨stack, climbs, names⟩ := shaped.parentStack_eq here
      ((shaped.depth_le here).trans i.isLt.le) []
    rw [climbs, List.append_nil]
    have short := shaped.short i path here
    have valid : ∀ c ∈ stack, ValidName (tree.nodes c).name := by
      intro c member
      exact shaped.names_valid here _ (names ▸ List.mem_map_of_mem member)
    cases stack with
    | nil =>
        rw [← names] at here
        exact absurd (NamedTree.PathTo.nil_iff.mp here) root
    | cons j stack =>
        subst names
        rw [List.map_cons, render_cons] at short ⊢
        rw [List.length_cons, Nat.add_comm] at short
        have writes := @emitNames_eq _ _ _ _ [slash] valid short
        simp only [writes]
        rfl

/-- Resolving a path in a shaped tree is resolving it below the path of the
working directory. -/
theorem Shaped.resolvePath_eq (shaped : Shaped tree kids) (here : PathTo tree tree.cwdIndex path)
    (p : List UInt8) : resolvePath tree p fsPathMax = fsPathResolve (render path) p fsPathMax := by
  have valid : ¬ (¬ validTree tree ∨ fsPathMax = 0) := by
    rintro (invalid | zero)
    · exact invalid shaped.valid
    · cases zero
  rw [resolvePath, if_neg valid, shaped.pathFromIndex_eq here]

/-! ## Looking a path up -/

/-- The child of a name, where names longer than a node's are not found. -/
def findName (tree : FsDirTree) (parent : NodeIndex) (name : List UInt8) : Option NodeIndex :=
  if fsDirNameMax < name.length then none else findChild tree parent name

theorem Shaped.findName_eq_some (shaped : Shaped tree kids) (inside : cur.val < tree.nodeCount)
    (noNul : 0 ∉ name) : findName tree cur name = some i ↔ Child tree cur i name := by
  rw [findName]
  split
  · rename_i long
    refine iff_of_false (fun same => by cases same) fun child => ?_
    exact absurd (shaped.child_name child).2 (not_le.mpr long)
  · exact shaped.findChild_eq_some inside noNul

/-- What is left of a path after its first component. -/
theorem tail_flatMap (comps : List (List UInt8)) :
    (comps.flatMap (slash :: ·)).tail = (render comps).tail := by
  cases comps <;> rfl

theorem tail_render_cons (c : List UInt8) (cs : List (List UInt8)) :
    (render (c :: cs)).tail = c ++ cs.flatMap (slash :: ·) := rfl

private theorem lookupFrom_nil : lookupFrom tree rounds cur [] = some cur := by
  cases rounds <;> rfl

/-- The loop of `lookup_absolute` looks the components up one after the other. -/
private theorem lookupFrom_eq (canonical : Canonical comps)
    (enough : (render comps).tail.length ≤ rounds) :
    lookupFrom tree rounds cur (render comps).tail =
      NamedTree.walk (findName tree) cur comps := by
  induction comps generalizing rounds cur with
  | nil => exact lookupFrom_nil
  | cons c cs ih =>
      have valid := canonical c List.mem_cons_self
      have positive := List.length_pos_iff.mpr valid.nonempty
      rw [tail_render_cons, List.length_append] at enough
      obtain ⟨rounds, rfl⟩ := Nat.exists_eq_succ_of_ne_zero (by omega : rounds ≠ 0)
      have some : c ++ cs.flatMap (slash :: ·) ≠ [] := by simp [valid.nonempty]
      rw [tail_render_cons, lookupFrom, if_neg some, NamedTree.walk, findName]
      simp only [takeWhile_component valid.noSlash (atSlash_flatMap cs),
        dropWhile_component valid.noSlash (atSlash_flatMap cs), positive.ne', false_or,
        tail_flatMap]
      by_cases long : fsDirNameMax < c.length
      · rw [if_pos long, if_pos long]
      · rw [if_neg long, if_neg long]
        cases findChild tree cur c with
        | none => rfl
        | some child =>
            refine ih (fun c' member => canonical c' (List.mem_cons_of_mem _ member)) ?_
            rw [← tail_flatMap, List.length_tail]
            omega

/-- **Looking a canonical path up finds the node of the path.** -/
theorem Shaped.lookupAbsolute_eq_some (shaped : Shaped tree kids) (canonical : Canonical comps) :
    lookupAbsolute tree (render comps) = some i ↔ PathTo tree i comps := by
  have starts : ¬ (¬ validTree tree ∨ (render comps).head? ≠ some slash) := by
    rintro (invalid | other)
    · exact invalid shaped.valid
    · exact other (head_render comps)
  rw [lookupAbsolute, if_neg starts, lookupFrom_eq canonical (List.length_tail ▸ Nat.sub_le _ _)]
  refine NamedTree.walk_eq_some shaped.distinct .root fun parent there name member child => ?_
  obtain ⟨path, above⟩ := there
  exact shaped.findName_eq_some (shaped.inside above) (canonical name member).noNul

end Paths

end TigerOS.Dir
