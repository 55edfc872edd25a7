import TigerOS.Dir.Refinement
import TigerOS.Dir.WorkingDirectory
import TigerOS.Path.Laws

/-! # Single steps of the working directory

A relative path is put behind the path of the working directory before it is
normalized, and the two share the room of one path. The name of a child always fits
(`TigerOS.Dir.Shaped.cd_child`), but `..` does not once the path of the working
directory is near the limit, so that a directory can be entered and left step by step
exactly when its own path leaves room (`TigerOS.Dir.steppable_iff`).
-/

namespace TigerOS.Dir

open Foundation TigerOS.Path

/-- The node above the working directory; the root is above itself. -/
def nodeAbove (tree : FsDirTree) : NodeIndex :=
  if tree.cwdIndex = 0 then 0 else (tree.nodes tree.cwdIndex).parent.getD 0

/-- From the working directory single steps lead to each child that is listed, nowhere
else by `.`, and to the node above by `..`. -/
structure Steppable (tree : FsDirTree) : Prop where
  child : ∀ (p : Option CString) (buffer : EntryBuffer) (name : List UInt8),
    fsDirWalk tree p = some tree.cwdIndex → name ∈ (fsDirReaddir tree p buffer).entries →
      ∃ c, Child tree tree.cwdIndex c name ∧
        fsDirCd tree (some (CString.of name)) = (true, { tree with cwdIndex := c })
  stay : fsDirCd tree (some (CString.of [dot])) = (true, tree)
  leave : fsDirCd tree (some (CString.of dotdot)) =
    (true, { tree with cwdIndex := nodeAbove tree })

section Steps

variable {tree : FsDirTree} {kids : NodeIndex → List NodeIndex} {i : NodeIndex}
  {path comps : List (List UInt8)} {name q : List UInt8}

/-- A relative path that has no room behind the working directory leads nowhere. -/
theorem Shaped.cd_relative_long (shaped : Shaped tree kids) (here : PathTo tree tree.cwdIndex path)
    (noNul : 0 ∉ q) (nonempty : q ≠ []) (relative : isAbsolute q ≠ true)
    (long : fsPathMax < (render path).length + q.length + 2) :
    fsDirCd tree (some (CString.of q)) = (false, tree) := by
  have stops : resolvePath tree (CString.of q).bytes fsPathMax = none := by
    rw [shaped.resolvePath_eq here, CString.bytes_of noNul, fsPathResolve_relative
      (shaped.canonical here) (shaped.short _ _ here) nonempty relative, if_pos long]
  unfold fsDirCd fsDirWalk
  simp only [stops]

/-- A relative path that has room leads to the node of the path it is resolved to. -/
theorem Shaped.cd_relative (shaped : Shaped tree kids) (here : PathTo tree tree.cwdIndex path)
    (noNul : 0 ∉ q) (nonempty : q ≠ []) (relative : isAbsolute q ≠ true)
    (room : (render path).length + q.length + 2 ≤ fsPathMax)
    (leads : resolved (render path) q = render comps) (there : PathTo tree i comps) :
    fsDirCd tree (some (CString.of q)) = (true, { tree with cwdIndex := i }) := by
  have short := shaped.short i comps there
  have resolves : resolvePath tree (CString.of q).bytes fsPathMax = some (render comps) := by
    rw [shaped.resolvePath_eq here, CString.bytes_of noNul, fsPathResolve_relative
      (shaped.canonical here) (shaped.short _ _ here) nonempty relative, if_neg (not_lt.mpr room),
      leads, if_pos (Nat.succ_le_of_lt short)]
  have walks := (shaped.fsDirWalk_eq_some (shaped.canonical there) resolves).mpr there
  unfold fsDirCd
  rw [walks]

/-- **Every child can be entered by its name**: its own path has room already. -/
theorem Shaped.cd_child (shaped : Shaped tree kids) (child : Child tree tree.cwdIndex i name) :
    fsDirCd tree (some (CString.of name)) = (true, { tree with cwdIndex := i }) := by
  obtain ⟨path, here⟩ := shaped.exists_pathTo shaped.cwd
  have canonical := shaped.canonical here
  obtain ⟨valid, bound⟩ := shaped.child_name child
  obtain ⟨relative, leads⟩ := resolved_name canonical valid
  have there : PathTo tree i (path ++ [name]) := .child here child
  have short := shaped.short i _ there
  refine shaped.cd_relative here valid.noNul valid.nonempty relative ?_ leads there
  rcases path.eq_nil_or_concat' with rfl | ⟨front, last, rfl⟩
  · change 1 + name.length + 2 ≤ 256
    have limit : name.length ≤ 31 := bound
    omega
  · have longer : (render (front ++ [last] ++ [name])).length =
        (render (front ++ [last])).length + (name.length + 1) := by
      unfold render
      rw [if_neg (by simp), if_neg (by simp), List.flatMap_append, List.length_append]
      simp
    omega

/-- What a listing of a node shows are its children. -/
theorem Shaped.child_of_entry (shaped : Shaped tree kids) {p : Option CString}
    {buffer : EntryBuffer} (walks : fsDirWalk tree p = some i)
    (entry : name ∈ (fsDirReaddir tree p buffer).entries) : ∃ c, Child tree i c name := by
  obtain ⟨cwd, here⟩ := shaped.exists_pathTo shaped.cwd
  obtain ⟨comps, there⟩ := shaped.fsDirWalk_path here walks
  have inside := shaped.inside there
  cases p with
  | none => cases walks
  | some p =>
      by_cases missing : buffer.Missing
      · have fails : fsDirReaddir tree (some p) buffer = ⟨false, [], 0⟩ :=
          if_pos (.inr missing)
        rw [fails] at entry
        cases entry
      · rw [shaped.fsDirReaddir_eq inside walks missing] at entry
        have shown : name ∈ (kids i).map fun c => (tree.nodes c).name := by
          cases buffer with
          | null _ => cases entry
          | room _ => exact List.mem_of_mem_take entry
        obtain ⟨c, member, rfl⟩ := List.mem_map.mp shown
        exact ⟨c, (shaped.member i c inside).mp member⟩

/-- The path of the node above. -/
theorem pathTo_nodeAbove (here : PathTo tree tree.cwdIndex path) :
    PathTo tree (nodeAbove tree) path.dropLast := by
  unfold nodeAbove
  rcases path.eq_nil_or_concat' with rfl | ⟨front, last, rfl⟩
  · have root : tree.cwdIndex = 0 := NamedTree.PathTo.nil_iff.mp here
    rw [if_pos root]
    exact pathTo_root
  · obtain ⟨parent, above, below⟩ := NamedTree.PathTo.snoc_iff.mp here
    have linked : (tree.nodes tree.cwdIndex).parent = some parent := below.parent
    have inner : tree.cwdIndex ≠ 0 := below.notRoot
    rw [if_neg inner, linked, List.dropLast_concat]
    exact above

private theorem dotdot_facts : 0 ∉ dotdot ∧ dotdot ≠ [] ∧ isAbsolute dotdot ≠ true := by decide

/-- With room for `..` every single step leads where it should. -/
theorem Shaped.steppable (shaped : Shaped tree kids) (here : PathTo tree tree.cwdIndex path)
    (room : (render path).length + 4 ≤ fsPathMax) : Steppable tree := by
  have canonical := shaped.canonical here
  obtain ⟨noNul, nonempty, relative⟩ := dotdot_facts
  constructor
  · intro p buffer name walks entry
    obtain ⟨c, child⟩ := shaped.child_of_entry walks entry
    exact ⟨c, child, shaped.cd_child child⟩
  · exact shaped.cd_relative here (by decide) (List.cons_ne_nil _ _) (by decide)
      ((Nat.le_succ _).trans room) (resolved_dot canonical) here
  · exact shaped.cd_relative here noNul nonempty relative room (resolved_dotdot canonical)
      (pathTo_nodeAbove here)

/-- Without room for `..` the working directory cannot be left by it. -/
theorem Shaped.not_steppable (shaped : Shaped tree kids) (here : PathTo tree tree.cwdIndex path)
    (full : fsPathMax < (render path).length + 4) : ¬ Steppable tree := by
  obtain ⟨noNul, nonempty, relative⟩ := dotdot_facts
  intro steps
  have leaves := steps.leave
  rw [shaped.cd_relative_long here noNul nonempty relative full] at leaves
  cases leaves

end Steps

/-- **Single steps lead everywhere they should exactly** from a working directory whose
path is at most 252 bytes long. -/
theorem steppable_iff (ops : List DirOp) : Steppable (fsDir.state fsDirInit ops) ↔
    ∃ cwd, fsDirPwd (fsDir.state fsDirInit ops) fsPathMax = some cwd ∧ cwd.length ≤ 252 := by
  obtain ⟨kids, shaped⟩ := shaped_run ops
  obtain ⟨path, here⟩ := shaped.exists_pathTo shaped.cwd
  have printed := shaped.fsDirPwd_eq here
  constructor
  · intro steps
    refine ⟨render path, printed, ?_⟩
    by_contra long
    exact shaped.not_steppable here (by change 256 < _; omega) steps
  · rintro ⟨cwd, prints, short⟩
    obtain rfl := Option.some.inj (printed.symm.trans prints)
    exact shaped.steppable here (by change _ ≤ 256; omega)

/-- A path of 253 bytes: seven names of 31 bytes and one of 28 bytes. -/
def deepPath : CString :=
  CString.of (render (List.replicate 7 (List.replicate 31 97) ++ [List.replicate 28 97]))

theorem pwd_deep : fsDirPwd (fsDir.state fsDirInit [.mkdirP (some deepPath), .cd (some deepPath)])
    fsPathMax = some deepPath.bytes := by
  decide +kernel

/-- A directory with a path of 253 bytes is made and entered, and cannot be left. -/
theorem not_steppable_deep : ¬ Steppable
    (fsDir.state fsDirInit [.mkdirP (some deepPath), .cd (some deepPath)]) := by
  obtain ⟨kids, shaped⟩ := shaped_run [.mkdirP (some deepPath), .cd (some deepPath)]
  obtain ⟨path, here⟩ := shaped.exists_pathTo shaped.cwd
  have printed := Option.some.inj ((shaped.fsDirPwd_eq here).symm.trans pwd_deep)
  have long : deepPath.bytes.length = 253 := by decide +kernel
  apply shaped.not_steppable here
  rw [printed, long]
  decide

end TigerOS.Dir
