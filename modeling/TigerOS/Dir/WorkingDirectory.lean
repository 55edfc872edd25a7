import TigerOS.Dir.Make

/-! # The working directory

The path that is printed for a node is walked back to it, from any working directory
(`TigerOS.Dir.Shaped.walk_pwd`), and after a change of directory the printed path is the
one that was resolved (`TigerOS.Dir.Shaped.pwd_cd`).
-/

namespace TigerOS.Dir

open Foundation TigerOS.Path

section WorkingDirectory

variable {tree : FsDirTree} {kids : NodeIndex → List NodeIndex} {i j : NodeIndex}
  {path comps : List (List UInt8)}

/-- Each node in use has a path. -/
theorem Shaped.exists_pathTo (shaped : Shaped tree kids) (inside : i.val < tree.nodeCount) :
    ∃ path, PathTo tree i path :=
  NamedTree.exists_path shaped.rooted ((shaped.used i).mpr inside)

/-- The working directory of a shaped tree is printed. -/
theorem Shaped.fsDirPwd_eq (shaped : Shaped tree kids) (here : PathTo tree tree.cwdIndex path) :
    fsDirPwd tree fsPathMax = some (render path) :=
  shaped.pathFromIndex_eq here

/-- **Printing a node and walking back** finds the node, whatever the working directory
is. -/
theorem Shaped.walk_pwd (shaped : Shaped tree kids) (inside : i.val < tree.nodeCount)
    (from_ : j.val < tree.nodeCount) : ∃ comps, Canonical comps ∧
      fsDirPwd { tree with cwdIndex := i } fsPathMax = some (render comps) ∧
        fsDirWalk { tree with cwdIndex := j } (some (CString.of (render comps))) = some i := by
  obtain ⟨comps, there⟩ := shaped.exists_pathTo inside
  obtain ⟨cwd, here⟩ := shaped.exists_pathTo from_
  have canonical := shaped.canonical there
  have short := shaped.short i comps there
  have bytes := CString.bytes_of (noNul_render canonical)
  have resolves : resolvePath { tree with cwdIndex := j } (CString.of (render comps)).bytes
      fsPathMax = some (render comps) := by
    rw [(shaped.moved from_).resolvePath_eq here, bytes]
    exact fsPathResolve_render (shaped.canonical here) (shaped.short j cwd here) canonical short
      short
  refine ⟨comps, canonical, (shaped.moved inside).fsDirPwd_eq there, ?_⟩
  exact ((shaped.moved from_).fsDirWalk_eq_some canonical resolves).mpr there

/-- **After a change of directory** the path that is printed is the one that was
resolved. -/
theorem Shaped.pwd_cd (shaped : Shaped tree kids) {p : CString}
    (succeeds : (fsDirCd tree (some p)).1 = true) : ∃ old, fsDirPwd tree fsPathMax = some old ∧
      fsDirPwd (fsDirCd tree (some p)).2 fsPathMax = fsPathResolve old p.bytes fsPathMax ∧
        (fsPathResolve old p.bytes fsPathMax).isSome = true := by
  obtain ⟨cwd, here⟩ := shaped.exists_pathTo shaped.cwd
  refine ⟨render cwd, shaped.fsDirPwd_eq here, ?_⟩
  rw [← shaped.resolvePath_eq here]
  unfold fsDirCd at succeeds ⊢
  cases walks : fsDirWalk tree (some p) with
  | none =>
      rw [walks] at succeeds
      cases succeeds
  | some idx =>
      cases resolves : resolvePath tree p.bytes fsPathMax with
      | none =>
          unfold fsDirWalk at walks
          simp only [resolves] at walks
          cases walks
      | some absolute =>
          obtain ⟨comps, canonical, rfl, -⟩ := shaped.resolves here resolves
          have there := (shaped.fsDirWalk_eq_some canonical resolves).mp walks
          exact ⟨(shaped.moved (shaped.inside there)).fsDirPwd_eq there, rfl⟩

end WorkingDirectory

end TigerOS.Dir
