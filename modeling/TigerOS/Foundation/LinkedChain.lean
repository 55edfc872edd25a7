import Mathlib.Data.Fintype.Card

/-! # Chains of linked cells

A store of cells, each holding a link, represents a list: the link read first
either ends the list, or names the next cell, whose own link continues it. A
link that does neither is broken. `Foundation.Chain read next link cells` says
that following links from `link` visits exactly `cells` and then ends. Chains
are determined by the store, so they never repeat a cell
(`Foundation.Chain.nodup`), and a write to the store that spares a chain keeps
it, as does a write that links a fresh cell into it
(`Foundation.Chain.replaceTail`, `Foundation.Chain.insertAfter`). A link that leads
to a cycle starts no chain (`Foundation.Leads.not_chain`).
-/

namespace Foundation

/-- What a link says: the list ends, it continues at a cell, or the link names
nothing. -/
inductive Target (Cell : Type*) where
  | stop
  | cell (cell : Cell)
  | broken
  deriving DecidableEq

variable {Link Cell : Type*} {read : Link → Target Cell} {next next' : Cell → Link}

/-- Following links from `link` visits `cells` in order and then ends. -/
def Chain (read : Link → Target Cell) (next : Cell → Link) : Link → List Cell → Prop
  | link, [] => read link = .stop
  | link, cell :: cells => read link = .cell cell ∧ Chain read next (next cell) cells

@[simp] theorem chain_nil {link : Link} : Chain read next link [] ↔ read link = .stop := Iff.rfl

@[simp] theorem chain_cons {link : Link} {cell : Cell} {cells : List Cell} :
    Chain read next link (cell :: cells) ↔
      read link = .cell cell ∧ Chain read next (next cell) cells := Iff.rfl

namespace Chain

variable {link : Link} {cell : Cell} {cells others : List Cell}

/-- The store determines the cells a link leads to. -/
theorem unique (first : Chain read next link cells) (second : Chain read next link others) :
    cells = others := by
  induction cells generalizing link others with
  | nil =>
      cases others with
      | nil => rfl
      | cons other others =>
          exact absurd (first.symm.trans second.1) (by simp)
  | cons cell cells ih =>
      cases others with
      | nil => exact absurd (first.1.symm.trans second) (by simp)
      | cons other others =>
          have same : cell = other := Target.cell.inj (first.1.symm.trans second.1)
          subst same
          rw [ih first.2 second.2]

/-- The cells after a visited cell are the chain of its own link. -/
theorem after {before rest : List Cell}
    (chain : Chain read next link (before ++ cell :: rest)) :
    Chain read next (next cell) rest := by
  induction before generalizing link with
  | nil => exact chain.2
  | cons head before ih => exact ih chain.2

/-- A chain visits no cell twice: the store would have to continue it in two
ways from the repeated cell. -/
theorem nodup (chain : Chain read next link cells) : cells.Nodup := by
  induction cells generalizing link with
  | nil => exact List.nodup_nil
  | cons cell cells ih =>
      refine List.nodup_cons.mpr ⟨fun again => ?_, ih chain.2⟩
      obtain ⟨before, rest, rfl⟩ := List.append_of_mem again
      have shorter : before ++ cell :: rest = rest := chain.2.unique chain.2.after
      have lengths := congrArg List.length shorter
      simp only [List.length_append, List.length_cons] at lengths
      omega

/-- A chain through a finite store visits at most every cell. -/
theorem length_le [Fintype Cell] (chain : Chain read next link cells) :
    cells.length ≤ Fintype.card Cell :=
  chain.nodup.length_le_card

/-- Writing the store away from a chain, and continuing its last kept cell
elsewhere, replaces what followed that cell. -/
theorem replaceTail {before rest rest' : List Cell}
    (chain : Chain read next link (before ++ cell :: rest))
    (spared : ∀ visited ∈ before, next' visited = next visited)
    (tail : Chain read next' (next' cell) rest') :
    Chain read next' link (before ++ cell :: rest') := by
  induction before generalizing link with
  | nil => exact ⟨chain.1, tail⟩
  | cons head before ih =>
      have kept : next' head = next head := spared head List.mem_cons_self
      exact ⟨chain.1, kept.symm ▸ ih chain.2
        (fun visited member => spared visited (List.mem_cons_of_mem _ member))⟩

/-- Writing the store away from a chain keeps it. -/
theorem congr (chain : Chain read next link cells)
    (spared : ∀ visited ∈ cells, next' visited = next visited) :
    Chain read next' link cells := by
  induction cells generalizing link with
  | nil => exact chain
  | cons head cells ih =>
      have kept : next' head = next head := spared head List.mem_cons_self
      exact ⟨chain.1, kept.symm ▸ ih chain.2
        (fun visited member => spared visited (List.mem_cons_of_mem _ member))⟩

/-- Linking a fresh cell before a chain. -/
theorem insertFirst {link' : Link} {fresh : Cell} (chain : Chain read next link cells)
    (off : fresh ∉ cells) (spared : ∀ visited, visited ≠ fresh → next' visited = next visited)
    (linked : read link' = .cell fresh) (continued : next' fresh = link) :
    Chain read next' link' (fresh :: cells) := by
  refine ⟨linked, continued.symm ▸ chain.congr fun visited member => spared visited ?_⟩
  exact fun same => off (same ▸ member)

/-- Linking a fresh cell after a cell of a chain. -/
theorem insertAfter {before rest : List Cell} {prev fresh : Cell}
    (chain : Chain read next link (before ++ prev :: rest)) (off : fresh ∉ before ++ prev :: rest)
    (spared : ∀ visited, visited ≠ prev → visited ≠ fresh → next' visited = next visited)
    (linked : read (next' prev) = .cell fresh) (continued : next' fresh = next prev) :
    Chain read next' link (before ++ prev :: fresh :: rest) := by
  have nodup := chain.nodup
  rw [List.nodup_append, List.nodup_cons] at nodup
  obtain ⟨_, ⟨notAfter, _⟩, split⟩ := nodup
  have apart {visited : Cell} (member : visited ∈ before ++ prev :: rest) : visited ≠ fresh :=
    fun same => off (same ▸ member)
  refine chain.replaceTail (fun visited member => ?_) ⟨linked, continued.symm ▸ ?_⟩
  · exact spared visited (split visited member prev List.mem_cons_self)
      (apart (List.mem_append_left _ member))
  · refine chain.after.congr fun visited member => spared visited ?_ (apart ?_)
    · exact fun same => notAfter (same ▸ member)
    · exact List.mem_append_right _ (List.mem_cons_of_mem _ member)

end Chain

/-- Following links from `link` visits `cell`. -/
inductive Leads (read : Link → Target Cell) (next : Cell → Link) : Link → Cell → Prop
  | here {link : Link} {cell : Cell} (named : read link = .cell cell) : Leads read next link cell
  | there {link : Link} {first cell : Cell} (named : read link = .cell first)
      (later : Leads read next (next first) cell) : Leads read next link cell

namespace Leads

variable {link : Link} {cell : Cell} {cells : List Cell}

/-- A link leads to the cells of its chain. -/
theorem mem (leads : Leads read next link cell) (chain : Chain read next link cells) :
    cell ∈ cells := by
  induction leads generalizing cells with
  | here named =>
      cases cells with
      | nil => cases named.symm.trans chain
      | cons head cells =>
          obtain rfl := Target.cell.inj (named.symm.trans chain.1)
          exact List.mem_cons_self
  | there named _ ih =>
      cases cells with
      | nil => cases named.symm.trans chain
      | cons head cells =>
          obtain rfl := Target.cell.inj (named.symm.trans chain.1)
          exact List.mem_cons_of_mem _ (ih chain.2)

/-- **A cycle is no chain**: its cells would be visited again. -/
theorem not_chain (leads : Leads read next link cell) (again : Leads read next (next cell) cell) :
    ¬ Chain read next link cells := by
  intro chain
  obtain ⟨before, rest, rfl⟩ := List.append_of_mem (leads.mem chain)
  have nodup := chain.nodup
  rw [List.nodup_append, List.nodup_cons] at nodup
  exact nodup.2.1.1 (again.mem chain.after)

end Leads

end Foundation
