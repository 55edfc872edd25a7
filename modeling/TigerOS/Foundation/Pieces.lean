import Mathlib.Data.List.Flatten
import Mathlib.Data.List.Infix
import Mathlib.Data.List.TakeWhile
import Mathlib.Order.Basic

/-! # Pieces between separators

A list is cut at a separator into pieces, which are joined by it again. The pieces that
are not empty are found from the front: what precedes the first separator after the
leading ones, and the pieces of what follows it (`Foundation.pieces_eq`).
-/

namespace Foundation

variable {Item : Type*} [DecidableEq Item] {sep : Item} {list rest piece : List Item}

/-- A piece has no separator, and its items are those of the list. -/
theorem of_mem_splitOn (member : piece ∈ list.splitOn sep) :
    sep ∉ piece ∧ ∀ item ∈ piece, item ∈ list := by
  induction list generalizing piece with
  | nil =>
      rw [List.splitOn_nil, List.mem_singleton] at member
      rw [member]
      exact ⟨List.not_mem_nil, fun _ => id⟩
  | cons item list ih =>
      have widen {piece : List Item} (inside : piece ∈ list.splitOn sep) :
          sep ∉ piece ∧ ∀ other ∈ piece, other ∈ item :: list :=
        ⟨(ih inside).1, fun other within => List.mem_cons_of_mem _ ((ih inside).2 other within)⟩
      rw [List.splitOn_cons_eq_if_modifyHead] at member
      by_cases same : item = sep
      · rw [if_pos (beq_iff_eq.mpr same)] at member
        rcases List.mem_cons.mp member with first | later
        · rw [first]
          exact ⟨List.not_mem_nil, fun _ within => absurd within List.not_mem_nil⟩
        · exact widen later
      · rw [if_neg (by rwa [beq_iff_eq])] at member
        obtain ⟨head, tail, split⟩ := List.exists_cons_of_ne_nil (List.splitOn_ne_nil sep list)
        rw [split, List.modifyHead_cons] at member
        rcases List.mem_cons.mp member with first | later
        · obtain ⟨noSep, within⟩ := ih (split ▸ List.mem_cons_self : head ∈ list.splitOn sep)
          rw [first]
          constructor
          · intro here
            rcases List.mem_cons.mp here with this | below
            · exact same this.symm
            · exact noSep below
          · intro other here
            rcases List.mem_cons.mp here with this | below
            · exact this ▸ List.mem_cons_self
            · exact List.mem_cons_of_mem _ (within other below)
        · exact widen (split ▸ List.mem_cons_of_mem _ later)

omit [DecidableEq Item] in
/-- Joined pieces are the first one and the others with the separator before each. -/
theorem intercalate_cons_eq (piece : List Item) (pieces : List (List Item)) :
    [sep].intercalate (piece :: pieces) = piece ++ pieces.flatMap (sep :: ·) := by
  induction pieces generalizing piece with
  | nil => rw [List.intercalate_singleton, List.flatMap_nil, List.append_nil]
  | cons next pieces ih =>
      rw [List.intercalate_cons_cons, ih, List.flatMap_cons, List.append_assoc]
      rfl

omit [DecidableEq Item] in
/-- Pieces with the separator before each are the separator before the joined ones. -/
theorem flatMap_cons_eq {pieces : List (List Item)} (some_ : pieces ≠ []) :
    pieces.flatMap (sep :: ·) = sep :: [sep].intercalate pieces := by
  obtain ⟨piece, pieces, rfl⟩ := List.exists_cons_of_ne_nil some_
  rw [List.flatMap_cons, intercalate_cons_eq]
  rfl

/-- Each piece of a list takes its items and one separator, one separator more than
there are. -/
theorem length_flatMap_splitOn :
    ((list.splitOn sep).flatMap (sep :: ·)).length = list.length + 1 := by
  rw [flatMap_cons_eq (List.splitOn_ne_nil sep list), List.intercalate_splitOn, List.length_cons]

/-! ## The pieces that are not empty -/

/-- The pieces of a list that are not empty. -/
def pieces (sep : Item) (list : List Item) : List (List Item) :=
  (list.splitOn sep).filter fun piece => piece ≠ []

@[simp] theorem pieces_nil : pieces sep [] = [] := by
  unfold pieces
  rw [List.splitOn_nil]
  rfl

/-- What follows a piece: nothing, or a separator. -/
def AtSep (sep : Item) (rest : List Item) : Prop := rest = [] ∨ rest.head? = some sep

theorem pieces_append_cons (first second : List Item) :
    pieces sep (first ++ sep :: second) = pieces sep first ++ pieces sep second := by
  unfold pieces
  rw [List.splitOn_append_cons_self, List.filter_append]

theorem pieces_cons_sep : pieces sep (sep :: list) = pieces sep list :=
  (pieces_append_cons [] list).trans (by rw [pieces_nil, List.nil_append])

theorem pieces_dropWhile : pieces sep (list.dropWhile (· = sep)) = pieces sep list := by
  induction list with
  | nil => rfl
  | cons item list ih =>
      rw [List.dropWhile_cons]
      by_cases same : item = sep
      · rw [if_pos (decide_eq_true same), ih, same, pieces_cons_sep]
      · rw [if_neg (by rwa [decide_eq_true_iff])]

theorem pieces_of_notMem (nonempty : piece ≠ []) (noSep : sep ∉ piece) :
    pieces sep piece = [piece] := by
  unfold pieces
  rw [List.splitOn_eq_singleton noSep, List.filter_cons, if_pos (decide_eq_true nonempty),
    List.filter_nil]

theorem pieces_append (nonempty : piece ≠ []) (noSep : sep ∉ piece) (follows : AtSep sep rest) :
    pieces sep (piece ++ rest) = piece :: pieces sep rest := by
  rcases follows with rfl | head
  · rw [List.append_nil, pieces_of_notMem nonempty noSep, pieces_nil]
  · cases rest with
    | nil => cases head
    | cons item rest =>
        obtain rfl := Option.some.inj head
        rw [pieces_append_cons, pieces_of_notMem nonempty noSep, pieces_cons_sep]
        rfl

theorem mem_pieces (member : piece ∈ pieces sep list) :
    piece ≠ [] ∧ sep ∉ piece ∧ ∀ item ∈ piece, item ∈ list := by
  obtain ⟨inside, nonempty⟩ := List.mem_filter.mp member
  exact ⟨of_decide_eq_true nonempty, of_mem_splitOn inside⟩

/-- Pieces that are joined and cut again. -/
theorem pieces_intercalate {parts : List (List Item)}
    (valid : ∀ part ∈ parts, part ≠ [] ∧ sep ∉ part) :
    pieces sep ([sep].intercalate parts) = parts := by
  by_cases none_ : parts = []
  · rw [none_, List.intercalate_nil, pieces_nil]
  · unfold pieces
    rw [List.splitOn_intercalate sep (fun part member => (valid part member).2) none_,
      List.filter_eq_self]
    exact fun part member => decide_eq_true (valid part member).1

/-- The pieces of a list, each with one separator, are no longer than the list and one
separator. -/
theorem length_flatMap_pieces_le :
    ((pieces sep list).flatMap (sep :: ·)).length ≤ list.length + 1 := by
  rw [← @length_flatMap_splitOn _ _ sep list]
  exact (List.filter_sublist.flatMap _).length_le

/-- What does not start with a separator starts with a piece. -/
private theorem takeWhile_ne_nil {cut : List Item} (none_ : cut ≠ [])
    (first : decide (cut.head none_ = sep) = false) :
    cut.takeWhile (fun item => decide (item ≠ sep)) ≠ [] := by
  cases cut with
  | nil => exact absurd rfl none_
  | cons item cut =>
      rw [List.head_cons, decide_eq_false_iff_not] at first
      rw [List.takeWhile_cons, if_pos (decide_eq_true first)]
      exact List.cons_ne_nil _ _

/-- **The pieces from the front.** -/
theorem pieces_eq (sep : Item) (list : List Item) :
    pieces sep list =
      if list.dropWhile (· = sep) = [] then []
      else (list.dropWhile (· = sep)).takeWhile (· ≠ sep) ::
        pieces sep ((list.dropWhile (· = sep)).dropWhile (· ≠ sep)) := by
  rw [← pieces_dropWhile]
  by_cases none_ : list.dropWhile (· = sep) = []
  · rw [if_pos none_, none_, pieces_nil]
  · rw [if_neg none_]
    have first := List.head_dropWhile_not (fun item => decide (item = sep)) none_
    generalize list.dropWhile (· = sep) = cut at none_ first ⊢
    have split := List.takeWhile_append_dropWhile (p := fun item => decide (item ≠ sep)) (l := cut)
    conv_lhs => rw [← split]
    apply pieces_append (takeWhile_ne_nil none_ first)
    · intro member
      have apart := List.mem_takeWhile_imp member
      rw [decide_eq_true_iff] at apart
      exact apart rfl
    · cases after : cut.dropWhile (· ≠ sep) with
      | nil => exact .inl rfl
      | cons item rest =>
          have head := List.head?_dropWhile_not (fun item => decide (item ≠ sep)) cut
          rw [after, List.head?_cons] at head
          simp only [decide_eq_false_iff_not, not_not] at head
          exact .inr (congrArg some head)

/-- What follows the first piece is shorter. -/
theorem length_rest_lt (some_ : list.dropWhile (fun item => decide (item = sep)) ≠ []) :
    ((list.dropWhile (· = sep)).dropWhile (· ≠ sep)).length < list.length := by
  have first := List.head_dropWhile_not (fun item => decide (item = sep)) some_
  have shorter := (List.dropWhile_suffix (fun item => decide (item = sep)) (l := list)).length_le
  generalize list.dropWhile (· = sep) = cut at some_ first shorter ⊢
  have split := congrArg List.length
    (List.takeWhile_append_dropWhile (p := fun item => decide (item ≠ sep)) (l := cut))
  have positive := List.length_pos_iff.mpr (takeWhile_ne_nil some_ first)
  rw [List.length_append] at split
  omega

end Foundation
