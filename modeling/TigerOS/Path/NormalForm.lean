import TigerOS.Foundation.Climb
import TigerOS.Foundation.Pieces
import TigerOS.Path.Normalize

/-! # The normal form of a path

What normalizing means is said without loops, pools and buffers: a path is cut at its
slashes, its empty and `.` components say nothing, `..` leaves the component before it,
and what is kept is joined again. `fs_path_normalize` answers nothing else
(`TigerOS.Path.fsPathNormalize_sound`), and on a path below `FS_PATH_MAX` it answers
exactly when the normal form and its NUL fit in the output: neither the segments nor the
pool ever run out (`TigerOS.Path.fsPathNormalize_eq_normalForm`).
-/

namespace TigerOS.Path

open Foundation

/-- `..` -/
def dotdot : List UInt8 := [dot, dot]

/-- The components of a path that say something. -/
def pathComponents (path : List UInt8) : List (List UInt8) :=
  (path.splitOn slash).filter fun component => component ≠ [] ∧ component ≠ [dot]

/-- Whether a path starts with a slash. -/
def isAbsolute (path : List UInt8) : Bool := path.head? = some slash

/-- The components that a path keeps. -/
def keptComponents (path : List UInt8) : List (List UInt8) :=
  climbs dotdot (isAbsolute path) (pathComponents path)

/-- Kept components joined to a path. -/
def joined (absolute : Bool) (components : List (List UInt8)) : List UInt8 :=
  if absolute = true then slash :: [slash].intercalate components
  else if components = [] then [dot]
  else [slash].intercalate components

/-- **The normal form of a path.** -/
def normalForm (path : List UInt8) : List UInt8 := joined (isAbsolute path) (keptComponents path)

/-! ## The loop over the path -/

section Loop

variable {absolute : Bool} {kept kept' : Segments} {segment path : List UInt8}
  {segments : List (List UInt8)}

/-- The first loop keeps the pieces between the slashes, one after the other. -/
theorem normalizeLoop_eq {rounds : ℕ} (enough : path.length ≤ rounds) :
    normalizeLoop absolute rounds path kept =
      (pieces slash path).foldlM (keepSegment absolute) kept := by
  induction rounds generalizing path kept with
  | zero =>
      rw [List.eq_nil_of_length_eq_zero (Nat.le_zero.mp enough), pieces_nil]
      rfl
  | succ rounds ih =>
      rw [pieces_eq]
      unfold normalizeLoop
      simp only
      by_cases none_ : path.dropWhile (fun byte => decide (byte = slash)) = []
      · rw [if_pos none_, if_pos none_]
        rfl
      · rw [if_neg none_, if_neg none_, List.foldlM_cons]
        cases keepSegment absolute kept _ with
        | none => rfl
        | some next =>
            exact ih (Nat.le_of_lt_succ ((length_rest_lt none_).trans_le enough))

/-- What a round of the loop does with a segment: it is passed over, it takes the last
segment off, it is dropped at the root, or it is pushed. -/
private theorem keepSegment_cases (keeps : keepSegment absolute kept segment = some kept') :
    (segment = [dot] ∧ kept' = kept) ∨
    (segment = dotdot ∧ kept.segments ≠ [] ∧ kept.segments.getLastD [] ≠ dotdot ∧
      kept' = { kept with segments := kept.segments.dropLast }) ∨
    (segment = dotdot ∧ absolute = true ∧
      (kept.segments = [] ∨ kept.segments.getLastD [] = dotdot) ∧ kept' = kept) ∨
    (segment ≠ [dot] ∧ (segment = dotdot → absolute = false ∧
      (kept.segments = [] ∨ kept.segments.getLastD [] = dotdot)) ∧
      kept' = ⟨kept.segments ++ [segment], kept.poolUsed + segment.length + 1⟩ ∧
      kept.poolUsed + segment.length + 1 ≤ fsPathMax) := by
  unfold keepSegment at keeps
  by_cases isDot : segmentIsDot segment
  · rw [if_pos isDot] at keeps
    exact .inl ⟨isDot, (Option.some.inj keeps).symm⟩
  rw [if_neg isDot] at keeps
  by_cases leaves : segmentIsDotdot segment ∧ kept.segments ≠ [] ∧
      ¬ segmentIsDotdot (kept.segments.getLastD [])
  · rw [if_pos leaves] at keeps
    exact .inr (.inl ⟨leaves.1, leaves.2.1, leaves.2.2, (Option.some.inj keeps).symm⟩)
  rw [if_neg leaves] at keeps
  have nothing (isDotdot : segment = dotdot) :
      kept.segments = [] ∨ kept.segments.getLastD [] = dotdot := by
    by_contra some_
    rw [not_or] at some_
    exact leaves ⟨isDotdot, some_.1, some_.2⟩
  by_cases dropped : segmentIsDotdot segment ∧ absolute = true
  · rw [if_pos dropped] at keeps
    exact .inr (.inr (.inl ⟨dropped.1, dropped.2, nothing dropped.1,
      (Option.some.inj keeps).symm⟩))
  rw [if_neg dropped] at keeps
  by_cases full : fsPathMax / 2 ≤ kept.segments.length ∨ fsPathMax ≤ segment.length ∨
      fsPathMax < kept.poolUsed + segment.length + 1
  · rw [if_pos full] at keeps
    cases keeps
  · rw [if_neg full] at keeps
    refine .inr (.inr (.inr ⟨isDot, ?_, (Option.some.inj keeps).symm, ?_⟩))
    · intro isDotdot
      have relative : absolute ≠ true := fun rooted => dropped ⟨isDotdot, rooted⟩
      exact ⟨Bool.eq_false_iff.mpr relative, nothing isDotdot⟩
    · exact Nat.le_of_not_lt fun more => full (.inr (.inr more))

/-- The segments kept are those of a walk, and what they take of the pool has been
used. -/
structure Accounted (absolute : Bool) (kept : Segments) : Prop where
  climbed : Climbed dotdot absolute kept.segments
  pooled : (kept.segments.flatMap (slash :: ·)).length ≤ kept.poolUsed
  room : kept.poolUsed ≤ fsPathMax

theorem accounted_nil : Accounted absolute ⟨[], 0⟩ := ⟨climbed_nil, Nat.le_refl _, Nat.zero_le _⟩

/-- A round keeps the account, and takes a segment that is not `.` as a name of the
walk. -/
theorem Accounted.keepSegment (accounted : Accounted absolute kept)
    (keeps : keepSegment absolute kept segment = some kept') :
    Accounted absolute kept' ∧ kept'.segments =
      if segment = [dot] then kept.segments else climb dotdot absolute kept.segments segment := by
  have notDot : dotdot ≠ [dot] := by decide
  obtain ⟨climbed, pooled, room⟩ := accounted
  have walks (climbs : climb dotdot absolute kept.segments segment = kept'.segments)
      (pooled : (kept'.segments.flatMap (slash :: ·)).length ≤ kept'.poolUsed)
      (room : kept'.poolUsed ≤ fsPathMax) : Accounted absolute kept' :=
    ⟨climbs ▸ climbed.climb segment, pooled, room⟩
  rcases keepSegment_cases keeps with ⟨isDot, rfl⟩ | ⟨rfl, some_, place, rfl⟩ |
    ⟨rfl, rooted, nothing, rfl⟩ | ⟨name, relative, rfl, more⟩
  · rw [if_pos isDot]
    exact ⟨⟨climbed, pooled, room⟩, rfl⟩
  · rw [if_neg notDot]
    obtain ⟨front, last, split⟩ := (List.eq_nil_or_concat kept.segments).resolve_left some_
    rw [List.concat_eq_append] at split
    have climbs : climb dotdot absolute kept.segments dotdot = kept.segments.dropLast := by
      rw [split, List.getLastD_concat] at place
      rw [split, climb_last, if_neg place, List.dropLast_concat]
    refine ⟨walks climbs ?_ room, climbs.symm⟩
    exact ((List.dropLast_sublist _).flatMap _).length_le.trans pooled
  · rw [if_neg notDot]
    have climbs : climb dotdot absolute kept'.segments dotdot = kept'.segments := by
      rcases List.eq_nil_or_concat kept'.segments with none_ | ⟨front, last, split⟩
      · rw [none_, climb_nothing, if_pos rooted]
      · rw [List.concat_eq_append] at split
        -- below a root no `..` is kept
        rw [split] at nothing climbed
        rw [List.getLastD_concat] at nothing
        obtain rfl := nothing.resolve_left
          (List.append_ne_nil_of_right_ne_nil _ (List.cons_ne_nil _ _))
        rw [rooted] at climbed
        cases climbed.before_up.2
    exact ⟨walks climbs pooled room, climbs.symm⟩
  · rw [if_neg name]
    have climbs : climb dotdot absolute kept.segments segment = kept.segments ++ [segment] := by
      by_cases isDotdot : segment = dotdot
      · obtain ⟨free, nothing⟩ := relative isDotdot
        rw [isDotdot]
        rcases List.eq_nil_or_concat kept.segments with none_ | ⟨front, last, split⟩
        · rw [none_, climb_nothing, free]
          rfl
        · rw [List.concat_eq_append] at split
          rw [split] at nothing ⊢
          rw [List.getLastD_concat] at nothing
          rw [climb_last, if_pos
            (nothing.resolve_left (List.append_ne_nil_of_right_ne_nil _ (List.cons_ne_nil _ _)))]
      · exact climb_name isDotdot
    refine ⟨walks climbs ?_ more, climbs.symm⟩
    simp only [List.flatMap_append, List.flatMap_singleton, List.length_append, List.length_cons]
    omega

/-- The rounds on a list of segments are a walk along those that are not `.`. -/
theorem Accounted.foldlM (accounted : Accounted absolute kept)
    (keeps : segments.foldlM (Path.keepSegment absolute) kept = some kept') :
    Accounted absolute kept' ∧ kept'.segments =
      (segments.filter (· ≠ [dot])).foldl (climb dotdot absolute) kept.segments := by
  induction segments generalizing kept with
  | nil =>
      cases keeps
      exact ⟨accounted, rfl⟩
  | cons segment segments ih =>
      rw [List.foldlM_cons] at keeps
      cases first : Path.keepSegment absolute kept segment with
      | none =>
          rw [first] at keeps
          cases keeps
      | some next =>
          rw [first] at keeps
          obtain ⟨nextAccounted, walked⟩ := accounted.keepSegment first
          obtain ⟨finally_, walk⟩ := ih nextAccounted keeps
          refine ⟨finally_, ?_⟩
          rw [walk, walked, List.filter_cons]
          by_cases isDot : segment = [dot]
          · rw [if_pos isDot, if_neg (by rw [decide_eq_true_iff]; exact fun other => other isDot)]
          · rw [if_neg isDot, if_pos (decide_eq_true isDot), List.foldl_cons]

/-- A segment that the pool has room for is kept. -/
private theorem keepSegment_fits (absolute : Bool) (nonempty : segment ≠ [])
    (short : 2 * kept.segments.length ≤ kept.poolUsed)
    (room : kept.poolUsed + (segment.length + 1) ≤ fsPathMax) :
    ∃ next, keepSegment absolute kept segment = some next ∧
      2 * next.segments.length ≤ next.poolUsed ∧
        next.poolUsed ≤ kept.poolUsed + (segment.length + 1) := by
  have positive := List.length_pos_iff.mpr nonempty
  unfold keepSegment
  by_cases isDot : segmentIsDot segment
  · rw [if_pos isDot]
    exact ⟨kept, rfl, short, Nat.le_add_right _ _⟩
  rw [if_neg isDot]
  by_cases leaves : segmentIsDotdot segment ∧ kept.segments ≠ [] ∧
      ¬ segmentIsDotdot (kept.segments.getLastD [])
  · rw [if_pos leaves]
    refine ⟨_, rfl, ?_, Nat.le_add_right _ _⟩
    change 2 * kept.segments.dropLast.length ≤ kept.poolUsed
    rw [List.length_dropLast]
    omega
  rw [if_neg leaves]
  by_cases dropped : segmentIsDotdot segment ∧ absolute = true
  · rw [if_pos dropped]
    exact ⟨kept, rfl, short, Nat.le_add_right _ _⟩
  rw [if_neg dropped, if_neg (by simp only [fsPathMax] at room ⊢; omega)]
  refine ⟨_, rfl, ?_, Nat.le_refl _⟩
  rw [List.length_append, List.length_singleton]
  change _ ≤ kept.poolUsed + segment.length + 1
  omega

/-- **The limits of the loop** are not met by segments that the pool has room for: each
takes two bytes of it at least. -/
theorem foldlM_fits (nonempty : ∀ segment ∈ segments, segment ≠ [])
    (short : 2 * kept.segments.length ≤ kept.poolUsed)
    (room : kept.poolUsed + (segments.flatMap (slash :: ·)).length ≤ fsPathMax) :
    ∃ kept', segments.foldlM (keepSegment absolute) kept = some kept' := by
  induction segments generalizing kept with
  | nil => exact ⟨kept, rfl⟩
  | cons segment segments ih =>
      rw [List.flatMap_cons, List.length_append, List.length_cons] at room
      obtain ⟨next, keeps, nextShort, used⟩ :=
        keepSegment_fits absolute (nonempty segment List.mem_cons_self) short (by omega)
      rw [List.foldlM_cons, keeps]
      exact ih (fun other member => nonempty other (List.mem_cons_of_mem _ member)) nextShort
        (by omega)

end Loop

/-! ## The output -/

section Output

variable {outLen : ℕ} {out path result : List UInt8} {segments : List (List UInt8)}

/-- After the first segment, the output loop succeeds exactly when the rest and a NUL
fit. -/
private theorem emitRest_eq_some : emitSegments outLen false out segments = some result ↔
    result = out ++ segments.flatMap (slash :: ·) ∧ (segments = [] ∨ result.length < outLen) := by
  induction segments generalizing out with
  | nil => simp [emitSegments, eq_comm]
  | cons segment segments ih =>
      simp only [emitSegments, Bool.false_eq_true, not_false_eq_true, true_and, ↓reduceIte,
        List.length_append, List.length_singleton]
      by_cases fits : out.length + 1 + segment.length + 1 ≤ outLen
      · rw [if_neg (by omega), if_neg (by omega), ih]
        simp only [List.append_assoc, List.singleton_append, List.flatMap_cons, reduceCtorEq,
          false_or]
        apply and_congr_right
        intro same
        by_cases last : segments = []
        · subst last
          simp only [same, true_or, true_iff, List.flatMap_nil, List.length_append,
            List.length_cons, List.length_nil]
          omega
        · simp only [last, false_or]
      · refine iff_of_false (fun emits => ?_) ?_
        · split at emits
          · cases emits
          · rw [if_pos (by omega)] at emits
            cases emits
        · rintro ⟨rfl, long⟩
          simp only [reduceCtorEq, false_or, List.flatMap_cons, List.length_append,
            List.length_cons] at long
          omega

/-- The output loop appends the joined segments, when they and a NUL fit. -/
theorem emitSegments_eq_some (some_ : segments ≠ []) :
    emitSegments outLen true out segments = some result ↔
      result = out ++ [slash].intercalate segments ∧ result.length < outLen := by
  obtain ⟨segment, segments, rfl⟩ := List.exists_cons_of_ne_nil some_
  rw [intercalate_cons_eq]
  unfold emitSegments
  simp only [not_true_eq_false, false_and, ↓reduceIte]
  by_cases fits : outLen < out.length + segment.length + 1
  · rw [if_pos fits]
    refine iff_of_false (fun same => by cases same) ?_
    rintro ⟨rfl, short⟩
    simp only [List.length_append] at short
    omega
  · rw [if_neg fits, emitRest_eq_some, List.append_assoc]
    apply and_congr_right
    intro same
    by_cases last : segments = []
    · rw [last, List.flatMap_nil, List.append_nil] at same
      rw [last, same, List.length_append]
      simp only [true_or, true_iff]
      omega
    · simp only [last, false_or]

/-- What is written after the loop. -/
private theorem output_eq_some {absolute : Bool} :
    (if absolute = true ∧ outLen < 2 then none
      else if segments = [] then
        if absolute = true then some [slash] else if outLen < 2 then none else some [dot]
      else emitSegments outLen true (if absolute = true then [slash] else []) segments) =
        some result ↔
      result = joined absolute segments ∧ result.length < outLen := by
  unfold joined
  by_cases none_ : segments = []
  · -- `/` or `.`, and a NUL
    have one (byte : UInt8) : some [byte] = some result ↔
        result = [byte] := ⟨fun same => (Option.some.inj same).symm, fun same => same ▸ rfl⟩
    rw [if_pos none_, if_pos none_, none_, List.intercalate_nil]
    by_cases tiny : outLen < 2
    · refine iff_of_false ?_ ?_
      · cases absolute <;> simp [tiny]
      · intro holds
        obtain ⟨same, short⟩ := holds
        have positive : 1 ≤ result.length := by
          rw [same]
          cases absolute <;> exact Nat.le_refl _
        omega
    · cases absolute with
      | true =>
          simp only [tiny, and_false, if_false, if_true, one]
          exact ⟨fun same => ⟨same, by rw [same, List.length_singleton]; omega⟩, And.left⟩
      | false =>
          simp only [tiny, and_false, if_false, Bool.false_eq_true, one]
          exact ⟨fun same => ⟨same, by rw [same, List.length_singleton]; omega⟩, And.left⟩
  · rw [if_neg none_, if_neg none_]
    cases absolute with
    | true =>
        by_cases tiny : outLen < 2
        · rw [if_pos ⟨rfl, tiny⟩]
          refine iff_of_false (fun same => by cases same) ?_
          intro holds
          obtain ⟨same, short⟩ := holds
          rw [same, if_pos rfl, List.length_cons] at short
          omega
        · rw [if_neg fun impossible => tiny impossible.2, emitSegments_eq_some none_]
          rfl
    | false =>
        simp only [Bool.false_eq_true, false_and, if_false]
        rw [emitSegments_eq_some none_, List.nil_append]

/-- **What normalizing answers**: the kept segments joined, when the loop keeps them and
they and a NUL fit. -/
theorem fsPathNormalize_eq_some : fsPathNormalize path outLen = some result ↔
    path ≠ [] ∧ ∃ kept,
      (pieces slash path).foldlM (keepSegment (isAbsolute path)) ⟨[], 0⟩ = some kept ∧
        result = joined (isAbsolute path) kept.segments ∧ result.length < outLen := by
  unfold fsPathNormalize
  by_cases none_ : path = []
  · rw [if_pos (.inr none_)]
    exact iff_of_false (fun same => by cases same) fun holds => holds.1 none_
  by_cases unroomed : outLen = 0
  · rw [if_pos (.inl unroomed)]
    exact iff_of_false (fun same => by cases same) fun ⟨_, _, _, _, short⟩ => by omega
  rw [if_neg (not_or.mpr ⟨unroomed, none_⟩)]
  have absoluteEq : decide (path.head? = some slash) = isAbsolute path := rfl
  simp only [absoluteEq, normalizeLoop_eq (Nat.le_refl _)]
  cases (pieces slash path).foldlM (keepSegment (isAbsolute path)) ⟨[], 0⟩ with
  | none => simp
  | some kept =>
      simp only [ne_eq, none_, not_false_eq_true, true_and, Option.some.injEq, exists_eq_left']
      exact output_eq_some

end Output

/-! ## Normalizing -/

section Normalizing

variable {outLen : ℕ} {path result : List UInt8}

/-- The segments that are not `.` are the components. -/
theorem filter_pieces (path : List UInt8) :
    (pieces slash path).filter (· ≠ [dot]) = pathComponents path := by
  unfold pieces pathComponents
  rw [List.filter_filter]
  apply List.filter_congr
  intro component _
  rw [← Bool.decide_and]
  exact decide_eq_decide.mpr and_comm

/-- **Normalizing answers the normal form** and nothing else. -/
theorem fsPathNormalize_sound (normalizes : fsPathNormalize path outLen = some result) :
    result = normalForm path ∧ result.length < outLen := by
  obtain ⟨-, kept, keeps, rfl, short⟩ := fsPathNormalize_eq_some.mp normalizes
  obtain ⟨-, walked⟩ := accounted_nil.foldlM keeps
  rw [filter_pieces] at walked
  refine ⟨?_, short⟩
  rw [walked]
  rfl

/-- The loop keeps the components of a path whose segments the pool has room for. -/
theorem exists_kept (room : ((pieces slash path).flatMap (slash :: ·)).length ≤ fsPathMax) :
    ∃ kept, (pieces slash path).foldlM (keepSegment (isAbsolute path)) ⟨[], 0⟩ = some kept ∧
      normalForm path = joined (isAbsolute path) kept.segments := by
  have fits : ∃ kept,
      (pieces slash path).foldlM (keepSegment (isAbsolute path)) ⟨[], 0⟩ = some kept :=
    foldlM_fits (fun segment member => (mem_pieces member).1) (Nat.le_refl _)
      ((Nat.zero_add _).trans_le room)
  obtain ⟨kept, keeps⟩ := fits
  obtain ⟨-, walked⟩ := accounted_nil.foldlM keeps
  rw [filter_pieces] at walked
  refine ⟨kept, keeps, ?_⟩
  rw [walked]
  rfl

/-- Normalizing a path whose segments the pool has room for fails only for want of room
in the output. -/
theorem fsPathNormalize_fits (nonempty : path ≠ [])
    (room : ((pieces slash path).flatMap (slash :: ·)).length ≤ fsPathMax) :
    fsPathNormalize path outLen =
      if (normalForm path).length + 1 ≤ outLen then some (normalForm path) else none := by
  obtain ⟨kept, keeps, form⟩ := exists_kept room
  by_cases fits : (normalForm path).length + 1 ≤ outLen
  · rw [if_pos fits, fsPathNormalize_eq_some]
    exact ⟨nonempty, kept, keeps, form, fits⟩
  · rw [if_neg fits, Option.eq_none_iff_forall_ne_some]
    intro result normalizes
    obtain ⟨rfl, short⟩ := fsPathNormalize_sound normalizes
    exact fits short

/-- **Normalization equals its reference.** On every non-empty path below
`FS_PATH_MAX`, the loop never meets the limits of its segments and its pool, and the
normal form is answered exactly when it fits in the output with its NUL. -/
theorem fsPathNormalize_eq_normalForm (path : List UInt8) (outLen : ℕ) (nonempty : path ≠ [])
    (below : path.length < fsPathMax) :
    (normalizeLoop (isAbsolute path) path.length path ⟨[], 0⟩).isSome = true ∧
      fsPathNormalize path outLen =
        if (normalForm path).length + 1 ≤ outLen then some (normalForm path) else none := by
  have room : ((pieces slash path).flatMap (slash :: ·)).length ≤ fsPathMax :=
    length_flatMap_pieces_le.trans below
  constructor
  · obtain ⟨kept, keeps, -⟩ := exists_kept room
    rw [normalizeLoop_eq (Nat.le_refl _), keeps]
    rfl
  · exact fsPathNormalize_fits nonempty room

/-- A path with every kind of component. -/
theorem fsPathNormalize_eq_normalForm_mixed :
    fsPathNormalize (ascii "../a//./b/../../../c/") 8 = some (ascii "../../c") :=
  (fsPathNormalize_eq_normalForm (ascii "../a//./b/../../../c/") 8 (by decide) (by decide)).2.trans
    (by decide)

end Normalizing

/-! ## Normal forms of normal forms -/

section Kept

variable {absolute : Bool} {path c : List UInt8} {components : List (List UInt8)}

/-- Components say something, have no slash, and are made of bytes of the path. -/
theorem mem_pathComponents (member : c ∈ pathComponents path) :
    ((c ≠ [] ∧ slash ∉ c) ∧ c ≠ [dot]) ∧ ∀ byte ∈ c, byte ∈ path := by
  obtain ⟨inside, named⟩ := List.mem_filter.mp member
  obtain ⟨nonempty, notDot⟩ := of_decide_eq_true named
  obtain ⟨noSlash, within⟩ := of_mem_splitOn inside
  exact ⟨⟨⟨nonempty, noSlash⟩, notDot⟩, within⟩

theorem mem_keptComponents (member : c ∈ keptComponents path) :
    ((c ≠ [] ∧ slash ∉ c) ∧ c ≠ [dot]) ∧ ∀ byte ∈ c, byte ∈ path := by
  unfold keptComponents at member
  exact mem_pathComponents (mem_of_mem_climbs member)

theorem climbed_keptComponents (path : List UInt8) :
    Climbed dotdot (isAbsolute path) (keptComponents path) := by
  unfold keptComponents
  exact climbed_climbs _

/-- Below the root no kept component is `..`. -/
theorem keptComponents_rooted (rooted : isAbsolute path = true) : dotdot ∉ keptComponents path := by
  intro member
  obtain ⟨before, after, split⟩ := List.mem_iff_append.mp member
  have climbed := climbed_keptComponents path
  rw [split] at climbed
  obtain ⟨-, free⟩ := climbed.before_up
  rw [rooted] at free
  cases free

theorem isAbsolute_joined (valid : ∀ c ∈ components, c ≠ [] ∧ slash ∉ c) :
    isAbsolute (joined absolute components) = absolute := by
  unfold joined
  cases absolute with
  | true => rfl
  | false =>
      simp only [Bool.false_eq_true, if_false]
      cases components with
      | nil => rfl
      | cons c rest =>
          rw [if_neg (List.cons_ne_nil _ _), intercalate_cons_eq]
          obtain ⟨nonempty, noSlash⟩ := valid c List.mem_cons_self
          obtain ⟨byte, c, rfl⟩ := List.exists_cons_of_ne_nil nonempty
          refine decide_eq_false fun same => noSlash ?_
          rw [List.cons_append, List.head?_cons] at same
          exact Option.some.inj same ▸ List.mem_cons_self

/-- The segments of joined components are the components, or `.`. -/
theorem pieces_joined (valid : ∀ c ∈ components, c ≠ [] ∧ slash ∉ c) :
    pieces slash (joined absolute components) =
      if absolute = false ∧ components = [] then [[dot]] else components := by
  unfold joined
  cases absolute with
  | true =>
      simp only [if_true, Bool.true_eq_false, false_and, if_false, pieces_cons_sep]
      exact pieces_intercalate valid
  | false =>
      simp only [Bool.false_eq_true, if_false, true_and]
      by_cases none_ : components = []
      · rw [if_pos none_, if_pos none_]
        rfl
      · rw [if_neg none_, if_neg none_]
        exact pieces_intercalate valid

theorem pathComponents_joined (valid : ∀ c ∈ components, (c ≠ [] ∧ slash ∉ c) ∧ c ≠ [dot]) :
    pathComponents (joined absolute components) = components := by
  rw [← filter_pieces, pieces_joined fun c member => (valid c member).1]
  by_cases relative : absolute = false ∧ components = []
  · rw [if_pos relative, relative.2]
    rfl
  · rw [if_neg relative, List.filter_eq_self]
    exact fun c member => decide_eq_true (valid c member).2

/-- Joined components that a walk would keep are in normal form. -/
theorem normalForm_joined (valid : ∀ c ∈ components, (c ≠ [] ∧ slash ∉ c) ∧ c ≠ [dot])
    (climbed : Climbed dotdot absolute components) :
    keptComponents (joined absolute components) = components ∧
      normalForm (joined absolute components) = joined absolute components := by
  have kept : keptComponents (joined absolute components) = components := by
    unfold keptComponents
    rw [isAbsolute_joined fun c member => (valid c member).1, pathComponents_joined valid]
    exact climbs_climbed climbed
  refine ⟨kept, ?_⟩
  unfold normalForm
  rw [kept, isAbsolute_joined fun c member => (valid c member).1]

end Kept

end TigerOS.Path
