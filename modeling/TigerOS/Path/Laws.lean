import TigerOS.Path.Canonical

/-! # Laws of paths

What normalizing answers is one spelling for each path: it has no empty component, `.`
only on its own and `..` only in front of a relative path, and normalizing it again
answers it again (`TigerOS.Path.fsPathNormalize_stable`). Resolving a path and then
another one below it is resolving the two at once
(`TigerOS.Path.fsPathResolve_composes`).
-/

namespace TigerOS.Path

open Foundation

/-! ## Normal paths -/

section Normal

variable {absolute : Bool} {path result : List UInt8} {components : List (List UInt8)}

/-- A path in normal form, told by its slashes. -/
structure Normal (absolute : Bool) (path : List UInt8) : Prop where
  nonempty : path ≠ []
  leading : isAbsolute path = absolute
  noEmpty : ¬ [slash, slash] <:+: path
  trailing : path.getLast? = some slash → path = [slash]
  dots : [dot] ∈ path.splitOn slash → path = [dot]
  rooted : absolute = true → dotdot ∉ path.splitOn slash
  run : absolute = false → ∃ count names,
    path.splitOn slash = List.replicate count dotdot ++ names ∧ dotdot ∉ names

/-- The components of a path with a slash before another one, or at its end, are not all
non-empty. -/
private theorem nil_mem_tail_splitOn {first rest : List UInt8} (follows : AtSep slash rest) :
    [] ∈ ((first ++ slash :: rest).splitOn slash).tail := by
  have starts : [] ∈ rest.splitOn slash := by
    rcases follows with rfl | head
    · exact List.mem_cons_self
    · cases rest with
      | nil => cases head
      | cons byte rest =>
          obtain rfl := Option.some.inj head
          rw [← List.nil_append (slash :: rest), List.splitOn_append_cons_self]
          exact List.mem_cons_self
  obtain ⟨piece, pieces, split⟩ := List.exists_cons_of_ne_nil (List.splitOn_ne_nil slash first)
  rw [List.splitOn_append_cons_self, split]
  exact List.mem_append_right _ starts

private theorem splitOn_joined (valid : ∀ c ∈ components, (c ≠ [] ∧ slash ∉ c) ∧ c ≠ [dot])
    (some_ : components ≠ []) : (joined absolute components).splitOn slash =
      if absolute = true then [] :: components else components := by
  have cut : ([slash].intercalate components).splitOn slash = components :=
    List.splitOn_intercalate slash (fun c member => (valid c member).1.2) some_
  unfold joined
  cases absolute with
  | true =>
      simp only [if_true]
      rw [← List.nil_append (slash :: _), List.splitOn_append_cons_self, cut]
      rfl
  | false =>
      simp only [Bool.false_eq_true, if_false]
      rw [if_neg some_, cut]

private theorem normal_root : Normal true [slash] where
  nonempty := List.cons_ne_nil _ _
  leading := rfl
  noEmpty := by decide
  trailing _ := rfl
  dots := by decide
  rooted := by decide
  run impossible := nomatch impossible

private theorem normal_dot : Normal false [dot] where
  nonempty := List.cons_ne_nil _ _
  leading := rfl
  noEmpty := by decide
  trailing := by decide
  dots _ := rfl
  rooted impossible := nomatch impossible
  run _ := ⟨0, [[dot]], rfl, by decide⟩

/-- Joined components that a walk would keep are a normal path. -/
theorem normal_joined (valid : ∀ c ∈ components, (c ≠ [] ∧ slash ∉ c) ∧ c ≠ [dot])
    (climbed : Climbed dotdot absolute components) :
    Normal absolute (joined absolute components) := by
  by_cases none_ : components = []
  · rw [none_]
    cases absolute with
    | true => exact normal_root
    | false => exact normal_dot
  have leading : isAbsolute (joined absolute components) = absolute :=
    isAbsolute_joined fun c member => (valid c member).1
  have split : (joined absolute components).splitOn slash =
      if absolute = true then [] :: components else components := splitOn_joined valid none_
  have inner : [] ∉ ((joined absolute components).splitOn slash).tail := by
    rw [split]
    intro member
    have inside : [] ∈ components := by
      cases absolute with
      | true => exact member
      | false => exact List.mem_of_mem_tail member
    exact (valid [] inside).1.1 rfl
  -- a slash at the end or before another one leaves an empty component
  have apart {first rest : List UInt8} (follows : AtSep slash rest)
      (same : joined absolute components = first ++ slash :: rest) : False := by
    rw [same] at inner
    exact inner (nil_mem_tail_splitOn follows)
  have named : ∀ c ∈ (joined absolute components).splitOn slash, c ≠ [dot] := by
    rw [split]
    intro c member
    cases absolute with
    | true =>
        rcases List.mem_cons.mp member with rfl | inside
        · exact (List.cons_ne_nil _ _).symm
        · exact (valid c inside).2
    | false => exact (valid c member).2
  constructor
  case nonempty =>
    intro empty
    rw [empty, List.splitOn_nil] at split
    cases absolute with
    | true => exact none_ (List.cons.inj split).2.symm
    | false =>
        have same : [[]] = components := split
        exact (valid [] (same ▸ List.mem_cons_self)).1.1 rfl
  case leading => exact leading
  case noEmpty =>
    intro infix_
    obtain ⟨first, rest, same⟩ := infix_
    rw [List.append_assoc] at same
    exact apart (.inr rfl) same.symm
  case trailing =>
    intro last
    obtain ⟨first, same⟩ := List.getLast?_eq_some_iff.mp last
    exact (apart (.inl rfl) same).elim
  case dots => exact fun member => (named _ member rfl).elim
  case rooted =>
    intro isRooted member
    subst isRooted
    rw [split, if_pos rfl] at member
    rcases List.mem_cons.mp member with empty | inside
    · cases empty
    · obtain ⟨before, after, here⟩ := List.mem_iff_append.mp inside
      rw [here] at climbed
      cases climbed.before_up.2
  case run =>
    intro relative
    subst relative
    obtain ⟨count, names, run, names_, -⟩ := climbed.exists_run
    exact ⟨count, names, split.trans run, names_⟩

/-- The pool has room for the segments of what was normalized. -/
private theorem length_pieces_result {outLen : ℕ}
    (normalizes : fsPathNormalize path outLen = some result) :
    ((pieces slash result).flatMap (slash :: ·)).length ≤ fsPathMax := by
  obtain ⟨-, kept, keeps, rfl, -⟩ := fsPathNormalize_eq_some.mp normalizes
  obtain ⟨accounted, walked⟩ := accounted_nil.foldlM keeps
  rw [filter_pieces] at walked
  have same : kept.segments = keptComponents path := walked
  have valid : ∀ c ∈ kept.segments, c ≠ [] ∧ slash ∉ c := by
    rw [same]
    exact fun c member => (mem_keptComponents member).1.1
  rw [pieces_joined valid]
  by_cases alone : isAbsolute path = false ∧ kept.segments = []
  · rw [if_pos alone]
    decide
  · rw [if_neg alone]
    exact accounted.pooled.trans accounted.room

/-- **Normal forms are canonical and stable.** Whatever normalizing answers has no empty
component and no slash at its end but for `/`, no component `.` but for `.` itself, and
`..` nowhere in an absolute path and only in front of a relative one; and normalizing it
into the same buffer answers it again. -/
theorem fsPathNormalize_stable {outLen : ℕ}
    (normalizes : fsPathNormalize path outLen = some result) :
    Normal (isAbsolute path) result ∧ fsPathNormalize result outLen = some result := by
  obtain ⟨form, short⟩ := fsPathNormalize_sound normalizes
  have valid : ∀ c ∈ keptComponents path, (c ≠ [] ∧ slash ∉ c) ∧ c ≠ [dot] :=
    fun c member => (mem_keptComponents member).1
  have normal : Normal (isAbsolute path) result := by
    rw [form]
    exact normal_joined valid (climbed_keptComponents path)
  have again : normalForm result = result := by
    rw [form]
    exact (normalForm_joined valid (climbed_keptComponents path)).2
  refine ⟨normal, ?_⟩
  rw [fsPathNormalize_fits normal.nonempty (length_pieces_result normalizes), again,
    if_pos (Nat.succ_le_of_lt short)]

/-- A relative path that climbs above its start and comes back down. -/
theorem fsPathNormalize_stable_relative :
    Normal false (ascii "../b/c") ∧
      fsPathNormalize (ascii "../b/c") 256 = some (ascii "../b/c") :=
  @fsPathNormalize_stable (ascii "a/../..//b/./c/") (ascii "../b/c") 256 (by decide)

end Normal

/-! ## Resolving -/

section Resolve

variable {cwd path result first second : List UInt8} {outLen : ℕ}

theorem pathComponents_join (first second : List UInt8) :
    pathComponents (first ++ slash :: second) = pathComponents first ++ pathComponents second := by
  unfold pathComponents
  rw [List.splitOn_append_cons_self, List.filter_append]

theorem isAbsolute_join (nonempty : first ≠ []) :
    isAbsolute (first ++ slash :: second) = isAbsolute first := by
  obtain ⟨byte, first, rfl⟩ := List.exists_cons_of_ne_nil nonempty
  rfl

/-- Where a path leads from a working directory. -/
def resolved (cwd path : List UInt8) : List UInt8 :=
  joined true (climbs dotdot true
    ((if isAbsolute path = true then [] else keptComponents cwd) ++ pathComponents path))

/-- The normal form of a path below the normal form of its working directory. -/
private theorem normalForm_below {base : List UInt8} (rooted : isAbsolute base = true)
    (stable : pathComponents base = keptComponents cwd) (relative : isAbsolute path ≠ true) :
    normalForm (base ++ slash :: path) = resolved cwd path := by
  have some_ : base ≠ [] := by
    intro none_
    rw [none_] at rooted
    cases rooted
  unfold normalForm keptComponents resolved
  rw [isAbsolute_join some_, rooted, pathComponents_join, stable, if_neg relative]

/-- The normal form of a path below the root. -/
private theorem normalForm_slash (root : keptComponents cwd = [])
    (relative : isAbsolute path ≠ true) :
    normalForm (slash :: path) = resolved cwd path := by
  have named : pathComponents (slash :: path) = pathComponents path :=
    pathComponents_join [] path
  unfold resolved
  rw [if_neg relative, root, List.nil_append, ← named]
  rfl

/-- **Resolving answers where the path leads** and nothing else. -/
theorem fsPathResolve_sound (nonempty : path ≠ [])
    (resolves : fsPathResolve cwd path outLen = some result) :
    isAbsolute cwd = true ∧ result = resolved cwd path := by
  unfold fsPathResolve at resolves
  by_cases unroomed : outLen = 0
  · rw [if_pos unroomed] at resolves
    cases resolves
  rw [if_neg unroomed] at resolves
  cases normalizes : fsPathNormalize cwd fsPathMax with
  | none =>
      rw [normalizes] at resolves
      cases resolves
  | some base =>
      rw [normalizes] at resolves
      simp only at resolves
      obtain ⟨form, -⟩ := fsPathNormalize_sound normalizes
      by_cases relativeBase : base.head? ≠ some slash
      · rw [if_pos relativeBase] at resolves
        cases resolves
      rw [if_neg relativeBase] at resolves
      have rooted : isAbsolute base = true := decide_eq_true (not_not.mp relativeBase)
      have absolute : isAbsolute cwd = true :=
        (fsPathNormalize_stable normalizes).1.leading.symm.trans rooted
      have stable : pathComponents base = keptComponents cwd := by
        rw [form]
        exact pathComponents_joined fun c member => (mem_keptComponents member).1
      refine ⟨absolute, ?_⟩
      by_cases restarts : path.head? = some slash
      · rw [if_pos restarts] at resolves
        have isRooted : isAbsolute path = true := decide_eq_true restarts
        rw [(fsPathNormalize_sound resolves).1]
        unfold normalForm keptComponents resolved
        rw [isRooted, if_pos rfl]
        rfl
      rw [if_neg restarts, if_neg nonempty] at resolves
      have relative : isAbsolute path ≠ true :=
        fun isRooted => restarts (of_decide_eq_true isRooted)
      by_cases long : fsPathMax < base.length + path.length + 2
      · rw [if_pos long] at resolves
        cases resolves
      rw [if_neg long] at resolves
      by_cases root : base = [slash]
      · rw [if_pos root] at resolves
        rw [(fsPathNormalize_sound resolves).1]
        rw [root] at stable
        exact normalForm_slash stable.symm relative
      · rw [if_neg root] at resolves
        rw [(fsPathNormalize_sound resolves).1]
        exact normalForm_below rooted stable relative

/-- **Resolving a relative path** below a canonical working directory fails where the two
with a slash between them and a NUL do not fit in `FS_PATH_MAX`, and otherwise answers
where the path leads. -/
theorem fsPathResolve_relative {components : List (List UInt8)} (canonical : Canonical components)
    (short : (render components).length < fsPathMax) (nonempty : path ≠ [])
    (relative : isAbsolute path ≠ true) :
    fsPathResolve (render components) path fsPathMax =
      if fsPathMax < (render components).length + path.length + 2 then none
      else if (resolved (render components) path).length + 1 ≤ fsPathMax then
        some (resolved (render components) path)
      else none := by
  have restarts : path.head? ≠ some slash := fun head => relative (decide_eq_true head)
  have rooted : isAbsolute (render components) = true := decide_eq_true (head_render components)
  unfold fsPathResolve
  rw [if_neg (by decide), fsPathNormalize_render canonical short short]
  simp only
  rw [if_neg (not_not_intro (head_render components)), if_neg restarts, if_neg nonempty]
  by_cases long : fsPathMax < (render components).length + path.length + 2
  · rw [if_pos long, if_pos long]
  rw [if_neg long, if_neg long]
  have positive := List.length_pos_iff.mpr (render_ne_nil components)
  by_cases root : render components = [slash]
  · have top : components = [] :=
      render_injective canonical (fun c member => absurd member List.not_mem_nil) root
    have kept : keptComponents (render components) = [] := by
      rw [keptComponents_render canonical, top]
    have fits : (slash :: path).length < fsPathMax := by
      rw [List.length_cons]
      omega
    rw [if_pos root, (fsPathNormalize_eq_normalForm _ _ (List.cons_ne_nil _ _) fits).2,
      normalForm_slash kept relative]
  · have stable : pathComponents (render components) = keptComponents (render components) := by
      rw [keptComponents_render canonical, render_eq_joined]
      exact pathComponents_joined canonical.named
    have fits : (render components ++ slash :: path).length < fsPathMax := by
      rw [List.length_append, List.length_cons]
      omega
    rw [if_neg root, (fsPathNormalize_eq_normalForm _ _
      (List.append_ne_nil_of_left_ne_nil (render_ne_nil components) _) fits).2,
      normalForm_below rooted stable relative]

/-! ### Single steps -/

section Steps

variable {components : List (List UInt8)} {name : List UInt8}

private theorem resolved_relative (canonical : Canonical components)
    (relative : isAbsolute path ≠ true) : resolved (render components) path =
      render (climbs dotdot true (components ++ pathComponents path)) := by
  unfold resolved
  rw [if_neg relative, keptComponents_render canonical, render_eq_joined]

/-- A name leads to the place below. -/
theorem resolved_name (canonical : Canonical components) (valid : ValidComponent name) :
    isAbsolute name ≠ true ∧
      resolved (render components) name = render (components ++ [name]) := by
  have named : Canonical [name] := by
    intro c member
    rwa [List.mem_singleton.mp member]
  have below : Canonical (components ++ [name]) := by
    intro c member
    exact (List.mem_append.mp member).elim (canonical c) (named c)
  have alone : joined false [name] = name := List.append_nil name
  have relative : isAbsolute name ≠ true := by
    rw [← alone, isAbsolute_joined fun c member => (named.named c member).1]
    exact Bool.false_ne_true
  have said : pathComponents name = [name] := by
    rw [← alone, pathComponents_joined named.named, alone]
  refine ⟨relative, ?_⟩
  rw [resolved_relative canonical relative, said, climbs_climbed below.climbed]

/-- `.` leads nowhere else. -/
theorem resolved_dot (canonical : Canonical components) :
    resolved (render components) [dot] = render components := by
  have said : pathComponents [dot] = [] := by decide
  rw [resolved_relative canonical (by decide), said, List.append_nil,
    climbs_climbed canonical.climbed]

/-- `..` leads to the place above, and below the root nowhere else. -/
theorem resolved_dotdot (canonical : Canonical components) :
    resolved (render components) dotdot = render components.dropLast := by
  have said : pathComponents dotdot = [dotdot] := by decide
  have kept : components.foldl (climb dotdot true) [] = components :=
    climbs_climbed canonical.climbed
  rw [resolved_relative canonical (by decide), said]
  unfold climbs
  rw [List.foldl_append, kept, List.foldl_cons, List.foldl_nil]
  rcases List.eq_nil_or_concat' components with rfl | ⟨front, last, rfl⟩
  · rfl
  · have other : last ≠ dotdot := (canonical last (by simp)).notDotdot
    rw [climb_last, if_neg other, List.dropLast_concat]

end Steps

/-- What a resolved path keeps, it keeps again. -/
private theorem keptComponents_resolved (cwd path : List UInt8) :
    keptComponents (resolved cwd path) = climbs dotdot true
      ((if isAbsolute path = true then [] else keptComponents cwd) ++ pathComponents path) := by
  refine (normalForm_joined ?_ (climbed_climbs _)).1
  intro c member
  rcases List.mem_append.mp (mem_of_mem_climbs member) with above | below
  · by_cases rooted : isAbsolute path = true
    · rw [if_pos rooted] at above
      exact absurd above List.not_mem_nil
    · rw [if_neg rooted] at above
      exact (mem_keptComponents above).1
  · exact (mem_pathComponents below).1

/-- **Resolution composes.** Resolving `p` below `c` and then a relative `q` below the
result is resolving `p/q` below `c`, whenever the three succeed. -/
theorem fsPathResolve_composes {c p q r s t : List UInt8} (nonempty : p ≠ []) (some_ : q ≠ [])
    (relative : isAbsolute q = false) (stepped : fsPathResolve c p fsPathMax = some r)
    (further : fsPathResolve r q fsPathMax = some s)
    (atOnce : fsPathResolve c (p ++ slash :: q) fsPathMax = some t) : s = t := by
  obtain ⟨-, rEq⟩ := fsPathResolve_sound nonempty stepped
  obtain ⟨-, sEq⟩ := fsPathResolve_sound some_ further
  obtain ⟨-, tEq⟩ := fsPathResolve_sound
    (List.append_ne_nil_of_right_ne_nil _ (List.cons_ne_nil _ _)) atOnce
  have notRooted : isAbsolute q ≠ true := Bool.eq_false_iff.mp relative
  rw [sEq, tEq, rEq]
  unfold resolved
  rw [if_neg notRooted, isAbsolute_join nonempty, pathComponents_join, ← List.append_assoc]
  have kept := keptComponents_resolved c p
  unfold resolved at kept
  rw [kept, climbs_append]

/-- Going up past the root and down again, in two steps and at once. -/
theorem fsPathResolve_composes_root : ∃ r s t,
    fsPathResolve (ascii "/a/b") (ascii "../..//..") fsPathMax = some r ∧
      fsPathResolve r (ascii "./c") fsPathMax = some s ∧
        fsPathResolve (ascii "/a/b") (ascii "../..//.." ++ slash :: ascii "./c") fsPathMax =
          some t ∧ s = t := by
  have stepped : fsPathResolve (ascii "/a/b") (ascii "../..//..") fsPathMax =
      some (ascii "/") := by decide
  have further : fsPathResolve (ascii "/") (ascii "./c") fsPathMax = some (ascii "/c") := by decide
  have atOnce : fsPathResolve (ascii "/a/b") (ascii "../..//.." ++ slash :: ascii "./c")
      fsPathMax = some (ascii "/c") := by decide
  exact ⟨_, _, _, stepped, further, atOnce,
    fsPathResolve_composes (by decide) (by decide) rfl stepped further atOnce⟩

end Resolve

end TigerOS.Path
