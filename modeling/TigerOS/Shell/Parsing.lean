import TigerOS.Shell.Tokens
import Mathlib.Data.List.Forall2

/-! # The parser and its grammar

Cutting the line in place answers the tokens of the line, but for one slip: the
blanks after a `>` that ends a word are passed before the parser looks for a
second `>`. The parser accepts exactly the lines of the grammar, with the words as
they are written, unless two separate `>` stand so where one redirection belongs
(`TigerOS.Shell.parse_iff_grammar`).
-/

namespace TigerOS.Shell

open Foundation

/-! ## Reading in place -/

/-- The bytes from an offset on, up to a NUL. -/
def Reads (buffer : ℕ → UInt8) : ℕ → List UInt8 → Prop
  | start, [] => buffer start = 0
  | start, byte :: rest => buffer start = byte ∧ Reads buffer (start + 1) rest

section Reads

variable {buffer buffer' : ℕ → UInt8} {start length : ℕ} {bytes first second rest : List UInt8}

theorem Reads.congr (reads : Reads buffer start bytes)
    (same : ∀ k, start ≤ k → k ≤ start + bytes.length → buffer' k = buffer k) :
    Reads buffer' start bytes := by
  induction bytes generalizing start with
  | nil => exact (same start le_rfl le_rfl).trans reads
  | cons byte rest ih =>
      obtain ⟨here, after⟩ := reads
      refine ⟨(same start le_rfl (Nat.le_add_right _ _)).trans here, ih after ?_⟩
      intro k above below
      apply same k (Nat.le_of_succ_le above)
      rw [List.length_cons]
      omega

theorem Reads.nul (reads : Reads buffer start bytes) : buffer (start + bytes.length) = 0 := by
  induction bytes generalizing start with
  | nil => exact reads
  | cons byte rest ih =>
      rw [List.length_cons, Nat.add_comm rest.length, ← Nat.add_assoc]
      exact ih reads.2

theorem Reads.after (reads : Reads buffer start (first ++ second)) :
    Reads buffer (start + first.length) second := by
  induction first generalizing start with
  | nil => exact reads
  | cons byte rest ih =>
      rw [List.length_cons, Nat.add_comm rest.length, ← Nat.add_assoc]
      exact ih reads.2

/-- A word is read alone once a NUL is written after it. -/
theorem Reads.before (reads : Reads buffer start (first ++ second))
    (same : ∀ k, start ≤ k → k < start + first.length → buffer' k = buffer k)
    (nul : buffer' (start + first.length) = 0) : Reads buffer' start first := by
  induction first generalizing start with
  | nil => exact nul
  | cons byte rest ih =>
      obtain ⟨here, after⟩ := reads
      refine ⟨(same start le_rfl ?_).trans here, ih after ?_ ?_⟩
      · rw [List.length_cons]
        omega
      · intro k above below
        apply same k (Nat.le_of_succ_le above)
        rw [List.length_cons]
        omega
      · rw [← nul, List.length_cons]
        congr 1
        omega

theorem reads_line (line : List UInt8) :
    Reads (fun k => line.getD k 0) 0 line := by
  suffices general : ∀ before after : List UInt8, before ++ after = line →
      Reads (fun k => line.getD k 0) before.length after from general [] line rfl
  intro before after whole
  induction after generalizing before with
  | nil =>
      rw [List.append_nil] at whole
      subst whole
      exact List.getD_eq_default _ _ le_rfl
  | cons byte rest ih =>
      refine ⟨?_, ?_⟩
      · subst whole
        simp
      · have next := ih (before ++ [byte]) (by rw [List.append_assoc]; exact whole)
        rwa [List.length_append] at next

/-- A string that is read in the line is the C string there. -/
theorem Reads.stringAt_eq (reads : Reads buffer start bytes) (noNul : 0 ∉ bytes)
    (inside : start + bytes.length ≤ length) : stringAt length buffer start = bytes := by
  unfold stringAt cstr
  rw [List.take_of_length_le length_readRange.le]
  obtain ⟨room, rfl⟩ := Nat.exists_eq_add_of_le inside
  rw [Nat.add_assoc, Nat.add_sub_cancel_left]
  clear inside
  induction bytes generalizing start with
  | nil =>
      cases room with
      | zero => rfl
      | succ room =>
          have nul : buffer start = 0 := reads
          rw [List.length_nil, Nat.zero_add, Nat.add_comm room, readRange_add]
          change List.takeWhile _ ([buffer (start + 0)] ++ _) = _
          rw [Nat.add_zero, nul]
          rfl
  | cons byte rest ih =>
      obtain ⟨here, after⟩ := reads
      simp only [List.mem_cons, not_or] at noNul
      rw [List.length_cons, Nat.add_assoc, Nat.add_left_comm, readRange_add]
      change List.takeWhile _ ([buffer (start + 0)] ++ _) = _
      rw [Nat.add_zero, here, List.singleton_append,
        List.takeWhile_cons_of_pos (by simpa using Ne.symm noNul.1), ih after noNul.2]

end Reads

/-- A step of the tokenizer from one rest of the line to a later one. -/
structure Advances (scan scan' : Tokenizer) (rest rest' : List UInt8) : Prop where
  reads : Reads scan'.buffer scan'.cursor rest'
  kept : ∀ k < scan.cursor, scan'.buffer k = scan.buffer k
  ahead : scan.cursor ≤ scan'.cursor
  total : scan'.cursor + rest'.length = scan.cursor + rest.length

section Advances

variable {scan scan' scan'' : Tokenizer} {rest rest' rest'' : List UInt8} {byte : UInt8}
  {rounds : ℕ}

theorem Advances.refl (reads : Reads scan.buffer scan.cursor rest) :
    Advances scan scan rest rest :=
  ⟨reads, fun _ _ => rfl, le_rfl, rfl⟩

theorem Advances.trans (first : Advances scan scan' rest rest')
    (second : Advances scan' scan'' rest' rest'') : Advances scan scan'' rest rest'' where
  reads := second.reads
  kept := fun k below => (second.kept k (below.trans_le first.ahead)).trans (first.kept k below)
  ahead := first.ahead.trans second.ahead
  total := second.total.trans first.total

theorem advances_cut (reads : Reads scan.buffer scan.cursor (byte :: rest)) :
    Advances scan scan.cut (byte :: rest) rest where
  reads := by
    refine reads.2.congr fun k above _ => ?_
    exact Function.update_of_ne (Nat.ne_of_gt above) _ _
  kept := fun k below => Function.update_of_ne below.ne _ _
  ahead := Nat.le_succ _
  total := by
    rw [List.length_cons]
    change scan.cursor + 1 + _ = _
    omega

theorem Advances.setPending (advances : Advances scan scan' rest rest') (pending : UInt8) :
    Advances scan { scan' with pending := pending } rest rest' :=
  ⟨advances.reads, advances.kept, advances.ahead, advances.total⟩

theorem byte_of_reads (reads : Reads scan.buffer scan.cursor rest) : scan.byte = rest.headD 0 := by
  cases rest with
  | nil => exact reads
  | cons byte rest => exact reads.1

/-- The loop over blanks passes them all. -/
theorem skipBlanks_spec (reads : Reads scan.buffer scan.cursor rest) (noNul : 0 ∉ rest)
    (enough : rest.length ≤ rounds) :
    Advances scan (skipBlanks rounds scan) rest (rest.dropWhile fun ch => isSpace ch) ∧
      (skipBlanks rounds scan).pending = scan.pending := by
  induction rounds generalizing scan rest with
  | zero =>
      obtain rfl := List.length_eq_zero_iff.mp (Nat.le_zero.mp enough)
      exact ⟨.refl reads, rfl⟩
  | succ rounds ih =>
      unfold skipBlanks
      rw [byte_of_reads reads]
      cases rest with
      | nil => exact ⟨.refl reads, rfl⟩
      | cons byte rest =>
          simp only [List.mem_cons, not_or] at noNul
          by_cases blank : isSpace byte
          · have cut := advances_cut reads
            obtain ⟨advances, pending⟩ := ih cut.reads noNul.2 (Nat.le_of_succ_le_succ enough)
            rw [List.headD_cons, if_pos ⟨Ne.symm noNul.1, blank⟩]
            simp only [List.dropWhile_cons, blank, decide_true, ↓reduceIte]
            exact ⟨cut.trans advances, pending⟩
          · rw [List.headD_cons, if_neg (fun passes => blank passes.2)]
            simp only [List.dropWhile_cons, blank, decide_false, Bool.false_eq_true, ↓reduceIte]
            exact ⟨.refl reads, trivial⟩

/-- The loop over a word stops after it. -/
theorem skipWord_spec (reads : Reads scan.buffer scan.cursor rest) (noNul : 0 ∉ rest)
    (enough : rest.length ≤ rounds) :
    skipWord rounds scan =
      { scan with cursor := scan.cursor + (rest.takeWhile fun ch => isWordByte ch).length } := by
  induction rounds generalizing scan rest with
  | zero =>
      obtain rfl := List.length_eq_zero_iff.mp (Nat.le_zero.mp enough)
      rfl
  | succ rounds ih =>
      unfold skipWord
      rw [byte_of_reads reads]
      cases rest with
      | nil => rfl
      | cons byte rest =>
          simp only [List.mem_cons, not_or] at noNul
          by_cases inWord : isWordByte byte
          · rw [List.headD_cons, if_pos ⟨Ne.symm noNul.1, inWord⟩,
              @ih { scan with cursor := scan.cursor + 1 } rest reads.2 noNul.2
                (Nat.le_of_succ_le_succ enough)]
            simp only [List.takeWhile_cons, inWord, decide_true, ↓reduceIte, List.length_cons,
              Nat.add_assoc, Nat.add_comm]
          · rw [List.headD_cons, if_neg (fun passes => inWord passes.2)]
            simp only [List.takeWhile_cons, inWord, decide_false, Bool.false_eq_true, ↓reduceIte,
              List.length_nil, Nat.add_zero]

end Advances

/-! ## One token -/

/-- The next token of the rest of a line and what is pending and left after it. -/
def lexStep (pending : UInt8) (rest : List UInt8) :
    Option (ParseToken (List UInt8) × UInt8 × List UInt8) :=
  let rest := rest.dropWhile fun ch => isSpace ch
  if pending ≠ 0 then
    if pending = bar then some (.pipe, 0, rest)
    else if pending = greater then
      if rest.head? = some greater then some (.redirAppend, 0, rest.tail)
      else some (.redirTrunc, 0, rest)
    else some (.error, 0, rest)
  else
    match rest with
    | [] => none
    | byte :: more =>
        if byte = bar then some (.pipe, 0, more)
        else if byte = greater then
          if more.head? = some greater then some (.redirAppend, 0, more.tail)
          else some (.redirTrunc, 0, more)
        else
          let word := (byte :: more).takeWhile fun ch => isWordByte ch
          match (byte :: more).dropWhile fun ch => isWordByte ch with
          | [] => some (.word word, 0, [])
          | stop :: rest => some (.word word, if isSpace stop then 0 else stop, rest)

/-- Two tokens that agree but for their words. -/
inductive SameToken {Word Word' : Type} (same : Word → Word' → Prop) :
    ParseToken Word → ParseToken Word' → Prop
  | word {first : Word} {second : Word'} (words : same first second) :
      SameToken same (.word first) (.word second)
  | pipe : SameToken same .pipe .pipe
  | redirTrunc : SameToken same .redirTrunc .redirTrunc
  | redirAppend : SameToken same .redirAppend .redirAppend
  | error : SameToken same .error .error

/-- A word that was cut out of a line of the given length and is not written to
again. -/
structure Stored (length : ℕ) (scan : Tokenizer) (start : ℕ) (word : List UInt8) : Prop where
  reads : Reads scan.buffer start word
  noNul : 0 ∉ word
  inside : start + word.length ≤ length
  passed : start + word.length ≤ scan.cursor
  ends : start + word.length < scan.cursor ∨ start + word.length = length

section Token

variable {scan scan' : Tokenizer} {rest rest' word : List UInt8} {rounds length start : ℕ}
  {byte : UInt8}

theorem Stored.advance (stored : Stored length scan start word)
    (advances : Advances scan scan' rest rest') (whole : scan.cursor + rest.length = length) :
    Stored length scan' start word := by
  obtain ⟨reads, noNul, inside, passed, ends⟩ := stored
  refine ⟨?_, noNul, inside, passed.trans advances.ahead, ?_⟩
  · refine reads.congr fun k above below => ?_
    rcases below.lt_or_eq with within | last
    · exact advances.kept k (within.trans_le passed)
    · rcases ends with before | atEnd
      · exact advances.kept k (last ▸ before)
      · have nul := advances.reads.nul
        rw [advances.total, whole, ← atEnd] at nul
        rw [last, nul, reads.nul]
  · exact ends.imp (fun before => before.trans_le advances.ahead) id

/-- The byte read is the first of the rest. -/
private theorem byte_eq_iff (reads : Reads scan.buffer scan.cursor rest) (nonzero : byte ≠ 0) :
    scan.byte = byte ↔ rest.head? = some byte := by
  rw [byte_of_reads reads]
  cases rest with
  | nil => exact iff_of_false (Ne.symm nonzero) (by simp)
  | cons head rest => simp

/-- A byte of the line cut away. -/
private theorem advances_cut_tail (reads : Reads scan.buffer scan.cursor rest)
    (here : rest.head? = some byte) : Advances scan scan.cut rest rest.tail := by
  obtain ⟨more, rfl⟩ := List.head?_eq_some_iff.mp here
  exact advances_cut reads

/-- A word of bytes of a kind is stored where it stands, whatever ends it. -/
theorem word_step (inside : UInt8 → Prop) [DecidablePred inside]
    (reads : Reads scan.buffer scan.cursor rest) (noNul : 0 ∉ rest)
    (whole : scan.cursor + rest.length = length) (idle : scan.pending = 0)
    (scan' : Tokenizer) (skips : scan' = { scan with
      cursor := scan.cursor + (rest.takeWhile fun ch => inside ch).length }) :
    match (rest.dropWhile fun ch => inside ch) with
    | [] => scan'.byte = 0 ∧ Advances scan scan' rest [] ∧ scan'.pending = 0 ∧
        Stored length scan' scan.cursor (rest.takeWhile fun ch => inside ch)
    | stop :: after => scan'.byte = stop ∧ stop ≠ 0 ∧ ¬ inside stop ∧
        Advances scan scan'.cut rest after ∧ scan'.cut.pending = 0 ∧
          Stored length scan'.cut scan.cursor (rest.takeWhile fun ch => inside ch) := by
  have parts := List.takeWhile_append_dropWhile (p := fun ch => decide (inside ch)) (l := rest)
  have lengths := congrArg List.length parts
  rw [List.length_append] at lengths
  have noNulWord : 0 ∉ rest.takeWhile fun ch => inside ch :=
    fun member => noNul (List.takeWhile_subset _ member)
  have readsWhole := reads
  rw [← parts] at readsWhole
  have readsAfter := readsWhole.after
  have moved : Advances scan scan' rest (rest.dropWhile fun ch => inside ch) := by
    subst skips
    refine ⟨readsAfter, fun _ _ => rfl, Nat.le_add_right _ _, ?_⟩
    change scan.cursor + _ + _ = _
    omega
  have cursor : scan'.cursor =
      scan.cursor + (rest.takeWhile fun ch => inside ch).length := by
    subst skips
    rfl
  have pending : scan'.pending = 0 := by
    subst skips
    exact idle
  have buffer : scan'.buffer = scan.buffer := by
    subst skips
    rfl
  have byte := byte_of_reads moved.reads
  cases tail : rest.dropWhile fun ch => inside ch with
  | nil =>
      rw [tail] at moved byte lengths readsAfter
      rw [List.length_nil, Nat.add_zero] at lengths
      refine ⟨byte, moved, pending, ?_, noNulWord, ?_, ?_, .inr ?_⟩
      · rw [buffer]
        exact readsWhole.before (fun _ _ _ => rfl) readsAfter
      · rw [lengths]
        exact whole.le
      · rw [cursor]
      · rw [lengths]
        exact whole
  | cons stop after =>
      rw [tail] at moved byte lengths
      have outside : ¬ inside stop := by
        have first := List.head_dropWhile_not (fun ch => decide (inside ch)) (l := rest)
          (by simp [tail])
        simpa [tail] using first
      have nonzero : stop ≠ 0 := by
        rintro rfl
        apply noNul
        rw [← parts, tail]
        simp
      rw [List.length_cons] at lengths
      have cut := advances_cut moved.reads
      refine ⟨byte, nonzero, outside, moved.trans cut, pending, ?_, noNulWord, ?_, ?_, .inl ?_⟩
      · refine readsWhole.before (fun k _ below => ?_) ?_
        · rw [← buffer]
          exact Function.update_of_ne (cursor ▸ below.ne) _ _
        · rw [← cursor]
          exact Function.update_self ..
      · omega
      · rw [← cursor]
        exact Nat.le_succ _
      · rw [← cursor]
        exact Nat.lt_succ_self _

/-- The next token as it is cut out of the line. -/
structure Cuts (length : ℕ) (scan : Tokenizer) (rest : List UInt8)
    (out : Option (ParseToken ℕ) × Tokenizer) (token : ParseToken (List UInt8)) (pending : UInt8)
    (rest' : List UInt8) : Prop where
  advances : Advances scan out.2 rest rest'
  pending : out.2.pending = pending
  token : ∃ token', out.1 = some token' ∧ SameToken (Stored length out.2) token' token

/-- **The tokenizer answers the next token** of the rest of the line. -/
theorem parseNextToken_spec (reads : Reads scan.buffer scan.cursor rest) (noNul : 0 ∉ rest)
    (enough : rest.length ≤ rounds) (whole : scan.cursor + rest.length = length) :
    match lexStep scan.pending rest with
    | none => (parseNextToken rounds scan).1 = none ∧
        Advances scan (parseNextToken rounds scan).2 rest []
    | some (token, pending, rest') =>
        Cuts length scan rest (parseNextToken rounds scan) token pending rest' := by
  obtain ⟨blanks, idle⟩ := skipBlanks_spec reads noNul enough
  have noNul' : 0 ∉ rest.dropWhile fun ch => isSpace ch :=
    fun member => noNul (List.dropWhile_subset _ member)
  have fewer : (rest.dropWhile fun ch => isSpace ch).length ≤ rounds :=
    (List.dropWhile_sublist _).length_le.trans enough
  unfold lexStep parseNextToken
  revert blanks idle noNul' fewer
  generalize skipBlanks rounds scan = scan1
  generalize (rest.dropWhile fun ch => isSpace ch) = rest1
  intro blanks idle noNul' fewer
  have whole1 := blanks.total.trans whole
  have byte := byte_of_reads blanks.reads
  simp only [idle]
  by_cases waiting : scan.pending ≠ 0
  · rw [if_pos waiting, if_pos waiting]
    by_cases isBar : scan.pending = bar
    · rw [if_pos isBar, if_pos isBar]
      exact ⟨blanks.setPending 0, rfl, _, rfl, .pipe⟩
    · rw [if_neg isBar, if_neg isBar]
      by_cases isGreater : scan.pending = greater
      · rw [if_pos isGreater, if_pos isGreater]
        have passed := blanks.setPending 0
        have second := byte_eq_iff passed.reads (show greater ≠ 0 by decide)
        by_cases again : rest1.head? = some greater
        · rw [if_pos again, if_pos (second.mpr again)]
          have cut := advances_cut_tail passed.reads again
          exact ⟨passed.trans cut, rfl, _, rfl, .redirAppend⟩
        · rw [if_neg again, if_neg fun same => again (second.mp same)]
          exact ⟨passed, rfl, _, rfl, .redirTrunc⟩
      · rw [if_neg isGreater, if_neg isGreater]
        exact ⟨blanks.setPending 0, rfl, _, rfl, .error⟩
  · have none_ := not_not.mp waiting
    rw [none_] at idle
    rw [if_neg waiting, if_neg waiting]
    cases rest1 with
    | nil =>
        have stops : scan1.byte = 0 := byte
        rw [if_pos stops]
        exact ⟨rfl, blanks⟩
    | cons first more =>
        simp only [List.mem_cons, not_or] at noNul'
        have here : scan1.byte = first := byte
        have continues : scan1.byte ≠ 0 := here ▸ Ne.symm noNul'.1
        rw [if_neg continues, here]
        have cut := advances_cut blanks.reads
        by_cases isBar : first = bar
        · simp only [isBar, ↓reduceIte]
          rw [isBar] at cut blanks
          exact ⟨blanks.trans cut, idle, _, rfl, .pipe⟩
        · by_cases isGreater : first = greater
          · rw [isGreater] at cut blanks isBar
            simp only [isGreater, if_neg isBar, ↓reduceIte]
            have second := byte_eq_iff cut.reads (show greater ≠ 0 by decide)
            by_cases again : more.head? = some greater
            · rw [if_pos again, if_pos (second.mpr again)]
              have cut' := advances_cut_tail cut.reads again
              exact ⟨(blanks.trans cut).trans cut', idle, _, rfl, .redirAppend⟩
            · rw [if_neg again, if_neg fun same => again (second.mp same)]
              exact ⟨blanks.trans cut, idle, _, rfl, .redirTrunc⟩
          · simp only [if_neg isBar, if_neg isGreater]
            have noNulAll : 0 ∉ first :: more := by
              simp only [List.mem_cons, not_or]
              exact noNul'
            have skips := skipWord_spec blanks.reads noNulAll fewer
            have steps := word_step isWordByte blanks.reads noNulAll whole1 idle _ skips
            revert steps
            generalize skipWord rounds scan1 = scan2
            cases (first :: more).dropWhile fun ch => isWordByte ch with
            | nil =>
                rintro ⟨stops, advances, pending, stored⟩
                rw [if_pos stops]
                exact ⟨blanks.trans advances, pending, _, rfl, .word stored⟩
            | cons stop after =>
                rintro ⟨stops, nonzero, outside, advances, pending, stored⟩
                simp only [stops, if_neg nonzero]
                by_cases operator : stop = bar ∨ stop = greater
                · have notBlank : ¬ isSpace stop := by
                    rcases operator with rfl | rfl <;> decide
                  rw [if_pos operator, if_neg notBlank]
                  refine ⟨(blanks.trans advances).setPending stop, rfl, _, rfl, .word ?_⟩
                  obtain ⟨reads', noNul'', inside, passed, ends⟩ := stored
                  exact ⟨reads', noNul'', inside, passed, ends⟩
                · have blank : isSpace stop := by
                    by_contra notBlank
                    rw [not_or] at operator
                    exact outside ⟨notBlank, operator.1, operator.2⟩
                  rw [if_neg operator, if_pos blank]
                  exact ⟨blanks.trans advances, pending, _, rfl, .word stored⟩

end Token

/-! ## All tokens -/

/-- The tokens cut out of the rest of a line, with an operator pending. -/
inductive Lexes : UInt8 → List UInt8 → List (ParseToken (List UInt8)) → Prop
  | done {pending : UInt8} {rest : List UInt8} (ends : lexStep pending rest = none) :
      Lexes pending rest []
  | next {pending pending' : UInt8} {rest rest' : List UInt8} {token : ParseToken (List UInt8)}
      {after : List (ParseToken (List UInt8))}
      (step : lexStep pending rest = some (token, pending', rest'))
      (later : Lexes pending' rest' after) : Lexes pending rest (token :: after)

/-- What is left to cut: the bytes of the rest and the pending operator. -/
def leftToCut (pending : UInt8) (rest : List UInt8) : ℕ :=
  rest.length + if pending = 0 then 0 else 1

section Lexes

variable {pending pending' : UInt8} {rest rest' : List UInt8} {token : ParseToken (List UInt8)}
  {found : List (ParseToken (List UInt8))}

/-- A token takes at least one byte or the pending operator, and leaves a later
part of the line. -/
theorem lexStep_smaller (step : lexStep pending rest = some (token, pending', rest')) :
    leftToCut pending' rest' < leftToCut pending rest ∧ rest' <:+ rest := by
  have blanks := List.dropWhile_suffix (fun ch => decide (isSpace ch)) (l := rest)
  have shorter := blanks.length_le
  unfold lexStep at step
  revert step blanks shorter
  generalize (rest.dropWhile fun ch => isSpace ch) = rest1
  intro step blanks shorter
  simp only at step
  split at step
  · rename_i waiting
    have before : leftToCut pending rest = rest.length + 1 := by rw [leftToCut, if_neg waiting]
    have small (list : List UInt8) (short : list.length ≤ rest.length) :
        leftToCut 0 list < leftToCut pending rest := by
      rw [before, leftToCut, if_pos rfl]
      exact Nat.lt_succ_of_le short
    split at step
    · cases step
      exact ⟨small _ shorter, blanks⟩
    · split at step
      · split at step <;> cases step
        · exact ⟨small _ ((List.tail_sublist _).length_le.trans shorter),
            (List.tail_suffix _).trans blanks⟩
        · exact ⟨small _ shorter, blanks⟩
      · cases step
        exact ⟨small _ shorter, blanks⟩
  · rename_i idle
    have before : leftToCut pending rest = rest.length := by
      rw [leftToCut, if_pos (not_not.mp idle), Nat.add_zero]
    split at step
    · cases step
    · rename_i byte more
      rw [List.length_cons] at shorter
      have small (list : List UInt8) (short : list.length ≤ more.length) :
          leftToCut 0 list < leftToCut pending rest := by
        rw [before, leftToCut, if_pos rfl]
        omega
      have after := (List.suffix_cons byte more).trans blanks
      split at step
      · cases step
        exact ⟨small _ le_rfl, after⟩
      · rename_i notBar
        split at step
        · split at step <;> cases step
          · exact ⟨small _ (List.tail_sublist _).length_le, (List.tail_suffix _).trans after⟩
          · exact ⟨small _ le_rfl, after⟩
        · rename_i notGreater
          have tail := List.dropWhile_suffix (fun ch => decide (isWordByte ch)) (l := byte :: more)
          split at step
          · cases step
            refine ⟨small _ (Nat.zero_le _), List.nil_suffix⟩
          · rename_i stop rest2 stops
            cases step
            rw [stops] at tail
            refine ⟨?_, (List.suffix_cons _ _).trans (tail.trans blanks)⟩
            have length := tail.length_le
            simp only [List.length_cons] at length
            by_cases blank : isSpace stop
            · rw [if_pos blank]
              exact small _ (by omega)
            · have word : isWordByte byte ∨ isSpace byte := by
                by_cases space : isSpace byte
                · exact .inr space
                · exact .inl ⟨space, notBar, notGreater⟩
              rw [if_neg blank, before, leftToCut]
              rcases word with inWord | space
              · have passes := List.dropWhile_cons_of_pos (p := fun ch => decide (isWordByte ch))
                  (l := more) (decide_eq_true inWord)
                rw [passes] at stops
                have within := (List.dropWhile_suffix
                  (fun ch => decide (isWordByte ch)) (l := more)).length_le
                rw [stops, List.length_cons] at within
                split <;> omega
              · have stays := List.dropWhile_cons_of_neg (p := fun ch => decide (isWordByte ch))
                  (a := byte) (l := more)
                  (by simpa using fun inWord : isWordByte byte => inWord.1 space)
                rw [stays] at stops
                cases stops
                exact absurd space blank

theorem exists_lexes (pending : UInt8) (rest : List UInt8) : ∃ found, Lexes pending rest found := by
  induction size : leftToCut pending rest using Nat.strong_induction_on
    generalizing pending rest with
  | _ size ih =>
      cases step : lexStep pending rest with
      | none => exact ⟨[], .done step⟩
      | some out =>
          obtain ⟨token, pending', rest'⟩ := out
          have smaller := (lexStep_smaller step).1
          rw [size] at smaller
          obtain ⟨later, lexes⟩ := ih _ smaller pending' rest' rfl
          exact ⟨token :: later, .next step lexes⟩

/-- There are no more tokens than is left to cut. -/
theorem Lexes.length_le (lexes : Lexes pending rest found) :
    found.length ≤ leftToCut pending rest := by
  induction lexes with
  | done _ => exact Nat.zero_le _
  | next step _ ih => exact Nat.succ_le_of_lt (ih.trans_lt (lexStep_smaller step).1)

end Lexes

/-! ## The loop over tokens -/

/-- Two states that agree but for their words. -/
structure SameState {Word Word' : Type} (same : Word → Word' → Prop) (first : ParseState Word)
    (second : ParseState Word') : Prop where
  left : List.Forall₂ same first.out.left second.out.left
  right : List.Forall₂ same first.out.right second.out.right
  hasPipe : first.out.hasPipe = second.out.hasPipe
  redirMode : first.out.redirMode = second.out.redirMode
  redirPath : Option.Rel same first.out.redirPath second.out.redirPath
  needRedirPath : first.needRedirPath = second.needRedirPath

section SameState

variable {Word Word' : Type} {same same' : Word → Word' → Prop} {first : ParseState Word}
  {second : ParseState Word'} {token : ParseToken Word} {token' : ParseToken Word'}

theorem SameState.imp (states : SameState same first second)
    (implies : ∀ word word', same word word' → same' word word') :
    SameState same' first second := by
  obtain ⟨⟨_, _, _, _, path⟩, _⟩ := first
  obtain ⟨⟨_, _, _, _, path'⟩, _⟩ := second
  obtain ⟨left, right, hasPipe, redirMode, redirPath, needRedirPath⟩ := states
  refine ⟨left.imp implies, right.imp implies, hasPipe, redirMode, ?_, needRedirPath⟩
  cases redirPath with
  | some words => exact .some (implies _ _ words)
  | none => exact .none

theorem SameState.current (states : SameState same first second) :
    List.Forall₂ same first.current second.current := by
  unfold ParseState.current
  rw [states.hasPipe]
  split
  · exact states.right
  · exact states.left

theorem nil_of_forall₂ {words : List Word} {words' : List Word'}
    (related : List.Forall₂ same words words') : words = [] ↔ words' = [] := by
  rw [← List.length_eq_zero_iff, ← List.length_eq_zero_iff, related.length_eq]

/-- The loop does the same on tokens that agree but for their words. -/
theorem SameState.takeToken (states : SameState same first second)
    (tokens : SameToken same token token') :
    Option.Rel (SameState same) (takeToken first token) (takeToken second token') := by
  have current := states.current
  obtain ⟨⟨left₁, right₁, hasPipe, redirMode, redirPath₁⟩, needRedirPath⟩ := first
  obtain ⟨⟨left₂, right₂, hasPipe₂, redirMode₂, redirPath₂⟩, needRedirPath₂⟩ := second
  obtain ⟨left, right, rfl, rfl, redirPath, rfl⟩ := states
  cases tokens with
  | word words =>
      simp only [Shell.takeToken, current.length_eq]
      split
      · exact .some ⟨left, right, rfl, rfl, .some words, rfl⟩
      · split
        · exact .none
        · split
          · exact .none
          · split
            · exact .some ⟨left, List.rel_append right (.cons words .nil), rfl, rfl, redirPath, rfl⟩
            · exact .some ⟨List.rel_append left (.cons words .nil), right, rfl, rfl, redirPath, rfl⟩
  | pipe =>
      simp only [Shell.takeToken, nil_of_forall₂ current]
      split
      · exact .none
      · split
        · exact .none
        · exact .some ⟨left, right, rfl, rfl, redirPath, rfl⟩
  | redirTrunc =>
      simp only [Shell.takeToken]
      split
      · exact .none
      · split
        · exact .none
        · exact .some ⟨left, right, rfl, rfl, redirPath, rfl⟩
  | redirAppend =>
      simp only [Shell.takeToken]
      split
      · exact .none
      · split
        · exact .none
        · exact .some ⟨left, right, rfl, rfl, redirPath, rfl⟩
  | error => exact .none

end SameState

section Loop

variable {scan : Tokenizer} {pending : UInt8} {rest : List UInt8} {length rounds : ℕ}
  {found : List (ParseToken (List UInt8))} {state : ParseState ℕ}
  {state' : ParseState (List UInt8)}

/-- **The loop takes the tokens of the line**, one after the other. -/
theorem parseLoop_spec (lexes : Lexes pending rest found)
    (reads : Reads scan.buffer scan.cursor rest) (noNul : 0 ∉ rest)
    (whole : scan.cursor + rest.length = length) (waiting : scan.pending = pending)
    (enough : found.length < rounds) (states : SameState (Stored length scan) state state') :
    match found.foldlM takeToken state' with
    | none => parseLoop length rounds scan state = none
    | some final' => ∃ final buffer, parseLoop length rounds scan state = some (final, buffer) ∧
        SameState (fun start word => stringAt length buffer start = word) final final' := by
  induction lexes generalizing scan rounds state state' with
  | done ends =>
      obtain ⟨rounds, rfl⟩ := Nat.exists_eq_succ_of_ne_zero enough.ne_bot
      have step := parseNextToken_spec reads noNul (whole ▸ Nat.le_add_left _ _) whole
      rw [waiting, ends] at step
      obtain ⟨stops, advances⟩ := step
      rw [List.foldlM_nil]
      unfold parseLoop
      revert stops advances
      generalize parseNextToken length scan = out
      obtain ⟨token, scan'⟩ := out
      rintro rfl advances
      refine ⟨state, scan'.buffer, rfl, states.imp fun start word stored => ?_⟩
      have kept := stored.advance advances whole
      exact kept.reads.stringAt_eq kept.noNul kept.inside
  | @next pending pending' rest rest' token after step' later ih =>
      obtain ⟨rounds, rfl⟩ := Nat.exists_eq_succ_of_ne_zero enough.ne_bot
      have step := parseNextToken_spec reads noNul (whole ▸ Nat.le_add_left _ _) whole
      rw [waiting, step'] at step
      obtain ⟨advances, pends, token', answers, tokens⟩ := step
      have suffix := (lexStep_smaller step').2
      have noNul' : 0 ∉ rest' := fun member => noNul (suffix.subset member)
      rw [List.foldlM_cons]
      unfold parseLoop
      revert advances pends answers tokens
      generalize parseNextToken length scan = out
      obtain ⟨_, scan'⟩ := out
      rintro advances pends rfl tokens
      have states' : SameState (Stored length scan') state state' :=
        states.imp fun _ _ stored => stored.advance advances whole
      have taken := states'.takeToken tokens
      revert taken
      simp only
      generalize takeToken state token' = first
      generalize takeToken state' token = second
      intro taken
      cases taken with
      | none => rfl
      | some next =>
          exact ih advances.reads noNul' (advances.total.trans whole) pends
            (Nat.lt_of_succ_lt_succ enough) next

private theorem map_of_forall₂ {Word Word' : Type} {word : Word → Word'} {words : List Word}
    {words' : List Word'} (related : List.Forall₂ (fun first second => word first = second) words
      words') : words.map word = words' := by
  induction related with
  | nil => rfl
  | cons head _ ih => rw [List.map_cons, head, ih]

/-- The checks after the loop, on the words as strings. -/
private theorem finishParse_map {Word Word' : Type} {word : Word → Word'}
    {first : ParseState Word} {second : ParseState Word'}
    (states : SameState (fun start other => word start = other) first second) :
    (finishParse first).map (ParseResult.map word) = finishParse second := by
  obtain ⟨⟨left₁, right₁, hasPipe, redirMode, redirPath₁⟩, needRedirPath⟩ := first
  obtain ⟨⟨left₂, right₂, hasPipe₂, redirMode₂, redirPath₂⟩, needRedirPath₂⟩ := second
  obtain ⟨left, right, rfl, rfl, redirPath, rfl⟩ := states
  have path : redirPath₁.map word = redirPath₂ := by
    cases redirPath with
    | some words => exact congrArg some words
    | none => rfl
  simp only [finishParse, nil_of_forall₂ left, nil_of_forall₂ right]
  split
  · rfl
  · split
    · rfl
    · split
      · rfl
      · rw [Option.map_some, ParseResult.map, map_of_forall₂ left, map_of_forall₂ right, path]

/-- Parsing in place is taking the tokens of the line. -/
theorem shellParse_eq {line : CString} (lexes : Lexes 0 line.bytes found) :
    shellParseWithRedirection line = (found.foldlM takeToken .init).bind finishParse := by
  have start : SameState (Stored line.bytes.length ⟨fun k => line.bytes.getD k 0, 0, 0⟩)
      .init .init := ⟨.nil, .nil, rfl, rfl, .none, rfl⟩
  have spec := parseLoop_spec lexes (reads_line line.bytes) line.noNul (Nat.zero_add _) rfl
    (Nat.lt_succ_of_le lexes.length_le) start
  unfold shellParseWithRedirection
  simp only
  revert spec
  cases found.foldlM takeToken .init with
  | none =>
      intro fails
      change parseLoop _ (line.bytes.length + 1) _ _ = none at fails
      rw [fails]
      rfl
  | some final' =>
      rintro ⟨final, buffer, loops, states⟩
      change parseLoop _ (line.bytes.length + 1) _ _ = _ at loops
      rw [loops]
      exact finishParse_map states

end Loop

/-! ## The grammar -/

/-- What the loop keeps: commands that are not too long and a path that is missing
exactly while it is needed. -/
structure Partial {Word : Type} (state : ParseState Word) : Prop where
  left : state.out.left.length ≤ shellParseArgvCap
  right : state.out.right.length ≤ shellParseArgvCap
  unpiped : state.out.hasPipe = false → state.out.right = []
  needed : state.needRedirPath = true ↔
    state.out.redirMode ≠ .none ∧ state.out.redirPath = none
  undirected : state.out.redirMode = .none → state.out.redirPath = none

section Grammar

variable {Word : Type} {state final : ParseState Word} {token : ParseToken Word}
  {found : List (ParseToken Word)} {result : ParseResult Word}

/-- A redirection that is taken needs its path. -/
private theorem Partial.takeRedir {mode : RedirMode} (part : Partial state)
    (plain : state.out.redirMode = .none) (directed : mode ≠ .none)
    (single : redirTokens mode none = [token]) :
    Partial ⟨{ state.out with redirMode := mode }, true⟩ ∧
      ({ state.out with redirMode := mode } : ParseResult Word).tokens =
        state.out.tokens ++ [token] := by
  obtain ⟨leftShort, rightShort, unpiped, _, undirected⟩ := part
  have missing := undirected plain
  constructor
  · refine ⟨leftShort, rightShort, unpiped, ?_, fun none_ => absurd none_ directed⟩
    exact iff_of_true rfl ⟨directed, missing⟩
  · have before : redirTokens state.out.redirMode (none : Option Word) = [] := by
      rw [plain]
      rfl
    simp only [ParseResult.tokens, missing, single, before, List.append_nil]

/-- A token that is taken is the next one of the result. -/
theorem Partial.takeToken (part : Partial state) (taken : takeToken state token = some final) :
    Partial final ∧ final.out.tokens = state.out.tokens ++ [token] := by
  cases token with
  | word word =>
      obtain ⟨⟨left, right, hasPipe, redirMode, redirPath⟩, needRedirPath⟩ := state
      obtain ⟨leftShort, rightShort, unpiped, needed, undirected⟩ := part
      simp only at leftShort rightShort unpiped needed undirected
      simp only [Shell.takeToken, ParseState.current] at taken
      split at taken
      · rename_i need
        cases taken
        obtain ⟨directed, rfl⟩ := needed.mp need
        refine ⟨⟨leftShort, rightShort, unpiped, by simp, fun none => absurd none directed⟩, ?_⟩
        cases redirMode with
        | none => exact absurd rfl directed
        | trunc => simp [ParseResult.tokens, redirTokens]
        | append => simp [ParseResult.tokens, redirTokens]
      · rename_i enough
        split at taken
        · cases taken
        · rename_i plain
          obtain rfl := not_not.mp plain
          obtain rfl := undirected rfl
          cases hasPipe with
          | true =>
              simp only [↓reduceIte] at taken
              split at taken
              · cases taken
              · rename_i room
                cases taken
                refine ⟨⟨leftShort, ?_, fun no => (by cases no), needed, undirected⟩, ?_⟩
                · simp only [List.length_append, List.length_singleton]
                  omega
                · simp [ParseResult.tokens, redirTokens]
          | false =>
              simp only [Bool.false_eq_true, ↓reduceIte] at taken
              split at taken
              · cases taken
              · rename_i room
                cases taken
                refine ⟨⟨?_, rightShort, unpiped, needed, undirected⟩, ?_⟩
                · simp only [List.length_append, List.length_singleton]
                  omega
                · simp [ParseResult.tokens, redirTokens]
  | pipe =>
      obtain ⟨⟨left, right, hasPipe, redirMode, redirPath⟩, needRedirPath⟩ := state
      obtain ⟨leftShort, rightShort, unpiped, needed, undirected⟩ := part
      simp only at leftShort rightShort unpiped needed undirected
      simp only [Shell.takeToken] at taken
      split at taken
      · cases taken
      · split at taken
        · cases taken
        · rename_i free
          simp only [not_or, not_not, Bool.not_eq_true] at free
          obtain ⟨rfl, rfl, _⟩ := free
          cases taken
          obtain rfl := unpiped rfl
          obtain rfl := undirected rfl
          refine ⟨⟨leftShort, rightShort, fun no => (by cases no), needed, undirected⟩, ?_⟩
          simp [ParseResult.tokens, redirTokens]
  | redirTrunc =>
      simp only [Shell.takeToken] at taken
      split at taken
      · cases taken
      · split at taken
        · cases taken
        · rename_i plain
          cases taken
          exact part.takeRedir (not_not.mp plain) (by decide) rfl
  | redirAppend =>
      simp only [Shell.takeToken] at taken
      split at taken
      · cases taken
      · split at taken
        · cases taken
        · rename_i plain
          cases taken
          exact part.takeRedir (not_not.mp plain) (by decide) rfl
  | error => cases taken

theorem Partial.foldlM (part : Partial state)
    (taken : found.foldlM Shell.takeToken state = some final) :
    Partial final ∧ final.out.tokens = state.out.tokens ++ found := by
  induction found generalizing state with
  | nil =>
      cases taken
      exact ⟨part, (List.append_nil _).symm⟩
  | cons token found ih =>
      rw [List.foldlM_cons] at taken
      obtain ⟨next, first, rest⟩ := Option.bind_eq_some_iff.mp taken
      obtain ⟨part', tokens⟩ := part.takeToken first
      obtain ⟨part'', tokens'⟩ := ih part' rest
      refine ⟨part'', ?_⟩
      rw [tokens', tokens, List.append_assoc, List.singleton_append]

theorem partial_init : Partial (.init : ParseState Word) :=
  ⟨Nat.zero_le _, Nat.zero_le _, fun _ => rfl, by simp [ParseState.init], fun _ => rfl⟩

/-- What passes the checks after the loop is a result of the grammar. -/
theorem Partial.finishParse (part : Partial final) (finishes : finishParse final = some result) :
    result.WellFormed ∧ result = final.out := by
  obtain ⟨leftShort, rightShort, unpiped, needed, undirected⟩ := part
  unfold Shell.finishParse at finishes
  split at finishes
  · cases finishes
  · rename_i enough
    split at finishes
    · cases finishes
    · rename_i named
      split at finishes
      · cases finishes
      · rename_i piped
        cases finishes
        refine ⟨⟨⟨List.length_pos_iff.mpr named, leftShort⟩, ?_, ?_⟩, rfl⟩
        · split
          · rename_i pipe
            exact ⟨List.length_pos_iff.mpr fun empty => piped ⟨pipe, empty⟩, rightShort⟩
          · rename_i noPipe
            exact unpiped (Bool.not_eq_true _ ▸ noPipe)
        · constructor
          · intro missing
            by_contra directed
            exact enough (needed.mpr ⟨directed, missing⟩)
          · exact undirected

/-- The words of the left command are taken one after the other. -/
private theorem foldlM_left (words left : List Word)
    (short : left.length + words.length ≤ shellParseArgvCap) :
    (words.map ParseToken.word).foldlM takeToken ⟨⟨left, [], false, .none, none⟩, false⟩ =
      some ⟨⟨left ++ words, [], false, .none, none⟩, false⟩ := by
  induction words generalizing left with
  | nil => rw [List.append_nil]; rfl
  | cons word words ih =>
      rw [List.length_cons] at short
      have room : ¬ shellParseArgvCap ≤ left.length := by omega
      rw [List.map_cons, List.foldlM_cons]
      simp only [takeToken, ParseState.current, Bool.false_eq_true, ↓reduceIte, ne_eq,
        not_true_eq_false, room]
      have next := ih (left ++ [word])
        (by simp only [List.length_append, List.length_singleton]; omega)
      rw [List.append_assoc] at next
      exact next

/-- The words of the right command are taken one after the other. -/
private theorem foldlM_right (words left right : List Word)
    (short : right.length + words.length ≤ shellParseArgvCap) :
    (words.map ParseToken.word).foldlM takeToken ⟨⟨left, right, true, .none, none⟩, false⟩ =
      some ⟨⟨left, right ++ words, true, .none, none⟩, false⟩ := by
  induction words generalizing right with
  | nil => rw [List.append_nil]; rfl
  | cons word words ih =>
      rw [List.length_cons] at short
      have room : ¬ shellParseArgvCap ≤ right.length := by omega
      rw [List.map_cons, List.foldlM_cons]
      simp only [takeToken, ParseState.current, Bool.false_eq_true, ↓reduceIte, ne_eq,
        not_true_eq_false, room]
      have next := ih (right ++ [word])
        (by simp only [List.length_append, List.length_singleton]; omega)
      rw [List.append_assoc] at next
      exact next

/-- A redirection is taken after the commands. -/
private theorem foldlM_redir {left right : List Word} {hasPipe : Bool} (mode : RedirMode)
    (path : Option Word) (iff : path = none ↔ mode = .none) :
    (redirTokens mode path).foldlM takeToken ⟨⟨left, right, hasPipe, .none, none⟩, false⟩ =
      some ⟨⟨left, right, hasPipe, mode, path⟩, false⟩ := by
  cases mode with
  | none =>
      obtain rfl := iff.mpr rfl
      rfl
  | trunc =>
      cases path with
      | none => cases iff.mp rfl
      | some path => rfl
  | append =>
      cases path with
      | none => cases iff.mp rfl
      | some path => rfl

/-- **The loop accepts the grammar**: the tokens of each well-formed result, and no
others. -/
theorem accepts_iff : (found.foldlM takeToken .init).bind finishParse = some result ↔
    result.WellFormed ∧ result.tokens = found := by
  constructor
  · intro accepts
    obtain ⟨final, taken, finishes⟩ := Option.bind_eq_some_iff.mp accepts
    obtain ⟨part, tokens⟩ := partial_init.foldlM taken
    obtain ⟨wellFormed, rfl⟩ := part.finishParse finishes
    exact ⟨wellFormed, tokens⟩
  · rintro ⟨⟨⟨leftSome, leftShort⟩, rightFits, path⟩, rfl⟩
    obtain ⟨left, right, hasPipe, mode, redirPath⟩ := result
    simp only at leftSome leftShort rightFits path
    have named : left ≠ [] := List.length_pos_iff.mp leftSome
    have first := foldlM_left left [] ((Nat.zero_add _).trans_le leftShort)
    rw [List.nil_append] at first
    unfold ParseResult.tokens ParseState.init
    rw [List.foldlM_append, List.foldlM_append, first]
    cases hasPipe with
    | false =>
        rw [if_neg Bool.false_ne_true] at rightFits
        subst rightFits
        change ((redirTokens mode redirPath).foldlM takeToken
          ⟨⟨left, [], false, .none, none⟩, false⟩).bind finishParse = _
        rw [foldlM_redir mode redirPath path]
        simp [finishParse, named]
    | true =>
        rw [if_pos rfl] at rightFits
        have piped : right ≠ [] := List.length_pos_iff.mp rightFits.1
        have second := foldlM_right right left [] ((Nat.zero_add _).trans_le rightFits.2)
        rw [List.nil_append] at second
        have pipe : takeToken ⟨⟨left, [], false, .none, none⟩, false⟩ (.pipe : ParseToken Word) =
            some ⟨⟨left, [], true, .none, none⟩, false⟩ := by
          simp [takeToken, ParseState.current, named]
        change (((ParseToken.pipe :: right.map ParseToken.word).foldlM takeToken
          ⟨⟨left, [], false, .none, none⟩, false⟩).bind fun state =>
            (redirTokens mode redirPath).foldlM takeToken state).bind finishParse = _
        rw [List.foldlM_cons, pipe]
        change (((right.map ParseToken.word).foldlM takeToken
          ⟨⟨left, [], true, .none, none⟩, false⟩).bind fun state =>
            (redirTokens mode redirPath).foldlM takeToken state).bind finishParse = _
        rw [second, Option.bind_some, foldlM_redir mode redirPath path]
        simp [finishParse, named, piped]

end Grammar

end TigerOS.Shell
