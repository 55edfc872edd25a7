import TigerOS.Shell.Parsing

/-! # When the parser keeps to the grammar

The tokens cut out of a line are its tokens up to the first `>` that ends a word
and has only blanks between it and another `>`. A line with such a place is not in
the grammar; the parser takes the two for one `>>` and accepts it where one
redirection belongs (`TigerOS.Shell.parse_iff_grammar`).
-/

namespace TigerOS.Shell

open Foundation

/-! ## The tokens of a line by its beginning -/

section Tokens

variable {line rest word before after : List UInt8} {byte : UInt8} {mode : LexMode}

/-- The rest of a line that does not continue a word. -/
def EndsWord (rest : List UInt8) : Prop := ∀ byte, rest.head? = some byte → ¬ isWordByte byte

theorem tokens_blank (blank : isSpace byte) : tokens (byte :: rest) = tokens rest := by
  rw [tokens, tokensFrom, if_pos blank]
  · rfl
  · exact fun same => by cases same

theorem tokens_dropBlanks (rest : List UInt8) :
    tokens (rest.dropWhile fun ch => isSpace ch) = tokens rest := by
  induction rest with
  | nil => rfl
  | cons byte rest ih =>
      by_cases blank : isSpace byte
      · simp only [List.dropWhile_cons, blank, decide_true, ↓reduceIte, ih, tokens_blank blank]
      · simp only [List.dropWhile_cons, blank, decide_false, Bool.false_eq_true, ↓reduceIte]

theorem tokens_bar (rest : List UInt8) : tokens (bar :: rest) = .pipe :: tokens rest := rfl

theorem tokens_append (rest : List UInt8) :
    tokens (greater :: greater :: rest) = .redirAppend :: tokens rest := rfl

theorem tokens_trunc (single : rest.head? ≠ some greater) :
    tokens (greater :: rest) = .redirTrunc :: tokens rest := by
  have plain : ¬ isSpace greater := by decide
  have other : ¬ greater = bar := by decide
  rw [tokens, tokensFrom, if_neg plain, if_neg other, if_pos rfl, if_neg single]
  · rfl
  · exact fun same => by cases same

private theorem tokensFrom_inWord (ends : EndsWord rest) :
    tokensFrom .inWord rest = tokens rest := by
  cases rest with
  | nil => rfl
  | cons byte rest =>
      have outside : ¬ isWordByte byte := ends byte rfl
      rw [tokens, tokensFrom, tokensFrom]
      · by_cases blank : isSpace byte
        · rw [if_pos blank, if_pos blank]
        · rw [if_neg blank, if_neg blank]
          by_cases isBar : byte = bar
          · rw [if_pos isBar, if_pos isBar]
          · rw [if_neg isBar, if_neg isBar]
            have isGreater : byte = greater := by
              by_contra notGreater
              exact outside ⟨blank, isBar, notGreater⟩
            rw [if_pos isGreater, if_pos isGreater]
      · exact fun same => by cases same
      · exact fun same => by cases same

private theorem tokensFrom_inWord_append (word : List UInt8) (inside : ∀ ch ∈ word, isWordByte ch) :
    tokensFrom .inWord (word ++ rest) = tokensFrom .inWord rest := by
  induction word with
  | nil => rfl
  | cons byte word ih =>
      obtain ⟨blank, isBar, isGreater⟩ := inside byte List.mem_cons_self
      rw [List.cons_append, tokensFrom, if_neg blank, if_neg isBar, if_neg isGreater, if_pos rfl]
      · exact ih fun ch member => inside ch (List.mem_cons_of_mem _ member)
      · exact fun same => by cases same

theorem takeWhile_word (inside : ∀ ch ∈ word, isWordByte ch) (ends : EndsWord rest) :
    ((word ++ rest).takeWhile fun ch => isWordByte ch) = word := by
  have all : ∀ ch ∈ word, decide (isWordByte ch) = true :=
    fun ch member => decide_eq_true (inside ch member)
  rw [List.takeWhile_append_of_pos all]
  cases rest with
  | nil => exact List.append_nil _
  | cons byte rest =>
      have outside : ¬ isWordByte byte := ends byte rfl
      simp only [List.takeWhile_cons, outside, decide_false, Bool.false_eq_true, ↓reduceIte,
        List.append_nil]

theorem dropWhile_word (inside : ∀ ch ∈ word, isWordByte ch) (ends : EndsWord rest) :
    ((word ++ rest).dropWhile fun ch => isWordByte ch) = rest := by
  have parts := List.takeWhile_append_dropWhile (p := fun ch => decide (isWordByte ch))
    (l := word ++ rest)
  rw [takeWhile_word inside ends] at parts
  exact List.append_cancel_left parts

/-- A word at the start of a line is its first token. -/
theorem tokens_word (some_ : word ≠ []) (inside : ∀ ch ∈ word, isWordByte ch)
    (ends : EndsWord rest) : tokens (word ++ rest) = .word word :: tokens rest := by
  cases word with
  | nil => exact absurd rfl some_
  | cons byte word =>
      obtain ⟨blank, isBar, isGreater⟩ := inside byte List.mem_cons_self
      have inside' : ∀ ch ∈ word, isWordByte ch :=
        fun ch member => inside ch (List.mem_cons_of_mem _ member)
      rw [tokens, List.cons_append, tokensFrom, if_neg blank, if_neg isBar, if_neg isGreater,
        if_neg (fun same => by cases same), takeWhile_word inside' ends,
        tokensFrom_inWord_append word inside', tokensFrom_inWord ends]
      exact fun same => by cases same

/-- A line is nothing, or starts with a blank, an operator or a word. -/
theorem line_cases (line : List UInt8) : line = [] ∨
    (∃ byte rest, line = byte :: rest ∧ isSpace byte) ∨ (∃ rest, line = bar :: rest) ∨
    (∃ rest, line = greater :: rest) ∨
    ∃ word rest, line = word ++ rest ∧ word ≠ [] ∧ (∀ ch ∈ word, isWordByte ch) ∧
      EndsWord rest := by
  cases line with
  | nil => exact .inl rfl
  | cons byte more =>
      by_cases blank : isSpace byte
      · exact .inr (.inl ⟨byte, more, rfl, blank⟩)
      · by_cases isBar : byte = bar
        · exact .inr (.inr (.inl ⟨more, by rw [isBar]⟩))
        · by_cases isGreater : byte = greater
          · exact .inr (.inr (.inr (.inl ⟨more, by rw [isGreater]⟩)))
          · have inWord : isWordByte byte := ⟨blank, isBar, isGreater⟩
            refine .inr (.inr (.inr (.inr ⟨(byte :: more).takeWhile fun ch => isWordByte ch,
              (byte :: more).dropWhile fun ch => isWordByte ch,
              List.takeWhile_append_dropWhile.symm, ?_, ?_, ?_⟩)))
            · simp only [List.takeWhile_cons, inWord, decide_true, ↓reduceIte]
              exact List.cons_ne_nil _ _
            · intro ch member
              have holds := List.mem_takeWhile_imp member
              simpa using holds
            · intro stop first
              have outside := List.head?_dropWhile_not (fun ch => decide (isWordByte ch))
                (byte :: more)
              rw [first] at outside
              simpa using outside

/-- A line that ends inside a word. -/
def EndsInWord (line : List UInt8) : Prop := ∃ byte, line.getLast? = some byte ∧ isWordByte byte

theorem EndsInWord.of_append {first second : List UInt8} (ends : EndsInWord (first ++ second))
    (some_ : second ≠ []) : EndsInWord second := by
  obtain ⟨byte, last, inside⟩ := ends
  rw [List.getLast?_append_of_ne_nil _ some_] at last
  exact ⟨byte, last, inside⟩

theorem EndsInWord.append {second : List UInt8} (ends : EndsInWord second) (first : List UInt8) :
    EndsInWord (first ++ second) := by
  obtain ⟨byte, last, inside⟩ := ends
  refine ⟨byte, ?_, inside⟩
  rw [List.getLast?_append_of_ne_nil _ (by rintro rfl; cases last)]
  exact last

private theorem not_endsInWord_single (outside : ¬ isWordByte byte) : ¬ EndsInWord [byte] := by
  rintro ⟨last, same, inside⟩
  cases same
  exact outside inside

/-- The byte after a beginning that is not a word byte leaves more of it. -/
private theorem EndsInWord.tail (ends : EndsInWord (byte :: rest)) (outside : ¬ isWordByte byte) :
    EndsInWord rest := by
  refine @EndsInWord.of_append [byte] rest ends ?_
  rintro rfl
  exact not_endsInWord_single outside ends

theorem not_isWordByte_blank (blank : isSpace byte) : ¬ isWordByte byte :=
  fun inside => inside.1 blank

theorem not_isWordByte_bar : ¬ isWordByte bar := by decide

theorem not_isWordByte_greater : ¬ isWordByte greater := by decide

/-- The tokens up to the end of a word do not depend on an operator after it. -/
theorem tokens_split (ends : EndsInWord before) (tail : List UInt8) :
    tokens (before ++ greater :: tail) = tokens before ++ tokens (greater :: tail) := by
  induction size : before.length using Nat.strong_induction_on generalizing before with
  | _ size ih =>
      rcases line_cases before with rfl | ⟨byte, rest, rfl, blank⟩ | ⟨rest, rfl⟩ | ⟨rest, rfl⟩ |
        ⟨word, rest, rfl, some_, inside, stops⟩
      · obtain ⟨_, last, _⟩ := ends
        cases last
      · rw [List.cons_append, tokens_blank blank, tokens_blank blank]
        exact ih _ (size ▸ Nat.lt_succ_self _) (ends.tail (not_isWordByte_blank blank)) rfl
      · rw [List.cons_append, tokens_bar, tokens_bar,
          ih _ (size ▸ Nat.lt_succ_self _) (ends.tail not_isWordByte_bar) rfl]
        rfl
      · have later := ends.tail not_isWordByte_greater
        cases rest with
        | nil =>
            obtain ⟨_, last, _⟩ := later
            cases last
        | cons byte rest =>
            by_cases double : byte = greater
            · subst double
              rw [List.cons_append, List.cons_append, tokens_append, tokens_append,
                ih _ (size ▸ Nat.lt_succ_of_lt (Nat.lt_succ_self _))
                  (later.tail not_isWordByte_greater) rfl]
              rfl
            · have single : (byte :: rest).head? ≠ some greater := by simpa using double
              have single' : (byte :: rest ++ greater :: tail).head? ≠ some greater := by
                simpa using double
              rw [List.cons_append, tokens_trunc single', tokens_trunc single,
                ih _ (size ▸ Nat.lt_succ_self _) later rfl]
              rfl
      · rw [List.append_assoc]
        cases rest with
        | nil =>
            rw [List.append_nil, List.nil_append, tokens_word some_ inside
              (fun byte first => by cases first; exact not_isWordByte_greater)]
            have alone := @tokens_word [] word some_ inside (fun byte first => by cases first)
            rw [List.append_nil] at alone
            rw [alone]
            rfl
        | cons byte rest =>
            have later : EndsInWord (byte :: rest) := ends.of_append (List.cons_ne_nil _ _)
            have stops' : EndsWord (byte :: rest ++ greater :: tail) :=
              fun other first => stops other first
            rw [tokens_word some_ inside stops, tokens_word some_ inside stops',
              ih _ (by
                rw [← size, List.length_append]
                have positive := List.length_pos_iff.mpr some_
                omega) later rfl]
            rfl

end Tokens

/-! ## The tokens that are cut out -/

/-- The rest of a line with the operator before it. -/
def withPending (pending : UInt8) (rest : List UInt8) : List UInt8 :=
  if pending = 0 then rest else pending :: rest

/-- The first token of a line without blanks before it, as it is cut out. -/
inductive FirstToken : List UInt8 → ParseToken (List UInt8) → UInt8 → List UInt8 → Prop
  | pipe (rest : List UInt8) : FirstToken (bar :: rest) .pipe 0 rest
  | append (rest : List UInt8) : FirstToken (greater :: greater :: rest) .redirAppend 0 rest
  | trunc {rest : List UInt8} (single : rest.head? ≠ some greater) :
      FirstToken (greater :: rest) .redirTrunc 0 rest
  | last {word : List UInt8} (some_ : word ≠ []) (inside : ∀ ch ∈ word, isWordByte ch) :
      FirstToken word (.word word) 0 []
  | blank {word : List UInt8} {stop : UInt8} (rest : List UInt8) (some_ : word ≠ [])
      (inside : ∀ ch ∈ word, isWordByte ch) (stops : isSpace stop) :
      FirstToken (word ++ stop :: rest) (.word word) 0 rest
  | operator {word : List UInt8} {stop : UInt8} (rest : List UInt8) (some_ : word ≠ [])
      (inside : ∀ ch ∈ word, isWordByte ch) (stops : stop = bar ∨ stop = greater) :
      FirstToken (word ++ stop :: rest) (.word word) stop rest

section FirstToken

variable {line rest rest' : List UInt8} {token : ParseToken (List UInt8)}
  {pending pending' : UInt8}

private theorem dropBlanks_idem (rest : List UInt8) :
    ((rest.dropWhile fun ch => isSpace ch).dropWhile fun ch => isSpace ch) =
      rest.dropWhile fun ch => isSpace ch := by
  cases dropped : rest.dropWhile fun ch => isSpace ch with
  | nil => rfl
  | cons byte more =>
      have outside := List.head?_dropWhile_not (fun ch => decide (isSpace ch)) rest
      rw [dropped] at outside
      have plain : ¬ isSpace byte := by simpa using outside
      simp only [List.dropWhile_cons, plain, decide_false, Bool.false_eq_true, ↓reduceIte]

theorem lexStep_dropBlanks (pending : UInt8) (rest : List UInt8) :
    lexStep pending (rest.dropWhile fun ch => isSpace ch) = lexStep pending rest := by
  unfold lexStep
  rw [dropBlanks_idem]

/-- What is cut out with no operator pending. -/
theorem lexStep_first (step : lexStep 0 rest = some (token, pending', rest')) :
    FirstToken (rest.dropWhile fun ch => isSpace ch) token pending' rest' := by
  unfold lexStep at step
  revert step
  generalize same : (rest.dropWhile fun ch => isSpace ch) = line
  intro step
  have plain : ∀ byte more, line = byte :: more → ¬ isSpace byte := by
    rintro byte more rfl
    have outside := List.head?_dropWhile_not (fun ch => decide (isSpace ch)) rest
    rw [same] at outside
    simpa using outside
  rcases line_cases line with rfl | ⟨byte, more, rfl, blank⟩ | ⟨more, rfl⟩ | ⟨more, rfl⟩ |
    ⟨word, more, rfl, some_, inside, stops⟩
  · cases step
  · exact absurd blank (plain byte more rfl)
  · cases step
    exact .pipe _
  · have other : ¬ greater = bar := by decide
    simp only [ne_eq, not_true_eq_false, ↓reduceIte, if_neg other] at step
    split at step
    · rename_i double
      cases step
      obtain ⟨tail, rfl⟩ := List.head?_eq_some_iff.mp double
      exact .append tail
    · rename_i single
      cases step
      exact .trunc single
  · obtain ⟨byte, letters, rfl⟩ := List.exists_cons_of_ne_nil some_
    obtain ⟨_, isBar, isGreater⟩ := inside byte List.mem_cons_self
    have takes := takeWhile_word inside stops
    have drops := dropWhile_word inside stops
    rw [List.cons_append] at takes drops step
    simp only [ne_eq, not_true_eq_false, ↓reduceIte, if_neg isBar, if_neg isGreater, takes,
      drops] at step
    cases more with
    | nil =>
        cases step
        rw [List.append_nil]
        exact .last some_ inside
    | cons stop after =>
        have outside := stops stop rfl
        by_cases blank : isSpace stop
        · simp only [if_pos blank] at step
          cases step
          exact .blank _ some_ inside blank
        · simp only [if_neg blank] at step
          cases step
          refine .operator _ some_ inside ?_
          by_contra neither
          rw [not_or] at neither
          exact outside ⟨blank, neither.1, neither.2⟩

/-- The token cut out first is the first token of the line. -/
theorem FirstToken.tokens_eq (first : FirstToken line token pending' rest') :
    tokens line = token :: tokens (withPending pending' rest') := by
  cases first with
  | pipe => exact tokens_bar rest'
  | append => exact tokens_append rest'
  | trunc single => exact tokens_trunc single
  | last some_ inside =>
      have alone := @tokens_word [] line some_ inside (fun byte first => by cases first)
      rwa [List.append_nil] at alone
  | blank _ some_ inside stops =>
      rw [tokens_word some_ inside
        (fun byte first => by cases first; exact not_isWordByte_blank stops), tokens_blank stops]
      rfl
  | operator _ some_ inside stops =>
      have nonzero : pending' ≠ 0 := by rcases stops with rfl | rfl <;> decide
      rw [tokens_word some_ inside (fun byte first => by
        cases first
        rcases stops with rfl | rfl
        · exact not_isWordByte_bar
        · exact not_isWordByte_greater), withPending, if_neg nonzero]

/-- What a token takes off the line ends in a word where a `>` stays pending. -/
theorem FirstToken.consumed (first : FirstToken line token pending' rest') :
    (pending' = 0 ∨ pending' = bar ∨ pending' = greater) ∧
      ∃ taken, line = taken ++ withPending pending' rest' ∧
        (pending' = greater → EndsInWord taken) := by
  cases first with
  | pipe => exact ⟨.inl rfl, [bar], rfl, fun same => by cases same⟩
  | append => exact ⟨.inl rfl, [greater, greater], rfl, fun same => by cases same⟩
  | trunc _ => exact ⟨.inl rfl, [greater], rfl, fun same => by cases same⟩
  | last _ _ => exact ⟨.inl rfl, line, (List.append_nil _).symm, fun same => by cases same⟩
  | @blank word stop _ _ _ _ =>
      exact ⟨.inl rfl, word ++ [stop], by simp [withPending], fun same => by cases same⟩
  | @operator word _ _ some_ inside stops =>
      have nonzero : pending' ≠ 0 := by rcases stops with rfl | rfl <;> decide
      refine ⟨.inr stops, word, by rw [withPending, if_neg nonzero], fun _ => ?_⟩
      exact ⟨word.getLast some_, List.getLast?_eq_some_getLast some_,
        inside _ (List.getLast_mem some_)⟩

/-- A word is cut out with the byte that ends it. -/
theorem lexStep_word {word : List UInt8} {stop : UInt8} (some_ : word ≠ [])
    (inside : ∀ ch ∈ word, isWordByte ch) (stops : ¬ isWordByte stop) :
    lexStep 0 (word ++ stop :: rest) =
      some (.word word, if isSpace stop then 0 else stop, rest) := by
  have ends : EndsWord (stop :: rest) := fun byte first => by cases first; exact stops
  have takes := takeWhile_word inside ends
  have drops := dropWhile_word inside ends
  obtain ⟨byte, letters, rfl⟩ := List.exists_cons_of_ne_nil some_
  obtain ⟨blank, isBar, isGreater⟩ := inside byte List.mem_cons_self
  rw [List.cons_append] at takes drops ⊢
  unfold lexStep
  simp only [ne_eq, not_true_eq_false, ↓reduceIte, List.dropWhile_cons, blank, decide_false,
    Bool.false_eq_true, if_neg isBar, if_neg isGreater]
  simp only [List.dropWhile_cons] at drops
  rw [takes, drops]

/-- Nothing is cut out only where nothing but blanks is left. -/
theorem tokens_of_lexStep_none (ends : lexStep 0 rest = none) : tokens rest = [] := by
  rw [← tokens_dropBlanks]
  unfold lexStep at ends
  revert ends
  generalize (rest.dropWhile fun ch => isSpace ch) = line
  intro ends
  cases line with
  | nil => rfl
  | cons byte more =>
      simp only [ne_eq, not_true_eq_false, ↓reduceIte] at ends
      split at ends
      · cases ends
      · split at ends
        · split at ends <;> cases ends
        · split at ends <;> cases ends

/-- With a pipe pending, blanks are passed. -/
theorem lexStep_bar (rest : List UInt8) :
    lexStep bar rest = some (.pipe, 0, rest.dropWhile fun ch => isSpace ch) := rfl

/-- With a `>` pending, blanks are passed before the next byte is looked at. -/
theorem lexStep_greater (rest : List UInt8) :
    lexStep greater rest =
      if (rest.dropWhile fun ch => isSpace ch).head? = some greater then
        some (.redirAppend, 0, (rest.dropWhile fun ch => isSpace ch).tail)
      else some (.redirTrunc, 0, rest.dropWhile fun ch => isSpace ch) := rfl

end FirstToken

/-- A line with two `>` that only blanks stand between. -/
structure Apart (line before blanks after : List UInt8) : Prop where
  whole : line = before ++ greater :: (blanks ++ greater :: after)
  some_ : blanks ≠ []
  blank : ∀ ch ∈ blanks, isSpace ch

section Apart

variable {line line' taken before blanks after rest pre post : List UInt8} {pending : UInt8}
  {token : ParseToken (List UInt8)} {found : List (ParseToken (List UInt8))}

theorem dropWhile_blanks (blank : ∀ ch ∈ blanks, isSpace ch) :
    ((blanks ++ greater :: after).dropWhile fun ch => isSpace ch) = greater :: after := by
  have all : ∀ ch ∈ blanks, decide (isSpace ch) = true :=
    fun ch member => decide_eq_true (blank ch member)
  rw [List.dropWhile_append_of_pos all]
  rfl

/-- Two `>` with blanks between them are two tokens. -/
theorem tokens_apart (some_ : blanks ≠ []) (blank : ∀ ch ∈ blanks, isSpace ch) :
    tokens (greater :: (blanks ++ greater :: after)) =
      .redirTrunc :: tokens (greater :: after) := by
  have single : (blanks ++ greater :: after).head? ≠ some greater := by
    obtain ⟨byte, more, rfl⟩ := List.exists_cons_of_ne_nil some_
    intro same
    cases same
    exact absurd (blank greater List.mem_cons_self) (by decide)
  have passed := tokens_dropBlanks (blanks ++ greater :: after)
  rw [dropWhile_blanks blank] at passed
  rw [tokens_trunc single, passed]

/-- The tokens of a line in which two `>` stand apart. -/
theorem Apart.tokens_eq (apart : Apart line before blanks after)
    (ends : EndsInWord before ∨ before = []) :
    tokens line = tokens before ++ .redirTrunc :: tokens (greater :: after) := by
  obtain ⟨rfl, some_, blank⟩ := apart
  rcases ends with ends | rfl
  · rw [tokens_split ends, tokens_apart some_ blank]
  · rw [List.nil_append, tokens_apart some_ blank]
    rfl

/-- What is cut out of a line in which the first two `>` that stand apart are taken
for one. -/
def Merges (pending : UInt8) (rest : List UInt8) (found : List (ParseToken (List UInt8))) : Prop :=
  ∃ before blanks after later, Apart (withPending pending rest) before blanks after ∧
    (EndsInWord before ∨ before = [] ∧ pending = greater) ∧ Lexes 0 after later ∧
      found = tokens before ++ .redirAppend :: later

/-- Tokens before a line leave its place where two `>` are merged. -/
private theorem Merges.extend {pending' : UInt8} {rest' : List UInt8}
    (whole : withPending pending rest = taken ++ withPending pending' rest')
    (first : tokens (withPending pending rest) = token :: tokens (withPending pending' rest'))
    (ends : pending' = greater → EndsInWord taken) (merges : Merges pending' rest' found) :
    Merges pending rest (token :: found) := by
  obtain ⟨before, blanks, after, later, apart, inWord, lexes, rfl⟩ := merges
  have inWord' : EndsInWord (taken ++ before) := by
    rcases inWord with inWord | ⟨rfl, same⟩
    · exact inWord.append taken
    · rw [List.append_nil]
      exact ends same
  have apart' : Apart (withPending pending rest) (taken ++ before) blanks after :=
    ⟨by rw [whole, apart.whole, List.append_assoc], apart.some_, apart.blank⟩
  refine ⟨taken ++ before, blanks, after, later, apart', .inl inWord', lexes, ?_⟩
  have here := apart'.tokens_eq (.inl inWord')
  rw [first, apart.tokens_eq (inWord.imp_right And.left), ← List.cons_append] at here
  rw [← List.append_cancel_right here, List.cons_append]

/-- **What is cut out of a line** are its tokens, unless two `>` are merged. -/
theorem Lexes.tokens_or (lexes : Lexes pending rest found)
    (operator : pending = 0 ∨ pending = bar ∨ pending = greater) :
    found = tokens (withPending pending rest) ∨ Merges pending rest found := by
  induction lexes with
  | @done pending rest ends =>
      left
      rcases operator with rfl | rfl | rfl
      · exact (tokens_of_lexStep_none ends).symm
      · rw [lexStep_bar] at ends
        cases ends
      · rw [lexStep_greater] at ends
        split at ends <;> cases ends
  | @next pending pending' rest rest' token later step lexes ih =>
      have blanks := List.takeWhile_append_dropWhile (p := fun ch => decide (isSpace ch))
        (l := rest)
      rcases operator with rfl | rfl | rfl
      · have first := lexStep_first step
        obtain ⟨operator', taken, whole, ends⟩ := first.consumed
        have tokensEq := first.tokens_eq
        rw [tokens_dropBlanks] at tokensEq
        rcases ih operator' with rfl | merges
        · exact .inl tokensEq.symm
        · refine .inr (merges.extend ?_ tokensEq fun same => (ends same).append
            (rest.takeWhile fun ch => isSpace ch))
          rw [List.append_assoc, ← whole, blanks]
          rfl
      · rw [lexStep_bar] at step
        cases step
        have tokensEq : tokens (withPending bar rest) =
            .pipe :: tokens (withPending 0 (rest.dropWhile fun ch => isSpace ch)) := by
          change tokens (bar :: rest) = .pipe :: tokens (rest.dropWhile fun ch => isSpace ch)
          rw [tokens_bar, tokens_dropBlanks]
        rcases ih (.inl rfl) with rfl | merges
        · exact .inl tokensEq.symm
        · have whole : withPending bar rest =
              (bar :: rest.takeWhile fun ch => isSpace ch) ++
                withPending 0 (rest.dropWhile fun ch => isSpace ch) := by
            change bar :: rest = bar :: _ ++ _
            rw [List.cons_append]
            exact congrArg _ blanks.symm
          exact .inr (merges.extend whole tokensEq fun same => by cases same)
      · rw [lexStep_greater] at step
        split at step
        · rename_i double
          obtain ⟨after, dropped⟩ := List.head?_eq_some_iff.mp double
          cases step
          rw [dropped, List.tail_cons] at ih lexes
          rw [dropped] at blanks
          cases before : rest.takeWhile fun ch => isSpace ch with
          | nil =>
              rw [before, List.nil_append] at blanks
              subst blanks
              have whole : withPending greater (greater :: after) =
                  [greater, greater] ++ withPending 0 after := rfl
              have tokensEq : tokens (withPending greater (greater :: after)) =
                  .redirAppend :: tokens (withPending 0 after) := tokens_append after
              rcases ih (.inl rfl) with rfl | merges
              · exact .inl tokensEq.symm
              · exact .inr (merges.extend whole tokensEq fun same => by cases same)
          | cons byte more =>
              rw [before] at blanks
              refine .inr ⟨[], byte :: more, after, later, ⟨?_, List.cons_ne_nil _ _, ?_⟩,
                .inr ⟨rfl, rfl⟩, lexes, rfl⟩
              · rw [← blanks]
                rfl
              · intro ch member
                rw [← before] at member
                have holds := List.mem_takeWhile_imp member
                simpa using holds
        · rename_i single
          cases step
          have single' : rest.head? ≠ some greater := by
            intro same
            obtain ⟨more, rfl⟩ := List.head?_eq_some_iff.mp same
            exact single rfl
          have whole : withPending greater rest =
            (greater :: rest.takeWhile fun ch => isSpace ch) ++
              withPending 0 (rest.dropWhile fun ch => isSpace ch) := by
            change greater :: rest = greater :: _ ++ _
            rw [List.cons_append]
            exact congrArg _ blanks.symm
          have tokensEq : tokens (withPending greater rest) =
              .redirTrunc :: tokens (withPending 0 (rest.dropWhile fun ch => isSpace ch)) := by
            change tokens (greater :: rest) =
              .redirTrunc :: tokens (rest.dropWhile fun ch => isSpace ch)
            rw [tokens_trunc single', tokens_dropBlanks]
          rcases ih (.inl rfl) with rfl | merges
          · exact .inl tokensEq.symm
          · exact .inr (merges.extend whole tokensEq fun same => by cases same)

private theorem tokens_greater_ne_nil (tail : List UInt8) : tokens (greater :: tail) ≠ [] := by
  by_cases double : tail.head? = some greater
  · obtain ⟨more, rfl⟩ := List.head?_eq_some_iff.mp double
    rw [tokens_append]
    exact List.cons_ne_nil _ _
  · rw [tokens_trunc double]
    exact List.cons_ne_nil _ _

private theorem dropBlanks_split (ends : EndsInWord pre) (tail : List UInt8) :
    ((pre ++ greater :: tail).dropWhile fun ch => isSpace ch) =
        (pre.dropWhile fun ch => isSpace ch) ++ greater :: tail ∧
      EndsInWord (pre.dropWhile fun ch => isSpace ch) := by
  have parts := List.takeWhile_append_dropWhile (p := fun ch => decide (isSpace ch)) (l := pre)
  have some_ : (pre.dropWhile fun ch => isSpace ch) ≠ [] := by
    intro none
    obtain ⟨byte, last, inside⟩ := ends
    have member := List.mem_of_getLast? last
    exact inside.1 (of_decide_eq_true (List.dropWhile_eq_nil_iff.mp none byte member))
  refine ⟨?_, ?_⟩
  · rw [List.dropWhile_append, if_neg]
    rw [List.isEmpty_iff]
    exact some_
  · rw [← parts] at ends
    exact ends.of_append some_

/-- What is cut out up to a word that a `>` ends. -/
theorem Lexes.split {tail : List UInt8} (lexes : Lexes pending rest found)
    (operator : pending = 0 ∨ pending = bar) (whole : rest = pre ++ greater :: tail)
    (ends : EndsInWord pre) (plain : greater ∉ pre) :
    ∃ later, Lexes greater tail later ∧ found = tokens (withPending pending pre) ++ later := by
  induction lexes generalizing pre with
  | @done pending rest stops =>
      rcases operator with rfl | rfl
      · have nothing := tokens_of_lexStep_none stops
        rw [whole, tokens_split ends] at nothing
        exact absurd (List.append_eq_nil_iff.mp nothing).2 (tokens_greater_ne_nil tail)
      · rw [lexStep_bar] at stops
        cases stops
  | @next pending pending' rest rest' token later step lexes ih =>
      subst whole
      obtain ⟨dropped, ends'⟩ := dropBlanks_split ends tail
      have plain' : greater ∉ pre.dropWhile fun ch => isSpace ch :=
        fun member => plain (List.dropWhile_subset _ member)
      rcases operator with rfl | rfl
      · rw [← lexStep_dropBlanks, dropped] at step
        change ∃ later', Lexes greater tail later' ∧ token :: later = tokens pre ++ later'
        rw [← tokens_dropBlanks pre]
        have noBlank : ∀ byte more, (pre.dropWhile fun ch => isSpace ch) = byte :: more →
            ¬ isSpace byte := by
          intro byte more same
          have outside := List.head?_dropWhile_not (fun ch => decide (isSpace ch)) pre
          rw [same] at outside
          simpa using outside
        revert ends' plain' step noBlank
        generalize (pre.dropWhile fun ch => isSpace ch) = line
        intro ends' plain' step noBlank
        rcases line_cases line with rfl | ⟨byte, more, rfl, blank⟩ | ⟨more, rfl⟩ | ⟨more, rfl⟩ |
          ⟨word, more, rfl, some_, inside, stops⟩
        · obtain ⟨_, last, _⟩ := ends'
          cases last
        · exact absurd blank (noBlank byte more rfl)
        · cases step
          obtain ⟨later', lexes', rfl⟩ := ih (.inl rfl) rfl (ends'.tail not_isWordByte_bar)
            fun member => plain' (List.mem_cons_of_mem _ member)
          exact ⟨later', lexes', rfl⟩
        · exact absurd List.mem_cons_self plain'
        · cases more with
          | nil =>
              rw [List.append_nil] at ends' ⊢
              rw [List.append_nil, lexStep_word some_ inside not_isWordByte_greater] at step
              cases step
              have alone := @tokens_word [] word some_ inside (fun byte first => by cases first)
              rw [List.append_nil] at alone
              exact ⟨later, lexes, by rw [alone]; rfl⟩
          | cons stop more =>
              have outside := stops stop rfl
              have after : EndsInWord more :=
                (ends'.of_append (List.cons_ne_nil _ _)).tail outside
              have plainMore : greater ∉ more := fun member =>
                plain' (List.mem_append_right _ (List.mem_cons_of_mem _ member))
              rw [List.append_assoc, List.cons_append, lexStep_word some_ inside outside] at step
              rw [tokens_word some_ inside stops]
              cases step
              by_cases blank : isSpace stop
              · rw [if_pos blank] at ih
                obtain ⟨later', lexes', rfl⟩ := ih (.inl rfl) rfl after plainMore
                exact ⟨later', lexes', by rw [tokens_blank blank]; rfl⟩
              · have isBar : stop = bar := by
                  by_contra notBar
                  refine outside ⟨blank, notBar, fun same => plain' ?_⟩
                  exact List.mem_append_right _ (same ▸ List.mem_cons_self)
                subst isBar
                rw [if_neg blank] at ih
                obtain ⟨later', lexes', rfl⟩ := ih (.inr rfl) rfl after plainMore
                exact ⟨later', lexes', rfl⟩
      · rw [lexStep_bar] at step
        cases step
        obtain ⟨later', lexes', rfl⟩ := ih (.inl rfl) dropped ends' plain'
        refine ⟨later', lexes', ?_⟩
        change _ = tokens (bar :: pre) ++ later'
        rw [tokens_bar, ← tokens_dropBlanks pre]
        rfl

end Apart

/-! ## Acceptance -/

/-- A token that redirects. -/
def IsRedir {Word : Type} (token : ParseToken Word) : Prop :=
  token = .redirTrunc ∨ token = .redirAppend

/-- A line whose only redirection is written as two `>` with blanks between them, the
first of which ends a word. -/
def Detached (line : List UInt8) : Prop :=
  ∃ before blanks after, Apart line before blanks after ∧ EndsInWord before ∧
    (∃ result : ParseResult (List UInt8), result.WellFormed ∧ result.redirMode = .none ∧
      result.tokens = tokens before) ∧
    ∃ path, tokens after = [.word path]

section Acceptance

variable {Word : Type} {result : ParseResult Word} {first second : List (ParseToken Word)}
  {token : ParseToken Word} {line before blanks after : List UInt8}

theorem redir_of_greater (member : greater ∈ line) : ∃ token ∈ tokens line, IsRedir token := by
  induction size : line.length using Nat.strong_induction_on generalizing line with
  | _ size ih =>
      rcases line_cases line with rfl | ⟨byte, rest, rfl, blank⟩ | ⟨rest, rfl⟩ | ⟨rest, rfl⟩ |
        ⟨word, rest, rfl, some_, inside, stops⟩
      · cases member
      · rcases List.mem_cons.mp member with same | later
        · rw [← same] at blank
          exact absurd blank (by decide)
        · rw [tokens_blank blank]
          exact ih _ (size ▸ Nat.lt_succ_self _) later rfl
      · rcases List.mem_cons.mp member with same | later
        · cases same
        · obtain ⟨token, inside, redir⟩ := ih _ (size ▸ Nat.lt_succ_self _) later rfl
          exact ⟨token, List.mem_cons_of_mem _ inside, redir⟩
      · by_cases double : rest.head? = some greater
        · obtain ⟨more, rfl⟩ := List.head?_eq_some_iff.mp double
          exact ⟨_, List.mem_cons_self, .inr rfl⟩
        · rw [tokens_trunc double]
          exact ⟨_, List.mem_cons_self, .inl rfl⟩
      · rcases List.mem_append.mp member with within | later
        · exact absurd (inside greater within) not_isWordByte_greater
        · rw [tokens_word some_ inside stops]
          obtain ⟨token, there, redir⟩ := ih _ (by
            rw [← size, List.length_append]
            have positive := List.length_pos_iff.mpr some_
            omega) later rfl
          exact ⟨token, List.mem_cons_of_mem _ there, redir⟩

/-- The commands of a result, without its redirection. -/
def ParseResult.commands (result : ParseResult Word) : ParseResult Word :=
  { result with redirMode := .none, redirPath := none }

theorem tokens_eq_commands (result : ParseResult Word) :
    result.tokens = result.commands.tokens ++ redirTokens result.redirMode result.redirPath := by
  have plain : result.commands.tokens = result.left.map .word ++
      (if result.hasPipe = true then .pipe :: result.right.map .word else []) :=
    List.append_nil _
  rw [plain, ParseResult.tokens]

theorem ParseResult.WellFormed.commands (wellFormed : result.WellFormed) :
    result.commands.WellFormed :=
  ⟨wellFormed.left, wellFormed.right, iff_of_true rfl rfl⟩

theorem not_isRedir_commands (result : ParseResult Word) (plain : result.redirMode = .none) :
    ∀ token ∈ result.tokens, ¬ IsRedir token := by
  intro token member redir
  simp only [ParseResult.tokens, plain, redirTokens, List.append_nil, List.mem_append,
    List.mem_map] at member
  rcases member with ⟨word, _, rfl⟩ | piped
  · rcases redir with same | same <;> cases same
  · split at piped
    · rcases List.mem_cons.mp piped with rfl | later
      · rcases redir with same | same <;> cases same
      · obtain ⟨word, _, rfl⟩ := List.mem_map.mp later
        rcases redir with same | same <;> cases same
    · cases piped

/-- The first redirection of a result is its only one. -/
theorem redir_split (tokens : result.tokens = first ++ token :: second) (redir : IsRedir token) :
    result.commands.tokens = first ∧
      redirTokens result.redirMode result.redirPath = token :: second := by
  have plain := not_isRedir_commands result.commands rfl
  rw [tokens_eq_commands] at tokens
  rcases List.append_eq_append_iff.mp tokens with ⟨more, rfl, same⟩ | ⟨more, same, rest⟩
  · cases more with
    | nil =>
        rw [List.append_nil]
        exact ⟨rfl, same⟩
    | cons head more =>
        -- the redirection would begin before the token, so that the token were a word
        have heads : token ∈ (redirTokens result.redirMode result.redirPath).tail := by
          rw [same]
          simp
        revert heads
        rcases redir with rfl | rfl
        · cases result.redirMode <;> cases result.redirPath <;> simp [redirTokens]
        · cases result.redirMode <;> cases result.redirPath <;> simp [redirTokens]
  · cases more with
    | nil =>
        rw [List.append_nil] at same
        exact ⟨same, rest.symm⟩
    | cons head more =>
        cases rest
        exact absurd redir (plain _ (same ▸ List.mem_append_right _ List.mem_cons_self))

/-- No result has two redirections. -/
theorem not_tokens_two {token' : ParseToken Word} (redir : IsRedir token) (redir' : IsRedir token')
    (tokens : result.tokens = first ++ token :: token' :: second) : False := by
  have same := (redir_split tokens redir).2
  have heads : token' ∈ (redirTokens result.redirMode result.redirPath).tail := by
    rw [same]
    exact List.mem_cons_self
  revert heads
  rcases redir' with rfl | rfl
  · cases result.redirMode <;> cases result.redirPath <;> simp [redirTokens]
  · cases result.redirMode <;> cases result.redirPath <;> simp [redirTokens]

/-- A line in which two `>` stand apart is not in the grammar. -/
theorem not_grammar_of_apart {result : ParseResult (List UInt8)}
    (apart : Apart line before blanks after) (ends : EndsInWord before) :
    result.tokens ≠ tokens line := by
  intro same
  rw [apart.tokens_eq (.inl ends)] at same
  by_cases double : after.head? = some greater
  · obtain ⟨more, rfl⟩ := List.head?_eq_some_iff.mp double
    rw [tokens_append] at same
    exact not_tokens_two (.inl rfl) (.inr rfl) same
  · rw [tokens_trunc double] at same
    exact not_tokens_two (.inl rfl) (.inl rfl) same

/-- What is cut out of a rest with one word are its tokens. -/
theorem Lexes.single {found : List (ParseToken (List UInt8))} {path : List UInt8}
    (lexes : Lexes 0 after found) : found = [.word path] ↔ tokens after = [.word path] := by
  rcases lexes.tokens_or (.inl rfl) with rfl | ⟨before, blanks, after', later, apart, ends, _, rfl⟩
  · exact Iff.rfl
  · have ends' : EndsInWord before := by
      rcases ends with ends | ⟨_, same⟩
      · exact ends
      · cases same
    have whole : tokens after = tokens before ++ .redirTrunc :: tokens (greater :: after') :=
      apart.tokens_eq (.inl ends')
    rw [whole]
    have apart_ (token : ParseToken (List UInt8)) (rest : List (ParseToken (List UInt8)))
        (redir : IsRedir token) : tokens before ++ token :: rest ≠ [.word path] := by
      intro same
      have member : token ∈ [ParseToken.word path] := by
        rw [← same]
        simp
      obtain rfl := List.mem_singleton.mp member
      rcases redir with same | same <;> cases same
    exact iff_of_false (apart_ _ _ (.inr rfl)) (apart_ _ _ (.inl rfl))

end Acceptance

/-! ## The parser -/

/-- A line with the tokens of a well-formed result is parsed into that result. -/
theorem parse_of_grammar {line : CString} {result : ParseResult (List UInt8)}
    (wellFormed : result.WellFormed) (grammar : result.tokens = tokens line.bytes) :
    shellParseWithRedirection line = some result := by
  obtain ⟨found, lexes⟩ := exists_lexes 0 line.bytes
  rw [shellParse_eq lexes, accepts_iff]
  rcases lexes.tokens_or (.inl rfl) with rfl | ⟨before, blanks, after, later, apart, inWord, _, _⟩
  · exact ⟨wellFormed, grammar⟩
  · have ends : EndsInWord before := by
      rcases inWord with ends | ⟨_, zero⟩
      · exact ends
      · cases zero
    exact absurd grammar (not_grammar_of_apart apart ends)

/-- **The parser accepts exactly its grammar**, and answers the words as they are
written, but for the lines whose one redirection is written as two `>` apart. -/
theorem parse_iff_grammar (line : CString) :
    (∀ result, shellParseWithRedirection line = some result ↔
      result.WellFormed ∧ result.tokens = tokens line.bytes) ↔ ¬ Detached line.bytes := by
  obtain ⟨found, lexes⟩ := exists_lexes 0 line.bytes
  simp only [shellParse_eq lexes, accepts_iff]
  constructor
  · rintro keeps ⟨before, blanks, after, apart, ends, ⟨result, wellFormed, mode, commands⟩, path,
      single⟩
    have plain : greater ∉ before := by
      intro member
      obtain ⟨token, inside, redir⟩ := redir_of_greater member
      rw [← commands] at inside
      exact not_isRedir_commands result mode token inside redir
    obtain ⟨later, lexes', rfl⟩ := lexes.split (.inl rfl) apart.whole ends plain
    cases lexes' with
    | done stops =>
        rw [lexStep_greater] at stops
        split at stops <;> cases stops
    | next step lexes' =>
        rw [lexStep_greater, dropWhile_blanks apart.blank, List.head?_cons, if_pos rfl] at step
        cases step
        obtain rfl := lexes'.single.mpr single
        have accepted := keeps { result with redirMode := .append, redirPath := some path }
        have tokensEq : ({ result with redirMode := .append, redirPath := some path } :
            ParseResult (List UInt8)).tokens = tokens before ++ [.redirAppend, .word path] := by
          rw [← commands, tokens_eq_commands, tokens_eq_commands result, mode]
          rw [redirTokens, List.append_nil]
          rfl
        have well : ({ result with redirMode := .append, redirPath := some path } :
            ParseResult (List UInt8)).WellFormed :=
          ⟨wellFormed.left, wellFormed.right, by simp⟩
        exact not_grammar_of_apart apart ends (accepted.mp ⟨well, tokensEq⟩).2
  · intro attached result
    rcases lexes.tokens_or (.inl rfl) with
      same | ⟨before, blanks, after, later, apart, inWord, lexes', same⟩
    · rw [same]
      rfl
    · have ends : EndsInWord before := by
        rcases inWord with ends | ⟨_, zero⟩
        · exact ends
        · cases zero
      refine iff_of_false ?_ fun grammar => not_grammar_of_apart apart ends grammar.2
      rintro ⟨wellFormed, tokensEq⟩
      rw [same] at tokensEq
      obtain ⟨commands, redirs⟩ := redir_split tokensEq (.inr rfl)
      refine attached ⟨before, blanks, after, apart, ends,
        ⟨result.commands, wellFormed.commands, rfl, commands⟩, ?_⟩
      have path := wellFormed.path
      revert redirs path
      cases result.redirMode with
      | none => exact fun redirs => by cases redirs
      | trunc => exact fun redirs => by cases redirs
      | append =>
          cases result.redirPath with
          | none => exact fun _ path => by cases path.mp rfl
          | some path =>
              intro redirs _
              have single : later = [.word path] := (List.cons.inj redirs).2.symm
              exact ⟨path, lexes'.single.mp single⟩

/-- Two `>` apart are taken for an appending redirection. -/
theorem parse_detached : ¬ ∀ (line : CString) (result : ParseResult (List UInt8)),
    shellParseWithRedirection line = some result ↔
      result.WellFormed ∧ result.tokens = tokens line.bytes := by
  intro always
  have accepted : shellParseWithRedirection (CString.of (ascii "echo a> > /f")) =
      some ⟨[ascii "echo", ascii "a"], [], false, .append, some (ascii "/f")⟩ := by
    decide +kernel
  have grammar := ((always _ _).mp accepted).2
  revert grammar
  decide +kernel

end TigerOS.Shell
