import TigerOS.Shell.Grammar

/-! # Writing a parsed line

A result is written as its tokens with a blank after each. The parser answers
exactly the well-formed results whose words are not empty and hold neither blanks
nor operators, and it reads each of them back from what is written
(`TigerOS.Shell.parse_print`).
-/

namespace TigerOS.Shell

open Foundation

/-- What a word can be: some bytes, neither blanks nor operators nor NUL. -/
def IsWord (word : List UInt8) : Prop := word ≠ [] ∧ (∀ ch ∈ word, isWordByte ch) ∧ 0 ∉ word

/-- A token as it is written. -/
def spell : ParseToken (List UInt8) → List UInt8
  | .word word => word
  | .pipe => [bar]
  | .redirTrunc => [greater]
  | .redirAppend => [greater, greater]
  | .error => []

/-- Tokens as they are written, with a blank after each. -/
def spellTokens (found : List (ParseToken (List UInt8))) : List UInt8 :=
  found.flatMap fun token => spell token ++ [space]

/-- A result as it is written. -/
def ParseResult.print (result : ParseResult (List UInt8)) : List UInt8 := spellTokens result.tokens

/-- A token that a line can have. -/
def IsToken : ParseToken (List UInt8) → Prop
  | .word word => IsWord word
  | .pipe | .redirTrunc | .redirAppend => True
  | .error => False

section Spelling

variable {token : ParseToken (List UInt8)} {found : List (ParseToken (List UInt8))}
  {pending pending' : UInt8} {line rest rest' : List UInt8}

/-- A token is read back before a blank. -/
theorem tokens_spell (legal : IsToken token) (rest : List UInt8) :
    tokens (spell token ++ space :: rest) = token :: tokens rest := by
  have blank : isSpace space := .inl rfl
  cases token with
  | word word =>
      obtain ⟨some_, inside, _⟩ := legal
      have ends : EndsWord (space :: rest) := by
        intro byte first
        cases first
        exact not_isWordByte_blank blank
      rw [spell, tokens_word some_ inside ends, tokens_blank blank]
  | pipe =>
      change tokens (bar :: space :: rest) = _
      rw [tokens_bar, tokens_blank blank]
  | redirTrunc =>
      have single : (space :: rest).head? ≠ some greater := fun same => by cases same
      change tokens (greater :: space :: rest) = _
      rw [tokens_trunc single, tokens_blank blank]
  | redirAppend =>
      change tokens (greater :: greater :: space :: rest) = _
      rw [tokens_append, tokens_blank blank]
  | error => exact legal.elim

/-- What is written has the tokens it was written from. -/
theorem tokens_spellTokens (legal : ∀ token ∈ found, IsToken token) :
    tokens (spellTokens found) = found := by
  induction found with
  | nil => rfl
  | cons token found ih =>
      have later : ∀ token ∈ found, IsToken token :=
        fun token member => legal token (List.mem_cons_of_mem _ member)
      have first := tokens_spell (legal token List.mem_cons_self) (spellTokens found)
      change tokens ((spell token ++ [space]) ++ spellTokens found) = _
      rw [List.append_assoc, List.singleton_append, first, ih later]

theorem noNul_spell (legal : IsToken token) : 0 ∉ spell token := by
  cases token with
  | word word => exact legal.2.2
  | pipe => decide
  | redirTrunc => decide
  | redirAppend => decide
  | error => exact legal.elim

theorem noNul_spellTokens (legal : ∀ token ∈ found, IsToken token) : 0 ∉ spellTokens found := by
  intro member
  obtain ⟨token, inside, written⟩ := List.mem_flatMap.mp member
  rcases List.mem_append.mp written with spelled | blank
  · exact noNul_spell (legal token inside) spelled
  · cases List.mem_singleton.mp blank

/-! ## The tokens that are cut out -/

/-- A token at the start of a line without NUL is one a line can have. -/
theorem FirstToken.isToken (first : FirstToken line token pending' rest') (noNul : 0 ∉ line) :
    IsToken token := by
  cases first with
  | pipe => trivial
  | append => trivial
  | trunc _ => trivial
  | last some_ inside => exact ⟨some_, inside, noNul⟩
  | blank _ some_ inside _ =>
      exact ⟨some_, inside, fun member => noNul (List.mem_append_left _ member)⟩
  | operator _ some_ inside _ =>
      exact ⟨some_, inside, fun member => noNul (List.mem_append_left _ member)⟩

/-- What is pending before an operator is a bar, a `>` or nothing. -/
def PendingOperator (pending : UInt8) : Prop := pending = 0 ∨ pending = bar ∨ pending = greater

theorem lexStep_isToken (step : lexStep pending rest = some (token, pending', rest'))
    (operator : PendingOperator pending) (noNul : 0 ∉ rest) :
    IsToken token ∧ PendingOperator pending' := by
  rcases operator with rfl | rfl | rfl
  · have first := lexStep_first step
    have noNul' : 0 ∉ rest.dropWhile fun ch => isSpace ch :=
      fun member => noNul ((List.dropWhile_suffix _).subset member)
    exact ⟨first.isToken noNul', first.consumed.1⟩
  · rw [lexStep_bar] at step
    cases step
    exact ⟨trivial, .inl rfl⟩
  · rw [lexStep_greater] at step
    split at step <;> cases step <;> exact ⟨trivial, .inl rfl⟩

theorem Lexes.isToken (lexes : Lexes pending rest found) (operator : PendingOperator pending)
    (noNul : 0 ∉ rest) : ∀ token ∈ found, IsToken token := by
  induction lexes with
  | done _ => exact fun token member => absurd member List.not_mem_nil
  | next step _ ih =>
      obtain ⟨legal, operator'⟩ := lexStep_isToken step operator noNul
      have noNul' := fun member => noNul ((lexStep_smaller step).2.subset member)
      intro token member
      rcases List.mem_cons.mp member with rfl | later
      · exact legal
      · exact ih operator' noNul' token later

end Spelling

section Results

variable {Word : Type}

theorem error_not_mem_redirTokens (mode : RedirMode) (path : Option Word) :
    ParseToken.error ∉ redirTokens mode path := by
  cases mode <;> cases path <;> simp [redirTokens]

theorem error_not_mem_tokens (result : ParseResult Word) : ParseToken.error ∉ result.tokens := by
  have redir := error_not_mem_redirTokens result.redirMode result.redirPath
  unfold ParseResult.tokens
  split <;> simp [redir]

end Results

section Printed

variable {line : CString} {result : ParseResult (List UInt8)}

/-- The words of what is parsed are words. -/
theorem isWord_of_parse (parses : shellParseWithRedirection line = some result) :
    result.WellFormed ∧ ∀ word, .word word ∈ result.tokens → IsWord word := by
  obtain ⟨found, lexes⟩ := exists_lexes 0 line.bytes
  rw [shellParse_eq lexes, accepts_iff] at parses
  obtain ⟨wellFormed, rfl⟩ := parses
  refine ⟨wellFormed, fun word member => ?_⟩
  exact lexes.isToken (.inl rfl) line.noNul _ member

theorem isToken_tokens (words : ∀ word, .word word ∈ result.tokens → IsWord word) :
    ∀ token ∈ result.tokens, IsToken token := by
  intro token member
  cases token with
  | word word => exact words word member
  | pipe => trivial
  | redirTrunc => trivial
  | redirAppend => trivial
  | error => exact error_not_mem_tokens result member

/-- What is written is read back. -/
theorem parse_printed (wellFormed : result.WellFormed)
    (words : ∀ word, .word word ∈ result.tokens → IsWord word) :
    shellParseWithRedirection (CString.of result.print) = some result := by
  have legal := isToken_tokens words
  have bytes : (CString.of result.print).bytes = spellTokens result.tokens :=
    CString.bytes_of (noNul_spellTokens legal)
  apply parse_of_grammar wellFormed
  rw [bytes, tokens_spellTokens legal]

end Printed

/-- **What the parser answers**: the well-formed results of words, each of which it
reads back from the line it is written as. -/
theorem parse_print (result : ParseResult (List UInt8)) :
    ((∃ line, shellParseWithRedirection line = some result) ↔
      result.WellFormed ∧ ∀ word, .word word ∈ result.tokens → IsWord word) ∧
    ((∃ line, shellParseWithRedirection line = some result) ↔
      shellParseWithRedirection (CString.of result.print) = some result) := by
  refine ⟨⟨?_, ?_⟩, ?_, fun parses => ⟨_, parses⟩⟩
  · intro ⟨line, parses⟩
    exact isWord_of_parse parses
  · intro ⟨wellFormed, words⟩
    exact ⟨_, parse_printed wellFormed words⟩
  · intro ⟨line, parses⟩
    obtain ⟨wellFormed, words⟩ := isWord_of_parse parses
    exact parse_printed wellFormed words

end TigerOS.Shell
