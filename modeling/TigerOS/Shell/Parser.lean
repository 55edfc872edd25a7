import TigerOS.Foundation.CString
import TigerOS.Foundation.Range

/-! # Parsing a command line

The parser cuts the line into words in place: it writes a NUL over every blank and
operator it passes, and a word is the address at which it starts. The byte of an
operator that ends a word is gone when the next token is asked for, so the
tokenizer keeps it as pending. An address is modelled by its offset in the line.
-/

namespace TigerOS.Shell

open Foundation

def space : UInt8 := 0x20
def tab : UInt8 := 0x09
def bar : UInt8 := 0x7c
def greater : UInt8 := 0x3e

abbrev shellParseArgvCap : ℕ := 16

/-- `shell_parse_token_t` with the word it comes with; `PARSE_TOKEN_END` is `none`. -/
inductive ParseToken (Word : Type) where
  | word (word : Word)
  | pipe
  | redirTrunc
  | redirAppend
  | error
  deriving DecidableEq

/-- `shell_redir_mode_t`. -/
inductive RedirMode where
  | none
  | trunc
  | append
  deriving DecidableEq

/-- `shell_parse_result_t`; the count of a command is the length of its list. -/
structure ParseResult (Word : Type) where
  left : List Word
  right : List Word
  hasPipe : Bool
  redirMode : RedirMode
  redirPath : Option Word
  deriving DecidableEq

/-- `is_space`. -/
def isSpace (ch : UInt8) : Prop := ch = space ∨ ch = tab

instance (ch : UInt8) : Decidable (isSpace ch) := inferInstanceAs (Decidable (_ ∨ _))

/-- A byte that the loop over a word passes. -/
def isWordByte (ch : UInt8) : Prop := ¬ isSpace ch ∧ ch ≠ bar ∧ ch ≠ greater

instance (ch : UInt8) : Decidable (isWordByte ch) := inferInstanceAs (Decidable (_ ∧ _))

/-! ## Tokens -/

/-- The line, the cursor and the pending operator, where `0` means none. -/
structure Tokenizer where
  buffer : ℕ → UInt8
  cursor : ℕ
  pending : UInt8

/-- A NUL written at the cursor, which moves on. -/
def Tokenizer.cut (scan : Tokenizer) : Tokenizer :=
  { scan with buffer := Function.update scan.buffer scan.cursor 0, cursor := scan.cursor + 1 }

/-- The byte at the cursor. -/
def Tokenizer.byte (scan : Tokenizer) : UInt8 := scan.buffer scan.cursor

/-- The loop over blanks. The loops end at the NUL of the line at the latest, so
`rounds` starts at its length. -/
def skipBlanks : ℕ → Tokenizer → Tokenizer
  | 0, scan => scan
  | rounds + 1, scan =>
      if scan.byte ≠ 0 ∧ isSpace scan.byte then skipBlanks rounds scan.cut else scan

/-- The loop over a word. -/
def skipWord : ℕ → Tokenizer → Tokenizer
  | 0, scan => scan
  | rounds + 1, scan =>
      if scan.byte ≠ 0 ∧ isWordByte scan.byte then
        skipWord rounds { scan with cursor := scan.cursor + 1 }
      else scan

/-- `parse_next_token` on a line of at most `rounds` bytes. -/
def parseNextToken (rounds : ℕ) (scan : Tokenizer) : Option (ParseToken ℕ) × Tokenizer :=
  let scan := skipBlanks rounds scan
  if scan.pending ≠ 0 then
    let special := scan.pending
    let scan := { scan with pending := 0 }
    if special = bar then (some .pipe, scan)
    else if special = greater then
      if scan.byte = greater then (some .redirAppend, scan.cut) else (some .redirTrunc, scan)
    else (some .error, scan)
  else if scan.byte = 0 then (none, scan)
  else if scan.byte = bar then (some .pipe, scan.cut)
  else if scan.byte = greater then
    let scan := scan.cut
    if scan.byte = greater then (some .redirAppend, scan.cut) else (some .redirTrunc, scan)
  else
    let word := scan.cursor
    let scan := skipWord rounds scan
    if scan.byte = 0 then (some (.word word), scan)
    else if scan.byte = bar ∨ scan.byte = greater then
      (some (.word word), { scan.cut with pending := scan.byte })
    else (some (.word word), scan.cut)

/-! ## Commands -/

/-- The variables of the loop over tokens. The current command is the right one
exactly once a pipe was seen. -/
structure ParseState (Word : Type) where
  out : ParseResult Word
  needRedirPath : Bool

section Loop

variable {Word : Type}

/-- The state before the first token, after `shell_parse_result_init`. -/
def ParseState.init : ParseState Word := ⟨⟨[], [], false, .none, none⟩, false⟩

/-- The words of the current command. -/
def ParseState.current (state : ParseState Word) : List Word :=
  if state.out.hasPipe = true then state.out.right else state.out.left

/-- The body of the loop, on a token that is not the end. -/
def takeToken (state : ParseState Word) : ParseToken Word → Option (ParseState Word)
  | .error => none
  | .word word =>
      if state.needRedirPath = true then
        some ⟨{ state.out with redirPath := some word }, false⟩
      else if state.out.redirMode ≠ .none then none
      else if shellParseArgvCap ≤ state.current.length then none
      else if state.out.hasPipe = true then
        some { state with out := { state.out with right := state.out.right ++ [word] } }
      else some { state with out := { state.out with left := state.out.left ++ [word] } }
  | .pipe =>
      if state.needRedirPath = true then none
      else if state.out.hasPipe = true ∨ state.out.redirMode ≠ .none ∨ state.current = [] then none
      else some { state with out := { state.out with hasPipe := true } }
  | .redirTrunc =>
      if state.needRedirPath = true then none
      else if state.out.redirMode ≠ .none then none
      else some ⟨{ state.out with redirMode := .trunc }, true⟩
  | .redirAppend =>
      if state.needRedirPath = true then none
      else if state.out.redirMode ≠ .none then none
      else some ⟨{ state.out with redirMode := .append }, true⟩

/-- The checks after the loop. -/
def finishParse (state : ParseState Word) : Option (ParseResult Word) :=
  if state.needRedirPath = true then none
  else if state.out.left = [] then none
  else if state.out.hasPipe = true ∧ state.out.right = [] then none
  else some state.out

/-- The loop over tokens on a line of at most `length` bytes. Every token takes a
byte of the line, so that `rounds` starts past its length. -/
def parseLoop (length : ℕ) : ℕ → Tokenizer → ParseState ℕ →
    Option (ParseState ℕ × (ℕ → UInt8))
  | 0, _, _ => none
  | rounds + 1, scan, state =>
      match parseNextToken length scan with
      | (none, scan) => some (state, scan.buffer)
      | (some token, scan) =>
          match takeToken state token with
          | none => none
          | some state => parseLoop length rounds scan state

end Loop

/-- The words of a result, given by what they are. -/
def ParseResult.map {Word Word' : Type} (word : Word → Word') (result : ParseResult Word) :
    ParseResult Word' where
  left := result.left.map word
  right := result.right.map word
  hasPipe := result.hasPipe
  redirMode := result.redirMode
  redirPath := result.redirPath.map word

/-- The C string at an offset of a line of the given length. -/
def stringAt (length : ℕ) (buffer : ℕ → UInt8) (start : ℕ) : List UInt8 :=
  cstr (length - start) (readRange buffer start (length - start))

/-- `shell_parse_with_redirection`, answering the words as the strings that the
line holds at their addresses afterwards. -/
def shellParseWithRedirection (line : CString) : Option (ParseResult (List UInt8)) :=
  let length := line.bytes.length
  match parseLoop length (length + 1) ⟨fun k => line.bytes.getD k 0, 0, 0⟩ .init with
  | none => none
  | some (state, buffer) => (finishParse state).map (ParseResult.map (stringAt length buffer))

end TigerOS.Shell
