import TigerOS.Shell.Parser

/-! # The grammar of command lines

The tokens of a line are its words, the maximal runs of bytes that are neither
blanks nor operators, and its operators, where two adjacent `>` are one. A line is
accepted when its tokens are those of a command, or of two with a pipe between
them, with a redirection at the end or without one
(`TigerOS.Shell.ParseResult.tokens`, `TigerOS.Shell.ParseResult.WellFormed`).
-/

namespace TigerOS.Shell

/-- Where the bytes before leave a reader of tokens: at the start of one, inside a
word, or before the second `>` of an operator. -/
inductive LexMode where
  | start
  | inWord
  | second
  deriving DecidableEq

/-- The tokens of the rest of a line. -/
def tokensFrom : LexMode → List UInt8 → List (ParseToken (List UInt8))
  | _, [] => []
  | .second, _ :: rest => tokensFrom .start rest
  | mode, byte :: rest =>
      if isSpace byte then tokensFrom .start rest
      else if byte = bar then .pipe :: tokensFrom .start rest
      else if byte = greater then
        if rest.head? = some greater then .redirAppend :: tokensFrom .second rest
        else .redirTrunc :: tokensFrom .start rest
      else if mode = .inWord then tokensFrom .inWord rest
      else .word (byte :: rest.takeWhile fun ch => isWordByte ch) :: tokensFrom .inWord rest

/-- The tokens of a line. -/
def tokens (line : List UInt8) : List (ParseToken (List UInt8)) := tokensFrom .start line

section Grammar

variable {Word : Type}

/-- The tokens of a redirection. -/
def redirTokens : RedirMode → Option Word → List (ParseToken Word)
  | .none, _ => []
  | .trunc, path => .redirTrunc :: (path.map ParseToken.word).toList
  | .append, path => .redirAppend :: (path.map ParseToken.word).toList

/-- The tokens a result stands for. -/
def ParseResult.tokens (result : ParseResult Word) : List (ParseToken Word) :=
  result.left.map .word ++
    (if result.hasPipe = true then .pipe :: result.right.map .word else []) ++
    redirTokens result.redirMode result.redirPath

/-- A result as the grammar has it: one or two commands of 1 to 16 words, and a
path exactly with a redirection. -/
structure ParseResult.WellFormed (result : ParseResult Word) : Prop where
  left : 1 ≤ result.left.length ∧ result.left.length ≤ shellParseArgvCap
  right : if result.hasPipe = true then
    1 ≤ result.right.length ∧ result.right.length ≤ shellParseArgvCap else result.right = []
  path : result.redirPath = none ↔ result.redirMode = .none

end Grammar

end TigerOS.Shell
