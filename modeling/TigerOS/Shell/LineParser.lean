import TigerOS.Shell.Parser

/-! # Cutting a line at its blanks

The parser of the terminals knows blanks only. It cuts the line in place as the
parser of the shell does, and stops at the first word that its array has no room
for.
-/

namespace TigerOS.Shell

open Foundation

/-- The loop of `shell_parse_line` over a word. -/
def skipNonBlank : ℕ → Tokenizer → Tokenizer
  | 0, scan => scan
  | rounds + 1, scan =>
      if scan.byte ≠ 0 ∧ ¬ isSpace scan.byte then
        skipNonBlank rounds { scan with cursor := scan.cursor + 1 }
      else scan

/-- The loop of `shell_parse_line` on a line of at most `length` bytes, answering
where the words start and the line as it is left. Every round takes a byte of the
line, so that `rounds` starts past its length. -/
def parseLineLoop (length argvCap : ℕ) : ℕ → Tokenizer → List ℕ → List ℕ × (ℕ → UInt8)
  | 0, scan, argv => (argv, scan.buffer)
  | rounds + 1, scan, argv =>
      if scan.byte = 0 then (argv, scan.buffer)
      else
        let scan := skipBlanks length scan
        if scan.byte = 0 then (argv, scan.buffer)
        else if argvCap ≤ argv.length then (argv, scan.buffer)
        else
          let argv := argv ++ [scan.cursor]
          let scan := skipNonBlank length scan
          if scan.byte = 0 then (argv, scan.buffer)
          else parseLineLoop length argvCap rounds scan.cut argv

/-- `shell_parse_line`, answering the words as the strings that the line holds at
their addresses afterwards. -/
def shellParseLine (line : CString) (argvCap : ℕ) : List (List UInt8) :=
  let length := line.bytes.length
  let (argv, buffer) :=
    parseLineLoop length argvCap (length + 1) ⟨fun k => line.bytes.getD k 0, 0, 0⟩ []
  argv.map (stringAt length buffer)

end TigerOS.Shell
