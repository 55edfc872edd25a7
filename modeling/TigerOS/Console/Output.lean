import Mathlib.Data.List.Basic

/-! # The console

What the kernel writes reaches the console byte by byte, each line feed behind a carriage
return. The tasks, the traps and the shell all write to it.
-/

namespace TigerOS.Console

/-- `console_putc`. -/
def consolePutc (c : UInt8) : List UInt8 := if c = 10 then [13, c] else [c]

/-- `line_io_write`, by `console_write`. -/
def lineIoWrite (text : List UInt8) : List UInt8 := text.flatMap consolePutc

/-- A byte other than a line feed is put out as it is. -/
theorem consolePutc_of_ne {c : UInt8} (plain : c ≠ 10) : consolePutc c = [c] := if_neg plain

end TigerOS.Console
