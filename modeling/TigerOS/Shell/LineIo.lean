import TigerOS.Console.Output
import TigerOS.Foundation.Loop
import TigerOS.Foundation.Range

/-! # Reading lines from the console

A call for a line takes bytes from the console until a line ends. A call that does not block also
returns when the console has no byte at the moment; what it has taken of the line stays behind
for the next call. What the console has is a list of moments, each with a byte or without one.
-/

namespace TigerOS.Shell

open Foundation

open Console (consolePutc lineIoWrite)

/-- `LINE_IO_BUFFER_SIZE`. -/
abbrev lineIoBufferSize : ℕ := 256

/-- The globals of `line_io.c`, with the bytes that were written to the console. -/
structure LineIo where
  lineBuffer : ℕ → UInt8
  lineLen : ℕ
  skipLfAfterCr : Bool
  console : List UInt8

/-- The globals as the kernel's image loads them. -/
def LineIo.zero : LineIo := ⟨fun _ => 0, 0, false, []⟩

/-- What a call leaves: the length it returns, the caller's array, the globals and the moments
that are still to come. -/
structure Readline where
  result : ℤ
  out : ℕ → UInt8
  io : LineIo
  schedule : List (Option UInt8)

/-- What becomes of a call: it returns, or it waits for ever, with the globals as the bytes that
came have left them. -/
inductive Reading where
  | returned (answer : Readline)
  | waiting (io : LineIo)

section Source

variable (io : LineIo) (out : ℕ → UInt8) (outLen : ℕ)

/-- Bytes that are written to the console. -/
def LineIo.write (bytes : List UInt8) : LineIo := { io with console := io.console ++ bytes }

/-- `line_io_copy_out`, with the length that it returns. -/
def lineIoCopyOut : ℕ × (ℕ → UInt8) :=
  let copyLen := if outLen ≤ io.lineLen then outLen - 1 else io.lineLen
  let out := countedLoop
    (fun i out => Function.update out i.toNat (io.lineBuffer i.toNat)) copyLen 0 out
  (copyLen, Function.update out copyLen 0)

/-- `line_io_handle_backspace`. -/
def lineIoHandleBackspace : LineIo :=
  if io.lineLen = 0 then io
  else { io with lineLen := io.lineLen - 1 }.write (lineIoWrite [8, 32, 8])

/-- `line_io_handle_byte`. -/
def lineIoHandleByte (byte : UInt8) : LineIo :=
  if lineIoBufferSize ≤ io.lineLen + 1 then io
  else
    { io with
      lineBuffer := Function.update io.lineBuffer io.lineLen byte
      lineLen := io.lineLen + 1 }.write (consolePutc byte)

/-- The last lines of the loop of `line_io_readline`: a byte that does not end the line. -/
def lineIoEdit (byte : UInt8) : LineIo :=
  if byte = 8 ∨ byte = 0x7f then lineIoHandleBackspace io
  else if 0x20 ≤ byte ∧ byte ≤ 0x7e then lineIoHandleByte io byte
  else io

/-- The loop of `line_io_readline`, over the moments to come. A blocking call waits over a moment
without a byte, and it does not return when no more bytes come. -/
def readlineLoop (blocking : Bool) : LineIo → List (Option UInt8) → Reading
  | io, [] => if blocking then .waiting io else .returned ⟨0, out, io, []⟩
  | io, none :: schedule =>
      if blocking then readlineLoop blocking io schedule else .returned ⟨0, out, io, schedule⟩
  | io, some byte :: schedule =>
      if io.skipLfAfterCr ∧ byte = 10 then
        readlineLoop blocking { io with skipLfAfterCr := false } schedule
      else
        let io := { io with skipLfAfterCr := false }
        if byte = 13 ∨ byte = 10 then
          let io := { io with skipLfAfterCr := byte = 13 }.write (lineIoWrite [10])
          let (lineLen, out) := lineIoCopyOut io out outLen
          .returned ⟨lineLen, out, { io with lineLen := 0 }, schedule⟩
        else readlineLoop blocking (lineIoEdit io byte) schedule

/-- `line_io_readline`, where no array is a null pointer and zeroes stand for what it holds. -/
def lineIoReadline (out : Option (ℕ → UInt8)) (blocking : Bool)
    (schedule : List (Option UInt8)) : Reading :=
  match out with
  | none => .returned ⟨-1, fun _ => 0, io, schedule⟩
  | some out =>
      if outLen = 0 then .returned ⟨-1, out, io, schedule⟩
      else readlineLoop out outLen blocking io schedule

end Source

end TigerOS.Shell
