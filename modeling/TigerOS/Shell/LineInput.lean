import Mathlib.Data.List.Induction
import TigerOS.Shell.LineIo

/-! # Line input does not depend on timing

The lines that are typed are the pieces of the stream of bytes between line ends, each edited on
its own. Calls that do not block return them whatever moments without a byte come in between, as
blocking calls do (`TigerOS.Shell.readline_independent_of_timing`).
-/

namespace TigerOS.Shell

open Foundation

/-! ## What is typed -/

/-- A byte that edits a line. -/
def editByte (line : List UInt8) (byte : UInt8) : List UInt8 :=
  if byte = 8 ∨ byte = 0x7f then line.dropLast
  else if 0x20 ≤ byte ∧ byte ≤ 0x7e then if line.length < 255 then line ++ [byte] else line
  else line

/-- The pieces that a stream is cut into at its line ends, a carriage return, a line feed, or
both in this order, where `piece` has come before. What follows the last line end is no piece. -/
def cutPieces (piece : List UInt8) : List UInt8 → List (List UInt8)
  | [] => []
  | 13 :: 10 :: stream => piece :: cutPieces [] stream
  | byte :: stream =>
      if byte = 13 ∨ byte = 10 then piece :: cutPieces [] stream
      else cutPieces (piece ++ [byte]) stream

/-- The lines that are typed by a stream, at a length. -/
def typedLines (outLen : ℕ) (stream : List UInt8) : List (List UInt8) :=
  ((cutPieces [] stream).map fun piece => (piece.foldl editByte []).take (outLen - 1)).filter
    (· ≠ [])

/-! ## What is returned -/

/-- The text that a call has left in the caller's array, with the byte behind it. -/
def Readline.text (answer : Readline) : List UInt8 :=
  readRange answer.out 0 (answer.result.toNat + 1)

/-- The texts of the lines that calls return and that are not empty. -/
def readLines (outLen : ℕ) (blocking : Bool) :
    ℕ → (ℕ → UInt8) → LineIo → List (Option UInt8) → List (List UInt8)
  | 0, _, _, _ => []
  | calls + 1, out, io, schedule =>
      match lineIoReadline io outLen (some out) blocking schedule with
      | .waiting _ => []
      | .returned answer =>
          (if 0 < answer.result then [answer.text] else []) ++
            readLines outLen blocking calls answer.out answer.io answer.schedule

/-! ## The line that is held -/

/-- The globals hold a line. -/
structure Holds (line : List UInt8) (io : LineIo) : Prop where
  length : io.lineLen = line.length
  short : line.length ≤ 255
  bytes : readRange io.lineBuffer 0 line.length = line

variable {line : List UInt8} {io : LineIo} {out : ℕ → UInt8} {outLen : ℕ}

theorem Holds.empty (length : io.lineLen = 0) : Holds [] io := ⟨length, Nat.zero_le _, rfl⟩

/-- The line that is held does not depend on the rest of the globals. -/
theorem Holds.congr (holds : Holds line io) {io' : LineIo} (length : io'.lineLen = io.lineLen)
    (buffer : io'.lineBuffer = io.lineBuffer) : Holds line io' :=
  ⟨length.trans holds.length, holds.short, buffer.symm ▸ holds.bytes⟩

theorem Holds.backspace (holds : Holds line io) :
    Holds line.dropLast (lineIoHandleBackspace io) := by
  obtain ⟨length, short, bytes⟩ := holds
  unfold lineIoHandleBackspace
  cases line using List.reverseRecOn with
  | nil =>
      rw [if_pos (length.trans List.length_nil)]
      exact ⟨length, short, bytes⟩
  | append_singleton line byte =>
      rw [List.length_append, List.length_singleton] at length short bytes
      rw [if_neg (by omega), List.dropLast_concat]
      rw [readRange_succ] at bytes
      exact ⟨Nat.sub_eq_of_eq_add length, by omega, (List.append_inj_left' bytes rfl)⟩

theorem Holds.byte (holds : Holds line io) (byte : UInt8) :
    Holds (if line.length < 255 then line ++ [byte] else line) (lineIoHandleByte io byte) := by
  obtain ⟨length, short, bytes⟩ := holds
  unfold lineIoHandleByte
  by_cases room : line.length < 255
  · rw [if_pos room, if_neg (by rw [length]; change ¬ 256 ≤ _; omega)]
    refine ⟨?_, ?_, ?_⟩
    · rw [List.length_append, List.length_singleton, ← length]
      rfl
    · rw [List.length_append, List.length_singleton]
      exact room
    · rw [← length] at bytes
      rw [List.length_append, List.length_singleton, ← length]
      exact (readRange_update_end (Nat.zero_add _).symm).trans (congrArg (· ++ [byte]) bytes)
  · rw [if_neg room, if_pos (by rw [length]; change 256 ≤ _; omega)]
    exact ⟨length, short, bytes⟩

/-- A byte edits the line that is held. -/
theorem Holds.edit (holds : Holds line io) (byte : UInt8) :
    Holds (editByte line byte) (lineIoEdit io byte) := by
  unfold lineIoEdit editByte
  split
  · exact holds.backspace
  split
  · exact holds.byte byte
  · exact holds

/-- An edit does not look at line ends. -/
theorem lineIoEdit_skipLfAfterCr (io : LineIo) (byte : UInt8) :
    (lineIoEdit io byte).skipLfAfterCr = io.skipLfAfterCr := by
  unfold lineIoEdit
  split
  · unfold lineIoHandleBackspace
    split <;> rfl
  split
  · unfold lineIoHandleByte
    split <;> rfl
  · rfl

/-- The loop that copies the line out. -/
theorem copied_apply {buffer : ℕ → UInt8} {count k : ℕ} (short : count ≤ 255) (inside : k < count) :
    countedLoop (fun i out => Function.update out i.toNat (buffer i.toNat)) count 0 out k =
      buffer k := by
  change countedLoop _ count (UInt32.ofNat 0) out k = _
  rw [countedLoop_eq_foldl 0]
  induction count with
  | zero => exact absurd inside (Nat.not_lt_zero _)
  | succ count ih =>
      have place : (UInt32.ofNat count).toNat = count :=
        UInt32.toNat_ofNat_of_lt' (by change count < 2 ^ 32; omega)
      rw [Nat.zero_add] at ih
      rw [Nat.zero_add, List.range'_1_concat, List.foldl_append, List.foldl_cons, List.foldl_nil,
        Nat.zero_add, Nat.sub_zero, place]
      by_cases last : k = count
      · rw [last, Function.update_self]
      · rw [Function.update_of_ne last]
        exact ih (by omega) (by omega)

/-- What is copied out is the line, cut to the length and with a NUL behind. -/
theorem lineIoCopyOut_spec (holds : Holds line io) (room : 0 < outLen) :
    (lineIoCopyOut io out outLen).1 = (line.take (outLen - 1)).length ∧
      readRange (lineIoCopyOut io out outLen).2 0 ((lineIoCopyOut io out outLen).1 + 1) =
        line.take (outLen - 1) ++ [0] := by
  obtain ⟨length, short, bytes⟩ := holds
  have count : (lineIoCopyOut io out outLen).1 = min (outLen - 1) line.length := by
    rw [← length]
    unfold lineIoCopyOut
    simp only
    split <;> omega
  have cut : line.take (outLen - 1) =
      readRange io.lineBuffer 0 (lineIoCopyOut io out outLen).1 := by
    rw [count, ← take_readRange, bytes]
  refine ⟨by rw [List.length_take, count], ?_⟩
  rw [readRange_succ, cut, Nat.zero_add]
  congr 1
  · refine readRange_congr (fun k inside => ?_)
    unfold lineIoCopyOut at inside ⊢
    simp only at inside ⊢
    rw [Function.update_of_ne (by omega), Nat.zero_add]
    refine copied_apply ?_ inside
    split <;> omega
  · unfold lineIoCopyOut
    simp only [Function.update_self]

/-! ## The lines to come -/

/-- The stream behind a line end, whose line feed belongs to the carriage return before it. -/
def skipLf (skip : Bool) (stream : List UInt8) : List UInt8 :=
  if skip ∧ stream.head? = some 10 then stream.tail else stream

/-- The texts of the lines to come, where a piece has come already. -/
def textsFrom (outLen : ℕ) (piece : List UInt8) (skip : Bool) (stream : List UInt8) :
    List (List UInt8) :=
  (((cutPieces piece (skipLf skip stream)).map fun piece =>
    (piece.foldl editByte []).take (outLen - 1)).filter (· ≠ [])).map (· ++ [0])

theorem cutPieces_cr (piece stream : List UInt8) :
    cutPieces piece (13 :: stream) = piece :: cutPieces [] (skipLf true stream) := by
  cases stream with
  | nil => rfl
  | cons byte stream =>
      by_cases feed : byte = 10
      · subst feed
        rfl
      · have kept : skipLf true (byte :: stream) = byte :: stream :=
          if_neg (fun same => feed (Option.some.inj same.2))
        have apart : ∀ rest, (13 : UInt8) = 13 → byte :: stream = 10 :: rest → False :=
          fun _ _ same => feed (List.head_eq_of_cons_eq same)
        rw [kept, cutPieces.eq_3 _ _ _ apart, if_pos (.inl rfl)]

theorem cutPieces_cons {byte : UInt8} (plain : byte ≠ 13) (piece stream : List UInt8) :
    cutPieces piece (byte :: stream) =
      if byte = 10 then piece :: cutPieces [] stream
      else cutPieces (piece ++ [byte]) stream := by
  rw [cutPieces.eq_3 _ _ _ (fun _ return_ => absurd return_ plain)]
  simp only [plain, false_or]

/-- A line end ends the piece that has come. -/
theorem cutPieces_end {byte : UInt8} (ends : byte = 13 ∨ byte = 10) (piece stream : List UInt8) :
    cutPieces piece (byte :: stream) =
      piece :: cutPieces [] (skipLf (decide (byte = 13)) stream) := by
  rcases ends with rfl | rfl
  · exact cutPieces_cr piece stream
  · rw [cutPieces_cons (by decide), if_pos rfl]
    rfl

theorem skipLf_cons {skip : Bool} {byte : UInt8} (kept : ¬ (skip = true ∧ byte = 10))
    (stream : List UInt8) : skipLf skip (byte :: stream) = byte :: stream :=
  if_neg (fun same => kept ⟨same.1, Option.some.inj same.2⟩)

theorem textsFrom_nil (piece : List UInt8) (skip : Bool) : textsFrom outLen piece skip [] = [] := by
  cases skip <;> rfl

theorem textsFrom_end (piece : List UInt8) (pieces : List (List UInt8)) :
    (((piece :: pieces).map fun piece =>
        (piece.foldl editByte []).take (outLen - 1)).filter (· ≠ [])).map (· ++ [0]) =
      (if 0 < ((piece.foldl editByte []).take (outLen - 1)).length then
          [(piece.foldl editByte []).take (outLen - 1) ++ [0]]
        else []) ++
        ((pieces.map fun piece =>
          (piece.foldl editByte []).take (outLen - 1)).filter (· ≠ [])).map (· ++ [0]) := by
  rw [List.map_cons, List.filter_cons]
  by_cases empty : (piece.foldl editByte []).take (outLen - 1) = []
  · rw [empty]
    rfl
  · rw [if_pos (decide_eq_true empty), if_pos (List.length_pos_iff.mpr empty)]
    rfl

/-! ## One call -/

/-- A call waits for ever where no text is to come, or it returns the first text to come or an
empty line, and leaves the others to the moments behind the ones it has taken. -/
def Answered (outLen : ℕ) (texts : List (List UInt8)) (moments : ℕ) : Reading → Prop
  | .waiting _ => texts = []
  | .returned answer => ∃ piece, Holds (piece.foldl editByte []) answer.io ∧
      answer.schedule.length ≤ moments - 1 ∧
      texts = (if 0 < answer.result then [answer.text] else []) ++
        textsFrom outLen piece answer.io.skipLfAfterCr (answer.schedule.filterMap id)

theorem Answered.later {texts : List (List UInt8)} {moments : ℕ} {outcome : Reading}
    (answered : Answered outLen texts moments outcome) :
    Answered outLen texts (moments + 1) outcome := by
  cases outcome with
  | waiting io => exact answered
  | returned answer =>
      obtain ⟨piece, held, shorter, same⟩ := answered
      exact ⟨piece, held, shorter.trans (Nat.sub_le _ _), same⟩

/-- A call that returns at a line end. -/
theorem answered_end {piece : List UInt8} (holds : Holds (piece.foldl editByte []) io)
    (room : 0 < outLen) (schedule : List (Option UInt8)) :
    Answered outLen
      ((((piece :: cutPieces [] (skipLf io.skipLfAfterCr (schedule.filterMap id))).map fun piece =>
        (piece.foldl editByte []).take (outLen - 1)).filter (· ≠ [])).map (· ++ [0]))
      (schedule.length + 1)
      (.returned ⟨(lineIoCopyOut io out outLen).1, (lineIoCopyOut io out outLen).2,
        { io with lineLen := 0 }, schedule⟩) := by
  obtain ⟨length, text⟩ := @lineIoCopyOut_spec _ io out outLen holds room
  refine ⟨[], Holds.empty rfl, le_rfl, ?_⟩
  rw [textsFrom_end, ← length, ← text]
  simp only [Int.natCast_pos]
  rfl

/-- What a call does. -/
theorem readlineLoop_answered (blocking : Bool) (room : 0 < outLen) {piece : List UInt8}
    (holds : Holds (piece.foldl editByte []) io) (schedule : List (Option UInt8)) :
    Answered outLen (textsFrom outLen piece io.skipLfAfterCr (schedule.filterMap id))
      schedule.length (readlineLoop out outLen blocking io schedule) := by
  induction schedule generalizing io piece with
  | nil =>
      unfold readlineLoop
      cases blocking with
      | true => exact textsFrom_nil piece _
      | false => exact ⟨piece, holds, le_rfl, rfl⟩
  | cons moment schedule ih =>
      cases moment with
      | none =>
          unfold readlineLoop
          rw [List.filterMap_cons_none rfl]
          cases blocking with
          | true => exact (ih holds).later
          | false => exact ⟨piece, holds, le_rfl, rfl⟩
      | some byte =>
          unfold readlineLoop
          have bytes : (some byte :: schedule).filterMap id = byte :: schedule.filterMap id := rfl
          rw [bytes]
          have cleared : Holds (piece.foldl editByte []) { io with skipLfAfterCr := false } :=
            holds.congr rfl rfl
          by_cases fed : io.skipLfAfterCr = true ∧ byte = 10
          · -- the line feed of a carriage return
            have behind : skipLf io.skipLfAfterCr (byte :: schedule.filterMap id) =
                schedule.filterMap id := by
              rw [fed.1, fed.2]
              rfl
            rw [if_pos fed, textsFrom, behind]
            exact (ih cleared).later
          rw [if_neg fed, textsFrom, skipLf_cons fed]
          by_cases ends : byte = 13 ∨ byte = 10
          · rw [cutPieces_end ends]
            simp only [if_pos ends]
            have ended : Holds (piece.foldl editByte [])
                (LineIo.write { io with skipLfAfterCr := byte = 13 } (Console.lineIoWrite [10])) :=
              cleared.congr rfl rfl
            exact answered_end ended room schedule
          · have plain := not_or.mp ends
            rw [cutPieces_cons plain.1, if_neg plain.2]
            simp only [if_neg ends]
            have edited := cleared.edit byte
            have longer : (piece ++ [byte]).foldl editByte [] =
                editByte (piece.foldl editByte []) byte := List.foldl_concat _ _ _ _
            rw [← longer] at edited
            have answered := ih edited
            rw [lineIoEdit_skipLfAfterCr] at answered
            exact answered.later

/-! ## All calls -/

/-- Calls return the texts to come, when there are as many calls as moments. -/
theorem readLines_eq (blocking : Bool) (room : 0 < outLen) {piece : List UInt8}
    (holds : Holds (piece.foldl editByte []) io) {schedule : List (Option UInt8)} {calls : ℕ}
    (enough : schedule.length ≤ calls) :
    readLines outLen blocking calls out io schedule =
      textsFrom outLen piece io.skipLfAfterCr (schedule.filterMap id) := by
  induction calls generalizing io out schedule piece with
  | zero =>
      rw [List.length_eq_zero_iff.mp (Nat.le_zero.mp enough)]
      exact (textsFrom_nil piece _).symm
  | succ calls ih =>
      have answered := @readlineLoop_answered io out outLen blocking room piece holds schedule
      have call : lineIoReadline io outLen (some out) blocking schedule =
          readlineLoop out outLen blocking io schedule := if_neg (Nat.pos_iff_ne_zero.mp room)
      unfold readLines
      rw [call]
      cases outcome : readlineLoop out outLen blocking io schedule with
      | waiting waits =>
          rw [outcome] at answered
          exact answered.symm
      | returned answer =>
          rw [outcome] at answered
          obtain ⟨rest, held, shorter, texts⟩ := answered
          have others := @ih answer.io answer.out rest held answer.schedule (by omega)
          exact (texts.trans (congrArg _ others.symm)).symm

/-- **Line input does not depend on timing.** However the moments without a byte come in between
the bytes of a stream, calls that do not block return the lines that are typed, each with its
NUL, and so do calls that block. -/
theorem readline_independent_of_timing (outLen : ℕ) (room : 0 < outLen)
    (schedule : List (Option UInt8)) (out : ℕ → UInt8) (calls : ℕ)
    (enough : schedule.length ≤ calls) (blocking : Bool) :
    readLines outLen blocking calls out LineIo.zero schedule =
      (typedLines outLen (schedule.filterMap id)).map (· ++ [0]) :=
  have initially : Holds (List.foldl editByte [] []) LineIo.zero := Holds.empty rfl
  readLines_eq blocking room initially enough

/-- A carriage return and its line feed with a moment in between, and a byte that is taken back. -/
theorem readline_independent_of_timing_split :
    readLines 3 false 10 (fun _ => 7) LineIo.zero
        [some 97, none, some 13, none, some 10, some 98, none, some 127, some 99, some 10] =
      (typedLines 3 [97, 13, 10, 98, 127, 99, 10]).map (· ++ [0]) :=
  readline_independent_of_timing 3 (by decide)
    [some 97, none, some 13, none, some 10, some 98, none, some 127, some 99, some 10]
    (fun _ => 7) 10 (by decide) false

example : typedLines 3 [97, 13, 10, 98, 127, 99, 10] = [[97], [99]] := by decide

end TigerOS.Shell
