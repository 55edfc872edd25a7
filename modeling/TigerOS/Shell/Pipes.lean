import TigerOS.Shell.Isolation

/-! # Pipes

A pipe runs its right command on the first 2047 bytes that its left command writes
(`TigerOS.Shell.execute_piped`): the capture and the copy made of it end in a NUL and hold that
many. What a command writes is nothing or ends a line, so that `cat` copies it without adding
an end, and is the identity on pipes (`TigerOS.Shell.pipe_cat`).
-/

namespace TigerOS.Shell

open Foundation TigerOS.Dir TigerOS.Mm

section Pipes

variable {words words' : List (List UInt8)} {line plain : CString}
  {store between store' : PathStore}
  {alloc : PageAllocator} {out out' : List UInt8}

/-- **A pipe** shows what its right command writes when it is given what the left one
writes. -/
theorem execute_piped (room : 1 ≤ words.length ∧ words.length ≤ shellParseArgvCap)
    (room' : 1 ≤ words'.length ∧ words'.length ≤ shellParseArgvCap)
    (tokensEq : tokens line.bytes = words.map .word ++ .pipe :: words'.map .word)
    (first : Runs (fun state => shellExecuteOrFallback state words
      (shellBuildFallbackText words shellFallbackTextCap)) store alloc none out between)
    (second : Runs (fun state => shellExecuteOrFallback state words'
      (shellBuildFallbackText words' shellFallbackTextCap)) between alloc
        (some (out.take (shellPipeInputCap - 1))) out' store') (fd : FdTable) :
    shellExecuteLine ⟨store, alloc, fd⟩ line = (true, ⟨store', alloc, {
      stdoutMode := .console, stdinData := none, capture := out.take (shellFdCaptureCap - 1),
      console := fd.console ++ out' }⟩) := by
  have parse := @parse_of_grammar line ⟨words, words', true, .none, none⟩
    ⟨room, room', iff_of_true rfl rfl⟩ (by
      rw [tokensEq]
      simp only [ParseResult.tokens, redirTokens, ↓reduceIte, List.append_nil])
  have twice : (out.take (shellFdCaptureCap - 1)).take (shellPipeInputCap - 1) =
      out.take (shellPipeInputCap - 1) := List.take_take.trans rfl
  simp only [shellExecuteLine, parse, ↓reduceIte, shellExecutePipe, first.captured, twice,
    setStdoutConsole_setStdin, second.shown]
  rfl

/-- Lines that are given to `cat` are copied. -/
theorem runs_cat_input (some_ : out ≠ []) (noNul : 0 ∉ out) (ends : out.getLast? = some newline)
    (fallbackText : List UInt8) :
    Runs (fun state => shellExecuteOrFallback state [ascii "cat"] fallbackText) store alloc
      (some out) out store where
  eq := by
    intro fd input
    have text : cstr out.length out = out := by
      rw [cstr_of_noNul noNul, List.take_length]
    have given : fd.hasStdin := by
      unfold FdTable.hasStdin
      rw [input]
      change cstr out.length out ≠ []
      rw [text]
      exact some_
    simp only [execute_cat, shellBuiltinCat, List.length_singleton, Nat.one_lt_ofNat, ↓reduceIte,
      if_pos given, input, Option.getD_some, catText, text, ends, ShellState.write, FdTable.write]
  noNul := noNul

end Pipes

/-- **A pipe into `cat` is the identity**, from every state: a command that emits between 1 and
2047 bytes emits the same with `| cat` after it and leaves the same path state, and the input
is null afterwards. -/
theorem pipe_cat (state : ShellState) (words : List (List UInt8)) (plain line : CString)
    (room : 1 ≤ words.length ∧ words.length ≤ 16)
    (plainTokens : tokens plain.bytes = words.map .word)
    (lineTokens : tokens line.bytes = words.map .word ++ [.pipe, .word (ascii "cat")])
    (some_ : 1 ≤ (emitted state plain).length) (fits : (emitted state plain).length ≤ 2047) :
    emitted state line = emitted state plain ∧
      (shellExecuteLine state line).2.store = (shellExecuteLine state plain).2.store ∧
        (shellExecuteLine state line).2.fd.stdinData = none := by
  obtain ⟨store, alloc, fd⟩ := state
  obtain ⟨out, store', runs, lines, _⟩ := @lined_execute store alloc none words
    (shellBuildFallbackText words shellFallbackTextCap)
  obtain ⟨shown, left⟩ := @emitted_words ⟨store, alloc, fd⟩ words plain room plainTokens out store'
    runs
  rw [shown] at some_ fits
  rw [shown, left]
  have nonempty : out ≠ [] := List.length_pos_iff.mp some_
  have ends : out.getLast? = some newline := by
    rcases lines with empty | ends
    · exact absurd empty nonempty
    · exact ends
  have copied := @runs_cat_input store' alloc out nonempty runs.noNul ends
    (shellBuildFallbackText [ascii "cat"] shellFallbackTextCap)
  have whole : out.take (shellPipeInputCap - 1) = out := List.take_of_length_le fits
  have room' : 1 ≤ [ascii "cat"].length ∧ [ascii "cat"].length ≤ shellParseArgvCap :=
    ⟨le_rfl, Nat.le_add_left 1 15⟩
  unfold emitted
  rw [execute_piped room room' lineTokens runs (by rw [whole]; exact copied) fd]
  exact ⟨List.drop_left, rfl, rfl⟩

/-- `pwd` in a shell that was just started. -/
theorem pipe_cat_pwd :
    emitted (shellStart (pageAllocInit 0 65536)) (CString.of (ascii "pwd | cat")) =
      emitted (shellStart (pageAllocInit 0 65536)) (CString.of (ascii "pwd")) := by
  apply (pipe_cat (shellStart (pageAllocInit 0 65536)) [ascii "pwd"] (CString.of (ascii "pwd"))
    (CString.of (ascii "pwd | cat")) ?_ ?_ ?_ ?_ ?_).1
  · exact ⟨le_rfl, Nat.le_add_left 1 15⟩
  · decide +kernel
  · decide +kernel
  · decide +kernel
  · decide +kernel

end TigerOS.Shell
