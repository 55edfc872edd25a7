import TigerOS.Shell.Redirection

/-! # Lines apart from each other

The descriptors are left as a line last set them: capturing, with its bytes in the buffer, or
with a message on the console. No later line sees that. What a line answers, shows and leaves
behind is a matter of the path state and the allocator alone
(`TigerOS.Shell.line_independent`), and so is a run of lines
(`TigerOS.Shell.runs_independent`).
-/

namespace TigerOS.Shell

open Foundation TigerOS.Dir TigerOS.Mm

/-- What a line does whatever the descriptors hold. -/
structure LineEffect where
  status : Bool
  shown : List UInt8
  store : PathStore

/-- A line has an effect: it answers its status, leaves its store and the allocator as it was,
and puts its bytes after those on the console. -/
structure LineEffect.Of (effect : LineEffect) (before : ShellState) (after : Bool × ShellState) :
    Prop where
  status : after.1 = effect.status
  store : after.2.store = effect.store
  alloc : after.2.alloc = before.alloc
  console : after.2.fd.console = before.fd.console ++ effect.shown

section Effects

variable {run : ShellState → ShellState} {store store' : PathStore} {alloc : PageAllocator}
  {stdin : Option (List UInt8)} {out : List UInt8}

/-- A command on the console shows what it writes. -/
theorem Runs.shown (runs : Runs run store alloc stdin out store') (fd : FdTable) :
    run ⟨store, alloc, fd.setStdoutConsole.setStdin stdin⟩ =
      ⟨store', alloc, { fd with
        stdoutMode := .console, stdinData := stdin, console := fd.console ++ out }⟩ := by
  rw [runs.eq _ rfl, put_console rfl]
  rfl

/-- A command that is captured shows nothing, and leaves the first bytes it writes. -/
theorem Runs.captured (runs : Runs run store alloc stdin out store') (fd : FdTable) :
    run ⟨store, alloc, fd.setStdoutCapture.setStdin stdin⟩ =
      ⟨store', alloc, { fd with
        stdoutMode := .capture, stdinData := stdin,
        capture := out.take (shellFdCaptureCap - 1) }⟩ := by
  rw [runs.eq _ rfl, put_capture rfl (Nat.zero_le _)]
  rfl

@[simp] theorem setStdoutConsole_setStdin (fd : FdTable) (input : Option (List UInt8)) :
    (fd.setStdin input).setStdoutConsole = fd.setStdoutConsole.setStdin input := rfl

@[simp] theorem setStdoutCapture_setStdin (fd : FdTable) (input : Option (List UInt8)) :
    (fd.setStdin input).setStdoutCapture = fd.setStdoutCapture.setStdin input := rfl

/-- A message is shown on the console whatever the mode was. -/
theorem console_message (fd : FdTable) (message : List UInt8)
    (whole : cstr message.length message = message) :
    (fd.setStdoutConsole.write message).console = fd.console ++ message := by
  unfold FdTable.write
  rw [put_console rfl, whole]
  rfl

/-- A redirection has an effect that what was captured decides, also on a line that moved
the path state before. -/
theorem exists_effect_redirection (before store : PathStore) (alloc : PageAllocator)
    (parsed : ParseResult (List UInt8)) (captured : List UInt8) :
    ∃ effect : LineEffect, ∀ first fd : FdTable, fd.console = first.console →
      fd.capture = captured →
        effect.Of ⟨before, alloc, first⟩ (shellWriteRedirection ⟨store, alloc, fd⟩ parsed) := by
  cases answer : pathStateWriteFile store (parsed.redirPath.map CString.of) (some captured)
    (decide (parsed.redirMode = .append)) with
  | mk status store' =>
      cases status with
      | false =>
          refine ⟨⟨false, ascii "redir: write failed\n", store'⟩, ?_⟩
          intro first fd console same
          unfold shellWriteRedirection
          simp only [same, answer]
          refine ⟨rfl, rfl, rfl, ?_⟩
          exact (console_message fd _ (by decide)).trans (by rw [console])
      | true =>
          refine ⟨⟨true, [], store'⟩, ?_⟩
          intro first fd console same
          unfold shellWriteRedirection
          simp only [same, answer]
          exact ⟨rfl, rfl, rfl, console.trans (List.append_nil _).symm⟩

theorem exists_effect_single (store : PathStore) (alloc : PageAllocator)
    (parsed : ParseResult (List UInt8)) :
    ∃ effect : LineEffect, ∀ fd : FdTable,
      effect.Of ⟨store, alloc, fd⟩ (shellExecuteSingle ⟨store, alloc, fd⟩ parsed) := by
  obtain ⟨out, store', runs, _⟩ := @lined_execute store alloc none parsed.left
    (shellBuildFallbackText parsed.left shellFallbackTextCap)
  unfold shellExecuteSingle
  by_cases plain : parsed.redirMode = .none
  · refine ⟨⟨true, out, store'⟩, ?_⟩
    intro fd
    simp only [if_pos plain, runs.shown]
    exact ⟨rfl, rfl, rfl, rfl⟩
  · obtain ⟨effect, holds⟩ := exists_effect_redirection store store' alloc parsed
      (out.take (shellFdCaptureCap - 1))
    refine ⟨effect, ?_⟩
    intro fd
    simp only [if_neg plain, runs.captured]
    exact holds fd _ rfl rfl

theorem exists_effect_pipe (store : PathStore) (alloc : PageAllocator)
    (parsed : ParseResult (List UInt8)) :
    ∃ effect : LineEffect, ∀ fd : FdTable,
      effect.Of ⟨store, alloc, fd⟩ (shellExecutePipe ⟨store, alloc, fd⟩ parsed) := by
  obtain ⟨piped, between, first, _⟩ := @lined_execute store alloc none parsed.left
    (shellBuildFallbackText parsed.left shellFallbackTextCap)
  obtain ⟨out, store', second, _⟩ := @lined_execute between alloc
    (some ((piped.take (shellFdCaptureCap - 1)).take (shellPipeInputCap - 1))) parsed.right
    (shellBuildFallbackText parsed.right shellFallbackTextCap)
  unfold shellExecutePipe
  by_cases plain : parsed.redirMode = .none
  · refine ⟨⟨true, out, store'⟩, ?_⟩
    intro fd
    simp only [if_pos plain, first.captured, setStdoutConsole_setStdin, second.shown]
    exact ⟨rfl, rfl, rfl, rfl⟩
  · obtain ⟨effect, holds⟩ := exists_effect_redirection store store' alloc parsed
      (out.take (shellFdCaptureCap - 1))
    refine ⟨effect, ?_⟩
    intro fd
    simp only [if_neg plain, first.captured, setStdoutCapture_setStdin, second.captured]
    exact holds fd _ rfl rfl

/-- **Every line has an effect** that the path state and the allocator decide. -/
theorem exists_effect (store : PathStore) (alloc : PageAllocator) (line : CString) :
    ∃ effect : LineEffect, ∀ fd : FdTable,
      effect.Of ⟨store, alloc, fd⟩ (shellExecuteLine ⟨store, alloc, fd⟩ line) := by
  unfold shellExecuteLine
  cases shellParseWithRedirection line with
  | none =>
      refine ⟨⟨false, ascii "parse: invalid command\n", store⟩, ?_⟩
      intro fd
      refine ⟨rfl, rfl, rfl, ?_⟩
      exact console_message fd _ (by decide)
  | some parsed =>
      by_cases pipe : parsed.hasPipe = true
      · simp only [if_pos pipe]
        exact exists_effect_pipe store alloc parsed
      · simp only [if_neg pipe]
        exact exists_effect_single store alloc parsed

end Effects

section Isolation

variable {before : ShellState} {after : Bool × ShellState} {effect : LineEffect}

/-- What a line with an effect emits. -/
theorem emitted_eq {line : CString} (holds : effect.Of before (shellExecuteLine before line)) :
    emitted before line = effect.shown := by
  unfold emitted
  rw [holds.console]
  exact List.drop_left

/-- **A line does not see the descriptors**: with the same path state and allocator it emits
the same bytes, answers the same status and leaves the same path state, whatever the mode, the
input and the capture were before. -/
theorem line_independent (store : PathStore) (alloc : PageAllocator) (fd fd' : FdTable)
    (line : CString) :
    emitted ⟨store, alloc, fd⟩ line = emitted ⟨store, alloc, fd'⟩ line ∧
      (shellExecuteLine ⟨store, alloc, fd⟩ line).1 =
        (shellExecuteLine ⟨store, alloc, fd'⟩ line).1 ∧
      (shellExecuteLine ⟨store, alloc, fd⟩ line).2.store =
        (shellExecuteLine ⟨store, alloc, fd'⟩ line).2.store := by
  obtain ⟨effect, holds⟩ := exists_effect store alloc line
  refine ⟨?_, ?_, ?_⟩
  · rw [emitted_eq (holds fd), emitted_eq (holds fd')]
  · rw [(holds fd).status, (holds fd').status]
  · rw [(holds fd).store, (holds fd').store]

/-- Two shells with the same path state and allocator, which have shown the same bytes since
their consoles were as given. -/
structure Alike (console console' : List UInt8) (first second : ShellState) : Prop where
  store : first.store = second.store
  alloc : first.alloc = second.alloc
  shown : ∃ shown, first.fd.console = console ++ shown ∧ second.fd.console = console' ++ shown

/-- A step keeps two shells alike, and is answered alike. -/
theorem Alike.step {console console' : List UInt8} {first second : ShellState}
    (alike : Alike console console' first second) (op : ShellOp) :
    (shell.step first op).1 = (shell.step second op).1 ∧
      Alike console console' (shell.step first op).2 (shell.step second op).2 := by
  obtain ⟨store, alloc, fd⟩ := first
  obtain ⟨store', alloc', fd'⟩ := second
  obtain ⟨rfl, rfl, shown, first, second⟩ := alike
  cases op with
  | page op => exact ⟨rfl, rfl, rfl, shown, first, second⟩
  | line line =>
      obtain ⟨effect, holds⟩ := exists_effect store alloc line
      have one := holds fd
      have other := holds fd'
      refine ⟨one.status.trans other.status.symm, one.store.trans other.store.symm,
        one.alloc.trans other.alloc.symm, shown ++ effect.shown, ?_, ?_⟩
      · exact one.console.trans (by rw [first, List.append_assoc])
      · exact other.console.trans (by rw [second, List.append_assoc])

/-- Shells that are alike simulate each other. -/
def alikeSimulation (console console' : List UInt8) :
    shell.Simulation shell fun _ _ => True where
  related := Alike console console'
  step := fun alike _ => alike.step _

/-- **A run of lines does not see the descriptors** it starts with: it is answered alike, and
shows the same bytes. -/
theorem runs_independent (store : PathStore) (alloc : PageAllocator) (fd fd' : FdTable)
    (ops : List ShellOp) :
    shell.results ⟨store, alloc, fd⟩ ops = shell.results ⟨store, alloc, fd'⟩ ops ∧
      Alike fd.console fd'.console (shell.state ⟨store, alloc, fd⟩ ops)
        (shell.state ⟨store, alloc, fd'⟩ ops) := by
  apply (alikeSimulation fd.console fd'.console).run
  · exact ⟨rfl, rfl, [], (List.append_nil _).symm, (List.append_nil _).symm⟩
  · exact Machine.along_of_forall (fun _ _ _ => trivial) _

end Isolation

end TigerOS.Shell
