import TigerOS.Foundation.Recent
import TigerOS.Shell.Words
import TigerOS.Tty.WorkingDirectory

/-! # What a line leaves in a session

The commands work on the path state, the marker and the cached working directory; they neither
look at the input and the history nor change them. A line that has a word is recorded before its
command runs, so that a session that runs a line has one more line in its history and its count
(`TigerOS.Tty.TerminalSession.executeLine_recent`), whatever the line does, and runs it alike with
any input (`TigerOS.Tty.TerminalSession.executeLine_withInput`).
-/

namespace TigerOS.Tty

open Foundation TigerOS.Path TigerOS.Dir TigerOS.Shell

/-- The part of a session that the commands leave: the input, the history and the counts. -/
structure Typed where
  inputBuffer : ℕ → UInt8
  inputLen : UInt32
  history : ℕ → List UInt8
  historyCount : UInt32
  historyHead : UInt32
  linesExecuted : UInt32

/-- The history as a store of the most recent lines. -/
def Typed.recent (typed : Typed) : Recent (List UInt8) :=
  ⟨typed.history, typed.historyCount.toNat, typed.historyHead.toNat⟩

/-- A line has a byte that is no blank. -/
def HasWord (line : List UInt8) : Prop := ∃ byte ∈ line, ¬ isSpace byte

instance (line : List UInt8) : Decidable (HasWord line) :=
  inferInstanceAs (Decidable (∃ byte ∈ line, ¬ isSpace byte))

namespace TerminalSession

variable {Window : Type} {session : TerminalSession Window} {files : FileSlot → DynamicFile}

/-- The input, the history and the counts. -/
def typed (session : TerminalSession Window) : Typed :=
  ⟨session.inputBuffer, session.inputLen, session.history, session.historyCount,
    session.historyHead, session.linesExecuted⟩

/-- The session with another input, history and counts. -/
def withTyped (session : TerminalSession Window) (typed : Typed) : TerminalSession Window :=
  { session with
    inputBuffer := typed.inputBuffer
    inputLen := typed.inputLen
    history := typed.history
    historyCount := typed.historyCount
    historyHead := typed.historyHead
    linesExecuted := typed.linesExecuted }

@[simp] theorem typed_withTyped (typed : Typed) : (session.withTyped typed).typed = typed := rfl

@[simp] theorem pathState_withTyped (typed : Typed) :
    (session.withTyped typed).pathState = session.pathState := rfl

/-- The session with another input. -/
def withInput (session : TerminalSession Window) (inputBuffer : ℕ → UInt8) (inputLen : UInt32) :
    TerminalSession Window :=
  { session with
    inputBuffer := inputBuffer
    inputLen := inputLen }

/-! ## Functions that do not see what was typed -/

/-- A function of sessions that neither looks at the input, the history and the counts nor
changes them. -/
def Blind (f : TerminalSession Window → TerminalSession Window) : Prop :=
  ∀ session typed, f (session.withTyped typed) = (f session).withTyped typed

section Blind

variable {f g : TerminalSession Window → TerminalSession Window}

theorem Blind.comp (first : Blind f) (second : Blind g) : Blind fun session => g (f session) := by
  intro session typed
  simp only [first session typed, second (f session) typed]

theorem Blind.foldl {Item : Type} {fold : TerminalSession Window → Item → TerminalSession Window}
    (blind : ∀ item, Blind fun session => fold session item) (items : List Item) :
    Blind fun session => items.foldl fold session := by
  induction items with
  | nil => exact fun _ _ => rfl
  | cons item items ih => exact (blind item).comp ih

theorem Blind.ite (condition : Prop) [Decidable condition] (first : Blind f) (second : Blind g) :
    Blind fun session => if condition then f session else g session := by
  intro session typed
  by_cases holds : condition
  · simp only [if_pos holds, first session typed]
  · simp only [if_neg holds, second session typed]

theorem Blind.typed (blind : Blind f) (session : TerminalSession Window) :
    (f session).typed = session.typed := by
  have same := blind session session.typed
  rw [show session.withTyped session.typed = session from rfl] at same
  rw [same, typed_withTyped]

/-- Such a function does not see the input alone either. -/
theorem Blind.withInput (blind : Blind f) (session : TerminalSession Window)
    (inputBuffer : ℕ → UInt8) (inputLen : UInt32) :
    f (session.withInput inputBuffer inputLen) = (f session).withInput inputBuffer inputLen := by
  have kept := blind.typed session
  have same := blind session (session.withInput inputBuffer inputLen).typed
  have cells (typed : Typed) (same : (f session).typed = typed) : (f session).withTyped
      { typed with
        inputBuffer := inputBuffer
        inputLen := inputLen } = (f session).withInput inputBuffer inputLen := by
    subst same
    rfl
  exact same.trans (cells session.typed kept)

end Blind

/-! ## Commands -/

section Commands

theorem blind_hashByte (byte : UInt8) :
    Blind fun session : TerminalSession Window => session.hashByte byte := fun _ _ => rfl

theorem blind_hashText (text : List UInt8) :
    Blind fun session : TerminalSession Window => session.hashText text :=
  (Blind.foldl blind_hashByte text).comp (blind_hashByte 0)

theorem blind_hashU32 (value : UInt32) :
    Blind fun session : TerminalSession Window => session.hashU32 value :=
  (((blind_hashByte value.toUInt8).comp (blind_hashByte (value >>> 8).toUInt8)).comp
    (blind_hashByte (value >>> 16).toUInt8)).comp (blind_hashByte (value >>> 24).toUInt8)

theorem blind_hashEntry (entry : PathStateEntry) :
    Blind fun session : TerminalSession Window => session.hashEntry entry :=
  (blind_hashText entry.name).comp (blind_hashByte _)

theorem blind_setPathState (pathState : PathStateContext) :
    Blind fun session : TerminalSession Window => { session with pathState := pathState } :=
  fun _ _ => rfl

theorem blind_refreshCwdCache : Blind (@refreshCwdCache Window) := by
  intro session typed
  unfold refreshCwdCache
  rw [pathState_withTyped]
  rcases pathStateContextPwd session.pathState fsPathMax with ⟨_ | cwd, pathState⟩
  · rfl
  · rfl

theorem blind_executePwd : Blind (@executePwd Window) := by
  intro session typed
  unfold executePwd
  rw [pathState_withTyped]
  rcases pathStateContextPwd session.pathState fsPathMax with ⟨_ | cwd, pathState⟩
  · exact ((blind_setPathState pathState).comp (blind_hashText _)) session typed
  · exact ((blind_setPathState pathState).comp (blind_hashText cwd)) session typed

theorem blind_executeCd (argv : List (List UInt8)) :
    Blind fun session : TerminalSession Window => session.executeCd argv := by
  intro session typed
  simp only [executeCd, pathState_withTyped]
  rcases pathStateContextCd session.pathState (some (CString.of (argv.getD 1 (ascii "/")))) with
    ⟨_ | _, pathState⟩
  · exact ((blind_setPathState pathState).comp (blind_hashText _)) session typed
  · exact ((blind_setPathState pathState).comp (blind_hashText _)) session typed

theorem blind_executeLs (argv : List (List UInt8)) :
    Blind fun session : TerminalSession Window => session.executeLs files argv := by
  intro session typed
  simp only [executeLs, pathState_withTyped]
  rcases pathStateContextLs files false session.pathState
    (some (CString.of (argv.getD 1 (ascii ".")))) (.room terminalLsMax) with ⟨_ | listed, pathState⟩
  · exact ((blind_setPathState pathState).comp (blind_hashText _)) session typed
  · exact (((blind_setPathState pathState).comp (blind_hashU32 _)).comp
      (Blind.foldl blind_hashEntry listed.entries)) session typed

/-- An argument of `execute_mkdir` that was hashed. -/
def mkdirArg (files : FileSlot → DynamicFile) (arg : List UInt8)
    (session : TerminalSession Window) :
    TerminalSession Window :=
  let made := pathStateContextMkdir files false session.pathState (some (CString.of arg))
  { session with pathState := made.2 }.hashText
    (if made.1 = true then ascii "mkdir:ok" else ascii "mkdir:error")

theorem mkdirArgs_cons (session : TerminalSession Window) (arg : List UInt8)
    (args : List (List UInt8)) : mkdirArgs files session (arg :: args) =
      mkdirArgs files (mkdirArg files arg (session.hashText arg)) args := by
  unfold mkdirArg
  rw [mkdirArgs]
  generalize session.hashText arg = hashed
  simp only
  rcases pathStateContextMkdir files false hashed.pathState (some (CString.of arg)) with
    ⟨_ | _, pathState⟩
  · simp only [Bool.false_eq_true, if_false]
  · simp only [if_true]

theorem blind_mkdirArg (arg : List UInt8) : Blind (@mkdirArg Window files arg) :=
    fun session typed =>
  ((blind_setPathState _).comp (blind_hashText _)) session typed

theorem blind_mkdirArgs (args : List (List UInt8)) :
    Blind fun session : TerminalSession Window => mkdirArgs files session args := by
  induction args with
  | nil => exact fun _ _ => rfl
  | cons arg args ih =>
      simp only [mkdirArgs_cons]
      exact ((blind_hashText arg).comp (blind_mkdirArg arg)).comp ih

theorem blind_catArgs (args : List (List UInt8)) :
    Blind fun session : TerminalSession Window => catArgs files session args := by
  induction args with
  | nil => exact fun _ _ => rfl
  | cons arg args ih =>
      intro session typed
      simp only [catArgs, pathState_withTyped]
      rcases pathStateContextCat files false session.pathState (some (CString.of arg)) with
        ⟨_ | content, pathState⟩
      · exact ((((blind_setPathState pathState).comp (blind_hashText _)).comp
          (blind_hashText arg)).comp ih) session typed
      · exact (((blind_setPathState pathState).comp (blind_hashText content)).comp ih) session typed

theorem blind_executeHelp : Blind (@executeHelp Window) := Blind.foldl blind_hashText _

theorem blind_executeEcho (argv : List (List UInt8)) :
    Blind fun session : TerminalSession Window => session.executeEcho argv :=
  Blind.foldl blind_hashText argv.tail

theorem blind_executeMkdir (argv : List (List UInt8)) :
    Blind fun session : TerminalSession Window => session.executeMkdir files argv :=
  .ite _ (blind_hashText _) (blind_mkdirArgs argv.tail)

theorem blind_executeCat (argv : List (List UInt8)) :
    Blind fun session : TerminalSession Window => session.executeCat files argv :=
  .ite _ (blind_hashText _) (blind_catArgs argv.tail)

/-- **No command** looks at what was typed or changes it. -/
theorem blind_execute (argv : List (List UInt8)) :
    Blind fun session : TerminalSession Window => session.execute files argv := by
  unfold execute
  apply Blind.ite _ blind_executeHelp
  apply Blind.ite _ (blind_executeEcho argv)
  apply Blind.ite _ blind_executePwd
  apply Blind.ite _ (blind_executeCd argv)
  apply Blind.ite _ (blind_executeMkdir argv)
  apply Blind.ite _ (blind_executeLs argv)
  apply Blind.ite _ (blind_executeCat argv)
  exact blind_hashText _

end Commands

/-! ## Lines -/

section Lines

variable {line : List UInt8}

/-- A line that is put into the history and counted. -/
def recorded (session : TerminalSession Window) (line : List UInt8) : TerminalSession Window :=
  let session := session.storeHistory line
  { session with linesExecuted := session.linesExecuted + 1 }

/-- What a line does once it is recorded. -/
def commanded (files : FileSlot → DynamicFile) (line : CString) (session : TerminalSession Window) :
    TerminalSession Window :=
  ((session.hashText line.bytes).execute files
    (shellParseLine line terminalArgvCap)).refreshCwdCache

theorem blind_commanded (line : CString) : Blind (@commanded Window files line) :=
  ((blind_hashText line.bytes).comp (blind_execute _)).comp blind_refreshCwdCache

/-- A line is recorded and run if it has a word, and nothing happens otherwise. -/
theorem executeLine_short (line : CString) (short : line.bytes.length < terminalSessionInputCap) :
    (session.executeLine files (some line)).2 =
      if HasWord line.bytes then commanded files line (session.recorded line.bytes)
      else session := by
  have copied : tsStrCopy terminalSessionInputCap line.bytes = some line.bytes := by
    unfold tsStrCopy
    apply if_neg
    omega
  have words : shellParseLine line terminalArgvCap = [] ↔ ¬ HasWord line.bytes := by
    rw [shellParseLine_eq, List.take_eq_nil_iff, blankWords_eq_nil]
    unfold HasWord
    simp only [OfNat.ofNat_ne_zero, false_or, not_exists, not_and, not_not]
  simp only [executeLine, ran, copied]
  by_cases has : HasWord line.bytes
  · rw [if_neg (fun none_ => words.mp none_ has), if_pos has]
    rfl
  · rw [if_pos (words.mpr has), if_neg has]

theorem linesExecuted_recorded (line : List UInt8) :
    (session.recorded line).linesExecuted = session.linesExecuted + 1 := by
  have kept : (session.storeHistory line).linesExecuted = session.linesExecuted := by
    unfold storeHistory
    simp only
    split <;> rfl
  unfold recorded
  simp only [kept]

theorem recorded_withInput (inputBuffer : ℕ → UInt8) (inputLen : UInt32) :
    (session.withInput inputBuffer inputLen).recorded line =
      (session.recorded line).withInput inputBuffer inputLen := by
  have stores : (session.withInput inputBuffer inputLen).storeHistory line =
      (session.storeHistory line).withInput inputBuffer inputLen := by
    unfold storeHistory
    simp only
    rw [apply_ite fun session : TerminalSession Window => session.withInput inputBuffer inputLen]
    rfl
  unfold recorded
  rw [stores]
  rfl

/-- **A line runs alike with any input**, and leaves it. -/
theorem executeLine_withInput (line : CString)
    (short : line.bytes.length < terminalSessionInputCap) (inputBuffer : ℕ → UInt8)
    (inputLen : UInt32) :
    ((session.withInput inputBuffer inputLen).executeLine files (some line)).2 =
      (session.executeLine files (some line)).2.withInput inputBuffer inputLen := by
  rw [executeLine_short line short, executeLine_short line short]
  by_cases has : HasWord line.bytes
  · rw [if_pos has, if_pos has, recorded_withInput, (blind_commanded line).withInput]
  · rw [if_neg has, if_neg has]

/-- A line leaves the input, and counts and stores itself if it has a word. -/
theorem typed_executeLine (line : CString) (short : line.bytes.length < terminalSessionInputCap) :
    (session.executeLine files (some line)).2.typed =
      if HasWord line.bytes then (session.recorded line.bytes).typed else session.typed := by
  rw [executeLine_short line short]
  by_cases has : HasWord line.bytes
  · rw [if_pos has, if_pos has, (blind_commanded line).typed]
  · rw [if_neg has, if_neg has]

/-- The lines in the history, read around its slots from the head. -/
def readHistory (session : TerminalSession Window) : List (List UInt8) :=
  (List.range (min session.historyCount.toNat 8)).map fun i =>
    session.history ((session.historyHead.toNat + i) % 8)

private theorem toNat_succ {word : UInt32} (small : word.toNat < 8) :
    (word + 1).toNat = word.toNat + 1 := by
  rw [UInt32.toNat_add, UInt32.toNat_one]
  omega

/-- A line that is recorded is pushed into the history. -/
theorem recent_recorded (short : line.length < terminalSessionInputCap)
    (inside : session.historyHead.toNat < 8) :
    (session.recorded line).typed.recent = session.typed.recent.push 8 line := by
  have copied : tsStrCopy terminalSessionInputCap line = some line := by
    unfold tsStrCopy
    apply if_neg
    omega
  have cap : session.historyCount < terminalSessionHistoryCap ↔ session.historyCount.toNat < 8 :=
    UInt32.lt_iff_toNat_lt
  unfold recorded storeHistory
  simp only [copied, Option.getD_some]
  by_cases room : session.historyCount.toNat < 8
  · rw [if_pos (cap.mpr room), Recent.push_room room]
    unfold Typed.recent typed
    simp only [toNat_succ room]
  · have last : terminalSessionHistoryCap ≤ session.historyHead + 1 ↔
        8 ≤ session.historyHead.toNat + 1 := by
      rw [UInt32.le_iff_toNat_le, toNat_succ inside]
      rfl
    rw [if_neg fun less => room (cap.mp less), Recent.push_full room]
    unfold Typed.recent typed advance
    simp only [Recent.mk.injEq, true_and]
    by_cases turns : 8 ≤ session.historyHead.toNat + 1
    · rw [if_pos (last.mpr turns), if_pos turns]
      rfl
    · rw [if_neg fun reached => turns (last.mp reached), if_neg turns]
      exact toNat_succ inside

end Lines

end TerminalSession

end TigerOS.Tty
