import TigerOS.Foundation.Isolation
import TigerOS.Tty.Session

/-! # Sessions and the shell side by side

The shell and the sessions run the same path-state code on one set of files. A
session never looks at the files, so what the shell writes makes no difference to
it, and a session changes nothing but itself: every party gets what it would get
alone (`TigerOS.Tty.context_isolation`).
-/

namespace TigerOS.Tty

open Foundation TigerOS.Dir TigerOS.Shell TigerOS.Input

/-- The globals of `path_state.c` and the sessions, each at an address. -/
structure Contexts (Address Window : Type) where
  store : PathStore
  sessions : Address → TerminalSession Window

/-- What happens: a call on the default context, or a call on a session. -/
inductive ContextOp (Address Window : Type) where
  | shell (op : PathOp)
  | init (address : Address) (endpointId : UInt32) (window : Option Window)
  | key (address : Address) (event : Option KeyboardEvent)
  | line (address : Address) (line : Option CString)

/-- What a call answers. -/
inductive ContextAnswer where
  | done
  | shell (answer : PathAnswer)
  | status (succeeded : Bool)

section Step

variable {Address Window : Type} [DecidableEq Address]

/-- A session rewritten. -/
def Contexts.setSession (world : Contexts Address Window) (address : Address)
    (session : TerminalSession Window) : Contexts Address Window :=
  { world with sessions := Function.update world.sessions address session }

def contextStep (world : Contexts Address Window) :
    ContextOp Address Window → ContextAnswer × Contexts Address Window
  | .shell op =>
      let (answer, store) := pathStep world.store op
      (.shell answer, { world with store := store })
  | .init address endpointId window =>
      (.done, world.setSession address ((world.sessions address).init endpointId window))
  | .key address event =>
      let (status, session) := (world.sessions address).handleEvent world.store.files event
      (.status status, world.setSession address session)
  | .line address line =>
      let (status, session) := (world.sessions address).executeLine world.store.files line
      (.status status, world.setSession address session)

/-- The shell and the sessions as a machine answering calls. -/
def contexts : Machine (Contexts Address Window) (ContextOp Address Window) ContextAnswer :=
  ⟨contextStep⟩

/-- The party a call belongs to: a session, or the shell. -/
def ContextOp.owner : ContextOp Address Window → Option Address
  | .shell _ => none
  | .init address _ _ => some address
  | .key address _ => some address
  | .line address _ => some address

/-- What belongs to a party: the files and the default context, or a session. -/
def PartyState (Window : Type) : Option Address → Type
  | none => PathStore
  | some _ => TerminalSession Window

def partyState : ∀ party : Option Address, Contexts Address Window → PartyState Window party
  | none, world => world.store
  | some address, world => world.sessions address

end Step

/-! ## Files and sessions -/

section Files

variable {Window : Type} {files files' : FileSlot → DynamicFile} {ctx : PathStateContext}
  {session : TerminalSession Window}

theorem contextMkdir_files (path : Option CString) :
    pathStateContextMkdir files false ctx path = pathStateContextMkdir files' false ctx path := by
  simp only [pathStateContextMkdir, dynamicFileIn, Bool.false_eq_true, ↓reduceIte]

theorem contextLs_files (path : Option CString) (buffer : EntryBuffer) :
    pathStateContextLs files false ctx path buffer =
      pathStateContextLs files' false ctx path buffer := by
  simp only [pathStateContextLs, listDirectory, dynamicFileIn, Bool.false_eq_true, ↓reduceIte]

theorem contextCat_files (path : Option CString) :
    pathStateContextCat files false ctx path = pathStateContextCat files' false ctx path := by
  simp only [pathStateContextCat, dynamicFileIn, Bool.false_eq_true, ↓reduceIte]

theorem mkdirArgs_files (args : List (List UInt8)) :
    TerminalSession.mkdirArgs files session args =
      TerminalSession.mkdirArgs files' session args := by
  induction args generalizing session with
  | nil => rfl
  | cons arg args ih =>
      simp only [TerminalSession.mkdirArgs, @contextMkdir_files files files', ih]

theorem catArgs_files (args : List (List UInt8)) :
    TerminalSession.catArgs files session args = TerminalSession.catArgs files' session args := by
  induction args generalizing session with
  | nil => rfl
  | cons arg args ih => simp only [TerminalSession.catArgs, @contextCat_files files files', ih]

theorem execute_files (argv : List (List UInt8)) :
    session.execute files argv = session.execute files' argv := by
  simp only [TerminalSession.execute, TerminalSession.executeMkdir, TerminalSession.executeLs,
    TerminalSession.executeCat, @mkdirArgs_files _ files files', @contextLs_files files files',
    @catArgs_files _ files files']

/-- A line runs alike whatever files the shell wrote. -/
theorem executeLine_files (line : Option CString) :
    session.executeLine files line = session.executeLine files' line := by
  simp only [TerminalSession.executeLine, TerminalSession.ran, @execute_files _ files files']

/-- An event is handled alike whatever files the shell wrote. -/
theorem handleEvent_files (event : Option KeyboardEvent) :
    session.handleEvent files event = session.handleEvent files' event := by
  simp only [TerminalSession.handleEvent, @executeLine_files _ files files']

end Files

/-! ## Isolation -/

section Isolation

variable {Address Window : Type} [DecidableEq Address]

theorem partyState_setSession (world : Contexts Address Window) {address : Address}
    {party : Option Address} (other : some address ≠ party) (session : TerminalSession Window) :
    partyState party (world.setSession address session) = partyState party world := by
  cases party with
  | none => rfl
  | some address' =>
      have apart : address' ≠ address := fun same => other (congrArg some same.symm)
      exact Function.update_of_ne apart _ _

/-- A call that comes to the same on two sessions is answered alike and leaves the same
session. -/
private theorem setSession_own (first second : Contexts Address Window) (address : Address)
    {out out' : Bool × TerminalSession Window} (same : out = out') :
    ContextAnswer.status out.1 = .status out'.1 ∧
      (first.setSession address out.2).sessions address =
        (second.setSession address out'.2).sessions address := by
  subst same
  have here (world : Contexts Address Window) :
      (world.setSession address out.2).sessions address = out.2 := Function.update_self _ _ _
  exact ⟨rfl, (here first).trans (here second).symm⟩

/-- A call acts on what belongs to its party, and answers by that alone. -/
theorem contexts_isolated :
    (@contexts Address Window _).Isolated ContextOp.owner partyState where
  foreign := by
    intro world op party other
    cases op with
    | shell op =>
        cases party with
        | none => exact absurd rfl other
        | some address => rfl
    | init address endpointId window => exact partyState_setSession world other _
    | key address event => exact partyState_setSession world other _
    | line address line => exact partyState_setSession world other _
  own := by
    intro first second op alike
    cases op with
    | shell op =>
        have same : first.store = second.store := alike
        change ContextAnswer.shell (pathStep first.store op).1 =
          .shell (pathStep second.store op).1 ∧
          (pathStep first.store op).2 = (pathStep second.store op).2
        rw [same]
        exact ⟨rfl, rfl⟩
    | init address endpointId window =>
        have same : first.sessions address = second.sessions address := alike
        have made := congrArg
          (fun session => (true, TerminalSession.init session endpointId window))
          same
        exact ⟨rfl, (setSession_own first second address made).2⟩
    | key address event =>
        have same : first.sessions address = second.sessions address := alike
        have handled := congrArg (fun session =>
          TerminalSession.handleEvent session first.store.files event) same
        exact setSession_own first second address (handled.trans (handleEvent_files event))
    | line address line =>
        have same : first.sessions address = second.sessions address := alike
        have ran := congrArg (fun session =>
          TerminalSession.executeLine session first.store.files line) same
        exact setSession_own first second address (ran.trans (executeLine_files line))

/-- **No party tells the others from nothing**: in any interleaving the shell and
every session get the answers, and end in the state, of a run of their own calls
alone. -/
theorem context_isolation (start : Contexts Address Window) (ops : List (ContextOp Address Window))
    (party : Option Address) :
    contexts.answersTo ContextOp.owner party start ops =
        contexts.results start (Machine.ownOps ContextOp.owner party ops) ∧
      partyState party (contexts.state start ops) =
        partyState party (contexts.state start (Machine.ownOps ContextOp.owner party ops)) :=
  contexts_isolated.run rfl ops

end Isolation

end TigerOS.Tty
