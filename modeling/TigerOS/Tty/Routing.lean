import TigerOS.Input.KeyboardQueue
import TigerOS.Tty.Desktop
import TigerOS.Foundation.Lookup
import TigerOS.Wm.Stack

/-! # Keys reach the window they were typed into

Once every terminal is attached, the two tables lead from each attached window back
to itself, whatever happens to the stack and the focus
(`TigerOS.Tty.Wired.dispatch`). What the sessions were given and what still waits
are then always the keys accepted so far, each for the window that was active when
it came, so that a drained queue has routed every key
(`TigerOS.Tty.keyboard_focus_routing`).
-/

namespace TigerOS.Tty

open Foundation TigerOS.Shell TigerOS.Input TigerOS.Wm

variable {Window : Type} [DecidableEq Window]

/-! ## The tables -/

/-- Both tables bind the attached windows to their endpoints, and the scene has no
other windows. -/
structure Wired (endpoint : Window → UInt32) (attached : List Window) (desktop : Desktop Window) :
    Prop where
  sink : desktop.sink = some .wmTerminalWindowDispatchEvent
  keyboard : desktop.keyboardBindings = attached.map fun window => ⟨window, endpoint window⟩
  terminal : desktop.terminalBindings = attached.map fun window => ⟨window, endpoint window⟩
  nonzero : ∀ window ∈ attached, endpoint window ≠ 0
  distinct : (attached.map endpoint).Nodup
  layers : ∀ window ∈ desktop.scene.layers, window ∈ attached
  active : ∀ window, desktop.scene.active = some window → window ∈ attached
  focused : attached ≠ [] → desktop.scene.active ≠ none

section Tables

variable {endpoint : Window → UInt32} {attached : List Window} {desktop : Desktop Window}
  {window : Window}

/-- **The tables lead back**: a key for an attached window goes to its session. -/
theorem Wired.dispatch (wired : Wired endpoint attached desktop) (member : window ∈ attached)
    (event : KeyboardEvent) :
    dispatchToWindowEndpoint desktop (some window) event =
      wmTerminalWindowHandleKey desktop window event := by
  have bound : (⟨window, endpoint window⟩ : EndpointBinding Window) ∈
      attached.map fun window => ⟨window, endpoint window⟩ := List.mem_map_of_mem member
  have byWindow : (findBindingByWindow desktop.keyboardBindings (some window)).bind
      (fun index => desktop.keyboardBindings[index]?) = some ⟨window, endpoint window⟩ := by
    rw [wired.keyboard]
    refine (findIdx?_bind _ _).trans (find?_unique bound (decide_eq_true rfl) ?_)
    intro other inside same
    obtain ⟨window', _, rfl⟩ := List.mem_map.mp inside
    obtain rfl : window' = window := of_decide_eq_true same
    rfl
  have byEndpoint : (findBindingByEndpoint desktop.terminalBindings (endpoint window)).bind
      (fun index => desktop.terminalBindings[index]?) = some ⟨window, endpoint window⟩ := by
    unfold findBindingByEndpoint
    rw [if_neg (wired.nonzero window member), wired.terminal]
    refine (findIdx?_bind _ _).trans (find?_unique bound (decide_eq_true rfl) ?_)
    intro other inside same
    obtain ⟨window', member', rfl⟩ := List.mem_map.mp inside
    rw [entry_inj wired.distinct member' member (of_decide_eq_true same)]
  unfold dispatchToWindowEndpoint
  rw [wired.sink]
  simp only [byWindow, wmTerminalWindowDispatchEvent, byEndpoint]

end Tables

/-! ## Accepted keys -/

/-- The events that a call put into the queue of the keyboard, each with the window
that was active when it came. -/
def acceptedBy (desktop : Desktop Window) (op : DesktopOp Window) :
    List (Option Window × KeyboardEvent) :=
  match op with
  | .scancode _ =>
      ((desktopStep desktop op).2.keyboard.pending.drop desktop.keyboard.pending.length).map
        fun entry => (desktop.scene.active, entry.1)
  | _ => []

/-- The events that a run puts into the queue of the keyboard. -/
def accepted : Desktop Window → List (DesktopOp Window) → List (Option Window × KeyboardEvent)
  | _, [] => []
  | desktop, op :: ops => acceptedBy desktop op ++ accepted (desktops.step desktop op).2 ops

/-- The events that have a window, with it. -/
def routed (events : List (Option Window × KeyboardEvent)) : List (Window × KeyboardEvent) :=
  events.filterMap fun entry => entry.1.map fun window => (window, entry.2)

/-- The events for one window. -/
def eventsOf (window : Window) (events : List (Window × KeyboardEvent)) : List KeyboardEvent :=
  events.filterMap fun entry => if entry.1 = window then some entry.2 else none

/-- A session fed with events alone. -/
def fed (files : FileSlot → DynamicFile) (session : TerminalSession Window)
    (events : List KeyboardEvent) : TerminalSession Window :=
  events.foldl (fun session event => (session.handleEvent files (some event)).2) session

/-- The calls of users and of the loop that serves them. -/
def DesktopOp.IsInput : DesktopOp Window → Prop
  | .scancode _ => True
  | .activate _ => True
  | .dispatchPending => True
  | _ => False

section Accepted

variable {first second : List (Option Window × KeyboardEvent)}
  {delivered : List (Window × KeyboardEvent)} {window : Window} {event : KeyboardEvent}

omit [DecidableEq Window] in
theorem routed_append : routed (first ++ second) = routed first ++ routed second :=
  List.filterMap_append

theorem eventsOf_snoc_same : eventsOf window (delivered ++ [(window, event)]) =
    eventsOf window delivered ++ [event] := by
  unfold eventsOf
  rw [List.filterMap_append, List.filterMap_cons, if_pos rfl]
  rfl

theorem eventsOf_snoc_other {other : Window} (apart : other ≠ window) :
    eventsOf window (delivered ++ [(other, event)]) = eventsOf window delivered := by
  unfold eventsOf
  rw [List.filterMap_append, List.filterMap_cons, if_neg apart]
  exact List.append_nil _

omit [DecidableEq Window] in
theorem fed_snoc (files : FileSlot → DynamicFile) (session : TerminalSession Window)
    (events : List KeyboardEvent) : fed files session (events ++ [event]) =
      ((fed files session events).handleEvent files (some event)).2 := by
  unfold fed
  rw [List.foldl_append]
  rfl

end Accepted

/-! ## What sessions were given -/

/-- The events that wait, each with its window first. -/
def waiting (desktop : Desktop Window) : List (Option Window × KeyboardEvent) :=
  desktop.keyboard.pending.map fun entry => (entry.2, entry.1)

/-- Since the terminals were opened the sessions were given keys, these were all that
the sessions were fed with, and with the keys that wait they are the accepted ones. -/
structure Routed (endpoint : Window → UInt32) (attached : List Window) (opened : Desktop Window)
    (log : List (Option Window × KeyboardEvent)) (desktop : Desktop Window) : Prop where
  wired : Wired endpoint attached desktop
  valid : desktop.keyboard.Valid
  waits : ∀ entry ∈ waiting desktop, ∀ window, entry.1 = some window → window ∈ attached
  files : desktop.files = opened.files
  given : ∃ delivered, desktop.handled = opened.handled ++ delivered ∧
    delivered ++ routed (waiting desktop) = routed log ∧
    ∀ window, (desktop.terminals window).session =
      fed opened.files (opened.terminals window).session (eventsOf window delivered)

section Routed

variable {endpoint : Window → UInt32} {attached : List Window} {opened desktop : Desktop Window}
  {log : List (Option Window × KeyboardEvent)}

/-- A desktop with another queue that waits for the same. -/
theorem Routed.scancode (routed_ : Routed endpoint attached opened log desktop) (scancode : UInt8) :
    Routed endpoint attached opened (log ++ acceptedBy desktop (.scancode scancode))
      (desktopStep desktop (.scancode scancode)).2 := by
  obtain ⟨wired, valid, waits, files, delivered, handled, sums, sessions⟩ := routed_
  obtain ⟨valid', outcome⟩ := scancode_pending valid desktop.scene.active scancode
  have queue : (desktopStep desktop (.scancode scancode)).2.keyboard.pending =
      (keyboardHandleScancode desktop.keyboard desktop.scene.active scancode).2.pending := rfl
  have taken : waiting (desktopStep desktop (.scancode scancode)).2 =
      waiting desktop ++ acceptedBy desktop (.scancode scancode) := by
    unfold waiting acceptedBy
    simp only [queue]
    rcases outcome with same | ⟨event, more⟩
    · rw [same, List.drop_length, List.map_nil, List.append_nil]
    · rw [more, List.drop_left, List.map_append]
      rfl
  refine ⟨⟨wired.sink, wired.keyboard, wired.terminal, wired.nonzero, wired.distinct, wired.layers,
    wired.active, wired.focused⟩, valid', ?_, files, delivered, handled, ?_, sessions⟩
  · rw [taken]
    intro entry member window focus
    rcases List.mem_append.mp member with before | new
    · exact waits entry before window focus
    · unfold acceptedBy at new
      obtain ⟨added, _, rfl⟩ := List.mem_map.mp new
      exact wired.active window focus
  · rw [taken, routed_append, routed_append, ← List.append_assoc, sums]

theorem Routed.activate (routed_ : Routed endpoint attached opened log desktop)
    (window : Option Window) :
    Routed endpoint attached opened log (desktopStep desktop (.activate window)).2 := by
  obtain ⟨wired, valid, waits, files, given⟩ := routed_
  rcases activate_cases desktop.scene window with same |
    ⟨pointer, layers, named, member, moved, same⟩
  · simp only [desktopStep, same]
    exact ⟨wired, valid, waits, files, given⟩
  · simp only [desktopStep, same]
    refine ⟨⟨wired.sink, wired.keyboard, wired.terminal, wired.nonzero, wired.distinct, ?_, ?_, ?_⟩,
      valid, waits, files, given⟩
    · intro other inside
      exact wired.layers other (moved.mem_iff.mp inside)
    · intro other active
      obtain rfl : pointer = other := Option.some.inj (named.symm.trans active)
      exact wired.layers pointer member
    · intro _ unfocused
      cases named.symm.trans unfocused

/-- A key taken off the queue is given to the session of its window. -/
theorem Routed.deliver (routed_ : Routed endpoint attached opened log desktop)
    {keyboard : KeyboardState Window} {event : KeyboardEvent} {focus : Option Window}
    (pop : keyboardPopEvent desktop.keyboard = (some (event, focus), keyboard)) :
    Routed endpoint attached opened log
        (dispatchToWindowEndpoint { desktop with keyboard := keyboard } focus event) ∧
      (dispatchToWindowEndpoint { desktop with keyboard := keyboard } focus event).keyboard =
        keyboard := by
  obtain ⟨wired, valid, waits, files, delivered, handled, sums, sessions⟩ := routed_
  obtain ⟨valid', taken⟩ := pop_pending valid
  rw [pop] at valid' taken
  have front : waiting desktop =
      (focus, event) :: waiting { desktop with keyboard := keyboard } := by
    unfold waiting
    rw [taken]
    rfl
  have waits' : ∀ entry ∈ waiting { desktop with keyboard := keyboard },
      ∀ window, entry.1 = some window → window ∈ attached := fun entry member =>
    waits entry (front ▸ List.mem_cons_of_mem _ member)
  have wired' : Wired endpoint attached { desktop with keyboard := keyboard } :=
    ⟨wired.sink, wired.keyboard, wired.terminal, wired.nonzero, wired.distinct, wired.layers,
      wired.active, wired.focused⟩
  rw [front] at sums
  cases focus with
  | none =>
      have lost : dispatchToWindowEndpoint { desktop with keyboard := keyboard } none event =
          { desktop with keyboard := keyboard } := by
        unfold dispatchToWindowEndpoint
        rw [wired'.sink]
        rfl
      rw [lost]
      exact ⟨⟨wired', valid', waits', files, delivered, handled, sums, sessions⟩, rfl⟩
  | some window =>
      have member : window ∈ attached :=
        waits (some window, event) (front ▸ List.mem_cons_self) window rfl
      rw [wired'.dispatch member event]
      refine ⟨⟨⟨wired.sink, wired.keyboard, wired.terminal, wired.nonzero, wired.distinct,
        wired.layers, wired.active, wired.focused⟩, valid', waits', files,
        delivered ++ [(window, event)], ?_, ?_, ?_⟩, rfl⟩
      · change desktop.handled ++ [(window, event)] = _
        rw [handled, List.append_assoc]
      · rw [List.append_assoc]
        exact sums
      · intro other
        change (Function.update desktop.terminals window _ other).session = _
        by_cases same : other = window
        · subst same
          rw [Function.update_self, eventsOf_snoc_same, fed_snoc, ← sessions, ← files]
        · rw [Function.update_of_ne same, eventsOf_snoc_other (Ne.symm same)]
          exact sessions other

/-- The loop gives every key that waits to its session. -/
theorem Routed.loop (routed_ : Routed endpoint attached opened log desktop) (rounds : ℕ)
    (processed : UInt32) (enough : desktop.keyboard.ring.count ≤ rounds) :
    Routed endpoint attached opened log (dispatchLoop rounds processed desktop).2 ∧
      (dispatchLoop rounds processed desktop).2.keyboard.ring.count = 0 := by
  induction rounds generalizing desktop processed with
  | zero => exact ⟨routed_, Nat.le_zero.mp enough⟩
  | succ rounds ih =>
      unfold dispatchLoop
      by_cases none_ : desktop.keyboard.ring.count = 0
      · have pop : keyboardPopEvent desktop.keyboard = (none, desktop.keyboard) := if_pos none_
        simp only [pop]
        exact ⟨routed_, none_⟩
      · obtain ⟨⟨event, focus⟩, keyboard, pop, fewer⟩ := pop_some none_
        obtain ⟨next, kept⟩ := routed_.deliver pop
        simp only [pop]
        apply ih next
        rw [kept, fewer]
        exact Nat.sub_le_of_le_add enough

/-- Every call of users and of the loop keeps keys and sessions together. -/
theorem Routed.step (routed_ : Routed endpoint attached opened log desktop) {op : DesktopOp Window}
    (input : op.IsInput) : Routed endpoint attached opened (log ++ acceptedBy desktop op)
      (desktops.step desktop op).2 := by
  cases op with
  | scancode scancode => exact routed_.scancode scancode
  | activate window =>
      change Routed endpoint attached opened (log ++ []) _
      rw [List.append_nil]
      exact routed_.activate window
  | dispatchPending =>
      change Routed endpoint attached opened (log ++ []) _
      rw [List.append_nil]
      exact (routed_.loop _ 0 le_rfl).1
  | _ => exact absurd input id

/-- Every run of such calls keeps keys and sessions together. -/
theorem Routed.run (routed_ : Routed endpoint attached opened log desktop)
    {ops : List (DesktopOp Window)} (input : ∀ op ∈ ops, op.IsInput) :
    Routed endpoint attached opened (log ++ accepted desktop ops) (desktops.state desktop ops) := by
  induction ops generalizing log desktop with
  | nil =>
      unfold accepted
      rw [List.append_nil]
      exact routed_
  | cons op ops ih =>
      have next := routed_.step (input op List.mem_cons_self)
      unfold accepted
      rw [← List.append_assoc]
      exact ih next fun later member => input later (List.mem_cons_of_mem _ member)

/-- A key comes while some window is active, unless no terminal is attached. -/
theorem Routed.accepted_focused (routed_ : Routed endpoint attached opened log desktop)
    (some_ : attached ≠ []) {ops : List (DesktopOp Window)} (input : ∀ op ∈ ops, op.IsInput) :
    ∀ entry ∈ accepted desktop ops, entry.1 ≠ none := by
  induction ops generalizing log desktop with
  | nil => exact fun _ member => absurd member List.not_mem_nil
  | cons op ops ih =>
      intro entry member
      rcases List.mem_append.mp member with now | later
      · unfold acceptedBy at now
        split at now
        · obtain ⟨added, _, rfl⟩ := List.mem_map.mp now
          exact routed_.wired.focused some_
        · cases now
      · exact ih (routed_.step (input op List.mem_cons_self))
          (fun other inside => input other (List.mem_cons_of_mem _ inside)) entry later

end Routed

/-! ## Opening terminals -/

/-- The endpoint of the session of a window. -/
def Desktop.endpoint (desktop : Desktop Window) (window : Window) : UInt32 :=
  (desktop.terminals window).session.endpointId

/-- Terminal windows are initialised, each once and with an endpoint that is not zero,
and attached once they are. -/
def SetsUp : List Window → List (DesktopOp Window) → Prop
  | _, [] => True
  | made, .init (some window) _ _ _ _ _ endpointId _ :: ops =>
      window ∉ made ∧ endpointId ≠ 0 ∧ SetsUp (window :: made) ops
  | made, .attach (some window) :: ops => window ∈ made ∧ SetsUp made ops
  | _, _ => False

/-- The desktop with everything reset, and the terminals as the sink of the keyboard. -/
def cleared (start : Desktop Window) (backgroundColor : UInt32) : Desktop Window :=
  desktops.state start [.keyboardReset, .keyboardDispatchReset, .terminalDispatchReset,
    .setSink (some .wmTerminalWindowDispatchEvent), .compositorReset backgroundColor]

/-- The tables are wired to what was attached, all of it made before. -/
structure SettingUp (made attached : List Window) (desktop : Desktop Window) : Prop where
  wired : Wired desktop.endpoint attached desktop
  layers : desktop.scene.layers = attached
  known : ∀ window ∈ attached, window ∈ made
  ready : ∀ window ∈ made, desktop.endpoint window ≠ 0
  valid : desktop.keyboard.Valid
  waits : waiting desktop = []

section SetUp

variable {made attached : List Window} {desktop : Desktop Window} {pointer : Window}

omit [DecidableEq Window] in
@[simp] theorem endpointId_hashByte (session : TerminalSession Window) (byte : UInt8) :
    (session.hashByte byte).endpointId = session.endpointId := by
  obtain ⟨marker, same⟩ := session.exists_marker byte
  rw [same]

omit [DecidableEq Window] in
@[simp] theorem endpointId_refreshCwdCache (session : TerminalSession Window) :
    session.refreshCwdCache.endpointId = session.endpointId := by
  unfold TerminalSession.refreshCwdCache
  generalize pathStateContextPwd session.pathState _ = out
  obtain ⟨_ | cwd, pathState⟩ := out <;> rfl

omit [DecidableEq Window] in
theorem endpointId_init (session : TerminalSession Window) {endpointId : UInt32}
    (nonzero : endpointId ≠ 0) (window : Option Window) :
    (session.init endpointId window).endpointId = endpointId := by
  unfold TerminalSession.init TerminalSession.initialized
  rw [if_neg nonzero]
  simp only [endpointId_refreshCwdCache, TerminalSession.hashU32, endpointId_hashByte]

/-- An attach that succeeds passed all three tables. -/
theorem attach_success
    (attaches : (wmTerminalWindowAttach desktop (some pointer)).1 = true) :
    ∃ bindings scene keyboardBindings,
      registerTerminalWindow desktop.terminalBindings pointer (desktop.endpoint pointer) =
        (true, bindings) ∧
      wmCompositorAddWindow desktop.native desktop.scene (some pointer) = (true, scene) ∧
      keyboardDispatchRegisterWindow desktop.keyboardBindings (some pointer)
        (desktop.endpoint pointer) = (true, keyboardBindings) ∧
      (wmTerminalWindowAttach desktop (some pointer)).2 = { desktop with
        terminalBindings := bindings
        scene := scene
        keyboardBindings := keyboardBindings } := by
  simp only [wmTerminalWindowAttach] at attaches ⊢
  change ∃ bindings scene keyboardBindings, registerTerminalWindow desktop.terminalBindings pointer
      (desktop.terminals pointer).session.endpointId = _ ∧ _ ∧ _ ∧ _
  generalize registerTerminalWindow desktop.terminalBindings pointer
    (desktop.terminals pointer).session.endpointId = registered at attaches ⊢
  generalize wmCompositorAddWindow desktop.native desktop.scene (some pointer) = added at attaches ⊢
  obtain ⟨_ | _, bindings⟩ := registered
  · cases attaches
  obtain ⟨_ | _, scene⟩ := added
  · simp only at attaches
    split at attaches <;> cases attaches
  · generalize bound : keyboardDispatchRegisterWindow desktop.keyboardBindings (some pointer)
      (desktop.terminals pointer).session.endpointId = keys at attaches ⊢
    obtain ⟨_ | _, keyboardBindings⟩ := keys
    · cases attaches
    · exact ⟨bindings, scene, keyboardBindings, rfl, rfl, bound, rfl⟩

omit [DecidableEq Window] in
/-- Bindings with endpoints that agree on the attached windows. -/
theorem bindings_congr {endpoint endpoint' : Window → UInt32}
    (same : ∀ window ∈ attached, endpoint' window = endpoint window) :
    (attached.map fun window => (⟨window, endpoint' window⟩ : EndpointBinding Window)) =
      attached.map fun window => ⟨window, endpoint window⟩ :=
  List.map_congr_left fun window member => by rw [same window member]

/-- Initialising a terminal window that was not touches no attached one. -/
theorem SettingUp.init (settingUp : SettingUp made attached desktop) (fresh : pointer ∉ made)
    {endpointId : UInt32} (nonzero : endpointId ≠ 0) (title : Option CString)
    (x y width height ownerTaskId : UInt32) :
    SettingUp (pointer :: made) attached
      (wmTerminalWindowInit desktop (some pointer) title x y width height endpointId
        ownerTaskId) := by
  obtain ⟨wired, layers, known, ready, valid, waits⟩ := settingUp
  generalize after : wmTerminalWindowInit desktop (some pointer) title x y width height endpointId
    ownerTaskId = desktop'
  have here : desktop'.endpoint pointer = endpointId := by
    rw [← after]
    simp only [wmTerminalWindowInit, Desktop.endpoint, Function.update_self]
    exact endpointId_init _ nonzero _
  have elsewhere (window : Window) (other : window ≠ pointer) :
      desktop'.endpoint window = desktop.endpoint window := by
    rw [← after]
    simp only [wmTerminalWindowInit, Desktop.endpoint, Function.update_of_ne other]
  have apart (window : Window) (member : window ∈ attached) : window ≠ pointer := by
    rintro rfl
    exact fresh (known window member)
  have same (window : Window) (member : window ∈ attached) :
      desktop'.endpoint window = desktop.endpoint window := elsewhere window (apart window member)
  have tables : desktop'.sink = desktop.sink ∧
    desktop'.keyboardBindings = desktop.keyboardBindings ∧
      desktop'.terminalBindings = desktop.terminalBindings ∧ desktop'.scene = desktop.scene ∧
      desktop'.keyboard = desktop.keyboard := by
    rw [← after]
    exact ⟨rfl, rfl, rfl, rfl, rfl⟩
  obtain ⟨sink, keyboard, terminal, scene, queue⟩ := tables
  refine ⟨⟨sink.trans wired.sink, ?_, ?_, ?_, ?_, ?_, ?_, ?_⟩, ?_, ?_, ?_, ?_, ?_⟩
  · rw [keyboard, wired.keyboard, bindings_congr same]
  · rw [terminal, wired.terminal, bindings_congr same]
  · intro window member
    rw [same window member]
    exact wired.nonzero window member
  · rw [List.map_congr_left same]
    exact wired.distinct
  · rw [scene]
    exact wired.layers
  · rw [scene]
    exact wired.active
  · rw [scene]
    exact wired.focused
  · rw [scene]
    exact layers
  · exact fun window member => List.mem_cons_of_mem _ (known window member)
  · intro window member
    rcases List.mem_cons.mp member with rfl | before
    · rw [here]
      exact nonzero
    · rw [elsewhere window fun same => fresh (same ▸ before)]
      exact ready window before
  · unfold KeyboardState.Valid
    rw [queue]
    exact valid
  · unfold waiting
    rw [queue]
    exact waits

theorem findBindingByWindow_none {endpoint : Window → UInt32} (absent : pointer ∉ attached) :
    findBindingByWindow (attached.map fun window => ⟨window, endpoint window⟩) (some pointer) =
      none := by
  refine List.findIdx?_eq_none_iff.mpr ?_
  intro binding member
  obtain ⟨window, inside, rfl⟩ := List.mem_map.mp member
  exact decide_eq_false fun same => absent (same ▸ inside)

/-- Attaching an initialised terminal window adds it to both tables and the stack. -/
theorem SettingUp.attach (settingUp : SettingUp made attached desktop) (member : pointer ∈ made)
    (attaches : (wmTerminalWindowAttach desktop (some pointer)).1 = true) :
    SettingUp made (attached ++ [pointer]) (wmTerminalWindowAttach desktop (some pointer)).2 := by
  obtain ⟨wired, layers, known, ready, valid, waits⟩ := settingUp
  obtain ⟨bindings, scene, keyboardBindings, registered, added, bound, after⟩ :=
    attach_success attaches
  rcases addWindow_cases desktop.native desktop.scene (some pointer) with refused |
    ⟨other, named, _, absent, _, accepted⟩
  · cases added.symm.trans refused
  obtain rfl : pointer = other := Option.some.inj named
  obtain rfl : scene = _ := (Prod.mk.inj (added.symm.trans accepted)).2
  rw [layers] at absent
  have nonzero := ready pointer member
  rw [after]
  have own : bindings = desktop.terminalBindings ++ [⟨pointer, desktop.endpoint pointer⟩] ∧
      desktop.endpoint pointer ∉ attached.map desktop.endpoint := by
    unfold registerTerminalWindow at registered
    rw [if_neg nonzero, wired.terminal, findBindingByWindow_none absent] at registered
    simp only at registered
    split at registered
    · cases registered
    rename_i unused
    split at registered
    · cases registered
    refine ⟨?_, fun used => unused ?_⟩
    · rw [wired.terminal]
      exact (Prod.mk.inj registered).2.symm
    · obtain ⟨window, inside, same⟩ := List.mem_map.mp used
      unfold findBindingByEndpoint
      rw [if_neg nonzero, List.findIdx?_isSome]
      exact List.any_eq_true.mpr ⟨_, List.mem_map_of_mem inside, decide_eq_true same⟩
  have keys : keyboardBindings = desktop.keyboardBindings ++
    [⟨pointer, desktop.endpoint pointer⟩] := by
    unfold keyboardDispatchRegisterWindow at bound
    simp only [if_neg nonzero, wired.keyboard, findBindingByWindow_none absent] at bound
    split at bound
    · cases bound
    · rw [wired.keyboard]
      exact (Prod.mk.inj bound).2.symm
  have inside (window : Window) (before : window ∈ attached) : window ∈ attached ++ [pointer] :=
    List.mem_append_left _ before
  have new : pointer ∈ attached ++ [pointer] := List.mem_append_right _ List.mem_cons_self
  refine ⟨⟨wired.sink, ?_, ?_, ?_, ?_, ?_, ?_, ?_⟩, ?_, ?_, ready, valid, waits⟩
  · change keyboardBindings = _
    rw [keys, wired.keyboard, List.map_append]
    rfl
  · change bindings = _
    rw [own.1, wired.terminal, List.map_append]
    rfl
  · intro window either
    rcases List.mem_append.mp either with before | last
    · exact wired.nonzero window before
    · rw [List.mem_singleton.mp last]
      exact nonzero
  · change ((attached ++ [pointer]).map desktop.endpoint).Nodup
    rw [List.map_append, List.map_singleton, ← List.concat_eq_append]
    exact wired.distinct.concat own.2
  · intro window either
    rcases List.mem_append.mp either with before | last
    · exact inside window (wired.layers window before)
    · rw [List.mem_singleton.mp last]
      exact new
  · intro window active
    rw [← Option.some.inj active]
    exact new
  · exact fun _ unfocused => by cases unfocused
  · change desktop.scene.layers ++ [pointer] = _
    rw [layers]
  · intro window either
    rcases List.mem_append.mp either with before | last
    · exact known window before
    · rw [List.mem_singleton.mp last]
      exact member

/-- What a set-up whose calls succeed leaves. -/
theorem SettingUp.run (settingUp : SettingUp made attached desktop)
    {setup : List (DesktopOp Window)} (setsUp : SetsUp made setup)
    (succeed : ∀ answer ∈ desktops.results desktop setup, answer ≠ .status false) :
    ∃ made' attached', SettingUp made' attached' (desktops.state desktop setup) := by
  induction setup generalizing made attached desktop with
  | nil => exact ⟨made, attached, settingUp⟩
  | cons op ops ih =>
      have later : ∀ answer ∈ desktops.results (desktops.step desktop op).2 ops,
          answer ≠ .status false := fun answer member =>
            succeed answer (List.mem_cons_of_mem _ member)
      cases op with
      | init terminalWindow title x y width height endpointId ownerTaskId =>
          cases terminalWindow with
          | none => exact absurd setsUp id
          | some pointer =>
              obtain ⟨fresh, nonzero, rest⟩ := setsUp
              exact ih (settingUp.init fresh nonzero title x y width height ownerTaskId) rest later
      | attach terminalWindow =>
          cases terminalWindow with
          | none => exact absurd setsUp id
          | some pointer =>
              obtain ⟨member, rest⟩ := setsUp
              have attaches : (wmTerminalWindowAttach desktop (some pointer)).1 = true := by
                have answer := succeed _ List.mem_cons_self
                change DesktopAnswer.status (wmTerminalWindowAttach desktop (some pointer)).1 ≠ _
                  at answer
                rcases Bool.eq_false_or_eq_true
                  (wmTerminalWindowAttach desktop (some pointer)).1 with
                  success | failure
                · exact success
                · exact absurd (congrArg DesktopAnswer.status failure) answer
              exact ih (settingUp.attach member attaches) rest later
      | _ => exact absurd setsUp id

theorem settingUp_cleared (start : Desktop Window) (backgroundColor : UInt32) :
    SettingUp [] [] (cleared start backgroundColor) where
  wired := ⟨rfl, rfl, rfl, fun _ member => absurd member List.not_mem_nil, List.nodup_nil,
    fun _ member => absurd member List.not_mem_nil, (fun _ active => by cases active),
    fun some_ => absurd rfl some_⟩
  layers := rfl
  known := fun _ member => absurd member List.not_mem_nil
  ready := fun _ member => absurd member List.not_mem_nil
  valid := valid_keyboardReset
  waits := rfl

end SetUp

/-! ## Routing -/

/-- **Keys reach the window they were typed into.** Once terminals are opened, a run
of scancodes, activations and dispatches that drains the queue has given the
sessions exactly the accepted keys, in order, each once and to the session of the
window that was active when the key came, which is some window unless none is open;
and every session is as if it had been fed its own keys alone. -/
theorem keyboard_focus_routing (start : Desktop Window) (backgroundColor : UInt32)
    (setup run : List (DesktopOp Window)) (setsUp : SetsUp [] setup)
    (succeed : ∀ answer ∈ desktops.results (cleared start backgroundColor) setup,
      answer ≠ .status false)
    (input : ∀ op ∈ run, op.IsInput)
    (drained : (desktops.state (desktops.state (cleared start backgroundColor) setup)
      run).keyboard.ring.count = 0) :
    let opened := desktops.state (cleared start backgroundColor) setup
    let final := desktops.state opened run
    final.handled = opened.handled ++ routed (accepted opened run) ∧
      (opened.scene.layers ≠ [] → ∀ entry ∈ accepted opened run, entry.1 ≠ none) ∧
      ∀ window, (final.terminals window).session =
        fed opened.files (opened.terminals window).session
          (eventsOf window (routed (accepted opened run))) := by
  intro opened final
  obtain ⟨made, attached, settingUp⟩ := (settingUp_cleared start backgroundColor).run setsUp succeed
  have begins : Routed opened.endpoint attached opened [] opened :=
    ⟨settingUp.wired, settingUp.valid, fun entry member => by
      rw [settingUp.waits] at member
      exact absurd member List.not_mem_nil, rfl, [], (List.append_nil _).symm, by
      rw [settingUp.waits]
      rfl, fun _ => rfl⟩
  have ends := begins.run input
  rw [List.nil_append] at ends
  obtain ⟨delivered, handled, sums, sessions⟩ := ends.given
  have empty : waiting final = [] := by
    unfold waiting KeyboardState.pending
    rw [RingIndex.contents_eq_nil drained]
    rfl
  have all : delivered = routed (accepted opened run) := by
    rw [← sums, empty]
    exact (List.append_nil _).symm
  rw [← all]
  refine ⟨handled, ?_, sessions⟩
  rw [settingUp.layers]
  exact fun some_ => begins.accepted_focused some_ input

/-- Two terminals, and a key typed into each before any is dispatched. -/
theorem keyboard_focus_routing_two :
    (desktops.state (desktops.state (cleared (Desktop.zero : Desktop Bool) 0)
        [.init (some false) none 28 28 236 156 1 101, .init (some true) none 108 76 236 156 2 202,
          .attach (some false), .attach (some true)])
      [.scancode 0x1e, .activate (some false), .scancode 0x30, .dispatchPending]).handled.map
        (fun entry => (entry.1, entry.2.text)) = [(true, 0x61), (false, 0x62)] := by
  have routed_ := keyboard_focus_routing (Desktop.zero : Desktop Bool) 0
    [.init (some false) none 28 28 236 156 1 101, .init (some true) none 108 76 236 156 2 202,
      .attach (some false), .attach (some true)]
    [.scancode 0x1e, .activate (some false), .scancode 0x30, .dispatchPending]
    ⟨by decide, by decide, by decide, by decide, by decide, by decide, trivial⟩ (by decide +kernel)
    (by simp [DesktopOp.IsInput]) (by decide +kernel)
  rw [routed_.1]
  decide +kernel

end TigerOS.Tty
