import TigerOS.Tty.Routing
import TigerOS.Wm.Stack

/-! # Attaches that fail

An attach enters a terminal into three tables one after the other, and takes back only a first
registration that the compositor does not follow. A terminal that was registered before keeps its
new endpoint, and a full table of the keyboard is noticed last. A failed attach leaves the tables
as they were exactly when neither of these comes to pass (`TigerOS.Tty.failed_attach_unchanged`).
-/

namespace TigerOS.Tty

open Foundation TigerOS.Wm

variable {Window : Type} [DecidableEq Window]

section Conditions

variable (desktop : Desktop Window)

/-- An attach that fails leaves the tables, the stack and the active window as they were. -/
def AttachUnchanged (terminalWindow : Option Window) : Prop :=
  let after := (wmTerminalWindowAttach desktop terminalWindow).2
  (wmTerminalWindowAttach desktop terminalWindow).1 = false →
    after.terminalBindings = desktop.terminalBindings ∧
      after.keyboardBindings = desktop.keyboardBindings ∧
      after.scene.layers = desktop.scene.layers ∧ after.scene.active = desktop.scene.active

/-- A window is in a table. -/
def IsBound (bindings : List (EndpointBinding Window)) (pointer : Window) : Prop :=
  ∃ binding ∈ bindings, binding.window = pointer

instance (bindings : List (EndpointBinding Window)) (pointer : Window) :
    Decidable (IsBound bindings pointer) :=
  inferInstanceAs (Decidable (∃ binding ∈ bindings, binding.window = pointer))

/-- A terminal can be registered: its endpoint is not zero and no other terminal's, and it has a
binding or there is room for one. -/
structure Registrable (pointer : Window) : Prop where
  nonzero : desktop.endpoint pointer ≠ 0
  own : ∀ binding ∈ desktop.terminalBindings,
    binding.endpointId = desktop.endpoint pointer → binding.window = pointer
  room : IsBound desktop.terminalBindings pointer ∨ desktop.terminalBindings.length < wmMaxWindows

/-- Nothing is left behind by an attach that fails: the terminal cannot be registered, or it can
be added to the stack and the table of the keyboard takes it, or it cannot be added but has no
binding to another endpoint. -/
def AttachClean : Option Window → Prop
  | none => True
  | some pointer =>
      Registrable desktop pointer →
        if Addable desktop.native desktop.scene pointer then
          IsBound desktop.keyboardBindings pointer ∨ desktop.keyboardBindings.length < wmMaxWindows
        else
          ∀ binding ∈ desktop.terminalBindings, binding.window = pointer →
            binding.endpointId = desktop.endpoint pointer

end Conditions

/-! ## The tables -/

section Tables

variable {bindings : List (EndpointBinding Window)} {pointer : Window} {endpointId : UInt32}

/-- Looking a window up. -/
theorem findBindingByWindow_cases (bindings : List (EndpointBinding Window)) (pointer : Window) :
    (findBindingByWindow bindings (some pointer) = none ∧ ¬ IsBound bindings pointer) ∨
      ∃ index, ∃ inside : index < bindings.length,
        findBindingByWindow bindings (some pointer) = some index ∧
          bindings[index].window = pointer := by
  rcases findIdx?_cases EndpointBinding.window bindings pointer with ⟨none_, absent⟩ | found
  · exact .inl ⟨none_, fun ⟨binding, member, same⟩ => absent binding member same⟩
  · exact .inr found

/-- The keyboard takes a window that it has a binding or room for. -/
theorem keyboardDispatchRegisterWindow_fst (nonzero : endpointId ≠ 0) :
    (keyboardDispatchRegisterWindow bindings (some pointer) endpointId).1 = true ↔
      IsBound bindings pointer ∨ bindings.length < wmMaxWindows := by
  unfold keyboardDispatchRegisterWindow
  simp only [if_neg nonzero]
  rcases findBindingByWindow_cases bindings pointer with
    ⟨none_, absent⟩ | ⟨index, inside, found, here⟩
  · rw [none_]
    by_cases full : wmMaxWindows ≤ bindings.length
    · simp only [if_pos full]
      exact iff_of_false Bool.noConfusion (fun room => room.elim absent (Nat.not_lt.mpr full))
    · simp only [if_neg full]
      exact iff_of_true trivial (.inr (Nat.lt_of_not_le full))
  · rw [found]
    exact iff_of_true rfl (.inl ⟨_, List.getElem_mem inside, here⟩)

/-- A new entry is taken back as it was made. -/
theorem unregister_concat (absent : ¬ IsBound bindings pointer) :
    unregisterTerminalWindow (bindings ++ [⟨pointer, endpointId⟩]) pointer = bindings := by
  have last : findBindingByWindow (bindings ++ [⟨pointer, endpointId⟩]) (some pointer) =
      some bindings.length := by
    have before : (bindings.findIdx? fun binding => binding.window = pointer) = none :=
      List.findIdx?_eq_none_iff.mpr
        (fun binding member => decide_eq_false (fun same => absent ⟨binding, member, same⟩))
    unfold findBindingByWindow
    rw [Option.bind_some, List.findIdx?_append, before, List.findIdx?_cons, decide_eq_true rfl]
    simp
  unfold unregisterTerminalWindow
  rw [last, List.getLast?_concat]
  simp only
  rw [List.set_append_right _ _ le_rfl, Nat.sub_self, List.set_cons_zero, List.dropLast_concat]

/-- A table names every window once and every endpoint once. -/
structure Keyed (bindings : List (EndpointBinding Window)) : Prop where
  windows : (bindings.map (·.window)).Nodup
  endpoints : (bindings.map (·.endpointId)).Nodup

/-- The table with another endpoint in the binding of a window, if it has one. -/
def rebound (bindings : List (EndpointBinding Window)) (pointer : Window) (endpointId : UInt32) :
    List (EndpointBinding Window) :=
  bindings.map fun binding => if binding.window = pointer then ⟨pointer, endpointId⟩ else binding

theorem rebound_eq_self_iff : rebound bindings pointer endpointId = bindings ↔
    ∀ binding ∈ bindings, binding.window = pointer → binding.endpointId = endpointId := by
  have same : bindings.map id = bindings := List.map_id bindings
  nth_rewrite 2 [← same]
  unfold rebound
  rw [List.map_inj_left]
  refine forall₂_congr (fun binding _ => ?_)
  by_cases here : binding.window = pointer
  · obtain ⟨window, held⟩ := binding
    subst here
    rw [if_pos rfl]
    exact ⟨fun same _ => (congrArg EndpointBinding.endpointId same).symm,
      fun same => congrArg (EndpointBinding.mk window) (same rfl).symm⟩
  · rw [if_neg here]
    exact iff_of_true rfl (fun same => absurd same here)

theorem rebound_absent (absent : ¬ IsBound bindings pointer) :
    rebound bindings pointer endpointId = bindings :=
  rebound_eq_self_iff.mpr (fun binding member here => absurd ⟨binding, member, here⟩ absent)

/-- Writing to the place of a window is giving it another endpoint. -/
theorem set_eq_rebound (keyed : Keyed bindings) {index : ℕ} (inside : index < bindings.length)
    (here : bindings[index].window = pointer) :
    bindings.set index ⟨pointer, endpointId⟩ = rebound bindings pointer endpointId := by
  unfold rebound
  apply List.ext_getElem
  · rw [List.length_set, List.length_map]
  · intro place inside' _
    rw [List.length_set] at inside'
    rw [List.getElem_set, List.getElem_map]
    by_cases same : index = place
    · subst same
      rw [if_pos rfl, if_pos here]
    · have other : bindings[place].window ≠ pointer := fun there =>
        same (index_inj keyed.windows inside inside' (here.trans there.symm))
      rw [if_neg same, if_neg other]

theorem windows_rebound :
    (rebound bindings pointer endpointId).map (·.window) = bindings.map (·.window) := by
  unfold rebound
  rw [List.map_map]
  refine List.map_congr_left (fun binding _ => ?_)
  change (if binding.window = pointer then _ else binding : EndpointBinding Window).window = _
  split
  · rename_i here
    exact here.symm
  · rfl

theorem Keyed.rebound (keyed : Keyed bindings)
    (own : ∀ binding ∈ bindings, binding.endpointId = endpointId → binding.window = pointer) :
    Keyed (rebound bindings pointer endpointId) where
  windows := by
    rw [windows_rebound]
    exact keyed.windows
  endpoints := by
    rw [Tty.rebound, List.map_map]
    refine List.Nodup.map_on (fun first member second member' same => ?_)
      (List.Nodup.of_map _ keyed.windows)
    simp only [Function.comp_apply] at same
    by_cases here : first.window = pointer <;> by_cases there : second.window = pointer
    · exact entry_inj keyed.windows member member' (here.trans there.symm)
    · rw [if_pos here, if_neg there] at same
      exact absurd (own second member' same.symm) there
    · rw [if_neg here, if_pos there] at same
      exact absurd (own first member same) here
    · rw [if_neg here, if_neg there] at same
      exact entry_inj keyed.endpoints member member' same

/-- The table with a window under an endpoint, in its binding or in a new one. -/
def registered (bindings : List (EndpointBinding Window)) (pointer : Window)
    (endpointId : UInt32) : List (EndpointBinding Window) :=
  if IsBound bindings pointer then rebound bindings pointer endpointId
  else bindings ++ [⟨pointer, endpointId⟩]

omit [DecidableEq Window] in
theorem Keyed.concat (keyed : Keyed bindings) (absent : ¬ IsBound bindings pointer)
    (own : ∀ binding ∈ bindings, binding.endpointId = endpointId → binding.window = pointer) :
    Keyed (bindings ++ [⟨pointer, endpointId⟩]) where
  windows := by
    rw [List.map_append, List.map_singleton, ← List.concat_eq_append]
    refine keyed.windows.concat (fun member => ?_)
    obtain ⟨binding, bound, same⟩ := List.mem_map.mp member
    exact absent ⟨binding, bound, same⟩
  endpoints := by
    rw [List.map_append, List.map_singleton, ← List.concat_eq_append]
    refine keyed.endpoints.concat (fun member => ?_)
    obtain ⟨binding, bound, same⟩ := List.mem_map.mp member
    exact absent ⟨binding, bound, own binding bound same⟩

section Register

variable {desktop : Desktop Window}

/-- A terminal that cannot be registered is refused. -/
theorem register_refused (keyed : Keyed desktop.terminalBindings)
    (refused : ¬ Registrable desktop pointer) :
    registerTerminalWindow desktop.terminalBindings pointer (desktop.endpoint pointer) =
      (false, desktop.terminalBindings) := by
  unfold registerTerminalWindow findBindingByEndpoint
  by_cases zero : desktop.endpoint pointer = 0
  · rw [if_pos zero]
  rw [if_neg zero]
  simp only [if_neg zero]
  rcases findIdx?_cases EndpointBinding.endpointId desktop.terminalBindings
    (desktop.endpoint pointer) with ⟨free, unused⟩ | ⟨existing, inside, taken, there⟩
  · -- the endpoint is free, so that there is no room
    have own : ∀ binding ∈ desktop.terminalBindings,
        binding.endpointId = desktop.endpoint pointer → binding.window = pointer :=
      fun binding member same => absurd same (unused binding member)
    rcases findBindingByWindow_cases desktop.terminalBindings pointer with
      ⟨none_, _⟩ | ⟨index, inside, _, here⟩
    · rw [none_, free]
      have full : wmMaxWindows ≤ desktop.terminalBindings.length :=
        Nat.not_lt.mp (fun room => refused ⟨zero, own, .inr room⟩)
      simp only [Option.isSome_none, Bool.false_eq_true, ↓reduceIte, if_pos full]
    · exact absurd ⟨zero, own, .inl ⟨_, List.getElem_mem inside, here⟩⟩ refused
  · rw [taken]
    rcases findBindingByWindow_cases desktop.terminalBindings pointer with
      ⟨none_, _⟩ | ⟨index, inside', found, here⟩
    · rw [none_]
      rfl
    · have other : existing ≠ index := by
        rintro rfl
        refine refused ⟨zero, fun binding member same => ?_,
          .inl ⟨_, List.getElem_mem inside, here⟩⟩
        rw [entry_inj keyed.endpoints member (List.getElem_mem inside) (same.trans there.symm)]
        exact here
      rw [found]
      simp only [ne_eq, if_pos other]

/-- A terminal that can be registered gets its endpoint into its binding, or a new binding. -/
theorem register_eq (keyed : Keyed desktop.terminalBindings)
    (registrable : Registrable desktop pointer) :
    registerTerminalWindow desktop.terminalBindings pointer (desktop.endpoint pointer) =
      (true, registered desktop.terminalBindings pointer (desktop.endpoint pointer)) := by
  obtain ⟨nonzero, own, room⟩ := registrable
  unfold registerTerminalWindow findBindingByEndpoint registered
  rw [if_neg nonzero]
  simp only [if_neg nonzero]
  have search := findIdx?_cases EndpointBinding.endpointId desktop.terminalBindings
    (desktop.endpoint pointer)
  rcases findBindingByWindow_cases desktop.terminalBindings pointer with
    ⟨none_, absent⟩ | ⟨index, inside, found, here⟩
  · rw [none_, if_neg absent]
    rcases search with ⟨free, _⟩ | ⟨existing, inside', taken, there⟩
    · rw [free]
      simp only [Option.isSome_none, Bool.false_eq_true, ↓reduceIte,
        if_neg (Nat.not_le.mpr (room.resolve_left absent))]
    · exact absurd ⟨_, List.getElem_mem inside', own _ (List.getElem_mem inside') there⟩ absent
  · have bound : IsBound desktop.terminalBindings pointer := ⟨_, List.getElem_mem inside, here⟩
    rw [found, if_pos bound, ← set_eq_rebound keyed inside here]
    rcases search with ⟨free, _⟩ | ⟨existing, inside', taken, there⟩
    · rw [free]
    · have same : existing = index := index_inj keyed.windows inside' inside
        ((own _ (List.getElem_mem inside') there).trans here.symm)
      rw [taken]
      simp only [same, ne_eq, not_true_eq_false, ↓reduceIte]

end Register

end Tables

/-! ## One attach -/

section Attach

variable {desktop : Desktop Window} {pointer : Window}

/-- What an attach of a terminal that can be registered does. -/
theorem attach_eq (keyed : Keyed desktop.terminalBindings)
    (registrable : Registrable desktop pointer) :
    wmTerminalWindowAttach desktop (some pointer) =
      if Addable desktop.native desktop.scene pointer then
        let (status, keyboardBindings) := keyboardDispatchRegisterWindow
          desktop.keyboardBindings (some pointer) (desktop.endpoint pointer)
        (status, { desktop with
          terminalBindings := registered desktop.terminalBindings pointer (desktop.endpoint pointer)
          scene := ⟨desktop.scene.backgroundColor, desktop.scene.layers ++ [pointer], some pointer⟩
          keyboardBindings := keyboardBindings })
      else
        (false, { desktop with
          terminalBindings :=
            rebound desktop.terminalBindings pointer (desktop.endpoint pointer) }) := by
  unfold wmTerminalWindowAttach
  simp only
  rw [show (desktop.terminals pointer).session.endpointId = desktop.endpoint pointer from rfl,
    register_eq keyed registrable, addWindow_eq]
  by_cases addable : Addable desktop.native desktop.scene pointer
  · simp only [if_pos addable]
  · simp only [if_neg addable]
    rcases findBindingByWindow_cases desktop.terminalBindings pointer with
      ⟨none_, absent⟩ | ⟨index, inside, found, here⟩
    · rw [none_, registered, if_neg absent, unregister_concat absent, rebound_absent absent]
      rfl
    · have bound : IsBound desktop.terminalBindings pointer := ⟨_, List.getElem_mem inside, here⟩
      rw [found, registered, if_pos bound]
      rfl

theorem attach_refused (keyed : Keyed desktop.terminalBindings)
    (refused : ¬ Registrable desktop pointer) :
    wmTerminalWindowAttach desktop (some pointer) = (false, desktop) := by
  unfold wmTerminalWindowAttach
  simp only
  rw [show (desktop.terminals pointer).session.endpointId = desktop.endpoint pointer from rfl,
    register_refused keyed refused]

/-- A failed attach leaves everything as it was exactly where it is clean. -/
theorem attachUnchanged_iff (keyed : Keyed desktop.terminalBindings)
    (terminalWindow : Option Window) :
    AttachUnchanged desktop terminalWindow ↔ AttachClean desktop terminalWindow := by
  cases terminalWindow with
  | none => exact iff_of_true (fun _ => ⟨rfl, rfl, rfl, rfl⟩) trivial
  | some pointer =>
      unfold AttachUnchanged AttachClean
      simp only
      by_cases registrable : Registrable desktop pointer
      · rw [attach_eq keyed registrable, forall_prop_of_true registrable]
        by_cases addable : Addable desktop.native desktop.scene pointer
        · rw [if_pos addable, if_pos addable,
            ← keyboardDispatchRegisterWindow_fst registrable.nonzero]
          generalize keyboardDispatchRegisterWindow desktop.keyboardBindings (some pointer)
            (desktop.endpoint pointer) = keys
          obtain ⟨_ | _, keyboardBindings⟩ := keys
          · refine iff_of_false (fun unchanged => ?_) Bool.noConfusion
            exact List.cons_ne_nil _ _ (List.append_right_eq_self.mp (unchanged rfl).2.2.1)
          · exact iff_of_true (fun failed => Bool.noConfusion failed) rfl
        · rw [if_neg addable, if_neg addable, ← rebound_eq_self_iff]
          exact ⟨fun unchanged => (unchanged rfl).1, fun same _ => ⟨same, rfl, rfl, rfl⟩⟩
      · rw [attach_refused keyed registrable]
        exact iff_of_true (fun _ => ⟨rfl, rfl, rfl, rfl⟩) (fun some_ => absurd some_ registrable)

/-- An attach keeps the keys of the table. -/
theorem Keyed.attach (keyed : Keyed desktop.terminalBindings) (terminalWindow : Option Window) :
    Keyed (wmTerminalWindowAttach desktop terminalWindow).2.terminalBindings := by
  cases terminalWindow with
  | none => exact keyed
  | some pointer =>
      by_cases registrable : Registrable desktop pointer
      · have rebinds := keyed.rebound registrable.own
        rw [attach_eq keyed registrable]
        split
        · change Keyed (registered _ _ _)
          unfold registered
          split
          · exact rebinds
          · rename_i absent
            exact keyed.concat absent registrable.own
        · exact rebinds
      · rw [attach_refused keyed registrable]
        exact keyed

end Attach

/-! ## Whole runs -/

section Runs

variable {desktop : Desktop Window}

/-- Keys that are dispatched leave the table of the terminals. -/
theorem dispatchLoop_terminalBindings (rounds : ℕ) (count : UInt32) :
    (dispatchLoop rounds count desktop).2.terminalBindings = desktop.terminalBindings := by
  induction rounds generalizing count desktop with
  | zero => rfl
  | succ rounds ih =>
      unfold dispatchLoop
      split
      · rfl
      · rw [ih]
        unfold dispatchToWindowEndpoint
        split
        · rfl
        split
        · rfl
        unfold wmTerminalWindowDispatchEvent
        split <;> rfl

theorem Keyed.step (keyed : Keyed desktop.terminalBindings) (op : DesktopOp Window) :
    Keyed (desktops.step desktop op).2.terminalBindings := by
  cases op with
  | terminalDispatchReset => exact ⟨List.nodup_nil, List.nodup_nil⟩
  | attach terminalWindow => exact keyed.attach terminalWindow
  | init terminalWindow => cases terminalWindow <;> exact keyed
  | dispatchPending =>
      have kept := @dispatchLoop_terminalBindings _ _ desktop desktop.keyboard.ring.count 0
      exact kept.symm ▸ keyed
  | keyboardReset => exact keyed
  | keyboardDispatchReset => exact keyed
  | setSink sink => exact keyed
  | compositorReset backgroundColor => exact keyed
  | scancode scancode => exact keyed
  | activate window => exact keyed

/-- **A failed attach has no effect** exactly where it is clean, after any calls. -/
theorem failed_attach_unchanged (ops : List (DesktopOp Window)) (terminalWindow : Option Window) :
    let desktop := desktops.state Desktop.zero ops
    AttachUnchanged desktop terminalWindow ↔ AttachClean desktop terminalWindow := by
  have kept (desktop : Desktop Window) (op : DesktopOp Window) :
      Keyed desktop.terminalBindings → Keyed (desktops.step desktop op).2.terminalBindings :=
    fun keyed => keyed.step op
  have initially : Keyed (Desktop.zero : Desktop Window).terminalBindings :=
    ⟨List.nodup_nil, List.nodup_nil⟩
  have keyed := Machine.state_invariant kept initially ops
  exact attachUnchanged_iff keyed terminalWindow

end Runs

/-! ## Attaches that leave something behind -/

/-- A terminal that is attached is initialised for another endpoint. -/
def reinitialisedRun : List (DesktopOp ℕ) :=
  [.compositorReset 0, .init (some 0) none 28 28 236 156 1 101, .attach (some 0),
    .init (some 0) none 28 28 236 156 2 101]

/-- Eight terminals are attached, and the terminals and the stack, but not the keyboard, are
reset before a ninth is initialised. -/
def filledRun : List (DesktopOp ℕ) :=
  .compositorReset 0 ::
    (List.range 8).flatMap (fun window =>
      [.init (some window) none 28 28 236 156 (UInt32.ofNat window + 1) 101,
        .attach (some window)]) ++
    [.compositorReset 0, .terminalDispatchReset, .init (some 8) none 28 28 236 156 9 101]

/-- **Two failed attaches that leave something behind**: the endpoint that no key reaches the
terminal by, and a window in the stack that no key is for. -/
theorem failed_attach_changes :
    ¬ AttachUnchanged (desktops.state Desktop.zero reinitialisedRun) (some 0) ∧
      ¬ AttachUnchanged (desktops.state Desktop.zero filledRun) (some 8) := by
  unfold AttachUnchanged
  decide +kernel

end TigerOS.Tty
