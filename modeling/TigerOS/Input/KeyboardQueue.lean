import TigerOS.Input.Keyboard

/-! # The queue of the keyboard

The parallel arrays of the keyboard hold one queue of events, each with the window
that was active when it came. A scancode leaves the queue or appends one event with
the active window (`TigerOS.Input.scancode_pending`), and a pop takes the oldest
event off it (`TigerOS.Input.pop_pending`).
-/

namespace TigerOS.Input

open Foundation

variable {Window : Type} {state : KeyboardState Window} {event : KeyboardEvent}
  {focus : Option Window}

/-- The events that wait, from the oldest, each with its window. -/
def KeyboardState.pending (state : KeyboardState Window) : List (KeyboardEvent × Option Window) :=
  state.ring.contents keyboardEventQueueCapacity fun slot =>
    (state.events slot, state.focusWindows slot)

/-- The indices of the queue are those of a ring. -/
def KeyboardState.Valid (state : KeyboardState Window) : Prop :=
  state.ring.Valid keyboardEventQueueCapacity

theorem valid_keyboardReset : (keyboardReset state).Valid := RingIndex.valid_empty (by decide)

/-- A push onto a full queue fails. -/
theorem push_full (full : keyboardEventQueueCapacity ≤ state.ring.count) (event : KeyboardEvent)
    (focus : Option Window) : keyboardQueuePush state event focus = (false, state) := by
  unfold keyboardQueuePush
  rw [if_pos full]

/-- A push onto a queue with room puts the event with its window at the end. -/
theorem push_room (valid : state.Valid) (room : state.ring.count < keyboardEventQueueCapacity)
    (event : KeyboardEvent) (focus : Option Window) : ∃ keyboard,
      keyboardQueuePush state event focus = (true, keyboard) ∧ keyboard.Valid ∧
        keyboard.pending = state.pending ++ [(event, focus)] := by
  unfold keyboardQueuePush
  rw [if_neg (Nat.not_le.mpr room)]
  refine ⟨_, rfl, RingIndex.Valid.push valid room, ?_⟩
  unfold KeyboardState.pending
  simp only
  rw [RingIndex.Valid.contents_push valid room fun slot other => by
    rw [Function.update_of_ne other, Function.update_of_ne other]]
  rw [Function.update_self, Function.update_self]

/-- What a push does: a queue that is full stays, and another one gets the event at
its end. -/
theorem push_pending (valid : state.Valid) (event : KeyboardEvent) (focus : Option Window) :
    (keyboardQueuePush state event focus).2.Valid ∧
      ((keyboardQueuePush state event focus).2.pending = state.pending ∨
        (keyboardQueuePush state event focus).2.pending = state.pending ++ [(event, focus)]) := by
  rcases Nat.lt_or_ge state.ring.count keyboardEventQueueCapacity with room | full
  · obtain ⟨keyboard, pushed, keyboardValid, appended⟩ := push_room valid room event focus
    rw [pushed]
    exact ⟨keyboardValid, .inr appended⟩
  · rw [push_full full]
    exact ⟨valid, .inl rfl⟩

/-- **A scancode** leaves the queue, or appends an event with the active window. -/
theorem scancode_pending (valid : state.Valid) (active : Option Window) (scancode : UInt8) :
    (keyboardHandleScancode state active scancode).2.Valid ∧
      ((keyboardHandleScancode state active scancode).2.pending = state.pending ∨
        ∃ event, (keyboardHandleScancode state active scancode).2.pending =
          state.pending ++ [(event, active)]) := by
  have pushes (event : KeyboardEvent) : (keyboardQueuePush state event active).2.Valid ∧
      ((keyboardQueuePush state event active).2.pending = state.pending ∨
        ∃ added, (keyboardQueuePush state event active).2.pending =
          state.pending ++ [(added, active)]) := by
    obtain ⟨valid', same | more⟩ := push_pending valid event active
    · exact ⟨valid', .inl same⟩
    · exact ⟨valid', .inr ⟨event, more⟩⟩
  unfold keyboardHandleScancode
  split
  · exact ⟨valid, .inl rfl⟩
  split
  · exact ⟨valid, .inl rfl⟩
  simp only
  split
  · exact ⟨valid, .inl rfl⟩
  split
  · exact ⟨valid, .inl rfl⟩
  split
  · exact ⟨valid, .inl rfl⟩
  split
  · exact pushes _
  split
  · exact ⟨valid, .inl rfl⟩
  · exact pushes _

/-- **A pop** takes the oldest event off the queue. -/
theorem pop_pending (valid : state.Valid) : (keyboardPopEvent state).2.Valid ∧
    state.pending = (keyboardPopEvent state).1.toList ++ (keyboardPopEvent state).2.pending := by
  unfold keyboardPopEvent
  by_cases none_ : state.ring.count = 0
  · rw [if_pos none_]
    exact ⟨valid, rfl⟩
  · rw [if_neg none_]
    refine ⟨RingIndex.Valid.pop valid none_, ?_⟩
    unfold KeyboardState.pending
    simp only [Option.toList_some, List.singleton_append]
    exact RingIndex.Valid.contents_pop valid none_ fun slot other => by
      rw [Function.update_of_ne other]

/-- A queue with a pending event answers one. -/
theorem pop_some (some_ : state.ring.count ≠ 0) : ∃ entry keyboard,
    keyboardPopEvent state = (some entry, keyboard) ∧
      keyboard.ring.count = state.ring.count - 1 := by
  unfold keyboardPopEvent
  rw [if_neg some_]
  exact ⟨_, _, rfl, rfl⟩

end TigerOS.Input
