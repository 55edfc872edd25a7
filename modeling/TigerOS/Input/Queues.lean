import TigerOS.Foundation.Fifo
import TigerOS.Input.KeyboardQueue
import TigerOS.Input.Mouse

/-! # The queues as bounded queues

The ring of the keyboard, with the window that was active at each push, and the ring of
the mouse are bounded queues of 64 entries (`TigerOS.Input.keyboardQueue_implements`,
`TigerOS.Input.mouseQueue_implements`). Whatever is pushed, popped and reset, what was
popped since the last reset is what was accepted, in the same order, up to what waits,
and the counts they report are those of what waits (`TigerOS.Input.queues_fifo`).
-/

namespace TigerOS.Input

open Foundation

/-! ## The calls of a queue -/

/-- The queue of the keyboard; an entry is an event with the window that was active. -/
def keyboardQueue (Window : Type) : Machine (KeyboardState Window)
    (QueueOp (KeyboardEvent × Option Window)) (QueueAnswer (KeyboardEvent × Option Window)) where
  step state
    | .push (event, focusWindow) =>
        let (accepted, state) := keyboardQueuePush state event focusWindow
        (.pushed accepted, state)
    | .pop =>
        let (entry, state) := keyboardPopEvent state
        (.popped entry, state)
    | .reset => (.reset, keyboardReset state)

/-- The queue of the mouse. -/
def mouseQueue : Machine InputEventQueue (QueueOp InputEvent) (QueueAnswer InputEvent) where
  step queue
    | .push event =>
        let (accepted, queue) := inputEventQueuePush queue event
        (.pushed accepted, queue)
    | .pop =>
        let (event, queue) := inputEventQueuePop queue
        (.popped event, queue)
    | .reset => (.reset, inputEventQueueReset queue)

/-! ## The rings are queues -/

section Keyboard

variable {Window : Type} {state : KeyboardState Window}

theorem length_pending : state.pending.length = keyboardPendingCount state :=
  RingIndex.length_contents

/-- The keyboard keeps a bounded queue of its pending events with their windows. -/
theorem keyboardQueue_implements (Window : Type) : Implements (keyboardQueue Window)
    keyboardEventQueueCapacity KeyboardState.Valid KeyboardState.pending where
  pushFull := by
    intro state _ full entry
    rw [length_pending] at full
    unfold keyboardQueue
    simp only
    rw [push_full full]
  pushRoom := by
    intro state valid room entry
    rw [length_pending] at room
    obtain ⟨keyboard, pushed, keyboardValid, appended⟩ := push_room valid room entry.1 entry.2
    refine ⟨keyboard, ?_, keyboardValid, appended⟩
    unfold keyboardQueue
    simp only
    rw [pushed]
  popEmpty := by
    intro state _ empty
    have none_ : state.ring.count = 0 := by
      rw [← List.length_eq_zero_iff, length_pending] at empty
      exact empty
    unfold keyboardQueue keyboardPopEvent
    simp only
    rw [if_pos none_]
  popFront := by
    intro state entry rest valid front
    have some_ : state.ring.count ≠ 0 := by
      intro none_
      rw [KeyboardState.pending, RingIndex.contents_eq_nil none_] at front
      cases front
    obtain ⟨popped, keyboard, stepped, -⟩ := pop_some some_
    obtain ⟨keyboardValid, split⟩ := pop_pending valid
    rw [stepped] at keyboardValid split
    rw [front] at split
    injection split with same remaining
    refine ⟨keyboard, ?_, keyboardValid, remaining.symm⟩
    unfold keyboardQueue
    simp only
    rw [stepped, same]
  reset := by
    intro state _
    exact ⟨keyboardReset state, rfl, valid_keyboardReset, RingIndex.contents_eq_nil rfl⟩

end Keyboard

section Mouse

variable {queue : InputEventQueue}

theorem length_mousePending : queue.pending.length = inputEventQueueCount queue :=
  RingIndex.length_contents

/-- The mouse keeps a bounded queue of its pending events. -/
theorem mouseQueue_implements : Implements mouseQueue inputEventQueueCapacity
    InputEventQueue.Valid InputEventQueue.pending where
  pushFull := by
    intro queue _ full event
    rw [length_mousePending] at full
    unfold mouseQueue
    simp only
    rw [mousePush_full full]
  pushRoom := by
    intro queue valid room event
    rw [length_mousePending] at room
    obtain ⟨pushed, pushedEq, pushedValid, appended⟩ := mousePush_room valid room event
    refine ⟨pushed, ?_, pushedValid, appended⟩
    unfold mouseQueue
    simp only
    rw [pushedEq]
  popEmpty := by
    intro queue _ empty
    have none_ : queue.ring.count = 0 := by
      rw [← List.length_eq_zero_iff, length_mousePending] at empty
      exact empty
    unfold mouseQueue inputEventQueuePop
    simp only
    rw [if_pos none_]
  popFront := by
    intro queue event rest valid front
    have some_ : queue.ring.count ≠ 0 := by
      intro none_
      rw [InputEventQueue.pending, RingIndex.contents_eq_nil none_] at front
      cases front
    obtain ⟨oldest, popped, stepped⟩ := mousePop_some some_
    obtain ⟨poppedValid, split⟩ := mousePop_pending valid
    rw [stepped] at poppedValid split
    rw [front] at split
    injection split with same remaining
    refine ⟨popped, ?_, poppedValid, remaining.symm⟩
    unfold mouseQueue
    simp only
    rw [stepped, same]
  reset := by
    intro queue _
    exact ⟨inputEventQueueReset queue, rfl, valid_inputEventQueueReset,
      RingIndex.contents_eq_nil rfl⟩

end Mouse

/-! ## What is seen of the queues -/

/-- **The rings are bounded queues.** From zeroed indices, whatever is pushed, popped and
reset: the popped events are those accepted since the last reset, in the same order and
each with its window, up to those that wait; a push fails exactly while 64 events wait
and a pop exactly while none does, both without a change; and the counts are those of
the events accepted and not yet popped. -/
theorem queues_fifo (Window : Type) (keyboard : KeyboardState Window) (queue : InputEventQueue)
    (keyboardOps : List (QueueOp (KeyboardEvent × Option Window)))
    (mouseOps : List (QueueOp InputEvent)) :
    BoundedFifo (keyboardQueue Window) keyboardEventQueueCapacity keyboardPendingCount
        { keyboard with ring := RingIndex.empty } keyboardOps ∧
      BoundedFifo mouseQueue inputEventQueueCapacity inputEventQueueCount
        { queue with ring := RingIndex.empty } mouseOps := by
  constructor
  · apply (keyboardQueue_implements Window).boundedFifo fun _ => length_pending.symm
    · exact RingIndex.valid_empty (by decide)
    · exact RingIndex.contents_eq_nil rfl
  · apply mouseQueue_implements.boundedFifo fun _ => length_mousePending.symm
    · exact RingIndex.valid_empty (by decide)
    · exact RingIndex.contents_eq_nil rfl

end TigerOS.Input
