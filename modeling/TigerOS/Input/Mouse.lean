import TigerOS.Foundation.Ring
import Mathlib.Logic.Function.Basic

/-! # The mouse

The mouse puts events into a queue of 64 slots, which loses what comes while it is
full. A pop takes the oldest event off it (`TigerOS.Input.mousePop_pending`). A status of
`0` is modelled as `true`.
-/

namespace TigerOS.Input

open Foundation

abbrev inputEventQueueCapacity : ℕ := 64

/-- `input_event_type_t`. -/
inductive InputEventType where
  | mouseMove
  | mouseButtonDown
  | mouseButtonUp
  deriving DecidableEq

def inputMouseButtonLeft : UInt8 := 1

/-- `input_event_t`. -/
structure InputEvent where
  type : InputEventType
  x : UInt32
  y : UInt32
  buttons : UInt8
  button : UInt8
  deriving DecidableEq

/-- `input_event_queue_t`. -/
structure InputEventQueue where
  events : ℕ → InputEvent
  ring : RingIndex

/-- `mouse_state_t`. -/
structure MouseState where
  x : UInt32
  y : UInt32
  buttons : UInt8
  deriving DecidableEq

section Queue

variable (queue : InputEventQueue)

/-- `input_event_queue_reset`. -/
def inputEventQueueReset : InputEventQueue := { queue with ring := RingIndex.empty }

/-- `input_event_queue_push`. -/
def inputEventQueuePush (event : InputEvent) : Bool × InputEventQueue :=
  if inputEventQueueCapacity ≤ queue.ring.count then (false, queue)
  else
    (true, { queue with
      events := Function.update queue.events queue.ring.write event
      ring := queue.ring.push inputEventQueueCapacity })

/-- `input_event_queue_pop`. -/
def inputEventQueuePop : Option InputEvent × InputEventQueue :=
  if queue.ring.count = 0 then (none, queue)
  else
    (some (queue.events queue.ring.read),
      { queue with ring := queue.ring.pop inputEventQueueCapacity })

/-- `input_event_queue_count`. -/
def inputEventQueueCount : ℕ := queue.ring.count

end Queue

section Mouse

variable (mouse : MouseState) (queue : InputEventQueue)

/-- `mouse_emit`. -/
def mouseEmit (type : InputEventType) (x y : UInt32) (buttons button : UInt8) :
    Bool × InputEventQueue :=
  inputEventQueuePush queue ⟨type, x, y, buttons, button⟩

/-- `mouse_emit_move`. -/
def mouseEmitMove (x y : UInt32) (buttons : UInt8) : Bool × MouseState × InputEventQueue :=
  let (status, queue) := mouseEmit queue .mouseMove x y buttons 0
  (status, ⟨x, y, buttons⟩, queue)

/-- `mouse_emit_button_down`. -/
def mouseEmitButtonDown (x y : UInt32) (buttonMask : UInt8) :
    Bool × MouseState × InputEventQueue :=
  let buttons := mouse.buttons ||| buttonMask
  let (status, queue) := mouseEmit queue .mouseButtonDown x y buttons buttonMask
  (status, ⟨x, y, buttons⟩, queue)

/-- `mouse_emit_button_up`. -/
def mouseEmitButtonUp (x y : UInt32) (buttonMask : UInt8) : Bool × MouseState × InputEventQueue :=
  let buttons := mouse.buttons &&& ~~~buttonMask
  let (status, queue) := mouseEmit queue .mouseButtonUp x y buttons buttonMask
  (status, ⟨x, y, buttons⟩, queue)

/-- `mouse_reset`. -/
def mouseReset : MouseState × InputEventQueue := (⟨0, 0, 0⟩, inputEventQueueReset queue)

end Mouse

/-- The calls that fill the queue. -/
inductive MouseCall where
  | reset
  | emitMove (x y : UInt32) (buttons : UInt8)
  | emitButtonDown (x y : UInt32) (buttonMask : UInt8)
  | emitButtonUp (x y : UInt32) (buttonMask : UInt8)
  | push (event : InputEvent)

def mouseStep (mouse : MouseState) (queue : InputEventQueue) :
    MouseCall → Bool × MouseState × InputEventQueue
  | .reset => (true, mouseReset queue)
  | .emitMove x y buttons => mouseEmitMove queue x y buttons
  | .emitButtonDown x y buttonMask => mouseEmitButtonDown mouse queue x y buttonMask
  | .emitButtonUp x y buttonMask => mouseEmitButtonUp mouse queue x y buttonMask
  | .push event =>
      let (status, queue) := inputEventQueuePush queue event
      (status, mouse, queue)

/-! ## The queue -/

section Pending

variable {queue : InputEventQueue}

/-- The events that wait, from the oldest. -/
def InputEventQueue.pending (queue : InputEventQueue) : List InputEvent :=
  queue.ring.contents inputEventQueueCapacity queue.events

/-- The indices of the queue are those of a ring. -/
def InputEventQueue.Valid (queue : InputEventQueue) : Prop :=
  queue.ring.Valid inputEventQueueCapacity

theorem valid_inputEventQueueReset : (inputEventQueueReset queue).Valid :=
  RingIndex.valid_empty (by decide)

/-- A push onto a full queue fails. -/
theorem mousePush_full (full : inputEventQueueCapacity ≤ queue.ring.count) (event : InputEvent) :
    inputEventQueuePush queue event = (false, queue) := by
  unfold inputEventQueuePush
  rw [if_pos full]

/-- A push onto a queue with room puts the event at the end. -/
theorem mousePush_room (valid : queue.Valid) (room : queue.ring.count < inputEventQueueCapacity)
    (event : InputEvent) : ∃ pushed, inputEventQueuePush queue event = (true, pushed) ∧
      pushed.Valid ∧ pushed.pending = queue.pending ++ [event] := by
  unfold inputEventQueuePush
  rw [if_neg (Nat.not_le.mpr room)]
  refine ⟨_, rfl, RingIndex.Valid.push valid room, ?_⟩
  unfold InputEventQueue.pending
  simp only
  rw [RingIndex.Valid.contents_push valid room fun slot other => by
    rw [Function.update_of_ne other]]
  rw [Function.update_self]

theorem mousePush_valid (valid : queue.Valid) (event : InputEvent) :
    (inputEventQueuePush queue event).2.Valid := by
  rcases Nat.lt_or_ge queue.ring.count inputEventQueueCapacity with room | full
  · obtain ⟨pushed, pushedEq, pushedValid, -⟩ := mousePush_room valid room event
    rw [pushedEq]
    exact pushedValid
  · rw [mousePush_full full]
    exact valid

/-- The calls keep the queue a ring. -/
theorem mouseStep_valid (valid : queue.Valid) (mouse : MouseState) (call : MouseCall) :
    (mouseStep mouse queue call).2.2.Valid := by
  cases call with
  | reset => exact valid_inputEventQueueReset
  | emitMove x y buttons => exact mousePush_valid valid _
  | emitButtonDown x y buttonMask => exact mousePush_valid valid _
  | emitButtonUp x y buttonMask => exact mousePush_valid valid _
  | push event => exact mousePush_valid valid _

/-- A pop takes the oldest event off the queue. -/
theorem mousePop_pending (valid : queue.Valid) : (inputEventQueuePop queue).2.Valid ∧
    queue.pending = (inputEventQueuePop queue).1.toList ++
      (inputEventQueuePop queue).2.pending := by
  unfold inputEventQueuePop
  by_cases none_ : queue.ring.count = 0
  · rw [if_pos none_]
    exact ⟨valid, rfl⟩
  · rw [if_neg none_]
    exact ⟨RingIndex.Valid.pop valid none_, RingIndex.Valid.contents_pop valid none_ fun _ _ => rfl⟩

/-- A queue with a pending event answers one. -/
theorem mousePop_some (some_ : queue.ring.count ≠ 0) : ∃ event popped,
    inputEventQueuePop queue = (some event, popped) := by
  unfold inputEventQueuePop
  rw [if_neg some_]
  exact ⟨_, _, rfl⟩

end Pending

end TigerOS.Input
