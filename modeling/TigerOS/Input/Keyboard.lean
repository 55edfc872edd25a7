import TigerOS.Foundation.Ring
import Mathlib.Logic.Function.Basic

/-! # The keyboard

Scancodes are decoded into events of text and of control keys, which are kept with
the window that was active when they came in a ring of 64 slots. A status of `0` is
modelled as `true`.
-/

namespace TigerOS.Input

open Foundation

abbrev keyboardEventQueueCapacity : ℕ := 64

/-- `keyboard_event_type_t`. -/
inductive KeyboardEventType where
  | text
  | control
  deriving DecidableEq

def keyboardControlEnter : UInt8 := 1
def keyboardControlBackspace : UInt8 := 2
def keyboardControlTab : UInt8 := 3
def keyboardControlEscape : UInt8 := 4

/-- `keyboard_event_t`. -/
structure KeyboardEvent where
  type : KeyboardEventType
  scancode : UInt8
  pressed : UInt8
  text : UInt8
  control : UInt8
  deriving DecidableEq

/-- `keyboard_state_t`, over the pointers to windows. -/
structure KeyboardState (Window : Type) where
  events : ℕ → KeyboardEvent
  focusWindows : ℕ → Option Window
  ring : RingIndex
  shiftMask : UInt8
  sawExtendedPrefix : Bool

/-! ## Scancodes -/

/-- `keyboard_control_for_scancode`. -/
def keyboardControlForScancode (scancode : UInt8) : UInt8 :=
  if scancode = 0x01 then keyboardControlEscape
  else if scancode = 0x0e then keyboardControlBackspace
  else if scancode = 0x0f then keyboardControlTab
  else if scancode = 0x1c then keyboardControlEnter
  else 0

/-- The keys of `keyboard_printable_for_scancode`: a scancode, its character, and its
character while shift is down. -/
def printableKeys : List (UInt8 × Char × Char) :=
  [(0x02, '1', '!'), (0x03, '2', '@'), (0x04, '3', '#'), (0x05, '4', '$'), (0x06, '5', '%'),
    (0x07, '6', '^'), (0x08, '7', '&'), (0x09, '8', '*'), (0x0a, '9', '('), (0x0b, '0', ')'),
    (0x0c, '-', '_'), (0x0d, '=', '+'),
    (0x10, 'q', 'Q'), (0x11, 'w', 'W'), (0x12, 'e', 'E'), (0x13, 'r', 'R'), (0x14, 't', 'T'),
    (0x15, 'y', 'Y'), (0x16, 'u', 'U'), (0x17, 'i', 'I'), (0x18, 'o', 'O'), (0x19, 'p', 'P'),
    (0x1a, '[', '{'), (0x1b, ']', '}'),
    (0x1e, 'a', 'A'), (0x1f, 's', 'S'), (0x20, 'd', 'D'), (0x21, 'f', 'F'), (0x22, 'g', 'G'),
    (0x23, 'h', 'H'), (0x24, 'j', 'J'), (0x25, 'k', 'K'), (0x26, 'l', 'L'), (0x27, ';', ':'),
    (0x28, '\'', '"'), (0x29, '\x60', '~'), (0x2b, '\\', '|'),
    (0x2c, 'z', 'Z'), (0x2d, 'x', 'X'), (0x2e, 'c', 'C'), (0x2f, 'v', 'V'), (0x30, 'b', 'B'),
    (0x31, 'n', 'N'), (0x32, 'm', 'M'), (0x33, ',', '<'), (0x34, '.', '>'), (0x35, '/', '?'),
    (0x39, ' ', ' ')]

/-- `keyboard_printable_for_scancode`. -/
def keyboardPrintableForScancode (scancode : UInt8) (shiftDown : Bool) : UInt8 :=
  match printableKeys.find? fun key => key.1 = scancode with
  | none => 0
  | some key => UInt8.ofNat (if shiftDown = true then key.2.2.toNat else key.2.1.toNat)

/-! ## The queue -/

section Queue

variable {Window : Type} (state : KeyboardState Window)

/-- `keyboard_queue_push`. -/
def keyboardQueuePush (event : KeyboardEvent) (focusWindow : Option Window) :
    Bool × KeyboardState Window :=
  if keyboardEventQueueCapacity ≤ state.ring.count then (false, state)
  else
    (true, { state with
      events := Function.update state.events state.ring.write event
      focusWindows := Function.update state.focusWindows state.ring.write focusWindow
      ring := state.ring.push keyboardEventQueueCapacity })

/-- `keyboard_pop_event_internal`; the slot keeps its event and loses its window. -/
def keyboardPopEvent : Option (KeyboardEvent × Option Window) × KeyboardState Window :=
  if state.ring.count = 0 then (none, state)
  else
    (some (state.events state.ring.read, state.focusWindows state.ring.read), { state with
      focusWindows := Function.update state.focusWindows state.ring.read none
      ring := state.ring.pop keyboardEventQueueCapacity })

/-- `keyboard_pending_count`. -/
def keyboardPendingCount : ℕ := state.ring.count

/-- `keyboard_reset`. -/
def keyboardReset : KeyboardState Window where
  events := state.events
  focusWindows := fun _ => none
  ring := RingIndex.empty
  shiftMask := 0
  sawExtendedPrefix := false

/-- `keyboard_handle_scancode`; the active window is what
`wm_focus_active_window` answers. -/
def keyboardHandleScancode (activeWindow : Option Window) (scancode : UInt8) :
    Bool × KeyboardState Window :=
  if scancode = 0xe0 then (true, { state with sawExtendedPrefix := true })
  else if state.sawExtendedPrefix = true then (true, { state with sawExtendedPrefix := false })
  else
    let isBreak := decide (scancode &&& 0x80 ≠ 0)
    let keycode := scancode &&& 0x7f
    if keycode = 0x2a then
      (true, { state with
        shiftMask :=
          if isBreak = true then state.shiftMask &&& 0xfe else state.shiftMask ||| 0x01 })
    else if keycode = 0x36 then
      (true, { state with
        shiftMask :=
          if isBreak = true then state.shiftMask &&& 0xfd else state.shiftMask ||| 0x02 })
    else if isBreak = true then (true, state)
    else
      let control := keyboardControlForScancode keycode
      if control ≠ 0 then
        keyboardQueuePush state ⟨.control, keycode, 1, 0, control⟩ activeWindow
      else
        let printable := keyboardPrintableForScancode keycode (decide (state.shiftMask ≠ 0))
        if printable = 0 then (true, state)
        else keyboardQueuePush state ⟨.text, keycode, 1, printable, 0⟩ activeWindow

end Queue

end TigerOS.Input
