import TigerOS.Input.KeyboardQueue

/-! # What scancodes say

A keyboard says with scancodes which keys go down and up. Of all that came before, three things
matter to the next one: which of the two shift keys are down, and whether a prefix has just come.
The keyboard decodes scancodes in this way whatever is in its queue
(`TigerOS.Input.Remembers.scancode`), and every printable text has scancodes that are decoded to it
(`TigerOS.Input.decode_keystrokes`).
-/

namespace TigerOS.Input

open Foundation

/-! ## Decoding -/

/-- What there is to know of the scancodes that came. -/
structure Decoder where
  leftShift : Bool
  rightShift : Bool
  prefixed : Bool
  deriving DecidableEq

/-- The event of a key that goes down. -/
def keyEvent (keycode : UInt8) (shiftDown : Bool) : Option KeyboardEvent :=
  let control := keyboardControlForScancode keycode
  let printable := keyboardPrintableForScancode keycode shiftDown
  if control ≠ 0 then some ⟨.control, keycode, 1, 0, control⟩
  else if printable = 0 then none
  else some ⟨.text, keycode, 1, printable, 0⟩

namespace Decoder

/-- Nothing is held. -/
def released : Decoder := ⟨false, false, false⟩

/-- The event of a scancode, if it has one. -/
def decode (decoder : Decoder) (scancode : UInt8) : Option KeyboardEvent × Decoder :=
  let up := decide (scancode &&& 0x80 ≠ 0)
  let keycode := scancode &&& 0x7f
  if scancode = 0xe0 then (none, { decoder with prefixed := true })
  else if decoder.prefixed = true then (none, { decoder with prefixed := false })
  else if keycode = 0x2a then (none, { decoder with leftShift := !up })
  else if keycode = 0x36 then (none, { decoder with rightShift := !up })
  else if up = true then (none, decoder)
  else (keyEvent keycode (decoder.leftShift || decoder.rightShift), decoder)

/-- The events of scancodes, in order. -/
def decodeAll : Decoder → List UInt8 → List KeyboardEvent × Decoder
  | decoder, [] => ([], decoder)
  | decoder, scancode :: scancodes =>
      let (event, decoder) := decoder.decode scancode
      let (events, decoder) := decodeAll decoder scancodes
      (event.toList ++ events, decoder)

theorem decodeAll_append (decoder : Decoder) (first second : List UInt8) :
    decoder.decodeAll (first ++ second) =
      ((decoder.decodeAll first).1 ++ ((decoder.decodeAll first).2.decodeAll second).1,
        ((decoder.decodeAll first).2.decodeAll second).2) := by
  induction first generalizing decoder with
  | nil => rfl
  | cons scancode first ih =>
      simp only [List.cons_append, decodeAll]
      rw [ih, List.append_assoc]

/-- The mask of the shift keys that are down. -/
def shiftMask (decoder : Decoder) : UInt8 :=
  shifts decoder.leftShift decoder.rightShift
where
  shifts : Bool → Bool → UInt8
    | false, false => 0
    | true, false => 0x01
    | false, true => 0x02
    | true, true => 0x03

theorem shifts_left (left right up : Bool) : shiftMask.shifts (!up) right =
    if up = true then shiftMask.shifts left right &&& 0xfe
    else shiftMask.shifts left right ||| 0x01 := by
  cases left <;> cases right <;> cases up <;> decide

theorem shifts_right (left right up : Bool) : shiftMask.shifts left (!up) =
    if up = true then shiftMask.shifts left right &&& 0xfd
    else shiftMask.shifts left right ||| 0x02 := by
  cases left <;> cases right <;> cases up <;> decide

theorem shiftMask_ne_zero (decoder : Decoder) :
    decide (decoder.shiftMask ≠ 0) = (decoder.leftShift || decoder.rightShift) := by
  obtain ⟨left, right, prefixed⟩ := decoder
  cases left <;> cases right <;> rfl

end Decoder

/-! ## The keyboard decodes -/

section Remembers

variable {Window : Type} {state : KeyboardState Window} {decoder : Decoder}

/-- A keyboard remembers what the scancodes said. -/
structure Remembers (decoder : Decoder) (state : KeyboardState Window) : Prop where
  shiftMask : state.shiftMask = decoder.shiftMask
  sawExtendedPrefix : state.sawExtendedPrefix = decoder.prefixed

/-- A push leaves what is remembered. -/
theorem Remembers.push (remembers : Remembers decoder state) (event : KeyboardEvent)
    (focus : Option Window) : Remembers decoder (keyboardQueuePush state event focus).2 := by
  unfold keyboardQueuePush
  split
  · exact remembers
  · exact ⟨remembers.shiftMask, remembers.sawExtendedPrefix⟩

/-- A pop leaves what is remembered. -/
theorem Remembers.pop (remembers : Remembers decoder state) :
    Remembers decoder (keyboardPopEvent state).2 := by
  unfold keyboardPopEvent
  split
  · exact remembers
  · exact ⟨remembers.shiftMask, remembers.sawExtendedPrefix⟩

/-- The keyboard with the scancodes of a decoder behind it. -/
def KeyboardState.remember (state : KeyboardState Window) (decoder : Decoder) :
    KeyboardState Window :=
  { state with
    shiftMask := decoder.shiftMask
    sawExtendedPrefix := decoder.prefixed }

theorem remembers_remember : Remembers decoder (state.remember decoder) := ⟨rfl, rfl⟩

/-- A scancode puts its event into the queue, if it has one, and is remembered. -/
theorem Remembers.handle (remembers : Remembers decoder state) (active : Option Window)
    (scancode : UInt8) : keyboardHandleScancode state active scancode =
      ((decoder.decode scancode).1.elim
        (true, state.remember (decoder.decode scancode).2) fun event =>
          keyboardQueuePush (state.remember (decoder.decode scancode).2) event active) := by
  obtain ⟨events, focusWindows, ring, mask, saw⟩ := state
  obtain ⟨same, rfl⟩ := remembers
  obtain rfl : mask = decoder.shiftMask := same
  unfold keyboardHandleScancode Decoder.decode
  by_cases extended : scancode = 0xe0
  · simp only [if_pos extended]
    rfl
  by_cases second : decoder.prefixed = true
  · simp only [if_neg extended, if_pos second]
    rfl
  by_cases left : scancode &&& 0x7f = 0x2a
  · simp only [if_neg extended, if_neg second, if_pos left]
    exact congrArg (fun mask => (true, KeyboardState.mk events focusWindows ring mask _))
      (Decoder.shifts_left _ _ _).symm
  by_cases right : scancode &&& 0x7f = 0x36
  · simp only [if_neg extended, if_neg second, if_neg left, if_pos right]
    exact congrArg (fun mask => (true, KeyboardState.mk events focusWindows ring mask _))
      (Decoder.shifts_right _ _ _).symm
  simp only [if_neg extended, if_neg second, if_neg left, if_neg right]
  by_cases up : decide (scancode &&& 0x80 ≠ 0) = true
  · simp only [if_pos up]
    rfl
  simp only [if_neg up, keyEvent]
  rw [decoder.shiftMask_ne_zero]
  split
  · rfl
  split
  · rfl
  · rfl

/-- **A scancode** that is answered with success adds what it is decoded to, and one that is not
leaves the queue as it was. -/
theorem Remembers.scancode (remembers : Remembers decoder state) (valid : state.Valid)
    (active : Option Window) (scancode : UInt8) :
    Remembers (decoder.decode scancode).2 (keyboardHandleScancode state active scancode).2 ∧
      (keyboardHandleScancode state active scancode).2.pending = state.pending ++
        if (keyboardHandleScancode state active scancode).1 = true then
          (decoder.decode scancode).1.toList.map fun event => (event, active)
        else [] := by
  have remembers' : Remembers _ (state.remember (decoder.decode scancode).2) := remembers_remember
  have pending : (state.remember (decoder.decode scancode).2).pending = state.pending := rfl
  have valid' : (state.remember (decoder.decode scancode).2).Valid := valid
  rw [remembers.handle]
  revert remembers' pending valid'
  generalize state.remember (decoder.decode scancode).2 = after
  intro remembers' pending valid'
  cases (decoder.decode scancode).1 with
  | none =>
      refine ⟨remembers', ?_⟩
      rw [Option.elim_none, if_pos rfl, pending]
      exact (List.append_nil _).symm
  | some event =>
      refine ⟨remembers'.push event active, ?_⟩
      rw [Option.elim_some]
      rcases Nat.lt_or_ge after.ring.count keyboardEventQueueCapacity with room | full
      · obtain ⟨keyboard, pushed, _, appended⟩ := push_room valid' room event active
        rw [pushed, if_pos rfl, appended, pending]
        rfl
      · rw [push_full full, if_neg Bool.false_ne_true, List.append_nil, pending]

end Remembers

/-! ## Keystrokes -/

/-- The key of a printable character, and whether it needs shift. -/
def keyOf (byte : UInt8) : Option (UInt8 × Bool) :=
  match printableKeys.find? fun key => UInt8.ofNat key.2.1.toNat = byte with
  | some key => some (key.1, false)
  | none => (printableKeys.find? fun key => UInt8.ofNat key.2.2.toNat = byte).map fun key =>
      (key.1, true)

/-- The scancodes of a key that is pressed and let go, with the left shift key around it where the
character needs it. -/
def keystrokes (byte : UInt8) : List UInt8 :=
  (keyOf byte).elim [] fun key =>
    if key.2 = true then [0x2a, key.1, key.1 ||| 0x80, 0xaa] else [key.1, key.1 ||| 0x80]

/-- The event of a printable character. -/
def textKey (byte : UInt8) : KeyboardEvent :=
  ⟨.text, ((keyOf byte).map Prod.fst).getD 0, 1, byte, 0⟩

/-- The keystrokes of a printable character are decoded to it. -/
theorem decode_keystroke {byte : UInt8} (printable : 0x20 ≤ byte ∧ byte ≤ 0x7e) :
    Decoder.released.decodeAll (keystrokes byte) = ([textKey byte], Decoder.released) := by
  have all : ∀ n < 95, Decoder.released.decodeAll (keystrokes (UInt8.ofNat (0x20 + n))) =
      ([textKey (UInt8.ofNat (0x20 + n))], Decoder.released) := by decide +kernel
  obtain ⟨low, high⟩ := printable
  rw [UInt8.le_iff_toNat_le] at low high
  change 0x20 ≤ byte.toNat at low
  change byte.toNat ≤ 0x7e at high
  have place : UInt8.ofNat (0x20 + (byte.toNat - 0x20)) = byte := by
    rw [Nat.add_sub_cancel' low]
    exact UInt8.ofNat_toNat
  have inside : byte.toNat - 0x20 < 95 := by omega
  rw [← place]
  exact all _ inside

/-- **Every printable text can be typed**: its keystrokes are decoded to it, and leave no key
held. -/
theorem decode_keystrokes (text : List UInt8)
    (printable : ∀ byte ∈ text, 0x20 ≤ byte ∧ byte ≤ 0x7e) :
    Decoder.released.decodeAll (text.flatMap keystrokes) =
      (text.map textKey, Decoder.released) := by
  induction text with
  | nil => rfl
  | cons byte text ih =>
      have rest := ih fun other member => printable other (List.mem_cons_of_mem _ member)
      rw [List.flatMap_cons, Decoder.decodeAll_append,
        decode_keystroke (printable byte List.mem_cons_self), rest]
      rfl

/-! ## Streams of scancodes -/

section Streams

variable {Window : Type} {state : KeyboardState Window} {decoder : Decoder}

/-- The keyboard after scancodes that came while a window was active. -/
def keyboardHandleAll (state : KeyboardState Window) (active : Option Window)
    (scancodes : List UInt8) : KeyboardState Window :=
  scancodes.foldl (fun state scancode => (keyboardHandleScancode state active scancode).2) state

theorem KeyboardState.Valid.length_pending (valid : state.Valid) :
    state.pending.length ≤ keyboardEventQueueCapacity := by
  unfold KeyboardState.pending
  rw [RingIndex.length_contents]
  exact RingIndex.Valid.room valid

/-- What does not fit is lost, also when more comes. -/
theorem take_take_append {Entry : Type*} (capacity : ℕ) (first second : List Entry) :
    (first.take capacity ++ second).take capacity = (first ++ second).take capacity := by
  rw [List.take_append, List.take_append, List.take_take, min_self, List.length_take]
  congr 2
  omega

/-- A push adds to the queue as far as there is room. -/
theorem push_take (valid : state.Valid) (event : KeyboardEvent) (focus : Option Window) :
    (keyboardQueuePush state event focus).2.pending =
      (state.pending ++ [(event, focus)]).take keyboardEventQueueCapacity := by
  have length : state.pending.length = state.ring.count := RingIndex.length_contents
  rcases Nat.lt_or_ge state.ring.count keyboardEventQueueCapacity with room | full
  · obtain ⟨keyboard, pushed, _, appended⟩ := push_room valid room event focus
    rw [pushed, List.take_of_length_le]
    · exact appended
    · rw [List.length_append, length]
      exact room
  · rw [push_full full, List.take_append_of_le_length (length ▸ full),
      List.take_of_length_le valid.length_pending]

/-- A scancode adds what it is decoded to as far as there is room. -/
theorem Remembers.step (remembers : Remembers decoder state) (valid : state.Valid)
    (active : Option Window) (scancode : UInt8) :
    Remembers (decoder.decode scancode).2 (keyboardHandleScancode state active scancode).2 ∧
      (keyboardHandleScancode state active scancode).2.pending = (state.pending ++
        (decoder.decode scancode).1.toList.map fun event => (event, active)).take
          keyboardEventQueueCapacity := by
  refine ⟨(remembers.scancode valid active scancode).1, ?_⟩
  have valid' : (state.remember (decoder.decode scancode).2).Valid := valid
  rw [remembers.handle]
  cases (decoder.decode scancode).1 with
  | none =>
      rw [Option.toList_none, List.map_nil, List.append_nil,
        List.take_of_length_le valid.length_pending]
      rfl
  | some event => exact push_take valid' event active

/-- **Any stream of scancodes** is queued as what it is decoded to: the events behind those that
wait, as far as there is room. -/
theorem Remembers.run (remembers : Remembers decoder state) (valid : state.Valid)
    (active : Option Window) (scancodes : List UInt8) :
    Remembers (decoder.decodeAll scancodes).2 (keyboardHandleAll state active scancodes) ∧
      (keyboardHandleAll state active scancodes).pending = (state.pending ++
        (decoder.decodeAll scancodes).1.map fun event => (event, active)).take
          keyboardEventQueueCapacity := by
  induction scancodes generalizing state decoder with
  | nil =>
      refine ⟨remembers, ?_⟩
      rw [Decoder.decodeAll, List.map_nil, List.append_nil,
        List.take_of_length_le valid.length_pending]
      rfl
  | cons scancode scancodes ih =>
      obtain ⟨remembers', pending⟩ := remembers.step valid active scancode
      obtain ⟨last, queued⟩ := ih remembers' (scancode_pending valid active scancode).1
      refine ⟨last, queued.trans ?_⟩
      rw [pending, take_take_append, Decoder.decodeAll, List.append_assoc, ← List.map_append]

end Streams

/-- **A text that is typed** waits in the queue, behind what waited before and as far as there is
room; what does not fit is lost, and no key stays held. -/
theorem keyboard_types {Window : Type} (state : KeyboardState Window) (valid : state.Valid)
    (remembers : Remembers Decoder.released state) (active : Option Window) (text : List UInt8)
    (printable : ∀ byte ∈ text, 0x20 ≤ byte ∧ byte ≤ 0x7e) :
    let after := keyboardHandleAll state active (text.flatMap keystrokes)
    Remembers Decoder.released after ∧
      after.pending = (state.pending ++ text.map fun byte => (textKey byte, active)).take
        keyboardEventQueueCapacity := by
  obtain ⟨last, queued⟩ := remembers.run valid active (text.flatMap keystrokes)
  rw [decode_keystrokes text printable] at last queued
  refine ⟨last, queued.trans ?_⟩
  rw [List.map_map]
  rfl

/-- Two characters, the first with shift. -/
theorem keyboard_types_two :
    let state : KeyboardState ℕ :=
      ⟨fun _ => ⟨.text, 0, 0, 0, 0⟩, fun _ => none, RingIndex.empty, 0, false⟩
    (keyboardHandleAll state (some 7) [0x2a, 0x23, 0xa3, 0xaa, 0x17, 0x97]).pending =
      [(⟨.text, 0x23, 1, 0x48, 0⟩, some 7), (⟨.text, 0x17, 1, 0x69, 0⟩, some 7)] := by
  intro state
  have typed := keyboard_types state (RingIndex.valid_empty (by decide)) ⟨rfl, rfl⟩ (some 7)
    [0x48, 0x69] (by decide +kernel)
  exact typed.2

end TigerOS.Input
