import Mathlib.Data.Set.Function
import CloudGame.Lib.Machine
import CloudGame.Worker.Libretro

/-!
# What the core reads of its ports (`input_state_callback` in `arcade-worker/src/libretro.rs`)

The core asks for one button or axis at a time, by the ids of libretro.  `button_bit_index` takes a
button to its bit in the mask of the port.

* `core_reads_input`: after a payload the core reads its bits and its axes on the port, each button
  by a bit of its own, and on every other port what it read before.
-/

namespace CloudGame.Worker

open CloudGame.Lib

/-! ## Buttons -/

namespace Retro

def deviceJoypad : UInt32 := 1
def deviceAnalog : UInt32 := 5
def deviceIndexAnalogRight : UInt32 := 1
def deviceIdAnalogY : UInt32 := 1

def deviceIdJoypadA : UInt32 := 8
def deviceIdJoypadB : UInt32 := 0
def deviceIdJoypadX : UInt32 := 9
def deviceIdJoypadY : UInt32 := 1
def deviceIdJoypadL : UInt32 := 10
def deviceIdJoypadR : UInt32 := 11
def deviceIdJoypadSelect : UInt32 := 2
def deviceIdJoypadStart : UInt32 := 3
def deviceIdJoypadUp : UInt32 := 4
def deviceIdJoypadDown : UInt32 := 5
def deviceIdJoypadLeft : UInt32 := 6
def deviceIdJoypadRight : UInt32 := 7
def deviceIdJoypadL2 : UInt32 := 12
def deviceIdJoypadR2 : UInt32 := 13
def deviceIdJoypadL3 : UInt32 := 14
def deviceIdJoypadR3 : UInt32 := 15

end Retro

open Retro

def buttonBitIndex (id : UInt32) : Option UInt16 :=
  if id = deviceIdJoypadB then some 1
  else if id = deviceIdJoypadY then some 3
  else if id = deviceIdJoypadSelect then some 6
  else if id = deviceIdJoypadStart then some 7
  else if id = deviceIdJoypadUp then some 8
  else if id = deviceIdJoypadDown then some 9
  else if id = deviceIdJoypadLeft then some 10
  else if id = deviceIdJoypadRight then some 11
  else if id = deviceIdJoypadA then some 0
  else if id = deviceIdJoypadX then some 2
  else if id = deviceIdJoypadL then some 4
  else if id = deviceIdJoypadR then some 5
  else if id = deviceIdJoypadL2 then some 13
  else if id = deviceIdJoypadR2 then some 12
  else if id = deviceIdJoypadL3 then some 15
  else if id = deviceIdJoypadR3 then some 14
  else none

/-- The ids of the buttons by their bits. -/
def buttonIds : List UInt32 :=
  [deviceIdJoypadA, deviceIdJoypadB, deviceIdJoypadX, deviceIdJoypadY, deviceIdJoypadL,
    deviceIdJoypadR, deviceIdJoypadSelect, deviceIdJoypadStart, deviceIdJoypadUp,
    deviceIdJoypadDown, deviceIdJoypadLeft, deviceIdJoypadRight, deviceIdJoypadR2,
    deviceIdJoypadL2, deviceIdJoypadR3, deviceIdJoypadL3]

/-- The ids of the buttons are below sixteen. -/
theorem buttonBitIndex_of_le {id : UInt32} (h : 16 ≤ id.toNat) : buttonBitIndex id = none := by
  have hne : ∀ k : UInt32, k.toNat < 16 → id ≠ k := by
    rintro k hk rfl
    exact absurd hk (Nat.not_lt.mpr h)
  unfold buttonBitIndex
  rw [if_neg (hne _ (by decide)), if_neg (hne _ (by decide)), if_neg (hne _ (by decide)),
    if_neg (hne _ (by decide)), if_neg (hne _ (by decide)), if_neg (hne _ (by decide)),
    if_neg (hne _ (by decide)), if_neg (hne _ (by decide)), if_neg (hne _ (by decide)),
    if_neg (hne _ (by decide)), if_neg (hne _ (by decide)), if_neg (hne _ (by decide)),
    if_neg (hne _ (by decide)), if_neg (hne _ (by decide)), if_neg (hne _ (by decide)),
    if_neg (hne _ (by decide))]

/-- Every button has its own bit, and every bit its button. -/
theorem buttonBitIndex_eq_some {id : UInt32} {bit : UInt16} :
    buttonBitIndex id = some bit ↔ buttonIds[bit.toNat]? = some id := by
  constructor
  · intro h
    by_cases hid : id.toNat < 16
    · have hall : ∀ n, n < 16 → (buttonBitIndex (UInt32.ofNat n)).all (fun b =>
          buttonIds[b.toNat]? = some (UInt32.ofNat n)) = true := by decide
      have hbit := hall id.toNat hid
      rw [UInt32.ofNat_toNat, h] at hbit
      exact of_decide_eq_true hbit
    · rw [buttonBitIndex_of_le (Nat.not_lt.mp hid)] at h
      cases h
  · intro h
    have hlt : bit.toNat < 16 := (List.getElem?_eq_some_iff.mp h).1
    have hall : ∀ n, n < 16 →
        buttonIds[n]?.all (fun i => buttonBitIndex i = some (UInt16.ofNat n)) = true := by decide
    have hbit := hall bit.toNat hlt
    rw [UInt16.ofNat_toNat, h] at hbit
    exact of_decide_eq_true hbit

theorem buttonBitIndex_lt {id : UInt32} {bit : UInt16} (h : buttonBitIndex id = some bit) :
    bit.toNat < 16 :=
  (List.getElem?_eq_some_iff.mp (buttonBitIndex_eq_some.mp h)).1

theorem buttonBitIndex_of_lt {id : UInt32} (h : id.toNat < 16) :
    ∃ bit, buttonBitIndex id = some bit := by
  have hall : ∀ n, n < 16 → (buttonBitIndex (UInt32.ofNat n)).isSome = true := by decide
  have hsome := hall id.toNat h
  rw [UInt32.ofNat_toNat] at hsome
  exact Option.isSome_iff_exists.mp hsome

/-- The sixteen buttons and the sixteen bits are in bijection. -/
theorem buttonBitIndex_bijOn :
    Set.BijOn buttonBitIndex {id | id.toNat < 16} {b | ∃ bit : UInt16, b = some bit ∧
      bit.toNat < 16} := by
  refine ⟨fun id hid => ?_, fun id hid id' _ heq => ?_, ?_⟩
  · obtain ⟨bit, hbit⟩ := buttonBitIndex_of_lt hid
    exact ⟨bit, hbit, buttonBitIndex_lt hbit⟩
  · obtain ⟨bit, hbit⟩ := buttonBitIndex_of_lt hid
    have hat := buttonBitIndex_eq_some.mp hbit
    have hat' := buttonBitIndex_eq_some.mp (heq ▸ hbit)
    exact Option.some.inj (hat.symm.trans hat')
  · rintro b ⟨bit, rfl, hlt⟩
    have hbit : buttonBitIndex buttonIds[bit.toNat] = some bit :=
      buttonBitIndex_eq_some.mpr (List.getElem?_eq_getElem hlt)
    refine ⟨buttonIds[bit.toNat], Nat.lt_of_not_le fun hle => ?_, hbit⟩
    rw [buttonBitIndex_of_le hle] at hbit
    cases hbit

/-! ## Readings -/

/-- A callback of the user that answers in place of the controllers. -/
abbrev InputState : Type := UInt32 → UInt32 → UInt32 → UInt32 → Int16

/-- `(key_state >> bit) & 1` -/
def keyReading (keyState bit : UInt16) : Int16 := if (keyState >>> bit) &&& 1 = 1 then 1 else 0

def withUserInputState (inputState : Option InputState) (controllers : Controllers)
    (port device index id : UInt32) : Option Int16 :=
  match inputState with
  | some callback => some (callback port device index id)
  | none =>
    if h : port.toNat < maxPlayers then
      if device = deviceAnalog then
        if index > deviceIndexAnalogRight ∨ id > deviceIdAnalogY then some 0
        else
          let axis := saturatingAdd32 (min (index.toNat * 2) (2 ^ 32 - 1)) id.toNat
          if haxis : axis < maxAxes then some ((controllers ⟨port.toNat, h⟩).axes ⟨axis, haxis⟩)
          else some 0
      else if id ≥ 255 ∨ index > 0 ∨ device ≠ deviceJoypad then some 0
      else (buttonBitIndex id).map (keyReading (controllers ⟨port.toNat, h⟩).keyState)
    else some 0

def inputStateCallback (inputState : Option InputState) (controllers : Controllers)
    (port device index id : UInt32) : Int16 :=
  match withUserInputState inputState controllers port device index id with
  | some v => v
  | none =>
    if h : port.toNat < maxPlayers then
      if device = deviceAnalog then
        if index > deviceIndexAnalogRight ∨ id > deviceIdAnalogY then 0
        else
          let axis := saturatingAdd32 (min (index.toNat * 2) (2 ^ 32 - 1)) id.toNat
          if haxis : axis < maxAxes then (controllers ⟨port.toNat, h⟩).axes ⟨axis, haxis⟩ else 0
      else if id ≥ 255 ∨ index > 0 ∨ device ≠ deviceJoypad then 0
      else ((buttonBitIndex id).map (keyReading (controllers ⟨port.toNat, h⟩).keyState)).getD 0
    else 0

/-! ## What a port is read as -/

/-- The buttons that are down by these bits. -/
def pressed (bits : Nat → Bool) (device index id : UInt32) : Bool :=
  device = deviceJoypad && index = 0 && (buttonBitIndex id).any fun bit => bits bit.toNat

/-- Bit `n` of a payload. -/
def payloadBit (data : Payload) (n : Nat) : Bool := (data.getD (n / 8) 0).toNat.testBit (n % 8)

section Readings

variable {controllers controllers' : Controllers} {port : Nat} {data : Payload}
  {device index id : UInt32}

/-- The axis that is asked for, if there is one. -/
def axisIndex (index id : UInt32) : Option (Fin maxAxes) :=
  if h : index.toNat ≤ 1 ∧ id.toNat ≤ 1 then
    some ⟨index.toNat * 2 + id.toNat, by
      show _ < 4
      omega⟩
  else none

/-- What is read of a controller. -/
def ControllerState.reading (state : ControllerState) (device index id : UInt32) : Int16 :=
  if device = deviceAnalog then ((axisIndex index id).map state.axes).getD 0
  else if device = deviceJoypad ∧ index = 0 then
    ((buttonBitIndex id).map (keyReading state.keyState)).getD 0
  else 0

theorem analog_lt_iff : index > deviceIndexAnalogRight ∨ id > deviceIdAnalogY ↔
    ¬ (index.toNat ≤ 1 ∧ id.toNat ≤ 1) := by
  rw [not_and_or, Nat.not_le, Nat.not_le]
  exact or_congr UInt32.lt_iff_toNat_lt UInt32.lt_iff_toNat_lt

theorem axis_saturating (h : index.toNat ≤ 1 ∧ id.toNat ≤ 1) :
    saturatingAdd32 (min (index.toNat * 2) (2 ^ 32 - 1)) id.toNat = index.toNat * 2 + id.toNat := by
  unfold saturatingAdd32
  omega

/-- Without a callback of the user the core reads the controller of the port. -/
theorem inputStateCallback_none (port : UInt32) :
    inputStateCallback none controllers port device index id =
      if h : port.toNat < maxPlayers then
        (controllers ⟨port.toNat, h⟩).reading device index id
      else 0 := by
  unfold inputStateCallback withUserInputState ControllerState.reading
  by_cases hport : port.toNat < maxPlayers
  · simp only [dif_pos hport]
    by_cases hanalog : device = deviceAnalog
    · simp only [if_pos hanalog]
      by_cases haxis : index.toNat ≤ 1 ∧ id.toNat ≤ 1
      · have hlt : index.toNat * 2 + id.toNat < maxAxes := by
          show _ < 4
          omega
        simp only [if_neg (mt analog_lt_iff.mp (not_not.mpr haxis)), axis_saturating haxis,
          dif_pos hlt, axisIndex, dif_pos haxis, Option.map_some, Option.getD_some]
      · simp only [if_pos (analog_lt_iff.mpr haxis), axisIndex, dif_neg haxis, Option.map_none,
          Option.getD_none]
    · simp only [if_neg hanalog]
      by_cases hjoypad : device = deviceJoypad ∧ index = 0
      · by_cases hid : id ≥ 255
        · have hnone : buttonBitIndex id = none := by
            refine buttonBitIndex_of_le ?_
            have hle : 255 ≤ id.toNat := UInt32.le_iff_toNat_le.mp hid
            omega
          simp only [if_pos hjoypad, if_pos (Or.inl hid), hnone, Option.map_none, Option.getD_none]
        · have hindex : ¬ index > 0 := by
            rw [hjoypad.2]
            decide
          have hread : ¬ (id ≥ 255 ∨ index > 0 ∨ device ≠ deviceJoypad) := by
            rintro (h | h | h)
            · exact hid h
            · exact hindex h
            · exact h hjoypad.1
          simp only [if_pos hjoypad, if_neg hread]
          cases buttonBitIndex id <;> rfl
      · have hzero : id ≥ 255 ∨ index > 0 ∨ device ≠ deviceJoypad := by
          by_cases hdevice : device = deviceJoypad
          · have hindex : index ≠ 0 := fun h => hjoypad ⟨hdevice, h⟩
            exact Or.inr (Or.inl (UInt32.pos_iff_ne_zero.mpr hindex))
          · exact Or.inr (Or.inr hdevice)
        simp only [if_neg hjoypad, if_pos hzero]
  · simp only [dif_neg hport]

theorem keyReading_eq {keyState bit : UInt16} (h : bit.toNat < 16) :
    keyReading keyState bit = if keyState.toNat.testBit bit.toNat then 1 else 0 := by
  have hbit : (keyState >>> bit) &&& 1 = 1 ↔ keyState.toNat.testBit bit.toNat = true := by
    rw [← UInt16.toNat_inj, UInt16.toNat_and, UInt16.toNat_shiftRight, Nat.mod_eq_of_lt h,
      show (1 : UInt16).toNat = 1 from rfl, Nat.and_one_is_mod, Nat.testBit_eq_decide_div_mod_eq,
      Nat.shiftRight_eq_div_pow, decide_eq_true_eq]
  unfold keyReading
  exact if_congr hbit rfl rfl

/-- A port by its number. -/
theorem inputStateCallback_port (controllers : Controllers) (port : Fin maxPlayers) :
    inputStateCallback none controllers (UInt32.ofNat port.val) device index id =
      (controllers port).reading device index id := by
  have hport : (UInt32.ofNat port.val).toNat = port.val :=
    UInt32.toNat_ofNat_of_lt' (lt_trans port.isLt (by decide))
  have hlt : (UInt32.ofNat port.val).toNat < maxPlayers := hport.symm ▸ port.isLt
  have hsame : (⟨(UInt32.ofNat port.val).toNat, hlt⟩ : Fin maxPlayers) = port := Fin.ext hport
  rw [inputStateCallback_none, dif_pos hlt, hsame]

/-- A button reads as down exactly if its bit is set. -/
theorem inputStateCallback_button (controllers : Controllers) (port : Fin maxPlayers)
    (id : UInt32) :
    inputStateCallback none controllers (UInt32.ofNat port.val) deviceJoypad 0 id = 1 ↔
      ∃ bit, buttonBitIndex id = some bit ∧
        (controllers port).keyState.toNat.testBit bit.toNat = true := by
  rw [inputStateCallback_port, ControllerState.reading, if_neg (by decide), if_pos ⟨rfl, rfl⟩]
  cases hbit : buttonBitIndex id with
  | none => simp
  | some bit =>
    rw [Option.map_some, Option.getD_some, keyReading_eq (buttonBitIndex_lt hbit)]
    simp

theorem testBit_fromLeBytes (data : Payload) {n : Nat} (h : n < 16) :
    (fromLeBytes (data.getD 0 0) (data.getD 1 0)).toNat.testBit n = payloadBit data n := by
  have hlow : (data.getD 0 0).toNat < 2 ^ 8 := (data.getD 0 0).toNat_lt
  rw [toNat_fromLeBytes, Nat.testBit_two_pow_mul_add _ hlow, payloadBit]
  split
  · next hn => rw [Nat.div_eq_of_lt hn, Nat.mod_eq_of_lt hn]
  · next hn =>
    have hdiv : n / 8 = 1 := by omega
    have hmod : n % 8 = n - 8 := by omega
    rw [hdiv, hmod]

/-- A controller as a payload sets it is read by the payload's bits and axes. -/
theorem reading_packet (data : Payload) :
    (⟨fromLeBytes (data.getD 0 0) (data.getD 1 0), axisOf data⟩ : ControllerState).reading device
      index id =
      if device = deviceAnalog then ((axisIndex index id).map (axisOf data)).getD 0
      else if pressed (payloadBit data) device index id then 1 else 0 := by
  unfold ControllerState.reading
  split
  · rfl
  · by_cases hjoypad : device = deviceJoypad ∧ index = 0
    · rw [if_pos hjoypad]
      cases hbit : buttonBitIndex id with
      | none => simp [pressed, hbit]
      | some bit =>
        have hlt := buttonBitIndex_lt hbit
        rw [Option.map_some, Option.getD_some, keyReading_eq hlt, testBit_fromLeBytes data hlt]
        simp [pressed, hjoypad, hbit]
    · rw [if_neg hjoypad, if_neg]
      intro hpressed
      simp only [pressed, Bool.and_eq_true, decide_eq_true_eq] at hpressed
      exact hjoypad hpressed.1

/-- **What is sent is what is read.**  After `update_input_state` has taken a payload for a port,
whatever the core asks for: on this port it reads the bits of the first two bytes, button by button,
and the axes that follow them, and on every other port what it read before.  Each of the sixteen
buttons has one of the sixteen bits, and no two the same. -/
theorem core_reads_input (hlong : 2 ≤ data.length)
    (h : updateInputState controllers port data = .ok controllers') (q : UInt32) :
    (inputStateCallback none controllers' q device index id =
      if q.toNat = port then
        if device = deviceAnalog then ((axisIndex index id).map (axisOf data)).getD 0
        else if pressed (payloadBit data) device index id then 1 else 0
      else inputStateCallback none controllers q device index id) ∧
    Set.BijOn buttonBitIndex {id | id.toNat < 16} {b | ∃ bit : UInt16, b = some bit ∧
      bit.toNat < 16} := by
  refine ⟨?_, buttonBitIndex_bijOn⟩
  rw [inputStateCallback_none, inputStateCallback_none]
  unfold updateInputState at h
  split at h
  · next hport =>
    match data, hlong with
    | low :: high :: rest, _ =>
      cases h
      by_cases hq : q.toNat = port
      · subst hq
        rw [if_pos rfl, dif_pos hport, Function.update_self]
        exact reading_packet (low :: high :: rest)
      · rw [if_neg hq]
        refine dite_congr rfl (fun hlt => ?_) fun _ => rfl
        rw [Function.update_of_ne]
        exact fun he => hq (congrArg Fin.val he)
  · cases h

end Readings

/-- The third port is told that `A` and `X` are down and the first axis is at its end. -/
theorem core_reads_input_axes : ∃ controllers,
    updateInputState (fun _ => .default) 2 [0x05, 0x00, 0xff, 0x7f] = .ok controllers ∧
      inputStateCallback none controllers 2 deviceAnalog 0 0 = 0x7fff ∧
      inputStateCallback none controllers 2 deviceJoypad 0 deviceIdJoypadX = 1 ∧
      inputStateCallback none controllers 2 deviceJoypad 0 deviceIdJoypadB = 0 := by
  obtain ⟨controllers, h⟩ : ∃ controllers,
      updateInputState (fun _ => .default) 2 [0x05, 0x00, 0xff, 0x7f] = .ok controllers := ⟨_, rfl⟩
  have hlong : 2 ≤ ([0x05, 0x00, 0xff, 0x7f] : Payload).length := by decide
  refine ⟨controllers, h, ?_, ?_, ?_⟩
  · rw [(core_reads_input hlong h _).1]
    decide
  · rw [(core_reads_input hlong h _).1]
    decide
  · rw [(core_reads_input hlong h _).1]
    decide

end CloudGame.Worker
