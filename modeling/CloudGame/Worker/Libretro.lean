import CloudGame.Worker.RoomState
import Mathlib.Algebra.Group.Nat.Defs
import Mathlib.Logic.Function.Basic

/-!
# The controller ports of the core (`Core::update_input_state` in `arcade-worker/src/libretro.rs`)

An input payload is a button mask, low byte first, and up to four signed axes in the same order of
bytes.  A payload of fewer than two bytes changes nothing, and axes that are not there are zero.
-/

namespace CloudGame.Worker

def maxAxes : Nat := 4

structure ControllerState where
  keyState : UInt16
  axes : Fin maxAxes → Int16

def ControllerState.default : ControllerState := ⟨0, fun _ => 0⟩

/-- The controllers by port. -/
abbrev Controllers : Type := Fin maxPlayers → ControllerState

inductive LibretroError where
  | invalidPath (message : String)
deriving DecidableEq

/-- Two bytes, low one first. -/
def fromLeBytes (low high : UInt8) : UInt16 := (high.toUInt16 <<< 8) ||| low.toUInt16

/-- Axis `i` of a payload. -/
def axisOf (raw : Payload) (i : Fin maxAxes) : Int16 :=
  match raw[(i.val + 1) * 2]?, raw[(i.val + 1) * 2 + 1]? with
  | some low, some high => (fromLeBytes low high).toInt16
  | _, _ => 0

def updateInputState (controllers : Controllers) (port : Nat) (raw : Payload) :
    Except LibretroError Controllers :=
  if h : port < maxPlayers then
    match raw with
    | low :: high :: _ =>
      .ok (Function.update controllers ⟨port, h⟩ ⟨fromLeBytes low high, axisOf raw⟩)
    | _ => .ok controllers
  else .error (.invalidPath s!"port {port} out of range")

/-- Only the state of `port` changes. -/
theorem updateInputState_of_ne {controllers controllers' : Controllers} {port : Nat} {raw : Payload}
    (h : updateInputState controllers port raw = .ok controllers') {q : Fin maxPlayers}
    (hq : q.val ≠ port) : controllers' q = controllers q := by
  unfold updateInputState at h
  split at h
  · split at h
    · cases h
      exact Function.update_of_ne (fun he => hq (congrArg Fin.val he)) _ _
    · cases h; rfl
  · cases h

theorem updateInputState_pair (controllers : Controllers) (port : Fin maxPlayers)
    (low high : UInt8) :
    updateInputState controllers port.val [low, high] =
      .ok (Function.update controllers port ⟨fromLeBytes low high, fun _ => 0⟩) := by
  have haxes : axisOf [low, high] = fun _ => 0 := by
    funext i
    have hnone : ([low, high] : Payload)[(i.val + 1) * 2]? = none :=
      List.getElem?_eq_none (by simp only [List.length_cons, List.length_nil]; omega)
    unfold axisOf
    rw [hnone]
  unfold updateInputState
  rw [dif_pos port.isLt, haxes]

theorem toNat_fromLeBytes (low high : UInt8) :
    (fromLeBytes low high).toNat = 2 ^ 8 * high.toNat + low.toNat := by
  have hlow : low.toNat < 2 ^ 8 := low.toNat_lt
  have hhigh : high.toNat < 2 ^ 8 := high.toNat_lt
  simp only [fromLeBytes, UInt16.toNat_or, UInt16.toNat_shiftLeft, UInt8.toNat_toUInt16]
  rw [show UInt16.toNat 8 % 16 = 8 from rfl, Nat.shiftLeft_eq, Nat.mod_eq_of_lt (by omega),
    Nat.mul_comm, ← Nat.two_pow_add_eq_or_of_lt hlow]

/-- The two bytes of a mask are read back as that mask. -/
theorem fromLeBytes_bytes (value : UInt32) (h : value < 65536) :
    (fromLeBytes (value &&& 0xff).toUInt8 ((value >>> 8) &&& 0xff).toUInt8).toUInt32 = value := by
  apply UInt32.toNat.inj
  have hlt : value.toNat < 65536 := h
  have hbyte : ∀ v : UInt32, (v &&& 0xff).toNat = v.toNat % 2 ^ 8 := fun v => by
    rw [UInt32.toNat_and]
    exact Nat.and_two_pow_sub_one_eq_mod v.toNat 8
  have hshift : (value >>> 8).toNat = value.toNat / 2 ^ 8 := by
    rw [UInt32.toNat_shiftRight, show (8 : UInt32).toNat % 32 = 8 from rfl,
      Nat.shiftRight_eq_div_pow]
  rw [UInt16.toNat_toUInt32, toNat_fromLeBytes, UInt32.toNat_toUInt8, UInt32.toNat_toUInt8,
    hbyte, hbyte, hshift]
  omega

end CloudGame.Worker
