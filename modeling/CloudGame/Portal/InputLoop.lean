import CloudGame.Worker.RoomState
import Mathlib.Tactic.Tauto

/-!
# The input loop of the portal (`hooks/webrtc/inputLoop.js`, `gameSessionRuntime.js`)

Every tick computes the button mask and sends it when it differs from the last one sent: on the
`game-input` data channel if that is ready, else on the signaling socket.  A mask that could not be
sent is tried again at the next tick; one that was sent is not repeated.
-/

namespace CloudGame.Portal

open CloudGame.Worker (Payload)

/-! ## The mask -/

/-- What a tick reads: for each joypad index, whether a mapped key, a gamepad binding or a touch
control is pressed, and the mask from outside as a 32-bit integer. -/
structure ButtonState where
  keyboard : Nat → Bool
  gamepad : Nat → Bool
  touch : Nat → Bool
  externalMask : UInt32

def bitmap (joypadKeys : List Nat) (pressed : Nat → Bool) : UInt32 :=
  joypadKeys.foldl
    (fun bits index => if pressed index then bits ||| (1 <<< UInt32.ofNat index) else bits) 0

def packetValue (joypadKeys : List Nat) (buttons : ButtonState) : UInt32 :=
  (bitmap joypadKeys buttons.keyboard ||| bitmap joypadKeys buttons.gamepad |||
    bitmap joypadKeys buttons.touch ||| (buttons.externalMask &&& 0xffff)) &&& 0xffff

theorem packetValue_lt (joypadKeys : List Nat) (buttons : ButtonState) :
    packetValue joypadKeys buttons < 65536 := by
  show UInt32.toNat _ < 65536
  unfold packetValue
  rw [UInt32.toNat_and]
  exact Nat.lt_of_le_of_lt Nat.and_le_right (by decide)

theorem testBit_shiftLeft_one {k : Nat} (hk : k < 32) (n : Nat) :
    ((1 : UInt32) <<< UInt32.ofNat k).toNat.testBit n = decide (k = n) := by
  have hpow : ((1 : UInt32) <<< UInt32.ofNat k).toNat = 2 ^ k := by
    have hmod : (UInt32.ofNat k).toNat = k := UInt32.toNat_ofNat_of_lt' (lt_trans hk (by decide))
    rw [UInt32.toNat_shiftLeft, hmod, Nat.mod_eq_of_lt hk, Nat.shiftLeft_eq]
    show 1 * 2 ^ k % 2 ^ 32 = 2 ^ k
    rw [Nat.one_mul]
    exact Nat.mod_eq_of_lt (Nat.pow_lt_pow_right (by decide) hk)
  rw [hpow, Nat.testBit_two_pow]

theorem testBit_bitmap_from (pressed : Nat → Bool) (n : Nat) {keys : List Nat}
    (hkeys : ∀ k ∈ keys, k < 32) (bits : UInt32) :
    (keys.foldl (fun bits index =>
      if pressed index then bits ||| (1 <<< UInt32.ofNat index) else bits) bits).toNat.testBit n =
      (bits.toNat.testBit n || (decide (n ∈ keys) && pressed n)) := by
  induction keys generalizing bits with
  | nil => simp
  | cons k keys ih =>
    rw [List.foldl_cons, ih (fun k hk => hkeys k (List.mem_cons_of_mem _ hk))]
    have hbit := testBit_shiftLeft_one (hkeys k List.mem_cons_self) n
    by_cases hkn : k = n
    · subst hkn
      cases hpressed : pressed k with
      | true =>
        rw [if_pos rfl, UInt32.toNat_or, Nat.testBit_or, hbit]
        simp
      | false => simp
    · have hmem : n ∈ k :: keys ↔ n ∈ keys := by simp [Ne.symm hkn]
      have hsame : (if pressed k then bits ||| (1 <<< UInt32.ofNat k) else bits).toNat.testBit n =
          bits.toNat.testBit n := by
        split
        · rw [UInt32.toNat_or, Nat.testBit_or, hbit, decide_eq_false hkn, Bool.or_false]
        · rfl
      rw [hsame, decide_eq_decide.mpr hmem]

/-- The bits of the value of a tick. -/
theorem testBit_packetValue {keys : List Nat} (hkeys : ∀ k ∈ keys, k < 32)
    (buttons : ButtonState) {n : Nat} (hn : n < 16) :
    (packetValue keys buttons).toNat.testBit n = true ↔
      (n ∈ keys ∧ (buttons.keyboard n = true ∨ buttons.gamepad n = true ∨
        buttons.touch n = true)) ∨ buttons.externalMask.toNat.testBit n = true := by
  have hlow : (0xffff : UInt32).toNat.testBit n = true := by
    rw [show (0xffff : UInt32).toNat = 2 ^ 16 - 1 from rfl, Nat.testBit_two_pow_sub_one]
    exact decide_eq_true hn
  have hzero : (0 : UInt32).toNat.testBit n = false := Nat.zero_testBit n
  simp only [packetValue, bitmap, UInt32.toNat_and, UInt32.toNat_or, Nat.testBit_and,
    Nat.testBit_or, testBit_bitmap_from _ n hkeys, hlow, hzero, Bool.false_or, Bool.and_true,
    Bool.or_eq_true, Bool.and_eq_true, decide_eq_true_eq]
  tauto

def inputPacket (value : UInt32) : Payload :=
  [(value &&& 0xff).toUInt8, ((value >>> 8) &&& 0xff).toUInt8]

/-! ## Sending -/

/-- What the two ways of sending find: the data channel is open, not backed up and its peer
connected (`canSendInput`), its `send` throws, the socket is open. -/
structure Links where
  canSendInput : Bool
  sendThrows : Bool
  connOpen : Bool

inductive Path where
  | dataChannel
  | signal
deriving DecidableEq

/-- The path a packet takes, if it can be sent. -/
def sendInputViaSignal (links : Links) : Option Path :=
  if links.connOpen then some .signal else none

def sendInputViaDataChannel (links : Links) : Option Path :=
  if links.canSendInput then
    if links.sendThrows then sendInputViaSignal links else some .dataChannel
  else none

/-- One tick: `lastInputPacketValue` then, and the path of the packet that is sent. -/
def tick (lastInputPacketValue : Option UInt32) (packetValue : UInt32) (links : Links) :
    Option UInt32 × Option Path :=
  if lastInputPacketValue = none ∧ packetValue = 0 then (some 0, none)
  else if some packetValue = lastInputPacketValue then (lastInputPacketValue, none)
  else
    match (sendInputViaDataChannel links).or (sendInputViaSignal links) with
    | none => (lastInputPacketValue, none)
    | some path => (some packetValue, some path)

/-- A packet is sent for a new value only, and then remembered. -/
theorem tick_sent {last : Option UInt32} {value : UInt32} {links : Links} {path : Path}
    (h : (tick last value links).2 = some path) : (tick last value links).1 = some value := by
  unfold tick at h ⊢
  split
  · next hz => rw [if_pos hz] at h; cases h
  · next hz =>
    rw [if_neg hz] at h
    split
    · next he => rw [if_pos he] at h; cases h
    · next he =>
      rw [if_neg he] at h
      split
      · next hnone => rw [hnone] at h; cases h
      · rfl

/-- Without a packet the remembered value stays, but that a first zero counts as sent. -/
theorem tick_unsent {last : Option UInt32} {value : UInt32} {links : Links}
    (h : (tick last value links).2 = none) :
    (tick last value links).1 = last ∨ (last = none ∧ (tick last value links).1 = some 0) := by
  unfold tick at h ⊢
  split
  · next hz => exact Or.inr ⟨hz.1, rfl⟩
  · next hz =>
    rw [if_neg hz] at h
    split
    · exact Or.inl rfl
    · next he =>
      rw [if_neg he] at h
      split
      · exact Or.inl rfl
      · next path hpath => rw [hpath] at h; cases h

/-- With a way to send it, a value has been sent, or needs no sending, after its tick. -/
theorem tick_settles {links : Links} {path : Path}
    (h : (sendInputViaDataChannel links).or (sendInputViaSignal links) = some path)
    (last : Option UInt32) (value : UInt32) : (tick last value links).1 = some value := by
  unfold tick
  split
  · next hz => rw [hz.2]
  · split
    · next he => exact he.symm
    · rw [h]

end CloudGame.Portal
