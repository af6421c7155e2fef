import CloudGame.Lib.Machine
import Mathlib.Data.List.Basic

/-!
# Keyframes in an H.264 bitstream (`h264_contains_idr` in `arcade-worker/src/video_sender.rs`)

A bitstream is searched for a NAL unit of type 5, an IDR slice: first for units behind start codes
(Annex B) and, if there is no start code at all, for units behind lengths of four bytes (AVCC).
Both loops run on an index; `ScanEnd` is how a loop can end, and reading out of range is one of the
ways.
-/

namespace CloudGame.Worker

open CloudGame.Lib

inductive ScanEnd where
  | idr
  /-- The end of the bitstream, and whether there was a start code. -/
  | ended (foundStartCode : Bool)
  | outOfRange
  | outOfFuel
deriving DecidableEq

/-- The NAL unit that starts with this byte is an IDR slice. -/
def isIdrHeader (b : UInt8) : Bool := b &&& 0x1f = 5

/-- The length of the start code at the beginning of the bytes. -/
def startCodeLen : List UInt8 → Option Nat
  | 0 :: 0 :: 0 :: 1 :: _ => some 4
  | 0 :: 0 :: 1 :: _ => some 3
  | _ => none

def scanStartCodes (bitstream : List UInt8) : Nat → Nat → Bool → ScanEnd
  | 0, _, _ => .outOfFuel
  | fuel + 1, i, found =>
    if i + 3 ≤ bitstream.length then
      match startCodeLen (bitstream.drop i) with
      | none => scanStartCodes bitstream fuel (saturatingAdd i 1) found
      | some len =>
        let nalStart := i + len
        if nalStart ≥ bitstream.length then .ended true
        else
          match bitstream[nalStart]? with
          | none => .outOfRange
          | some b =>
            if isIdrHeader b then .idr
            else scanStartCodes bitstream fuel (saturatingAdd nalStart 1) true
    else .ended found

/-- `u32::from_be_bytes` of the four bytes at `i`. -/
def beLength (bitstream : List UInt8) (i : Nat) : Option Nat := do
  let a ← bitstream[i]?
  let b ← bitstream[i + 1]?
  let c ← bitstream[i + 2]?
  let d ← bitstream[i + 3]?
  return ((a.toNat * 256 + b.toNat) * 256 + c.toNat) * 256 + d.toNat

def scanLengths (bitstream : List UInt8) : Nat → Nat → ScanEnd
  | 0, _ => .outOfFuel
  | fuel + 1, i =>
    if i + 4 ≤ bitstream.length then
      match beLength bitstream i with
      | none => .outOfRange
      | some len =>
        let i := saturatingAdd i 4
        if len = 0 then scanLengths bitstream fuel i
        else if i + len > bitstream.length then .ended false
        else
          match bitstream[i]? with
          | none => .outOfRange
          | some b =>
            if isIdrHeader b then .idr else scanLengths bitstream fuel (saturatingAdd i len)
    else .ended false

/-- Every round of a loop moves the index on, so as many rounds as there are bytes are enough. -/
def h264ContainsIdr (bitstream : List UInt8) : Bool :=
  if bitstream = [] then false
  else
    match scanStartCodes bitstream (bitstream.length + 1) 0 false with
    | .idr => true
    | .ended false => scanLengths bitstream (bitstream.length + 1) 0 = .idr
    | _ => false

/-- A bitstream that begins with an IDR slice. -/
theorem h264ContainsIdr_idr (rest : List UInt8) :
    h264ContainsIdr (0 :: 0 :: 1 :: 0x65 :: rest) = true := by
  have hlen : (0 :: 0 :: 1 :: 0x65 :: rest : List UInt8).length = rest.length + 4 := rfl
  have hscan (fuel : Nat) :
      scanStartCodes (0 :: 0 :: 1 :: 0x65 :: rest) (fuel + 1) 0 false = .idr := by
    have hstart : 0 + 3 ≤ (0 :: 0 :: 1 :: 0x65 :: rest : List UInt8).length := by omega
    have hcode : startCodeLen ((0 :: 0 :: 1 :: 0x65 :: rest).drop 0) = some 3 := rfl
    have hnal : ¬(0 + 3 ≥ (0 :: 0 :: 1 :: 0x65 :: rest : List UInt8).length) := by omega
    have hget : (0 :: 0 :: 1 :: 0x65 :: rest : List UInt8)[0 + 3]? = some 0x65 := rfl
    have hidr : isIdrHeader 0x65 = true := by decide
    simp only [scanStartCodes, if_pos hstart, hcode, if_neg hnal, hget, if_pos hidr]
  rw [h264ContainsIdr, if_neg (List.cons_ne_nil _ _), hscan]

example : h264ContainsIdr [0, 0, 0, 1, 0x67, 0, 0, 1, 0x65, 0x88] = true := by decide

example : h264ContainsIdr [0, 0, 0, 2, 0x41, 0x9a] = false := by decide

end CloudGame.Worker
