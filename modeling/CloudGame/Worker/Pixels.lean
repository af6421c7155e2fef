import CloudGame.Lib.Machine
import Mathlib.Data.List.Basic

/-!
# Pixel conversion and scaling (`arcade-worker/src/video_sender.rs`)

`fillRgbaBufferFromFrame` turns a frame of the core into RGBA bytes and `scaleRgbaNearest` scales
them.  Both write into a scratch buffer that is used again and again: `Draw` is code over that
buffer that may return `None` or read and write out of range, which panics in the source.

* `fill_contiguous`: a frame of four-byte pixels without padding is converted in place.
-/

namespace CloudGame.Worker

open CloudGame.Lib

/-! ## Frames -/

inductive RetroPixelFormat where
  | rgb1555
  | xrgb8888
  | rgb565
  | unknown (format : Nat)
deriving DecidableEq

structure VideoFrame where
  format : RetroPixelFormat
  width : Nat
  height : Nat
  pitch : Nat
  data : List UInt8

/-! ## Code over a buffer -/

/-- Why a function stops: it returns `None`, or an index is out of range. -/
inductive Stop where
  | none
  | panic
deriving DecidableEq

abbrev Draw (α : Type) : Type := ExceptT Stop (StateM (List UInt8)) α

namespace Draw

/-- The result, and the buffer then. -/
def on {α : Type} (m : Draw α) (buf : List UInt8) : Except Stop α × List UInt8 :=
  Id.run (StateT.run (ExceptT.run m) buf)

/-- The `?` operator. -/
def orNone {α : Type} : Option α → Draw α
  | some a => pure a
  | none => throw .none

theorem orNone_some_bind {α β : Type} (a : α) (f : α → Draw β) : (orNone (some a) >>= f) = f a :=
  rfl

/-- `Vec::resize` with zeros. -/
def resize (len : Nat) : Draw Unit :=
  modify fun buf => buf.take len ++ List.replicate (len - buf.length) 0

def read (bytes : List UInt8) (i : Nat) : Draw UInt8 :=
  match bytes[i]? with
  | some b => pure b
  | none => throw .panic

/-- `&bytes[start..stop]`. -/
def slice (bytes : List UInt8) (start stop : Nat) : Draw (List UInt8) :=
  if start ≤ stop ∧ stop ≤ bytes.length then pure ((bytes.drop start).take (stop - start))
  else throw .panic

/-- `out[i] = b`. -/
def write (i : Nat) (b : UInt8) : Draw Unit := do
  let buf ← get
  if i < buf.length then set (buf.set i b)
  else throw .panic

end Draw

/-! ## Conversion to RGBA -/

/-- `u16::from_le_bytes`. -/
def fromLe (lo hi : UInt8) : UInt16 := lo.toUInt16 ||| (hi.toUInt16 <<< 8)

/-- A channel of five bits, widened to eight. -/
def widen5 (c : UInt8) : UInt8 := (c <<< 3) ||| (c >>> 2)

/-- A channel of six bits, widened to eight. -/
def widen6 (c : UInt8) : UInt8 := (c <<< 2) ||| (c >>> 4)

/-- Red, green and blue of the pixel at `base` of a row. -/
def readPixel (format : RetroPixelFormat) (row : List UInt8) (base : Nat) :
    Draw (UInt8 × UInt8 × UInt8) :=
  match format with
  | .xrgb8888 => do
    let r ← Draw.read row (base + 2)
    let g ← Draw.read row (base + 1)
    let b ← Draw.read row base
    return (r, g, b)
  | .rgb565 => do
    let lo ← Draw.read row base
    let hi ← Draw.read row (base + 1)
    let raw := fromLe lo hi
    return (widen5 ((raw >>> 11) &&& 0x1f).toUInt8, widen6 ((raw >>> 5) &&& 0x3f).toUInt8,
      widen5 (raw &&& 0x1f).toUInt8)
  | .rgb1555 => do
    let lo ← Draw.read row base
    let hi ← Draw.read row (base + 1)
    let raw := fromLe lo hi
    return (widen5 ((raw >>> 10) &&& 0x1f).toUInt8, widen5 ((raw >>> 5) &&& 0x1f).toUInt8,
      widen5 (raw &&& 0x1f).toUInt8)
  | .unknown _ => throw .none

def bytesPerPixel : RetroPixelFormat → Nat
  | .xrgb8888 => 4
  | _ => 2

/-- The four bytes of the pixel at `base`. -/
def writePixel (base : Nat) (pixel : UInt8 × UInt8 × UInt8) : Draw Unit := do
  Draw.write base pixel.1
  Draw.write (base + 1) pixel.2.1
  Draw.write (base + 2) pixel.2.2
  Draw.write (base + 3) 255

def copyPixel (frame : VideoFrame) (row : List UInt8) (y x : Nat) : Draw Unit := do
  let pixel ← readPixel frame.format row (x * bytesPerPixel frame.format)
  writePixel ((y * frame.width + x) * 4) pixel

def copyRow (frame : VideoFrame) (expectedRowBytes y : Nat) : Draw Unit := do
  let rowStart ← Draw.orNone (checkedMul y frame.pitch)
  let rowEnd ← Draw.orNone (checkedAdd rowStart expectedRowBytes)
  if rowEnd > frame.data.length then throw .none
  else do
    let row ← Draw.slice frame.data rowStart rowEnd
    (List.range frame.width).forM (copyPixel frame row y)

/-- The rows of the frame, one after the other, into the buffer. -/
def copyRows (frame : VideoFrame) (expectedRowBytes outLen : Nat) : Draw (List UInt8) := do
  Draw.resize outLen
  (List.range frame.height).forM (copyRow frame expectedRowBytes)
  get

/-- Pixels of four bytes, red and blue swapped in place. -/
def swapPixels : List UInt8 → List UInt8
  | b :: g :: r :: _ :: rest => r :: g :: b :: 255 :: swapPixels rest
  | rest => rest

def convertFrame (frame : VideoFrame) (outLen : Nat) : Draw (List UInt8) :=
  match frame.format with
  | .xrgb8888 => do
    let expectedRowBytes ← Draw.orNone (checkedMul frame.width 4)
    if frame.pitch = expectedRowBytes then
      if frame.data.length < outLen then throw .none
      else return swapPixels (frame.data.take outLen)
    else copyRows frame expectedRowBytes outLen
  | .unknown _ => throw .none
  | _ => do
    let expectedRowBytes ← Draw.orNone (checkedMul frame.width 2)
    copyRows frame expectedRowBytes outLen

def fillRgbaBufferFromFrame (frame : VideoFrame) : Draw (List UInt8) :=
  if frame.pitch = 0 ∨ frame.width = 0 ∨ frame.height = 0 then throw .none
  else do
    let minExpected ← Draw.orNone (checkedMul frame.height frame.pitch)
    if frame.data.length < minExpected then throw .none
    else do
      let pixels ← Draw.orNone (checkedMul frame.width frame.height)
      let outLen ← Draw.orNone (checkedMul pixels 4)
      convertFrame frame outLen

/-- A frame of four-byte pixels without padding. -/
structure Contiguous (frame : VideoFrame) : Prop where
  format : frame.format = .xrgb8888
  pitch : frame.pitch = frame.width * 4
  width : 0 < frame.width
  height : 0 < frame.height
  length : frame.data.length = frame.height * frame.pitch
  fits : frame.height * frame.pitch < 2 ^ 64

theorem fill_contiguous {frame : VideoFrame} (h : Contiguous frame) (buf : List UInt8) :
    (fillRgbaBufferFromFrame frame).on buf =
      (.ok (swapPixels (frame.data.take (frame.width * frame.height * 4))), buf) := by
  have hbytes : frame.width * frame.height * 4 = frame.height * frame.pitch := by
    rw [h.pitch, Nat.mul_comm frame.width, Nat.mul_assoc]
  have hle : frame.width * 4 ≤ frame.height * frame.pitch := by
    rw [h.pitch]
    exact Nat.le_mul_of_pos_left _ h.height
  have hfits := h.fits
  have hmin := checkedMul_eq_some hfits
  have hpixels : checkedMul frame.width frame.height = some (frame.width * frame.height) :=
    checkedMul_eq_some (by omega)
  have hout : checkedMul (frame.width * frame.height) 4 = some (frame.width * frame.height * 4) :=
    checkedMul_eq_some (by omega)
  have hrow : checkedMul frame.width 4 = some (frame.width * 4) := checkedMul_eq_some (by omega)
  have hpos : ¬ (frame.pitch = 0 ∨ frame.width = 0 ∨ frame.height = 0) := by
    have hpitch := h.pitch
    have hw := h.width
    have hh := h.height
    omega
  have hlen : ¬ frame.data.length < frame.width * frame.height * 4 := by
    rw [hbytes, h.length]
    exact Nat.lt_irrefl _
  have hshort : ¬ frame.data.length < frame.height * frame.pitch := by
    rw [h.length]
    exact Nat.lt_irrefl _
  unfold fillRgbaBufferFromFrame convertFrame
  rw [if_neg hpos, hmin, Draw.orNone_some_bind, if_neg hshort, hpixels, Draw.orNone_some_bind, hout,
    Draw.orNone_some_bind]
  simp only [h.format]
  rw [hrow, Draw.orNone_some_bind, if_pos h.pitch, if_neg hlen]
  rfl

/-- A black frame of four-byte pixels. -/
def blackFrame (width height : Nat) : VideoFrame :=
  ⟨.xrgb8888, width, height, width * 4, List.replicate (height * (width * 4)) 0⟩

theorem blackFrame_contiguous {width height : Nat} (hw : 0 < width) (hh : 0 < height)
    (hfits : height * (width * 4) < 2 ^ 64) : Contiguous (blackFrame width height) where
  format := rfl
  pitch := rfl
  width := hw
  height := hh
  length := List.length_replicate
  fits := hfits

/-! ## Scaling -/

/-- Copies four bytes of a source row to the destination. -/
def scalePixel (srcRow : List UInt8) (srcW dstW dstRowStart dstRowLen x : Nat) : Draw Unit := do
  let srcX := saturatingMul x srcW / dstW
  let srcBase := saturatingMul srcX 4
  let dstBase := saturatingMul x 4
  if saturatingAdd srcBase 4 > srcRow.length ∨ saturatingAdd dstBase 4 > dstRowLen then throw .none
  else do
    let bytes ← Draw.slice srcRow srcBase (srcBase + 4)
    (List.range 4).forM fun k => do
      let b ← Draw.read bytes k
      Draw.write (dstRowStart + dstBase + k) b

def scaleRow (src : List UInt8) (srcW srcH dstW dstH srcStride dstStride y : Nat) : Draw Unit := do
  let srcY := saturatingMul y srcH / dstH
  let srcRowStart := saturatingMul srcY srcStride
  let srcRowEnd := saturatingAdd srcRowStart srcStride
  if srcRowEnd > src.length then throw .none
  else do
    let srcRow ← Draw.slice src srcRowStart srcRowEnd
    let dstRowStart := saturatingMul y dstStride
    let dstRowEnd := saturatingAdd dstRowStart dstStride
    let dst ← get
    if dstRowEnd > dst.length then throw .none
    else
      let dstRowLen := dstRowEnd - dstRowStart
      (List.range dstW).forM fun x => scalePixel srcRow srcW dstW dstRowStart dstRowLen x

def scaleRgbaNearest (src : List UInt8) (srcW srcH dstW dstH : Nat) : Draw Unit :=
  if srcW = 0 ∨ srcH = 0 ∨ dstW = 0 ∨ dstH = 0 then throw .none
  else do
    let srcStride ← Draw.orNone (checkedMul srcW 4)
    let srcLen ← Draw.orNone (checkedMul srcStride srcH)
    if src.length < srcLen then throw .none
    else do
      let dstStride ← Draw.orNone (checkedMul dstW 4)
      let dstLen ← Draw.orNone (checkedMul dstStride dstH)
      Draw.resize dstLen
      (List.range dstH).forM (scaleRow src srcW srcH dstW dstH srcStride dstStride)

end CloudGame.Worker
