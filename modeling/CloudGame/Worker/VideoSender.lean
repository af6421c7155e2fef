import CloudGame.Lib.Run
import CloudGame.Worker.H264
import CloudGame.Worker.Pixels

/-!
# The video sender (`arcade-worker/src/video_sender.rs`)

The frame sender takes the newest frame of the core, decides from the profile and the level limit
whether it is time for one, encodes it, scaled down if the profile asks for it, and broadcasts the
payload.  The profile degrades under pressure and recovers.

`openh264` and `scale_dimensions`, which computes in `f32`, are parameters (`VideoLib`).  Instants
are nanoseconds; the instant of a broadcast is the one `handle_frame` reads when it starts.
-/

namespace CloudGame.Worker

open CloudGame.Lib

/-! ## Constants -/

def videoRtpClockRate : Nat := 90000
def videoWidthLimit : Nat := 960
def videoHeightLimit : Nat := 540
def videoWidthLimitMin : Nat := 704
def videoHeightLimitMin : Nat := 416
def videoWidthLimitStep : Nat := 80
def videoHeightLimitStep : Nat := 45
def videoFrameIntervalMs : Nat := 16
def videoFrameIntervalMsMin : Nat := 16
def videoFrameIntervalMsMax : Nat := 50
def videoFrameIntervalStepMs : Nat := 4
def videoScaleFallbackDisableAfter : Nat := 1
def videoEncoderEmptyRetryThreshold : Nat := 360000
def videoStartupEncodeRetryLimit : Nat := 3
def videoEncoderRefreshFrames : Nat := 200
def videoTargetMaxPayloadBytes : Nat := 768 * 1024
def h264Level31MbsPerSec : Nat := 108000
def videoEncoderBitsPerPixelPerFrame : Nat := 8
def videoEncoderMinBitrateBps : Nat := 500000
def videoEncoderMaxBitrateBps : Nat := 4000000
def videoEncoderMinPayloadBytes : Nat := 1
def videoQueuePressureHighWatermark : Nat := 2

/-! ## The profile -/

structure VideoProfile where
  targetWidth : Nat
  targetHeight : Nat
  frameIntervalMs : Nat
deriving DecidableEq

namespace VideoProfile

def default : VideoProfile := ⟨videoWidthLimit, videoHeightLimit, videoFrameIntervalMs⟩

/-- A longer interval, up to the longest. -/
def slower (p : VideoProfile) : VideoProfile :=
  { p with
    frameIntervalMs :=
      min (saturatingAdd p.frameIntervalMs videoFrameIntervalStepMs) videoFrameIntervalMsMax }

/-- A shorter interval, down to the shortest. -/
def faster (p : VideoProfile) : VideoProfile :=
  { p with
    frameIntervalMs :=
      max (p.frameIntervalMs - videoFrameIntervalStepMs) videoFrameIntervalMsMin }

/-- `degrade_video_profile`. -/
def degrade (p : VideoProfile) : VideoProfile :=
  { p.slower with
    targetWidth := max (p.targetWidth - videoWidthLimitStep) videoWidthLimitMin
    targetHeight := max (p.targetHeight - videoHeightLimitStep) videoHeightLimitMin }

/-- `restore_video_profile`. -/
def restore (p : VideoProfile) : VideoProfile :=
  { p.faster with
    targetWidth := min (p.targetWidth + videoWidthLimitStep) videoWidthLimit
    targetHeight := min (p.targetHeight + videoHeightLimitStep) videoHeightLimit }

/-- `is_min_video_profile`. -/
def IsMin (p : VideoProfile) : Prop :=
  p.targetWidth = videoWidthLimitMin ∧ p.targetHeight = videoHeightLimitMin ∧
    p.frameIntervalMs = videoFrameIntervalMsMax

instance (p : VideoProfile) : Decidable p.IsMin := inferInstanceAs (Decidable (_ ∧ _ ∧ _))

def degradeUnlessMin (p : VideoProfile) : VideoProfile := if p.IsMin then p else p.degrade

end VideoProfile

/-! ## Level 3.1 -/

def macroblocks (width height : Nat) : Nat := divCeil width 16 * divCeil height 16

/-- `h264_min_frame_interval_ms`. -/
def h264MinFrameIntervalMs (width height : Nat) : Nat :=
  if width = 0 ∨ height = 0 then videoFrameIntervalMsMin
  else
    let macroblocksPerFrame := macroblocks width height
    let maxFps := max (h264Level31MbsPerSec / max macroblocksPerFrame 1) 1
    let intervalMs := (1000 + maxFps - 1) / maxFps
    max intervalMs videoFrameIntervalMsMin

/-- At the interval of a picture within the level, its macroblocks fit the rate of the level. -/
theorem macroblocks_le_interval {width height : Nat}
    (h : macroblocks width height ≤ h264Level31MbsPerSec) :
    macroblocks width height * 1000 ≤
      h264Level31MbsPerSec * h264MinFrameIntervalMs width height := by
  rcases Nat.eq_zero_or_pos (macroblocks width height) with hzero | hpos
  · rw [hzero]
    simp
  have hsize : ¬(width = 0 ∨ height = 0) := by
    rintro (rfl | rfl) <;> simp [macroblocks, divCeil] at hpos
  have hfps : 0 < h264Level31MbsPerSec / macroblocks width height := Nat.div_pos h hpos
  have hinterval : h264MinFrameIntervalMs width height =
      max (divCeil 1000 (h264Level31MbsPerSec / macroblocks width height))
        videoFrameIntervalMsMin := by
    simp only [h264MinFrameIntervalMs, if_neg hsize, Nat.max_eq_left hpos, Nat.max_eq_left hfps,
      divCeil]
  rw [hinterval]
  generalize hf : h264Level31MbsPerSec / macroblocks width height = fps at hfps
  generalize hi : divCeil 1000 fps = interval
  calc macroblocks width height * 1000
      ≤ macroblocks width height * (fps * interval) :=
        Nat.mul_le_mul_left _ (hi ▸ le_mul_divCeil hfps)
    _ = macroblocks width height * fps * interval := (Nat.mul_assoc _ _ _).symm
    _ ≤ h264Level31MbsPerSec * interval := Nat.mul_le_mul_right _ (hf ▸ Nat.mul_div_le _ _)
    _ ≤ h264Level31MbsPerSec * max interval videoFrameIntervalMsMin :=
        Nat.mul_le_mul_left _ (Nat.le_max_left _ _)

/-! ## Encoding -/

structure EncodeSettings where
  width : Nat
  height : Nat
  frameIntervalMs : Nat
deriving DecidableEq

/-- The RGBA bytes an encoder is given. -/
structure Picture where
  rgba : List UInt8
  width : Nat
  height : Nat

/-- The setting of an encoder that is not constant. -/
structure EncoderConfig where
  bitrateBps : Nat

/-- What the sender rests on.  `World` is what the outcomes of `openh264` depend on besides; an
error of `encode` is `none`. -/
structure VideoLib where
  Encoder : Type
  World : Type
  withApiConfig : EncoderConfig → World → Option Encoder × World
  encode : Encoder → Picture → World → Option (List UInt8) × Encoder × World
  forceIntraFrame : Encoder → Encoder
  scaleDimensions : Nat → Nat → Nat → Nat → Nat × Nat

/-- `size` is the size it was encoded at; nothing reads it. -/
structure EncodedFrame where
  payload : List UInt8
  isKeyframe : Bool
  size : Nat × Nat
deriving DecidableEq

/-- The encoder with what the functions that encode are handed besides. -/
structure Coder (lib : VideoLib) where
  encoder : lib.Encoder
  world : lib.World
  lastEncodeSettings : Option EncodeSettings
  encodeEmptyStreak : Nat
  rgbaScratch : List UInt8
  scaledScratch : List UInt8

def calculateEncoderBitrateBps (settings : EncodeSettings) : Nat :=
  let baseBitrateBps :=
    saturatingMul (saturatingMul settings.width settings.height) videoEncoderBitsPerPixelPerFrame
  let pacedBitrateBps := saturatingMul baseBitrateBps videoFrameIntervalMsMin /
    max settings.frameIntervalMs videoFrameIntervalMsMin
  max (min pacedBitrateBps videoEncoderMaxBitrateBps) videoEncoderMinBitrateBps

def newEncoderForSettings (lib : VideoLib) (settings : EncodeSettings) (world : lib.World) :
    Option lib.Encoder × lib.World :=
  if settings.width = 0 ∨ settings.height = 0 then (none, world)
  else lib.withApiConfig ⟨calculateEncoderBitrateBps settings⟩ world

namespace Coder

variable {lib : VideoLib}

def forceIntraFrame (c : Coder lib) : Coder lib :=
  { c with encoder := lib.forceIntraFrame c.encoder }

def encodeOnce (c : Coder lib) (pic : Picture) : Option EncodedFrame × Coder lib :=
  let out := lib.encode c.encoder pic c.world
  let c := { c with encoder := out.2.1, world := out.2.2 }
  match out.1 with
  | some output =>
    if output.length ≥ videoEncoderMinPayloadBytes then
      (some ⟨output, h264ContainsIdr output, (pic.width, pic.height)⟩, c)
    else (none, c)
  | none => (none, c)

/-- Puts a new encoder for the settings in place, if one can be made. -/
def install (c : Coder lib) (settings : EncodeSettings) : Bool × Coder lib :=
  match newEncoderForSettings lib settings c.world with
  | (some encoder, world) => (true, { c with encoder, world, lastEncodeSettings := some settings })
  | (none, world) => (false, { c with world })

/-- After an encode without output: a long streak of these has the encoder replaced. -/
def recover (c : Coder lib) (settings : EncodeSettings) (pic : Picture) :
    Option EncodedFrame × Coder lib :=
  let c := { c with encodeEmptyStreak := saturatingAdd32 c.encodeEmptyStreak 1 }
  if c.encodeEmptyStreak ≥ videoEncoderEmptyRetryThreshold then
    match c.install settings with
    | (false, c) => (none, c)
    | (true, c) =>
      match c.encodeOnce pic with
      | (some output, c) => (some output, { c with encodeEmptyStreak := 0 })
      | (none, c) => (none, { c with encodeEmptyStreak := 1 })
  else (none, c)

/-- The attempt with the encoder in place, and a second one if it is new. -/
def encodeOrRecover (c : Coder lib) (settings : EncodeSettings) (pic : Picture) (isNew : Bool) :
    Option EncodedFrame × Coder lib :=
  match c.encodeOnce pic with
  | (some output, c) => (some output, { c with encodeEmptyStreak := 0 })
  | (none, c) =>
    if isNew then
      match c.encodeOnce pic with
      | (some output, c) => (some output, { c with encodeEmptyStreak := 0 })
      | (none, c) => c.recover settings pic
    else c.recover settings pic

def encodeFrameWithRetry (c : Coder lib) (width height frameIntervalMs : Nat)
    (rgbaRaw : List UInt8) : Option EncodedFrame × Coder lib :=
  let settings : EncodeSettings := ⟨width, height, frameIntervalMs⟩
  let pic : Picture := ⟨rgbaRaw, width, height⟩
  if c.lastEncodeSettings ≠ some settings then
    match c.install settings with
    | (true, c) => { c with encodeEmptyStreak := 0 }.encodeOrRecover settings pic true
    | (false, c) => (none, c)
  else c.encodeOrRecover settings pic false

/-- The attempt at the size of the profile. -/
def encodeScaled (c : Coder lib) (frame : VideoFrame) (profile : VideoProfile)
    (target : Nat × Nat) (rgbaRaw : List UInt8) : Option EncodedFrame × Coder lib :=
  match (scaleRgbaNearest rgbaRaw frame.width frame.height target.1 target.2).on
      c.scaledScratch with
  | (.ok (), scaled) =>
    { c with scaledScratch := scaled }.encodeFrameWithRetry target.1 target.2
      profile.frameIntervalMs scaled
  | (.error _, scaled) => (none, { c with scaledScratch := scaled })

/-- The attempt at the size of the frame. -/
def encodeFull (c : Coder lib) (frame : VideoFrame) (profile : VideoProfile)
    (rgbaRaw : List UInt8) : Option (EncodedFrame × Bool) × Coder lib :=
  match c.encodeFrameWithRetry frame.width frame.height profile.frameIntervalMs rgbaRaw with
  | (some output, c) => (some (output, false), c)
  | (none, c) => (none, c)

/-- The payload, and whether it is scaled. -/
def buildVideoPayload (c : Coder lib) (frame : VideoFrame) (profile : VideoProfile)
    (allowScaled : Bool) : Option (EncodedFrame × Bool) × Coder lib :=
  if frame.width = 0 ∨ frame.height = 0 then (none, c)
  else
    let target :=
      lib.scaleDimensions frame.width frame.height profile.targetWidth profile.targetHeight
    match (fillRgbaBufferFromFrame frame).on c.rgbaScratch with
    | (.error _, scratch) => (none, { c with rgbaScratch := scratch })
    | (.ok rgbaRaw, scratch) =>
      let c := { c with rgbaScratch := scratch }
      if allowScaled ∧ target ≠ (frame.width, frame.height) then
        match c.encodeScaled frame profile target rgbaRaw with
        | (some output, c) => (some (output, true), c)
        | (none, c) => c.encodeFull frame profile rgbaRaw
      else c.encodeFull frame profile rgbaRaw

end Coder

/-! ## The sender -/

structure VideoPressureSnapshot where
  maxQueueLen : Nat
  congestedEvents : Nat
  droppedFrames : Nat
deriving DecidableEq

structure VideoSenderUpdate where
  refreshEncoder : Bool
  forceIdr : Bool
  pressure : VideoPressureSnapshot
deriving DecidableEq

/-- What `broadcast_video_frame` is passed; `now` and `size` are the instant and the size of the
frame, which it is not. -/
structure Broadcast where
  payload : List UInt8
  sampleDurationMs : Nat
  packetTimestamp : UInt32
  isKeyframe : Bool
  now : Nat
  size : Nat × Nat
deriving DecidableEq

structure FrameSenderState (lib : VideoLib) where
  profile : VideoProfile
  coder : Coder lib
  lastSent : Nat
  stableFrames : Nat
  packetTimestamp : UInt32
  startupEncodeFailures : Nat
  firstPayloadSent : Bool
  hadActiveSession : Bool
  encoderFramesSinceRefresh : Nat
  scaledFailuresForSource : Nat
  disableScaledForSource : Bool
  lastSourceDims : Nat × Nat

/-- `Duration::as_millis` of the time between two instants. -/
def elapsedMillis (earlier later : Nat) : Nat := (later - earlier) / 1000000

namespace FrameSenderState

variable {lib : VideoLib}

def new (lib : VideoLib) (world : lib.World) (now : Nat) : Option (FrameSenderState lib) :=
  let profile := VideoProfile.default
  match newEncoderForSettings lib ⟨videoWidthLimit, videoHeightLimit, profile.frameIntervalMs⟩
      world with
  | (some encoder, world) => some
    { profile
      coder := ⟨encoder, world, none, 0, [], []⟩
      lastSent :=
        if profile.frameIntervalMs * 1000000 ≤ now then now - profile.frameIntervalMs * 1000000
        else now
      stableFrames := 0
      packetTimestamp := 0
      startupEncodeFailures := 0
      firstPayloadSent := false
      hadActiveSession := false
      encoderFramesSinceRefresh := 0
      scaledFailuresForSource := 0
      disableScaledForSource := false
      lastSourceDims := (0, 0) }
  | (none, _) => none

def resetForActiveSession (s : FrameSenderState lib) : FrameSenderState lib :=
  { s with
    hadActiveSession := true
    profile := VideoProfile.default
    startupEncodeFailures := 0
    firstPayloadSent := false
    stableFrames := 0
    packetTimestamp := 0
    disableScaledForSource := false
    scaledFailuresForSource := 0
    coder :=
      { s.coder with encodeEmptyStreak := 0, lastEncodeSettings := none }.forceIntraFrame
    encoderFramesSinceRefresh := 0 }

/-- A new encoder for the profile if one can be made, else the current one; either is to begin with
an intra picture. -/
def refreshEncoder (s : FrameSenderState lib) : FrameSenderState lib :=
  let settings : EncodeSettings :=
    ⟨s.profile.targetWidth, s.profile.targetHeight, s.profile.frameIntervalMs⟩
  let coder :=
    match newEncoderForSettings lib settings s.coder.world with
    | (some encoder, world) => { s.coder with encoder, world, lastEncodeSettings := none }
    | (none, world) => { s.coder with world }
  { s with
    coder := { coder with encodeEmptyStreak := 0 }.forceIntraFrame
    firstPayloadSent := false
    stableFrames := 0
    startupEncodeFailures := 0
    scaledFailuresForSource := 0
    disableScaledForSource := false
    encoderFramesSinceRefresh := 0 }

def noteSource (s : FrameSenderState lib) (width height : Nat) : FrameSenderState lib :=
  if (width, height) ≠ s.lastSourceDims then
    { s with
      lastSourceDims := (width, height)
      scaledFailuresForSource := 0
      coder := { s.coder with encodeEmptyStreak := 0 }
      disableScaledForSource := false }
  else s

def handleSessionTransitions (s : FrameSenderState lib) (update : VideoSenderUpdate)
    (width height : Nat) : FrameSenderState lib :=
  if s.hadActiveSession = false then s.resetForActiveSession
  else
    let s := if update.refreshEncoder then s.refreshEncoder else s
    let s := if update.forceIdr then { s with coder := s.coder.forceIntraFrame } else s
    s.noteSource width height

/-! ### `handle_frame` -/

def adjustForPressure (s : FrameSenderState lib) (pressure : VideoPressureSnapshot) :
    FrameSenderState lib :=
  if pressure.congestedEvents > 0 ∨ pressure.droppedFrames > 0 then
    { s with profile := s.profile.degradeUnlessMin, stableFrames := 0 }
  else if pressure.maxQueueLen ≥ videoQueuePressureHighWatermark then
    { s with profile := s.profile.slower, stableFrames := 0 }
  else s

/-- The size the profile asks for. -/
def scaledSize (s : FrameSenderState lib) (frame : VideoFrame) : Nat × Nat :=
  lib.scaleDimensions frame.width frame.height s.profile.targetWidth s.profile.targetHeight

def pacingSize (s : FrameSenderState lib) (frame : VideoFrame) : Nat × Nat :=
  if s.scaledSize frame ≠ (frame.width, frame.height) then s.scaledSize frame
  else (frame.width, frame.height)

def frameIntervalMs (s : FrameSenderState lib) (frame : VideoFrame) : Nat :=
  max s.profile.frameIntervalMs
    (h264MinFrameIntervalMs (s.pacingSize frame).1 (s.pacingSize frame).2)

def refreshIntra (s : FrameSenderState lib) : FrameSenderState lib :=
  if videoEncoderRefreshFrames > 0 ∧ s.encoderFramesSinceRefresh ≥ videoEncoderRefreshFrames then
    { s with coder := s.coder.forceIntraFrame, encoderFramesSinceRefresh := 0 }
  else s

def allowScaled (s : FrameSenderState lib) (frame : VideoFrame) : Bool :=
  s.scaledSize frame ≠ (frame.width, frame.height) && !s.disableScaledForSource

/-- After an attempt at the scaled size; a failure has it disabled for the source. -/
def noteScaled (s : FrameSenderState lib) (scaledTransportFailed : Bool) : FrameSenderState lib :=
  if scaledTransportFailed then
    let failures := saturatingAdd32 s.scaledFailuresForSource 1
    if failures ≥ videoScaleFallbackDisableAfter then
      { s with scaledFailuresForSource := 0, disableScaledForSource := true }
    else { s with scaledFailuresForSource := failures }
  else { s with scaledFailuresForSource := 0, disableScaledForSource := false }

/-- The payload of the frame, if the encoder makes one. -/
def encodePayload (s : FrameSenderState lib) (frame : VideoFrame) :
    Option EncodedFrame × FrameSenderState lib :=
  let allowScaled := s.allowScaled frame
  let built := s.coder.buildVideoPayload frame s.profile allowScaled
  let s := { s with coder := built.2 }
  match built.1 with
  | some (candidate, scaled) => (some candidate, if allowScaled then s.noteScaled (!scaled) else s)
  | none => (none, if allowScaled then s.noteScaled true else s)

/-- A payload that is too large is dropped, and the profile degrades; without a payload it does too,
but for the first few failures. -/
def checkPayload (s : FrameSenderState lib) (payload : Option EncodedFrame) :
    Option EncodedFrame × FrameSenderState lib :=
  match payload with
  | some candidate =>
    if candidate.payload.length > videoTargetMaxPayloadBytes then
      (none, { s with profile := s.profile.degradeUnlessMin })
    else (some candidate, s)
  | none =>
    if s.firstPayloadSent = false ∧ s.startupEncodeFailures < videoStartupEncodeRetryLimit then
      (none, { s with startupEncodeFailures := s.startupEncodeFailures + 1 })
    else (none, { s with profile := s.profile.degradeUnlessMin })

/-- The profile after a broadcast. -/
def recoverProfile (s : FrameSenderState lib) (payloadLen : Nat) : FrameSenderState lib :=
  let s :=
    if s.stableFrames % 120 = 0 then { s with profile := s.profile.restore, stableFrames := 0 }
    else s
  if payloadLen < videoTargetMaxPayloadBytes / 2 then { s with profile := s.profile.faster } else s

def broadcast (s : FrameSenderState lib) (payload : EncodedFrame) (sampleDurationMs now : Nat) :
    Broadcast × FrameSenderState lib :=
  let packetStep := UInt32.ofNat (max (videoRtpClockRate * sampleDurationMs / 1000) 1)
  (⟨payload.payload, sampleDurationMs, s.packetTimestamp, payload.isKeyframe, now, payload.size⟩,
    { s with
      packetTimestamp := s.packetTimestamp + packetStep
      encoderFramesSinceRefresh := saturatingAdd s.encoderFramesSinceRefresh 1
      firstPayloadSent := true
      startupEncodeFailures := 0
      stableFrames := saturatingAdd s.stableFrames 1
      lastSent := now }.recoverProfile payload.payload.length)

/-- `u64::try_from(elapsed_ms).unwrap_or(frame_interval_ms)`, and at least the interval. -/
def sampleDuration (elapsedMs frameIntervalMs : Nat) : Nat :=
  max (max (if elapsedMs < 2 ^ 64 then elapsedMs else frameIntervalMs) frameIntervalMs) 1

def handleFrame (s : FrameSenderState lib) (frame : VideoFrame)
    (pressure : VideoPressureSnapshot) (now : Nat) : Option Broadcast × FrameSenderState lib :=
  let s := s.adjustForPressure pressure
  let frameIntervalMs := s.frameIntervalMs frame
  let elapsedMs := elapsedMillis s.lastSent now
  if elapsedMs < frameIntervalMs then (none, s)
  else
    let encoded := s.refreshIntra.encodePayload frame
    match encoded.2.checkPayload encoded.1 with
    | (some payload, s) =>
      let sent := s.broadcast payload (sampleDuration elapsedMs frameIntervalMs) now
      (some sent.1, sent.2)
    | (none, s) => (none, s)

/-- The ways of `handle_frame` once the pressure is seen to. -/
inductive Handled (s : FrameSenderState lib) (frame : VideoFrame) (now : Nat) :
    Option Broadcast × FrameSenderState lib → Prop
  | early (hearly : elapsedMillis s.lastSent now < s.frameIntervalMs frame) :
    s.Handled frame now (none, s)
  | unencoded (hdue : s.frameIntervalMs frame ≤ elapsedMillis s.lastSent now)
    (hnone : (s.refreshIntra.encodePayload frame).1 = none) :
    s.Handled frame now (none, ((s.refreshIntra.encodePayload frame).2.checkPayload none).2)
  | dropped (payload : EncodedFrame)
    (hdue : s.frameIntervalMs frame ≤ elapsedMillis s.lastSent now)
    (hsome : (s.refreshIntra.encodePayload frame).1 = some payload)
    (hlarge : videoTargetMaxPayloadBytes < payload.payload.length) :
    s.Handled frame now
      (none, ((s.refreshIntra.encodePayload frame).2.checkPayload (some payload)).2)
  | sent (payload : EncodedFrame)
    (hdue : s.frameIntervalMs frame ≤ elapsedMillis s.lastSent now)
    (hsome : (s.refreshIntra.encodePayload frame).1 = some payload)
    (hfits : payload.payload.length ≤ videoTargetMaxPayloadBytes) :
    s.Handled frame now
      (some ((s.refreshIntra.encodePayload frame).2.broadcast payload
          (sampleDuration (elapsedMillis s.lastSent now) (s.frameIntervalMs frame)) now).1,
        ((s.refreshIntra.encodePayload frame).2.broadcast payload
          (sampleDuration (elapsedMillis s.lastSent now) (s.frameIntervalMs frame)) now).2)

theorem checkPayload_none (s : FrameSenderState lib) : (s.checkPayload none).1 = none := by
  simp only [checkPayload]
  split <;> rfl

/-- A frame that is due and whose payload is not too large is sent. -/
theorem Handled.eq_sent {s : FrameSenderState lib} {frame : VideoFrame} {now : Nat}
    {out : Option Broadcast × FrameSenderState lib} (h : s.Handled frame now out)
    {payload : EncodedFrame} (hdue : s.frameIntervalMs frame ≤ elapsedMillis s.lastSent now)
    (hpayload : (s.refreshIntra.encodePayload frame).1 = some payload)
    (hfits : payload.payload.length ≤ videoTargetMaxPayloadBytes) :
    out = (some ((s.refreshIntra.encodePayload frame).2.broadcast payload
        (sampleDuration (elapsedMillis s.lastSent now) (s.frameIntervalMs frame)) now).1,
      ((s.refreshIntra.encodePayload frame).2.broadcast payload
        (sampleDuration (elapsedMillis s.lastSent now) (s.frameIntervalMs frame)) now).2) := by
  cases h with
  | early hearly => exact absurd hdue (Nat.not_le_of_lt hearly)
  | unencoded _ hnone => cases hnone.symm.trans hpayload
  | dropped payload' _ hsome hlarge =>
    obtain rfl := Option.some.inj (hsome.symm.trans hpayload)
    exact absurd hfits (Nat.not_le_of_lt hlarge)
  | sent payload' _ hsome =>
    obtain rfl := Option.some.inj (hsome.symm.trans hpayload)
    rfl

theorem handleFrame_handled (s : FrameSenderState lib) (frame : VideoFrame)
    (pressure : VideoPressureSnapshot) (now : Nat) :
    (s.adjustForPressure pressure).Handled frame now (s.handleFrame frame pressure now) := by
  unfold handleFrame
  generalize s.adjustForPressure pressure = s
  by_cases hearly : elapsedMillis s.lastSent now < s.frameIntervalMs frame
  · simp only [if_pos hearly]
    exact .early hearly
  have hdue := Nat.le_of_not_lt hearly
  simp only [if_neg hearly]
  cases hpayload : (s.refreshIntra.encodePayload frame).1 with
  | none =>
    have hcheck := (s.refreshIntra.encodePayload frame).2.checkPayload_none
    have h := Handled.unencoded hdue hpayload
    generalize (s.refreshIntra.encodePayload frame).2.checkPayload none = out at hcheck h
    obtain ⟨p, s'⟩ := out
    obtain rfl : p = none := hcheck
    exact h
  | some payload =>
    by_cases hlarge : videoTargetMaxPayloadBytes < payload.payload.length
    · have h := Handled.dropped payload hdue hpayload hlarge
      simp only [checkPayload, if_pos hlarge] at h ⊢
      exact h
    · have h := Handled.sent payload hdue hpayload (Nat.le_of_not_lt hlarge)
      simp only [checkPayload, if_neg hlarge]
      exact h

end FrameSenderState

/-! ## Runs -/

inductive SenderAction where
  /-- A frame arrives while there is no session. -/
  | sessionsGone
  | transitions (update : VideoSenderUpdate) (width height : Nat)
  | frame (frame : VideoFrame) (pressure : VideoPressureSnapshot) (now : Nat)

def FrameSenderState.step {lib : VideoLib} (s : FrameSenderState lib) :
    SenderAction → Option (FrameSenderState lib)
  | .sessionsGone => some { s with hadActiveSession := false }
  | .transitions update width height => some (s.handleSessionTransitions update width height)
  | .frame frame pressure now => some (s.handleFrame frame pressure now).2

theorem FrameSenderState.step_frame {lib : VideoLib} {s s' : FrameSenderState lib}
    {frame : VideoFrame} {pressure : VideoPressureSnapshot} {now : Nat} {out : Option Broadcast}
    (h : s.handleFrame frame pressure now = (out, s')) :
    s.step (.frame frame pressure now) = some s' := by
  simp only [step, h]

/-- What an iteration of the loop of `spawn_frame_sender` does with the newest frame. -/
def loopActions (frame : VideoFrame) (hasVideoSessions : Bool) (update : VideoSenderUpdate)
    (now : Nat) : List SenderAction :=
  if frame.width = 0 ∨ frame.height = 0 then []
  else if hasVideoSessions = false then [.sessionsGone]
  else [.transitions update frame.width frame.height, .frame frame update.pressure now]

theorem loopActions_sessions {frame : VideoFrame} (hw : 0 < frame.width) (hh : 0 < frame.height)
    (update : VideoSenderUpdate) (now : Nat) :
    loopActions frame true update now =
      [.transitions update frame.width frame.height, .frame frame update.pressure now] := by
  have hsize : ¬(frame.width = 0 ∨ frame.height = 0) := by omega
  rw [loopActions, if_neg hsize]
  rfl

end CloudGame.Worker
