import CloudGame.Worker.Scaling
import CloudGame.Worker.VideoSender

/-!
# Pacing and the level limit

The sender waits between two broadcasts for as long as level 3.1 asks of the size the profile wants
the frame scaled to.  The frame is encoded at its own size when scaling is disabled for the source
or the attempt at the scaled size fails, and then the wait was for a smaller picture.

* `broadcasts_paced`: where no frame that is due is encoded at a size it was not paced by, or it is
  as late as its own size asks, any two broadcasts in a row are as far apart as the level asks of
  the later one.
-/

namespace CloudGame.Worker

open CloudGame.Lib

variable {lib : VideoLib}

/-! ## The size of a payload -/

namespace Coder

theorem encodeOnce_size {c : Coder lib} {pic : Picture} {f : EncodedFrame}
    (h : (c.encodeOnce pic).1 = some f) : f.size = (pic.width, pic.height) := by
  simp only [encodeOnce] at h
  split at h
  · split at h
    · cases h
      rfl
    · cases h
  · cases h

/-- The encode is one of `encodeOnce`, whatever was retried or replaced before. -/
def EncodesOnce (lib : VideoLib) (pic : Picture) (f : EncodedFrame) : Prop :=
  ∃ c : Coder lib, (c.encodeOnce pic).1 = some f

theorem encodeOrRecover_of_once {c : Coder lib} {settings : EncodeSettings} {pic : Picture}
    {isNew : Bool} {f : EncodedFrame} (h : (c.encodeOnce pic).1 = some f) :
    (c.encodeOrRecover settings pic isNew).1 = some f := by
  simp only [encodeOrRecover]
  split
  · next hsome => exact (congrArg Prod.fst hsome).symm.trans h
  · next hnone => cases (congrArg Prod.fst hnone).symm.trans h

theorem recover_once {c : Coder lib} {settings : EncodeSettings} {pic : Picture} {f : EncodedFrame}
    (h : (c.recover settings pic).1 = some f) : EncodesOnce lib pic f := by
  simp only [recover] at h
  split at h
  · split at h
    · cases h
    · split at h
      · next hsome =>
        cases h
        exact ⟨_, congrArg Prod.fst hsome⟩
      · cases h
  · cases h

theorem encodeOrRecover_once {c : Coder lib} {settings : EncodeSettings} {pic : Picture}
    {isNew : Bool} {f : EncodedFrame} (h : (c.encodeOrRecover settings pic isNew).1 = some f) :
    EncodesOnce lib pic f := by
  simp only [encodeOrRecover] at h
  split at h
  · next hsome =>
    cases h
    exact ⟨_, congrArg Prod.fst hsome⟩
  · split at h
    · split at h
      · next hsome =>
        cases h
        exact ⟨_, congrArg Prod.fst hsome⟩
      · exact recover_once h
    · exact recover_once h

theorem encodeFrameWithRetry_once {c : Coder lib} {width height frameIntervalMs : Nat}
    {rgbaRaw : List UInt8} {f : EncodedFrame}
    (h : (c.encodeFrameWithRetry width height frameIntervalMs rgbaRaw).1 = some f) :
    EncodesOnce lib ⟨rgbaRaw, width, height⟩ f := by
  simp only [encodeFrameWithRetry] at h
  split at h
  · split at h
    · exact encodeOrRecover_once h
    · cases h
  · exact encodeOrRecover_once h

theorem encodeFrameWithRetry_size {c : Coder lib} {width height frameIntervalMs : Nat}
    {rgbaRaw : List UInt8} {f : EncodedFrame}
    (h : (c.encodeFrameWithRetry width height frameIntervalMs rgbaRaw).1 = some f) :
    f.size = (width, height) := by
  obtain ⟨c', hc'⟩ := encodeFrameWithRetry_once h
  exact encodeOnce_size hc'

/-- A picture that is always encoded, by an encoder that can always be made. -/
theorem encodeFrameWithRetry_of_once {width height frameIntervalMs : Nat} {rgbaRaw : List UInt8}
    {f : EncodedFrame} {c : Coder lib}
    (hinstall : ∀ c : Coder lib, (c.install ⟨width, height, frameIntervalMs⟩).1 = true)
    (h : ∀ c : Coder lib, (c.encodeOnce ⟨rgbaRaw, width, height⟩).1 = some f) :
    (c.encodeFrameWithRetry width height frameIntervalMs rgbaRaw).1 = some f := by
  simp only [encodeFrameWithRetry]
  split
  · split
    · exact encodeOrRecover_of_once (h _)
    · next hfailed => cases (congrArg Prod.fst hfailed).symm.trans (hinstall c)
  · exact encodeOrRecover_of_once (h c)

theorem encodeScaled_size {c : Coder lib} {frame : VideoFrame} {profile : VideoProfile}
    {target : Nat × Nat} {rgbaRaw : List UInt8} {f : EncodedFrame}
    (h : (c.encodeScaled frame profile target rgbaRaw).1 = some f) : f.size = target := by
  simp only [encodeScaled] at h
  split at h
  · exact encodeFrameWithRetry_size h
  · cases h

theorem encodeFull_size {c : Coder lib} {frame : VideoFrame} {profile : VideoProfile}
    {rgbaRaw : List UInt8} {out : EncodedFrame × Bool}
    (h : (c.encodeFull frame profile rgbaRaw).1 = some out) :
    out.1.size = (frame.width, frame.height) ∧ out.2 = false := by
  simp only [encodeFull] at h
  split at h
  · next hsome =>
    cases h
    exact ⟨encodeFrameWithRetry_size (congrArg Prod.fst hsome), rfl⟩
  · cases h

/-- The attempt at the size of the profile makes a payload, if the pixels can be read at all. -/
def scaledEncodes (c : Coder lib) (frame : VideoFrame) (profile : VideoProfile) : Bool :=
  match (fillRgbaBufferFromFrame frame).on c.rgbaScratch with
  | (.error _, _) => true
  | (.ok rgbaRaw, scratch) =>
    ({ c with rgbaScratch := scratch }.encodeScaled frame profile
      (lib.scaleDimensions frame.width frame.height profile.targetWidth profile.targetHeight)
      rgbaRaw).1.isSome

/-- A payload is of the size of the profile, or of the size of the frame where scaling is not
allowed or fails. -/
theorem buildVideoPayload_size {c : Coder lib} {frame : VideoFrame} {profile : VideoProfile}
    {allowScaled : Bool} {out : EncodedFrame × Bool}
    (h : (c.buildVideoPayload frame profile allowScaled).1 = some out) :
    out.1.size = lib.scaleDimensions frame.width frame.height profile.targetWidth
        profile.targetHeight ∨
      out.1.size = (frame.width, frame.height) ∧
        (allowScaled = true → c.scaledEncodes frame profile = true →
          lib.scaleDimensions frame.width frame.height profile.targetWidth profile.targetHeight =
            (frame.width, frame.height)) := by
  simp only [buildVideoPayload] at h
  split at h
  · cases h
  split at h
  · cases h
  next hfill =>
  split at h
  · split at h
    · next hscaled =>
      cases h
      exact .inl (encodeScaled_size (congrArg Prod.fst hscaled))
    · next hscaled =>
      refine .inr ⟨(encodeFull_size h).1, fun _ hencodes => ?_⟩
      simp [scaledEncodes, hfill, hscaled] at hencodes
  · next hsame =>
    refine .inr ⟨(encodeFull_size h).1, fun hallow _ => ?_⟩
    by_contra hne
    exact hsame ⟨hallow, hne⟩

end Coder

/-! ## The instant of the last broadcast -/

namespace FrameSenderState

@[simp]
theorem adjustForPressure_lastSent (s : FrameSenderState lib) (pressure : VideoPressureSnapshot) :
    (s.adjustForPressure pressure).lastSent = s.lastSent := by
  unfold adjustForPressure
  split
  · rfl
  · split <;> rfl

@[simp]
theorem refreshIntra_lastSent (s : FrameSenderState lib) :
    s.refreshIntra.lastSent = s.lastSent := by
  unfold refreshIntra
  split <;> rfl

@[simp]
theorem noteScaled_lastSent (s : FrameSenderState lib) (failed : Bool) :
    (s.noteScaled failed).lastSent = s.lastSent := by
  simp only [noteScaled]
  split
  · split <;> rfl
  · rfl

@[simp]
theorem encodePayload_lastSent (s : FrameSenderState lib) (frame : VideoFrame) :
    (s.encodePayload frame).2.lastSent = s.lastSent := by
  simp only [encodePayload]
  split
  · by_cases h : s.allowScaled frame <;> simp [h]
  · by_cases h : s.allowScaled frame <;> simp [h]

@[simp]
theorem checkPayload_lastSent (s : FrameSenderState lib) (payload : Option EncodedFrame) :
    (s.checkPayload payload).2.lastSent = s.lastSent := by
  simp only [checkPayload]
  split <;> split <;> rfl

@[simp]
theorem broadcast_lastSent (s : FrameSenderState lib) (payload : EncodedFrame)
    (sampleDurationMs now : Nat) : (s.broadcast payload sampleDurationMs now).2.lastSent = now := by
  simp only [broadcast, recoverProfile]
  split <;> split <;> rfl

theorem handleSessionTransitions_lastSent (s : FrameSenderState lib) (update : VideoSenderUpdate)
    (width height : Nat) :
    (s.handleSessionTransitions update width height).lastSent = s.lastSent := by
  simp only [handleSessionTransitions, noteSource]
  split
  · rfl
  · split <;> split <;> split <;> rfl

/-! ## Runs -/

/-- What an action broadcasts. -/
def sent (s : FrameSenderState lib) : SenderAction → List Broadcast
  | .frame frame pressure now => (s.handleFrame frame pressure now).1.toList
  | _ => []

theorem sent_frame {s s' : FrameSenderState lib} {frame : VideoFrame}
    {pressure : VideoPressureSnapshot} {now : Nat} {b : Broadcast}
    (h : s.handleFrame frame pressure now = (some b, s')) :
    s.sent (.frame frame pressure now) = [b] := by
  rw [sent, h]
  rfl

/-- The frame is encoded at the size it is paced by, or its own size is beyond the level or has
waited long enough.  `s` is the state once the pressure is seen to. -/
def PacedAsEncoded (s : FrameSenderState lib) (frame : VideoFrame) (now : Nat) : Prop :=
  s.scaledSize frame = (frame.width, frame.height) ∨
  s.disableScaledForSource = false ∧ s.refreshIntra.coder.scaledEncodes frame s.profile = true ∨
  h264Level31MbsPerSec < macroblocks frame.width frame.height ∨
  h264MinFrameIntervalMs frame.width frame.height ≤ elapsedMillis s.lastSent now

instance (s : FrameSenderState lib) (frame : VideoFrame) (now : Nat) :
    Decidable (s.PacedAsEncoded frame now) :=
  inferInstanceAs (Decidable (_ ∨ _ ∨ _ ∨ _))

/-- What is asked of a frame that is due, from the second broadcast on. -/
def KeepsLevel (s : FrameSenderState lib × List Broadcast) : SenderAction → Prop
  | .frame frame pressure now =>
    let t := s.1.adjustForPressure pressure
    s.2 = [] ∨ elapsedMillis t.lastSent now < t.frameIntervalMs frame ∨ t.PacedAsEncoded frame now
  | _ => True

instance (s : FrameSenderState lib × List Broadcast) (a : SenderAction) :
    Decidable (KeepsLevel s a) :=
  match a with
  | .frame .. => inferInstanceAs (Decidable (_ ∨ _ ∨ _))
  | .sessionsGone => inferInstanceAs (Decidable True)
  | .transitions .. => inferInstanceAs (Decidable True)

/-- The later of two broadcasts in a row, if it is within the level at all, is as late as the level
asks. -/
def Paced (later earlier : Broadcast) : Prop :=
  macroblocks later.size.1 later.size.2 ≤ h264Level31MbsPerSec →
    h264MinFrameIntervalMs later.size.1 later.size.2 ≤ elapsedMillis earlier.now later.now ∧
    macroblocks later.size.1 later.size.2 * 1000 ≤
      h264Level31MbsPerSec * elapsedMillis earlier.now later.now

theorem paced_of_le {later earlier : Broadcast}
    (h : macroblocks later.size.1 later.size.2 ≤ h264Level31MbsPerSec →
      h264MinFrameIntervalMs later.size.1 later.size.2 ≤ elapsedMillis earlier.now later.now) :
    Paced later earlier := by
  intro hlevel
  refine ⟨h hlevel, ?_⟩
  exact Nat.le_trans (macroblocks_le_interval hlevel) (Nat.mul_le_mul_left _ (h hlevel))

@[simp]
theorem refreshIntra_profile (s : FrameSenderState lib) : s.refreshIntra.profile = s.profile := by
  unfold refreshIntra
  split <;> rfl

@[simp]
theorem refreshIntra_disableScaled (s : FrameSenderState lib) :
    s.refreshIntra.disableScaledForSource = s.disableScaledForSource := by
  unfold refreshIntra
  split <;> rfl

@[simp]
theorem noteSource_profile (s : FrameSenderState lib) (width height : Nat) :
    (s.noteSource width height).profile = s.profile := by
  unfold noteSource
  split <;> rfl

@[simp]
theorem noteScaled_profile (s : FrameSenderState lib) (failed : Bool) :
    (s.noteScaled failed).profile = s.profile := by
  simp only [noteScaled]
  split
  · split <;> rfl
  · rfl

@[simp]
theorem encodePayload_profile (s : FrameSenderState lib) (frame : VideoFrame) :
    (s.encodePayload frame).2.profile = s.profile := by
  simp only [encodePayload]
  split
  · by_cases h : s.allowScaled frame <;> simp [h]
  · by_cases h : s.allowScaled frame <;> simp [h]

/-- A broadcast leaves the shortest interval as it is. -/
theorem broadcast_interval {s : FrameSenderState lib} {payload : EncodedFrame}
    {sampleDurationMs now : Nat} (h : s.profile.frameIntervalMs = videoFrameIntervalMsMin) :
    (s.broadcast payload sampleDurationMs now).2.profile.frameIntervalMs =
      videoFrameIntervalMsMin := by
  simp only [broadcast, recoverProfile, VideoProfile.restore, VideoProfile.faster]
  split <;> split <;> simp [h, videoFrameIntervalStepMs, videoFrameIntervalMsMin]

theorem pacingSize_eq (s : FrameSenderState lib) (frame : VideoFrame) :
    s.pacingSize frame = s.scaledSize frame := by
  unfold pacingSize
  split
  · rfl
  · next hsame => exact (not_not.mp hsame).symm

theorem encodePayload_fst (s : FrameSenderState lib) (frame : VideoFrame) :
    (s.encodePayload frame).1 =
      (s.coder.buildVideoPayload frame s.profile (s.allowScaled frame)).1.map Prod.fst := by
  simp only [encodePayload]
  split <;> next h => simp [h]

theorem encodePayload_size {s : FrameSenderState lib} {frame : VideoFrame} {f : EncodedFrame}
    (h : (s.encodePayload frame).1 = some f) :
    f.size = s.scaledSize frame ∨
      f.size = (frame.width, frame.height) ∧
        (s.disableScaledForSource = false → s.coder.scaledEncodes frame s.profile = true →
          s.scaledSize frame = (frame.width, frame.height)) := by
  rw [encodePayload_fst] at h
  obtain ⟨⟨f, scaled⟩, hsome, rfl⟩ := Option.map_eq_some_iff.mp h
  rcases Coder.buildVideoPayload_size hsome with hsize | ⟨hsize, hsame⟩
  · exact .inl hsize
  refine .inr ⟨hsize, fun henabled hencodes => ?_⟩
  by_contra hne
  exact hne (hsame (by simp [allowScaled, henabled, hne]) hencodes)

/-- A frame that is due and is paced as it is encoded has waited long enough for the size of its
payload. -/
theorem interval_le {s : FrameSenderState lib} {frame : VideoFrame} {now : Nat} {f : EncodedFrame}
    (hdue : s.frameIntervalMs frame ≤ elapsedMillis s.lastSent now)
    (hpaced : s.PacedAsEncoded frame now) (h : (s.refreshIntra.encodePayload frame).1 = some f)
    (hlevel : macroblocks f.size.1 f.size.2 ≤ h264Level31MbsPerSec) :
    h264MinFrameIntervalMs f.size.1 f.size.2 ≤ elapsedMillis s.lastSent now := by
  have hscaledSize : s.refreshIntra.scaledSize frame = s.scaledSize frame := by
    rw [scaledSize, scaledSize, refreshIntra_profile]
  have hscaled : h264MinFrameIntervalMs (s.scaledSize frame).1 (s.scaledSize frame).2 ≤
      elapsedMillis s.lastSent now := by
    refine Nat.le_trans ?_ hdue
    rw [frameIntervalMs, pacingSize_eq]
    exact Nat.le_max_right _ _
  rcases encodePayload_size h with hsize | ⟨hsize, hsame⟩
  · rw [hsize, hscaledSize]
    exact hscaled
  rw [hscaledSize, refreshIntra_profile, refreshIntra_disableScaled] at hsame
  rcases hpaced with heq | ⟨henabled, hencodes⟩ | hbeyond | hlate
  · rw [hsize, ← heq]
    exact hscaled
  · rw [hsize, ← hsame henabled hencodes]
    exact hscaled
  · rw [hsize] at hlevel
    exact absurd hlevel (Nat.not_le_of_lt hbeyond)
  · rw [hsize]
    exact hlate

/-- The broadcasts so far are paced, and the last was at the instant the sender has noted. -/
structure PacedSoFar (s : FrameSenderState lib × List Broadcast) : Prop where
  chain : s.2.IsChain Paced
  last : ∀ b ∈ s.2.head?, b.now = s.1.lastSent

theorem PacedSoFar.frame {s : FrameSenderState lib × List Broadcast} (h : PacedSoFar s)
    {frame : VideoFrame} {pressure : VideoPressureSnapshot} {now : Nat}
    (hok : KeepsLevel s (.frame frame pressure now)) :
    PacedSoFar ((s.1.handleFrame frame pressure now).2,
      (s.1.handleFrame frame pressure now).1.toList ++ s.2) := by
  obtain ⟨s, log⟩ := s
  have hlast : ∀ b ∈ log.head?, b.now = (s.adjustForPressure pressure).lastSent := by
    simpa using h.last
  simp only [KeepsLevel] at hok ⊢
  have hway := s.handleFrame_handled frame pressure now
  generalize s.handleFrame frame pressure now = out at hway ⊢
  generalize s.adjustForPressure pressure = t at hlast hok hway
  cases hway with
  | early => exact ⟨h.chain, hlast⟩
  | unencoded => exact ⟨h.chain, by simpa using hlast⟩
  | dropped => exact ⟨h.chain, by simpa using hlast⟩
  | sent payload hdue hsome =>
    refine ⟨?_, ?_⟩
    · cases log with
      | nil => exact .singleton _
      | cons earlier older =>
        have hpaced : t.PacedAsEncoded frame now := by
          rcases hok with hnil | hearly | hpaced
          · cases hnil
          · omega
          · exact hpaced
        refine List.isChain_cons_cons.mpr ⟨paced_of_le fun hlevel => ?_, h.chain⟩
        have hearlier : earlier.now = t.lastSent := hlast earlier rfl
        rw [hearlier]
        exact interval_le hdue hpaced hsome hlevel
    · intro b hb
      obtain rfl := Option.some.inj hb
      exact (broadcast_lastSent _ _ _ _).symm

theorem PacedSoFar.step {s s' : FrameSenderState lib × List Broadcast} {a : SenderAction}
    (h : PacedSoFar s) (hok : KeepsLevel s a)
    (hs : logged FrameSenderState.step sent s a = some s') : PacedSoFar s' := by
  obtain ⟨hstep, hlog⟩ := withGhost_eq_some hs
  obtain ⟨s', log'⟩ := s'
  obtain rfl : log' = sent s.1 a ++ s.2 := hlog
  cases a with
  | sessionsGone =>
    obtain rfl := Option.some.inj hstep
    exact ⟨h.chain, h.last⟩
  | transitions update width height =>
    obtain rfl := Option.some.inj hstep
    refine ⟨h.chain, fun b hb => ?_⟩
    rw [handleSessionTransitions_lastSent]
    exact h.last b hb
  | frame frame pressure now =>
    obtain rfl := Option.some.inj hstep
    exact h.frame hok

end FrameSenderState

open FrameSenderState

/-- **Pacing at level 3.1.**  While the frames that are due are paced as they are encoded, any two
broadcasts in a row are as far apart as the level asks of the later one. -/
theorem broadcasts_paced {s₀ s : FrameSenderState lib} {log : List Broadcast}
    {as : List SenderAction}
    (h : RunWhen KeepsLevel (logged FrameSenderState.step sent) (s₀, []) as (s, log)) :
    log.IsChain Paced := by
  have hpaced : PacedSoFar (s, log) := by
    refine h.invariant ⟨.nil, ?_⟩ fun s a s' hI hok hs => hI.step hok hs
    intro b hb
    cases hb
  exact hpaced.chain

/-- Without pressure a frame that is due and can be encoded is sent. -/
theorem FrameSenderState.quiet_sent {s : FrameSenderState lib} {frame : VideoFrame} {now : Nat}
    {payload : EncodedFrame} (hdue : s.frameIntervalMs frame ≤ elapsedMillis s.lastSent now)
    (hpayload : (s.refreshIntra.encodePayload frame).1 = some payload)
    (hfits : payload.payload.length ≤ videoTargetMaxPayloadBytes) :
    ∃ b s', s.handleFrame frame ⟨0, 0, 0⟩ now = (some b, s') ∧
      b.isKeyframe = payload.isKeyframe ∧ b.size = payload.size ∧ b.now = now ∧
      s'.lastSent = now ∧ (s.profile.frameIntervalMs = videoFrameIntervalMsMin →
        s'.profile.frameIntervalMs = videoFrameIntervalMsMin) := by
  have hquiet : s.adjustForPressure ⟨0, 0, 0⟩ = s := rfl
  have hway := s.handleFrame_handled frame ⟨0, 0, 0⟩ now
  rw [hquiet] at hway
  refine ⟨_, _, hway.eq_sent hdue hpayload hfits, rfl, rfl, rfl, broadcast_lastSent _ _ _ _,
    fun hinterval => broadcast_interval ?_⟩
  rw [encodePayload_profile, refreshIntra_profile]
  exact hinterval

/-- No request and no pressure. -/
def quietUpdate : VideoSenderUpdate := ⟨false, false, ⟨0, 0, 0⟩⟩

/-! ### A frame sent at the scaled size -/

/-- An encoder that takes any picture; sizes within those of the profile are only rounded up. -/
def plainLib : VideoLib where
  Encoder := Unit
  World := Unit
  withApiConfig _ w := (some (), w)
  encode e _ w := (some [0, 0, 1, 0x65], e, w)
  forceIntraFrame e := e
  scaleDimensions width height _ _ :=
    ((max width 16 + 15) / 16 * 16, (max height 16 + 15) / 16 * 16)

/-- What it makes of a frame of 8 by 8 pixels. -/
def scaledPayload : EncodedFrame := ⟨[0, 0, 1, 0x65], true, (16, 16)⟩

theorem plain_scaled (c : Coder plainLib) {frame : VideoFrame} (hw : frame.width = 8)
    (hh : frame.height = 8) (profile : VideoProfile) {rgbaRaw : List UInt8}
    (hlength : rgbaRaw.length = 256) :
    (c.encodeScaled frame profile (16, 16) rgbaRaw).1 = some scaledPayload := by
  have hfit : SizesFit 8 8 16 16 :=
    ⟨by decide, by decide, fun x hx => by omega, fun y hy => by omega⟩
  have hscalable : Scalable rgbaRaw 8 8 16 16 :=
    ⟨by decide, by decide, by decide, by decide, by omega⟩
  obtain ⟨out, hout⟩ := scale_ok hfit hscalable c.scaledScratch
  simp only [Coder.encodeScaled, hw, hh, hout]
  refine Coder.encodeFrameWithRetry_of_once (fun c => ?_) (fun c => ?_)
  · simp [Coder.install, newEncoderForSettings, plainLib]
  · simp [Coder.encodeOnce, plainLib, videoEncoderMinPayloadBytes, h264ContainsIdr_idr,
      scaledPayload]

/-- The attempt at the scaled size is made and succeeds. -/
theorem plain_build (c : Coder plainLib) {frame : VideoFrame} (hframe : Contiguous frame)
    (hw : frame.width = 8) (hh : frame.height = 8) (profile : VideoProfile) :
    c.scaledEncodes frame profile = true ∧
      (c.buildVideoPayload frame profile true).1 = some (scaledPayload, true) := by
  have hlength : (swapPixels (frame.data.take (frame.width * frame.height * 4))).length = 256 := by
    rw [swapPixels_length, List.length_take, hframe.length, hframe.pitch, hw, hh]
    rfl
  have htarget : plainLib.scaleDimensions frame.width frame.height profile.targetWidth
      profile.targetHeight = (16, 16) := by
    rw [hw, hh]
    rfl
  have hsize : ¬(frame.width = 0 ∨ frame.height = 0) := by omega
  have hallow : ((16, 16) : Nat × Nat) ≠ (frame.width, frame.height) := by
    rw [hw, hh]
    decide
  refine ⟨?_, ?_⟩
  · simp only [Coder.scaledEncodes, fill_contiguous hframe, htarget]
    rw [plain_scaled _ hw hh profile hlength]
    rfl
  · simp only [Coder.buildVideoPayload, if_neg hsize, fill_contiguous hframe, htarget]
    rw [if_pos ⟨trivial, hallow⟩]
    split
    · next hout =>
      obtain rfl := Option.some.inj
        ((congrArg Prod.fst hout).symm.trans (plain_scaled _ hw hh profile hlength))
      rfl
    · next hout =>
      cases (congrArg Prod.fst hout).symm.trans (plain_scaled _ hw hh profile hlength)

/-- The frame is paced as it is encoded, and sent at the scaled size once it is due. -/
theorem plain_frame {s : FrameSenderState plainLib} {frame : VideoFrame} {now : Nat}
    (hframe : Contiguous frame) (hw : frame.width = 8) (hh : frame.height = 8)
    (henabled : s.disableScaledForSource = false) (hinterval : s.profile.frameIntervalMs = 16)
    (hdue : 16 ≤ elapsedMillis s.lastSent now) :
    s.PacedAsEncoded frame now ∧
      ∃ b s', s.handleFrame frame ⟨0, 0, 0⟩ now = (some b, s') ∧ b.size = (16, 16) := by
  have hscaled (profile : VideoProfile) :
      plainLib.scaleDimensions frame.width frame.height profile.targetWidth
        profile.targetHeight = (16, 16) := by
    rw [hw, hh]
    rfl
  have hpacing : s.frameIntervalMs frame = 16 := by
    rw [frameIntervalMs, pacingSize_eq, hinterval, scaledSize, hscaled]
    decide
  have hallow : s.refreshIntra.allowScaled frame = true := by
    rw [allowScaled, scaledSize, hscaled, refreshIntra_disableScaled, henabled, hw, hh]
    decide
  have hpayload : (s.refreshIntra.encodePayload frame).1 = some scaledPayload := by
    rw [encodePayload_fst, hallow, (plain_build _ hframe hw hh _).2]
    rfl
  obtain ⟨b, s', hsent, -, hsize, -⟩ := quiet_sent (by rwa [hpacing]) hpayload (by decide)
  exact ⟨.inr (.inl ⟨henabled, (plain_build _ hframe hw hh _).1⟩), b, s', hsent, hsize⟩

/-- Two frames at their own size, and what comes before the third. -/
def ownSizes : List SenderAction :=
  loopActions (blackFrame 16 16) true quietUpdate 1000000000 ++
    loopActions (blackFrame 16 16) true quietUpdate 1020000000 ++ [.transitions quietUpdate 8 8]

/-- A third frame is scaled, and all three are paced. -/
theorem broadcasts_paced_scaled :
    ∃ s₀ s log,
      FrameSenderState.new plainLib () 1000000000 = some s₀ ∧
      RunWhen KeepsLevel (logged FrameSenderState.step sent) (s₀, [])
        (ownSizes ++ [.frame (blackFrame 8 8) quietUpdate.pressure 1040000000]) (s, log) ∧
      log.map (·.size) = [(16, 16), (16, 16), (16, 16)] ∧ log.IsChain Paced := by
  have hrun : ∃ s,
      RunWhen KeepsLevel (logged FrameSenderState.step sent)
        ((FrameSenderState.new plainLib () 1000000000).get rfl, []) ownSizes s ∧
      (s.1.disableScaledForSource = false ∧ s.1.profile.frameIntervalMs = 16 ∧
        s.1.lastSent = 1020000000 ∧ s.2.map (·.size) = [(16, 16), (16, 16)]) :=
    execWhen_any (by decide +kernel)
  obtain ⟨⟨s, log⟩, h, henabled, hinterval, hlast, hsizes⟩ := hrun
  have hdue : 16 ≤ elapsedMillis s.lastSent 1040000000 := by
    rw [hlast]
    decide
  obtain ⟨hpaced, b, s', hframe, hsize⟩ :=
    plain_frame (blackFrame_contiguous (by decide) (by decide) (by decide)) rfl rfl henabled
      hinterval hdue
  have hsent : logged FrameSenderState.step sent (s, log)
      (.frame (blackFrame 8 8) quietUpdate.pressure 1040000000) = some (s', b :: log) :=
    logged_some (step_frame hframe) (sent_frame hframe)
  have hkeeps : KeepsLevel (s, log) (.frame (blackFrame 8 8) quietUpdate.pressure 1040000000) :=
    Or.inr (Or.inr hpaced)
  have hthree := h.snoc _ hkeeps hsent
  refine ⟨_, s', b :: log, (Option.some_get _).symm, hthree, ?_, broadcasts_paced hthree⟩
  rw [List.map_cons, hsize, hsizes]

/-! ### A frame sent at its own size -/

/-- An encoder that fails at the scaled size of a frame of 1280 by 960 pixels. -/
def fallbackLib : VideoLib where
  Encoder := Unit
  World := Unit
  withApiConfig _ w := (some (), w)
  encode e pic w := (if pic.width = 1280 then some [0, 0, 1, 0x65] else none, e, w)
  forceIntraFrame e := e
  scaleDimensions _ _ _ _ := (720, 544)

/-- What the encoder makes of such a frame. -/
def fallbackPayload : EncodedFrame := ⟨[0, 0, 1, 0x65], true, (1280, 960)⟩

theorem fallback_scaled (c : Coder fallbackLib) (frame : VideoFrame) (profile : VideoProfile)
    (rgbaRaw : List UInt8) : (c.encodeScaled frame profile (720, 544) rgbaRaw).1 = none := by
  by_contra hne
  obtain ⟨f, hf⟩ := Option.ne_none_iff_exists'.mp hne
  simp only [Coder.encodeScaled] at hf
  split at hf
  · obtain ⟨c', hc'⟩ := Coder.encodeFrameWithRetry_once hf
    simp [Coder.encodeOnce, fallbackLib] at hc'
  · cases hf

theorem fallback_full (c : Coder fallbackLib) {frame : VideoFrame} (hw : frame.width = 1280)
    (hh : frame.height = 960) (profile : VideoProfile) (rgbaRaw : List UInt8) :
    (c.encodeFull frame profile rgbaRaw).1 = some (fallbackPayload, false) := by
  have hsome : (c.encodeFrameWithRetry 1280 960 profile.frameIntervalMs rgbaRaw).1 =
      some fallbackPayload := by
    refine Coder.encodeFrameWithRetry_of_once (fun c => ?_) (fun c => ?_)
    · simp [Coder.install, newEncoderForSettings, fallbackLib]
    · simp [Coder.encodeOnce, fallbackLib, videoEncoderMinPayloadBytes, h264ContainsIdr_idr,
        fallbackPayload]
  simp only [Coder.encodeFull, hw, hh]
  split
  · next hout =>
    obtain rfl := Option.some.inj ((congrArg Prod.fst hout).symm.trans hsome)
    rfl
  · next hout => cases (congrArg Prod.fst hout).symm.trans hsome

theorem fallback_build (c : Coder fallbackLib) {frame : VideoFrame} (hframe : Contiguous frame)
    (hw : frame.width = 1280) (hh : frame.height = 960) (profile : VideoProfile)
    (allowScaled : Bool) :
    (c.buildVideoPayload frame profile allowScaled).1 = some (fallbackPayload, false) := by
  have hsize : ¬(frame.width = 0 ∨ frame.height = 0) := by
    have := hframe.width
    have := hframe.height
    omega
  simp only [Coder.buildVideoPayload, if_neg hsize, fill_contiguous hframe]
  split
  · split
    · next hout => cases (congrArg Prod.fst hout).symm.trans (fallback_scaled _ _ _ _)
    · exact fallback_full _ hw hh _ _
  · exact fallback_full _ hw hh _ _

/-- Such a frame is sent at its own size once the interval of the scaled size is over. -/
theorem fallback_frame {s : FrameSenderState fallbackLib} {frame : VideoFrame} {now : Nat}
    (hframe : Contiguous frame) (hw : frame.width = 1280) (hh : frame.height = 960)
    (hinterval : s.profile.frameIntervalMs = 16) (hdue : 16 ≤ elapsedMillis s.lastSent now) :
    ∃ b s', s.handleFrame frame ⟨0, 0, 0⟩ now = (some b, s') ∧ b.size = (1280, 960) ∧
      b.now = now ∧ s'.lastSent = now ∧ s'.profile.frameIntervalMs = 16 := by
  have hpacing : s.frameIntervalMs frame = 16 := by
    have hscaled : s.scaledSize frame = (720, 544) := rfl
    rw [frameIntervalMs, pacingSize_eq, hinterval, hscaled]
    decide
  have hpayload : (s.refreshIntra.encodePayload frame).1 = some fallbackPayload := by
    rw [encodePayload_fst, fallback_build _ hframe hw hh]
    rfl
  obtain ⟨b, s', hsent, -, hsize, hnow, hlast, hkeeps⟩ :=
    quiet_sent (by rwa [hpacing]) hpayload (by decide)
  exact ⟨b, s', hsent, hsize, hnow, hlast, hkeeps hinterval⟩

/-- Two such frames 20 ms apart are both sent, where the level asks for 46 ms. -/
theorem broadcasts_unpaced :
    ∃ s₀ s log,
      FrameSenderState.new fallbackLib () 1000000000 = some s₀ ∧
      Run (logged FrameSenderState.step sent) (s₀, [])
        (loopActions (blackFrame 1280 960) true quietUpdate 1000000000 ++
          loopActions (blackFrame 1280 960) true quietUpdate 1020000000) (s, log) ∧
      ¬log.IsChain Paced := by
  have hframe : Contiguous (blackFrame 1280 960) :=
    blackFrame_contiguous (by decide) (by decide) (by decide)
  generalize hblack : blackFrame 1280 960 = frame at hframe
  have hw : frame.width = 1280 := by rw [← hblack]; rfl
  have hh : frame.height = 960 := by rw [← hblack]; rfl
  have htransition (s : FrameSenderState fallbackLib) (h : s.profile.frameIntervalMs = 16) :
      (s.handleSessionTransitions quietUpdate 1280 960).profile.frameIntervalMs = 16 := by
    by_cases hnew : s.hadActiveSession = false
    · rw [handleSessionTransitions, if_pos hnew]
      rfl
    · rw [handleSessionTransitions, if_neg hnew]
      simpa [quietUpdate] using h
  let s₀ := (FrameSenderState.new fallbackLib () 1000000000).get rfl
  have hdue₁ : 16 ≤ elapsedMillis
      (s₀.handleSessionTransitions quietUpdate 1280 960).lastSent 1000000000 := by
    decide
  obtain ⟨b₁, s₁, hframe₁, -, hnow₁, hlast₁, hinterval₁⟩ :=
    fallback_frame hframe hw hh (htransition s₀ rfl) hdue₁
  have hdue₂ : 16 ≤ elapsedMillis
      (s₁.handleSessionTransitions quietUpdate 1280 960).lastSent 1020000000 := by
    rw [handleSessionTransitions_lastSent, hlast₁]
    decide
  obtain ⟨b₂, s₂, hframe₂, hsize₂, hnow₂, -, -⟩ :=
    fallback_frame hframe hw hh (htransition s₁ hinterval₁) hdue₂
  have hsent₁ : logged FrameSenderState.step sent
      (s₀.handleSessionTransitions quietUpdate 1280 960, [])
      (.frame frame quietUpdate.pressure 1000000000) = some (s₁, [b₁]) :=
    logged_some (step_frame hframe₁) (sent_frame hframe₁)
  have hsent₂ : logged FrameSenderState.step sent
      (s₁.handleSessionTransitions quietUpdate 1280 960, [b₁])
      (.frame frame quietUpdate.pressure 1020000000) = some (s₂, [b₂, b₁]) :=
    logged_some (step_frame hframe₂) (sent_frame hframe₂)
  refine ⟨s₀, s₂, [b₂, b₁], (Option.some_get _).symm, ?_, ?_⟩
  · rw [loopActions_sessions hframe.width hframe.height,
      loopActions_sessions hframe.width hframe.height, hw, hh]
    exact .cons trivial rfl (.cons trivial hsent₁ (.cons trivial rfl (.cons trivial hsent₂ .nil)))
  · intro hchain
    have hpaced : Paced b₂ b₁ := (List.isChain_cons_cons.mp hchain).1
    rw [Paced, hsize₂, hnow₁, hnow₂] at hpaced
    exact absurd (hpaced (by decide)).1 (by decide)

end CloudGame.Worker
