import CloudGame.Worker.Pacing

/-!
# Keyframe requests and the frames sent

A request, to refresh the encoder or to force an intra picture, leaves the encoder to output an
intra picture next.  A payload that is too large is dropped, and the intra picture with it; the
next frame is one again only if its settings differ from the last, so that the encoder is replaced.

* `VideoLib.Lawful`: what is assumed of the encoder.
* `requests_honoured`: where no frame is encoded by the encoder whose intra picture was dropped
  while the request is outstanding, the first broadcast after a request is a keyframe.
-/

namespace CloudGame.Worker

open CloudGame.Lib

/-- An encoder that is `pending` is to output an intra picture next.  A new one is, and one that was
told to; it is until there is output, which is then found to be an IDR picture. -/
structure VideoLib.Lawful (lib : VideoLib) (pending : lib.Encoder → Prop) : Prop where
  created : ∀ {config : EncoderConfig} {w w' : lib.World} {e : lib.Encoder},
    lib.withApiConfig config w = (some e, w') → pending e
  forced : ∀ e : lib.Encoder, pending (lib.forceIntraFrame e)
  idr : ∀ {e : lib.Encoder} {pic : Picture} {w : lib.World} {output : List UInt8},
    pending e → (lib.encode e pic w).1 = some output → output ≠ [] → h264ContainsIdr output = true
  kept : ∀ {e : lib.Encoder} {pic : Picture} {w : lib.World},
    pending e → (∀ output, (lib.encode e pic w).1 = some output → output = []) →
      pending (lib.encode e pic w).2.1

variable {lib : VideoLib} {pending : lib.Encoder → Prop}

/-! ## Encoding -/

/-- A keyframe comes out, or the intra picture is still to come. -/
def Intra (pending : lib.Encoder → Prop) (out : Option EncodedFrame × Coder lib) : Prop :=
  match out.1 with
  | some f => f.isKeyframe = true
  | none => pending out.2.encoder

theorem Intra.keyframe {out : Option EncodedFrame × Coder lib} {f : EncodedFrame}
    (h : Intra pending out) (hsome : out.1 = some f) : f.isKeyframe = true := by
  rw [Intra, hsome] at h
  exact h

theorem Intra.still {out : Option EncodedFrame × Coder lib} (h : Intra pending out)
    (hnone : out.1 = none) : pending out.2.encoder := by
  rw [Intra, hnone] at h
  exact h

namespace Coder

theorem encodeOnce_intra (hlib : lib.Lawful pending) {c : Coder lib} (hpending : pending c.encoder)
    (pic : Picture) : Intra pending (c.encodeOnce pic) := by
  simp only [Intra, encodeOnce]
  cases hout : (lib.encode c.encoder pic c.world).1 with
  | none =>
    refine hlib.kept hpending fun output h => ?_
    cases hout.symm.trans h
  | some output =>
    by_cases hlen : output.length ≥ videoEncoderMinPayloadBytes
    · simp only [if_pos hlen]
      refine hlib.idr hpending hout ?_
      rintro rfl
      exact absurd hlen (by decide)
    · simp only [if_neg hlen]
      refine hlib.kept hpending fun output' h => ?_
      obtain rfl := Option.some.inj (hout.symm.trans h)
      have hzero : output.length = 0 := by
        simp only [videoEncoderMinPayloadBytes] at hlen
        omega
      exact List.length_eq_zero_iff.mp hzero

/-- A new encoder is pending. -/
theorem install_pending (hlib : lib.Lawful pending) {c c' : Coder lib} {settings : EncodeSettings}
    (h : c.install settings = (true, c')) : pending c'.encoder := by
  simp only [install] at h
  split at h
  · next encoder world hnew =>
    cases h
    simp only [newEncoderForSettings] at hnew
    split at hnew
    · cases hnew
    · exact hlib.created hnew
  · cases h

theorem install_false {c c' : Coder lib} {settings : EncodeSettings}
    (h : c.install settings = (false, c')) :
    c'.encoder = c.encoder ∧ c'.lastEncodeSettings = c.lastEncodeSettings := by
  simp only [install] at h
  split at h
  · cases h
  · cases h
    exact ⟨rfl, rfl⟩

theorem recover_intra (hlib : lib.Lawful pending) {c : Coder lib} (hpending : pending c.encoder)
    (settings : EncodeSettings) (pic : Picture) : Intra pending (c.recover settings pic) := by
  simp only [recover]
  split
  · split
    · next hfailed =>
      show pending _
      rw [(install_false hfailed).1]
      exact hpending
    · next hnew =>
      have hintra := encodeOnce_intra hlib (install_pending hlib hnew) pic
      split
      · next hout => exact hintra.keyframe (congrArg Prod.fst hout)
      · next hout =>
        rw [hout] at hintra
        exact hintra
  · exact hpending

theorem encodeOrRecover_intra (hlib : lib.Lawful pending) {c : Coder lib}
    (hpending : pending c.encoder) (settings : EncodeSettings) (pic : Picture) (isNew : Bool) :
    Intra pending (c.encodeOrRecover settings pic isNew) := by
  have hintra := encodeOnce_intra hlib hpending pic
  simp only [encodeOrRecover]
  split
  · next hout => exact hintra.keyframe (congrArg Prod.fst hout)
  · next hout =>
    rw [hout] at hintra
    split
    · have hintra' := encodeOnce_intra hlib hintra pic
      split
      · next hout' => exact hintra'.keyframe (congrArg Prod.fst hout')
      · next hout' =>
        rw [hout'] at hintra'
        exact recover_intra hlib hintra' settings pic
    · exact recover_intra hlib hintra settings pic

/-- So does an encoder just put in place. -/
theorem installed_intra (hlib : lib.Lawful pending) {c c' : Coder lib} {settings : EncodeSettings}
    (h : c.install settings = (true, c')) (pic : Picture) :
    Intra pending ({ c' with encodeEmptyStreak := 0 }.encodeOrRecover settings pic true) := by
  have hpending : pending c'.encoder := install_pending hlib h
  exact encodeOrRecover_intra hlib (c := { c' with encodeEmptyStreak := 0 }) hpending settings pic
    true

theorem encodeFrameWithRetry_intra (hlib : lib.Lawful pending) {c : Coder lib}
    (hpending : pending c.encoder) (width height frameIntervalMs : Nat) (rgbaRaw : List UInt8) :
    Intra pending (c.encodeFrameWithRetry width height frameIntervalMs rgbaRaw) := by
  simp only [encodeFrameWithRetry]
  split
  · split
    · next hnew => exact installed_intra hlib hnew _
    · next hfailed =>
      show pending _
      rw [(install_false hfailed).1]
      exact hpending
  · exact encodeOrRecover_intra hlib hpending _ _ _

/-- At settings that are not the last, either a new encoder is put in place, or nothing is encoded
and the last settings stay. -/
theorem encodeFrameWithRetry_renewed (hlib : lib.Lawful pending) {c : Coder lib}
    {width height frameIntervalMs : Nat} (rgbaRaw : List UInt8)
    (hlast : c.lastEncodeSettings ≠ some ⟨width, height, frameIntervalMs⟩) :
    Intra pending (c.encodeFrameWithRetry width height frameIntervalMs rgbaRaw) ∨
      (newEncoderForSettings lib ⟨width, height, frameIntervalMs⟩ c.world).1.isSome = false ∧
      (c.encodeFrameWithRetry width height frameIntervalMs rgbaRaw).1 = none ∧
      (c.encodeFrameWithRetry width height frameIntervalMs rgbaRaw).2.lastEncodeSettings =
        c.lastEncodeSettings := by
  simp only [encodeFrameWithRetry, if_pos hlast]
  split
  · next hnew => exact .inl (installed_intra hlib hnew _)
  · next hfailed =>
    refine .inr ⟨?_, rfl, (install_false hfailed).2⟩
    simp only [install] at hfailed
    split at hfailed
    · cases hfailed
    · next hnone =>
      rw [hnone]
      rfl

/-! ### The payload of a frame -/

/-- `build_video_payload` without the note whether the payload is scaled. -/
def built (c : Coder lib) (frame : VideoFrame) (profile : VideoProfile) (allowScaled : Bool) :
    Option EncodedFrame × Coder lib :=
  ((c.buildVideoPayload frame profile allowScaled).1.map Prod.fst,
    (c.buildVideoPayload frame profile allowScaled).2)

/-- The encoder is new when the frame is encoded at the scaled size, or where no encoder can be made
for that size, at its own. -/
def scaledRenews (c : Coder lib) (frame : VideoFrame) (profile : VideoProfile)
    (target : Nat × Nat) (rgbaRaw : List UInt8) : Bool :=
  let scaled : EncodeSettings := ⟨target.1, target.2, profile.frameIntervalMs⟩
  let full : EncodeSettings := ⟨frame.width, frame.height, profile.frameIntervalMs⟩
  match (scaleRgbaNearest rgbaRaw frame.width frame.height target.1 target.2).on
      c.scaledScratch with
  | (.ok (), _) =>
    c.lastEncodeSettings ≠ some scaled ∧
      ((newEncoderForSettings lib scaled c.world).1.isSome ∨ c.lastEncodeSettings ≠ some full)
  | (.error _, _) => c.lastEncodeSettings ≠ some full

/-- A new encoder is put in place before anything is encoded, if anything is: the settings are not
the last. -/
def renews (c : Coder lib) (frame : VideoFrame) (profile : VideoProfile) (allowScaled : Bool) :
    Bool :=
  let target :=
    lib.scaleDimensions frame.width frame.height profile.targetWidth profile.targetHeight
  match (fillRgbaBufferFromFrame frame).on c.rgbaScratch with
  | (.error _, _) => true
  | (.ok rgbaRaw, _) =>
    if allowScaled ∧ target ≠ (frame.width, frame.height) then
      c.scaledRenews frame profile target rgbaRaw
    else c.lastEncodeSettings ≠ some ⟨frame.width, frame.height, profile.frameIntervalMs⟩

theorem encodeFull_eq (c : Coder lib) (frame : VideoFrame) (profile : VideoProfile)
    (rgbaRaw : List UInt8) :
    ((c.encodeFull frame profile rgbaRaw).1.map Prod.fst,
        (c.encodeFull frame profile rgbaRaw).2) =
      c.encodeFrameWithRetry frame.width frame.height profile.frameIntervalMs rgbaRaw := by
  simp only [encodeFull]
  split <;> next hout => rw [hout]; rfl

theorem encodeScaled_intra (hlib : lib.Lawful pending) {c : Coder lib}
    (hpending : pending c.encoder) (frame : VideoFrame) (profile : VideoProfile)
    (target : Nat × Nat) (rgbaRaw : List UInt8) :
    Intra pending (c.encodeScaled frame profile target rgbaRaw) := by
  simp only [encodeScaled]
  split
  · next scaled _ =>
    exact encodeFrameWithRetry_intra hlib (c := { c with scaledScratch := scaled }) hpending _ _ _ _
  · exact hpending

theorem built_intra (hlib : lib.Lawful pending) {c : Coder lib} (hpending : pending c.encoder)
    (frame : VideoFrame) (profile : VideoProfile) (allowScaled : Bool) :
    Intra pending (c.built frame profile allowScaled) := by
  simp only [built, buildVideoPayload]
  split
  · exact hpending
  split
  · exact hpending
  next rgbaRaw scratch hfill =>
  have hpending' : pending { c with rgbaScratch := scratch }.encoder := hpending
  split
  · have hscaled := encodeScaled_intra hlib hpending' frame profile
      (lib.scaleDimensions frame.width frame.height profile.targetWidth profile.targetHeight)
      rgbaRaw
    split
    · next hout => exact hscaled.keyframe (congrArg Prod.fst hout)
    · next hout =>
      rw [hout] at hscaled
      rw [encodeFull_eq]
      exact encodeFrameWithRetry_intra hlib hscaled _ _ _ _
  · rw [encodeFull_eq]
    exact encodeFrameWithRetry_intra hlib hpending' _ _ _ _

/-- At the settings of the frame that are not the last. -/
theorem full_renewed (hlib : lib.Lawful pending) {c c' : Coder lib} {frame : VideoFrame}
    {profile : VideoProfile} {rgbaRaw : List UInt8}
    (hsame : c'.lastEncodeSettings = c.lastEncodeSettings)
    (hlast : c.lastEncodeSettings ≠
      some ⟨frame.width, frame.height, profile.frameIntervalMs⟩) :
    Intra pending ((c'.encodeFull frame profile rgbaRaw).1.map Prod.fst,
        (c'.encodeFull frame profile rgbaRaw).2) ∨
      (c'.encodeFull frame profile rgbaRaw).1.map Prod.fst = none ∧
      (c'.encodeFull frame profile rgbaRaw).2.lastEncodeSettings = c.lastEncodeSettings := by
  have heq := encodeFull_eq c' frame profile rgbaRaw
  rw [← hsame] at hlast ⊢
  rcases encodeFrameWithRetry_renewed hlib rgbaRaw hlast with hintra | ⟨-, hnone, hkept⟩
  · rw [heq]
    exact .inl hintra
  · rw [← heq] at hnone hkept
    exact .inr ⟨hnone, hkept⟩

/-- At the scaled size: where it leaves the last settings, these are not those of the frame. -/
theorem scaled_or_full (hlib : lib.Lawful pending) {c : Coder lib} {frame : VideoFrame}
    {profile : VideoProfile} {target : Nat × Nat} {rgbaRaw : List UInt8}
    (h : c.scaledRenews frame profile target rgbaRaw = true) :
    Intra pending (c.encodeScaled frame profile target rgbaRaw) ∨
      (c.encodeScaled frame profile target rgbaRaw).1 = none ∧
      (c.encodeScaled frame profile target rgbaRaw).2.lastEncodeSettings = c.lastEncodeSettings ∧
      c.lastEncodeSettings ≠ some ⟨frame.width, frame.height, profile.frameIntervalMs⟩ := by
  simp only [scaledRenews] at h
  simp only [encodeScaled]
  split
  · next scaled hscaled =>
    simp only [hscaled, decide_eq_true_eq] at h
    have hway :=
      encodeFrameWithRetry_renewed hlib (c := { c with scaledScratch := scaled }) scaled h.1
    rcases hway with hintra | ⟨hfailed, hnone, hkept⟩
    · exact .inl hintra
    · refine .inr ⟨hnone, hkept, h.2.resolve_left ?_⟩
      rw [hfailed]
      decide
  · next hscaled =>
    simp only [hscaled, decide_eq_true_eq] at h
    exact .inr ⟨rfl, rfl, h⟩

/-- Where the encoder is renewed for the frame, a keyframe comes out or the intra picture is still
to come, or nothing is encoded and the last settings stay. -/
theorem built_renewed (hlib : lib.Lawful pending) {c : Coder lib} {frame : VideoFrame}
    {profile : VideoProfile} {allowScaled : Bool}
    (h : c.renews frame profile allowScaled = true) :
    Intra pending (c.built frame profile allowScaled) ∨
      (c.built frame profile allowScaled).1 = none ∧
      (c.built frame profile allowScaled).2.lastEncodeSettings = c.lastEncodeSettings := by
  simp only [built, buildVideoPayload]
  split
  · exact .inr ⟨rfl, rfl⟩
  split
  · exact .inr ⟨rfl, rfl⟩
  next rgbaRaw scratch hfill =>
  simp only [renews, hfill] at h
  split
  · next hscale =>
    simp only [if_pos hscale] at h
    have hway := scaled_or_full hlib (c := { c with rgbaScratch := scratch }) h
    rcases hway with hintra | ⟨hnone, hkept, hlast⟩
    · split
      · next hout => exact .inl (hintra.keyframe (congrArg Prod.fst hout))
      · next hout =>
        rw [hout] at hintra
        rw [encodeFull_eq]
        exact .inl (encodeFrameWithRetry_intra hlib hintra _ _ _ _)
    · split
      · next hout => cases (congrArg Prod.fst hout).symm.trans hnone
      · next hout =>
        rw [hout] at hkept
        exact full_renewed hlib hkept hlast
  · next hfull =>
    simp only [if_neg hfull, decide_eq_true_eq] at h
    exact full_renewed hlib rfl h

end Coder

/-! ## Events -/

/-- `renewed`: without a request, the encoder is replaced or told to begin with an intra picture.
`dropped`: a payload is too large. -/
inductive SenderEvent where
  | requested
  | renewed
  | dropped
  | broadcast (b : Broadcast)
deriving DecidableEq

/-- The log, newest first, has a request that no broadcast has followed. -/
def outstanding : List SenderEvent → Bool
  | .requested :: _ => true
  | .renewed :: log => outstanding log
  | .dropped :: log => outstanding log
  | .broadcast _ :: _ => false
  | [] => false

/-- A payload was dropped while a request is outstanding, and the encoder not renewed since. -/
def intraDropped : List SenderEvent → Bool
  | .dropped :: log => outstanding log
  | _ => false

def Honoured : List SenderEvent → Prop
  | .broadcast b :: log => (outstanding log = true → b.isKeyframe = true) ∧ Honoured log
  | _ :: log => Honoured log
  | [] => True

theorem outstanding_of_requested {mid older : List SenderEvent}
    (hmid : ∀ b, SenderEvent.broadcast b ∉ mid) :
    outstanding (mid ++ .requested :: older) = true := by
  induction mid with
  | nil => rfl
  | cons e mid ih =>
    have htail := ih fun b hb => hmid b (List.mem_cons_of_mem _ hb)
    cases e with
    | requested => rfl
    | renewed => exact htail
    | dropped => exact htail
    | broadcast b => exact absurd List.mem_cons_self (hmid b)

theorem Honoured.of_append {newer older : List SenderEvent} (h : Honoured (newer ++ older)) :
    Honoured older := by
  induction newer with
  | nil => exact h
  | cons e newer ih =>
    cases e with
    | broadcast b => exact ih h.2
    | requested => exact ih h
    | renewed => exact ih h
    | dropped => exact ih h

namespace FrameSenderState

/-- The frame is due and its payload is too large. -/
def drops (s : FrameSenderState lib) (frame : VideoFrame) (now : Nat) : Bool :=
  s.frameIntervalMs frame ≤ elapsedMillis s.lastSent now ∧
    (s.refreshIntra.encodePayload frame).1.any
      (fun f => videoTargetMaxPayloadBytes < f.payload.length)

def events (s : FrameSenderState lib) : SenderAction → List SenderEvent
  | .sessionsGone => []
  | .transitions update _ _ =>
    if update.refreshEncoder ∨ update.forceIdr then [.requested]
    else if s.hadActiveSession = false then [.renewed] else []
  | .frame frame pressure now =>
    match s.handleFrame frame pressure now with
    | (some b, _) => [.broadcast b]
    | (none, s') =>
      if (s.adjustForPressure pressure).drops frame now then [.dropped]
      else if s'.coder.lastEncodeSettings ≠ s.coder.lastEncodeSettings then [.renewed] else []

theorem events_broadcast {s s' : FrameSenderState lib} {frame : VideoFrame}
    {pressure : VideoPressureSnapshot} {now : Nat} {b : Broadcast}
    (h : s.handleFrame frame pressure now = (some b, s')) :
    s.events (.frame frame pressure now) = [.broadcast b] := by
  simp only [events, h]

theorem events_dropped {s s' : FrameSenderState lib} {frame : VideoFrame}
    {pressure : VideoPressureSnapshot} {now : Nat}
    (h : s.handleFrame frame pressure now = (none, s'))
    (hdrops : (s.adjustForPressure pressure).drops frame now = true) :
    s.events (.frame frame pressure now) = [.dropped] := by
  simp only [events, h, hdrops, if_true]

/-- What is asked of a frame that is due while an intra picture is dropped. -/
def KeepsIntra (s : FrameSenderState lib × List SenderEvent) : SenderAction → Prop
  | .frame frame pressure now =>
    let t := s.1.adjustForPressure pressure
    intraDropped s.2 = true → t.frameIntervalMs frame ≤ elapsedMillis t.lastSent now →
      t.coder.renews frame t.profile (t.allowScaled frame) = true
  | _ => True

instance (s : FrameSenderState lib × List SenderEvent) (a : SenderAction) :
    Decidable (KeepsIntra s a) :=
  match a with
  | .frame .. => inferInstanceAs (Decidable (_ → _ → _))
  | .sessionsGone => inferInstanceAs (Decidable True)
  | .transitions .. => inferInstanceAs (Decidable True)

/-! ## The encoder of the sender -/

@[simp]
theorem adjustForPressure_coder (s : FrameSenderState lib) (pressure : VideoPressureSnapshot) :
    (s.adjustForPressure pressure).coder = s.coder := by
  unfold adjustForPressure
  split
  · rfl
  · split <;> rfl

@[simp]
theorem noteSource_encoder (s : FrameSenderState lib) (width height : Nat) :
    (s.noteSource width height).coder.encoder = s.coder.encoder := by
  unfold noteSource
  split <;> rfl

@[simp]
theorem noteScaled_coder (s : FrameSenderState lib) (failed : Bool) :
    (s.noteScaled failed).coder = s.coder := by
  simp only [noteScaled]
  split
  · split <;> rfl
  · rfl

@[simp]
theorem checkPayload_coder (s : FrameSenderState lib) (payload : Option EncodedFrame) :
    (s.checkPayload payload).2.coder = s.coder := by
  simp only [checkPayload]
  split <;> split <;> rfl

theorem refreshIntra_pending (hlib : lib.Lawful pending) {s : FrameSenderState lib}
    (h : pending s.coder.encoder) : pending s.refreshIntra.coder.encoder := by
  unfold refreshIntra
  split
  · exact hlib.forced _
  · exact h

/-- Telling the encoder to begin with an intra picture leaves the rest of the coder. -/
theorem refreshIntra_last (s : FrameSenderState lib) :
    s.refreshIntra.coder.lastEncodeSettings = s.coder.lastEncodeSettings := by
  unfold refreshIntra
  split <;> rfl

theorem refreshIntra_renews (s : FrameSenderState lib) (frame : VideoFrame) :
    s.refreshIntra.coder.renews frame s.refreshIntra.profile (s.refreshIntra.allowScaled frame) =
      s.coder.renews frame s.profile (s.allowScaled frame) := by
  unfold refreshIntra
  split <;> rfl

theorem encodePayload_built (s : FrameSenderState lib) (frame : VideoFrame) :
    ((s.encodePayload frame).1, (s.encodePayload frame).2.coder) =
      s.coder.built frame s.profile (s.allowScaled frame) := by
  refine Prod.ext (encodePayload_fst s frame) ?_
  simp only [encodePayload, Coder.built]
  split <;> by_cases h : s.allowScaled frame <;> simp [h]

/-- After a request the encoder is pending. -/
theorem requested_pending (hlib : lib.Lawful pending) (s : FrameSenderState lib)
    {update : VideoSenderUpdate} (h : update.refreshEncoder = true ∨ update.forceIdr = true)
    (width height : Nat) :
    pending (s.handleSessionTransitions update width height).coder.encoder := by
  unfold handleSessionTransitions
  split
  · exact hlib.forced _
  rw [noteSource_encoder]
  by_cases hforce : update.forceIdr = true
  · simp only [if_pos hforce]
    exact hlib.forced _
  · have hrefresh := h.resolve_right hforce
    simp only [if_neg hforce, if_pos hrefresh]
    exact hlib.forced _

/-- Without one it stays pending. -/
theorem transitions_pending (hlib : lib.Lawful pending) {s : FrameSenderState lib}
    {update : VideoSenderUpdate} (h : ¬(update.refreshEncoder = true ∨ update.forceIdr = true))
    (width height : Nat) (hs : s.hadActiveSession = false ∨ pending s.coder.encoder) :
    pending (s.handleSessionTransitions update width height).coder.encoder := by
  unfold handleSessionTransitions
  split
  · exact hlib.forced _
  · next hactive =>
    rw [noteSource_encoder]
    simp only [if_neg fun hforce => h (.inr hforce), if_neg fun hrefresh => h (.inl hrefresh)]
    exact hs.resolve_left hactive

/-- **One frame.**  A pending encoder, or one that is renewed for the frame, makes a keyframe or
stays pending, or nothing is encoded and the last settings stay. -/
theorem encodePayload_intra (hlib : lib.Lawful pending) {s : FrameSenderState lib}
    {frame : VideoFrame}
    (h : pending s.coder.encoder ∨
      s.coder.renews frame s.profile (s.allowScaled frame) = true) :
    Intra pending ((s.refreshIntra.encodePayload frame).1,
        (s.refreshIntra.encodePayload frame).2.coder) ∨
      ¬pending s.coder.encoder ∧ (s.refreshIntra.encodePayload frame).1 = none ∧
      (s.refreshIntra.encodePayload frame).2.coder.lastEncodeSettings =
        s.coder.lastEncodeSettings := by
  by_cases hpending : pending s.coder.encoder
  · rw [encodePayload_built]
    exact .inl (Coder.built_intra hlib (refreshIntra_pending hlib hpending) _ _ _)
  have hrenews := h.resolve_left hpending
  rw [← refreshIntra_renews] at hrenews
  rcases Coder.built_renewed hlib hrenews with hintra | ⟨hnone, hkept⟩
  · rw [encodePayload_built]
    exact .inl hintra
  · rw [← encodePayload_built] at hnone hkept
    exact .inr ⟨hpending, hnone, hkept.trans (refreshIntra_last s)⟩

/-- The requests so far are honoured, and while one is outstanding the encoder is pending, but for
an intra picture dropped. -/
structure IntraReady (pending : lib.Encoder → Prop)
    (s : FrameSenderState lib × List SenderEvent) : Prop where
  honoured : Honoured s.2
  ready : outstanding s.2 = true → intraDropped s.2 = false → pending s.1.coder.encoder

theorem IntraReady.frame (hlib : lib.Lawful pending)
    {s : FrameSenderState lib × List SenderEvent} (h : IntraReady pending s) {frame : VideoFrame}
    {pressure : VideoPressureSnapshot} {now : Nat}
    (hok : KeepsIntra s (.frame frame pressure now)) :
    IntraReady pending ((s.1.handleFrame frame pressure now).2,
      s.1.events (.frame frame pressure now) ++ s.2) := by
  obtain ⟨s, log⟩ := s
  have hcoder := s.adjustForPressure_coder pressure
  have hway := s.handleFrame_handled frame pressure now
  simp only [KeepsIntra] at hok
  simp only [events, ← hcoder]
  have hready := h.ready
  simp only [← hcoder] at hready
  generalize s.handleFrame frame pressure now = out at hway ⊢
  generalize s.adjustForPressure pressure = t at hok hway hready ⊢
  -- a frame that is due finds the encoder pending, or has it renewed
  have hintra (hdue : t.frameIntervalMs frame ≤ elapsedMillis t.lastSent now)
      (hout : outstanding log = true) :
      pending t.coder.encoder ∨ t.coder.renews frame t.profile (t.allowScaled frame) = true := by
    cases hdropped : intraDropped log with
    | false => exact .inl (hready hout hdropped)
    | true => exact .inr (hok hdropped hdue)
  cases hway with
  | early hearly =>
    have hdrops : t.drops frame now = false := by
      simp [drops, Nat.not_le_of_lt hearly]
    simp only [hdrops, Bool.false_eq_true, if_false, ne_eq, not_true_eq_false]
    exact ⟨h.honoured, hready⟩
  | unencoded hdue hnone =>
    have hdrops : t.drops frame now = false := by
      simp [drops, hnone]
    simp only [hdrops, Bool.false_eq_true, if_false, checkPayload_coder]
    by_cases hlast : (t.refreshIntra.encodePayload frame).2.coder.lastEncodeSettings =
        t.coder.lastEncodeSettings
    · rw [if_neg (not_not.mpr hlast)]
      refine ⟨h.honoured, fun hout hdropped => ?_⟩
      have hpending := hready hout hdropped
      rcases encodePayload_intra hlib (.inl hpending) with hintra | ⟨hspent, -, -⟩
      · rw [checkPayload_coder]
        exact hintra.still hnone
      · exact absurd hpending hspent
    · rw [if_pos hlast]
      refine ⟨h.honoured, fun hout _ => ?_⟩
      rcases encodePayload_intra hlib (hintra hdue hout) with hintra | ⟨-, -, hkept⟩
      · rw [checkPayload_coder]
        exact hintra.still hnone
      · exact absurd hkept hlast
  | dropped payload hdue hsome hlarge =>
    have hdrops : t.drops frame now = true := by
      simp [drops, hdue, hsome, hlarge]
    simp only [hdrops, if_true]
    refine ⟨h.honoured, fun hout hdropped => ?_⟩
    cases hout.symm.trans hdropped
  | sent payload hdue hsome =>
    refine ⟨⟨fun hout => ?_, h.honoured⟩, ?_⟩
    · rcases encodePayload_intra hlib (hintra hdue hout) with hintra | ⟨-, hnone, -⟩
      · exact hintra.keyframe hsome
      · cases hsome.symm.trans hnone
    · intro hout
      cases hout

theorem IntraReady.step (hlib : lib.Lawful pending)
    {s s' : FrameSenderState lib × List SenderEvent} {a : SenderAction}
    (h : IntraReady pending s) (hok : KeepsIntra s a)
    (hs : logged FrameSenderState.step events s a = some s') : IntraReady pending s' := by
  obtain ⟨hstep, hlog⟩ := withGhost_eq_some hs
  obtain ⟨s', log'⟩ := s'
  obtain rfl : log' = events s.1 a ++ s.2 := hlog
  cases a with
  | sessionsGone =>
    obtain rfl := Option.some.inj hstep
    exact ⟨h.honoured, h.ready⟩
  | transitions update width height =>
    obtain rfl := Option.some.inj hstep
    simp only [events]
    split
    · next hrequest => exact ⟨h.honoured, fun _ _ => requested_pending hlib _ hrequest _ _⟩
    · next hquiet =>
      split
      · next hnew =>
        refine ⟨h.honoured, fun _ _ => ?_⟩
        exact transitions_pending hlib hquiet _ _ (.inl hnew)
      · refine ⟨h.honoured, fun hout hdropped => ?_⟩
        exact transitions_pending hlib hquiet _ _ (.inr (h.ready hout hdropped))
  | frame frame pressure now =>
    obtain rfl := Option.some.inj hstep
    exact h.frame hlib hok

end FrameSenderState

open FrameSenderState

/-- **A request is honoured by the next frame sent.**  While no frame that is due is encoded by an
encoder whose intra picture was dropped with a request outstanding, the first broadcast after a
request is a keyframe. -/
theorem requests_honoured (hlib : lib.Lawful pending) {s₀ s : FrameSenderState lib}
    {as : List SenderAction} {b : Broadcast} (newer mid older : List SenderEvent)
    (h : RunWhen KeepsIntra (logged FrameSenderState.step events) (s₀, []) as
      (s, newer ++ .broadcast b :: (mid ++ .requested :: older)))
    (hmid : ∀ b', SenderEvent.broadcast b' ∉ mid) : b.isKeyframe = true := by
  have hready : IntraReady pending (s, newer ++ .broadcast b :: (mid ++ .requested :: older)) := by
    refine h.invariant ⟨trivial, ?_⟩ fun s a s' hI hok hs => hI.step hlib hok hs
    intro hout
    cases hout
  exact hready.honoured.of_append.1 (outstanding_of_requested hmid)

/-- An encoder that outputs `idr` when it is to begin with an intra picture. -/
def intraLib (idr : List UInt8) : VideoLib where
  Encoder := Bool
  World := Unit
  withApiConfig _ w := (some true, w)
  encode e _ w := (some (if e then idr else [0, 0, 1, 0x41]), false, w)
  forceIntraFrame _ := true
  scaleDimensions width height _ _ := (width, height)

theorem intraLib_lawful {idr : List UInt8} (hidr : h264ContainsIdr idr = true) :
    (intraLib idr).Lawful (fun e => e = true) where
  created h := (Option.some.inj (congrArg Prod.fst h)).symm
  forced _ := rfl
  idr := by
    rintro _ _ _ output rfl hout _
    obtain rfl : idr = output := Option.some.inj hout
    exact hidr
  kept := by
    rintro _ _ _ rfl hempty
    obtain rfl : idr = [] := hempty idr rfl
    cases hidr

/-- A picture of 16 by 16 pixels that is to be refreshed. -/
theorem requests_honoured_refresh :
    ∃ s₀ s b,
      FrameSenderState.new (intraLib [0, 0, 1, 0x65]) () 1000000000 = some s₀ ∧
      RunWhen KeepsIntra (logged FrameSenderState.step events) (s₀, [])
        (loopActions (blackFrame 16 16) true ⟨true, false, ⟨0, 0, 0⟩⟩ 1000000000)
        (s, [.broadcast b, .requested]) ∧ b.isKeyframe = true := by
  have hrun : ∃ s,
      RunWhen KeepsIntra (logged FrameSenderState.step events)
        ((FrameSenderState.new (intraLib [0, 0, 1, 0x65]) () 1000000000).get rfl, [])
        (loopActions (blackFrame 16 16) true ⟨true, false, ⟨0, 0, 0⟩⟩ 1000000000) s ∧
      s.2 = [.broadcast ⟨[0, 0, 1, 0x65], 16, 0, true, 1000000000, (16, 16)⟩, .requested] :=
    execWhen_any (by decide +kernel)
  obtain ⟨⟨s, log⟩, h, rfl⟩ := hrun
  exact ⟨_, s, _, (Option.some_get _).symm, h,
    requests_honoured (intraLib_lawful (by decide)) [] [] [] h nofun⟩

/-! ### An intra picture that is dropped -/

theorem degradeUnlessMin_interval {p : VideoProfile}
    (h : p.frameIntervalMs ≤ videoFrameIntervalMsMax) :
    p.degradeUnlessMin.frameIntervalMs =
      min (p.frameIntervalMs + videoFrameIntervalStepMs) videoFrameIntervalMsMax := by
  simp only [videoFrameIntervalMsMax] at h
  unfold VideoProfile.degradeUnlessMin
  split
  · next hmin =>
    have hinterval : p.frameIntervalMs = 50 := hmin.2.2
    rw [hinterval]
    decide
  · simp only [VideoProfile.degrade, VideoProfile.slower, saturatingAdd, videoFrameIntervalStepMs,
      videoFrameIntervalMsMax]
    omega

/-- The payload of a frame that is not scaled. -/
theorem encodePayload_unscaled {s : FrameSenderState lib} {frame : VideoFrame}
    (h : s.scaledSize frame = (frame.width, frame.height)) :
    s.encodePayload frame =
      ((s.coder.built frame s.profile false).1,
        { s with coder := (s.coder.built frame s.profile false).2 }) := by
  have hallow : s.allowScaled frame = false := by
    simp [allowScaled, h]
  simp only [encodePayload, hallow, Coder.built]
  split <;> next hout => simp [hout]

theorem built_contiguous {c : Coder lib} {frame : VideoFrame} (hframe : Contiguous frame)
    (profile : VideoProfile) :
    c.built frame profile false =
      c.encodeFrameWithRetry frame.width frame.height profile.frameIntervalMs
        (swapPixels (frame.data.take (frame.width * frame.height * 4))) := by
  have hsize : ¬(frame.width = 0 ∨ frame.height = 0) := by
    have := hframe.width
    have := hframe.height
    omega
  simp only [Coder.built, Coder.buildVideoPayload, if_neg hsize, fill_contiguous hframe,
    Bool.false_eq_true, false_and, if_false]
  exact Coder.encodeFull_eq c frame profile _

section Dropped

variable {idr : List UInt8} {c : Coder (intraLib idr)} {width height frameIntervalMs : Nat}

theorem encodeOnce_large (hidr : h264ContainsIdr idr = true)
    (hlarge : videoTargetMaxPayloadBytes < idr.length) (hpending : c.encoder = true)
    (pic : Picture) :
    c.encodeOnce pic =
      (some ⟨idr, true, (pic.width, pic.height)⟩, { c with encoder := false }) := by
  have hout : (intraLib idr).encode c.encoder pic c.world = (some idr, false, c.world) := by
    rw [hpending]
    rfl
  have hlen : idr.length ≥ videoEncoderMinPayloadBytes := Nat.lt_of_le_of_lt (Nat.zero_le _) hlarge
  simp only [Coder.encodeOnce, hout, if_pos hlen, hidr]

theorem encodeOnce_spent (hspent : c.encoder = false) (pic : Picture) :
    c.encodeOnce pic = (some ⟨[0, 0, 1, 0x41], false, (pic.width, pic.height)⟩, c) := by
  have hout : (intraLib idr).encode c.encoder pic c.world =
      (some [0, 0, 1, 0x41], c.encoder, c.world) := by
    rw [hspent]
    rfl
  simp only [Coder.encodeOnce, hout]
  rfl

/-- With new settings, the large picture. -/
theorem encode_new (hidr : h264ContainsIdr idr = true)
    (hlarge : videoTargetMaxPayloadBytes < idr.length) (hw : width ≠ 0) (hh : height ≠ 0)
    (hlast : c.lastEncodeSettings ≠ some ⟨width, height, frameIntervalMs⟩)
    (rgbaRaw : List UInt8) :
    c.encodeFrameWithRetry width height frameIntervalMs rgbaRaw =
      (some ⟨idr, true, (width, height)⟩,
        { c with
          encoder := false, encodeEmptyStreak := 0
          lastEncodeSettings := some ⟨width, height, frameIntervalMs⟩ }) := by
  have hnew : newEncoderForSettings (intraLib idr) ⟨width, height, frameIntervalMs⟩ c.world =
      (some true, c.world) := if_neg (not_or.mpr ⟨hw, hh⟩)
  simp only [Coder.encodeFrameWithRetry, if_pos hlast, Coder.install, hnew, Coder.encodeOrRecover]
  rw [encodeOnce_large hidr hlarge rfl]

/-- With the settings of the last picture, one that is not intra. -/
theorem encode_same (hspent : c.encoder = false)
    (hlast : c.lastEncodeSettings = some ⟨width, height, frameIntervalMs⟩)
    (rgbaRaw : List UInt8) :
    (c.encodeFrameWithRetry width height frameIntervalMs rgbaRaw).1 =
      some ⟨[0, 0, 1, 0x41], false, (width, height)⟩ := by
  simp only [Coder.encodeFrameWithRetry, if_neg (not_not.mpr hlast), Coder.encodeOrRecover]
  rw [encodeOnce_spent hspent]

end Dropped

/-- The sender at an interval, with nothing sent yet. -/
structure Waiting {idr : List UInt8} (i : Nat) (s : FrameSenderState (intraLib idr)) : Prop where
  interval : s.profile.frameIntervalMs = i
  active : s.hadActiveSession = true
  lastSent : s.lastSent = 984000000
  fresh : s.encoderFramesSinceRefresh = 0

namespace Waiting

variable {idr : List UInt8} {i : Nat} {s : FrameSenderState (intraLib idr)} {frame : VideoFrame}

theorem noteSource (h : Waiting i s) (width height : Nat) :
    Waiting i (s.noteSource width height) ∧
      (s.noteSource width height).coder.lastEncodeSettings = s.coder.lastEncodeSettings := by
  unfold FrameSenderState.noteSource
  split <;> exact ⟨⟨h.interval, h.active, h.lastSent, h.fresh⟩, rfl⟩

theorem forced (h : Waiting i s) (pressure : VideoPressureSnapshot) (width height : Nat) :
    Waiting i (s.handleSessionTransitions ⟨false, true, pressure⟩ width height) ∧
      (s.handleSessionTransitions ⟨false, true, pressure⟩ width height).coder.lastEncodeSettings =
        s.coder.lastEncodeSettings := by
  have hdef : s.handleSessionTransitions ⟨false, true, pressure⟩ width height =
      { s with coder := s.coder.forceIntraFrame }.noteSource width height := by
    simp [handleSessionTransitions, h.active]
  have hforced : Waiting i { s with coder := s.coder.forceIntraFrame } :=
    ⟨h.interval, h.active, h.lastSent, h.fresh⟩
  rw [hdef]
  exact hforced.noteSource width height

theorem quiet (h : Waiting i s) (pressure : VideoPressureSnapshot) (width height : Nat) :
    Waiting i (s.handleSessionTransitions ⟨false, false, pressure⟩ width height) ∧
      (s.handleSessionTransitions ⟨false, false, pressure⟩ width height).coder.lastEncodeSettings =
        s.coder.lastEncodeSettings ∧
      (s.handleSessionTransitions ⟨false, false, pressure⟩ width height).coder.encoder =
        s.coder.encoder ∧
      s.events (.transitions ⟨false, false, pressure⟩ width height) = [] := by
  have hdef : s.handleSessionTransitions ⟨false, false, pressure⟩ width height =
      s.noteSource width height := by
    simp [handleSessionTransitions, h.active]
  rw [hdef]
  refine ⟨(h.noteSource width height).1, (h.noteSource width height).2,
    noteSource_encoder s width height, ?_⟩
  simp [events, h.active]

/-- A frame that meets congestion is early, and lengthens the interval. -/
theorem congested (h : Waiting i s) (hmin : 16 ≤ i) (hmax : i ≤ 50) (frame : VideoFrame) :
    ∃ s', s.handleFrame frame ⟨0, 1, 0⟩ 1000000000 = (none, s') ∧
      s.events (.frame frame ⟨0, 1, 0⟩ 1000000000) = [] ∧
      Waiting (min (i + 4) 50) s' ∧ s'.coder.lastEncodeSettings = s.coder.lastEncodeSettings := by
  have hadjust : s.adjustForPressure ⟨0, 1, 0⟩ =
      { s with profile := s.profile.degradeUnlessMin, stableFrames := 0 } := rfl
  have hwaiting : Waiting (min (i + 4) 50) (s.adjustForPressure ⟨0, 1, 0⟩) := by
    refine ⟨?_, h.active, h.lastSent, h.fresh⟩
    rw [hadjust, degradeUnlessMin_interval (h.interval ▸ hmax), h.interval]
    rfl
  have hearly : elapsedMillis (s.adjustForPressure ⟨0, 1, 0⟩).lastSent 1000000000 <
      (s.adjustForPressure ⟨0, 1, 0⟩).frameIntervalMs frame := by
    have hinterval : min (i + 4) 50 ≤ (s.adjustForPressure ⟨0, 1, 0⟩).frameIntervalMs frame :=
      Nat.le_trans (Nat.le_of_eq hwaiting.interval.symm) (Nat.le_max_left _ _)
    have helapsed : elapsedMillis (s.adjustForPressure ⟨0, 1, 0⟩).lastSent 1000000000 = 16 := by
      rw [hwaiting.lastSent]
      decide
    omega
  have hframe : s.handleFrame frame ⟨0, 1, 0⟩ 1000000000 =
      (none, s.adjustForPressure ⟨0, 1, 0⟩) := by
    rw [handleFrame]
    exact if_pos hearly
  have hdrops : (s.adjustForPressure ⟨0, 1, 0⟩).drops frame 1000000000 = false := by
    rw [drops]
    exact decide_eq_false fun hdue => absurd hdue.1 (Nat.not_le_of_lt hearly)
  refine ⟨_, hframe, ?_, hwaiting, rfl⟩
  simp [events, hframe, hdrops]

/-- So do `n` of these. -/
theorem congested_run (hw : 0 < frame.width) (hh : 0 < frame.height) (log : List SenderEvent)
    (n : Nat) : ∀ {i : Nat} {s : FrameSenderState (intraLib idr)}, Waiting i s → 16 ≤ i →
      i ≤ 50 → ∃ s', Run (logged FrameSenderState.step events) (s, log)
          ((List.replicate n (loopActions frame true ⟨false, false, ⟨0, 1, 0⟩⟩ 1000000000)).flatten)
          (s', log) ∧
        Waiting (min (i + 4 * n) 50) s' ∧
        s'.coder.lastEncodeSettings = s.coder.lastEncodeSettings := by
  induction n with
  | zero =>
    intro i s h _ hmax
    rw [Nat.mul_zero, Nat.add_zero, Nat.min_eq_left hmax]
    exact ⟨s, .nil, h, rfl⟩
  | succ n ih =>
    intro i s h hmin hmax
    obtain ⟨hquiet, hlast₁, -, hevents₁⟩ := h.quiet ⟨0, 1, 0⟩ frame.width frame.height
    obtain ⟨s₁, hframe, hevents₂, hwaiting, hlast₂⟩ := hquiet.congested hmin hmax frame
    obtain ⟨s', hrun, hwaiting', hlast'⟩ := ih hwaiting (by omega) (by omega)
    have hcongested : Run (logged FrameSenderState.step events) (s, log)
        (loopActions frame true ⟨false, false, ⟨0, 1, 0⟩⟩ 1000000000) (s₁, log) := by
      rw [loopActions_sessions hw hh]
      exact .cons trivial (logged_some rfl hevents₁)
        (.cons trivial (logged_some (step_frame hframe) hevents₂) .nil)
    have hinterval : min (min (i + 4) 50 + 4 * n) 50 = min (i + 4 * (n + 1)) 50 := by omega
    refine ⟨s', ?_, hinterval ▸ hwaiting', hlast'.trans (hlast₂.trans hlast₁)⟩
    rw [List.replicate_succ, List.flatten_cons]
    exact hcongested.trans hrun

/-- A frame of 16 by 16 pixels is encoded as it is. -/
theorem encodePayload (h : Waiting i s) (hframe : Contiguous frame) (hw : frame.width = 16)
    (hh : frame.height = 16) :
    ∃ rgbaRaw, s.refreshIntra.encodePayload frame =
      ((s.coder.encodeFrameWithRetry 16 16 i rgbaRaw).1,
        { s with coder := (s.coder.encodeFrameWithRetry 16 16 i rgbaRaw).2 }) := by
  have hrefresh : s.refreshIntra = s := by
    unfold refreshIntra
    rw [h.fresh]
    exact if_neg (by decide)
  rw [hrefresh, encodePayload_unscaled rfl, built_contiguous hframe, hw, hh, h.interval]
  exact ⟨_, rfl⟩

theorem frameIntervalMs (h : Waiting 50 s) (hw : frame.width = 16) (hh : frame.height = 16) :
    s.frameIntervalMs frame = 50 := by
  have hscaled : s.scaledSize frame = (16, 16) := by
    show (frame.width, frame.height) = _
    rw [hw, hh]
  rw [FrameSenderState.frameIntervalMs, pacingSize_eq, hscaled, h.interval]
  decide

/-- At the longest interval the large picture is dropped, and the interval stays as it is. -/
theorem drop (hidr : h264ContainsIdr idr = true)
    (hlarge : videoTargetMaxPayloadBytes < idr.length) (h : Waiting 50 s)
    (hlast : s.coder.lastEncodeSettings = none)
    (hframe : Contiguous frame) (hw : frame.width = 16) (hh : frame.height = 16) {now : Nat}
    (hdue : 50 ≤ elapsedMillis s.lastSent now) :
    ∃ s', s.handleFrame frame ⟨0, 0, 0⟩ now = (none, s') ∧ s.drops frame now = true ∧
      Waiting 50 s' ∧ s'.coder.encoder = false ∧
      s'.coder.lastEncodeSettings = some ⟨16, 16, 50⟩ := by
  obtain ⟨rgbaRaw, hencode⟩ := h.encodePayload hframe hw hh
  have hnew : s.coder.lastEncodeSettings ≠ some ⟨16, 16, 50⟩ := by
    rw [hlast]
    nofun
  rw [encode_new hidr hlarge (by decide) (by decide) hnew] at hencode
  have hinterval := h.frameIntervalMs hw hh
  have hway := s.handleFrame_handled frame ⟨0, 0, 0⟩ now
  rw [show s.adjustForPressure ⟨0, 0, 0⟩ = s from rfl] at hway
  generalize s.handleFrame frame ⟨0, 0, 0⟩ now = out at hway ⊢
  cases hway with
  | early hearly => omega
  | unencoded _ hnone =>
    rw [hencode] at hnone
    cases hnone
  | sent payload _ hsome hfits =>
    rw [hencode] at hsome
    obtain rfl := Option.some.inj hsome
    exact absurd hfits (Nat.not_le_of_lt hlarge)
  | dropped payload _ hsome hlarge =>
    have hdrops : s.drops frame now = true := by
      rw [drops, hinterval, hsome]
      simp [hdue, hlarge]
    rw [hencode]
    simp only [checkPayload, if_pos hlarge]
    refine ⟨_, rfl, hdrops, ⟨?_, h.active, h.lastSent, h.fresh⟩, rfl, rfl⟩
    show s.profile.degradeUnlessMin.frameIntervalMs = 50
    rw [degradeUnlessMin_interval (Nat.le_of_eq h.interval), h.interval]
    decide

/-- The next picture is not intra, and is sent. -/
theorem send (h : Waiting 50 s) (hspent : s.coder.encoder = false)
    (hlast : s.coder.lastEncodeSettings = some ⟨16, 16, 50⟩)
    (hframe : Contiguous frame) (hw : frame.width = 16) (hh : frame.height = 16) {now : Nat}
    (hdue : 50 ≤ elapsedMillis s.lastSent now) :
    ∃ b s', s.handleFrame frame ⟨0, 0, 0⟩ now = (some b, s') ∧ b.isKeyframe = false := by
  obtain ⟨rgbaRaw, hencode⟩ := h.encodePayload hframe hw hh
  rw [encode_same hspent hlast] at hencode
  have hpayload := congrArg Prod.fst hencode
  have hinterval := h.frameIntervalMs hw hh
  obtain ⟨b, s', hsent, hkey, -⟩ := quiet_sent (by rwa [hinterval]) hpayload (by decide)
  exact ⟨b, s', hsent, hkey⟩

end Waiting

/-- An intra picture beyond the limit. -/
def largeIdr : List UInt8 := 0 :: 0 :: 1 :: 0x65 :: List.replicate videoTargetMaxPayloadBytes 0

theorem largeIdr_length : videoTargetMaxPayloadBytes < largeIdr.length := by
  have hlength (n : Nat) : n < (0 :: 0 :: 1 :: 0x65 :: List.replicate n (0 : UInt8)).length := by
    simp only [List.length_cons, List.length_replicate]
    omega
  exact hlength _

/-- Nine frames meet congestion before the first is sent; a frame with a request for a keyframe is
then dropped, and the next is sent and is no keyframe. -/
theorem request_dropped :
    (intraLib largeIdr).Lawful (fun e => e = true) ∧
    ∃ s₀ s b,
      FrameSenderState.new (intraLib largeIdr) () 1000000000 = some s₀ ∧
      Run (logged FrameSenderState.step events) (s₀, [])
        ((List.replicate 9
            (loopActions (blackFrame 16 16) true ⟨false, false, ⟨0, 1, 0⟩⟩ 1000000000)).flatten ++
          (loopActions (blackFrame 16 16) true ⟨false, true, ⟨0, 0, 0⟩⟩ 1050000000 ++
            loopActions (blackFrame 16 16) true ⟨false, false, ⟨0, 0, 0⟩⟩ 1116000000))
        (s, [.broadcast b, .dropped, .requested, .renewed]) ∧
      b.isKeyframe = false := by
  refine ⟨intraLib_lawful (h264ContainsIdr_idr _), ?_⟩
  have hframe : Contiguous (blackFrame 16 16) :=
    blackFrame_contiguous (by decide) (by decide) (by decide)
  have hstart : ∃ s,
      Run (logged FrameSenderState.step events)
        ((FrameSenderState.new (intraLib largeIdr) () 1000000000).get rfl, [])
        (loopActions (blackFrame 16 16) true ⟨false, false, ⟨0, 1, 0⟩⟩ 1000000000) s ∧
      s.2 = [.renewed] ∧ s.1.profile.frameIntervalMs = 20 ∧ s.1.hadActiveSession = true ∧
      s.1.lastSent = 984000000 ∧ s.1.encoderFramesSinceRefresh = 0 ∧
      s.1.coder.lastEncodeSettings = none :=
    execWhen_any (by decide +kernel)
  obtain ⟨⟨s₁, log⟩, hrun₁, rfl, hinterval, hactive, hlast, hfresh, hnone₁⟩ := hstart
  have hwaiting₁ : Waiting 20 s₁ := ⟨hinterval, hactive, hlast, hfresh⟩
  obtain ⟨s₂, hrun₂, hwaiting₂, hnone₂⟩ :=
    Waiting.congested_run hframe.width hframe.height [.renewed] 8 hwaiting₁ (by decide) (by decide)
  -- the frame with the request
  obtain ⟨hforced, hlast₂⟩ := hwaiting₂.forced ⟨0, 0, 0⟩ 16 16
  have hdue₃ : 50 ≤ elapsedMillis
      (s₂.handleSessionTransitions ⟨false, true, ⟨0, 0, 0⟩⟩ 16 16).lastSent 1050000000 := by
    rw [hforced.lastSent]
    decide
  obtain ⟨s₃, hframe₃, hdrops, hwaiting₃, hspent, hlast₃⟩ :=
    hforced.drop (h264ContainsIdr_idr _) largeIdr_length (hlast₂.trans (hnone₂.trans hnone₁)) hframe
      rfl rfl hdue₃
  have hstep₃ : logged FrameSenderState.step events
      (s₂.handleSessionTransitions ⟨false, true, ⟨0, 0, 0⟩⟩ 16 16, [.requested, .renewed])
      (.frame (blackFrame 16 16) ⟨0, 0, 0⟩ 1050000000) =
        some (s₃, [.dropped, .requested, .renewed]) :=
    logged_some (step_frame hframe₃) (events_dropped hframe₃ hdrops)
  -- the frame after it
  obtain ⟨hquiet, hlast₄, hencoder, hevents₄⟩ := hwaiting₃.quiet ⟨0, 0, 0⟩ 16 16
  have hdue₄ : 50 ≤ elapsedMillis
      (s₃.handleSessionTransitions ⟨false, false, ⟨0, 0, 0⟩⟩ 16 16).lastSent 1116000000 := by
    rw [hquiet.lastSent]
    decide
  obtain ⟨b, s₄, hframe₄, hkeyframe⟩ :=
    hquiet.send (hencoder.trans hspent) (hlast₄.trans hlast₃) hframe rfl rfl hdue₄
  have hstep₄ : logged FrameSenderState.step events
      (s₃.handleSessionTransitions ⟨false, false, ⟨0, 0, 0⟩⟩ 16 16,
        [.dropped, .requested, .renewed])
      (.frame (blackFrame 16 16) ⟨0, 0, 0⟩ 1116000000) =
        some (s₄, [.broadcast b, .dropped, .requested, .renewed]) :=
    logged_some (step_frame hframe₄) (events_broadcast hframe₄)
  refine ⟨_, s₄, b, (Option.some_get _).symm, (hrun₁.trans hrun₂).trans ?_, hkeyframe⟩
  rw [loopActions_sessions hframe.width hframe.height,
    loopActions_sessions hframe.width hframe.height]
  exact .cons trivial rfl (.cons trivial hstep₃
    (.cons trivial (logged_some rfl hevents₄) (.cons trivial hstep₄ .nil)))

end CloudGame.Worker
