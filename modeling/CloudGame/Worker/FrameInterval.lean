import CloudGame.Worker.VideoSender

/-!
# The shortest interval between pictures (`arcade-worker/src/video_sender.rs`)

`h264_min_frame_interval_ms` rounds twice, once down to whole pictures a second and once up to whole
milliseconds.  Main results: on every pair of 32-bit sizes none of its operations overflows or
divides by zero (`checkedH264MinFrameIntervalMs_eq`), the interval never shrinks when a side grows
(`h264MinFrameIntervalMs_mono`), and together with `macroblocks_le_interval` they are
`h264MinFrameIntervalMs_bounds`.
-/

namespace CloudGame.Worker

open CloudGame.Lib

/-- `h264_min_frame_interval_ms` with every operator checked, the rounded-up divisions in `u32` and
the rest in `u64`. -/
def checkedH264MinFrameIntervalMs (width height : Nat) : Option Nat :=
  if width = 0 ∨ height = 0 then some videoFrameIntervalMsMin
  else do
    let macroblocksPerFrame ←
      checkedMul (← checkedDivCeil32 width 16) (← checkedDivCeil32 height 16)
    let maxFps := max (← checkedDiv h264Level31MbsPerSec (max macroblocksPerFrame 1)) 1
    let intervalMs ← checkedDiv (← checkedSub (← checkedAdd 1000 maxFps) 1) maxFps
    some (max intervalMs videoFrameIntervalMsMin)

/-- The pictures a second the level leaves for a picture of `macroblocks` macroblocks. -/
def levelFps (macroblocks : Nat) : Nat := max (h264Level31MbsPerSec / max macroblocks 1) 1

theorem levelFps_pos (macroblocks : Nat) : 0 < levelFps macroblocks := Nat.le_max_right _ 1

theorem levelFps_le (macroblocks : Nat) : levelFps macroblocks ≤ h264Level31MbsPerSec :=
  Nat.max_le.mpr ⟨Nat.div_le_self _ _, by decide⟩

theorem levelFps_anti {m m' : Nat} (h : m ≤ m') : levelFps m' ≤ levelFps m := by
  have hmax : max m 1 ≤ max m' 1 := by omega
  have hdiv : h264Level31MbsPerSec / max m' 1 ≤ h264Level31MbsPerSec / max m 1 :=
    Nat.div_le_div_left hmax (by omega)
  unfold levelFps
  omega

theorem h264MinFrameIntervalMs_eq (width height : Nat) :
    h264MinFrameIntervalMs width height =
      if width = 0 ∨ height = 0 then videoFrameIntervalMsMin
      else max (divCeil 1000 (levelFps (macroblocks width height))) videoFrameIntervalMsMin :=
  rfl

theorem videoFrameIntervalMsMin_le (width height : Nat) :
    videoFrameIntervalMsMin ≤ h264MinFrameIntervalMs width height := by
  rw [h264MinFrameIntervalMs_eq]
  split
  · exact Nat.le_refl _
  · exact Nat.le_max_right _ _

theorem h264MinFrameIntervalMs_le (width height : Nat) :
    h264MinFrameIntervalMs width height ≤ 1000 := by
  rw [h264MinFrameIntervalMs_eq]
  split
  · decide
  · exact Nat.max_le.mpr ⟨divCeil_le 1000 (levelFps_pos _), by decide⟩

theorem macroblocks_mono {width width' height height' : Nat} (hw : width ≤ width')
    (hh : height ≤ height') : macroblocks width height ≤ macroblocks width' height' :=
  Nat.mul_le_mul (divCeil_mono 16 hw) (divCeil_mono 16 hh)

/-- **A larger picture waits no less.**  Rounding the rate down and the interval up both keep the
order. -/
theorem h264MinFrameIntervalMs_mono {width width' height height' : Nat} (hw : width ≤ width')
    (hh : height ≤ height') :
    h264MinFrameIntervalMs width height ≤ h264MinFrameIntervalMs width' height' := by
  rcases Decidable.em (width = 0 ∨ height = 0) with hempty | hsize
  · rw [h264MinFrameIntervalMs_eq width height, if_pos hempty]
    exact videoFrameIntervalMsMin_le width' height'
  · have hsize' : ¬(width' = 0 ∨ height' = 0) := by omega
    have hfps := levelFps_anti (macroblocks_mono hw hh)
    have hinterval := divCeil_anti 1000 (levelFps_pos (macroblocks width' height')) hfps
    rw [h264MinFrameIntervalMs_eq, h264MinFrameIntervalMs_eq, if_neg hsize, if_neg hsize']
    omega

/-! ## No operation fails -/

theorem macroblocks_lt {width height : Nat} (hw : width < 2 ^ 32) (hh : height < 2 ^ 32) :
    macroblocks width height < 2 ^ 64 := by
  have hcols : divCeil width 16 < 2 ^ 32 :=
    Nat.lt_of_le_of_lt (divCeil_le width (by decide)) hw
  have hrows : divCeil height 16 < 2 ^ 32 :=
    Nat.lt_of_le_of_lt (divCeil_le height (by decide)) hh
  calc macroblocks width height
      < 2 ^ 32 * 2 ^ 32 := Nat.mul_lt_mul'' hcols hrows
    _ = 2 ^ 64 := (Nat.pow_add 2 32 32).symm

/-- **Every operation of the interval is within its type**, for all sizes of 32 bits. -/
theorem checkedH264MinFrameIntervalMs_eq {width height : Nat} (hw : width < 2 ^ 32)
    (hh : height < 2 ^ 32) :
    checkedH264MinFrameIntervalMs width height = some (h264MinFrameIntervalMs width height) := by
  rw [h264MinFrameIntervalMs_eq, checkedH264MinFrameIntervalMs]
  split
  · rfl
  have hproduct : divCeil width 16 * divCeil height 16 < 2 ^ 64 := macroblocks_lt hw hh
  have hfps := levelFps_pos (macroblocks width height)
  have hsum : 1000 + levelFps (macroblocks width height) < 2 ^ 64 := by
    have hle := levelFps_le (macroblocks width height)
    unfold h264Level31MbsPerSec at hle
    omega
  have hrate : 0 < max (macroblocks width height) 1 := by omega
  simp only [checkedDivCeil32_eq_some hw (by decide : 0 < 16),
    checkedDivCeil32_eq_some hh (by decide : 0 < 16), checkedMul_eq_some hproduct,
    Option.bind_eq_bind, Option.bind_some]
  change (checkedDiv h264Level31MbsPerSec (max (macroblocks width height) 1)).bind _ = _
  rw [checkedDiv_eq_some hrate, Option.bind_some]
  change (checkedAdd 1000 (levelFps (macroblocks width height))).bind _ = _
  rw [checkedAdd_eq_some hsum, Option.bind_some, checkedSub_eq_some (by omega), Option.bind_some]
  change (checkedDiv _ (levelFps (macroblocks width height))).bind _ = _
  rw [checkedDiv_eq_some hfps]
  rfl

/-- **The interval of the level.**  For all sizes of 32 bits no operation overflows or divides by
zero, the interval is at least the shortest one and grows with either side, and at that interval the
macroblocks of a picture within the level stay within its macroblocks a second. -/
theorem h264MinFrameIntervalMs_bounds (width height : UInt32) :
    checkedH264MinFrameIntervalMs width.toNat height.toNat =
        some (h264MinFrameIntervalMs width.toNat height.toNat) ∧
      h264MinFrameIntervalMs width.toNat height.toNat < 2 ^ 64 ∧
      16 ≤ h264MinFrameIntervalMs width.toNat height.toNat ∧
      (∀ width' height' : UInt32, width ≤ width' → height ≤ height' →
        h264MinFrameIntervalMs width.toNat height.toNat ≤
          h264MinFrameIntervalMs width'.toNat height'.toNat) ∧
      (0 < width → 0 < height → macroblocks width.toNat height.toNat ≤ 108000 →
        macroblocks width.toNat height.toNat * 1000 ≤
          108000 * h264MinFrameIntervalMs width.toNat height.toNat) := by
  have hshort := h264MinFrameIntervalMs_le width.toNat height.toNat
  refine ⟨checkedH264MinFrameIntervalMs_eq width.toNat_lt height.toNat_lt, by omega,
    videoFrameIntervalMsMin_le _ _, ?_, ?_⟩
  · intro width' height' hw hh
    exact h264MinFrameIntervalMs_mono (UInt32.le_iff_toNat_le.mp hw) (UInt32.le_iff_toNat_le.mp hh)
  · intro _ _ hlevel
    exact macroblocks_le_interval hlevel

end CloudGame.Worker
