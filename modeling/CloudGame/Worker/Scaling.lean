import CloudGame.Worker.PixelRows

/-!
# Every pixel of a scaled picture (`scale_rgba_nearest`)

`InRange` says of one pixel that no saturating operation saturates and no range check fails;
`inRange` proves it from the sizes.  With it the loops are followed row by row (`RowsScaled`) and
pixel by pixel (`PixelsScaled`).

* `scale_nearest`: scaling succeeds exactly on sizes that are not zero and a source that is long
  enough, and then every pixel is the nearest one of the source.
-/

namespace CloudGame.Worker

open CloudGame.Lib

/-- Where the source pixel for column `x` and row `y` begins. -/
def nearestBase (srcW srcH dstW dstH x y : Nat) : Nat :=
  (y * srcH / dstH * srcW + x * srcW / dstW) * 4

/-- The sizes can be computed with. -/
structure SizesFit (srcW srcH dstW dstH : Nat) : Prop where
  src : srcW * 4 * srcH < 2 ^ 64
  dst : dstW * 4 * dstH < 2 ^ 64
  columns : ∀ x < dstW, x * srcW < 2 ^ 64
  rows : ∀ y < dstH, y * srcH < 2 ^ 64

/-- What there is to scale, and the size to scale it to. -/
structure Scalable (src : List UInt8) (srcW srcH dstW dstH : Nat) : Prop where
  srcWidth : srcW ≠ 0
  srcHeight : srcH ≠ 0
  dstWidth : dstW ≠ 0
  dstHeight : dstH ≠ 0
  length : srcW * 4 * srcH ≤ src.length

/-- Of the pixel of column `x` and row `y`, nothing saturates and nothing is out of range. -/
structure InRange (src : List UInt8) (srcW srcH dstW dstH x y : Nat) : Prop where
  srcY : saturatingMul y srcH = y * srcH
  srcRowStart : saturatingMul (y * srcH / dstH) (srcW * 4) = y * srcH / dstH * (srcW * 4)
  srcRowEnd : saturatingAdd (y * srcH / dstH * (srcW * 4)) (srcW * 4) =
    y * srcH / dstH * (srcW * 4) + srcW * 4
  srcRow : y * srcH / dstH * (srcW * 4) + srcW * 4 ≤ src.length
  dstRowStart : saturatingMul y (dstW * 4) = y * (dstW * 4)
  dstRowEnd : saturatingAdd (y * (dstW * 4)) (dstW * 4) = y * (dstW * 4) + dstW * 4
  dstRow : y * (dstW * 4) + dstW * 4 ≤ dstW * 4 * dstH
  srcX : saturatingMul x srcW = x * srcW
  srcBase : saturatingMul (x * srcW / dstW) 4 = x * srcW / dstW * 4
  srcEnd : saturatingAdd (x * srcW / dstW * 4) 4 = x * srcW / dstW * 4 + 4
  srcPixel : x * srcW / dstW * 4 + 4 ≤ srcW * 4
  dstBase : saturatingMul x 4 = x * 4
  dstEnd : saturatingAdd (x * 4) 4 = x * 4 + 4
  dstPixel : x * 4 + 4 ≤ dstW * 4

section Scaling

variable {src : List UInt8} {srcW srcH dstW dstH : Nat}

/-- The `i`-th of `n` places lies, scaled, among the `m` there are. -/
theorem scaled_lt {i m n : Nat} (hi : i < n) (hm : m ≠ 0) : i * m / n < m :=
  Nat.div_lt_of_lt_mul ((Nat.mul_lt_mul_right (Nat.pos_of_ne_zero hm)).mpr hi)

/-- Row `i` of `n` ends within them. -/
theorem row_end_le (stride : Nat) {i n : Nat} (hi : i < n) : i * stride + stride ≤ stride * n := by
  rw [← Nat.succ_mul, Nat.mul_comm stride]
  exact Nat.mul_le_mul_right _ hi

theorem inRange (hfit : SizesFit srcW srcH dstW dstH) (h : Scalable src srcW srcH dstW dstH)
    {x y : Nat} (hx : x < dstW) (hy : y < dstH) : InRange src srcW srcH dstW dstH x y := by
  have hsrcRow := row_end_le (srcW * 4) (scaled_lt hy h.srcHeight)
  have hdstRow := row_end_le (dstW * 4) hy
  have hsrcPixel := row_end_le 4 (scaled_lt hx h.srcWidth)
  have hdstPixel := row_end_le 4 hx
  have hsrcStride : srcW * 4 ≤ srcW * 4 * srcH :=
    Nat.le_mul_of_pos_right _ (Nat.pos_of_ne_zero h.srcHeight)
  have hdstStride : dstW * 4 ≤ dstW * 4 * dstH :=
    Nat.le_mul_of_pos_right _ (Nat.pos_of_ne_zero h.dstHeight)
  have hsrc := hfit.src
  have hdst := hfit.dst
  have hlength := h.length
  exact
    { srcY := saturatingMul_eq (hfit.rows y hy)
      srcRowStart := saturatingMul_eq (by omega)
      srcRowEnd := saturatingAdd_eq (by omega)
      srcRow := by omega
      dstRowStart := saturatingMul_eq (by omega)
      dstRowEnd := saturatingAdd_eq (by omega)
      dstRow := hdstRow
      srcX := saturatingMul_eq (hfit.columns x hx)
      srcBase := saturatingMul_eq (by omega)
      srcEnd := saturatingAdd_eq (by omega)
      srcPixel := by omega
      dstBase := saturatingMul_eq (by omega)
      dstEnd := saturatingAdd_eq (by omega)
      dstPixel := by omega }

/-! ## One pixel -/

/-- The first `n` of the bytes are copied to `base`, and nothing else has changed. -/
structure Copied (buf : List UInt8) (base : Nat) (bytes : List UInt8) (n : Nat)
    (out : List UInt8) : Prop where
  length : out.length = buf.length
  copied : ∀ k < n, out[base + k]? = bytes[k]?
  kept : ∀ i, i < base ∨ base + n ≤ i → out[i]? = buf[i]?

theorem copyBytes_wp {buf bytes : List UInt8} {base : Nat} {err : Stop → List UInt8 → Prop}
    (hbytes : bytes.length = 4) (hfit : base + 4 ≤ buf.length) :
    Wp ((List.range 4).forM fun k => do
        let b ← Draw.read bytes k
        Draw.write (base + k) b)
      (fun _ => Copied buf base bytes 4) err buf := by
  have h0 : Copied buf base bytes 0 buf := ⟨rfl, fun k hk => absurd hk (Nat.not_lt_zero k),
    fun _ _ => rfl⟩
  refine wp_forM_range h0 fun k out hk h => ?_
  have hread : bytes[k]? = some bytes[k] := List.getElem?_eq_getElem (by omega)
  have hlt : base + k < out.length := by rw [h.length]; omega
  refine wp_bind (wp_read hread (wp_write hlt ⟨?_, fun j hj => ?_, fun i hi => ?_⟩))
  · rw [List.length_set, h.length]
  · rcases Nat.lt_succ_iff_lt_or_eq.mp hj with hlt' | rfl
    · rw [List.getElem?_set_ne (by omega)]
      exact h.copied j hlt'
    · rw [List.getElem?_set_self hlt, hread]
  · rw [List.getElem?_set_ne (by omega)]
    exact h.kept i (by omega)

/-! ## Rows of pixels -/

/-- The four bytes at `base'` are those of the source at `base`. -/
def SamePixel (src : List UInt8) (base : Nat) (out : List UInt8) (base' : Nat) : Prop :=
  ∀ k < 4, out[base' + k]? = src[base + k]?

/-- Where the destination pixel of column `x` and row `y` begins. -/
def scaledBase (dstW x y : Nat) : Nat := (y * dstW + x) * 4

/-- After `n` rows. -/
structure RowsScaled (src : List UInt8) (srcW srcH dstW dstH n : Nat) (out : List UInt8) :
    Prop where
  length : out.length = dstW * 4 * dstH
  shown : ∀ y < n, ∀ x < dstW,
    SamePixel src (nearestBase srcW srcH dstW dstH x y) out (scaledBase dstW x y)

/-- After `y` rows and `n` pixels of the next. -/
structure PixelsScaled (src : List UInt8) (srcW srcH dstW dstH y n : Nat) (out : List UInt8) :
    Prop where
  rows : RowsScaled src srcW srcH dstW dstH y out
  shown : ∀ x < n, SamePixel src (nearestBase srcW srcH dstW dstH x y) out (scaledBase dstW x y)

theorem scaledBase_eq (x y : Nat) : scaledBase dstW x y = y * (dstW * 4) + x * 4 := by
  rw [scaledBase, Nat.add_mul, Nat.mul_assoc]

theorem nearestBase_eq (x y : Nat) : nearestBase srcW srcH dstW dstH x y =
    y * srcH / dstH * (srcW * 4) + x * srcW / dstW * 4 := by
  rw [nearestBase, Nat.add_mul, Nat.mul_assoc]

theorem scaledBase_lt {x x' y : Nat} (hx : x' < x) :
    scaledBase dstW x' y + 4 ≤ scaledBase dstW x y := by
  unfold scaledBase
  omega

/-- Pixels of earlier rows come before. -/
theorem scaledBase_lt_of_row {x x' y y' : Nat} (hx' : x' < dstW) (hy : y' < y) :
    scaledBase dstW x' y' + 4 ≤ scaledBase dstW x y := by
  have hrow : y' * dstW + x' + 1 ≤ (y' + 1) * dstW := by
    rw [Nat.succ_mul]
    omega
  have hrows : (y' + 1) * dstW ≤ y * dstW := Nat.mul_le_mul_right _ hy
  unfold scaledBase
  omega

/-- A pixel more of the row, when the bytes copied are those of the nearest one. -/
theorem PixelsScaled.copied {x y : Nat} {buf out bytes : List UInt8}
    (h : PixelsScaled src srcW srcH dstW dstH y x buf)
    (hbytes : ∀ k < 4, bytes[k]? = src[nearestBase srcW srcH dstW dstH x y + k]?)
    (hcopied : Copied buf (scaledBase dstW x y) bytes 4 out) :
    PixelsScaled src srcW srcH dstW dstH y (x + 1) out := by
  refine ⟨⟨hcopied.length.trans h.rows.length, fun y' hy' x' hx' k hk => ?_⟩,
    fun x' hx' k hk => ?_⟩
  · have hbefore := scaledBase_lt_of_row (x := x) hx' hy'
    rw [hcopied.kept _ (by omega)]
    exact h.rows.shown y' hy' x' hx' k hk
  · rcases Nat.lt_succ_iff_lt_or_eq.mp hx' with hlt | rfl
    · have hbefore : scaledBase dstW x' y + 4 ≤ scaledBase dstW x y := scaledBase_lt hlt
      rw [hcopied.kept _ (by omega)]
      exact h.shown x' hlt k hk
    · rw [hcopied.copied k hk, hbytes k hk]

section Loops

variable {err : Stop → List UInt8 → Prop} {buf : List UInt8} {x y : Nat}

/-- One pixel more. -/
theorem scalePixel_wp (hin : InRange src srcW srcH dstW dstH x y)
    (h : PixelsScaled src srcW srcH dstW dstH y x buf) :
    Wp (scalePixel ((src.drop (y * srcH / dstH * (srcW * 4))).take (srcW * 4)) srcW dstW
        (y * (dstW * 4)) (dstW * 4) x)
      (fun _ => PixelsScaled src srcW srcH dstW dstH y (x + 1)) err buf := by
  have hsrcRow := hin.srcRow
  have hsrcPixel := hin.srcPixel
  have hdstRow := hin.dstRow
  have hdstPixel := hin.dstPixel
  have hlen : ((src.drop (y * srcH / dstH * (srcW * 4))).take (srcW * 4)).length = srcW * 4 := by
    rw [List.length_take, List.length_drop]
    omega
  have hbase : scaledBase dstW x y = y * (dstW * 4) + x * 4 := scaledBase_eq x y
  unfold scalePixel
  simp only [hin.srcX, hin.srcBase, hin.srcEnd, hin.dstBase, hin.dstEnd, hlen]
  rw [if_neg (by omega)]
  refine wp_bind (wp_slice (Nat.le_add_right _ 4) (by rw [hlen]; omega) ?_)
  rw [Nat.add_sub_cancel_left, ← hbase]
  have hpixel : ((((src.drop (y * srcH / dstH * (srcW * 4))).take (srcW * 4)).drop
      (x * srcW / dstW * 4)).take 4).length = 4 := by
    rw [List.length_take, List.length_drop, hlen]
    omega
  refine (copyBytes_wp hpixel (by rw [h.rows.length]; omega)).mono ?_
  rintro _ out hout
  refine h.copied (fun k hk => ?_) hout
  rw [List.getElem?_take_of_lt hk, List.getElem?_drop, List.getElem?_take_of_lt (by omega),
    List.getElem?_drop, nearestBase_eq, Nat.add_assoc]

/-- One row more. -/
theorem scaleRow_wp (hfit : SizesFit srcW srcH dstW dstH)
    (hscalable : Scalable src srcW srcH dstW dstH) (hy : y < dstH)
    (h : RowsScaled src srcW srcH dstW dstH y buf) :
    Wp (scaleRow src srcW srcH dstW dstH (srcW * 4) (dstW * 4) y)
      (fun _ => RowsScaled src srcW srcH dstW dstH (y + 1)) err buf := by
  have hin : ∀ x < dstW, InRange src srcW srcH dstW dstH x y :=
    fun x hx => inRange hfit hscalable hx hy
  have hfirst := hin 0 (Nat.pos_of_ne_zero hscalable.dstWidth)
  have hsrcRow := hfirst.srcRow
  have hdstRow := hfirst.dstRow
  unfold scaleRow
  simp only [hfirst.srcY, hfirst.srcRowStart, hfirst.srcRowEnd, hfirst.dstRowStart,
    hfirst.dstRowEnd]
  rw [if_neg (by omega)]
  refine wp_bind (wp_slice (Nat.le_add_right _ _) hsrcRow (wp_bind (wp_get ?_)))
  rw [Nat.add_sub_cancel_left, Nat.add_sub_cancel_left, if_neg (by rw [h.length]; omega)]
  have h0 : PixelsScaled src srcW srcH dstW dstH y 0 buf :=
    ⟨h, fun x hx => absurd hx (Nat.not_lt_zero x)⟩
  refine (wp_forM_range h0 fun x out hx hout => scalePixel_wp (hin x hx) hout).mono ?_
  rintro _ out hout
  refine ⟨hout.rows.length, fun y' hy' x hx => ?_⟩
  rcases Nat.lt_succ_iff_lt_or_eq.mp hy' with hlt | rfl
  · exact hout.rows.shown y' hlt x hx
  · exact hout.shown x hx

theorem scale_wp (hfit : SizesFit srcW srcH dstW dstH) :
    Wp (scaleRgbaNearest src srcW srcH dstW dstH)
      (fun _ out => Scalable src srcW srcH dstW dstH ∧
        RowsScaled src srcW srcH dstW dstH dstH out)
      (fun stop _ => stop = .none ∧ ¬ Scalable src srcW srcH dstW dstH) buf := by
  unfold scaleRgbaNearest
  by_cases hzero : srcW = 0 ∨ srcH = 0 ∨ dstW = 0 ∨ dstH = 0
  · rw [if_pos hzero]
    refine wp_throw ⟨rfl, fun h => ?_⟩
    rcases hzero with hzero | hzero | hzero | hzero
    · exact h.srcWidth hzero
    · exact h.srcHeight hzero
    · exact h.dstWidth hzero
    · exact h.dstHeight hzero
  · rw [if_neg hzero]
    push Not at hzero
    obtain ⟨hsrcW, hsrcH, hdstW, hdstH⟩ := hzero
    have hsrcStride : srcW * 4 ≤ srcW * 4 * srcH :=
      Nat.le_mul_of_pos_right _ (Nat.pos_of_ne_zero hsrcH)
    have hdstStride : dstW * 4 ≤ dstW * 4 * dstH :=
      Nat.le_mul_of_pos_right _ (Nat.pos_of_ne_zero hdstH)
    have hsrc := hfit.src
    have hdst := hfit.dst
    rw [checkedMul_eq_some (by omega), Draw.orNone_some_bind, checkedMul_eq_some hsrc,
      Draw.orNone_some_bind]
    by_cases hshort : src.length < srcW * 4 * srcH
    · rw [if_pos hshort]
      exact wp_throw ⟨rfl, fun h => Nat.not_lt.mpr h.length hshort⟩
    · have hscalable : Scalable src srcW srcH dstW dstH :=
        ⟨hsrcW, hsrcH, hdstW, hdstH, Nat.le_of_not_lt hshort⟩
      rw [if_neg hshort, checkedMul_eq_some (by omega), Draw.orNone_some_bind,
        checkedMul_eq_some hdst, Draw.orNone_some_bind]
      have h0 : RowsScaled src srcW srcH dstW dstH 0 (buf.take (dstW * 4 * dstH) ++
          List.replicate (dstW * 4 * dstH - buf.length) 0) := by
        refine ⟨?_, fun y hy => absurd hy (Nat.not_lt_zero y)⟩
        rw [List.length_append, List.length_take, List.length_replicate]
        omega
      refine wp_bind (wp_modify ?_)
      refine (wp_forM_range h0 fun y out hy hout => scaleRow_wp hfit hscalable hy hout).mono ?_
      rintro _ out hout
      exact ⟨hscalable, hout⟩

end Loops

/-! ## The result -/

/-- Every byte of the destination belongs to a pixel. -/
theorem exists_scaledBase {i : Nat} (hi : i < dstW * 4 * dstH) :
    ∃ x < dstW, ∃ y < dstH, ∃ k < 4, i = scaledBase dstW x y + k := by
  have hp : i / 4 < dstW * dstH := by
    rw [Nat.mul_right_comm] at hi
    omega
  have hw : 0 < dstW := Nat.pos_of_ne_zero fun h0 => by
    rw [h0, Nat.zero_mul] at hp
    exact Nat.not_lt_zero _ hp
  refine ⟨i / 4 % dstW, Nat.mod_lt _ hw, i / 4 / dstW, Nat.div_lt_of_lt_mul hp, i % 4,
    Nat.mod_lt i (by decide), ?_⟩
  rw [scaledBase, Nat.div_add_mod', Nat.div_add_mod']

/-- A picture of the same size is a copy. -/
theorem RowsScaled.copy {out : List UInt8} (hscalable : Scalable src srcW srcH srcW srcH)
    (h : RowsScaled src srcW srcH srcW srcH srcH out) : out = src.take (srcW * 4 * srcH) := by
  refine List.ext_getElem? fun i => ?_
  by_cases hi : i < srcW * 4 * srcH
  · obtain ⟨x, hx, y, hy, k, hk, rfl⟩ := exists_scaledBase hi
    have hbase : nearestBase srcW srcH srcW srcH x y = scaledBase srcW x y := by
      rw [nearestBase, Nat.mul_div_cancel _ (Nat.pos_of_ne_zero hscalable.srcHeight),
        Nat.mul_div_cancel _ (Nat.pos_of_ne_zero hscalable.srcWidth), scaledBase]
    rw [h.shown y hy x hx k hk, hbase, List.getElem?_take_of_lt hi]
  · rw [List.getElem?_eq_none (by rw [h.length]; omega),
      List.getElem?_eq_none (by rw [List.length_take]; omega)]

/-- Scaling shows every row, or stops where there is nothing to scale or not enough of it. -/
theorem scale_cases (hfit : SizesFit srcW srcH dstW dstH) (buf : List UInt8) :
    (∃ out, (scaleRgbaNearest src srcW srcH dstW dstH).on buf = (.ok (), out) ∧
      Scalable src srcW srcH dstW dstH ∧ RowsScaled src srcW srcH dstW dstH dstH out) ∨
    ∃ out, (scaleRgbaNearest src srcW srcH dstW dstH).on buf = (.error .none, out) ∧
      ¬ Scalable src srcW srcH dstW dstH := by
  have hscale : Wp (scaleRgbaNearest src srcW srcH dstW dstH) _ _ buf := scale_wp hfit
  unfold Wp at hscale
  unfold Draw.on
  rcases hrun : Id.run (StateT.run (ExceptT.run (scaleRgbaNearest src srcW srcH dstW dstH)) buf)
    with ⟨e | _, out⟩
  · rw [hrun] at hscale
    obtain ⟨rfl, hnot⟩ := hscale
    exact .inr ⟨out, rfl, hnot⟩
  · rw [hrun] at hscale
    exact .inl ⟨out, rfl, hscale⟩

theorem scale_ok (hfit : SizesFit srcW srcH dstW dstH)
    (hscalable : Scalable src srcW srcH dstW dstH) (buf : List UInt8) :
    ∃ out, (scaleRgbaNearest src srcW srcH dstW dstH).on buf = (.ok (), out) := by
  rcases scale_cases hfit buf with ⟨out, hrun, -⟩ | ⟨out, -, hnot⟩
  · exact ⟨out, hrun⟩
  · exact absurd hscalable hnot

/-- **Nearest-neighbour scaling.**  Whatever the buffer holds, scaling indexes nothing out of range
and succeeds exactly if no size is zero and the source is long enough.  Then nothing saturates, no
range check fails, the buffer has the size of the destination and shows the nearest source pixel
everywhere; at the size of the source it is a copy. -/
theorem scale_nearest (hfit : SizesFit srcW srcH dstW dstH) (buf : List UInt8) :
    ((scaleRgbaNearest src srcW srcH dstW dstH).on buf).1 ≠ .error .panic ∧
      (((scaleRgbaNearest src srcW srcH dstW dstH).on buf).1 = .ok () ↔
        Scalable src srcW srcH dstW dstH) ∧
      ∀ out, (scaleRgbaNearest src srcW srcH dstW dstH).on buf = (.ok (), out) →
        out.length = 4 * dstW * dstH ∧
        (∀ x < dstW, ∀ y < dstH, InRange src srcW srcH dstW dstH x y ∧ ∀ k < 4,
          out[(y * dstW + x) * 4 + k]? =
            src[(y * srcH / dstH * srcW + x * srcW / dstW) * 4 + k]?) ∧
        (srcW = dstW → srcH = dstH → out = src.take (4 * srcW * srcH)) := by
  rcases scale_cases hfit buf with ⟨out, hrun, hscalable, hrows⟩ | ⟨out, hrun, hnot⟩
  · rw [hrun]
    refine ⟨nofun, ⟨fun _ => hscalable, fun _ => rfl⟩, ?_⟩
    rintro out ⟨⟩
    refine ⟨?_, fun x hx y hy => ⟨inRange hfit hscalable hx hy, hrows.shown y hy x hx⟩, ?_⟩
    · rw [hrows.length, Nat.mul_comm dstW]
    · rintro rfl rfl
      rw [hrows.copy hscalable, Nat.mul_comm srcW]
  · rw [hrun]
    exact ⟨nofun, ⟨nofun, fun h => absurd h hnot⟩, nofun⟩

/-- A picture of two pixels, scaled to three rows of one. -/
theorem scale_nearest_two :
    ((scaleRgbaNearest [1, 2, 3, 4, 5, 6, 7, 8] 1 2 1 3).on [9]).1 = .ok () ∧
    ∀ out, (scaleRgbaNearest [1, 2, 3, 4, 5, 6, 7, 8] 1 2 1 3).on [9] = (.ok (), out) →
      out[8]? = some 5 := by
  have hfit : SizesFit 1 2 1 3 :=
    ⟨by decide, by decide, fun x hx => by omega, fun y hy => by omega⟩
  have hscale := @scale_nearest [1, 2, 3, 4, 5, 6, 7, 8] 1 2 1 3 hfit [9]
  have hscalable : Scalable [1, 2, 3, 4, 5, 6, 7, 8] 1 2 1 3 :=
    ⟨by decide, by decide, by decide, by decide, by decide⟩
  refine ⟨hscale.2.1.mpr hscalable, fun out hout => ?_⟩
  exact ((hscale.2.2 out hout).2.1 0 (by decide) 2 (by decide)).2 0 (by decide)

end Scaling

end CloudGame.Worker
