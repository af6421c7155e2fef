import CloudGame.Lib.ExceptState
import CloudGame.Worker.Pixels

/-!
# Every pixel of a converted frame (`fill_rgba_buffer_from_frame`)

`colorAt` says in numbers what the colour of a source pixel is: channels of five and six bits are
widened by repeating their high bits.  `copyRows_wp` is the conversion row by row, with the loop
invariants `RowsShown` and `PixelsShown`; `swapPixels_shows` is the conversion in place.

* `fill_correct`: the conversion indexes nothing out of range, succeeds exactly on a `Convertible`
  frame, shows every pixel of it, and does the same in place as row by row.
-/

namespace CloudGame.Worker

open CloudGame.Lib

/-! ## Colours -/

/-- A channel of `bits` bits, widened to eight by repeating its high bits. -/
def replicateBits (bits c : Nat) : Nat := c * 2 ^ (8 - bits) + c / 2 ^ (2 * bits - 8)

def byteAt (bytes : List UInt8) (i : Nat) : Nat := (bytes.getD i 0).toNat

/-- The little-endian number of two bytes. -/
def wordAt (bytes : List UInt8) (i : Nat) : Nat := byteAt bytes i + 256 * byteAt bytes (i + 1)

/-- Red, green and blue of the pixel whose bytes begin at `base`. -/
def colorAt (format : RetroPixelFormat) (bytes : List UInt8) (base : Nat) : Nat × Nat × Nat :=
  match format with
  | .xrgb8888 => (byteAt bytes (base + 2), byteAt bytes (base + 1), byteAt bytes base)
  | .rgb565 =>
    (replicateBits 5 (wordAt bytes base / 2 ^ 11),
      replicateBits 6 (wordAt bytes base / 2 ^ 5 % 2 ^ 6),
      replicateBits 5 (wordAt bytes base % 2 ^ 5))
  | .rgb1555 =>
    (replicateBits 5 (wordAt bytes base / 2 ^ 10 % 2 ^ 5),
      replicateBits 5 (wordAt bytes base / 2 ^ 5 % 2 ^ 5),
      replicateBits 5 (wordAt bytes base % 2 ^ 5))
  | .unknown _ => (0, 0, 0)

/-- The four bytes at `base` are an opaque pixel of this colour. -/
structure Shows (out : List UInt8) (base : Nat) (color : Nat × Nat × Nat) : Prop where
  red : out[base]?.map UInt8.toNat = some color.1
  green : out[base + 1]?.map UInt8.toNat = some color.2.1
  blue : out[base + 2]?.map UInt8.toNat = some color.2.2
  alpha : out[base + 3]?.map UInt8.toNat = some 255

/-- A frame that can be converted. -/
structure Convertible (frame : VideoFrame) : Prop where
  known : ∀ format, frame.format ≠ .unknown format
  width : frame.width ≠ 0
  height : frame.height ≠ 0
  pitch : frame.pitch ≠ 0
  stride : frame.height * frame.pitch < 2 ^ 64
  pixels : frame.width * frame.height < 2 ^ 64
  bytes : frame.width * frame.height * 4 < 2 ^ 64
  row : frame.width * bytesPerPixel frame.format < 2 ^ 64
  length : frame.height * frame.pitch ≤ frame.data.length
  lastRow : (frame.height - 1) * frame.pitch + frame.width * bytesPerPixel frame.format ≤
    frame.data.length

/-! ## Channels -/

theorem fromLe_toNat (lo hi : UInt8) : (fromLe lo hi).toNat = lo.toNat + 256 * hi.toNat := by
  have hlo : lo.toNat < 2 ^ 8 := lo.toNat_lt
  have hhi : hi.toNat < 2 ^ 8 := hi.toNat_lt
  have hshift : (hi.toUInt16 <<< 8).toNat = hi.toNat <<< 8 := by
    rw [UInt16.toNat_shiftLeft]
    show (hi.toNat <<< 8) % 2 ^ 16 = _
    refine Nat.mod_eq_of_lt ?_
    rw [Nat.shiftLeft_eq]
    omega
  rw [fromLe, UInt16.toNat_or, hshift, Nat.or_comm]
  show hi.toNat <<< 8 ||| lo.toNat = _
  rw [← Nat.shiftLeft_add_eq_or_of_lt hlo, Nat.shiftLeft_eq]
  omega

theorem widen5_toNat {c : UInt8} (h : c.toNat < 32) :
    (widen5 c).toNat = replicateBits 5 c.toNat := by
  have hall : ∀ n : Fin 32, (widen5 (UInt8.ofNat n)).toNat = replicateBits 5 n := by decide
  have hc := hall ⟨c.toNat, h⟩
  rwa [UInt8.ofNat_toNat] at hc

theorem widen6_toNat {c : UInt8} (h : c.toNat < 64) :
    (widen6 c).toNat = replicateBits 6 c.toNat := by
  have hall : ∀ n : Fin 64, (widen6 (UInt8.ofNat n)).toNat = replicateBits 6 n := by decide
  have hc := hall ⟨c.toNat, h⟩
  rwa [UInt8.ofNat_toNat] at hc

/-- The channel of `bits` bits above the lowest `shift` bits. -/
theorem channel_toNat (raw k mask : UInt16) (shift bits : Nat) (hk : k.toNat = shift)
    (hshift : shift < 16) (hmask : mask.toNat = 2 ^ bits - 1) (hbits : bits ≤ 8) :
    ((raw >>> k) &&& mask).toUInt8.toNat = raw.toNat / 2 ^ shift % 2 ^ bits := by
  have hpow : 2 ^ bits ≤ 2 ^ 8 := Nat.pow_le_pow_right (by decide) hbits
  have hlt : raw.toNat / 2 ^ shift % 2 ^ bits < 2 ^ bits := Nat.mod_lt _ (Nat.two_pow_pos bits)
  rw [UInt16.toNat_toUInt8, UInt16.toNat_and, UInt16.toNat_shiftRight, hk, hmask,
    Nat.mod_eq_of_lt hshift, Nat.shiftRight_eq_div_pow, Nat.and_two_pow_sub_one_eq_mod]
  exact Nat.mod_eq_of_lt (Nat.lt_of_lt_of_le hlt hpow)

/-- The lowest channel. -/
theorem channel_zero_toNat (raw mask : UInt16) (bits : Nat)
    (hmask : mask.toNat = 2 ^ bits - 1) (hbits : bits ≤ 8) :
    (raw &&& mask).toUInt8.toNat = raw.toNat % 2 ^ bits := by
  have hpow : 2 ^ bits ≤ 2 ^ 8 := Nat.pow_le_pow_right (by decide) hbits
  have hlt : raw.toNat % 2 ^ bits < 2 ^ bits := Nat.mod_lt _ (Nat.two_pow_pos bits)
  rw [UInt16.toNat_toUInt8, UInt16.toNat_and, hmask, Nat.and_two_pow_sub_one_eq_mod]
  exact Nat.mod_eq_of_lt (Nat.lt_of_lt_of_le hlt hpow)

theorem widen5_channel (raw k : UInt16) (shift : Nat) (hk : k.toNat = shift)
    (hshift : shift < 16) : (widen5 ((raw >>> k) &&& 0x1f).toUInt8).toNat =
      replicateBits 5 (raw.toNat / 2 ^ shift % 2 ^ 5) := by
  have hc := channel_toNat raw k 0x1f shift 5 hk hshift rfl (by decide)
  have hlt : ((raw >>> k) &&& 0x1f).toUInt8.toNat < 32 := hc ▸ Nat.mod_lt _ (by decide)
  rw [widen5_toNat hlt, hc]

theorem widen6_channel (raw k : UInt16) (shift : Nat) (hk : k.toNat = shift)
    (hshift : shift < 16) : (widen6 ((raw >>> k) &&& 0x3f).toUInt8).toNat =
      replicateBits 6 (raw.toNat / 2 ^ shift % 2 ^ 6) := by
  have hc := channel_toNat raw k 0x3f shift 6 hk hshift rfl (by decide)
  have hlt : ((raw >>> k) &&& 0x3f).toUInt8.toNat < 64 := hc ▸ Nat.mod_lt _ (by decide)
  rw [widen6_toNat hlt, hc]

theorem widen5_lowest (raw : UInt16) :
    (widen5 (raw &&& 0x1f).toUInt8).toNat = replicateBits 5 (raw.toNat % 2 ^ 5) := by
  have hc := channel_zero_toNat raw 0x1f 5 rfl (by decide)
  have hlt : (raw &&& 0x1f).toUInt8.toNat < 32 := hc ▸ Nat.mod_lt _ (by decide)
  rw [widen5_toNat hlt, hc]

/-! ## Reading and writing a pixel -/

section Pixel

variable {α : Type} {ok : α → List UInt8 → Prop} {err : Stop → List UInt8 → Prop}
  {buf : List UInt8}

theorem wp_read {ok : UInt8 → List UInt8 → Prop} {bytes : List UInt8} {i : Nat} {b : UInt8}
    (hi : bytes[i]? = some b) (h : ok b buf) : Wp (Draw.read bytes i) ok err buf := by
  unfold Draw.read
  rw [hi]
  exact wp_pure h

theorem wp_slice {ok : List UInt8 → List UInt8 → Prop} {bytes : List UInt8} {start stop : Nat}
    (hle : start ≤ stop) (hstop : stop ≤ bytes.length)
    (h : ok ((bytes.drop start).take (stop - start)) buf) :
    Wp (Draw.slice bytes start stop) ok err buf := by
  unfold Draw.slice
  rw [if_pos ⟨hle, hstop⟩]
  exact wp_pure h

theorem wp_write {ok : Unit → List UInt8 → Prop} {i : Nat} {b : UInt8} (hi : i < buf.length)
    (h : ok () (buf.set i b)) : Wp (Draw.write i b) ok err buf := by
  refine wp_bind (wp_get ?_)
  rw [if_pos hi]
  exact wp_set h

/-- The buffer with a pixel written at `base`. -/
def putPixel (buf : List UInt8) (base : Nat) (pixel : UInt8 × UInt8 × UInt8) : List UInt8 :=
  (((buf.set base pixel.1).set (base + 1) pixel.2.1).set (base + 2) pixel.2.2).set (base + 3) 255

@[simp] theorem putPixel_length (base : Nat) (pixel : UInt8 × UInt8 × UInt8) :
    (putPixel buf base pixel).length = buf.length := by
  simp [putPixel]

theorem putPixel_getElem? (base i : Nat) (pixel : UInt8 × UInt8 × UInt8)
    (hfit : base + 4 ≤ buf.length) :
    (putPixel buf base pixel)[i]? =
      if base = i then some pixel.1 else if base + 1 = i then some pixel.2.1
      else if base + 2 = i then some pixel.2.2 else if base + 3 = i then some 255 else buf[i]? := by
  simp only [putPixel, List.getElem?_set, List.length_set]
  grind

theorem wp_writePixel {ok : Unit → List UInt8 → Prop} {base : Nat} {pixel : UInt8 × UInt8 × UInt8}
    (hfit : base + 4 ≤ buf.length) (h : ok () (putPixel buf base pixel)) :
    Wp (writePixel base pixel) ok err buf := by
  refine wp_bind (wp_write (by omega) ?_)
  refine wp_bind (wp_write (by rw [List.length_set]; omega) ?_)
  refine wp_bind (wp_write (by rw [List.length_set, List.length_set]; omega) ?_)
  exact wp_write (by rw [List.length_set, List.length_set, List.length_set]; omega) h

/-- The colour of three bytes. -/
def color (pixel : UInt8 × UInt8 × UInt8) : Nat × Nat × Nat :=
  (pixel.1.toNat, pixel.2.1.toNat, pixel.2.2.toNat)

theorem putPixel_shows {base : Nat} (pixel : UInt8 × UInt8 × UInt8) (hfit : base + 4 ≤ buf.length) :
    Shows (putPixel buf base pixel) base (color pixel) := by
  constructor
  · rw [putPixel_getElem? _ _ _ hfit, if_pos rfl]
    rfl
  · rw [putPixel_getElem? _ _ _ hfit, if_neg (by omega), if_pos rfl]
    rfl
  · rw [putPixel_getElem? _ _ _ hfit, if_neg (by omega), if_neg (by omega), if_pos rfl]
    rfl
  · rw [putPixel_getElem? _ _ _ hfit, if_neg (by omega), if_neg (by omega), if_neg (by omega),
      if_pos rfl]
    rfl

/-- A pixel that lies elsewhere is as before. -/
theorem Shows.putPixel {base base' : Nat} {c : Nat × Nat × Nat} (h : Shows buf base' c)
    (pixel : UInt8 × UInt8 × UInt8) (hfit : base + 4 ≤ buf.length)
    (haway : base' + 4 ≤ base ∨ base + 4 ≤ base') : Shows (putPixel buf base pixel) base' c := by
  have hsame : ∀ k < 4,
      (CloudGame.Worker.putPixel buf base pixel)[base' + k]? = buf[base' + k]? := by
    intro k hk
    rw [putPixel_getElem? _ _ _ hfit, if_neg (by omega), if_neg (by omega), if_neg (by omega),
      if_neg (by omega)]
  constructor
  · exact (congrArg _ (hsame 0 (by decide))).trans h.red
  · exact (congrArg _ (hsame 1 (by decide))).trans h.green
  · exact (congrArg _ (hsame 2 (by decide))).trans h.blue
  · exact (congrArg _ (hsame 3 (by decide))).trans h.alpha

theorem getElem?_byteAt {bytes : List UInt8} {i : Nat} (hi : i < bytes.length) :
    ∃ b, bytes[i]? = some b ∧ b.toNat = byteAt bytes i := by
  refine ⟨bytes[i], List.getElem?_eq_getElem hi, ?_⟩
  rw [byteAt, List.getD_eq_getElem?_getD, List.getElem?_eq_getElem hi]
  rfl

/-- What is read at `base` is the colour there. -/
theorem wp_readPixel {ok : UInt8 × UInt8 × UInt8 → List UInt8 → Prop} {format : RetroPixelFormat}
    {row : List UInt8} {base : Nat} (hknown : ∀ n, format ≠ .unknown n)
    (hfit : base + bytesPerPixel format ≤ row.length)
    (h : ∀ pixel, color pixel = colorAt format row base → ok pixel buf) :
    Wp (readPixel format row base) ok err buf := by
  cases format with
  | unknown n => exact absurd rfl (hknown n)
  | xrgb8888 =>
    have hfit' : base + 4 ≤ row.length := hfit
    obtain ⟨r, hr, hr'⟩ := getElem?_byteAt (i := base + 2) (show _ < row.length by omega)
    obtain ⟨g, hg, hg'⟩ := getElem?_byteAt (i := base + 1) (show _ < row.length by omega)
    obtain ⟨b, hb, hb'⟩ := getElem?_byteAt (i := base) (show _ < row.length by omega)
    refine wp_bind (wp_read hr (wp_bind (wp_read hg (wp_bind (wp_read hb (wp_pure (h _ ?_)))))))
    rw [color, hr', hg', hb']
    rfl
  | rgb565 =>
    have hfit' : base + 2 ≤ row.length := hfit
    obtain ⟨lo, hlo, hlo'⟩ := getElem?_byteAt (i := base) (show _ < row.length by omega)
    obtain ⟨hi, hhi, hhi'⟩ := getElem?_byteAt (i := base + 1) (show _ < row.length by omega)
    have hraw : (fromLe lo hi).toNat = wordAt row base := by rw [fromLe_toNat, hlo', hhi']; rfl
    have hred : wordAt row base / 2 ^ 11 % 2 ^ 5 = wordAt row base / 2 ^ 11 := by
      have hlt : wordAt row base < 2 ^ 16 := hraw ▸ (fromLe lo hi).toNat_lt
      omega
    refine wp_bind (wp_read hlo (wp_bind (wp_read hhi (wp_pure (h _ ?_)))))
    simp only [color, widen5_channel _ 11 11 rfl (by decide), widen6_channel _ 5 5 rfl
      (by decide), widen5_lowest, hraw, hred]
    rfl
  | rgb1555 =>
    have hfit' : base + 2 ≤ row.length := hfit
    obtain ⟨lo, hlo, hlo'⟩ := getElem?_byteAt (i := base) (show _ < row.length by omega)
    obtain ⟨hi, hhi, hhi'⟩ := getElem?_byteAt (i := base + 1) (show _ < row.length by omega)
    have hraw : (fromLe lo hi).toNat = wordAt row base := by rw [fromLe_toNat, hlo', hhi']; rfl
    refine wp_bind (wp_read hlo (wp_bind (wp_read hhi (wp_pure (h _ ?_)))))
    simp only [color, widen5_channel _ 10 10 rfl (by decide), widen5_channel _ 5 5 rfl
      (by decide), widen5_lowest, hraw]
    rfl

end Pixel

/-! ## Row by row -/

/-- The source pixel of column `x` and row `y`. -/
def sourceColor (frame : VideoFrame) (x y : Nat) : Nat × Nat × Nat :=
  colorAt frame.format frame.data (y * frame.pitch + x * bytesPerPixel frame.format)

/-- Where the pixel of column `x` and row `y` begins in the result. -/
def pixelBase (frame : VideoFrame) (x y : Nat) : Nat := (y * frame.width + x) * 4

/-- After `n` rows. -/
structure RowsShown (frame : VideoFrame) (n : Nat) (out : List UInt8) : Prop where
  length : out.length = frame.width * frame.height * 4
  shown : ∀ y < n, ∀ x < frame.width, Shows out (pixelBase frame x y) (sourceColor frame x y)

/-- After `y` rows and `n` pixels of the next. -/
structure PixelsShown (frame : VideoFrame) (y n : Nat) (out : List UInt8) : Prop where
  rows : RowsShown frame y out
  shown : ∀ x < n, Shows out (pixelBase frame x y) (sourceColor frame x y)

section Rows

variable {frame : VideoFrame} {err : Stop → List UInt8 → Prop} {buf : List UInt8}

/-- A row is the data from its first byte on. -/
theorem byteAt_row {bytes : List UInt8} {start len i : Nat} (hi : i < len) :
    byteAt ((bytes.drop start).take len) i = byteAt bytes (start + i) := by
  unfold byteAt
  rw [List.getD_eq_getElem?_getD, List.getD_eq_getElem?_getD, List.getElem?_take_of_lt hi,
    List.getElem?_drop]

theorem colorAt_row {format : RetroPixelFormat} {bytes : List UInt8} {start len base : Nat}
    (hfit : base + bytesPerPixel format ≤ len) :
    colorAt format ((bytes.drop start).take len) base = colorAt format bytes (start + base) := by
  have hbyte : ∀ k < bytesPerPixel format, byteAt ((bytes.drop start).take len) (base + k) =
      byteAt bytes (start + base + k) := by
    intro k hk
    rw [byteAt_row (by omega), Nat.add_assoc]
  cases format with
  | unknown n => rfl
  | xrgb8888 =>
    have h0 := hbyte 0 (by decide)
    have h1 := hbyte 1 (by decide)
    have h2 := hbyte 2 (by decide)
    simp only [Nat.add_zero] at h0
    simp only [colorAt, h0, h1, h2]
  | rgb565 =>
    have h0 := hbyte 0 (by decide)
    have h1 := hbyte 1 (by decide)
    simp only [Nat.add_zero] at h0
    simp only [colorAt, wordAt, h0, h1]
  | rgb1555 =>
    have h0 := hbyte 0 (by decide)
    have h1 := hbyte 1 (by decide)
    simp only [Nat.add_zero] at h0
    simp only [colorAt, wordAt, h0, h1]

/-- A pixel lies within the result, and within its row. -/
theorem pixelBase_le {x y : Nat} (hx : x < frame.width) (hy : y < frame.height) :
    pixelBase frame x y + 4 ≤ frame.width * frame.height * 4 := by
  have hrow : y * frame.width + x + 1 ≤ (y + 1) * frame.width := by
    rw [Nat.succ_mul]
    omega
  have hrows : (y + 1) * frame.width ≤ frame.height * frame.width := Nat.mul_le_mul_right _ hy
  rw [Nat.mul_comm frame.height] at hrows
  unfold pixelBase
  omega

/-- Pixels of earlier rows come before. -/
theorem pixelBase_lt_of_row {x x' y y' : Nat} (hx' : x' < frame.width) (hy : y' < y) :
    pixelBase frame x' y' + 4 ≤ pixelBase frame x y := by
  have hrow : y' * frame.width + x' + 1 ≤ (y' + 1) * frame.width := by
    rw [Nat.succ_mul]
    omega
  have hrows : (y' + 1) * frame.width ≤ y * frame.width := Nat.mul_le_mul_right _ hy
  unfold pixelBase
  omega

theorem pixelBase_lt {x x' y : Nat} (hx : x' < x) :
    pixelBase frame x' y + 4 ≤ pixelBase frame x y := by
  unfold pixelBase
  omega

/-- A pixel more of the row. -/
theorem PixelsShown.put {x y : Nat} (h : PixelsShown frame y x buf) (hx : x < frame.width)
    (hy : y < frame.height) {pixel : UInt8 × UInt8 × UInt8}
    (hpixel : color pixel = sourceColor frame x y) :
    PixelsShown frame y (x + 1) (putPixel buf (pixelBase frame x y) pixel) := by
  have hfit : pixelBase frame x y + 4 ≤ buf.length := h.rows.length ▸ pixelBase_le hx hy
  refine ⟨⟨(putPixel_length _ _).trans h.rows.length, ?_⟩, ?_⟩
  · intro y' hy' x' hx'
    exact (h.rows.shown y' hy' x' hx').putPixel pixel hfit (Or.inl (pixelBase_lt_of_row hx' hy'))
  · intro x' hx'
    rcases Nat.lt_succ_iff_lt_or_eq.mp hx' with hlt | rfl
    · exact (h.shown x' hlt).putPixel pixel hfit (Or.inl (pixelBase_lt hlt))
    · rw [← hpixel]
      exact putPixel_shows pixel hfit

theorem copyPixel_wp {row : List UInt8} {x y : Nat} (hknown : ∀ n, frame.format ≠ .unknown n)
    (hx : x < frame.width) (hy : y < frame.height)
    (hrow : row = (frame.data.drop (y * frame.pitch)).take
      (frame.width * bytesPerPixel frame.format))
    (hlen : row.length = frame.width * bytesPerPixel frame.format)
    (h : PixelsShown frame y x buf) :
    Wp (copyPixel frame row y x) (fun _ => PixelsShown frame y (x + 1)) err buf := by
  have hsource : x * bytesPerPixel frame.format + bytesPerPixel frame.format ≤
      frame.width * bytesPerPixel frame.format := by
    rw [← Nat.succ_mul]
    exact Nat.mul_le_mul_right _ hx
  refine wp_bind (wp_readPixel hknown (hlen ▸ hsource) fun pixel hpixel => ?_)
  have hcolor : color pixel = sourceColor frame x y := by
    rw [hpixel, hrow, colorAt_row hsource]
    rfl
  refine wp_writePixel ?_ (h.put hx hy hcolor)
  rw [h.rows.length]
  exact pixelBase_le hx hy

/-- The conversion returns `None`, and rightly. -/
def Refused (frame : VideoFrame) : Stop → List UInt8 → Prop :=
  fun stop _ => stop = .none ∧ ¬ Convertible frame

/-- Every row of a convertible frame lies within the data. -/
theorem Convertible.fits (h : Convertible frame) {y : Nat} (hy : y < frame.height) :
    y * frame.pitch + frame.width * bytesPerPixel frame.format ≤ frame.data.length := by
  have hle : y * frame.pitch ≤ (frame.height - 1) * frame.pitch :=
    Nat.mul_le_mul_right _ (Nat.le_sub_one_of_lt hy)
  have hlast := h.lastRow
  omega

theorem Refused.of_not_fits {y : Nat} (hy : y < frame.height)
    (hnot : ¬ y * frame.pitch + frame.width * bytesPerPixel frame.format ≤ frame.data.length) :
    Refused frame .none buf :=
  ⟨rfl, fun hc => hnot (hc.fits hy)⟩

theorem wp_checkedMul {ok : Nat → List UInt8 → Prop} {a b : Nat}
    (hfit : a * b < 2 ^ 64 → ok (a * b) buf) (hover : ¬ a * b < 2 ^ 64 → err .none buf) :
    Wp (Draw.orNone (checkedMul a b)) ok err buf := by
  by_cases h : a * b < 2 ^ 64
  · rw [checkedMul_eq_some h]
    exact wp_pure (hfit h)
  · rw [checkedMul, if_neg h]
    exact wp_throw (hover h)

theorem wp_checkedAdd {ok : Nat → List UInt8 → Prop} {a b : Nat}
    (hfit : a + b < 2 ^ 64 → ok (a + b) buf) (hover : ¬ a + b < 2 ^ 64 → err .none buf) :
    Wp (Draw.orNone (checkedAdd a b)) ok err buf := by
  by_cases h : a + b < 2 ^ 64
  · rw [checkedAdd_eq_some h]
    exact wp_pure (hfit h)
  · rw [checkedAdd, if_neg h]
    exact wp_throw (hover h)

/-- One row more, and it lies within the data. -/
theorem copyRow_wp {y : Nat} (hdata : frame.data.length < 2 ^ 64)
    (hknown : ∀ n, frame.format ≠ .unknown n) (hy : y < frame.height)
    (h : RowsShown frame y buf) :
    Wp (copyRow frame (frame.width * bytesPerPixel frame.format) y)
      (fun _ out => RowsShown frame (y + 1) out ∧
        y * frame.pitch + frame.width * bytesPerPixel frame.format ≤ frame.data.length)
      (Refused frame) buf := by
  refine wp_bind (wp_checkedMul (fun _ => ?_) fun hover => Refused.of_not_fits hy (by omega))
  refine wp_bind (wp_checkedAdd (fun _ => ?_) fun hover => Refused.of_not_fits hy (by omega))
  by_cases hfit : y * frame.pitch + frame.width * bytesPerPixel frame.format ≤ frame.data.length
  · rw [if_neg (Nat.not_lt.mpr hfit)]
    refine wp_bind (wp_slice (Nat.le_add_right _ _) hfit ?_)
    rw [Nat.add_sub_cancel_left]
    have hlen : ((frame.data.drop (y * frame.pitch)).take
        (frame.width * bytesPerPixel frame.format)).length =
        frame.width * bytesPerPixel frame.format := by
      rw [List.length_take, List.length_drop]
      omega
    have h0 : PixelsShown frame y 0 buf := ⟨h, fun x hx => absurd hx (Nat.not_lt_zero x)⟩
    refine (wp_forM_range h0 fun x out hx hout => copyPixel_wp hknown hx hy rfl hlen hout).mono ?_
    rintro _ out hout
    refine ⟨⟨hout.rows.length, fun y' hy' x hx => ?_⟩, hfit⟩
    rcases Nat.lt_succ_iff_lt_or_eq.mp hy' with hlt | rfl
    · exact hout.rows.shown y' hlt x hx
    · exact hout.shown x hx
  · rw [if_pos (Nat.lt_of_not_le hfit)]
    exact wp_throw (Refused.of_not_fits hy hfit)

/-- All rows, and the last lies within the data. -/
theorem copyRows_wp (hdata : frame.data.length < 2 ^ 64)
    (hknown : ∀ n, frame.format ≠ .unknown n) (hheight : frame.height ≠ 0) :
    Wp (copyRows frame (frame.width * bytesPerPixel frame.format) (frame.width * frame.height * 4))
      (fun out _ => RowsShown frame frame.height out ∧
        (frame.height - 1) * frame.pitch + frame.width * bytesPerPixel frame.format ≤
          frame.data.length)
      (Refused frame) buf := by
  let I (n : Nat) (out : List UInt8) : Prop := RowsShown frame n out ∧
    ∀ y < n, y * frame.pitch + frame.width * bytesPerPixel frame.format ≤ frame.data.length
  refine wp_bind (wp_modify ?_)
  have h0 : I 0 (buf.take (frame.width * frame.height * 4) ++
      List.replicate (frame.width * frame.height * 4 - buf.length) 0) := by
    have hnone : ∀ y, ¬ y < 0 := Nat.not_lt_zero
    refine ⟨⟨?_, fun y hy => absurd hy (hnone y)⟩, fun y hy => absurd hy (hnone y)⟩
    rw [List.length_append, List.length_take, List.length_replicate]
    omega
  have hstep : ∀ y out, y < frame.height → I y out →
      Wp (copyRow frame (frame.width * bytesPerPixel frame.format) y) (fun _ => I (y + 1))
        (Refused frame) out := by
    intro y out hy hout
    refine (copyRow_wp hdata hknown hy hout.1).mono ?_
    rintro _ out' ⟨hrows, hfit⟩
    refine ⟨hrows, fun y' hy' => ?_⟩
    rcases Nat.lt_succ_iff_lt_or_eq.mp hy' with hlt | rfl
    · exact hout.2 y' hlt
    · exact hfit
  refine wp_bind ((wp_forM_range h0 hstep).mono ?_)
  rintro _ out ⟨hrows, hfits⟩
  exact wp_get ⟨hrows, hfits _ (Nat.sub_one_lt hheight)⟩

end Rows

/-! ## In place -/

section InPlace

theorem swapPixels_length : ∀ bytes : List UInt8, (swapPixels bytes).length = bytes.length
  | b :: g :: r :: a :: rest => by
    show (swapPixels rest).length + 4 = rest.length + 4
    rw [swapPixels_length rest]
  | [] => rfl
  | [_] => rfl
  | [_, _] => rfl
  | [_, _, _] => rfl

/-- A pixel behind four bytes. -/
theorem Shows.behind {out : List UInt8} {base : Nat} {c : Nat × Nat × Nat} (h : Shows out base c)
    (b0 b1 b2 b3 : UInt8) : Shows (b0 :: b1 :: b2 :: b3 :: out) (base + 4) c :=
  ⟨h.red, h.green, h.blue, h.alpha⟩

theorem swapPixels_shows (p : Nat) : ∀ bytes : List UInt8, p * 4 + 4 ≤ bytes.length →
    Shows (swapPixels bytes) (p * 4) (colorAt .xrgb8888 bytes (p * 4)) := by
  induction p with
  | zero =>
    intro bytes hlen
    match bytes, hlen with
    | b :: g :: r :: a :: rest, _ => exact ⟨rfl, rfl, rfl, rfl⟩
  | succ p ih =>
    intro bytes hlen
    match bytes, hlen with
    | b :: g :: r :: a :: rest, hlen =>
      have hrest : p * 4 + 4 ≤ rest.length := by
        simp only [List.length_cons] at hlen
        omega
      have hbase : (p + 1) * 4 = p * 4 + 4 := Nat.succ_mul p 4
      rw [hbase]
      exact (ih rest hrest).behind r g b 255

variable {frame : VideoFrame} {buf : List UInt8}

/-- The conversion in place shows every pixel of a frame without padding. -/
theorem swapPixels_rows (hformat : frame.format = .xrgb8888)
    (hpitch : frame.pitch = frame.width * 4)
    (hlen : frame.width * frame.height * 4 ≤ frame.data.length) :
    RowsShown frame frame.height
      (swapPixels (frame.data.take (frame.width * frame.height * 4))) := by
  have htake : (frame.data.take (frame.width * frame.height * 4)).length =
      frame.width * frame.height * 4 := by
    rw [List.length_take]
    omega
  refine ⟨(swapPixels_length _).trans htake, fun y hy x hx => ?_⟩
  have hfit := pixelBase_le hx hy
  have hshows := swapPixels_shows (y * frame.width + x)
    (frame.data.take (frame.width * frame.height * 4)) (by rw [htake]; exact hfit)
  have hbase : y * frame.pitch + x * 4 = (y * frame.width + x) * 4 := by
    rw [hpitch, Nat.add_mul, Nat.mul_assoc]
  have hcolor : sourceColor frame x y = colorAt .xrgb8888
      (frame.data.take (frame.width * frame.height * 4)) ((y * frame.width + x) * 4) := by
    have hwhole : colorAt .xrgb8888
        ((frame.data.drop 0).take (frame.width * frame.height * 4)) ((y * frame.width + x) * 4) =
          colorAt .xrgb8888 frame.data (0 + (y * frame.width + x) * 4) := colorAt_row hfit
    rw [List.drop_zero, Nat.zero_add] at hwhole
    refine Eq.trans ?_ hwhole.symm
    unfold sourceColor
    rw [hformat]
    show colorAt .xrgb8888 frame.data (y * frame.pitch + x * 4) = _
    rw [hbase]
  rw [hcolor]
  exact hshows

/-- With sizes that fit, it is left to the format and to the last row. -/
theorem convertFrame_wp (hdata : frame.data.length < 2 ^ 64) (hwidth : frame.width ≠ 0)
    (hheight : frame.height ≠ 0) (hpitch : frame.pitch ≠ 0)
    (hstride : frame.height * frame.pitch < 2 ^ 64)
    (hlength : frame.height * frame.pitch ≤ frame.data.length)
    (hpixels : frame.width * frame.height < 2 ^ 64)
    (hbytes : frame.width * frame.height * 4 < 2 ^ 64) :
    Wp (convertFrame frame (frame.width * frame.height * 4))
      (fun out _ => Convertible frame ∧ RowsShown frame frame.height out) (Refused frame) buf := by
  have hconvertible : (∀ n, frame.format ≠ .unknown n) →
      frame.width * bytesPerPixel frame.format < 2 ^ 64 →
      (frame.height - 1) * frame.pitch + frame.width * bytesPerPixel frame.format ≤
        frame.data.length → Convertible frame := fun hknown hrow hlast =>
    ⟨hknown, hwidth, hheight, hpitch, hstride, hpixels, hbytes, hrow, hlength, hlast⟩
  have hrows : (∀ n, frame.format ≠ .unknown n) →
      frame.width * bytesPerPixel frame.format < 2 ^ 64 →
      Wp (copyRows frame (frame.width * bytesPerPixel frame.format)
        (frame.width * frame.height * 4))
        (fun out _ => Convertible frame ∧ RowsShown frame frame.height out) (Refused frame) buf :=
    fun hknown hrow => (copyRows_wp hdata hknown hheight).mono fun out _ hout =>
      ⟨hconvertible hknown hrow hout.2, hout.1⟩
  unfold convertFrame
  cases hformat : frame.format with
  | unknown n =>
    exact wp_throw ⟨rfl, fun hc => hc.known n hformat⟩
  | xrgb8888 =>
    have hknown : ∀ n, frame.format ≠ .unknown n := by simp [hformat]
    have hbpp : bytesPerPixel frame.format = 4 := by rw [hformat]; rfl
    rw [hbpp] at hconvertible hrows
    refine wp_bind (wp_checkedMul (fun hrow => ?_) fun hover =>
      ⟨rfl, fun hc => hover (hbpp ▸ hc.row)⟩)
    by_cases hpad : frame.pitch = frame.width * 4
    · rw [if_pos hpad]
      have hsame : frame.width * frame.height * 4 = frame.height * frame.pitch := by
        rw [hpad, Nat.mul_comm frame.width, Nat.mul_assoc]
      rw [if_neg (by omega)]
      have hlast : (frame.height - 1) * frame.pitch + frame.width * 4 ≤ frame.data.length := by
        rw [← hpad, ← Nat.succ_mul, Nat.succ_eq_add_one, Nat.sub_add_cancel (by omega)]
        exact hlength
      exact wp_pure ⟨hconvertible hknown hrow hlast, swapPixels_rows hformat hpad (by omega)⟩
    · rw [if_neg hpad]
      exact hrows hknown hrow
  | rgb565 | rgb1555 =>
    have hknown : ∀ n, frame.format ≠ .unknown n := by simp [hformat]
    have hbpp : bytesPerPixel frame.format = 2 := by rw [hformat]; rfl
    rw [hbpp] at hrows
    exact wp_bind (wp_checkedMul (fun hrow => hrows hknown hrow) fun hover =>
      ⟨rfl, fun hc => hover (hbpp ▸ hc.row)⟩)

theorem fill_wp (hdata : frame.data.length < 2 ^ 64) :
    Wp (fillRgbaBufferFromFrame frame)
      (fun out _ => Convertible frame ∧ RowsShown frame frame.height out) (Refused frame) buf := by
  unfold fillRgbaBufferFromFrame
  by_cases hzero : frame.pitch = 0 ∨ frame.width = 0 ∨ frame.height = 0
  · rw [if_pos hzero]
    exact wp_throw ⟨rfl, fun hc =>
      hzero.elim hc.pitch fun h => h.elim hc.width hc.height⟩
  · rw [if_neg hzero]
    push Not at hzero
    obtain ⟨hpitch, hwidth, hheight⟩ := hzero
    refine wp_bind (wp_checkedMul (fun hstride => ?_) fun hover => ⟨rfl, fun hc => hover hc.stride⟩)
    by_cases hshort : frame.data.length < frame.height * frame.pitch
    · rw [if_pos hshort]
      exact wp_throw ⟨rfl, fun hc => Nat.not_lt.mpr hc.length hshort⟩
    · rw [if_neg hshort]
      refine wp_bind (wp_checkedMul (fun hpixels => ?_) fun hover =>
        ⟨rfl, fun hc => hover hc.pixels⟩)
      refine wp_bind (wp_checkedMul (fun hbytes => ?_) fun hover => ⟨rfl, fun hc => hover hc.bytes⟩)
      exact convertFrame_wp hdata hwidth hheight hpitch hstride (Nat.le_of_not_lt hshort) hpixels
        hbytes

end InPlace

/-! ## The result -/

section Result

variable {frame : VideoFrame}

theorem Shows.unique {out out' : List UInt8} {base k : Nat} {c : Nat × Nat × Nat}
    (h : Shows out base c) (h' : Shows out' base c) (hk : k < 4) :
    out[base + k]? = out'[base + k]? := by
  have hinj : Function.Injective (Option.map UInt8.toNat) :=
    Option.map_injective fun _ _ => UInt8.toNat_inj.mp
  apply hinj
  match k, hk with
  | 0, _ => exact h.red.trans h'.red.symm
  | 1, _ => exact h.green.trans h'.green.symm
  | 2, _ => exact h.blue.trans h'.blue.symm
  | 3, _ => exact h.alpha.trans h'.alpha.symm

/-- The pixels determine the result. -/
theorem RowsShown.unique {out out' : List UInt8} (h : RowsShown frame frame.height out)
    (h' : RowsShown frame frame.height out') : out = out' := by
  refine List.ext_getElem? fun i => ?_
  by_cases hi : i < frame.width * frame.height * 4
  · have hp : i / 4 < frame.height * frame.width := by
      rw [Nat.mul_comm]
      omega
    have hw : 0 < frame.width := Nat.pos_of_ne_zero fun h0 => by
      rw [h0, Nat.mul_zero] at hp
      exact Nat.not_lt_zero _ hp
    have hy : i / 4 / frame.width < frame.height := Nat.div_lt_of_lt_mul (Nat.mul_comm _ _ ▸ hp)
    have hx : i / 4 % frame.width < frame.width := Nat.mod_lt _ hw
    have hbase : pixelBase frame (i / 4 % frame.width) (i / 4 / frame.width) = i / 4 * 4 := by
      rw [pixelBase, Nat.div_add_mod']
    have hsame := (h.shown _ hy _ hx).unique (h'.shown _ hy _ hx) (Nat.mod_lt i (by decide : 4 > 0))
    rwa [hbase, Nat.div_add_mod'] at hsame
  · rw [List.getElem?_eq_none (by rw [h.length]; omega),
      List.getElem?_eq_none (by rw [h'.length]; omega)]

/-- What a conversion with result `out` is to be. -/
structure Converted (frame : VideoFrame) (out : List UInt8) : Prop where
  convertible : Convertible frame
  length : out.length = frame.width * frame.height * 4
  shown : ∀ x < frame.width, ∀ y < frame.height,
    Shows out ((y * frame.width + x) * 4)
      (colorAt frame.format frame.data (y * frame.pitch + x * bytesPerPixel frame.format))

/-- **Pixel conversion.**  Whatever the buffer holds, the conversion indexes nothing out of range,
returns a result exactly for a convertible frame and shows every pixel in it; in place it does what
it does row by row.  `hdata` is the type of a length. -/
theorem fill_correct (hdata : frame.data.length < 2 ^ 64) (buf : List UInt8) :
    ((fillRgbaBufferFromFrame frame).on buf).1 ≠ .error .panic ∧
      ((∃ out, ((fillRgbaBufferFromFrame frame).on buf).1 = .ok out) ↔ Convertible frame) ∧
      (∀ out, ((fillRgbaBufferFromFrame frame).on buf).1 = .ok out → Converted frame out) ∧
      (Convertible frame → ((copyRows frame (frame.width * bytesPerPixel frame.format)
        (frame.width * frame.height * 4)).on buf).1 =
          ((fillRgbaBufferFromFrame frame).on buf).1) := by
  have hfill : Wp (fillRgbaBufferFromFrame frame) _ _ buf := fill_wp hdata
  have hrows : Convertible frame → Wp (copyRows frame _ _) _ _ buf := fun hc =>
    copyRows_wp hdata hc.known hc.height
  unfold Wp at hfill hrows
  unfold Draw.on
  rcases hrun : Id.run (StateT.run (ExceptT.run (fillRgbaBufferFromFrame frame)) buf) with
    ⟨e | out, b⟩
  · rw [hrun] at hfill
    obtain ⟨rfl, hnot⟩ := hfill
    refine ⟨nofun, ⟨nofun, fun hc => absurd hc hnot⟩, nofun, fun hc => absurd hc hnot⟩
  · rw [hrun] at hfill
    obtain ⟨hc, hout⟩ := hfill
    refine ⟨nofun, ⟨fun _ => hc, fun _ => ⟨out, rfl⟩⟩, ?_, fun _ => ?_⟩
    · rintro out' hout'
      cases hout'
      exact ⟨hc, hout.length, fun x hx y hy => hout.shown y hy x hx⟩
    · have hcopy := hrows hc
      rcases hrun' : Id.run (StateT.run (ExceptT.run (copyRows frame
        (frame.width * bytesPerPixel frame.format) (frame.width * frame.height * 4))) buf) with
        ⟨e | out', b'⟩
      · rw [hrun'] at hcopy
        exact absurd hc hcopy.2
      · rw [hrun'] at hcopy
        exact congrArg Except.ok (hcopy.1.unique hout)

/-- One white and one red pixel of sixteen bits, with two bytes behind them. -/
theorem fill_correct_two :
    ∃ out, ((fillRgbaBufferFromFrame
        ⟨.rgb565, 2, 1, 6, [0xff, 0xff, 0x00, 0xf8, 0x00, 0x00]⟩).on [1, 2, 3]).1 = .ok out ∧
      Converted ⟨.rgb565, 2, 1, 6, [0xff, 0xff, 0x00, 0xf8, 0x00, 0x00]⟩ out := by
  let twoPixels : VideoFrame := ⟨.rgb565, 2, 1, 6, [0xff, 0xff, 0x00, 0xf8, 0x00, 0x00]⟩
  have hdata : twoPixels.data.length < 2 ^ 64 := by decide
  have hcorrect := fill_correct hdata [1, 2, 3]
  have hc : Convertible twoPixels :=
    ⟨nofun, by decide, by decide, by decide, by decide, by decide, by decide, by decide, by decide,
      by decide⟩
  obtain ⟨out, hout⟩ := hcorrect.2.1.mpr hc
  exact ⟨out, hout, hcorrect.2.2.1 out hout⟩

end Result

end CloudGame.Worker
