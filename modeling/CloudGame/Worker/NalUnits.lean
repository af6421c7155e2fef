import CloudGame.Worker.H264
import Mathlib.Data.List.Infix

/-!
# NAL units in a bitstream (`h264_contains_idr` in `arcade-worker/src/video_sender.rs`)

What the two scanning loops find, in terms of the bytes and not of an index.  `headersBehind` are
the bytes behind the start codes, where a start code that begins with such a byte does not count;
`scanStartCodes_eq` and `scanLengths_ends` say what the loops come to on any bitstream.

* `annexB_idr`: units behind start codes are all seen, and neither loop reads out of range.
* `avcc_idr`: units behind lengths are seen unless there is a start code among the bytes; then it
  is the bytes behind the start codes that count.  `avcc_hides_idr` is a picture that is missed.
-/

namespace CloudGame.Worker

open CloudGame.Lib

/-! ## The bytes behind start codes -/

def HasStartCode (bytes : List UInt8) : Prop := [0, 0, 1] <:+: bytes

instance (bytes : List UInt8) : Decidable (HasStartCode bytes) :=
  inferInstanceAs (Decidable (_ <:+: _))

def headersBehind : List UInt8 → List UInt8
  | 0 :: 0 :: 1 :: header :: rest => header :: headersBehind rest
  | _ :: rest => headersBehind rest
  | [] => []

/-- A byte at which no start code begins is passed over. -/
theorem headersBehind_cons {b : UInt8} {rest : List UInt8}
    (h : ¬ [0, 0, 1] <+: b :: rest) : headersBehind (b :: rest) = headersBehind rest := by
  rw [headersBehind]
  rintro header rest' rfl rfl
  exact h ⟨header :: rest', rfl⟩

theorem hasStartCode_cons {b : UInt8} {rest : List UInt8} :
    HasStartCode (b :: rest) ↔ [0, 0, 1] <+: b :: rest ∨ HasStartCode rest :=
  List.infix_cons_iff

theorem hasStartCode_of_header {bytes : List UInt8} {header : UInt8}
    (h : header ∈ headersBehind bytes) : HasStartCode bytes := by
  induction bytes using headersBehind.induct with
  | case1 header' rest ih => exact ⟨[], header' :: rest, rfl⟩
  | case2 b rest hnot ih =>
    rw [headersBehind.eq_2 b rest hnot] at h
    exact hasStartCode_cons.mpr (Or.inr (ih h))
  | case3 => cases h

theorem startCodeLen_eq_none {bytes : List UInt8} (h : startCodeLen bytes = none) :
    ¬ [0, 0, 1] <+: bytes := by
  rintro ⟨rest, rfl⟩
  cases h

/-- The longer start code is a zero and the shorter one. -/
theorem startCodeLen_eq_some {bytes : List UInt8} {len : Nat} (h : startCodeLen bytes = some len) :
    HasStartCode bytes ∧ 0 < len ∧ headersBehind bytes =
      bytes[len]?.toList ++ headersBehind (bytes.drop (len + 1)) := by
  have hshort : ∀ rest, headersBehind (0 :: 0 :: 1 :: rest) =
      rest[0]?.toList ++ headersBehind (rest.drop 1) := by
    rintro (_ | ⟨header, rest⟩)
    · rfl
    · rfl
  unfold startCodeLen at h
  split at h
  · next rest =>
    cases h
    have hlong : ¬ [0, 0, 1] <+: (0 :: 0 :: 0 :: 1 :: rest : List UInt8) := by
      rintro ⟨tail, he⟩
      cases he
    exact ⟨⟨[0], rest, rfl⟩, by decide, (headersBehind_cons hlong).trans (hshort rest)⟩
  · next rest =>
    cases h
    exact ⟨⟨[], _, rfl⟩, by decide, hshort _⟩
  · cases h

/-! ## What the loops come to -/

/-- No start code fits into fewer than three bytes. -/
theorem headersBehind_short {bytes : List UInt8} (h : bytes.length < 3) :
    headersBehind bytes = [] ∧ ¬ HasStartCode bytes := by
  refine ⟨?_, fun hcode => absurd hcode.length_le (Nat.not_le.mpr h)⟩
  match bytes, h with
  | [], _ => rfl
  | [_], _ => simp [headersBehind]
  | [_, _], _ => simp [headersBehind]

/-- **The first loop.**  It finds an IDR slice among the bytes behind the start codes, or comes to
the end and knows whether there was a start code. -/
theorem scanStartCodes_eq {bitstream : List UInt8} (hfits : bitstream.length < 2 ^ 63) :
    ∀ (fuel i : Nat) (found : Bool), i ≤ bitstream.length → bitstream.length < fuel + i →
      scanStartCodes bitstream fuel i found =
        if (headersBehind (bitstream.drop i)).any isIdrHeader then .idr
        else .ended (found || decide (HasStartCode (bitstream.drop i))) := by
  intro fuel
  induction fuel with
  | zero =>
    intro i found hi hfuel
    omega
  | succ fuel ih =>
    intro i found hi hfuel
    have hlen : (bitstream.drop i).length = bitstream.length - i := List.length_drop
    rw [scanStartCodes]
    by_cases hroom : i + 3 ≤ bitstream.length
    · rw [if_pos hroom]
      cases hcode : startCodeLen (bitstream.drop i) with
      | none =>
        have hnone := startCodeLen_eq_none hcode
        rw [saturatingAdd_eq (by omega), ih (i + 1) found (by omega) (by omega)]
        rw [List.drop_eq_getElem_cons (by omega : i < bitstream.length)] at hnone ⊢
        rw [headersBehind_cons hnone]
        simp only [hasStartCode_cons, hnone, false_or]
      | some len =>
        obtain ⟨hstart, hpos, hheaders⟩ := startCodeLen_eq_some hcode
        rw [hheaders, List.getElem?_drop, List.drop_drop, decide_eq_true hstart, Bool.or_true]
        dsimp only
        by_cases hend : i + len ≥ bitstream.length
        · rw [if_pos hend, List.getElem?_eq_none hend, List.drop_eq_nil_of_le (by omega)]
          rfl
        · have hlt : i + len < bitstream.length := Nat.lt_of_not_le hend
          rw [if_neg hend, List.getElem?_eq_getElem hlt]
          simp only [Option.toList_some, List.singleton_append, List.any_cons, Bool.or_eq_true]
          by_cases hidr : isIdrHeader bitstream[i + len] = true
          · rw [if_pos hidr, if_pos (Or.inl hidr)]
          · rw [if_neg hidr, saturatingAdd_eq (by omega),
              ih (i + len + 1) true (by omega) (by omega), Bool.true_or]
            simp only [hidr, Nat.add_assoc, or_iff_right Bool.false_ne_true]
    · obtain ⟨hnil, hno⟩ := headersBehind_short (by omega : (bitstream.drop i).length < 3)
      rw [if_neg hroom, hnil, decide_eq_false hno, Bool.or_false]
      rfl

/-- With four bytes left there is a length. -/
theorem beLength_ne_none {bitstream : List UInt8} {i : Nat} (h : i + 4 ≤ bitstream.length) :
    beLength bitstream i ≠ none := by
  rw [beLength, List.getElem?_eq_getElem (by omega : i < bitstream.length),
    List.getElem?_eq_getElem (by omega : i + 1 < bitstream.length),
    List.getElem?_eq_getElem (by omega : i + 2 < bitstream.length),
    List.getElem?_eq_getElem (by omega : i + 3 < bitstream.length)]
  nofun

/-- **The second loop** ends, and within the bitstream. -/
theorem scanLengths_ends {bitstream : List UInt8} (hfits : bitstream.length < 2 ^ 63) :
    ∀ fuel i : Nat, i ≤ bitstream.length → bitstream.length < fuel + i →
      scanLengths bitstream fuel i = .idr ∨ scanLengths bitstream fuel i = .ended false := by
  intro fuel
  induction fuel with
  | zero =>
    intro i hi hfuel
    omega
  | succ fuel ih =>
    intro i hi hfuel
    rw [scanLengths]
    by_cases hroom : i + 4 ≤ bitstream.length
    · rw [if_pos hroom]
      cases hlength : beLength bitstream i with
      | none =>
        exact absurd hlength (beLength_ne_none hroom)
      | some len =>
        dsimp only
        rw [saturatingAdd_eq (by omega)]
        by_cases hzero : len = 0
        · rw [if_pos hzero]
          exact ih (i + 4) (by omega) (by omega)
        · rw [if_neg hzero]
          by_cases hover : i + 4 + len > bitstream.length
          · rw [if_pos hover]
            exact Or.inr rfl
          · rw [if_neg hover, List.getElem?_eq_getElem (by omega : i + 4 < bitstream.length)]
            dsimp only
            by_cases hidr : isIdrHeader bitstream[i + 4] = true
            · rw [if_pos hidr]
              exact Or.inl rfl
            · rw [if_neg hidr, saturatingAdd_eq (by omega)]
              exact ih (i + 4 + len) (by omega) (by omega)
    · rw [if_neg hroom]
      exact Or.inr rfl

theorem h264ContainsIdr_eq {bitstream : List UInt8} (hfits : bitstream.length < 2 ^ 63) :
    h264ContainsIdr bitstream = if HasStartCode bitstream
      then (headersBehind bitstream).any isIdrHeader
      else decide (scanLengths bitstream (bitstream.length + 1) 0 = .idr) := by
  unfold h264ContainsIdr
  rw [scanStartCodes_eq hfits _ 0 false (Nat.zero_le _) (Nat.lt_succ_self _), List.drop_zero]
  by_cases hempty : bitstream = []
  · subst hempty
    rfl
  · rw [if_neg hempty]
    by_cases hidr : (headersBehind bitstream).any isIdrHeader = true
    · obtain ⟨header, hmem, -⟩ := List.any_eq_true.mp hidr
      rw [if_pos hidr, if_pos (hasStartCode_of_header hmem), hidr]
    · rw [if_neg hidr, Bool.false_or]
      by_cases hstart : HasStartCode bitstream
      · rw [if_pos hstart, decide_eq_true hstart, Bool.eq_false_iff.mpr hidr]
      · rw [if_neg hstart, decide_eq_false hstart]

/-! ## Units behind start codes -/

/-- A unit in which emulation prevention has left no start code. -/
structure NalUnit where
  bytes : List UInt8
  nonempty : bytes ≠ []
  noTrailingZero : bytes.getLast? ≠ some 0
  noZeros : ¬ [0, 0, 0] <:+: bytes
  noStartCode : ¬ [0, 0, 1] <:+: bytes

/-- The first byte of a unit has type 5. -/
def isIdrUnit (bytes : List UInt8) : Bool := bytes.head?.any isIdrHeader

/-- A unit with what stands before it: zeros, and a start code of three or four bytes. -/
structure AnnexBFrame where
  extraZeros : Nat
  long : Bool
  unit : NalUnit

def AnnexBFrame.bytes (f : AnnexBFrame) : List UInt8 :=
  List.replicate f.extraZeros 0 ++ (if f.long then [0, 0, 0, 1] else [0, 0, 1]) ++ f.unit.bytes

def annexB (frames : List AnnexBFrame) : List UInt8 := frames.flatMap AnnexBFrame.bytes

/-- Zeros before a start code are passed over. -/
theorem headersBehind_zeros (n : Nat) (rest : List UInt8) :
    headersBehind (List.replicate n 0 ++ 0 :: 0 :: 1 :: rest) =
      headersBehind (0 :: 0 :: 1 :: rest) := by
  induction n with
  | zero => rfl
  | succ n ih =>
    have hnot : ¬ [0, 0, 1] <+: 0 :: (List.replicate n 0 ++ 0 :: 0 :: 1 :: rest) := by
      rintro ⟨tail, he⟩
      match n, he with
      | 0, he => cases he
      | 1, he => cases he
      | n + 2, he => cases he
    rw [List.replicate_succ, List.cons_append, headersBehind_cons hnot, ih]

/-- Bytes without a start code that do not end in zero are passed over, whatever follows. -/
theorem headersBehind_append {bytes : List UInt8} (rest : List UInt8)
    (hfree : ¬ [0, 0, 1] <:+: bytes) (hlast : bytes.getLast? ≠ some 0) :
    headersBehind (bytes ++ rest) = headersBehind rest := by
  induction bytes with
  | nil => rfl
  | cons b bytes ih =>
    have hnot : ¬ [0, 0, 1] <+: b :: (bytes ++ rest) := by
      rintro ⟨tail, he⟩
      match bytes, he with
      | [], he =>
        cases he
        exact hlast rfl
      | [c], he =>
        cases he
        exact hlast rfl
      | c :: d :: bytes, he =>
        cases he
        exact hfree ⟨[], bytes, rfl⟩
    rw [List.cons_append, headersBehind_cons hnot]
    have hfree' : ¬ [0, 0, 1] <:+: bytes :=
      fun hcode => hfree (hcode.trans (List.suffix_cons b bytes).isInfix)
    refine ih hfree' fun hzero => ?_
    cases bytes with
    | nil => cases hzero
    | cons c bytes => exact hlast (by rw [List.getLast?_cons_cons, hzero])

/-- One unit adds its first byte. -/
theorem headersBehind_frame (f : AnnexBFrame) (rest : List UInt8) :
    headersBehind (f.bytes ++ rest) = f.unit.bytes.head?.toList ++ headersBehind rest := by
  obtain ⟨extraZeros, long, unit, nonempty, noTrailingZero, noZeros, noStartCode⟩ := f
  cases unit with
  | nil => exact absurd rfl nonempty
  | cons header body =>
    have hshort : headersBehind (0 :: 0 :: 1 :: (header :: body ++ rest)) =
        header :: headersBehind rest := by
      rw [List.cons_append]
      refine congrArg (header :: ·) (headersBehind_append rest ?_ fun hzero => ?_)
      · exact fun hcode => noStartCode (hcode.trans (List.suffix_cons header body).isInfix)
      · cases body with
        | nil => cases hzero
        | cons c body => exact noTrailingZero (by rw [List.getLast?_cons_cons, hzero])
    cases long with
    | false =>
      have hzeros := headersBehind_zeros extraZeros (header :: body ++ rest)
      simp only [AnnexBFrame.bytes, List.append_assoc]
      exact hzeros.trans hshort
    | true =>
      have hzeros := headersBehind_zeros (extraZeros + 1) (header :: body ++ rest)
      simp only [AnnexBFrame.bytes, List.append_assoc]
      rw [List.replicate_succ', List.append_assoc] at hzeros
      exact hzeros.trans hshort

theorem headersBehind_annexB (frames : List AnnexBFrame) :
    headersBehind (annexB frames) = frames.flatMap fun f => f.unit.bytes.head?.toList := by
  induction frames with
  | nil => rfl
  | cons f frames ih =>
    show headersBehind (f.bytes ++ annexB frames) = _
    rw [headersBehind_frame, ih, List.flatMap_cons]

/-- **Annex B.**  A bitstream of units behind start codes contains an IDR slice if and only if one
of the units has type 5; and on any bitstream both loops end and read nothing out of range. -/
theorem annexB_idr {frames : List AnnexBFrame} (hframes : (annexB frames).length < 2 ^ 63)
    {bitstream : List UInt8} (hfits : bitstream.length < 2 ^ 63) :
    (h264ContainsIdr (annexB frames) = true ↔ ∃ f ∈ frames, isIdrUnit f.unit.bytes = true) ∧
    (scanStartCodes bitstream (bitstream.length + 1) 0 false = .idr ∨
      ∃ found, scanStartCodes bitstream (bitstream.length + 1) 0 false = .ended found) ∧
    (scanLengths bitstream (bitstream.length + 1) 0 = .idr ∨
      scanLengths bitstream (bitstream.length + 1) 0 = .ended false) := by
  refine ⟨?_, ?_, scanLengths_ends hfits _ 0 (Nat.zero_le _) (Nat.lt_succ_self _)⟩
  · cases frames with
    | nil => exact iff_of_false Bool.false_ne_true (by simp)
    | cons f rest =>
      have hstart : HasStartCode (annexB (f :: rest)) := by
        obtain ⟨header, body, hunit⟩ := List.exists_cons_of_ne_nil f.unit.nonempty
        have hmem : header ∈ headersBehind (annexB (f :: rest)) := by
          rw [headersBehind_annexB, List.flatMap_cons, hunit]
          exact List.mem_cons_self
        exact hasStartCode_of_header hmem
      rw [h264ContainsIdr_eq hframes, if_pos hstart, headersBehind_annexB, List.any_flatMap,
        List.any_eq_true]
      have hany : ∀ header : Option UInt8,
          header.toList.any isIdrHeader = header.any isIdrHeader := by
        rintro (_ | header)
        · rfl
        · exact Bool.or_false _
      simp only [isIdrUnit, hany]
  · rw [scanStartCodes_eq hfits _ 0 false (Nat.zero_le _) (Nat.lt_succ_self _)]
    split
    · exact Or.inl rfl
    · exact Or.inr ⟨_, rfl⟩

/-- A parameter set and an IDR slice of one byte, behind start codes of both lengths. -/
theorem annexB_idr_two :
    h264ContainsIdr [0, 0, 0, 1, 0x67, 0, 0, 0, 0, 1, 0x65] = true :=
  have hframes := @annexB_idr
    [⟨0, true, ⟨[0x67], by decide, by decide, by decide, by decide⟩⟩,
      ⟨2, false, ⟨[0x65], by decide, by decide, by decide, by decide⟩⟩]
    (by decide) [] (by decide)
  hframes.1.mpr (by decide)

/-! ## Units behind lengths -/

/-- A unit whose length fits four bytes. -/
structure AvccUnit where
  bytes : List UInt8
  nonempty : bytes ≠ []
  fits : bytes.length < 2 ^ 32

/-- `u32::to_be_bytes`. -/
def toBeBytes (n : Nat) : List UInt8 :=
  [UInt8.ofNat (n / 2 ^ 24), UInt8.ofNat (n / 2 ^ 16), UInt8.ofNat (n / 2 ^ 8), UInt8.ofNat n]

def AvccUnit.framed (u : AvccUnit) : List UInt8 := toBeBytes u.bytes.length ++ u.bytes

def avcc (units : List AvccUnit) : List UInt8 := units.flatMap AvccUnit.framed

theorem beLength_toBeBytes {bitstream rest : List UInt8} {i n : Nat} (hn : n < 2 ^ 32)
    (h : bitstream.drop i = toBeBytes n ++ rest) : beLength bitstream i = some n := by
  have hget : ∀ k, bitstream[i + k]? = (toBeBytes n ++ rest)[k]? := by
    intro k
    rw [← h, List.getElem?_drop]
  have h0 : bitstream[i]? = some (UInt8.ofNat (n / 2 ^ 24)) := hget 0
  have h1 : bitstream[i + 1]? = some (UInt8.ofNat (n / 2 ^ 16)) := hget 1
  have h2 : bitstream[i + 2]? = some (UInt8.ofNat (n / 2 ^ 8)) := hget 2
  have h3 : bitstream[i + 3]? = some (UInt8.ofNat n) := hget 3
  rw [beLength, h0, h1, h2, h3]
  show some _ = some n
  simp only [UInt8.toNat_ofNat']
  congr 1
  omega

/-- From the beginning of a length on, the second loop finds an IDR slice if there is one. -/
theorem scanLengths_avcc {bitstream : List UInt8} (hfits : bitstream.length < 2 ^ 63)
    (units : List AvccUnit) : ∀ fuel i : Nat, i ≤ bitstream.length →
      bitstream.length < fuel + i → bitstream.drop i = avcc units →
      (scanLengths bitstream fuel i = .idr ↔ ∃ u ∈ units, isIdrUnit u.bytes = true) := by
  induction units with
  | nil =>
    intro fuel i hi hfuel hdrop
    have hend : bitstream.length ≤ i := List.drop_eq_nil_iff.mp hdrop
    obtain ⟨fuel, rfl⟩ : ∃ n, fuel = n + 1 := ⟨fuel - 1, by omega⟩
    rw [scanLengths, if_neg (by omega)]
    exact iff_of_false nofun (by simp)
  | cons u units ih =>
    intro fuel i hi hfuel hdrop
    have hframed : bitstream.drop i = toBeBytes u.bytes.length ++ (u.bytes ++ avcc units) := by
      rw [hdrop, ← List.append_assoc]
      rfl
    have hbody : bitstream.drop (i + 4) = u.bytes ++ avcc units := by
      rw [← List.drop_drop, hframed]
      rfl
    have hrest : bitstream.drop (i + 4 + u.bytes.length) = avcc units := by
      rw [← List.drop_drop, hbody, List.drop_left]
    have hlen : bitstream.length - i = 4 + (u.bytes.length + (avcc units).length) := by
      rw [← List.length_drop, hframed, List.length_append, List.length_append]
      rfl
    obtain ⟨header, body, hunit⟩ := List.exists_cons_of_ne_nil u.nonempty
    have hpos : 0 < u.bytes.length := List.length_pos_of_ne_nil u.nonempty
    have hheader : bitstream[i + 4]? = some header := by
      have hget : (bitstream.drop (i + 4))[0]? = some header := by
        rw [hbody, hunit]
        rfl
      rwa [List.getElem?_drop] at hget
    obtain ⟨fuel, rfl⟩ : ∃ n, fuel = n + 1 := ⟨fuel - 1, by omega⟩
    have hidr : isIdrUnit u.bytes = isIdrHeader header := by
      rw [hunit]
      rfl
    rw [scanLengths, if_pos (by omega), beLength_toBeBytes u.fits hframed]
    dsimp only
    rw [saturatingAdd_eq (by omega), if_neg (by omega), if_neg (by omega), hheader,
      List.exists_mem_cons_iff, hidr]
    dsimp only
    split
    · next h => exact iff_of_true rfl (Or.inl h)
    · next h =>
      rw [saturatingAdd_eq (by omega), ih fuel _ (by omega) (by omega) hrest, or_iff_right h]

/-- A start code among the bytes of such a bitstream does no harm. -/
def StartCodesAgree (units : List AvccUnit) : Prop :=
  HasStartCode (avcc units) →
    ((∃ header ∈ headersBehind (avcc units), isIdrHeader header = true) ↔
      ∃ u ∈ units, isIdrUnit u.bytes = true)

/-- **AVCC.**  A bitstream of units behind lengths is judged by their types if and only if there is
no start code in it, or the bytes behind its start codes happen to say the same. -/
theorem avcc_idr {units : List AvccUnit} (hfits : (avcc units).length < 2 ^ 63) :
    (h264ContainsIdr (avcc units) = true ↔ ∃ u ∈ units, isIdrUnit u.bytes = true) ↔
      StartCodesAgree units := by
  rw [h264ContainsIdr_eq hfits, StartCodesAgree]
  by_cases hstart : HasStartCode (avcc units)
  · rw [if_pos hstart, List.any_eq_true]
    exact ⟨fun h _ => h, fun h => h hstart⟩
  · rw [if_neg hstart, decide_eq_true_eq]
    exact iff_of_true (scanLengths_avcc hfits units _ 0 (Nat.zero_le _) (Nat.lt_succ_self _) rfl)
      fun h => absurd h hstart

/-- An IDR slice of 256 bytes: its length looks like a start code. -/
def idrSlice : AvccUnit where
  bytes := 0x65 :: List.replicate 255 0x88
  nonempty := List.cons_ne_nil _ _
  fits := by rw [List.length_cons, List.length_replicate]; decide

theorem avcc_hides_idr : isIdrUnit idrSlice.bytes = true ∧
    ¬ (h264ContainsIdr (avcc [idrSlice]) = true ↔
      ∃ u ∈ [idrSlice], isIdrUnit u.bytes = true) := by
  have hlength : idrSlice.bytes.length = 256 := by
    show (0x65 :: List.replicate 255 (0x88 : UInt8)).length = 256
    rw [List.length_cons, List.length_replicate]
  have hbytes : avcc [idrSlice] = 0 :: 0 :: 1 :: 0 :: idrSlice.bytes := by
    rw [avcc, List.flatMap_singleton, AvccUnit.framed, hlength]
    rfl
  -- the slice has no zero, so the byte behind the length is the only one that counts
  have hnone : headersBehind idrSlice.bytes = [] := by
    refine List.eq_nil_iff_forall_not_mem.mpr fun header hmem => ?_
    obtain ⟨before, after, he⟩ := hasStartCode_of_header hmem
    have hzero : (0 : UInt8) ∈ idrSlice.bytes := by simp [← he]
    rcases List.mem_cons.mp hzero with hfirst | hrest
    · cases hfirst
    · cases List.eq_of_mem_replicate hrest
  have hfits : (avcc [idrSlice]).length < 2 ^ 63 := by
    rw [hbytes, List.length_cons, List.length_cons, List.length_cons, List.length_cons, hlength]
    decide
  have hmissed : h264ContainsIdr (avcc [idrSlice]) = false := by
    rw [h264ContainsIdr_eq hfits, hbytes, if_pos ⟨[], 0 :: idrSlice.bytes, rfl⟩]
    show (0 :: headersBehind idrSlice.bytes).any isIdrHeader = false
    rw [hnone]
    rfl
  refine ⟨rfl, fun h => ?_⟩
  rw [h.mpr ⟨idrSlice, List.mem_singleton_self _, rfl⟩] at hmissed
  cases hmissed

/-- Two slices of two bytes. -/
def shortSlices : List AvccUnit :=
  [⟨[0x41, 0x9a], by decide, by decide⟩, ⟨[0x65, 0x88], by decide, by decide⟩]

theorem avcc_idr_shortSlices : h264ContainsIdr (avcc shortSlices) = true := by
  have hnone : ¬ HasStartCode (avcc shortSlices) := by decide
  have hidr : ∃ u ∈ shortSlices, isIdrUnit u.bytes = true := by decide
  exact ((avcc_idr (by decide)).mpr fun h => absurd h hnone).mpr hidr

end CloudGame.Worker
