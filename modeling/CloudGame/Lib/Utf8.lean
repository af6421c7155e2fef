import CloudGame.Lib.JsonText

/-!
# The bytes of text

UTF-8 keeps ASCII apart: an ASCII character is one byte, and no byte of another character is below
128.  So the bytes of ASCII text are its characters, and an ASCII byte is found in the bytes of a
text exactly where its character is in the text.
-/

namespace CloudGame.Lib

def IsAscii (c : Char) : Prop := c.toNat < 128

instance (c : Char) : Decidable (IsAscii c) := inferInstanceAs (Decidable (_ < _))

@[simp] theorem toBytes_append (s t : String) : toBytes (s ++ t) = toBytes s ++ toBytes t := by
  simp [toBytes, String.toByteArray_append]

theorem toBytes_eq_flatMap (s : String) : toBytes s = s.toList.flatMap String.utf8EncodeChar := by
  rw [toBytes, ← String.utf8Encode_toList, List.utf8Encode, List.data_toByteArray]

theorem utf8EncodeChar_of_ascii {c : Char} (h : IsAscii c) :
    String.utf8EncodeChar c = [c.toUInt8] := by
  have hle : c.val.toNat ≤ 0x7f := Nat.le_of_lt_succ h
  rw [String.utf8EncodeChar, if_pos hle, UInt8.ofNat_uInt32ToNat]
  rfl

theorem le_of_mem_utf8EncodeChar {c : Char} (h : ¬ IsAscii c) :
    ∀ b ∈ String.utf8EncodeChar c, 128 ≤ b.toNat := by
  have hgt : ¬ c.val.toNat ≤ 0x7f := fun hle => h (Nat.lt_succ_of_le hle)
  have hbyte : ∀ n : Nat, 128 ≤ n → n < 256 → 128 ≤ (UInt8.ofNat n).toNat := by
    intro n hn hlt
    rwa [UInt8.toNat_ofNat', Nat.mod_eq_of_lt hlt]
  intro b hb
  simp only [String.utf8EncodeChar, if_neg hgt] at hb
  split at hb
  · simp only [List.mem_cons, List.not_mem_nil, or_false] at hb
    rcases hb with rfl | rfl <;> exact hbyte _ (by omega) (by omega)
  · split at hb
    · simp only [List.mem_cons, List.not_mem_nil, or_false] at hb
      rcases hb with rfl | rfl | rfl <;> exact hbyte _ (by omega) (by omega)
    · simp only [List.mem_cons, List.not_mem_nil, or_false] at hb
      rcases hb with rfl | rfl | rfl | rfl <;> exact hbyte _ (by omega) (by omega)

theorem toNat_toUInt8 {c : Char} (h : IsAscii c) : c.toUInt8.toNat = c.toNat := by
  show c.val.toUInt8.toNat = c.val.toNat
  rw [UInt32.toNat_toUInt8]
  exact Nat.mod_eq_of_lt (Nat.lt_trans h (by decide))

theorem ofUInt8_toUInt8 {c : Char} (h : IsAscii c) : Char.ofUInt8 c.toUInt8 = c := by
  refine Char.toNat_inj.mp ?_
  rw [← toNat_toUInt8 h]
  rfl

theorem toUInt8_inj {c d : Char} (hc : IsAscii c) (hd : IsAscii d) (h : c.toUInt8 = d.toUInt8) :
    c = d := by
  rw [← ofUInt8_toUInt8 hc, h, ofUInt8_toUInt8 hd]

/-- An ASCII byte is where its character is. -/
theorem toUInt8_mem_toBytes {c : Char} (hc : IsAscii c) {s : String} :
    c.toUInt8 ∈ toBytes s ↔ c ∈ s.toList := by
  rw [toBytes_eq_flatMap, List.mem_flatMap]
  constructor
  · rintro ⟨d, hd, hmem⟩
    by_cases hascii : IsAscii d
    · rw [utf8EncodeChar_of_ascii hascii, List.mem_singleton] at hmem
      rwa [toUInt8_inj hc hascii hmem]
    · have hle := le_of_mem_utf8EncodeChar hascii _ hmem
      rw [toNat_toUInt8 hc] at hle
      exact absurd hc (Nat.not_lt.mpr hle)
  · intro hmem
    exact ⟨c, hmem, by rw [utf8EncodeChar_of_ascii hc]; exact List.mem_singleton.mpr rfl⟩

theorem ne_toUInt8 {c : Char} (hc : IsAscii c) {s : String} (hnot : c ∉ s.toList) {b : UInt8}
    (hb : b ∈ toBytes s) : b ≠ c.toUInt8 := by
  rintro rfl
  exact hnot ((toUInt8_mem_toBytes hc).mp hb)

theorem flatMap_utf8EncodeChar_ascii {cs : List Char} (h : ∀ c ∈ cs, IsAscii c) :
    cs.flatMap String.utf8EncodeChar = cs.map Char.toUInt8 := by
  rw [List.map_eq_flatMap]
  exact List.flatMap_congr fun c hc => utf8EncodeChar_of_ascii (h c hc)

theorem toBytes_ascii {s : String} (h : ∀ c ∈ s.toList, IsAscii c) :
    toBytes s = s.toList.map Char.toUInt8 := by
  rw [toBytes_eq_flatMap, flatMap_utf8EncodeChar_ascii h]

theorem map_ofUInt8_toUInt8 {cs : List Char} (h : ∀ c ∈ cs, IsAscii c) :
    (cs.map Char.toUInt8).map Char.ofUInt8 = cs := by
  rw [List.map_map]
  exact (List.map_congr_left fun c hc => ofUInt8_toUInt8 (h c hc)).trans (List.map_id _)

/-- Text whose bytes are all below 128 is ASCII. -/
theorem isAscii_of_bytes {s : String} (h : ∀ b ∈ toBytes s, b.toNat < 128) :
    ∀ c ∈ s.toList, IsAscii c := by
  intro c hc
  by_contra hnot
  obtain ⟨b, hb⟩ := List.exists_mem_of_ne_nil _ (String.utf8EncodeChar_ne_nil (c := c))
  have hlt := h b (by rw [toBytes_eq_flatMap]; exact List.mem_flatMap.mpr ⟨c, hc, hb⟩)
  have hle := le_of_mem_utf8EncodeChar hnot b hb
  omega

end CloudGame.Lib
