import CloudGame.Lib.Mask
import CloudGame.Lib.UrlEncoded

/-!
# Query parameters of the signaling URL (`arcade-worker/src/url_utils.rs`)

`appendQueryParam` adds a parameter unless it finds one of that name, and
`redactUrlQueryParamForLog` hides the values of a parameter before the URL is logged.  The redaction
walks the bytes of the URL and pushes each as one character, so beyond ASCII it prints other text.

* `querySegments_append_param`, `formPair_paramSegment`: what is appended is the last segment of the
  query, and is read as the parameter with its value.
* `log_redaction`: no value of the parameter shows, and in ASCII URLs nothing else changes.
-/

namespace CloudGame.Worker

open CloudGame.Lib

/-! ## Functions -/

/-- The letters, digits and marks that stay as they are. -/
def isUnreserved (byte : UInt8) : Bool :=
  (0x41 ≤ byte && byte ≤ 0x5A) || (0x61 ≤ byte && byte ≤ 0x7A) || (0x30 ≤ byte && byte ≤ 0x39) ||
    byte == 0x2D || byte == 0x5F || byte == 0x2E || byte == 0x7E

/-- A hexadecimal digit as `{:X}` prints it. -/
def hexDigitUpper (n : Nat) : Char := if n < 10 then Char.ofNat (48 + n) else Char.ofNat (55 + n)

/-- `%{:02X}` -/
def percentEncode (byte : UInt8) : List Char :=
  ['%', hexDigitUpper (byte.toNat / 16), hexDigitUpper (byte.toNat % 16)]

def urlEncodeQueryComponent (value : String) : String :=
  String.ofList ((toBytes value).flatMap fun byte =>
    if isUnreserved byte then [Char.ofUInt8 byte] else percentEncode byte)

def appendQueryParam (url key : String) (value : Option String) : String :=
  match value with
  | none => url
  | some value =>
    let hasQuery := '?' ∈ url.toList
    if ("?" ++ key ++ "=").toList <:+: url.toList ∨ ("&" ++ key ++ "=").toList <:+: url.toList then
      url
    else
      url ++ (if hasQuery then "&" else "?") ++ key ++ "=" ++ urlEncodeQueryComponent value

/-- The loop of `redact_url_query_param_for_log` from a byte on. -/
def redactFrom (key : String) : List UInt8 → List Char
  | [] => []
  | byte :: tail =>
    if (byte = 0x3F ∨ byte = 0x26) ∧
        ((toBytes key).isPrefixOf tail ∧ tail[(toBytes key).length]? = some 0x3D) then
      Char.ofUInt8 byte :: (key.toList ++ '=' :: "[REDACTED]".toList ++
        redactFrom key ((tail.drop ((toBytes key).length + 1)).dropWhile fun b =>
          b ≠ 0x26 ∧ b ≠ 0x23))
    else Char.ofUInt8 byte :: redactFrom key tail
termination_by bytes => bytes.length
decreasing_by
  · have hle := (List.dropWhile_suffix (l := tail.drop ((toBytes key).length + 1))
      fun b => decide (b ≠ 0x26 ∧ b ≠ 0x23)).length_le
    rw [List.length_drop] at hle
    rw [List.length_cons]
    omega
  · exact Nat.lt_succ_self _

def redactUrlQueryParamForLog (url key : String) : String :=
  if url = "" ∨ key = "" then url else String.ofList (redactFrom key (toBytes url))

/-! ## Encoding -/

def encodedByte (byte : UInt8) : List Char :=
  if isUnreserved byte then [Char.ofUInt8 byte] else percentEncode byte

/-- Text of unreserved characters and escapes. -/
inductive Escaped : List Char → Prop
  | nil : Escaped []
  | unreserved {c : Char} {cs : List Char} : c.isAlphanum = true ∨ c ∈ ['-', '_', '.', '~'] →
      Escaped cs → Escaped (c :: cs)
  | triple {a b : Char} {cs : List Char} : a ∈ "0123456789ABCDEF".toList →
      b ∈ "0123456789ABCDEF".toList → Escaped cs → Escaped ('%' :: a :: b :: cs)

theorem isUnreserved_char_all : ∀ n < 256, isUnreserved (UInt8.ofNat n) = true →
    let c := Char.ofUInt8 (UInt8.ofNat n)
    (c.isAlphanum = true ∨ c ∈ ['-', '_', '.', '~']) ∧ IsAscii c ∧ c.toUInt8 = UInt8.ofNat n ∧
      c ≠ '%' ∧ c ≠ '+' ∧ c ≠ '&' ∧ c ≠ '#' := by
  decide +kernel

theorem hexDigitUpper_all : ∀ n < 16, JsonText.hexValue (hexDigitUpper n) = some n ∧
    hexDigitUpper n ∈ "0123456789ABCDEF".toList ∧ IsAscii (hexDigitUpper n) ∧
      hexDigitUpper n ≠ '&' ∧ hexDigitUpper n ≠ '#' := by
  decide +kernel

/-- What a byte is written as. -/
theorem encodedByte_codes (byte : UInt8) :
    Codes byte ((encodedByte byte).map Char.toUInt8) ∧
      (∀ cs, Escaped cs → Escaped (encodedByte byte ++ cs)) ∧
      ∀ c ∈ encodedByte byte, IsAscii c ∧ c ≠ '&' ∧ c ≠ '#' := by
  unfold encodedByte
  split
  · next hplain =>
    have hall := isUnreserved_char_all byte.toNat byte.toNat_lt
    rw [UInt8.ofNat_toNat] at hall
    obtain ⟨hmark, hascii, hbyte, hpercent, hplus, hamp, hhash⟩ := hall hplain
    refine ⟨?_, fun cs hcs => .unreserved hmark hcs, fun c hc => ?_⟩
    · rw [List.map_singleton, hbyte]
      refine .plain (fun he => hpercent ?_) fun he => hplus ?_
      · rw [he]
        rfl
      · rw [he]
        rfl
    · rw [List.mem_singleton.mp hc]
      exact ⟨hascii, hamp, hhash⟩
  · obtain ⟨hhigh, hhighMem, hhighAscii, hhighPlain⟩ :=
      hexDigitUpper_all (byte.toNat / 16) (Nat.div_lt_of_lt_mul byte.toNat_lt)
    obtain ⟨hlow, hlowMem, hlowAscii, hlowPlain⟩ :=
      hexDigitUpper_all (byte.toNat % 16) (Nat.mod_lt _ (by decide))
    refine ⟨.escape ?_, fun cs hcs => .triple hhighMem hlowMem hcs, fun c hc => ?_⟩
    · rw [hexByte, ofUInt8_toUInt8 hhighAscii, ofUInt8_toUInt8 hlowAscii, hhigh, hlow]
      show some (UInt8.ofNat (16 * (byte.toNat / 16) + byte.toNat % 16)) = some byte
      rw [Nat.div_add_mod, UInt8.ofNat_toNat]
    · rcases List.mem_cons.mp hc with rfl | hc
      · decide
      · rcases List.mem_cons.mp hc with rfl | hc
        · exact ⟨hhighAscii, hhighPlain⟩
        · rw [List.mem_singleton.mp hc]
          exact ⟨hlowAscii, hlowPlain⟩

theorem toList_urlEncode (value : String) :
    (urlEncodeQueryComponent value).toList = (toBytes value).flatMap encodedByte :=
  String.toList_ofList

theorem urlEncode_escaped (value : String) : Escaped (urlEncodeQueryComponent value).toList := by
  rw [toList_urlEncode]
  induction toBytes value with
  | nil => exact .nil
  | cons byte bytes ih => exact (encodedByte_codes byte).2.1 _ ih

theorem mem_urlEncode {value : String} {c : Char}
    (hc : c ∈ (urlEncodeQueryComponent value).toList) : IsAscii c ∧ c ≠ '&' ∧ c ≠ '#' := by
  rw [toList_urlEncode] at hc
  obtain ⟨byte, -, hbyte⟩ := List.mem_flatMap.mp hc
  exact (encodedByte_codes byte).2.2 c hbyte

/-- The encoded value is read back. -/
theorem formDecode_urlEncode (value : String) :
    formDecode (toBytes (urlEncodeQueryComponent value)) = toBytes value := by
  have hbytes : toBytes (urlEncodeQueryComponent value) =
      (toBytes value).flatMap fun byte => (encodedByte byte).map Char.toUInt8 := by
    rw [toBytes_ascii fun c hc => (mem_urlEncode hc).1, toList_urlEncode, List.map_flatMap]
  rw [hbytes]
  exact formDecode_flatMap fun byte _ => (encodedByte_codes byte).1

/-! ## Appending -/

/-- A key that cannot be taken for the delimiters of a query. -/
def PlainKey (key : String) : Prop := ∀ c ∈ key.toList, c ≠ '?' ∧ c ≠ '&' ∧ c ≠ '#'

instance (key : String) : Decidable (PlainKey key) := List.decidableBAll _ _

section Appending

variable {url key : String}

/-- The test for a parameter of the name: a search for the text `?key=` or `&key=`. -/
def HasParam (url key : String) : Prop :=
  ("?" ++ key ++ "=").toList <:+: url.toList ∨ ("&" ++ key ++ "=").toList <:+: url.toList

instance (url key : String) : Decidable (HasParam url key) :=
  inferInstanceAs (Decidable (_ ∨ _))

theorem append_of_hasParam (h : HasParam url key) (value : Option String) :
    appendQueryParam url key value = url := by
  unfold appendQueryParam
  cases value with
  | none => rfl
  | some value => exact if_pos h

theorem append_of_not_hasParam (h : ¬ HasParam url key) (value : String) :
    appendQueryParam url key (some value) =
      url ++ (if '?' ∈ url.toList then "&" else "?") ++ key ++ "=" ++
        urlEncodeQueryComponent value :=
  if_neg h

example : appendQueryParam "ws://example.com/ws?x=1" "token" (some "a b") =
    "ws://example.com/ws?x=1&token=a%20b" := by decide +kernel

/-- A parameter that was appended is found. -/
theorem append_hasParam (url key value : String) :
    HasParam (appendQueryParam url key (some value)) key := by
  by_cases h : HasParam url key
  · rwa [append_of_hasParam h]
  · rw [append_of_not_hasParam h]
    unfold HasParam
    split
    · refine .inr ⟨url.toList, (urlEncodeQueryComponent value).toList, ?_⟩
      simp
    · refine .inl ⟨url.toList, (urlEncodeQueryComponent value).toList, ?_⟩
      simp

/-- The segment of a parameter. -/
def paramSegment (key value : String) : List UInt8 :=
  toBytes key ++ 0x3D :: toBytes (urlEncodeQueryComponent value)

theorem toBytes_append_param (h : ¬ HasParam url key) (value : String) :
    toBytes (appendQueryParam url key (some value)) =
      toBytes url ++ (if 0x3F ∈ toBytes url then 0x26 else 0x3F) :: paramSegment key value := by
  have hmem : (0x3F : UInt8) ∈ toBytes url ↔ '?' ∈ url.toList :=
    toUInt8_mem_toBytes (by decide : IsAscii '?')
  have hsep : toBytes (if '?' ∈ url.toList then "&" else "?") =
      [if (0x3F : UInt8) ∈ toBytes url then 0x26 else 0x3F] := by
    by_cases hquery : '?' ∈ url.toList
    · rw [if_pos hquery, if_pos (hmem.mpr hquery)]
      rfl
    · rw [if_neg hquery, if_neg (mt hmem.mp hquery)]
      rfl
  rw [append_of_not_hasParam h]
  simp only [toBytes_append, hsep, paramSegment, List.append_assoc, List.singleton_append]
  rfl

/-- The appended parameter is the last segment, and the others stay. -/
theorem querySegments_append_param (hkey : PlainKey key) (hurl : '#' ∉ url.toList)
    (h : ¬ HasParam url key) (value : String) :
    querySegments (toBytes (appendQueryParam url key (some value))) =
      querySegments (toBytes url) ++ [paramSegment key value] := by
  have hseg : ∀ c : Char, IsAscii c → c ≠ '=' → c ∉ key.toList →
      c ∉ (urlEncodeQueryComponent value).toList → c.toUInt8 ∉ paramSegment key value := by
    intro c hc hequals hnotKey hnotValue hmem
    rcases List.mem_append.mp hmem with hmem | hmem
    · exact hnotKey ((toUInt8_mem_toBytes hc).mp hmem)
    · rcases List.mem_cons.mp hmem with he | hmem
      · exact hequals (toUInt8_inj hc (by decide : IsAscii '=') he)
      · exact hnotValue ((toUInt8_mem_toBytes hc).mp hmem)
  rw [toBytes_append_param h]
  refine querySegments_append ?_ ?_ ?_
  · exact fun hmem => hurl ((toUInt8_mem_toBytes (by decide : IsAscii '#')).mp hmem)
  · exact hseg '&' (by decide) (by decide) (fun hmem => (hkey _ hmem).2.1 rfl)
      fun hmem => (mem_urlEncode hmem).2.1 rfl
  · exact hseg '#' (by decide) (by decide) (fun hmem => (hkey _ hmem).2.2 rfl)
      fun hmem => (mem_urlEncode hmem).2.2 rfl

/-- A key of letters needs no escapes. -/
theorem formPair_paramSegment (hkey : ∀ c ∈ ['=', '%', '+'], c ∉ key.toList) (value : String) :
    formPair (paramSegment key value) = (toBytes key, toBytes value) := by
  have hne : ∀ c ∈ ['=', '%', '+'], IsAscii c → ∀ b ∈ toBytes key, b ≠ c.toUInt8 :=
    fun c hc hascii b hb => ne_toUInt8 hascii (hkey c hc) hb
  have hequals : 0x3D ∉ toBytes key := fun hmem => hne '=' (by simp) (by decide) _ hmem rfl
  have hplain : ∀ b ∈ toBytes key, b ≠ 0x25 ∧ b ≠ 0x2B :=
    fun b hb => ⟨hne '%' (by simp) (by decide) b hb, hne '+' (by simp) (by decide) b hb⟩
  rw [paramSegment, formPair_append hequals hplain, formDecode_urlEncode]

end Appending

/-! ## Redaction as masking -/

/-- The parameter in the bytes of a URL. -/
def byteField (key : String) (hkey : PlainKey key) : FieldFormat UInt8 where
  isSep b := b = 0x3F || b = 0x26
  isStop b := b = 0x26 || b = 0x23
  name := toBytes key ++ [0x3D]
  plain := by
    intro b hb
    rcases List.mem_append.mp hb with hb | hb
    · have hne : ∀ c : Char, IsAscii c → c ∉ key.toList → b ≠ c.toUInt8 :=
        fun c hc hnot => ne_toUInt8 hc hnot hb
      have hq : b ≠ 0x3F := hne '?' (by decide) fun hmem => (hkey _ hmem).1 rfl
      have ha : b ≠ 0x26 := hne '&' (by decide) fun hmem => (hkey _ hmem).2.1 rfl
      have hh : b ≠ 0x23 := hne '#' (by decide) fun hmem => (hkey _ hmem).2.2 rfl
      simp [hq, ha, hh]
    · rw [List.mem_singleton.mp hb]
      decide

/-- The parameter in the characters of a URL. -/
def charField (key : String) (hkey : PlainKey key) : FieldFormat Char where
  isSep c := c = '?' || c = '&'
  isStop c := c = '&' || c = '#'
  name := key.toList ++ ['=']
  plain := by
    intro c hc
    rcases List.mem_append.mp hc with hc | hc
    · obtain ⟨hq, ha, hh⟩ := hkey c hc
      simp [hq, ha, hh]
    · rw [List.mem_singleton.mp hc]
      decide

def redactedText : List Char := "[REDACTED]".toList

theorem redactedText_plain :
    ∀ c ∈ redactedText, IsAscii c ∧ c ≠ '?' ∧ c ≠ '&' ∧ c ≠ '#' := by
  have hall : redactedText.all
      (fun c => decide (IsAscii c ∧ c ≠ '?' ∧ c ≠ '&' ∧ c ≠ '#')) = true := by decide
  exact fun c hc => of_decide_eq_true (List.all_eq_true.mp hall c hc)

/-- The key and the `=` follow. -/
theorem startsWith_key_iff {key tail : List UInt8} :
    (key.isPrefixOf tail = true ∧ tail[key.length]? = some 0x3D) ↔ key ++ [0x3D] <+: tail := by
  constructor
  · rintro ⟨hstarts, hequals⟩
    obtain ⟨rest, rfl⟩ := List.isPrefixOf_iff_prefix.mp hstarts
    rw [List.getElem?_append_right (Nat.le_refl _), Nat.sub_self] at hequals
    cases rest with
    | nil => cases hequals
    | cons b rest =>
      obtain rfl : b = 0x3D := Option.some.inj hequals
      exact ⟨rest, by simp⟩
  · rintro ⟨rest, rfl⟩
    refine ⟨List.isPrefixOf_iff_prefix.mpr ⟨0x3D :: rest, by simp⟩, ?_⟩
    rw [List.append_assoc, List.getElem?_append_right (Nat.le_refl _), Nat.sub_self]
    rfl

theorem byteField_name {key : String} (hkey : PlainKey key) :
    (byteField key hkey).name = toBytes key ++ [0x3D] := rfl

theorem byteField_sep {key : String} (hkey : PlainKey key) (b : UInt8) :
    (byteField key hkey).isSep b = true ↔ b = 0x3F ∨ b = 0x26 := by
  simp [byteField]

theorem byteField_afterValue {key : String} (hkey : PlainKey key) (bytes : List UInt8) :
    (byteField key hkey).afterValue bytes = bytes.dropWhile fun b => b ≠ 0x26 ∧ b ≠ 0x23 := by
  unfold FieldFormat.afterValue byteField
  simp

theorem charField_name {key : String} (hkey : PlainKey key) :
    (charField key hkey).name = key.toList ++ ['='] := rfl

theorem redactFrom_eq_mask {key : String} (hkey : PlainKey key) (bytes : List UInt8) :
    redactFrom key bytes = (byteField key hkey).mask Char.ofUInt8
      ((charField key hkey).name ++ redactedText) bytes := by
  induction bytes using redactFrom.induct key with
  | case1 => rw [redactFrom, FieldFormat.mask_nil]
  | case2 byte tail hmatch ih =>
    obtain ⟨rest, rfl⟩ := startsWith_key_iff.mp hmatch.2
    have hdrop : (toBytes key ++ [0x3D] ++ rest).drop ((toBytes key).length + 1) = rest :=
      List.drop_left' (by simp)
    rw [hdrop, ← byteField_afterValue hkey] at ih
    rw [redactFrom, if_pos hmatch, hdrop, ← byteField_afterValue hkey, ih, ← byteField_name hkey,
      FieldFormat.mask_value ((byteField_sep hkey byte).mpr hmatch.1), charField_name hkey,
      List.append_assoc, List.append_assoc, List.append_assoc]
    rfl
  | case3 byte tail hmatch ih =>
    rw [redactFrom, if_neg hmatch, FieldFormat.mask_copy, ih]
    intro hsep hstarts
    exact hmatch ⟨(byteField_sep hkey byte).mp hsep, startsWith_key_iff.mpr hstarts⟩

/-- In ASCII text the name is found in the bytes where it is in the characters. -/
theorem name_prefix_ascii {key : String} (hkey : PlainKey key) {cs : List Char}
    (hascii : ∀ c ∈ cs, IsAscii c) :
    ((byteField key hkey).name <+: cs.map Char.toUInt8 ↔ (charField key hkey).name <+: cs) ∧
      ((charField key hkey).name <+: cs →
        (byteField key hkey).name.length = (charField key hkey).name.length) := by
  have hbytes : (∀ c ∈ key.toList, IsAscii c) →
      (byteField key hkey).name = (charField key hkey).name.map Char.toUInt8 := by
    intro hk
    rw [byteField_name, charField_name, toBytes_ascii hk, List.map_append]
    rfl
  have hkeyAscii : (charField key hkey).name <+: cs → ∀ c ∈ key.toList, IsAscii c := by
    intro hstarts c hc
    refine hascii c (hstarts.subset ?_)
    rw [charField_name]
    exact List.mem_append_left _ hc
  refine ⟨⟨fun h => ?_, fun h => ?_⟩, fun h => ?_⟩
  · have hk : ∀ c ∈ key.toList, IsAscii c := by
      refine isAscii_of_bytes fun b hb => ?_
      have hmem : b ∈ cs.map Char.toUInt8 := by
        refine h.subset ?_
        rw [byteField_name]
        exact List.mem_append_left _ hb
      obtain ⟨c, hc, rfl⟩ := List.mem_map.mp hmem
      rw [toNat_toUInt8 (hascii c hc)]
      exact hascii c hc
    have hname : ∀ c ∈ (charField key hkey).name, IsAscii c := by
      intro c hc
      rw [charField_name] at hc
      rcases List.mem_append.mp hc with hc | hc
      · exact hk c hc
      · rw [List.mem_singleton.mp hc]
        decide
    have hmap := h.map Char.ofUInt8
    rwa [hbytes hk, map_ofUInt8_toUInt8 hname, map_ofUInt8_toUInt8 hascii] at hmap
  · rw [hbytes (hkeyAscii h)]
    exact h.map Char.toUInt8
  · rw [hbytes (hkeyAscii h), List.length_map]

/-- On ASCII text the bytes are the characters. -/
theorem redactFrom_ascii {key : String} (hkey : PlainKey key) {cs : List Char}
    (hascii : ∀ c ∈ cs, IsAscii c) : redactFrom key (cs.map Char.toUInt8) =
      (charField key hkey).mask id ((charField key hkey).name ++ redactedText) cs := by
  have hbyte : ∀ c ∈ cs, ∀ d : Char, IsAscii d → (c.toUInt8 = d.toUInt8 ↔ c = d) :=
    fun c hc d hd => ⟨toUInt8_inj (hascii c hc) hd, fun he => by rw [he]⟩
  have hsep : ∀ c ∈ cs, (byteField key hkey).isSep c.toUInt8 = (charField key hkey).isSep c := by
    intro c hc
    have hq := hbyte c hc '?' (by decide)
    have ha := hbyte c hc '&' (by decide)
    exact congrArg₂ (· || ·) (decide_eq_decide.mpr hq) (decide_eq_decide.mpr ha)
  have hstop : ∀ c ∈ cs, (byteField key hkey).isStop c.toUInt8 = (charField key hkey).isStop c := by
    intro c hc
    have ha := hbyte c hc '&' (by decide)
    have hh := hbyte c hc '#' (by decide)
    exact congrArg₂ (· || ·) (decide_eq_decide.mpr ha) (decide_eq_decide.mpr hh)
  have hsuffix : ∀ ys, ys <:+ cs → ∀ c ∈ ys, IsAscii c := fun ys hys c hc =>
    hascii c (hys.subset hc)
  rw [redactFrom_eq_mask hkey]
  exact FieldFormat.mask_map (fun c hc => ofUInt8_toUInt8 (hascii c hc)) hsep hstop
    (fun ys hys => (name_prefix_ascii hkey (hsuffix ys hys)).1)
    fun ys hys => (name_prefix_ascii hkey (hsuffix ys hys)).2

/-! ## Nothing shows, and nothing else changes -/

/-- Text that ends a value, if there is any. -/
def EndsValue (suffix : String) : Prop := ∀ c ∈ suffix.toList.head?, c = '&' ∨ c = '#'

theorem byteField_isStop_toBytes {key v : String} (hkey : PlainKey key)
    (hv : ∀ c ∈ v.toList, c ≠ '&' ∧ c ≠ '#') :
    ∀ b ∈ toBytes v, (byteField key hkey).isStop b = false := by
  intro b hb
  have hne : ∀ c : Char, IsAscii c → c ∉ v.toList → b ≠ c.toUInt8 :=
    fun c hc hnot => ne_toUInt8 hc hnot hb
  have ha : b ≠ 0x26 := hne '&' (by decide) fun hmem => (hv _ hmem).1 rfl
  have hh : b ≠ 0x23 := hne '#' (by decide) fun hmem => (hv _ hmem).2 rfl
  simp [byteField, ha, hh]

theorem byteField_atStop {key suffix : String} (hkey : PlainKey key) (hends : EndsValue suffix) :
    (byteField key hkey).AtStop (toBytes suffix) := by
  rw [toBytes_eq_flatMap]
  cases hs : suffix.toList with
  | nil => exact nofun
  | cons c cs =>
    have hc := hends c (by rw [hs]; rfl)
    have hascii : IsAscii c := by
      rcases hc with rfl | rfl
      · decide
      · decide
    rw [List.flatMap_cons, utf8EncodeChar_of_ascii hascii]
    rintro b ⟨⟩
    rcases hc with rfl | rfl
    · rfl
    · rfl

section Redaction

variable {key : String}

/-- The redacted URL, whose parameter comes after `before` and `s`. -/
theorem redact_field (hkey : PlainKey key) (hne : key ≠ "") (before v suffix : String) {s : Char}
    (hs : IsAscii s) :
    redactUrlQueryParamForLog (before ++ s.toString ++ key ++ "=" ++ v ++ suffix) key =
      String.ofList ((byteField key hkey).mask Char.ofUInt8
        ((charField key hkey).name ++ redactedText) (toBytes before ++ s.toUInt8 ::
          ((byteField key hkey).name ++ (toBytes v ++ toBytes suffix)))) := by
  have hsingle : toBytes s.toString = [s.toUInt8] := by
    rw [toBytes_eq_flatMap, Char.toString_eq_singleton, String.toList_singleton,
      List.flatMap_singleton, utf8EncodeChar_of_ascii hs]
  have hurl : before ++ s.toString ++ key ++ "=" ++ v ++ suffix ≠ "" := by
    intro he
    have hempty := congrArg String.toList he
    simp at hempty
  have hbytes : toBytes (before ++ s.toString ++ key ++ "=" ++ v ++ suffix) =
      toBytes before ++ s.toUInt8 ::
        ((byteField key hkey).name ++ (toBytes v ++ toBytes suffix)) := by
    simp only [toBytes_append, hsingle, byteField_name, List.append_assoc, List.singleton_append]
    rfl
  rw [redactUrlQueryParamForLog, if_neg (not_or.mpr ⟨hurl, hne⟩), hbytes, redactFrom_eq_mask hkey]

theorem redact_ascii (hkey : PlainKey key) (hne : key ≠ "") {url : String}
    (hascii : ∀ c ∈ url.toList, IsAscii c) : (redactUrlQueryParamForLog url key).toList =
      (charField key hkey).mask id ((charField key hkey).name ++ redactedText) url.toList := by
  unfold redactUrlQueryParamForLog
  split
  · next hempty =>
    rw [hempty.resolve_right hne]
    exact FieldFormat.mask_nil.symm
  · rw [String.toList_ofList, toBytes_ascii hascii, redactFrom_ascii hkey hascii]

/-- **Log redaction.**  Two URLs that differ in a value of the parameter are logged alike.  In ASCII
URLs nothing changes but values of the parameter, all of them are the placeholder afterwards, and
redacting once more changes nothing. -/
theorem log_redaction (hkey : PlainKey key) (hne : key ≠ "") :
    (∀ (before v₁ v₂ suffix : String) (s : Char), s = '?' ∨ s = '&' →
      (∀ c ∈ v₁.toList, c ≠ '&' ∧ c ≠ '#') → (∀ c ∈ v₂.toList, c ≠ '&' ∧ c ≠ '#') →
      EndsValue suffix →
      redactUrlQueryParamForLog (before ++ s.toString ++ key ++ "=" ++ v₁ ++ suffix) key =
        redactUrlQueryParamForLog (before ++ s.toString ++ key ++ "=" ++ v₂ ++ suffix) key) ∧
    ∀ url : String, (∀ c ∈ url.toList, IsAscii c) →
      (charField key hkey).Masked redactedText url.toList
        (redactUrlQueryParamForLog url key).toList ∧
      (charField key hkey).AllMasked redactedText (redactUrlQueryParamForLog url key).toList ∧
      redactUrlQueryParamForLog (redactUrlQueryParamForLog url key) key =
        redactUrlQueryParamForLog url key := by
  refine ⟨fun before v₁ v₂ suffix s hs hv₁ hv₂ hends => ?_, fun url hascii => ?_⟩
  · have hsAscii : IsAscii s := by
      rcases hs with rfl | rfl
      · decide
      · decide
    have hsep : (byteField key hkey).isSep s.toUInt8 = true := by
      rcases hs with rfl | rfl
      · rfl
      · rfl
    rw [redact_field hkey hne before v₁ suffix hsAscii,
      redact_field hkey hne before v₂ suffix hsAscii,
      FieldFormat.mask_value_irrelevant _ hsep (byteField_isStop_toBytes hkey hv₁)
        (byteField_isStop_toBytes hkey hv₂) (byteField_atStop hkey hends)]
  · have hplain : ∀ a ∈ redactedText,
        (charField key hkey).isSep a = false ∧ (charField key hkey).isStop a = false := by
      intro a ha
      simp [charField, redactedText_plain a ha]
    have hmasked : (charField key hkey).Masked redactedText url.toList _ :=
      FieldFormat.masked_mask url.toList
    have hall : (charField key hkey).AllMasked redactedText _ :=
      FieldFormat.allMasked_mask (fun a ha => (hplain a ha).1) url.toList
    rw [← redact_ascii hkey hne hascii] at hmasked hall
    refine ⟨hmasked, hall, String.toList_inj.mp ?_⟩
    have hout : ∀ c ∈ (redactUrlQueryParamForLog url key).toList, IsAscii c := by
      intro c hc
      rcases hmasked.mem hc with hold | hnew
      · exact hascii c hold
      · exact (redactedText_plain c hnew).1
    rw [redact_ascii hkey hne hout]
    exact FieldFormat.mask_eq_self (fun a ha => (hplain a ha).2) hall

theorem log_redaction_token : redactUrlQueryParamForLog "ws://signal/wws?token=secret&x=1" "token" =
    redactUrlQueryParamForLog "ws://signal/wws?token=other&x=1" "token" :=
  have hkey : PlainKey "token" := by decide
  (log_redaction hkey (by decide)).1 "ws://signal/wws" "secret" "other" "&x=1" '?' (.inl rfl)
    (by simp) (by simp) (by simp [EndsValue])

end Redaction

end CloudGame.Worker
