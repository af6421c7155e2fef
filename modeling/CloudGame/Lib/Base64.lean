import Mathlib.Data.List.Basic

/-!
# Base64

`Base64Codec` stands for an engine that encodes bytes as text and decodes them, and
`Base64Codec.Lawful` for what its users rely on.  `Base64Codec.standard` is the engine of the
standard alphabet with padding: a decoder that takes whole groups of four characters, padding only
at the end, and no padded group whose unused bits are set.

* `standard_lawful`: decoding undoes encoding.
* `standard_strict`: what is not of the alphabet is not decoded.
-/

namespace CloudGame.Lib

/-- A letter, a digit, `+`, `/` or the padding `=`. -/
def isBase64Char (c : Char) : Bool :=
  let n := c.toNat
  (65 ≤ n && n ≤ 90) || (97 ≤ n && n ≤ 122) || (48 ≤ n && n ≤ 57) || n == 43 || n == 47 || n == 61

structure Base64Codec where
  encode : List UInt8 → String
  decode : String → Option (List UInt8)

structure Base64Codec.Lawful (base64 : Base64Codec) : Prop where
  decode_encode : ∀ bytes, base64.decode (base64.encode bytes) = some bytes
  encode_nil : base64.encode [] = ""
  encode_chars : ∀ bytes, ∀ c ∈ (base64.encode bytes).toList, isBase64Char c = true

theorem Base64Codec.Lawful.encode_ne_empty {base64 : Base64Codec} (h : base64.Lawful)
    {bytes : List UInt8} (hne : bytes ≠ []) : base64.encode bytes ≠ "" := by
  intro he
  have h1 := h.decode_encode bytes
  have h2 := h.decode_encode []
  rw [he] at h1
  rw [h.encode_nil, h1] at h2
  exact hne (Option.some.inj h2)

/-- What a decoder with an alphabet refuses: other characters, and padding of a group that is not
begun. -/
structure Base64Codec.Strict (base64 : Base64Codec) : Prop where
  alphabet : ∀ s bytes, base64.decode s = some bytes → ∀ c ∈ s.toList, isBase64Char c = true
  padding : ∀ s bytes, base64.decode s = some bytes → s.toList[1]? ≠ some '='

/-! ## The standard alphabet -/

namespace Base64

/-- The character of six bits. -/
def encodeSextet (n : Nat) : Char :=
  if n < 26 then Char.ofNat (65 + n)
  else if n < 52 then Char.ofNat (97 + (n - 26))
  else if n < 62 then Char.ofNat (48 + (n - 52))
  else if n = 62 then '+'
  else '/'

def decodeSextet (c : Char) : Option Nat :=
  let n := c.toNat
  if 65 ≤ n ∧ n ≤ 90 then some (n - 65)
  else if 97 ≤ n ∧ n ≤ 122 then some (n - 97 + 26)
  else if 48 ≤ n ∧ n ≤ 57 then some (n - 48 + 52)
  else if n = 43 then some 62
  else if n = 47 then some 63
  else none

theorem decodeSextet_encodeSextet_all :
    ∀ n, n < 64 → decodeSextet (encodeSextet n) = some n := by decide

theorem decodeSextet_encodeSextet {n : Nat} (h : n < 64) :
    decodeSextet (encodeSextet n) = some n := decodeSextet_encodeSextet_all n h

theorem isBase64Char_encodeSextet_all : ∀ n, n < 64 → isBase64Char (encodeSextet n) = true := by
  decide

theorem encodeSextet_ne_pad_all : ∀ n, n < 64 → encodeSextet n ≠ '=' := by decide

/-! ## Groups of three bytes -/

def encodeGroup (a b c : Nat) : List Char :=
  [encodeSextet (a / 4), encodeSextet (a % 4 * 16 + b / 16), encodeSextet (b % 16 * 4 + c / 64),
    encodeSextet (c % 64)]

def encodeChars : List UInt8 → List Char
  | [] => []
  | [a] => [encodeSextet (a.toNat / 4), encodeSextet (a.toNat % 4 * 16), '=', '=']
  | [a, b] =>
    [encodeSextet (a.toNat / 4), encodeSextet (a.toNat % 4 * 16 + b.toNat / 16),
      encodeSextet (b.toNat % 16 * 4), '=']
  | a :: b :: c :: rest => encodeGroup a.toNat b.toNat c.toNat ++ encodeChars rest

/-- The byte of the last group when it is padded twice. -/
def decodeOne (w x : Nat) : Option (List UInt8) :=
  if x % 16 = 0 then some [UInt8.ofNat (w * 4 + x / 16)] else none

/-- The bytes of the last group when it is padded once. -/
def decodeTwo (w x y : Nat) : Option (List UInt8) :=
  if y % 4 = 0 then some [UInt8.ofNat (w * 4 + x / 16), UInt8.ofNat (x % 16 * 16 + y / 4)]
  else none

def decodeThree (w x y z : Nat) : List UInt8 :=
  [UInt8.ofNat (w * 4 + x / 16), UInt8.ofNat (x % 16 * 16 + y / 4), UInt8.ofNat (y % 4 * 64 + z)]

def decodeChars : List Char → Option (List UInt8)
  | [] => some []
  | w :: x :: y :: z :: rest => do
    let w ← decodeSextet w
    let x ← decodeSextet x
    if rest = [] ∧ z = '=' then
      if y = '=' then decodeOne w x
      else do
        let y ← decodeSextet y
        decodeTwo w x y
    else do
      let y ← decodeSextet y
      let z ← decodeSextet z
      let tail ← decodeChars rest
      return decodeThree w x y z ++ tail
  | _ => none

theorem ofNat_toNat_byte {n : Nat} {a : UInt8} (h : n = a.toNat) : UInt8.ofNat n = a := by
  rw [h, UInt8.ofNat_toNat]

theorem decodeOne_encode (a : UInt8) :
    decodeOne (a.toNat / 4) (a.toNat % 4 * 16) = some [a] := by
  have ha : UInt8.ofNat (a.toNat / 4 * 4 + a.toNat % 4 * 16 / 16) = a :=
    ofNat_toNat_byte (by omega)
  rw [decodeOne, if_pos (by omega), ha]

theorem decodeTwo_encode (a b : UInt8) :
    decodeTwo (a.toNat / 4) (a.toNat % 4 * 16 + b.toNat / 16) (b.toNat % 16 * 4) =
      some [a, b] := by
  have hlt := b.toNat_lt
  have ha : UInt8.ofNat (a.toNat / 4 * 4 + (a.toNat % 4 * 16 + b.toNat / 16) / 16) = a :=
    ofNat_toNat_byte (by omega)
  have hb : UInt8.ofNat ((a.toNat % 4 * 16 + b.toNat / 16) % 16 * 16 + b.toNat % 16 * 4 / 4) = b :=
    ofNat_toNat_byte (by omega)
  rw [decodeTwo, if_pos (by omega), ha, hb]

theorem decodeThree_encode (a b c : UInt8) :
    decodeThree (a.toNat / 4) (a.toNat % 4 * 16 + b.toNat / 16)
      (b.toNat % 16 * 4 + c.toNat / 64) (c.toNat % 64) = [a, b, c] := by
  have hb := b.toNat_lt
  have hc := c.toNat_lt
  unfold decodeThree
  rw [ofNat_toNat_byte (a := a) (by omega), ofNat_toNat_byte (a := b) (by omega),
    ofNat_toNat_byte (a := c) (by omega)]

/-- **Decoding undoes encoding**, by induction on the groups. -/
theorem decodeChars_encodeChars (bytes : List UInt8) :
    decodeChars (encodeChars bytes) = some bytes := by
  induction bytes using encodeChars.induct with
  | case1 => rfl
  | case2 a =>
    have ha := a.toNat_lt
    simp [encodeChars, decodeChars, decodeSextet_encodeSextet (n := a.toNat / 4) (by omega),
      decodeSextet_encodeSextet (n := a.toNat % 4 * 16) (by omega), decodeOne_encode]
  | case3 a b =>
    have ha := a.toNat_lt
    have hb := b.toNat_lt
    have hpad : encodeSextet (b.toNat % 16 * 4) ≠ '=' := encodeSextet_ne_pad_all _ (by omega)
    simp [encodeChars, decodeChars, hpad,
      decodeSextet_encodeSextet (n := a.toNat / 4) (by omega),
      decodeSextet_encodeSextet (n := a.toNat % 4 * 16 + b.toNat / 16) (by omega),
      decodeSextet_encodeSextet (n := b.toNat % 16 * 4) (by omega), decodeTwo_encode]
  | case4 a b c rest ih =>
    have ha := a.toNat_lt
    have hb := b.toNat_lt
    have hc := c.toNat_lt
    have hpad : encodeSextet (c.toNat % 64) ≠ '=' := encodeSextet_ne_pad_all _ (by omega)
    simp [encodeChars, encodeGroup, decodeChars, hpad, ih,
      decodeSextet_encodeSextet (n := a.toNat / 4) (by omega),
      decodeSextet_encodeSextet (n := a.toNat % 4 * 16 + b.toNat / 16) (by omega),
      decodeSextet_encodeSextet (n := b.toNat % 16 * 4 + c.toNat / 64) (by omega),
      decodeSextet_encodeSextet (n := c.toNat % 64) (by omega), decodeThree_encode]

theorem isBase64Char_encodeChars (bytes : List UInt8) :
    ∀ c ∈ encodeChars bytes, isBase64Char c = true := by
  have hs : ∀ n, n < 64 → isBase64Char (encodeSextet n) = true := isBase64Char_encodeSextet_all
  have hpad : isBase64Char '=' = true := by decide
  induction bytes using encodeChars.induct with
  | case1 => simp [encodeChars]
  | case2 a =>
    have ha := a.toNat_lt
    simp [encodeChars, hpad, hs (a.toNat / 4) (by omega), hs (a.toNat % 4 * 16) (by omega)]
  | case3 a b =>
    have ha := a.toNat_lt
    have hb := b.toNat_lt
    simp [encodeChars, hpad, hs (a.toNat / 4) (by omega),
      hs (a.toNat % 4 * 16 + b.toNat / 16) (by omega), hs (b.toNat % 16 * 4) (by omega)]
  | case4 a b c rest ih =>
    have ha := a.toNat_lt
    have hb := b.toNat_lt
    have hc := c.toNat_lt
    intro d hd
    rcases List.mem_append.mp hd with hd | hd
    · simp only [encodeGroup, List.mem_cons, List.not_mem_nil, or_false] at hd
      rcases hd with rfl | rfl | rfl | rfl <;> exact hs _ (by omega)
    · exact ih d hd

theorem isBase64Char_of_decodeSextet {c : Char} {n : Nat} (h : decodeSextet c = some n) :
    isBase64Char c = true ∧ c ≠ '=' := by
  have hpad : decodeSextet '=' = none := by decide
  refine ⟨?_, fun hc => by rw [hc, hpad] at h; cases h⟩
  simp only [decodeSextet] at h
  simp only [isBase64Char, Bool.or_eq_true, Bool.and_eq_true, decide_eq_true_eq, beq_iff_eq]
  split at h
  · omega
  split at h
  · omega
  split at h
  · omega
  split at h
  · omega
  split at h
  · omega
  · cases h

/-- What decodes is of the alphabet, by induction on the groups. -/
theorem isBase64Char_of_decodeChars (cs : List Char) :
    ∀ bytes, decodeChars cs = some bytes → ∀ c ∈ cs, isBase64Char c = true := by
  have hpad : isBase64Char '=' = true := by decide
  have hchar : ∀ {c : Char} {n : Nat}, decodeSextet c = some n → isBase64Char c = true :=
    fun h => (isBase64Char_of_decodeSextet h).1
  induction cs using decodeChars.induct with
  | case1 =>
    intro bytes _ c hc
    cases hc
  | case2 w x y z rest ih =>
    intro bytes h
    simp only [decodeChars, Option.bind_eq_bind, Option.bind_eq_some_iff] at h
    obtain ⟨_, hw, _, hx, h⟩ := h
    -- the last two characters and the rest
    have htail : isBase64Char y = true ∧ isBase64Char z = true ∧
        ∀ c ∈ rest, isBase64Char c = true := by
      split at h
      · next hlast =>
        obtain ⟨rfl, rfl⟩ := hlast
        refine ⟨?_, hpad, fun c hc => by cases hc⟩
        split at h
        · next hy =>
          rw [hy]
          exact hpad
        · obtain ⟨_, hy, -⟩ := Option.bind_eq_some_iff.mp h
          exact hchar hy
      · obtain ⟨_, hy, h⟩ := Option.bind_eq_some_iff.mp h
        obtain ⟨_, hz, h⟩ := Option.bind_eq_some_iff.mp h
        obtain ⟨tail, hrest, -⟩ := Option.bind_eq_some_iff.mp h
        exact ⟨hchar hy, hchar hz, ih tail hrest⟩
    intro c hc
    simp only [List.mem_cons] at hc
    rcases hc with rfl | rfl | rfl | rfl | hc
    · exact hchar hw
    · exact hchar hx
    · exact htail.1
    · exact htail.2.1
    · exact htail.2.2 c hc
  | case3 cs hnil hcons =>
    intro bytes h
    rw [decodeChars] at h
    · cases h
    · exact hnil
    · exact hcons

/-- A group begins with two characters that are not padding. -/
theorem decodeChars_padding {cs : List Char} {bytes : List UInt8}
    (h : decodeChars cs = some bytes) : cs[1]? ≠ some '=' := by
  unfold decodeChars at h
  split at h
  · nofun
  · simp only [Option.bind_eq_bind, Option.bind_eq_some_iff] at h
    obtain ⟨_, -, _, hx, -⟩ := h
    intro hc
    cases hc
    exact (isBase64Char_of_decodeSextet hx).2 rfl
  · cases h

end Base64

namespace Base64Codec

def standard : Base64Codec where
  encode bytes := String.ofList (Base64.encodeChars bytes)
  decode s := Base64.decodeChars s.toList

theorem standard_lawful : standard.Lawful where
  decode_encode bytes := by
    simp only [standard, String.toList_ofList]
    exact Base64.decodeChars_encodeChars bytes
  encode_nil := rfl
  encode_chars bytes := by
    simp only [standard, String.toList_ofList]
    exact Base64.isBase64Char_encodeChars bytes

theorem standard_strict : standard.Strict where
  alphabet s bytes h := Base64.isBase64Char_of_decodeChars s.toList bytes h
  padding _ _ h := Base64.decodeChars_padding h

example : standard.encode [118, 61, 48] = "dj0w" := by decide

example : standard.encode [118] = "dg==" := by decide

example : standard.decode "dh==" = none := by decide

end Base64Codec

end CloudGame.Lib
