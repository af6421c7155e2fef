import CloudGame.Lib.JsJson
import CloudGame.Lib.Utf8

/-!
# Bytes as the characters of Latin-1

`atob` gives a script the bytes of a base64 text as characters, one for each byte.  So JSON text
that comes as UTF-8 is read with the bytes of each string in place of its characters.

* `latin1_toBytes_eq_self`: the same text exactly if it is ASCII.
* `latin1_jsonStringify`: the text of an object of strings is that of an object again.
-/

namespace CloudGame.Lib

open CloudGame.Lib.JsonText (escapeChar shortEscape printString printField printFields
  printObject)

/-- The text with one character for each byte. -/
def latin1 (bytes : List UInt8) : String := String.ofList (bytes.map Char.ofUInt8)

/-- The characters whose codes are the bytes of `cs`. -/
def bytewise (cs : List Char) : List Char :=
  cs.flatMap fun c => (String.utf8EncodeChar c).map Char.ofUInt8

theorem latin1_toBytes (s : String) : latin1 (toBytes s) = String.ofList (bytewise s.toList) := by
  rw [latin1, toBytes_eq_flatMap, List.map_flatMap, bytewise]

@[simp] theorem bytewise_append (cs ds : List Char) :
    bytewise (cs ++ ds) = bytewise cs ++ bytewise ds := List.flatMap_append

theorem ascii_of_all {cs : List Char} (h : cs.all (fun c => decide (IsAscii c)) = true) :
    ∀ c ∈ cs, IsAscii c :=
  fun c hc => of_decide_eq_true (List.all_eq_true.mp h c hc)

theorem bytewise_char_ascii {c : Char} (h : IsAscii c) :
    (String.utf8EncodeChar c).map Char.ofUInt8 = [c] := by
  rw [utf8EncodeChar_of_ascii h, List.map_singleton, ofUInt8_toUInt8 h]

theorem bytewise_cons_ascii {c : Char} (h : IsAscii c) (cs : List Char) :
    bytewise (c :: cs) = c :: bytewise cs := by
  rw [bytewise, List.flatMap_cons, bytewise_char_ascii h]
  rfl

theorem bytewise_ascii {cs : List Char} (h : ∀ c ∈ cs, IsAscii c) : bytewise cs = cs := by
  induction cs with
  | nil => rfl
  | cons c cs ih =>
    rw [bytewise_cons_ascii (h c List.mem_cons_self),
      ih fun d hd => h d (List.mem_cons_of_mem _ hd)]

/-- A character that is not ASCII has more than one byte. -/
theorem two_le_length_utf8EncodeChar {c : Char} (h : ¬ IsAscii c) :
    2 ≤ (String.utf8EncodeChar c).length := by
  have hgt : ¬ c.val.toNat ≤ 0x7f := fun hle => h (Nat.lt_succ_of_le hle)
  simp only [String.utf8EncodeChar, if_neg hgt]
  split
  · simp
  · split <;> simp

theorem length_le_bytes (cs : List Char) :
    cs.length ≤ (cs.flatMap String.utf8EncodeChar).length := by
  induction cs with
  | nil => exact Nat.le_refl _
  | cons c cs ih =>
    have hpos := List.length_pos_iff.mpr (String.utf8EncodeChar_ne_nil (c := c))
    rw [List.flatMap_cons, List.length_append, List.length_cons]
    omega

theorem length_lt_bytes {cs : List Char} {c : Char} (hc : c ∈ cs) (h : ¬ IsAscii c) :
    cs.length < (cs.flatMap String.utf8EncodeChar).length := by
  obtain ⟨before, after, rfl⟩ := List.append_of_mem hc
  have hbefore := length_le_bytes before
  have hafter := length_le_bytes after
  have htwo := two_le_length_utf8EncodeChar h
  simp only [List.flatMap_append, List.flatMap_cons, List.length_append, List.length_cons]
  omega

/-- **Only ASCII is kept.** -/
theorem latin1_toBytes_eq_self {s : String} :
    latin1 (toBytes s) = s ↔ ∀ c ∈ s.toList, IsAscii c := by
  constructor
  · intro h c hc
    by_contra hnot
    have hlt := length_lt_bytes hc hnot
    have hlen := congrArg (fun t => t.toList.length) h
    simp only [latin1, String.toList_ofList, List.length_map, toBytes_eq_flatMap] at hlen
    omega
  · intro h
    rw [latin1_toBytes, bytewise_ascii h, String.ofList_toList]

/-! ## JSON text -/

theorem isAscii_escapeChar {c : Char} (h : IsAscii c) : ∀ d ∈ escapeChar c, IsAscii d := by
  have hall : ∀ n, n < 128 →
      (escapeChar (Char.ofNat n)).all (fun d => decide (IsAscii d)) = true := by decide
  have hc := ascii_of_all (hall c.toNat h)
  rwa [Char.ofNat_toNat] at hc

theorem escapeChar_of_not_ascii {c : Char} (h : ¬ IsAscii c) : escapeChar c = [c] := by
  have hge : 128 ≤ c.toNat := Nat.not_lt.mp h
  have hne : ∀ d : Char, IsAscii d → c ≠ d := by
    rintro d hd rfl
    exact h hd
  have hshort : shortEscape c = none := by
    unfold shortEscape
    rw [if_neg (hne _ (by decide)), if_neg (hne _ (by decide)), if_neg (hne _ (by decide)),
      if_neg (hne _ (by decide)), if_neg (hne _ (by decide)), if_neg (by omega), if_neg (by omega)]
  unfold escapeChar
  simp only [hshort]
  rw [if_neg (by omega)]

/-- Escaping leaves bytes of other characters alone. -/
theorem bytewise_escape (cs : List Char) :
    bytewise (cs.flatMap escapeChar) = (bytewise cs).flatMap escapeChar := by
  induction cs with
  | nil => rfl
  | cons c cs ih =>
    rw [List.flatMap_cons, bytewise_append, ih]
    by_cases hc : IsAscii c
    · rw [bytewise_ascii (isAscii_escapeChar hc), bytewise_cons_ascii hc, List.flatMap_cons]
    · have hbytes : ∀ d ∈ (String.utf8EncodeChar c).map Char.ofUInt8, escapeChar d = [d] := by
        intro d hd
        obtain ⟨b, hb, rfl⟩ := List.mem_map.mp hd
        refine escapeChar_of_not_ascii fun hascii => ?_
        have hle := le_of_mem_utf8EncodeChar hc b hb
        have hlt : b.toNat < 128 := hascii
        omega
      have hself : ((String.utf8EncodeChar c).map Char.ofUInt8).flatMap escapeChar =
          (String.utf8EncodeChar c).map Char.ofUInt8 :=
        (List.flatMap_congr hbytes).trans (List.flatMap_singleton' _)
      have hcons : bytewise (c :: cs) = (String.utf8EncodeChar c).map Char.ofUInt8 ++ bytewise cs :=
        List.flatMap_cons
      rw [escapeChar_of_not_ascii hc, hcons, List.flatMap_append, hself]
      exact congrArg (· ++ _) (List.flatMap_singleton _ _)

theorem bytewise_printString (s : String) :
    bytewise (printString s) = printString (latin1 (toBytes s)) := by
  have hquote : bytewise ['"'] = ['"'] := bytewise_ascii (ascii_of_all (by decide))
  rw [latin1_toBytes, printString, printString, String.toList_ofList, List.cons_append,
    bytewise_cons_ascii (by decide), bytewise_append, bytewise_escape, hquote]
  rfl

/-- The object whose strings are read byte by byte. -/
def latin1Fields (fields : List (String × String)) : List (String × String) :=
  fields.map fun f => (latin1 (toBytes f.1), latin1 (toBytes f.2))

theorem bytewise_printField (f : String × String) :
    bytewise (printField f) = printField (latin1 (toBytes f.1), latin1 (toBytes f.2)) := by
  rw [printField, printField, bytewise_append, bytewise_cons_ascii (by decide),
    bytewise_printString, bytewise_printString]

theorem bytewise_printFields (fields : List (String × String)) :
    bytewise (printFields fields) = printFields (latin1Fields fields) := by
  induction fields with
  | nil => exact bytewise_ascii (ascii_of_all (by decide))
  | cons f fields ih =>
    cases fields with
    | nil =>
      show bytewise (printField f ++ ['\x7d']) = _
      rw [bytewise_append, bytewise_printField, bytewise_ascii (ascii_of_all (by decide))]
      rfl
    | cons g fields =>
      show bytewise (printField f ++ ',' :: printFields (g :: fields)) = _
      rw [bytewise_append, bytewise_printField, bytewise_cons_ascii (by decide), ih]
      rfl

/-- **The text of an object of strings, byte by byte**, is that of the object of its strings byte by
byte. -/
theorem latin1_jsonStringify {ν : Type} (printNumber : ν → List Char)
    (fields : List (String × String)) :
    latin1 (toBytes (Js.jsonStringify printNumber (Js.stringObject fields))) =
      Js.jsonStringify printNumber (Js.stringObject (latin1Fields fields)) := by
  rw [latin1_toBytes, Js.jsonStringify, Js.jsonStringify, String.toList_ofList,
    Js.printValue_stringObject, Js.printValue_stringObject, printObject, printObject,
    bytewise_cons_ascii (by decide), bytewise_printFields]

/-- An object of ASCII strings has an ASCII text. -/
theorem isAscii_jsonStringify {ν : Type} (printNumber : ν → List Char)
    {fields : List (String × String)}
    (h : ∀ f ∈ fields, (∀ c ∈ f.1.toList, IsAscii c) ∧ ∀ c ∈ f.2.toList, IsAscii c) :
    ∀ c ∈ (Js.jsonStringify printNumber (Js.stringObject fields)).toList, IsAscii c := by
  have hself : latin1Fields fields = fields := by
    refine (List.map_congr_left fun f hf => ?_).trans (List.map_id _)
    rw [latin1_toBytes_eq_self.mpr (h f hf).1, latin1_toBytes_eq_self.mpr (h f hf).2]
    rfl
  refine latin1_toBytes_eq_self.mp ?_
  rw [latin1_jsonStringify, hself]

end CloudGame.Lib
