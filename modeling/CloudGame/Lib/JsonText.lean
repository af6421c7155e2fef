import CloudGame.Lib.JsonValue

/-!
# JSON text of strings and of flat objects

A lawful `JsonCodec` that can be run: strings and objects of strings, in the compact form, with
the escapes of the printer (`\"`, `\\`, `\b`, `\f`, `\n`, `\r`, `\t`, and `\u00xx` for the other
control characters).  It refuses every other value, white space between tokens, and escapes of
characters outside the basic plane.

* `parseBody_escape`: the parser undoes the escapes.
* `flat_lawful`: what is printed is read back.
* `flat_strict`: a text is told by its first character.
-/

namespace CloudGame.Lib

/-- The bytes of a text. -/
def toBytes (s : String) : List UInt8 := s.toByteArray.data.toList

/-- `String::from_utf8`. -/
def fromUtf8 (bytes : List UInt8) : Option String := String.fromUTF8? ⟨bytes.toArray⟩

@[simp] theorem fromUtf8_toBytes (s : String) : fromUtf8 (toBytes s) = some s := by
  have hs : (⟨(toBytes s).toArray⟩ : ByteArray) = s.toByteArray := by simp [toBytes]
  unfold fromUtf8 String.fromUTF8?
  rw [hs, dif_pos s.isValidUTF8]
  rfl

theorem toBytes_ne_nil {s : String} (h : s ≠ "") : toBytes s ≠ [] := by
  intro hnil
  have hs := fromUtf8_toBytes s
  have hempty := fromUtf8_toBytes ""
  rw [hnil] at hs
  rw [show toBytes "" = [] from rfl, hs] at hempty
  exact h (Option.some.inj hempty)

namespace JsonText

/-! ## Strings -/

def hexDigit (n : Nat) : Char := if n < 10 then Char.ofNat (48 + n) else Char.ofNat (87 + n)

def hexValue (c : Char) : Option Nat :=
  let n := c.toNat
  if 48 ≤ n ∧ n ≤ 57 then some (n - 48)
  else if 97 ≤ n ∧ n ≤ 102 then some (n - 87)
  else if 65 ≤ n ∧ n ≤ 70 then some (n - 55)
  else none

theorem hexValue_hexDigit : ∀ n, n < 16 → hexValue (hexDigit n) = some n := by decide

/-- The letter of a two-character escape. -/
def shortEscape (c : Char) : Option Char :=
  if c = '"' then some '"'
  else if c = '\\' then some '\\'
  else if c = '\n' then some 'n'
  else if c = '\r' then some 'r'
  else if c = '\t' then some 't'
  else if c.toNat = 8 then some 'b'
  else if c.toNat = 12 then some 'f'
  else none

def unescape (c : Char) : Option Char :=
  if c = '"' then some '"'
  else if c = '\\' then some '\\'
  else if c = '/' then some '/'
  else if c = 'n' then some '\n'
  else if c = 'r' then some '\r'
  else if c = 't' then some '\t'
  else if c = 'b' then some (Char.ofNat 8)
  else if c = 'f' then some (Char.ofNat 12)
  else none

theorem unescape_shortEscape {c e : Char} (h : shortEscape c = some e) :
    unescape e = some c ∧ e ≠ 'u' := by
  have hn : ∀ {n : Nat}, c.toNat = n → Char.ofNat n = c := fun hc => hc ▸ Char.ofNat_toNat c
  unfold shortEscape at h
  split at h
  next hc => cases h; subst hc; decide
  split at h
  next hc => cases h; subst hc; decide
  split at h
  next hc => cases h; subst hc; decide
  split at h
  next hc => cases h; subst hc; decide
  split at h
  next hc => cases h; subst hc; decide
  split at h
  next hc => cases h; rw [← hn hc]; decide
  split at h
  next hc => cases h; rw [← hn hc]; decide
  next => cases h

def escapeChar (c : Char) : List Char :=
  match shortEscape c with
  | some e => ['\\', e]
  | none =>
    if c.toNat < 32 then
      ['\\', 'u', '0', '0', hexDigit (c.toNat / 16), hexDigit (c.toNat % 16)]
    else [c]

/-- The character of four hexadecimal digits. -/
def hexChar (a b c d : Char) : Option Char := do
  let a ← hexValue a
  let b ← hexValue b
  let c ← hexValue c
  let d ← hexValue d
  let n := ((a * 16 + b) * 16 + c) * 16 + d
  if n.isValidChar then some (Char.ofNat n) else none

/-- The text up to the closing quote, and what follows it. -/
def parseBody : List Char → Option (List Char × List Char)
  | [] => none
  | '\\' :: 'u' :: a :: b :: c :: d :: cs => do
    let ch ← hexChar a b c d
    let (body, rest) ← parseBody cs
    return (ch :: body, rest)
  | '\\' :: e :: cs => do
    let ch ← unescape e
    let (body, rest) ← parseBody cs
    return (ch :: body, rest)
  | ch :: cs =>
    if ch = '"' then some ([], cs)
    else if ch.toNat < 32 then none
    else do
      let (body, rest) ← parseBody cs
      return (ch :: body, rest)

theorem hexChar_control {c : Char} (hc : c.toNat < 32) :
    hexChar '0' '0' (hexDigit (c.toNat / 16)) (hexDigit (c.toNat % 16)) = some c := by
  have hz : hexValue '0' = some 0 := by decide
  have hn : c.toNat / 16 * 16 + c.toNat % 16 = c.toNat := by omega
  have hv : c.toNat.isValidChar := c.valid
  simp only [hexChar, hz, hexValue_hexDigit (c.toNat / 16) (by omega),
    hexValue_hexDigit (c.toNat % 16) (by omega), Option.bind_eq_bind, Option.bind_some,
    Nat.zero_mul, Nat.zero_add, hn, if_pos hv, Char.ofNat_toNat]

/-- The parser undoes the escape of one character. -/
theorem parseBody_escapeChar (c : Char) (cs : List Char) :
    parseBody (escapeChar c ++ cs) = (parseBody cs).map fun p => (c :: p.1, p.2) := by
  unfold escapeChar
  split
  next e he =>
    obtain ⟨hun, hne⟩ := unescape_shortEscape he
    have hstep : parseBody ('\\' :: e :: cs) = do
        let ch ← unescape e
        let (body, rest) ← parseBody cs
        return (ch :: body, rest) := by
      rw [parseBody]
      rintro a b c d cs' rfl -
      exact hne rfl
    rw [List.cons_append, List.cons_append, List.nil_append, hstep, hun]
    cases parseBody cs <;> rfl
  next hshort =>
    split
    next hc =>
      simp only [List.cons_append, List.nil_append]
      rw [parseBody, hexChar_control hc]
      cases parseBody cs <;> rfl
    next hc =>
      have hquote : c ≠ '"' := by
        rintro rfl
        exact absurd hshort (by decide)
      have hslash : c ≠ '\\' := by
        rintro rfl
        exact absurd hshort (by decide)
      rw [List.cons_append, List.nil_append, parseBody, if_neg hquote, if_neg hc]
      · cases parseBody cs <;> rfl
      · rintro a b c d cs' rfl -
        exact hslash rfl
      · rintro e cs' rfl -
        exact hslash rfl

theorem parseBody_escape (cs rest : List Char) :
    parseBody (cs.flatMap escapeChar ++ '"' :: rest) = some (cs, rest) := by
  induction cs with
  | nil => simp [parseBody]
  | cons c cs ih =>
    rw [List.flatMap_cons, List.append_assoc, parseBody_escapeChar, ih]
    rfl

def printString (s : String) : List Char := '"' :: s.toList.flatMap escapeChar ++ ['"']

def parseString : List Char → Option (String × List Char)
  | '"' :: cs => (parseBody cs).map fun p => (String.ofList p.1, p.2)
  | _ => none

theorem parseString_printString (s : String) (rest : List Char) :
    parseString (printString s ++ rest) = some (s, rest) := by
  unfold printString
  rw [List.append_assoc, List.cons_append, parseString, List.singleton_append, parseBody_escape]
  simp

/-! ## Objects of strings -/

def printField (f : String × String) : List Char := printString f.1 ++ ':' :: printString f.2

def printFields : List (String × String) → List Char
  | [] => ['\x7d']
  | [f] => printField f ++ ['\x7d']
  | f :: g :: fields => printField f ++ ',' :: printFields (g :: fields)

def parseField (cs : List Char) : Option ((String × String) × List Char) := do
  let (key, cs) ← parseString cs
  match cs with
  | ':' :: cs =>
    let (value, cs) ← parseString cs
    return ((key, value), cs)
  | _ => none

/-- The fields of an object that has some, up to the closing brace. -/
def parseFields : Nat → List Char → Option (List (String × String) × List Char)
  | 0, _ => none
  | fuel + 1, cs => do
    let (field, cs) ← parseField cs
    match cs with
    | ',' :: cs =>
      let (fields, cs) ← parseFields fuel cs
      return (field :: fields, cs)
    | '\x7d' :: cs => return ([field], cs)
    | _ => none

theorem parseField_printField (f : String × String) (rest : List Char) :
    parseField (printField f ++ rest) = some (f, rest) := by
  unfold parseField printField
  rw [List.append_assoc, parseString_printString, List.cons_append]
  simp only [Option.bind_eq_bind, Option.bind_some, parseString_printString]
  rfl

/-- The parser reads the fields back, given fuel for each of them. -/
theorem parseFields_printFields (fields : List (String × String)) (fuel : Nat)
    (hne : fields ≠ []) (hfuel : fields.length ≤ fuel) :
    parseFields fuel (printFields fields) = some (fields, []) := by
  induction fields generalizing fuel with
  | nil => exact absurd rfl hne
  | cons f fields ih =>
    obtain ⟨fuel, rfl⟩ : ∃ k, fuel = k + 1 := ⟨fuel - 1, by simp at hfuel; omega⟩
    cases fields with
    | nil =>
      rw [printFields, parseFields, parseField_printField]
      rfl
    | cons g fields =>
      have htail := ih fuel (by simp) (by simpa using hfuel)
      rw [printFields, parseFields, parseField_printField]
      simp only [Option.bind_eq_bind, Option.bind_some, htail]
      rfl

theorem length_le_printFields (fields : List (String × String)) :
    fields.length ≤ (printFields fields).length := by
  induction fields with
  | nil => simp [printFields]
  | cons f fields ih =>
    cases fields with
    | nil => simp [printFields]
    | cons g fields =>
      simp only [printFields, List.length_append, List.length_cons] at ih ⊢
      omega

/-! ## Values -/

variable {ν : Type}

def printObject (fields : List (String × String)) : List Char := '\x7b' :: printFields fields

def parse (cs : List Char) : Option (Json ν) :=
  match cs with
  | '\x7b' :: cs =>
    if cs = ['\x7d'] then some (.object .empty)
    else
      match parseFields cs.length cs with
      | some (fields, []) => some (.object (.ofStrings fields))
      | _ => none
  | cs =>
    match parseString cs with
    | some (s, []) => some (.string s)
    | _ => none

/-- The fields of an object of strings. -/
def stringFields (es : List (String × JsonValue ν)) : Option (List (String × String)) :=
  es.mapM fun e => e.2.asStr.map fun s => (e.1, s)

theorem parse_printString (s : String) : parse (printString s) = some (.string s : Json ν) := by
  have h := parseString_printString s []
  rw [List.append_nil] at h
  rw [parse, h]
  intro cs hcs
  cases hcs

theorem parse_printObject (fields : List (String × String)) :
    parse (printObject fields) = some (.object (.ofStrings fields) : Json ν) := by
  unfold parse printObject
  cases fields with
  | nil => rfl
  | cons f fields =>
    have hparse := parseFields_printFields (f :: fields) _ (by simp) (length_le_printFields _)
    have hne : printFields (f :: fields) ≠ ['\x7d'] := by
      intro h
      rw [h] at hparse
      simp [parseFields, parseField, parseString] at hparse
    simp only [if_neg hne, hparse]

theorem eq_map_of_stringFields {es : List (String × JsonValue ν)} {fields : List (String × String)}
    (h : stringFields es = some fields) : es = fields.map fun f => (f.1, .string f.2) := by
  induction es generalizing fields with
  | nil =>
    cases h
    rfl
  | cons e es ih =>
    obtain ⟨key, v⟩ := e
    cases v with
    | string s =>
      simp only [stringFields, List.mapM_cons, JsonValue.asStr, Option.map_some,
        Option.bind_eq_bind, Option.bind_some, Option.pure_def, Option.bind_eq_some_iff] at h
      obtain ⟨tail, htail, heq⟩ := h
      cases heq
      rw [List.map_cons, ← ih htail]
    | _ => simp [stringFields, JsonValue.asStr] at h

theorem stringFields_map (fields : List (String × String)) :
    stringFields (fields.map fun f => (f.1, (.string f.2 : JsonValue ν))) = some fields := by
  induction fields with
  | nil => rfl
  | cons f fields ih =>
    rw [stringFields] at ih ⊢
    rw [List.map_cons, List.mapM_cons, ih]
    rfl

/-- The fields of a map, read back, are the map. -/
theorem ofStrings_stringFields {m : JsonMap ν} {fields : List (String × String)}
    (h : stringFields m.entries = some fields) : JsonMap.ofStrings fields = m := by
  have hm := eq_map_of_stringFields h
  have hs := m.sorted
  rw [hm, List.pairwise_map] at hs
  exact JsonMap.ext ((JsonMap.ofStrings_entries hs).trans hm.symm)

/-- A text that is a value begins with a brace or a quote. -/
theorem parse_head {cs : List Char} {v : Json ν} (h : parse cs = some v) :
    cs.head? = some '\x7b' ∨ cs.head? = some '"' := by
  unfold parse at h
  split at h
  · exact Or.inl rfl
  · split at h
    · next s hs =>
      unfold parseString at hs
      split at hs
      · exact Or.inr rfl
      · cases hs
    · cases h

theorem stringFields_isSome {es : List (String × JsonValue ν)}
    (h : ∀ e ∈ es, ∃ s, e.2 = .string s) : (stringFields es).isSome = true := by
  induction es with
  | nil => rfl
  | cons e es ih =>
    obtain ⟨s, hs⟩ := h e List.mem_cons_self
    obtain ⟨fields, hfields⟩ := Option.isSome_iff_exists.mp
      (ih fun e he => h e (List.mem_cons_of_mem _ he))
    unfold stringFields at hfields ⊢
    rw [List.mapM_cons, hfields, hs]
    rfl

/-- The entries of a map of string fields are strings. -/
theorem strings_ofStrings (fields : List (String × String)) :
    ∀ e ∈ (JsonMap.ofStrings fields : JsonMap ν).entries, ∃ s, e.2 = .string s := by
  suffices h : ∀ m : JsonMap ν, (∀ e ∈ m.entries, ∃ s, e.2 = .string s) →
      ∀ e ∈ (fields.foldl (fun m f => m.insertString f.1 f.2) m).entries, ∃ s, e.2 = .string s by
    exact h .empty fun e he => by cases he
  induction fields with
  | nil => exact fun m hm => hm
  | cons f fields ih =>
    intro m hm
    refine ih (m.insertString f.1 f.2) fun e he => ?_
    rcases mem_insertEntry he with rfl | he
    · exact ⟨f.2, rfl⟩
    · exact hm e he

end JsonText

/-! ## The codec -/

/-- A character a JSON text can begin with. -/
def isJsonStart (c : Char) : Bool :=
  c ∈ [' ', '\t', '\n', '\r', '\x7b', '[', '"', '-', 't', 'f', 'n'] || c.isDigit

/-- A text that begins with another character is no JSON, and objects of strings have a text. -/
structure JsonCodec.Strict {ν : Type} (json : JsonCodec ν) : Prop where
  starts : ∀ {s : String} {v : Json ν} {c : Char}, json.fromSlice (toBytes s) = .ok v →
    s.toList.head? = some c → isJsonStart c = true
  prints : ∀ fields, ∃ bytes, json.toVec (.object (.ofStrings fields)) = .ok bytes

namespace JsonCodec

variable {ν : Type}

open JsonText

/-- The text of a flat value. -/
def flatText (v : Json ν) : Option (List Char) :=
  match v.view with
  | .string s => some (printString s)
  | .object m => (stringFields m.entries).map printObject
  | .other => none

def flatFromStr (text : String) : Except String (Json ν) :=
  match parse text.toList with
  | some v => .ok v
  | none => .error "expected value"

def flat : JsonCodec ν where
  fromStr := flatFromStr
  fromSlice bytes :=
    match fromUtf8 bytes with
    | some text => flatFromStr text
    | none => .error "invalid unicode code point"
  toVec v :=
    match flatText v with
    | some cs => .ok (toBytes (String.ofList cs))
    | none => .error "value is not flat"
  display v := String.ofList ((flatText v).getD [])
  structToString fields := String.ofList (printObject fields)

theorem parse_flatText {v : Json ν} {cs : List Char} (h : flatText v = some cs) :
    parse cs = some v := by
  unfold flatText at h
  split at h
  next s hv =>
    cases h
    rw [parse_printString, Json.eq_string hv]
  next m hv =>
    obtain ⟨fields, hfields, rfl⟩ := Option.map_eq_some_iff.mp h
    rw [parse_printObject, ofStrings_stringFields hfields, Json.eq_object hv]
  next => cases h

theorem flat_lawful : (flat : JsonCodec ν).Lawful where
  fromSlice_toVec := by
    intro v bytes h
    simp only [flat] at h ⊢
    split at h
    next cs hcs =>
      cases h
      rw [fromUtf8_toBytes]
      simp only [flatFromStr, String.toList_ofList, parse_flatText hcs]
    next => cases h
  fromSlice_nil := by
    intro v h
    cases h
  fromStr_structToString fields hd := by
    simp only [flat, flatFromStr, String.toList_ofList, parse_printObject]

theorem flat_strict : (flat : JsonCodec ν).Strict where
  starts := by
    intro s v c h hc
    simp only [flat, fromUtf8_toBytes, flatFromStr] at h
    split at h
    next v' hv =>
      rcases parse_head hv with hhead | hhead
      · rw [hhead] at hc
        cases hc
        decide
      · rw [hhead] at hc
        cases hc
        decide
    next => cases h
  prints fields := by
    have hstrings : ∀ e ∈ (JsonMap.ofStrings fields : JsonMap ν).entries, ∃ s, e.2 = .string s :=
      strings_ofStrings fields
    obtain ⟨printed, hprinted⟩ := Option.isSome_iff_exists.mp (stringFields_isSome hstrings)
    refine ⟨toBytes (String.ofList (printObject printed)), ?_⟩
    have htext : flatText (.object (.ofStrings fields) : Json ν) = some (printObject printed) := by
      show (stringFields (JsonMap.ofStrings fields : JsonMap ν).entries).map printObject = _
      rw [hprinted]
      rfl
    simp only [flat, htext]

end JsonCodec

end CloudGame.Lib
