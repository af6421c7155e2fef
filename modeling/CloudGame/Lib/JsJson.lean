import CloudGame.Lib.JsonText

/-!
# `JSON.parse` and `JSON.stringify`

The grammar of JSON text, and the text that is printed of a value, without white space.  How a
numeral becomes a number and how a number is printed are parameters; a lone surrogate, which a
`String` does not hold, is refused.  An object is the list of its members as they stand in the text.

* `stringBody_escape`: the parser undoes the escapes.
* `jsonParse_jsonStringify`: a value without numbers is read back from its text.
-/

namespace CloudGame.Lib.Js

open CloudGame.Lib.JsonText (hexValue hexChar unescape escapeChar printString parseBody
  parseBody_escape)

variable {ν : Type}

/-! ## Strings -/

/-- The code unit of four hexadecimal digits. -/
def codeUnit (a b c d : Char) : Option Nat := do
  let a ← hexValue a
  let b ← hexValue b
  let c ← hexValue c
  let d ← hexValue d
  some (((a * 16 + b) * 16 + c) * 16 + d)

/-- The text up to the closing quote, and what follows it. -/
def stringBody : List Char → Option (List Char × List Char)
  | [] => none
  | '\\' :: 'u' :: a :: b :: c :: d :: cs => do
    let unit ← codeUnit a b c d
    if 0xD800 ≤ unit ∧ unit < 0xDC00 then
      -- a high surrogate needs the low one
      match cs with
      | '\\' :: 'u' :: e :: f :: g :: h :: cs => do
        let low ← codeUnit e f g h
        if 0xDC00 ≤ low ∧ low < 0xE000 then do
          let (body, rest) ← stringBody cs
          return (Char.ofNat (0x10000 + (unit - 0xD800) * 0x400 + (low - 0xDC00)) :: body, rest)
        else none
      | _ => none
    else if 0xDC00 ≤ unit ∧ unit < 0xE000 then none
    else do
      let (body, rest) ← stringBody cs
      return (Char.ofNat unit :: body, rest)
  | '\\' :: e :: cs => do
    let ch ← unescape e
    let (body, rest) ← stringBody cs
    return (ch :: body, rest)
  | ch :: cs =>
    if ch = '"' then some ([], cs)
    else if ch.toNat < 32 then none
    else do
      let (body, rest) ← stringBody cs
      return (ch :: body, rest)

/-- Digits that are a character are no surrogate. -/
theorem codeUnit_of_hexChar {a b c d ch : Char} (h : hexChar a b c d = some ch) :
    ∃ unit, codeUnit a b c d = some unit ∧ ch = Char.ofNat unit ∧
      ¬(0xD800 ≤ unit ∧ unit < 0xDC00) ∧ ¬(0xDC00 ≤ unit ∧ unit < 0xE000) := by
  simp only [hexChar, Option.bind_eq_bind, Option.bind_eq_some_iff] at h
  obtain ⟨x, hx, y, hy, z, hz, w, hw, hchar⟩ := h
  split at hchar
  · next hvalid =>
    refine ⟨_, by rw [codeUnit, hx, hy, hz, hw]; rfl, (Option.some.inj hchar).symm, ?_, ?_⟩ <;>
      unfold Nat.isValidChar at hvalid <;> omega
  · cases hchar

/-- What the parser without surrogate pairs reads, this one reads the same. -/
theorem stringBody_of_parseBody (cs : List Char) :
    ∀ {p : List Char × List Char}, parseBody cs = some p → stringBody cs = some p := by
  fun_induction parseBody cs with
  | case1 => intro p h; cases h
  | case2 a b c d cs ih =>
    intro p h
    simp only [Option.bind_eq_bind, Option.bind_eq_some_iff] at h
    obtain ⟨ch, hch, q, hq, hp⟩ := h
    obtain ⟨unit, hunit, rfl, hhigh, hlow⟩ := codeUnit_of_hexChar hch
    rw [stringBody, hunit]
    simp only [Option.bind_eq_bind, Option.bind_some, if_neg hhigh, if_neg hlow, ih hq]
    exact hp
  | case3 e cs hescape ih =>
    intro p h
    simp only [Option.bind_eq_bind, Option.bind_eq_some_iff] at h
    obtain ⟨ch, hch, q, hq, hp⟩ := h
    rw [stringBody, hch, Option.bind_eq_bind, Option.bind_some, ih hq]
    · exact hp
    · exact hescape
  | case4 cs hunicode hescape =>
    intro p h
    rw [stringBody, if_pos rfl]
    · exact h
    · exact hunicode
    · exact hescape
  | case5 ch cs hunicode hescape hquote hcontrol => intro p h; cases h
  | case6 ch cs hunicode hescape hquote hcontrol ih =>
    intro p h
    simp only [Option.bind_eq_bind, Option.bind_eq_some_iff] at h
    obtain ⟨q, hq, hp⟩ := h
    rw [stringBody, if_neg hquote, if_neg hcontrol, ih hq]
    · exact hp
    · exact hunicode
    · exact hescape

/-- The parser undoes the escapes. -/
theorem stringBody_escape (cs rest : List Char) :
    stringBody (cs.flatMap escapeChar ++ '"' :: rest) = some (cs, rest) :=
  stringBody_of_parseBody _ (parseBody_escape cs rest)

/-! ## Numerals -/

/-- One digit or more. -/
def takeDigits (cs : List Char) : Option (List Char × List Char) :=
  if cs.takeWhile Char.isDigit = [] then none
  else some (cs.takeWhile Char.isDigit, cs.dropWhile Char.isDigit)

/-- A zero, or digits that do not begin with one. -/
def takeInteger : List Char → Option (List Char × List Char)
  | '0' :: cs => some (['0'], cs)
  | cs => takeDigits cs

def takeFraction : List Char → Option (List Char × List Char)
  | '.' :: cs => (takeDigits cs).map fun p => ('.' :: p.1, p.2)
  | cs => some ([], cs)

def takeExponent : List Char → Option (List Char × List Char)
  | c :: cs =>
    if c = 'e' ∨ c = 'E' then
      match cs with
      | '+' :: cs => (takeDigits cs).map fun p => (c :: '+' :: p.1, p.2)
      | '-' :: cs => (takeDigits cs).map fun p => (c :: '-' :: p.1, p.2)
      | cs => (takeDigits cs).map fun p => (c :: p.1, p.2)
    else some ([], c :: cs)
  | [] => some ([], [])

def takeUnsigned (cs : List Char) : Option (List Char × List Char) := do
  let (integer, cs) ← takeInteger cs
  let (fraction, cs) ← takeFraction cs
  let (exponent, cs) ← takeExponent cs
  return (integer ++ fraction ++ exponent, cs)

/-- A numeral, and what follows it. -/
def takeNumeral : List Char → Option (List Char × List Char)
  | '-' :: cs => (takeUnsigned cs).map fun p => ('-' :: p.1, p.2)
  | cs => takeUnsigned cs

/-! ## Lists between brackets -/

def isJsonSpace (c : Char) : Bool := c ∈ [' ', '\t', '\n', '\r']

def skipSpace (cs : List Char) : List Char := cs.dropWhile isJsonSpace

theorem skipSpace_cons {c : Char} (h : isJsonSpace c = false) (cs : List Char) :
    skipSpace (c :: cs) = c :: cs := by
  rw [skipSpace, List.dropWhile_cons_of_neg (by simp [h])]

section Listed

variable {α : Type} (item : List Char → Option (α × List Char)) (close : Char)

/-- Items with commas between them, up to the closing bracket; `item` reads one. -/
def items : Nat → List Char → Option (List α × List Char)
  | 0, _ => none
  | fuel + 1, cs => do
    let (a, cs) ← item cs
    match skipSpace cs with
    | [] => none
    | c :: cs =>
      if c = ',' then do
        let (as, cs) ← items fuel cs
        return (a :: as, cs)
      else if c = close then return ([a], cs)
      else none

/-- What stands after an opening bracket. -/
def listed (cs : List Char) : Option (List α × List Char) :=
  match skipSpace cs with
  | [] => none
  | c :: rest => if c = close then some ([], rest) else items item close cs.length cs

/-- The texts of the items after the first, and the closing bracket. -/
def joinTail (close : Char) : List (List Char) → List Char
  | [] => [close]
  | text :: texts => ',' :: (text ++ joinTail close texts)

/-- The texts of all items, and the closing bracket. -/
def join (close : Char) : List (List Char) → List Char
  | [] => [close]
  | text :: texts => text ++ joinTail close texts

theorem length_lt_joinTail (texts : List (List Char)) :
    texts.length < (joinTail close texts).length ∧
      ∀ text ∈ texts, text.length < (joinTail close texts).length := by
  induction texts with
  | nil => simp [joinTail]
  | cons t texts ih =>
    obtain ⟨hcount, heach⟩ := ih
    simp only [joinTail, List.length_cons, List.length_append]
    refine ⟨by omega, ?_⟩
    intro text htext
    rcases List.mem_cons.mp htext with rfl | htext
    · omega
    · have := heach text htext
      omega

theorem length_lt_join {texts : List (List Char)} {text : List Char} (h : text ∈ texts) :
    text.length < (join close texts).length := by
  cases texts with
  | nil => cases h
  | cons t texts =>
    obtain ⟨hcount, heach⟩ := length_lt_joinTail close texts
    rw [join, List.length_append]
    rcases List.mem_cons.mp h with rfl | h
    · omega
    · have := heach text h
      omega

/-- What stands after an item. -/
def Delimited (rest : List Char) : Prop := ∃ c cs, rest = c :: cs ∧ (c = ',' ∨ c = close)

theorem delimited_joinTail (texts : List (List Char)) (rest : List Char) :
    Delimited close (joinTail close texts ++ rest) := by
  cases texts with
  | nil => exact ⟨close, rest, rfl, Or.inr rfl⟩
  | cons text texts => exact ⟨',', _, rfl, Or.inl rfl⟩

variable {item close} {print : α → List Char}

/-- A parser that reads each item back reads the items back. -/
theorem items_join (hclose : isJsonSpace close = false ∧ close ≠ ',') (as : List α) :
    ∀ (a : α) (fuel : Nat) (rest : List Char), as.length < fuel →
      (∀ b ∈ a :: as, ∀ rest, Delimited close rest → item (print b ++ rest) = some (b, rest)) →
      items item close fuel (print a ++ (joinTail close (as.map print) ++ rest)) =
        some (a :: as, rest) := by
  induction as with
  | nil =>
    intro a fuel rest hfuel hitem
    obtain ⟨fuel, rfl⟩ : ∃ k, fuel = k + 1 := ⟨fuel - 1, by omega⟩
    rw [items, hitem a List.mem_cons_self _ (delimited_joinTail close _ rest)]
    simp only [List.map_nil, joinTail, List.singleton_append, Option.bind_eq_bind,
      Option.bind_some, skipSpace_cons hclose.1, if_neg hclose.2, ↓reduceIte]
    rfl
  | cons b as ih =>
    intro a fuel rest hfuel hitem
    obtain ⟨fuel, rfl⟩ : ∃ k, fuel = k + 1 := ⟨fuel - 1, by omega⟩
    have htail := ih b fuel rest (by simpa using hfuel)
      fun c hc => hitem c (List.mem_cons_of_mem a hc)
    rw [items, hitem a List.mem_cons_self _ (delimited_joinTail close _ rest)]
    simp only [List.map_cons, joinTail, List.cons_append, List.append_assoc, Option.bind_eq_bind,
      Option.bind_some, skipSpace_cons (c := ',') (by decide), ↓reduceIte, htail]
    rfl

/-- The items between brackets are read back; none of them begins like the end of the list. -/
theorem listed_join (hclose : isJsonSpace close = false ∧ close ≠ ',') {as : List α}
    (hhead : ∀ a ∈ as, ∃ c cs, print a = c :: cs ∧ isJsonSpace c = false ∧ c ≠ close)
    (hitem : ∀ a ∈ as, ∀ rest, Delimited close rest → item (print a ++ rest) = some (a, rest))
    (rest : List Char) :
    listed item close (join close (as.map print) ++ rest) = some (as, rest) := by
  cases as with
  | nil =>
    simp only [listed, List.map_nil, join, List.singleton_append, skipSpace_cons hclose.1,
      ↓reduceIte]
  | cons a as =>
    obtain ⟨c, cs, hprint, hspace, hopen⟩ := hhead a List.mem_cons_self
    have hfuel := (length_lt_joinTail close (as.map print)).1
    rw [List.length_map] at hfuel
    have hitems := items_join hclose as a
      (print a ++ (joinTail close (as.map print) ++ rest)).length rest
      (by simp only [List.length_append]; omega) hitem
    have hskip : skipSpace (print a ++ (joinTail close (as.map print) ++ rest)) =
        c :: (cs ++ (joinTail close (as.map print) ++ rest)) := by
      rw [hprint]
      exact skipSpace_cons hspace _
    rw [List.map_cons, join, List.append_assoc, listed, hskip]
    simp only [if_neg hopen]
    exact hitems

end Listed

/-! ## Values -/

section Parse

/-- A key, a colon and a value; `value` reads the value. -/
def member (value : List Char → Option (JsonValue ν × List Char)) (cs : List Char) :
    Option ((String × JsonValue ν) × List Char) :=
  match skipSpace cs with
  | '"' :: cs => do
    let (key, cs) ← stringBody cs
    match skipSpace cs with
    | ':' :: cs =>
      let (v, cs) ← value cs
      return ((String.ofList key, v), cs)
    | _ => none
  | _ => none

variable (readNumber : List Char → ν)

/-- One value, in which at most `depth` values nest. -/
def parseValue : Nat → List Char → Option (JsonValue ν × List Char)
  | 0, _ => none
  | depth + 1, cs =>
    match skipSpace cs with
    | [] => none
    | c :: cs =>
      if c = '"' then (stringBody cs).map fun p => (.string (String.ofList p.1), p.2)
      else if c = '[' then (listed (parseValue depth) ']' cs).map fun p => (.array p.1, p.2)
      else if c = '\x7b' then
        (listed (member (parseValue depth)) '\x7d' cs).map fun p => (.object p.1, p.2)
      else if c = 'n' then (cs.dropPrefix? "ull".toList).map fun cs => (.null, cs)
      else if c = 't' then (cs.dropPrefix? "rue".toList).map fun cs => (.bool true, cs)
      else if c = 'f' then (cs.dropPrefix? "alse".toList).map fun cs => (.bool false, cs)
      else (takeNumeral (c :: cs)).map fun p => (.number (readNumber p.1), p.2)

/-- `JSON.parse`; it throws where the value is `none`.  Values nest less deep than the text is
long. -/
def jsonParse (text : String) : Option (JsonValue ν) :=
  match parseValue readNumber (text.toList.length + 1) text.toList with
  | some (v, cs) => if skipSpace cs = [] then some v else none
  | none => none

end Parse

/-! ## Printing -/

section Print

variable (printNumber : ν → List Char)

mutual

def printValue : JsonValue ν → List Char
  | .null => "null".toList
  | .bool true => "true".toList
  | .bool false => "false".toList
  | .number n => printNumber n
  | .string s => printString s
  | .array vs => '[' :: join ']' (printElements vs)
  | .object es => '\x7b' :: join '\x7d' (printMembers es)

def printElements : List (JsonValue ν) → List (List Char)
  | [] => []
  | v :: vs => printValue v :: printElements vs

def printMembers : List (String × JsonValue ν) → List (List Char)
  | [] => []
  | e :: es => printMember e :: printMembers es

def printMember : String × JsonValue ν → List Char
  | (key, v) => printString key ++ ':' :: printValue v

end

theorem printElements_eq (vs : List (JsonValue ν)) :
    printElements printNumber vs = vs.map (printValue printNumber) := by
  induction vs with
  | nil => rw [printElements, List.map_nil]
  | cons v vs ih => rw [printElements, ih, List.map_cons]

theorem printMembers_eq (es : List (String × JsonValue ν)) :
    printMembers printNumber es = es.map (printMember printNumber) := by
  induction es with
  | nil => rw [printMembers, List.map_nil]
  | cons e es ih => rw [printMembers, ih, List.map_cons]

/-- `JSON.stringify`. -/
def jsonStringify (v : JsonValue ν) : String := String.ofList (printValue printNumber v)

end Print

/-! ## What is printed is read back -/

/-- A value without numbers, in which at most `n` values nest. -/
inductive Plain : Nat → JsonValue ν → Prop
  | null {n : Nat} : Plain (n + 1) .null
  | bool {n : Nat} (b : Bool) : Plain (n + 1) (.bool b)
  | string {n : Nat} (s : String) : Plain (n + 1) (.string s)
  | array {n : Nat} {vs : List (JsonValue ν)} :
      (∀ v ∈ vs, Plain n v) → Plain (n + 1) (.array vs)
  | object {n : Nat} {es : List (String × JsonValue ν)} :
      (∀ e ∈ es, Plain n e.2) → Plain (n + 1) (.object es)

theorem Plain.mono {n m : Nat} {v : JsonValue ν} (h : Plain n v) (hle : n ≤ m) : Plain m v := by
  induction h generalizing m with
  | null => exact Nat.sub_add_cancel (Nat.one_le_of_lt hle) ▸ .null
  | bool b => exact Nat.sub_add_cancel (Nat.one_le_of_lt hle) ▸ .bool b
  | string s => exact Nat.sub_add_cancel (Nat.one_le_of_lt hle) ▸ .string s
  | array _ ih =>
    exact Nat.sub_add_cancel (Nat.one_le_of_lt hle) ▸ .array fun v hv => ih v hv (by omega)
  | object _ ih =>
    exact Nat.sub_add_cancel (Nat.one_le_of_lt hle) ▸ .object fun e he => ih e he (by omega)

section RoundTrip

variable (readNumber : List Char → ν) (printNumber : ν → List Char)

/-- The text of a value without numbers begins with one of these. -/
theorem printValue_head {n : Nat} {v : JsonValue ν} (h : Plain n v) :
    ∃ c cs, printValue printNumber v = c :: cs ∧
      c ∈ ['n', 't', 'f', '"', '[', '\x7b'] := by
  cases h with
  | null => exact ⟨'n', _, rfl, by simp⟩
  | bool b =>
    cases b with
    | true => exact ⟨'t', _, rfl, by simp⟩
    | false => exact ⟨'f', _, rfl, by simp⟩
  | string s => exact ⟨'"', _, by rw [printValue, printString]; rfl, by simp⟩
  | array _ => exact ⟨'[', _, by rw [printValue], by simp⟩
  | object _ => exact ⟨'\x7b', _, by rw [printValue], by simp⟩

theorem printValue_opens {n : Nat} {v : JsonValue ν} (h : Plain n v) :
    ∃ c cs, printValue printNumber v = c :: cs ∧ isJsonSpace c = false ∧ c ≠ ']' := by
  obtain ⟨c, cs, hprint, hc⟩ := printValue_head printNumber h
  refine ⟨c, cs, hprint, ?_⟩
  simp only [List.mem_cons, List.not_mem_nil, or_false] at hc
  rcases hc with rfl | rfl | rfl | rfl | rfl | rfl <;> decide

theorem printMember_opens (e : String × JsonValue ν) :
    ∃ c cs, printMember printNumber e = c :: cs ∧ isJsonSpace c = false ∧ c ≠ '\x7d' := by
  obtain ⟨key, v⟩ := e
  exact ⟨'"', _, by rw [printMember, printString]; rfl, by decide, by decide⟩

theorem length_lt_printMember (e : String × JsonValue ν) :
    (printValue printNumber e.2).length < (printMember printNumber e).length := by
  obtain ⟨key, v⟩ := e
  rw [printMember]
  simp only [List.length_append, List.length_cons]
  omega

theorem member_printMember {value : List Char → Option (JsonValue ν × List Char)}
    (e : String × JsonValue ν) {rest : List Char}
    (hvalue : value (printValue printNumber e.2 ++ rest) = some (e.2, rest)) :
    member value (printMember printNumber e ++ rest) = some (e, rest) := by
  obtain ⟨key, v⟩ := e
  have hkey : printMember printNumber (key, v) ++ rest =
      '"' :: (key.toList.flatMap escapeChar ++
        '"' :: ':' :: (printValue printNumber v ++ rest)) := by
    simp [printMember, printString]
  rw [hkey, member, skipSpace_cons (by decide)]
  simp only [Option.bind_eq_bind, stringBody_escape, Option.bind_some]
  rw [skipSpace_cons (by decide)]
  simp only [hvalue, Option.bind_some, String.ofList_toList]
  rfl

/-- **A value without numbers is read back from its text**, given as much depth as it has. -/
theorem parseValue_printValue {n : Nat} {v : JsonValue ν} (h : Plain n v) :
    ∀ {depth : Nat}, n ≤ depth → ∀ rest,
      parseValue readNumber depth (printValue printNumber v ++ rest) = some (v, rest) := by
  induction h with
  | null =>
    intro depth hdepth rest
    obtain ⟨depth, rfl⟩ : ∃ k, depth = k + 1 := ⟨depth - 1, by omega⟩
    simp [parseValue, printValue, skipSpace_cons (c := 'n') (by decide), List.dropPrefix?]
  | bool b =>
    intro depth hdepth rest
    obtain ⟨depth, rfl⟩ : ∃ k, depth = k + 1 := ⟨depth - 1, by omega⟩
    cases b with
    | true => simp [parseValue, printValue, skipSpace_cons (c := 't') (by decide), List.dropPrefix?]
    | false =>
      simp [parseValue, printValue, skipSpace_cons (c := 'f') (by decide), List.dropPrefix?]
  | string s =>
    intro depth hdepth rest
    obtain ⟨depth, rfl⟩ : ∃ k, depth = k + 1 := ⟨depth - 1, by omega⟩
    have htext : printValue printNumber (.string s) ++ rest =
        '"' :: (s.toList.flatMap escapeChar ++ '"' :: rest) := by
      simp [printValue, printString]
    rw [htext, parseValue, skipSpace_cons (by decide)]
    simp only [↓reduceIte, stringBody_escape, Option.map_some, String.ofList_toList]
  | @array n vs hplain ih =>
    intro depth hdepth rest
    obtain ⟨depth, rfl⟩ : ∃ k, depth = k + 1 := ⟨depth - 1, by omega⟩
    have hlisted := listed_join (by decide : isJsonSpace ']' = false ∧ ']' ≠ ',')
      (fun v hv => printValue_opens printNumber (hplain v hv))
      (fun v hv rest _ => ih v hv (Nat.le_of_succ_le_succ hdepth) rest) rest
    rw [printValue, printElements_eq, List.cons_append, parseValue, skipSpace_cons (by decide)]
    simp only [Char.reduceEq, ↓reduceIte, hlisted, Option.map_some]
  | @object n es hplain ih =>
    intro depth hdepth rest
    obtain ⟨depth, rfl⟩ : ∃ k, depth = k + 1 := ⟨depth - 1, by omega⟩
    have hlisted := listed_join (by decide : isJsonSpace '\x7d' = false ∧ '\x7d' ≠ ',')
      (fun e _ => printMember_opens printNumber e)
      (fun e he rest _ => member_printMember printNumber e
        (ih e he (Nat.le_of_succ_le_succ hdepth) rest)) rest
    rw [printValue, printMembers_eq, List.cons_append, parseValue, skipSpace_cons (by decide)]
    simp only [Char.reduceEq, ↓reduceIte, hlisted, Option.map_some]

/-- The text is longer than the value is deep. -/
theorem Plain.length {n : Nat} {v : JsonValue ν} (h : Plain n v) :
    Plain (printValue printNumber v).length v := by
  induction h with
  | null => exact .null
  | bool b => cases b <;> exact .bool _
  | string s => exact .string s
  | array _ ih =>
    rw [printValue, printElements_eq, List.length_cons]
    refine .array fun v hv => (ih v hv).mono ?_
    exact Nat.le_of_lt (length_lt_join ']' (List.mem_map.mpr ⟨v, hv, rfl⟩))
  | object _ ih =>
    rw [printValue, printMembers_eq, List.length_cons]
    refine .object fun e he => (ih e he).mono ?_
    have hmember := length_lt_join '\x7d'
      (List.mem_map.mpr ⟨e, he, rfl⟩ : printMember printNumber e ∈ _)
    have hvalue := length_lt_printMember printNumber e
    omega

/-- **`JSON.parse` undoes `JSON.stringify`** on a value without numbers. -/
theorem jsonParse_jsonStringify {n : Nat} {v : JsonValue ν} (h : Plain n v) :
    jsonParse readNumber (jsonStringify printNumber v) = some v := by
  have hread := parseValue_printValue readNumber printNumber (h.length printNumber)
    (Nat.le_succ _) []
  rw [List.append_nil] at hread
  rw [jsonParse, jsonStringify, String.toList_ofList, hread]
  rfl

theorem jsonStringify_ne_empty {n : Nat} {v : JsonValue ν} (h : Plain n v) :
    jsonStringify printNumber v ≠ "" := by
  obtain ⟨c, cs, hhead, -⟩ := printValue_head printNumber h
  intro hempty
  have := congrArg String.toList hempty
  rw [jsonStringify, String.toList_ofList, hhead] at this
  cases this

/-- Wherever the value stands in an object, it is read back. -/
def ReadInObject (v : JsonValue ν) : Prop :=
  ∀ depth rest, Delimited '\x7d' rest →
    parseValue readNumber (depth + 1) (printValue printNumber v ++ rest) = some (v, rest)

theorem readInObject_string (s : String) :
    ReadInObject readNumber printNumber (.string s : JsonValue ν) :=
  fun depth rest _ => parseValue_printValue readNumber printNumber (.string (n := 0) s)
    (Nat.succ_le_succ (Nat.zero_le depth)) rest

/-- `JSON.parse` undoes `JSON.stringify` on an object of such values. -/
theorem jsonParse_object {es : List (String × JsonValue ν)}
    (h : ∀ e ∈ es, ReadInObject readNumber printNumber e.2) :
    jsonParse readNumber (jsonStringify printNumber (.object es)) = some (.object es) := by
  have htext : printValue printNumber (.object es) =
      '\x7b' :: join '\x7d' (es.map (printMember printNumber)) := by
    rw [printValue, printMembers_eq]
  have hlength : 1 ≤ (printValue printNumber (.object es)).length := by
    rw [htext, List.length_cons]
    omega
  obtain ⟨depth, hdepth⟩ : ∃ depth, (printValue printNumber (.object es)).length = depth + 1 :=
    ⟨_, (Nat.sub_add_cancel hlength).symm⟩
  have hlisted := listed_join (by decide : isJsonSpace '\x7d' = false ∧ '\x7d' ≠ ',')
    (fun e _ => printMember_opens printNumber e)
    (fun e he rest hrest => member_printMember printNumber e (h e he depth rest hrest)) []
  rw [jsonParse, jsonStringify, String.toList_ofList, hdepth, htext, parseValue,
    skipSpace_cons (by decide)]
  rw [List.append_nil] at hlisted
  simp only [Char.reduceEq, ↓reduceIte, hlisted, Option.map_some]
  rfl

end RoundTrip

/-! ## Objects of strings -/

def stringObject (fields : List (String × String)) : JsonValue ν :=
  .object (fields.map fun f => (f.1, .string f.2))

theorem plain_stringObject (fields : List (String × String)) :
    Plain 2 (stringObject fields : JsonValue ν) := by
  refine .object fun e he => ?_
  obtain ⟨f, -, rfl⟩ := List.mem_map.mp he
  exact .string f.2

/-- They are printed as the flat codec prints them. -/
theorem printValue_stringObject (printNumber : ν → List Char) (fields : List (String × String)) :
    printValue printNumber (stringObject fields) = JsonText.printObject fields := by
  have hfields : join '\x7d' (fields.map JsonText.printField) = JsonText.printFields fields := by
    induction fields with
    | nil => rfl
    | cons f fields ih =>
      cases fields with
      | nil => rfl
      | cons g fields =>
        rw [JsonText.printFields, ← ih]
        rfl
  rw [stringObject, printValue, printMembers_eq, List.map_map, JsonText.printObject, ← hfields]
  refine congrArg (fun texts => '\x7b' :: join '\x7d' texts) (List.map_congr_left fun f _ => ?_)
  rw [Function.comp_apply, printMember, printValue, JsonText.printField]

end CloudGame.Lib.Js
