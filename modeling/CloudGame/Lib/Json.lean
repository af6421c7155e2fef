import Mathlib.Data.List.Basic

/-!
# JSON objects as text, as a parameter

`SerdeJson` stands for the two functions of `serde_json` that are used on flat objects:
`toString` prints an object from its entries, in the order they come, and `fromStr` reads the
entries of an object of strings, in the order its `Value` keeps them.  `plain` is an instance for
entries whose text needs no escape, with which concrete runs are computed.
-/

namespace CloudGame.Lib

inductive JsonScalar where
  | string (s : String)
  | number (n : Nat)
deriving DecidableEq

structure SerdeJson where
  toString : List (String × JsonScalar) → String
  fromStr : String → Option (List (String × String))

namespace SerdeJson

/-- The text of an object of strings. -/
def strings (json : SerdeJson) (es : List (String × String)) : String :=
  json.toString (es.map fun e => (e.1, .string e.2))

def plainScalar : JsonScalar → String
  | .string s => "\"" ++ s ++ "\""
  | .number n => ToString.toString n

def plain : SerdeJson where
  toString es :=
    "\x7b" ++ ",".intercalate (es.map fun e => "\"" ++ e.1 ++ "\":" ++ plainScalar e.2) ++ "\x7d"
  fromStr text :=
    let body := text.toList.filter fun ch => ch ≠ '\x7b' ∧ ch ≠ '\x7d' ∧ ch ≠ '"'
    if body = [] then some []
    else (body.splitOn ',').mapM fun entry =>
      match entry.splitOn ':' with
      | [key, value] => some (String.ofList key, String.ofList value)
      | _ => none

example : plain.strings [("w1", "Mario"), ("w2", "Zelda")] =
    "\x7b\"w1\":\"Mario\",\"w2\":\"Zelda\"\x7d" := by decide +kernel

example : plain.fromStr (plain.strings [("w1", "Mario"), ("w2", "Zelda")]) =
    some [("w1", "Mario"), ("w2", "Zelda")] := by decide +kernel

end SerdeJson

end CloudGame.Lib
