import CloudGame.Lib.Utf8
import Mathlib.Data.List.TakeWhile

/-!
# Queries of URLs and their decoding

The query of a URL goes from the first `?` to the first `#`; `querySegments` cuts it at `&`.
`formPair` reads a segment as `application/x-www-form-urlencoded` does: the name ends at the first
`=`, a `+` is a space, and `%` with two hexadecimal digits is a byte.

* `formDecode_flatMap`: what is written byte by byte, each as itself or as an escape, is read back.
* `querySegments_append`: a segment put at the end of a URL is the last, and the others stay.
-/

namespace CloudGame.Lib

open JsonText (hexValue)

/-! ## Definitions -/

/-- The byte of two hexadecimal digits. -/
def hexByte (a b : UInt8) : Option UInt8 := do
  let high ← hexValue (Char.ofUInt8 a)
  let low ← hexValue (Char.ofUInt8 b)
  some (UInt8.ofNat (16 * high + low))

/-- A `%` without two digits stands for itself. -/
def percentDecode : List UInt8 → List UInt8
  | [] => []
  | [a] => [a]
  | [a, b] => [a, b]
  | a :: b :: c :: rest =>
    if a = 0x25 then
      match hexByte b c with
      | some byte => byte :: percentDecode rest
      | none => a :: percentDecode (b :: c :: rest)
    else a :: percentDecode (b :: c :: rest)

def formDecode (bytes : List UInt8) : List UInt8 :=
  percentDecode (bytes.map fun b => if b = 0x2B then 0x20 else b)

def formPair (segment : List UInt8) : List UInt8 × List UInt8 :=
  (formDecode (segment.takeWhile fun b => b ≠ 0x3D),
    formDecode ((segment.dropWhile fun b => b ≠ 0x3D).drop 1))

def querySegments (url : List UInt8) : List (List UInt8) :=
  match (url.takeWhile fun b => b ≠ 0x23).dropWhile fun b => b ≠ 0x3F with
  | [] => []
  | _ :: query => query.splitOn 0x26

/-! ## Decoding -/

/-- How a byte may be written. -/
inductive Codes (byte : UInt8) : List UInt8 → Prop
  | plain : byte ≠ 0x25 → byte ≠ 0x2B → Codes byte [byte]
  | escape {a b : UInt8} : hexByte a b = some byte → Codes byte [0x25, a, b]

theorem percentDecode_plain {byte : UInt8} (h : byte ≠ 0x25) (rest : List UInt8) :
    percentDecode (byte :: rest) = byte :: percentDecode rest := by
  cases rest with
  | nil => rfl
  | cons b rest =>
    cases rest with
    | nil => rfl
    | cons c rest => rw [percentDecode, if_neg h]

theorem percentDecode_escape {a b byte : UInt8} (h : hexByte a b = some byte)
    (rest : List UInt8) : percentDecode (0x25 :: a :: b :: rest) = byte :: percentDecode rest := by
  rw [percentDecode, if_pos rfl, h]

/-- A `+` is no digit. -/
theorem hexByte_ne_plus {a b byte : UInt8} (h : hexByte a b = some byte) :
    a ≠ 0x2B ∧ b ≠ 0x2B := by
  have hplus : hexValue (Char.ofUInt8 0x2B) = none := by decide
  unfold hexByte at h
  constructor
  · rintro rfl
    rw [hplus] at h
    cases h
  · rintro rfl
    rw [hplus] at h
    cases ha : hexValue (Char.ofUInt8 a) with
    | none =>
      rw [ha] at h
      cases h
    | some high =>
      rw [ha] at h
      cases h

theorem Codes.formDecode_append {byte : UInt8} {code : List UInt8} (h : Codes byte code)
    (rest : List UInt8) : formDecode (code ++ rest) = byte :: formDecode rest := by
  unfold formDecode
  cases h with
  | plain hpercent hplus =>
    rw [List.singleton_append, List.map_cons, if_neg hplus, percentDecode_plain hpercent]
  | escape hdigits =>
    obtain ⟨ha, hb⟩ := hexByte_ne_plus hdigits
    rw [List.cons_append, List.cons_append, List.singleton_append, List.map_cons, List.map_cons,
      List.map_cons, if_neg ha, if_neg hb, if_neg (by decide), percentDecode_escape hdigits]

/-- Decoding reads back what was written byte by byte. -/
theorem formDecode_flatMap {code : UInt8 → List UInt8} {bytes : List UInt8}
    (h : ∀ byte ∈ bytes, Codes byte (code byte)) : formDecode (bytes.flatMap code) = bytes := by
  induction bytes with
  | nil => rfl
  | cons byte bytes ih =>
    rw [List.flatMap_cons, (h byte List.mem_cons_self).formDecode_append,
      ih fun b hb => h b (List.mem_cons_of_mem _ hb)]

theorem decide_ne_of_notMem {a : UInt8} {xs : List UInt8} (h : a ∉ xs) :
    ∀ b ∈ xs, decide (b ≠ a) = true :=
  fun _ hb => decide_eq_true fun he => h (he ▸ hb)

/-- The pair of a name that needs no escapes and a written value. -/
theorem formPair_append {name value : List UInt8} (hequals : 0x3D ∉ name)
    (hname : ∀ b ∈ name, b ≠ 0x25 ∧ b ≠ 0x2B) :
    formPair (name ++ 0x3D :: value) = (name, formDecode value) := by
  have hkeep := decide_ne_of_notMem hequals
  have hdecode : formDecode name = name := by
    have hplain : formDecode (name.flatMap fun b => [b]) = name :=
      formDecode_flatMap fun b hb => .plain (hname b hb).1 (hname b hb).2
    rwa [List.flatMap_singleton'] at hplain
  unfold formPair
  rw [List.takeWhile_append_of_pos hkeep, List.dropWhile_append_of_pos hkeep,
    List.takeWhile_cons_of_neg (by simp), List.dropWhile_cons_of_neg (by simp), List.append_nil,
    hdecode]
  rfl

/-! ## Segments -/

theorem takeWhile_ne_eq_self {a : UInt8} {xs : List UInt8} (h : a ∉ xs) :
    xs.takeWhile (fun b => b ≠ a) = xs :=
  List.takeWhile_eq_self_iff.mpr (decide_ne_of_notMem h)

/-- A segment put at the end of a URL is the last one. -/
theorem querySegments_append {url segment : List UInt8} (hfragment : 0x23 ∉ url)
    (hamp : 0x26 ∉ segment) (hhash : 0x23 ∉ segment) :
    querySegments (url ++ (if 0x3F ∈ url then 0x26 else 0x3F) :: segment) =
      querySegments url ++ [segment] := by
  have hlast : segment.splitOn 0x26 = [segment] := List.splitOn_eq_singleton hamp
  have hurl : 0x23 ∉ url ++ (if (0x3F : UInt8) ∈ url then 0x26 else 0x3F) :: segment := by
    rw [List.mem_append, List.mem_cons]
    rintro (hmem | hmem | hmem)
    · exact hfragment hmem
    · split at hmem
      · cases hmem
      · cases hmem
    · exact hhash hmem
  unfold querySegments
  rw [takeWhile_ne_eq_self hurl, takeWhile_ne_eq_self hfragment]
  by_cases hquery : (0x3F : UInt8) ∈ url
  · -- the segment goes behind the last one of the query
    obtain ⟨before, query, rfl, hbefore⟩ := List.eq_append_cons_of_mem hquery
    have hdrop : ∀ rest : List UInt8,
        (before ++ 0x3F :: rest).dropWhile (fun b => b ≠ 0x3F) = 0x3F :: rest := by
      intro rest
      rw [List.dropWhile_append_of_pos (decide_ne_of_notMem hbefore),
        List.dropWhile_cons_of_neg (by simp)]
    rw [if_pos hquery, List.append_assoc, List.cons_append, hdrop, hdrop]
    show (query ++ 0x26 :: segment).splitOn 0x26 = query.splitOn 0x26 ++ [segment]
    rw [List.splitOn_append_cons_self, hlast]
  · -- there was no query
    have hskip := decide_ne_of_notMem hquery
    rw [if_neg hquery, List.dropWhile_append_of_pos hskip, List.dropWhile_cons_of_neg (by simp),
      List.dropWhile_eq_nil_iff.mpr hskip]
    exact hlast

end CloudGame.Lib
