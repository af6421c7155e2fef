import CloudGame.Lib.FreshNames
import CloudGame.Signal.JoinCodes
import Mathlib.Data.List.GetD

/-!
# A fresh join code is always found (`arcade-signal/src/controllers.rs`)

`encode_join_code` writes the seed modulo `32 ^ 6` as a name of six letters, so `32 ^ 6` consecutive
seeds, wrapping at `2 ^ 64`, have all codes between them.  Main results: two seeds have the same
code exactly if they agree modulo `32 ^ 6` (`encodeJoinCode_eq_iff`), and as long as fewer codes
than that are registered the probing loop of `next_available_code` stops within `32 ^ 6` rounds
(`probeCode_stops`), so that a free code is always returned (`nextAvailableCode_isSome`).
-/

namespace CloudGame.Signal

open CloudGame.Lib

/-! ## Codes as names -/

/-- `JOIN_CODE_ALPHABET[digit]`. -/
def joinCodeLetter (digit : Nat) : Char := joinCodeAlphabet.getD digit 'A'

theorem joinCodeLetter_mem {digit : Nat} (h : digit < 32) :
    joinCodeLetter digit ∈ joinCodeAlphabet := by
  have hlen : digit < joinCodeAlphabet.length := h
  rw [joinCodeLetter, List.getD_eq_getElem _ _ hlen]
  exact List.getElem_mem hlen

theorem joinCodeLetter_inj : ∀ d < 32, ∀ e < 32, joinCodeLetter d = joinCodeLetter e → d = e := by
  have hnodup : joinCodeAlphabet.Nodup := by decide
  intro d hd e he h
  have hd' : d < joinCodeAlphabet.length := hd
  have he' : e < joinCodeAlphabet.length := he
  rw [joinCodeLetter, joinCodeLetter, List.getD_eq_getElem _ _ hd',
    List.getD_eq_getElem _ _ he'] at h
  exact (hnodup.getElem_inj_iff).mp h

theorem encodeJoinCodeGo_eq (n : Nat) :
    ∀ (value : UInt64) (out : List Char),
      encodeJoinCodeGo n value out =
        (fixedDigits 32 n value.toNat).map joinCodeLetter ++ out := by
  induction n with
  | zero => intro value out; rfl
  | succ n ih =>
    intro value out
    rw [encodeJoinCodeGo, ih, fixedDigits, List.map_append, List.append_assoc, UInt64.toNat_div,
      UInt64.toNat_mod]
    rfl

theorem toList_encodeJoinCode (value : UInt64) :
    (encodeJoinCode value).toList = (fixedDigits 32 6 value.toNat).map joinCodeLetter := by
  rw [encodeJoinCode, String.toList_ofList, encodeJoinCodeGo_eq, List.append_nil]
  rfl

theorem length_encodeJoinCode (value : UInt64) : (encodeJoinCode value).length = 6 := by
  rw [← String.length_toList, toList_encodeJoinCode, List.length_map, length_fixedDigits]

theorem mem_alphabet_of_mem_encodeJoinCode {value : UInt64} {c : Char}
    (h : c ∈ (encodeJoinCode value).toList) : c ∈ joinCodeAlphabet := by
  rw [toList_encodeJoinCode] at h
  obtain ⟨digit, hdigit, rfl⟩ := List.mem_map.mp h
  exact joinCodeLetter_mem (lt_of_mem_fixedDigits (by decide) 6 _ digit hdigit)

/-- **A code is its seed modulo `32 ^ 6`.** -/
theorem encodeJoinCode_eq_iff (a b : UInt64) :
    encodeJoinCode a = encodeJoinCode b ↔ a.toNat % 32 ^ 6 = b.toNat % 32 ^ 6 := by
  rw [← map_fixedDigits_eq_iff (by decide) joinCodeLetter_inj, ← toList_encodeJoinCode,
    ← toList_encodeJoinCode, String.toList_inj]

/-! ## The probing loop -/

/-- The seed of the `i`-th round of the probing loop (`wrapping_add`). -/
def probeSeed (seed : UInt64) (i : Nat) : UInt64 := seed + UInt64.ofNat i

theorem probeSeed_succ (seed : UInt64) (i : Nat) :
    probeSeed seed (i + 1) = probeSeed (seed + 1) i := by
  rw [probeSeed, probeSeed, UInt64.ofNat_add, UInt64.add_assoc, UInt64.add_comm (UInt64.ofNat i)]
  rfl

/-- Wrapping at `2 ^ 64` is not seen modulo `32 ^ 6`, which divides it. -/
theorem probeSeed_mod (seed : UInt64) (i : Nat) :
    (probeSeed seed i).toNat % 32 ^ 6 = (seed.toNat + i) % 32 ^ 6 := by
  rw [probeSeed, UInt64.toNat_add, UInt64.toNat_ofNat', Nat.add_mod_mod]
  exact Nat.mod_mod_of_dvd _ ⟨2 ^ 34, by decide⟩

/-- The first `32 ^ 6` rounds try distinct codes. -/
theorem encode_probeSeed_inj (seed : UInt64) :
    ∀ i < 32 ^ 6, ∀ j < 32 ^ 6,
      encodeJoinCode (probeSeed seed i) = encodeJoinCode (probeSeed seed j) → i = j := by
  intro i hi j hj h
  rw [encodeJoinCode_eq_iff, probeSeed_mod, probeSeed_mod] at h
  omega

/-- The loop returns the first free code it comes to. -/
theorem probeCode_eq {taken : String → Bool} (i : Nat) :
    ∀ (seed : UInt64) (fuel : Nat), i < fuel →
      taken (encodeJoinCode (probeSeed seed i)) = false →
      (∀ j < i, taken (encodeJoinCode (probeSeed seed j)) = true) →
      probeCode taken fuel seed = some (encodeJoinCode (probeSeed seed i)) := by
  induction i with
  | zero =>
    intro seed fuel hfuel hfree _
    obtain ⟨fuel, rfl⟩ : ∃ k, fuel = k + 1 := ⟨fuel - 1, by omega⟩
    have hseed : probeSeed seed 0 = seed := UInt64.add_zero seed
    rw [hseed] at hfree ⊢
    simp [probeCode, hfree]
  | succ i ih =>
    intro seed fuel hfuel hfree hfull
    obtain ⟨fuel, rfl⟩ : ∃ k, fuel = k + 1 := ⟨fuel - 1, by omega⟩
    have htaken : taken (encodeJoinCode seed) = true := by
      have := hfull 0 (by omega)
      rwa [show probeSeed seed 0 = seed from UInt64.add_zero seed] at this
    rw [probeSeed_succ] at hfree ⊢
    rw [probeCode, if_pos htaken]
    refine ih (seed + 1) fuel (by omega) hfree ?_
    intro j hj
    rw [← probeSeed_succ]
    exact hfull (j + 1) (by omega)

/-- **The probing loop stops within `32 ^ 6` rounds** from any seed, when fewer codes are taken. -/
theorem probeCode_stops {taken : String → Bool} {codes : List String}
    (hcodes : ∀ code, taken code = true ↔ code ∈ codes) (hfew : codes.length < 32 ^ 6)
    (seed : UInt64) :
    ∃ i < 32 ^ 6, taken (encodeJoinCode (probeSeed seed i)) = false ∧
      (∀ j < i, taken (encodeJoinCode (probeSeed seed j)) = true) ∧
      ∀ fuel, i < fuel →
        probeCode taken fuel seed = some (encodeJoinCode (probeSeed seed i)) := by
  obtain ⟨i, hi, hnot, hfirst⟩ := exists_first_notMem (encode_probeSeed_inj seed) hfew
  have hfree : taken (encodeJoinCode (probeSeed seed i)) = false := by
    rw [← Bool.not_eq_true, hcodes]
    exact hnot
  have hfull : ∀ j < i, taken (encodeJoinCode (probeSeed seed j)) = true :=
    fun j hj => (hcodes _).mpr (hfirst j hj)
  exact ⟨i, hi, hfree, hfull, fun fuel hfuel => probeCode_eq i seed fuel hfuel hfree hfull⟩

namespace ControllerState

/-- `code_to_host.contains_key`. -/
def isRegistered (s : ControllerState) (code : String) : Bool :=
  (s.codeToHost.lookup code).isSome

theorem isRegistered_iff (s : ControllerState) (code : String) :
    s.isRegistered code = true ↔ code ∈ s.codeToHost.keys := by
  rw [isRegistered, AList.lookup_isSome, AList.mem_keys]

theorem not_isRegistered_iff (s : ControllerState) (code : String) :
    s.isRegistered code = false ↔ code ∉ s.codeToHost.keys := by
  rw [← isRegistered_iff, Bool.not_eq_true]

/-- Some code is returned, one that `encode_join_code` wrote. -/
theorem nextAvailableCode_encoded {s : ControllerState} (seeds : Nat → UInt64)
    (hfew : s.codeToHost.keys.length < 32 ^ 6) :
    ∃ seed, s.nextAvailableCode seeds = some (encodeJoinCode seed) := by
  unfold nextAvailableCode
  dsimp only
  split
  · next i _ => exact ⟨seeds i, rfl⟩
  · obtain ⟨i, hi, -, -, hprobe⟩ :=
      probeCode_stops s.isRegistered_iff hfew (seeds maxJoinCodeAttempts)
    exact ⟨_, hprobe _ hi⟩

/-- **A fresh join code is always found.**  While fewer than `32 ^ 6` codes are registered,
`next_available_code` returns six letters of the alphabet that are not registered, whatever seeds it
draws; its probing loop stops within `32 ^ 6` rounds from any seed. -/
theorem nextAvailableCode_isSome (s : ControllerState) (seeds : Nat → UInt64)
    (hfew : s.codeToHost.keys.length < 32 ^ 6) :
    (∃ code, s.nextAvailableCode seeds = some code ∧ code.length = 6 ∧
        (∀ c ∈ code.toList, c ∈ joinCodeAlphabet) ∧ code ∉ s.codeToHost.keys) ∧
      (∀ seed, ∃ i < 32 ^ 6, encodeJoinCode (probeSeed seed i) ∉ s.codeToHost.keys ∧
        (∀ j < i, encodeJoinCode (probeSeed seed j) ∈ s.codeToHost.keys) ∧
        ∀ fuel, i < fuel →
          probeCode s.isRegistered fuel seed = some (encodeJoinCode (probeSeed seed i))) ∧
      ∀ a b : UInt64,
        encodeJoinCode a = encodeJoinCode b ↔ a.toNat % 32 ^ 6 = b.toNat % 32 ^ 6 := by
  refine ⟨?_, ?_, encodeJoinCode_eq_iff⟩
  · obtain ⟨seed, hcode⟩ := nextAvailableCode_encoded seeds hfew
    refine ⟨encodeJoinCode seed, hcode, length_encodeJoinCode seed, ?_, ?_⟩
    · intro c hc
      exact mem_alphabet_of_mem_encodeJoinCode hc
    · rw [← not_isRegistered_iff, isRegistered, nextAvailableCode_free hcode]
      rfl
  · intro seed
    obtain ⟨i, hi, hfree, hfull, hprobe⟩ := probeCode_stops s.isRegistered_iff hfew seed
    refine ⟨i, hi, (s.not_isRegistered_iff _).mp hfree, ?_, hprobe⟩
    intro j hj
    exact (s.isRegistered_iff _).mp (hfull j hj)

/-- With one code registered, and every seed drawn being that code's own. -/
theorem nextAvailableCode_isSome_zero :
    ∃ code,
      ({ ControllerState.empty with
          codeToHost := HashMap.ofEntries [("AAAAAA", ⟨"host", "worker", 0⟩)] }
        : ControllerState).nextAvailableCode (fun _ => 0) = some code ∧ code.length = 6 := by
  obtain ⟨⟨code, hcode, hlen, -⟩, -⟩ := nextAvailableCode_isSome
    { ControllerState.empty with
      codeToHost := HashMap.ofEntries [("AAAAAA", ⟨"host", "worker", 0⟩)] } (fun _ => 0)
    (by decide)
  exact ⟨code, hcode, hlen⟩

end ControllerState

end CloudGame.Signal
