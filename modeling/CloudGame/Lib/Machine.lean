import Mathlib.Algebra.Group.Nat.Defs
import Mathlib.Algebra.Order.Floor.Div

/-!
# Machine arithmetic

The checked and saturating operations of unsigned integers of 64 bits (`usize`, `u64`), the
saturating addition of 32 bits and the division of 32 bits that rounds up, on natural numbers.
Every operator of the language has its checked form here (`none` is the panic of a debug build),
so that a function written with them is one that neither overflows nor divides by zero.
-/

namespace CloudGame.Lib

def checkedMul (a b : Nat) : Option Nat := if a * b < 2 ^ 64 then some (a * b) else none

def checkedAdd (a b : Nat) : Option Nat := if a + b < 2 ^ 64 then some (a + b) else none

def checkedSub (a b : Nat) : Option Nat := if b ≤ a then some (a - b) else none

def checkedDiv (a b : Nat) : Option Nat := if b = 0 then none else some (a / b)

def checkedRem (a b : Nat) : Option Nat := if b = 0 then none else some (a % b)

def checkedAdd32 (a b : Nat) : Option Nat := if a + b < 2 ^ 32 then some (a + b) else none

def saturatingMul (a b : Nat) : Nat := min (a * b) (2 ^ 64 - 1)

def saturatingAdd (a b : Nat) : Nat := min (a + b) (2 ^ 64 - 1)

def saturatingAdd32 (a b : Nat) : Nat := min (a + b) (2 ^ 32 - 1)

/-- `u32::div_ceil`. -/
def divCeil (a b : Nat) : Nat := (a + b - 1) / b

/-- `u32::div_ceil`, operation by operation. -/
def checkedDivCeil32 (a b : Nat) : Option Nat := do
  let d ← checkedDiv a b
  let r ← checkedRem a b
  if 0 < r then checkedAdd32 d 1 else some d

theorem checkedMul_eq_some {a b : Nat} (h : a * b < 2 ^ 64) : checkedMul a b = some (a * b) :=
  if_pos h

theorem checkedAdd_eq_some {a b : Nat} (h : a + b < 2 ^ 64) : checkedAdd a b = some (a + b) :=
  if_pos h

theorem checkedSub_eq_some {a b : Nat} (h : b ≤ a) : checkedSub a b = some (a - b) := if_pos h

theorem checkedDiv_eq_some {a b : Nat} (h : 0 < b) : checkedDiv a b = some (a / b) :=
  if_neg h.ne'

theorem checkedRem_eq_some {a b : Nat} (h : 0 < b) : checkedRem a b = some (a % b) :=
  if_neg h.ne'

theorem checkedAdd32_eq_some {a b : Nat} (h : a + b < 2 ^ 32) : checkedAdd32 a b = some (a + b) :=
  if_pos h

theorem saturatingMul_eq {a b : Nat} (h : a * b < 2 ^ 64) : saturatingMul a b = a * b :=
  Nat.min_eq_left (by omega)

theorem saturatingAdd_eq {a b : Nat} (h : a + b < 2 ^ 64) : saturatingAdd a b = a + b :=
  Nat.min_eq_left (by omega)

/-! ## Division that rounds up -/

theorem divCeil_eq_ceilDiv (a b : Nat) : divCeil a b = a ⌈/⌉ b :=
  (Nat.ceilDiv_eq_add_pred_div a b).symm

theorem divCeil_le_iff {a b c : Nat} (h : 0 < b) : divCeil a b ≤ c ↔ a ≤ b * c := by
  rw [divCeil_eq_ceilDiv]
  exact ceilDiv_le_iff_le_mul h

theorem le_mul_divCeil {a b : Nat} (h : 0 < b) : a ≤ b * divCeil a b :=
  (divCeil_le_iff h).mp (Nat.le_refl _)

theorem divCeil_mono {a a' : Nat} (b : Nat) (h : a ≤ a') : divCeil a b ≤ divCeil a' b :=
  Nat.div_le_div_right (by omega)

theorem divCeil_anti (a : Nat) {b b' : Nat} (hb : 0 < b) (h : b ≤ b') :
    divCeil a b' ≤ divCeil a b :=
  (divCeil_le_iff (Nat.lt_of_lt_of_le hb h)).mpr
    (Nat.le_trans (le_mul_divCeil hb) (Nat.mul_le_mul_right _ h))

theorem divCeil_le (a : Nat) {b : Nat} (h : 0 < b) : divCeil a b ≤ a :=
  (divCeil_le_iff h).mpr (Nat.le_mul_of_pos_left a h)

theorem divCeil_eq_div_add (a : Nat) {b : Nat} (h : 0 < b) :
    divCeil a b = if 0 < a % b then a / b + 1 else a / b := by
  have hdiv := Nat.div_add_mod a b
  have hmod := Nat.mod_lt a h
  split
  · next hrem =>
    apply Nat.div_eq_of_lt_le
    · rw [Nat.add_mul, Nat.mul_comm]
      omega
    · rw [Nat.succ_mul, Nat.add_mul, Nat.mul_comm]
      omega
  · next hrem =>
    apply Nat.div_eq_of_lt_le
    · rw [Nat.mul_comm]
      omega
    · rw [Nat.succ_mul, Nat.mul_comm]
      omega

theorem checkedDivCeil32_eq_some {a b : Nat} (ha : a < 2 ^ 32) (hb : 0 < b) :
    checkedDivCeil32 a b = some (divCeil a b) := by
  have hle := divCeil_le a hb
  rw [divCeil_eq_div_add a hb] at hle ⊢
  simp only [checkedDivCeil32, checkedDiv_eq_some hb, checkedRem_eq_some hb, Option.bind_eq_bind,
    Option.bind_some]
  split
  · next hrem =>
    rw [if_pos hrem] at hle
    exact checkedAdd32_eq_some (Nat.lt_of_le_of_lt hle ha)
  · rfl

end CloudGame.Lib
