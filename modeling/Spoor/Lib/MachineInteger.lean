import Mathlib.Algebra.Order.Ring.Int
import Mathlib.Data.Nat.ModEq

/-! # Fixed-width arithmetic on unbounded numbers

Machine words are kept as `Nat` and `Int` so that sums and lengths stay
comparable, and the operations reduce their result to the word.  Unsigned words
are 64-bit sizes; signed words wrap in two's complement.  Each operation comes
with the lemma that it is the unbounded one whenever the result is in range.
The last section prints words as fixed-width hexadecimal text.
-/

namespace Spoor.Lib.MachineInteger

/-- The number of values of a 64-bit size. -/
def sizeModulus : Nat := 2 ^ 64

/-- Addition of 64-bit sizes. -/
def addSize (a b : Nat) : Nat := (a + b) % sizeModulus

/-- Subtraction of 64-bit sizes; it wraps when `b` exceeds `a`. -/
def subSize (a b : Nat) : Nat := (a + (sizeModulus - b)) % sizeModulus

theorem addSize_of_lt {a b : Nat} (inRange : a + b < sizeModulus) : addSize a b = a + b :=
  Nat.mod_eq_of_lt inRange

theorem subSize_of_le {a b : Nat} (order : b ≤ a) (inRange : a < sizeModulus) :
    subSize a b = a - b := by
  have shifted : a + (sizeModulus - b) = (a - b) + sizeModulus := by omega
  rw [subSize, shifted, Nat.add_mod_right]
  exact Nat.mod_eq_of_lt (by omega)

theorem addSize_lt (a b : Nat) : addSize a b < sizeModulus := Nat.mod_lt _ (by decide)

theorem subSize_lt (a b : Nat) : subSize a b < sizeModulus := Nat.mod_lt _ (by decide)

theorem addSize_modEq (a b : Nat) : addSize a b ≡ a + b [MOD sizeModulus] := Nat.mod_modEq _ _

/-- What a subtraction takes away comes back, up to the wrap. -/
theorem subSize_add_modEq {a b : Nat} (inRange : b ≤ sizeModulus) :
    subSize a b + b ≡ a [MOD sizeModulus] := by
  have wrapped : a + (sizeModulus - b) + b = a + sizeModulus := by omega
  calc subSize a b + b ≡ a + (sizeModulus - b) + b [MOD sizeModulus] :=
        (Nat.mod_modEq _ _).add_right b
    _ = a + sizeModulus := wrapped
    _ ≡ a [MOD sizeModulus] := by simp

/-- Addition of signed 64-bit integers. -/
def addInt64 (a b : Int) : Int := (a + b).bmod (2 ^ 64)

theorem addInt64_of_range {a b : Int} (low : -2 ^ 63 ≤ a + b) (high : a + b < 2 ^ 63) :
    addInt64 a b = a + b :=
  Int.bmod_eq_of_le (by omega) (by omega)

/-- A value of a signed 64-bit integer. -/
def IsInt64 (a : Int) : Prop := -2 ^ 63 ≤ a ∧ a < 2 ^ 63

instance (a : Int) : Decidable (IsInt64 a) := inferInstanceAs (Decidable (_ ∧ _))

/-- A sum that leaves the range comes back at the other end of it. -/
theorem addInt64_of_overflow {a b : Int} (left : IsInt64 a) (right : IsInt64 b)
    (overflows : ¬IsInt64 (a + b)) :
    (2 ^ 63 ≤ a + b ∧ addInt64 a b = a + b - 2 ^ 64) ∨
      (a + b < -2 ^ 63 ∧ addInt64 a b = a + b + 2 ^ 64) := by
  simp only [IsInt64] at left right overflows
  rcases Int.lt_or_le (a + b) (2 ^ 63) with small | large
  · right
    refine ⟨by omega, ?_⟩
    rw [addInt64, ← Int.add_bmod_right (a + b)]
    exact Int.bmod_eq_of_le (by omega) (by omega)
  · left
    refine ⟨large, ?_⟩
    rw [addInt64, ← Int.sub_bmod_right (a + b)]
    exact Int.bmod_eq_of_le (by omega) (by omega)

/-- Decrement of a signed 32-bit integer. -/
def decInt32 (a : Int) : Int := (a - 1).bmod (2 ^ 32)

theorem decInt32_of_range {a : Int} (low : -2 ^ 31 < a) (high : a < 2 ^ 31) :
    decInt32 a = a - 1 :=
  Int.bmod_eq_of_le (by omega) (by omega)

/-- Increment of a signed 32-bit integer. -/
def incInt32 (a : Int) : Int := (a + 1).bmod (2 ^ 32)

theorem incInt32_of_range {a : Int} (low : -2 ^ 31 ≤ a + 1) (high : a + 1 < 2 ^ 31) :
    incInt32 a = a + 1 :=
  Int.bmod_eq_of_le (by omega) (by omega)

/-- The lowest hexadecimal digits of a number, most significant first. -/
def hexDigits : Nat → Nat → List Char
  | 0, _ => []
  | width + 1, v => hexDigits width (v / 16) ++ [Nat.digitChar (v % 16)]

/-- A 64-bit word as text, in lower case and with leading zeros. -/
def paddedHex (word : BitVec 64) : String := String.ofList (hexDigits 16 word.toNat)

@[simp] theorem length_hexDigits (width v : Nat) : (hexDigits width v).length = width := by
  induction width generalizing v with
  | zero => rfl
  | succ width ih => simp [hexDigits, ih]

theorem digitChar_inj : ∀ a < 16, ∀ b < 16, Nat.digitChar a = Nat.digitChar b → a = b := by
  decide

theorem hexDigits_inj {width a b : Nat} (same : hexDigits width a = hexDigits width b) :
    a % 16 ^ width = b % 16 ^ width := by
  induction width generalizing a b with
  | zero => simp [Nat.mod_one]
  | succ width ih =>
      obtain ⟨high, low⟩ := List.append_inj' same rfl
      have last : a % 16 = b % 16 :=
        digitChar_inj _ (Nat.mod_lt _ (by decide)) _ (Nat.mod_lt _ (by decide)) (by simpa using low)
      rw [Nat.pow_succ, Nat.mul_comm, Nat.mod_mul, Nat.mod_mul, ih high, last]

theorem paddedHex_injective : Function.Injective paddedHex := by
  intro a b same
  have digits := hexDigits_inj (String.ofList_injective same)
  have words : 16 ^ 16 = 2 ^ 64 := rfl
  rw [words, Nat.mod_eq_of_lt a.isLt, Nat.mod_eq_of_lt b.isLt] at digits
  exact BitVec.eq_of_toNat_eq digits

@[simp] theorem length_paddedHex (word : BitVec 64) : (paddedHex word).toList.length = 16 := by
  simp [paddedHex]

end Spoor.Lib.MachineInteger
