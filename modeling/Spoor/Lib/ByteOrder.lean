import Mathlib.Algebra.Order.Group.Nat
import Mathlib.Data.List.Basic
import Mathlib.Tactic.Ring

/-! # Words in memory

A word is laid out as a fixed number of bytes, least significant first or last.
Reading a word back in the order it was written gives the word; reading it in
the other order gives the word with its bytes reversed.
-/

namespace Spoor.Lib.ByteOrder

abbrev Byte : Type := BitVec 8

/-- The order in which a machine puts the bytes of a word into memory. -/
inductive Order where
  | little
  | big
  deriving DecidableEq

/-- The lowest bytes of a number, least significant first. -/
def digits : Nat → Nat → List Byte
  | 0, _ => []
  | n + 1, v => BitVec.ofNat 8 v :: digits n (v / 256)

/-- The number with these bytes, least significant first. -/
def value : List Byte → Nat
  | [] => 0
  | b :: rest => b.toNat + 256 * value rest

@[simp] theorem length_digits (n v : Nat) : (digits n v).length = n := by
  induction n generalizing v with
  | zero => rfl
  | succ n ih => simp [digits, ih]

theorem value_lt (bytes : List Byte) : value bytes < 256 ^ bytes.length := by
  induction bytes with
  | nil => simp [value]
  | cons b rest ih =>
      have low := b.isLt
      simp only [value, List.length_cons, Nat.pow_succ]
      omega

theorem value_digits (n v : Nat) : value (digits n v) = v % 256 ^ n := by
  induction n generalizing v with
  | zero => simp [digits, value, Nat.mod_one]
  | succ n ih =>
      have power : 256 ^ (n + 1) = 256 * 256 ^ n := by rw [Nat.pow_succ, Nat.mul_comm]
      rw [digits, value, ih, BitVec.toNat_ofNat, power, Nat.mod_mul]

theorem digits_value (bytes : List Byte) : digits bytes.length (value bytes) = bytes := by
  induction bytes with
  | nil => rfl
  | cons b rest ih =>
      have low := b.isLt
      have shifted : (b.toNat + 256 * value rest) / 256 = value rest := by omega
      have first : BitVec.ofNat 8 (b.toNat + 256 * value rest) = b := by
        apply BitVec.eq_of_toNat_eq
        rw [BitVec.toNat_ofNat]
        omega
      simp only [List.length_cons, digits, value, shifted, ih, first]

theorem digits_add (n m v : Nat) : digits (n + m) v = digits n v ++ digits m (v / 256 ^ n) := by
  induction n generalizing v with
  | zero => simp [digits]
  | succ n ih =>
      rw [Nat.succ_add, digits, digits, ih, Nat.div_div_eq_div_mul, Nat.pow_succ,
        Nat.mul_comm (256 ^ n)]
      rfl

theorem value_append (low high : List Byte) :
    value (low ++ high) = value low + 256 ^ low.length * value high := by
  induction low with
  | nil => simp [value]
  | cons b rest ih =>
      simp only [List.cons_append, value, ih, List.length_cons, Nat.pow_succ]
      ring

theorem value_digits_zero (n : Nat) : value (digits n 0).reverse = 0 := by
  induction n with
  | zero => rfl
  | succ n ih => simp [digits, value_append, ih, value]

section Word

variable {w n : Nat}

def Order.arrange : Order → List Byte → List Byte
  | .little, bytes => bytes
  | .big, bytes => bytes.reverse

/-- The `n` bytes of a word in memory. -/
def encode (order : Order) (n : Nat) (x : BitVec w) : List Byte :=
  order.arrange (digits n x.toNat)

/-- The word with these bytes in memory. -/
def decode (order : Order) (w : Nat) (bytes : List Byte) : BitVec w :=
  BitVec.ofNat w (value (order.arrange bytes))

/-- A word of `n` bytes with its bytes reversed. -/
def swap (n : Nat) (x : BitVec w) : BitVec w :=
  BitVec.ofNat w (value (digits n x.toNat).reverse)

@[simp] theorem length_encode (order : Order) (x : BitVec w) : (encode order n x).length = n := by
  cases order <;> simp [encode, Order.arrange]

theorem two_pow_eq (width : w = 8 * n) : 2 ^ w = 256 ^ n := by
  rw [width, Nat.pow_mul]

theorem decode_encode (width : w = 8 * n) (order : Order) (x : BitVec w) :
    decode order w (encode order n x) = x := by
  have back : order.arrange (order.arrange (digits n x.toNat)) = digits n x.toNat := by
    cases order <;> simp [Order.arrange]
  rw [decode, encode, back, value_digits, ← two_pow_eq width, Nat.mod_eq_of_lt x.isLt,
    BitVec.ofNat_toNat, BitVec.setWidth_eq]

theorem decode_encode_other {order other : Order} (differ : order ≠ other) (x : BitVec w) :
    decode order w (encode other n x) = swap n x := by
  have turned : order.arrange (other.arrange (digits n x.toNat)) =
      (digits n x.toNat).reverse := by
    cases order <;> cases other <;> simp_all [Order.arrange]
  rw [decode, encode, turned, swap]

theorem swap_swap (width : w = 8 * n) (x : BitVec w) : swap n (swap n x) = x := by
  have bound : value (digits n x.toNat).reverse < 2 ^ w := by
    rw [two_pow_eq width]
    simpa using value_lt (digits n x.toNat).reverse
  have again : digits n (value (digits n x.toNat).reverse) = (digits n x.toNat).reverse := by
    simpa using digits_value (digits n x.toNat).reverse
  have digit : value (digits n x.toNat) = x.toNat := by
    rw [value_digits, ← two_pow_eq width, Nat.mod_eq_of_lt x.isLt]
  rw [swap, swap, BitVec.toNat_ofNat, Nat.mod_eq_of_lt bound, again, List.reverse_reverse, digit,
    BitVec.ofNat_toNat, BitVec.setWidth_eq]

/-- The low bytes of a swapped word are the high bytes of the word, so they
    vanish if the word was widened from a shorter one. -/
theorem setWidth_swap_setWidth (width : w = 8 * n) (x : BitVec w) :
    (swap (n + n) (x.setWidth (w + w))).setWidth w = 0 := by
  have small : x.toNat < 256 ^ n := by
    rw [← two_pow_eq width]
    exact x.isLt
  have wide : (x.setWidth (w + w)).toNat = x.toNat := by
    rw [BitVec.toNat_setWidth]
    exact Nat.mod_eq_of_lt (Nat.lt_of_lt_of_le x.isLt (Nat.pow_le_pow_right (by omega) (by omega)))
  have high : value (digits (n + n) x.toNat).reverse =
      2 ^ w * value (digits n x.toNat).reverse := by
    rw [digits_add, Nat.div_eq_of_lt small, List.reverse_append, value_append, value_digits_zero,
      List.length_reverse, length_digits, two_pow_eq width, Nat.zero_add]
  apply BitVec.eq_of_toNat_eq
  rw [swap, wide, high, BitVec.toNat_setWidth, BitVec.toNat_ofNat,
    Nat.mod_mod_of_dvd _ (Nat.pow_dvd_pow 2 (Nat.le_add_right w w))]
  simp

end Word

end Spoor.Lib.ByteOrder
