import Mathlib.Data.List.Basic
import Mathlib.Tactic.Linarith

/-!
# Little-endian words

`to_le_bytes` and `from_le_bytes` at every width, on words `BitVec (8 * n)` and
byte arrays `Vector UInt8 n`.  The two are inverse to each other in both
directions, so an encoding has exactly one decoding and the other way round.

Both directions are proved on digit lists first, where the width is the length of the list
and the induction is on it: `valueLE_digitsLE` needs that the value fits into the width, and
`digitsLE_valueLE` needs nothing.  The words and arrays then only carry the bounds.
-/

namespace Rust

/-- The `n` low-order base-256 digits of `v`, least significant first. -/
def digitsLE : ℕ → ℕ → List UInt8
  | 0, _ => []
  | n + 1, v => UInt8.ofNat (v % 256) :: digitsLE n (v / 256)

/-- The number with the given base-256 digits, least significant first. -/
def valueLE : List UInt8 → ℕ
  | [] => 0
  | b :: bs => b.toNat + 256 * valueLE bs

/-- There are as many digits as asked for. -/
@[simp] theorem length_digitsLE (n v : ℕ) : (digitsLE n v).length = n := by
  induction n generalizing v with
  | zero => rfl
  | succ n ih => rw [digitsLE, List.length_cons, ih]

/-- A string of bytes has a value its length has room for. -/
theorem valueLE_lt (bs : List UInt8) : valueLE bs < 256 ^ bs.length := by
  induction bs with
  | nil => simp [valueLE]
  | cons b bs ih =>
      have hb : b.toNat < 256 := b.toNat_lt
      rw [valueLE, List.length_cons, Nat.pow_succ]
      omega

/-- Digits of a number that fits are read back as the number. -/
theorem valueLE_digitsLE {n v : ℕ} (h : v < 256 ^ n) : valueLE (digitsLE n v) = v := by
  induction n generalizing v with
  | zero => simp only [digitsLE, valueLE]; omega
  | succ n ih =>
      have hq : v / 256 < 256 ^ n := by
        rw [Nat.pow_succ] at h
        exact Nat.div_lt_of_lt_mul (by omega)
      have hr : (UInt8.ofNat (v % 256)).toNat = v % 256 := by simp
      rw [digitsLE, valueLE, ih hq, hr]
      omega

/-- Every byte string is the digit string of its value. -/
theorem digitsLE_valueLE (bs : List UInt8) : digitsLE bs.length (valueLE bs) = bs := by
  induction bs with
  | nil => rfl
  | cons b bs ih =>
      have hb : b.toNat < 256 := b.toNat_lt
      have hmod : (b.toNat + 256 * valueLE bs) % 256 = b.toNat := by omega
      have hdiv : (b.toNat + 256 * valueLE bs) / 256 = valueLE bs := by omega
      rw [List.length_cons, digitsLE, valueLE, hmod, hdiv, ih, UInt8.ofNat_toNat]

/-- `uN::to_le_bytes`. -/
def toLeBytes {n : ℕ} (v : BitVec (8 * n)) : Vector UInt8 n :=
  ⟨(digitsLE n v.toNat).toArray, by simp⟩

/-- `uN::from_le_bytes`. -/
def fromLeBytes {n : ℕ} (bs : Vector UInt8 n) : BitVec (8 * n) :=
  BitVec.ofNat (8 * n) (valueLE bs.toList)

/-- A byte has eight bits. -/
theorem two_pow_eight_mul (n : ℕ) : 2 ^ (8 * n) = 256 ^ n := by
  rw [Nat.pow_mul]

/-- Read as a word, a string of bytes has the value of its digits. -/
theorem toNat_fromLeBytes {n : ℕ} (bs : Vector UInt8 n) :
    (fromLeBytes bs).toNat = valueLE bs.toList := by
  have h := valueLE_lt bs.toList
  rw [Vector.length_toList, ← two_pow_eight_mul] at h
  rw [fromLeBytes, BitVec.toNat_ofNat, Nat.mod_eq_of_lt h]

/-- Written as bytes, a word gives its digits. -/
@[simp] theorem toList_toLeBytes {n : ℕ} (v : BitVec (8 * n)) :
    (toLeBytes v).toList = digitsLE n v.toNat := by
  simp [toLeBytes]

/-- Decoding inverts encoding. -/
@[simp] theorem fromLeBytes_toLeBytes {n : ℕ} (v : BitVec (8 * n)) :
    fromLeBytes (toLeBytes v) = v := by
  apply BitVec.eq_of_toNat_eq
  rw [toNat_fromLeBytes, toList_toLeBytes]
  exact valueLE_digitsLE (two_pow_eight_mul n ▸ v.isLt)

/-- Encoding inverts decoding: every byte array is the encoding of a word. -/
@[simp] theorem toLeBytes_fromLeBytes {n : ℕ} (bs : Vector UInt8 n) :
    toLeBytes (fromLeBytes bs) = bs := by
  rw [← Vector.toList_inj, toList_toLeBytes, toNat_fromLeBytes]
  have h := digitsLE_valueLE bs.toList
  rwa [Vector.length_toList] at h

end Rust
