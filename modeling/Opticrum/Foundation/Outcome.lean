import Mathlib.Data.List.Basic
import Mathlib.Tactic.Linarith

/-!
# Outcomes of checked code

A Rust function with result type `Result<T, E>` ends in one of three ways: it
returns `Ok`, it returns `Err`, or it panics.  The third way matters here: the
release profile switches on overflow checks and sets `panic = 'abort'`, and an
aborted script rejects its transaction just as an error code does.  `Outcome`
keeps the three apart, so that a statement about a function says which of them
it means.

* `Outcome ε α` — `Except` over `Fault ε`, where a fault is an error or a panic.
* `readArray` — the slicing idiom `data[a..b].try_into().unwrap()`.
* `checkedMul`, `saturatingSub` — the two arithmetic operations on fixed-width
  words whose behaviour at the edge the code relies on.

## Reasoning

`bind_eq_ok_iff` peels one `?` off a successful computation; every inversion
lemma about a checked function is an iteration of it.

`eq_append_toList_iff` and `eq_append₃_toList_iff` are what turns a decoder that reads fixed
fields one after the other into an equation about the whole input: a list is the fields in
their order if and only if each window of it is its field and nothing is left over.

The operations are the ones of the standard library and of the primitive integer types:

* `ensure` is the guard `if !c { return Err(e) }`;
* `slice` is `&data[a..b]`, which panics where the range does not fit;
* `checkedMul` and `checkedNeg` are `*` and unary `-` under overflow checks;
* `saturatingSub` stops at zero, and its value is the difference of natural numbers.
-/

namespace Rust

universe u v w

/-- Why a computation did not return `Ok`: it returned an error, or it panicked.  A script that
panics rejects like one that returns an error, but no caller gets to see it. -/
inductive Fault (ε : Type u) where
  | error (e : ε)
  | panic
  deriving DecidableEq, Repr

/-- The result of a Rust function of type `Result<α, ε>`, panics included. -/
abbrev Outcome (ε : Type u) (α : Type v) := Except (Fault ε) α

namespace Outcome

variable {ε : Type u} {δ : Type w} {α β : Type v}

/-- Return the error `e`. -/
def err (e : ε) : Outcome ε α := .error (.error e)

/-- Panic. -/
def panicked : Outcome ε α := .error .panic

/-- `Result::map_err`: errors are mapped, panics are not caught.  The type of the errors
changes, so this is also how a `?` converts them. -/
def mapErr (f : ε → δ) : Outcome ε α → Outcome δ α
  | .ok a => .ok a
  | .error (.error e) => .error (.error (f e))
  | .error .panic => .error .panic

/-- An error returns nothing. -/
@[simp] theorem err_ne_ok (e : ε) (a : α) : (err e : Outcome ε α) ≠ .ok a := by
  simp [err]

@[simp] theorem panicked_ne_ok (a : α) : (panicked : Outcome ε α) ≠ .ok a := by
  simp [panicked]

@[simp] theorem mapErr_ok (f : ε → δ) (a : α) :
    mapErr f (.ok a : Outcome ε α) = .ok a := rfl

/-- Renaming the error changes nothing about what is returned. -/
@[simp] theorem mapErr_eq_ok_iff (f : ε → δ) {x : Outcome ε α} {a : α} :
    mapErr f x = .ok a ↔ x = .ok a := by
  rcases x with (e | _) | b <;> simp [mapErr]

/-- One `?` of a computation that returned `Ok`. -/
@[simp] theorem bind_eq_ok_iff {x : Outcome ε α} {f : α → Outcome ε β} {b : β} :
    (x >>= f) = .ok b ↔ ∃ a, x = .ok a ∧ f a = .ok b := by
  cases x with
  | error e => simp [bind, Except.bind]
  | ok a => simp [bind, Except.bind]

@[simp] theorem ok_bind (a : α) (f : α → Outcome ε β) :
    ((.ok a : Outcome ε α) >>= f) = f a := rfl

@[simp] theorem pure_eq_ok (a : α) : (pure a : Outcome ε α) = .ok a := rfl

/-- A guard that returns the error `e` when the condition `c` does not hold. -/
def ensure (c : Prop) [Decidable c] (e : ε) : Outcome ε PUnit :=
  if c then .ok ⟨⟩ else err e

/-- A check that lets the program go on has held. -/
@[simp] theorem ensure_eq_ok_iff {c : Prop} [Decidable c] {e : ε} {u : PUnit} :
    ensure c e = .ok u ↔ c := by
  unfold ensure
  split <;> simp_all

end Outcome

open Outcome

/-! ## Slices and arrays -/

section Slices

variable {ε : Type u} {α : Type v}

/-- `bs[a..b]`: the slice, or a panic when it is out of bounds. -/
def slice (bs : List α) (a b : ℕ) : Outcome ε (List α) :=
  if a ≤ b ∧ b ≤ bs.length then .ok ((bs.drop a).take (b - a)) else panicked

/-- `bs.try_into().unwrap()` at type `[α; n]`: a panic on any other length. -/
def tryInto (n : ℕ) (bs : List α) : Outcome ε (Vector α n) :=
  if h : bs.length = n then .ok ⟨bs.toArray, by simpa using h⟩ else panicked

/-- `bs[a..a + n]` copied into an array of `n` elements.  Inside the bounds it cannot fail, as
the slice then has the length the array asks for. -/
def readArray (bs : List α) (a n : ℕ) : Outcome ε (Vector α n) := do
  let part ← slice bs a (a + n)
  tryInto n part

/-- The array `readArray` returns inside its bounds. -/
def window (bs : List α) (a n : ℕ) (h : a + n ≤ bs.length) : Vector α n :=
  ⟨((bs.drop a).take n).toArray, by simp; omega⟩

/-- Inside the bounds the idiom neither panics nor fails. -/
theorem readArray_eq_ok {bs : List α} {a n : ℕ} (h : a + n ≤ bs.length) :
    (readArray bs a n : Outcome ε (Vector α n)) = .ok (window bs a n h) := by
  have hlen : ((bs.drop a).take n).length = n := by simp; omega
  simp only [readArray, slice, Nat.le_add_right, h, and_self, if_true, ok_bind,
    Nat.add_sub_cancel_left, tryInto]
  rw [dif_pos hlen, window]

/-- The window is what is left after dropping what comes before and cutting off what comes
after. -/
@[simp] theorem toList_window (bs : List α) (a n : ℕ) (h : a + n ≤ bs.length) :
    (window bs a n h).toList = (bs.drop a).take n := by
  simp [window]

/-- What `bs[a..b]` returns. -/
theorem slice_eq_ok_iff {bs part : List α} {a b : ℕ} :
    (slice bs a b : Outcome ε _) = .ok part ↔
      a ≤ b ∧ b ≤ bs.length ∧ (bs.drop a).take (b - a) = part := by
  unfold slice
  split
  · next h => simp [h.1, h.2]
  · next h => simp only [Outcome.panicked_ne_ok, false_iff]; tauto

/-- What the array idiom returns: a window of the input. -/
theorem readArray_eq_ok_iff {bs : List α} {a n : ℕ} {v : Vector α n} :
    (readArray bs a n : Outcome ε _) = .ok v ↔
      a + n ≤ bs.length ∧ (bs.drop a).take n = v.toList := by
  constructor
  · intro h
    have hle : a + n ≤ bs.length := by
      by_contra hgt
      have hp : (readArray bs a n : Outcome ε _) = .panicked := by
        simp only [readArray, slice, Nat.le_add_right, true_and, if_neg hgt]
        rfl
      exact absurd (hp ▸ h) (Outcome.panicked_ne_ok v)
    rw [readArray_eq_ok hle, Except.ok.injEq] at h
    exact ⟨hle, by rw [← h, toList_window]⟩
  · rintro ⟨hle, hv⟩
    rw [readArray_eq_ok hle, Except.ok.injEq, ← Vector.toList_inj, toList_window, hv]

/-- Taking all of a vector. -/
@[simp] theorem take_toList_self {n : ℕ} (v : Vector α n) : v.toList.take n = v.toList :=
  List.take_of_length_le (by simp)

/-- A list is two arrays in a row exactly when its windows are. -/
theorem eq_append_toList_iff {bs : List α} {m n : ℕ} {x : Vector α m} {y : Vector α n} :
    bs = x.toList ++ y.toList ↔
      bs.length = m + n ∧ bs.take m = x.toList ∧ (bs.drop m).take n = y.toList := by
  constructor
  · rintro rfl
    simp
  · rintro ⟨hlen, hx, hy⟩
    have hrest : (bs.drop m).take n = bs.drop m :=
      List.take_of_length_le (by simp only [List.length_drop]; omega)
    rw [← hx, ← hy, hrest, List.take_append_drop]

/-- A list is three arrays in a row exactly when its windows are. -/
theorem eq_append₃_toList_iff {bs : List α} {m n k : ℕ} {x : Vector α m}
    {y : Vector α n} {z : Vector α k} :
    bs = x.toList ++ y.toList ++ z.toList ↔
      bs.length = m + n + k ∧ bs.take m = x.toList ∧
        (bs.drop m).take n = y.toList ∧ (bs.drop (m + n)).take k = z.toList := by
  constructor
  · rintro rfl
    refine ⟨by simp [Nat.add_assoc], by simp, by simp, ?_⟩
    rw [← List.drop_drop]
    simp
  · rintro ⟨hlen, hx, hy, hz⟩
    have hrest : (bs.drop (m + n)).take k = bs.drop (m + n) :=
      List.take_of_length_le (by simp only [List.length_drop]; omega)
    rw [← hx, ← hy, ← hz, hrest, ← List.drop_drop, List.append_assoc,
      List.take_append_drop, List.take_append_drop]

end Slices

/-! ## Fixed-width arithmetic -/

section Words

variable {ε : Type u} {n : ℕ}

/-- `a * b` with overflow checks: the product, or a panic. -/
def checkedMul (a b : BitVec n) : Outcome ε (BitVec n) :=
  if a.toNat * b.toNat < 2 ^ n then .ok (a * b) else panicked

/-- `-a` with overflow checks, on signed words: the least word has no negative. -/
def checkedNeg (a : BitVec n) : Outcome ε (BitVec n) :=
  if a = BitVec.intMin n then panicked else .ok (-a)

/-- `a.saturating_sub(b)`. -/
def saturatingSub (a b : BitVec n) : BitVec n :=
  if b ≤ a then a - b else 0

/-- Subtraction of natural numbers saturates of itself. -/
@[simp] theorem toNat_saturatingSub (a b : BitVec n) :
    (saturatingSub a b).toNat = a.toNat - b.toNat := by
  unfold saturatingSub
  split
  · next h => exact BitVec.toNat_sub_of_le h
  · next h =>
    rw [BitVec.le_def] at h
    simp only [BitVec.ofNat_eq_ofNat, BitVec.toNat_ofNat, Nat.zero_mod]
    omega

/-- The checked product returns exactly when it fits, and then it is exact. -/
theorem checkedMul_eq_ok_iff {a b c : BitVec n} :
    (checkedMul a b : Outcome ε (BitVec n)) = .ok c ↔
      a.toNat * b.toNat = c.toNat := by
  unfold checkedMul
  split
  · next h =>
    rw [Except.ok.injEq, ← BitVec.toNat_inj, BitVec.toNat_mul, Nat.mod_eq_of_lt h]
  · next h =>
    refine ⟨fun hc => absurd hc (panicked_ne_ok c), fun hc => ?_⟩
    exact absurd (hc ▸ c.isLt) h

/-- A product that does not fit aborts. -/
theorem checkedMul_of_le {a b : BitVec n} (h : 2 ^ n ≤ a.toNat * b.toNat) :
    (checkedMul a b : Outcome ε (BitVec n)) = panicked := if_neg (by omega)

/-- Only the least number has no negation. -/
theorem checkedNeg_eq_ok_iff {a b : BitVec n} :
    (checkedNeg a : Outcome ε (BitVec n)) = .ok b ↔ a ≠ BitVec.intMin n ∧ b = -a := by
  unfold checkedNeg
  split
  · next h => simp [h]
  · next h => simp [h, eq_comm]

/-- A number that fits is the value of its word. -/
theorem toNat_ofNat_of_lt {k : ℕ} (h : k < 2 ^ n) : (BitVec.ofNat n k).toNat = k := by
  rw [BitVec.toNat_ofNat, Nat.mod_eq_of_lt h]

/-- A widening cast keeps the value. -/
theorem toNat_setWidth_of_le {m : ℕ} (h : n ≤ m) (a : BitVec n) :
    (a.setWidth m).toNat = a.toNat := by
  rw [BitVec.toNat_setWidth]
  exact Nat.mod_eq_of_lt (lt_of_lt_of_le a.isLt (Nat.pow_le_pow_right (by omega) h))

end Words

end Rust
