import Opticrum.Foundation.Outcome

/-!
# What a computation can end in

`Yields E P x` is a triple without a state: `x` returns a value with the property
`P`, or it ends in a fault that `E` allows.  With `E` everything but a panic it
says that `x` does not panic; with a smaller `E` it also says which errors `x`
never returns.

One rule for each combinator of `Outcome` lets a proof follow the program: a guard
leaves its condition behind as the property of what follows, and a slice or an
array read inside its bounds cannot fail.

The rules are the usual ones: `Yields.mono` weakens both sides, `Yields.bind` sequences,
`Yields.mapErr` changes the error type and keeps a panic a panic, and `Yields.remember` keeps
the equation of the computation next to its property, for what follows to use.  `yields_iff`
spells a triple out as two implications, one for each way the computation can end.
-/

namespace Rust

universe u v w

namespace Outcome

variable {ε : Type u} {δ : Type w} {α β : Type v}
variable {E E' : Fault ε → Prop} {P Q : α → Prop} {x : Outcome ε α}

/-- `x` returns a value with the property `P`, or ends in a fault that `E` allows.  There is no
state and no divergence, so this is all there is to say about a computation by a pre- and a
postcondition. -/
def Yields (E : Fault ε → Prop) (P : α → Prop) : Outcome ε α → Prop
  | .ok a => P a
  | .error f => E f

/-- A computation that returns yields what holds of the result. -/
@[simp] theorem yields_ok {a : α} : Yields E P (.ok a) ↔ P a := Iff.rfl

@[simp] theorem yields_err {e : ε} : Yields E P (err e : Outcome ε α) ↔ E (.error e) := Iff.rfl

@[simp] theorem yields_panicked : Yields E P (panicked : Outcome ε α) ↔ E .panic := Iff.rfl

/-- The triple, read off the two ways a computation can end. -/
theorem yields_iff :
    Yields E P x ↔ (∀ a, x = .ok a → P a) ∧ ∀ f, x = .error f → E f := by
  cases x with
  | ok a => simp
  | error f => simp [Yields]

/-- The rule of consequence, for both ways a computation can end. -/
theorem Yields.mono (h : Yields E P x) (hE : ∀ f, E f → E' f) (hP : ∀ a, P a → Q a) :
    Yields E' Q x := by
  cases x with
  | ok a => exact hP a h
  | error f => exact hE f h

/-- What a computation returned may be remembered. -/
theorem Yields.remember (h : Yields E P x) : Yields E (fun a => P a ∧ x = .ok a) x := by
  cases x with
  | ok a => exact ⟨h, rfl⟩
  | error f => exact h

/-- **Sequencing.** -/
theorem Yields.bind {f : α → Outcome ε β} {R : β → Prop} (hx : Yields E P x)
    (hf : ∀ a, P a → Yields E R (f a)) : Yields E R (x >>= f) := by
  cases x with
  | ok a => exact hf a hx
  | error e => exact hx

/-- Mapping the errors of a computation that does not panic. -/
theorem Yields.mapErr {E : Fault δ → Prop} {g : ε → δ} (h : Yields (· ≠ .panic) P x)
    (hE : ∀ e, E (.error (g e))) : Yields E P (x.mapErr g) := by
  rcases x with (e | _) | a
  · exact hE e
  · exact absurd rfl h
  · exact h

/-- A guard leaves its condition behind. -/
theorem yields_ensure {c : Prop} [Decidable c] {e : ε} (he : E (.error e)) :
    Yields E (fun _ => c) (ensure c e) := by
  unfold ensure
  split
  · next hc => exact hc
  · exact he

end Outcome

/-! ## Slices and arrays -/

section Slices

open Outcome

variable {ε : Type u} {α : Type v} {E : Fault ε → Prop}

/-- A slice inside the bounds. -/
theorem yields_slice {bs : List α} {a b : ℕ} (hab : a ≤ b) (hb : b ≤ bs.length) :
    Yields E (fun part => part.length = b - a) (slice bs a b) := by
  rw [slice, if_pos ⟨hab, hb⟩, yields_ok, List.length_take, List.length_drop]
  omega

/-- An array read inside the bounds. -/
theorem yields_readArray {bs : List α} {a n : ℕ} (h : a + n ≤ bs.length) :
    Yields E (fun _ => True) (readArray bs a n : Outcome ε (Vector α n)) := by
  rw [readArray_eq_ok h]
  trivial

end Slices

/-- A product under overflow checks fits, or its panic is allowed. -/
theorem yields_checkedMul {ε : Type u} {E : Fault ε → Prop} {n : ℕ} {a b : BitVec n}
    (h : a.toNat * b.toNat < 2 ^ n ∨ E .panic) :
    Outcome.Yields E (fun _ => True) (checkedMul a b) := by
  unfold checkedMul
  split
  · trivial
  · next hlarge => exact h.resolve_left hlarge

end Rust
