import Mathlib.Data.List.Forall2
import Opticrum.Foundation.Triple

/-!
# Loops that keep what succeeds

The idiom `for x in xs { if let Ok(value) = f(x) { results.push(value); } }`: errors
are skipped, a panic ends the loop.  For a function that does not panic the loop is a
`filterMap`, and what is known of single results is known of the list of them.

`pushOk_eq` is that rewriting, and the lemmas below it carry a property of the single results
to the list in three ways: `filterMap_filter_of_agree` commutes the loop with a filter,
`forall₂_filterMap` relates the results to what they were read from, position by position, and
`exists_of_forall₂_getElem?` finds the source of a given result.
-/

namespace Rust

universe u v w z

open Outcome

section Loop

variable {ε : Type u} {δ : Type w} {α : Type z} {β : Type v}

/-- The loop over `xs`, with the results so far. -/
def pushOk (f : α → Outcome ε β) : List β → List α → Outcome δ (List β)
  | results, [] => .ok results
  | results, x :: xs =>
      match f x with
      | .ok value => pushOk f (results ++ [value]) xs
      | .error (.error _) => pushOk f results xs
      | .error .panic => panicked

/-- Without a panic, the loop appends what succeeds, in order. -/
theorem pushOk_eq {f : α → Outcome ε β} (hf : ∀ x, (f x).Yields (· ≠ .panic) fun _ => True)
    (results : List β) (xs : List α) :
    (pushOk f results xs : Outcome δ _) =
      .ok (results ++ xs.filterMap fun x => (f x).toOption) := by
  induction xs generalizing results with
  | nil => rw [pushOk, List.filterMap_nil, List.append_nil]
  | cons x xs ih =>
      have hx := hf x
      rw [pushOk, List.filterMap_cons]
      generalize f x = outcome at hx ⊢
      rcases outcome with (e | _) | value
      · exact ih results
      · exact absurd rfl hx
      · refine (ih (results ++ [value])).trans ?_
        rw [List.append_assoc]
        rfl

end Loop

section Lists

variable {α : Type u} {β : Type v} {f : α → Option β} {p : α → Bool} {l : List α}

/-- A filter on the elements is one on the results, when the two agree. -/
theorem filterMap_filter_of_agree {q : β → Bool} (h : ∀ a ∈ l, ∀ b, f a = some b → p a = q b) :
    (l.filter p).filterMap f = (l.filterMap f).filter q := by
  rw [List.filterMap_filter, List.filter_filterMap]
  refine List.filterMap_congr fun a ha => ?_
  cases hb : f a with
  | none => simp
  | some b => simp [h a ha b hb, Option.filter]

/-- Results stand in the order of their elements, one for each that `p` picks. -/
theorem forall₂_filterMap {R : α → β → Prop}
    (hsome : ∀ a ∈ l, p a = true → ∃ b, f a = some b ∧ R a b)
    (hnone : ∀ a ∈ l, p a = false → f a = none) :
    List.Forall₂ R (l.filter p) (l.filterMap f) := by
  induction l with
  | nil => exact .nil
  | cons a l ih =>
      rw [List.forall_mem_cons] at hsome hnone
      have htail := ih hsome.2 hnone.2
      cases ha : p a with
      | true =>
          obtain ⟨b, hb, hab⟩ := hsome.1 ha
          rw [List.filter_cons_of_pos ha, List.filterMap_cons_some hb]
          exact .cons hab htail
      | false =>
          rw [List.filter_cons_of_neg (by simp [ha]), List.filterMap_cons_none (hnone.1 ha)]
          exact htail

/-- A position of the second list is one of the first, with related elements. -/
theorem exists_of_forall₂_getElem? {R : α → β → Prop} {l : List α} {m : List β}
    (h : List.Forall₂ R l m) {i : ℕ} {b : β} (hi : m[i]? = some b) :
    ∃ a, l[i]? = some a ∧ R a b := by
  induction h generalizing i with
  | nil => cases hi
  | cons hab _ ih =>
      cases i with
      | zero =>
          obtain rfl := Option.some.inj hi
          exact ⟨_, rfl, hab⟩
      | succ i => exact ih hi

end Lists

end Rust
