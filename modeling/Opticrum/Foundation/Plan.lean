import Mathlib.Data.List.Basic

/-!
# Carrying out a plan

A plan is a list of labels fixed in advance.  On an abstract state it is run by a
partial step function, `plan.foldlM step`: the plan is possible when no step is
refused.  On a concrete state each label is a predicate transformer: `does l P s` says
that doing `l` in `s` ends in a state with `P`, whatever is not decided by the one who
does it.  `Along` does the labels one after the other.

`along_of_foldlM` is the rule that connects the two: where every possible step of the
abstract state is carried out by the concrete one, every possible plan is.

The abstract step is partial and the concrete one is total, so the rule goes in one direction
only.  A refused plan may still be carried out in part, and nothing is said about how far.
-/

namespace TransitionSystem

universe u v w

variable {σ : Type u} {ℓ : Type v} {τ : Type w}

/-- The labels done one after the other end in a state with `P`. -/
def Along (does : ℓ → (σ → Prop) → σ → Prop) : List ℓ → (σ → Prop) → σ → Prop
  | [], P => P
  | l :: plan, P => does l (Along does plan P)

section Along

variable {does : ℓ → (σ → Prop) → σ → Prop} {P : σ → Prop} {s : σ}

/-- With nothing left to do, what is asked for has to hold already. -/
@[simp] theorem along_nil : Along does [] P s ↔ P s := Iff.rfl

/-- A plan goes through when its first item does, into a state from which the rest goes
through. -/
@[simp] theorem along_cons {l : ℓ} {plan : List ℓ} :
    Along does (l :: plan) P s ↔ does l (Along does plan P) s := Iff.rfl

/-- **Plans.**  If a state that embodies `t` carries out every step of the plan that is
possible in `t`, and ends up embodying where the step leads, then it carries out the plan
when that is possible in `t`. -/
theorem along_of_foldlM {step : τ → ℓ → Option τ} {Embodies : τ → σ → Prop}
    (hdoes : ∀ {l : ℓ} {P Q : σ → Prop} {s : σ}, (∀ s, P s → Q s) → does l P s → does l Q s)
    {plan : List ℓ} (hstep : ∀ l ∈ plan, ∀ {t t' s}, step t l = some t' → Embodies t s →
      does l (Embodies t') s)
    {t t' : τ} (hplan : plan.foldlM step t = some t') (ht : Embodies t s) :
    Along does plan (Embodies t') s := by
  induction plan generalizing t s with
  | nil =>
      obtain rfl : t = t' := Option.some.inj hplan
      rwa [along_nil]
  | cons l plan ih =>
      rw [List.foldlM_cons] at hplan
      obtain ⟨t₁, hfirst, hrest⟩ := Option.bind_eq_some_iff.mp hplan
      obtain ⟨hl, hplan'⟩ := List.forall_mem_cons.mp hstep
      rw [along_cons]
      exact hdoes (fun _ h' => ih hplan' hrest h') (hl hfirst ht)

end Along

end TransitionSystem
