import Mathlib.Data.List.Basic
import Mathlib.Data.List.Forall2
import Mathlib.Algebra.BigOperators.Group.List.Basic
import Mathlib.Tactic.Linarith

/-!
# Labelled transition systems and their runs

A system is a relation `step : σ → ℓ → σ → Prop` between a state, a label and
the next state.  A `Run` records the moves it made, so that a quantity summed
over a run can look at the state a move left, at its label and at the state it
reached.

* `Run.invariant` — what one step preserves, a run preserves.
* `Run.forall_moves` — what one step satisfies, every move of a run satisfies.
* `Run.restrict` — a run all of whose moves satisfy `P` is a run of the system
  restricted to `P`.
* `Run.succession` — the states a run goes through, when each determines what the
  next may be.
* `Run.simulate` — a run of a system is answered, move by move, by a run of any
  system that simulates it.
* `map_eq_of_forall₂`, `forall_of_forall₂`, `forall_left_of_forall₂` — what is read off the
  moves of one run is read off the answers of the other.
* `Run.traces_iff` — systems that simulate each other have the same traces.

## The meter

`Meter` is the abstract device behind every pay-per-block scheme: a clock, read
from time to time, charging for the time since it was last set.  `Meter.total_le`
is its one law: as long as no reading is dated before the clock, the charges of
a run add up to no more than the time between the first clock value and the
latest reading, whatever happened in between.

## Simulations

The two systems of a simulation may have different labels, and what an answer keeps of the move
it answers is a relation `Q` between moves, chosen by the caller.  Run by run the simulation
then gives two lists of moves, related entry by entry, and the lemmas on `List.Forall₂` read
equal sums, equal filtered lists or a property of every entry off them.  A bisimulation with a
function for `Q` gives equality of the sets of traces; there the state reached has to determine
its image, since both directions must end in the same one.

A state from which nothing follows is not special: a run may stop anywhere, and `Run.nil` is a
run of every system.  Statements about a closed object are therefore about runs that reach it,
never about runs that have to.
-/

namespace TransitionSystem

universe u v w x

/-- One move of a run. -/
structure Move (σ : Type u) (ℓ : Type v) where
  source : σ
  label : ℓ
  target : σ

/-- `Run step s moves t`: the system gets from `s` to `t` by `moves`.  The moves carry the
states they connect, so that what is said of a run can be said of its moves. -/
inductive Run {σ : Type u} {ℓ : Type v} (step : σ → ℓ → σ → Prop) :
    σ → List (Move σ ℓ) → σ → Prop
  | nil (s : σ) : Run step s [] s
  | cons {s : σ} {l : ℓ} {t : σ} {moves : List (Move σ ℓ)} {u : σ} :
      step s l t → Run step t moves u → Run step s (⟨s, l, t⟩ :: moves) u

namespace Run

variable {σ : Type u} {ℓ : Type v} {step : σ → ℓ → σ → Prop}
variable {s t u : σ} {moves moves' : List (Move σ ℓ)}

/-- One step is a run. -/
theorem single {l : ℓ} (h : step s l t) : Run step s [⟨s, l, t⟩] t :=
  .cons h (.nil t)

/-- A run goes on where another has ended. -/
theorem append (first : Run step s moves t) (second : Run step t moves' u) :
    Run step s (moves ++ moves') u := by
  induction first with
  | nil => exact second
  | cons h _ ih => exact .cons h (ih second)

/-- **Invariants.**  What every step preserves holds at the end of a run that
started from it. -/
theorem invariant {I : σ → Prop} (run : Run step s moves t)
    (hstep : ∀ {s l t}, step s l t → I s → I t) (hs : I s) : I t := by
  induction run with
  | nil => exact hs
  | cons h _ ih => exact ih (hstep h hs)

/-- What every step satisfies, every move of a run satisfies. -/
theorem forall_moves {P : Move σ ℓ → Prop} (run : Run step s moves t)
    (hstep : ∀ {s l t}, step s l t → P ⟨s, l, t⟩) : ∀ m ∈ moves, P m := by
  induction run with
  | nil => exact List.forall_mem_nil _
  | cons h _ ih => exact List.forall_mem_cons.mpr ⟨hstep h, ih⟩

/-- A run whose moves all satisfy `P` is a run of the restricted system. -/
theorem restrict {P : Move σ ℓ → Prop} (run : Run step s moves t)
    (hP : ∀ m ∈ moves, P m) :
    Run (fun s l t => step s l t ∧ P ⟨s, l, t⟩) s moves t := by
  induction run with
  | nil => exact .nil _
  | cons h _ ih =>
      refine .cons ⟨h, hP _ List.mem_cons_self⟩ (ih fun m hm => ?_)
      exact hP m (List.mem_cons_of_mem _ hm)

/-- **Simulation.**  If every step from a related state is answered by a step of
the other system, the two moves being related by `Q`, then every run is answered
by a run whose moves are related to its own one by one. -/
theorem simulate {τ : Type w} {κ : Type x} {astep : τ → κ → τ → Prop}
    {R : σ → τ → Prop} {Q : Move σ ℓ → Move τ κ → Prop}
    (hstep : ∀ {s l t a}, step s l t → R s a →
      ∃ k b, astep a k b ∧ R t b ∧ Q ⟨s, l, t⟩ ⟨a, k, b⟩)
    (run : Run step s moves t) {a : τ} (ha : R s a) :
    ∃ amoves b, Run astep a amoves b ∧ R t b ∧ List.Forall₂ Q moves amoves := by
  induction run generalizing a with
  | nil => exact ⟨[], a, .nil a, ha, .nil⟩
  | cons h _ ih =>
      obtain ⟨k, b, hab, hb, hq⟩ := hstep h ha
      obtain ⟨amoves, c, hrun, hc, hqs⟩ := ih hb
      exact ⟨_, c, .cons hab hrun, hc, .cons hq hqs⟩

/-- **Succession.**  Where every step from a state `f a` leads to a state `f b` with
`R a b` or ends in `done`, a run from `f a` goes through states `f b` with `R a b`
and then possibly ends. -/
theorem succession {α : Type w} {f : α → σ} {done : σ} {R : α → α → Prop}
    (hstep : ∀ {a l t}, step (f a) l t → t = done ∨ ∃ b, t = f b ∧ R a b)
    (hdone : ∀ {l t}, ¬ step done l t) (htrans : ∀ {a b c}, R a b → R b c → R a c)
    (run : Run step s moves t) {a : α} (ha : s = f a) :
    ∃ (bs : List α) (ending : List σ), (ending = [] ∨ ending = [done]) ∧
      moves.map Move.target = bs.map f ++ ending ∧ ∀ b ∈ bs, R a b := by
  induction run generalizing a with
  | nil => exact ⟨[], [], .inl rfl, rfl, List.forall_mem_nil _⟩
  | cons h run ih =>
      subst ha
      rcases hstep h with rfl | ⟨b, rfl, hab⟩
      · -- nothing follows the end
        cases run with
        | nil => exact ⟨[], [_], .inr rfl, rfl, List.forall_mem_nil _⟩
        | cons h' => exact absurd h' hdone
      · obtain ⟨bs, ending, hending, htargets, hbs⟩ := ih rfl
        refine ⟨b :: bs, ending, hending, ?_, ?_⟩
        · rw [List.map_cons, List.map_cons, htargets, List.cons_append]
        · intro c hc
          rcases List.mem_cons.mp hc with rfl | hc
          · exact hab
          · exact htrans hab (hbs c hc)

end Run

/-! ## Moves and their answers -/

section Answers

variable {α : Type u} {β : Type v} {γ : Type w} {Q : α → β → Prop} {xs : List α} {ys : List β}

/-- Equal entries, equal lists of them. -/
theorem map_eq_of_forall₂ {f : α → γ} {g : β → γ} (h : List.Forall₂ Q xs ys)
    (hentry : ∀ {x y}, Q x y → f x = g y) : xs.map f = ys.map g := by
  induction h with
  | nil => rfl
  | cons hxy _ ih => rw [List.map_cons, List.map_cons, hentry hxy, ih]

/-- The same for entries that may be missing. -/
theorem filterMap_eq_of_forall₂ {f : α → Option γ} {g : β → Option γ}
    (h : List.Forall₂ Q xs ys) (hentry : ∀ {x y}, Q x y → f x = g y) :
    xs.filterMap f = ys.filterMap g := by
  have hmap := congrArg (List.filterMap id) (map_eq_of_forall₂ h hentry)
  rwa [List.filterMap_map, List.filterMap_map, Function.id_comp, Function.id_comp] at hmap

/-- What having an answer says of a move holds of every move. -/
theorem forall_left_of_forall₂ {P : α → Prop} (h : List.Forall₂ Q xs ys)
    (hentry : ∀ {x y}, Q x y → P x) : ∀ x ∈ xs, P x :=
  ((List.forall₂_and_left xs ys).mp (h.imp fun _ _ hxy => ⟨hentry hxy, hxy⟩)).1

/-- What holds of every answer, and carries over, holds of every move. -/
theorem forall_of_forall₂ {P : α → Prop} {P' : β → Prop} (h : List.Forall₂ Q xs ys)
    (hP' : ∀ y ∈ ys, P' y) (hentry : ∀ {x y}, Q x y → P' y → P x) : ∀ x ∈ xs, P x := by
  induction h with
  | nil => exact List.forall_mem_nil _
  | cons hxy _ ih =>
      obtain ⟨hfirst, hrest⟩ := List.forall_mem_cons.mp hP'
      exact List.forall_mem_cons.mpr ⟨hentry hxy hfirst, ih hrest⟩

end Answers

/-- **Bisimulation.**  Where every step is answered under the event it is read as, and
every answer comes from such a step, the two systems have the same traces between related
states. -/
theorem Run.traces_iff {σ : Type u} {ℓ : Type v} {τ : Type w} {κ : Type x}
    {step : σ → ℓ → σ → Prop} {astep : τ → κ → τ → Prop} {R : σ → τ → Prop}
    {event : Move σ ℓ → κ}
    (hforth : ∀ {s l t a}, step s l t → R s a → ∃ b, astep a (event ⟨s, l, t⟩) b ∧ R t b)
    (hback : ∀ {s a k b}, astep a k b → R s a → ∃ l t, step s l t ∧ R t b ∧ event ⟨s, l, t⟩ = k)
    (hunique : ∀ {t b b'}, R t b → R t b' → b = b') {s : σ} {a b : τ} (ha : R s a)
    {events : List κ} :
    (∃ moves t, Run step s moves t ∧ R t b ∧ moves.map event = events) ↔
      ∃ amoves, Run astep a amoves b ∧ amoves.map Move.label = events := by
  constructor
  · rintro ⟨moves, t, run, ht, rfl⟩
    obtain ⟨amoves, b', arun, ht', hlabels⟩ : ∃ amoves b', Run astep a amoves b' ∧ R t b' ∧
        List.Forall₂ (fun m am => event m = am.label) moves amoves := by
      refine run.simulate ?_ ha
      intro s l t a h hs
      obtain ⟨b, hb, ht⟩ := hforth h hs
      exact ⟨_, b, hb, ht, rfl⟩
    obtain rfl := hunique ht ht'
    exact ⟨amoves, arun, (map_eq_of_forall₂ hlabels id).symm⟩
  · rintro ⟨amoves, arun, rfl⟩
    obtain ⟨moves, t, run, ht, hlabels⟩ : ∃ moves t, Run step s moves t ∧ R t b ∧
        List.Forall₂ (fun am m => event m = am.label) amoves moves := by
      refine arun.simulate (R := fun a s => R s a) ?_ ha
      intro a k b s h hs
      exact hback h hs
    exact ⟨moves, t, run, ht, (map_eq_of_forall₂ hlabels Eq.symm).symm⟩

/-! ## The meter -/

namespace Meter

/-- What happens to a meter: it is read at a time `t`, or its clock is set
without a charge. -/
inductive Event where
  | reading (t : ℕ)
  | idle
  deriving DecidableEq

/-- A reading is not dated before the clock and leaves the clock at or after its
date; an idle event leaves the clock where it is or later. -/
inductive Step : ℕ → Event → ℕ → Prop
  | reading {clock t clock' : ℕ} :
      clock ≤ t → t ≤ clock' → Step clock (.reading t) clock'
  | idle {clock clock' : ℕ} : clock ≤ clock' → Step clock .idle clock'

/-- The time a move charges for. -/
def charge (m : Move ℕ Event) : ℕ :=
  match m.label with
  | .reading t => t - m.source
  | .idle => 0

/-- The latest reading, `0` when there is none. -/
def latest : List Event → ℕ
  | [] => 0
  | .reading t :: es => max t (latest es)
  | .idle :: es => latest es

/-- **The meter law.**  The charges of a run fit between the clock it started
from and its latest reading. -/
theorem total_le {clock clock' : ℕ} {moves : List (Move ℕ Event)}
    (run : Run Step clock moves clock') :
    (moves.map charge).sum ≤ latest (moves.map Move.label) - clock := by
  induction run with
  | nil => simp
  | cons h _ ih =>
      cases h with
      | reading hle hge =>
          simp only [List.map_cons, List.sum_cons, charge, latest]
          omega
      | idle hle =>
          simp only [List.map_cons, List.sum_cons, charge, latest]
          omega

end Meter

end TransitionSystem
