import Mathlib.Algebra.BigOperators.Group.List.Basic
import Mathlib.Tactic.Linarith
import Opticrum.Foundation.Run

/-!
# Metered accounts

An account holds a balance and a clock, and is charged at a fixed rate for the time
since the clock.  Four things happen to it:

* a *charge* dated `t` takes the fee for the time from the clock to `t` and sets the
  clock to `t`;
* a *rewind* sets the clock back and takes nothing;
* a *skip* lets the clock go ahead and takes nothing;
* a *sweep* dated `t` takes a balance that the fee up to `t` covers, and closes the
  account.

The first three may pay in or withdraw an amount on the way.

Its laws, for runs of any length:

* `balance_add_taken` — nothing is lost: what was there and was paid in is there or
  was taken;
* `taken_add_skipped` — what was taken is the fee for the time the clock went through,
  less the time it skipped and plus the time it was set back;
* `taken_le_latest` — what was taken is covered by the fee up to the latest moment charged
  for, and for the time the clock was set back;
* `pairwise_spans` — while the clock is never set back, no moment is charged twice.

## How the laws are proved

Every law is an induction on the run, with a case for each of the four events.  The balance
law needs nothing beside the event's own equation.  The laws about the clock need more, since
a sweep leaves no clock behind: they start from an open account, and `not_step_none` ends a run
at its first sweep.

A charge is described by its *span*, the pair of the clock it started from and its date, and
the span is `none` where no time has passed.  The fee law does not follow from `pairwise_spans`,
which needs that the clock was never set back.  It is proved directly, from two facts about one
move: `charged_add_latest` bounds its time by the latest moment of the whole run, and
`charged_add_clock` says where it leaves the clock.

## What is not assumed

A balance may be worth less than the fee that has accrued.  Such an account can be swept, and a
charge has to pay in what is missing.  Amounts are integers, so that one event covers paying in
and withdrawing, and the balance that results is a natural number, so that no event takes more
than there is.  Two charges may be dated alike, and no charge is dated before the clock.
-/

namespace TransitionSystem

namespace Account

/-- An open account: what it holds, and the time up to which it has been charged. -/
structure State where
  balance : ℕ
  clock : ℕ

/-- What happens to an account.  Amounts are paid in, or withdrawn when they are negative. -/
inductive Event where
  | charge (t : ℕ) (amount : ℤ)
  | rewind (t : ℕ) (amount : ℤ)
  | skip (time : ℕ) (amount : ℤ)
  | sweep (t : ℕ)

/-- An account charged at `rate`; `none` is a closed one. -/
inductive Step (rate : ℕ) : Option State → Event → Option State → Prop
  | charge {balance balance' clock t : ℕ} {amount : ℤ} :
      clock ≤ t → (balance' : ℤ) + (rate * (t - clock) : ℕ) = balance + amount →
        Step rate (some ⟨balance, clock⟩) (.charge t amount) (some ⟨balance', t⟩)
  | rewind {balance balance' clock t : ℕ} {amount : ℤ} :
      t ≤ clock → (balance' : ℤ) = balance + amount →
        Step rate (some ⟨balance, clock⟩) (.rewind t amount) (some ⟨balance', t⟩)
  | skip {balance balance' clock time : ℕ} {amount : ℤ} :
      (balance' : ℤ) = balance + amount →
        Step rate (some ⟨balance, clock⟩) (.skip time amount) (some ⟨balance', clock + time⟩)
  | sweep {balance clock t : ℕ} :
      balance ≤ rate * (t - clock) → Step rate (some ⟨balance, clock⟩) (.sweep t) none

/-- The balance, nothing once the account is closed. -/
def balanceOf : Option State → ℕ
  | some s => s.balance
  | none => 0

/-- What a move takes.  A sweep takes the whole balance, also where the fee is more than
that. -/
def taken (rate : ℕ) (m : Move (Option State) Event) : ℕ :=
  match m.source, m.label with
  | some s, .charge t _ => rate * (t - s.clock)
  | some s, .sweep _ => s.balance
  | _, _ => 0

/-- What a move pays in, negative when it withdraws. -/
def deposited (m : Move (Option State) Event) : ℤ :=
  match m.label with
  | .charge _ amount | .rewind _ amount | .skip _ amount => amount
  | .sweep _ => 0

/-- The time a move lets the clock skip. -/
def skipped (m : Move (Option State) Event) : ℕ :=
  match m.label with
  | .skip time _ => time
  | _ => 0

/-- The time a move sets the clock back by.  A rewind dated at the clock sets it back by
nothing. -/
def rewound (m : Move (Option State) Event) : ℕ :=
  match m.source, m.label with
  | some s, .rewind t _ => s.clock - t
  | _, _ => 0

/-- The time a charge or a sweep is for: after the first moment of the pair, up to the
second. -/
def span? (m : Move (Option State) Event) : Option (ℕ × ℕ) :=
  match m.source, m.label with
  | some s, .charge t _ => if s.clock < t then some (s.clock, t) else none
  | some s, .sweep t => if s.clock < t then some (s.clock, t) else none
  | _, _ => none

/-- How long a move charges for. -/
def charged (m : Move (Option State) Event) : ℕ :=
  (span? m).elim 0 fun span => span.2 - span.1

/-- The latest moment a run charges for, `0` when there is none. -/
def latest (moves : List (Move (Option State) Event)) : ℕ :=
  ((moves.filterMap span?).map Prod.snd).foldr max 0

section Laws

variable {rate : ℕ} {s t : Option State} {moves : List (Move (Option State) Event)}

/-- A closed account stays closed. -/
theorem not_step_none {e : Event} : ¬ Step rate none e t := by
  intro h
  cases h

/-- **Balance.**  What was there and was paid in is there or was taken. -/
theorem balance_add_taken (run : Run (Step rate) s moves t) :
    (balanceOf t : ℤ) + (moves.map (taken rate)).sum =
      balanceOf s + (moves.map deposited).sum := by
  induction run with
  | nil => simp
  | cons h _ ih =>
      simp only [List.map_cons, List.sum_cons]
      cases h with
      | charge _ hbalance | rewind _ hbalance | skip hbalance =>
          simp only [taken, deposited, balanceOf] at ih ⊢
          push_cast at ih hbalance ⊢
          linarith
      | sweep hcovered =>
          simp only [taken, deposited, balanceOf] at ih ⊢
          push_cast at ih ⊢
          linarith

/-- **Fees.**  While the account is open, what was taken is the fee for the time the
clock went through, less what it skipped and plus what it was set back by. -/
theorem taken_add_skipped {a b : State} (run : Run (Step rate) s moves t) (hs : s = some a)
    (ht : t = some b) :
    (moves.map (taken rate)).sum + rate * (a.clock + (moves.map skipped).sum) =
      rate * (b.clock + (moves.map rewound).sum) := by
  induction run generalizing a with
  | nil =>
      obtain rfl := Option.some.inj (hs.symm.trans ht)
      simp
  | cons h run ih =>
      subst hs
      simp only [List.map_cons, List.sum_cons]
      cases h with
      | charge hle hbalance =>
          have hrest := ih rfl ht
          simp only [taken, skipped, rewound] at hrest ⊢
          obtain ⟨elapsed, rfl⟩ := Nat.exists_eq_add_of_le hle
          rw [Nat.add_sub_cancel_left]
          linarith
      | rewind hle hbalance =>
          have hrest := ih rfl ht
          simp only [taken, skipped, rewound] at hrest ⊢
          obtain ⟨back, hback⟩ := Nat.exists_eq_add_of_le hle
          rw [hback, Nat.add_sub_cancel_left]
          linarith
      | skip hbalance =>
          have hrest := ih rfl ht
          simp only [taken, skipped, rewound] at hrest ⊢
          linarith
      | sweep hcovered =>
          subst ht
          cases run with
          | cons h' => exact absurd h' not_step_none

/-- A move takes no more than the fee for the time it charges for. -/
theorem taken_le_charged {e : Event} (h : Step rate s e t) :
    taken rate ⟨s, e, t⟩ ≤ rate * charged ⟨s, e, t⟩ := by
  cases h with
  | charge hle hbalance =>
      simp only [taken, charged, span?]
      split
      · exact le_rfl
      · next hlt =>
        rw [Nat.sub_eq_zero_of_le (Nat.le_of_not_lt hlt), Nat.mul_zero]
        exact Nat.zero_le _
  | rewind _ _ | skip _ => exact Nat.zero_le _
  | sweep hcovered =>
      simp only [taken, charged, span?]
      split
      · exact hcovered
      · next hlt =>
        rw [Nat.sub_eq_zero_of_le (Nat.le_of_not_lt hlt), Nat.mul_zero] at hcovered
        exact hcovered.trans (Nat.zero_le _)

/-- A span starts at the clock. -/
theorem fst_of_span? {a : State} {e : Event} {span : ℕ × ℕ}
    (h : span? ⟨some a, e, t⟩ = some span) : span.1 = a.clock ∧ span.1 < span.2 := by
  cases e with
  | charge date _ | sweep date =>
      simp only [span?] at h
      split at h
      · next hlt =>
        obtain rfl := Option.some.inj h
        exact ⟨rfl, hlt⟩
      · simp at h
  | rewind _ _ | skip _ _ => simp [span?] at h

/-- A move that charges for a time sets the clock to the end of it, or closes the
account. -/
theorem clock_of_span? {a b : State} {e : Event} {span : ℕ × ℕ}
    (h : Step rate (some a) e (some b)) (hspan : span? ⟨some a, e, some b⟩ = some span) :
    b.clock = span.2 := by
  cases h with
  | charge hle hbalance =>
      simp only [span?] at hspan
      split at hspan
      · exact congrArg Prod.snd (Option.some.inj hspan)
      · simp at hspan
  | rewind _ _ | skip _ => simp [span?] at hspan

/-- A move that does not set the clock back does not lower it. -/
theorem clock_le_of_step {a b : State} {e : Event} (h : Step rate (some a) e (some b))
    (hkept : rewound ⟨some a, e, some b⟩ = 0) : a.clock ≤ b.clock := by
  cases h with
  | charge hle hbalance => exact hle
  | rewind hle hbalance => exact Nat.le_of_sub_eq_zero hkept
  | skip hbalance => exact Nat.le_add_right _ _

/-- While the clock is never set back, it has not passed what is charged later. -/
theorem clock_le_of_mem_spans {a : State} (run : Run (Step rate) s moves t) (hs : s = some a)
    (hkept : ∀ m ∈ moves, rewound m = 0) {span : ℕ × ℕ}
    (hspan : span ∈ moves.filterMap span?) : a.clock ≤ span.1 := by
  induction run generalizing a with
  | nil => exact absurd hspan List.not_mem_nil
  | @cons s e u moves t h run ih =>
      subst hs
      obtain ⟨m, hm, hof⟩ := List.mem_filterMap.mp hspan
      rcases List.mem_cons.mp hm with rfl | htail
      · exact (fst_of_span? hof).1.ge
      · cases u with
        | none =>
            cases run with
            | nil => exact absurd htail List.not_mem_nil
            | cons h' => exact absurd h' not_step_none
        | some b =>
            have hlater := ih rfl (fun m hm => hkept m (List.mem_cons_of_mem _ hm))
              (List.mem_filterMap.mpr ⟨m, htail, hof⟩)
            exact (clock_le_of_step h (hkept _ List.mem_cons_self)).trans hlater

/-- **Once.**  While the clock is never set back, the moves of a run charge for
consecutive times. -/
theorem pairwise_spans (run : Run (Step rate) s moves t) (hkept : ∀ m ∈ moves, rewound m = 0) :
    (moves.filterMap span?).Pairwise fun x y => x.2 ≤ y.1 := by
  induction run with
  | nil => exact List.Pairwise.nil
  | @cons s e u moves t h run ih =>
      have hrest := fun m hm => hkept m (List.mem_cons_of_mem _ hm)
      cases hof : span? ⟨s, e, u⟩ with
      | none =>
          rw [List.filterMap_cons_none hof]
          exact ih hrest
      | some span =>
          rw [List.filterMap_cons_some hof]
          refine List.pairwise_cons.mpr ⟨fun later hlater => ?_, ih hrest⟩
          cases s with
          | none => exact absurd h not_step_none
          | some a =>
              cases u with
              | none =>
                  cases run with
                  | nil => exact absurd hlater List.not_mem_nil
                  | cons h' => exact absurd h' not_step_none
              | some b =>
                  rw [← clock_of_span? h hof]
                  exact clock_le_of_mem_spans run rfl hrest hlater

/-- A move and what is charged after it. -/
theorem latest_cons (m : Move (Option State) Event) (moves : List (Move (Option State) Event)) :
    latest moves ≤ latest (m :: moves) ∧
      ∀ span, span? m = some span → span.2 ≤ latest (m :: moves) := by
  unfold latest
  cases hof : span? m with
  | none =>
      rw [List.filterMap_cons_none hof]
      exact ⟨le_rfl, by simp⟩
  | some span =>
      rw [List.filterMap_cons_some hof, List.map_cons, List.foldr_cons]
      refine ⟨le_max_right _ _, ?_⟩
      rintro span' h
      obtain rfl := Option.some.inj h
      exact le_max_left _ _

/-- A move charges for no more than the time to the latest moment. -/
theorem charged_add_latest {a : State} {e : Event} :
    charged ⟨some a, e, t⟩ ≤ latest (⟨some a, e, t⟩ :: moves) - a.clock := by
  cases hof : span? ⟨some a, e, t⟩ with
  | none =>
      rw [charged, hof]
      exact Nat.zero_le _
  | some span =>
      rw [charged, hof, Option.elim_some, (fst_of_span? hof).1]
      exact Nat.sub_le_sub_right ((latest_cons _ _).2 span hof) _

/-- A move charges for the time its clock goes through, unless it sets it back. -/
theorem charged_add_clock {a b : State} {e : Event} (h : Step rate (some a) e (some b)) :
    charged ⟨some a, e, some b⟩ + a.clock ≤ b.clock + rewound ⟨some a, e, some b⟩ := by
  cases hof : span? ⟨some a, e, some b⟩ with
  | none =>
      rw [charged, hof, Option.elim_none, Nat.zero_add]
      cases h with
      | charge hle _ => exact hle.trans (Nat.le_add_right _ _)
      | rewind hle _ =>
          simp only [rewound]
          omega
      | skip _ => exact (Nat.le_add_right _ _).trans (Nat.le_add_right _ _)
  | some span =>
      obtain ⟨hfst, hlt⟩ := fst_of_span? hof
      rw [charged, hof, Option.elim_some, clock_of_span? h hof]
      omega

/-- **The fee law.**  A run takes no more than the fee from the clock to the latest moment
it charges for, and the fee for the time the clock was set back by. -/
theorem taken_le_latest {a : State} (run : Run (Step rate) s moves t) (hs : s = some a) :
    (moves.map (taken rate)).sum ≤
      rate * (latest moves - a.clock + (moves.map rewound).sum) := by
  induction run generalizing a with
  | nil => exact Nat.zero_le _
  | @cons s e u moves t h run ih =>
      subst hs
      have hmove := taken_le_charged h
      rw [List.map_cons, List.sum_cons, List.map_cons, List.sum_cons]
      cases u with
      | none =>
          -- nothing is taken after the end
          have hnil : moves = [] := by
            cases run with
            | nil => rfl
            | cons h' => exact absurd h' not_step_none
          rw [hnil, List.map_nil, List.sum_nil, add_zero]
          refine hmove.trans (Nat.mul_le_mul_left _ ?_)
          exact charged_add_latest.trans (Nat.le_add_right _ _)
      | some b =>
          have htail := (latest_cons ⟨some a, e, some b⟩ moves).1
          have hcharged : charged ⟨some a, e, some b⟩ ≤
              latest (⟨some a, e, some b⟩ :: moves) - a.clock := charged_add_latest
          have hclock := charged_add_clock h
          calc taken rate ⟨some a, e, some b⟩ + (moves.map (taken rate)).sum
              ≤ rate * charged ⟨some a, e, some b⟩ +
                  rate * (latest moves - b.clock + (moves.map rewound).sum) :=
                Nat.add_le_add hmove (ih rfl)
            _ = rate * (charged ⟨some a, e, some b⟩ +
                  (latest moves - b.clock + (moves.map rewound).sum)) :=
                (Nat.mul_add _ _ _).symm
            _ ≤ rate * (latest (⟨some a, e, some b⟩ :: moves) - a.clock +
                  (rewound ⟨some a, e, some b⟩ + (moves.map rewound).sum)) :=
                Nat.mul_le_mul_left _ (by omega)

end Laws

/-- Of consecutive times, at most one goes over a given moment. -/
theorem countP_covering_le_one {spans : List (ℕ × ℕ)}
    (h : spans.Pairwise fun x y => x.2 ≤ y.1) (n : ℕ) :
    (spans.countP fun span => span.1 < n ∧ n ≤ span.2) ≤ 1 := by
  induction spans with
  | nil => simp
  | cons span spans ih =>
      obtain ⟨hfirst, hrest⟩ := List.pairwise_cons.mp h
      by_cases hcovers : span.1 < n ∧ n ≤ span.2
      · -- the later ones start at or after the end of this one
        have hnone : (spans.countP fun span => span.1 < n ∧ n ≤ span.2) = 0 := by
          rw [List.countP_eq_zero]
          intro later hlater
          have := hfirst later hlater
          simp only [decide_eq_true_eq]
          omega
        rw [List.countP_cons, hnone]
        simp [hcovers]
      · rw [List.countP_cons]
        simpa [hcovers] using ih hrest

end Account

end TransitionSystem
