import Opticrum.Calculator.Instruction
import Opticrum.Foundation.Plan

/-!
# A match for capacity, as its parties see it

What counts for the parties of a match that holds no tokens is its rate, its pool and
the block the rent accrues from.  `Tenancy` has these and no cells, headers or
encodings; `Tenancy.step` says what an extraction and an update do to them, and when
they are possible.

`stored` tells the two ways the base is known apart: an extraction writes its tip into
the cell, and until one has, the base is the block that committed the cell, so that an
update moves it.  `settled` is the law of the stored case: whatever the order of
extractions and updates, only the last tip and the sum of the updates count.
`exists_drained` is what happens when the tips do go back: two early blocks, shown in
turn, take the whole pool.

## Inversion

`Tenancy.step` refuses an act in three cases: an extraction of an exhausted match whose rent is
not a word, an update that `Allows` rules out, and any act on a match that is closed.
`step_cases` says what the others lead to, and every law about plans is an induction that cites
it.

An extraction whose rent covers the pool closes the match; until then it lowers the pool by the
rent and moves the base to its tip.
-/

namespace Opticrum

open Rust Ckb

/-- What a party asks a builder for, and the block that commits the outcome.  The seller asks
for an extraction at a tip, the buyer for an update by so many shannons. -/
inductive Act where
  | extract (tip block : U64)
  | update (delta : I64) (block : U64)
  deriving DecidableEq, Repr

namespace Act

/-- What the buyer pays in. -/
def paid : Act → ℤ
  | .extract _ _ => 0
  | .update delta _ => delta.toInt

/-- The tip of an extraction. -/
def tip? : Act → Option ℕ
  | .extract tip _ => some tip.toNat
  | .update _ _ => none

end Act

structure Tenancy where
  rate : ℕ
  pool : ℕ
  base : ℕ
  stored : Bool
  deriving DecidableEq, Repr

/-- What the cell of such a match occupies: lock with the args of a match, data.  The pool of a
match and this add up to its capacity. -/
def tenancyOccupied : ℕ := oneCkb * 206

namespace Tenancy

/-- The rent at a tip.  Before the base there is none. -/
def rent (t : Tenancy) (tip : U64) : ℕ := t.rate * (tip.toNat - t.base)

/-- The seller has taken the rent.  A tip of `0` reads as none. -/
def extracted (t : Tenancy) (tip block : U64) : Tenancy where
  rate := t.rate
  pool := t.pool - t.rent tip
  base := if tip = 0 then block.toNat else tip.toNat
  stored := tip ≠ 0

/-- The buyer has changed the pool. -/
def updated (t : Tenancy) (delta : I64) (block : U64) : Tenancy where
  rate := t.rate
  pool := (t.pool + delta.toInt).toNat
  base := if t.stored then t.base else block.toNat
  stored := t.stored

/-- An amount that has a negative, leaves the pool, and fits in the capacity.  These are the
amounts for which the builder of an update lists something that is accepted. -/
def Allows (t : Tenancy) (delta : I64) : Prop :=
  delta ≠ BitVec.intMin 64 ∧ 0 ≤ t.pool + delta.toInt ∧
    tenancyOccupied + t.pool + delta.toInt < 2 ^ 64

instance (t : Tenancy) (delta : I64) : Decidable (t.Allows delta) :=
  inferInstanceAs (Decidable (_ ∧ _ ∧ _))

/-- One act on a match, `none` when it is closed: an extraction closes a match that is
exhausted. -/
def step : Option Tenancy → Act → Option (Option Tenancy)
  | none, _ => none
  | some t, .extract tip block =>
      if t.rent tip < t.pool then some (some (t.extracted tip block))
      else if t.rent tip < 2 ^ 64 then some none
      else none
  | some t, .update delta block =>
      if t.Allows delta then some (some (t.updated delta block)) else none

variable {t t' : Tenancy} {act : Act} {plan : List Act}

/-- What a step does, by cases. -/
theorem step_cases {s : Option Tenancy} (h : step (some t) act = some s) :
    (∃ tip block, act = .extract tip block ∧ t.rent tip < t.pool ∧
      s = some (t.extracted tip block)) ∨
    (∃ tip block, act = .extract tip block ∧ t.pool ≤ t.rent tip ∧ t.rent tip < 2 ^ 64 ∧
      s = none) ∨
    (∃ delta block, act = .update delta block ∧ t.Allows delta ∧
      s = some (t.updated delta block)) := by
  cases act with
  | extract tip block =>
      simp only [step] at h
      split at h
      · next halive => exact .inl ⟨tip, block, rfl, halive, (Option.some.inj h).symm⟩
      · next hexhausted =>
        split at h
        · next hfits =>
          exact .inr (.inl ⟨tip, block, rfl, Nat.le_of_not_lt hexhausted, hfits,
            (Option.some.inj h).symm⟩)
        · cases h
  | update delta block =>
      simp only [step] at h
      split at h
      · next hallows => exact .inr (.inr ⟨delta, block, rfl, hallows, (Option.some.inj h).symm⟩)
      · cases h

theorem step_none : step none act = none := rfl

/-- Nothing follows the end. -/
theorem plan_of_closed {s : Option Tenancy} (h : plan.foldlM step none = some s) :
    plan = [] ∧ s = none := by
  cases plan with
  | nil => exact ⟨rfl, (Option.some.inj h).symm⟩
  | cons act plan =>
      rw [List.foldlM_cons, step_none] at h
      cases h

/-- The tips of a plan. -/
def tips (plan : List Act) : List ℕ := plan.filterMap Act.tip?

/-- What a plan pays in. -/
def paid (plan : List Act) : ℤ := (plan.map Act.paid).sum

@[simp] theorem tips_extract {tip block : U64} :
    tips (.extract tip block :: plan) = tip.toNat :: tips plan := List.filterMap_cons_some rfl

@[simp] theorem tips_update {delta : I64} {block : U64} :
    tips (.update delta block :: plan) = tips plan := List.filterMap_cons_none rfl

@[simp] theorem paid_cons : paid (act :: plan) = act.paid + paid plan := List.sum_cons

/-- `t` is settled into `t'` by a plan: the base is its last tip, and the pool has what was paid
in, less the rent up to there.  How the steps of the two parties alternate does not enter into
it. -/
structure Settles (t : Tenancy) (plan : List Act) (t' : Tenancy) : Prop where
  rate : t'.rate = t.rate
  stored : t'.stored = true
  base : t'.base = (tips plan).getLastD t.base
  later : t.base ≤ t'.base
  pool : (t'.pool : ℤ) + (t.rate * (t'.base - t.base) : ℕ) = t.pool + paid plan

theorem Settles.nil (hstored : t.stored = true) : Settles t [] t :=
  ⟨rfl, hstored, rfl, le_rfl, by simp [paid]⟩

/-- An extraction first: the rent up to its tip, and from there on. -/
theorem Settles.extract {tip block : U64} (h : Settles (t.extracted tip block) plan t')
    (hbase : (t.extracted tip block).base = tip.toNat) (htip : t.base ≤ tip.toNat)
    (halive : t.rent tip < t.pool) : Settles t (.extract tip block :: plan) t' where
  rate := h.rate
  stored := h.stored
  base := by
    rw [h.base, hbase, tips_extract, List.getLastD_cons]
  later := htip.trans (hbase ▸ h.later)
  pool := by
    have hpool := h.pool
    have hlater := h.later
    have hpaid : paid (.extract tip block :: plan) = paid plan := by simp [Act.paid]
    have hrent : t.rate * (t'.base - t.base) =
        t.rent tip + t.rate * (t'.base - tip.toNat) := by
      rw [rent, ← Nat.mul_add]
      congr 1
      omega
    rw [hbase, show (t.extracted tip block).rate = t.rate from rfl,
      show (t.extracted tip block).pool = t.pool - t.rent tip from rfl] at hpool
    rw [hpaid, hrent]
    omega

/-- An update first: the base stays. -/
theorem Settles.update {delta : I64} {block : U64} (h : Settles (t.updated delta block) plan t')
    (hbase : (t.updated delta block).base = t.base) (hlow : 0 ≤ t.pool + delta.toInt) :
    Settles t (.update delta block :: plan) t' where
  rate := h.rate
  stored := h.stored
  base := by
    rw [h.base, hbase, tips_update]
  later := hbase ▸ h.later
  pool := by
    have hpool := h.pool
    have hleft : ((t.updated delta block).pool : ℤ) = t.pool + delta.toInt :=
      Int.toNat_of_nonneg hlow
    rw [hbase, hleft, show (t.updated delta block).rate = t.rate from rfl] at hpool
    rw [paid_cons, Act.paid]
    omega

/-- **Settlement.**  On a match whose base is stored, a plan whose tips never go back
settles it.  The induction is on the plan, the base moving along. -/
theorem settles_of_plan (hplan : plan.foldlM step (some t) = some (some t'))
    (hstored : t.stored = true) (hpos : 0 < t.base)
    (hsorted : (t.base :: tips plan).Pairwise (· ≤ ·)) : Settles t plan t' := by
  induction plan generalizing t with
  | nil =>
      obtain rfl : t = t' := Option.some.inj (Option.some.inj hplan)
      exact .nil hstored
  | cons act plan ih =>
      rw [List.foldlM_cons] at hplan
      obtain ⟨s, hfirst, hrest⟩ := Option.bind_eq_some_iff.mp hplan
      rcases step_cases hfirst with ⟨tip, block, rfl, halive, rfl⟩ | ⟨_, _, _, _, _, rfl⟩ |
        ⟨delta, block, rfl, hallows, rfl⟩
      · obtain ⟨hfrom, htips⟩ := List.pairwise_cons.mp hsorted
        have htip : t.base ≤ tip.toNat := hfrom _ List.mem_cons_self
        have hne : tip ≠ 0 := by
          rintro rfl
          exact absurd htip (Nat.not_le_of_lt hpos)
        have hbase : (t.extracted tip block).base = tip.toNat := if_neg hne
        refine .extract (ih hrest (decide_eq_true hne) ?_ ?_) hbase htip halive
        · rw [hbase]
          exact hpos.trans_le htip
        · rw [hbase]
          exact htips
      · exact absurd (plan_of_closed hrest).2 (Option.some_ne_none _)
      · have hbase : (t.updated delta block).base = t.base := if_pos hstored
        refine .update (ih hrest hstored ?_ ?_) hbase hallows.2.1
        · rwa [hbase]
        · rw [hbase]
          exact hsorted

/-- Two settlements by plans that pay in as much and end at the same tip agree. -/
theorem Settles.unique {plan' : List Act} {t'' : Tenancy} (h : Settles t plan t')
    (h' : Settles t plan' t'') (hpaid : paid plan = paid plan')
    (hlast : (tips plan).getLast? = (tips plan').getLast?) : t' = t'' := by
  have hbase : t'.base = t''.base := by
    rw [h.base, h'.base, List.getLastD_eq_getLast?, List.getLastD_eq_getLast?, hlast]
  have hpool := h.pool
  have hpool' := h'.pool
  rw [hbase] at hpool
  have hpoolEq : t'.pool = t''.pool := by omega
  have hrate := h.rate.trans h'.rate.symm
  have hstored := h.stored.trans h'.stored.symm
  cases t'
  cases t''
  simp_all

/-! ### Draining -/

section Draining

variable {tip : U64} {tips : List U64}

/-- Extractions at these tips close the match, whatever blocks commit them.  The blocks do not
matter since an extraction stores its tip. -/
def Drained (t : Tenancy) (tips : List U64) : Prop :=
  ∀ blocks : List U64, blocks.length = tips.length →
    (List.zipWith Act.extract tips blocks).foldlM step (some t) = some none

/-- The last extraction. -/
theorem drained_singleton (hexhausted : t.pool ≤ t.rent tip) (hfits : t.rent tip < 2 ^ 64) :
    Drained t [tip] := by
  intro blocks hlength
  obtain ⟨block, rfl⟩ := List.length_eq_one_iff.mp hlength
  have hstep : step (some t) (.extract tip block) = some none := by
    rw [step, if_neg (Nat.not_lt_of_le hexhausted), if_pos hfits]
  rw [List.zipWith_cons_cons, List.foldlM_cons, hstep]
  rfl

/-- A nonzero tip becomes the base, whatever block commits the extraction. -/
theorem Drained.cons (h : Drained ⟨t.rate, t.pool - t.rent tip, tip.toNat, true⟩ tips)
    (htip : tip ≠ 0) (halive : t.rent tip < t.pool) : Drained t (tip :: tips) := by
  intro blocks hlength
  cases blocks with
  | nil => cases hlength
  | cons block blocks =>
      have hstep : step (some t) (.extract tip block) =
          some (some ⟨t.rate, t.pool - t.rent tip, tip.toNat, true⟩) := by
        rw [step, if_pos halive, extracted, if_neg htip, decide_eq_true htip]
      rw [List.zipWith_cons_cons, List.foldlM_cons, hstep]
      exact h blocks (Nat.succ.inj hlength)

/-- From a base of block 1, showing block 2 takes the rent of a block, and showing block 1
again costs nothing. -/
theorem exists_drained_of_one {rate : ℕ} (hpos : 0 < rate) (hrate : rate < 2 ^ 64) (pool : ℕ) :
    ∃ tips : List U64, (∀ tip ∈ tips, tip = 1 ∨ tip = 2) ∧ Drained ⟨rate, pool, 1, true⟩ tips := by
  induction pool using Nat.strong_induction_on with
  | h pool ih =>
      have htwo : rent ⟨rate, pool, 1, true⟩ 2 = rate := Nat.mul_one rate
      by_cases hle : pool ≤ rate
      · refine ⟨[2], by simp, drained_singleton ?_ ?_⟩ <;> rw [htwo] <;> assumption
      · have hlt : rate < pool := Nat.lt_of_not_le hle
        obtain ⟨tips, htips, hdrained⟩ := ih (pool - rate) (by omega)
        have hback : rent ⟨rate, pool - rate, 2, true⟩ 1 = 0 := Nat.mul_zero rate
        refine ⟨2 :: 1 :: tips, by simpa using htips, .cons ?_ (by decide) (by rwa [htwo])⟩
        rw [htwo]
        refine .cons ?_ (by decide) ?_
        · rw [show (2 : U64).toNat = 2 from rfl, hback]
          exact hdrained
        · rw [show (2 : U64).toNat = 2 from rfl, hback]
          exact Nat.sub_pos_of_lt hlt

/-- **Draining.**  A match of any pool and base is closed by extractions at the blocks 1
and 2 in turn. -/
theorem exists_drained (hpos : 0 < t.rate) (hrate : t.rate < 2 ^ 64) :
    ∃ tips : List U64, (∀ tip ∈ tips, tip = 1 ∨ tip = 2) ∧ Drained t tips := by
  have hone : t.rent 1 ≤ t.rate := by
    calc t.rent 1 ≤ t.rate * 1 := Nat.mul_le_mul_left _ (Nat.sub_le _ _)
      _ = t.rate := Nat.mul_one _
  by_cases halive : t.rent 1 < t.pool
  · obtain ⟨tips, htips, hdrained⟩ := exists_drained_of_one hpos hrate (t.pool - t.rent 1)
    exact ⟨1 :: tips, by simpa using htips, hdrained.cons (by decide) halive⟩
  · exact ⟨[1], by simp, drained_singleton (Nat.le_of_not_lt halive) (hone.trans_lt hrate)⟩

end Draining

end Tenancy

end Opticrum
