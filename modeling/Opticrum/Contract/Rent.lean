import Opticrum.Contract.Lifecycle

/-!
# The rent of a cell, as an outcome

`liquidityRent_eq_ok_iff` says when the script computes a rent.  Where the
headers it needs are there, it says everything: the script returns the rent when
it fits in 64 bits and panics when it does not.  `rentOutcome` is that outcome,
as a function of the rent.

`Inspects` collects what is needed to read the clock: the cell is first in its group, there is a
tip, and the header of the cell's own block is supplied.  `inspect` builds such an environment
for any cell and any tip, so that the two lemmas at the end are about every match and every
number of blocks.  They leave no case out: below 2⁶⁴ a value is returned, and from there on the
script panics.
-/

namespace Opticrum

open Rust Ckb

/-- The outcome of the product behind a rent of `n` shannons.  It is a function of the rent
alone: rate and time enter only through their product. -/
def rentOutcome (n : ℕ) : Result U64 :=
  if n < 2 ^ 64 then .ok (BitVec.ofNat 64 n) else .panicked

/-- The outcome of comparing a value with a rent of `n` shannons. -/
def exhaustionOutcome (value n : ℕ) : Result Bool :=
  if n < 2 ^ 64 then .ok (decide (value ≤ n)) else .panicked

/-- The script inspects `c` at `tip`, with the header of its block at hand.  This is what a
verifier finds that asks for the rent. -/
structure Inspects (env : Env) (c : LiveCell) (tip : ℕ) : Prop where
  group : ∃ rest, env.tx.groupInputs env.script = c :: rest
  isTip : tip? env.tx = some tip
  creation : env.tx.hasHeader c.header

/-- The script can be made to inspect any cell at any tip.  The transaction does nothing else,
and need not be one that is accepted. -/
def inspect (c : LiveCell) (tip : Header) : Env := ⟨⟨[c], [], [], [tip, c.header]⟩, c.lock⟩

theorem inspects_inspect (c : LiveCell) (tip : Header) :
    Inspects (inspect c tip) c tip.number.toNat where
  group := ⟨[], by simp [inspect, Transaction.groupInputs]⟩
  isTip := rfl
  creation := by simp [inspect, Transaction.hasHeader]

theorem rentOutcome_of_lt {n : ℕ} (h : n < 2 ^ 64) :
    rentOutcome n = .ok (BitVec.ofNat 64 n) := if_pos h

theorem rentOutcome_of_le {n : ℕ} (h : 2 ^ 64 ≤ n) : rentOutcome n = .panicked :=
  if_neg (Nat.not_lt.mpr h)

/-- Only a rent of zero has the outcome of a rent of zero. -/
theorem rentOutcome_eq_zero_iff {n : ℕ} : rentOutcome n = rentOutcome 0 ↔ n = 0 := by
  constructor
  · intro h
    by_cases hn : n < 2 ^ 64
    · rw [rentOutcome_of_lt hn, rentOutcome_of_lt (by decide), Except.ok.injEq,
        ← BitVec.toNat_inj, toNat_ofNat_of_lt hn] at h
      exact h
    · rw [rentOutcome_of_le (Nat.le_of_not_lt hn), rentOutcome_of_lt (by decide)] at h
      exact absurd h (Outcome.panicked_ne_ok _)
  · rintro rfl
    rfl

section Inspected

variable {env : Env} {c : LiveCell} {tip : ℕ} {st : OpticrumState} {a : MatchArgs}
  {d : MatchData}

/-- **Rent outcome.**  `liquidity_rent` of an inspected Match cell. -/
theorem Inspects.liquidityRent_eq (h : Inspects env c tip)
    (hst : st.branch = .matchCell a d) :
    st.liquidityRent env = rentOutcome (rentAt c d tip) := by
  obtain ⟨rest, hgroup⟩ := h.group
  by_cases hfits : rentAt c d tip < 2 ^ 64
  · rw [rentOutcome_of_lt hfits, liquidityRent_eq_ok_iff hgroup hst]
    refine ⟨tip, ⟨h.isTip, fun _ => h.creation, hfits⟩, ?_⟩
    rw [toNat_ofNat_of_lt hfits]
  · have hbase : rentBase c d < 2 ^ 64 := by
      unfold rentBase
      split
      · exact c.header.number.isLt
      · exact d.lastExtractionBlock.isLt
    have hbaseBlock : OpticrumState.baseBlock env d = .ok (BitVec.ofNat 64 (rentBase c d)) := by
      rw [baseBlock_eq_ok_iff hgroup, toNat_ofNat_of_lt hbase]
      exact ⟨fun _ => h.creation, rfl⟩
    obtain ⟨header, hheader, htip⟩ := Option.map_eq_some_iff.mp h.isTip
    have htipBlock : loadHeaderBlockNumber env 0 = .ok header.number := by
      rw [loadHeaderBlockNumber_eq_ok_iff, h.isTip, htip]
    rw [rentOutcome_of_le (Nat.le_of_not_lt hfits), OpticrumState.liquidityRent, hst]
    simp only [hbaseBlock, htipBlock, Outcome.mapErr_ok, Outcome.ok_bind]
    refine checkedMul_of_le ?_
    rw [toNat_saturatingSub, toNat_ofNat_of_lt hbase, htip]
    exact Nat.le_of_not_lt hfits

/-- **Exhaustion outcome.**  `is_exhausted` of an inspected Match cell. -/
theorem Inspects.isExhausted_eq (h : Inspects env c tip) (hst : StateOf c.toCell st)
    (hbranch : st.branch = .matchCell a d) :
    st.isExhausted env = exhaustionOutcome (valueOf c.toCell) (rentAt c d tip) := by
  obtain ⟨rest, hgroup⟩ := h.group
  unfold exhaustionOutcome
  split
  · next hfits =>
    rw [isExhausted_eq_ok_iff hgroup hst hbranch]
    exact ⟨tip, ⟨h.isTip, fun _ => h.creation, hfits⟩, rfl⟩
  · next hfits =>
    rw [OpticrumState.isExhausted, h.liquidityRent_eq hbranch,
      rentOutcome_of_le (Nat.le_of_not_lt hfits)]
    rfl

end Inspected

end Opticrum
