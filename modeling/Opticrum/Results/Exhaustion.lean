import Opticrum.Calculator.Reader
import Opticrum.Contract.Construct
import Opticrum.Contract.Rent

/-!
# Exhaustion at the limits

Both exhaustion tests compare a remaining value with a product of two 64-bit
words that is taken in 64 bits.  Over the natural numbers the comparison would
always make sense; in the code it does so as long as the product fits, and aborts
otherwise, although a rent of `2 ^ 64` or more exhausts every pool of capacity.

The match is given as a `MatchInfo` with arbitrary fields; `state` is the state the
contract holds for it.

## Exact

`ExhaustionExact` asks three things of a tip: that both tests return, that they return whether
the rent covers the value, and that they do so at every earlier tip as well.  The product is
monotone in the tip, `MatchInfo.accrued_mono`, so the last one costs nothing.

In the other direction a product that does not fit is enough: neither test returns anything, and
the seller of such a match can neither extract from it nor close it at that tip.
-/

namespace Opticrum

open Rust Ckb

/-- The state the contract holds for the same match. -/
def MatchInfo.state (self : MatchInfo) : OpticrumState where
  branch := .matchCell self.matchArgs self.matchData
  unoccupiedCapacity := self.ckbCapacity
  xudt := self.xudt.map fun x => (x.amount, x.typeScript)

/-- It is what the root verifier reads off the cell. -/
theorem MatchInfoOf.stateOf_state {c : LiveCell} {info : MatchInfo} (h : MatchInfoOf c info) :
    StateOf c.toCell info.state where
  branch := h.decodes
  fits := h.fits
  unoccupied := h.capacity
  xudt := h.xudtOf_eq.symm

/-! ## The two tests -/

section Tests

variable {info : MatchInfo} {tip : U64}

/-- Off the chain, the rent is the product while it fits. -/
theorem MatchInfo.extractionAmount_eq :
    (info.extractionAmount tip : Result U64) = rentOutcome (info.accrued tip.toNat) := by
  rcases lt_or_ge (info.accrued tip.toNat) (2 ^ 64) with hlt | hle
  · rw [rentOutcome_of_lt hlt, extractionAmount_of_lt hlt]
  · rw [rentOutcome_of_le hle, extractionAmount_of_le hle]

/-- On the chain likewise. -/
theorem MatchInfo.state_liquidityRent_eq {env : Env} {c : LiveCell}
    (h : Inspects env c tip.toNat) (hblock : c.header.number = info.matchCurrentBlock) :
    info.state.liquidityRent env = rentOutcome (info.accrued tip.toNat) := by
  have hbase : info.startBlock.toNat = rentBase c info.matchData := by
    unfold startBlock rentBase
    split
    · rw [← hblock, LiveCell.block]
    · rfl
  rw [h.liquidityRent_eq (d := info.matchData) rfl, accrued, hbase, rentAt]

theorem MatchInfo.isExhausted_eq :
    (info.isExhausted tip : Result Bool) =
      exhaustionOutcome info.value (info.accrued tip.toNat) := by
  unfold exhaustionOutcome
  split
  · next hlt => rw [isExhausted_of_lt hlt]
  · next hnot => rw [isExhausted_of_le (Nat.le_of_not_lt hnot)]

/-- The two tests compare the same value with the same rent. -/
theorem MatchInfo.state_isExhausted_eq {env : Env} {c : LiveCell}
    (h : Inspects env c tip.toNat) (hblock : c.header.number = info.matchCurrentBlock) :
    info.state.isExhausted env = exhaustionOutcome info.value (info.accrued tip.toNat) := by
  rw [← isExhausted_eq, OpticrumState.isExhausted, state_liquidityRent_eq h hblock,
    ← extractionAmount_eq, isExhausted, state]
  cases info.xudt <;> rfl

end Tests

/-! ## Exactness -/

/-- The test returns, and exactly so, while the rent fits. -/
theorem exhaustionOutcome_eq_ok_iff {value n : ℕ} {b : Bool} :
    exhaustionOutcome value n = .ok b ↔ n < 2 ^ 64 ∧ b = decide (value ≤ n) := by
  unfold exhaustionOutcome
  split
  · next hfits =>
    rw [Except.ok.injEq]
    exact ⟨fun hb => ⟨hfits, hb.symm⟩, fun hb => hb.2.symm⟩
  · next hlarge =>
    exact ⟨fun hb => absurd hb (Outcome.panicked_ne_ok _), fun hb => absurd hb.1 hlarge⟩

theorem MatchInfo.accrued_mono (info : MatchInfo) {tip tip' : ℕ} (h : tip' ≤ tip) :
    info.accrued tip' ≤ info.accrued tip :=
  Nat.mul_le_mul_left _ (Nat.sub_le_sub_right h _)

/-- At `tip`, both exhaustion tests of the match return whether the rent covers the remaining
value, and a match that was exhausted at an earlier tip is so still.  The value is the amount
where there are tokens, and the pool where there are none. -/
structure ExhaustionExact (info : MatchInfo) (tip : U64) : Prop where
  offChain : (info.isExhausted tip : Result Bool) =
    .ok (decide (info.value ≤ info.accrued tip.toNat))
  onChain : ∀ env c, Inspects env c tip.toNat → c.header.number = info.matchCurrentBlock →
    info.state.isExhausted env = .ok (decide (info.value ≤ info.accrued tip.toNat))
  offChain_mono : ∀ tip' ≤ tip, (info.isExhausted tip' : Result Bool) = .ok true →
    (info.isExhausted tip : Result Bool) = .ok true
  onChain_mono : ∀ tip' ≤ tip, ∀ env env' c, Inspects env c tip.toNat →
    Inspects env' c tip'.toNat → c.header.number = info.matchCurrentBlock →
    info.state.isExhausted env' = .ok true → info.state.isExhausted env = .ok true

/-- Time does not undo an exhaustion, while the rent fits. -/
theorem exhaustionOutcome_mono {value n n' : ℕ} (hle : n' ≤ n) (hfits : n < 2 ^ 64)
    (h : exhaustionOutcome value n' = .ok true) : exhaustionOutcome value n = .ok true := by
  obtain ⟨-, hvalue⟩ := exhaustionOutcome_eq_ok_iff.mp h
  refine exhaustionOutcome_eq_ok_iff.mpr ⟨hfits, ?_⟩
  have hvalue' : value ≤ n' := of_decide_eq_true hvalue.symm
  exact (decide_eq_true (hvalue'.trans hle)).symm

/-- **Exactness.** The exhaustion tests are exact exactly while the rent fits in 64 bits.

Both of them multiply first and compare afterwards.  From there on neither answers: the contract
and the calculator are built with overflow checks, and abort. -/
theorem exhaustionExact_iff (info : MatchInfo) (tip : U64) :
    ExhaustionExact info tip ↔ info.accrued tip.toNat < 2 ^ 64 := by
  constructor
  · intro h
    have hoff := h.offChain
    rw [MatchInfo.isExhausted_eq, exhaustionOutcome_eq_ok_iff] at hoff
    exact hoff.1
  · intro hfits
    refine ⟨?_, fun env c h hblock => ?_, fun tip' htip h => ?_,
      fun tip' htip env env' c h h' hblock hexhausted => ?_⟩
    · rw [MatchInfo.isExhausted_eq, exhaustionOutcome_eq_ok_iff]
      exact ⟨hfits, rfl⟩
    · rw [MatchInfo.state_isExhausted_eq h hblock, exhaustionOutcome_eq_ok_iff]
      exact ⟨hfits, rfl⟩
    · rw [MatchInfo.isExhausted_eq] at h ⊢
      exact exhaustionOutcome_mono (info.accrued_mono htip) hfits h
    · rw [MatchInfo.state_isExhausted_eq h' hblock] at hexhausted
      rw [MatchInfo.state_isExhausted_eq h hblock]
      exact exhaustionOutcome_mono (info.accrued_mono htip) hfits hexhausted

/-! ## In the market -/

namespace Market

/-- A match at the highest rate, last extracted in block 1. -/
def dearMatch : MatchCell := matchCell ⟨0, BitVec.allOnes 64, 1⟩ none 100000 0 1

/-- Two blocks later its rent no longer fits, and both tests abort. -/
theorem dearMatch_aborts :
    ∃ info, parseMatchCell dearMatch.toLiveCell = .ok info ∧
      (info.isExhausted 3 : Result Bool) = .panicked ∧
      info.state.isExhausted (inspect dearMatch.toLiveCell (headerAt 3)) = .panicked ∧
      ¬ ExhaustionExact info 3 := by
  obtain ⟨info, hinfo, -, hdata⟩ := exists_matchInfoOf dearMatch.decodes matchCell_fits
  have haccrued : info.accrued (3 : U64).toNat = (2 ^ 64 - 1) * 2 := by
    rw [hinfo.accrued_eq, hdata]
    rfl
  have hinspects : Inspects (inspect dearMatch.toLiveCell (headerAt 3)) dearMatch.toLiveCell
      (3 : U64).toNat := inspects_inspect dearMatch.toLiveCell (headerAt 3)
  refine ⟨info, parseMatchCell_eq_ok_iff.mpr hinfo, ?_, ?_, ?_⟩
  · rw [MatchInfo.isExhausted_eq, haccrued]
    rfl
  · rw [MatchInfo.state_isExhausted_eq hinspects hinfo.block.symm, haccrued]
    rfl
  · rw [exhaustionExact_iff, haccrued]
    decide

end Market

end Opticrum
