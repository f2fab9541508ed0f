import Opticrum.Calculator.Reader
import Opticrum.Contract.Construct
import Opticrum.Contract.Rent

/-!
# On-chain and off-chain rent agree

The contract reads a Match cell through system calls and header deps, the
calculator reads the same cell through the indexer.  Both arrive at the same
picture of it: `Agrees` compares the two field by field, the computed rent and
the exhaustion test included, panics and all.

The two programs are embedded separately, `parseMatchCell` from the calculator and `loadOldState`
from the contract, and meet in what is known of the cell.  That they may both refuse it is part
of the statement: they compute what the cell occupies in 64 bits.
-/

namespace Opticrum

open Rust Ckb

/-- The information `info` of the calculator and the state `st` the root verifier
builds in `env` are the same picture of a match at `tip`. -/
structure Agrees (env : Env) (tip : U64) (info : MatchInfo) (st : OpticrumState) : Prop where
  branch : st.branch = .matchCell info.matchArgs info.matchData
  capacity : st.unoccupiedCapacity = info.ckbCapacity
  xudt : st.xudt = info.xudt.map fun x => (x.amount, x.typeScript)
  rent : st.liquidityRent env = info.extractionAmount tip
  exhausted : st.isExhausted env = info.isExhausted tip

section Agreement

variable {env : Env} {c : LiveCell} {tip : U64}

/-- What the root verifier builds for an inspected cell, when it builds a state. -/
theorem Inspects.loadOldState_eq_ok_iff {n : ℕ} (h : Inspects env c n) {st : OpticrumState} :
    loadOldState env = .ok st ↔ StateOf c.toCell st := by
  obtain ⟨rest, hgroup⟩ := h.group
  exact Opticrum.loadOldState_eq_ok_iff hgroup

/-- One picture of the cell, seen from both sides. -/
theorem MatchInfoOf.agrees {info : MatchInfo} {st : OpticrumState} (hinfo : MatchInfoOf c info)
    (hst : StateOf c.toCell st) (h : Inspects env c tip.toNat) : Agrees env tip info st := by
  have hbranch : st.branch = .matchCell info.matchArgs info.matchData :=
    Except.ok.inj (hst.branch.symm.trans hinfo.decodes)
  refine ⟨hbranch, ?_, ?_, ?_, ?_⟩
  · exact BitVec.eq_of_toNat_eq (hst.unoccupied.trans hinfo.capacity.symm)
  · rw [hst.xudt, hinfo.xudtOf_eq]
  · rw [h.liquidityRent_eq hbranch]
    rcases lt_or_ge (rentAt c info.matchData tip.toNat) (2 ^ 64) with hlt | hle
    · rw [rentOutcome_of_lt hlt, hinfo.extractionAmount_of_lt hlt]
    · rw [rentOutcome_of_le hle, hinfo.extractionAmount_of_le hle]
  · rw [h.isExhausted_eq hst hbranch, exhaustionOutcome]
    split
    · next hlt => rw [hinfo.isExhausted_of_lt hlt]
    · next hnot => rw [hinfo.isExhausted_of_le (Nat.le_of_not_lt hnot)]

/-- **Agreement.** Take any live cell with 133 bytes of lock args and data that decode as Match
data, and any run of the script that inspects it at `tip`.  The calculator and the root verifier
both read the cell, with the same result, or both refuse it, because its occupied capacity
overflows.

The result is every field, the rent at the tip and the answer to whether it is exhausted, the
last two as outcomes: where the contract would abort, the calculator does. -/
theorem rent_agrees (hargs : c.lock.args.length = matchArgsLen) {d : MatchData}
    (hdata : MatchData.fromSlice c.data = .ok d) (h : Inspects env c tip.toNat) :
    (∃ info st, parseMatchCell c = .ok info ∧ loadOldState env = .ok st ∧
        Agrees env tip info st) ∨
      2 ^ 64 ≤ c.occupied ∧ (∀ info, parseMatchCell c ≠ .ok info) ∧
        ∀ st, loadOldState env ≠ .ok st := by
  obtain ⟨a, ha⟩ := MatchArgs.exists_fromSlice_eq_ok hargs
  have hdecodes : IsMatch c.toCell a d := isMatch_iff.mpr ⟨ha, hdata⟩
  rcases lt_or_ge c.occupied (2 ^ 64) with hlt | hle
  · obtain ⟨info, hinfo, -, -⟩ := exists_matchInfoOf hdecodes hlt
    have hst := stateOf_stateWith hdecodes hlt
    exact .inl ⟨info, _, parseMatchCell_eq_ok_iff.mpr hinfo, h.loadOldState_eq_ok_iff.mpr hst,
      hinfo.agrees hst h⟩
  · refine .inr ⟨hle, fun info hinfo => ?_, fun st hst => ?_⟩
    · exact absurd (parseMatchCell_eq_ok_iff.mp hinfo).fits (Nat.not_lt.mpr hle)
    · exact absurd (h.loadOldState_eq_ok_iff.mp hst).fits (Nat.not_lt.mpr hle)

end Agreement

/-! ## In the market -/

namespace Market

/-- A match with a pool of 100000 shannons that was last extracted in block 1010. -/
def extractedMatch : MatchCell := matchCell ⟨0, 3, 1010⟩ none 100000 0 1050

/-- Read at block 1100, both programs find a rent of 270 shannons. -/
theorem extractedMatch_agrees :
    ∃ info st, parseMatchCell extractedMatch.toLiveCell = .ok info ∧
      loadOldState (inspect extractedMatch.toLiveCell (headerAt 1100)) = .ok st ∧
      Agrees (inspect extractedMatch.toLiveCell (headerAt 1100)) 1100 info st := by
  have hoccupied : extractedMatch.occupied = oneCkb * 206 := matchCell_occupied
  have hargs : extractedMatch.lock.args.length = matchArgsLen := by
    rw [extractedMatch.decodes.args_eq, Vector.length_toList]
  have hdata := (isMatch_iff.mp extractedMatch.decodes).2
  rcases rent_agrees hargs hdata (inspects_inspect extractedMatch.toLiveCell (headerAt 1100))
    with h | ⟨h, -⟩
  · exact h
  · rw [hoccupied] at h
    exact absurd h (by decide)

end Market

end Opticrum
