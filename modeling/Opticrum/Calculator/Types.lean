import Opticrum.Protocol

/-!
# Off-chain cell information

What the calculator knows about a live Order or Match cell: the decoded args and
data, the tokens, the capacity it can pay rent from, and where the cell is.

`extractionAmount` and `isExhausted` recompute the rent of a match off the chain.
They return plain integers and cannot fail, but their product is built with
overflow checks and may panic, so they are `Outcome`s for every error type.
`value` and `accrued` are the two numbers behind them: while the rent fits in 64 bits
the test returns how they compare, and from there on it panics.

## Which rent

The block of the cell comes from the indexer and not from a header dep, so nothing has to be
supplied for the computation here, and it cannot fail for want of a header.  `startBlock` makes
the same choice as the contract does: the last extraction, or the block of the cell where there
was none.
-/

namespace Opticrum

open Rust Ckb

/-- The tokens of an Order or Match cell. -/
structure Xudt where
  amount : U128
  typeScript : Script
  deriving DecidableEq, Repr

/-- A live Order cell, as the reader parses it. -/
structure OrderInfo where
  orderArgs : OrderArgs
  orderData : OrderData
  xudt : Option Xudt
  ckbCapacity : U64
  orderOutpoint : OutPoint
  /-- Read from the creation transaction later; `none` when there is none. -/
  fiberAddress : Option String
  deriving DecidableEq, Repr

/-- A live Match cell, as the reader parses it. -/
structure MatchInfo where
  matchArgs : MatchArgs
  matchData : MatchData
  xudt : Option Xudt
  ckbCapacity : U64
  matchOutpoint : OutPoint
  /-- The block the indexer reports for the cell. -/
  matchCurrentBlock : U64
  deriving DecidableEq, Repr

namespace MatchInfo

variable {ε : Type}

/-- The block rent accrues from, as the calculator has it.  It is the one the contract has for
the same cell, as the indexer reports the block that committed it. -/
def startBlock (self : MatchInfo) : U64 :=
  if self.matchData.lastExtractionBlock = 0 then self.matchCurrentBlock
  else self.matchData.lastExtractionBlock

/-- Extractable rent since the last extraction, or since the match was created.  A tip before
the base gives no rent, and a product of more than 64 bits aborts. -/
def extractionAmount (self : MatchInfo) (tipBlock : U64) : Outcome ε U64 :=
  let elapsed := saturatingSub tipBlock self.startBlock
  checkedMul self.matchData.shannonsPerBlock elapsed

/-- Whether accumulated rent has consumed all remaining value.  The rent is compared with the
tokens where the match holds any, and with its capacity otherwise, never with both. -/
def isExhausted (self : MatchInfo) (tipBlock : U64) : Outcome ε Bool := do
  let accumulatedRent ← self.extractionAmount tipBlock
  match self.xudt with
  | some x => .ok (x.amount ≤ accumulatedRent.setWidth 128)
  | none => .ok (self.ckbCapacity ≤ accumulatedRent)

/-- The remaining value: the tokens when there are any, the capacity otherwise. -/
def value (self : MatchInfo) : ℕ :=
  match self.xudt with
  | some x => x.amount.toNat
  | none => self.ckbCapacity.toNat

/-- The rent at a tip, over the natural numbers.  `extractionAmount` returns it as long as it
fits in 64 bits. -/
def accrued (self : MatchInfo) (tip : ℕ) : ℕ :=
  self.matchData.shannonsPerBlock.toNat * (tip - self.startBlock.toNat)

section Rent

variable {info : MatchInfo} {tip : U64}

/-- The rent is computed when it fits in 64 bits. -/
theorem extractionAmount_eq_ok_iff {rent : U64} :
    (info.extractionAmount tip : Outcome ε U64) = .ok rent ↔
      info.accrued tip.toNat = rent.toNat := by
  rw [extractionAmount, checkedMul_eq_ok_iff, toNat_saturatingSub, accrued]

theorem extractionAmount_of_lt (hlt : info.accrued tip.toNat < 2 ^ 64) :
    (info.extractionAmount tip : Outcome ε U64) =
      .ok (BitVec.ofNat 64 (info.accrued tip.toNat)) := by
  rw [extractionAmount_eq_ok_iff, toNat_ofNat_of_lt hlt]

theorem extractionAmount_of_le (hle : 2 ^ 64 ≤ info.accrued tip.toNat) :
    (info.extractionAmount tip : Outcome ε U64) = .panicked := by
  refine checkedMul_of_le ?_
  rw [toNat_saturatingSub]
  exact hle

/-- Tokens are compared with the rent when there are any, capacity otherwise. -/
theorem isExhausted_of_lt (hlt : info.accrued tip.toNat < 2 ^ 64) :
    (info.isExhausted tip : Outcome ε Bool) =
      .ok (decide (info.value ≤ info.accrued tip.toNat)) := by
  rw [isExhausted, extractionAmount_of_lt hlt, Outcome.ok_bind, value]
  cases info.xudt with
  | none => simp only [BitVec.le_def, toNat_ofNat_of_lt hlt]
  | some x =>
      simp only [BitVec.le_def, toNat_setWidth_of_le (show 64 ≤ 128 by omega),
        toNat_ofNat_of_lt hlt]

theorem isExhausted_of_le (hle : 2 ^ 64 ≤ info.accrued tip.toNat) :
    (info.isExhausted tip : Outcome ε Bool) = .panicked := by
  rw [isExhausted, extractionAmount_of_le hle]
  rfl

/-- The exhaustion test returns exactly when the rent fits, and is then exact. -/
theorem isExhausted_eq_ok_iff {b : Bool} :
    (info.isExhausted tip : Outcome ε Bool) = .ok b ↔
      info.accrued tip.toNat < 2 ^ 64 ∧ b = decide (info.value ≤ info.accrued tip.toNat) := by
  rcases lt_or_ge (info.accrued tip.toNat) (2 ^ 64) with hlt | hle
  · rw [isExhausted_of_lt hlt, Except.ok.injEq]
    exact ⟨fun hb => ⟨hlt, hb.symm⟩, fun hb => hb.2.symm⟩
  · rw [isExhausted_of_le hle]
    exact ⟨fun hb => absurd hb (Outcome.panicked_ne_ok _),
      fun hb => absurd hb.1 (Nat.not_lt.mpr hle)⟩

end Rent

end MatchInfo

end Opticrum
