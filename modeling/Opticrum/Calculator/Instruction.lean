import Opticrum.Calculator.Operation
import Opticrum.Calculator.Types

/-!
# Instructions

The builders: each turns what the reader knows about a cell into the operations
of one transaction.  Further instructions may follow, to pay the fee and to sign.

`extractRent` and `updateMatchBuyer` compute with overflow checks before they
list anything, so they may panic; the others cannot.

## The reserve

`match_order` adds `orderToMatchCapacityReserve` to the capacity of the order it copies, since a
match occupies more bytes than an order.  `create_order` does not reserve it: the seller's cells
pay for the difference.

## Signed amounts

`capacity_delta` is a signed word.  `adjustBy` negates a negative one under overflow checks, so
the smallest amount of all aborts; `toInt_of_adjustBy` says that otherwise the capacity of the
copied cell changes by exactly the amount, as long as the result is a word.
-/

namespace Opticrum

open Rust Ckb

/-- A signed 64-bit integer, in two's complement. -/
abbrev I64 := BitVec 64

instance : Coe Address ScriptEx := ⟨fun address => .script address.script⟩

/-- The channel as a cell dep. -/
def fiberChannelCelldep (outpoint : OutPoint) : Operation :=
  .basic (.addCellDep "fiber_channel" outpoint.txHash outpoint.index .code true)

/-- The cell at an out point, as an input. -/
def inputAt (outpoint : OutPoint) : Operation :=
  .basic (.addInputCellByOutPoint outpoint.txHash outpoint.index none)

/-- 1.  The buyer offers rent for inbound liquidity.

The amount of tokens is stored only when there is a type script to hold them under; the data of
an order for capacity has none.  An order with tokens asks for no capacity beyond what it
occupies. -/
def createOrder (buyer : Address) (orderArgs : OrderArgs) (orderData : OrderData)
    (rentCapacity : U64) (xudtTypeScript : Option Script) (fiberAddress : Option String) :
    Instruction :=
  let args := orderArgs.toBytes.toList
  let storedOrderData : OrderData :=
    ⟨if xudtTypeScript.isSome then orderData.xudtAmount else 0, orderData.channelCapacity,
      orderData.shannonsPerBlock⟩
  let operations : Instruction :=
    [.addOpticrumContractCelldep, .basic (.addInputCellByAddress buyer)]
  let output : Instruction :=
    match xudtTypeScript with
    | some typeScript =>
        [.basic .addXudtCelldep,
          .basic (.addOutputCell (opticrumLockEx args) (some (.script typeScript))
            storedOrderData.toBytes.toList 0 false false)]
    | none =>
        [.basic (.addOutputCell (opticrumLockEx args) none storedOrderData.toBytes.toList
          rentCapacity false false)]
  let witness : Instruction :=
    match fiberAddress with
    | some fiberAddress => [.setOutputWitness 0 fiberAddress.toUTF8.toList]
    | none => []
  operations ++ output ++ witness

/-- 2.  The buyer reclaims an unmatched order.  Its tokens go to an output of the buyer, its
capacity to whatever balances the transaction. -/
def cancelOrder (buyer : Address) (orderInfo : OrderInfo) : Instruction :=
  let operations : Instruction :=
    [.addOpticrumContractCelldep, inputAt orderInfo.orderOutpoint,
      .basic (.addInputCellByAddress buyer)]
  match orderInfo.xudt with
  | some x =>
      operations ++
        [.basic .addXudtCelldep,
          .basic (.addOutputCell buyer (some (.script x.typeScript))
            (u128ToLeBytes x.amount).toList 0 false false)]
  | none => operations

/-- 3.  The seller matches an order with a channel that exists.

The order is the first input and is copied into the match, with the lock and the data of the
match and the reserve on top.  The two header deps are what the contract needs to compare the
blocks of order and channel. -/
def matchOrder (seller : Address) (orderInfo : OrderInfo) (matchArgs : MatchArgs) :
    Instruction :=
  let rentPerBlock := orderInfo.orderData.shannonsPerBlock
  let xudtAmount := (orderInfo.xudt.map Xudt.amount).getD 0
  let matchData := MatchData.new xudtAmount rentPerBlock
  [.addOpticrumContractCelldep,
    fiberChannelCelldep matchArgs.channelOutpoint,
    -- the block of the channel
    .basic (.addHeaderDepByCellDepIndex usizeMax),
    inputAt orderInfo.orderOutpoint,
    -- the block of the order
    .basic (.addHeaderDepByInputIndex usizeMax),
    .basic (.addInputCellByAddress seller),
    .basic (.addOutputCellByInputIndex 0 (some matchData.toBytes.toList)
      (some (opticrumLockEx matchArgs.toBytes.toList)) none
      (.add orderToMatchCapacityReserve))]

/-- 6.  The seller sweeps an exhausted match.  The output is the match under the seller's lock,
with the tokens it held and no other data. -/
def destroyMatch (seller : Address) (matchInfo : MatchInfo) (tipBlock : U64) : Instruction :=
  let operations : Instruction :=
    [.addOpticrumContractCelldep,
      .basic (.addHeaderDepByBlockNumber tipBlock),
      inputAt matchInfo.matchOutpoint,
      .basic (.addInputCellByAddress seller)]
  let creation : Instruction :=
    if matchInfo.matchData.lastExtractionBlock = 0 then
      [.basic (.addHeaderDepByBlockNumber matchInfo.matchCurrentBlock)]
    else []
  let output : Instruction :=
    match matchInfo.xudt with
    | some x =>
        [.basic .addXudtCelldep,
          .basic (.addOutputCellByInputIndex 0 (some (u128ToLeBytes x.amount).toList)
            (some seller) none .keep)]
    | none => [.basic (.addOutputCellByInputIndex 0 (some []) (some seller) none .keep)]
  operations ++ creation ++ output

section Checked

variable {ε : Type}

/-- 4.  The seller withdraws the rent, or sweeps the match when it is exhausted.

The match is the last input, behind the cells of the seller, and the one output is its successor
with the new clock.  Where the rent goes is left to the instructions behind. -/
def extractRent (seller : Address) (matchInfo : MatchInfo) (tipBlock : U64) :
    Outcome ε Instruction := do
  let exhausted ← matchInfo.isExhausted tipBlock
  if exhausted then
    .ok (destroyMatch seller matchInfo tipBlock)
  else do
    let operations : Instruction :=
      [.addOpticrumContractCelldep,
        fiberChannelCelldep matchInfo.matchArgs.channelOutpoint,
        .basic (.addHeaderDepByBlockNumber tipBlock),
        .basic (.addInputCellByAddress seller),
        inputAt matchInfo.matchOutpoint]
    let creation : Instruction :=
      if matchInfo.matchData.lastExtractionBlock = 0 then
        [.basic (.addHeaderDepByInputIndex usizeMax)]
      else []
    let rentExtraction ← matchInfo.extractionAmount tipBlock
    let newMatchData := { matchInfo.matchData with lastExtractionBlock := tipBlock }
    match matchInfo.xudt with
    | some x =>
        let newMatchData :=
          { newMatchData with xudtAmount := saturatingSub x.amount (rentExtraction.setWidth 128) }
        .ok (operations ++ creation ++
          [.basic (.addOutputCellByInputIndex usizeMax (some newMatchData.toBytes.toList) none none
            .keep)])
    | none =>
        let newMatchData := { newMatchData with xudtAmount := 0 }
        .ok (operations ++ creation ++
          [.basic (.addOutputCellByInputIndex usizeMax (some newMatchData.toBytes.toList) none none
            (.subtract rentExtraction))])

/-- The adjustment by a signed amount.  An amount of zero or more is taken as it is; a negative
one is negated under overflow checks. -/
def adjustBy (capacityDelta : I64) : Outcome ε CapacityAdjustment :=
  if 0 ≤ capacityDelta.toInt then .ok (.add capacityDelta)
  else do
    let withdrawn ← checkedNeg capacityDelta
    .ok (.subtract withdrawn)

/-- 5.  The buyer injects or withdraws funds.  Only the amount of tokens and the capacity
change; the clock is copied with the rest of the data. -/
def updateMatchBuyer (buyer : Address) (matchInfo : MatchInfo) (newXudtAmount : U128)
    (capacityDelta : I64) : Outcome ε Instruction := do
  let newMatchData := { matchInfo.matchData with xudtAmount := newXudtAmount }
  let adjust ← adjustBy capacityDelta
  .ok
    [.addOpticrumContractCelldep,
      inputAt matchInfo.matchOutpoint,
      .basic (.addInputCellByAddress buyer),
      .basic (.addOutputCellByInputIndex 0 (some newMatchData.toBytes.toList) none none adjust)]

/-- The adjustment is defined for every amount but the least, which has no
negative. -/
theorem exists_adjustBy {delta : I64} (h : delta ≠ BitVec.intMin 64) :
    ∃ adjust, (adjustBy delta : Outcome ε _) = .ok adjust := by
  unfold adjustBy
  split
  · exact ⟨_, rfl⟩
  · exact ⟨.subtract (-delta), by rw [checkedNeg, if_neg h]; rfl⟩

theorem ne_intMin_of_adjustBy {delta : I64} {adjust : CapacityAdjustment}
    (h : (adjustBy delta : Outcome ε _) = .ok adjust) : delta ≠ BitVec.intMin 64 := by
  rintro rfl
  rw [adjustBy, if_neg (by decide)] at h
  obtain ⟨withdrawn, hwithdrawn, -⟩ := Outcome.bind_eq_ok_iff.mp h
  exact (checkedNeg_eq_ok_iff.mp hwithdrawn).1 rfl

/-- Adjusting by a signed amount adds it. -/
theorem toInt_of_adjustBy {delta : I64} {adjust : CapacityAdjustment} {old new : U64}
    (hadjust : (adjustBy delta : Outcome ε _) = .ok adjust) (hnew : adjust.Adjusts old new)
    (hlow : 0 ≤ (old.toNat : ℤ) + delta.toInt) (hhigh : (old.toNat : ℤ) + delta.toInt < 2 ^ 64) :
    (new.toNat : ℤ) = old.toNat + delta.toInt := by
  have hsign := BitVec.toInt_eq_toNat_cond delta
  unfold adjustBy at hadjust
  split at hadjust
  · next hnonneg =>
    obtain rfl := Except.ok.inj hadjust
    have hdelta : (delta.toNat : ℤ) = delta.toInt := by
      split at hsign <;> omega
    have hsum := hnew (by omega)
    omega
  · next hneg =>
    obtain ⟨withdrawn, hwithdrawn, hadjust⟩ := Outcome.bind_eq_ok_iff.mp hadjust
    obtain rfl := Except.ok.inj hadjust
    have hdelta : (withdrawn.toNat : ℤ) = -delta.toInt := by
      rw [checkedNeg_eq_ok_iff.mp hwithdrawn |>.2, BitVec.toNat_neg]
      split at hsign <;> omega
    have hdiff := hnew (by omega)
    omega

end Checked

/-! ## Builders return no errors

A builder panics or returns; what it returns does not depend on the type of errors it is
used at. -/

section Errors

variable {ε δ : Type} {info : MatchInfo} {instruction : Instruction}

theorem adjustBy_of_ok {delta : I64} {adjust : CapacityAdjustment}
    (h : (adjustBy delta : Outcome ε _) = .ok adjust) :
    (adjustBy delta : Outcome δ _) = .ok adjust := by
  unfold adjustBy at h ⊢
  split at h
  · next hnonneg =>
    rw [if_pos hnonneg, ← Except.ok.inj h]
  · next hneg =>
    obtain ⟨withdrawn, hwithdrawn, h⟩ := Outcome.bind_eq_ok_iff.mp h
    rw [if_neg hneg, checkedNeg_eq_ok_iff.mpr (checkedNeg_eq_ok_iff.mp hwithdrawn),
      Outcome.ok_bind, ← Except.ok.inj h]

theorem updateMatchBuyer_of_ok {buyer : Address} {newXudtAmount : U128} {delta : I64}
    (h : (updateMatchBuyer buyer info newXudtAmount delta : Outcome ε _) = .ok instruction) :
    (updateMatchBuyer buyer info newXudtAmount delta : Outcome δ _) = .ok instruction := by
  obtain ⟨adjust, hadjust, h⟩ := Outcome.bind_eq_ok_iff.mp h
  rw [updateMatchBuyer, adjustBy_of_ok hadjust, Outcome.ok_bind, ← Except.ok.inj h]

theorem extractRent_of_ok {seller : Address} {tip : U64}
    (h : (extractRent seller info tip : Outcome ε _) = .ok instruction) :
    (extractRent seller info tip : Outcome δ _) = .ok instruction := by
  obtain ⟨exhausted, hexhausted, h⟩ := Outcome.bind_eq_ok_iff.mp h
  rw [extractRent, MatchInfo.isExhausted_eq_ok_iff.mpr
    (MatchInfo.isExhausted_eq_ok_iff.mp hexhausted), Outcome.ok_bind]
  split at h
  · next htrue =>
    rw [if_pos htrue, ← Except.ok.inj h]
  · next hfalse =>
    obtain ⟨rent, hrent, h⟩ := Outcome.bind_eq_ok_iff.mp h
    rw [if_neg hfalse, MatchInfo.extractionAmount_eq_ok_iff.mpr
      (MatchInfo.extractionAmount_eq_ok_iff.mp hrent), Outcome.ok_bind]
    cases hxudt : info.xudt with
    | none =>
        rw [hxudt] at h
        rw [← Except.ok.inj h]
    | some x =>
        rw [hxudt] at h
        rw [← Except.ok.inj h]

end Errors

end Opticrum
