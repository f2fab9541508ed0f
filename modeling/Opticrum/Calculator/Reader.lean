import Opticrum.Calculator.Types
import Opticrum.Contract.Acceptance

/-!
# Reading cells off the chain

The parsers that turn a live cell into an `OrderInfo` or a `MatchInfo`.  The
indexer reports the block that committed a cell as its block number.

## What they return

`parseMatchCell_eq_ok_iff` says in one equivalence which cells parse and to what:
the decoders of the contract must accept, and the occupied capacity must fit in
64 bits.

`MatchInfoOf` and `OrderInfoOf` bundle what is known when a cell has been parsed, field by field,
and are what results about builders assume of the info they are given.  `exists_matchInfoOf`
gives one for every cell that decodes and whose price is a word.

## Agreement with the contract

The parsers call the decoders of `Opticrum.Protocol`, the same that the contract calls.  Tokens
are read from the cell's own data and type script, the rent capacity is what is unoccupied, and
the block is the cell's own; `MatchInfoOf.accrued_eq` and `MatchInfoOf.value_eq` put these
together, so that the rent and the value computed off the chain are those of the cell.
-/

namespace Opticrum

open Rust Ckb

/-- Capacity beyond the occupied one, saturating at zero; CKB's capacity
arithmetic fails on overflow. -/
def realRentCapacity (output : Cell) : Outcome String U64 :=
  if output.occupied < 2 ^ 64 then
    .ok (saturatingSub output.capacity (BitVec.ofNat 64 output.occupied))
  else .err "OccupiedCapacity: overflow"

/-- Fields common to every Opticrum cell. -/
structure ParsedCellMeta where
  lockArgs : Bytes
  rawData : Bytes
  outpoint : OutPoint
  blockNumber : U64
  output : Cell

/-- What both parsers begin with: the cell taken apart, and its out point in the protocol's
form. -/
def parseCellPrologue (cell : LiveCell) : Outcome String ParsedCellMeta := do
  let outpoint ← (OutPoint.fromSlice cell.outPoint.asSlice).mapErr ("Bad outpoint: " ++ ·)
  .ok ⟨cell.lock.args, cell.data, outpoint, cell.header.number, cell.toCell⟩

/-- Parse a live cell under the Opticrum lock into an `OrderInfo`.  The fiber address is not in
the cell, and is filled in by the scan. -/
def parseOrderCell (cell : LiveCell) : Outcome String OrderInfo := do
  let base ← parseCellPrologue cell
  let orderArgs ← (OrderArgs.fromSlice base.lockArgs).mapErr ("Bad Order args: " ++ ·)
  let orderData ← (OrderData.fromSlice base.rawData).mapErr ("Bad Order data: " ++ ·)
  let ckbCapacity ← realRentCapacity base.output
  let xudt := base.output.type_.map fun typeScript => ⟨orderData.xudtAmount, typeScript⟩
  .ok ⟨orderArgs, orderData, xudt, ckbCapacity, base.outpoint, none⟩

/-- Parse a live cell under the Opticrum lock into a `MatchInfo`.  It accepts what the contract
accepts as a match, data with bytes left over included. -/
def parseMatchCell (cell : LiveCell) : Outcome String MatchInfo := do
  let base ← parseCellPrologue cell
  let matchArgs ← (MatchArgs.fromSlice base.lockArgs).mapErr ("Bad Match args: " ++ ·)
  let matchData ← (MatchData.fromSlice base.rawData).mapErr ("Bad Match data: " ++ ·)
  let ckbCapacity ← realRentCapacity base.output
  let xudt := base.output.type_.map fun typeScript => ⟨matchData.xudtAmount, typeScript⟩
  .ok ⟨matchArgs, matchData, xudt, ckbCapacity, base.outpoint, base.blockNumber⟩

/-! ## What they return -/

section Parsed

variable {c : LiveCell}

/-- The protocol's form of a packed out point. -/
def OutPoint.unpacked (p : Ckb.OutPoint) : OutPoint := ⟨p.txHash, p.index⟩

@[simp] theorem OutPoint.packed_unpacked (p : Ckb.OutPoint) :
    (OutPoint.unpacked p).packed = p := rfl

/-- The two spellings of an out point have the same bytes. -/
theorem OutPoint.asSlice_eq (p : Ckb.OutPoint) :
    p.asSlice = (OutPoint.unpacked p).toBytes.toList := by
  rw [Ckb.OutPoint.asSlice, OutPoint.toBytes, Vector.toList_append]
  rfl

/-- The prologue never fails: a packed out point has 36 bytes. -/
theorem parseCellPrologue_eq (cell : LiveCell) :
    parseCellPrologue cell = .ok ⟨cell.lock.args, cell.data, OutPoint.unpacked cell.outPoint,
      cell.header.number, cell.toCell⟩ := by
  have hpoint : OutPoint.fromSlice cell.outPoint.asSlice = .ok (OutPoint.unpacked cell.outPoint) :=
    OutPoint.fromSlice_eq_ok_iff.mpr (OutPoint.asSlice_eq _)
  rw [parseCellPrologue, hpoint, Outcome.mapErr_ok, Outcome.ok_bind]

/-- The reader's rent capacity is the unoccupied capacity, for a cell whose occupied capacity
fits.  It is the number the script compares. -/
theorem realRentCapacity_eq_ok_iff {o : Cell} {v : U64} :
    realRentCapacity o = .ok v ↔ o.occupied < 2 ^ 64 ∧ v.toNat = o.unoccupied := by
  unfold realRentCapacity
  split
  · next hfits =>
    have hsub : (saturatingSub o.capacity (BitVec.ofNat 64 o.occupied)).toNat = o.unoccupied := by
      rw [toNat_saturatingSub, toNat_ofNat_of_lt hfits, Cell.unoccupied]
    rw [Except.ok.injEq, ← BitVec.toNat_inj, hsub]
    exact ⟨fun hv => ⟨hfits, hv.symm⟩, fun hv => hv.2.symm⟩
  · next hfits =>
    exact ⟨fun hv => absurd hv (Outcome.err_ne_ok _ _), fun hv => absurd hv.1 hfits⟩

/-- `info` is the information about the Match cell `c`: its args and data as the contract
decodes them, its tokens, its unoccupied capacity, where it is and which block it is from.  That
the occupied capacity fits is part of it, as the reader has computed it. -/
structure MatchInfoOf (c : LiveCell) (info : MatchInfo) : Prop where
  decodes : IsMatch c.toCell info.matchArgs info.matchData
  fits : c.occupied < 2 ^ 64
  capacity : info.ckbCapacity.toNat = c.unoccupied
  xudt : info.xudt =
    c.type_.map fun typeScript => ⟨info.matchData.xudtAmount, typeScript⟩
  outpoint : info.matchOutpoint = OutPoint.unpacked c.outPoint
  block : info.matchCurrentBlock = c.header.number

/-- `info` is the information about the Order cell `c`, up to the address that is
fetched from another transaction. -/
structure OrderInfoOf (c : LiveCell) (info : OrderInfo) : Prop where
  decodes : IsOrder c.toCell info.orderArgs info.orderData
  fits : c.occupied < 2 ^ 64
  capacity : info.ckbCapacity.toNat = c.unoccupied
  xudt : info.xudt =
    c.type_.map fun typeScript => ⟨info.orderData.xudtAmount, typeScript⟩
  outpoint : info.orderOutpoint = OutPoint.unpacked c.outPoint

/-- The decoders of the two programs accept the same Match cells. -/
theorem isMatch_iff {o : Cell} {a : MatchArgs} {d : MatchData} :
    IsMatch o a d ↔
      MatchArgs.fromSlice o.lock.args = .ok a ∧ MatchData.fromSlice o.data = .ok d := by
  rw [IsMatch, branchOf, parse_eq_matchCell_iff, MatchArgs.fromSlice_eq_ok_iff,
    MatchData.fromSlice_eq_ok_iff]

/-- A cell is an order when both decoders accept it; the reader uses the decoders of the
contract. -/
theorem isOrder_iff {o : Cell} {a : OrderArgs} {d : OrderData} :
    IsOrder o a d ↔
      OrderArgs.fromSlice o.lock.args = .ok a ∧ OrderData.fromSlice o.data = .ok d := by
  rw [IsOrder, branchOf, parse_eq_orderCell_iff, OrderArgs.fromSlice_eq_ok_iff,
    OrderData.fromSlice_eq_ok_iff]

/-- **The reader of matches.** It returns exactly the information that agrees with the cell. -/
theorem parseMatchCell_eq_ok_iff {info : MatchInfo} :
    parseMatchCell c = .ok info ↔ MatchInfoOf c info := by
  rw [parseMatchCell, parseCellPrologue_eq, Outcome.ok_bind]
  constructor
  · intro h
    obtain ⟨a, ha, h⟩ := Outcome.bind_eq_ok_iff.mp h
    obtain ⟨d, hd, h⟩ := Outcome.bind_eq_ok_iff.mp h
    obtain ⟨v, hv, h⟩ := Outcome.bind_eq_ok_iff.mp h
    rw [Outcome.mapErr_eq_ok_iff] at ha hd
    rw [realRentCapacity_eq_ok_iff] at hv
    obtain rfl := Except.ok.inj h
    exact ⟨isMatch_iff.mpr ⟨ha, hd⟩, hv.1, hv.2, rfl, rfl, rfl⟩
  · intro h
    obtain ⟨ha, hd⟩ := isMatch_iff.mp h.decodes
    have hv : realRentCapacity c.toCell = .ok info.ckbCapacity :=
      realRentCapacity_eq_ok_iff.mpr ⟨h.fits, h.capacity⟩
    simp only [ha, hd, hv, Outcome.mapErr_ok, Outcome.ok_bind, ← h.xudt, ← h.outpoint, ← h.block]

/-- **The reader of orders.** The same for an order.  The address of the node is not in the
cell, and is left out. -/
theorem parseOrderCell_eq_ok_iff {info : OrderInfo} :
    parseOrderCell c = .ok info ↔ OrderInfoOf c info ∧ info.fiberAddress = none := by
  rw [parseOrderCell, parseCellPrologue_eq, Outcome.ok_bind]
  constructor
  · intro h
    obtain ⟨a, ha, h⟩ := Outcome.bind_eq_ok_iff.mp h
    obtain ⟨d, hd, h⟩ := Outcome.bind_eq_ok_iff.mp h
    obtain ⟨v, hv, h⟩ := Outcome.bind_eq_ok_iff.mp h
    rw [Outcome.mapErr_eq_ok_iff] at ha hd
    rw [realRentCapacity_eq_ok_iff] at hv
    obtain rfl := Except.ok.inj h
    exact ⟨⟨isOrder_iff.mpr ⟨ha, hd⟩, hv.1, hv.2, rfl, rfl⟩, rfl⟩
  · rintro ⟨h, haddress⟩
    obtain ⟨ha, hd⟩ := isOrder_iff.mp h.decodes
    have hv : realRentCapacity c.toCell = .ok info.ckbCapacity :=
      realRentCapacity_eq_ok_iff.mpr ⟨h.fits, h.capacity⟩
    simp only [ha, hd, hv, Outcome.mapErr_ok, Outcome.ok_bind, ← h.xudt, ← h.outpoint,
      ← haddress]

/-- Every cell that decodes, and occupies a capacity that fits, has information. -/
theorem exists_matchInfoOf {a : MatchArgs} {d : MatchData} (hdecodes : IsMatch c.toCell a d)
    (hfits : c.occupied < 2 ^ 64) :
    ∃ info, MatchInfoOf c info ∧ info.matchArgs = a ∧ info.matchData = d := by
  have hlt : c.unoccupied < 2 ^ 64 := lt_of_le_of_lt (Nat.sub_le _ _) c.capacity.isLt
  refine ⟨⟨a, d, c.type_.map fun typeScript => ⟨d.xudtAmount, typeScript⟩,
    BitVec.ofNat 64 c.unoccupied, OutPoint.unpacked c.outPoint, c.header.number⟩,
    ⟨hdecodes, hfits, toNat_ofNat_of_lt hlt, rfl, rfl, rfl⟩, rfl, rfl⟩

/-- The tokens the reader finds are those the contract finds. -/
theorem MatchInfoOf.xudtOf_eq {info : MatchInfo} (h : MatchInfoOf c info) :
    xudtOf c.toCell = info.xudt.map fun x => (x.amount, x.typeScript) := by
  rw [h.decodes.xudtOf_eq, h.xudt, Option.map_map]
  rfl

/-- Both programs take the rent from the same block. -/
theorem MatchInfoOf.startBlock_eq {info : MatchInfo} (h : MatchInfoOf c info) :
    info.startBlock.toNat = rentBase c info.matchData := by
  unfold MatchInfo.startBlock rentBase
  split
  · rw [h.block, LiveCell.block]
  · rfl

/-! ## The rent the calculator computes -/

section Rent

variable {ε : Type} {info : MatchInfo} {tip : U64}

/-- The rent behind the two tests is that of the cell. -/
theorem MatchInfoOf.accrued_eq (h : MatchInfoOf c info) (tip : ℕ) :
    info.accrued tip = rentAt c info.matchData tip := by
  rw [MatchInfo.accrued, h.startBlock_eq, rentAt]

/-- And so is the value. -/
theorem MatchInfoOf.value_eq (h : MatchInfoOf c info) : info.value = valueOf c.toCell := by
  unfold MatchInfo.value valueOf
  rw [h.xudtOf_eq]
  cases info.xudt with
  | none => exact h.capacity
  | some x => rfl

/-- The rent the calculator computes from what was read is the rent of the cell. -/
theorem MatchInfoOf.extractionAmount_eq_ok_iff (h : MatchInfoOf c info) {rent : U64} :
    (info.extractionAmount tip : Outcome ε U64) = .ok rent ↔
      rentAt c info.matchData tip.toNat = rent.toNat := by
  rw [MatchInfo.extractionAmount_eq_ok_iff, h.accrued_eq]

/-- Below 64 bits the calculator computes it. -/
theorem MatchInfoOf.extractionAmount_of_lt (h : MatchInfoOf c info)
    (hlt : rentAt c info.matchData tip.toNat < 2 ^ 64) :
    (info.extractionAmount tip : Outcome ε U64) =
      .ok (BitVec.ofNat 64 (rentAt c info.matchData tip.toNat)) := by
  rw [← h.accrued_eq] at hlt ⊢
  exact MatchInfo.extractionAmount_of_lt hlt

/-- From there on it aborts, as the contract does. -/
theorem MatchInfoOf.extractionAmount_of_le (h : MatchInfoOf c info)
    (hle : 2 ^ 64 ≤ rentAt c info.matchData tip.toNat) :
    (info.extractionAmount tip : Outcome ε U64) = .panicked := by
  rw [← h.accrued_eq] at hle
  exact MatchInfo.extractionAmount_of_le hle

/-- The calculator's test of exhaustion compares the rent with the value of the cell, tokens or
CKB. -/
theorem MatchInfoOf.isExhausted_of_lt (h : MatchInfoOf c info)
    (hlt : rentAt c info.matchData tip.toNat < 2 ^ 64) :
    (info.isExhausted tip : Outcome ε Bool) =
      .ok (decide (valueOf c.toCell ≤ rentAt c info.matchData tip.toNat)) := by
  rw [← h.accrued_eq] at hlt
  rw [MatchInfo.isExhausted_of_lt hlt, h.value_eq, h.accrued_eq]

/-- It aborts with the rent. -/
theorem MatchInfoOf.isExhausted_of_le (h : MatchInfoOf c info)
    (hle : 2 ^ 64 ≤ rentAt c info.matchData tip.toNat) :
    (info.isExhausted tip : Outcome ε Bool) = .panicked := by
  rw [← h.accrued_eq] at hle
  exact MatchInfo.isExhausted_of_le hle

/-- Both cases in one. -/
theorem MatchInfoOf.isExhausted_eq_ok_iff (h : MatchInfoOf c info) {b : Bool} :
    (info.isExhausted tip : Outcome ε Bool) = .ok b ↔
      rentAt c info.matchData tip.toNat < 2 ^ 64 ∧
        b = decide (valueOf c.toCell ≤ rentAt c info.matchData tip.toNat) := by
  rw [MatchInfo.isExhausted_eq_ok_iff, h.accrued_eq, h.value_eq]

end Rent

end Parsed

end Opticrum
