import Opticrum.Calculator.Completion
import Opticrum.Calculator.Reader
import Opticrum.Calculator.Simulator
import Opticrum.Contract.Construct

/-!
# Builders and verifier agree

The calculator writes transactions, the contract checks them.  For cells that
hold no tokens the two agree on the whole life of an escrow: whatever a builder
is asked for within its range, the transaction that comes out consumes the escrow
and no other cell of the contract, is accepted, and leaves the pool intended.

## What agreement means

`Passes` is the form of it.  It has three parts, and none follows from the others: the cell is
the one Opticrum input of the transaction, the contract accepts, and the first Opticrum output
is as intended.  Acceptance alone would say little, since a transaction that consumes no cell of
the contract is accepted without a run of the script.

The transaction is not the draft but anything the draft is completed to.  Which signatures must
not be added depends on the builder: an update that is signed by both parties is rejected.

## Layout

For orders and for matches the lemmas come one for each builder, from `LiveOrder` or
`LiveMatch`, which collect that the cell is live, decodes to the info at hand, holds no tokens
and is under the contract's lock.  `LifecycleAgrees` lists what each builder promises, and
`builders_agree` fills it in.
-/

namespace Opticrum

open Rust Ckb

section Agreement

variable [ScriptHash]

/-- The builder lists an instruction, and every transaction it becomes the first
instruction of consumes `c`, consumes no other Opticrum cell, and is accepted; `result`
holds of its first Opticrum output.

That `c` is consumed has to be said: a transaction without Opticrum inputs runs no
script of the contract, and is accepted whatever it does. -/
def Passes (rpc : RPC)
    (runBasic : BasicOperation → TransactionSkeleton → Outcome String TransactionSkeleton)
    (avoid : List Byte32) (builder : Outcome Empty Instruction) (c : LiveCell)
    (result : Option Cell → Prop) : Prop :=
  ∃ instruction, builder = .ok instruction ∧
    ∀ sk tx, runInstruction rpc runBasic instruction .new = .ok sk →
      Completes (rpc.codeHash opticrumContractName) avoid sk.toTransaction tx →
        opticrumInputs (rpc.codeHash opticrumContractName) tx = [c] ∧
          AcceptedBy (rpc.codeHash opticrumContractName) tx ∧
          result (opticrumOutput? (rpc.codeHash opticrumContractName) tx)

/-- A weaker result. -/
theorem Passes.mono {rpc : RPC}
    {runBasic : BasicOperation → TransactionSkeleton → Outcome String TransactionSkeleton}
    {avoid : List Byte32} {builder : Outcome Empty Instruction}
    {c : LiveCell} {result result' : Option Cell → Prop}
    (h : Passes rpc runBasic avoid builder c result) (hresult : ∀ o?, result o? → result' o?) :
    Passes rpc runBasic avoid builder c result' := by
  obtain ⟨instruction, hbuilder, hpasses⟩ := h
  refine ⟨instruction, hbuilder, fun sk tx hrun hcompletes => ?_⟩
  obtain ⟨hsole, haccepted, hout⟩ := hpasses sk tx hrun hcompletes
  exact ⟨hsole, haccepted, hresult _ hout⟩

/-- A live order for capacity that holds no tokens, as the reader parses it. -/
structure LiveOrder (rpc : RPC) (c : LiveCell) (info : OrderInfo) : Prop where
  live : rpc.Live c
  lock : isOpticrumLock (rpc.codeHash opticrumContractName) c.lock = true
  plain : c.type_ = none
  parsed : parseOrderCell c = .ok { info with fiberAddress := none }
  amount : info.orderData.xudtAmount = 0

/-- A live match that holds no tokens, with data of 32 bytes, as the reader parses it.  Its
parties differ, and neither is the match itself.

Data that is longer is written back with 32 bytes, and the pool then grows by what they
occupied.  A party whose hash was that of the match would sign whatever is done with it. -/
structure LiveMatch (rpc : RPC) (c : LiveCell) (info : MatchInfo) : Prop where
  live : rpc.Live c
  lock : isOpticrumLock (rpc.codeHash opticrumContractName) c.lock = true
  plain : c.type_ = none
  parsed : parseMatchCell c = .ok info
  canonical : c.data.length = matchDataLen
  parties : info.matchArgs.orderArgs.buyerLockHash ≠ info.matchArgs.sellerLockHash
  notBuyer : calcScriptHash c.lock ≠ info.matchArgs.orderArgs.buyerLockHash
  notSeller : calcScriptHash c.lock ≠ info.matchArgs.sellerLockHash

/-- A live channel that meets the order: a recognised funding cell, large enough
and younger than the order. -/
structure MeetsOrder (rpc : RPC) (c : LiveCell) (info : OrderInfo) (o : OutPoint)
    (channel : LiveCell) : Prop where
  live : rpc.liveCell o.packed = some channel
  funding : isFiberFundingContract channel.lock.codeHash = true
  hashType : channel.lock.hashType = .type
  capacity : info.orderData.channelCapacity ≤ channel.capacity
  younger : c.block < channel.block

variable {rpc : RPC}
  {runBasic : BasicOperation → TransactionSkeleton → Outcome String TransactionSkeleton}
  {c : LiveCell}

/-! ### Orders -/

section Order

variable {info : OrderInfo}

omit [ScriptHash] in
/-- What was read of the order agrees with the cell, the address of the node aside. -/
theorem LiveOrder.infoOf (h : LiveOrder rpc c info) :
    OrderInfoOf c { info with fiberAddress := none } :=
  (parseOrderCell_eq_ok_iff.mp h.parsed).1

omit [ScriptHash] in
/-- No tokens have been read, as the cell has no type script. -/
theorem LiveOrder.xudt (h : LiveOrder rpc c info) : info.xudt = none := by
  have hxudt := h.infoOf.xudt
  rw [h.plain] at hxudt
  exact hxudt

omit [ScriptHash] in
/-- At the out point that was read the node finds the cell. -/
theorem LiveOrder.liveCell (h : LiveOrder rpc c info) :
    rpc.liveCell info.orderOutpoint.packed = some c := by
  have hpoint : info.orderOutpoint = OutPoint.unpacked c.outPoint := h.infoOf.outpoint
  rw [hpoint, OutPoint.packed_unpacked]
  exact h.live

/-- A cancelled order. -/
theorem LiveOrder.cancel_passes (h : LiveOrder rpc c info) (doc : Documented rpc runBasic)
    {buyer : Address}
    (hbuyer : ActsFor (rpc.codeHash opticrumContractName) buyer info.orderArgs.buyerLockHash) :
    Passes rpc runBasic [] (.ok (cancelOrder buyer info)) c (· = none) := by
  refine ⟨_, rfl, fun sk tx hrun hcompletes => ?_⟩
  obtain ⟨contract, party, hparty, hdraft⟩ := doc.cancelOrder_draft h.liveCell h.xudt hrun
  rw [hdraft] at hcompletes
  obtain ⟨p, hp, hhash⟩ := hparty.exists_hash hbuyer
  have hsigned : Signed tx info.orderArgs.buyerLockHash :=
    hcompletes.signed (List.mem_cons_of_mem _ hp) hhash
  have hsole := hcompletes.sole_of_cons hparty hbuyer.ordinary h.lock
  refine ⟨hsole, hcompletes.accepted hsole h.infoOf.fits ?_ (.orderCancel h.infoOf.decodes hsigned),
    hcompletes.opticrumOutput?_eq⟩
  intro o ho
  simp [opticrumOutput?] at ho

omit [ScriptHash] in
/-- The reserve is exactly what the longer args occupy. -/
theorem LiveOrder.pool_of_copyOf (h : LiveOrder rpc c info) {lock : Script} {data : Bytes}
    {o : Cell} {a : MatchArgs} {d : MatchData}
    (hcopy : CopyOf c.toCell (.add orderToMatchCapacityReserve) lock data o) (hnew : IsMatch o a d)
    (hdata : o.data.length = matchDataLen)
    (hcapacity : c.capacity.toNat + orderToMatchCapacityReserve.toNat < 2 ^ 64) :
    o.unoccupied = c.unoccupied := by
  have hadded := hcopy.capacity hcapacity
  have hreserve : orderToMatchCapacityReserve.toNat = oneCkb * 68 := by decide
  have hold : c.occupied = oneCkb * 138 := by
    rw [h.infoOf.decodes.occupied_eq, h.plain]
    rfl
  have hoccupied : o.occupied = oneCkb * 206 := by
    rw [hnew.occupied_eq hdata, hcopy.type_, h.plain]
    rfl
  rw [Cell.unoccupied, Cell.unoccupied, hadded, hreserve, hold, hoccupied]
  omega

omit [ScriptHash] in
/-- The contract checks the channel of an order without tokens for its capacity. -/
theorem MeetsOrder.meets {o : OutPoint} {channel : LiveCell} (h : MeetsOrder rpc c info o channel)
    (horder : LiveOrder rpc c info) :
    channelMeets channel.toCell
      (if 0 < info.orderData.xudtAmount then none else some info.orderData.channelCapacity)
      (if 0 < info.orderData.xudtAmount then some info.orderData.xudtAmount else none)
      ((xudtOf c.toCell).map fun x => some x.2) = .ok true := by
  have hxudt : xudtOf c.toCell = none := by
    rw [horder.infoOf.decodes.xudtOf_eq, horder.plain]
    rfl
  have hcapacity : ¬ channel.capacity < info.orderData.channelCapacity :=
    BitVec.not_lt.mpr h.capacity
  simp [channelMeets, hxudt, horder.amount, h.funding, h.hashType, hcapacity]

/-- A matched order. -/
theorem LiveOrder.match_passes (h : LiveOrder rpc c info) (doc : Documented rpc runBasic)
    {seller : Address} {matchArgs : MatchArgs} {channel : LiveCell}
    (hargs : info.orderArgs = matchArgs.orderArgs)
    (hseller : ActsFor (rpc.codeHash opticrumContractName) seller matchArgs.sellerLockHash)
    (hchannel : MeetsOrder rpc c info matchArgs.channelOutpoint channel)
    (hcapacity : c.capacity.toNat + orderToMatchCapacityReserve.toNat < 2 ^ 64) :
    Passes rpc runBasic [] (.ok (matchOrder seller info matchArgs)) c
      (fun o? => ∃ o, o? = some o ∧ o.unoccupied = c.unoccupied) := by
  refine ⟨_, rfl, fun sk tx hrun hcompletes => ?_⟩
  obtain ⟨contract, deps, headers, party, o, hparty, hcontract, hdeps, hchannelHeader,
    horderHeader, hcopy, hdraft⟩ := doc.matchOrder_draft h.liveCell hchannel.live h.xudt hrun
  rw [hdraft] at hcompletes
  obtain ⟨p, hp, hhash⟩ := hparty.exists_hash hseller
  have hsigned : Signed tx matchArgs.sellerLockHash :=
    hcompletes.signed (List.mem_cons_of_mem _ hp) hhash
  have hlock : isOpticrumLock (rpc.codeHash opticrumContractName) o.lock = true := by
    rw [hcopy.lock]
    exact isOpticrumLock_opticrumLock _ _
  have hnew : IsMatch o matchArgs (MatchData.new 0 info.orderData.shannonsPerBlock) :=
    isMatch_of_toBytes (by rw [hcopy.lock]) hcopy.data
  have hdata : o.data.length = matchDataLen := by rw [hcopy.data, Vector.length_toList]
  have hpool : o.unoccupied = c.unoccupied := h.pool_of_copyOf hcopy hnew hdata hcapacity
  -- the draft has code deps only, so the index found is the index loaded
  obtain ⟨i, hlisted, hinspected⟩ := hcompletes.exists_findIdx? hdeps hcontract hchannel.live
  have hout : opticrumOutput? (rpc.codeHash opticrumContractName)
      ⟨c :: party, [o], deps, headers⟩ = some o := by
    simp [opticrumOutput?, hlock]
  have hsole := hcompletes.sole_of_cons hparty hseller.ordinary h.lock
  refine ⟨hsole, hcompletes.accepted hsole h.infoOf.fits ?_ ?_, o, ?_, hpool⟩
  · intro o' ho'
    obtain rfl := Option.some.inj (hout.symm.trans ho')
    rw [hnew.occupied_eq hdata, hcopy.type_, h.plain]
    decide
  · rw [hout]
    refine .orderMatch h.infoOf.decodes hnew hargs ?_ hlisted hinspected (hchannel.meets h) hsigned
      rfl rfl hpool.symm h.amount (hcompletes.hasHeader horderHeader)
      (hcompletes.hasHeader hchannelHeader) hchannel.younger
    rw [h.infoOf.decodes.xudtOf_eq, hnew.xudtOf_eq, hcopy.type_, h.plain]
    rfl
  · rw [hcompletes.opticrumOutput?_eq, hout]

end Order

/-! ### Matches -/

section Match

variable {info : MatchInfo} {tip : U64}

/-- What was read of the match agrees with the cell. -/
theorem LiveMatch.infoOf (h : LiveMatch rpc c info) : MatchInfoOf c info :=
  parseMatchCell_eq_ok_iff.mp h.parsed

theorem LiveMatch.xudt (h : LiveMatch rpc c info) : info.xudt = none := by
  rw [h.infoOf.xudt, h.plain]
  rfl

theorem LiveMatch.liveCell (h : LiveMatch rpc c info) :
    rpc.liveCell info.matchOutpoint.packed = some c := by
  rw [h.infoOf.outpoint, OutPoint.packed_unpacked]
  exact h.live

/-- A swept match. -/
theorem LiveMatch.destroy_passes (h : LiveMatch rpc c info) (doc : Documented rpc runBasic)
    {seller : Address}
    (hseller : ActsFor (rpc.codeHash opticrumContractName) seller info.matchArgs.sellerLockHash)
    (hexhausted : (info.isExhausted tip : Outcome Empty Bool) = .ok true) :
    Passes rpc runBasic [] (.ok (destroyMatch seller info tip)) c (· = none) := by
  refine ⟨_, rfl, fun sk tx hrun hcompletes => ?_⟩
  obtain ⟨contract, party, tipHeader, headers, o, hparty, rfl, hfirst, hcreation, hcopy, hdraft⟩ :=
    doc.destroyMatch_draft h.liveCell h.infoOf.block h.xudt hrun
  rw [hdraft] at hcompletes
  obtain ⟨p, hp, hhash⟩ := hparty.exists_hash hseller
  have hsigned : Signed tx info.matchArgs.sellerLockHash :=
    hcompletes.signed (List.mem_cons_of_mem _ hp) hhash
  obtain ⟨hfits, hcovered⟩ := h.infoOf.isExhausted_eq_ok_iff.mp hexhausted
  have hdue : RentDue tx c info.matchData tipHeader.number.toNat :=
    ⟨hcompletes.tip?_eq hfirst, fun hzero => hcompletes.hasHeader (hcreation hzero), hfits⟩
  have hout : opticrumOutput? (rpc.codeHash opticrumContractName)
      ⟨c :: party, [o], [.code contract], headers⟩ = none := by
    simp [opticrumOutput?, hcopy.lock, hseller.ordinary]
  have hsole := hcompletes.sole_of_cons hparty hseller.ordinary h.lock
  refine ⟨hsole, hcompletes.accepted hsole h.infoOf.fits ?_ ?_,
    hcompletes.opticrumOutput?_eq.trans hout⟩
  · intro o' ho'
    simp [hout] at ho'
  · rw [hout]
    exact .matchDestroy h.infoOf.decodes hsigned hdue (by simpa using hcovered)

/-- A match whose extraction finds it exhausted is swept. -/
theorem LiveMatch.extract_passes_of_exhausted (h : LiveMatch rpc c info)
    (doc : Documented rpc runBasic) {seller : Address}
    (hseller : ActsFor (rpc.codeHash opticrumContractName) seller info.matchArgs.sellerLockHash)
    (hexhausted : (info.isExhausted tip : Outcome Empty Bool) = .ok true) :
    Passes rpc runBasic [] (extractRent seller info tip) c (· = none) := by
  have hbuilder : (extractRent seller info tip : Outcome Empty _) =
      .ok (destroyMatch seller info tip) := by
    simp only [extractRent, hexhausted, Outcome.ok_bind, if_true]
  rw [hbuilder]
  exact h.destroy_passes doc hseller hexhausted

/-- A copy of a match with new data of 32 bytes is a match under the same lock, and
holds no tokens. -/
theorem LiveMatch.copy (h : LiveMatch rpc c info) {adjust : CapacityAdjustment} {d : MatchData}
    {o : Cell} (hcopy : CopyOf c.toCell adjust c.lock d.toBytes.toList o) :
    IsMatch o info.matchArgs d ∧ xudtOf c.toCell = xudtOf o ∧ o.occupied = c.occupied := by
  have hnew : IsMatch o info.matchArgs d :=
    isMatch_of_toBytes (by rw [hcopy.lock, h.infoOf.decodes.args_eq]) hcopy.data
  refine ⟨hnew, ?_, occupied_congr hcopy.lock hcopy.type_ ?_⟩
  · rw [h.infoOf.decodes.xudtOf_eq, hnew.xudtOf_eq, hcopy.type_, h.plain]
    rfl
  · rw [hcopy.data, h.canonical, Vector.length_toList]

/-- The parties of a match cannot be mistaken for each other. -/
theorem LiveMatch.not_signed (h : LiveMatch rpc c info) {codeHash lockHash other : Byte32}
    {address : Address} {party : List LiveCell} (hacts : ActsFor codeHash address lockHash)
    (hparty : PartyCells address party) (hne : lockHash ≠ other)
    (hother : calcScriptHash c.lock ≠ other) :
    ∀ p ∈ c :: party, calcScriptHash p.lock ≠ other := by
  intro p hp
  rcases List.mem_cons.mp hp with rfl | hp
  · exact hother
  · rwa [hparty.lock p hp, hacts.hash]

/-- A match that is not exhausted pays exactly the rent, and is otherwise copied with
its clock set to the tip. -/
theorem LiveMatch.extract_copies (h : LiveMatch rpc c info) (doc : Documented rpc runBasic)
    {seller : Address}
    (hseller : ActsFor (rpc.codeHash opticrumContractName) seller info.matchArgs.sellerLockHash)
    (halive : (info.isExhausted tip : Outcome Empty Bool) = .ok false) :
    Passes rpc runBasic [info.matchArgs.orderArgs.buyerLockHash] (extractRent seller info tip) c
      (fun o? => ∃ o rent, o? = some o ∧
        (info.extractionAmount tip : Outcome Empty U64) = .ok rent ∧
          o.unoccupied + rent.toNat = c.unoccupied ∧
          CopyOf c.toCell (.subtract rent) c.lock (MatchData.toBytes
            { info.matchData with lastExtractionBlock := tip, xudtAmount := 0 }).toList o) := by
  obtain ⟨hfits, hvalue⟩ := h.infoOf.isExhausted_eq_ok_iff.mp halive
  have hbelow : rentAt c info.matchData tip.toNat < valueOf c.toCell := by simpa using hvalue
  obtain ⟨operations, hops⟩ : ∃ operations, (extractRent seller info tip : Outcome Empty _) =
      .ok operations := by
    simp only [extractRent, halive, Outcome.ok_bind, h.infoOf.extractionAmount_of_lt hfits, h.xudt]
    exact ⟨_, rfl⟩
  refine ⟨operations, hops, fun sk tx hrun hcompletes => ?_⟩
  have hforeign : c.lock ≠ seller.script := by
    intro heq
    have hlock := h.lock
    rw [heq, hseller.ordinary] at hlock
    simp at hlock
  obtain ⟨contract, channel, deps, party, rent, tipHeader, headers, o, hparty, hchannel, hdeps, rfl,
    hfirst, hcreation, hrent, hcopy, hdraft⟩ :=
    doc.extractRent_draft h.liveCell hforeign h.xudt halive hops hrun
  rw [hdraft] at hcompletes
  obtain ⟨hnew, hxudt, hoccupied⟩ := h.copy hcopy
  obtain ⟨p, hp, hhash⟩ := hparty.exists_hash hseller
  have hsigned : Signed tx info.matchArgs.sellerLockHash :=
    hcompletes.signed (List.mem_append_left _ hp) hhash
  have hunsigned : ¬ Signed tx info.matchArgs.orderArgs.buyerLockHash := by
    refine hcompletes.not_signed List.mem_cons_self fun q hq => ?_
    refine h.not_signed hseller hparty h.parties.symm h.notBuyer q ?_
    simpa [or_comm] using hq
  have hdue : RentDue tx c info.matchData tipHeader.number.toNat :=
    ⟨hcompletes.tip?_eq hfirst, fun hzero => hcompletes.hasHeader (hcreation hzero), hfits⟩
  -- the rent leaves the pool
  have hvalueEq : valueOf c.toCell = c.unoccupied := valueOf_of_type_none h.infoOf.decodes h.plain
  have hrentEq : rent.toNat = rentAt c info.matchData tipHeader.number.toNat :=
    (h.infoOf.extractionAmount_eq_ok_iff.mp hrent).symm
  have hpool : o.unoccupied + rent.toNat = c.unoccupied := by
    rw [hvalueEq, ← hrentEq, Cell.unoccupied] at hbelow
    have htaken := hcopy.capacity (show rent.toNat ≤ c.capacity.toNat by omega)
    rw [Cell.unoccupied, Cell.unoccupied, htaken, hoccupied]
    omega
  have hout : opticrumOutput? (rpc.codeHash opticrumContractName)
      ⟨party ++ [c], [o], deps, headers⟩ = some o := by
    simp [opticrumOutput?, hcopy.lock, h.lock]
  have hsole := hcompletes.sole_of_append hparty hseller.ordinary h.lock
  refine ⟨hsole, hcompletes.accepted hsole h.infoOf.fits ?_ ?_, o, rent, ?_, hrent, hpool, hcopy⟩
  · intro o' ho'
    obtain rfl := Option.some.inj (hout.symm.trans ho')
    rw [hoccupied]
    exact h.infoOf.fits
  · rw [hout]
    refine .sellerExtract h.infoOf.decodes hnew hxudt rfl hsigned hunsigned
      (hcompletes.channelListed hdeps.mem (rpc.liveCell_outPoint hchannel)) hdue hbelow ?_ rfl
    rw [extracted_of_type_none h.infoOf.decodes h.plain, ← hrentEq]
    omega
  · rw [hcompletes.opticrumOutput?_eq, hout]

/-- **Extraction.** While the match is not exhausted, `extract_rent` consumes it, is accepted,
and leaves it with the rent taken out.  The data is written with the tip, which is also the
first header dep, and the capacity goes down by the amount the contract computes. -/
theorem LiveMatch.extract_passes (h : LiveMatch rpc c info) (doc : Documented rpc runBasic)
    {seller : Address}
    (hseller : ActsFor (rpc.codeHash opticrumContractName) seller info.matchArgs.sellerLockHash)
    (halive : (info.isExhausted tip : Outcome Empty Bool) = .ok false) :
    Passes rpc runBasic [info.matchArgs.orderArgs.buyerLockHash] (extractRent seller info tip) c
      (fun o? => ∃ o rent, o? = some o ∧
        (info.extractionAmount tip : Outcome Empty U64) = .ok rent ∧
          o.unoccupied + rent.toNat = c.unoccupied) :=
  (h.extract_copies doc hseller halive).mono fun _ ⟨o, rent, ho, hrent, hpool, _⟩ =>
    ⟨o, rent, ho, hrent, hpool⟩

/-- An update by the buyer changes the pool by the amount asked for. -/
theorem LiveMatch.update_passes (h : LiveMatch rpc c info) (doc : Documented rpc runBasic)
    {buyer : Address} {newXudtAmount : U128} {delta : I64}
    (hbuyer : ActsFor (rpc.codeHash opticrumContractName) buyer
      info.matchArgs.orderArgs.buyerLockHash)
    (hdelta : delta ≠ BitVec.intMin 64)
    (hlow : (c.occupied : ℤ) ≤ c.capacity.toNat + delta.toInt)
    (hhigh : (c.capacity.toNat : ℤ) + delta.toInt < 2 ^ 64) :
    Passes rpc runBasic [info.matchArgs.sellerLockHash]
      (updateMatchBuyer buyer info newXudtAmount delta) c
      (fun o? => ∃ o, o? = some o ∧ (o.unoccupied : ℤ) = c.unoccupied + delta.toInt) := by
  obtain ⟨adjust, hadjust⟩ : ∃ adjust, (adjustBy delta : Outcome Empty _) = .ok adjust :=
    exists_adjustBy hdelta
  obtain ⟨operations, hops⟩ : ∃ operations,
      (updateMatchBuyer buyer info newXudtAmount delta : Outcome Empty _) = .ok operations := by
    rw [updateMatchBuyer, hadjust]
    exact ⟨_, rfl⟩
  refine ⟨operations, hops, fun sk tx hrun hcompletes => ?_⟩
  obtain ⟨contract, party, adjust', o, hparty, hadjust', hcopy, hdraft⟩ :=
    doc.updateMatchBuyer_draft h.liveCell hops hrun
  rw [hdraft] at hcompletes
  obtain ⟨hnew, hxudt, hoccupied⟩ := h.copy hcopy
  obtain ⟨p, hp, hhash⟩ := hparty.exists_hash hbuyer
  -- who signs is decided by the draft: the buyer's cells are in it
  have hsigned : Signed tx info.matchArgs.orderArgs.buyerLockHash :=
    hcompletes.signed (List.mem_cons_of_mem _ hp) hhash
  have hunsigned : ¬ Signed tx info.matchArgs.sellerLockHash :=
    hcompletes.not_signed List.mem_cons_self (h.not_signed hbuyer hparty h.parties h.notSeller)
  -- the capacity changes by `delta` and what the cell occupies does not
  have hpool : (o.unoccupied : ℤ) = c.unoccupied + delta.toInt := by
    have hcapacity := toInt_of_adjustBy hadjust' hcopy.capacity (by omega) hhigh
    have hfunded := rpc.liveCell_funded h.liveCell
    rw [Cell.unoccupied, Cell.unoccupied, hoccupied]
    omega
  have hout : opticrumOutput? (rpc.codeHash opticrumContractName)
      ⟨c :: party, [o], [.code contract], []⟩ = some o := by
    simp [opticrumOutput?, hcopy.lock, h.lock]
  have hsole := hcompletes.sole_of_cons hparty hbuyer.ordinary h.lock
  refine ⟨hsole, hcompletes.accepted hsole h.infoOf.fits ?_ ?_, o, ?_, hpool⟩
  · intro o' ho'
    obtain rfl := Option.some.inj (hout.symm.trans ho')
    rw [hoccupied]
    exact h.infoOf.fits
  · rw [hout]
    exact .buyerUpdate h.infoOf.decodes hnew hxudt rfl hunsigned hsigned rfl
  · rw [hcompletes.opticrumOutput?_eq, hout]

end Match

/-! ### The whole life -/

/-- What it means that builders and verifier agree: one field for each builder.  Each says
under which conditions the builder is used, that what it lists passes, and what becomes of
the pool. -/
structure LifecycleAgrees (rpc : RPC)
    (runBasic : BasicOperation → TransactionSkeleton → Outcome String TransactionSkeleton) :
    Prop where
  cancelOrder : ∀ {c info buyer}, LiveOrder rpc c info →
    ActsFor (rpc.codeHash opticrumContractName) buyer info.orderArgs.buyerLockHash →
      Passes rpc runBasic [] (.ok (cancelOrder buyer info)) c (· = none)
  /-- The channel meets the order; the pool is handed over. -/
  matchOrder : ∀ {c info seller matchArgs channel}, LiveOrder rpc c info →
    info.orderArgs = matchArgs.orderArgs →
    ActsFor (rpc.codeHash opticrumContractName) seller matchArgs.sellerLockHash →
    MeetsOrder rpc c info matchArgs.channelOutpoint channel →
    c.capacity.toNat + orderToMatchCapacityReserve.toNat < 2 ^ 64 →
      Passes rpc runBasic [] (.ok (matchOrder seller info matchArgs)) c
        (fun o? => ∃ o, o? = some o ∧ o.unoccupied = c.unoccupied)
  /-- The rent leaves the pool, or the match is swept. -/
  extractRent : ∀ {c info seller tip}, LiveMatch rpc c info →
    ActsFor (rpc.codeHash opticrumContractName) seller info.matchArgs.sellerLockHash →
    rentAt c info.matchData tip.toNat < 2 ^ 64 →
      ((info.isExhausted tip : Outcome Empty Bool) = .ok true ∧
        Passes rpc runBasic [] (extractRent seller info tip) c (· = none)) ∨
      ((info.isExhausted tip : Outcome Empty Bool) = .ok false ∧
        Passes rpc runBasic [info.matchArgs.orderArgs.buyerLockHash] (extractRent seller info tip) c
          (fun o? => ∃ o rent, o? = some o ∧
            (info.extractionAmount tip : Outcome Empty U64) = .ok rent ∧
              o.unoccupied + rent.toNat = c.unoccupied))
  destroyMatch : ∀ {c info seller tip}, LiveMatch rpc c info →
    ActsFor (rpc.codeHash opticrumContractName) seller info.matchArgs.sellerLockHash →
    (info.isExhausted tip : Outcome Empty Bool) = .ok true →
      Passes rpc runBasic [] (.ok (destroyMatch seller info tip)) c (· = none)
  /-- The pool changes by the amount asked for. -/
  updateMatchBuyer : ∀ {c info buyer newXudtAmount} {delta : I64}, LiveMatch rpc c info →
    ActsFor (rpc.codeHash opticrumContractName) buyer info.matchArgs.orderArgs.buyerLockHash →
    delta ≠ BitVec.intMin 64 → (c.occupied : ℤ) ≤ c.capacity.toNat + delta.toInt →
    (c.capacity.toNat : ℤ) + delta.toInt < 2 ^ 64 →
      Passes rpc runBasic [info.matchArgs.sellerLockHash]
        (updateMatchBuyer buyer info newXudtAmount delta) c
        (fun o? => ∃ o, o? = some o ∧ (o.unoccupied : ℤ) = c.unoccupied + delta.toInt)

/-- **Builders and verifier.** With a framework that does what it documents, they agree.

For each builder: whoever completes what it lists, without a signature it must not have, gets a
transaction that spends the cell and no other of the contract, which the contract accepts, and
after which the pool is what the caller was told. -/
theorem builders_agree (doc : Documented rpc runBasic) : LifecycleAgrees rpc runBasic where
  cancelOrder horder hbuyer := horder.cancel_passes doc hbuyer
  matchOrder horder hargs hseller hchannel hcapacity :=
    horder.match_passes doc hargs hseller hchannel hcapacity
  extractRent := by
    intro c info seller tip hmatch hseller hfits
    have htest : (info.isExhausted tip : Outcome Empty Bool) = .ok _ :=
      hmatch.infoOf.isExhausted_of_lt hfits
    cases hvalue : decide (valueOf c.toCell ≤ rentAt c info.matchData tip.toNat) with
    | true =>
        rw [hvalue] at htest
        exact .inl ⟨htest, hmatch.extract_passes_of_exhausted doc hseller htest⟩
    | false =>
        rw [hvalue] at htest
        exact .inr ⟨htest, hmatch.extract_passes doc hseller htest⟩
  destroyMatch hmatch hseller hexhausted := hmatch.destroy_passes doc hseller hexhausted
  updateMatchBuyer hmatch hbuyer hdelta hlow hhigh :=
    hmatch.update_passes doc hbuyer hdelta hlow hhigh

end Agreement

/-! ## In the market -/

namespace Market

/-- The cell that holds the code of the contract. -/
def contractCell : LiveCell :=
  partyCell (systemLock []) 10000000000 ⟨Vector.replicate 32 0x1f, 0⟩ (headerAt 1)

/-- A match with a pool of 100000 shannons, never extracted. -/
def running : MatchCell := matchCell ⟨0, 3, 0⟩ none 100000 0 1000

/-- What the reader makes of it. -/
def runningInfo : MatchInfo where
  matchArgs := matchArgs
  matchData := ⟨0, 3, 0⟩
  xudt := none
  ckbCapacity := 100000
  matchOutpoint := ⟨Vector.replicate 32 0xaa, 0⟩
  matchCurrentBlock := 1000

/-- The live cells of the market. -/
def liveCells : List LiveCell :=
  [contractCell, channelCell, sellerCell, buyerCell, running.toLiveCell]

/-- Every live cell is funded, and was committed in a block of the chain. -/
theorem liveCells_spec : ∀ c ∈ liveCells, c.occupied ≤ c.capacity.toNat ∧
    ∃ n, n < 2 ^ 64 ∧ c.header = headerAt n := by
  simp only [liveCells, List.forall_mem_cons]
  refine ⟨⟨fund_funded (by decide), 1, by decide, rfl⟩, ⟨by decide, 900, by decide, rfl⟩,
    ⟨fund_funded (by decide), 1, by decide, rfl⟩, ⟨fund_funded (by decide), 1, by decide, rfl⟩,
    ⟨matchOutput_funded (by decide), 1000, by decide, rfl⟩, List.forall_mem_nil _⟩

/-- What is found at an out point is a live cell there. -/
theorem liveCells_of_find? {p : Ckb.OutPoint} {c : LiveCell}
    (h : liveCells.find? (·.outPoint = p) = some c) : c ∈ liveCells ∧ c.outPoint = p :=
  ⟨List.mem_of_find?_eq_some h, by simpa using List.find?_some h⟩

/-- A node of the market. -/
def node : RPC where
  network := .testnet
  liveCell p := liveCells.find? (·.outPoint = p)
  header n := some (headerAt n.toNat)
  codeHash _ := codeHash
  liveCell_outPoint h := (liveCells_of_find? h).2
  liveCell_funded h := (liveCells_spec _ (liveCells_of_find? h).1).1
  liveCell_header h := by
    obtain ⟨-, n, hn, hheader⟩ := liveCells_spec _ (liveCells_of_find? h).1
    rw [hheader, headerAt_number hn]
  header_number h := by
    obtain rfl := Option.some.inj h
    exact BitVec.eq_of_toNat_eq (headerAt_number (BitVec.isLt _))

/-- The framework, with the cells of the parties at hand. -/
def framework (operation : BasicOperation) (sk : TransactionSkeleton) :
    Outcome String TransactionSkeleton :=
  simulate node contractCell [sellerCell, buyerCell] operation sk

theorem documented_framework : Documented node framework :=
  documented_simulate (show node.Live contractCell by rfl)

/-- The running match is live, and what the reader made of it is passed on. -/
theorem liveMatch_running : LiveMatch node running.toLiveCell runningInfo where
  live := by rfl
  lock := isOpticrumLock_matchCell
  plain := rfl
  parsed := by
    refine parseMatchCell_eq_ok_iff.mpr
      ⟨isMatch_matchOutput, matchCell_fits, ?_, rfl, rfl, rfl⟩
    have hpool : running.unoccupied = 100000 := matchCell_unoccupied (by decide)
    rw [hpool]
    rfl
  canonical := by
    have hdata : running.data = _ := matchOutput_data
    rw [hdata, Vector.length_toList]
  parties := sellerLockHash_ne_buyerLockHash.symm
  notBuyer := calcScriptHash_matchLock_ne.2
  notSeller := calcScriptHash_matchLock_ne.1

theorem actsFor_seller : ActsFor codeHash ⟨sellerLock⟩ sellerLockHash :=
  ⟨calcScriptHash_sellerLock, by decide⟩

theorem running_rentAt : rentAt running.toLiveCell runningInfo.matchData (1100 : U64).toNat = 300 :=
  (matchCell_rentAt (by decide) _).trans rfl

/-- At block 1100 the seller takes 300 of the 100000 shannons. -/
theorem running_extracted :
    ∃ instruction sk,
      (extractRent ⟨sellerLock⟩ runningInfo 1100 : Outcome Empty _) = .ok instruction ∧
        runInstruction node framework instruction .new = .ok sk ∧
        opticrumInputs codeHash sk.toTransaction = [running.toLiveCell] ∧
        AcceptedBy codeHash sk.toTransaction ∧
        ∃ o, opticrumOutput? codeHash sk.toTransaction = some o ∧ o.unoccupied + 300 = 100000 := by
  obtain ⟨instruction, hbuilder, sk, hrun⟩ : ∃ instruction,
      (extractRent ⟨sellerLock⟩ runningInfo 1100 : Outcome Empty _) = .ok instruction ∧
        ∃ sk, runInstruction node framework instruction .new = .ok sk := ⟨_, rfl, _, rfl⟩
  have hfits : rentAt running.toLiveCell runningInfo.matchData (1100 : U64).toNat < 2 ^ 64 := by
    rw [running_rentAt]
    decide
  have hcompletes : Completes codeHash [buyerLockHash] sk.toTransaction sk.toTransaction :=
    ⟨⟨[], by simp⟩, ⟨[], by simp⟩, ⟨[], by simp⟩, ⟨[], by simp⟩⟩
  rcases (builders_agree documented_framework).extractRent liveMatch_running actsFor_seller hfits
    with ⟨hexhausted, -⟩ | ⟨-, instruction', hbuilder', hpasses⟩
  · have halive : (runningInfo.isExhausted 1100 : Outcome Empty _) = .ok false := rfl
    rw [halive] at hexhausted
    simp at hexhausted
  · obtain rfl := Except.ok.inj (hbuilder.symm.trans hbuilder')
    obtain ⟨hsole, haccepted, o, rent, hout, hrent, hpool⟩ := hpasses sk _ hrun hcompletes
    have hrentEq : (runningInfo.extractionAmount 1100 : Outcome Empty _) = .ok 300 := rfl
    obtain rfl := Except.ok.inj (hrentEq.symm.trans hrent)
    have hunoccupied : running.unoccupied = 100000 := matchCell_unoccupied (by decide)
    exact ⟨instruction, sk, hbuilder, hrun, hsole, haccepted, o, hout, hpool.trans hunoccupied⟩

end Market

end Opticrum
