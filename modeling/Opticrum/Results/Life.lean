import Opticrum.Results.Plan

/-!
# The whole life of an order for capacity

An order is created, cancelled or matched; a match is extracted from and updated until
it is swept.  Each transaction is listed by a builder from what the reader makes of the
cell the one before left.  `order_lives` goes through all of it: what `create_order`
creates is read back as what was asked for, with no tokens, can be cancelled, and can be
matched with any channel that meets it; the match has the rent capacity of the order as
its pool, and any plan of its parties that is possible from there is carried out.

## The stages

`Created`, `Cancelled` and `Matched` are the stages before the plan, in the form of
`Act.Performed`: cancelling and matching spend the order.  Creation runs no script of the
contract, so nothing is accepted there; the draft may be any, and the order is its next
output.  `HandedOver` is what a match leaves, before anything is asked of its parties.

## What is assumed

The parties differ from each other and from the contract, `PartiesApart`, and each has an
address that signs for it.  The capacity that a match of this rent capacity needs fits in a
word.  And the plan is one that is possible for the numbers of the match, which is a question of
arithmetic and not of cells.

Nothing is assumed of the framework beyond what it documents, nor of the transactions beyond
that the instructions come first in them.
-/

namespace Opticrum

open Rust Ckb TransitionSystem

section Life

variable [ScriptHash]

/-- The order is created, and `result` holds of the cell its output becomes in the
block. -/
def Created (codeHash : Byte32) (buyer : Address) (orderArgs : OrderArgs) (orderData : OrderData)
    (rentCapacity : U64) (fiberAddress : Option String) (block : U64)
    (result : LiveCell → Prop) : Prop :=
  ∀ rpc runBasic, DocumentedCapacity rpc runBasic → rpc.codeHash opticrumContractName = codeHash →
    ∀ sk sk', runInstruction rpc runBasic
      (createOrder buyer orderArgs orderData rentCapacity none fiberAddress) sk = .ok sk' →
        ∃ o, sk'.outputs = sk.outputs ++ [o] ∧
          ∀ c : LiveCell, c.toCell = o → c.header.number = block → result c

/-- The order in `c` is read, whatever address is fetched for it, and its cancellation is
built and accepted: it spends `c` and leaves no cell of the contract. -/
def Cancelled (codeHash : Byte32) (buyer : Address) (c : LiveCell) : Prop :=
  ∃ info, parseOrderCell c = .ok info ∧
    ∀ rpc runBasic, Documented rpc runBasic → rpc.codeHash opticrumContractName = codeHash →
      rpc.Live c → ∀ address,
        Passes rpc runBasic [] (.ok (cancelOrder buyer { info with fiberAddress := address })) c
          (· = none)

/-- The order in `c` is read, its match with any channel that meets it is built and
accepted: it spends `c`, and `result` holds of what it leaves. -/
def Matched (codeHash : Byte32) (seller : Address) (matchArgs : MatchArgs) (block : U64)
    (result : Option LiveCell → Prop) (c : LiveCell) : Prop :=
  ∃ info, parseOrderCell c = .ok info ∧
    ∀ rpc runBasic, Documented rpc runBasic → rpc.codeHash opticrumContractName = codeHash →
      rpc.Live c → ∀ address channel,
        MeetsOrder rpc c { info with fiberAddress := address } matchArgs.channelOutpoint channel →
          Passes rpc runBasic []
            (.ok (matchOrder seller { info with fiberAddress := address } matchArgs)) c
            (Leaves block result)

theorem Matched.mono {codeHash : Byte32} {seller : Address} {matchArgs : MatchArgs} {block : U64}
    {P Q : Option LiveCell → Prop} {c : LiveCell} (hPQ : ∀ s, P s → Q s)
    (h : Matched codeHash seller matchArgs block P c) :
    Matched codeHash seller matchArgs block Q c := by
  obtain ⟨info, hparsed, hpasses⟩ := h
  refine ⟨info, hparsed, fun rpc runBasic doc hcode hlive address channel hmeets => ?_⟩
  exact (hpasses rpc runBasic doc hcode hlive address channel hmeets).mono fun _ => Leaves.mono hPQ

/-- An order for capacity: it holds no tokens and asks for none.  An amount in its data would
take the demand for capacity away. -/
structure CkbOrder (codeHash : Byte32) (c : LiveCell) (a : OrderArgs) (d : OrderData) :
    Prop where
  lock : isOpticrumLock codeHash c.lock = true
  plain : c.type_ = none
  decodes : IsOrder c.toCell a d
  amount : d.xudtAmount = 0

/-- The parties of a match differ, and neither is the match itself.  The script does not ask for
any of this; with parties that are one, a match can be neither extracted from nor updated. -/
structure PartiesApart (codeHash : Byte32) (a : MatchArgs) : Prop where
  parties : a.orderArgs.buyerLockHash ≠ a.sellerLockHash
  notBuyer : calcScriptHash (opticrumLock codeHash a.toBytes.toList) ≠ a.orderArgs.buyerLockHash
  notSeller : calcScriptHash (opticrumLock codeHash a.toBytes.toList) ≠ a.sellerLockHash

variable {codeHash : Byte32} {seller buyer : Address} {a : OrderArgs} {d : OrderData}
  {c : LiveCell}

/-! ### Creation -/

omit [ScriptHash] in
/-- The order holds the rent capacity on top of what it occupies. -/
theorem DocumentedCapacity.createOrder_capacity {rpc : RPC}
    {runBasic : BasicOperation → TransactionSkeleton → Outcome String TransactionSkeleton}
    (doc : DocumentedCapacity rpc runBasic) {rentCapacity : U64} {fiberAddress : Option String}
    {sk sk' : TransactionSkeleton} {o : Cell}
    (h : runInstruction rpc runBasic (createOrder buyer a d rentCapacity none fiberAddress) sk =
      .ok sk')
    (ho : sk'.outputs = sk.outputs ++ [o]) (hfits : o.occupied + rentCapacity.toNat < 2 ^ 64) :
    o.capacity.toNat = o.occupied + rentCapacity.toNat := by
  simp only [createOrder, runInstruction_append_eq_ok_iff, runInstruction_cons_eq_ok_iff,
    runInstruction_nil_eq_ok_iff] at h
  obtain ⟨sk₃, ⟨sk₂, ⟨sk₁, h₁, sk₂', h₂, rfl⟩, sk₃', h₃, rfl⟩, h₄⟩ := h
  obtain ⟨contract, deps, -, -, h₁⟩ := doc.addOpticrumContractCelldep h₁
  obtain ⟨party, -, -, h₂⟩ := doc.addInputCellByAddress h₂
  rw [h₁] at h₂
  -- the inputs and the witness come before and after, and touch no output
  have hbefore : sk₂'.outputs = sk.outputs := by rw [h₂]
  have hafter : sk'.outputs = sk₃'.outputs := by
    cases fiberAddress with
    | none => rw [runInstruction_nil_eq_ok_iff.mp h₄]
    | some address =>
        obtain rfl := Except.ok.inj (runInstruction_singleton_eq_ok_iff.mp h₄)
        rfl
  refine doc.onTop h₃ ?_ hfits
  rw [hbefore, ← ho, hafter]

omit [ScriptHash] in
theorem CkbOrder.fits (h : CkbOrder codeHash c a d) : c.occupied < 2 ^ 64 := by
  rw [h.decodes.occupied_eq, h.plain]
  decide

omit [ScriptHash] in
theorem CkbOrder.occupied_eq (h : CkbOrder codeHash c a d) : c.occupied = oneCkb * 138 := by
  rw [h.decodes.occupied_eq, h.plain]
  rfl

/-- What `create_order` stores of the data it is given: no tokens. -/
def OrderData.forCapacity (d : OrderData) : OrderData := { d with xudtAmount := 0 }

omit [ScriptHash] in
/-- **Creation.**  The cell is an order for capacity with the args and data asked for,
and its pool is the rent capacity. -/
theorem created (buyer : Address) (a : OrderArgs) (d : OrderData) {rentCapacity : U64}
    (fiberAddress : Option String) (block : U64)
    (hcapacity : oneCkb * 206 + rentCapacity.toNat < 2 ^ 64) :
    Created codeHash buyer a d rentCapacity fiberAddress block fun c =>
      CkbOrder codeHash c a d.forCapacity ∧
        c.capacity.toNat = oneCkb * 138 + rentCapacity.toNat := by
  intro rpc runBasic doc hcode sk sk' hrun
  obtain ⟨party, deps, o, -, hlock, htype, hdata, hdraft⟩ := doc.createOrder_draft hrun
  have houtputs : sk'.outputs = sk.outputs ++ [o] := by rw [hdraft]
  refine ⟨o, houtputs, ?_⟩
  rintro c rfl -
  have horder : CkbOrder codeHash c a d.forCapacity :=
    ⟨by rw [hlock, hcode]; exact isOpticrumLock_opticrumLock _ _, htype,
      isOrder_of_toBytes (by rw [hlock]) hdata, rfl⟩
  have hoccupied := horder.occupied_eq
  refine ⟨horder, ?_⟩
  rw [← hoccupied]
  refine doc.createOrder_capacity hrun houtputs ?_
  rw [hoccupied]
  omega

/-! ### Before the match -/

omit [ScriptHash] in
/-- An order for capacity is read as what it is. -/
theorem CkbOrder.exists_info (h : CkbOrder codeHash c a d) :
    ∃ info, OrderInfoOf c info ∧ info.fiberAddress = none ∧ info.orderArgs = a ∧
      info.orderData = d := by
  have hlt : c.unoccupied < 2 ^ 64 := lt_of_le_of_lt (Nat.sub_le _ _) c.capacity.isLt
  exact ⟨⟨a, d, c.type_.map fun typeScript => ⟨d.xudtAmount, typeScript⟩,
    BitVec.ofNat 64 c.unoccupied, OutPoint.unpacked c.outPoint, none⟩,
    ⟨h.decodes, h.fits, toNat_ofNat_of_lt hlt, rfl, rfl⟩, rfl, rfl, rfl⟩

omit [ScriptHash] in
/-- So the reader shows the args and data of the order. -/
theorem CkbOrder.parsed (h : CkbOrder codeHash c a d) :
    ∃ info, parseOrderCell c = .ok info ∧ info.orderArgs = a ∧ info.orderData = d := by
  obtain ⟨info, hinfo, hnone, hargs, hdata⟩ := h.exists_info
  exact ⟨info, parseOrderCell_eq_ok_iff.mpr ⟨hinfo, hnone⟩, hargs, hdata⟩

omit [ScriptHash] in
/-- Where it is live, it can be built on, whatever address was fetched for it. -/
theorem CkbOrder.liveOrder {rpc : RPC} {info : OrderInfo}
    (h : CkbOrder (rpc.codeHash opticrumContractName) c info.orderArgs info.orderData)
    (hlive : rpc.Live c) (hinfo : OrderInfoOf c info) (address : Option String) :
    LiveOrder rpc c { info with fiberAddress := address } where
  live := hlive
  lock := h.lock
  plain := h.plain
  parsed := parseOrderCell_eq_ok_iff.mpr
    ⟨⟨hinfo.decodes, hinfo.fits, hinfo.capacity, hinfo.xudt, hinfo.outpoint⟩, rfl⟩
  amount := h.amount

/-- An order for capacity can be cancelled. -/
theorem CkbOrder.cancelled (h : CkbOrder codeHash c a d)
    (hbuyer : ActsFor codeHash buyer a.buyerLockHash) : Cancelled codeHash buyer c := by
  obtain ⟨info, hinfo, hnone, rfl, rfl⟩ := h.exists_info
  refine ⟨info, parseOrderCell_eq_ok_iff.mpr ⟨hinfo, hnone⟩,
    fun rpc runBasic doc hcode hlive address => ?_⟩
  subst hcode
  exact (h.liveOrder hlive hinfo address).cancel_passes doc hbuyer

/-- A match leaves the order under the lock and with the data of the match. -/
theorem LiveOrder.match_copies {rpc : RPC}
    {runBasic : BasicOperation → TransactionSkeleton → Outcome String TransactionSkeleton}
    {info : OrderInfo} (h : LiveOrder rpc c info) (doc : Documented rpc runBasic)
    {matchArgs : MatchArgs} {channel : LiveCell} (hargs : info.orderArgs = matchArgs.orderArgs)
    (hseller : ActsFor (rpc.codeHash opticrumContractName) seller matchArgs.sellerLockHash)
    (hchannel : MeetsOrder rpc c info matchArgs.channelOutpoint channel)
    (hcapacity : c.capacity.toNat + orderToMatchCapacityReserve.toNat < 2 ^ 64) :
    Passes rpc runBasic [] (.ok (matchOrder seller info matchArgs)) c
      (fun o? => (∃ o, o? = some o ∧ o.unoccupied = c.unoccupied) ∧
        ∃ o, o? = some o ∧ CopyOf c.toCell (.add orderToMatchCapacityReserve)
          (opticrumLock (rpc.codeHash opticrumContractName) matchArgs.toBytes.toList)
          (MatchData.new 0 info.orderData.shannonsPerBlock).toBytes.toList o) := by
  refine (h.match_passes doc hargs hseller hchannel hcapacity).and
    fun operations sk tx hops hrun hc => ?_
  obtain rfl := Except.ok.inj hops
  obtain ⟨contract, deps, headers, party, o, -, -, -, -, -, hcopy, hdraft⟩ :=
    doc.matchOrder_draft h.liveCell hchannel.live h.xudt hrun
  refine ⟨o, ?_, hcopy⟩
  rw [hc.opticrumOutput?_eq, hdraft]
  simp [opticrumOutput?, hcopy.lock, isOpticrumLock]

/-- What the match of an order for capacity leaves in the block: a match under the args
given, without tokens, with the pool of the order and no extraction behind it.  Nothing is
said of its parties, which may be one. -/
structure HandedOver (codeHash : Byte32) (order : LiveCell) (d : OrderData) (a : MatchArgs)
    (block : U64) (c : LiveCell) : Prop where
  lock : c.lock = opticrumLock codeHash a.toBytes.toList
  plain : c.type_ = none
  decodes : IsMatch c.toCell a (MatchData.new 0 d.shannonsPerBlock)
  canonical : c.data.length = matchDataLen
  pool : c.unoccupied = order.unoccupied
  committed : c.header.number = block

section HandedOver

variable {order : LiveCell} {matchArgs : MatchArgs} {block : U64}

omit [ScriptHash] in
theorem HandedOver.fits (h : HandedOver codeHash order d matchArgs block c) :
    c.occupied < 2 ^ 64 := by
  rw [h.decodes.occupied_eq h.canonical, h.plain]
  decide

omit [ScriptHash] in
theorem HandedOver.valueOf_eq (h : HandedOver codeHash order d matchArgs block c) :
    valueOf c.toCell = order.unoccupied :=
  (valueOf_of_type_none h.decodes h.plain).trans h.pool

omit [ScriptHash] in
theorem HandedOver.rentBase_eq (h : HandedOver codeHash order d matchArgs block c) :
    rentBase c (MatchData.new 0 d.shannonsPerBlock) = block.toNat := by
  rw [rentBase_of_eq_zero rfl, LiveCell.block, h.committed]

omit [ScriptHash] in
/-- Its rent accrues from the block it was committed in. -/
theorem HandedOver.rentAt_eq (h : HandedOver codeHash order d matchArgs block c) (tip : ℕ) :
    rentAt c (MatchData.new 0 d.shannonsPerBlock) tip =
      d.shannonsPerBlock.toNat * (tip - block.toNat) := by
  rw [rentAt, h.rentBase_eq]
  rfl

/-- When its parties are apart, it is a match for capacity. -/
theorem HandedOver.ckbMatch (h : HandedOver codeHash order d matchArgs block c)
    (hapart : PartiesApart codeHash matchArgs) :
    CkbMatch codeHash c matchArgs (MatchData.new 0 d.shannonsPerBlock) where
  lock := by rw [h.lock]; exact isOpticrumLock_opticrumLock _ _
  plain := h.plain
  decodes := h.decodes
  canonical := h.canonical
  parties := hapart.parties
  notBuyer := by rw [h.lock]; exact hapart.notBuyer
  notSeller := by rw [h.lock]; exact hapart.notSeller

omit [ScriptHash] in
theorem HandedOver.tenancyOf_eq (h : HandedOver codeHash order d matchArgs block c) :
    tenancyOf c (MatchData.new 0 d.shannonsPerBlock) =
      ⟨d.shannonsPerBlock.toNat, order.unoccupied, block.toNat, false⟩ := by
  rw [tenancyOf, h.rentBase_eq, h.pool]
  rfl

end HandedOver

/-- An order for capacity is handed over to its match, whoever the seller is. -/
theorem CkbOrder.handsOver (h : CkbOrder codeHash c a d) {matchArgs : MatchArgs}
    (hargs : matchArgs.orderArgs = a)
    (hseller : ActsFor codeHash seller matchArgs.sellerLockHash)
    (hcapacity : c.capacity.toNat + orderToMatchCapacityReserve.toNat < 2 ^ 64) (block : U64) :
    Matched codeHash seller matchArgs block
      (fun s => ∃ c', s = some c' ∧ HandedOver codeHash c d matchArgs block c') c := by
  obtain ⟨info, hinfo, hnone, rfl, rfl⟩ := h.exists_info
  refine ⟨info, parseOrderCell_eq_ok_iff.mpr ⟨hinfo, hnone⟩,
    fun rpc runBasic doc hcode hlive address channel hmeets => ?_⟩
  subst hcode
  have horder := h.liveOrder hlive hinfo address
  refine (horder.match_copies doc hargs.symm hseller hmeets hcapacity).mono ?_
  rintro o? ⟨⟨o, rfl, hpool⟩, o', ho', hcopy⟩ c' rfl hblock
  obtain rfl := Option.some.inj ho'
  exact ⟨c', rfl, {
    lock := hcopy.lock
    plain := hcopy.type_.trans h.plain
    decodes := isMatch_of_toBytes (by rw [hcopy.lock]; rfl) hcopy.data
    canonical := by rw [hcopy.data, Vector.length_toList]
    pool := hpool
    committed := hblock }⟩

/-- An order for capacity is matched into a match for capacity: the pool is handed over,
and rent accrues from the block of the match. -/
theorem CkbOrder.matched (h : CkbOrder codeHash c a d) {matchArgs : MatchArgs}
    (hargs : matchArgs.orderArgs = a) (hapart : PartiesApart codeHash matchArgs)
    (hseller : ActsFor codeHash seller matchArgs.sellerLockHash)
    (hcapacity : c.capacity.toNat + orderToMatchCapacityReserve.toNat < 2 ^ 64) (block : U64) :
    Matched codeHash seller matchArgs block
      (Embodies codeHash matchArgs
        (some ⟨d.shannonsPerBlock.toNat, c.unoccupied, block.toNat, false⟩)) c := by
  refine (h.handsOver hargs hseller hcapacity block).mono ?_
  rintro s ⟨c', rfl, hover⟩
  exact ⟨_, hover.ckbMatch hapart, hover.tenancyOf_eq⟩

/-! ### The whole life -/

/-- **An order's life.**  What is created is an order for capacity with the args and data
asked for, the amount of tokens set to zero, and is read back as that.  It can be cancelled;
matched, it has the rent capacity as its pool, and every plan possible from there is
carried out. -/
theorem order_lives {matchArgs : MatchArgs} {orderData : OrderData} {rentCapacity : U64}
    (fiberAddress : Option String) (orderBlock matchBlock : U64) {plan : List Act}
    {t : Option Tenancy} (hapart : PartiesApart codeHash matchArgs)
    (hseller : ActsFor codeHash seller matchArgs.sellerLockHash)
    (hbuyer : ActsFor codeHash buyer matchArgs.orderArgs.buyerLockHash)
    (hcapacity : oneCkb * 206 + rentCapacity.toNat < 2 ^ 64)
    (hplan : plan.foldlM Tenancy.step
      (some ⟨orderData.shannonsPerBlock.toNat, rentCapacity.toNat, matchBlock.toNat, false⟩) =
        some t) :
    Created codeHash buyer matchArgs.orderArgs orderData rentCapacity fiberAddress orderBlock
      fun c => CkbOrder codeHash c matchArgs.orderArgs orderData.forCapacity ∧
        (∃ info, parseOrderCell c = .ok info ∧ info.orderArgs = matchArgs.orderArgs ∧
          info.orderData = orderData.forCapacity) ∧
        Cancelled codeHash buyer c ∧
        Matched codeHash seller matchArgs matchBlock
          (Along (Act.Performed codeHash seller buyer) plan (Embodies codeHash matchArgs t)) c := by
  intro rpc runBasic doc hcode sk sk' hrun
  obtain ⟨o, houtputs, hresult⟩ :=
    created buyer matchArgs.orderArgs orderData fiberAddress orderBlock hcapacity rpc runBasic doc
      hcode sk sk' hrun
  refine ⟨o, houtputs, fun c hc hblock => ?_⟩
  obtain ⟨horder, hheld⟩ := hresult c hc hblock
  -- the reserve is what a match occupies more than an order
  have hreserve : orderToMatchCapacityReserve.toNat = oneCkb * 68 := by decide
  have hpool : c.unoccupied = rentCapacity.toNat := by
    rw [Cell.unoccupied, hheld, horder.occupied_eq, Nat.add_sub_cancel_left]
  refine ⟨horder, horder.parsed, horder.cancelled hbuyer, ?_⟩
  refine (horder.matched rfl hapart hseller (by omega) matchBlock).mono ?_
  intro s hs
  rw [hpool] at hs
  refine along_of_foldlM ?_ (fun _ _ => performed_of_step hseller hbuyer) hplan hs
  intro act P Q s' hPQ hP
  exact hP.mono hPQ

end Life

/-! ## In the market -/

namespace Market

theorem partiesApart_matchArgs : PartiesApart codeHash matchArgs :=
  ⟨sellerLockHash_ne_buyerLockHash.symm, calcScriptHash_matchLock_ne.2,
    calcScriptHash_matchLock_ne.1⟩

/-- An order with 100000 shannons for rent, created in block 500 with a stale amount of
tokens and an address: matched in block 1000, it goes through the lease and is closed. -/
theorem leased_order :
    Created codeHash ⟨buyerLock⟩ matchArgs.orderArgs ⟨7, 100000000000, 3⟩ 100000
        (some "/dns4/node") 500
      fun c => CkbOrder codeHash c matchArgs.orderArgs ⟨0, 100000000000, 3⟩ ∧
        (∃ info, parseOrderCell c = .ok info ∧ info.orderArgs = matchArgs.orderArgs ∧
          info.orderData = ⟨0, 100000000000, 3⟩) ∧
        Cancelled codeHash ⟨buyerLock⟩ c ∧
        Matched codeHash ⟨sellerLock⟩ matchArgs 1000
          (Along (Act.Performed codeHash ⟨sellerLock⟩ ⟨buyerLock⟩) lease
            (Embodies codeHash matchArgs none)) c := by
  have hplan : lease.foldlM Tenancy.step (some ⟨(3 : U64).toNat, (100000 : U64).toNat,
      (1000 : U64).toNat, false⟩) = some none := by decide
  exact order_lives _ 500 1000 partiesApart_matchArgs actsFor_seller actsFor_buyer (by decide) hplan

end Market

end Opticrum
