import Opticrum.Calculator.Instruction

/-!
# Drafts

One lemma for each builder: what the transaction looks like after the operations
of the instruction have run on a new skeleton.  They hold for every framework
that does what is documented, and are all that is used of the builders later.

The lemmas about cells that are consumed are for cells without a type script.

## What is left open

A draft lemma names the inputs, the outputs, the deps and the headers, each up to what the
framework may choose: the cells that are picked for an address are some `party` with
`PartyCells`, and a dep that was there already may be repeated or not.  An output that is copied
is described by `CopyOf`, whose capacity is determined only while the adjustment stays in
range.
-/

namespace Opticrum

open Rust Ckb

/-- Cells that were picked for an address. -/
structure PartyCells (address : Address) (party : List LiveCell) : Prop where
  nonempty : party ≠ []
  lock : ∀ p ∈ party, p.lock = address.script

/-- `o` is the cell `c` under another lock, with other data and an adjusted
capacity. -/
structure CopyOf (c : Cell) (adjust : CapacityAdjustment) (lock : Script) (data : Bytes)
    (o : Cell) : Prop where
  lock : o.lock = lock
  type_ : o.type_ = c.type_
  data : o.data = data
  capacity : adjust.Adjusts c.capacity o.capacity

theorem copyOf_copiedOutput {rpc : RPC} {c : Cell} {adjust : CapacityAdjustment}
    {lockScript : Option ScriptEx} {lock : Script} {data : Bytes} {capacity : U64}
    (hlock : lockScript.elim c.lock (ScriptEx.toScript rpc) = lock)
    (hcapacity : adjust.Adjusts c.capacity capacity) :
    CopyOf c adjust lock data (copiedOutput rpc c (some data) lockScript none capacity) :=
  ⟨hlock, rfl, rfl, hcapacity⟩

section Draft

variable {rpc : RPC}
  {runBasic : BasicOperation → TransactionSkeleton → Outcome String TransactionSkeleton}
  {sk sk' : TransactionSkeleton} {c : LiveCell}

theorem Documented.inputAt_draft (doc : Documented rpc runBasic) {p : OutPoint}
    (hc : rpc.liveCell p.packed = some c) (hnew : c ∉ sk.inputs)
    (h : (inputAt p).run rpc runBasic sk = .ok sk') :
    sk'.toTransaction = { sk.toTransaction with inputs := sk.inputs ++ [c] } := by
  obtain ⟨c', hc', hadd⟩ := doc.addInputCellByOutPoint h
  obtain rfl : c = c' := Option.some.inj (hc.symm.trans hc')
  exact hadd hnew

/-- Every instruction starts by looking up the deployment. -/
theorem Documented.contract_draft (doc : Documented rpc runBasic)
    (h : Operation.addOpticrumContractCelldep.run rpc runBasic .new = .ok sk') :
    ∃ contract, rpc.Live contract ∧ sk'.toTransaction = ⟨[], [], [.code contract], []⟩ := by
  obtain ⟨contract, deps, hlive, hdeps, h⟩ := doc.addOpticrumContractCelldep h
  obtain rfl := hdeps.of_nil
  exact ⟨contract, hlive, h⟩

/-- The draft of an order, on any skeleton: the buyer's cells are inputs, and the order is
the next output. -/
theorem DocumentedOutputs.createOrder_draft (doc : DocumentedOutputs rpc runBasic)
    {buyer : Address} {orderArgs : OrderArgs} {orderData : OrderData} {rentCapacity : U64}
    {xudtTypeScript : Option Script} {fiberAddress : Option String}
    (h : runInstruction rpc runBasic
      (createOrder buyer orderArgs orderData rentCapacity xudtTypeScript fiberAddress) sk =
        .ok sk') :
    ∃ party deps o, PartyCells buyer party ∧
      o.lock = ⟨rpc.codeHash opticrumContractName, .type, orderArgs.toBytes.toList⟩ ∧
      o.type_ = xudtTypeScript ∧
      o.data = (OrderData.toBytes { orderData with
        xudtAmount := if xudtTypeScript.isSome then orderData.xudtAmount else 0 }).toList ∧
      sk'.toTransaction = { sk.toTransaction with
        inputs := sk.inputs ++ party, outputs := sk.outputs ++ [o], cellDeps := deps } := by
  simp only [createOrder, runInstruction_append_eq_ok_iff, runInstruction_cons_eq_ok_iff,
    runInstruction_nil_eq_ok_iff] at h
  obtain ⟨sk₃, ⟨sk₂, ⟨sk₁, h₁, sk₂', h₂, rfl⟩, h₃⟩, h₄⟩ := h
  obtain ⟨contract, deps, -, -, h₁⟩ := doc.addOpticrumContractCelldep h₁
  obtain ⟨party, hne, hlock, h₂⟩ := doc.addInputCellByAddress h₂
  rw [h₁] at h₂
  -- the output, with the deps of the token when there is one
  obtain ⟨deps', held, h₃⟩ : ∃ deps' held, sk₃.toTransaction = { sk.toTransaction with
      inputs := sk.inputs ++ party
      outputs := sk.outputs ++ [⟨held,
        ⟨rpc.codeHash opticrumContractName, .type, orderArgs.toBytes.toList⟩, xudtTypeScript,
        (OrderData.toBytes { orderData with
          xudtAmount := if xudtTypeScript.isSome then orderData.xudtAmount else 0 }).toList⟩]
      cellDeps := deps' } := by
    cases xudtTypeScript with
    | none =>
        obtain ⟨held, h₃⟩ := doc.addOutputCell (runInstruction_singleton_eq_ok_iff.mp h₃)
        rw [h₂] at h₃
        exact ⟨_, held, h₃⟩
    | some typeScript =>
        simp only [runInstruction_cons_eq_ok_iff, runInstruction_nil_eq_ok_iff] at h₃
        obtain ⟨sk₃', h₃, sk₃'', h₃', rfl⟩ := h₃
        obtain ⟨deps', h₃⟩ := doc.addXudtCelldep h₃
        obtain ⟨held, h₃'⟩ := doc.addOutputCell h₃'
        rw [h₃, h₂] at h₃'
        exact ⟨deps', held, h₃'⟩
  -- writing the witness changes nothing else
  have h₄ : sk'.toTransaction = sk₃.toTransaction := by
    cases fiberAddress with
    | none =>
        rw [runInstruction_nil_eq_ok_iff.mp h₄]
    | some address =>
        obtain rfl := Except.ok.inj (runInstruction_singleton_eq_ok_iff.mp h₄)
        rfl
  refine ⟨party, deps', _, ⟨hne, hlock⟩, ?_, ?_, ?_, h₄.trans h₃⟩
  all_goals dsimp only

/-- The draft of a cancellation. -/
theorem Documented.cancelOrder_draft (doc : Documented rpc runBasic) {buyer : Address}
    {info : OrderInfo} (hc : rpc.liveCell info.orderOutpoint.packed = some c)
    (hxudt : info.xudt = none)
    (h : runInstruction rpc runBasic (cancelOrder buyer info) .new = .ok sk) :
    ∃ contract party, PartyCells buyer party ∧
      sk.toTransaction = ⟨c :: party, [], [.code contract], []⟩ := by
  simp only [cancelOrder, hxudt, runInstruction_cons_eq_ok_iff,
    runInstruction_nil_eq_ok_iff] at h
  obtain ⟨sk₁, h₁, sk₂, h₂, sk₃, h₃, rfl⟩ := h
  obtain ⟨contract, -, h₁⟩ := doc.contract_draft h₁
  have h₂ := doc.inputAt_draft hc (by rw [h₁]; exact List.not_mem_nil) h₂
  obtain ⟨party, hne, hlock, h₃⟩ := doc.addInputCellByAddress h₃
  refine ⟨contract, party, ⟨hne, hlock⟩, ?_⟩
  rw [h₃, h₂, h₁]
  rfl

/-- The draft of a match: the channel is a dep, both blocks are header deps, and
the output is the order with the lock and the data of the match. -/
theorem Documented.matchOrder_draft (doc : Documented rpc runBasic) {seller : Address}
    {info : OrderInfo} {matchArgs : MatchArgs} {channel : LiveCell}
    (hc : rpc.liveCell info.orderOutpoint.packed = some c)
    (hchannel : rpc.liveCell matchArgs.channelOutpoint.packed = some channel)
    (hxudt : info.xudt = none)
    (h : runInstruction rpc runBasic (matchOrder seller info matchArgs) .new = .ok sk) :
    ∃ contract deps headers party o, PartyCells seller party ∧ rpc.Live contract ∧
      Adds [.code contract] (.code channel) deps ∧ channel.header ∈ headers ∧
      c.header ∈ headers ∧
      CopyOf c.toCell (.add orderToMatchCapacityReserve)
        ⟨rpc.codeHash opticrumContractName, .type, matchArgs.toBytes.toList⟩
        (MatchData.new 0 info.orderData.shannonsPerBlock).toBytes.toList o ∧
      sk.toTransaction = ⟨c :: party, [o], deps, headers⟩ := by
  simp only [matchOrder, hxudt, runInstruction_cons_eq_ok_iff,
    runInstruction_nil_eq_ok_iff] at h
  obtain ⟨sk₁, h₁, sk₂, h₂, sk₃, h₃, sk₄, h₄, sk₅, h₅, sk₆, h₆, sk₇, h₇, rfl⟩ := h
  obtain ⟨contract, hcontract, h₁⟩ := doc.contract_draft h₁
  obtain ⟨channel', deps, hchannel', hdeps, h₂⟩ := doc.addCellDep h₂
  obtain rfl : channel = channel' := Option.some.inj (hchannel.symm.trans hchannel')
  rw [h₁] at hdeps h₂
  obtain ⟨headers₁, hheaders₁, h₃⟩ := doc.addHeaderDepByCellDepIndex h₃
    (by rw [h₂, entryAt_usizeMax]; exact hdeps.getLast?_of_singleton)
  rw [h₂] at hheaders₁ h₃
  have h₄ := doc.inputAt_draft hc (by rw [h₃]; exact List.not_mem_nil) h₄
  rw [h₃] at h₄
  obtain ⟨headers, hheaders, h₅⟩ := doc.addHeaderDepByInputIndex h₅
    (by rw [h₄, entryAt_usizeMax]; rfl : entryAt sk₄.inputs usizeMax = some c)
  rw [h₄] at hheaders h₅
  obtain ⟨party, hne, hlock, h₆⟩ := doc.addInputCellByAddress h₆
  rw [h₅] at h₆
  obtain ⟨capacity, hcapacity, h₇⟩ := doc.addOutputCellByInputIndex h₇
    (by rw [h₆, entryAt_zero]; rfl : entryAt sk₆.inputs 0 = some c)
  rw [h₆] at h₇
  exact ⟨contract, deps, headers, party, _, ⟨hne, hlock⟩, hcontract, hdeps,
    hheaders.mem_of_mem hheaders₁.mem, hheaders.mem, copyOf_copiedOutput rfl hcapacity, h₇⟩

/-- The draft of an update: the output is the match with other data and capacity. -/
theorem Documented.updateMatchBuyer_draft (doc : Documented rpc runBasic) {ε : Type}
    {buyer : Address} {info : MatchInfo} {newXudtAmount : U128} {delta : I64}
    {operations : Instruction} (hc : rpc.liveCell info.matchOutpoint.packed = some c)
    (hops : (updateMatchBuyer buyer info newXudtAmount delta : Outcome ε _) = .ok operations)
    (h : runInstruction rpc runBasic operations .new = .ok sk) :
    ∃ contract party adjust o, PartyCells buyer party ∧
      (adjustBy delta : Outcome ε _) = .ok adjust ∧
      CopyOf c.toCell adjust c.lock
        (MatchData.toBytes { info.matchData with xudtAmount := newXudtAmount }).toList o ∧
      sk.toTransaction = ⟨c :: party, [o], [.code contract], []⟩ := by
  obtain ⟨adjust, hadjust, hops⟩ := Outcome.bind_eq_ok_iff.mp hops
  obtain rfl := Except.ok.inj hops
  simp only [runInstruction_cons_eq_ok_iff, runInstruction_nil_eq_ok_iff] at h
  obtain ⟨sk₁, h₁, sk₂, h₂, sk₃, h₃, sk₄, h₄, rfl⟩ := h
  obtain ⟨contract, -, h₁⟩ := doc.contract_draft h₁
  have h₂ := doc.inputAt_draft hc (by rw [h₁]; exact List.not_mem_nil) h₂
  rw [h₁] at h₂
  obtain ⟨party, hne, hlock, h₃⟩ := doc.addInputCellByAddress h₃
  rw [h₂] at h₃
  obtain ⟨capacity, hcapacity, h₄⟩ := doc.addOutputCellByInputIndex h₄
    (by rw [h₃, entryAt_zero]; rfl : entryAt sk₃.inputs 0 = some c)
  rw [h₃] at h₄
  exact ⟨contract, party, adjust, _, ⟨hne, hlock⟩, hadjust, copyOf_copiedOutput rfl hcapacity, h₄⟩

/-- The draft of a sweep: the tip comes first among the headers, the block of the
cell is there when the clock is not stored, and the output is the seller's. -/
theorem Documented.destroyMatch_draft (doc : Documented rpc runBasic) {seller : Address}
    {info : MatchInfo} {tip : U64} (hc : rpc.liveCell info.matchOutpoint.packed = some c)
    (hblock : info.matchCurrentBlock = c.header.number) (hxudt : info.xudt = none)
    (h : runInstruction rpc runBasic (destroyMatch seller info tip) .new = .ok sk) :
    ∃ contract party tipHeader headers o, PartyCells seller party ∧
      tipHeader.number = tip ∧ headers[0]? = some tipHeader ∧
      (info.matchData.lastExtractionBlock = 0 → c.header ∈ headers) ∧
      CopyOf c.toCell .keep seller.script [] o ∧
      sk.toTransaction = ⟨c :: party, [o], [.code contract], headers⟩ := by
  simp only [destroyMatch, hxudt, runInstruction_append_eq_ok_iff, runInstruction_cons_eq_ok_iff,
    runInstruction_nil_eq_ok_iff] at h
  obtain ⟨sk₅, ⟨sk₄, ⟨sk₁, h₁, sk₂, h₂, sk₃, h₃, sk₄', h₄, rfl⟩, h₅⟩, sk₆, h₆, rfl⟩ := h
  obtain ⟨contract, -, h₁⟩ := doc.contract_draft h₁
  obtain ⟨tipHeader, headers₂, htip, hheaders₂, h₂⟩ := doc.addHeaderDepByBlockNumber h₂
  rw [h₁] at hheaders₂ h₂
  obtain rfl := hheaders₂.of_nil
  have h₃ := doc.inputAt_draft hc (by rw [h₂]; exact List.not_mem_nil) h₃
  rw [h₂] at h₃
  obtain ⟨party, hne, hlock, h₄⟩ := doc.addInputCellByAddress h₄
  rw [h₃] at h₄
  -- the block of the cell is added when the clock is not stored
  obtain ⟨headers, hfirst, hcreation, h₅⟩ : ∃ headers, headers[0]? = some tipHeader ∧
      (info.matchData.lastExtractionBlock = 0 → c.header ∈ headers) ∧
      sk₅.toTransaction = ⟨c :: party, [], [.code contract], headers⟩ := by
    split at h₅
    · rw [runInstruction_singleton_eq_ok_iff] at h₅
      obtain ⟨header, headers, hheader, hheaders, h₅⟩ := doc.addHeaderDepByBlockNumber h₅
      rw [hblock, rpc.liveCell_header hc] at hheader
      obtain rfl := Option.some.inj hheader
      rw [h₄] at hheaders h₅
      exact ⟨headers, hheaders.getElem?_zero rfl, fun _ => hheaders.mem, h₅⟩
    · next hstored =>
      rw [runInstruction_nil_eq_ok_iff] at h₅
      exact ⟨[tipHeader], rfl, fun h => absurd h hstored, h₅ ▸ h₄⟩
  obtain ⟨capacity, hcapacity, h₆⟩ := doc.addOutputCellByInputIndex h₆
    (by rw [h₅, entryAt_zero]; rfl : entryAt sk₅.inputs 0 = some c)
  rw [h₅] at h₆
  exact ⟨contract, party, tipHeader, headers, _, ⟨hne, hlock⟩, rpc.header_number htip,
    hfirst, hcreation, copyOf_copiedOutput rfl hcapacity, h₆⟩

/-- The draft of an extraction. -/
theorem Documented.extractRent_draft (doc : Documented rpc runBasic) {ε : Type}
    {seller : Address} {info : MatchInfo} {tip : U64} {operations : Instruction}
    (hc : rpc.liveCell info.matchOutpoint.packed = some c) (hforeign : c.lock ≠ seller.script)
    (hxudt : info.xudt = none) (halive : (info.isExhausted tip : Outcome ε _) = .ok false)
    (hops : (extractRent seller info tip : Outcome ε _) = .ok operations)
    (h : runInstruction rpc runBasic operations .new = .ok sk) :
    ∃ contract channel deps party rent tipHeader headers o, PartyCells seller party ∧
      rpc.liveCell info.matchArgs.channelOutpoint.packed = some channel ∧
      Adds [.code contract] (.code channel) deps ∧
      tipHeader.number = tip ∧ headers[0]? = some tipHeader ∧
      (info.matchData.lastExtractionBlock = 0 → c.header ∈ headers) ∧
      (info.extractionAmount tip : Outcome ε _) = .ok rent ∧
      CopyOf c.toCell (.subtract rent) c.lock (MatchData.toBytes
        { info.matchData with lastExtractionBlock := tip, xudtAmount := 0 }).toList o ∧
      sk.toTransaction = ⟨party ++ [c], [o], deps, headers⟩ := by
  simp only [extractRent, halive, Outcome.ok_bind, Bool.false_eq_true, if_false, hxudt] at hops
  obtain ⟨rent, hrent, hops⟩ := Outcome.bind_eq_ok_iff.mp hops
  obtain rfl := Except.ok.inj hops
  simp only [runInstruction_append_eq_ok_iff, runInstruction_cons_eq_ok_iff,
    runInstruction_nil_eq_ok_iff] at h
  obtain ⟨sk₆, ⟨sk₅, ⟨sk₁, h₁, sk₂, h₂, sk₃, h₃, sk₄, h₄, sk₅', h₅, rfl⟩, h₆⟩, sk₇, h₇, rfl⟩ := h
  obtain ⟨contract, -, h₁⟩ := doc.contract_draft h₁
  obtain ⟨channel, deps, hchannel, hdeps, h₂⟩ := doc.addCellDep h₂
  rw [h₁] at hdeps h₂
  obtain ⟨tipHeader, headers₃, htip, hheaders₃, h₃⟩ := doc.addHeaderDepByBlockNumber h₃
  rw [h₂] at hheaders₃ h₃
  obtain rfl := hheaders₃.of_nil
  obtain ⟨party, hne, hlock, h₄⟩ := doc.addInputCellByAddress h₄
  rw [h₃] at h₄
  have h₅ := doc.inputAt_draft hc (by
    rw [h₄]
    intro hmem
    exact hforeign (hlock c (by simpa using hmem))) h₅
  rw [h₄] at h₅
  -- the block of the cell is added when the clock is not stored
  obtain ⟨headers, hfirst, hcreation, h₆⟩ : ∃ headers, headers[0]? = some tipHeader ∧
      (info.matchData.lastExtractionBlock = 0 → c.header ∈ headers) ∧
      sk₆.toTransaction = ⟨party ++ [c], [], deps, headers⟩ := by
    split at h₆
    · rw [runInstruction_singleton_eq_ok_iff] at h₆
      obtain ⟨headers, hheaders, h₆⟩ := doc.addHeaderDepByInputIndex h₆
        (by rw [h₅, entryAt_usizeMax]; exact List.getLast?_concat :
          entryAt sk₅'.inputs usizeMax = some c)
      rw [h₅] at hheaders h₆
      exact ⟨headers, hheaders.getElem?_zero rfl, fun _ => hheaders.mem, h₆⟩
    · next hstored =>
      rw [runInstruction_nil_eq_ok_iff] at h₆
      exact ⟨[tipHeader], rfl, fun h => absurd h hstored, h₆ ▸ h₅⟩
  obtain ⟨capacity, hcapacity, h₇⟩ := doc.addOutputCellByInputIndex h₇
    (by rw [h₆, entryAt_usizeMax]; exact List.getLast?_concat :
      entryAt sk₆.inputs usizeMax = some c)
  rw [h₆] at h₇
  exact ⟨contract, channel, deps, party, rent, tipHeader, headers, _, ⟨hne, hlock⟩, hchannel,
    hdeps, rpc.header_number htip, hfirst, hcreation, hrent, copyOf_copiedOutput rfl hcapacity, h₇⟩

end Draft

end Opticrum
