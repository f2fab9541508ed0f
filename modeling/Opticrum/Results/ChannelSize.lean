import Opticrum.Results.Channel

/-!
# The size of the channel

An order demands a channel of a certain size: in capacity, or in tokens.  Which of
the two it means follows from the type script of the order everywhere but in
`order_match`, which goes by the amount of tokens in the order's data.  A positive
amount in the data of an order without a type script switches the test of the
capacity off.

The cell deps are `Code` entries throughout this module, so that the cell that is
inspected is the channel the match names.

## The condition

`MeetsDemand` is the demand as the order makes it, by its type script.  An order with a type
script has both its token type and its amount checked.  One without, and with the amount zero,
has its capacity checked.  What is left is an amount without a type script: then a channel with
the amount as plain data is enough.

Even that channel holds something, as a live cell pays for its bytes; the least a cell with
sixteen bytes of data can hold is `leastTokenCapacity`.  Demands up to there are met by any
channel, and for each larger one `matching` is accepted with a channel that falls short.
-/

namespace Opticrum

open Rust Ckb Expansion

/-! ## What the checks come to -/

/-- The checks on a channel cell, as one conjunction. -/
theorem channelMeets_eq_ok_true_iff {cell : Cell} {minCapacity : Option U64}
    {minXudtAmount : Option U128} {xudtTypeScript : Option (Option Script)} :
    channelMeets cell minCapacity minXudtAmount xudtTypeScript = .ok true ↔
      (isFiberFundingContract cell.lock.codeHash ∧ cell.lock.hashType = .type) ∧
        (∀ t ∈ xudtTypeScript, cell.type_ = t) ∧
        (∀ n ∈ minXudtAmount, xudtAmountLen ≤ cell.data.length ∧ n ≤ xudtAmountOf cell.data) ∧
        ∀ n ∈ minCapacity, n ≤ cell.capacity := by
  have hcapacity : minCapacity.any (cell.capacity < ·) = false ↔
      ∀ n ∈ minCapacity, n ≤ cell.capacity := by
    cases minCapacity <;> simp
  have htype : xudtTypeScript.any (cell.type_ ≠ ·) = false ↔
      ∀ t ∈ xudtTypeScript, cell.type_ = t := by
    cases xudtTypeScript <;> simp
  unfold channelMeets
  rw [← hcapacity, ← htype]
  by_cases hlock : isFiberFundingContract cell.lock.codeHash ∧ cell.lock.hashType = .type
  · rw [if_neg (not_not.mpr hlock)]
    cases xudtTypeScript.any (cell.type_ ≠ ·) with
    | true => simp
    | false =>
        cases minXudtAmount with
        | none => simp [hlock]
        | some n =>
            rcases Nat.lt_or_ge cell.data.length xudtAmountLen with hshort | hlong
            · have hnot : ¬ xudtAmountLen ≤ cell.data.length := Nat.not_le.mpr hshort
              simp [hshort, hnot]
            · have hwindow : 0 + xudtAmountLen ≤ cell.data.length := by omega
              by_cases hless : xudtAmountOf cell.data < n
              · have hnot : ¬ n ≤ xudtAmountOf cell.data := fun h => BitVec.not_lt.mpr h hless
                simp [Nat.not_lt.mpr hlong, readArray_eq_ok hwindow, u128FromLeBytes_window,
                  hless, hnot]
              · have hle : n ≤ xudtAmountOf cell.data := BitVec.not_lt.mp hless
                have hlong' : 16 ≤ cell.data.length := hlong
                simp [hlock, Nat.not_lt.mpr hlong, readArray_eq_ok hwindow,
                  u128FromLeBytes_window, hless, hle, hlong']
  · rw [if_pos hlock]
    simp [hlock]

/-! ## The channel of a plain transaction -/

/-- Every cell dep is a `Code` entry. -/
def PlainDeps (tx : Transaction) : Prop := ∀ dep ∈ tx.cellDeps, dep.dep.depType = .code

/-- `channel` is the cell of the first entry that names the channel of `ma`. -/
def FoundChannel (tx : Transaction) (ma : MatchArgs) (channel : LiveCell) : Prop :=
  ∃ i dep, tx.rawCellDeps.findIdx? (fun dep => ma.channelOutpoint.isAt dep.outPoint) = some i ∧
    tx.cellDeps[i]? = some dep ∧ dep.cells = [channel]

/-- The cell the script inspects is the one it has found. -/
theorem FoundChannel.inspected {tx : Transaction} {ma : MatchArgs} {channel : LiveCell}
    (h : FoundChannel tx ma channel) (hplain : PlainDeps tx) :
    ∃ i, tx.rawCellDeps.findIdx? (fun dep => ma.channelOutpoint.isAt dep.outPoint) = some i ∧
      tx.resolvedCellDeps[i]? = some channel := by
  obtain ⟨i, dep, hi, hdep, hcells⟩ := h
  have hsingle : ∀ dep ∈ tx.cellDeps, dep.cells.length = 1 := by
    intro dep hdep
    obtain ⟨cell, hcell, -⟩ := dep.code_cell (hplain dep hdep)
    rw [hcell, List.length_singleton]
  have hlt : i < tx.cellDeps.length := (List.getElem?_eq_some_iff.mp hdep).1
  have hitem :=
    getElem?_offset (f := ResolvedDep.cells) (k := 0) (b := channel) hdep (by simp [hcells])
  rw [offset_of_singletons hsingle hlt.le, Nat.add_zero] at hitem
  exact ⟨i, hi, hitem⟩

/-! ## The demand of an order -/

/-- `channel` is as large as an order with the data `d` and the type script `type_`
demands: in capacity for an order of CKB, in tokens for an order of tokens. -/
structure MeetsDemand (d : OrderData) (type_ : Option Script) (channel : Cell) : Prop where
  capacity : type_ = none → d.channelCapacity ≤ channel.capacity
  tokenType : ∀ s, type_ = some s → channel.type_ = some s
  tokens : ∀ s, type_ = some s → 0 < d.xudtAmount →
    xudtAmountLen ≤ channel.data.length ∧ d.xudtAmount ≤ xudtAmountOf channel.data

/-- Every accepted match of an order with the data `d` and the type script `type_`, with
plain cell deps, has found a channel as large as the order demands.  A channel is a
live cell: it holds the capacity it occupies. -/
def DemandEnforced [ScriptHash] (codeHash : Byte32) (d : OrderData) (type_ : Option Script) :
    Prop :=
  ∀ (tx : Transaction) (c : OrderCell) (ma : MatchArgs) (channel : LiveCell),
    OrderMatched codeHash tx c.toLiveCell ma → c.orderData = d → c.type_ = type_ →
      PlainDeps tx → FoundChannel tx ma channel → channel.occupied ≤ channel.capacity.toNat →
        MeetsDemand d type_ channel.toCell

/-- What the script has checked of the channel it has found. -/
theorem OrderMatched.channelMeets [ScriptHash] {codeHash : Byte32} {tx : Transaction}
    {c : OrderCell} {ma : MatchArgs} {channel : LiveCell}
    (h : OrderMatched codeHash tx c.toLiveCell ma) (hplain : PlainDeps tx)
    (hfound : FoundChannel tx ma channel) :
    channelMeets channel.toCell
      (if 0 < c.orderData.xudtAmount then none else some c.orderData.channelCapacity)
      (if 0 < c.orderData.xudtAmount then some c.orderData.xudtAmount else none)
      (c.type_.map some) = .ok true := by
  obtain ⟨i, hi, hchannel⟩ := hfound.inspected hplain
  obtain ⟨rest, hgroup⟩ := h.inspected
  obtain ⟨o, md, hout, hmatch⟩ := h.output
  have htransition := h.accepted.transition h.opticrum hgroup
  rw [hout] at htransition
  cases htransition with
  | orderMatch old new args xudt listed inspected meets =>
      obtain ⟨rfl, rfl⟩ := old.unique c.decodes
      obtain ⟨rfl, rfl⟩ := new.unique hmatch
      obtain rfl := Option.some.inj (listed.symm.trans hi)
      obtain rfl := Option.some.inj (inspected.symm.trans hchannel)
      rw [old.xudtOf_eq, Option.map_map] at meets
      exact meets
  | sellerExtract old => exact absurd c.decodes old.not_isOrder
  | buyerUpdate old => exact absurd c.decodes old.not_isOrder

/-- What the smallest cell with a token amount in its data occupies. -/
def leastTokenCapacity : ℕ := oneCkb * 57

/-- A cell with 16 bytes of data occupies at least what they, its capacity field and a bare lock
take. -/
theorem leastTokenCapacity_le {cell : Cell} (hdata : xudtAmountLen ≤ cell.data.length) :
    leastTokenCapacity ≤ cell.occupied := by
  refine Nat.mul_le_mul_left _ ?_
  have hdata' : 16 ≤ cell.data.length := hdata
  rw [Cell.occupiedBytes, Script.occupiedBytes]
  omega

/-- The kinds of orders whose demand is enforced. -/
theorem demandEnforced_of [ScriptHash] {codeHash : Byte32} {d : OrderData}
    {type_ : Option Script}
    (hcond : type_ ≠ none ∨ d.xudtAmount = 0 ∨ d.channelCapacity.toNat ≤ leastTokenCapacity) :
    DemandEnforced codeHash d type_ := by
  rintro tx c ma channel h rfl rfl hplain hfound hlive
  obtain ⟨-, htype, hamount, hcapacity⟩ := channelMeets_eq_ok_true_iff.mp
    (h.channelMeets hplain hfound)
  refine ⟨fun hnone => ?_, fun s hs => ?_, fun s hs hpos => ?_⟩
  · by_cases hpos : 0 < c.orderData.xudtAmount
    · rw [if_pos hpos] at hamount
      have hdata := (hamount _ rfl).1
      rcases hcond with hsome | hzero | hsmall
      · exact absurd hnone hsome
      · rw [hzero] at hpos
        exact absurd hpos (by decide)
      · -- the amount alone takes up as much capacity as was asked for
        exact BitVec.le_def.mpr ((hsmall.trans (leastTokenCapacity_le hdata)).trans hlive)
    · rw [if_neg hpos] at hcapacity
      exact hcapacity _ rfl
  · exact htype _ (by rw [hs]; rfl)
  · rw [if_pos hpos] at hamount
    exact hamount _ rfl

/-! ## An undersized channel -/

namespace Undersized

variable (codeHash : Byte32) (d : OrderData)

/-- A lock of the seller. -/
def sellerLock : Script := ⟨codeHash, .data, []⟩

/-- The args of the order.  Nothing in this case depends on the node or on the buyer. -/
def orderArgs : OrderArgs := ⟨⟨Vector.replicate 33 0⟩, Vector.replicate 32 1⟩

/-- The header of block 0 or 1. -/
def header (n : U64) : Header := ⟨Vector.replicate 32 0, n⟩

/-- An order of CKB with the data `d`. -/
def order : OrderCell := .of codeHash orderArgs d none 0 ⟨Vector.replicate 32 1, 0⟩ (header 0)

/-- The match names that seller, whatever the digest of his lock is. -/
def matchArgs [ScriptHash] : MatchArgs :=
  ⟨orderArgs, ⟨Vector.replicate 32 0, 0⟩, calcScriptHash (sellerLock codeHash)⟩

def matchData : MatchData := ⟨d.xudtAmount, d.shannonsPerBlock, 0⟩

/-- The match, with the empty pool of its order. -/
def matched [ScriptHash] : Cell := matchOutput codeHash (matchArgs codeHash) (matchData d) none 0

/-- A channel cell that holds nothing but the demanded amount, in its data. -/
def channel : LiveCell where
  toCell := fund ⟨0, ⟨fiberFundingTypeIdTestnet, .type, []⟩, none,
    (u128ToLeBytes d.xudtAmount).toList⟩ 0
  outPoint := ⟨Vector.replicate 32 0, 0⟩
  header := header 1

/-- The seller matches the order with that channel. -/
def matching [ScriptHash] : Transaction :=
  spend (order codeHash d).toLiveCell
    (partyCell (sellerLock codeHash) 0 ⟨Vector.replicate 32 2, 0⟩ (header 0))
    [matched codeHash d] [.code (channel d)] [header 0, header 1]

variable {codeHash d}

theorem channel_data : (channel d).data = (u128ToLeBytes d.xudtAmount).toList := by
  rw [channel, fund_data]

/-- So it occupies the least that such a cell can. -/
theorem channel_occupied : (channel d).occupied = leastTokenCapacity := by
  rw [channel, fund_occupied, Cell.occupied, Cell.occupiedBytes, Vector.length_toList]
  rfl

/-- And it holds no more than that. -/
theorem channel_capacity : (channel d).capacity.toNat = leastTokenCapacity := by
  have hoccupied : (channel d).occupied = leastTokenCapacity := channel_occupied
  rw [channel, fund_occupied] at hoccupied
  rw [channel, fund_capacity, Nat.add_zero, hoccupied]
  decide

/-- Still it meets an order that asks for tokens and has no type script: no capacity is asked
for then, and the amount is looked for in the data of a cell that may not be a token cell at
all. -/
theorem channel_meets (hpos : 0 < d.xudtAmount) :
    channelMeets (channel d).toCell
      (if 0 < d.xudtAmount then none else some d.channelCapacity)
      (if 0 < d.xudtAmount then some d.xudtAmount else none) none = .ok true := by
  rw [if_pos hpos, if_pos hpos, channelMeets_eq_ok_true_iff]
  have hamount : xudtAmountOf (channel d).data = d.xudtAmount := by
    rw [channel_data, xudtAmountOf, take_toList_self]
    exact u128FromLeBytes_u128ToLeBytes d.xudtAmount
  have hlock : (channel d).lock = ⟨fiberFundingTypeIdTestnet, .type, []⟩ := by
    rw [channel, fund_lock]
  refine ⟨?_, by simp, fun n hn => ?_, by simp⟩
  · rw [hlock]
    decide
  · obtain rfl := Option.some.inj hn
    rw [hamount, channel_data, Vector.length_toList]
    exact ⟨le_rfl, BitVec.le_refl _⟩

variable [ScriptHash]

theorem opticrumInputs_matching :
    opticrumInputs codeHash (matching codeHash d) = [(order codeHash d).toLiveCell] :=
  opticrumInputs_spend (isOpticrumLock_opticrumLock _ _)
    (by simp [isOpticrumLock, partyCell, sellerLock])

theorem opticrumOutput?_matching :
    opticrumOutput? codeHash (matching codeHash d) = some (matched codeHash d) := by
  have hlock : isOpticrumLock codeHash (matched codeHash d).lock = true :=
    isOpticrumLock_opticrumLock _ _
  simp [opticrumOutput?, matching, spend, hlock]

/-- The channel is the one cell dep, and the script finds it. -/
theorem foundChannel_matching :
    FoundChannel (matching codeHash d) (matchArgs codeHash) (channel d) := by
  refine ⟨0, .code (channel d), ?_, rfl, rfl⟩
  rw [List.findIdx?_eq_some_iff_getElem]
  refine ⟨Nat.zero_lt_one, OutPoint.isAt_iff.mpr rfl, fun j hj => ?_⟩
  exact absurd hj (Nat.not_lt_zero j)

/-- A positive amount in the data of an order without a type script lets any channel
with that amount in its data through. -/
theorem transition_matching (hpos : 0 < d.xudtAmount) :
    Transition (matching codeHash d) (order codeHash d).toLiveCell (some (matched codeHash d)) := by
  have hsigned : Signed (matching codeHash d) (matchArgs codeHash).sellerLockHash :=
    signed_spend.mpr (.inr rfl)
  have hxudt : xudtOf (order codeHash d).toCell = none := orderOutput_xudtOf
  have hxudt' : xudtOf (matched codeHash d) = none := matchOutput_xudtOf
  have hpool : (order codeHash d).unoccupied = 0 := orderOutput_unoccupied (by decide)
  have hpool' : (matched codeHash d).unoccupied = 0 := matchOutput_unoccupied (by decide)
  have hmeets : channelMeets (channel d).toCell
      (if 0 < d.xudtAmount then none else some d.channelCapacity)
      (if 0 < d.xudtAmount then some d.xudtAmount else none)
      ((xudtOf (order codeHash d).toCell).map fun x => some x.2) = .ok true := by
    rw [hxudt]
    exact channel_meets hpos
  have hfound : FoundChannel (matching codeHash d) (matchArgs codeHash) (channel d) :=
    foundChannel_matching
  obtain ⟨i, hi, hinspected⟩ :=
    hfound.inspected (by simp [PlainDeps, matching, spend, ResolvedDep.code])
  refine .orderMatch isOrder_orderOutput isMatch_matchOutput rfl (hxudt.trans hxudt'.symm) hi
    hinspected hmeets hsigned rfl rfl (hpool.trans hpool'.symm) rfl ?_ ?_ ?_
  · exact hasHeader_spend List.mem_cons_self
  · exact hasHeader_spend (List.mem_cons_of_mem _ List.mem_cons_self)
  · exact Nat.zero_lt_one

/-- The transaction is an accepted match of the order, for every order that asks for tokens. -/
theorem orderMatched_matching (hpos : 0 < d.xudtAmount) :
    OrderMatched codeHash (matching codeHash d) (order codeHash d).toLiveCell
      (matchArgs codeHash) := by
  have hout : opticrumOutput? codeHash (matching codeHash d) = some (matched codeHash d) :=
    opticrumOutput?_matching
  have hfits : (order codeHash d).occupied < 2 ^ 64 := orderOutput_fits
  refine ⟨acceptedBy_of_transition opticrumInputs_matching (List.forall_mem_nil _) hfits
    (fun o ho => ?_) ?_, isOpticrumLock_opticrumLock _ _,
    ⟨[], groupInputs_of_sole opticrumInputs_matching⟩, ⟨_, _, isOrder_orderOutput⟩,
    ⟨_, _, hout, isMatch_matchOutput⟩⟩
  · obtain rfl := Option.some.inj (hout.symm.trans ho)
    exact matchOutput_fits
  · rw [hout]
    exact transition_matching hpos

/-- The demanded capacity is not enforced. -/
theorem not_demandEnforced (hpos : d.xudtAmount ≠ 0)
    (hlarge : leastTokenCapacity < d.channelCapacity.toNat) :
    ¬ DemandEnforced codeHash d none := by
  have hpos' : 0 < d.xudtAmount := by
    rw [BitVec.lt_def]
    exact Nat.pos_of_ne_zero fun h => hpos (BitVec.eq_of_toNat_eq h)
  intro h
  have hmeets := h (matching codeHash d) (order codeHash d) (matchArgs codeHash) (channel d)
    (orderMatched_matching hpos') rfl rfl
    (by simp [PlainDeps, matching, spend, ResolvedDep.code]) foundChannel_matching
    (by rw [channel_occupied, channel_capacity])
  have hle := BitVec.le_def.mp (hmeets.capacity rfl)
  rw [channel_capacity] at hle
  exact absurd hle (Nat.not_le.mpr hlarge)

end Undersized

/-- **The demanded size.** It is enforced exactly for orders with a type script, for orders
without an amount of tokens, and for capacities that no cell with an amount of tokens in its
data falls short of.

Which size is looked at depends on the amount in the order's data, and whether there are tokens
at all depends on its type script.  An order for CKB with an amount in its data asks for no
capacity, and a channel that holds the amount as plain data will do. -/
theorem demandEnforced_iff [ScriptHash] (codeHash : Byte32) (d : OrderData)
    (type_ : Option Script) :
    DemandEnforced codeHash d type_ ↔
      type_ ≠ none ∨ d.xudtAmount = 0 ∨ d.channelCapacity.toNat ≤ leastTokenCapacity := by
  constructor
  · intro h
    by_contra hnot
    push Not at hnot
    obtain ⟨rfl, hpos, hlarge⟩ := hnot
    exact Undersized.not_demandEnforced hpos hlarge h
  · exact demandEnforced_of

namespace Market

/-- An order of CKB for a channel of 1000 CKB, with an amount of 1 in its data. -/
def hollowDemand : OrderData := ⟨1, 100000000000, 3⟩

/-- It takes a channel of 57 CKB. -/
theorem hollowDemand_not_enforced :
    OrderMatched codeHash (Undersized.matching codeHash hollowDemand)
        (Undersized.order codeHash hollowDemand).toLiveCell (Undersized.matchArgs codeHash) ∧
      (Undersized.channel hollowDemand).capacity.toNat = 5700000000 ∧
      ¬ DemandEnforced codeHash hollowDemand none :=
  ⟨Undersized.orderMatched_matching (by decide), Undersized.channel_capacity,
    Undersized.not_demandEnforced (by decide) (by decide)⟩

end Market

end Opticrum
