import Opticrum.Contract.Lifecycle

/-!
# Cells and transactions built from their parts

The converse of decoding.  `orderOutput` and `matchOutput` build the cell that
carries given args and data and a given number of unoccupied shannons;
`spend` builds the transaction that consumes one Opticrum cell next to a cell of
the party that signs.  Every existence result of the development builds its
transactions from them.

`Market` fixes one buyer, one seller and one channel, with the digests their
scripts have on the chain.

## Existence

A result that something can happen needs a transaction, and it is one of these: `spend` with
nothing behind it closes an escrow, `spend` with an output in front replaces it.  What the
contract asks of such a transaction is known in advance, so `step_spend_replace` and
`step_spend_close` turn a `Transition` into a step of the lifecycle.

`fund` makes the capacity of a cell what its bytes and its pool need together.  The lemmas about
it are for sums below 2⁶⁴; what a cell of the contract occupies by itself always fits when it
has no type script.

## The digests of the market

The hash function is a parameter everywhere else.  Here it is a table with the
digests of four scripts, the locks of the two parties and those of an order and a match between
them, so that a concrete transaction can be evaluated.  Every other script is sent to zeros.
-/

namespace Opticrum

open Rust Ckb

/-! ## Cells -/

/-- The lock of the contract deployed under `codeHash`. -/
def opticrumLock (codeHash : Byte32) (args : Bytes) : Script := ⟨codeHash, .type, args⟩

/-- What the script looks for among the outputs: its own code hash with hash type `Type`. -/
@[simp] theorem isOpticrumLock_opticrumLock (codeHash : Byte32) (args : Bytes) :
    isOpticrumLock codeHash (opticrumLock codeHash args) = true := by
  simp [isOpticrumLock, opticrumLock]

/-- Of the locks of the contract, the args tell which it is. -/
theorem eq_opticrumLock {codeHash : Byte32} {lock : Script}
    (h : isOpticrumLock codeHash lock = true) : lock = opticrumLock codeHash lock.args := by
  simp only [isOpticrumLock, decide_eq_true_eq] at h
  rw [opticrumLock, ← h.1, ← h.2]

/-- The lock of a match is the contract's with its args. -/
theorem IsMatch.lock_eq {codeHash : Byte32} {o : Cell} {a : MatchArgs} {d : MatchData}
    (h : IsMatch o a d) (hlock : isOpticrumLock codeHash o.lock = true) :
    o.lock = opticrumLock codeHash a.toBytes.toList := by
  rw [← h.args_eq]
  exact eq_opticrumLock hlock

/-- The cell with its capacity set so that `pool` shannons are unoccupied.  What the cell
occupies does not depend on its capacity. -/
def fund (c : Cell) (pool : ℕ) : Cell :=
  { c with capacity := BitVec.ofNat 64 (c.occupied + pool) }

@[simp] theorem fund_lock (c : Cell) (pool : ℕ) : (fund c pool).lock = c.lock := rfl

@[simp] theorem fund_type (c : Cell) (pool : ℕ) : (fund c pool).type_ = c.type_ := rfl

@[simp] theorem fund_data (c : Cell) (pool : ℕ) : (fund c pool).data = c.data := rfl

theorem fund_capacity (c : Cell) (pool : ℕ) :
    (fund c pool).capacity = BitVec.ofNat 64 (c.occupied + pool) := rfl

@[simp] theorem fund_occupied (c : Cell) (pool : ℕ) : (fund c pool).occupied = c.occupied := rfl

/-- A funded cell holds what it occupies, as the chain demands of every cell. -/
theorem fund_funded {c : Cell} {pool : ℕ} (h : c.occupied + pool < 2 ^ 64) :
    (fund c pool).occupied ≤ (fund c pool).capacity.toNat := by
  rw [fund_occupied, fund, toNat_ofNat_of_lt h]
  exact Nat.le_add_right _ _

/-- As long as the capacity fits in 64 bits, the pool is what is not occupied. -/
theorem fund_unoccupied {c : Cell} {pool : ℕ} (h : c.occupied + pool < 2 ^ 64) :
    (fund c pool).unoccupied = pool := by
  rw [Cell.unoccupied, fund_occupied, fund, toNat_ofNat_of_lt h,
    Nat.add_sub_cancel_left]

/-- The Order cell with these args and data and `pool` unoccupied shannons. -/
def orderOutput (codeHash : Byte32) (a : OrderArgs) (d : OrderData) (type_ : Option Script)
    (pool : ℕ) : Cell :=
  fund ⟨0, opticrumLock codeHash a.toBytes.toList, type_, d.toBytes.toList⟩ pool

/-- The Match cell with these args and data and `pool` unoccupied shannons. -/
def matchOutput (codeHash : Byte32) (a : MatchArgs) (d : MatchData) (type_ : Option Script)
    (pool : ℕ) : Cell :=
  fund ⟨0, opticrumLock codeHash a.toBytes.toList, type_, d.toBytes.toList⟩ pool

section Outputs

variable {codeHash : Byte32} {type_ : Option Script} {pool : ℕ}

section Order

variable {a : OrderArgs} {d : OrderData}

@[simp] theorem orderOutput_type : (orderOutput codeHash a d type_ pool).type_ = type_ := rfl

/-- The data is written as the calculator writes it, 32 bytes. -/
@[simp] theorem orderOutput_data :
    (orderOutput codeHash a d type_ pool).data = d.toBytes.toList := by
  simp only [orderOutput, fund]

/-- The script decodes it to what it was built from. -/
theorem isOrder_orderOutput : IsOrder (orderOutput codeHash a d type_ pool) a d :=
  isOrder_of_toBytes rfl orderOutput_data

/-- Its tokens, when it is under a type script. -/
theorem orderOutput_xudtOf :
    xudtOf (orderOutput codeHash a d type_ pool) = type_.map fun s => (d.xudtAmount, s) := by
  rw [isOrder_orderOutput.xudtOf_eq, orderOutput_type]

/-- An order occupies 138 CKB: 8 bytes of capacity, 33 of the lock without its args, 65 of args,
32 of data.  A type script comes on top. -/
theorem orderOutput_occupied :
    (orderOutput codeHash a d type_ pool).occupied =
      oneCkb * (138 + type_.elim 0 Script.occupiedBytes) := by
  rw [isOrder_orderOutput.occupied_eq, orderOutput_type]

/-- What an order without tokens occupies fits in 64 bits. -/
theorem orderOutput_fits : (orderOutput codeHash a d none pool).occupied < 2 ^ 64 := by
  rw [orderOutput_occupied]
  decide

/-- Its pool is what it was funded with. -/
theorem orderOutput_unoccupied
    (h : oneCkb * (138 + type_.elim 0 Script.occupiedBytes) + pool < 2 ^ 64) :
    (orderOutput codeHash a d type_ pool).unoccupied = pool := by
  have hoccupied : (orderOutput codeHash a d type_ pool).occupied = _ := orderOutput_occupied
  rw [← hoccupied, orderOutput, fund_occupied] at h
  rw [orderOutput, fund_unoccupied h]

theorem orderOutput_funded
    (h : oneCkb * (138 + type_.elim 0 Script.occupiedBytes) + pool < 2 ^ 64) :
    (orderOutput codeHash a d type_ pool).occupied ≤
      (orderOutput codeHash a d type_ pool).capacity.toNat := by
  have hoccupied : (orderOutput codeHash a d type_ pool).occupied = _ := orderOutput_occupied
  rw [← hoccupied, orderOutput, fund_occupied] at h
  rw [orderOutput]
  exact fund_funded h

end Order

section Match

variable {a : MatchArgs} {d : MatchData}

@[simp] theorem matchOutput_type : (matchOutput codeHash a d type_ pool).type_ = type_ := rfl

@[simp] theorem matchOutput_data :
    (matchOutput codeHash a d type_ pool).data = d.toBytes.toList := by
  simp only [matchOutput, fund]

theorem isMatch_matchOutput : IsMatch (matchOutput codeHash a d type_ pool) a d :=
  isMatch_of_toBytes rfl matchOutput_data

theorem matchOutput_xudtOf :
    xudtOf (matchOutput codeHash a d type_ pool) = type_.map fun s => (d.xudtAmount, s) := by
  rw [isMatch_matchOutput.xudtOf_eq, matchOutput_type]

/-- A match occupies 206 CKB, 68 more than its order, for the channel and the seller in its
args.  It is this difference that the reserve of the calculator covers. -/
theorem matchOutput_occupied :
    (matchOutput codeHash a d type_ pool).occupied =
      oneCkb * (206 + type_.elim 0 Script.occupiedBytes) := by
  have hdata : (matchOutput codeHash a d type_ pool).data.length = matchDataLen := by
    rw [matchOutput_data, Vector.length_toList]
  rw [isMatch_matchOutput.occupied_eq hdata, matchOutput_type]

/-- And so does what a match without tokens occupies. -/
theorem matchOutput_fits : (matchOutput codeHash a d none pool).occupied < 2 ^ 64 := by
  rw [matchOutput_occupied]
  decide

theorem matchOutput_unoccupied
    (h : oneCkb * (206 + type_.elim 0 Script.occupiedBytes) + pool < 2 ^ 64) :
    (matchOutput codeHash a d type_ pool).unoccupied = pool := by
  have hoccupied : (matchOutput codeHash a d type_ pool).occupied = _ := matchOutput_occupied
  rw [← hoccupied, matchOutput, fund_occupied] at h
  rw [matchOutput, fund_unoccupied h]

theorem matchOutput_funded
    (h : oneCkb * (206 + type_.elim 0 Script.occupiedBytes) + pool < 2 ^ 64) :
    (matchOutput codeHash a d type_ pool).occupied ≤
      (matchOutput codeHash a d type_ pool).capacity.toNat := by
  have hoccupied : (matchOutput codeHash a d type_ pool).occupied = _ := matchOutput_occupied
  rw [← hoccupied, matchOutput, fund_occupied] at h
  rw [matchOutput]
  exact fund_funded h

end Match

end Outputs

/-- The live Order cell with these args and data. -/
def OrderCell.of (codeHash : Byte32) (a : OrderArgs) (d : OrderData) (type_ : Option Script)
    (pool : ℕ) (outPoint : Ckb.OutPoint) (header : Header) : OrderCell where
  toCell := orderOutput codeHash a d type_ pool
  outPoint := outPoint
  header := header
  args := a
  orderData := d
  decodes := isOrder_orderOutput

/-- The live Match cell with these args and data. -/
def MatchCell.of (codeHash : Byte32) (a : MatchArgs) (d : MatchData) (type_ : Option Script)
    (pool : ℕ) (outPoint : Ckb.OutPoint) (header : Header) : MatchCell where
  toCell := matchOutput codeHash a d type_ pool
  outPoint := outPoint
  header := header
  args := a
  matchData := d
  decodes := isMatch_matchOutput

/-! ## Transactions -/

/-- The transaction that consumes `c` next to the cell `party` of whoever signs.  It has the
outputs, cell deps and header deps it is given and nothing else. -/
def spend (c party : LiveCell) (outputs : List Cell) (cellDeps : List ResolvedDep)
    (headerDeps : List Header) : Transaction :=
  ⟨[c, party], outputs, cellDeps, headerDeps⟩

/-- A cell of a party, under the lock it signs with.  It has no type script and no data. -/
def partyCell (lock : Script) (pool : ℕ) (outPoint : Ckb.OutPoint) (header : Header) :
    LiveCell where
  toCell := fund ⟨0, lock, none, []⟩ pool
  outPoint := outPoint
  header := header

section Spend

variable {codeHash : Byte32} {c party : LiveCell} {outputs : List Cell}
  {cellDeps : List ResolvedDep} {headerDeps : List Header}

/-- The cell of the party is none of the contract's, so one cell is consumed under its lock. -/
theorem opticrumInputs_spend (hc : isOpticrumLock codeHash c.lock = true)
    (hparty : isOpticrumLock codeHash party.lock = false) :
    opticrumInputs codeHash (spend c party outputs cellDeps headerDeps) = [c] := by
  simp [opticrumInputs, spend, hc, hparty]

/-- Signatures come from the two inputs.  That of the contract's cell counts for its own lock
hash, which no party has. -/
theorem signed_spend [ScriptHash] {lockHash : Byte32} :
    Signed (spend c party outputs cellDeps headerDeps) lockHash ↔
      calcScriptHash c.lock = lockHash ∨ calcScriptHash party.lock = lockHash := by
  simp [Signed, spend]

/-- The first header dep is the tip. -/
theorem tip?_spend {tip : Header} :
    tip? (spend c party outputs cellDeps (tip :: headerDeps)) = some tip.number.toNat := rfl

/-- A header the transaction lists is there for the script to load. -/
theorem hasHeader_spend {h : Header} (hmem : h ∈ headerDeps) :
    (spend c party outputs cellDeps headerDeps).hasHeader h = true :=
  List.any_eq_true.mpr ⟨h, hmem, by simp⟩

/-- Spending `c` into an Opticrum output, when the script's demands are met, is a
step of the lifecycle. -/
theorem step_spend_replace [ScriptHash] {c' : LiveCell}
    (hc : isOpticrumLock codeHash c.lock = true)
    (hparty : isOpticrumLock codeHash party.lock = false)
    (hc' : isOpticrumLock codeHash c'.lock = true)
    (hfits : c.occupied < 2 ^ 64 ∧ c'.occupied < 2 ^ 64)
    (htransition : Transition (spend c party (c'.toCell :: outputs) cellDeps headerDeps) c
      (some c'.toCell))
    (hlater : c.block ≤ c'.block) (hheaders : ∀ h ∈ headerDeps, h.number.toNat ≤ c'.block) :
    Step codeHash (some c) (spend c party (c'.toCell :: outputs) cellDeps headerDeps)
      (some c') := by
  have hsole : opticrumInputs codeHash
      (spend c party (c'.toCell :: outputs) cellDeps headerDeps) = [c] :=
    opticrumInputs_spend hc hparty
  have hout : opticrumOutput? codeHash (spend c party (c'.toCell :: outputs) cellDeps headerDeps) =
      some c'.toCell := by
    simp [opticrumOutput?, spend, hc']
  refine .replace hsole (acceptedBy_of_transition hsole (List.forall_mem_nil _) hfits.1
    (fun o ho => ?_) ?_) hout hlater hheaders
  · rw [hout] at ho
    exact Option.some.inj ho ▸ hfits.2
  · rw [hout]
    exact htransition

/-- Spending `c` into no Opticrum output likewise. -/
theorem step_spend_close [ScriptHash]
    (hc : isOpticrumLock codeHash c.lock = true)
    (hparty : isOpticrumLock codeHash party.lock = false)
    (houtputs : ∀ o ∈ outputs, isOpticrumLock codeHash o.lock = false)
    (hfits : c.occupied < 2 ^ 64)
    (htransition : Transition (spend c party outputs cellDeps headerDeps) c none) :
    Step codeHash (some c) (spend c party outputs cellDeps headerDeps) none := by
  have hsole : opticrumInputs codeHash (spend c party outputs cellDeps headerDeps) = [c] :=
    opticrumInputs_spend hc hparty
  have hout : opticrumOutput? codeHash (spend c party outputs cellDeps headerDeps) = none := by
    rw [opticrumOutput?, List.find?_eq_none]
    intro o ho
    simp [houtputs o ho]
  refine .close hsole (acceptedBy_of_transition hsole (List.forall_mem_nil _) hfits
    (fun o ho => ?_) ?_) hout
  · rw [hout] at ho
    exact absurd ho (by simp)
  · rw [hout]
    exact htransition

end Spend

/-! ## A market -/

namespace Market

/-- The code hash of the contract on the test network. -/
def codeHash : Byte32 :=
  #v[0x1f, 0x84, 0x52, 0x81, 0x86, 0x72, 0xfb, 0xb6, 0x0f, 0x39, 0xc7, 0x2e, 0x2d, 0x30,
    0xda, 0xdd, 0x18, 0x14, 0xf3, 0x22, 0xdf, 0xc2, 0x1b, 0xf5, 0x52, 0x78, 0x4d, 0x83,
    0x05, 0x4f, 0x02, 0x47]

/-- The system lock with these args. -/
def systemLock (args : Bytes) : Script where
  codeHash :=
    #v[0x9b, 0xd7, 0xe0, 0x6f, 0x3e, 0xcf, 0x4b, 0xe0, 0xf2, 0xfc, 0xd2, 0x18, 0x8b, 0x23,
    0xf1, 0xb9, 0xfc, 0xc8, 0x8e, 0x5d, 0x4b, 0x65, 0xa8, 0x63, 0x7b, 0x17, 0x72, 0x3b,
    0xbd, 0xa3, 0xcc, 0xe8]
  hashType := .type
  args := args

/-- The seller signs with the lock of the system, under some key. -/
def sellerLock : Script := systemLock (List.replicate 20 0x5e)

def buyerLock : Script := systemLock (List.replicate 20 0xb0)

/-- The digest of the seller's lock on the chain. -/
def sellerLockHash : Byte32 :=
  #v[0x85, 0x8b, 0x26, 0xab, 0xa2, 0x36, 0xf2, 0x05, 0x73, 0x60, 0xf4, 0xc4, 0xb5, 0xf4,
    0x37, 0x48, 0x02, 0xe6, 0x0f, 0x54, 0x28, 0xdb, 0x4f, 0x4f, 0x45, 0x47, 0xf7, 0xa4,
    0x5a, 0xf3, 0x00, 0xd9]

def buyerLockHash : Byte32 :=
  #v[0x83, 0xf9, 0x46, 0xbe, 0xc6, 0xfc, 0xe7, 0x02, 0x4c, 0xe0, 0xa5, 0xbf, 0x90, 0x52,
    0xe1, 0x65, 0xb9, 0xfe, 0x2f, 0x7d, 0x4f, 0xa9, 0x0a, 0x71, 0x4c, 0x6b, 0xcb, 0xb6,
    0x99, 0xf4, 0xe6, 0x4d]

/-- The args of an order of the buyer, for some node. -/
def orderArgs : OrderArgs where
  fiberPubkey := ⟨(#v[0x02] : Vector UInt8 1) ++ Vector.replicate 32 (0x33 : UInt8)⟩
  buyerLockHash := buyerLockHash

/-- The args of a match of it, with the channel and the seller of the market. -/
def matchArgs : MatchArgs where
  orderArgs := orderArgs
  channelOutpoint := ⟨Vector.replicate 32 0xc0, 0⟩
  sellerLockHash := sellerLockHash

/-- The digests of the scripts that lock a cell of the market. -/
def digests : List (Script × Byte32) :=
  [(sellerLock, sellerLockHash), (buyerLock, buyerLockHash),
    (opticrumLock codeHash orderArgs.toBytes.toList,
      #v[0x51, 0x3b, 0xda, 0x71, 0xd0, 0xca, 0xc1, 0x65, 0x47, 0xfd, 0xc1, 0x0f, 0xd3, 0x9c,
    0x4f, 0x6d, 0x4c, 0x88, 0xdb, 0xaa, 0xa3, 0x43, 0x3c, 0x3f, 0x33, 0xb6, 0xa9, 0x08,
    0x20, 0xa3, 0x60, 0xe8]),
    (opticrumLock codeHash matchArgs.toBytes.toList,
      #v[0x26, 0x56, 0x17, 0x95, 0x4e, 0xc2, 0x8f, 0xfd, 0x7a, 0x82, 0x1a, 0xe8, 0x66, 0x9c,
    0x19, 0xb1, 0xe0, 0xd6, 0x0d, 0xec, 0xa7, 0x73, 0x8f, 0xc6, 0x02, 0x01, 0x9d, 0x34,
    0x3d, 0x25, 0x95, 0x5c])]

/-- The script hash, on the scripts of the market. -/
scoped instance scriptHash : ScriptHash where
  calcScriptHash s := ((digests.find? (·.1 = s)).map Prod.snd).getD (Vector.replicate 32 0)

/-- The header of block `n`.  Its hash contains the number, so that headers of different blocks
are told apart. -/
def headerAt (n : ℕ) : Header :=
  ⟨u64ToLeBytes (BitVec.ofNat 64 n) ++ Vector.replicate 24 (0 : UInt8), BitVec.ofNat 64 n⟩

/-- Any block number of 64 bits has its header. -/
theorem headerAt_number {n : ℕ} (h : n < 2 ^ 64) : (headerAt n).number.toNat = n := by
  rw [headerAt, toNat_ofNat_of_lt h]

/-- A cell the seller signs for. -/
def sellerCell : LiveCell :=
  partyCell sellerLock 10000000000 ⟨Vector.replicate 32 0x5e, 0⟩ (headerAt 1)

/-- A cell the buyer signs for. -/
def buyerCell : LiveCell :=
  partyCell buyerLock 10000000000 ⟨Vector.replicate 32 0xb0, 0⟩ (headerAt 1)

/-- The channel of the market, of 1000 CKB, committed in block 900. -/
def channelCell : LiveCell where
  capacity := 100000000000
  lock := ⟨fiberFundingTypeIdTestnet, .type, List.replicate 20 0xf1⟩
  type_ := none
  data := []
  outPoint := ⟨matchArgs.channelOutpoint.txHash, matchArgs.channelOutpoint.index⟩
  header := headerAt 900

/-- An xUDT type script.  Tokens are told apart by the script as a whole. -/
def token : Script := ⟨Vector.replicate 32 0x50, .data1, List.replicate 32 0x7a⟩

/-- The Order cell of the market with this data, committed in block `block`. -/
def orderCell (d : OrderData) (type_ : Option Script) (pool index block : ℕ) : OrderCell :=
  .of codeHash orderArgs d type_ pool
    ⟨Vector.replicate 32 0x0d, BitVec.ofNat 32 index⟩ (headerAt block)

/-- The Match cell of the market with this data, committed in block `block`. -/
def matchCell (d : MatchData) (type_ : Option Script) (pool index block : ℕ) : MatchCell :=
  .of codeHash matchArgs d type_ pool
    ⟨Vector.replicate 32 0xaa, BitVec.ofNat 32 index⟩ (headerAt block)

section Orders

variable {d : OrderData} {type_ : Option Script} {pool index block : ℕ}

theorem isOpticrumLock_orderCell :
    isOpticrumLock codeHash (orderCell d type_ pool index block).lock = true :=
  isOpticrumLock_opticrumLock _ _

theorem orderCell_xudtOf : xudtOf (orderCell d type_ pool index block).toCell =
    type_.map fun s => (d.xudtAmount, s) := orderOutput_xudtOf

/-- A capacity of 138 CKB is far below the limit, so the check for an overflow of it passes. -/
theorem orderCell_fits : (orderCell d none pool index block).occupied < 2 ^ 64 := orderOutput_fits

theorem orderCell_unoccupied
    (h : oneCkb * (138 + type_.elim 0 Script.occupiedBytes) + pool < 2 ^ 64) :
    (orderCell d type_ pool index block).unoccupied = pool :=
  orderOutput_unoccupied h

theorem orderCell_block (h : block < 2 ^ 64) :
    (orderCell d type_ pool index block).block = block := headerAt_number h

end Orders

section Matches

variable {d : MatchData} {type_ : Option Script} {pool index block : ℕ}

theorem isOpticrumLock_matchCell :
    isOpticrumLock codeHash (matchCell d type_ pool index block).lock = true :=
  isOpticrumLock_opticrumLock _ _

theorem matchCell_xudtOf : xudtOf (matchCell d type_ pool index block).toCell =
    type_.map fun s => (d.xudtAmount, s) := matchOutput_xudtOf

theorem matchCell_occupied : (matchCell d type_ pool index block).occupied =
    oneCkb * (206 + type_.elim 0 Script.occupiedBytes) := matchOutput_occupied

theorem matchCell_fits : (matchCell d none pool index block).occupied < 2 ^ 64 := matchOutput_fits

theorem matchCell_unoccupied
    (h : oneCkb * (206 + type_.elim 0 Script.occupiedBytes) + pool < 2 ^ 64) :
    (matchCell d type_ pool index block).unoccupied = pool :=
  matchOutput_unoccupied h

theorem matchCell_block (h : block < 2 ^ 64) :
    (matchCell d type_ pool index block).block = block := headerAt_number h

/-- What it owes at a tip, with its block or its last extraction for the base. -/
theorem matchCell_rentAt (h : block < 2 ^ 64) (tip : ℕ) :
    rentAt (matchCell d type_ pool index block).toLiveCell d tip =
      d.shannonsPerBlock.toNat *
        (tip - if d.lastExtractionBlock = 0 then block else d.lastExtractionBlock.toNat) := by
  rw [rentAt, rentBase, matchCell_block h]

end Matches

/-- The seller's lock has the digest the match names. -/
theorem calcScriptHash_sellerLock : calcScriptHash sellerLock = sellerLockHash := by decide

theorem calcScriptHash_buyerLock : calcScriptHash buyerLock = buyerLockHash := by decide

/-- The digest of a lock of the contract is not that of a party. -/
theorem calcScriptHash_matchLock_ne :
    calcScriptHash (opticrumLock codeHash matchArgs.toBytes.toList) ≠ sellerLockHash ∧
      calcScriptHash (opticrumLock codeHash matchArgs.toBytes.toList) ≠ buyerLockHash := by
  decide

/-- Nor is the digest of an order's lock that of a party. -/
theorem calcScriptHash_orderLock_ne :
    calcScriptHash (opticrumLock codeHash orderArgs.toBytes.toList) ≠ sellerLockHash ∧
      calcScriptHash (opticrumLock codeHash orderArgs.toBytes.toList) ≠ buyerLockHash := by
  decide

/-- The parties of the market differ, as the rules for a match suppose. -/
theorem sellerLockHash_ne_buyerLockHash : sellerLockHash ≠ buyerLockHash := by decide

section Signatures

variable {c : LiveCell} {outputs : List Cell} {cellDeps : List ResolvedDep}
  {headerDeps : List Header}

/-- Next to the seller's cell, the seller signs for a Match cell and nobody else. -/
theorem signed_spend_sellerCell
    (hlock : c.lock = opticrumLock codeHash matchArgs.toBytes.toList) :
    Signed (spend c sellerCell outputs cellDeps headerDeps) sellerLockHash ∧
      ¬ Signed (spend c sellerCell outputs cellDeps headerDeps) buyerLockHash := by
  have hseller : calcScriptHash sellerCell.lock = sellerLockHash := calcScriptHash_sellerLock
  rw [signed_spend, signed_spend, hlock, hseller]
  refine ⟨.inr rfl, ?_⟩
  rintro (h | h)
  · exact calcScriptHash_matchLock_ne.2 h
  · exact sellerLockHash_ne_buyerLockHash h

/-- Next to the buyer's cell, the buyer signs for a Match cell and nobody else. -/
theorem signed_spend_buyerCell
    (hlock : c.lock = opticrumLock codeHash matchArgs.toBytes.toList) :
    ¬ Signed (spend c buyerCell outputs cellDeps headerDeps) sellerLockHash ∧
      Signed (spend c buyerCell outputs cellDeps headerDeps) buyerLockHash := by
  have hbuyer : calcScriptHash buyerCell.lock = buyerLockHash := calcScriptHash_buyerLock
  rw [signed_spend, signed_spend, hlock, hbuyer]
  refine ⟨?_, .inr rfl⟩
  rintro (h | h)
  · exact calcScriptHash_matchLock_ne.1 h
  · exact sellerLockHash_ne_buyerLockHash h.symm

end Signatures

/-- An order for a channel of 1000 CKB, with a pool of 100000 shannons. -/
def order (index : ℕ) : OrderCell := orderCell ⟨0, 100000000000, 3⟩ none 100000 index 500

/-- The match that replaces one such order. -/
def matched : Cell := matchOutput codeHash matchArgs ⟨0, 3, 0⟩ none 100000

/-- A transaction that shows the script a cell like the channel of the market, and
replaces the order by the match, does what the script demands. -/
theorem transition_order_of_headers {tx : Transaction} {i : ℕ} {channel : LiveCell}
    (hlisted : tx.rawCellDeps.findIdx?
      (fun dep => matchArgs.channelOutpoint.isAt dep.outPoint) = some i)
    (hinspected : tx.resolvedCellDeps[i]? = some channel)
    (hcell : channel.toCell = channelCell.toCell) (hheader : channel.header = headerAt 900)
    (hheaders : headerAt 500 ∈ tx.headerDeps ∧ headerAt 900 ∈ tx.headerDeps)
    (hsigned : Signed tx sellerLockHash) (index : ℕ) :
    Transition tx (order index).toLiveCell (some matched) := by
  have hpool : (order index).unoccupied = 100000 := orderCell_unoccupied (by decide)
  have hpool' : matched.unoccupied = 100000 := matchOutput_unoccupied (by decide)
  have hxudt : xudtOf (order index).toCell = none := orderCell_xudtOf
  have hxudt' : xudtOf matched = none := matchOutput_xudtOf
  have horder : (order index).block = 500 := orderCell_block (by decide)
  have horderHeader : (order index).header = headerAt 500 := by
    simp only [order, orderCell, OrderCell.of]
  have hmeets : channelMeets channel.toCell (some 100000000000) none
      ((xudtOf (order index).toCell).map fun x => some x.2) = .ok true := by
    rw [hxudt, hcell]
    decide
  refine .orderMatch isOrder_orderOutput isMatch_matchOutput rfl (hxudt.trans hxudt'.symm) hlisted
    hinspected hmeets hsigned rfl rfl (hpool.trans hpool'.symm) rfl ?_ ?_ ?_
  · exact List.any_eq_true.mpr ⟨headerAt 500, hheaders.1, by simp [horderHeader]⟩
  · exact List.any_eq_true.mpr ⟨headerAt 900, hheaders.2, by simp [hheader]⟩
  · rw [horder, LiveCell.block, hheader, headerAt_number (by decide)]
    decide

/-- The same where these two headers are all it shows. -/
theorem transition_order {tx : Transaction} {i : ℕ} {channel : LiveCell}
    (hlisted : tx.rawCellDeps.findIdx?
      (fun dep => matchArgs.channelOutpoint.isAt dep.outPoint) = some i)
    (hinspected : tx.resolvedCellDeps[i]? = some channel)
    (hcell : channel.toCell = channelCell.toCell) (hheader : channel.header = headerAt 900)
    (hheaders : tx.headerDeps = [headerAt 500, headerAt 900])
    (hsigned : Signed tx sellerLockHash) (index : ℕ) :
    Transition tx (order index).toLiveCell (some matched) :=
  transition_order_of_headers hlisted hinspected hcell hheader
    ⟨by simp [hheaders], by simp [hheaders]⟩ hsigned index

end Market

end Opticrum
