import Opticrum.Calculator.Pipeline
import Opticrum.Calculator.Scan

/-!
# The binaries

The programs a party runs: look the cell up, list an instruction, and send the pipeline it
is part of.  What they find around them is a parameter, `Host`; what their authors are to
fill in before they run them (the address, the lock hash, the index of the cell to pick,
the amounts) is an argument here.  Printing is left out, except for the one line that may
abort.

## What a host documents

`Host.Documented` collects what is documented of the framework, of the stages around the
builder's instruction, and of the node: the indexer serves cells that are live.

## Order of the stages

The binaries that consume a cell of the contract differ in one point.  `match_order` puts the
builder's instruction first; the others put the dep of the system lock in front of it, and the
builder then runs on a skeleton that is not empty.  `create_order` looks nothing up, and takes
the rent per block as it was computed for the yield.

Where a binary unwraps, the model panics: `expect` is an index past the end of what was
scanned.
-/

namespace Opticrum

open Rust Ckb Outcome

/-- What a binary finds around it: the environment and the format of its keys, the node, and the
framework.  The three stages are instructions of the framework that stand before and after that
of the builder. -/
structure Host where
  var : String → Option String
  secretKey : String → Outcome String Bytes
  rpc : RPC
  indexer : Indexer
  codec : WitnessCodec
  tipBlockNumber : Outcome String U64
  runBasic : BasicOperation → TransactionSkeleton → Outcome String TransactionSkeleton
  addSecp256k1SighashCellDep : Stage
  balanceAndSign : Address → Bytes → Stage
  balanceAndSignWithCkbCli : Address → Stage

/-- `Option::expect`. -/
def expect {ε α : Type} : Option α → Outcome ε α
  | some a => .ok a
  | none => .panicked

theorem expect_eq_ok_iff {ε α : Type} {x : Option α} {a : α} :
    (expect x : Outcome ε α) = .ok a ↔ x = some a := by
  cases x with
  | none => simp [expect]
  | some b => simp [expect]

/-- `a.saturating_mul(b)`. -/
def saturatingMul (a b : U64) : U64 :=
  if a.toNat * b.toNat < 2 ^ 64 then a * b else BitVec.allOnes 64

theorem toNat_saturatingMul_of_lt {a b : U64} (h : a.toNat * b.toNat < 2 ^ 64) :
    (saturatingMul a b).toNat = a.toNat * b.toNat := by
  rw [saturatingMul, if_pos h, BitVec.toNat_mul, Nat.mod_eq_of_lt h]

namespace Host

variable (host : Host)

/-- The code hash the framework locks Opticrum outputs with. -/
def codeHash : Byte32 := host.rpc.codeHash opticrumContractName

/-- The key in an environment variable. -/
def privateKey (name : String) : Outcome String Bytes :=
  match host.var name with
  | some hex => host.secretKey hex
  | none => .err (name ++ " not set.\nCreate a .env file or export the environment variable:\n" ++
      name ++ "=<64-char hex private key>")

/-- The instruction of a builder, as a stage. -/
def stage (instruction : Instruction) : Stage := runInstruction host.rpc host.runBasic instruction

section Binaries

variable [ScriptHash]

/-- The two binaries that update a match of the buyer. -/
def updateRent (buyerAddress : Address) (buyerLockHash : Byte32) (matchIndex : ℕ)
    (capacityDelta : I64) : Outcome String TransactionSkeleton := do
  let buyerKey ← host.privateKey "BUYER_PRIVATE_KEY"
  let infos ← scanMatches host.indexer none
  let matchInfo ← expect infos[matchIndex]?
  ensure (matchInfo.matchArgs.orderArgs.buyerLockHash = buyerLockHash)
    ("Match at index " ++ toString matchIndex ++ " does not belong to buyer (lock_hash mismatch)")
  let currentXudt := (matchInfo.xudt.map Xudt.amount).getD 0
  let update ← updateMatchBuyer buyerAddress matchInfo currentXudt capacityDelta
  newSkeleton [host.addSecp256k1SighashCellDep, host.stage update,
    host.balanceAndSign buyerAddress buyerKey]

/-- `topup_rent`: adds 10,000 CKB. -/
def topupRent (buyerAddress : Address) (buyerLockHash : Byte32) (matchIndex : ℕ) :
    Outcome String TransactionSkeleton :=
  host.updateRent buyerAddress buyerLockHash matchIndex (10000 * ckbDecimal)

/-- `decline_rent`: withdraws 5,000 CKB. -/
def declineRent (buyerAddress : Address) (buyerLockHash : Byte32) (matchIndex : ℕ) :
    Outcome String TransactionSkeleton :=
  host.updateRent buyerAddress buyerLockHash matchIndex (-(5000 * ckbDecimal))

/-- `extract_liquidity_rent`.  It checks nothing about whose match it is. -/
def extractLiquidityRent (sellerAddress : Address) (matchIndex : ℕ) :
    Outcome String TransactionSkeleton := do
  let tipBlock ← host.tipBlockNumber
  let infos ← scanMatches host.indexer none
  let matchInfo ← expect infos[matchIndex]?
  -- the line that warns of a destruction
  let _ ← (matchInfo.isExhausted tipBlock : Outcome String Bool)
  let extract ← extractRent sellerAddress matchInfo tipBlock
  newSkeleton [host.addSecp256k1SighashCellDep, host.stage extract,
    host.balanceAndSignWithCkbCli sellerAddress]

/-- `match_order`.  The builder's instruction comes first. -/
def matchOrderMain (sellerAddress : Address) (sellerLockHash : Byte32) (channelTxHash : Byte32)
    (channelIndex : U32) (orderIndex : ℕ) : Outcome String TransactionSkeleton := do
  let sellerKey ← host.privateKey "SELLER_PRIVATE_KEY"
  let orders ← scanOrders host.indexer host.codec none
  let order ← expect orders[orderIndex]?
  let matchArgs : MatchArgs := ⟨order.orderArgs, ⟨channelTxHash, channelIndex⟩, sellerLockHash⟩
  newSkeleton [host.stage (matchOrder sellerAddress order matchArgs),
    host.addSecp256k1SighashCellDep, host.balanceAndSign sellerAddress sellerKey]

/-- `create_order`, at the rent per block that was computed for the yield asked for. -/
def createOrderMain (buyerAddress : Address) (orderArgs : OrderArgs) (channelCapacity : U64)
    (rentPerBlock : U64) (fiberAddress : Option String) : Outcome String TransactionSkeleton :=
  let escrowBlocks : U64 := 100000
  let rentCapacity := saturatingMul rentPerBlock escrowBlocks
  let orderData : OrderData := ⟨0, channelCapacity, rentPerBlock⟩
  newSkeleton [host.addSecp256k1SighashCellDep,
    host.stage (createOrder buyerAddress orderArgs orderData rentCapacity none fiberAddress),
    host.balanceAndSignWithCkbCli buyerAddress]

end Binaries

/-- What is documented of a host whose indexer serves `cells`.  The framework takes no dep away,
balancing stays with the address it is given, what the indexer serves is live on the node, and
the contract is deployed where the calculator looks for it. -/
structure Documented [ScriptHash] (host : Host) (cells : List LiveCell) : Prop where
  framework : DocumentedCapacity host.rpc host.runBasic
  keeps : KeepsDeps host.runBasic
  signing : ∀ address key,
    DocumentedStages address host.addSecp256k1SighashCellDep (host.balanceAndSign address key)
  signingWithCkbCli : ∀ address,
    DocumentedStages address host.addSecp256k1SighashCellDep
      (host.balanceAndSignWithCkbCli address)
  serves : host.indexer.Serves cells
  live : ∀ c ∈ cells, host.rpc.Live c
  deployed : ∃ typeId, (opticrumContractTypeId host.indexer.network : Outcome String _) =
    .ok typeId ∧ host.codeHash = opticrumCodeHash typeId

end Host

end Opticrum
