import Opticrum.Ckb.Syscall
import Opticrum.Protocol

/-!
# Contract utilities

The helpers of the contract that read the chain through system calls, under
their own names.  All of them take the environment `env` of the running script
first.

A function of type `Result α` returns, fails with an error, or panics.  The
error is either one of the contract's own or a system error that a `?` passed
on.

## Channel lookup

`find_channel_in_celldeps` searches the raw list of the transaction and loads a cell from the
resolved one, at the position it found.  Only the first raw entry at the out point counts.  If
the cell loaded there fails a check, the search does not go on; it ends without a channel.  The
checks are a function of their own, `channelMeets`, with the order of the source: the lock, the
type script, the amount, the capacity, each of the last three only when it is asked for.

The three funding code hashes are constants of the source, and a lock that names one of them
with another hash type is not recognised.
-/

namespace Opticrum

open Rust Ckb

inductive OpticrumError where
  | badOrderCancel
  | badOrderMatch
  | channelCellNotInDep
  | channelCapacityMismatch
  | channelCreatedBeforeOrder
  | orderDataNotSet
  | badXudtAmount
  | badExtractionAmount
  | matchDataNotSet
  | headerNotSet
  | badMatchDataUpdate
  | badMatchUpdate
  | matchNotExhausted
  | rentPerBlockMismatch
  | matchNotViable
  | badArgsLength
  | buyerAuthMissing
  | sellerAuthMissing
  | authorizationMissing
  | unexpectedBranch
  | unknownState
  deriving DecidableEq, Repr

/-- An error a verifier returns. -/
inductive Error where
  | sys (e : SysError)
  | opticrum (e : OpticrumError)
  deriving DecidableEq, Repr

abbrev Result (α : Type) := Outcome Error α

section Utils

variable {α : Type}

/-- Return the error `e` of the contract. -/
def fail (e : OpticrumError) : Result α := .err (.opticrum e)

/-- A system call under `?`. -/
def sysCall (x : Outcome SysError α) : Result α := x.mapErr .sys

/-- A system call under `map_err(|_| e)?`. -/
def sysCallOr (e : OpticrumError) (x : Outcome SysError α) : Result α :=
  x.mapErr fun _ => .opticrum e

/-- `ERR!`: a decoder's message becomes an error of the contract. -/
def mapProtoErr (x : Outcome String α) (e : OpticrumError) : Result α :=
  x.mapErr fun _ => .opticrum e

/-- `if !c { return Err(e) }`. -/
def require (c : Prop) [Decidable c] (e : OpticrumError) : Result PUnit :=
  Outcome.ensure c (.opticrum e)

variable (env : Env)

/-! ## Headers -/

/-- The block number of a header dep. -/
def loadHeaderBlockNumber (index : ℕ) : Result U64 := do
  let header ← sysCallOr .headerNotSet (env.loadHeader index .headerDep)
  .ok header.number

/-! ## Input authorization -/

/-- Whether a lock hash is the lock hash of some input.  All inputs count, the group's own
included. -/
def hasInputLock [ScriptHash] (lockHash : Byte32) : Result Bool :=
  .ok ((env.queryLockHashes .input).any (· = lockHash))

/-- Fail with `error` unless a lock hash is the lock hash of some input. -/
def requireInputLock [ScriptHash] (lockHash : Byte32) (error : OpticrumError) :
    Result PUnit := do
  let present ← hasInputLock env lockHash
  require present error

/-! ## Channel cell lookup -/

def fiberFundingTypeIdTestnet : Byte32 :=
  #v[0x6c, 0x67, 0x88, 0x7f, 0xe2, 0x01, 0xee, 0x0c, 0x78, 0x53, 0xf1, 0x68, 0x2c, 0x0b,
    0x77, 0xc0, 0xe6, 0x21, 0x40, 0x44, 0xc1, 0x56, 0xc7, 0x55, 0x82, 0x69, 0x39, 0x0a,
    0x8a, 0xfa, 0x6d, 0x7c]

def fiberFundingTypeIdMainnet : Byte32 :=
  #v[0xe4, 0x5b, 0x1f, 0x8f, 0x21, 0xbf, 0xf2, 0x31, 0x37, 0x03, 0x5a, 0x3a, 0xb7, 0x51,
    0xd7, 0x5b, 0x36, 0xa9, 0x81, 0xde, 0xec, 0x3e, 0x78, 0x20, 0x19, 0x4b, 0x9c, 0x04,
    0x29, 0x67, 0xf4, 0xf1]

def fiberFundingTypeIdMock : Byte32 :=
  #v[0x77, 0xc9, 0x16, 0x3a, 0xdd, 0xbf, 0x87, 0xc8, 0x05, 0xbe, 0x3b, 0x6c, 0x85, 0x69,
    0xb8, 0xe0, 0x15, 0xa4, 0xca, 0x0e, 0xf3, 0xc6, 0x89, 0x15, 0x02, 0x34, 0xf0, 0xc8,
    0x02, 0xa7, 0x69, 0x00]

/-- The recognised Fiber funding code hashes. -/
def isFiberFundingContract (hash : Byte32) : Bool :=
  hash = fiberFundingTypeIdTestnet ∨ hash = fiberFundingTypeIdMainnet ∨
    hash = fiberFundingTypeIdMock

/-- The checks `find_channel_in_celldeps` makes on the cell it has loaded: the
funding lock, the type script when one is asked for, the amount when one is asked
for, the capacity when one is asked for. -/
def channelMeets (cell : Cell) (minCapacity : Option U64) (minXudtAmount : Option U128)
    (xudtTypeScript : Option (Option Script)) : Result Bool :=
  if ¬ (isFiberFundingContract cell.lock.codeHash ∧ cell.lock.hashType = .type) then
    .ok false
  else if xudtTypeScript.any (cell.type_ ≠ ·) then
    .ok false
  else do
    let enough ←
      match minXudtAmount with
      | none => .ok true
      | some amount =>
          if cell.data.length < xudtAmountLen then .ok false
          else do
            let xudtAmount ← readArray cell.data 0 xudtAmountLen
            .ok (¬ u128FromLeBytes xudtAmount < amount)
    if ¬ enough then
      .ok false
    else
      .ok (¬ minCapacity.any (cell.capacity < ·))

/-- Find the cell dep named by `channelOutpoint` and check it.  The index is the
position of the entry in the *raw* cell deps; the cell is loaded at that index. -/
def findChannelInCelldeps (channelOutpoint : OutPoint) (minCapacity : Option U64)
    (minXudtAmount : Option U128) (xudtTypeScript : Option (Option Script)) :
    Result (Option ℕ) := do
  let cellDeps ← sysCall env.loadTransactionCellDeps
  match cellDeps.findIdx? (fun dep => channelOutpoint.isAt dep.outPoint) with
  | none => .ok none
  | some i =>
      match env.loadCell i .cellDep with
      | .error _ => .ok none
      | .ok cell => do
          let meets ← channelMeets cell minCapacity minXudtAmount xudtTypeScript
          .ok (if meets then some i else none)

/-- Whether some cell dep is named by `channelOutpoint`.  The cell itself is not looked at: an
extraction needs the channel to exist, and no more. -/
def checkChannelExistence (channelOutpoint : OutPoint) : Result Bool := do
  let cellDeps ← sysCall env.loadTransactionCellDeps
  .ok (cellDeps.any fun dep => channelOutpoint.isAt dep.outPoint)

/-! ## Cells -/

/-- Amount and type script of an xUDT cell.  Data of less than 16 bytes, or a missing type
script, means that there are no tokens. -/
def parseXudt (index : ℕ) (source : Source) : Result (Option (U128 × Script)) := do
  let data ← sysCall (env.loadCellData index source)
  if data.length < xudtAmountLen then
    .ok none
  else do
    let xudtAmount ← readArray data 0 xudtAmountLen
    let typeScript ← sysCall (env.loadCellType index source)
    match typeScript with
    | none => .ok none
    | some typeScript => .ok (some (u128FromLeBytes xudtAmount, typeScript))

/-- Capacity minus occupied capacity, saturating.  An output may hold less than it occupies
while the script runs. -/
def getUnoccupiedCapacity (index : ℕ) (source : Source) : Result U64 := do
  let capacity ← sysCall (env.loadCellCapacity index source)
  let occupiedCapacity ← sysCall (env.loadCellOccupiedCapacity index source)
  .ok (saturatingSub capacity occupiedCapacity)

/-- The first cell of a source whose lock has the code hash of the running lock
and hash type `Type`. -/
def findOpticrumScript (source : Source) : Option ℕ :=
  match env.loadCellLock 0 .groupInput with
  | .error _ => none
  | .ok thisLock =>
      (env.queryLocks source).findIdx? fun lock =>
        lock.codeHash = thisLock.codeHash ∧ lock.hashType = .type

end Utils

end Opticrum
