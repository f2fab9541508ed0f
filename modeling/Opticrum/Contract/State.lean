import Opticrum.Contract.Utils

/-!
# Cell states and transition routing

`Branch` tells an Order cell from a Match cell by the length of its lock args,
`OpticrumState` adds the values the verifiers compare, `compare` is the routing
table of the root verifier.

## Routing

`compare` looks at the two states and at nothing else.  An order without a successor is
cancelled and a match without one is destroyed; an order may become a match and a match a match,
as long as the args carry over and the xUDT part is *equal*, amount and type script both.  Every
other pair is `unknown`, and with it the run ends.

## Rent

`baseBlock` reads the field of the match data, and where it is zero the header of the inspected
cell.  That cell is the one the transaction consumes, and a match is a new cell after each
update: where nothing has been extracted, the base is the block of the latest update.  The
elapsed time saturates at zero, and the product with the rate is checked.
-/

namespace Opticrum

open Rust Ckb

/-- Order or Match, with the decoded args and data.  The third branch is for what is neither;
parsing fails on it, so that it is never built. -/
inductive Branch where
  | orderCell (args : OrderArgs) (data : OrderData)
  | matchCell (args : MatchArgs) (data : MatchData)
  | unknown
  deriving DecidableEq, Repr

/-- The length of the args tells an order from a match; then args and data are decoded.  Any
other length is an error, so the unknown branch is never returned. -/
def Branch.parse (args data : Bytes) : Result Branch :=
  if args.length = orderArgsLen then do
    let orderArgs ← mapProtoErr (OrderArgs.fromSlice args) .badArgsLength
    let orderData ← mapProtoErr (OrderData.fromSlice data) .orderDataNotSet
    .ok (.orderCell orderArgs orderData)
  else if args.length = matchArgsLen then do
    let matchArgs ← mapProtoErr (MatchArgs.fromSlice args) .badArgsLength
    let matchData ← mapProtoErr (MatchData.fromSlice data) .matchDataNotSet
    .ok (.matchCell matchArgs matchData)
  else
    fail .badArgsLength

/-- The transition the root verifier recognised.  Each but the last names one branch
verifier. -/
inductive OpticrumPattern where
  | orderCancel
  | orderMatch
  | matchUpdate
  | matchDestroy
  | unknown
  deriving DecidableEq, Repr

/-- The parsed state of an Opticrum cell.  It is all that the verifiers know of a cell; the
block comes from a header when it is asked for. -/
structure OpticrumState where
  branch : Branch
  unoccupiedCapacity : U64
  xudt : Option (U128 × Script)
  deriving DecidableEq, Repr

namespace OpticrumState

/-- The transition from the state of the inspected cell to that of its replacement.  An order
has to keep its args and its tokens in the match, a match only its tokens; a match that becomes
an order is not known. -/
def compare (self : OpticrumState) (another : Option OpticrumState) : OpticrumPattern :=
  match self.branch with
  | .orderCell orderArgs _ =>
      match another with
      | none => .orderCancel
      | some another =>
          match another.branch with
          | .matchCell matchArgs _ =>
              if orderArgs = matchArgs.orderArgs ∧ self.xudt = another.xudt then .orderMatch
              else .unknown
          | _ => .unknown
  | .matchCell matchArgs _ =>
      match another with
      | none => .matchDestroy
      | some another =>
          match another.branch with
          | .matchCell anotherMatchArgs _ =>
              if matchArgs = anotherMatchArgs ∧ self.xudt = another.xudt then .matchUpdate
              else .unknown
          | _ => .unknown
  | .unknown => .unknown

/-- The block rent accrues from: the last extraction, or the block that committed
the inspected cell when there was none. -/
def baseBlock (env : Env) (matchData : MatchData) : Result U64 :=
  if matchData.lastExtractionBlock = 0 then do
    let header ← sysCallOr .headerNotSet (env.loadHeader 0 .groupInput)
    .ok header.number
  else
    .ok matchData.lastExtractionBlock

/-- Accumulated linear rent. -/
def liquidityRent (env : Env) (self : OpticrumState) : Result U64 :=
  match self.branch with
  | .matchCell _ matchData => do
      let baseBlock ← baseBlock env matchData
      let tipBlock ← (loadHeaderBlockNumber env 0).mapErr fun _ => .opticrum .headerNotSet
      let elapsed := saturatingSub tipBlock baseBlock
      checkedMul matchData.shannonsPerBlock elapsed
  | _ => fail .unexpectedBranch

/-- Whether the accumulated rent covers all remaining value.  Value and rent may be equal: a
match is exhausted at the block at which its last shannon is due. -/
def isExhausted (env : Env) (self : OpticrumState) : Result Bool := do
  let liquidityRent ← self.liquidityRent env
  match self.xudt with
  | some (xudtAmount, _) => .ok (xudtAmount ≤ liquidityRent.setWidth 128)
  | none => .ok (self.unoccupiedCapacity ≤ liquidityRent)

end OpticrumState

/-- What flows from the root verifier to the branch verifiers.  The new state is missing when no
output is under the contract's lock. -/
structure Context where
  oldState : OpticrumState
  newState : Option OpticrumState
  deriving DecidableEq, Repr

namespace Context

/-- The args and the data of an old state that is an order. -/
def expectOldOrder (ctx : Context) : Result (OrderArgs × OrderData) :=
  match ctx.oldState.branch with
  | .orderCell args data => .ok (args, data)
  | _ => fail .unexpectedBranch

def expectOldMatch (ctx : Context) : Result (MatchArgs × MatchData) :=
  match ctx.oldState.branch with
  | .matchCell args data => .ok (args, data)
  | _ => fail .unexpectedBranch

/-- The args and the data of a new state that is a match. -/
def expectNewMatch (ctx : Context) : Result (MatchArgs × MatchData) :=
  match ctx.newState with
  | none => fail .badMatchUpdate
  | some state =>
      match state.branch with
      | .matchCell args data => .ok (args, data)
      | _ => fail .unexpectedBranch

end Context

end Opticrum
