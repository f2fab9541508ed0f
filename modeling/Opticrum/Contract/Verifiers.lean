import Opticrum.Contract.State

/-!
# The verification tree

The root verifier and the four branch verifiers.  The root parses the first cell
of the script group and the first Opticrum output, and names the branch verifier
that decides; `run` is the script as a whole.  A branch verifier that returns
`Ok(None)` ends the walk through the tree and the script accepts.

## The order of the checks

Each verifier makes its checks in the order of the source, since the error that is returned is
that of the first one that fails.  `match_update` decides by who signs: only the seller, and it
is an extraction; only the buyer, and it is an update; both or neither, and it fails with
`AuthorizationMissing`.

An extraction computes the rent twice, once for the exhaustion test and once for the amount, as
the source does.  The first computation has then decided whether the second can fail.
-/

namespace Opticrum

open Rust Ckb

/-- The branch verifiers the root can name. -/
inductive VerifierName where
  | orderCancel
  | orderMatch
  | matchUpdate
  | matchDestroy
  deriving DecidableEq, Repr

section Verifiers

variable (env : Env)

/-- The state of `GroupInput[0]`.  The args are those of the running script, which all cells of
the group share. -/
def loadOldState : Result OpticrumState := do
  let data ← sysCall (env.loadCellData 0 .groupInput)
  let branch ← Branch.parse env.scriptArgs data
  let unoccupiedCapacity ← getUnoccupiedCapacity env 0 .groupInput
  let xudt ← parseXudt env 0 .groupInput
  .ok ⟨branch, unoccupiedCapacity, xudt⟩

/-- The state of the output at `index`.  Its args may be any, and where they are those of
neither layout the run ends with an error. -/
def loadNewState (index : ℕ) : Result OpticrumState := do
  let lock ← sysCall (env.loadCellLock index .output)
  let data ← sysCall (env.loadCellData index .output)
  let branch ← Branch.parse lock.args data
  let unoccupiedCapacity ← getUnoccupiedCapacity env index .output
  let xudt ← parseXudt env index .output
  .ok ⟨branch, unoccupiedCapacity, xudt⟩

/-- `find_opticrum_script(Output).map(|index| …).transpose()`. -/
def findNewState : Result (Option OpticrumState) :=
  match findOpticrumScript env .output with
  | none => .ok none
  | some index => do
      let newState ← loadNewState env index
      .ok (some newState)

/-- The verifier the comparison of the two states names. -/
def route (oldState : OpticrumState) (newState : Option OpticrumState) :
    Result VerifierName :=
  match oldState.compare newState with
  | .orderCancel => .ok .orderCancel
  | .orderMatch => .ok .orderMatch
  | .matchUpdate => .ok .matchUpdate
  | .matchDestroy => .ok .matchDestroy
  | .unknown => fail .unknownState

/-- Root: parse both states and route.  The verifier that is named gets both states and nothing
else of the search. -/
def rootVerify : Result (Context × VerifierName) := do
  let oldState ← loadOldState env
  let newState ← findNewState env
  let name ← route oldState newState
  .ok (⟨oldState, newState⟩, name)

variable [ScriptHash]

/-- The buyer cancels an unmatched Order.  Where its value goes is the buyer's affair. -/
def orderCancelVerify (ctx : Context) : Result PUnit := do
  let (orderArgs, _) ← ctx.expectOldOrder
  requireInputLock env orderArgs.buyerLockHash .buyerAuthMissing

/-- The seller matches an Order with a channel. -/
def orderMatchVerify (ctx : Context) : Result PUnit := do
  let (_, orderData) ← ctx.expectOldOrder
  let (matchArgs, matchData) ← ctx.expectNewMatch
  -- 1. the channel, with the size the order demands
  let channel ← findChannelInCelldeps env matchArgs.channelOutpoint
    (if 0 < orderData.xudtAmount then none else some orderData.channelCapacity)
    (if 0 < orderData.xudtAmount then some orderData.xudtAmount else none)
    (ctx.oldState.xudt.map fun x => some x.2)
  match channel with
  | none => fail .channelCellNotInDep
  | some channelIndex => do
      -- 2. the seller takes part
      requireInputLock env matchArgs.sellerLockHash .sellerAuthMissing
      -- 3. initial Match data
      require (¬ (orderData.shannonsPerBlock ≠ matchData.shannonsPerBlock ∨
        matchData.lastExtractionBlock ≠ 0)) .matchDataNotSet
      -- 4. the rent pool transfers intact
      match ctx.newState with
      | none => fail .badOrderMatch
      | some newState => do
          require (ctx.oldState.unoccupiedCapacity = newState.unoccupiedCapacity)
            .channelCapacityMismatch
          -- 5. the token amount transfers intact
          require (orderData.xudtAmount = matchData.xudtAmount) .badXudtAmount
          -- 6. the channel is younger than the order
          let orderBlock ← sysCallOr .headerNotSet (env.loadHeader 0 .groupInput)
          let channelBlock ← sysCallOr .headerNotSet (env.loadHeader channelIndex .cellDep)
          require (¬ channelBlock.number ≤ orderBlock.number) .channelCreatedBeforeOrder

/-- Step 3 of an extraction: the amount taken out is the rent, in the asset the
cell holds. -/
def checkExtraction (ctx : Context) (newMatchData : MatchData) (expectedRent : U64) :
    Result PUnit :=
  match ctx.oldState.xudt with
  | some (oldXudtAmount, _) =>
      let extracted := saturatingSub oldXudtAmount newMatchData.xudtAmount
      require (extracted = expectedRent.setWidth 128) .badExtractionAmount
  | none =>
      match ctx.newState with
      | none => .panicked
      | some newState =>
          let extracted :=
            saturatingSub ctx.oldState.unoccupiedCapacity newState.unoccupiedCapacity
          require (extracted = expectedRent) .badExtractionAmount

/-- The seller's side of `match_update`: extraction. -/
def sellerExtractVerify (ctx : Context) (matchArgs : MatchArgs) (newMatchData : MatchData) :
    Result PUnit := do
  -- 1. the channel still exists
  let existence ← checkChannelExistence env matchArgs.channelOutpoint
  require existence .channelCellNotInDep
  -- 2. the match is not exhausted
  let exhausted ← ctx.oldState.isExhausted env
  require (¬ exhausted) .matchNotExhausted
  -- 3. the amount extracted is the rent
  let expectedRent ← ctx.oldState.liquidityRent env
  checkExtraction ctx newMatchData expectedRent
  -- 4. the clock is set to the tip
  let tipBlock ← loadHeaderBlockNumber env 0
  require (newMatchData.lastExtractionBlock = tipBlock) .badMatchDataUpdate

/-- The buyer's side of `match_update`: inject or withdraw.  Of the new cell only the stored
block and the token type are checked, and not what it holds. -/
def buyerUpdateVerify (ctx : Context) (matchData newMatchData : MatchData) :
    Result PUnit := do
  require (newMatchData.lastExtractionBlock = matchData.lastExtractionBlock)
    .badMatchDataUpdate
  match ctx.oldState.xudt, ctx.newState.map OpticrumState.xudt with
  | some (_, oldType), some (some (_, newType)) => require (oldType = newType) .badMatchUpdate
  | _, _ => .ok ⟨⟩

/-- Match to Match: who signs decides which side is checked. -/
def matchUpdateVerify (ctx : Context) : Result PUnit := do
  let (matchArgs, matchData) ← ctx.expectOldMatch
  let (newMatchArgs, newMatchData) ← ctx.expectNewMatch
  require (matchArgs = newMatchArgs) .badMatchUpdate
  require (matchData.shannonsPerBlock = newMatchData.shannonsPerBlock) .rentPerBlockMismatch
  let hasSeller ← hasInputLock env matchArgs.sellerLockHash
  let hasBuyer ← hasInputLock env matchArgs.orderArgs.buyerLockHash
  match hasSeller, hasBuyer with
  | true, false => sellerExtractVerify env ctx matchArgs newMatchData
  | false, true => buyerUpdateVerify ctx matchData newMatchData
  | _, _ => fail .authorizationMissing

/-- The seller sweeps an exhausted Match.  The channel is not asked for: a match outlives it. -/
def matchDestroyVerify (ctx : Context) : Result PUnit := do
  let (matchArgs, _) ← ctx.expectOldMatch
  requireInputLock env matchArgs.sellerLockHash .sellerAuthMissing
  let exhausted ← ctx.oldState.isExhausted env
  require exhausted .matchNotExhausted

/-- The branch verifier of a name. -/
def branchVerify (ctx : Context) : VerifierName → Result PUnit
  | .orderCancel => orderCancelVerify env ctx
  | .orderMatch => orderMatchVerify env ctx
  | .matchUpdate => matchUpdateVerify env ctx
  | .matchDestroy => matchDestroyVerify env ctx

/-- The script: the root verifier, then the verifier it names.  A return of `Ok` accepts; errors
and panics reject. -/
def run : Result PUnit := do
  let (ctx, name) ← rootVerify env
  branchVerify env ctx name

end Verifiers

end Opticrum
