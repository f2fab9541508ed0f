import Opticrum.Contract.Acceptance
import Opticrum.Foundation.Triple

/-!
# The faults of the contract's functions

An aborted script and a script that returns an error reject alike, but only the
error is a decision of the contract.  This module follows every function the
script calls and records what it can end in.

The decoders and the system calls never panic, whatever bytes they are shown:
every offset they read is covered by a length they have checked.  `Foreseen` is
the class of faults the verifiers stay in.  It leaves out the panic, and with it
the errors behind which a verifier would have been handed states of the wrong
kind: `UnexpectedBranch`, `BadMatchUpdate`, and the `BadOrderMatch` of a missing
successor.

## How it is followed

Every function has one triple `(f …).Yields Foreseen P`, and the triple of a caller is put
together from those of its callees by the rule for bind, in the order of the program.  Two facts
travel along with the faults.  A verifier runs only behind the root, so it knows the kind of the
old state, and of the new one where there is one; this is what excludes the unreachable errors.
And the product of rate and time has to fit into a word, `RentFits`: where it does not, the
contract does panic, in `liquidity_rent` and nowhere else.
-/

namespace Opticrum

open Rust Ckb Outcome

/-- The faults in which a verifier was handed the states it expects.  The errors of system calls
are among them, as are all that a wrong transaction may cause. -/
def Foreseen : Fault Error → Prop
  | .panic => False
  | .error (.opticrum .unexpectedBranch) => False
  | .error (.opticrum .badMatchUpdate) => False
  | .error (.opticrum .badOrderMatch) => False
  | .error _ => True

/-- A foreseen fault is a decision of the contract, not an abort. -/
theorem Foreseen.ne_panic {f : Fault Error} (h : Foreseen f) : f ≠ .panic := by
  rintro rfl
  exact h

/-- A foreseen fault is not the one of a verifier that was handed a cell of the wrong kind. -/
theorem Foreseen.ne_unexpectedBranch {f : Fault Error} (h : Foreseen f) :
    f ≠ .error (.opticrum .unexpectedBranch) := by
  rintro rfl
  exact h

/-- Nor is it the one of `MatchUpdate` without a successor. -/
theorem Foreseen.ne_badMatchUpdate {f : Fault Error} (h : Foreseen f) :
    f ≠ .error (.opticrum .badMatchUpdate) := by
  rintro rfl
  exact h

/-! ## The decoders -/

section Decoders

variable {bs : Bytes}

/-- After the check of the length both windows are inside the string. -/
theorem OutPoint.yields_fromSlice : (fromSlice bs).Yields (· ≠ .panic) fun _ => True := by
  refine (yields_ensure (by simp)).bind fun _ hlen => ?_
  refine (yields_readArray (by simp [hlen])).bind fun _ _ => ?_
  exact (yields_readArray (by simp [hlen])).bind fun _ _ => trivial

/-- The one window of a key is the whole string. -/
theorem CompressedPubkey.yields_fromSlice :
    (fromSlice bs).Yields (· ≠ .panic) fun _ => True := by
  refine (yields_ensure (by simp)).bind fun _ hlen => ?_
  exact (yields_readArray (by simp [hlen])).bind fun _ _ => trivial

/-- The slice that holds the key is inside the args, so the indexing that would abort never
does; the decoder of the key returns or reports an error of its own. -/
theorem OrderArgs.yields_fromSlice : (fromSlice bs).Yields (· ≠ .panic) fun _ => True := by
  refine (yields_ensure (by simp)).bind fun _ hlen => ?_
  refine (yields_slice (by simp) (by simp [hlen])).bind fun _ _ => ?_
  refine CompressedPubkey.yields_fromSlice.bind fun _ _ => ?_
  exact (yields_readArray (by simp [hlen])).bind fun _ _ => trivial

/-- All three windows are inside the data once its length is right. -/
theorem OrderData.yields_fromSlice : (fromSlice bs).Yields (· ≠ .panic) fun _ => True := by
  refine (yields_ensure (by simp)).bind fun _ hlen => ?_
  refine (yields_readArray (by simp [hlen])).bind fun _ _ => ?_
  refine (yields_readArray (by simp [hlen])).bind fun _ _ => ?_
  exact (yields_readArray (by simp [hlen])).bind fun _ _ => trivial

/-- Both slices are inside the args.  The decoders they go to do not panic, and the error of one
of them is renamed on the way. -/
theorem MatchArgs.yields_fromSlice : (fromSlice bs).Yields (· ≠ .panic) fun _ => True := by
  refine (yields_ensure (by simp)).bind fun _ hlen => ?_
  refine (yields_slice (by simp) (by simp [hlen])).bind fun _ _ => ?_
  refine OrderArgs.yields_fromSlice.bind fun _ _ => ?_
  refine (yields_slice (by simp) (by simp [hlen])).bind fun _ _ => ?_
  refine (OutPoint.yields_fromSlice.mapErr (by simp)).bind fun _ _ => ?_
  exact (yields_readArray (by simp [hlen])).bind fun _ _ => trivial

/-- The lax decoder: at least 32 bytes are enough for every window it reads. -/
theorem MatchData.yields_fromSlice : (fromSlice bs).Yields (· ≠ .panic) fun _ => True := by
  refine (yields_ensure (by simp)).bind fun _ hlong => ?_
  have hlen : 32 ≤ bs.length := Nat.le_of_not_lt hlong
  refine (yields_readArray (Nat.le_trans (by decide) hlen)).bind fun _ _ => ?_
  refine (yields_readArray (Nat.le_trans (by decide) hlen)).bind fun _ _ => ?_
  exact (yields_readArray hlen).bind fun _ _ => trivial

end Decoders

/-! ## System calls -/

section Syscalls

variable {env : Env} {index : ℕ} {source : Source}

/-- Asking for a cell past the end is an error the script can see, and what is returned is the
cell at the position asked for. -/
theorem yields_loadCell :
    (env.loadCell index source).Yields (· ≠ .panic)
      fun c => (env.cells source)[index]? = some c := by
  unfold Env.loadCell
  cases (env.cells source)[index]? with
  | none => exact fun h => nomatch h
  | some c => rfl

/-- A field of a loaded cell. -/
theorem yields_loadCell_field {α : Type} (f : Cell → α) :
    (env.loadCell index source >>= fun c => .ok (f c)).Yields (· ≠ .panic) fun _ => True :=
  yields_loadCell.bind fun _ _ => trivial

/-- The occupied capacity comes with an overflow check that is reported as an error. -/
theorem yields_loadCellOccupiedCapacity :
    (env.loadCellOccupiedCapacity index source).Yields (· ≠ .panic) fun _ => True := by
  refine yields_loadCell.bind fun c _ => ?_
  split
  · trivial
  · exact fun h => nomatch h

/-- A missing header is an error, whether it is a header dep past the end or the header of a
cell that no dep supplies. -/
theorem yields_loadHeader :
    (env.loadHeader index source).Yields (· ≠ .panic) fun _ => True := by
  rw [yields_iff]
  refine ⟨fun _ _ => trivial, fun f hf => ?_⟩
  rintro rfl
  unfold Env.loadHeader at hf
  split at hf <;> split at hf <;> grind [Outcome.err]

end Syscalls

/-! ## Helpers of the verifiers -/

section Helpers

variable {α : Type} {P : α → Prop} {x : Outcome SysError α} {e : OpticrumError}
variable {env : Env} {index : ℕ} {source : Source}

/-- An error of a system call is passed on under its own number, which is foreseen. -/
theorem yields_sysCall (h : x.Yields (· ≠ .panic) P) : (sysCall x).Yields Foreseen P :=
  h.mapErr fun _ => trivial

/-- An error of a system call may also be replaced by one of the contract's.  It is then that
one that has to be foreseen. -/
theorem yields_sysCallOr (he : Foreseen (.error (.opticrum e)))
    (h : x.Yields (· ≠ .panic) P) : (sysCallOr e x).Yields Foreseen P := h.mapErr fun _ => he

/-- The texts of the decoders' errors are dropped for a code of the contract. -/
theorem yields_mapProtoErr {x : Outcome String α} (he : Foreseen (.error (.opticrum e)))
    (h : x.Yields (· ≠ .panic) P) : (mapProtoErr x e).Yields Foreseen P := h.mapErr fun _ => he

/-- A check ends in its error or lets the verifier go on. -/
theorem yields_require {c : Prop} [Decidable c] (he : Foreseen (.error (.opticrum e))) :
    (require c e).Yields Foreseen fun _ => True :=
  (yields_ensure he).mono (fun _ h => h) fun _ _ => trivial

/-- A check whose condition holds is passed. -/
theorem require_of {c : Prop} [Decidable c] (h : c) : require c e = .ok ⟨⟩ :=
  require_eq_ok_iff.mpr h

/-- Reading the number of a header dep adds nothing to what loading it can end in. -/
theorem yields_loadHeaderBlockNumber :
    (loadHeaderBlockNumber env index).Yields Foreseen fun _ => True :=
  (yields_sysCallOr (by trivial) yields_loadHeader).bind fun _ _ => trivial

/-- The search through the inputs for a signature ends in the answer or in the error the caller
has chosen. -/
theorem yields_requireInputLock [ScriptHash] {lockHash : Byte32}
    (he : Foreseen (.error (.opticrum e))) :
    (requireInputLock env lockHash e).Yields Foreseen fun _ => True := by
  rw [requireInputLock, hasInputLock_eq, ok_bind]
  exact yields_require he

/-- The amount of a channel is read behind a length check. -/
theorem yields_channelMeets {cell : Cell} {minCapacity : Option U64}
    {minXudtAmount : Option U128} {xudtTypeScript : Option (Option Script)} :
    (channelMeets cell minCapacity minXudtAmount xudtTypeScript).Yields Foreseen
      fun _ => True := by
  unfold channelMeets
  split
  · trivial
  · split
    · trivial
    · have hlast : ∀ enough : Bool, Yields Foreseen (fun _ => True)
          (if ¬ enough then .ok false else .ok (¬ minCapacity.any (cell.capacity < ·)) :
            Result Bool) := by
        intro enough
        split <;> trivial
      cases minXudtAmount with
      | none => exact hlast true
      | some amount =>
          simp only
          split
          · exact hlast false
          · next hshort =>
            refine (yields_readArray (by simpa using hshort)).bind fun xudtAmount _ => ?_
            exact hlast _

/-- The search for the channel.  A position found among the raw deps at which no cell is
resolved counts as not found, and the amount of tokens is read only where there is enough data
for it. -/
theorem yields_findChannelInCelldeps {channelOutpoint : OutPoint} {minCapacity : Option U64}
    {minXudtAmount : Option U128} {xudtTypeScript : Option (Option Script)} :
    (findChannelInCelldeps env channelOutpoint minCapacity minXudtAmount
      xudtTypeScript).Yields Foreseen fun _ => True := by
  simp only [findChannelInCelldeps, Env.loadTransactionCellDeps, sysCall, mapErr_ok, ok_bind]
  split
  · trivial
  · split
    · trivial
    · exact yields_channelMeets.bind fun _ _ => trivial

/-- The amount of an xUDT cell is read behind a length check. -/
theorem yields_parseXudt : (parseXudt env index source).Yields Foreseen fun _ => True := by
  refine (yields_sysCall (yields_loadCell_field Cell.data)).bind fun data _ => ?_
  split
  · trivial
  · next hshort =>
    refine (yields_readArray (by simpa using hshort)).bind fun _ _ => ?_
    refine (yields_sysCall (yields_loadCell_field Cell.type_)).bind fun type_ _ => ?_
    cases type_ <;> trivial

/-- The subtraction saturates; an overflow of the occupied capacity is reported by the system
call. -/
theorem yields_getUnoccupiedCapacity :
    (getUnoccupiedCapacity env index source).Yields Foreseen fun _ => True := by
  refine (yields_sysCall (yields_loadCell_field Cell.capacity)).bind fun _ _ => ?_
  exact (yields_sysCall yields_loadCellOccupiedCapacity).bind fun _ _ => trivial

/-- Arbitrary args and data are classified or refused. -/
theorem yields_parse {args data : Bytes} :
    (Branch.parse args data).Yields Foreseen fun _ => True := by
  unfold Branch.parse
  split
  · refine (yields_mapProtoErr (by trivial) OrderArgs.yields_fromSlice).bind fun _ _ => ?_
    exact (yields_mapProtoErr (by trivial) OrderData.yields_fromSlice).bind fun _ _ => trivial
  · split
    · refine (yields_mapProtoErr (by trivial) MatchArgs.yields_fromSlice).bind fun _ _ => ?_
      exact (yields_mapProtoErr (by trivial) MatchData.yields_fromSlice).bind fun _ _ => trivial
    · trivial

end Helpers

/-! ## The root verifier -/

section Root

variable {env : Env}

/-- The state of the group's first cell is decoded or reported as malformed.  That it does not
panic rests on the decoders above. -/
theorem yields_loadOldState : (loadOldState env).Yields Foreseen fun _ => True := by
  refine (yields_sysCall (yields_loadCell_field Cell.data)).bind fun _ _ => ?_
  refine yields_parse.bind fun _ _ => ?_
  refine yields_getUnoccupiedCapacity.bind fun _ _ => ?_
  exact yields_parseXudt.bind fun _ _ => trivial

/-- So is the state of an output. -/
theorem yields_loadNewState {index : ℕ} :
    (loadNewState env index).Yields Foreseen fun _ => True := by
  refine (yields_sysCall (yields_loadCell_field Cell.lock)).bind fun _ _ => ?_
  refine (yields_sysCall (yields_loadCell_field Cell.data)).bind fun _ _ => ?_
  refine yields_parse.bind fun _ _ => ?_
  refine yields_getUnoccupiedCapacity.bind fun _ _ => ?_
  exact yields_parseXudt.bind fun _ _ => trivial

/-- There may be no output of the contract; then there is no state to report on either. -/
theorem yields_findNewState : (findNewState env).Yields Foreseen fun _ => True := by
  unfold findNewState
  split
  · trivial
  · exact yields_loadNewState.bind fun _ _ => trivial

/-- The routing returns a verifier or the error of a pair of states it does not know. -/
theorem yields_route {old : OpticrumState} {new : Option OpticrumState} :
    (route old new).Yields Foreseen fun _ => True := by
  unfold route
  split <;> trivial

/-- The root verifier decides whatever it is shown. -/
theorem yields_rootVerify : (rootVerify env).Yields Foreseen fun _ => True := by
  refine yields_loadOldState.bind fun _ _ => ?_
  refine yields_findNewState.bind fun _ _ => ?_
  exact yields_route.bind fun _ _ => trivial

/-- The root verifier has loaded the first cell of its group. -/
theorem exists_groupInputs_of_rootVerify {x : Context × VerifierName}
    (h : rootVerify env = .ok x) : ∃ c rest, env.tx.groupInputs env.script = c :: rest := by
  cases hgroup : env.tx.groupInputs env.script with
  | cons c rest => exact ⟨c, rest, rfl⟩
  | nil =>
      obtain ⟨old, hold, -⟩ := Outcome.bind_eq_ok_iff.mp h
      obtain ⟨data, hdata, -⟩ := Outcome.bind_eq_ok_iff.mp hold
      simp [sysCall, Env.loadCellData, Env.loadCell_eq_ok_iff, Env.cells, Env.liveCells,
        hgroup] at hdata

end Root

/-! ## Rent -/

/-- Wherever the script would compute the rent of the cell it inspects, the rent
fits in 64 bits. -/
def RentFits (env : Env) : Prop :=
  ∀ c rest a d tip, env.tx.groupInputs env.script = c :: rest → IsMatch c.toCell a d →
    tip? env.tx = some tip → rentAt c d tip < 2 ^ 64

section Rent

variable {env : Env} {c : LiveCell} {rest : List LiveCell} {st : OpticrumState}
  {a : MatchArgs} {d : MatchData}

/-- The base is the stored block, or the header of the group's first cell, which may be
missing. -/
theorem yields_baseBlock : (OpticrumState.baseBlock env d).Yields Foreseen fun _ => True := by
  unfold OpticrumState.baseBlock
  split
  · exact (yields_sysCallOr (by trivial) yields_loadHeader).bind fun _ _ => trivial
  · trivial

/-- The product of rate and blocks is the one place where a verifier can abort: the contract is
built with overflow checks.  `RentFits` keeps it below 64 bits. -/
theorem yields_liquidityRent (hfits : RentFits env)
    (hgroup : env.tx.groupInputs env.script = c :: rest) (hst : StateOf c.toCell st)
    (hb : st.branch = .matchCell a d) :
    (st.liquidityRent env).Yields Foreseen fun _ => True := by
  unfold OpticrumState.liquidityRent
  rw [hb]
  refine yields_baseBlock.remember.bind fun base ⟨_, hbase⟩ => ?_
  have htip : ((loadHeaderBlockNumber env 0).mapErr fun _ => Error.opticrum .headerNotSet).Yields
      Foreseen fun _ => True :=
    (yields_loadHeaderBlockNumber.mono (fun _ => Foreseen.ne_panic) fun _ h => h).mapErr
      fun _ => trivial
  refine htip.remember.bind fun tip ⟨_, htip⟩ => ?_
  rw [baseBlock_eq_ok_iff hgroup] at hbase
  rw [mapErr_eq_ok_iff, loadHeaderBlockNumber_eq_ok_iff] at htip
  have hprod := hfits c rest a d _ hgroup (hst.isMatch hb) htip
  rw [rentAt, ← hbase.2, ← toNat_saturatingSub] at hprod
  exact yields_checkedMul (.inl hprod)

/-- Comparing the rent with the pool adds no fault. -/
theorem yields_isExhausted (hfits : RentFits env)
    (hgroup : env.tx.groupInputs env.script = c :: rest) (hst : StateOf c.toCell st)
    (hb : st.branch = .matchCell a d) :
    (st.isExhausted env).Yields Foreseen fun _ => True := by
  refine (yields_liquidityRent hfits hgroup hst hb).bind fun r _ => ?_
  cases st.xudt <;> trivial

end Rent

/-! ## The branch verifiers -/

section Branches

variable [ScriptHash] {env : Env} {c : LiveCell} {rest : List LiveCell} {ctx : Context}
  {st : OpticrumState}

/-- Of an order's cancellation: the old state is an order, as the routing has made sure, and the
rest is one check of a signature. -/
theorem yields_orderCancelVerify {a : OrderArgs} {d : OrderData}
    (hold : ctx.oldState.branch = .orderCell a d) :
    (orderCancelVerify env ctx).Yields Foreseen fun _ => True := by
  simp only [orderCancelVerify, Context.expectOldOrder, hold, ok_bind]
  exact yields_requireInputLock trivial

/-- Of an order's match.  Both states are of the kind the verifier expects, which leaves the
errors of its checks; it computes no rent. -/
theorem yields_orderMatchVerify {a : OrderArgs} {d : OrderData} {ma : MatchArgs} {md : MatchData}
    (hold : ctx.oldState.branch = .orderCell a d) (hnew : ctx.newState = some st)
    (hst : st.branch = .matchCell ma md) :
    (orderMatchVerify env ctx).Yields Foreseen fun _ => True := by
  simp only [orderMatchVerify, Context.expectOldOrder, hold, Context.expectNewMatch, hnew, hst,
    ok_bind]
  refine yields_findChannelInCelldeps.bind fun channel _ => ?_
  cases channel with
  | none => trivial
  | some channelIndex =>
      refine (yields_requireInputLock (by trivial)).bind fun _ _ => ?_
      refine (yields_require (by trivial)).bind fun _ _ => ?_
      refine (yields_require (by trivial)).bind fun _ _ => ?_
      refine (yields_require (by trivial)).bind fun _ _ => ?_
      refine (yields_sysCallOr (by trivial) yields_loadHeader).bind fun _ _ => ?_
      refine (yields_sysCallOr (by trivial) yields_loadHeader).bind fun _ _ => ?_
      exact yields_require (by trivial)

omit [ScriptHash] in
/-- The `unwrap` of the new state is behind the routing. -/
theorem yields_checkExtraction {d' : MatchData} {r : U64} (hnew : ctx.newState = some st) :
    (checkExtraction ctx d' r).Yields Foreseen fun _ => True := by
  rw [checkExtraction, hnew]
  cases ctx.oldState.xudt with
  | none => exact yields_require (by trivial)
  | some x => exact yields_require (by trivial)

omit [ScriptHash] in
/-- Of an extraction: the rent has to fit.  What has been taken out is computed by saturating
subtractions, of tokens or of capacities. -/
theorem yields_sellerExtractVerify {a : MatchArgs} {d d' : MatchData} (hfits : RentFits env)
    (hgroup : env.tx.groupInputs env.script = c :: rest)
    (hold : StateOf c.toCell ctx.oldState) (hb : ctx.oldState.branch = .matchCell a d)
    (hnew : ctx.newState = some st) :
    (sellerExtractVerify env ctx a d').Yields Foreseen fun _ => True := by
  rw [sellerExtractVerify, checkChannelExistence_eq, ok_bind]
  refine (yields_require (by trivial)).bind fun _ _ => ?_
  refine (yields_isExhausted hfits hgroup hold hb).bind fun _ _ => ?_
  refine (yields_require (by trivial)).bind fun _ _ => ?_
  refine (yields_liquidityRent hfits hgroup hold hb).bind fun _ _ => ?_
  refine (yields_checkExtraction hnew).bind fun _ _ => ?_
  refine yields_loadHeaderBlockNumber.bind fun _ _ => ?_
  exact yields_require (by trivial)

omit [ScriptHash] in
/-- Behind the root's comparison of the tokens the buyer's type check cannot fail. -/
theorem yields_buyerUpdateVerify {d d' : MatchData} (hnew : ctx.newState = some st)
    (hxudt : ctx.oldState.xudt = st.xudt) :
    (buyerUpdateVerify ctx d d').Yields Foreseen fun _ => True := by
  refine (yields_require (by trivial)).bind fun _ _ => ?_
  rw [hnew, Option.map_some, ← hxudt]
  cases ctx.oldState.xudt with
  | none => trivial
  | some x =>
      show Yields Foreseen _ (require (x.2 = x.2) .badMatchUpdate)
      rw [require_of rfl]
      trivial

/-- Of an update of a match.  Which of the two parties has signed decides between the branches;
when both or none has, the error is one of the contract's. -/
theorem yields_matchUpdateVerify {a : MatchArgs} {d d' : MatchData} (hfits : RentFits env)
    (hgroup : env.tx.groupInputs env.script = c :: rest)
    (hold : StateOf c.toCell ctx.oldState) (hb : ctx.oldState.branch = .matchCell a d)
    (hnew : ctx.newState = some st) (hst : st.branch = .matchCell a d')
    (hxudt : ctx.oldState.xudt = st.xudt) :
    (matchUpdateVerify env ctx).Yields Foreseen fun _ => True := by
  simp only [matchUpdateVerify, Context.expectOldMatch, hb, Context.expectNewMatch, hnew, hst,
    ok_bind, hasInputLock_eq]
  rw [require_of trivial, ok_bind]
  refine (yields_require (by trivial)).bind fun _ _ => ?_
  split
  · exact yields_sellerExtractVerify hfits hgroup hold hb hnew
  · exact yields_buyerUpdateVerify hnew hxudt
  · trivial

/-- Of a destruction: a signature and the test of exhaustion, for which the rent has to fit. -/
theorem yields_matchDestroyVerify {a : MatchArgs} {d : MatchData} (hfits : RentFits env)
    (hgroup : env.tx.groupInputs env.script = c :: rest)
    (hold : StateOf c.toCell ctx.oldState) (hb : ctx.oldState.branch = .matchCell a d) :
    (matchDestroyVerify env ctx).Yields Foreseen fun _ => True := by
  simp only [matchDestroyVerify, Context.expectOldMatch, hb, ok_bind]
  refine (yields_requireInputLock (by trivial)).bind fun _ _ => ?_
  refine (yields_isExhausted hfits hgroup hold hb).bind fun _ _ => ?_
  exact yields_require (by trivial)

end Branches

end Opticrum
