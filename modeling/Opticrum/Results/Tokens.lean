import Opticrum.Calculator.TokenDraft
import Opticrum.Results.Builders
import Opticrum.Results.Exhaustion

/-!
# The tokens a builder assigns

The token standard lets tokens disappear: an output that is not there is not missed.
So the builders have to assign every token of the cell they consume.  Cancelling,
matching and sweeping do.  An extraction takes the rent off the tokens of the match
and gives it to nobody, and where the rent does not fit in 64 bits it builds nothing.

## Requests

`Request` has the four builders that consume a cell, each with what its caller passes to it; the
buyer's update is not among them, as it is the caller who says what amount it writes.
`Request.KeepsTokens` asks for three things: that an instruction is built, that it runs, and
that the outputs then hold as many tokens as the consumed cell.

For three of the requests this always holds.  For an extraction the outcome is computed by
cases: swept, refused, or left with the difference; `assigned_eq_iff` is the arithmetic.
-/

namespace Opticrum

open Rust Ckb

/-! ## The books of an instruction -/

/-- A request to consume an Opticrum cell.  Each constructor is one of the builders, with what
its caller passes to it. -/
inductive Request where
  | cancelOrder (buyer : Address) (orderInfo : OrderInfo)
  | matchOrder (seller : Address) (orderInfo : OrderInfo) (matchArgs : MatchArgs)
  | extractRent (seller : Address) (matchInfo : MatchInfo) (tipBlock : U64)
  | destroyMatch (seller : Address) (matchInfo : MatchInfo) (tipBlock : U64)
  deriving DecidableEq, Repr

namespace Request

/-- The instruction the calculator builds. -/
def instruction : Request → Outcome Empty Instruction
  | .cancelOrder buyer orderInfo => .ok (Opticrum.cancelOrder buyer orderInfo)
  | .matchOrder seller orderInfo matchArgs => .ok (Opticrum.matchOrder seller orderInfo matchArgs)
  | .extractRent seller matchInfo tipBlock => Opticrum.extractRent seller matchInfo tipBlock
  | .destroyMatch seller matchInfo tipBlock => .ok (Opticrum.destroyMatch seller matchInfo tipBlock)

/-- The tokens of the consumed cell. -/
def xudt : Request → Option Xudt
  | .cancelOrder _ orderInfo => orderInfo.xudt
  | .matchOrder _ orderInfo _ => orderInfo.xudt
  | .extractRent _ matchInfo _ => matchInfo.xudt
  | .destroyMatch _ matchInfo _ => matchInfo.xudt

/-- Where the consumed cell is. -/
def outpoint : Request → OutPoint
  | .cancelOrder _ orderInfo => orderInfo.orderOutpoint
  | .matchOrder _ orderInfo _ => orderInfo.orderOutpoint
  | .extractRent _ matchInfo _ => matchInfo.matchOutpoint
  | .destroyMatch _ matchInfo _ => matchInfo.matchOutpoint

/-- The request moves all of `amount` tokens or none: an extraction at a tip where no rent
has accrued, or where it exhausts the match, and can be computed. -/
def MovesWhole (amount : U128) : Request → Prop
  | .extractRent _ matchInfo tipBlock =>
      matchInfo.accrued tipBlock.toNat < 2 ^ 64 ∧
        (matchInfo.accrued tipBlock.toNat = 0 ∨
          amount.toNat ≤ matchInfo.accrued tipBlock.toNat)
  | _ => True

end Request

/-- The tokens of type `s` in these outputs.  Tokens of other types are not counted, nor are the
tokens of outputs that are added later. -/
def tokensIn (s : Script) (outputs : List Cell) : ℕ :=
  ((outputs.filter fun o => o.type_ = some s).map fun o => (xudtAmountOf o.data).toNat).sum

/-- The request is built, and the draft its instruction makes of `sk₀` assigns every token
of the consumed cell. -/
def Request.KeepsTokens (rpc : RPC)
    (runBasic : BasicOperation → TransactionSkeleton → Outcome String TransactionSkeleton)
    (sk₀ : TransactionSkeleton) (x : Xudt) (request : Request) : Prop :=
  ∃ operations sk, request.instruction = .ok operations ∧
    runInstruction rpc runBasic operations sk₀ = .ok sk ∧
      tokensIn x.typeScript sk.outputs = x.amount.toNat

section Tokens

variable {rpc : RPC}
  {runBasic : BasicOperation → TransactionSkeleton → Outcome String TransactionSkeleton}
  {sk₀ sk : TransactionSkeleton} {c : LiveCell} {x : Xudt} {s : Script} {amount : U128}
  {seller : Address} {info : MatchInfo} {tip : U64} {operations : Instruction}

theorem Assigns.tokensIn_eq (h : Assigns sk s amount) : tokensIn s sk.outputs = amount.toNat := by
  obtain ⟨o, houtputs, htype, hamount⟩ := h
  rw [houtputs, tokensIn, List.filter_cons_of_pos (by simp [htype]), List.filter_nil,
    List.map_singleton, List.sum_singleton, hamount]

/-- An extraction assigns what it leaves in the match, or sweeps everything. -/
theorem DocumentedTokens.extractRent_tokensIn (doc : DocumentedTokens rpc runBasic)
    (hblank : Holds sk₀ [] []) (hxudt : info.xudt = some x)
    (hc : rpc.liveCell info.matchOutpoint.packed = some c) (htype : c.type_ = some x.typeScript)
    (hbuilt : (extractRent seller info tip : Outcome Empty _) = .ok operations)
    (hrun : runInstruction rpc runBasic operations sk₀ = .ok sk) :
    tokensIn x.typeScript sk.outputs =
      if x.amount.toNat ≤ info.accrued tip.toNat then x.amount.toNat
      else x.amount.toNat - info.accrued tip.toNat := by
  obtain ⟨b, htest, hops⟩ := Outcome.bind_eq_ok_iff.mp hbuilt
  obtain ⟨hfits, hcovered⟩ := MatchInfo.isExhausted_eq_ok_iff.mp htest
  have hvalue : info.value = x.amount.toNat := by rw [MatchInfo.value, hxudt]
  rw [hvalue] at hcovered
  cases b with
  | true =>
      obtain rfl := Except.ok.inj hops
      rw [if_pos (of_decide_eq_true hcovered.symm)]
      exact (doc.destroyMatch_assigns hblank hxudt hc htype hrun).tokensIn_eq
  | false =>
      obtain ⟨rent, hrent⟩ : ∃ rent, (info.extractionAmount tip : Outcome Empty _) = .ok rent :=
        ⟨_, MatchInfo.extractionAmount_of_lt hfits⟩
      rw [if_neg (of_decide_eq_false hcovered.symm), MatchInfo.extractionAmount_eq_ok_iff.mp hrent,
        (doc.extractRent_assigns hblank hxudt hc htype htest hrent hbuilt hrun).tokensIn_eq,
        toNat_saturatingSub, toNat_setWidth_of_le (show 64 ≤ 128 by omega)]

/-- An extraction is built exactly when its rent fits in 64 bits. -/
theorem exists_extractRent_iff :
    (∃ operations, (extractRent seller info tip : Outcome Empty _) = .ok operations) ↔
      info.accrued tip.toNat < 2 ^ 64 := by
  constructor
  · rintro ⟨operations, hbuilt⟩
    obtain ⟨exhausted, htest, -⟩ := Outcome.bind_eq_ok_iff.mp hbuilt
    exact (MatchInfo.isExhausted_eq_ok_iff.mp htest).1
  · intro hfits
    simp only [extractRent, MatchInfo.isExhausted_of_lt hfits, Outcome.ok_bind,
      MatchInfo.extractionAmount_of_lt hfits]
    split
    · exact ⟨_, rfl⟩
    · cases info.xudt with
      | none => exact ⟨_, rfl⟩
      | some x => exact ⟨_, rfl⟩

/-- Of a sum, nothing is missing when the part taken off is nothing or all of it. -/
theorem assigned_eq_iff {amount rent : ℕ} :
    (if amount ≤ rent then amount else amount - rent) = amount ↔ rent = 0 ∨ amount ≤ rent := by
  split <;> omega

/-- **Tokens.** A request is built and assigns every token of the cell it consumes exactly when
it moves all of them or none.  The framework is supposed to run what is built.

An extraction of a part leaves the rest in the match and gives the part to nobody.  An
extraction whose rent does not fit in 64 bits is not built at all, and what is not built assigns
nothing. -/
theorem tokens_kept_iff (doc : DocumentedTokens rpc runBasic) (request : Request)
    (hblank : Holds sk₀ [] []) (hxudt : request.xudt = some x)
    (hc : rpc.liveCell request.outpoint.packed = some c) (htype : c.type_ = some x.typeScript)
    (hruns : ∀ operations, request.instruction = .ok operations →
      ∃ sk, runInstruction rpc runBasic operations sk₀ = .ok sk) :
    request.KeepsTokens rpc runBasic sk₀ x ↔ request.MovesWhole x.amount := by
  -- only an extraction may leave tokens behind
  cases request with
  | cancelOrder buyer orderInfo =>
      obtain ⟨sk, hrun⟩ := hruns _ rfl
      have hassigns := doc.cancelOrder_assigns hblank hxudt hc hrun
      exact ⟨fun _ => trivial, fun _ => ⟨_, sk, rfl, hrun, hassigns.tokensIn_eq⟩⟩
  | matchOrder seller orderInfo matchArgs =>
      obtain ⟨sk, hrun⟩ := hruns _ rfl
      have hassigns := doc.matchOrder_assigns hblank hxudt hc htype hrun
      exact ⟨fun _ => trivial, fun _ => ⟨_, sk, rfl, hrun, hassigns.tokensIn_eq⟩⟩
  | destroyMatch seller matchInfo tipBlock =>
      obtain ⟨sk, hrun⟩ := hruns _ rfl
      have hassigns := doc.destroyMatch_assigns hblank hxudt hc htype hrun
      exact ⟨fun _ => trivial, fun _ => ⟨_, sk, rfl, hrun, hassigns.tokensIn_eq⟩⟩
  | extractRent seller matchInfo tipBlock =>
      constructor
      · rintro ⟨operations, sk, hbuilt, hrun, hkept⟩
        refine ⟨exists_extractRent_iff.mp ⟨operations, hbuilt⟩, ?_⟩
        rw [doc.extractRent_tokensIn hblank hxudt hc htype hbuilt hrun] at hkept
        exact assigned_eq_iff.mp hkept
      · rintro ⟨hfits, hwhole⟩
        have hexists : ∃ operations,
            (extractRent seller matchInfo tipBlock : Outcome Empty _) = .ok operations :=
          exists_extractRent_iff.mpr hfits
        obtain ⟨operations, hbuilt⟩ := hexists
        obtain ⟨sk, hrun⟩ := hruns operations hbuilt
        refine ⟨operations, sk, hbuilt, hrun, ?_⟩
        rw [doc.extractRent_tokensIn hblank hxudt hc htype hbuilt hrun]
        exact assigned_eq_iff.mpr hwhole

end Tokens

/-! ## In the market -/

namespace Market

/-- A match with 1000 tokens, never extracted. -/
def tokenPool : MatchCell := matchCell ⟨1000, 3, 0⟩ (some token) 0 0 1000

/-- What the reader makes of it. -/
def tokenInfo : MatchInfo where
  matchArgs := matchArgs
  matchData := ⟨1000, 3, 0⟩
  xudt := some ⟨1000, token⟩
  ckbCapacity := 0
  matchOutpoint := ⟨Vector.replicate 32 0xaa, 0⟩
  matchCurrentBlock := 1000

/-- A node of a market with this match. -/
def tokenNode : RPC :=
  .ofCells [contractCell, channelCell, sellerCell, tokenPool.toLiveCell]
    (fun n => headerAt n.toNat) codeHash
    (fun n => BitVec.eq_of_toNat_eq (headerAt_number n.isLt)) (by
      simp only [List.forall_mem_cons]
      refine ⟨⟨fund_funded (by decide), rfl⟩, ⟨by decide, rfl⟩, ⟨fund_funded (by decide), rfl⟩,
        ⟨matchOutput_funded (by decide), rfl⟩, List.forall_mem_nil _⟩)

/-- The framework at this node. -/
def tokenFramework (operation : BasicOperation) (sk : TransactionSkeleton) :
    Outcome String TransactionSkeleton :=
  simulateOutputs tokenNode contractCell [sellerCell] operation sk

theorem documentedTokens_tokenFramework : DocumentedTokens tokenNode tokenFramework :=
  documentedTokens_simulate (show tokenNode.Live contractCell by rfl) (by
    intro p hp
    rw [List.mem_singleton.mp hp]
    rfl)

/-- At block 1100 a rent of 300 tokens is due; the draft assigns the other 700. -/
theorem tokenPool_extraction_burns : ∃ instruction sk,
    (Request.extractRent ⟨sellerLock⟩ tokenInfo 1100).instruction = .ok instruction ∧
      runInstruction tokenNode tokenFramework instruction .new = .ok sk ∧
        tokensIn token sk.outputs = 700 := by
  obtain ⟨instruction, hbuilt, sk, hrun⟩ : ∃ instruction,
      (extractRent ⟨sellerLock⟩ tokenInfo 1100 : Outcome Empty _) = .ok instruction ∧
        ∃ sk, runInstruction tokenNode tokenFramework instruction .new = .ok sk := ⟨_, rfl, _, rfl⟩
  refine ⟨instruction, sk, hbuilt, hrun, ?_⟩
  have hpool : tokenNode.liveCell tokenInfo.matchOutpoint.packed = some tokenPool.toLiveCell := rfl
  exact documentedTokens_tokenFramework.extractRent_tokensIn ⟨rfl, rfl⟩ rfl hpool rfl hbuilt hrun

/-- At block 2000 the match is exhausted, and the seller gets all of its tokens. -/
theorem tokenPool_sweep_keeps :
    (Request.extractRent ⟨sellerLock⟩ tokenInfo 2000).KeepsTokens tokenNode tokenFramework .new
      ⟨1000, token⟩ := by
  obtain ⟨instruction, hbuilt, sk, hrun⟩ : ∃ instruction,
      (extractRent ⟨sellerLock⟩ tokenInfo 2000 : Outcome Empty _) = .ok instruction ∧
        ∃ sk, runInstruction tokenNode tokenFramework instruction .new = .ok sk := ⟨_, rfl, _, rfl⟩
  have hpool : tokenNode.liveCell tokenInfo.matchOutpoint.packed = some tokenPool.toLiveCell := rfl
  refine (tokens_kept_iff documentedTokens_tokenFramework
    (.extractRent ⟨sellerLock⟩ tokenInfo 2000) ⟨rfl, rfl⟩ rfl hpool rfl ?_).mpr
      ⟨by decide, .inr (by decide)⟩
  intro operations hops
  obtain rfl := Except.ok.inj (hbuilt.symm.trans hops)
  exact ⟨sk, hrun⟩

end Market

end Opticrum
