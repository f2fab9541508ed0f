import Mathlib.Algebra.Order.Floor.Div
import Opticrum.Contract.Construct

/-!
# Releasing an escrow

The seller may close a match once the accumulated rent covers what it holds.  For
a pool of shannons that moment always comes.  For tokens it need not: the rent is
a 64-bit product, the amount has 128 bits, and since no update can change the
amount it never comes nearer.

`releasable_iff` is the exact condition: the blocks that pay for the whole amount
must cost less than `2 ^ 64` and end before block `2 ^ 64`.

## How it is proved

In one direction a single transaction closes the escrow, at the tip after which the rent covers
what it holds: `Escrow.releasable_of_coverable`.  For a pool there always is one, by the bounds
on the rent base and on the pool.

In the other the invariant is `TokensOrCovered`: after every step either the tokens are all
still there, at a rent base that is no earlier than at the start, or the escrow is closed and
its amount was coverable.  The steps are those that show no header from before the base, since
turning the clock back is another matter.  A later base only makes the amount harder to
cover.
-/

namespace Opticrum

open Rust Ckb TransitionSystem

section Release

variable [ScriptHash]

/-- When the seller signs, the tip is not before the rent base.  Setting the base back is what
`Opticrum.Results.Strategy` is about. -/
def LateTip (c : LiveCell) (tx : Transaction) : Prop :=
  ∀ a d tip, IsMatch c.toCell a d → Signed tx a.sellerLockHash → tip? tx = some tip →
    rentBase c d ≤ tip

/-- A step of the escrow at a late tip. -/
def ReleaseStep (codeHash : Byte32) (s : Option LiveCell) (tx : Transaction)
    (t : Option LiveCell) : Prop :=
  Step codeHash s tx t ∧ ∀ c, s = some c → LateTip c tx

/-- Some sequence of accepted transactions closes the escrow in `c`. -/
def Releasable (codeHash : Byte32) (c : LiveCell) : Prop :=
  ∃ moves, Run (ReleaseStep codeHash) (some c) moves none

/-- A funded match between two parties, of whom the seller has a lock to sign with, in the range
of blocks and pools a chain can reach.  A rate of 0 is left out: such a match pays nothing at
any tip. -/
structure Escrow (codeHash : Byte32) (c : MatchCell) : Prop where
  lock : isOpticrumLock codeHash c.lock = true
  funded : c.occupied ≤ c.capacity.toNat
  rate : 1 ≤ c.matchData.shannonsPerBlock.toNat
  parties : c.args.orderArgs.buyerLockHash ≠ c.args.sellerLockHash
  base : rentBase c.toLiveCell c.matchData < 2 ^ 63
  pool : c.unoccupied < 2 ^ 63
  seller : ∃ lock, isOpticrumLock codeHash lock = false ∧
    calcScriptHash lock = c.args.sellerLockHash

/-- The blocks after which the rent covers `value`. -/
def blocksToCover (c : MatchCell) (value : ℕ) : ℕ := value ⌈/⌉ c.matchData.shannonsPerBlock.toNat

/-- The rent can reach `value`: the product and the block number fit in 64 bits.  Both are
needed, as a slow rate runs out of blocks and a fast one out of bits. -/
def Coverable (c : MatchCell) (value : ℕ) : Prop :=
  c.matchData.shannonsPerBlock.toNat * blocksToCover c value < 2 ^ 64 ∧
    rentBase c.toLiveCell c.matchData + blocksToCover c value < 2 ^ 64

instance (c : MatchCell) (value : ℕ) : Decidable (Coverable c value) :=
  inferInstanceAs (Decidable (_ ∧ _))

variable {codeHash : Byte32} {c : MatchCell}

omit [ScriptHash] in
theorem blocksToCover_le_iff {value n : ℕ} (hrate : 1 ≤ c.matchData.shannonsPerBlock.toNat) :
    blocksToCover c value ≤ n ↔ value ≤ c.matchData.shannonsPerBlock.toNat * n :=
  ceilDiv_le_iff_le_mul hrate

omit [ScriptHash] in
/-- A pool of shannons is small enough: one block more than it pays for is still
less than twice the pool, or than one block's rent. -/
theorem coverable_of_lt {value : ℕ} (hrate : 1 ≤ c.matchData.shannonsPerBlock.toNat)
    (hbase : rentBase c.toLiveCell c.matchData < 2 ^ 63) (hvalue : value < 2 ^ 63) :
    Coverable c value := by
  have hblocks : blocksToCover c value ≤ value :=
    (blocksToCover_le_iff hrate).mpr (Nat.le_mul_of_pos_left _ hrate)
  refine ⟨?_, by omega⟩
  rcases Nat.lt_or_ge (blocksToCover c value) 2 with hone | htwo
  · have hle : c.matchData.shannonsPerBlock.toNat * blocksToCover c value ≤
        c.matchData.shannonsPerBlock.toNat * 1 := Nat.mul_le_mul_left _ (by omega)
    have hlt := c.matchData.shannonsPerBlock.isLt
    omega
  · -- one block less does not cover the value, so the last block adds less than the value
    have hless : ∀ n, n + 1 = blocksToCover c value →
        c.matchData.shannonsPerBlock.toNat * n < value := by
      intro n hn
      by_contra hcover
      have hle := (blocksToCover_le_iff hrate).mpr (Nat.le_of_not_lt hcover)
      omega
    obtain ⟨n, hn⟩ : ∃ n, n + 1 = blocksToCover c value := ⟨blocksToCover c value - 1, by omega⟩
    have hlast := hless n hn
    have hrent : c.matchData.shannonsPerBlock.toNat ≤ c.matchData.shannonsPerBlock.toNat * n :=
      Nat.le_mul_of_pos_right _ (by omega)
    rw [← hn, Nat.mul_add, Nat.mul_one]
    omega

/-! ## Closing -/

/-- The transaction with which the seller takes over the cell at the tip. -/
def closing (c : MatchCell) (lock : Script) (tip : Header) : Transaction :=
  spend c.toLiveCell (partyCell lock 0 ⟨Vector.replicate 32 0, 0⟩ c.header)
    [{ c.toCell with lock := lock }] [] [tip, c.header]

/-- A covered value is released in one step. -/
theorem Escrow.releasable_of_coverable (h : Escrow codeHash c)
    (hcover : Coverable c (valueOf c.toCell)) : Releasable codeHash c.toLiveCell := by
  obtain ⟨lock, hlock, hhash⟩ := h.seller
  obtain ⟨hproduct, htip⟩ := hcover
  obtain ⟨tip, hnumber⟩ : ∃ tip : Header, tip.number.toNat =
      rentBase c.toLiveCell c.matchData + blocksToCover c (valueOf c.toCell) :=
    ⟨⟨Vector.replicate 32 0, BitVec.ofNat 64 _⟩, toNat_ofNat_of_lt htip⟩
  have hrent : rentAt c.toLiveCell c.matchData tip.number.toNat =
      c.matchData.shannonsPerBlock.toNat * blocksToCover c (valueOf c.toCell) := by
    rw [rentAt, hnumber, Nat.add_sub_cancel_left]
  have hsigned : Signed (closing c lock tip) c.args.sellerLockHash :=
    signed_spend.mpr (.inr hhash)
  have hdue : RentDue (closing c lock tip) c.toLiveCell c.matchData tip.number.toNat :=
    ⟨tip?_spend, fun _ => hasHeader_spend (by simp), by rwa [hrent]⟩
  have hexhausted : valueOf c.toCell ≤ rentAt c.toLiveCell c.matchData tip.number.toNat := by
    rw [hrent, ← blocksToCover_le_iff h.rate]
  have hstep : Step codeHash (some c.toLiveCell) (closing c lock tip) none :=
    step_spend_close h.lock hlock (by simp [hlock]) (h.funded.trans_lt c.capacity.isLt)
      (.matchDestroy c.decodes hsigned hdue hexhausted)
  refine ⟨_, .single ⟨hstep, fun c' hc' => ?_⟩⟩
  obtain rfl := Option.some.inj hc'
  intro a d n hdecodes _ hn
  obtain ⟨rfl, rfl⟩ := hdecodes.unique c.decodes
  obtain rfl := Option.some.inj (tip?_spend.symm.trans hn)
  rw [hnumber]
  exact Nat.le_add_right _ _

/-! ## No way out -/

/-- What every late step keeps of a match that holds tokens: everything but its
rent base, which never moves back. -/
structure HoldsTokens (c : MatchCell) (c' : LiveCell) (d' : MatchData) : Prop where
  decodes : IsMatch c'.toCell c.args d'
  type_ : c'.type_ = c.type_
  amount : d'.xudtAmount = c.matchData.xudtAmount
  rate : d'.shannonsPerBlock = c.matchData.shannonsPerBlock
  base : rentBase c.toLiveCell c.matchData ≤ rentBase c' d'

/-- What holds along a run: the tokens are still there, or they were coverable. -/
def TokensOrCovered (c : MatchCell) : Option LiveCell → Prop
  | some c' => ∃ d', HoldsTokens c c' d'
  | none => Coverable c c.matchData.xudtAmount.toNat

omit [ScriptHash] in
theorem HoldsTokens.amount_eq {c' : LiveCell} {d' d'' : MatchData} {o : Cell} {s : Script}
    (h : HoldsTokens c c' d') (hs : c.type_ = some s) (hnew : IsMatch o c.args d'')
    (hxudt : xudtOf c'.toCell = xudtOf o) :
    o.type_ = c.type_ ∧ d''.xudtAmount = c.matchData.xudtAmount := by
  have htype : o.type_ = c.type_ :=
    (type_eq_of_xudtOf_eq h.decodes hnew hxudt).symm.trans h.type_
  refine ⟨htype, ?_⟩
  rw [h.decodes.xudtOf_eq, hnew.xudtOf_eq, htype, h.type_, hs] at hxudt
  simp only [Option.map_some, Option.some.injEq, Prod.mk.injEq, and_true] at hxudt
  rw [← hxudt, h.amount]

omit [ScriptHash] in
/-- An exhausted match that still holds the tokens could cover them. -/
theorem HoldsTokens.coverable {c' : LiveCell} {d' : MatchData} {s : Script} {tip : ℕ}
    (h : HoldsTokens c c' d') (hs : c.type_ = some s)
    (hrate : 1 ≤ c.matchData.shannonsPerBlock.toNat) (htip : tip < 2 ^ 64)
    (hbase : rentBase c.toLiveCell c.matchData < 2 ^ 63)
    (hfits : rentAt c' d' tip < 2 ^ 64) (hexhausted : valueOf c'.toCell ≤ rentAt c' d' tip) :
    Coverable c c.matchData.xudtAmount.toNat := by
  rw [valueOf_of_type_some h.decodes (h.type_.trans hs), h.amount, rentAt, h.rate] at hexhausted
  rw [rentAt, h.rate] at hfits
  have hblocks := (blocksToCover_le_iff hrate).mpr hexhausted
  have hproduct := Nat.mul_le_mul_left c.matchData.shannonsPerBlock.toNat hblocks
  have hlater := h.base
  exact ⟨by omega, by omega⟩

/-- One late step. -/
theorem tokensOrCovered_step {s : Script} (hs : c.type_ = some s)
    (hrate : 1 ≤ c.matchData.shannonsPerBlock.toNat)
    (hbase : rentBase c.toLiveCell c.matchData < 2 ^ 63)
    {st st' : Option LiveCell} {tx : Transaction} (hstep : ReleaseStep codeHash st tx st')
    (h : TokensOrCovered c st) : TokensOrCovered c st' := by
  obtain ⟨step, hlate⟩ := hstep
  cases st with
  | none => exact absurd step not_step_none
  | some c' =>
      obtain ⟨d', h⟩ := h
      have hlate' := hlate c' rfl
      cases st' with
      | none =>
          cases step.transition with
          | orderCancel old => exact absurd old h.decodes.not_isOrder
          | matchDestroy old signed due exhausted =>
              obtain ⟨rfl, rfl⟩ := old.unique h.decodes
              obtain ⟨header, -, rfl⟩ := Option.map_eq_some_iff.mp due.isTip
              -- the sweep shows a tip at which the rent covers the amount and fits
              exact h.coverable hs hrate header.number.isLt hbase due.fits exhausted
      | some c'' =>
          cases step.transition with
          | orderMatch old => exact absurd old h.decodes.not_isOrder
          | sellerExtract old new xudt rate signed unsigned listed due alive exact clock =>
              obtain ⟨rfl, rfl⟩ := old.unique h.decodes
              obtain ⟨htype, hamount⟩ := h.amount_eq hs new xudt
              have htip := hlate' _ _ _ old signed due.isTip
              exact ⟨_, new, htype, hamount, rate.symm.trans h.rate,
                (h.base.trans htip).trans (le_rentBase_of_clock clock)⟩
          | buyerUpdate old new xudt rate unsigned signed clock =>
              obtain ⟨rfl, rfl⟩ := old.unique h.decodes
              obtain ⟨htype, hamount⟩ := h.amount_eq hs new xudt
              exact ⟨_, new, htype, hamount, rate.symm.trans h.rate,
                h.base.trans (rentBase_le_of_clock_eq clock step.later)⟩

/-- Any number of late steps. -/
theorem tokensOrCovered_run {s : Script} (hs : c.type_ = some s)
    (hrate : 1 ≤ c.matchData.shannonsPerBlock.toNat)
    (hbase : rentBase c.toLiveCell c.matchData < 2 ^ 63)
    {st : Option LiveCell} {moves : List (Move (Option LiveCell) Transaction)}
    (run : Run (ReleaseStep codeHash) (some c.toLiveCell) moves st) : TokensOrCovered c st :=
  run.invariant (tokensOrCovered_step hs hrate hbase)
    ⟨_, c.decodes, rfl, rfl, rfl, le_rfl⟩

/-- **Release.** An escrow can be closed exactly when it holds no tokens or the rent can reach
their amount.

A pool of CKB is always small enough for the rent to catch up with it.  Tokens cannot be taken
out before the end, and the end takes a tip at which the product of rate and blocks is no less
than the amount and still fits in 64 bits.  An amount that is out of reach stays locked in every
run. -/
theorem releasable_iff (h : Escrow codeHash c) :
    Releasable codeHash c.toLiveCell ↔
      c.type_ = none ∨ Coverable c c.matchData.xudtAmount.toNat := by
  constructor
  · rintro ⟨moves, run⟩
    cases hs : c.type_ with
    | none => exact .inl rfl
    | some s => exact .inr (tokensOrCovered_run hs h.rate h.base run)
  · intro hcond
    refine h.releasable_of_coverable ?_
    cases hs : c.type_ with
    | none =>
        rw [valueOf_of_type_none c.decodes hs]
        exact coverable_of_lt h.rate h.base h.pool
    | some s =>
        rw [valueOf_of_type_some c.decodes hs]
        exact hcond.resolve_left (by simp [hs])

end Release

/-! ## In the market -/

namespace Market

/-- A match with an amount of tokens, at a rate of 3 a block. -/
def tokenEscrow (amount : U128) : MatchCell := matchCell ⟨amount, 3, 0⟩ (some token) 0 0 1000

theorem tokenEscrow_rentBase (amount : U128) :
    rentBase (tokenEscrow amount).toLiveCell (tokenEscrow amount).matchData = 1000 := by
  have hblock : (tokenEscrow amount).block = 1000 := matchCell_block (by decide)
  rw [← hblock]
  exact rentBase_of_eq_zero rfl

theorem escrow_tokenEscrow (amount : U128) : Escrow codeHash (tokenEscrow amount) where
  lock := isOpticrumLock_matchCell
  funded := matchOutput_funded (by decide)
  rate := show 1 ≤ (3 : U64).toNat by decide
  parties := sellerLockHash_ne_buyerLockHash.symm
  base := by
    rw [tokenEscrow_rentBase]
    decide
  pool := by
    have hpool : (tokenEscrow amount).unoccupied = 0 := matchCell_unoccupied (by decide)
    rw [hpool]
    decide
  seller := ⟨sellerLock, by decide, calcScriptHash_sellerLock⟩

/-- What the condition comes to at a rate of 3 from block 1000 on. -/
theorem coverable_tokenEscrow_iff {amount : U128} {value : ℕ} :
    Coverable (tokenEscrow amount) value ↔
      3 * ((value + 2) / 3) < 2 ^ 64 ∧ 1000 + (value + 2) / 3 < 2 ^ 64 := by
  have hrate : (tokenEscrow amount).matchData.shannonsPerBlock.toNat = 3 := rfl
  have hsub : value + 3 - 1 = value + 2 := by omega
  rw [Coverable, tokenEscrow_rentBase, blocksToCover, hrate, Nat.ceilDiv_eq_add_pred_div, hsub]

/-- `2 ^ 64` tokens can never be released. -/
theorem tokenEscrow_locked :
    Escrow codeHash (tokenEscrow 18446744073709551616) ∧
      ¬ Releasable codeHash (tokenEscrow 18446744073709551616).toLiveCell := by
  have htype : (tokenEscrow 18446744073709551616).type_ ≠ none := by
    rw [tokenEscrow, matchCell, MatchCell.of, matchOutput_type]
    simp
  refine ⟨escrow_tokenEscrow _, fun h => ?_⟩
  have hcover := ((releasable_iff (escrow_tokenEscrow _)).mp h).resolve_left htype
  exact absurd (coverable_tokenEscrow_iff.mp hcover) (by decide)

/-- 100 tokens can. -/
theorem tokenEscrow_100_releasable : Releasable codeHash (tokenEscrow 100).toLiveCell :=
  (releasable_iff (escrow_tokenEscrow 100)).mpr
    (.inr (coverable_tokenEscrow_iff.mpr (by decide)))

end Market

end Opticrum
