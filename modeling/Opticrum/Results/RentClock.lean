import Opticrum.Contract.Construct
import Opticrum.Contract.Rent

/-!
# The rent clock under buyer updates

A buyer update keeps `last_extraction_block`.  Once the seller has extracted,
that field is the rent base, and no sequence of buyer updates moves it.

Before the first extraction the field is `0`, and the base is read from the block
that committed the *inspected* cell.  An update replaces that cell, so the base
becomes the block of the update: the rent accrued so far is forgotten.
`rentClock_iff` is the exact law.

## How it is proved

`Continues` is the invariant of a run of updates: the args, the rate and the stored block stay,
and the cell gets no older.  The rent of such a successor differs from that of the first cell
only through the base, and the base is the stored block or, for want of one, the block of the
cell.  `Continues.rentBase_eq_iff` compares the two.

`RentAgrees` compares outcomes.  That covers the tips at which the product overflows, and no
bound on the rent is needed.
-/

namespace Opticrum

open Rust Ckb TransitionSystem

section Clock

variable [ScriptHash]

/-- The buyer alone signs a step of the escrow. -/
def BuyerStep (codeHash : Byte32) (c : LiveCell) (tx : Transaction) (c' : LiveCell) : Prop :=
  Step codeHash (some c) tx (some c') ∧ byBuyer tx c.toCell = true

/-- The rent of a cell, as the script computes it when it inspects the cell. -/
def cellRent (env : Env) (c : Cell) : Result U64 := do
  let branch ← branchOf c
  (stateWith c branch).liquidityRent env

/-- The script computes one rent for both cells at the tip.  The two runs may have different
transactions around them, as long as each finds the headers it needs. -/
def RentAgrees (c c' : LiveCell) (tip : ℕ) : Prop :=
  ∀ env env', Inspects env c tip → Inspects env' c' tip →
    cellRent env c.toCell = cellRent env' c'.toCell

omit [ScriptHash] in
theorem Inspects.cellRent_eq {env : Env} {c : LiveCell} {tip : ℕ} {a : MatchArgs}
    {d : MatchData} (h : Inspects env c tip) (hc : IsMatch c.toCell a d) :
    cellRent env c.toCell = rentOutcome (rentAt c d tip) := by
  rw [cellRent, show branchOf c.toCell = _ from hc, Outcome.ok_bind, h.liquidityRent_eq rfl]

/-- What a buyer update keeps: the terms, and the field that stores the clock. -/
structure Continues (c : MatchCell) (c' : LiveCell) (d' : MatchData) : Prop where
  decodes : IsMatch c'.toCell c.args d'
  rate : d'.shannonsPerBlock = c.matchData.shannonsPerBlock
  clock : d'.lastExtractionBlock = c.matchData.lastExtractionBlock
  later : c.block ≤ c'.block

variable {codeHash : Byte32}

/-- One buyer update. -/
theorem Continues.step {c : MatchCell} {c' c'' : LiveCell} {d' : MatchData} {tx : Transaction}
    (h : Continues c c' d') (hstep : BuyerStep codeHash c' tx c'') :
    ∃ d'', Continues c c'' d'' := by
  obtain ⟨step, hbuyer⟩ := hstep
  cases step.transition with
  | orderMatch old => exact absurd old h.decodes.not_isOrder
  | sellerExtract old new xudt rate signed =>
      obtain ⟨rfl, rfl⟩ := old.unique h.decodes
      exact absurd signed ((byBuyer_iff old).mp hbuyer).1
  | buyerUpdate old new xudt rate unsigned signed clock =>
      obtain ⟨rfl, rfl⟩ := old.unique h.decodes
      exact ⟨_, new, rate.symm.trans h.rate, clock.trans h.clock, h.later.trans step.later⟩

/-- Any number of buyer updates. -/
theorem continues_of_run {c : MatchCell} {c' : LiveCell} {moves : List (Move LiveCell Transaction)}
    (run : Run (BuyerStep codeHash) c.toLiveCell moves c') : ∃ d', Continues c c' d' :=
  run.invariant (I := fun c' => ∃ d', Continues c c' d')
    (fun hstep ⟨_, h⟩ => h.step hstep) ⟨_, c.decodes, rfl, rfl, le_rfl⟩

omit [ScriptHash] in
/-- Whether the rents agree depends on the two rent bases alone. -/
theorem Continues.rentAgrees_iff {c : MatchCell} {c' : LiveCell} {d' : MatchData}
    (h : Continues c c' d') (tip : Header) :
    RentAgrees c.toLiveCell c' tip.number.toNat ↔
      rentOutcome (rentAt c.toLiveCell c.matchData tip.number.toNat) =
        rentOutcome (rentAt c' d' tip.number.toNat) := by
  constructor
  · intro hagrees
    have heq := hagrees _ _ (inspects_inspect c.toLiveCell tip) (inspects_inspect c' tip)
    rwa [(inspects_inspect _ tip).cellRent_eq c.decodes,
      (inspects_inspect _ tip).cellRent_eq h.decodes] at heq
  · intro heq env env' henv henv'
    rw [henv.cellRent_eq c.decodes, henv'.cellRent_eq h.decodes, heq]

omit [ScriptHash] in
/-- The clock of a continuation stands still exactly when it is stored, or the
continuation was committed in the block of the cell. -/
theorem Continues.rentBase_eq_iff {c : MatchCell} {c' : LiveCell} {d' : MatchData}
    (h : Continues c c' d') :
    rentBase c' d' = rentBase c.toLiveCell c.matchData ↔
      c.matchData.lastExtractionBlock ≠ 0 ∨ c'.block = c.block := by
  unfold rentBase
  rw [h.clock]
  split
  · next hzero => simp [hzero]
  · next hne => exact ⟨fun _ => .inl hne, fun _ => rfl⟩

/-- **The rent clock.** A run of buyer updates leaves the rent at every later tip alone exactly
when there is a stored clock, or no rent, or no block has passed.

Where no block is stored the base is the block of the cell, and an update puts a younger
cell in its place.  The rents are compared as outcomes: where one of them overflows, so
does the other. -/
theorem rentClock_iff {c : MatchCell} {c' : LiveCell} {moves : List (Move LiveCell Transaction)}
    (run : Run (BuyerStep codeHash) c.toLiveCell moves c') :
    (∀ tip, c'.block ≤ tip → RentAgrees c.toLiveCell c' tip) ↔
      c.matchData.lastExtractionBlock ≠ 0 ∨ c.matchData.shannonsPerBlock = 0 ∨
        c'.block = c.block := by
  obtain ⟨d', h⟩ := continues_of_run run
  constructor
  · intro hagrees
    by_contra hnot
    push Not at hnot
    obtain ⟨hfresh, hrate, hblock⟩ := hnot
    -- at the successor's own block its rent is zero, and that of `c` is not
    have heq := (h.rentAgrees_iff c'.header).mp (hagrees _ le_rfl)
    have hzero : rentAt c' d' c'.header.number.toNat = 0 := by
      rw [rentAt, rentBase_of_eq_zero (h.clock.trans hfresh), LiveCell.block, Nat.sub_self,
        Nat.mul_zero]
    rw [hzero, rentOutcome_eq_zero_iff, rentAt, rentBase_of_eq_zero hfresh, Nat.mul_eq_zero] at heq
    rcases heq with heq | heq
    · exact hrate (BitVec.eq_of_toNat_eq heq)
    · have hlater := h.later
      unfold LiveCell.block at hlater hblock heq
      omega
  · intro hcond tip htip env env' henv henv'
    rw [henv.cellRent_eq c.decodes, henv'.cellRent_eq h.decodes, rentAt, rentAt, h.rate]
    by_cases hrate : c.matchData.shannonsPerBlock = 0
    · simp [hrate]
    · rw [h.rentBase_eq_iff.mpr (hcond.imp_right fun h => h.resolve_left hrate)]

end Clock

/-! ## In the market -/

namespace Market

/-- The buyer replaces `c` by `o`. -/
def updateTx (c : MatchCell) (o : Cell) : Transaction :=
  spend c.toLiveCell buyerCell [o, buyerCell.toCell] [] []

/-- A CKB-only buyer update is a step, whatever it does to the pool. -/
theorem buyerStep_update {d : MatchData} {pool pool' index index' block block' : ℕ}
    (hlater : block ≤ block') (hblock' : block' < 2 ^ 64) :
    BuyerStep codeHash (matchCell d none pool index block).toLiveCell
      (updateTx (matchCell d none pool index block) (matchCell d none pool' index' block').toCell)
      (matchCell d none pool' index' block').toLiveCell := by
  have hold : IsMatch (matchCell d none pool index block).toCell matchArgs d :=
    isMatch_matchOutput
  have hsigned : ¬ Signed (updateTx (matchCell d none pool index block)
        (matchCell d none pool' index' block').toCell) sellerLockHash ∧
      Signed (updateTx (matchCell d none pool index block)
        (matchCell d none pool' index' block').toCell) buyerLockHash :=
    signed_spend_buyerCell rfl
  refine ⟨step_spend_replace isOpticrumLock_matchCell (by decide) isOpticrumLock_matchCell
    ⟨matchCell_fits, matchCell_fits⟩ ?_ ?_ (List.forall_mem_nil _), (byBuyer_iff hold).mpr hsigned⟩
  · refine .buyerUpdate hold isMatch_matchOutput ?_ rfl hsigned.1 hsigned.2 rfl
    rw [matchCell_xudtOf, matchCell_xudtOf]
  · rwa [matchCell_block (by omega), matchCell_block hblock']

/-- A match of rate 3 from block 1000, and the same match after a top-up in block 2000. -/
def unpaid : MatchCell := matchCell ⟨0, 3, 0⟩ none 100000 0 1000

def toppedUp : MatchCell := matchCell ⟨0, 3, 0⟩ none 200000 1 2000

/-- The same two cells when the seller last extracted at block 900. -/
def paid : MatchCell := matchCell ⟨0, 3, 900⟩ none 100000 0 1000

def paidToppedUp : MatchCell := matchCell ⟨0, 3, 900⟩ none 200000 1 2000

/-- The latter after the buyer has taken out 150000 shannons again. -/
def paidWithdrawn : MatchCell := matchCell ⟨0, 3, 900⟩ none 50000 2 2500

/-- A top-up halves the rent that block 3000 owes: 3000 shannons instead of 6000. -/
theorem topUp_moves_clock :
    BuyerStep codeHash unpaid.toLiveCell (updateTx unpaid toppedUp.toCell) toppedUp.toLiveCell ∧
      toppedUp.block ≤ 3000 ∧ ¬ RentAgrees unpaid.toLiveCell toppedUp.toLiveCell 3000 := by
  refine ⟨buyerStep_update (by decide) (by decide), ?_, fun hagrees => ?_⟩
  · rw [toppedUp, matchCell_block (by decide)]
    decide
  · have hunpaid := inspects_inspect unpaid.toLiveCell (headerAt 3000)
    have htoppedUp := inspects_inspect toppedUp.toLiveCell (headerAt 3000)
    rw [headerAt_number (by decide)] at hunpaid htoppedUp
    have heq := hagrees _ _ hunpaid htoppedUp
    rw [hunpaid.cellRent_eq isMatch_matchOutput, htoppedUp.cellRent_eq isMatch_matchOutput, unpaid,
      toppedUp, matchCell_rentAt (by decide), matchCell_rentAt (by decide)] at heq
    exact absurd heq (by decide)

/-- With a stored clock a top-up and a withdrawal leave the rent alone. -/
theorem updates_keep_stored_clock :
    RentAgrees paid.toLiveCell paidWithdrawn.toLiveCell 3000 := by
  have hrun : Run (BuyerStep codeHash) paid.toLiveCell
      [⟨paid.toLiveCell, updateTx paid paidToppedUp.toCell, paidToppedUp.toLiveCell⟩,
        ⟨paidToppedUp.toLiveCell, updateTx paidToppedUp paidWithdrawn.toCell,
          paidWithdrawn.toLiveCell⟩]
      paidWithdrawn.toLiveCell :=
    .cons (buyerStep_update (by decide) (by decide))
      (.single (buyerStep_update (by decide) (by decide)))
  refine (rentClock_iff hrun).mpr (.inl (by decide)) 3000 ?_
  rw [paidWithdrawn, matchCell_block (by decide)]
  decide

end Market

end Opticrum
