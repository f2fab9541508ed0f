import Opticrum.Contract.Chain
import Opticrum.Results.Ledger
import Mathlib.Algebra.BigOperators.Ring.Finset
import Mathlib.Algebra.Order.BigOperators.Group.List

/-!
# Many escrows

What holds of the runs of one escrow holds on a chain with many, whatever order the
transactions of all parties come in, as long as none of them consumes two Opticrum cells
at once.  `escrow_runs` projects a history to the run of each escrow, and
`escrows_stay_apart` says that two of them never go on in one cell.  These are facts about
the chain; together with the ledger of one escrow they give the books of all of them.

* `escrows_solvent` — in any such history every match for capacity keeps its ledger, and
  the live cells of the contract hold at least what all the ledgers together say is left.

Without the condition this is not true: the script of each group looks at the same first
Opticrum output, and one output may then stand for several escrows.

## How it is proved

`run_escrowMoves` is the projection.  A transaction that consumes the cell of an escrow is a step
of it, by `Commits.step`; one that does not leaves it alone.  It follows that the ledger of an
escrow holds inside any history, whatever the other transactions do.

The second half of solvency is about cells.  Distinct escrows stay in distinct cells, so what
their ledgers say is left is held by distinct live cells of the contract, and the sum over some
of the cells is at most the sum over all, `sum_le_pooled`.
-/

namespace Opticrum

open Rust Ckb TransitionSystem

section Interleaving

variable [ScriptHash] {codeHash : Byte32} {chain chain' : Chain}

/-- No transaction of the history consumes two Opticrum cells.  It may create several, and it
may create some without consuming any. -/
def Solo (codeHash : Byte32) (moves : List (Move Chain Committed)) : Prop :=
  ∀ m ∈ moves, (opticrumInputs codeHash m.label.tx).length ≤ 1

/-- Whoever consumes two escrows leaves no cell of the contract. -/
def Committed.Separates (codeHash : Byte32) (m : Committed) : Prop :=
  ∀ c k : LiveCell, c ∈ opticrumInputs codeHash m.tx → k ∈ opticrumInputs codeHash m.tx →
    c.outPoint ≠ k.outPoint → opticrumOutput? codeHash m.tx = none

omit [ScriptHash] in
/-- A transaction that consumes one escrow cannot consume two. -/
theorem Solo.separates {moves : List (Move Chain Committed)} (hsolo : Solo codeHash moves) :
    ∀ m ∈ moves, m.label.Separates codeHash := by
  intro m hm c k hc hk hne
  obtain ⟨o, ho⟩ := List.length_eq_one_iff.mp
    (Nat.le_antisymm (hsolo m hm) (List.length_pos_of_mem hc))
  rw [ho, List.mem_singleton] at hc hk
  exact absurd (by rw [hc, hk]) hne

/-- The moves of an escrow are a run of its own lifecycle. -/
theorem run_escrowMoves {moves : List (Move Chain Committed)}
    (run : Run (Commits codeHash) chain moves chain') (hsolo : Solo codeHash moves)
    {c : LiveCell} (hc : c ∈ chain.live) (hlock : isOpticrumLock codeHash c.lock = true) :
    Run (Step codeHash) (some c) (escrowMoves codeHash (some c) (moves.map Move.label))
      (escrowAfter codeHash (some c) (moves.map Move.label)) := by
  induction run generalizing c with
  | nil => exact .nil _
  | @cons chain m next moves chain' h run ih =>
      obtain ⟨hfirst, hrest⟩ := List.forall_mem_cons.mp hsolo
      simp only [List.map_cons, escrowAfter, escrowMoves]
      split
      · next hin =>
        have hstep := h.step hc hlock hin hfirst
        cases hfollow : follow codeHash c m with
        | none =>
            rw [hfollow] at hstep
            rw [escrowAfter_none, escrowMoves_none]
            exact .single hstep
        | some c' =>
            rw [hfollow] at hstep
            obtain ⟨hnext, hlock'⟩ := h.live_of_follow hc hlock hfollow
            exact .cons hstep (ih hrest hnext hlock')
      · next hin =>
        have hfollow : follow codeHash c m = some c := follow_of_not_mem hin
        rw [hfollow]
        exact ih hrest (h.live_of_follow hc hlock hfollow).1 hlock

/-- What is left of an escrow after a history is live, and a cell of the contract. -/
theorem live_of_escrowAfter {moves : List (Move Chain Committed)}
    (run : Run (Commits codeHash) chain moves chain') {c c' : LiveCell} (hc : c ∈ chain.live)
    (hlock : isOpticrumLock codeHash c.lock = true)
    (hc' : escrowAfter codeHash (some c) (moves.map Move.label) = some c') :
    c' ∈ chain'.live ∧ isOpticrumLock codeHash c'.lock = true := by
  induction run generalizing c with
  | nil =>
      obtain rfl := Option.some.inj hc'
      exact ⟨hc, hlock⟩
  | @cons chain m next moves chain' h run ih =>
      simp only [List.map_cons, escrowAfter] at hc'
      cases hfollow : follow codeHash c m with
      | none =>
          rw [hfollow, escrowAfter_none] at hc'
          cases hc'
      | some k =>
          rw [hfollow] at hc'
          obtain ⟨hk, hlock'⟩ := h.live_of_follow hc hlock hfollow
          exact ih hk hlock' hc'

/-- In a history of transactions that consume at most one Opticrum cell
each, in any order and by anybody, the moves of every escrow are a run of its own
lifecycle, and what is left of it at the end is live. -/
theorem escrow_runs {moves : List (Move Chain Committed)}
    (run : Run (Commits codeHash) chain moves chain') (hsolo : Solo codeHash moves)
    {c : LiveCell} (hc : c ∈ chain.live) (hlock : isOpticrumLock codeHash c.lock = true) :
    Run (Step codeHash) (some c) (escrowMoves codeHash (some c) (moves.map Move.label))
        (escrowAfter codeHash (some c) (moves.map Move.label)) ∧
      ∀ c', escrowAfter codeHash (some c) (moves.map Move.label) = some c' →
        c' ∈ chain'.live ∧ isOpticrumLock codeHash c'.lock = true :=
  ⟨run_escrowMoves run hsolo hc hlock, fun _ => live_of_escrowAfter run hc hlock⟩

/-- Two escrows of which one is consumed do not meet: the outputs of a transaction are under
fresh out points. -/
theorem Commits.follow_ne {m : Committed} (h : Commits codeHash chain m chain')
    (hseparates : m.Separates codeHash) {c k c' k' : LiveCell}
    (hc : c ∈ chain.live) (hk : k ∈ chain.live)
    (hlock : isOpticrumLock codeHash c.lock = true) (hlock' : isOpticrumLock codeHash k.lock = true)
    (hne : c.outPoint ≠ k.outPoint) (hc' : follow codeHash c m = some c')
    (hk' : follow codeHash k m = some k') : c'.outPoint ≠ k'.outPoint := by
  have hnotBoth : ¬ (c ∈ m.tx.inputs ∧ k ∈ m.tx.inputs) := by
    rintro ⟨hin, hin'⟩
    have hnone := hseparates c k (mem_opticrumInputs.mpr ⟨hin, hlock⟩)
      (mem_opticrumInputs.mpr ⟨hin', hlock'⟩) hne
    have hout : (follow codeHash c m).map LiveCell.toCell = opticrumOutput? codeHash m.tx :=
      map_follow hin
    rw [hc', hnone] at hout
    cases hout
  cases h with
  | intro _ _ _ _ fresh =>
      by_cases hin : c ∈ m.tx.inputs
      · rw [follow_of_not_mem fun hin' => hnotBoth ⟨hin, hin'⟩] at hk'
        obtain rfl := Option.some.inj hk'
        exact fresh c' (created_of_follow hin hc').1 k hk
      · rw [follow_of_not_mem hin] at hc'
        obtain rfl := Option.some.inj hc'
        by_cases hin' : k ∈ m.tx.inputs
        · exact (fresh k' (created_of_follow hin' hk').1 c hc).symm
        · rw [follow_of_not_mem hin'] at hk'
          obtain rfl := Option.some.inj hk'
          exact hne

/-- Where no transaction consumes two escrows and goes on, two escrows never go on in one
cell. -/
theorem escrows_stay_apart {moves : List (Move Chain Committed)}
    (run : Run (Commits codeHash) chain moves chain')
    (hseparates : ∀ m ∈ moves, m.label.Separates codeHash)
    {c k c' k' : LiveCell} (hc : c ∈ chain.live) (hk : k ∈ chain.live)
    (hlock : isOpticrumLock codeHash c.lock = true) (hlock' : isOpticrumLock codeHash k.lock = true)
    (hne : c.outPoint ≠ k.outPoint)
    (hc' : escrowAfter codeHash (some c) (moves.map Move.label) = some c')
    (hk' : escrowAfter codeHash (some k) (moves.map Move.label) = some k') :
    c'.outPoint ≠ k'.outPoint := by
  induction run generalizing c k with
  | nil =>
      obtain rfl := Option.some.inj hc'
      obtain rfl := Option.some.inj hk'
      exact hne
  | @cons chain m next moves chain' h run ih =>
      obtain ⟨hfirst, hrest⟩ := List.forall_mem_cons.mp hseparates
      simp only [List.map_cons, escrowAfter] at hc' hk'
      -- both have to go on, or there is nothing to compare
      cases hfollow : follow codeHash c m with
      | none =>
          rw [hfollow, escrowAfter_none] at hc'
          simp at hc'
      | some d =>
          cases hfollow' : follow codeHash k m with
          | none =>
              rw [hfollow', escrowAfter_none] at hk'
              simp at hk'
          | some e =>
              rw [hfollow] at hc'
              rw [hfollow'] at hk'
              obtain ⟨hd, hlockD⟩ := h.live_of_follow hc hlock hfollow
              obtain ⟨he, hlockE⟩ := h.live_of_follow hk hlock' hfollow'
              have hapart := h.follow_ne hfirst hc hk hlock hlock' hne hfollow hfollow'
              exact ih hrest hd he hlockD hlockE hapart hc' hk'

/-! ## The books of all escrows -/

/-- The unoccupied CKB of all live cells of the contract.  Cells that hold tokens, or are
neither orders nor matches, count as well. -/
def Chain.pooled (codeHash : Byte32) (chain : Chain) : ℕ :=
  ((chain.live.filter fun c => isOpticrumLock codeHash c.lock).map fun c => c.unoccupied).sum

omit [ScriptHash] in
/-- Escrows that are closed have no pool. -/
theorem sum_poolOf {α : Type} (left : α → Option LiveCell) (escrows : List α) :
    (escrows.map fun c => poolOf (left c)).sum =
      ((escrows.filterMap left).map fun c => c.unoccupied).sum := by
  induction escrows with
  | nil => rfl
  | cons c escrows ih =>
      rw [List.map_cons, List.sum_cons, ih]
      cases hleft : left c with
      | none => rw [List.filterMap_cons_none hleft, poolOf, Nat.zero_add]
      | some c' => rw [List.filterMap_cons_some hleft, List.map_cons, List.sum_cons, poolOf]

omit [ScriptHash] in
/-- Distinct cells of the contract that are live hold no more than all of them. -/
theorem sum_le_pooled {cells : List LiveCell} (hdistinct : cells.Nodup)
    (hlive : ∀ c ∈ cells, c ∈ chain.live ∧ isOpticrumLock codeHash c.lock = true) :
    (cells.map fun c => c.unoccupied).sum ≤ chain.pooled codeHash := by
  have hsubset : cells ⊆ chain.live.filter fun c => isOpticrumLock codeHash c.lock :=
    fun c hc => List.mem_filter.mpr (hlive c hc)
  obtain ⟨some, hperm, hsublist⟩ := List.subperm_of_subset hdistinct hsubset
  rw [← (hperm.map fun c => c.unoccupied).sum_eq]
  exact (hsublist.map fun c => c.unoccupied).sum_le_sum fun _ _ => Nat.zero_le _

/-- **Solvency.** In a history of transactions that consume at most one Opticrum cell each, in
any order and by anybody, take any matches for capacity that were live under distinct out
points.

* Each keeps its ledger: what was in its pool and was paid in is left or was taken, and what was
  taken is the rent up to the latest block paid for, and of the blocks the rent base was set
  back by.
* All of what their ledgers say is left is there: the live cells of the contract hold it.

The first is the ledger of one escrow, whose moves form a run of their own whatever happens
around them.  For the second the escrows have to stay in different cells, so that no cell
answers for two of them. -/
theorem escrows_solvent {moves : List (Move Chain Committed)}
    (run : Run (Commits codeHash) chain moves chain') (hsolo : Solo codeHash moves)
    {escrows : List MatchCell}
    (hescrows : ∀ c ∈ escrows, c.toLiveCell ∈ chain.live ∧
      isOpticrumLock codeHash c.lock = true ∧ c.type_ = none)
    (hdistinct : escrows.Pairwise fun c k => c.outPoint ≠ k.outPoint) :
    let own := fun c : MatchCell => escrowMoves codeHash (some c.toLiveCell) (moves.map Move.label)
    let left := fun c : MatchCell => escrowAfter codeHash (some c.toLiveCell) (moves.map Move.label)
    (∀ c ∈ escrows,
        (poolOf (left c) : ℤ) + totalTaken (own c) = c.unoccupied + totalPaidIn (own c) ∧
          totalTaken (own c) ≤ c.matchData.shannonsPerBlock.toNat *
            (latestPaid (own c) - baseOf c.toLiveCell + totalRewound (own c))) ∧
      (escrows.map fun c => (c.unoccupied : ℤ) + totalPaidIn (own c) - totalTaken (own c)).sum ≤
        chain'.pooled codeHash := by
  intro own left
  have hrun : ∀ c ∈ escrows, Run (Step codeHash) (some c.toLiveCell) (own c) (left c) ∧
      ∀ c', left c = some c' → c' ∈ chain'.live ∧ isOpticrumLock codeHash c'.lock = true :=
    fun c hc => escrow_runs run hsolo (hescrows c hc).1 (hescrows c hc).2.1
  have hbalance : ∀ c ∈ escrows,
      (poolOf (left c) : ℤ) + totalTaken (own c) = c.unoccupied + totalPaidIn (own c) :=
    fun c hc => pool_add_taken (hescrows c hc).2.2 (hrun c hc).1
  refine ⟨fun c hc => ⟨hbalance c hc, totalTaken_le_latest (hescrows c hc).2.2 (hrun c hc).1⟩, ?_⟩
  -- what is left are distinct live cells
  have hapart : (escrows.filterMap left).Nodup := by
    refine List.pairwise_filterMap.mpr (hdistinct.imp_of_mem ?_)
    intro c k hc hk hne c' hc' k' hk' hsame
    refine escrows_stay_apart run hsolo.separates (hescrows c hc).1 (hescrows k hk).1
      (hescrows c hc).2.1 (hescrows k hk).2.1 hne hc' hk' ?_
    rw [hsame]
  have hheld : ((escrows.filterMap left).map fun c => c.unoccupied).sum ≤
      chain'.pooled codeHash := by
    refine sum_le_pooled hapart fun c' hc' => ?_
    obtain ⟨c, hc, hleft⟩ := List.mem_filterMap.mp hc'
    exact (hrun c hc).2 c' hleft
  calc (escrows.map fun c => (c.unoccupied : ℤ) + totalPaidIn (own c) - totalTaken (own c)).sum
      = (escrows.map fun c => ((poolOf (left c) : ℕ) : ℤ)).sum := by
        refine congrArg List.sum (List.map_congr_left fun c hc => ?_)
        have hledger := hbalance c hc
        omega
    _ = ((escrows.map fun c => poolOf (left c)).sum : ℕ) := by
        rw [Nat.cast_list_sum, List.map_map]
        rfl
    _ = (((escrows.filterMap left).map fun c => c.unoccupied).sum : ℕ) := by
        rw [sum_poolOf]
    _ ≤ chain'.pooled codeHash := Nat.cast_le.mpr hheld

end Interleaving

/-! ## In the market -/

namespace Market

/-- Two matches of the market, next to cells of the parties. -/
def marketCells : List LiveCell :=
  [fresh.toLiveCell, refilled.toLiveCell, sellerCell, buyerCell]

/-- No cell of the market comes from block 1071 or later, or out of a transaction with
the hash `0xe1…`. -/
theorem marketCells_spec : ∀ c ∈ marketCells,
    c.block ≤ 1070 ∧ c.outPoint.txHash ≠ Vector.replicate 32 0xe1 := by
  have hfresh : fresh.block = 1000 := matchCell_block (by decide)
  have hrefilled : refilled.block = 1070 := matchCell_block (by decide)
  have hparty : (headerAt 1).number.toNat = 1 := headerAt_number (by decide)
  have hmatch : ∀ m ∈ [fresh, refilled], m.outPoint.txHash = Vector.replicate 32 0xaa := by
    intro m hm
    rcases List.mem_pair.mp hm with rfl | rfl
    · rfl
    · rfl
  have hother : (Vector.replicate 32 (0xaa : UInt8)) ≠ Vector.replicate 32 0xe1 := by decide
  simp only [marketCells, List.forall_mem_cons]
  refine ⟨⟨by omega, ?_⟩, ⟨by omega, ?_⟩, ⟨hparty.le.trans (by decide), by decide⟩,
    ⟨hparty.le.trans (by decide), by decide⟩, List.forall_mem_nil _⟩
  · rw [hmatch fresh (by simp)]
    exact hother
  · rw [hmatch refilled (by simp)]
    exact hother

def marketChain : Chain where
  live := marketCells
  tip := 1070
  dated c hc := (marketCells_spec c hc).1

/-- A transaction of the market, in block 1080. -/
def committed (tx : Transaction) : Committed := ⟨tx, Vector.replicate 32 0xe1, headerAt 1080⟩

theorem committed_block (tx : Transaction) :
    marketChain.tip ≤ (committed tx).header.number.toNat := by
  have hblock : (committed tx).header.number.toNat = 1080 := headerAt_number (by decide)
  rw [hblock]
  decide

/-- The market commits what the contract accepts. -/
theorem run_committed {tx : Transaction} (hinputs : ∀ c ∈ tx.inputs, c ∈ marketCells)
    (haccepted : AcceptedBy codeHash tx) (hheaders : ∀ h ∈ tx.headerDeps, h.number.toNat ≤ 1080) :
    Run (Commits codeHash) marketChain
      [⟨marketChain, committed tx, marketChain.commit (committed tx) (committed_block tx)⟩]
      (marketChain.commit (committed tx) (committed_block tx)) := by
  have hblock : (committed tx).header.number.toNat = 1080 := headerAt_number (by decide)
  refine .single (.of_txHash hinputs haccepted (committed_block tx) ?_ ?_)
  · rwa [hblock]
  · intro k hk
    exact (marketCells_spec k hk).2

/-- The seller extracts from one of the matches, in block 1080. -/
def extraction : Committed :=
  ⟨extractTx fresh extractedOnce.toCell 1050, Vector.replicate 32 0xe1, headerAt 1080⟩

/-- The cell the match goes on in. -/
def extractedCell : LiveCell :=
  ⟨extractedOnce.toCell, ⟨Vector.replicate 32 0xe1, 0⟩, headerAt 1080⟩

theorem extraction_block : marketChain.tip ≤ extraction.header.number.toNat :=
  committed_block extraction.tx

def extractionMoves : List (Move Chain Committed) :=
  [⟨marketChain, extraction, marketChain.commit extraction extraction_block⟩]

theorem run_extraction : Run (Commits codeHash) marketChain extractionMoves
    (marketChain.commit extraction extraction_block) := by
  refine run_committed ?_ ?_ ?_
  · intro c hc
    rcases List.mem_pair.mp hc with rfl | rfl
    · simp [marketCells]
    · simp [marketCells]
  · cases run_honest with
    | cons h _ => exact h.accepted
  · intro h hh
    rcases List.mem_pair.mp hh with rfl | rfl
    · exact (headerAt_number (by decide)).trans_le (by decide)
    · exact (matchCell_block (by decide)).trans_le (by decide)

theorem solo_extraction : Solo codeHash extractionMoves := by
  have hparty : isOpticrumLock codeHash sellerCell.lock = false := by decide
  have hsole : opticrumInputs codeHash extraction.tx = [fresh.toLiveCell] :=
    opticrumInputs_spend isOpticrumLock_matchCell hparty
  intro m hm
  obtain rfl := List.mem_singleton.mp hm
  rw [hsole]
  exact le_rfl

/-- Of the two matches one is extracted from; both keep their ledgers, and the market holds
what is left. -/
theorem extraction_solvent :
    let own := fun c : MatchCell =>
      escrowMoves codeHash (some c.toLiveCell) (extractionMoves.map Move.label)
    let left := fun c : MatchCell =>
      escrowAfter codeHash (some c.toLiveCell) (extractionMoves.map Move.label)
    (∀ c ∈ [fresh, refilled],
        (poolOf (left c) : ℤ) + totalTaken (own c) = c.unoccupied + totalPaidIn (own c) ∧
          totalTaken (own c) ≤ c.matchData.shannonsPerBlock.toNat *
            (latestPaid (own c) - baseOf c.toLiveCell + totalRewound (own c))) ∧
      ([fresh, refilled].map fun c =>
          (c.unoccupied : ℤ) + totalPaidIn (own c) - totalTaken (own c)).sum ≤
        (marketChain.commit extraction extraction_block).pooled codeHash := by
  refine escrows_solvent run_extraction solo_extraction ?_ ?_
  · intro c hc
    rcases List.mem_pair.mp hc with rfl | rfl
    · exact ⟨by simp [marketChain, marketCells], isOpticrumLock_matchCell, rfl⟩
    · exact ⟨by simp [marketChain, marketCells], isOpticrumLock_matchCell, rfl⟩
  · exact List.pairwise_pair.mpr (by decide)

end Market

end Opticrum
