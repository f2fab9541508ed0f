import Opticrum.Results.Interleaving

/-!
# After the channel is closed

A Match cell names a channel by its out point, and a channel is closed by spending the
cell there.  A node takes a transaction only when its cell deps are live, so a closed
channel can no longer be listed.  `extraction` asks for it and the destruction does not:
what the closing of the channel stops is the extractions, and not the rent.

`closed_channel` says what is left to an escrow from then on, in any history of the
chain.  It is what the terms foresee: the buyer may still withdraw, the seller takes
nothing while the match is open, and, since no extraction can set the rent base back any
more, the match is destroyed only when the rent of the blocks that have passed covers its
pool and what was put into it.

## How it is proved

Closing is a fact about the chain: no live cell is at the out point, and none will be again as
long as no transaction has the hash of the one that opened the channel.  From there on no
transaction that is committed lists the channel, `not_channelListed_of_run`.

For the escrow this leaves little.  `idle_of_step` goes through the transitions: an extraction
lists the channel, so what does not end the match is the buyer's.  `idle_of_run` is the
induction.  The three statements are then entries of the ledger with nothing taken before the
end and nothing rewound.

That node and transaction agree on which deps are live is the rule `LiveDeps`; the contract
cannot check it.
-/

namespace Opticrum

open Rust Ckb TransitionSystem

section ClosedChannel

/-! ## The rule of the chain -/

/-- No live cell is at the out point. -/
def Chain.Closed (chain : Chain) (p : Ckb.OutPoint) : Prop := ∀ k ∈ chain.live, k.outPoint ≠ p

/-- Every cell dep is live when the transaction is committed. -/
def LiveDeps (moves : List (Move Chain Committed)) : Prop :=
  ∀ m ∈ moves, ∀ dep ∈ m.label.tx.rawCellDeps, ∃ k ∈ m.source.live, k.outPoint = dep.outPoint

/-- No transaction has the hash. -/
def Avoids (txHash : Byte32) (moves : List (Move Chain Committed)) : Prop :=
  ∀ m ∈ moves, m.label.txHash ≠ txHash

variable [ScriptHash] {codeHash : Byte32} {chain chain' : Chain} {p : Ckb.OutPoint}

/-- A closed out point stays closed: the outputs of a transaction are under its hash. -/
theorem Commits.closed {m : Committed} (h : Commits codeHash chain m chain')
    (hclosed : chain.Closed p) (hhash : m.txHash ≠ p.txHash) : chain'.Closed p := by
  cases h with
  | intro =>
      intro k hk
      rcases List.mem_append.mp hk with hk | hk
      · exact hclosed k (List.mem_filter.mp hk).1
      · rintro rfl
        exact hhash (Committed.txHash_of_created hk).symm

/-- It is closed all through the history. -/
theorem closed_of_run {moves : List (Move Chain Committed)}
    (run : Run (Commits codeHash) chain moves chain') (hclosed : chain.Closed p)
    (havoids : Avoids p.txHash moves) : ∀ m ∈ moves, m.source.Closed p := by
  induction run with
  | nil => exact List.forall_mem_nil _
  | cons h _ ih =>
      obtain ⟨hfirst, hrest⟩ := List.forall_mem_cons.mp havoids
      exact List.forall_mem_cons.mpr ⟨hclosed, ih (h.closed hclosed hfirst) hrest⟩

/-- So no transaction of the history lists it. -/
theorem not_channelListed_of_run {o : OutPoint} {moves : List (Move Chain Committed)}
    (run : Run (Commits codeHash) chain moves chain') (hdeps : LiveDeps moves)
    (hclosed : chain.Closed o.packed) (havoids : Avoids o.packed.txHash moves) :
    ∀ m ∈ moves, ¬ ChannelListed m.label.tx o := by
  rintro m hm ⟨dep, hdep, hat⟩
  obtain ⟨k, hk, hdep'⟩ := hdeps m hm dep hdep
  exact closed_of_run run hclosed havoids m hm k hk (hdep'.trans (OutPoint.isAt_iff.mp hat))

omit [ScriptHash] in
/-- The moves of an escrow are by transactions of the history. -/
theorem exists_of_mem_escrowMoves {s : Option LiveCell} {history : List Committed}
    {m : Move (Option LiveCell) Transaction} (hm : m ∈ escrowMoves codeHash s history) :
    ∃ committed ∈ history, m.label = committed.tx := by
  induction history generalizing s with
  | nil => exact absurd hm (by simp [escrowMoves])
  | cons committed history ih =>
      cases s with
      | none => exact absurd hm (by simp)
      | some c =>
          rw [escrowMoves] at hm
          split at hm
          · rcases List.mem_cons.mp hm with rfl | hm
            · exact ⟨committed, List.mem_cons_self, rfl⟩
            · obtain ⟨later, hlater, hlabel⟩ := ih hm
              exact ⟨later, List.mem_cons_of_mem _ hlater, hlabel⟩
          · obtain ⟨later, hlater, hlabel⟩ := ih hm
            exact ⟨later, List.mem_cons_of_mem _ hlater, hlabel⟩

/-! ## The escrow -/

/-- A move of the buyer, which takes nothing and does not set the rent base back.  It may still
pay in, take out of the pool, or move the base on. -/
structure Idle (m : Move (Option LiveCell) Transaction) : Prop where
  byBuyer : ∃ c, m.source = some c ∧ byBuyer m.label c.toCell = true
  taken : taken m = 0
  rewound : rewoundBlocks m = 0

variable {c c' : LiveCell} {a : MatchArgs} {d : MatchData} {tx : Transaction}

/-- A step that does not list the channel, and does not end the match, is the buyer's. -/
theorem idle_of_step (step : Step codeHash (some c) tx (some c')) (hc : IsMatch c.toCell a d)
    (hlisted : ¬ ChannelListed tx a.channelOutpoint) :
    Idle ⟨some c, tx, some c'⟩ ∧ ∃ d', IsMatch c'.toCell a d' := by
  cases step.transition with
  | orderMatch old => exact absurd old hc.not_isOrder
  | sellerExtract old new xudt rate signed unsigned listed due alive exact clock =>
      obtain ⟨rfl, rfl⟩ := hc.unique old
      exact absurd listed hlisted
  | buyerUpdate old new xudt rate unsigned signed clock =>
      obtain ⟨rfl, rfl⟩ := hc.unique old
      have hbuyer : byBuyer tx c.toCell = true := (byBuyer_iff hc).mpr ⟨unsigned, signed⟩
      have hseller : bySeller tx c.toCell = false := bySeller_of_unsigned hc unsigned
      refine ⟨⟨⟨c, rfl, hbuyer⟩, by simp [taken, hseller], ?_⟩, _, new⟩
      rw [rewoundBlocks_eq hc new]
      exact Nat.sub_eq_zero_of_le (rentBase_le_of_clock_eq clock step.later)

/-- In a run that never lists the channel, all that does not end the match is idle. -/
theorem idle_of_run {moves : List (Move (Option LiveCell) Transaction)} {s t : Option LiveCell}
    (run : Run (Step codeHash) s moves t) (hs : s = some c) (hc : IsMatch c.toCell a d)
    (hlisted : ∀ m ∈ moves, ¬ ChannelListed m.label a.channelOutpoint) :
    ∀ m ∈ moves, m.target ≠ none → Idle m := by
  induction run generalizing c d with
  | nil => exact List.forall_mem_nil _
  | @cons s tx u moves t step run ih =>
      subst hs
      obtain ⟨hfirst, hrest⟩ := List.forall_mem_cons.mp hlisted
      cases u with
      | none =>
          -- nothing follows the end
          cases run with
          | nil => exact List.forall_mem_singleton.mpr fun h => absurd rfl h
          | cons step' => exact absurd step' not_step_none
      | some c' =>
          obtain ⟨hidle, d', hc'⟩ := idle_of_step step hc hfirst
          exact List.forall_mem_cons.mpr ⟨fun _ => hidle, ih rfl hc' hrest⟩

/-- Moves that end the match do not set the rent base back either. -/
theorem totalRewound_of_idle {moves : List (Move (Option LiveCell) Transaction)}
    (hidle : ∀ m ∈ moves, m.target ≠ none → Idle m) : totalRewound moves = 0 := by
  refine List.sum_eq_zero fun n hn => ?_
  obtain ⟨m, hm, rfl⟩ := List.mem_map.mp hn
  cases htarget : m.target with
  | none => simp [rewoundBlocks, htarget]
  | some c' => exact (hidle m hm (by simp [htarget])).rewound

/-- A run that leaves the match open goes through open matches only. -/
theorem target_ne_none_of_run {moves : List (Move (Option LiveCell) Transaction)}
    {s t : Option LiveCell} (run : Run (Step codeHash) s moves t) (ht : t ≠ none) :
    ∀ m ∈ moves, m.target ≠ none := by
  induction run with
  | nil => exact List.forall_mem_nil _
  | @cons s tx u moves t step run ih =>
      refine List.forall_mem_cons.mpr ⟨?_, ih ht⟩
      rintro rfl
      cases run with
      | nil => exact ht rfl
      | cons step' => exact not_step_none step'

/-- **After the channel is closed.**  In a history of transactions that consume at most one
Opticrum cell each and list live cell deps only, on a chain where the channel of a match for
capacity is closed and whose transactions have other hashes than the one that opened it:

* whatever does not end the match is the buyer's, and takes nothing;
* while it is open, its pool is what it was, with what the buyer put in;
* it ends only when the rent of the blocks since its rent base covers all of that. -/
theorem closed_channel {moves : List (Move Chain Committed)}
    (run : Run (Commits codeHash) chain moves chain') (hsolo : Solo codeHash moves)
    (hdeps : LiveDeps moves) {c : MatchCell} (hc : c.toLiveCell ∈ chain.live)
    (hlock : isOpticrumLock codeHash c.lock = true) (htype : c.type_ = none)
    (hclosed : chain.Closed c.args.channelOutpoint.packed)
    (havoids : Avoids c.args.channelOutpoint.packed.txHash moves) :
    let history := moves.map Move.label
    let own := escrowMoves codeHash (some c.toLiveCell) history
    (∀ m ∈ own, m.target ≠ none → Idle m) ∧
      (∀ c', escrowAfter codeHash (some c.toLiveCell) history = some c' →
        totalTaken own = 0 ∧ (c'.unoccupied : ℤ) = c.unoccupied + totalPaidIn own) ∧
      (escrowAfter codeHash (some c.toLiveCell) history = none →
        (c.unoccupied : ℤ) + totalPaidIn own ≤
          (c.matchData.shannonsPerBlock.toNat *
            (latestPaid own - baseOf c.toLiveCell) : ℕ)) := by
  intro history own
  have hrun : Run (Step codeHash) (some c.toLiveCell) own
      (escrowAfter codeHash (some c.toLiveCell) history) := run_escrowMoves run hsolo hc hlock
  -- every move of the escrow is a transaction of the history
  have hunlisted : ∀ m ∈ own, ¬ ChannelListed m.label c.args.channelOutpoint := by
    intro m hm
    obtain ⟨committed, hcommitted, hlabel⟩ := exists_of_mem_escrowMoves hm
    obtain ⟨move, hmove, rfl⟩ := List.mem_map.mp hcommitted
    rw [hlabel]
    exact not_channelListed_of_run run hdeps hclosed havoids move hmove
  have hidle : ∀ m ∈ own, m.target ≠ none → Idle m := idle_of_run hrun rfl c.decodes hunlisted
  refine ⟨hidle, fun c' hend => ?_, fun hend => ?_⟩
  · have htaken : totalTaken own = 0 := by
      have hopen := target_ne_none_of_run hrun (by simp [hend])
      refine List.sum_eq_zero fun n hn => ?_
      obtain ⟨m, hm, rfl⟩ := List.mem_map.mp hn
      exact (hidle m hm (hopen m hm)).taken
    have hbalance := pool_add_taken htype hrun
    rw [hend, htaken, poolOf, Nat.cast_zero, add_zero] at hbalance
    exact ⟨htaken, hbalance⟩
  · have hbalance := pool_add_taken htype hrun
    -- the last move may take something, but none has set the rent base back
    have hfee := totalTaken_le_latest htype hrun
    rw [totalRewound_of_idle hidle, Nat.add_zero] at hfee
    rw [hend, poolOf, Nat.cast_zero, zero_add] at hbalance
    rw [← hbalance, Nat.cast_le]
    exact hfee

end ClosedChannel

/-! ## In the market -/

namespace Market

/-- One of the matches after the buyer topped it up in block 1080. -/
def raised : MatchCell :=
  .of codeHash matchArgs ⟨0, 3, 0⟩ none 200000 ⟨Vector.replicate 32 0xe1, 0⟩ (headerAt 1080)

/-- The top-up.  The market has no channel, so the seller has nothing to list. -/
def topUp : Transaction := updateTx fresh raised.toCell

/-- The market after the top-up. -/
def toppedUpChain : Chain := marketChain.commit (committed topUp) (committed_block topUp)

/-- The seller sweeps the match in the first block in which its rent covers its pool. -/
def sweepRaised : Committed :=
  ⟨destroyTx raised 67747, Vector.replicate 32 0xe2, headerAt 67747⟩

/-- The sweep comes after the top-up. -/
theorem sweep_block : toppedUpChain.tip ≤ sweepRaised.header.number.toNat := by
  have htip : toppedUpChain.tip = 1080 := headerAt_number (by decide)
  have hblock : sweepRaised.header.number.toNat = 67747 := headerAt_number (by decide)
  omega

def topUpMoves : List (Move Chain Committed) := [⟨marketChain, committed topUp, toppedUpChain⟩]

def sweepMoves : List (Move Chain Committed) :=
  [⟨toppedUpChain, sweepRaised, toppedUpChain.commit sweepRaised sweep_block⟩]

theorem raised_block : raised.block = 1080 := headerAt_number (by decide)

/-- From block 1080 to block 67747 at 3 shannons: one more than the pool. -/
theorem raised_rentAt : rentAt raised.toLiveCell raised.matchData 67747 = 200001 := by
  rw [rentAt, rentBase, raised_block]
  decide

/-- The seller may sweep: the rent has just passed the pool. -/
theorem step_sweep : Step codeHash (some raised.toLiveCell) sweepRaised.tx none := by
  have hpool : raised.unoccupied = 200000 := matchOutput_unoccupied (by decide)
  refine step_destroy rfl rfl rfl matchOutput_fits (by decide) ?_ ?_
  · rw [raised_rentAt]
    decide
  · rw [raised_rentAt, hpool]
    decide

/-- The top-up makes the raised match, and gives the buyer his cell back. -/
theorem created_topUp : (committed topUp).created =
    [raised.toLiveCell, ⟨buyerCell.toCell, ⟨Vector.replicate 32 0xe1, 1⟩, headerAt 1080⟩] := rfl

/-- No cell of the market comes from the sweep. -/
theorem toppedUpChain_txHash :
    ∀ k ∈ toppedUpChain.live, k.outPoint.txHash ≠ sweepRaised.txHash := by
  intro k hk
  rcases List.mem_append.mp hk with hk | hk
  · have hcell : k ∈ marketCells := (List.mem_filter.mp hk).1
    simp only [marketCells, List.mem_cons, List.not_mem_nil, or_false] at hcell
    rcases hcell with rfl | rfl | rfl | rfl
    all_goals decide
  · rw [Committed.txHash_of_created hk]
    decide

/-- The seller's cell has not been touched. -/
theorem sellerCell_live : sellerCell ∈ toppedUpChain.live := by
  refine List.mem_append_left _ (List.mem_filter.mpr ⟨?_, ?_⟩)
  · simp [marketChain, marketCells]
  · have hout : ∀ c ∈ topUp.inputs, sellerCell.outPoint ≠ c.outPoint :=
      List.forall_mem_cons.mpr ⟨by decide, List.forall_mem_singleton.mpr (by decide)⟩
    exact decide_eq_true fun hin => hout sellerCell hin rfl

/-- The market commits the top-up. -/
theorem run_topUp : Run (Commits codeHash) marketChain topUpMoves toppedUpChain := by
  have htopUp : BuyerStep codeHash fresh.toLiveCell topUp
      (matchCell ⟨0, 3, 0⟩ none 200000 0 1080).toLiveCell :=
    buyerStep_update (by decide) (by decide)
  refine run_committed ?_ htopUp.1.accepted (List.forall_mem_nil _)
  intro c hc
  rcases List.mem_pair.mp hc with rfl | rfl
  · simp [marketCells]
  · simp [marketCells]

/-- And the sweep after it, in which the raised match is consumed next to the seller's cell. -/
theorem run_sweep : Run (Commits codeHash) toppedUpChain sweepMoves
    (toppedUpChain.commit sweepRaised sweep_block) := by
  refine .single (.of_txHash ?_ step_sweep.accepted sweep_block ?_ toppedUpChain_txHash)
  · intro c hc
    rcases List.mem_pair.mp hc with rfl | rfl
    · refine List.mem_append_right _ ?_
      rw [created_topUp]
      exact List.mem_cons_self
    · exact sellerCell_live
  · intro h hh
    rcases List.mem_pair.mp hh with rfl | rfl
    · exact le_rfl
    · exact sweep_block

/-- The top-up consumes one Opticrum cell. -/
theorem solo_topUp : Solo codeHash topUpMoves := by
  have hsole : opticrumInputs codeHash topUp = [fresh.toLiveCell] :=
    opticrumInputs_spend isOpticrumLock_matchCell (by decide)
  exact List.forall_mem_singleton.mpr (congrArg List.length hsole).le

theorem solo_sweep : Solo codeHash sweepMoves := by
  have hsole : opticrumInputs codeHash sweepRaised.tx = [raised.toLiveCell] :=
    opticrumInputs_spend (isOpticrumLock_opticrumLock _ _) (by decide)
  exact List.forall_mem_singleton.mpr (congrArg List.length hsole).le

/-- The escrow goes on in the raised match. -/
theorem follow_topUp :
    follow codeHash fresh.toLiveCell (committed topUp) = some raised.toLiveCell := by
  rw [follow_of_mem List.mem_cons_self, created_topUp]
  exact List.find?_cons_of_pos (isOpticrumLock_opticrumLock _ _)

/-- And ends with the sweep. -/
theorem follow_sweep : follow codeHash raised.toLiveCell sweepRaised = none := by
  rw [follow_of_mem List.mem_cons_self]
  rfl

theorem escrowAfter_topUp :
    escrowAfter codeHash (some fresh.toLiveCell) [committed topUp] = some raised.toLiveCell := by
  rw [escrowAfter, follow_topUp, escrowAfter]

/-- After both it has ended. -/
theorem escrowAfter_topUpAndSweep :
    escrowAfter codeHash (some fresh.toLiveCell) [committed topUp, sweepRaised] = none := by
  rw [escrowAfter, follow_topUp, escrowAfter, follow_sweep, escrowAfter]

/-- The market never had the channel of its matches. -/
theorem marketChain_closed : marketChain.Closed matchArgs.channelOutpoint.packed := by
  intro k hk
  simp only [marketChain, marketCells, List.mem_cons, List.not_mem_nil, or_false] at hk
  rcases hk with rfl | rfl | rfl | rfl
  all_goals decide

/-- After the top-up the match holds what it did and what was paid in.  The sweep ends it,
once its rent since block 1000 covers that. -/
theorem topUpAndSweep_after_close :
    let paid := escrowMoves codeHash (some fresh.toLiveCell) [committed topUp]
    let own := escrowMoves codeHash (some fresh.toLiveCell) [committed topUp, sweepRaised]
    (totalTaken paid = 0 ∧ (raised.unoccupied : ℤ) = fresh.unoccupied + totalPaidIn paid) ∧
      (∀ m ∈ own, m.target ≠ none → Idle m) ∧
      (fresh.unoccupied : ℤ) + totalPaidIn own ≤
        (fresh.matchData.shannonsPerBlock.toNat *
          (latestPaid own - baseOf fresh.toLiveCell) : ℕ) := by
  intro paid own
  have hdeps : LiveDeps topUpMoves := List.forall_mem_singleton.mpr (List.forall_mem_nil _)
  have hdeps' : LiveDeps sweepMoves := List.forall_mem_singleton.mpr (List.forall_mem_nil _)
  have havoids : Avoids matchArgs.channelOutpoint.packed.txHash topUpMoves :=
    List.forall_mem_singleton.mpr (by decide)
  have havoids' : Avoids matchArgs.channelOutpoint.packed.txHash sweepMoves :=
    List.forall_mem_singleton.mpr (by decide)
  have hopen := closed_channel run_topUp solo_topUp hdeps List.mem_cons_self
    isOpticrumLock_matchCell rfl marketChain_closed havoids
  have hended := closed_channel (run_topUp.append run_sweep)
    (List.forall_mem_append.mpr ⟨solo_topUp, solo_sweep⟩)
    (List.forall_mem_append.mpr ⟨hdeps, hdeps'⟩) List.mem_cons_self isOpticrumLock_matchCell rfl
    marketChain_closed (List.forall_mem_append.mpr ⟨havoids, havoids'⟩)
  exact ⟨hopen.2.1 raised.toLiveCell escrowAfter_topUp, hended.1,
    hended.2.2 escrowAfter_topUpAndSweep⟩

end Market

end Opticrum
