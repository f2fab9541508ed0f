import Opticrum.Results.Ledger

/-!
# The tokens of an escrow, over whole runs

A match that holds tokens is a metered account too, whose balance is the amount.  Every
step keeps the amount, so an extraction is a charge of nothing, and the one thing that
ever moves tokens is the sweep at the end.

`tokens_held` is what this comes to over a run: no state before the end holds other
tokens, no move before the end is paid for a block, and the end comes only once the
rent of the whole amount has run up, counted from the rent base of the first cell.
Blocks the seller sets the base back by count once more, as for capacity.

## How it is proved

It is the simulation of the ledger once more, with the amount in place of the pool.
`PostsTokens` asks less than `Posts`: nothing is ever paid in, and what a move is paid for is
nothing as long as the match is open.  The lemmas go by the kind of step, and the law of the
account that is used at the end is `taken_le_latest`, whose only entry is the sweep.
-/

namespace Opticrum

open Rust Ckb TransitionSystem

section TokenRun

variable [ScriptHash]

/-- The account of a match that holds tokens: their amount and its rent base.  The amount is
fixed from the start, since no step but the last changes it. -/
def KeepsTokens (rate : ℕ) (amount : U128) (token : Script) :
    Option LiveCell → Option Account.State → Prop
  | none, account => account = none
  | some c, account => ∃ a d, IsMatch c.toCell a d ∧ xudtOf c.toCell = some (amount, token) ∧
      d.shannonsPerBlock.toNat = rate ∧ account = some ⟨amount.toNat, rentBase c d⟩

/-- A move of the escrow and one of its account: nothing is paid in, and what is not the
end moves no tokens. -/
structure PostsTokens (rate : ℕ) (amount : U128) (token : Script)
    (m : Move (Option LiveCell) Transaction) (am : Move (Option Account.State) Account.Event) :
    Prop where
  deposited : Account.deposited am = 0
  rewound : rewoundBlocks m = Account.rewound am
  paidBlocks? : paidBlocks? m = Account.span? am
  kept : ∀ c', m.target = some c' →
    xudtOf c'.toCell = some (amount, token) ∧ rate * paidFor m = 0

variable {codeHash : Byte32} {rate : ℕ} {amount : U128} {token : Script} {c c' : LiveCell}
  {a : MatchArgs} {d d' : MatchData} {tx : Transaction}

omit [ScriptHash] in
/-- What the tokens say of the cell. -/
theorem IsMatch.type_of_xudtOf (h : IsMatch c.toCell a d)
    (hxudt : xudtOf c.toCell = some (amount, token)) :
    c.type_ = some token ∧ d.xudtAmount = amount := by
  rw [h.xudtOf_eq, Option.map_eq_some_iff] at hxudt
  obtain ⟨s, htype, hpair⟩ := hxudt
  exact ⟨htype.trans (congrArg some (Prod.mk.inj hpair).2), (Prod.mk.inj hpair).1⟩

/-- A token extraction charges nothing, or moves the clock. -/
theorem postsTokens_extract {tip : ℕ} (hc : IsMatch c.toCell a d) (hc' : IsMatch c'.toCell a d')
    (hxudt : xudtOf c.toCell = some (amount, token))
    (hxudt' : xudtOf c'.toCell = some (amount, token))
    (hseller : bySeller tx c.toCell = true) (due : RentDue tx c d tip)
    (exact : extracted c.toCell c'.toCell d' = rentAt c d tip)
    (clock : d'.lastExtractionBlock.toNat = tip) :
    ∃ e, Account.Step d.shannonsPerBlock.toNat (some ⟨amount.toNat, rentBase c d⟩) e
        (some ⟨amount.toNat, rentBase c' d'⟩) ∧
      PostsTokens d.shannonsPerBlock.toNat amount token ⟨some c, tx, some c'⟩
        ⟨some ⟨amount.toNat, rentBase c d⟩, e, some ⟨amount.toNat, rentBase c' d'⟩⟩ := by
  obtain ⟨htype, hamount⟩ := hc.type_of_xudtOf hxudt
  obtain ⟨-, hamount'⟩ := hc'.type_of_xudtOf hxudt'
  -- the amount stays, so the rent it is compared with is zero
  have hrent : d.shannonsPerBlock.toNat * (tip - rentBase c d) = 0 := by
    rw [extracted_of_type_some hc htype, hamount, hamount', Nat.sub_self] at exact
    exact exact.symm
  have hblocks : paidBlocks? ⟨some c, tx, some c'⟩ = _ := paidBlocks?_of_due hc hseller due
  have hback : rewoundBlocks ⟨some c, tx, some c'⟩ = rentBase c d - rentBase c' d' :=
    rewoundBlocks_eq hc hc'
  have hunpaid : d.shannonsPerBlock.toNat * paidFor ⟨some c, tx, some c'⟩ = 0 := by
    rw [paidFor, hblocks]
    split
    · exact hrent
    · rfl
  have hkept : ∀ c'', some c' = some c'' → xudtOf c''.toCell = some (amount, token) ∧
      d.shannonsPerBlock.toNat * paidFor ⟨some c, tx, some c'⟩ = 0 := by
    rintro c'' hc''
    obtain rfl := Option.some.inj hc''
    exact ⟨hxudt', hunpaid⟩
  by_cases hlt : rentBase c d < tip
  · have hbase : rentBase c' d' = tip :=
      (rentBase_eq_of_clock clock (Nat.zero_lt_of_lt hlt)).2
    rw [hbase] at hback ⊢
    refine ⟨.charge tip 0, .charge hlt.le ?_, rfl, ?_, hblocks, hkept⟩
    · rw [hrent, Nat.cast_zero]
    · rw [hback, Nat.sub_eq_zero_of_le hlt.le]
      rfl
  · rw [if_neg hlt] at hblocks
    rcases Nat.le_total (rentBase c d) (rentBase c' d') with hle | hle
    · obtain ⟨ahead, hahead⟩ := Nat.exists_eq_add_of_le hle
      refine ⟨.skip ahead 0, ?_, rfl, ?_, hblocks, hkept⟩
      · rw [hahead]
        exact .skip (add_zero _).symm
      · rw [hback, Nat.sub_eq_zero_of_le hle]
        rfl
    · exact ⟨.rewind (rentBase c' d') 0, .rewind hle (add_zero _).symm, rfl, hback, hblocks, hkept⟩

/-- A buyer update lets the clock go ahead, where no extraction is stored. -/
theorem postsTokens_update (hc : IsMatch c.toCell a d) (hc' : IsMatch c'.toCell a d')
    (hxudt' : xudtOf c'.toCell = some (amount, token)) (hbuyer : byBuyer tx c.toCell = true)
    (clock : d'.lastExtractionBlock = d.lastExtractionBlock) (hlater : c.block ≤ c'.block) :
    ∃ e, Account.Step d.shannonsPerBlock.toNat (some ⟨amount.toNat, rentBase c d⟩) e
        (some ⟨amount.toNat, rentBase c' d'⟩) ∧
      PostsTokens d.shannonsPerBlock.toNat amount token ⟨some c, tx, some c'⟩
        ⟨some ⟨amount.toNat, rentBase c d⟩, e, some ⟨amount.toNat, rentBase c' d'⟩⟩ := by
  have hseller : bySeller tx c.toCell = false :=
    bySeller_of_unsigned hc ((byBuyer_iff hc).mp hbuyer).1
  have hle : rentBase c d ≤ rentBase c' d' := rentBase_le_of_clock_eq clock hlater
  have hblocks : paidBlocks? ⟨some c, tx, some c'⟩ = none := by
    simp [paidBlocks?, sellerTip?, hseller]
  obtain ⟨ahead, hahead⟩ := Nat.exists_eq_add_of_le hle
  refine ⟨.skip ahead 0, ?_, rfl, ?_, hblocks, ?_⟩
  · rw [hahead]
    exact .skip (add_zero _).symm
  · rw [rewoundBlocks_eq hc hc', Nat.sub_eq_zero_of_le hle]
    rfl
  · rintro c'' hc''
    obtain rfl := Option.some.inj hc''
    rw [paidFor, hblocks]
    exact ⟨hxudt', rfl⟩

/-- **Posting.**  Every step of a match that holds tokens is answered by its account. -/
theorem postsTokens_of_step {s s' : Option LiveCell} {account : Option Account.State}
    (step : Step codeHash s tx s') (hs : KeepsTokens rate amount token s account) :
    ∃ e account', Account.Step rate account e account' ∧
      KeepsTokens rate amount token s' account' ∧
      PostsTokens rate amount token ⟨s, tx, s'⟩ ⟨account, e, account'⟩ := by
  cases s with
  | none => exact absurd step not_step_none
  | some c =>
      obtain ⟨a, d, hc, hxudt, rfl, rfl⟩ := hs
      cases s' with
      | none =>
          cases step.transition with
          | orderCancel old => exact absurd old hc.not_isOrder
          | matchDestroy old signed due exhausted =>
              obtain ⟨rfl, rfl⟩ := hc.unique old
              obtain ⟨htype, hamount⟩ := hc.type_of_xudtOf hxudt
              rw [valueOf_of_type_some hc htype, hamount] at exhausted
              refine ⟨.sweep _, none, .sweep exhausted, rfl, rfl, rfl, ?_, by rintro _ ⟨⟩⟩
              simp only [paidBlocks?, sellerTip?, due.isTip, hc.baseOf_eq, Account.span?]
      | some c' =>
          cases step.transition with
          | orderMatch old => exact absurd old hc.not_isOrder
          | sellerExtract old new xudt hrate signed unsigned listed due alive exact clock =>
              obtain ⟨rfl, rfl⟩ := hc.unique old
              have hxudt' := xudt.symm.trans hxudt
              obtain ⟨e, hpost, hentries⟩ := postsTokens_extract hc new hxudt hxudt'
                ((bySeller_iff hc).mpr ⟨signed, unsigned⟩) due exact clock
              exact ⟨e, _, hpost, ⟨_, _, new, hxudt', by rw [hrate], rfl⟩, hentries⟩
          | buyerUpdate old new xudt hrate unsigned signed clock =>
              obtain ⟨rfl, rfl⟩ := hc.unique old
              have hxudt' := xudt.symm.trans hxudt
              obtain ⟨e, hpost, hentries⟩ := postsTokens_update hc new hxudt'
                ((byBuyer_iff hc).mpr ⟨unsigned, signed⟩) clock step.later
              exact ⟨e, _, hpost, ⟨_, _, new, hxudt', by rw [hrate], rfl⟩, hentries⟩

/-- **Held.** In every run of a match that holds tokens, whoever acts in whatever order and with
whatever headers, no state before the end holds other tokens, and no move before the end is paid
for.  When the run ends in a destruction, the rent from the first rent base to the latest block
paid for, and of the blocks the base was set back by, is at least the whole amount.

This is what is left of the terms for tokens, as no part of them can be extracted: the seller
gets all of them, at the time at which the rent has come to all of them. -/
theorem tokens_held {c : MatchCell} {token : Script} (htype : c.type_ = some token)
    {moves : List (Move (Option LiveCell) Transaction)} {s : Option LiveCell}
    (run : Run (Step codeHash) (some c.toLiveCell) moves s) :
    (∀ m ∈ moves, ∀ c', m.target = some c' →
        xudtOf c'.toCell = some (c.matchData.xudtAmount, token) ∧
          c.matchData.shannonsPerBlock.toNat * paidFor m = 0) ∧
      (s = none →
        c.matchData.xudtAmount.toNat ≤ c.matchData.shannonsPerBlock.toNat *
          (latestPaid moves - baseOf c.toLiveCell + totalRewound moves)) := by
  have hstart : KeepsTokens c.matchData.shannonsPerBlock.toNat c.matchData.xudtAmount token
      (some c.toLiveCell)
      (some ⟨c.matchData.xudtAmount.toNat, rentBase c.toLiveCell c.matchData⟩) :=
    ⟨c.args, c.matchData, c.decodes, by rw [c.decodes.xudtOf_eq, htype]; rfl, rfl, rfl⟩
  obtain ⟨amoves, account, arun, hkeeps, hposts⟩ := run.simulate postsTokens_of_step hstart
  constructor
  · exact forall_left_of_forall₂ hposts fun hpost => hpost.kept
  · rintro rfl
    obtain rfl := hkeeps
    have hbalance := Account.balance_add_taken arun
    have hfee := Account.taken_le_latest arun rfl
    have hdeposits : (amoves.map Account.deposited).sum = 0 := by
      rw [← map_eq_of_forall₂ (f := fun _ => 0) hposts fun hpost => hpost.deposited.symm]
      simp
    rw [hdeposits, add_zero, Account.balanceOf, Account.balanceOf, Nat.cast_zero, zero_add,
      Nat.cast_inj] at hbalance
    rw [hbalance, Account.latest, ← filterMap_eq_of_forall₂ hposts PostsTokens.paidBlocks?,
      ← map_eq_of_forall₂ hposts PostsTokens.rewound] at hfee
    rwa [c.decodes.baseOf_eq]

end TokenRun

/-! ## In the market -/

namespace Market

/-- 100 tokens at a rate of 3, in block 1000 and after an update in block 1500. -/
def hundredTokens : MatchCell := matchCell ⟨100, 3, 0⟩ (some token) 0 0 1000

/-- What the buyer's update leaves: the same tokens, in a younger cell. -/
def hundredUpdated : MatchCell := matchCell ⟨100, 3, 0⟩ (some token) 0 1 1500

/-- A type script of 65 bytes more does not bring the occupied capacity near the limit. -/
theorem tokenCell_fits {d : MatchData} {pool index block : ℕ} :
    (matchCell d (some token) pool index block).occupied < 2 ^ 64 := by
  rw [matchCell_occupied]
  decide

/-- The buyer moves the rent base to block 1500, and the seller sweeps the tokens at block
1534. -/
def updateAndSweep : List (Move (Option LiveCell) Transaction) :=
  [⟨some hundredTokens.toLiveCell, updateTx hundredTokens hundredUpdated.toCell,
      some hundredUpdated.toLiveCell⟩,
    ⟨some hundredUpdated.toLiveCell, destroyTx hundredUpdated 1534, none⟩]

/-- The buyer updates the match, and the seller sweeps it when its tokens are covered. -/
theorem run_updateAndSweep :
    Run (Step codeHash) (some hundredTokens.toLiveCell) updateAndSweep none := by
  have hbuyer : ¬ Signed (updateTx hundredTokens hundredUpdated.toCell) sellerLockHash ∧
      Signed (updateTx hundredTokens hundredUpdated.toCell) buyerLockHash :=
    signed_spend_buyerCell rfl
  have hseller : Signed (destroyTx hundredUpdated 1534) sellerLockHash ∧
      ¬ Signed (destroyTx hundredUpdated 1534) buyerLockHash := signed_spend_sellerCell rfl
  have hold : IsMatch hundredTokens.toCell matchArgs ⟨100, 3, 0⟩ := isMatch_matchOutput
  have hnew : IsMatch hundredUpdated.toCell matchArgs ⟨100, 3, 0⟩ := isMatch_matchOutput
  have hrent : rentAt hundredUpdated.toLiveCell ⟨100, 3, 0⟩ 1534 = 102 :=
    matchCell_rentAt (by decide) 1534
  refine .cons ?_ (.single ?_)
  · refine step_spend_replace isOpticrumLock_matchCell (by decide) isOpticrumLock_matchCell
      ⟨tokenCell_fits, tokenCell_fits⟩ ?_ ?_ (List.forall_mem_nil _)
    · refine .buyerUpdate hold hnew ?_ rfl hbuyer.1 hbuyer.2 rfl
      rw [hundredTokens, hundredUpdated, matchCell_xudtOf, matchCell_xudtOf]
    · rw [hundredTokens, hundredUpdated, matchCell_block (by decide), matchCell_block (by decide)]
      decide
  · have hdue : RentDue (destroyTx hundredUpdated 1534) hundredUpdated.toLiveCell ⟨100, 3, 0⟩
        1534 := by
      refine ⟨?_, fun _ => hasHeader_spend (by simp), by rw [hrent]; decide⟩
      rw [destroyTx, tip?_spend, headerAt_number (by decide)]
    refine step_spend_close isOpticrumLock_matchCell (by decide) ?_ tokenCell_fits ?_
    · intro o ho
      obtain rfl := List.mem_singleton.mp ho
      decide
    · refine .matchDestroy hnew hseller.1 hdue ?_
      rw [valueOf_of_type_some hnew rfl, hrent]
      decide

/-- All 100 tokens are held up to the sweep, which comes when 102 are due since block 1500.  The
update moved the base there from block 1000. -/
theorem updateAndSweep_held :
    (∀ m ∈ updateAndSweep, ∀ c', m.target = some c' →
        xudtOf c'.toCell = some (hundredTokens.matchData.xudtAmount, token) ∧
          hundredTokens.matchData.shannonsPerBlock.toNat * paidFor m = 0) ∧
      ((none : Option LiveCell) = none →
        hundredTokens.matchData.xudtAmount.toNat ≤
          hundredTokens.matchData.shannonsPerBlock.toNat *
            (latestPaid updateAndSweep - baseOf hundredTokens.toLiveCell +
              totalRewound updateAndSweep)) :=
  tokens_held rfl run_updateAndSweep

end Market

end Opticrum
