import Opticrum.Contract.Construct
import Opticrum.Results.RentClock

/-!
# The terms of an order

Each term of an order is protected in a different place: the args and the type
script by the root's comparison of the two states, the rate by `order_match` and
by `match_update`, the initial values by `order_match` alone.  `terms_immutable`
puts the pieces together for runs of any length, in which both parties act.

`Succeeds` is `Step` without the conditions on block numbers: no term depends on
the order in which blocks come.

## How it is proved

Two successor lemmas say what one step can do: from an order it ends or opens a match with the
terms of the order, `successor_of_order`; from a match it ends or goes on with the same terms,
`successor_of_match`.  `Run.succession` makes the list of states of them.  `SameTerms` is
transitive, so every state is compared with the first one, and that one with the order.
-/

namespace Opticrum

open Rust Ckb TransitionSystem

section Terms

variable [ScriptHash] {codeHash : Byte32}

/-- The accepted transaction `tx` consumes exactly the Opticrum cell `c`, and its
first Opticrum output is the successor. -/
inductive Succeeds (codeHash : Byte32) :
    Option LiveCell → Transaction → Option LiveCell → Prop
  | intro {c : LiveCell} {tx : Transaction} {s : Option LiveCell}
      (sole : opticrumInputs codeHash tx = [c]) (accepted : AcceptedBy codeHash tx)
      (successor : opticrumOutput? codeHash tx = s.map LiveCell.toCell) :
      Succeeds codeHash (some c) tx s

/-- Every step of the lifecycle is a succession. -/
theorem Step.succeeds {s s' : Option LiveCell} {tx : Transaction} (h : Step codeHash s tx s') :
    Succeeds codeHash s tx s' := by
  cases h with
  | replace sole accepted successor => exact .intro sole accepted successor
  | close sole accepted closed => exact .intro sole accepted closed

theorem Succeeds.transition {c : LiveCell} {tx : Transaction} {s : Option LiveCell}
    (h : Succeeds codeHash (some c) tx s) : Transition tx c (s.map LiveCell.toCell) := by
  cases h with
  | intro sole accepted successor =>
      have htransition :=
        accepted.transition (isOpticrumLock_of_sole sole) (groupInputs_of_sole sole)
      rwa [successor] at htransition

theorem not_succeeds_none {tx : Transaction} {s : Option LiveCell} :
    ¬ Succeeds codeHash none tx s := by
  intro h
  cases h

/-- The terms two Match states of one escrow share: the args in whole, the rate, and the type
script. -/
structure SameTerms (m m' : MatchCell) : Prop where
  args : m'.args = m.args
  rate : m'.matchData.shannonsPerBlock = m.matchData.shannonsPerBlock
  type_ : m'.type_ = m.type_

/-- The Match state an order becomes. -/
structure Opens (c : OrderCell) (first : MatchCell) : Prop where
  orderArgs : first.args.orderArgs = c.args
  rate : first.matchData.shannonsPerBlock = c.orderData.shannonsPerBlock
  type_ : first.type_ = c.type_
  clock : first.matchData.lastExtractionBlock = 0
  amount : first.matchData.xudtAmount = c.orderData.xudtAmount
  pool : first.unoccupied = c.unoccupied

/-- The terms of the order `c`, in a Match state of an escrow whose first one is `first`. -/
structure KeepsTerms (c : OrderCell) (first m : MatchCell) : Prop where
  orderArgs : m.args.orderArgs = c.args
  channelOutpoint : m.args.channelOutpoint = first.args.channelOutpoint
  sellerLockHash : m.args.sellerLockHash = first.args.sellerLockHash
  rate : m.matchData.shannonsPerBlock = c.orderData.shannonsPerBlock
  type_ : m.type_ = c.type_

omit [ScriptHash] in
theorem SameTerms.refl (m : MatchCell) : SameTerms m m := ⟨rfl, rfl, rfl⟩

omit [ScriptHash] in
theorem SameTerms.trans {m m' m'' : MatchCell} (h : SameTerms m m') (h' : SameTerms m' m'') :
    SameTerms m m'' :=
  ⟨h'.args.trans h.args, h'.rate.trans h.rate, h'.type_.trans h.type_⟩

omit [ScriptHash] in
/-- What the first Match state took over from the order, its successors keep. -/
theorem Opens.keepsTerms {c : OrderCell} {first m : MatchCell} (h : Opens c first)
    (hsame : SameTerms first m) : KeepsTerms c first m where
  orderArgs := by rw [hsame.args, h.orderArgs]
  channelOutpoint := by rw [hsame.args]
  sellerLockHash := by rw [hsame.args]
  rate := hsame.rate.trans h.rate
  type_ := hsame.type_.trans h.type_

/-- What follows a Match state. -/
theorem successor_of_match {m : MatchCell} {tx : Transaction} {s : Option LiveCell}
    (h : Succeeds codeHash (some m.toLiveCell) tx s) :
    s = none ∨ ∃ m' : MatchCell, s = some m'.toLiveCell ∧ SameTerms m m' := by
  cases s with
  | none => exact .inl rfl
  | some c' =>
      right
      cases h.transition with
      | orderMatch old => exact absurd old m.decodes.not_isOrder
      | sellerExtract old new xudt rate =>
          obtain ⟨rfl, rfl⟩ := old.unique m.decodes
          exact ⟨⟨c', _, _, new⟩, rfl, rfl, rate.symm, (type_eq_of_xudtOf_eq old new xudt).symm⟩
      | buyerUpdate old new xudt rate =>
          obtain ⟨rfl, rfl⟩ := old.unique m.decodes
          exact ⟨⟨c', _, _, new⟩, rfl, rfl, rate.symm, (type_eq_of_xudtOf_eq old new xudt).symm⟩

/-- What follows an Order. -/
theorem successor_of_order {c : OrderCell} {tx : Transaction} {s : Option LiveCell}
    (h : Succeeds codeHash (some c.toLiveCell) tx s) :
    s = none ∨ ∃ first : MatchCell, s = some first.toLiveCell ∧ Opens c first := by
  cases s with
  | none => exact .inl rfl
  | some c' =>
      right
      cases h.transition with
      | orderMatch old new args xudt _ _ _ _ rate clock pool amount =>
          obtain ⟨rfl, rfl⟩ := old.unique c.decodes
          have htype : c'.type_ = c.type_ := by
            rw [old.xudtOf_eq, new.xudtOf_eq, amount] at xudt
            have hsnd := congrArg (Option.map Prod.snd) xudt
            simpa [Function.comp_def] using hsnd.symm
          exact ⟨⟨c', _, _, new⟩, rfl, args.symm, rate.symm, htype, clock, amount.symm,
            pool.symm⟩
      | sellerExtract old => exact absurd c.decodes old.not_isOrder
      | buyerUpdate old => exact absurd c.decodes old.not_isOrder

/-- **Immutable terms.** A run from an Order goes through Match states, all with the terms of
the order and of the first of them, and then possibly ends.

The order fixes the node, the buyer, the rate and the tokens, the first match the channel and
the seller.  What is left to change is the pool, and the block the rent runs from. -/
theorem terms_immutable {c : OrderCell} {moves : List (Move (Option LiveCell) Transaction)}
    {s : Option LiveCell} (run : Run (Succeeds codeHash) (some c.toLiveCell) moves s) :
    ∃ (states : List MatchCell) (ending : List (Option LiveCell)),
      (ending = [] ∨ ending = [none]) ∧
      moves.map Move.target = states.map (fun m => some m.toLiveCell) ++ ending ∧
      ∀ first ∈ states.head?, Opens c first ∧ ∀ m ∈ states, KeepsTerms c first m := by
  cases run with
  | nil => exact ⟨[], [], .inl rfl, rfl, by simp⟩
  | cons h run =>
      rcases successor_of_order h with rfl | ⟨first, rfl, hopens⟩
      · cases run with
        | nil => exact ⟨[], [none], .inr rfl, rfl, by simp⟩
        | cons h' => exact absurd h' not_succeeds_none
      · obtain ⟨rest, ending, hending, htargets, hrest⟩ :=
          run.succession (f := fun m : MatchCell => some m.toLiveCell) (R := SameTerms)
            successor_of_match not_succeeds_none SameTerms.trans rfl
        refine ⟨first :: rest, ending, hending, ?_, ?_⟩
        · rw [List.map_cons, List.map_cons, htargets, List.cons_append]
        · intro first' hfirst
          obtain rfl := Option.some.inj hfirst
          refine ⟨hopens, fun m hm => hopens.keepsTerms ?_⟩
          rcases List.mem_cons.mp hm with rfl | hm
          · exact .refl m
          · exact hrest m hm

end Terms

/-! ## In the market -/

namespace Market

/-- The seller matches the order of the market. -/
def openingTx : Transaction :=
  spend (order 0).toLiveCell sellerCell [unpaid.toCell, sellerCell.toCell] [.code channelCell]
    [headerAt 500, headerAt 900]

/-- The match of the market opens in block 1000. -/
theorem step_opening :
    Step codeHash (some (order 0).toLiveCell) openingTx (some unpaid.toLiveCell) := by
  have hsigned : Signed openingTx sellerLockHash :=
    signed_spend.mpr (.inr calcScriptHash_sellerLock)
  have hblock : (order 0).block = 500 := orderCell_block (by decide)
  have hblock' : unpaid.block = 1000 := matchCell_block (by decide)
  have hlisted : openingTx.rawCellDeps.findIdx?
      (fun dep => matchArgs.channelOutpoint.isAt dep.outPoint) = some 0 := by decide
  have hcell : unpaid.toCell = matched := by
    simp only [unpaid, matchCell, MatchCell.of, matched]
  have htransition : Transition openingTx (order 0).toLiveCell (some unpaid.toCell) :=
    hcell ▸ transition_order hlisted rfl rfl rfl rfl hsigned 0
  refine step_spend_replace isOpticrumLock_orderCell (by decide) isOpticrumLock_matchCell
    ⟨orderCell_fits, matchCell_fits⟩ htransition ?_ ?_
  · rw [hblock, hblock']
    decide
  · rw [hblock']
    decide

/-- The order is matched, and the buyer tops the match up. -/
def openAndTopUp : List (Move (Option LiveCell) Transaction) :=
  [⟨some (order 0).toLiveCell, openingTx, some unpaid.toLiveCell⟩,
    ⟨some unpaid.toLiveCell, updateTx unpaid toppedUp.toCell, some toppedUp.toLiveCell⟩]

theorem openAndTopUp_keeps_terms :
    ∃ (states : List MatchCell) (ending : List (Option LiveCell)),
      (ending = [] ∨ ending = [none]) ∧
      openAndTopUp.map Move.target = states.map (fun m => some m.toLiveCell) ++ ending ∧
      ∀ first ∈ states.head?, Opens (order 0) first ∧
        ∀ m ∈ states, KeepsTerms (order 0) first m :=
  terms_immutable (.cons step_opening.succeeds
    (.single (buyerStep_update (by decide) (by decide)).1.succeeds))

end Market

end Opticrum
