import Opticrum.Results.Life

/-!
# A match of a party with itself

Nothing asks the parties of a match to differ.  `order_match` wants the signature of the
seller it names, and the buyer may name himself.  `match_update` however tells its two
paths apart by who signed and who did not, and when the parties are one, neither path is
open: `self_match_freezes` says that such a match is accepted and then stands still, for
both parties, until its rent covers the whole pool.

## How it is proved

The transitions are tried one by one, `not_step_of_same`: an extraction wants the buyer not to
sign, an update the seller, and here either of them is both.  What is left is the sweep, so a
run has one move at most, and `frozen_of_run` says so.

The matching itself is the builder's.  Nothing in it asks the parties to differ.
-/

namespace Opticrum

open Rust Ckb TransitionSystem

section SelfMatch

variable [ScriptHash] {codeHash : Byte32} {seller : Address} {c c' : LiveCell} {a : MatchArgs}
  {d : MatchData} {tx : Transaction}

/-- A match of a party with itself is never replaced. -/
theorem not_step_of_same (hc : IsMatch c.toCell a d)
    (hsame : a.orderArgs.buyerLockHash = a.sellerLockHash) :
    ¬ Step codeHash (some c) tx (some c') := by
  intro step
  cases step.transition with
  | orderMatch old => exact absurd old hc.not_isOrder
  | sellerExtract old new xudt rate signed unsigned =>
      obtain ⟨rfl, rfl⟩ := hc.unique old
      exact unsigned (hsame ▸ signed)
  | buyerUpdate old new xudt rate unsigned signed =>
      obtain ⟨rfl, rfl⟩ := hc.unique old
      exact unsigned (hsame ▸ signed)

/-- All that ever happens to it is its destruction. -/
theorem frozen_of_run (hc : IsMatch c.toCell a d)
    (hsame : a.orderArgs.buyerLockHash = a.sellerLockHash) {s : Option LiveCell}
    {moves : List (Move (Option LiveCell) Transaction)}
    (run : Run (Step codeHash) (some c) moves s) :
    (moves = [] ∧ s = some c) ∨
      ∃ tx tip, moves = [⟨some c, tx, none⟩] ∧ s = none ∧ tip? tx = some tip ∧
        valueOf c.toCell ≤ rentAt c d tip := by
  cases run with
  | nil => exact .inl ⟨rfl, rfl⟩
  | @cons _ tx u moves _ step run =>
      cases u with
      | some c' => exact absurd step (not_step_of_same hc hsame)
      | none =>
          right
          cases step.transition with
          | orderCancel old => exact absurd old hc.not_isOrder
          | matchDestroy old signed due exhausted =>
              obtain ⟨rfl, rfl⟩ := hc.unique old
              -- nothing follows the end
              cases run with
              | nil => exact ⟨tx, _, rfl, rfl, due.isTip, exhausted⟩
              | cons step' => exact absurd step' not_step_none

/-- **Frozen.** The match of an order for capacity by its own buyer is built and accepted, and
has the pool of the order.  In no run from there is it extracted from or updated: the one thing
that may happen is its destruction, once the rent since the match covers the pool.

An update takes the signature of one party without that of the other, and here neither comes
without the other. -/
theorem self_match_freezes {order : LiveCell} {orderData : OrderData} {matchArgs : MatchArgs}
    (h : CkbOrder codeHash order matchArgs.orderArgs orderData)
    (hsame : matchArgs.orderArgs.buyerLockHash = matchArgs.sellerLockHash)
    (hseller : ActsFor codeHash seller matchArgs.sellerLockHash)
    (hcapacity : order.capacity.toNat + orderToMatchCapacityReserve.toNat < 2 ^ 64)
    (block : U64) :
    Matched codeHash seller matchArgs block
      (fun s => ∃ c, s = some c ∧ c.unoccupied = order.unoccupied ∧
        ∀ {moves s'}, Run (Step codeHash) (some c) moves s' →
          (moves = [] ∧ s' = some c) ∨
            ∃ tx tip, moves = [⟨some c, tx, none⟩] ∧ s' = none ∧ tip? tx = some tip ∧
              order.unoccupied ≤ orderData.shannonsPerBlock.toNat * (tip - block.toNat))
      order := by
  refine (h.handsOver rfl hseller hcapacity block).mono ?_
  rintro s ⟨c, rfl, hover⟩
  refine ⟨c, rfl, hover.pool, fun {moves s'} run => ?_⟩
  refine (frozen_of_run hover.decodes hsame run).imp_right ?_
  rintro ⟨tx, tip, hmoves, hs', htip, hexhausted⟩
  rw [hover.valueOf_eq, hover.rentAt_eq] at hexhausted
  exact ⟨tx, tip, hmoves, hs', htip, hexhausted⟩

end SelfMatch

/-! ## In the market -/

namespace Market

/-- The buyer of the market as his own seller. -/
def selfArgs : MatchArgs := { matchArgs with sellerLockHash := buyerLockHash }

theorem order_frozen :
    Matched codeHash ⟨buyerLock⟩ selfArgs 1000
      (fun s => ∃ c, s = some c ∧ c.unoccupied = (order 0).unoccupied ∧
        ∀ {moves s'}, Run (Step codeHash) (some c) moves s' →
          (moves = [] ∧ s' = some c) ∨
            ∃ tx tip, moves = [⟨some c, tx, none⟩] ∧ s' = none ∧ tip? tx = some tip ∧
              (order 0).unoccupied ≤ (3 : U64).toNat * (tip - (1000 : U64).toNat))
      (order 0).toLiveCell := by
  have horder : CkbOrder codeHash (order 0).toLiveCell selfArgs.orderArgs
      ⟨0, 100000000000, 3⟩ :=
    ⟨isOpticrumLock_orderCell, rfl, isOrder_orderOutput, rfl⟩
  exact self_match_freezes horder rfl actsFor_buyer (by decide) 1000

end Market

end Opticrum
