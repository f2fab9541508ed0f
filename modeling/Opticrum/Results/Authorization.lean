import Opticrum.Contract.Construct

/-!
# Who must sign

The one thing the script does guarantee for every cell it lets go.  The lock args
of a cell name its parties, and all cells of a group have the same lock: what the
script demands of the signatures for the cell it inspects, it demands for every
cell of the group, and the demand depends on nothing but the args and the first
Opticrum output.

## The step and the whole

`authorized_of_transition` is about the inspected cell of one group, by cases of the transition.
`spent_by_party` takes it to every consumed cell.  A cell of the contract is in the group of its
own lock; the first cell of that group was inspected; both have the same args, and what is
demanded is a function of the args and of the output.  So it does not matter which of them the
script has looked at.

The args tell an order from a match by their length alone, and no two layouts of different
length encode to the same string.
-/

namespace Opticrum

open Rust Ckb

section Parties

variable [ScriptHash]

/-- Spending an Order cell with args `a` takes the buyer, or a seller who turns it
into a match of that order. -/
def OrderAuthorized (codeHash : Byte32) (tx : Transaction) (a : OrderArgs) : Prop :=
  match opticrumOutput? codeHash tx with
  | none => Signed tx a.buyerLockHash
  | some o => ∃ ma md, IsMatch o ma md ∧ ma.orderArgs = a ∧ Signed tx ma.sellerLockHash

/-- Spending a Match cell with args `a` takes the seller when nothing replaces it,
and exactly one of the parties when a Match cell with the same args does. -/
def MatchAuthorized (codeHash : Byte32) (tx : Transaction) (a : MatchArgs) : Prop :=
  match opticrumOutput? codeHash tx with
  | none => Signed tx a.sellerLockHash
  | some o => (∃ md, IsMatch o a md) ∧
      Xor (Signed tx a.orderArgs.buyerLockHash) (Signed tx a.sellerLockHash)

variable {codeHash : Byte32} {tx : Transaction} {c : LiveCell}

/-- The args of an inspected cell are those of an Order or of a Match, and its
parties have signed. -/
theorem authorized_of_transition (h : Transition tx c (opticrumOutput? codeHash tx)) :
    (∃ a : OrderArgs, c.lock.args = a.toBytes.toList ∧ OrderAuthorized codeHash tx a) ∨
      ∃ a : MatchArgs, c.lock.args = a.toBytes.toList ∧ MatchAuthorized codeHash tx a := by
  unfold OrderAuthorized MatchAuthorized
  cases hout : opticrumOutput? codeHash tx with
  | none =>
      rw [hout] at h
      cases h with
      | orderCancel old signed => exact .inl ⟨_, old.args_eq, signed⟩
      | matchDestroy old signed => exact .inr ⟨_, old.args_eq, signed⟩
  | some o =>
      rw [hout] at h
      cases h with
      | orderMatch old new args xudt listed inspected meets signed =>
          exact .inl ⟨_, old.args_eq, _, _, new, args.symm, signed⟩
      | sellerExtract old new xudt rate signed unsigned =>
          exact .inr ⟨_, old.args_eq, ⟨_, new⟩, .inr ⟨signed, unsigned⟩⟩
      | buyerUpdate old new xudt rate unsigned signed =>
          exact .inr ⟨_, old.args_eq, ⟨_, new⟩, .inl ⟨signed, unsigned⟩⟩

/-- What is demanded of the inspected cell is demanded of its whole group. -/
theorem AcceptedBy.authorized (haccepted : AcceptedBy codeHash tx)
    (hc : c ∈ opticrumInputs codeHash tx) :
    (∃ a : OrderArgs, c.lock.args = a.toBytes.toList ∧ OrderAuthorized codeHash tx a) ∨
      ∃ a : MatchArgs, c.lock.args = a.toBytes.toList ∧ MatchAuthorized codeHash tx a := by
  obtain ⟨head, rest, hgroup, hlock, hhead⟩ := groupInputs_of_mem hc
  have htransition := haccepted.transition (mem_opticrumInputs.mp hhead).2 hgroup
  have hauthorized := authorized_of_transition htransition
  rwa [hlock] at hauthorized

omit [ScriptHash] in
/-- No bytes are the args of an Order and of a Match. -/
theorem orderArgs_ne_matchArgs (a : OrderArgs) (a' : MatchArgs) :
    a.toBytes.toList ≠ a'.toBytes.toList := by
  intro h
  have hlength := congrArg List.length h
  rw [Vector.length_toList, Vector.length_toList] at hlength
  exact absurd hlength (by decide)

/-- **Authorization.** Every Opticrum cell an accepted transaction consumes, in whatever group
and whatever place, is spent by its party: the lock args tell whether it is an Order or a Match,
and nothing else is accepted.

This holds for the cells the script does not look at as well.  They share their lock with one
that it does, and what it demands of the signatures is read off the args and the output. -/
theorem spent_by_party (haccepted : AcceptedBy codeHash tx)
    (hc : c ∈ opticrumInputs codeHash tx) :
    (c.lock.args.length = orderArgsLen ∨ c.lock.args.length = matchArgsLen) ∧
      (∀ a : OrderArgs, c.lock.args = a.toBytes.toList → OrderAuthorized codeHash tx a) ∧
      (∀ a : MatchArgs, c.lock.args = a.toBytes.toList → MatchAuthorized codeHash tx a) := by
  rcases haccepted.authorized hc with ⟨a, hargs, hauthorized⟩ | ⟨a, hargs, hauthorized⟩
  · refine ⟨.inl (by rw [hargs, Vector.length_toList]), fun a' ha' => ?_, fun a' ha' => ?_⟩
    · obtain rfl := OrderArgs.toBytes_injective (hargs.symm.trans ha')
      exact hauthorized
    · exact absurd (hargs.symm.trans ha') (orderArgs_ne_matchArgs a a')
  · refine ⟨.inr (by rw [hargs, Vector.length_toList]), fun a' ha' => ?_, fun a' ha' => ?_⟩
    · exact absurd (ha'.symm.trans hargs) (orderArgs_ne_matchArgs a' a)
    · obtain rfl := MatchArgs.toBytes_injective (hargs.symm.trans ha')
      exact hauthorized

end Parties

/-! ## In the market -/

namespace Market

/-- A match whose rent reaches its pool of 100000 shannons in block 34334.  It pays 3 shannons a
block from block 1000 on. -/
def runDown : MatchCell := matchCell ⟨0, 3, 0⟩ none 100000 0 1000

/-- The buyer cancels two orders of one lock, and the seller sweeps a match. -/
def closeTx : Transaction where
  inputs := [(order 0).toLiveCell, (order 1).toLiveCell, runDown.toLiveCell, buyerCell, sellerCell]
  outputs := [buyerCell.toCell, sellerCell.toCell]
  cellDeps := []
  headerDeps := [headerAt 34334, headerAt 1000]

theorem opticrumInputs_closeTx : opticrumInputs codeHash closeTx =
    [(order 0).toLiveCell, (order 1).toLiveCell, runDown.toLiveCell] := by
  have horder : ∀ i, isOpticrumLock codeHash (order i).lock = true := fun _ =>
    isOpticrumLock_orderCell
  have hmatch : isOpticrumLock codeHash runDown.lock = true := isOpticrumLock_matchCell
  have hbuyer : isOpticrumLock codeHash buyerCell.lock = false := by decide
  have hseller : isOpticrumLock codeHash sellerCell.lock = false := by decide
  simp [opticrumInputs, closeTx, horder, hmatch, hbuyer, hseller]

theorem opticrumOutput?_closeTx : opticrumOutput? codeHash closeTx = none := by
  have hbuyer : isOpticrumLock codeHash buyerCell.lock = false := by decide
  have hseller : isOpticrumLock codeHash sellerCell.lock = false := by decide
  simp [opticrumOutput?, closeTx, hbuyer, hseller]

/-- The orders are one group, the match is another. -/
theorem groupInputs_closeTx :
    closeTx.groupInputs (order 0).lock = [(order 0).toLiveCell, (order 1).toLiveCell] ∧
      closeTx.groupInputs runDown.lock = [runDown.toLiveCell] := by
  have horder : isOpticrumLock codeHash (order 0).lock = true := isOpticrumLock_orderCell
  have hmatch : isOpticrumLock codeHash runDown.lock = true := isOpticrumLock_matchCell
  have hsame : (order 1).lock = (order 0).lock := rfl
  have hother : (order 0).lock ≠ runDown.lock := fun h =>
    orderArgs_ne_matchArgs orderArgs matchArgs (congrArg Script.args h)
  rw [groupInputs_eq_filter horder, groupInputs_eq_filter hmatch, opticrumInputs_closeTx]
  simp [hsame, hother, hother.symm]

theorem transition_closeTx_order : Transition closeTx (order 0).toLiveCell none := by
  have hsigned : Signed closeTx buyerLockHash :=
    ⟨buyerCell, by simp [closeTx], calcScriptHash_buyerLock⟩
  exact .orderCancel isOrder_orderOutput hsigned

/-- The match is destroyed by the seller: at block 34334 it owes 100002 shannons. -/
theorem transition_closeTx_match : Transition closeTx runDown.toLiveCell none := by
  have hmatch : IsMatch runDown.toCell matchArgs ⟨0, 3, 0⟩ := isMatch_matchOutput
  have hpool : runDown.unoccupied = 100000 := matchCell_unoccupied (by decide)
  have hrent : rentAt runDown.toLiveCell ⟨0, 3, 0⟩ 34334 = 100002 :=
    (matchCell_rentAt (by decide) 34334).trans rfl
  have hsigned : Signed closeTx sellerLockHash :=
    ⟨sellerCell, by simp [closeTx], calcScriptHash_sellerLock⟩
  have hdue : RentDue closeTx runDown.toLiveCell ⟨0, 3, 0⟩ 34334 := by
    refine ⟨?_, fun _ => ?_, by rw [hrent]; decide⟩
    · simp [tip?, closeTx, headerAt_number]
    · exact List.any_eq_true.mpr ⟨headerAt 1000, by simp [closeTx], by
        simp [runDown, matchCell, MatchCell.of]⟩
  refine .matchDestroy hmatch hsigned hdue ?_
  rw [valueOf_of_type_none hmatch rfl, hpool, hrent]
  decide

/-- Both groups accept.  For the second order there is no run of its own. -/
theorem acceptedBy_closeTx : AcceptedBy codeHash closeTx := by
  have hfits : ∀ o, opticrumOutput? codeHash closeTx = some o → o.occupied < 2 ^ 64 := by
    intro o ho
    rw [opticrumOutput?_closeTx] at ho
    cases ho
  have horders : accepts closeTx (order 0).lock := by
    refine accepts_of_transition groupInputs_closeTx.1 orderCell_fits hfits ?_
    exact opticrumOutput?_closeTx ▸ transition_closeTx_order
  intro c hc
  rw [opticrumInputs_closeTx] at hc
  simp only [List.mem_cons, List.not_mem_nil, or_false] at hc
  rcases hc with rfl | rfl | rfl
  · exact horders
  · exact horders
  · refine accepts_of_transition groupInputs_closeTx.2 matchCell_fits hfits ?_
    exact opticrumOutput?_closeTx ▸ transition_closeTx_match

/-- The second order, which the script does not look at, was spent by the buyer, and the match
by its seller. -/
theorem closeTx_authorized :
    (closeTx.groupInputs (order 1).lock).head? = some (order 0).toLiveCell ∧
      OrderAuthorized codeHash closeTx orderArgs ∧ MatchAuthorized codeHash closeTx matchArgs := by
  have horder : (order 1).toLiveCell ∈ opticrumInputs codeHash closeTx := by
    simp [opticrumInputs_closeTx]
  have hmatch : runDown.toLiveCell ∈ opticrumInputs codeHash closeTx := by
    simp [opticrumInputs_closeTx]
  refine ⟨?_, ?_, ?_⟩
  · rw [show (order 1).lock = (order 0).lock from rfl, groupInputs_closeTx.1]
    rfl
  · exact (spent_by_party acceptedBy_closeTx horder).2.1 orderArgs rfl
  · exact (spent_by_party acceptedBy_closeTx hmatch).2.2 matchArgs rfl

end Market

end Opticrum
