import Opticrum.Contract.Construct
import Mathlib.Algebra.Order.BigOperators.Group.List

/-!
# Value over a whole transaction

A run of the script looks at one cell, the first of its group, and at one output,
the first under the contract's lock.  Of that cell it conserves the value: what leaves
the pool without the buyer's signature is rent.

Nothing counts the other cells.  All cells of a group share one inspected cell,
and all groups share one inspected output, so a transaction that consumes several
escrows of one order has to replace only one of them, and one escrow behind a cell that
is not on the books need not be replaced at all.  `conserves_iff` says that value is
conserved when the transaction consumes one escrow of the order and the script looks at
it, whatever else is consumed, and in no other case.

## The two ways to lose a pool

`Market.matchMany` consumes several escrows, of which the script looks at one.
`Market.updateBehind` consumes escrows behind a match that holds tokens, in its group; a
single one is enough, and its whole pool is lost.

## The books

For an order's args `a`, `escrowsOf` are the consumed cells under the contract that hold no
tokens and belong to `a`, as orders or as matches.  What they hold is `pooledIn`, what the
outputs of the order hold is `pooledOut`, and `rentDue` is the rent of the matches among them.
`Consumes n inspected` says that there are `n` of them, among whatever other cells, and whether
the first cell of some group is one.
-/

namespace Opticrum

open Rust Ckb

/-! ## The books of a transaction -/

/-- The args of the order a cell carries. -/
def orderArgsOf (c : Cell) : Option OrderArgs :=
  match branchOf c with
  | .ok (.orderCell a _) => some a
  | .ok (.matchCell a _) => some a.orderArgs
  | _ => none

/-- The rent of a consumed Match cell at `HeaderDep[0]`; an Order cell owes none. -/
def rentOf (tx : Transaction) (c : LiveCell) : ℕ :=
  match branchOf c.toCell, tip? tx with
  | .ok (.matchCell _ d), some tip => rentAt c d tip
  | _, _ => 0

/-- An order carries its own args. -/
theorem IsOrder.orderArgsOf_eq {c : Cell} {a : OrderArgs} {d : OrderData} (h : IsOrder c a d) :
    orderArgsOf c = some a := by
  rw [orderArgsOf, show branchOf c = _ from h]

/-- A match carries those of the order it came from, at the beginning of its own. -/
theorem IsMatch.orderArgsOf_eq {c : Cell} {a : MatchArgs} {d : MatchData} (h : IsMatch c a d) :
    orderArgsOf c = some a.orderArgs := by
  rw [orderArgsOf, show branchOf c = _ from h]

/-- An order owes no rent, whatever the tip is. -/
theorem IsOrder.rentOf_eq {tx : Transaction} {c : LiveCell} {a : OrderArgs} {d : OrderData}
    (h : IsOrder c.toCell a d) : rentOf tx c = 0 := by
  rw [rentOf, show branchOf c.toCell = _ from h]

/-- A match owes its rent at the tip the transaction shows. -/
theorem IsMatch.rentOf_eq {tx : Transaction} {c : LiveCell} {a : MatchArgs} {d : MatchData}
    {tip : ℕ} (h : IsMatch c.toCell a d) (htip : tip? tx = some tip) :
    rentOf tx c = rentAt c d tip := by
  rw [rentOf, show branchOf c.toCell = _ from h, htip]

section Books

variable (codeHash : Byte32) (a : OrderArgs) (tx : Transaction)

/-- The escrows for capacity alone, Orders and Matches, that `tx` consumes of the order `a`.
Other cells of the contract may be among its inputs. -/
def escrowsOf : List LiveCell :=
  (opticrumInputs codeHash tx).filter fun c => c.type_ = none ∧ orderArgsOf c.toCell = some a

/-- Unoccupied CKB of the consumed escrows. -/
def pooledIn : ℕ := ((escrowsOf codeHash a tx).map fun c => c.unoccupied).sum

/-- Unoccupied CKB of the Opticrum outputs that carry the order.  All of them count here, though
the script looks at the first only. -/
def pooledOut : ℕ :=
  (((opticrumOutputs codeHash tx).filter fun o => orderArgsOf o = some a).map
    Cell.unoccupied).sum

/-- Rent of the consumed escrows. -/
def rentDue : ℕ := ((escrowsOf codeHash a tx).map (rentOf tx)).sum

/-- What leaves the escrows of the order is rent.  It is an inequality, since somebody may also
pay in. -/
def Conserved : Prop := pooledIn codeHash a tx ≤ pooledOut codeHash a tx + rentDue codeHash a tx

/-- The script looks at one of the escrows: it is the first cell of its lock group. -/
def InspectsEscrow : Prop :=
  ∃ c ∈ escrowsOf codeHash a tx, (tx.groupInputs c.lock).head? = some c

/-- `tx` consumes `n` escrows of the order `a`, among whatever other cells, into some Opticrum
output, and the buyer does not sign.  `inspected` says whether the script looks at one of the
`n`.

It looks at the first cell of each group, so that with several groups it may look at more than
one. -/
structure Consumes [ScriptHash] (n : ℕ) (inspected : Bool) : Prop where
  count : (escrowsOf codeHash a tx).length = n
  inspects : InspectsEscrow codeHash a tx ↔ inspected = true
  output : opticrumOutputs codeHash tx ≠ []
  unsigned : ¬ Signed tx a.buyerLockHash

end Books

/-- Whatever the contract accepts conserves the value of `n` escrows, of which it looks at
one or at none. -/
def Conserves (n : ℕ) (inspected : Bool) : Prop :=
  ∀ [ScriptHash] (codeHash : Byte32) (a : OrderArgs) (tx : Transaction),
    Consumes codeHash a tx n inspected → AcceptedBy codeHash tx → Conserved codeHash a tx

section Escrows

variable {codeHash : Byte32} {a : OrderArgs} {tx : Transaction} {c : LiveCell}

/-- What is on the books: cells of the contract, without a type script, of that order. -/
theorem mem_escrowsOf : c ∈ escrowsOf codeHash a tx ↔
    c ∈ opticrumInputs codeHash tx ∧ c.type_ = none ∧ orderArgsOf c.toCell = some a := by
  simp [escrowsOf]

/-- Where every input of the contract is an escrow of the order, all are on the books. -/
theorem escrowsOf_eq_opticrumInputs
    (h : ∀ c ∈ opticrumInputs codeHash tx, c.type_ = none ∧ orderArgsOf c.toCell = some a) :
    escrowsOf codeHash a tx = opticrumInputs codeHash tx :=
  List.filter_eq_self.mpr fun c hc => decide_eq_true (h c hc)

end Escrows

/-! ## One escrow -/

/-- An output that carries the order is on the books. -/
theorem le_pooledOut {codeHash : Byte32} {a : OrderArgs} {tx : Transaction} {o : Cell}
    (ho : opticrumOutput? codeHash tx = some o) (hargs : orderArgsOf o = some a) :
    o.unoccupied ≤ pooledOut codeHash a tx := by
  rw [opticrumOutput?_eq_head?] at ho
  have hmem : o ∈ opticrumOutputs codeHash tx := List.mem_of_head? ho
  refine List.single_le_sum (fun _ _ => Nat.zero_le _) _ (List.mem_map.mpr ⟨o, ?_, rfl⟩)
  exact List.mem_filter.mpr ⟨hmem, by simp [hargs]⟩

/-- One escrow that the script looks at is conserved.  The cells behind it in its group,
and the other groups, make no difference. -/
theorem conserved_of_inspected [ScriptHash] {codeHash : Byte32} {a : OrderArgs}
    {tx : Transaction} (h : Consumes codeHash a tx 1 true) (haccepted : AcceptedBy codeHash tx) :
    Conserved codeHash a tx := by
  obtain ⟨c, sole⟩ := List.length_eq_one_iff.mp h.count
  obtain ⟨c', hc', hfirst⟩ := h.inspects.mpr rfl
  obtain rfl : c' = c := List.mem_singleton.mp (sole ▸ hc')
  obtain ⟨hin, htype, hargs⟩ := mem_escrowsOf.mp hc'
  obtain ⟨rest, hgroup⟩ := List.head?_eq_some_iff.mp hfirst
  have htransition := haccepted.transition (mem_opticrumInputs.mp hin).2 hgroup
  have hbooks : pooledIn codeHash a tx = c'.unoccupied ∧
      rentDue codeHash a tx = rentOf tx c' := by
    simp [pooledIn, rentDue, sole]
  rw [Conserved, hbooks.1, hbooks.2]
  cases hout : opticrumOutput? codeHash tx with
  | none => exact absurd (opticrumOutput?_eq_none_iff.mp hout) h.output
  | some o =>
      rw [hout] at htransition
      cases htransition with
      | orderMatch old new args xudt listed inspected meets signed rate clock pool =>
          obtain rfl := Option.some.inj (old.orderArgsOf_eq.symm.trans hargs)
          have hle := le_pooledOut hout (new.orderArgsOf_eq.trans (congrArg some args.symm))
          exact pool.le.trans (hle.trans (Nat.le_add_right _ _))
      | sellerExtract old new xudt rate signed unsigned listed due alive exact clock =>
          obtain rfl := Option.some.inj (old.orderArgsOf_eq.symm.trans hargs)
          have hle := le_pooledOut hout new.orderArgsOf_eq
          rw [extracted_of_type_none old htype] at exact
          rw [old.rentOf_eq due.isTip]
          omega
      | buyerUpdate old new xudt rate unsigned signed clock =>
          obtain rfl := Option.some.inj (old.orderArgsOf_eq.symm.trans hargs)
          exact absurd signed h.unsigned

/-! ## Several escrows -/

namespace Market

/-- The seller matches `n` identical orders with one channel, into one Match cell. -/
def matchMany (n : ℕ) : Transaction where
  inputs := (List.range n).map (fun i => (order i).toLiveCell) ++ [sellerCell]
  outputs := [matched]
  cellDeps := [.code channelCell]
  headerDeps := [headerAt 500, headerAt 900]

theorem opticrumInputs_matchMany (n : ℕ) :
    opticrumInputs codeHash (matchMany n) = (List.range n).map fun i => (order i).toLiveCell := by
  have hseller : isOpticrumLock codeHash sellerCell.lock = false := by decide
  rw [opticrumInputs, matchMany, List.filter_append, List.filter_singleton, hseller,
    List.filter_eq_self.mpr]
  · exact List.append_nil _
  · intro c hc
    obtain ⟨i, -, rfl⟩ := List.mem_map.mp hc
    exact isOpticrumLock_orderCell

theorem opticrumOutputs_matchMany (n : ℕ) : opticrumOutputs codeHash (matchMany n) = [matched] := by
  have hmatched : isOpticrumLock codeHash matched.lock = true := isOpticrumLock_opticrumLock _ _
  rw [opticrumOutputs, matchMany, List.filter_singleton, hmatched]
  rfl

/-- The seller signs and the buyer does not.  The locks of the orders have a digest of their
own. -/
theorem signed_matchMany (n : ℕ) :
    Signed (matchMany n) sellerLockHash ∧ ¬ Signed (matchMany n) buyerLockHash := by
  constructor
  · exact ⟨sellerCell, by simp [matchMany], calcScriptHash_sellerLock⟩
  · rintro ⟨c, hc, hhash⟩
    rcases List.mem_append.mp hc with hc | hc
    · obtain ⟨i, -, rfl⟩ := List.mem_map.mp hc
      exact calcScriptHash_orderLock_ne.2 hhash
    · obtain rfl := List.mem_singleton.mp hc
      exact sellerLockHash_ne_buyerLockHash (calcScriptHash_sellerLock.symm.trans hhash)

/-- The contract accepts any number of them: all orders are one group, whose first cell is
matched as it should be. -/
theorem acceptedBy_matchMany {n : ℕ} (hn : 0 < n) : AcceptedBy codeHash (matchMany n) := by
  obtain ⟨m, rfl⟩ : ∃ m, n = m + 1 := ⟨n - 1, by omega⟩
  have hinputs : opticrumInputs codeHash (matchMany (m + 1)) = (order 0).toLiveCell ::
      (List.range m).map fun i => (order (i + 1)).toLiveCell := by
    rw [opticrumInputs_matchMany, List.range_succ_eq_map, List.map_cons, List.map_map]
    rfl
  have hout : opticrumOutput? codeHash (matchMany (m + 1)) = some matched := by
    rw [opticrumOutput?_eq_head?, opticrumOutputs_matchMany]
    rfl
  refine acceptedBy_of_transition hinputs (fun c hc => ?_) orderCell_fits (fun o ho => ?_) ?_
  · obtain ⟨i, -, rfl⟩ := List.mem_map.mp hc
    rfl
  · obtain rfl := Option.some.inj (hout.symm.trans ho)
    exact matchOutput_fits
  · have hlisted : (matchMany (m + 1)).rawCellDeps.findIdx?
        (fun dep => matchArgs.channelOutpoint.isAt dep.outPoint) = some 0 := by
      have hdeps : (matchMany (m + 1)).rawCellDeps = [⟨channelCell.outPoint, .code⟩] := rfl
      rw [hdeps]
      decide
    have hinspected : (matchMany (m + 1)).resolvedCellDeps[0]? = some channelCell := rfl
    rw [hout]
    exact transition_order hlisted hinspected rfl rfl rfl (signed_matchMany _).1 0

/-- All of the orders are on the books. -/
theorem escrowsOf_matchMany (n : ℕ) :
    escrowsOf codeHash orderArgs (matchMany n) =
      (List.range n).map fun i => (order i).toLiveCell := by
  rw [escrowsOf_eq_opticrumInputs, opticrumInputs_matchMany]
  intro c hc
  rw [opticrumInputs_matchMany] at hc
  obtain ⟨i, -, rfl⟩ := List.mem_map.mp hc
  have horder : IsOrder (order i).toCell orderArgs ⟨0, 100000000000, 3⟩ := isOrder_orderOutput
  exact ⟨rfl, horder.orderArgsOf_eq⟩

/-- The script looks at the first order. -/
theorem inspects_matchMany {n : ℕ} (hn : 0 < n) :
    InspectsEscrow codeHash orderArgs (matchMany n) := by
  have hlock : isOpticrumLock codeHash (order 0).lock = true := isOpticrumLock_orderCell
  have hfirst : (order 0).toLiveCell ∈ escrowsOf codeHash orderArgs (matchMany n) := by
    rw [escrowsOf_matchMany]
    exact List.mem_map.mpr ⟨0, List.mem_range.mpr hn, rfl⟩
  refine ⟨_, hfirst, ?_⟩
  rw [groupInputs_eq_filter hlock, opticrumInputs_matchMany, List.filter_eq_self.mpr]
  · obtain ⟨m, rfl⟩ : ∃ m, n = m + 1 := ⟨n - 1, by omega⟩
    rw [List.range_succ_eq_map, List.map_cons, List.head?_cons]
  · intro c hc
    obtain ⟨i, -, rfl⟩ := List.mem_map.mp hc
    exact decide_eq_true rfl

/-- Matching several orders at once is accepted, and releases all but one pool. -/
theorem matchMany_not_conserved {n : ℕ} (hn : 2 ≤ n) :
    Consumes codeHash orderArgs (matchMany n) n true ∧ AcceptedBy codeHash (matchMany n) ∧
      ¬ Conserved codeHash orderArgs (matchMany n) := by
  have hpool : ∀ i, (order i).unoccupied = 100000 := fun _ => orderCell_unoccupied (by decide)
  have hpool' : matched.unoccupied = 100000 := matchOutput_unoccupied (by decide)
  have horder : ∀ i, IsOrder (order i).toCell orderArgs ⟨0, 100000000000, 3⟩ := fun _ =>
    isOrder_orderOutput
  have hinspects := inspects_matchMany (n := n) (by omega)
  refine ⟨⟨?_, by simp [hinspects], ?_, (signed_matchMany n).2⟩, acceptedBy_matchMany (by omega),
    ?_⟩
  · rw [escrowsOf_matchMany, List.length_map, List.length_range]
  · rw [opticrumOutputs_matchMany]
    exact List.cons_ne_nil _ _
  · have hin : pooledIn codeHash orderArgs (matchMany n) = n * 100000 := by
      rw [pooledIn, escrowsOf_matchMany, List.map_map]
      simp [Function.comp_def, hpool]
    have hrent : rentDue codeHash orderArgs (matchMany n) = 0 := by
      rw [rentDue, escrowsOf_matchMany, List.map_map]
      simp [Function.comp_def, (horder _).rentOf_eq]
    have hout : pooledOut codeHash orderArgs (matchMany n) = 100000 := by
      have hargs : orderArgsOf matched = some orderArgs := isMatch_matchOutput.orderArgsOf_eq
      rw [pooledOut, opticrumOutputs_matchMany, List.filter_singleton]
      simp [hargs, hpool']
    rw [Conserved, hin, hrent, hout]
    omega

/-- Two orders of one buyer, matched into one cell: one pool of 100000 shannons is
left unaccounted for. -/
theorem matchMany_two_not_conserved :
    Consumes codeHash orderArgs (matchMany 2) 2 true ∧ AcceptedBy codeHash (matchMany 2) ∧
      ¬ Conserved codeHash orderArgs (matchMany 2) :=
  matchMany_not_conserved le_rfl

/-! ## Escrows the script does not look at -/

/-- A match that holds 100 tokens and no pool, created in block 1000. -/
def leadMatch : MatchCell := matchCell ⟨100, 3, 0⟩ (some token) 0 0 1000

/-- What an extraction in that block leaves: no rent is due yet. -/
def leadLeft : Cell := matchOutput codeHash matchArgs ⟨100, 3, 1000⟩ (some token) 0

/-- Matches for capacity under the same lock, with 100000 shannons each. -/
def plainMatch (i : ℕ) : MatchCell := matchCell ⟨0, 3, 0⟩ none 100000 (i + 1) 1000

/-- The seller extracts from the match that holds tokens, and spends `n` matches for
capacity behind it. -/
def updateBehind (n : ℕ) : Transaction where
  inputs := leadMatch.toLiveCell ::
    ((List.range n).map (fun i => (plainMatch i).toLiveCell) ++ [sellerCell])
  outputs := [leadLeft]
  cellDeps := [.code channelCell]
  headerDeps := [headerAt 1000]

/-- The match that holds tokens comes first, and the others behind it. -/
theorem opticrumInputs_updateBehind (n : ℕ) :
    opticrumInputs codeHash (updateBehind n) =
      leadMatch.toLiveCell :: (List.range n).map fun i => (plainMatch i).toLiveCell := by
  have hseller : isOpticrumLock codeHash sellerCell.lock = false := by decide
  have htokens : isOpticrumLock codeHash leadMatch.lock = true := isOpticrumLock_matchCell
  rw [opticrumInputs, updateBehind, List.filter_cons, if_pos htokens, List.filter_append,
    List.filter_singleton, hseller, List.filter_eq_self.mpr]
  · exact congrArg _ (List.append_nil _)
  · intro c hc
    obtain ⟨i, -, rfl⟩ := List.mem_map.mp hc
    exact isOpticrumLock_matchCell

/-- On the books are the others only; the first has a type script. -/
theorem escrowsOf_updateBehind (n : ℕ) :
    escrowsOf codeHash orderArgs (updateBehind n) =
      (List.range n).map fun i => (plainMatch i).toLiveCell := by
  have htokens : leadMatch.type_ ≠ none := Option.some_ne_none token
  rw [escrowsOf, opticrumInputs_updateBehind, List.filter_cons_of_neg (by simp [htokens]),
    List.filter_eq_self.mpr]
  intro c hc
  obtain ⟨i, -, rfl⟩ := List.mem_map.mp hc
  have hplain : IsMatch (plainMatch i).toCell matchArgs ⟨0, 3, 0⟩ := isMatch_matchOutput
  exact decide_eq_true ⟨rfl, hplain.orderArgsOf_eq⟩

/-- The one group is headed by the match that holds tokens. -/
theorem not_inspects_updateBehind (n : ℕ) :
    ¬ InspectsEscrow codeHash orderArgs (updateBehind n) := by
  rintro ⟨c, hc, hfirst⟩
  rw [escrowsOf_updateBehind] at hc
  obtain ⟨i, -, rfl⟩ := List.mem_map.mp hc
  have hlock : isOpticrumLock codeHash (plainMatch i).lock = true := isOpticrumLock_matchCell
  have hhead : decide (leadMatch.lock = (plainMatch i).lock) = true := decide_eq_true rfl
  rw [groupInputs_eq_filter hlock, opticrumInputs_updateBehind, List.filter_cons, if_pos hhead,
    List.head?_cons] at hfirst
  exact absurd (congrArg (fun c => c.type_) (Option.some.inj hfirst)) (Option.some_ne_none token)

/-- What goes on is the match that holds tokens. -/
theorem opticrumOutputs_updateBehind (n : ℕ) :
    opticrumOutputs codeHash (updateBehind n) = [leadLeft] := by
  have hleft : isOpticrumLock codeHash leadLeft.lock = true := isOpticrumLock_opticrumLock _ _
  rw [opticrumOutputs, updateBehind, List.filter_singleton, hleft]
  rfl

theorem signed_updateBehind (n : ℕ) :
    Signed (updateBehind n) sellerLockHash ∧ ¬ Signed (updateBehind n) buyerLockHash := by
  constructor
  · exact ⟨sellerCell, by simp [updateBehind], calcScriptHash_sellerLock⟩
  · rintro ⟨c, hc, hhash⟩
    rcases List.mem_cons.mp hc with rfl | hc
    · exact calcScriptHash_matchLock_ne.2 hhash
    rcases List.mem_append.mp hc with hc | hc
    · obtain ⟨i, -, rfl⟩ := List.mem_map.mp hc
      exact calcScriptHash_matchLock_ne.2 hhash
    · obtain rfl := List.mem_singleton.mp hc
      exact sellerLockHash_ne_buyerLockHash (calcScriptHash_sellerLock.symm.trans hhash)

/-- The head of the group is extracted from, at a tip at which it owes nothing. -/
theorem transition_updateBehind (n : ℕ) :
    Transition (updateBehind n) leadMatch.toLiveCell (some leadLeft) := by
  have hold : IsMatch leadMatch.toCell matchArgs ⟨100, 3, 0⟩ := isMatch_matchOutput
  have hnew : IsMatch leadLeft matchArgs ⟨100, 3, 1000⟩ := isMatch_matchOutput
  have hxudt : xudtOf leadMatch.toCell = some (100, token) := matchCell_xudtOf
  have hxudt' : xudtOf leadLeft = some (100, token) := matchOutput_xudtOf
  have hfree : rentAt leadMatch.toLiveCell ⟨100, 3, 0⟩ 1000 = 0 :=
    (matchCell_rentAt (by decide) 1000).trans rfl
  have hlisted : ChannelListed (updateBehind n) matchArgs.channelOutpoint :=
    ⟨_, List.mem_cons_self, OutPoint.isAt_iff.mpr rfl⟩
  have hdue : RentDue (updateBehind n) leadMatch.toLiveCell ⟨100, 3, 0⟩ 1000 := by
    refine ⟨?_, fun _ => ?_, by rw [hfree]; decide⟩
    · simp [tip?, updateBehind, headerAt_number]
    · exact List.any_eq_true.mpr ⟨headerAt 1000, List.mem_cons_self, by
        simp [leadMatch, matchCell, MatchCell.of]⟩
  have hsigned := signed_updateBehind n
  refine .sellerExtract hold hnew (hxudt.trans hxudt'.symm) rfl hsigned.1 hsigned.2 hlisted hdue
    ?_ ?_ rfl
  · rw [valueOf_of_type_some hold rfl, hfree]
    decide
  · rw [extracted_of_type_some hold rfl, hfree]
    rfl

/-- The contract accepts it for every `n`.  The run looks at the first match and finds an
extraction in the block of that match, where nothing is due and nothing is taken. -/
theorem acceptedBy_updateBehind (n : ℕ) : AcceptedBy codeHash (updateBehind n) := by
  have hout : opticrumOutput? codeHash (updateBehind n) = some leadLeft := by
    rw [opticrumOutput?_eq_head?, opticrumOutputs_updateBehind]
    rfl
  have hfits : ∀ {d pool}, (matchOutput codeHash matchArgs d (some token) pool).occupied <
      2 ^ 64 := by
    intro d pool
    rw [matchOutput_occupied]
    decide
  refine acceptedBy_of_transition (opticrumInputs_updateBehind n) (fun c hc => ?_) hfits
    (fun o ho => ?_) ?_
  · obtain ⟨i, -, rfl⟩ := List.mem_map.mp hc
    rfl
  · obtain rfl := Option.some.inj (hout.symm.trans ho)
    exact hfits
  · rw [hout]
    exact transition_updateBehind n

/-- Any number of matches behind one that holds tokens is consumed, and all their pools are
released. -/
theorem updateBehind_not_conserved {n : ℕ} (hn : 0 < n) :
    Consumes codeHash orderArgs (updateBehind n) n false ∧ AcceptedBy codeHash (updateBehind n) ∧
      ¬ Conserved codeHash orderArgs (updateBehind n) := by
  have hpool : ∀ i, (plainMatch i).unoccupied = 100000 := fun _ => matchCell_unoccupied (by decide)
  have hpool' : leadLeft.unoccupied = 0 := matchOutput_unoccupied (by decide)
  have htip : tip? (updateBehind n) = some 1000 := by
    simp [tip?, updateBehind, headerAt_number]
  -- the tip is the block of the matches, so they owe nothing
  have hfree : ∀ i, rentOf (updateBehind n) (plainMatch i).toLiveCell = 0 := by
    intro i
    have hplain : IsMatch (plainMatch i).toCell matchArgs ⟨0, 3, 0⟩ := isMatch_matchOutput
    rw [hplain.rentOf_eq htip]
    exact (matchCell_rentAt (by decide) 1000).trans rfl
  have hunseen := not_inspects_updateBehind n
  refine ⟨⟨?_, by simp [hunseen], ?_, (signed_updateBehind n).2⟩, acceptedBy_updateBehind n, ?_⟩
  · rw [escrowsOf_updateBehind, List.length_map, List.length_range]
  · rw [opticrumOutputs_updateBehind]
    exact List.cons_ne_nil _ _
  · have hin : pooledIn codeHash orderArgs (updateBehind n) = n * 100000 := by
      rw [pooledIn, escrowsOf_updateBehind, List.map_map]
      simp [Function.comp_def, hpool]
    have hrent : rentDue codeHash orderArgs (updateBehind n) = 0 := by
      rw [rentDue, escrowsOf_updateBehind, List.map_map]
      simp [Function.comp_def, hfree]
    have hout : pooledOut codeHash orderArgs (updateBehind n) = 0 := by
      have hargs : orderArgsOf leadLeft = some orderArgs :=
        isMatch_matchOutput.orderArgsOf_eq
      rw [pooledOut, opticrumOutputs_updateBehind, List.filter_singleton]
      simp [hargs, hpool']
    rw [Conserved, hin, hrent, hout]
    omega

end Market

/-- **Conservation.** The contract conserves the value of the escrows of an order, among
whatever other cells a transaction consumes, exactly when there is one and the script looks at
it; none has no value to lose.

One direction is the books of a single inspected cell.  For the other there is an accepted
transaction for every number of escrows: several orders in a group of which the first is
matched, or escrows behind a match that holds tokens, which are not looked at even when there is
one. -/
theorem conserves_iff (n : ℕ) (inspected : Bool) :
    Conserves n inspected ↔ n = 0 ∨ (n = 1 ∧ inspected = true) := by
  constructor
  · intro h
    by_contra hnot
    cases inspected with
    | false =>
        obtain ⟨hconsumes, haccepted, hlost⟩ :=
          Market.updateBehind_not_conserved (n := n) (by omega)
        exact hlost (@h Market.scriptHash _ _ _ hconsumes haccepted)
    | true =>
        have hmany : 2 ≤ n := by simp at hnot; omega
        obtain ⟨hconsumes, haccepted, hlost⟩ := Market.matchMany_not_conserved hmany
        exact hlost (@h Market.scriptHash _ _ _ hconsumes haccepted)
  · rintro (rfl | ⟨rfl, rfl⟩) _ codeHash a tx hconsumes haccepted
    · have hnil := List.length_eq_zero_iff.mp hconsumes.count
      simp [Conserved, pooledIn, hnil]
    · exact conserved_of_inspected hconsumes haccepted

end Opticrum
