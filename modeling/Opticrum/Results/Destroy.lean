import Opticrum.Contract.Construct

/-!
# Sweeping exhausted cells

A Match cell may be destroyed once the accumulated rent covers its value.  The
script asks this of the cell it inspects.  The other cells of its group go along
unexamined, and whoever orders the inputs decides which cell comes first: anybody
may create a cell under the same lock, with no value and so exhausted at once.

## Every size of group

`sweep n` has the decoy in front and `n` matches with pools behind it, all under one lock.  The
script runs once for the group, looks at the decoy, and accepts.  So the bound is sharp, and the
tip at which it happens is one at which the pools have hardly begun to pay.

Nobody has to agree to a decoy.  A lock does not run when a cell is created under it, and the
data of the cell are its creator's choice.
-/

namespace Opticrum

open Rust Ckb

/-- The rent of the Match cell `c` covers its value at `HeaderDep[0]`. -/
def ExhaustedAt (tx : Transaction) (c : LiveCell) : Prop :=
  ∃ a d tip, IsMatch c.toCell a d ∧ tip? tx = some tip ∧ valueOf c.toCell ≤ rentAt c d tip

/-- `tx` consumes the group of `lock`, `n` Match cells with args `a`, into no
Opticrum output, and the buyer does not sign. -/
structure Sweeps [ScriptHash] (codeHash : Byte32) (lock : Script) (a : MatchArgs)
    (tx : Transaction) (n : ℕ) : Prop where
  opticrum : isOpticrumLock codeHash lock = true
  count : (tx.groupInputs lock).length = n
  decodes : ∀ c ∈ tx.groupInputs lock, ∃ d, IsMatch c.toCell a d
  closed : opticrumOutputs codeHash tx = []
  unsigned : ¬ Signed tx a.orderArgs.buyerLockHash

/-- Whatever the contract accepts sweeps only exhausted cells, in groups of `n`. -/
def SweepsExhausted (n : ℕ) : Prop :=
  ∀ [ScriptHash] (codeHash : Byte32) (lock : Script) (a : MatchArgs) (tx : Transaction),
    Sweeps codeHash lock a tx n → AcceptedBy codeHash tx →
      ∀ c ∈ tx.groupInputs lock, ExhaustedAt tx c

/-- The inspected cell of a group is exhausted. -/
theorem exhausted_of_inspected [ScriptHash] {codeHash : Byte32} {lock : Script} {a : MatchArgs}
    {tx : Transaction} {n : ℕ} (h : Sweeps codeHash lock a tx n)
    (haccepted : AcceptedBy codeHash tx) {c : LiveCell} {rest : List LiveCell}
    (hgroup : tx.groupInputs lock = c :: rest) : ExhaustedAt tx c := by
  obtain rfl := lock_of_groupInputs hgroup
  obtain ⟨d, hc⟩ := h.decodes c (hgroup ▸ List.mem_cons_self)
  have htransition := haccepted.transition h.opticrum hgroup
  rw [opticrumOutput?_eq_none_iff.mpr h.closed] at htransition
  cases htransition with
  | orderCancel old => exact absurd old hc.not_isOrder
  | matchDestroy old signed due exhausted => exact ⟨_, _, _, old, due.isTip, exhausted⟩

/-! ## A group with a decoy -/

namespace Market

/-- A Match cell without value: exhausted as soon as it exists. -/
def decoy : MatchCell := matchCell ⟨0, 3, 0⟩ none 0 0 1000

/-- A Match cell with a pool of 100000 shannons. -/
def rich (index : ℕ) : MatchCell := matchCell ⟨0, 3, 0⟩ none 100000 index 1000

/-- At block 1010 the seller destroys the decoy and `n` cells with it. -/
def sweep (n : ℕ) : Transaction where
  inputs := decoy.toLiveCell :: ((List.range n).map fun i => (rich (i + 1)).toLiveCell) ++
    [sellerCell]
  outputs := [sellerCell.toCell]
  cellDeps := []
  headerDeps := [headerAt 1010, headerAt 1000]

theorem opticrumInputs_sweep (n : ℕ) :
    opticrumInputs codeHash (sweep n) =
      decoy.toLiveCell :: (List.range n).map fun i => (rich (i + 1)).toLiveCell := by
  have hseller : isOpticrumLock codeHash sellerCell.lock = false := by decide
  rw [opticrumInputs, sweep, List.filter_append, List.filter_singleton, hseller,
    List.filter_eq_self.mpr]
  · exact List.append_nil _
  · intro c hc
    rcases List.mem_cons.mp hc with rfl | hc
    · exact isOpticrumLock_matchCell
    · obtain ⟨i, -, rfl⟩ := List.mem_map.mp hc
      exact isOpticrumLock_matchCell

/-- The others are under the same lock, and so in its group. -/
theorem shared_sweep {n : ℕ} {c : LiveCell}
    (hc : c ∈ (List.range n).map fun i => (rich (i + 1)).toLiveCell) : c.lock = decoy.lock := by
  obtain ⟨i, -, rfl⟩ := List.mem_map.mp hc
  rfl

theorem opticrumOutputs_sweep (n : ℕ) : opticrumOutputs codeHash (sweep n) = [] := by
  have hseller : isOpticrumLock codeHash sellerCell.lock = false := by decide
  rw [opticrumOutputs, sweep, List.filter_singleton, hseller]
  rfl

theorem signed_sweep (n : ℕ) :
    Signed (sweep n) sellerLockHash ∧ ¬ Signed (sweep n) buyerLockHash := by
  constructor
  · exact ⟨sellerCell, by simp [sweep], calcScriptHash_sellerLock⟩
  · rintro ⟨c, hc, hhash⟩
    rcases List.mem_append.mp hc with hc | hc
    · rcases List.mem_cons.mp hc with rfl | hc
      · exact calcScriptHash_matchLock_ne.2 hhash
      · rw [shared_sweep hc] at hhash
        exact calcScriptHash_matchLock_ne.2 hhash
    · obtain rfl := List.mem_singleton.mp hc
      exact sellerLockHash_ne_buyerLockHash (calcScriptHash_sellerLock.symm.trans hhash)

/-- The tip is block 1010, at which each of the others owes 30 of its 100000 shannons. -/
theorem tip?_sweep (n : ℕ) : tip? (sweep n) = some 1010 := by
  have htip : tip? (sweep n) = some (headerAt 1010).number.toNat := rfl
  rw [htip, headerAt_number (by decide)]

/-- The contract accepts it: the decoy is exhausted at any tip. -/
theorem acceptedBy_sweep (n : ℕ) : AcceptedBy codeHash (sweep n) := by
  have hout := opticrumOutput?_eq_none_iff.mpr (opticrumOutputs_sweep n)
  have hdecoy : IsMatch decoy.toCell matchArgs ⟨0, 3, 0⟩ := isMatch_matchOutput
  refine acceptedBy_of_transition (opticrumInputs_sweep n) (fun c hc => shared_sweep hc)
    matchCell_fits (fun o ho => ?_) ?_
  · simp [hout] at ho
  · rw [hout]
    refine .matchDestroy hdecoy (signed_sweep n).1 ⟨tip?_sweep n, fun _ => ?_, ?_⟩ ?_
    · exact List.any_eq_true.mpr
        ⟨headerAt 1000, by simp [sweep], by simp [decoy, matchCell, MatchCell.of]⟩
    · rw [decoy, matchCell_rentAt (by decide)]
      decide
    · rw [valueOf_of_type_none hdecoy rfl, decoy, matchCell_unoccupied (by decide)]
      exact Nat.zero_le _

/-- Sweeping cells along with the decoy is accepted, and they are not exhausted. -/
theorem sweep_not_exhausted (n : ℕ) :
    Sweeps codeHash decoy.lock matchArgs (sweep (n + 1)) (n + 2) ∧
      AcceptedBy codeHash (sweep (n + 1)) ∧
      (rich 1).toLiveCell ∈ (sweep (n + 1)).groupInputs decoy.lock ∧
      ¬ ExhaustedAt (sweep (n + 1)) (rich 1).toLiveCell := by
  have hgroup := groupInputs_of_shared (opticrumInputs_sweep (n + 1)) fun c hc => shared_sweep hc
  have hrich : IsMatch (rich 1).toCell matchArgs ⟨0, 3, 0⟩ := isMatch_matchOutput
  refine ⟨⟨isOpticrumLock_matchCell, ?_, ?_, opticrumOutputs_sweep _, (signed_sweep _).2⟩,
    acceptedBy_sweep _, ?_, ?_⟩
  · rw [hgroup, List.length_cons, List.length_map, List.length_range]
  · rw [hgroup]
    intro c hc
    rcases List.mem_cons.mp hc with rfl | hc
    · exact ⟨_, isMatch_matchOutput⟩
    · obtain ⟨i, -, rfl⟩ := List.mem_map.mp hc
      exact ⟨_, isMatch_matchOutput⟩
  · rw [hgroup, List.range_succ_eq_map]
    exact List.mem_cons_of_mem _ List.mem_cons_self
  · rintro ⟨a, d, tip, hd, htip, hle⟩
    obtain ⟨-, rfl⟩ := hrich.unique hd
    obtain rfl := Option.some.inj ((tip?_sweep _).symm.trans htip)
    rw [valueOf_of_type_none hrich rfl, rich, matchCell_unoccupied (by decide),
      matchCell_rentAt (by decide)] at hle
    exact absurd hle (by decide)

/-- The decoy and one cell of 100000 shannons, swept when its rent is 30. -/
theorem sweep_one_not_exhausted :
    Sweeps codeHash decoy.lock matchArgs (sweep 1) 2 ∧ AcceptedBy codeHash (sweep 1) ∧
      (rich 1).toLiveCell ∈ (sweep 1).groupInputs decoy.lock ∧
      ¬ ExhaustedAt (sweep 1) (rich 1).toLiveCell :=
  sweep_not_exhausted 0

end Market

/-- **Destruction.** Only exhausted cells are swept as long as a group has one cell, and for no
larger group.

The verifier asks whether the first cell of its group is exhausted, and lets the group go.  For
every larger group there is one headed by a cell without value, with pools behind it that have
hardly begun to pay. -/
theorem sweepsExhausted_iff (n : ℕ) : SweepsExhausted n ↔ n ≤ 1 := by
  constructor
  · intro h
    by_contra hn
    obtain ⟨m, rfl⟩ : ∃ m, n = m + 2 := ⟨n - 2, by omega⟩
    obtain ⟨hsweeps, haccepted, hmem, hnot⟩ := Market.sweep_not_exhausted m
    exact hnot (@h Market.scriptHash _ _ _ _ hsweeps haccepted _ hmem)
  · intro hn _ codeHash lock a tx hsweeps haccepted c hc
    have hlength := hsweeps.count
    cases hgroup : tx.groupInputs lock with
    | nil => simp [hgroup] at hc
    | cons head rest =>
        rw [hgroup, List.length_cons] at hlength
        obtain rfl : rest = [] := List.eq_nil_of_length_eq_zero (by omega)
        rw [hgroup] at hc
        obtain rfl := List.mem_singleton.mp hc
        exact exhausted_of_inspected hsweeps haccepted hgroup

end Opticrum
